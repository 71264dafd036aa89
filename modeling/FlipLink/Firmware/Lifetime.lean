/-
# `FlipLink.Firmware.Lifetime` — the application from its launch to its end

The whole of `main` over the three memories: the shell, the IR instrument and the
Sub-GHz instrument, each with its interrupts.  The startup, the main loop with all
that a frame may ask for, the two `stop_capture`s and the teardowns are one program;
what the bytes say (which frame is decoded, whether a request is in order) is left
to the answers, so that every conversation with the host is among the runs.
-/
import FlipLink.Firmware.IrMemory
import FlipLink.Firmware.SubghzMemory

namespace FlipLink.Lifetime

open Lib

abbrev Memory : Type := Shell × Ir.Memory × Subghz.Memory

abbrev Isr : Type := Shell.Isr ⊕ Ir.Memory.Isr ⊕ Subghz.Memory.Isr

def interrupts : Interrupts Memory Isr :=
  Shell.interrupts.prod (Ir.Memory.interrupts.prod Subghz.Memory.interrupts)

def initial : Memory := (Shell.initial, Ir.Memory.initial, Subghz.Memory.initial)

/-! ## The program -/

def shell (p : Prog Answer Shell) : Prog Answer Memory := p.left

/-- A function of the IR instrument; its senders call `cdc_send_all`. -/
def ir (p : Prog Answer Ir.Memory) : Prog Answer Memory := .right Shell.cdcSendAll p.left

def subghz (p : Prog Answer Subghz.Memory) : Prog Answer Memory :=
  .right Shell.cdcSendAll (.right .call p)

/-- One of them, as the answers choose; none where they choose none. -/
def choose : List (Prog Answer Memory) → Prog Answer Memory
  | [] => .skip
  | p :: ps => .ite (fun a _ => a.yes) p (choose ps)

/-- A decoded frame: a PING or HELLO, a REQ of each kind, a STREAM_STOP; others are ignored,
and so is a PING whose PONG does not fit. -/
def frame : Prog Answer Memory :=
  choose
    [shell Shell.cdcSendAll,
      ir Ir.Memory.startCapture,
      subghz Subghz.Memory.startCapture,
      .seq (ir Ir.Memory.transmit) (shell Shell.cdcSendAll),
      .seq (subghz Subghz.Memory.transmit) (shell Shell.cdcSendAll),
      .seq (subghz Subghz.Memory.linkProbe) (shell Shell.cdcSendAll),
      .seq (ir Ir.Memory.stopCapture) (subghz Subghz.Memory.stopCapture)]

def receive (a : Answer) (s : Shell) : Option Shell :=
  (s.res.use .rxStream).map fun _ => { s with flags.got := a.count }

def overflowClear (_ : Answer) (s : Shell) : Option Shell :=
  some { s with flags.overflowed := false }

def idleStore (idle : Nat → Nat) (_ : Answer) (s : Shell) : Option Shell :=
  some { s with flags.idle := idle s.flags.idle }

/-- After an overflow everything is received and dropped. -/
def discard : Prog Answer Shell :=
  .seq (.act overflowClear) <|
  .seq (.act receive) <|
  .seq (.loop (fun _ s => s.flags.got != 0) (.act receive)) (.act (idleStore fun _ => 0))

/-- The drains, and the frames of the bytes received. -/
def serve : Prog Answer Memory :=
  .seq (ir (.ite (fun _ m => m.active) Ir.Memory.drainCapture .skip)) <|
  .seq (subghz (.ite (fun _ m => m.active) Subghz.Memory.drainCapture .skip)) <|
  .ite (fun _ s => s.1.flags.got == 0)
    (.ite (fun _ s => s.2.1.active || s.2.2.active) .skip (shell (.act (idleStore (· + 1)))))
    (.seq (shell (.act (idleStore fun _ => 0))) (.loop (fun a _ => a.yes) frame))

def turn : Prog Answer Memory :=
  .seq (shell (.act receive)) <|
  .ite (fun _ s => s.1.flags.overflowed) (shell discard) serve

def mainLoop : Prog Answer Memory :=
  .loop (fun _ s => s.1.flags.running && decide (s.1.flags.idle < MainLoop.maxIdle)) turn

def main : Prog Answer Memory :=
  .seq (shell (Shell.block Shell.startup)) <|
  .ite (fun _ s => !s.1.res.switched) (shell (Shell.block (Shell.teardown (-1)))) <|
  .seq mainLoop <|
  .seq (ir Ir.Memory.stopCapture) <|
  .seq (subghz Subghz.Memory.stopCapture) (shell (Shell.block (Shell.teardown 0)))

/-- The application's thread, with its interrupts. -/
def machine : Machine (Memory × List (Prog Answer Memory)) (Interrupts.Label Answer Isr)
    (Interrupts.Fault Isr) := interrupts.machine Answer

/-! ## The outlines -/

open Interrupts (Both)

/-- No pointer that an interrupt reads dangles. -/
def Sound : Memory → Prop :=
  Both (fun s => Shell.Sound s.res) (Both Ir.Memory.Sound Subghz.Memory.Sound)

/-- The main loop is running. -/
def Running (s : Shell) : Prop := Shell.Opened s.res ∧ s.res.switched = true

/-- The main loop is running, and the instruments are as said. -/
def While (P : Ir.Memory → Prop) (Q : Subghz.Memory → Prop) : Memory → Prop :=
  Both Running (Both P Q)

/-- Between two frames. -/
def Resting : Memory → Prop := While Ir.Memory.Resting Subghz.Memory.Resting

theorem Running.stable : Shell.interrupts.Stable (fun s => Shell.Sound s.res) Running :=
  Shell.Opened.stable true

section While

variable {P P' : Ir.Memory → Prop} {Q Q' : Subghz.Memory → Prop}

theorem While.stable (hP : Ir.Memory.interrupts.Stable Ir.Memory.Sound P)
    (hQ : Subghz.Memory.interrupts.Stable Subghz.Memory.Sound Q) :
    interrupts.Stable Sound (While P Q) :=
  Running.stable.prod (hP.prod hQ)

theorem ir_outline {p : Prog Answer Ir.Memory}
    (h : Ir.Memory.interrupts.Outline Ir.Memory.Sound P p P')
    (hQ : Subghz.Memory.interrupts.Stable Subghz.Memory.Sound Q) :
    interrupts.Outline Sound (While P Q) (ir p) (While P' Q) :=
  .right (Shell.cdcSendAll_outline true) (h.left hQ)

theorem subghz_outline {p : Prog Answer Subghz.Memory}
    (h : Subghz.Memory.interrupts.Outline Subghz.Memory.Sound Q p Q')
    (hP : Ir.Memory.interrupts.Stable Ir.Memory.Sound P) :
    interrupts.Outline Sound (While P Q) (subghz p) (While P Q') :=
  .right (Shell.cdcSendAll_outline true) (.right (.call hP) h)

end While

theorem Resting.stable : interrupts.Stable Sound Resting :=
  While.stable Ir.Memory.Resting.stable Subghz.Memory.Resting.stable

theorem shell_outline {p : Prog Answer Shell}
    (h : Shell.interrupts.Outline (fun s => Shell.Sound s.res) Running p Running) :
    interrupts.Outline Sound Resting (shell p) Resting :=
  h.left (Ir.Memory.Resting.stable.prod Subghz.Memory.Resting.stable)

theorem choose_outline : ∀ ps : List (Prog Answer Memory),
    (∀ p ∈ ps, interrupts.Outline Sound Resting p Resting) →
      interrupts.Outline Sound Resting (choose ps) Resting
  | [], _ => .skip Resting.stable
  | p :: ps, h =>
      .ite Resting.stable (fun _ _ hs _ => hs) (fun _ _ hs _ => hs) (h p List.mem_cons_self)
        (choose_outline ps fun q hq => h q (List.mem_cons_of_mem p hq))

theorem send_outline : interrupts.Outline Sound Resting (shell Shell.cdcSendAll) Resting :=
  shell_outline (Shell.cdcSendAll_outline true)

theorem frame_outline : interrupts.Outline Sound Resting frame Resting := by
  have hir := @Ir.Memory.Resting.stable
  have hsubghz := @Subghz.Memory.Resting.stable
  refine choose_outline _ fun p hp => ?_
  simp only [List.mem_cons, List.not_mem_nil, or_false] at hp
  rcases hp with rfl | rfl | rfl | rfl | rfl | rfl | rfl
  · exact send_outline
  · exact ir_outline Ir.Memory.startCapture_outline hsubghz
  · exact subghz_outline Subghz.Memory.startCapture_outline hir
  · exact .seq (ir_outline Ir.Memory.transmit_outline hsubghz) send_outline
  · exact .seq (subghz_outline Subghz.Memory.transmit_outline hir) send_outline
  · exact .seq (subghz_outline Subghz.Memory.linkProbe_outline hir) send_outline
  · refine .weaken (fun _ h => h)
      (.seq (ir_outline Ir.Memory.stopCapture_outline hsubghz)
        (subghz_outline Subghz.Memory.stopCapture_outline Ir.Memory.Stopped.stable)) ?_
      Resting.stable
    exact fun s h => ⟨h.1, h.2.1.resting, h.2.2.resting⟩

/-- What touches the flags and no handle. -/
theorem flags_outline {f : Answer → Shell → Option Shell}
    (h : ∀ a s, Running s → ∃ s', f a s = some s' ∧ s'.res = s.res) :
    Shell.interrupts.Outline (fun s => Shell.Sound s.res) Running (.act f) Running := by
  refine .act Running.stable Running.stable fun a s hs => ?_
  obtain ⟨s', hs', hres⟩ := h a s hs
  refine ⟨s', hs', ?_⟩
  show Shell.Opened s'.res ∧ s'.res.switched = true
  rw [hres]
  exact hs

theorem receive_outline :
    Shell.interrupts.Outline (fun s => Shell.Sound s.res) Running (.act receive) Running := by
  refine flags_outline fun a s hs => ⟨{ s with flags.got := a.count }, ?_, rfl⟩
  have hset : s.res.rxStream = true := congrArg Shell.Handles.rxStream hs.1
  rw [receive, Shell.Handles.use, if_pos (hs.1.sound.2.1 hset), Option.map_some]

theorem discard_outline :
    Shell.interrupts.Outline (fun s => Shell.Sound s.res) Running discard Running :=
  .seq (flags_outline fun _ _ _ => ⟨_, rfl, rfl⟩) <|
  .seq receive_outline <|
  .seq (.loop Running.stable Running.stable (fun _ _ h _ => h) (fun _ _ h _ => h) receive_outline)
    (flags_outline fun _ _ _ => ⟨_, rfl, rfl⟩)

theorem serve_outline : interrupts.Outline Sound Resting serve Resting := by
  have hir := @Ir.Memory.Resting.stable
  have hsubghz := @Subghz.Memory.Resting.stable
  have hidle : ∀ idle, interrupts.Outline Sound Resting (shell (.act (idleStore idle))) Resting :=
    fun idle => shell_outline (flags_outline fun _ _ _ => ⟨_, rfl, rfl⟩)
  refine .seq (ir_outline (.ite hir (fun _ _ h _ => h) (fun _ _ h _ => h)
      Ir.Memory.drainCapture_outline (.skip hir)) hsubghz) <|
    .seq (subghz_outline (.ite hsubghz (fun _ _ h _ => h) (fun _ _ h _ => h)
      Subghz.Memory.drainCapture_outline (.skip hsubghz)) hir) <|
    .ite Resting.stable (fun _ _ h _ => h) (fun _ _ h _ => h)
      (.ite Resting.stable (fun _ _ h _ => h) (fun _ _ h _ => h) (.skip Resting.stable)
        (hidle _))
      (.seq (hidle _) (.loop Resting.stable Resting.stable (fun _ _ h _ => h)
        (fun _ _ h _ => h) frame_outline))

theorem mainLoop_outline : interrupts.Outline Sound Resting mainLoop Resting :=
  .loop Resting.stable Resting.stable (fun _ _ h _ => h) (fun _ _ h _ => h) <|
  .seq (shell_outline receive_outline) <|
  .ite Resting.stable (fun _ _ h _ => h) (fun _ _ h _ => h) (shell_outline discard_outline)
    serve_outline

/-- What is left when `main` has returned. -/
def Ended : Memory → Prop :=
  Both (fun s => Shell.Closed s.res)
    (Both Ir.Memory.Stopped (Subghz.Memory.Stopped false))

/-- Nothing of the instruments runs, and the shell is where the calls `ops` lead to `F`. -/
def Before (F : Shell.Handles → Prop) (ops : List Shell.Op) : Memory → Prop :=
  Both (fun s => Shell.Safe F ops s.res) (Both Ir.Memory.Stopped (Subghz.Memory.Stopped false))

theorem Before.stable (F : Shell.Handles → Prop) (ops : List Shell.Op) :
    interrupts.Stable Sound (Before F ops) :=
  (Shell.stable (F := Shell.Safe F ops) fun _ h => h.sound).prod
    (Ir.Memory.Stopped.stable.prod (Subghz.Memory.Stopped.stable false))

theorem block_outline (F : Shell.Handles → Prop) (ops : List Shell.Op) :
    interrupts.Outline Sound (Before F ops) (shell (Shell.block ops)) (Before F []) :=
  (Shell.outline_block ops).left
    (Ir.Memory.Stopped.stable.prod (Subghz.Memory.Stopped.stable false))

theorem Ended.stable : interrupts.Stable Sound Ended := by
  have hsound : ∀ h : Shell.Handles, Shell.Closed h → Shell.Sound h := by
    intro h hc
    refine ⟨fun hcb => ?_, fun hrx => ?_, fun htx => ?_, fun hshown => ?_⟩
    · exact absurd (hc.callbacks.symm.trans hcb) (by decide)
    · exact absurd (hc.rxStream.symm.trans hrx) (by decide)
    · exact absurd (hc.txSem.symm.trans htx) (by decide)
    · exact absurd (hc.shown.symm.trans hshown) (by decide)
  exact (Shell.stable hsound).prod
    (Ir.Memory.Stopped.stable.prod (Subghz.Memory.Stopped.stable false))

theorem teardown_outline (switched : Bool) :
    interrupts.Outline Sound
      (Both (fun s => Shell.Opened s.res ∧ s.res.switched = switched)
        (Both Ir.Memory.Stopped (Subghz.Memory.Stopped false)))
      (shell (Shell.block (Shell.teardown (if switched then 0 else -1)))) Ended := by
  refine .weaken ?_ (block_outline Shell.Closed _) (fun s h => ⟨h.1.2, h.2⟩) Ended.stable
  rintro s ⟨⟨hopen, rfl⟩, hrest⟩
  refine ⟨?_, hrest⟩
  have hsafe := Shell.teardown_safe s.1.res.mainSem s.1.res.switched
  rwa [← hopen] at hsafe

theorem main_outline : interrupts.Outline Sound (Before Shell.Opened Shell.startup) main Ended := by
  refine .seq (block_outline Shell.Opened Shell.startup) <|
    .ite (Before.stable _ _) ?_ ?_ (teardown_outline false) <|
    .seq mainLoop_outline <|
    .seq (ir_outline Ir.Memory.stopCapture_outline Subghz.Memory.Resting.stable) <|
    .seq (subghz_outline Subghz.Memory.stopCapture_outline Ir.Memory.Stopped.stable)
      (teardown_outline true)
  · intro _ s h hb
    exact ⟨⟨h.1.2, by simpa using hb⟩, h.2⟩
  · intro _ s h hb
    exact ⟨⟨h.1.2, by simpa using hb⟩, h.2.1.resting, h.2.2.resting⟩

theorem starts : Before Shell.Opened Shell.startup initial :=
  ⟨Shell.startup_safe, ⟨⟨rfl, rfl, rfl⟩, rfl, rfl⟩, ⟨⟨rfl, rfl, rfl, rfl, rfl⟩, rfl, rfl, rfl⟩⟩

/-- Where `main` has returned, no interrupt of the application is enabled. -/
theorem Ended.quiet {s : Memory} (h : Ended s) : ∀ i : Isr, interrupts.enabled i s = false
  | .inl (.rx _) | .inl .tx => h.1.callbacks
  | .inl .draw | .inl .back => by
      show (s.1.res.shown && _) = false
      rw [h.1.shown, Bool.false_and]
  | .inr (.inl .rxCapture) | .inr (.inl .txGetData) => by
      show (s.2.1.hal == _ && _) = false
      rw [h.2.1.1.2.1]
      rfl
  | .inr (.inr .rxCapture) | .inr (.inr .txYield) => by
      show (s.2.2.hal == _) = false
      rw [h.2.2.1.2.1]
      rfl
  | .inr (.inr .haveRead) => by
      show (s.2.2.worker == some true) = false
      rw [h.2.2.2.2.2]
      rfl

/-! ## Every run -/

variable {ls : List (Interrupts.Label Answer Isr)} {s : Memory} {k : List (Prog Answer Memory)}
  {es : List (Interrupts.Fault Isr)}

/-- **No interrupt finds a dangling pointer.**  Wherever the callbacks and the ISRs come
between the operations of `main`, and whatever the host asks for: no operation uses or frees
what is not allocated, or starts or stops a HAL out of turn; no ISR reads a buffer that is
freed, a vector that is dropped, or beyond its end; and the RX callback always finds its
stream buffer.  (What `main` uses without a check is always allocated, see `Shell.Op.exec`.) -/
theorem no_interrupt_dangles (hr : machine.run (initial, [main]) ls = some ((s, k), es)) :
    es = [] ∧ Shell.Sound s.1.res ∧ Ir.Memory.Sound s.2.1 ∧ Subghz.Memory.Sound s.2.2 := by
  obtain ⟨hes, hsound, -⟩ := main_outline.run starts hr
  exact ⟨hes, hsound⟩

/-- The startup, and a REQ for `ir.transmit` with three timings. -/
def transmitting : List (Interrupts.Label Answer Isr) :=
  List.replicate 46 (.main ⟨true, 3⟩) ++ List.replicate 3 (.main ⟨false, 3⟩) ++
    List.replicate 2 (.main ⟨true, 3⟩) ++ [.main ⟨false, 3⟩] ++
    List.replicate 16 (.main ⟨true, 3⟩) ++
    List.replicate 4 (.interrupt (.inr (.inl .txGetData)))

/-- The data ISR comes once more than there are timings. -/
theorem no_interrupt_dangles_transmitting : ∃ s k,
    machine.run (initial, [main]) transmitting = some ((s, k), []) ∧
      s.2.1.hal = .tx ∧ s.2.1.txPos = 3 ∧ s.2.1.timings = some 3 ∧ Shell.Sound s.1.res := by
  obtain ⟨⟨⟨s, k⟩, es⟩, hr, hat⟩ := Option.map_eq_some_iff.mp
    (show (machine.run (initial, [main]) transmitting).map
      (fun r => decide (r.1.1.2.1.hal = .tx ∧ r.1.1.2.1.txPos = 3)) = some true by decide +kernel)
  obtain ⟨hhal, hpos⟩ := of_decide_eq_true hat
  obtain ⟨rfl, hshell, hir, -⟩ := no_interrupt_dangles hr
  have hlen : s.2.1.timings = some s.2.1.txLen := (hir.2.2.2 hhal)
  have hthree : (machine.run (initial, [main]) transmitting).map
      (fun r => r.1.1.2.1.txLen) = some 3 := by decide +kernel
  rw [hr] at hthree
  exact ⟨s, k, hr, hhal, hpos, hlen.trans (congrArg some (Option.some.inj hthree)), hshell⟩

/-- **`main` cleans up after itself.**  However it comes to its end (Back, idleness, or a
refused switch to dual CDC): the view port, the stream buffer, the semaphore and the GUI record
are freed, no callback is registered and no interrupt of the application enabled any more, the
previous USB configuration is back unless that is refused, both radios are at rest and nothing
is lent to them; what stays is at most one capture buffer of each instrument.  It returns 0
exactly if the configuration was switched. -/
theorem main_cleans_up (hr : machine.run (initial, [main]) ls = some ((s, []), es)) :
    Shell.Closed s.1.res ∧
      (s.2.1.hal = .idle ∧ s.2.1.txPtr = false ∧ s.2.1.timings = none ∧ s.2.1.buffers ≤ 1) ∧
      (s.2.2.hal = .idle ∧ s.2.2.begun = false ∧ s.2.2.txPtr = false ∧ s.2.2.edges = none ∧
        s.2.2.worker = none ∧ s.2.2.buffers ≤ 1) ∧
      ∀ i : Isr, interrupts.enabled i s = false := by
  obtain ⟨-, hsound, hend⟩ := main_outline.run starts hr
  have h : Ended s := hend rfl
  have ⟨hclosed, ⟨⟨_, hir, _⟩, hptr, htimings⟩, ⟨_, hradio, hbegun, _⟩, hnone⟩ := h
  exact ⟨hclosed, ⟨hir, hptr, htimings, hsound.2.1.2.1⟩,
    ⟨hradio, hbegun, hnone.1, hnone.2.1, hnone.2.2, hsound.2.2.2.1⟩, h.quiet⟩

/-- Back is pressed while the RX buffer is being allocated. -/
def backAtOnce : List (Interrupts.Label Answer Isr) :=
  List.replicate 20 (.main ⟨true, 3⟩) ++ [.interrupt (.inl .back)] ++
    List.replicate 42 (.main ⟨true, 3⟩)

theorem main_cleans_up_back : ∃ s,
    machine.run (initial, [main]) backAtOnce = some ((s, []), []) ∧
      s.1.res.live = [] ∧ s.1.res.exit = some 0 := by
  obtain ⟨⟨⟨s, k⟩, es⟩, hr, hat⟩ := Option.map_eq_some_iff.mp
    (show (machine.run (initial, [main]) backAtOnce).map
      (fun r => (r.1.2.isEmpty, r.1.1.1.res.switched, r.2.isEmpty)) = some (true, true, true) by
      decide +kernel)
  simp only [Prod.mk.injEq, List.isEmpty_iff] at hat
  obtain ⟨rfl, hswitched, rfl⟩ := hat
  obtain ⟨hclosed, -⟩ := main_cleans_up hr
  refine ⟨s, hr, hclosed.live, ?_⟩
  rw [hclosed.exit, if_pos hswitched]

end FlipLink.Lifetime
