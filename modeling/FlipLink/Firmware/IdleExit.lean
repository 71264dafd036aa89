/-
# `FlipLink.Firmware.IdleExit` — when the main loop ends

The loop goes on while `RUNNING` is set and `idle` is below `MAX_IDLE`.  A turn that
finds bytes, or an overflow, starts the count again; one that finds nothing counts,
unless a capture is active, when it neither counts nor starts the count again.
Read off a run, turn by turn (`seen`), that gives the exact end of the loop, and what
it means for a capture (`loop_ends_iff`): by itself the loop ends only where none is
active and no frame is left, so nothing is cut short and no STREAM_STOP is sent on the
way out.
-/
import FlipLink.Firmware.Device

namespace FlipLink.Device

open Lib

/-! ## What a run shows of the loop -/

inductive LoopTurn where
  | launched
  /-- Back was pressed. -/
  | back
  /-- Bytes, or an overflow. -/
  | heard
  /-- Nothing, and no capture active. -/
  | nothing
  /-- Nothing, while a capture is active. -/
  | capturing
  deriving DecidableEq, Repr

/-- A capture of either instrument is active. -/
def anyCapture (d : Device) : Bool := Ir.captureActive d.ir || Subghz.captureActive d.subghz

def seen (d : Device) : Label → Device → List Event → List LoopTurn
  | .receive got overflowed, _, _ =>
      [if overflowed || !got.isEmpty then .heard
        else if d.anyCapture then .capturing else .nothing]
  | .back, _, _ => [.back]
  | .launch, _, _ => [.launched]
  | _, _, _ => []

/-- The turns of a run, from the launch. -/
def loopTurns (fromPayload : List UInt8 → Option Req) (ls : List Label) : List LoopTurn :=
  (machine fromPayload).trace seen initial ls

/-- The turns that found nothing since something was heard. -/
def LoopTurn.count (n : Nat) : LoopTurn → Nat
  | .launched | .heard => 0
  | .nothing => n + 1
  | .back | .capturing => n

def idleTurns (ts : List LoopTurn) : Nat := ts.foldl LoopTurn.count 0

/-- Back was pressed since the launch. -/
def LoopTurn.press (pressed : Bool) : LoopTurn → Bool
  | .launched => false
  | .back => true
  | .heard | .nothing | .capturing => pressed

def pressed (ts : List LoopTurn) : Bool := ts.foldl LoopTurn.press false

theorem idleTurns_append (ts ts' : List LoopTurn) :
    idleTurns (ts ++ ts') = ts'.foldl LoopTurn.count (idleTurns ts) := List.foldl_append

theorem pressed_append (ts ts' : List LoopTurn) :
    pressed (ts ++ ts') = ts'.foldl LoopTurn.press (pressed ts) := List.foldl_append

/-! ## The counter -/

/-- `idle` counts the turns, and where it has come to its bound nothing is going on. -/
structure Counts (d : Device) (ts : List LoopTurn) : Prop where
  running : d.running = !pressed ts
  idle : d.loop.idle = idleTurns ts
  bounded : d.loop.idle ≤ MainLoop.maxIdle
  atEnd : d.loop.idle = MainLoop.maxIdle → d.todo = [] ∧ d.anyCapture = false

theorem Counts.initial : Counts initial [] where
  running := rfl
  idle := rfl
  bounded := Nat.zero_le _
  atEnd h := absurd h (by decide)

/-- What the turns do not show leaves the counter alone, and a capture inactive. -/
theorem Counts.still {d d' : Device} {ts : List LoopTurn} (h : Counts d ts)
    (hrunning : d'.running = d.running) (hidle : d'.loop.idle = d.loop.idle)
    (hover : d.todo = [] ∧ d.anyCapture = false → d'.todo = [] ∧ d'.anyCapture = false) :
    Counts d' (ts ++ []) := by
  rw [List.append_nil]
  exact ⟨hrunning.trans h.running, hidle.trans h.idle, hidle ▸ h.bounded,
    fun hmax => hover (h.atEnd (hidle ▸ hmax))⟩

/-- A turn that hears something sets it to 0. -/
theorem Counts.heard {d d' : Device} {ts : List LoopTurn} (h : Counts d ts)
    (hrunning : d'.running = d.running) (hidle : d'.loop.idle = 0) :
    Counts d' (ts ++ [.heard]) := by
  refine ⟨?_, ?_, hidle.symm ▸ Nat.zero_le _,
    fun hmax => absurd (hidle.symm.trans hmax) (by decide)⟩
  · rw [pressed_append]
    exact hrunning.trans h.running
  · rw [idleTurns_append]
    exact hidle

/-- `handle_frame` leaves the loop alone. -/
theorem handleFrame_loop (fromPayload : List UInt8 → Option Req) (hal : Hal) (typ : MsgType)
    (seq : UInt16) (payload : List UInt8) (d : Device) :
    (handleFrame fromPayload hal typ seq payload d).1.running = d.running ∧
      (handleFrame fromPayload hal typ seq payload d).1.loop = d.loop := by
  unfold handleFrame
  split
  · exact ⟨rfl, rfl⟩
  · split
    · unfold handleReq
      split_ifs
      · split <;> exact ⟨rfl, rfl⟩
      · split <;> exact ⟨rfl, rfl⟩
    · exact ⟨rfl, rfl⟩
  · exact ⟨rfl, rfl⟩
  · exact ⟨rfl, rfl⟩

theorem drainCaptures_any (d : Device) : (drainCaptures d).1.anyCapture = d.anyCapture :=
  congrArg₂ (· || ·) (drainCaptures_frame d).1.1 (drainCaptures_frame d).2.1

theorem Counts.receive {d d' : Device} {ts : List LoopTurn} {es : List Event} (h : Counts d ts)
    {got : List UInt8} {overflowed : Bool} {fromPayload : List UInt8 → Option Req}
    (hs : step fromPayload d (.receive got overflowed) = some (d', es)) :
    Counts d' (ts ++ seen d (.receive got overflowed) d' es) := by
  simp only [step] at hs
  by_cases hgo : (!d.ended && d.todo.isEmpty && d.looping) = true
  · rw [if_pos hgo] at hs
    cases hs
    simp only [Bool.and_eq_true, Device.looping, decide_eq_true_eq] at hgo
    obtain ⟨-, -, hlt⟩ := hgo
    cases overflowed with
    | true => exact h.heard rfl rfl
    | false =>
        cases got with
        | cons byte got =>
            refine h.heard rfl ?_
            show (MainLoop.turn d.loop _).2.idle = 0
            rw [MainLoop.turn, if_neg Bool.false_ne_true, if_neg (by simp)]
            dsimp only
            split_ifs <;> rfl
        | nil =>
            have hturn : MainLoop.turn d.loop
                  { got := [], overflowed := false, capturing := d.anyCapture }
                = ([], if d.anyCapture then d.loop else { d.loop with idle := d.loop.idle + 1 }) :=
              rfl
            show Counts { (drainCaptures d).1 with
              loop := (MainLoop.turn d.loop ⟨[], false, d.anyCapture⟩).2,
              todo := (MainLoop.turn d.loop ⟨[], false, d.anyCapture⟩).1 }
              (ts ++ [if d.anyCapture then .capturing else .nothing])
            rw [hturn]
            cases hcap : d.anyCapture with
            | true =>
                refine ⟨?_, ?_, Nat.le_of_lt hlt, fun hmax => absurd hmax (Nat.ne_of_lt hlt)⟩
                · rw [pressed_append]
                  exact h.running
                · rw [idleTurns_append]
                  exact h.idle
            | false =>
                refine ⟨?_, ?_, hlt, fun _ => ⟨rfl, (drainCaptures_any d).trans hcap⟩⟩
                · rw [pressed_append]
                  exact h.running
                · rw [idleTurns_append]
                  exact congrArg (· + 1) h.idle
  · rw [if_neg hgo] at hs
    cases hs

theorem Counts.step {d d' : Device} {ts : List LoopTurn} {es : List Event} (h : Counts d ts)
    {fromPayload : List UInt8 → Option Req} {l : Label}
    (hs : step fromPayload d l = some (d', es)) : Counts d' (ts ++ seen d l d' es) := by
  cases l with
  | irIsr e =>
      simp only [Device.step] at hs
      split_ifs at hs
      cases hs
      exact h.still rfl rfl fun hover =>
        ⟨hover.1, (congrArg (· || _) (rxCaptureIsr_frame d.ir e).1).trans hover.2⟩
  | subghzIsr e =>
      simp only [Device.step] at hs
      split_ifs at hs
      cases hs
      exact h.still rfl rfl fun hover =>
        ⟨hover.1, (congrArg (_ || ·) (rxCaptureIsr_frame d.subghz e).1).trans hover.2⟩
  | receive got overflowed => exact h.receive hs
  | handle hal =>
      simp only [Device.step] at hs
      split at hs
      · rename_i typ seq payload rest htodo
        cases hs
        obtain ⟨hrunning, hloop⟩ :=
          handleFrame_loop fromPayload hal typ seq payload { d with todo := rest }
        exact h.still hrunning (congrArg (·.idle) hloop) fun hover =>
          absurd (htodo.symm.trans hover.1) (List.cons_ne_nil _ _)
      · rename_i seq payload rest htodo
        cases hs
        exact h.still rfl rfl fun hover =>
          absurd (htodo.symm.trans hover.1) (List.cons_ne_nil _ _)
      · cases hs
  | back =>
      cases hs
      refine ⟨?_, ?_, h.bounded, h.atEnd⟩
      · rw [pressed_append]
        rfl
      · rw [idleTurns_append]
        exact h.idle
  | exit =>
      simp only [Device.step] at hs
      split_ifs at hs
      cases hs
      refine h.still rfl rfl fun hover => ⟨hover.1, ?_⟩
      exact congrArg₂ (· || ·) (stopCapture_active d.ir) (stopCapture_active d.subghz)
  | launch =>
      simp only [Device.step] at hs
      split_ifs at hs
      cases hs
      refine ⟨?_, ?_, Nat.zero_le _, fun hmax => absurd hmax (by decide)⟩
      · rw [pressed_append]
        rfl
      · rw [idleTurns_append]
        rfl

variable {fromPayload : List UInt8 → Option Req} {ls : List Label} {d d' : Device}
  {es : List Event}

theorem run_counts (hr : (machine fromPayload).run initial ls = some (d, es)) :
    Counts d (loopTurns fromPayload ls) :=
  Machine.run_trace (Q := Counts) (fun h hs => h.step hs) .initial hr

/-! ## The end of the loop -/

/-- Where no capture is active there is nothing to stop. -/
theorem stopCapture_idle {p : CaptureConfig} {c : Capture p} (h : c.active = false) :
    c.stopCapture.2 = [] := by
  rw [Capture.stopCapture, h]
  rfl

theorem stopCaptures_idle (h : d.anyCapture = false) : (stopCaptures d).2 = [] := by
  obtain ⟨hir, hsubghz⟩ := Bool.or_eq_false_iff.mp h
  exact List.append_eq_nil_iff.mpr ⟨stopCapture_idle hir, stopCapture_idle hsubghz⟩

/-- **When the loop ends.**  In every run it goes on as long as Back was not pressed since the
launch and fewer than `MAX_IDLE` turns found nothing, with no capture active, since something
was last heard; their number never passes `MAX_IDLE`.  A loop that ends without Back ends where
all that was received is handled and no capture is active, and sends nothing on its way out. -/
theorem loop_ends_iff (hr : (machine fromPayload).run initial ls = some (d, es)) :
    (d.looping = true ↔ pressed (loopTurns fromPayload ls) = false ∧
        idleTurns (loopTurns fromPayload ls) < MainLoop.maxIdle) ∧
      idleTurns (loopTurns fromPayload ls) ≤ MainLoop.maxIdle ∧
      ∀ d' sent, step fromPayload d .exit = some (d', [.exited sent]) →
        pressed (loopTurns fromPayload ls) = true ∨
          idleTurns (loopTurns fromPayload ls) = MainLoop.maxIdle ∧ sent = [] ∧
            d.todo = [] ∧ d.anyCapture = false := by
  have h := run_counts hr
  have hiff : d.looping = true ↔ pressed (loopTurns fromPayload ls) = false ∧
      idleTurns (loopTurns fromPayload ls) < MainLoop.maxIdle := by
    rw [looping, Bool.and_eq_true, decide_eq_true_eq, h.running, h.idle, Bool.not_eq_true']
  refine ⟨hiff, h.idle ▸ h.bounded, fun d' sent hs => ?_⟩
  simp only [Device.step] at hs
  split_ifs at hs with hexit
  cases hs
  simp only [Bool.and_eq_true, Bool.not_eq_true', Bool.eq_false_iff] at hexit
  obtain ⟨-, hout⟩ := hexit
  by_cases hpressed : pressed (loopTurns fromPayload ls) = true
  · exact .inl hpressed
  · have hmax : idleTurns (loopTurns fromPayload ls) = MainLoop.maxIdle := by
      refine Nat.le_antisymm (h.idle ▸ h.bounded) (Nat.le_of_not_lt fun hlt => ?_)
      exact hout (hiff.mpr ⟨Bool.eq_false_iff.mpr hpressed, hlt⟩)
    obtain ⟨htodo, hany⟩ := h.atEnd (h.idle.trans hmax)
    exact .inr ⟨hmax, stopCaptures_idle hany, htodo, hany⟩

theorem drainCaptures_idle (h : d.anyCapture = false) : drainCaptures d = (d, []) := by
  obtain ⟨hir, hsubghz⟩ := Bool.or_eq_false_iff.mp h
  simp only [drainCaptures, hir, hsubghz]
  rfl

/-- A turn that finds nothing, where nothing is going on. -/
theorem receive_nothing (fromPayload : List UInt8 → Option Req)
    (hended : d.ended = false) (htodo : d.todo = []) (hany : d.anyCapture = false)
    (hrunning : d.running = true)
    (hidle : d.loop.idle < MainLoop.maxIdle) :
    step fromPayload d (.receive [] false)
      = some ({ d with loop := { d.loop with idle := d.loop.idle + 1 } }, [.drained []]) := by
  have hgo : (!d.ended && d.todo.isEmpty && d.looping) = true := by
    rw [looping, hended, htodo, hrunning, decide_eq_true hidle]
    rfl
  have hcap : (Ir.captureActive d.ir || Subghz.captureActive d.subghz) = false := hany
  rw [step, if_pos hgo, hcap, if_neg Bool.false_ne_true, drainCaptures_idle hany]
  show some ({ d with loop := { d.loop with idle := d.loop.idle + 1 }, todo := [] },
    [Event.drained []]) = _
  rw [← htodo]

/-- Left alone, the loop counts to its end. -/
theorem run_nothing (fromPayload : List UInt8 → Option Req) (n : Nat)
    (hended : d.ended = false) (htodo : d.todo = []) (hany : d.anyCapture = false)
    (hrunning : d.running = true)
    (hidle : d.loop.idle + n ≤ MainLoop.maxIdle) :
    ∃ es, (machine fromPayload).run d (List.replicate n (.receive [] false))
      = some ({ d with loop := { d.loop with idle := d.loop.idle + n } }, es) := by
  induction n generalizing d with
  | zero => exact ⟨[], rfl⟩
  | succ n ih =>
      have hs : (machine fromPayload).step d (.receive [] false) = _ :=
        receive_nothing fromPayload hended htodo hany hrunning (by omega)
      obtain ⟨es, hr⟩ := @ih { d with loop := { d.loop with idle := d.loop.idle + 1 } }
        hended htodo hany hrunning (show d.loop.idle + 1 + n ≤ _ by omega)
      refine ⟨[.drained []] ++ es, ?_⟩
      rw [List.replicate_succ, Machine.run_step hs hr]
      show some ({ d with loop := { d.loop with idle := d.loop.idle + 1 + n } }, _) = _
      rw [Nat.add_right_comm, Nat.add_assoc]

/-- It then ends, and sends nothing. -/
theorem exit_idle (fromPayload : List UInt8 → Option Req) (hended : d.ended = false)
    (htodo : d.todo = []) (hany : d.anyCapture = false) (hidle : d.loop.idle = MainLoop.maxIdle) :
    step fromPayload d .exit = some ({ (stopCaptures d).1 with ended := true }, [.exited []]) := by
  have hgo : (!d.ended && d.todo.isEmpty && !d.looping) = true := by
    rw [looping, hended, htodo, hidle, decide_eq_false (Nat.lt_irrefl _), Bool.and_false]
    rfl
  rw [step, if_pos hgo, stopCaptures_idle hany]

/-- Where that leaves a device that was not spoken to. -/
def forsaken : Device :=
  { initial with loop := { initial.loop with idle := initial.loop.idle + MainLoop.maxIdle } }

/-- Five minutes in which nobody says anything. -/
theorem loop_ends_iff_silence : ∃ d d' es,
    (machine fun _ => none).run initial
        (List.replicate MainLoop.maxIdle (.receive [] false)) = some (d, es) ∧
      step (fun _ => none) d .exit = some (d', [.exited []]) ∧
      idleTurns (loopTurns (fun _ => none)
        (List.replicate MainLoop.maxIdle (.receive [] false))) = MainLoop.maxIdle := by
  have hidle : initial.loop.idle + MainLoop.maxIdle = MainLoop.maxIdle := Nat.zero_add _
  obtain ⟨es, hr⟩ := run_nothing (d := initial) (fun _ => none) MainLoop.maxIdle rfl rfl rfl rfl
    (Nat.le_of_eq hidle)
  obtain ⟨-, -, hend⟩ := loop_ends_iff hr
  have hexit := exit_idle (d := forsaken) (fun _ => none) rfl rfl rfl hidle
  refine ⟨forsaken, _, es, hr, hexit, ?_⟩
  rcases hend _ _ hexit with hpressed | ⟨hmax, -⟩
  · have hrunning : true = !pressed _ := (run_counts hr).running
    rw [hpressed] at hrunning
    cases hrunning
  · exact hmax

end FlipLink.Device
