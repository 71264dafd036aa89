/-
# `FlipLink.Firmware.Shell` — what `main` allocates, and who is told of it

`main` opens the GUI, allocates the RX stream buffer and the TX semaphore,
publishes both to the CDC callbacks, registers these and switches the USB
configuration; its three teardowns undo that.  The calls stand here in the order
of the source, each with what it does to the objects that are allocated and to
the pointers to them; using an object that is not allocated, or freeing one twice,
has no outcome.  Between two calls the callbacks run: those of the CDC while they
are registered, those of the view port while the GUI shows it.

`Sound` says that no pointer that a callback reads dangles, and that the RX callback
finds its buffer.  What the buffers hold is left to `Firmware.RxStream` and
`Firmware.TxCredit`.
-/
import FlipLink.Firmware.MainLoop
import FlipLink.Lib.Interrupts

namespace FlipLink

open Lib

/-- What a step of the main thread is told: whether a call succeeds or a loop goes
on, and a length. -/
structure Answer where
  yes : Bool
  count : Nat

/-- What a transceiver's HAL is doing. -/
inductive HalState where
  | idle
  | rx
  | tx
  deriving DecidableEq, Repr

/-! ## The objects and the pointers to them -/

namespace Shell

inductive Obj where
  | gui
  | viewPort
  | rxStream
  | txSem
  deriving DecidableEq, Repr

inductive UsbConfig where
  | previous
  | cdcDual
  deriving DecidableEq, Repr

structure Handles where
  /-- What is allocated. -/
  live : List Obj
  /-- `RX_STREAM` is not null. -/
  rxStream : Bool
  /-- `TX_SEM` is not null. -/
  txSem : Bool
  /-- The local `tx_sem` of `main` is not null. -/
  mainSem : Bool
  /-- The local `tx_sem` of `cdc_send_all` is not null. -/
  sendSem : Bool
  /-- The local `prev`. -/
  prev : UsbConfig
  config : UsbConfig
  /-- `CDC_CALLBACKS` is registered for interface 1. -/
  callbacks : Bool
  drawCallback : Bool
  inputCallback : Bool
  /-- The GUI has the view port. -/
  shown : Bool
  /-- The local `switched`. -/
  switched : Bool
  /-- The previous configuration was accepted again. -/
  restored : Bool
  /-- What `main` returned. -/
  exit : Option Int
  deriving DecidableEq, Repr

/-- The flags that the callbacks set, and the counter of the main loop. -/
structure Flags where
  /-- `RUNNING`. -/
  running : Bool
  /-- `RX_OVERFLOWED`. -/
  overflowed : Bool
  idle : Nat
  /-- `cdc_send_all` has given up. -/
  cut : Bool
  /-- The local `got` of the main loop. -/
  got : Nat

end Shell

structure Shell where
  res : Shell.Handles
  flags : Shell.Flags

namespace Shell

def initial : Shell where
  res :=
    { live := [], rxStream := false, txSem := false, mainSem := false, sendSem := false,
      prev := .previous, config := .previous, callbacks := false, drawCallback := false,
      inputCallback := false, shown := false, switched := false, restored := false, exit := none }
  flags := { running := true, overflowed := false, idle := 0, cut := false, got := 0 }

namespace Handles

def alloc (o : Obj) (h : Handles) : Handles := { h with live := o :: h.live }

/-- A call that is given the object. -/
def use (o : Obj) (h : Handles) : Option Handles := if o ∈ h.live then some h else none

def free (o : Obj) (h : Handles) : Option Handles :=
  if o ∈ h.live then some { h with live := h.live.erase o } else none

end Handles

/-! ## The calls of `main` -/

inductive Op where
  | furiRecordOpen
  | viewPortAlloc
  | viewPortDrawCallbackSet
  | viewPortInputCallbackSet
  | guiAddViewPort
  | viewPortUpdate
  | streamBufferAlloc
  | rxStreamStore
  | semaphoreAlloc
  | txSemStore
  | usbGetConfig
  | cdcSetCallbacks
  | usbUnlock
  | usbSetConfigDual
  | cdcClearCallbacks
  | usbSetConfigPrev
  | rxStreamClear
  | streamBufferFree
  | txSemClear
  | semaphoreFree
  | guiRemoveViewPort
  | viewPortFree
  | furiRecordClose
  | ret (code : Int)
  deriving DecidableEq, Repr

/-- What a call does; `ok` is whether it succeeds, where it may fail.  The GUI record, the view
port and the RX stream buffer, which `main` uses without a check, are always allocated. -/
def Op.exec (ok : Bool) (h : Handles) : Op → Option Handles
  | .furiRecordOpen => some (h.alloc .gui)
  | .viewPortAlloc => some (h.alloc .viewPort)
  | .viewPortDrawCallbackSet => (h.use .viewPort).map ({ · with drawCallback := true })
  | .viewPortInputCallbackSet => (h.use .viewPort).map ({ · with inputCallback := true })
  | .guiAddViewPort =>
      ((h.use .gui).bind (·.use .viewPort)).map ({ · with shown := true })
  | .viewPortUpdate => h.use .viewPort
  | .streamBufferAlloc => some (h.alloc .rxStream)
  | .rxStreamStore => some { h with rxStream := true }
  | .semaphoreAlloc =>
      some (if ok then { h.alloc .txSem with mainSem := true } else { h with mainSem := false })
  | .txSemStore => some { h with txSem := h.mainSem }
  | .usbGetConfig => some { h with prev := h.config }
  | .cdcSetCallbacks => some { h with callbacks := true }
  | .usbUnlock => some h
  | .usbSetConfigDual =>
      some { h with switched := ok, config := if ok then .cdcDual else h.config }
  | .cdcClearCallbacks => some { h with callbacks := false }
  | .usbSetConfigPrev =>
      some { h with restored := ok, config := if ok then h.prev else h.config }
  | .rxStreamClear => some { h with rxStream := false }
  | .streamBufferFree => h.free .rxStream
  | .txSemClear => some { h with txSem := false }
  | .semaphoreFree => if h.mainSem then h.free .txSem else some h
  | .guiRemoveViewPort =>
      ((h.use .gui).bind (·.use .viewPort)).map ({ · with shown := false })
  | .viewPortFree => if h.shown then none else h.free .viewPort
  | .furiRecordClose => h.free .gui
  | .ret code => some { h with exit := some code }

/-- From the top of `main` to the switch to dual CDC. -/
def startup : List Op :=
  [.furiRecordOpen, .viewPortAlloc, .viewPortDrawCallbackSet, .viewPortInputCallbackSet,
    .guiAddViewPort, .viewPortUpdate, .streamBufferAlloc, .rxStreamStore, .semaphoreAlloc,
    .txSemStore, .usbGetConfig, .cdcSetCallbacks, .usbUnlock, .usbSetConfigDual]

def usbTeardown : List Op :=
  [.cdcClearCallbacks, .usbUnlock, .usbSetConfigPrev, .rxStreamClear, .streamBufferFree]

def txTeardown : List Op := [.txSemClear, .semaphoreFree]

def guiTeardown : List Op := [.guiRemoveViewPort, .viewPortFree, .furiRecordClose]

/-- The three teardowns, and what `main` returns after them. -/
def teardown (code : Int) : List Op := usbTeardown ++ txTeardown ++ guiTeardown ++ [.ret code]

/-- The calls, one after the other. -/
def block : List Op → Prog Answer Shell
  | [] => .skip
  | op :: ops => .seq (.act fun a s => (op.exec a.yes s.res).map ({ s with res := · })) (block ops)

/-! ## The callbacks -/

inductive Isr where
  /-- `rx_callback`, and whether the buffer had no room for all of its bytes. -/
  | rx (dropped : Bool)
  /-- `tx_callback`. -/
  | tx
  /-- `draw_callback`. -/
  | draw
  /-- `input_callback`, on a short press of Back. -/
  | back

def Isr.enabled (s : Shell) : Isr → Bool
  | .rx _ | .tx => s.res.callbacks
  | .draw => s.res.shown && s.res.drawCallback
  | .back => s.res.shown && s.res.inputCallback

/-- A callback of the CDC reads its handle; those of the view port run on its behalf. -/
def Isr.handle (s : Shell) : Isr → Option Shell
  | .rx dropped =>
      if s.res.rxStream then
        (s.res.use .rxStream).map fun _ =>
          { s with flags.overflowed := s.flags.overflowed || dropped }
      else some s
  | .tx => if s.res.txSem then (s.res.use .txSem).map fun _ => s else some s
  | .draw => (s.res.use .viewPort).map fun _ => s
  | .back => (s.res.use .viewPort).map fun _ => { s with flags.running := false }

def interrupts : Interrupts Shell Isr where
  enabled i s := i.enabled s
  handle i s := i.handle s

/-- No pointer that a callback reads dangles, and the RX callback finds its buffer. -/
def Sound (h : Handles) : Prop :=
  (h.callbacks = true → h.rxStream = true) ∧
  (h.rxStream = true → .rxStream ∈ h.live) ∧
  (h.txSem = true → .txSem ∈ h.live) ∧
  (h.shown = true → .viewPort ∈ h.live ∧ .gui ∈ h.live)

instance (h : Handles) : Decidable (Sound h) := by
  unfold Sound
  infer_instance

theorem Isr.spares {s : Shell} (h : Sound s.res) :
    ∀ i : Isr, i.enabled s = true → ∃ s', i.handle s = some s' ∧ s'.res = s.res
  | .rx dropped, hi => by
      obtain ⟨hrx, hlive, -⟩ := h
      have hset : s.res.rxStream = true := hrx hi
      refine ⟨{ s with flags.overflowed := s.flags.overflowed || dropped }, ?_, rfl⟩
      simp only [handle, Handles.use, hset, hlive hset, if_true, Option.map_some]
  | .tx, _ => by
      obtain ⟨-, -, hlive, -⟩ := h
      refine ⟨s, ?_, rfl⟩
      rw [handle]
      split_ifs with hset
      · simp only [Handles.use, hlive hset, if_true, Option.map_some]
      · rfl
  | .draw, hi => by
      have hshown : s.res.shown = true := (Bool.and_eq_true_iff.mp hi).1
      refine ⟨s, ?_, rfl⟩
      simp only [handle, Handles.use, (h.2.2.2 hshown).1, if_true, Option.map_some]
  | .back, hi => by
      have hshown : s.res.shown = true := (Bool.and_eq_true_iff.mp hi).1
      refine ⟨{ s with flags.running := false }, ?_, rfl⟩
      simp only [handle, Handles.use, (h.2.2.2 hshown).1, if_true, Option.map_some]

/-- What is said of the handles only is stable where it says that they are sound. -/
theorem stable {F : Handles → Prop} (hF : ∀ h, F h → Sound h) :
    interrupts.Stable (fun s => Sound s.res) (fun s => F s.res) :=
  .of_spared (fun s hs => hF s.res hs) fun i s hs hi => i.spares (hF s.res hs) hi

/-! ## Straight-line code -/

/-- Whatever the calls are told, none of them fails, the handles are sound all along, and
`F` holds at the end. -/
def Safe (F : Handles → Prop) : List Op → Handles → Prop
  | [], h => Sound h ∧ F h
  | op :: ops, h => Sound h ∧ ∀ ok, ∃ h' ∈ op.exec ok h, Safe F ops h'

instance decidableSafe (F : Handles → Prop) [DecidablePred F] :
    ∀ (ops : List Op) (h : Handles), Decidable (Safe F ops h)
  | [], h => inferInstanceAs (Decidable (Sound h ∧ F h))
  | op :: ops, h =>
      have : DecidablePred (Safe F ops) := decidableSafe F ops
      have (ok : Bool) : Decidable (∃ h' ∈ op.exec ok h, Safe F ops h') :=
        Option.decidableExistsMem _
      inferInstanceAs (Decidable (Sound h ∧ ∀ ok, ∃ h' ∈ op.exec ok h, Safe F ops h'))

theorem Safe.sound {F : Handles → Prop} :
    ∀ {ops : List Op} {h : Handles}, Safe F ops h → Sound h
  | [], _, hs => hs.1
  | _ :: _, _, hs => hs.1

theorem outline_block {F : Handles → Prop} :
    ∀ ops : List Op, interrupts.Outline (fun s => Sound s.res) (fun s => Safe F ops s.res)
      (block ops) (fun s => Safe F [] s.res)
  | [] => .skip (stable fun _ h => h.sound)
  | op :: ops => by
      refine .seq (.act (stable fun _ h => h.sound) (stable fun _ h => h.sound) ?_)
        (outline_block ops)
      intro a s hs
      obtain ⟨h', hexec, hsafe⟩ := hs.2 a.yes
      exact ⟨{ s with res := h' }, by rw [hexec, Option.map_some], hsafe⟩

/-! ## While `main` runs -/

/-- The handles after the startup. -/
def opened (mainSem switched : Bool) : Handles where
  live := if mainSem then [.txSem, .rxStream, .viewPort, .gui] else [.rxStream, .viewPort, .gui]
  rxStream := true
  txSem := mainSem
  mainSem := mainSem
  sendSem := false
  prev := .previous
  config := if switched then .cdcDual else .previous
  callbacks := true
  drawCallback := true
  inputCallback := true
  shown := true
  switched := switched
  restored := false
  exit := none

/-- All is as the startup has left it. -/
def Opened (h : Handles) : Prop := h = opened h.mainSem h.switched

/-- All that `main` has allocated is freed, nothing of it is registered any more, and the
previous configuration is back if it was accepted. -/
structure Closed (h : Handles) : Prop where
  live : h.live = []
  rxStream : h.rxStream = false
  txSem : h.txSem = false
  callbacks : h.callbacks = false
  shown : h.shown = false
  config : h.restored = true → h.config = .previous
  exit : h.exit = some (if h.switched then 0 else -1)

instance : DecidablePred Opened := fun h => inferInstanceAs (Decidable (h = opened _ _))

theorem closed_iff (h : Handles) : Closed h ↔
    h.live = [] ∧ h.rxStream = false ∧ h.txSem = false ∧ h.callbacks = false ∧
      h.shown = false ∧ (h.restored = true → h.config = .previous) ∧
      h.exit = some (if h.switched then 0 else -1) :=
  ⟨fun ⟨h₁, h₂, h₃, h₄, h₅, h₆, h₇⟩ => ⟨h₁, h₂, h₃, h₄, h₅, h₆, h₇⟩,
    fun ⟨h₁, h₂, h₃, h₄, h₅, h₆, h₇⟩ => ⟨h₁, h₂, h₃, h₄, h₅, h₆, h₇⟩⟩

instance : DecidablePred Closed := fun h => decidable_of_iff _ (closed_iff h).symm

theorem sound_opened (mainSem switched : Bool) : Sound (opened mainSem switched) := by
  cases mainSem <;> cases switched <;> decide

theorem Opened.sound {h : Handles} (hopen : Opened h) : Sound h := by
  rw [hopen]
  exact sound_opened _ _

theorem startup_safe : Safe Opened startup initial.res := by decide

theorem teardown_safe : ∀ mainSem switched : Bool,
    Safe Closed (teardown (if switched then 0 else -1)) (opened mainSem switched) := by decide

theorem Opened.stable (switched : Bool) :
    interrupts.Stable (fun s => Sound s.res)
      (fun s => Opened s.res ∧ s.res.switched = switched) :=
  Shell.stable (F := fun h => Opened h ∧ h.switched = switched) fun _ h => h.1.sound

/-! ## `cdc_send_all` -/

def sendSemLoad (_ : Answer) (s : Shell) : Option Shell :=
  some { s with res.sendSem := s.res.txSem, flags.cut := false }

/-- The wait for the credit, which may time out. -/
def semaphoreAcquire (a : Answer) (s : Shell) : Option Shell :=
  (s.res.use .txSem).map fun _ => { s with flags.cut := !a.yes }

/-- `cdc_send_all` returns. -/
def sendSemDrop (_ : Answer) (s : Shell) : Option Shell := some { s with res.sendSem := false }

/-- `cdc_send_all`; `furi_hal_cdc_send` copies the chunk. -/
def cdcSendAll : Prog Answer Shell :=
  .seq (.act sendSemLoad) <|
  .seq
    (.loop (fun a s => a.yes && !s.flags.cut) <|
      .seq (.ite (fun _ s => s.res.sendSem) (.act semaphoreAcquire) .skip)
        (.ite (fun _ s => s.flags.cut) .skip (.act fun _ s => some s)))
    (.act sendSemDrop)

/-- As the startup has left it, and `cdc_send_all` has a copy of the semaphore. -/
def Copied (switched : Bool) (h : Handles) : Prop :=
  h = { opened h.mainSem switched with sendSem := h.mainSem }

theorem Copied.stable (switched : Bool) :
    interrupts.Stable (fun s => Sound s.res) (fun s => Copied switched s.res) :=
  Shell.stable (F := Copied switched) fun h hcopy => by
    rw [hcopy]
    exact sound_opened h.mainSem switched

theorem cdcSendAll_outline (switched : Bool) :
    interrupts.Outline (fun s => Sound s.res) (fun s => Opened s.res ∧ s.res.switched = switched)
      cdcSendAll (fun s => Opened s.res ∧ s.res.switched = switched) := by
  have hcopied := Copied.stable switched
  have hskip : interrupts.Outline (α := Answer) (fun s => Sound s.res)
      (fun s => Copied switched s.res) .skip (fun s => Copied switched s.res) := .skip hcopied
  have hlive : interrupts.Stable (fun s => Sound s.res)
      (fun s => Copied switched s.res ∧ s.res.sendSem = true) :=
    Shell.stable (F := fun h => Copied switched h ∧ h.sendSem = true)
      fun h hc => by
        rw [hc.1]
        exact sound_opened h.mainSem switched
  refine .seq (.act (Opened.stable switched) hcopied ?_) <|
    .seq (.loop hcopied hcopied (fun _ _ h _ => h) (fun _ _ h _ => h) <|
      .seq (.ite hcopied (fun _ _ h hb => ⟨h, hb⟩) (fun _ _ h _ => h)
        (.act hlive hcopied ?_) hskip)
      (.ite hcopied (fun _ _ h _ => h) (fun _ _ h _ => h) hskip
        (.act hcopied hcopied fun _ s h => ⟨s, rfl, h⟩)))
    (.act hcopied (Opened.stable switched) ?_)
  · rintro _ s ⟨hopen, rfl⟩
    refine ⟨_, rfl, ?_⟩
    show { s.res with sendSem := s.res.txSem } = _
    rw [show s.res.txSem = s.res.mainSem from congrArg Handles.txSem hopen]
    exact congrArg ({ · with sendSem := s.res.mainSem }) hopen
  · rintro a s ⟨hcopy, hsem⟩
    refine ⟨{ s with flags.cut := !a.yes }, ?_, hcopy⟩
    have hmain : s.res.mainSem = true := (congrArg Handles.sendSem hcopy).symm.trans hsem
    have hin : Obj.txSem ∈ s.res.live := by
      rw [hcopy, hmain]
      exact List.mem_cons_self
    rw [semaphoreAcquire, Handles.use, if_pos hin, Option.map_some]
  · intro _ s hcopy
    have hswitched : s.res.switched = switched := congrArg Handles.switched hcopy
    refine ⟨_, rfl, ?_, hswitched⟩
    show { s.res with sendSem := false } = opened s.res.mainSem s.res.switched
    rw [hswitched]
    exact congrArg ({ · with sendSem := false }) hcopy

end Shell

end FlipLink
