/-
# `FlipLink.Firmware.Handback` — the radio is always handed back

The application with its radio: `Device`, and beside it the statics of the radio
and the calls that the Sub-GHz handlers make.  The answers of the HAL come with
the frame that is handled, as any `RadioHal`.

What the calls acquire is a `Holding`, and `Holding.after` is the discipline: it
refuses a call that is out of order, so that a list of calls that goes through
never begins a device that is begun, never frees a worker that is running, and
never ends a device with TX or RX on.  Between two steps of the main loop nothing
is held but what the active capture holds (`Settled`); each handler keeps that,
whatever the HAL answers, and with it every run (`radio_handed_back`).
-/
import FlipLink.Firmware.SubghzRadio
import FlipLink.Proto.Rfc8949

namespace FlipLink.Subghz

open Lib

/-! ## What is held -/

inductive Worker where
  | none | allocated | started
  deriving DecidableEq, Repr

/-- What the calls so far have acquired and not handed back. -/
structure Holding where
  /-- The device is begun. -/
  begun : Bool
  /-- Asynchronous TX is on. -/
  tx : Bool
  /-- Asynchronous RX is on. -/
  rx : Bool
  worker : Worker
  deriving DecidableEq, Repr

namespace Holding

/-- What is held after a call; `none` is a call out of order. -/
def after (h : Holding) : Call → Option Holding
  | .begin ok => if h.begun then none else some { h with begun := ok }
  | .reset | .loadPreset _ | .setFrequency _ | .flushTx | .setRx | .flushRx | .idle | .sleep =>
      if h.begun then some h else none
  | .end_ => if h.begun && !h.tx && !h.rx then some { h with begun := false } else none
  | .startAsyncTx ok => if h.begun && !h.tx && !h.rx then some { h with tx := ok } else none
  | .stopAsyncTx => if h.tx then some { h with tx := false } else none
  | .startAsyncRx => if h.begun && !h.tx && !h.rx then some { h with rx := true } else none
  | .stopAsyncRx => if h.rx then some { h with rx := false } else none
  | .workerAlloc ok =>
      if h.worker = .none then some { h with worker := if ok then .allocated else .none } else none
  | .workerSetCallback => if h.worker = .allocated then some h else none
  | .workerStart ok =>
      if h.worker = .allocated then
        some { h with worker := if ok then .started else .allocated }
      else none
  | .workerWrite | .workerAvailable | .workerRead => if h.worker = .started then some h else none
  | .workerStop => if h.worker = .started then some { h with worker := .allocated } else none
  | .workerFree => if h.worker = .allocated then some { h with worker := .none } else none

/-- What is held after some calls, none of them out of order. -/
def afterAll (h : Holding) (calls : List Call) : Option Holding := calls.foldlM after h

theorem afterAll_append (h : Holding) (calls calls' : List Call) :
    h.afterAll (calls ++ calls') = (h.afterAll calls).bind fun h' => h'.afterAll calls' :=
  List.foldlM_append

/-- Nothing, or what an active capture holds. -/
def ofCapture (active : Bool) : Holding :=
  { begun := active, tx := false, rx := active, worker := .none }

end Holding

/-! ## The handlers -/

/-- `transmit` hands back all it takes. -/
theorem transmit_settles (hal : RadioHal) (active : Bool) (params : Value) {r : Radio}
    (hptr : r.tx.ptr = none) :
    (Holding.ofCapture active).afterAll (transmit hal active params r).calls
        = some (.ofCapture active) ∧
      (transmit hal active params r).radio.captureDevice = r.captureDevice ∧
      (transmit hal active params r).radio.tx.ptr = none := by
  unfold transmit
  cases active with
  | true => exact ⟨rfl, rfl, hptr⟩
  | false =>
    have hidle : ¬ (false || r.tx.ptr.isSome) = true := by
      rw [hptr]
      exact Bool.false_ne_true
    rw [if_neg hidle]
    cases requiredFrequency params with
    | error e => exact ⟨rfl, rfl, hptr⟩
    | ok frequency =>
    cases requiredPreset params with
    | error e => exact ⟨rfl, rfl, hptr⟩
    | ok preset =>
    cases parseEdges params with
    | error e => exact ⟨rfl, rfl, hptr⟩
    | ok edges =>
    cases repeatCount params with
    | error e => exact ⟨rfl, rfl, hptr⟩
    | ok repeat_ =>
    dsimp only
    split_ifs
    · exact ⟨rfl, rfl, hptr⟩
    · exact ⟨rfl, rfl, hptr⟩
    · exact ⟨rfl, rfl, hptr⟩
    · exact ⟨rfl, rfl, rfl⟩
    · exact ⟨rfl, rfl, rfl⟩
    · exact ⟨rfl, rfl, rfl⟩

/-- The loop of `link_probe` uses the worker and leaves it running. -/
theorem probeLoop_keeps (hal : RadioHal) {h : Holding} (hw : h.worker = .started) :
    ∀ (left waited : Nat) (p : Probe), h.afterAll (probeLoop hal left waited p).2 = some h
  | 0, _, _ => rfl
  | left + 1, waited, p => by
      have hturn : h.afterAll (probeTurn hal waited p).2 = some h := by
        unfold probeTurn
        dsimp only
        split_ifs <;> simp [Holding.afterAll, Holding.after, hw]
      rw [probeLoop, Holding.afterAll_append, hturn]
      exact probeLoop_keeps hal hw left (waited + 1) _

/-- `link_probe` hands back all it takes. -/
theorem linkProbe_settles (hal : RadioHal) (active : Bool) (params : Value) {r : Radio}
    (hptr : r.tx.ptr = none) :
    (Holding.ofCapture active).afterAll (linkProbe hal active params r).calls
        = some (.ofCapture active) ∧
      (linkProbe hal active params r).radio = r := by
  unfold linkProbe
  cases active with
  | true => exact ⟨rfl, rfl⟩
  | false =>
    have hidle : ¬ (false || r.tx.ptr.isSome) = true := by
      rw [hptr]
      exact Bool.false_ne_true
    rw [if_neg hidle]
    cases requiredFrequency params with
    | error e => exact ⟨rfl, rfl⟩
    | ok frequency =>
    cases probePayload params with
    | error e => exact ⟨rfl, rfl⟩
    | ok payload =>
    cases probeTimeoutMs params with
    | error e => exact ⟨rfl, rfl⟩
    | ok timeoutMs =>
    -- the worker runs through the loop
    let running : Holding := { Holding.ofCapture false with worker := .started }
    have hloop := probeLoop_keeps hal (h := running) rfl timeoutMs.toNat 0
      { readTotal := 0, rxPreview := [] }
    have hrun : running.afterAll ((probeLoop hal timeoutMs.toNat 0
        { readTotal := 0, rxPreview := [] }).2 ++ [.workerStop, .workerFree])
          = some (.ofCapture false) := by
      rw [Holding.afterAll_append, hloop]
      rfl
    dsimp only
    split_ifs
    · exact ⟨rfl, rfl⟩
    · exact ⟨rfl, rfl⟩
    · exact ⟨rfl, rfl⟩
    · exact ⟨rfl, rfl⟩
    · exact ⟨rfl, rfl⟩
    · exact ⟨hrun, rfl⟩
    · exact ⟨hrun, rfl⟩

/-- `start_capture` takes what the capture holds, or hands back all it takes. -/
theorem start_settles (hal : RadioHal) (seq : UInt16) (params : Value) (c : Capture config)
    {r : Radio} (hdevice : r.captureDevice = c.active) :
    let c' := (startCapture hal.toHal seq params c).1
    (Holding.ofCapture c.active).afterAll (startRadio hal params c r).2
        = some (.ofCapture c'.active) ∧
      (startRadio hal params c r).1 = { r with captureDevice := c'.active } := by
  rcases start_cases hal seq params c r with
    ⟨hc, hr, hcalls⟩ | ⟨hactive, hactive', hr, preset, frequency, -, -, hcalls⟩
  · dsimp only
    rw [hc, hr, ← hdevice]
    refine ⟨?_, rfl⟩
    rw [hdevice]
    rcases hcalls with hcalls | ⟨hactive, hcalls | hcalls⟩
    · rw [hcalls]
      rfl
    · rw [hcalls, hactive]
      rfl
    · rw [hcalls, hactive]
      rfl
  · dsimp only
    rw [hactive', hr, hcalls, hactive]
    exact ⟨rfl, rfl⟩

/-- `stop_capture` hands back what the capture holds. -/
theorem stop_settles (c : Capture config) {r : Radio} (hdevice : r.captureDevice = c.active) :
    (Holding.ofCapture c.active).afterAll (stopRadio c r).2 = some (.ofCapture false) ∧
      (stopRadio c r).1 = { r with captureDevice := false } := by
  unfold stopRadio
  cases hactive : c.active with
  | true =>
      rw [hactive] at hdevice
      rw [hdevice]
      exact ⟨rfl, rfl⟩
  | false =>
      rw [hactive] at hdevice
      refine ⟨rfl, ?_⟩
      show r = _
      rw [← hdevice]

/-! ## The application -/

/-- What a frame finds in the hardware. -/
structure AppHal where
  ir : Ir.Hal
  radio : RadioHal
  /-- What `ir_instrument::transmit` comes to. -/
  irTransmit : Value → HandlerResult

/-- The application and the statics of its radio. -/
structure App where
  device : Device
  radio : Radio

namespace App

def initial : App := { device := .initial, radio := .initial }

/-- The handlers that work on the hardware. -/
def hardware (hal : AppHal) (a : App) (instrument opcode : String) (params : Value) :
    HandlerResult :=
  match instrument, opcode with
  | "subghz", "transmit" => (transmit hal.radio a.device.subghz.active params a.radio).result
  | "subghz", "link_probe" => (linkProbe hal.radio a.device.subghz.active params a.radio).result
  | _, _ => hal.irTransmit params

/-- What the next frame of `Device` finds in the hardware. -/
def deviceHal (hal : AppHal) (a : App) : Device.Hal :=
  { ir := hal.ir, subghz := hal.radio.toHal, hardware := hardware hal a }

/-- The radio's share in the handling of a REQ. -/
def radioReq (hal : AppHal) (req : Req) (a : App) : Radio × List Call :=
  match req.instrument, req.opcode with
  | "subghz", "capture" => startRadio hal.radio req.params a.device.subghz a.radio
  | "subghz", "transmit" =>
      let t := transmit hal.radio a.device.subghz.active req.params a.radio
      (t.radio, t.calls)
  | "subghz", "link_probe" =>
      let t := linkProbe hal.radio a.device.subghz.active req.params a.radio
      (t.radio, t.calls)
  | _, _ => (a.radio, [])

/-- The radio's share in the handling of the next frame. -/
def radioFrame (fromPayload : List UInt8 → Option Req) (hal : AppHal) (a : App) :
    Radio × List Call :=
  match a.device.todo with
  | .handleFrame .req _ payload :: _ =>
      match fromPayload payload with
      | some req => radioReq hal req a
      | none => (a.radio, [])
  | .handleFrame .streamStop _ _ :: _ => stopRadio a.device.subghz a.radio
  | _ => (a.radio, [])

inductive Label where
  /-- The next frame is handled. -/
  | handle (hal : AppHal)
  /-- Any other step of `Device`. -/
  | other (l : Device.Label)

def step (fromPayload : List UInt8 → Option Req) (a : App) : Label → Option (App × List Call)
  | .handle hal =>
      match Device.step fromPayload a.device (.handle (deviceHal hal a)) with
      | some (d, _) =>
          some ({ device := d, radio := (radioFrame fromPayload hal a).1 },
            (radioFrame fromPayload hal a).2)
      | none => none
  | .other (.handle _) => none
  | .other l =>
      match Device.step fromPayload a.device l with
      | some (d, _) =>
          match l with
          | .exit =>
              some ({ device := d, radio := (stopRadio a.device.subghz a.radio).1 },
                (stopRadio a.device.subghz a.radio).2)
          | .launch => some ({ device := d, radio := .initial }, [])
          | _ => some ({ a with device := d }, [])
      | none => none

/-- The application; the events are the calls on the radio. -/
def machine (fromPayload : List UInt8 → Option Req) : Machine App Label Call where
  step := step fromPayload

/-! ## Between two steps -/

/-- What is held is what the active capture holds. -/
structure Settled (a : App) : Prop where
  captureDevice : a.radio.captureDevice = a.device.subghz.active
  txPtr : a.radio.tx.ptr = none

variable {fromPayload : List UInt8 → Option Req}

theorem Settled.initial : Settled initial := ⟨rfl, rfl⟩

/-- What is held between two steps. -/
def holding (a : App) : Holding := .ofCapture a.device.subghz.active

/-- A REQ other than `subghz.capture` leaves the capture alone. -/
theorem handleReq_subghz (hal : Device.Hal) (seq : UInt16) (req : Req) (d : Device)
    (h : ¬ (req.instrument = "subghz" ∧ req.opcode = "capture")) :
    (Device.handleReq hal seq req d).1.subghz = d.subghz := by
  unfold Device.handleReq
  split_ifs
  · split
    · rfl
    · rename_i hi ho
      exact absurd ⟨hi, ho⟩ h
    · rfl
  · split <;> rfl

theorem handleReq_capture (hal : Device.Hal) (seq : UInt16) (params : Value) (d : Device) :
    (Device.handleReq hal seq ⟨"subghz", "capture", params⟩ d).1.subghz
      = (startCapture hal.subghz seq params d.subghz).1 :=
  rfl

/-- The radio's share in a REQ keeps what is held. -/
theorem radioReq_settles (hal : AppHal) (seq : UInt16) (req : Req) {a : App} (h : Settled a)
    {d : Device} (hd : d.subghz = a.device.subghz) :
    let d' := (Device.handleReq (deviceHal hal a) seq req d).1
    a.holding.afterAll (radioReq hal req a).2 = some (.ofCapture d'.subghz.active) ∧
      (radioReq hal req a).1.captureDevice = d'.subghz.active ∧
      (radioReq hal req a).1.tx.ptr = none := by
  obtain ⟨instrument, opcode, params⟩ := req
  dsimp only
  unfold radioReq
  split
  · -- `capture`
    rename_i hi ho
    obtain rfl : instrument = "subghz" := hi
    obtain rfl : opcode = "capture" := ho
    obtain ⟨hcalls, hradio⟩ :=
      start_settles hal.radio seq params a.device.subghz h.captureDevice
    rw [handleReq_capture, hd]
    dsimp only at hcalls hradio ⊢
    rw [hradio]
    exact ⟨hcalls, rfl, h.txPtr⟩
  · -- `transmit`
    rename_i hi ho
    obtain rfl : opcode = "transmit" := ho
    obtain ⟨hcalls, hdevice, hptr⟩ :=
      transmit_settles hal.radio a.device.subghz.active params h.txPtr
    rw [handleReq_subghz _ _ _ _ (fun h => absurd h.2 (show ¬ "transmit" = "capture" by decide)),
      hd]
    exact ⟨hcalls, hdevice.trans h.captureDevice, hptr⟩
  · -- `link_probe`
    rename_i hi ho
    obtain rfl : opcode = "link_probe" := ho
    obtain ⟨hcalls, hradio⟩ := linkProbe_settles hal.radio a.device.subghz.active params h.txPtr
    rw [handleReq_subghz _ _ _ _ (fun h => absurd h.2 (show ¬ "link_probe" = "capture" by decide)),
      hd]
    dsimp only
    rw [hradio]
    exact ⟨hcalls, h.captureDevice, h.txPtr⟩
  · rename_i hcapture _ _
    rw [handleReq_subghz _ _ _ _ fun h => hcapture h.1 h.2, hd]
    exact ⟨rfl, h.captureDevice, h.txPtr⟩

/-- A step that leaves the active flag alone keeps what is held. -/
theorem Settled.of_eq {a : App} (h : Settled a) {d : Device}
    (hactive : d.subghz.active = a.device.subghz.active) :
    Settled { a with device := d } ∧ a.holding.afterAll [] = some (.ofCapture d.subghz.active) where
  left := ⟨h.captureDevice.trans hactive.symm, h.txPtr⟩
  right := by
    rw [hactive]
    rfl

/-- The radio's share in a frame keeps what is held. -/
theorem frame_settles {a : App} (h : Settled a) (hal : AppHal) {typ : MsgType} {seq : UInt16}
    {payload : List UInt8} {rest : List MainLoop.Dispatch}
    (htodo : a.device.todo = .handleFrame typ seq payload :: rest) :
    let d' := (Device.handleFrame fromPayload (deviceHal hal a) typ seq payload
      { a.device with todo := rest }).1
    a.holding.afterAll (radioFrame fromPayload hal a).2 = some (.ofCapture d'.subghz.active) ∧
      (radioFrame fromPayload hal a).1.captureDevice = d'.subghz.active ∧
      (radioFrame fromPayload hal a).1.tx.ptr = none := by
  dsimp only
  rw [radioFrame, htodo]
  cases typ with
  | req =>
      dsimp only
      rw [Device.handleFrame]
      cases fromPayload payload with
      | none => exact ⟨rfl, h.captureDevice, h.txPtr⟩
      | some req => exact radioReq_settles hal seq req h rfl
  | streamStop =>
      obtain ⟨hcalls, hr⟩ := stop_settles a.device.subghz h.captureDevice
      have hactive : (Device.handleFrame fromPayload (deviceHal hal a) .streamStop seq payload
          { a.device with todo := rest }).1.subghz.active = false :=
        Device.stopCapture_active a.device.subghz
      rw [hactive]
      dsimp only
      rw [hr]
      exact ⟨hcalls, rfl, h.txPtr⟩
  | hello | caps | resp | streamStart | streamData | event | error | ping | pong =>
      exact ⟨rfl, h.captureDevice, h.txPtr⟩

/-- Handling a frame keeps what is held. -/
theorem Settled.handle {a : App} (h : Settled a) (hal : AppHal) {d : Device}
    {es : List Device.Event}
    (hs : Device.step fromPayload a.device (.handle (deviceHal hal a)) = some (d, es)) :
    Settled { device := d, radio := (radioFrame fromPayload hal a).1 } ∧
      a.holding.afterAll (radioFrame fromPayload hal a).2
        = some (.ofCapture d.subghz.active) := by
  simp only [Device.step] at hs
  split at hs
  · rename_i typ seq payload rest htodo
    cases hs
    obtain ⟨hcalls, hdevice, hptr⟩ := @frame_settles fromPayload _ h hal _ _ _ _ htodo
    exact ⟨⟨hdevice, hptr⟩, hcalls⟩
  · rename_i seq payload rest htodo
    cases hs
    have hradio : radioFrame fromPayload hal a = (a.radio, []) := by rw [radioFrame, htodo]
    rw [hradio]
    exact h.of_eq rfl
  · cases hs

/-- Every step keeps what is held. -/
theorem Settled.step {a a' : App} {calls : List Call} (h : Settled a) (hrests : a.device.Rests) :
    ∀ {l : Label}, App.step fromPayload a l = some (a', calls) →
      Settled a' ∧ a.holding.afterAll calls = some a'.holding
  | .handle hal, hs => by
      simp only [App.step] at hs
      split at hs
      · rename_i d es hd
        cases hs
        exact h.handle hal hd
      · exact nomatch hs
  | .other (.handle _), hs => nomatch hs
  | .other (.irIsr e), hs => by
      simp only [App.step, Device.step] at hs
      split_ifs at hs
      cases hs
      exact h.of_eq rfl
  | .other (.subghzIsr e), hs => by
      simp only [App.step, Device.step] at hs
      split_ifs at hs
      cases hs
      exact h.of_eq (Device.rxCaptureIsr_frame a.device.subghz e).1
  | .other (.receive got overflowed), hs => by
      simp only [App.step, Device.step] at hs
      split at hs
      · rename_i d es hd
        split_ifs at hd with hlive hover
        · cases hd
          cases hs
          exact h.of_eq rfl
        · cases hd
          cases hs
          exact h.of_eq (Device.drainCaptures_frame a.device).2.1
      · exact nomatch hs
  | .other .back, hs => by
      cases hs
      exact h.of_eq rfl
  | .other .exit, hs => by
      simp only [App.step, Device.step] at hs
      split at hs
      · rename_i d es hd
        split_ifs at hd
        cases hd
        cases hs
        obtain ⟨hcalls, hr⟩ := stop_settles a.device.subghz h.captureDevice
        have hactive : (Device.stopCaptures a.device).1.subghz.active = false :=
          Device.stopCapture_active a.device.subghz
        refine ⟨⟨?_, ?_⟩, ?_⟩
        · rw [hr]
          exact hactive.symm
        · rw [hr]
          exact h.txPtr
        · rw [holding, hcalls, holding]
          exact congrArg some (congrArg Holding.ofCapture hactive.symm)
      · exact nomatch hs
  | .other .launch, hs => by
      simp only [App.step, Device.step] at hs
      split at hs
      · rename_i d es hd
        split_ifs at hd with hended
        cases hd
        cases hs
        refine ⟨.initial, ?_⟩
        rw [holding, (hrests hended).2.2]
        rfl
      · exact nomatch hs

/-- A step of the application is a step of the device. -/
theorem step_device {a a' : App} {calls : List Call} : ∀ {l : Label},
    App.step fromPayload a l = some (a', calls) →
      ∃ l' es, Device.step fromPayload a.device l' = some (a'.device, es)
  | .handle hal, hs => by
      simp only [App.step] at hs
      split at hs
      · rename_i d es hd
        cases hs
        exact ⟨_, es, hd⟩
      · exact nomatch hs
  | .other l, hs => by
      cases l with
      | handle hal => exact nomatch hs
      | irIsr | subghzIsr | receive | back | exit | launch =>
          simp only [App.step] at hs
          split at hs
          · rename_i d es hd
            cases hs
            exact ⟨_, es, hd⟩
          · exact nomatch hs

/-- **The radio is always handed back.**  Whatever the HAL answers, no call of a run
is out of order, and after every step, so after every handled frame, the device is
begun exactly if a capture is active, `CAPTURE_DEVICE` is set exactly then, TX is
off and `TX_PTR` null, RX is on exactly for the active capture, and no worker is
left; once `main` has returned the device is not begun. -/
theorem radio_handed_back {ls : List Label} {a : App} {calls : List Call}
    (hrun : (machine fromPayload).run initial ls = some (a, calls)) :
    ∃ h, Holding.afterAll { begun := false, tx := false, rx := false, worker := .none } calls
        = some h ∧
      (h.begun = true ↔ a.device.subghz.active = true) ∧
      (a.radio.captureDevice = true ↔ a.device.subghz.active = true) ∧
      a.radio.tx.ptr = none ∧ h.tx = false ∧ (h.rx = true ↔ a.device.subghz.active = true) ∧
      h.worker = .none ∧ (a.device.ended = true → h.begun = false) := by
  have hinv : Settled a ∧ a.device.Rests ∧
      Holding.afterAll (.ofCapture false) calls = some a.holding := by
    refine Machine.run_events (M := machine fromPayload)
      (P := fun a calls => Settled a ∧ a.device.Rests ∧
        Holding.afterAll (.ofCapture false) calls = some a.holding)
      (fun ⟨h, hrests, hcalls⟩ hs => ?_) ⟨.initial, nofun, rfl⟩ hrun
    obtain ⟨h', hcalls'⟩ := h.step hrests hs
    obtain ⟨l, es, hd⟩ := step_device hs
    refine ⟨h', hrests.step hd, ?_⟩
    rw [Holding.afterAll_append, hcalls]
    exact hcalls'
  obtain ⟨h, hrests, hcalls⟩ := hinv
  refine ⟨a.holding, hcalls, Iff.rfl, ?_, h.txPtr, rfl, Iff.rfl, rfl, fun he => (hrests he).2.2⟩
  rw [h.captureDevice]

/-- A HAL that grants everything. -/
def grantedRadio : RadioHal :=
  { granted with
    startAsyncTx := true
    txComplete := fun _ => true
    yielded := 0
    regionAllowed := fun _ => true
    workerAlloc := true
    workerStart := true
    workerWrite := true
    workerAvailable := fun _ => 0
    workerRead := fun _ _ => []
    callbacks := 0 }

def captureReq : Req := { instrument := "subghz", opcode := "capture", params := ook433 }

def captureFrame : Frame :=
  { typ := .req, flags := 0, seq := 7, payload := reqBody (Value.encode rfc8949) captureReq }

/-- A decoder that knows the body of the capture's request. -/
def readCapture (payload : List UInt8) : Option Req :=
  if payload = captureFrame.payload then some captureReq else none

/-- A capture that runs. -/
theorem radio_handed_back_capture :
    ∃ a calls, (machine readCapture).run initial
        [.other (.receive captureFrame.wire false),
          .handle { ir := ⟨false, true⟩, radio := grantedRadio, irTransmit := fun _ => .ok .null }]
        = some (a, calls) ∧
      a.device.subghz.active = true ∧
      ∃ h, Holding.afterAll { begun := false, tx := false, rx := false, worker := .none } calls
        = some h ∧ h.begun = true := by
  have hreceive : (machine readCapture).step initial (.other (.receive captureFrame.wire false))
      = some ({ initial with
          device := { Device.initial with todo := [MainLoop.dispatch captureFrame] } }, []) := by
    show (match Device.step readCapture Device.initial (.receive captureFrame.wire false) with
      | some (d, _) => some ({ initial with device := d }, [])
      | none => none) = _
    rw [Device.receive_wire readCapture (by decide)]
  have hrun := @Machine.run_step _ _ _ (machine readCapture) _ _ _ _
    [.handle { ir := ⟨false, true⟩, radio := grantedRadio, irTransmit := fun _ => .ok .null }] _ _
    hreceive rfl
  obtain ⟨h, hcalls, hbegun, -⟩ := radio_handed_back hrun
  exact ⟨_, _, hrun, rfl, h, hcalls, hbegun.mpr rfl⟩

end App

end FlipLink.Subghz
