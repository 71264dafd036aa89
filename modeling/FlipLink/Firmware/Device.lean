/-
# `FlipLink.Firmware.Device` — the application on the device

`registry.rs`, `handle_frame` and the main loop of `main.rs` over the two
captures.  A turn of the loop is a `receive` (the bytes, the drains of the active
captures, and the frames they complete) and one `handle` for each frame; between
two steps the capture ISRs may run, and Back may be pressed.  The application
ends with `exit` and may be launched again.

What a frame finds in the hardware comes with the step that handles it: what
`start_capture` asks of the HAL, and what `transmit` and `link_probe` come to.
The decoder of a REQ body is the parameter `fromPayload`.

The bottom of the module says whose captures the device ends.  A capture keeps
the seq of the REQ that started it (`Owned`), and `stop_capture` of either
instrument does not ask who it is for: a STREAM_STOP ends every active capture
(`handleFrame_stop`).
-/
import FlipLink.Firmware.IrInstrument
import FlipLink.Firmware.MainLoop
import FlipLink.Firmware.SubghzInstrument

namespace FlipLink

open Lib

/-! ## The registry -/

structure InstrumentEntry where
  id : String
  opcodes : List String
  streamingOpcodes : List String
  deriving DecidableEq, Repr

def instruments : List InstrumentEntry :=
  [⟨"sys", ["version", "echo"], []⟩, ⟨"ir", ["transmit"], ["capture"]⟩,
    ⟨"subghz", ["transmit", "link_probe"], ["capture"]⟩]

/-- What a handler returns. -/
abbrev HandlerResult := Except (UInt32 × String) Value

/-- `sys.version`. -/
def version (_params : Value) : HandlerResult :=
  .ok (.map [("protocol", .u64 protocolVersion.toUInt64), ("fw", .text "flip-link 0.1")])

/-- `sys.echo`. -/
def echo (params : Value) : HandlerResult := .ok params

/-- The handler of an opcode; those of `ir` and `subghz` work on the hardware,
and what they come to is `hardware`. -/
def find (hardware : String → String → Value → HandlerResult) (instrument opcode : String) :
    Option (Value → HandlerResult) :=
  match instruments.find? (·.id = instrument) with
  | none => none
  | some i =>
      if opcode ∈ i.opcodes then
        match instrument, opcode with
        | "sys", "version" => some version
        | "sys", "echo" => some echo
        | _, _ => some (hardware instrument opcode)
      else none

def hasInstrument (instrument : String) : Bool := instruments.any (·.id = instrument)

def isStreaming (instrument opcode : String) : Bool :=
  match instruments.find? (·.id = instrument) with
  | some i => i.streamingOpcodes.contains opcode
  | none => false

/-- The ids and opcodes that `build_caps` reports. -/
def buildCaps : List (String × List String) :=
  instruments.map fun i => (i.id, i.opcodes ++ i.streamingOpcodes)

def dispatch (hardware : String → String → Value → HandlerResult) (instrument opcode : String)
    (params : Value) : HandlerResult :=
  match find hardware instrument opcode with
  | some handler => handler params
  | none =>
      if !hasInstrument instrument then .error (errUnknownInstrument, "unknown instrument")
      else .error (errUnknownOpcode, "unknown opcode")

/-! ## The senders -/

namespace Sent

def typ : Sent → MsgType
  | .caps _ => .caps
  | .resp .. => .resp
  | .error .. => .error
  | .streamStart .. => .streamStart
  | .streamData .. => .streamData
  | .streamStop .. => .streamStop
  | .pong .. => .pong

def seq : Sent → UInt16
  | .caps seq | .resp seq _ | .error seq _ _ | .streamStart seq _ | .streamData seq _
  | .streamStop seq _ | .pong seq _ => seq

variable {ε : Type} (cb : Minicbor ε)

def payload : Sent → List UInt8
  | .caps _ => capsBody protocolVersion buildCaps
  | .resp _ result => respBody (Value.encode cb) result
  | .error _ code message => agentErrorBody code message
  | .streamStart _ format => streamStartBody format
  | .streamData _ raw => raw
  | .streamStop _ dropped => streamStopBody dropped
  | .pong _ payload => payload

/-- The bytes on the link; a payload that does not fit a frame is not sent. -/
def bytes (m : Sent) : List UInt8 := (frameBytes m.typ 0 m.seq (m.payload cb)).getD []

end Sent

/-! ## Handling a frame -/

/-- The statics and locals of the application. -/
structure Device where
  loop : MainLoop.Loop
  /-- Frames decoded and not handled yet. -/
  todo : List MainLoop.Dispatch
  ir : Capture Ir.config
  subghz : Capture Subghz.config
  /-- `RUNNING`. -/
  running : Bool
  /-- `main` has returned. -/
  ended : Bool

namespace Device

def initial : Device where
  loop := .new
  todo := []
  ir := .initial
  subghz := .initial
  running := true
  ended := false

/-- What a frame finds in the hardware. -/
structure Hal where
  ir : Ir.Hal
  subghz : Subghz.Hal
  hardware : String → String → Value → HandlerResult

section HandleFrame

variable (fromPayload : List UInt8 → Option Req)

/-- The REQ arm of `handle_frame`. -/
def handleReq (hal : Hal) (seq : UInt16) (req : Req) (d : Device) : Device × List Sent :=
  if isStreaming req.instrument req.opcode then
    match req.instrument, req.opcode with
    | "ir", "capture" =>
        let r := Ir.startCapture hal.ir seq d.ir
        ({ d with ir := r.1 }, r.2)
    | "subghz", "capture" =>
        let r := Subghz.startCapture hal.subghz seq req.params d.subghz
        ({ d with subghz := r.1 }, r.2)
    | _, _ => (d, [.error seq errUnknownOpcode "unknown streaming opcode"])
  else
    match dispatch hal.hardware req.instrument req.opcode req.params with
    | .ok result => (d, [.resp seq result])
    | .error (code, message) => (d, [.error seq code message])

/-- Both `stop_capture`s, one after the other. -/
def stopCaptures (d : Device) : Device × List Sent :=
  let i := Ir.stopCapture d.ir
  let s := Subghz.stopCapture d.subghz
  ({ d with ir := i.1, subghz := s.1 }, i.2 ++ s.2)

/-- `handle_frame`. -/
def handleFrame (hal : Hal) (typ : MsgType) (seq : UInt16) (payload : List UInt8) (d : Device) :
    Device × List Sent :=
  match typ with
  | .hello => (d, [.caps seq])
  | .req =>
      match fromPayload payload with
      | some req => handleReq hal seq req d
      | none => (d, [.error seq errBadParams "bad REQ body"])
  | .streamStop => stopCaptures d
  | _ => (d, [])

end HandleFrame

/-! ## The main loop -/

inductive Label where
  | irIsr (e : Edge)
  | subghzIsr (e : Edge)
  /-- The top of a turn. -/
  | receive (got : List UInt8) (overflowed : Bool)
  /-- The next decoded frame. -/
  | handle (hal : Hal)
  /-- Back is pressed. -/
  | back
  /-- The loop is over. -/
  | exit
  | launch

inductive Event where
  /-- A frame was handled, and these were sent on it. -/
  | handled (typ : MsgType) (seq : UInt16) (sent : List Sent)
  | drained (sent : List Sent)
  | exited (sent : List Sent)

/-- `ENC_CAP`. -/
def encCap : Nat := 1100

/-- `drain_capture` of the captures that are active. -/
def drainCaptures (d : Device) : Device × List Sent :=
  let i := if Ir.captureActive d.ir then Ir.drainCapture d.ir else (d.ir, [])
  let s := if Subghz.captureActive d.subghz then Subghz.drainCapture d.subghz else (d.subghz, [])
  ({ d with ir := i.1, subghz := s.1 }, i.2 ++ s.2)

/-- The condition of the main loop. -/
def looping (d : Device) : Bool := d.running && d.loop.idle < MainLoop.maxIdle

def step (fromPayload : List UInt8 → Option Req) (d : Device) :
    Label → Option (Device × List Event)
  | .irIsr e => if d.ir.rx then some ({ d with ir := (d.ir.rxCaptureIsr e).1 }, []) else none
  | .subghzIsr e =>
      if d.subghz.rx then some ({ d with subghz := (d.subghz.rxCaptureIsr e).1 }, []) else none
  | .receive got overflowed =>
      if !d.ended && d.todo.isEmpty && d.looping then
        let capturing := Ir.captureActive d.ir || Subghz.captureActive d.subghz
        let r := MainLoop.turn d.loop { got, overflowed, capturing }
        -- an overflow ends the turn before the drains
        let c := if overflowed then (d, []) else drainCaptures d
        some ({ c.1 with loop := r.2, todo := r.1 }, [.drained c.2])
      else none
  | .handle hal =>
      match d.todo with
      | .handleFrame typ seq payload :: rest =>
          let r := handleFrame fromPayload hal typ seq payload { d with todo := rest }
          some (r.1, [.handled typ seq r.2])
      | .echo seq payload :: rest =>
          some ({ d with todo := rest },
            [.handled .ping seq (if payload.length + 13 ≤ encCap then [.pong seq payload] else [])])
      | [] => none
  | .back => some ({ d with running := false }, [])
  | .exit =>
      if !d.ended && d.todo.isEmpty && !d.looping then
        some ({ (stopCaptures d).1 with ended := true }, [.exited (stopCaptures d).2])
      else none
  | .launch => if d.ended then some (initial, []) else none

def machine (fromPayload : List UInt8 → Option Req) : Machine Device Label Event where
  step := step fromPayload

/-- A whole frame is received at rest. -/
theorem receive_wire (fromPayload : List UInt8 → Option Req) {f : Frame}
    (hf : MainLoop.size f ≤ MainLoop.maxFrame) :
    step fromPayload initial (.receive f.wire false)
      = some ({ initial with todo := [MainLoop.dispatch f] }, [.drained []]) := by
  show some ({ initial with
      loop := (MainLoop.turn .new { got := f.wire, overflowed := false, capturing := false }).2
      todo := (MainLoop.turn .new { got := f.wire, overflowed := false, capturing := false }).1 },
    _) = _
  rw [MainLoop.turn_wire hf]
  rfl

/-! ## After the main loop -/

/-- Once `main` has returned, no frame is left and no capture is active. -/
def Rests (d : Device) : Prop :=
  d.ended = true → d.todo = [] ∧ d.ir.active = false ∧ d.subghz.active = false

/-- `handle_frame` leaves the frames to come alone, and the loop running. -/
theorem handleFrame_frame (fromPayload : List UInt8 → Option Req) (hal : Hal) (typ : MsgType)
    (seq : UInt16) (payload : List UInt8) (d : Device) :
    (handleFrame fromPayload hal typ seq payload d).1.todo = d.todo ∧
      (handleFrame fromPayload hal typ seq payload d).1.ended = d.ended := by
  unfold handleFrame
  split
  · exact ⟨rfl, rfl⟩
  · split
    · unfold handleReq
      split_ifs
      · split <;> exact ⟨rfl, rfl⟩
      · split <;> exact ⟨rfl, rfl⟩
    · exact ⟨rfl, rfl⟩
  · exact ⟨rfl, rfl⟩
  · exact ⟨rfl, rfl⟩

/-! ## Whose capture a STREAM_STOP ends -/

/-- The seqs of the final STREAM_STOPs among the frames sent. -/
def stopSeqs (ms : List Sent) : List UInt16 :=
  ms.filterMap fun
    | .streamStop seq _ => some seq
    | _ => none

/-- The seqs of the STREAM_STARTs. -/
def startSeqs (ms : List Sent) : List UInt16 :=
  ms.filterMap fun
    | .streamStart seq _ => some seq
    | _ => none

/-- A capture has been started by the REQ with this seq. -/
def Started (es : List Event) (q : UInt16) : Prop :=
  ∃ sent, .handled .req q sent ∈ es ∧ q ∈ startSeqs sent

theorem Started.append {es : List Event} {q : UInt16} (h : Started es q) (es' : List Event) :
    Started (es ++ es') q :=
  h.imp fun _ h => ⟨List.mem_append_left _ h.1, h.2⟩

section Captures

variable {p : CaptureConfig} (c : Capture p)

/-- An active capture is ended with its own seq. -/
theorem stopSeqs_stopCapture :
    stopSeqs c.stopCapture.2 = if c.active then [c.seq] else [] := by
  have hdata : ∀ (raws : List (List UInt8)) (seq : UInt16) (dropped : UInt32),
      stopSeqs (raws.map (Sent.streamData seq) ++ [.streamStop seq dropped]) = [seq] := by
    intro raws seq dropped
    induction raws with
    | nil => rfl
    | cons raw raws ih => exact ih
  unfold Capture.stopCapture Capture.stopRest
  split_ifs
  · dsimp only
    split
    · rfl
    · exact hdata ..
  · rfl

theorem stopCapture_active : c.stopCapture.1.active = false := by
  unfold Capture.stopCapture Capture.stopRest
  split_ifs with h
  · dsimp only
    split <;> rfl
  · exact Bool.eq_false_iff.mpr h

theorem drainCapture_frame :
    c.drainCapture.1.active = c.active ∧ c.drainCapture.1.seq = c.seq := by
  unfold Capture.drainCapture
  split
  · exact ⟨rfl, rfl⟩
  · split_ifs <;> exact ⟨rfl, rfl⟩

theorem rxCaptureIsr_frame (e : Edge) :
    (c.rxCaptureIsr e).1.active = c.active ∧ (c.rxCaptureIsr e).1.seq = c.seq := by
  unfold Capture.rxCaptureIsr
  split
  · dsimp only
    split_ifs <;> exact ⟨rfl, rfl⟩
  · exact ⟨rfl, rfl⟩

end Captures

/-- A start is refused with one ERROR and leaves the capture alone, or it arms the
receiver for the request and sends STREAM_START. -/
theorem irStart_cases (hal : Ir.Hal) (seq : UInt16) (c : Capture Ir.config) :
    (∃ code message, Ir.startCapture hal seq c = (c, [.error seq code message])) ∨
    (c.active = false ∧ ∃ sb,
      Ir.startCapture hal seq c = (Capture.arm 64 sb seq, [.streamStart seq streamFormatRawI32Us])) := by
  unfold Ir.startCapture
  split_ifs with hbusy
  · exact .inl ⟨_, _, rfl⟩
  · cases c.ensureCaptureBuffer hal.alloc with
    | none => exact .inl ⟨_, _, rfl⟩
    | some sb =>
        rw [Bool.or_eq_true, not_or, Bool.not_eq_true] at hbusy
        exact .inr ⟨hbusy.1, sb, rfl⟩

theorem subghzStart_cases (hal : Subghz.Hal) (seq : UInt16) (params : Value)
    (c : Capture Subghz.config) :
    (∃ code message, Subghz.startCapture hal seq params c = (c, [.error seq code message])) ∨
    (c.active = false ∧ ∃ sb, Subghz.startCapture hal seq params c
      = (Capture.arm 128 sb seq, [.streamStart seq streamFormatSubghzLevelDurationV1])) := by
  by_cases hactive : c.active = true
  · exact .inl ⟨_, _, by rw [Subghz.startCapture, if_pos hactive]⟩
  rw [Subghz.startCapture, if_neg hactive]
  cases Subghz.requiredFrequency params with
  | error e => exact .inl ⟨_, _, rfl⟩
  | ok frequency =>
    cases Subghz.requiredPreset params with
    | error e => exact .inl ⟨_, _, rfl⟩
    | ok preset =>
      dsimp only
      split_ifs
      · exact .inl ⟨_, _, rfl⟩
      · exact .inl ⟨_, _, rfl⟩
      · exact .inl ⟨_, _, rfl⟩
      · cases c.ensureCaptureBuffer hal.alloc with
        | none => exact .inl ⟨_, _, rfl⟩
        | some sb => exact .inr ⟨Bool.eq_false_iff.mpr hactive, sb, rfl⟩

/-- A STREAM_STOP, whoever sends it, ends every active capture. -/
theorem handleFrame_stop (fromPayload : List UInt8 → Option Req) (hal : Hal) (seq : UInt16)
    (payload : List UInt8) (d : Device) :
    stopSeqs (handleFrame fromPayload hal .streamStop seq payload d).2
      = (if d.ir.active then [d.ir.seq] else []) ++
        (if d.subghz.active then [d.subghz.seq] else []) := by
  show stopSeqs (d.ir.stopCapture.2 ++ d.subghz.stopCapture.2) = _
  rw [stopSeqs, List.filterMap_append]
  exact congrArg₂ (· ++ ·) (stopSeqs_stopCapture d.ir) (stopSeqs_stopCapture d.subghz)

/-- Every active capture has the seq of a REQ that started it. -/
structure Owned (d : Device) (es : List Event) : Prop where
  ir : d.ir.active = true → Started es d.ir.seq
  subghz : d.subghz.active = true → Started es d.subghz.seq

theorem Owned.initial (es : List Event) : Owned initial es where
  ir := nofun
  subghz := nofun

/-- What leaves the captures' flags and seqs alone keeps them owned. -/
theorem Owned.of_eq {d d' : Device} {es : List Event} (h : Owned d es) (es' : List Event)
    (hi : d'.ir.active = d.ir.active ∧ d'.ir.seq = d.ir.seq)
    (hs : d'.subghz.active = d.subghz.active ∧ d'.subghz.seq = d.subghz.seq) :
    Owned d' (es ++ es') where
  ir ha := hi.2 ▸ (h.ir (hi.1 ▸ ha)).append es'
  subghz ha := hs.2 ▸ (h.subghz (hs.1 ▸ ha)).append es'

theorem Owned.stopCaptures {d : Device} {es : List Event} : Owned (stopCaptures d).1 es where
  ir ha := nomatch (stopCapture_active d.ir).symm.trans ha
  subghz ha := nomatch (stopCapture_active d.subghz).symm.trans ha

theorem drainCaptures_frame (d : Device) :
    ((drainCaptures d).1.ir.active = d.ir.active ∧ (drainCaptures d).1.ir.seq = d.ir.seq) ∧
    ((drainCaptures d).1.subghz.active = d.subghz.active ∧
      (drainCaptures d).1.subghz.seq = d.subghz.seq) := by
  unfold drainCaptures
  dsimp only
  constructor
  · split_ifs
    · exact drainCapture_frame d.ir
    · exact ⟨rfl, rfl⟩
  · split_ifs
    · exact drainCapture_frame d.subghz
    · exact ⟨rfl, rfl⟩

/-- Handling a REQ starts at most a capture of its own. -/
theorem Owned.handleReq {d : Device} {es : List Event} (h : Owned d es) (hal : Hal) (seq : UInt16)
    (req : Req) :
    Owned (handleReq hal seq req d).1 (es ++ [.handled .req seq (handleReq hal seq req d).2]) := by
  unfold Device.handleReq
  split_ifs
  · split
    · rcases irStart_cases hal.ir seq d.ir with ⟨code, message, heq⟩ | ⟨-, sb, heq⟩
      · rw [heq]
        exact h.of_eq _ ⟨rfl, rfl⟩ ⟨rfl, rfl⟩
      · rw [heq]
        refine ⟨fun _ => ?_, fun ha => (h.subghz ha).append _⟩
        exact ⟨_, List.mem_append_right _ (List.mem_singleton_self _), List.mem_singleton_self _⟩
    · rcases subghzStart_cases hal.subghz seq req.params d.subghz with
        ⟨code, message, heq⟩ | ⟨-, sb, heq⟩
      · rw [heq]
        exact h.of_eq _ ⟨rfl, rfl⟩ ⟨rfl, rfl⟩
      · rw [heq]
        refine ⟨fun ha => (h.ir ha).append _, fun _ => ?_⟩
        exact ⟨_, List.mem_append_right _ (List.mem_singleton_self _), List.mem_singleton_self _⟩
    · exact h.of_eq _ ⟨rfl, rfl⟩ ⟨rfl, rfl⟩
  · split <;> exact h.of_eq _ ⟨rfl, rfl⟩ ⟨rfl, rfl⟩

theorem Owned.handleFrame {d : Device} {es : List Event} (h : Owned d es)
    (fromPayload : List UInt8 → Option Req) (hal : Hal) (typ : MsgType) (seq : UInt16)
    (payload : List UInt8) :
    Owned (handleFrame fromPayload hal typ seq payload d).1
      (es ++ [.handled typ seq (handleFrame fromPayload hal typ seq payload d).2]) := by
  unfold Device.handleFrame
  split
  · exact h.of_eq _ ⟨rfl, rfl⟩ ⟨rfl, rfl⟩
  · split
    · exact h.handleReq hal seq _
    · exact h.of_eq _ ⟨rfl, rfl⟩ ⟨rfl, rfl⟩
  · exact .stopCaptures
  · exact h.of_eq _ ⟨rfl, rfl⟩ ⟨rfl, rfl⟩

theorem Owned.step {fromPayload : List UInt8 → Option Req} {d d' : Device} {es es' : List Event}
    (h : Owned d es) : ∀ {l : Label}, step fromPayload d l = some (d', es') → Owned d' (es ++ es')
  | .irIsr e, hs => by
      simp only [Device.step] at hs
      split_ifs at hs
      cases hs
      exact h.of_eq _ (rxCaptureIsr_frame d.ir e) ⟨rfl, rfl⟩
  | .subghzIsr e, hs => by
      simp only [Device.step] at hs
      split_ifs at hs
      cases hs
      exact h.of_eq _ ⟨rfl, rfl⟩ (rxCaptureIsr_frame d.subghz e)
  | .receive got overflowed, hs => by
      simp only [Device.step] at hs
      split_ifs at hs
      · cases hs
        exact h.of_eq _ ⟨rfl, rfl⟩ ⟨rfl, rfl⟩
      · cases hs
        exact h.of_eq _ (drainCaptures_frame d).1 (drainCaptures_frame d).2
  | .handle hal, hs => by
      simp only [Device.step] at hs
      split at hs
      · rename_i rest htodo
        cases hs
        have hrest : Owned { d with todo := rest } es := ⟨h.ir, h.subghz⟩
        exact hrest.handleFrame ..
      · cases hs
        exact h.of_eq _ ⟨rfl, rfl⟩ ⟨rfl, rfl⟩
      · exact nomatch hs
  | .back, hs => by
      cases hs
      exact h.of_eq _ ⟨rfl, rfl⟩ ⟨rfl, rfl⟩
  | .exit, hs => by
      simp only [Device.step] at hs
      split_ifs at hs
      cases hs
      have : Owned (Device.stopCaptures d).1 (es ++ [.exited (Device.stopCaptures d).2]) :=
        .stopCaptures
      exact ⟨this.ir, this.subghz⟩
  | .launch, hs => by
      simp only [Device.step] at hs
      split_ifs at hs
      cases hs
      exact .initial _

theorem Rests.step {fromPayload : List UInt8 → Option Req} {d d' : Device} {es : List Event}
    (h : Rests d) : ∀ {l : Label}, step fromPayload d l = some (d', es) → Rests d'
  | .irIsr e, hs => by
      simp only [Device.step] at hs
      split_ifs at hs
      cases hs
      intro he
      obtain ⟨htodo, hi, hs⟩ := h he
      exact ⟨htodo, (rxCaptureIsr_frame d.ir e).1.trans hi, hs⟩
  | .subghzIsr e, hs => by
      simp only [Device.step] at hs
      split_ifs at hs
      cases hs
      intro he
      obtain ⟨htodo, hi, hs⟩ := h he
      exact ⟨htodo, hi, (rxCaptureIsr_frame d.subghz e).1.trans hs⟩
  | .receive got overflowed, hs => by
      simp only [Device.step] at hs
      split_ifs at hs with hlive hover
      all_goals
        cases hs
        simp only [Bool.and_eq_true, Bool.not_eq_true'] at hlive
        exact fun he => nomatch hlive.1.1.symm.trans he
  | .handle hal, hs => by
      simp only [Device.step] at hs
      split at hs
      · rename_i typ seq payload rest htodo
        cases hs
        intro he
        have hended := (handleFrame_frame fromPayload hal typ seq payload { d with todo := rest }).2
        exact nomatch htodo.symm.trans (h (hended.symm.trans he)).1
      · rename_i seq payload rest htodo
        cases hs
        exact fun he => nomatch htodo.symm.trans (h he).1
      · exact nomatch hs
  | .back, hs => by
      cases hs
      exact h
  | .exit, hs => by
      simp only [Device.step] at hs
      split_ifs at hs with hdone
      cases hs
      simp only [Bool.and_eq_true, List.isEmpty_iff] at hdone
      exact fun _ => ⟨hdone.1.2, stopCapture_active d.ir, stopCapture_active d.subghz⟩
  | .launch, hs => by
      simp only [Device.step] at hs
      split_ifs at hs
      cases hs
      exact nofun

/-- The seq of the STREAM_STOP that is handled next. -/
def stopping (d : Device) : Option UInt16 :=
  match d.todo with
  | .handleFrame .streamStop seq _ :: _ => some seq
  | _ => none

/-- When a STREAM_STOP is handled, every active capture has its seq. -/
def StopsOwn (d : Device) : Label → Prop
  | .handle _ => ∀ seq ∈ d.stopping,
      (d.ir.active = true → d.ir.seq = seq) ∧ (d.subghz.active = true → d.subghz.seq = seq)
  | _ => True

instance (d : Device) : ∀ l : Label, Decidable (StopsOwn d l)
  | .handle _ => Option.decidableForallMem d.stopping
  | .irIsr _ | .subghzIsr _ | .receive .. | .back | .exit | .launch => .isTrue trivial

/-- A handled STREAM_STOP ends no capture but the one that the REQ with its seq
has started. -/
def Event.EndsOwn (before : List Event) : Event → Prop
  | .handled .streamStop seq sent => ∀ q ∈ stopSeqs sent, q = seq ∧ Started before q
  | _ => True

/-- What a STREAM_STOP ends are captures with the seqs of active ones. -/
theorem mem_stopSeqs {d : Device} {q : UInt16} :
    q ∈ (if d.ir.active then [d.ir.seq] else []) ++ (if d.subghz.active then [d.subghz.seq] else [])
      ↔ (d.ir.active = true ∧ q = d.ir.seq) ∨ (d.subghz.active = true ∧ q = d.subghz.seq) := by
  rw [List.mem_append]
  refine or_congr ?_ ?_
  · split_ifs with h <;> simp [h]
  · split_ifs with h <;> simp [h]

theorem Owned.endsOwn_iff {d : Device} {es : List Event} (h : Owned d es)
    (fromPayload : List UInt8 → Option Req) (hal : Hal) (seq : UInt16) (payload : List UInt8) :
    Event.EndsOwn es
        (.handled .streamStop seq (Device.handleFrame fromPayload hal .streamStop seq payload d).2) ↔
      (d.ir.active = true → d.ir.seq = seq) ∧ (d.subghz.active = true → d.subghz.seq = seq) := by
  show (∀ q ∈ stopSeqs _, q = seq ∧ Started es q) ↔ _
  rw [handleFrame_stop]
  simp only [mem_stopSeqs]
  constructor
  · exact fun hq => ⟨fun ha => (hq _ (.inl ⟨ha, rfl⟩)).1, fun ha => (hq _ (.inr ⟨ha, rfl⟩)).1⟩
  · rintro ⟨hi, hs⟩ q (⟨ha, rfl⟩ | ⟨ha, rfl⟩)
    · exact ⟨hi ha, h.ir ha⟩
    · exact ⟨hs ha, h.subghz ha⟩

/-- A step ends no capture that is not its own exactly if every active capture is
its own. -/
theorem Owned.stopsOwn_iff {fromPayload : List UInt8 → Option Req} {d d' : Device}
    {es es' : List Event} (h : Owned d es) :
    ∀ {l : Label}, Device.step fromPayload d l = some (d', es') →
      (StopsOwn d l ↔ Machine.Each (fun before => Event.EndsOwn (es ++ before)) es')
  | .handle hal, hs => by
      simp only [Device.step] at hs
      split at hs
      · rename_i typ seq payload rest htodo
        cases hs
        rw [Machine.each_singleton, List.append_nil]
        by_cases ht : typ = .streamStop
        · subst ht
          have hd : d.stopping = some seq := by rw [stopping, htodo]
          have hrest : Owned { d with todo := rest } es := ⟨h.ir, h.subghz⟩
          rw [hrest.endsOwn_iff]
          show (∀ q ∈ d.stopping, _) ↔ _
          rw [hd]
          exact ⟨fun hq => hq seq rfl, fun hq q hs => Option.some.inj hs ▸ hq⟩
        · have hd : d.stopping = none := by
            rw [stopping, htodo]
            cases typ <;> first | rfl | exact absurd rfl ht
          refine ⟨fun _ => ?_, fun _ q hq => nomatch hd.symm.trans hq⟩
          cases typ <;> trivial
      · rename_i seq payload rest htodo
        cases hs
        have hd : d.stopping = none := by rw [stopping, htodo]
        rw [Machine.each_singleton]
        exact ⟨fun _ => trivial, fun _ q hq => nomatch hd.symm.trans hq⟩
      · exact nomatch hs
  | .irIsr e, hs | .subghzIsr e, hs | .launch, hs => by
      simp only [Device.step] at hs
      split_ifs at hs
      cases hs
      exact ⟨fun _ => Machine.each_nil, fun _ => trivial⟩
  | .receive got overflowed, hs | .exit, hs => by
      simp only [Device.step] at hs
      split_ifs at hs
      all_goals
        cases hs
        exact ⟨fun _ => Machine.each_singleton.mpr trivial, fun _ => trivial⟩
  | .back, hs => by
      cases hs
      exact ⟨fun _ => Machine.each_nil, fun _ => trivial⟩

end Device

end FlipLink
