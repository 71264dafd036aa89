/-
# `FlipLink.Firmware.Streams` — stream discipline

Who sends what: `tags` is what each step of the application sends, with the part
of the application that sends it, and erases to what the device sends
(`tags_sent`).  The stream frames of one instrument are marks of sessions
(`Sent.mark`), and the automaton that reads them is in step with the
instrument's statics: it has a stream open exactly if CAPTURE_ACTIVE is set, with
the seq in CAPTURE_SEQ (`opened`).  Every operation of a capture keeps that, and
so does every step (`opened_step`): starts that are refused send no mark, and
none of them reaches CAPTURE_SEQ.
-/
import FlipLink.Firmware.Device
import FlipLink.Lib.Sessions

namespace FlipLink

open Lib

/-! ## Stream frames -/

/-- What a frame is to the stream it belongs to. -/
def Sent.mark : Sent → Option (Mark UInt16 String (List UInt8) UInt32)
  | .streamStart seq format => some (.head seq format)
  | .streamData seq raw => some (.item seq raw)
  | .streamStop seq dropped => some (.close seq dropped)
  | _ => none

/-- A whole stream: STREAM_START, STREAM_DATA and STREAM_STOP. -/
abbrev Stream := Session UInt16 String (List UInt8) UInt32

def marks (ms : List Sent) : List (Mark UInt16 String (List UInt8) UInt32) :=
  ms.filterMap Sent.mark

/-! ## The captures -/

namespace Capture

variable {p : CaptureConfig} (c : Capture p)

/-- The seq of the stream that is open. -/
def opened : Option UInt16 := if c.active then some c.seq else none

theorem opened_eq {c c' : Capture p} (h : c'.active = c.active ∧ c'.seq = c.seq) :
    c'.opened = c.opened := by
  rw [opened, opened, h.1, h.2]

theorem opened_of_inactive {c : Capture p} (h : c.active = false) : c.opened = none :=
  if_neg (Bool.eq_false_iff.mp h)

theorem marks_streamData (seq : UInt16) (raws : List (List UInt8)) :
    marks (raws.map (.streamData seq)) = raws.map (.item seq) := by
  rw [marks, List.filterMap_map]
  exact List.filterMap_eq_map ▸ rfl

theorem opened_drainCapture :
    Mark.afterAll c.opened (marks c.drainCapture.2) = some c.drainCapture.1.opened := by
  rw [opened_eq (Device.drainCapture_frame c)]
  unfold drainCapture
  split
  · rfl
  · split_ifs with hactive
    · rw [opened, if_pos hactive]
      dsimp only
      split_ifs
      · exact Mark.afterAll_items c.seq [_]
      · rfl
    · rfl

theorem opened_stopCapture :
    Mark.afterAll c.opened (marks c.stopCapture.2) = some c.stopCapture.1.opened := by
  rw [opened_of_inactive (Device.stopCapture_active c)]
  have hflush : ∀ (raws : List (List UInt8)) (dropped : UInt32),
      Mark.afterAll (some c.seq)
          (marks (raws.map (.streamData c.seq) ++ [.streamStop c.seq dropped])) = some none := by
    intro raws dropped
    rw [marks, List.filterMap_append]
    show Mark.afterAll _ (marks _ ++ _) = _
    rw [marks_streamData, Mark.afterAll_append (Mark.afterAll_items c.seq raws)]
    show (if c.seq = c.seq then some none else none) >>= _ = _
    rw [if_pos rfl]
    rfl
  unfold stopCapture stopRest opened
  split_ifs with hactive
  · dsimp only
    split
    · exact hflush [] _
    · exact hflush ..
  · rfl

end Capture

namespace Device

/-- A start opens a stream for its own seq where none was open, or sends no stream
frame. -/
theorem opened_irStart (hal : Ir.Hal) (seq : UInt16) (c : Capture Ir.config) :
    Mark.afterAll c.opened (marks (Ir.startCapture hal seq c).2)
      = some (Ir.startCapture hal seq c).1.opened := by
  rcases irStart_cases hal seq c with ⟨code, message, heq⟩ | ⟨hactive, sb, heq⟩
  · rw [heq]
    rfl
  · rw [heq, Capture.opened_of_inactive hactive]
    rfl

theorem opened_subghzStart (hal : Subghz.Hal) (seq : UInt16) (params : Value)
    (c : Capture Subghz.config) :
    Mark.afterAll c.opened (marks (Subghz.startCapture hal seq params c).2)
      = some (Subghz.startCapture hal seq params c).1.opened := by
  rcases subghzStart_cases hal seq params c with ⟨code, message, heq⟩ | ⟨hactive, sb, heq⟩
  · rw [heq]
    rfl
  · rw [heq, Capture.opened_of_inactive hactive]
    rfl

/-! ## Who sends what -/

/-- The parts of the application that send frames. -/
inductive Sender where
  | ir | subghz | main
  deriving DecidableEq, Repr

abbrev Tagged := Sender × Sent

/-- The frames of one sender. -/
def sentBy (who : Sender) (ts : List Tagged) : List Sent :=
  ts.filterMap fun t => if t.1 = who then some t.2 else none

section Tags

variable (fromPayload : List UInt8 → Option Req)

/-- Who answers a REQ. -/
def answerer (req : Req) : Sender :=
  if isStreaming req.instrument req.opcode then
    match req.instrument, req.opcode with
    | "ir", "capture" => .ir
    | "subghz", "capture" => .subghz
    | _, _ => .main
  else .main

def tagStop (d : Device) : List Tagged :=
  (Ir.stopCapture d.ir).2.map (.ir, ·) ++ (Subghz.stopCapture d.subghz).2.map (.subghz, ·)

def tagDrain (d : Device) : List Tagged :=
  (if Ir.captureActive d.ir then (Ir.drainCapture d.ir).2 else []).map (.ir, ·) ++
    (if Subghz.captureActive d.subghz then (Subghz.drainCapture d.subghz).2 else []).map
      (.subghz, ·)

def tagFrame (hal : Hal) (typ : MsgType) (seq : UInt16) (payload : List UInt8) (d : Device) :
    List Tagged :=
  match typ with
  | .req =>
      match fromPayload payload with
      | some req => (handleReq hal seq req d).2.map (answerer req, ·)
      | none => [(.main, .error seq errBadParams "bad REQ body")]
  | .streamStop => tagStop d
  | _ => (handleFrame fromPayload hal typ seq payload d).2.map (.main, ·)

/-- What a step sends, by sender. -/
def tags (d : Device) : Label → List Tagged
  | .receive _ overflowed => if overflowed then [] else tagDrain d
  | .handle hal =>
      match d.todo with
      | .handleFrame typ seq payload :: rest =>
          tagFrame fromPayload hal typ seq payload { d with todo := rest }
      | .echo seq payload :: _ =>
          if payload.length + 13 ≤ encCap then [(.main, .pong seq payload)] else []
      | [] => []
  | .exit => tagStop d
  | .irIsr _ | .subghzIsr _ | .back | .launch => []

/-- The application, with who sends what. -/
def tagged : Machine Device Label Tagged where
  step d l := (step fromPayload d l).map fun r => (r.1, tags fromPayload d l)

end Tags

theorem sentBy_append (who : Sender) (ts ts' : List Tagged) :
    sentBy who (ts ++ ts') = sentBy who ts ++ sentBy who ts' :=
  List.filterMap_append

theorem sentBy_map (who who' : Sender) (ms : List Sent) :
    sentBy who (ms.map (who', ·)) = if who' = who then ms else [] := by
  induction ms with
  | nil => split_ifs <;> rfl
  | cons m ms ih =>
      rw [List.map_cons, sentBy, List.filterMap_cons]
      split_ifs at ih ⊢ with h
      · exact congrArg (m :: ·) ih
      · exact ih

/-- The frames of an event. -/
def Event.sent : Event → List Sent
  | .handled _ _ sent | .drained sent | .exited sent => sent

/-- Only the two captures answer for themselves. -/
theorem answerer_cases (instrument opcode : String) (params : Value) :
    answerer ⟨instrument, opcode, params⟩ = .main ∨
      (instrument = "ir" ∨ instrument = "subghz") ∧ opcode = "capture" := by
  unfold answerer
  split_ifs
  · dsimp only
    split
    · exact .inr ⟨.inl rfl, rfl⟩
    · exact .inr ⟨.inr rfl, rfl⟩
    · exact .inl rfl
  · exact .inl rfl

/-- How a REQ is answered, and what becomes of the captures. -/
theorem handleReq_cases (hal : Hal) (seq : UInt16) (req : Req) (d : Device) :
    (answerer req = .ir ∧ handleReq hal seq req d
      = ({ d with ir := (Ir.startCapture hal.ir seq d.ir).1 },
        (Ir.startCapture hal.ir seq d.ir).2)) ∨
    (answerer req = .subghz ∧ handleReq hal seq req d
      = ({ d with subghz := (Subghz.startCapture hal.subghz seq req.params d.subghz).1 },
        (Subghz.startCapture hal.subghz seq req.params d.subghz).2)) ∨
    (answerer req = .main ∧
      ((∃ code message, handleReq hal seq req d = (d, [.error seq code message])) ∨
      ¬isStreaming req.instrument req.opcode = true ∧
        ∃ result, handleReq hal seq req d = (d, [.resp seq result]))) := by
  obtain ⟨instrument, opcode, params⟩ := req
  unfold handleReq
  dsimp only
  split_ifs with hstreaming
  · split
    · exact .inl ⟨rfl, rfl⟩
    · exact .inr (.inl ⟨rfl, rfl⟩)
    · rename_i hir hsubghz
      rcases answerer_cases instrument opcode params with hmain | ⟨hi | hi, ho⟩
      · exact .inr (.inr ⟨hmain, .inl ⟨_, _, rfl⟩⟩)
      · exact (hir hi ho).elim
      · exact (hsubghz hi ho).elim
  · refine .inr (.inr ⟨if_neg hstreaming, ?_⟩)
    split
    · exact .inr ⟨hstreaming, _, rfl⟩
    · exact .inl ⟨_, _, rfl⟩

/-! ## The tags and what is sent -/

theorem map_snd_map (who : Sender) (ms : List Sent) :
    (ms.map fun m => ((who, m) : Tagged)).map Prod.snd = ms := by
  rw [List.map_map]
  exact List.map_id ms

theorem tagFrame_sent (fromPayload : List UInt8 → Option Req) (hal : Hal) (typ : MsgType)
    (seq : UInt16) (payload : List UInt8) (d : Device) :
    (tagFrame fromPayload hal typ seq payload d).map Prod.snd
      = (handleFrame fromPayload hal typ seq payload d).2 := by
  unfold tagFrame
  split
  · rw [handleFrame]
    cases fromPayload payload with
    | some req => exact map_snd_map ..
    | none => rfl
  · rw [tagStop, List.map_append, map_snd_map, map_snd_map]
    rfl
  · exact map_snd_map ..

/-- The tags of a step erase to what it sends. -/
theorem tags_sent {fromPayload : List UInt8 → Option Req} {d d' : Device} {es : List Event} :
    ∀ {l : Label}, step fromPayload d l = some (d', es) →
      (tags fromPayload d l).map Prod.snd = es.flatMap Event.sent
  | .irIsr e, hs | .subghzIsr e, hs | .launch, hs => by
      simp only [Device.step] at hs
      split_ifs at hs
      cases hs
      rfl
  | .back, hs => by
      cases hs
      rfl
  | .receive got overflowed, hs => by
      simp only [Device.step] at hs
      split_ifs at hs with hlive hover
      · cases hs
        rw [tags, if_pos hover]
        rfl
      · cases hs
        rw [tags, if_neg hover, tagDrain, List.map_append, map_snd_map, map_snd_map,
          List.flatMap_singleton]
        show _ = (drainCaptures d).2
        rw [drainCaptures]
        dsimp only
        split_ifs <;> rfl
  | .handle hal, hs => by
      simp only [Device.step] at hs
      split at hs
      · rename_i typ seq payload rest htodo
        cases hs
        rw [tags, htodo, List.flatMap_singleton]
        exact tagFrame_sent ..
      · rename_i seq payload rest htodo
        cases hs
        rw [tags, htodo, List.flatMap_singleton]
        dsimp only [Event.sent]
        split_ifs <;> rfl
      · cases hs
  | .exit, hs => by
      simp only [Device.step] at hs
      split_ifs at hs
      cases hs
      rw [tags, tagStop, List.map_append, map_snd_map, map_snd_map, List.flatMap_singleton]
      rfl

theorem tagged_run {fromPayload : List UInt8 → Option Req} : ∀ {ls : List Label} {d d' : Device}
    {es : List Event}, (machine fromPayload).run d ls = some (d', es) →
      ∃ ts, (tagged fromPayload).run d ls = some (d', ts) ∧
        ts.map Prod.snd = es.flatMap Event.sent
  | [], _, _, _, h => by
      cases h
      exact ⟨[], rfl, rfl⟩
  | l :: ls, d, _, _, h => by
      obtain ⟨d₁, es₁, es₂, hs, hr, rfl⟩ := Machine.run_cons h
      obtain ⟨ts₂, hrun, hsent⟩ := tagged_run hr
      have htagged : (tagged fromPayload).step d l = some (d₁, tags fromPayload d l) :=
        congrArg (Option.map _) hs
      refine ⟨_, Machine.run_step htagged hrun, ?_⟩
      rw [List.map_append, tags_sent hs, hsent, List.flatMap_append]

/-! ## Every step is in step with the streams -/

/-- The seq of the stream that a sender has open. -/
def opened (d : Device) : Sender → Option UInt16
  | .ir => d.ir.opened
  | .subghz => d.subghz.opened
  | .main => none

/-- What is sent leads from the streams open before to those open after. -/
def InStep (d : Device) (ts : List Tagged) (d' : Device) : Prop :=
  ∀ who, Mark.afterAll (d.opened who) (marks (sentBy who ts)) = some (d'.opened who)

/-- What the instruments send one after the other. -/
theorem InStep.of_parts {d d' : Device} {is ss : List Sent}
    (hi : Mark.afterAll d.ir.opened (marks is) = some d'.ir.opened)
    (hs : Mark.afterAll d.subghz.opened (marks ss) = some d'.subghz.opened) :
    InStep d (is.map (.ir, ·) ++ ss.map (.subghz, ·)) d' := by
  intro who
  rw [sentBy_append, sentBy_map, sentBy_map]
  cases who with
  | ir => exact (List.append_nil is).symm ▸ hi
  | subghz => exact hs
  | main => rfl

/-- Frames that belong to no stream, and captures with the same flags and seqs. -/
theorem InStep.silent {d d' : Device} {ts : List Tagged} (hts : ∀ t ∈ ts, t.2.mark = none)
    (hi : d'.ir.active = d.ir.active ∧ d'.ir.seq = d.ir.seq)
    (hs : d'.subghz.active = d.subghz.active ∧ d'.subghz.seq = d.subghz.seq) :
    InStep d ts d' := by
  intro who
  have hnil : marks (sentBy who ts) = [] := by
    refine List.filterMap_eq_nil_iff.mpr fun m hm => ?_
    obtain ⟨t, ht, hwho⟩ := List.mem_filterMap.mp hm
    obtain ⟨-, hm⟩ := Option.ite_none_right_eq_some.mp hwho
    exact Option.some.inj hm ▸ hts t ht
  rw [hnil, Mark.afterAll_nil]
  cases who with
  | ir => exact congrArg some (Capture.opened_eq hi).symm
  | subghz => exact congrArg some (Capture.opened_eq hs).symm
  | main => rfl

theorem InStep.stop (d : Device) : InStep d (tagStop d) (stopCaptures d).1 :=
  .of_parts (Capture.opened_stopCapture d.ir) (Capture.opened_stopCapture d.subghz)

theorem InStep.req (hal : Hal) (seq : UInt16) (req : Req) (d : Device) :
    InStep d ((handleReq hal seq req d).2.map (answerer req, ·)) (handleReq hal seq req d).1 := by
  rcases handleReq_cases hal seq req d with ⟨hwho, heq⟩ | ⟨hwho, heq⟩ | ⟨hwho, h⟩
  · rw [hwho, heq]
    have := @InStep.of_parts d { d with ir := (Ir.startCapture hal.ir seq d.ir).1 } _ []
      (opened_irStart hal.ir seq d.ir) rfl
    rwa [List.map_nil, List.append_nil] at this
  · rw [hwho, heq]
    exact @InStep.of_parts _ _ [] _ rfl (opened_subghzStart hal.subghz seq req.params d.subghz)
  · rw [hwho]
    rcases h with ⟨code, message, heq⟩ | ⟨-, result, heq⟩
    all_goals
      rw [heq]
      exact .silent (List.forall_mem_singleton.mpr rfl) ⟨rfl, rfl⟩ ⟨rfl, rfl⟩

theorem InStep.frame (fromPayload : List UInt8 → Option Req) (hal : Hal) (typ : MsgType)
    (seq : UInt16) (payload : List UInt8) (d : Device) :
    InStep d (tagFrame fromPayload hal typ seq payload d)
      (handleFrame fromPayload hal typ seq payload d).1 := by
  unfold tagFrame handleFrame
  split
  · dsimp only
    cases fromPayload payload with
    | some req => exact .req hal seq req d
    | none => exact .silent (List.forall_mem_singleton.mpr rfl) ⟨rfl, rfl⟩ ⟨rfl, rfl⟩
  · exact .stop d
  · rename_i hreq hstop
    cases typ with
    | req => exact (hreq rfl).elim
    | streamStop => exact (hstop rfl).elim
    | hello => exact .silent (List.forall_mem_singleton.mpr rfl) ⟨rfl, rfl⟩ ⟨rfl, rfl⟩
    | _ => exact .silent (fun _ ht => nomatch ht) ⟨rfl, rfl⟩ ⟨rfl, rfl⟩

theorem InStep.step {fromPayload : List UInt8 → Option Req} {d d' : Device} {es : List Event}
    (hrests : Rests d) : ∀ {l : Label}, step fromPayload d l = some (d', es) →
      InStep d (tags fromPayload d l) d'
  | .irIsr e, hs => by
      simp only [Device.step] at hs
      split_ifs at hs
      cases hs
      exact .silent (List.forall_mem_nil _) (rxCaptureIsr_frame d.ir e) ⟨rfl, rfl⟩
  | .subghzIsr e, hs => by
      simp only [Device.step] at hs
      split_ifs at hs
      cases hs
      exact .silent (List.forall_mem_nil _) ⟨rfl, rfl⟩ (rxCaptureIsr_frame d.subghz e)
  | .receive got overflowed, hs => by
      simp only [Device.step] at hs
      split_ifs at hs with hlive hover
      · cases hs
        rw [tags, if_pos hover]
        exact .silent (List.forall_mem_nil _) ⟨rfl, rfl⟩ ⟨rfl, rfl⟩
      · cases hs
        rw [tags, if_neg hover]
        refine .of_parts ?_ ?_
        · dsimp only [drainCaptures]
          split_ifs
          · exact Capture.opened_drainCapture d.ir
          · rfl
        · dsimp only [drainCaptures]
          split_ifs
          · exact Capture.opened_drainCapture d.subghz
          · rfl
  | .handle hal, hs => by
      simp only [Device.step] at hs
      split at hs
      · rename_i typ seq payload rest htodo
        cases hs
        rw [tags, htodo]
        exact InStep.frame fromPayload hal typ seq payload { d with todo := rest }
      · rename_i seq payload rest htodo
        cases hs
        rw [tags, htodo]
        refine .silent (fun t ht => ?_) ⟨rfl, rfl⟩ ⟨rfl, rfl⟩
        dsimp only at ht
        split_ifs at ht
        · exact List.mem_singleton.mp ht ▸ rfl
        · cases ht
      · cases hs
  | .back, hs => by
      cases hs
      exact .silent (List.forall_mem_nil _) ⟨rfl, rfl⟩ ⟨rfl, rfl⟩
  | .exit, hs => by
      simp only [Device.step] at hs
      split_ifs at hs
      cases hs
      exact InStep.stop d
  | .launch, hs => by
      simp only [Device.step] at hs
      split_ifs at hs with hended
      cases hs
      -- the statics are loaded anew, and nothing was open
      obtain ⟨-, hi, hs⟩ := hrests hended
      exact @InStep.of_parts _ _ [] [] (congrArg some (Capture.opened_of_inactive hi))
        (congrArg some (Capture.opened_of_inactive hs))

/-- The frames that answer a REQ. -/
def Answers (seq : UInt16) (sent : List Sent) : Prop :=
  (∃ format, sent = [.streamStart seq format]) ∨ (∃ result, sent = [.resp seq result]) ∨
    ∃ code message, sent = [.error seq code message]

/-- A capture request is refused with one ERROR and changes nothing, or it is
answered with STREAM_START. -/
theorem handleReq_capture (hal : Hal) (seq : UInt16) (req : Req) (d : Device)
    (h : isStreaming req.instrument req.opcode = true) :
    (∃ code message, handleReq hal seq req d = (d, [.error seq code message])) ∨
      ∃ format, (handleReq hal seq req d).2 = [.streamStart seq format] := by
  rcases handleReq_cases hal seq req d with ⟨-, heq⟩ | ⟨-, heq⟩ | ⟨-, heq | ⟨hnot, -⟩⟩
  · rw [heq]
    rcases irStart_cases hal.ir seq d.ir with ⟨code, message, hs⟩ | ⟨-, sb, hs⟩
    · exact .inl ⟨code, message, by rw [hs]⟩
    · exact .inr ⟨_, by rw [hs]⟩
  · rw [heq]
    rcases subghzStart_cases hal.subghz seq req.params d.subghz with
      ⟨code, message, hs⟩ | ⟨-, sb, hs⟩
    · exact .inl ⟨code, message, by rw [hs]⟩
    · exact .inr ⟨_, by rw [hs]⟩
  · exact .inl heq
  · exact absurd h hnot

theorem handleReq_answers (hal : Hal) (seq : UInt16) (req : Req) (d : Device) :
    Answers seq (handleReq hal seq req d).2 := by
  rcases handleReq_cases hal seq req d with ⟨-, heq⟩ | ⟨-, heq⟩ | ⟨-, heq | ⟨-, heq⟩⟩
  · rw [heq]
    rcases irStart_cases hal.ir seq d.ir with ⟨code, message, hs⟩ | ⟨-, sb, hs⟩
    · exact .inr (.inr ⟨code, message, by rw [hs]⟩)
    · exact .inl ⟨_, by rw [hs]⟩
  · rw [heq]
    rcases subghzStart_cases hal.subghz seq req.params d.subghz with
      ⟨code, message, hs⟩ | ⟨-, sb, hs⟩
    · exact .inr (.inr ⟨code, message, by rw [hs]⟩)
    · exact .inl ⟨_, by rw [hs]⟩
  · obtain ⟨code, message, heq⟩ := heq
    exact .inr (.inr ⟨code, message, by rw [heq]⟩)
  · obtain ⟨result, heq⟩ := heq
    exact .inr (.inl ⟨result, by rw [heq]⟩)

/-- Every REQ that a step handles is answered with one frame of its own seq. -/
theorem step_answers {fromPayload : List UInt8 → Option Req} {d d' : Device} {es : List Event}
    {seq : UInt16} {sent : List Sent} : ∀ {l : Label}, step fromPayload d l = some (d', es) →
      .handled .req seq sent ∈ es → Answers seq sent
  | .irIsr e, hs, he | .subghzIsr e, hs, he | .launch, hs, he => by
      simp only [Device.step] at hs
      split_ifs at hs
      cases hs
      cases he
  | .receive got overflowed, hs, he | .exit, hs, he => by
      simp only [Device.step] at hs
      split_ifs at hs
      all_goals
        cases hs
        cases List.mem_singleton.mp he
  | .back, hs, he => by
      cases hs
      cases he
  | .handle hal, hs, he => by
      simp only [Device.step] at hs
      split at hs
      · rename_i typ seq payload rest htodo
        cases hs
        cases List.mem_singleton.mp he
        rw [handleFrame]
        cases fromPayload payload with
        | some req => exact handleReq_answers hal seq req _
        | none => exact .inr (.inr ⟨_, _, rfl⟩)
      · cases hs
        cases List.mem_singleton.mp he
      · cases hs

/-- **Stream discipline.**  In every run of the application, the stream frames that
an instrument sends are whole streams (STREAM_START, STREAM_DATAs and STREAM_STOP,
all of one seq) one after the other, and behind them at most the start of the one
whose seq its capture has; once `main` has returned, the streams are whole.  Every
REQ is answered with one frame of its own seq, and a capture request that is
refused gets one ERROR and changes nothing. -/
theorem stream_discipline {fromPayload : List UInt8 → Option Req} {ls : List Label} {d : Device}
    {es : List Event} (hrun : (machine fromPayload).run initial ls = some (d, es)) :
    (∃ ts, (tagged fromPayload).run initial ls = some (d, ts) ∧
      ts.map Prod.snd = es.flatMap Event.sent ∧
      (∀ who, ∃ (streams : List Stream) (opening : Option (Opened UInt16 String (List UInt8))),
        marks (sentBy who ts)
          = streams.flatMap Session.marks ++ opening.elim [] (Opened.marks UInt32) ∧
        d.opened who = opening.map Opened.key) ∧
      (d.ended = true → ∀ who, ∃ streams : List Stream,
        marks (sentBy who ts) = streams.flatMap Session.marks)) ∧
    (∀ seq sent, .handled .req seq sent ∈ es → Answers seq sent) ∧
    ∀ (hal : Hal) (seq : UInt16) (req : Req), isStreaming req.instrument req.opcode = true →
      (∃ code message, handleReq hal seq req d = (d, [.error seq code message])) ∨
        ∃ format, (handleReq hal seq req d).2 = [.streamStart seq format] := by
  obtain ⟨ts, htagged, hsent⟩ := tagged_run hrun
  have hinv : Rests d ∧ InStep initial ts d := by
    refine Machine.run_events (M := tagged fromPayload)
      (P := fun d ts => Rests d ∧ InStep initial ts d) (fun h hstep => ?_)
      ⟨fun hended => Bool.noConfusion hended,
        .silent (fun _ ht => nomatch ht) ⟨rfl, rfl⟩ ⟨rfl, rfl⟩⟩ htagged
    obtain ⟨hrests, h⟩ := h
    obtain ⟨⟨d', es'⟩, hs, heq⟩ := Option.map_eq_some_iff.mp hstep
    obtain ⟨rfl, rfl⟩ := Prod.mk.inj heq
    refine ⟨hrests.step hs, fun who => ?_⟩
    rw [sentBy_append, marks, List.filterMap_append]
    exact (Mark.afterAll_append (h who)).trans (InStep.step hrests hs who)
  obtain ⟨hrests, h⟩ := hinv
  have hread : ∀ who, Mark.afterAll none (marks (sentBy who ts)) = some (d.opened who) := by
    intro who
    cases who with
    | ir => exact h .ir
    | subghz => exact h .subghz
    | main => exact h .main
  refine ⟨⟨ts, htagged, hsent, fun who => Mark.afterAll_iff.mp (hread who), fun hended who => ?_⟩,
    ?_, fun hal seq req hreq => handleReq_capture hal seq req d hreq⟩
  · obtain ⟨-, hi, hs⟩ := hrests hended
    have hopened : d.opened who = none := by
      cases who with
      | ir => exact Capture.opened_of_inactive hi
      | subghz => exact Capture.opened_of_inactive hs
      | main => rfl
    exact Mark.afterAll_none_iff.mp (hopened ▸ hread who)
  · refine Machine.run_events (M := machine fromPayload)
      (P := fun _ es => ∀ seq sent, .handled .req seq sent ∈ es → Answers seq sent)
      (fun hes hs seq sent he => ?_) (fun _ _ he => nomatch he) hrun
    rcases List.mem_append.mp he with he | he
    · exact hes seq sent he
    · exact step_answers hs he

def irCaptureFrame : Frame := { typ := .req, flags := 0, seq := 7, payload := [] }

/-- A capture that Back ends. -/
theorem stream_discipline_back :
    let readCapture : List UInt8 → Option Req :=
      fun _ => some { instrument := "ir", opcode := "capture", params := .null }
    let hal : Hal := ⟨⟨false, true⟩, ⟨false, fun _ => true, false, true⟩, fun _ _ _ => .ok .null⟩
    ∃ d es ts, (machine readCapture).run initial
        [.receive irCaptureFrame.wire false, .handle hal, .irIsr ⟨true, 560⟩, .back, .exit]
          = some (d, es) ∧
      d.ended = true ∧ ts.map Prod.snd = es.flatMap Event.sent ∧
      ∃ streams : List Stream, marks (sentBy .ir ts) = streams.flatMap Session.marks := by
  intro readCapture hal
  have hreceive : (machine readCapture).step initial (.receive irCaptureFrame.wire false) = _ :=
    receive_wire readCapture (by decide)
  have hrun := @Machine.run_step _ _ _ (machine readCapture) _ _ _ _
    [.handle hal, .irIsr ⟨true, 560⟩, .back, .exit] _ _ hreceive rfl
  obtain ⟨⟨ts, -, hsent, -, hended⟩, -⟩ := stream_discipline hrun
  exact ⟨_, _, ts, hrun, rfl, hsent, hended rfl .ir⟩

end Device

end FlipLink
