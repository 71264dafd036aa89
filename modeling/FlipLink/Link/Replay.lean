/-
# `FlipLink.Link.Replay` — what was captured is what is played

A signal's way there and back: the ISR's edges into a stream, the stream into a signal on
the host, the signal into a file and out of it, its parameters into a REQ, the REQ through
the main loop to the handler, the handler's statics to the interrupt that plays them, and
what the handler reports back to the caller.  The stations are those of the other modules,
and each hands on what the next one expects (`ir_captured_replayed`,
`subghz_captured_replayed`).

The relay in between is a connection that carries the frames of the capture.  The way back of
an answer leads through the thread of the caller, which waits for it for three seconds and no
longer: `callerGets` is what the call comes to with the answer, and without.  The derived
decoders of replies on the host are parameters (`ReadsReplies`).
-/
import FlipLink.Client.Capture
import FlipLink.Client.Requests
import FlipLink.Daemon.Server
import FlipLink.Firmware.Playback
import FlipLink.Firmware.Replies

namespace FlipLink

open Lib Lib.Cbor MainLoop
open DaemonClient (Call transmitResult)
open DeviceLink (Bodies)

/-! ## A request and its reply -/

section Request

variable {ε : Type} {cb : Minicbor ε} {fromPayload : List UInt8 → Option Req} {b : Bodies}

/-- A REQ that finds the main loop waiting is dispatched, in whatever pieces it arrives. -/
theorem request_dispatched {seq : UInt16} {body : List UInt8} (hsize : body.length + 13 ≤ maxFrame)
    {loop : Loop} (hacc : loop.acc = []) (hidle : loop.idle < maxIdle) {ts : List Turn}
    (hts : ∀ t ∈ ts, Piece t) (hwire : (ts.map Turn.got).flatten = wire .req 0 seq body) :
    (run loop ts).1 = [.handleFrame .req seq body] := by
  have hne : ts ≠ [] := by
    rintro rfl
    have := congrArg List.length hwire
    rw [length_wire] at this
    exact absurd this.symm (Nat.succ_ne_zero _)
  rw [run_waiting hacc hidle hts hne]
  exact run_frame (f := { typ := .req, flags := 0, seq, payload := body }) hsize hts hwire

/-- A REQ that starts no stream is answered with what its handler returns. -/
theorem handleFrame_request (hreq : ReadsReq cb fromPayload) {instrument opcode : String}
    {params : Value} (hinstrument : (utf8 instrument).length < 2 ^ 64)
    (hopcode : (utf8 opcode).length < 2 ^ 64) (hparams : params.Fits)
    (hstream : isStreaming instrument opcode = false) (hal : Device.Hal) (seq : UInt16)
    (d : Device) :
    Device.handleFrame fromPayload hal .req seq
        (reqBody (Value.encode cb) ⟨instrument, opcode, params⟩) d
      = (d, [answer seq (dispatch hal.hardware instrument opcode params.norm)]) := by
  have hread := hreq ⟨instrument, opcode, params⟩ hinstrument hopcode hparams
  rw [Device.handleFrame, hread]
  dsimp only
  rw [Device.handleReq, if_neg (by rw [hstream]; exact Bool.false_ne_true)]
  dsimp only
  cases dispatch hal.hardware instrument opcode params.norm <;> rfl

/-- The host's derived decoders read what the device's encoders wrote. -/
structure ReadsReplies (cb : Minicbor ε) (b : Bodies) : Prop where
  value : b.value = Value.encode cb
  resp : ∀ v : Value, v.Fits →
    b.resp (respBody (Value.encode cb) v) = .ok { ok := true, result := v.norm }
  agentError : ∀ (code : UInt32) (message : String), (utf8 message).length < 2 ^ 64 →
    b.agentError (agentErrorBody code message) = .ok { code, message }

/-- A frame of the device as the daemon passes it to the client. -/
def Sent.relayed (cb : Minicbor ε) (m : Sent) : OwnedFrame :=
  { typ := m.typ, flags := 0, seq := 1, payload := m.payload cb }

/-- What the handlers of the two `transmit`s return. -/
def sentResult (n : UInt64) : HandlerResult := .ok (.map [("sent", .u64 n)])

theorem transmitResult_sent (hb : ReadsReplies cb b) (seq : UInt16) (n : UInt64) :
    transmitResult b (.ok ((answer seq (sentResult n)).relayed cb)) = .ok n := by
  have hfits : (Value.map [("sent", .u64 n)]).Fits :=
    ⟨show 1 < 2 ^ 64 by decide, by decide, trivial, trivial⟩
  have hresp := hb.resp _ hfits
  simp only [transmitResult, DaemonClient.invokeResult, answer, sentResult, Sent.relayed, Sent.typ,
    Sent.payload, hresp]
  rfl

theorem transmitResult_error (hb : ReadsReplies cb b) (seq : UInt16) {code : UInt32}
    {message : String} (h : (utf8 message).length < 2 ^ 64) :
    transmitResult b (.ok ((answer seq (.error (code, message))).relayed cb))
      = .error ("device error " ++ toString code.toNat ++ ": " ++ message) := by
  have herror := hb.agentError code message h
  simp only [transmitResult, DaemonClient.invokeResult, answer, Sent.relayed, Sent.typ,
    Sent.payload, herror]
  rfl

/-- The thread has forwarded the REQ of a call, and waits for the device. -/
def Awaiting (t : Daemon.Thread) : Prop := ∃ d deadline, t.phase = .await 1 d deadline

/-- The frame that a thread is about to write to its client. -/
def told (t : Daemon.Thread) : Option OwnedFrame :=
  match t.phase.need agentErrorBody with
  | .write _ typ seq payload => some { typ, flags := 0, seq, payload }
  | _ => none

/-- What the call comes to when its thread has its answer: the thread gives up the route and
writes to the client, which has not given up itself (the commands of the CLI wait longer than
the daemon) and reads what is written. -/
def callerGets (b : Bodies) (t : Daemon.Thread) (now : Nat) (a : Daemon.Answer) :
    Option (Except String UInt64) := do
  let t ← t.resume agentErrorBody now a
  let t ← t.resume agentErrorBody now .done
  let f ← told t
  return transmitResult b (.ok f)

/-- An answer of the device is passed on. -/
theorem callerGets_answer {t : Daemon.Thread} (ht : Awaiting t) (now : Nat) (seq : UInt16)
    (result : HandlerResult) :
    callerGets b t now (.reply ((answer seq result).frame cb))
      = some (transmitResult b (.ok ((answer seq result).relayed cb))) := by
  obtain ⟨d, deadline, hphase⟩ := ht
  cases result <;> simp only [callerGets, Daemon.Thread.resume, hphase] <;> rfl

theorem callerGets_sent (hb : ReadsReplies cb b) {t : Daemon.Thread} (ht : Awaiting t) (now : Nat)
    (seq : UInt16) (n : UInt64) :
    callerGets b t now (.reply ((answer seq (sentResult n)).frame cb)) = some (.ok n) := by
  rw [callerGets_answer ht, transmitResult_sent hb]

theorem callerGets_error (hb : ReadsReplies cb b) {t : Daemon.Thread} (ht : Awaiting t)
    (now : Nat) (seq : UInt16) {code : UInt32} {message : String}
    (h : (utf8 message).length < 2 ^ 64) :
    callerGets b t now (.reply ((answer seq (.error (code, message))).frame cb))
      = some (.error ("device error " ++ toString code.toNat ++ ": " ++ message)) := by
  rw [callerGets_answer ht, transmitResult_error hb seq h]

/-- A thread that has waited in vain answers for the device. -/
theorem callerGets_timeout (hb : ReadsReplies cb b) {t : Daemon.Thread} (ht : Awaiting t)
    (now : Nat) :
    callerGets b t now .timeout = some (.error "device error 6: device timeout") := by
  obtain ⟨d, deadline, hphase⟩ := ht
  have herror : transmitResult b
      (.ok ((answer 1 (.error (errInternal, "device timeout"))).relayed cb))
        = .error "device error 6: device timeout" := transmitResult_error hb 1 (by decide)
  simp only [callerGets, Daemon.Thread.resume, hphase]
  exact congrArg some herror

def readResp (cb : Minicbor ε) (payload : List UInt8) : Option Resp := do
  let (n, d) ← (cb.array payload).toOption
  guard (n = some 2)
  let (ok, d) ← (cb.bool d).toOption
  let (result, _) ← (Value.decode cb d).toOption
  return { ok, result }

def readAgentError (cb : Minicbor ε) (payload : List UInt8) : Option AgentError := do
  let (n, d) ← (cb.array payload).toOption
  guard (n = some 2)
  let (code, d) ← (cb.u64 d).toOption
  let (message, _) ← (cb.str d).toOption
  return { code := code.toUInt32, message }

/-- Decoders of replies. -/
def hostBodies (cb : Minicbor ε) : Bodies where
  value := Value.encode cb
  caps _ := .error "undecodable"
  resp payload := (readResp cb payload).elim (.error "undecodable") .ok
  agentError payload := (readAgentError cb payload).elim (.error "undecodable") .ok

theorem readsReplies_hostBodies (hcb : cb.Lawful) : ReadsReplies cb (hostBodies cb) where
  value := rfl
  resp v hv := by
    have harray : ∀ rest, cb.array (head 4 2 ++ rest) = .ok (some 2, rest) := by
      intro rest
      have := hcb.array_enc 2 rest
      rwa [hcb.encArray_eq] at this
    have hbool : ∀ rest, cb.bool (0xF5 :: rest) = .ok (true, rest) := by
      intro rest
      have := hcb.bool_enc true rest
      rwa [hcb.encBool_eq] at this
    have hvalue : Value.decode cb (Value.encode cb v) = .ok (v.norm, []) := by
      have := Value.decodeN_encode hcb v hv _ (Nat.le_succ _) []
      rwa [List.append_nil] at this
    simp [hostBodies, readResp, respBody, harray, hbool, hvalue, Except.toOption]
  agentError code message hmessage := by
    have harray : ∀ rest, cb.array (head 4 2 ++ rest) = .ok (some 2, rest) := by
      intro rest
      have := hcb.array_enc 2 rest
      rwa [hcb.encArray_eq] at this
    have hcode : ∀ rest, cb.u64 (head 0 code.toNat ++ rest) = .ok (code.toUInt64, rest) := by
      intro rest
      have := hcb.u64_enc code.toUInt64 rest
      rwa [hcb.encU64_eq, UInt32.toNat_toUInt64] at this
    have hstr : cb.str (textBody message) = .ok (message, []) := by
      have := hcb.str_enc message [] hmessage
      rwa [hcb.encStr_eq, List.append_nil] at this
    simp [hostBodies, readAgentError, agentErrorBody, harray, hcode, hstr, Except.toOption]

end Request

/-! ## The frames of a capture -/

namespace Capture

variable {p : CaptureConfig}

/-- What the main loop sends. -/
def sentOf (es : List Event) : List Sent :=
  es.filterMap fun
    | .sent m => some m
    | _ => none

theorem sentOf_append (es es' : List Event) : sentOf (es ++ es') = sentOf es ++ sentOf es' :=
  List.filterMap_append

theorem sentOf_sent : ∀ ms : List Sent, sentOf (ms.map .sent) = ms
  | [] => rfl
  | m :: ms => congrArg (m :: ·) (sentOf_sent ms)

theorem rxCaptureIsr_quiet (c : Capture p) (e : Edge) :
    sentOf (c.rxCaptureIsr e).2 = [] ∧ payloads (c.rxCaptureIsr e).2 = [] ∧
      stops (c.rxCaptureIsr e).2 = [] ∧ (c.rxCaptureIsr e).1.seq = c.seq ∧
      (c.rxCaptureIsr e).1.active = c.active ∧ (c.rxCaptureIsr e).1.rx = c.rx := by
  unfold rxCaptureIsr
  split
  · dsimp only
    split_ifs <;> exact ⟨rfl, rfl, rfl, rfl, rfl, rfl⟩
  · exact ⟨rfl, rfl, rfl, rfl, rfl, rfl⟩

theorem drainCapture_frames (c : Capture p) :
    c.drainCapture.2 = (payloads (c.drainCapture.2.map .sent)).map (.streamData c.seq) ∧
      stops (c.drainCapture.2.map .sent) = [] ∧ c.drainCapture.1.seq = c.seq ∧
      c.drainCapture.1.active = c.active ∧ c.drainCapture.1.rx = c.rx := by
  unfold drainCapture
  split
  · exact ⟨rfl, rfl, rfl, rfl, rfl⟩
  · split_ifs
    · dsimp only
      split_ifs <;> exact ⟨rfl, rfl, rfl, rfl, rfl⟩
    · exact ⟨rfl, rfl, rfl, rfl, rfl⟩

theorem stopRest_frames (c : Capture p) :
    c.stopRest.2 = (payloads (c.stopRest.2.map .sent)).map (.streamData c.seq) ++
        (stops (c.stopRest.2.map .sent)).map (.streamStop c.seq) ∧
      c.stopRest.1.seq = c.seq ∧ c.stopRest.1.active = c.active ∧ c.stopRest.1.rx = false := by
  unfold stopRest
  split
  · exact ⟨rfl, rfl, rfl, rfl⟩
  · refine ⟨?_, rfl, rfl, rfl⟩
    dsimp only
    rw [payloads_streamData, stops_streamData]
    rfl

/-- The frames so far: STREAM_DATA frames, and a STREAM_STOP once the receiver is off. -/
structure Framed (seq : UInt16) (c : Capture p) (es : List Event) : Prop where
  seq_eq : c.seq = seq
  rx_of_active : c.active = true → c.rx = true
  stops_on : c.rx = true → stops es = []
  frames : sentOf es = (payloads es).map (.streamData seq) ++ (stops es).map (.streamStop seq)

theorem Framed.step {seq : UInt16} {c c' : Capture p} {es es' : List Event} {l : Label}
    (h : Framed seq c es) (hs : step c l = some (c', es')) : Framed seq c' (es ++ es') := by
  obtain ⟨rfl, hrx, hstops, hframes⟩ := h
  cases l with
  | isr e =>
      obtain ⟨hon, hs⟩ := Option.ite_none_right_eq_some.mp hs
      obtain ⟨hsent, hpayloads, hstops', hseq, hactive, hrx'⟩ := rxCaptureIsr_quiet c e
      rw [Option.some.inj hs] at hsent hpayloads hstops' hseq hactive hrx'
      dsimp only at hsent hpayloads hstops' hseq hactive hrx'
      refine ⟨hseq, fun h => hrx'.trans hon, fun _ => ?_, ?_⟩
      · rw [stops_append, hstops hon, hstops', List.append_nil]
      · rw [sentOf_append, payloads_append, stops_append, hsent, hpayloads, hstops',
          List.append_nil, List.append_nil, List.append_nil, hframes]
  | drain =>
      obtain ⟨hactive, hs⟩ := Option.ite_none_right_eq_some.mp hs
      obtain ⟨hsent, hstops', hseq, hactive', hrx'⟩ := drainCapture_frames c
      obtain ⟨rfl, rfl⟩ := Prod.mk.inj (Option.some.inj hs)
      have hnone := hstops (hrx hactive)
      refine ⟨hseq, fun _ => hrx'.trans (hrx hactive), fun _ => ?_, ?_⟩
      · rw [stops_append, hnone, hstops', List.append_nil]
      · rw [hnone, List.map_nil, List.append_nil] at hframes
        rw [sentOf_append, sentOf_sent, payloads_append, stops_append, hnone, hstops', hframes,
          List.map_append, ← hsent]
        exact (List.append_nil _).symm
  | stop =>
      obtain ⟨hactive, hs⟩ := Option.ite_none_right_eq_some.mp hs
      obtain ⟨rfl, rfl⟩ := Prod.mk.inj (Option.some.inj hs)
      rw [List.append_nil]
      exact ⟨rfl, fun h => (by cases h), hstops, hframes⟩
  | stopped =>
      obtain ⟨hoff, hs⟩ := Option.ite_none_right_eq_some.mp hs
      obtain ⟨hactive, hon⟩ := Bool.and_eq_true_iff.mp hoff
      obtain ⟨hsent, hseq, hactive', hrx'⟩ := stopRest_frames c
      obtain ⟨rfl, rfl⟩ := Prod.mk.inj (Option.some.inj hs)
      have hnone := hstops hon
      rw [hnone, List.map_nil, List.append_nil] at hframes
      refine ⟨hseq, fun h => ?_, fun h => ?_, ?_⟩
      · rw [hactive', (Bool.not_eq_true' _).mp hactive] at h
        cases h
      · rw [hrx'] at h
        cases h
      · rw [sentOf_append, sentOf_sent, payloads_append, stops_append, hnone, List.nil_append,
          List.map_append, List.append_assoc, ← hsent, hframes]

/-- The frames of a capture that has ended. -/
theorem run_frames {scratch : Nat} {sb : StreamBuffer UInt8 p.cap} {seq : UInt16} {c : Capture p}
    {ls : List Label} {es : List Event}
    (hrun : (machine p).run (arm scratch sb seq) ls = some (c, es)) :
    sentOf es = (payloads es).map (.streamData seq) ++ (stops es).map (.streamStop seq) :=
  (Machine.run_events (P := Framed seq) (fun h hs => h.step hs)
    (⟨rfl, fun _ => rfl, fun _ => rfl, rfl⟩ : Framed seq (arm scratch sb seq) []) hrun).frames

/-- Where no call was rejected, all were accepted. -/
theorem accepted_of_none : ∀ {es : List Event}, rejected es = [] → accepted es = calls es
  | [], _ => rfl
  | .accepted e :: es, h => by
      have ih : accepted es = calls es := accepted_of_none h
      exact congrArg (e :: ·) ih
  | .rejected _ :: _, h => by cases h
  | .sent _ :: es, h => by
      have ih : accepted es = calls es := accepted_of_none h
      exact ih

/-- The types and bodies of frames, as the daemon passes them on. -/
def passedOn {ε : Type} (cb : Minicbor ε) (ms : List Sent) : List (MsgType × List UInt8) :=
  ms.map fun m => (m.typ, m.payload cb)

theorem passedOn_frames {ε : Type} (cb : Minicbor ε) (seq : UInt16) (format : String)
    (raws : List (List UInt8)) (dropped : UInt32) :
    passedOn cb
        (.streamStart seq format :: (raws.map (.streamData seq) ++ [.streamStop seq dropped]))
      = (.streamStart, streamStartBody format) :: raws.map (.streamData, ·) ++
          [(.streamStop, streamStopBody dropped)] := by
  simp only [passedOn, List.map_cons, List.map_append, List.map_map, List.map_nil]
  rfl

end Capture

namespace CaptureClient

/-- The STREAM_DATA frames before the STREAM_STOP are the payloads. -/
theorem span_unique : ∀ {raws raws' : List (List UInt8)} {stop stop' : List UInt8}
    {rest rest' : List (MsgType × List UInt8)},
    raws.map (MsgType.streamData, ·) ++ (.streamStop, stop) :: rest
      = raws'.map (MsgType.streamData, ·) ++ (.streamStop, stop') :: rest' →
    raws = raws' ∧ stop = stop'
  | [], [], _, _, _, _, h => by
      obtain ⟨hstop, -⟩ := List.cons.inj h
      exact ⟨rfl, (Prod.mk.inj hstop).2⟩
  | [], _ :: _, _, _, _, _, h => by
      obtain ⟨hhead, -⟩ := List.cons.inj h
      cases (Prod.mk.inj hhead).1
  | _ :: _, [], _, _, _, _, h => by
      obtain ⟨hhead, -⟩ := List.cons.inj h
      cases (Prod.mk.inj hhead).1
  | raw :: raws, raw' :: raws', _, _, _, _, h => by
      obtain ⟨hhead, htail⟩ := List.cons.inj h
      obtain ⟨hraws, hstop⟩ := span_unique htail
      exact ⟨by rw [(Prod.mk.inj hhead).2, hraws], hstop⟩

/-- A client that gets a signal out of the frames of a capture has had all of them, and the
device has counted no loss. -/
theorem whole_of_frames {α σ : Type} {b : SubghzCapture.Bodies} {k : Kind α σ} {format : String}
    {raws : List (List UInt8)} {dropped : UInt32} {signal : σ}
    (hstop : ∀ n, b.streamStop (streamStopBody n) = .ok n)
    (h : Whole b k ((.streamStart, streamStartBody format) :: raws.map (.streamData, ·) ++
      [(.streamStop, streamStopBody dropped)]) signal) :
    dropped = 0 ∧ k.finish (raws.flatMap k.samples) = .ok signal := by
  obtain ⟨payloads, stop, rest, ⟨start, hframes⟩, hzero, hfinish⟩ := h
  obtain ⟨-, htail⟩ := List.cons.inj hframes
  obtain ⟨rfl, rfl⟩ := span_unique htail
  rw [hstop] at hzero
  exact ⟨Except.ok.inj hzero, hfinish⟩

theorem irFinish_ok {raw : List UInt64} {signal : IrSignal} (h : irFinish raw = .ok signal) :
    signal = IrSignal.fromCapture raw ∧ signal.timings ≠ [] := by
  unfold irFinish at h
  split_ifs at h with hempty
  cases h
  exact ⟨rfl, List.isEmpty_iff.not.mp hempty⟩

/-- A decoder of STREAM_STOP bodies. -/
def readStop (payload : List UInt8) : Except String UInt32 :=
  match rfc8949.u64 (payload.drop 1) with
  | .ok (n, _) => .ok n.toUInt32
  | .error _ => .error "undecodable"

theorem readStop_body (n : UInt32) : readStop (streamStopBody n) = .ok n := by
  have hn := rfc8949_lawful.u64_enc n.toUInt64 []
  rw [rfc8949_lawful.encU64_eq, UInt32.toNat_toUInt64, List.append_nil] at hn
  show (match rfc8949.u64 (head 0 n.toNat) with
    | .ok (n, _) => Except.ok n.toUInt32
    | .error _ => .error "undecodable") = _
  rw [hn]
  exact congrArg Except.ok (UInt32.toUInt32_toUInt64 n)

end CaptureClient

/-! ## An IR signal -/

namespace IrSignal

variable {ε : Type} {cb : Minicbor ε} {fromPayload : List UInt8 → Option Req} {b : Bodies}

theorem normItems_timings : ∀ ts : List UInt64, Value.normItems (ts.map .u64) = ts.map .u64
  | [] => rfl
  | t :: ts => by
      rw [List.map_cons, Value.normItems, normItems_timings ts]
      rfl

theorem norm_toTransmitParams (s : IrSignal) : s.toTransmitParams.norm = s.toTransmitParams := by
  simp only [toTransmitParams, Value.norm, Value.normEntries, normItems_timings]

theorem fitsItems_timings : ∀ ts : List UInt64, Value.FitsItems (ts.map .u64)
  | [] => trivial
  | _ :: ts => ⟨trivial, fitsItems_timings ts⟩

theorem fits_toTransmitParams {s : IrSignal} (hlen : s.timings.length < 2 ^ 64) :
    s.toTransmitParams.Fits := by
  have htimings : (s.timings.map Value.u64).length < 2 ^ 64 := by
    rwa [List.length_map]
  exact ⟨show 3 < 2 ^ 64 by decide, by decide, trivial, by decide, trivial, by decide,
    ⟨htimings, fitsItems_timings s.timings⟩, trivial⟩

theorem length_timings_le (hcb : cb.Lawful) : ∀ ts : List UInt64,
    (Value.encodeItems cb (ts.map .u64)).length ≤ 9 * ts.length
  | [] => Nat.le_refl _
  | t :: ts => by
      have := headSize_le t.toNat
      have := length_timings_le hcb ts
      rw [List.map_cons, Value.encodeItems, Value.encode, hcb.encU64_eq, List.length_append,
        length_head, List.length_cons]
      omega

/-- The REQ of `ir_transmit`. -/
def transmitBody (b : Bodies) (s : IrSignal) : List UInt8 :=
  ((Call.invoke "ir" "transmit" s.toTransmitParams).frame b).payload

theorem transmitBody_eq (hb : ReadsReplies cb b) (s : IrSignal) :
    s.transmitBody b = reqBody (Value.encode cb) ⟨"ir", "transmit", s.toTransmitParams⟩ := by
  rw [transmitBody, Call.frame, hb.value]

/-- As many timings as the firmware takes fit its main loop. -/
theorem length_transmitBody_le (hcb : cb.Lawful) (hb : ReadsReplies cb b) {s : IrSignal}
    (hlen : s.timings.length ≤ Ir.maxEdges) : (s.transmitBody b).length + 13 ≤ maxFrame := by
  have hmap : (cb.encMap (UInt64.ofNat 3)).length = 1 := by
    rw [hcb.encMap_eq, length_head]
    rfl
  have hfrequency : (cb.encStr "frequency").length = 10 :=
    SubGhzSignal.length_encStr hcb (by decide)
  have hduty : (cb.encStr "duty_permille").length = 14 :=
    SubGhzSignal.length_encStr hcb (by decide)
  have htimings : (cb.encStr "timings").length = 8 := SubGhzSignal.length_encStr hcb (by decide)
  have hnames : (head 4 3 ++ textBody "ir" ++ textBody "transmit").length = 13 := by
    decide
  have h1 := headSize_le s.frequency.toUInt64.toNat
  have h2 := headSize_le s.dutyPermille.toUInt64.toNat
  have h3 := headSize_le (UInt64.ofNat (s.timings.map Value.u64).length).toNat
  have h4 := length_timings_le hcb s.timings
  rw [transmitBody_eq hb, reqBody, List.length_append, hnames]
  simp only [toTransmitParams, Value.encode, Value.encodeEntries, hcb.encArray_eq, hcb.encU64_eq,
    List.length_append, length_head, List.length_cons, List.length_nil, hmap, hfrequency, hduty,
    htimings, maxFrame, Ir.maxEdges] at hlen ⊢
  omega

/-- The timings in the statics of the transmitter. -/
theorem timings_params (s : IrSignal) :
    Ir.timings (s.timings.map .u64) = s.timings.map UInt64.toUInt32 := by
  rw [Ir.timings, List.filterMap_map]
  exact congrArg (List.map UInt64.toUInt32) (List.filterMap_some)

/-- What becomes of the call `ir_transmit`. -/
structure Transmitted (cb : Minicbor ε) (b : Bodies) (fromPayload : List UInt8 → Option Req)
    (s : IrSignal) : Prop where
  /-- The main loop dispatches the REQ. -/
  dispatched : ∀ {seq : UInt16} {loop : Loop} {ts : List Turn}, loop.acc = [] →
    loop.idle < maxIdle → (∀ t ∈ ts, Piece t) →
    (ts.map Turn.got).flatten = wire .req 0 seq (s.transmitBody b) →
      (run loop ts).1 = [.handleFrame .req seq (s.transmitBody b)]
  /-- It is answered with what `transmit` returns for the parameters. -/
  handled : ∀ (hal : Subghz.AppHal) (a : Subghz.App) (tx : Ir.TxHal) (t : Ir.Tx) (seq : UInt16)
    (d : Device),
    Device.handleFrame fromPayload (a.deviceHal (Replies.withIr hal tx t)) .req seq
        (s.transmitBody b) d
      = (d, [answer seq (Ir.transmit tx s.toTransmitParams t).result])
  /-- The interrupt is handed the timings, marks and spaces in turn. -/
  plays : ∀ {tx : Ir.TxHal} (t : Ir.Tx), tx.busy = false → ∃ out,
    (Ir.transmit tx s.toTransmitParams t).calls
        = [.setDataIsrCallback, .start s.frequency s.dutyPermille out, .waitTermination] ∧
      ∀ m, ∃ t', Ir.handed m out
        = some ((Ir.leveled 0 (s.timings.map UInt64.toUInt32)).take m, t')
  /-- If the answer is in time, the caller gets their number, or is told that the transmitter
  was busy. -/
  returns : ∀ (tx : Ir.TxHal) (t : Ir.Tx) (seq : UInt16) {w : Daemon.Thread} (now : Nat),
    Awaiting w →
      callerGets b w now
          (.reply ((answer seq (Ir.transmit tx s.toTransmitParams t).result).frame cb))
        = some (if tx.busy then .error "device error 4: ir busy"
            else .ok (.ofNat s.timings.length))
  /-- If the daemon's three seconds are over first, the caller is told so. -/
  late : ∀ {w : Daemon.Thread} (now : Nat), Awaiting w →
    callerGets b w now .timeout = some (.error "device error 6: device timeout")

theorem frequency_params (s : IrSignal) : Ir.frequency s.toTransmitParams = s.frequency :=
  UInt32.toUInt32_toUInt64 _

theorem dutyPermille_params (s : IrSignal) :
    Ir.dutyPermille s.toTransmitParams = s.dutyPermille := UInt32.toUInt32_toUInt64 _

theorem transmit_params {s : IrSignal} (hne : s.timings ≠ [])
    (hlen : s.timings.length ≤ Ir.maxEdges) (tx : Ir.TxHal) (t : Ir.Tx) :
    ∃ t', Ir.transmit tx s.toTransmitParams t
      = if tx.busy then ⟨t, [], .error (errBusy, "ir busy")⟩
        else ⟨t', [.setDataIsrCallback,
            .start s.frequency s.dutyPermille (.publish (s.timings.map UInt64.toUInt32)),
            .waitTermination], sentResult (.ofNat s.timings.length)⟩ := by
  have hget : s.toTransmitParams.get "timings" = some (.array (s.timings.map .u64)) := rfl
  have hempty : ¬(s.timings.map UInt64.toUInt32).isEmpty = true := by
    rw [List.isEmpty_iff, List.map_eq_nil_iff]
    exact hne
  have hmany : ¬(s.timings.map UInt64.toUInt32).length > Ir.maxEdges := by
    rw [List.length_map]
    exact Nat.not_lt.mpr hlen
  rw [Ir.transmit, hget]
  dsimp only
  rw [timings_params, if_neg hempty, if_neg hmany, frequency_params, dutyPermille_params,
    List.length_map]
  exact ⟨_, rfl⟩

theorem transmitted (hcb : cb.Lawful) (hreq : ReadsReq cb fromPayload) (hb : ReadsReplies cb b)
    {s : IrSignal} (hne : s.timings ≠ []) (hlen : s.timings.length ≤ Ir.maxEdges) :
    s.Transmitted cb b fromPayload where
  dispatched hacc hidle hts hwire :=
    request_dispatched (length_transmitBody_le hcb hb hlen) hacc hidle hts hwire
  handled hal a tx t seq d := by
    have hlt : s.timings.length < 2 ^ 64 := by
      simp only [Ir.maxEdges] at hlen
      omega
    rw [transmitBody_eq hb, handleFrame_request hreq (by decide) (by decide)
      (fits_toTransmitParams hlt) (by decide), norm_toTransmitParams]
    rfl
  plays {tx} t hbusy := by
    obtain ⟨t', ht⟩ := transmit_params hne hlen tx t
    rw [ht, if_neg (by rw [hbusy]; exact Bool.false_ne_true)]
    exact ⟨_, rfl, Ir.handed_publish _⟩
  returns tx t seq w now hw := by
    obtain ⟨t', ht⟩ := transmit_params hne hlen tx t
    rw [ht]
    split_ifs
    · exact callerGets_error hb hw now seq (by decide)
    · exact callerGets_sent hb hw now seq _
  late now hw := callerGets_timeout hb hw now

theorem decodeStream_flatMap (payloads : List (List UInt8)) :
    decodeStream payloads = payloads.flatMap fun p => (chunksExact 4 p).map sample := by
  suffices key : ∀ (ps : List (List UInt8)) (out : List UInt64),
      ps.foldl (fun out payload => (decodeStreamData payload out).1) out
        = out ++ ps.flatMap fun p => (chunksExact 4 p).map sample by
    exact key payloads []
  intro ps
  induction ps with
  | nil => exact fun out => (List.append_nil out).symm
  | cons p ps ih =>
      intro out
      rw [List.foldl_cons, ih, decodeStreamData_eq, List.append_assoc, List.flatMap_cons]

/-- The levels of the edges alternate; `mark` says if the first of them is a mark.  A capture
that was started in the silence before the signal begins with a space. -/
def Alternate (mark : Bool) (edges : List Edge) : Prop :=
  ∀ k e, edges[k]? = some e → e.level = (mark ^^ (k % 2 == 1))

theorem leveled_edges {mark : Bool} : ∀ (k : Nat) (edges : List Edge),
    (∀ j e, edges[j]? = some e → e.level = (mark ^^ ((k + j) % 2 == 0))) →
      Ir.leveled k (edges.map Edge.duration) = edges.map fun e => (e.duration, mark ^^ e.level)
  | _, [], _ => rfl
  | k, e :: edges, h => by
      have htail := leveled_edges (k + 1) edges fun j e' he => by
        rw [h (j + 1) e' he, Nat.add_assoc, Nat.add_comm 1 j]
      have hhead : e.level = (mark ^^ (k % 2 == 0)) := h 0 e rfl
      have hlevel : (mark ^^ e.level) = (k % 2 == 0) := by
        rw [hhead, ← Bool.xor_assoc, Bool.xor_self, Bool.false_xor]
      rw [List.map_cons, List.map_cons, Ir.leveled, htail, hlevel]

/-- **What was captured is what is played.**  Whatever the interleaving of the capture's ISR
with its drains and its stop, however its frames arrive and wherever the client stops it: a
signal that `ir_capture` returns has all the edges that the ISR was called with but the
first, none of them lost; it comes out of its file as it went in; and if it is no longer
than the firmware takes, its transmission reaches the transmitter, whose interrupt is handed
these edges, and the caller gets their number, unless the transmitter is busy or the daemon
stops waiting (`Transmitted`).  A file has no levels: if those of the capture alternate, they
are played as captured where it began with a space, and inverted where it began with a mark.

A sample is an `i32`, of which the host takes a negative one for 0, so each edge is shorter than
2^31 µs; the device counts in 32 bits the edges that find no space, so they are fewer than 2^32. -/
theorem ir_captured_replayed {hal : Ir.Hal} {seq : UInt16} {c₀ c₁ c : Capture Ir.config}
    {ls : List Capture.Label} {es : List Capture.Event}
    (hstart : Ir.startCapture hal seq c₀ = (c₁, [.streamStart seq streamFormatRawI32Us]))
    (hrun : (Capture.machine Ir.config).run c₁ ls = some (c, es)) (hend : c.rx = false)
    (hdur : ∀ e ∈ Capture.edges Ir.config ls, e.duration.toNat < 2 ^ 31)
    (hlt : (Capture.rejected es).length < 2 ^ 32)
    {sb : SubghzCapture.Bodies} (hstop : ∀ n, sb.streamStop (streamStopBody n) = .ok n)
    {conn conn' : StreamConn} (hconn : conn.Carries
      (Capture.passedOn cb (.streamStart seq streamFormatRawI32Us :: Capture.sentOf es)))
    {is : List CaptureClient.Input} {ces : List (List UInt8)} {signal : IrSignal}
    (hclient : (CaptureClient.online (CaptureClient.machine sb CaptureClient.irCapture)
      CaptureClient.asks).run (.opening, conn) is = some ((.done (.ok signal), conn'), ces))
    (hcb : cb.Lawful) (hreq : ReadsReq cb fromPayload) (hb : ReadsReplies cb b) :
    Capture.rejected es = [] ∧
      signal.timings
        = ((Capture.edges Ir.config ls).drop 1).map (fun e => UInt64.ofNat e.duration.toNat) ∧
      parse signal.toFileString = .ok signal ∧
      (signal.timings.length ≤ Ir.maxEdges → signal.Transmitted cb b fromPayload) ∧
      ∀ mark, Alternate mark (Capture.edges Ir.config ls) →
        Ir.leveled 0 (signal.timings.map UInt64.toUInt32)
          = ((Capture.edges Ir.config ls).drop 1).map fun e => (e.duration, mark ^^ e.level) := by
  obtain ⟨buffer, rfl⟩ := Ir.startCapture_started hstart
  have hacc := Capture.accounted_of_inv (Capture.capture_tracks_of_dvd (by decide)
    (Capture.inv_arm (by decide) buffer seq) (Capture.aligned_arm (by decide) buffer seq) hrun) hend
  obtain ⟨dropped, hstops, hdropped⟩ := hacc.stops_eq hlt
  -- what the client has made of the frames
  have hframes := Capture.run_frames hrun
  rw [hstops, List.map_singleton] at hframes
  rw [hframes, Capture.passedOn_frames] at hconn
  obtain ⟨rfl, hfinish⟩ :=
    CaptureClient.whole_of_frames hstop (CaptureClient.run_whole hconn hclient)
  have hnone : Capture.rejected es = [] := List.eq_nil_of_length_eq_zero hdropped.symm
  have hall : Capture.accepted es = Capture.edges Ir.config ls :=
    (Capture.accepted_of_none hnone).trans hacc.calls_eq
  -- the samples are the durations
  have hsamples : (Capture.payloads es).flatMap CaptureClient.irCapture.samples
      = (Capture.edges Ir.config ls).map fun e => UInt64.ofNat e.duration.toNat := by
    show (Capture.payloads es).flatMap (fun p => (chunksExact 4 p).map sample) = _
    rw [← decodeStream_flatMap, decodeStream_flatten hacc.whole, hacc.payloads_eq, hall,
      Ir.samples_records hdur]
  rw [hsamples] at hfinish
  obtain ⟨rfl, hne⟩ := CaptureClient.irFinish_ok hfinish
  have htimings : (fromCapture ((Capture.edges Ir.config ls).map
        fun e => UInt64.ofNat e.duration.toNat)).timings
      = ((Capture.edges Ir.config ls).drop 1).map fun e => UInt64.ofNat e.duration.toNat :=
    List.map_drop.symm
  refine ⟨hnone, htimings, ?_, transmitted hcb hreq hb hne, fun mark hlevels => ?_⟩
  · rw [parse_toFileString, if_neg (List.isEmpty_iff.not.mpr hne)]
  · have hdurations : ∀ es : List Edge,
        (es.map fun e => UInt64.ofNat e.duration.toNat).map UInt64.toUInt32
          = es.map Edge.duration := by
      intro es
      rw [List.map_map]
      refine List.map_congr_left fun e _ => ?_
      show (UInt64.ofNat e.duration.toNat).toUInt32 = e.duration
      rw [UInt64.ofNat_uInt32ToNat, UInt32.toUInt32_toUInt64]
    rw [htimings, hdurations]
    refine leveled_edges 0 _ fun j e he => ?_
    rw [List.getElem?_drop] at he
    have hodd : ((1 + j) % 2 == 1) = ((0 + j) % 2 == 0) := by
      rw [Bool.eq_iff_iff, beq_iff_eq, beq_iff_eq]
      omega
    rw [hlevels (1 + j) e he, hodd]

def burstBodies : SubghzCapture.Bodies :=
  { CaptureClient.irBodies with streamStop := CaptureClient.readStop }

def burst : List UInt8 := [0x40, 0x1F, 0, 0, 0x28, 0x23, 0, 0, 0x94, 0x11, 0, 0]

/-- A silence, a mark and a space, and a stop that the client has asked for. -/
theorem ir_captured_replayed_burst :
    let signal : IrSignal := ⟨38000, 330, [9000, 4500]⟩
    parse signal.toFileString = .ok signal ∧
      signal.Transmitted rfc8949 (hostBodies rfc8949) (readReq rfc8949) ∧
      Ir.leveled 0 (signal.timings.map UInt64.toUInt32) = [(9000, true), (4500, false)] := by
  intro signal
  let edges : List Edge := [⟨false, 8000⟩, ⟨true, 9000⟩, ⟨false, 4500⟩]
  let fs := [CaptureClient.irStart, CaptureClient.irData burst, CaptureClient.irStop]
  have hstarted : Ir.startCapture ⟨false, true⟩ 7 .initial
      = ((Ir.startCapture ⟨false, true⟩ 7 .initial).1,
          [.streamStart 7 streamFormatRawI32Us]) := rfl
  have hrun : (Capture.machine Ir.config).run (Ir.startCapture ⟨false, true⟩ 7 .initial).1
      (edges.map .isr ++ [.stop, .stopped])
      = some ({ stream := some .empty, active := false, seq := 7, dropped := 0, rx := false },
          edges.map .accepted ++ [.sent (.streamData 7 burst), .sent (.streamStop 7 0)]) := rfl
  have hconn : (⟨⟨fs.flatMap Frame.wire⟩, []⟩ : StreamConn).Carries
      (Capture.passedOn rfc8949 [.streamStart 7 streamFormatRawI32Us, .streamData 7 burst,
        .streamStop 7 0]) :=
    ⟨fs, by decide, ⟨[], by rw [List.append_nil, List.append_nil]⟩, rfl⟩
  have hopen : (CaptureClient.online (CaptureClient.machine burstBodies CaptureClient.irCapture)
      CaptureClient.asks).step (.opening, ⟨⟨fs.flatMap Frame.wire⟩, []⟩) (.opened (.ok ()))
      = some ((.starting, ⟨⟨fs.flatMap Frame.wire⟩, []⟩), []) := rfl
  have hstart : (CaptureClient.online (CaptureClient.machine burstBodies CaptureClient.irCapture)
      CaptureClient.asks).step (.starting, ⟨⟨fs.flatMap Frame.wire⟩, []⟩) (.turn false [] false)
      = some ((.capturing [], ⟨⟨fs.tail.flatMap Frame.wire⟩, []⟩), []) :=
    CaptureClient.step_buffered (f := CaptureClient.irStart) rfl (by decide) _
  have hdata : (CaptureClient.online (CaptureClient.machine burstBodies CaptureClient.irCapture)
      CaptureClient.asks).step (.capturing [], ⟨⟨fs.tail.flatMap Frame.wire⟩, []⟩)
      (.turn false [] false)
      = some ((.capturing [8000, 9000, 4500], ⟨⟨fs.tail.tail.flatMap Frame.wire⟩, []⟩),
          [burst]) :=
    CaptureClient.step_buffered (f := CaptureClient.irData burst) rfl (by decide) _
  have hlast : (CaptureClient.online (CaptureClient.machine burstBodies CaptureClient.irCapture)
      CaptureClient.asks).step (.capturing [8000, 9000, 4500],
        ⟨⟨fs.tail.tail.flatMap Frame.wire⟩, []⟩) (.turn false [] false)
      = some ((.done (.ok signal), ⟨.new, []⟩), []) :=
    CaptureClient.step_buffered (f := CaptureClient.irStop) rfl (by decide) _
  have hdone : (CaptureClient.online (CaptureClient.machine burstBodies CaptureClient.irCapture)
      CaptureClient.asks).run (.done (.ok signal), ⟨.new, []⟩) []
      = some ((.done (.ok signal), ⟨.new, []⟩), []) := rfl
  have hclient := Machine.run_step hopen (Machine.run_step hstart (Machine.run_step hdata
    (Machine.run_step hlast hdone)))
  have hedges : Capture.edges Ir.config (edges.map .isr ++ [.stop, .stopped]) = edges := rfl
  obtain ⟨-, -, hfile, htransmitted, hlevels⟩ := ir_captured_replayed hstarted hrun rfl
    (by decide) (by decide) CaptureClient.readStop_body hconn hclient rfc8949_lawful
    (readsReq_readReq rfc8949_lawful) (readsReplies_hostBodies rfc8949_lawful)
  refine ⟨hfile, htransmitted (by decide), hlevels false ?_⟩
  rw [hedges]
  intro k e he
  rcases k with _ | _ | _ | k <;> cases he <;> rfl

end IrSignal

/-! ## A Sub-GHz signal -/

namespace Subghz

/-- What `transmit` does with a request that it reads and a HAL that grants it. -/
theorem transmit_granted {hal : RadioHal} {params : Value} {r : Radio} {frequency : UInt32}
    {preset : Preset} {edges : List TxEdge} {repeat_ : UInt32} (hptr : r.tx.ptr = none)
    (hfrequency : requiredFrequency params = .ok frequency)
    (hpreset : requiredPreset params = .ok preset) (hedges : parseEdges params = .ok edges)
    (hrepeat : repeatCount params = .ok repeat_) (hdevice : hal.device = true)
    (hvalid : hal.frequencyValid frequency = true) (hbegin : hal.begin = true)
    (hstart : hal.startAsyncTx = true) :
    transmit hal false params r
      = let tx := ((txYields hal.yielded (.publish edges repeat_)).map Prod.snd).getD
          (.publish edges repeat_)
        ⟨{ r with tx := { tx with ptr := none } },
          [.begin true, .reset, .loadPreset preset, .setFrequency frequency, .flushTx,
            .startAsyncTx true, .stopAsyncTx] ++ handBack,
          if waitTx hal.txComplete (txTimeoutMs edges repeat_) 0 ≥ txTimeoutMs edges repeat_ then
            .error (errInternal, "subghz transmit timeout")
          else .ok (.map [("sent", .u64 (.ofNat (saturate (edges.length * repeat_.toNat))))])⟩ := by
  simp only [transmit, hptr, hfrequency, hpreset, hedges, hrepeat, hdevice, hvalid, hbegin, hstart,
    Option.isSome_none, Bool.or_self, Bool.false_eq_true, if_false, Bool.not_true]
  rfl

/-- What calls of `tx_yield` return from the start on. -/
theorem yields_publish {edges : List TxEdge} {repeat_ : UInt32} (hne : edges ≠ [])
    (hlen : edges.length ≤ maxEdges) (hrepeat : repeat_.toNat ≤ 100)
    (hrange : ∀ e ∈ edges, e.InRange) (m : Nat) :
    ∃ t, txYields m (.publish edges repeat_)
      = some ((List.range' 0 m).map (played edges repeat_), t) := by
  have hyields := yields_eq hne hlen hrepeat hrange m 0
  rw [Nat.zero_min] at hyields
  have hstart : Tx.at_ edges repeat_ 0 = .publish edges repeat_ := by
    rw [Tx.at_, Nat.zero_mod, Nat.zero_div]
    rfl
  rw [hstart] at hyields
  exact ⟨_, hyields⟩

theorem getElem?_played {edges : List TxEdge} {repeat_ : UInt32} {m k : Nat} (hk : k < m) :
    ((List.range' 0 m).map (played edges repeat_))[k]? = some (played edges repeat_ k) := by
  rw [List.getElem?_map, List.getElem?_range' hk, Nat.zero_add, Nat.one_mul]
  rfl

end Subghz

namespace SubGhzSignal

variable {ε : Type} {cb : Minicbor ε} {fromPayload : List UInt8 → Option Req} {b : Bodies}

/-- The REQ of `subghz_transmit`. -/
def transmitBody (b : Bodies) (s : SubGhzSignal) (repeat_ : UInt32) : List UInt8 :=
  ((Call.invoke "subghz" "transmit" (s.toTransmitParams repeat_)).frame b).payload

theorem transmitBody_eq (hb : ReadsReplies cb b) (s : SubGhzSignal) (repeat_ : UInt32) :
    s.transmitBody b repeat_ = reqBody (Value.encode cb) (s.transmitReq repeat_) := by
  rw [transmitBody, Call.frame, hb.value]
  rfl

/-- The REQ of `subghz_capture`. -/
def captureReq (frequency : UInt32) (preset : SubGhzPreset) : Req where
  instrument := "subghz"
  opcode := "capture"
  params := captureParams frequency preset

/-- The radio is there and takes the frequency. -/
structure Granted (hal : Subghz.RadioHal) (r : Subghz.Radio) (frequency : UInt32) : Prop where
  idle : r.tx.ptr = none
  device : hal.device = true
  valid : hal.frequencyValid frequency = true
  begin_ : hal.begin = true
  start : hal.startAsyncTx = true

/-- What becomes of the call `subghz_transmit`. -/
structure Transmitted (cb : Minicbor ε) (b : Bodies) (fromPayload : List UInt8 → Option Req)
    (s : SubGhzSignal) (repeat_ : UInt32) : Prop where
  /-- The main loop dispatches the REQ. -/
  dispatched : ∀ {seq : UInt16} {loop : Loop} {ts : List Turn}, loop.acc = [] →
    loop.idle < maxIdle → (∀ t ∈ ts, Piece t) →
    (ts.map Turn.got).flatten = wire .req 0 seq (s.transmitBody b repeat_) →
      (run loop ts).1 = [.handleFrame .req seq (s.transmitBody b repeat_)]
  /-- It is answered with what `transmit` returns for the parameters. -/
  handled : ∀ (hal : Subghz.AppHal) (a : Subghz.App) (seq : UInt16) (d : Device),
    Device.handleFrame fromPayload (a.deviceHal hal) .req seq (s.transmitBody b repeat_) d
      = (d, [answer seq (Subghz.transmit hal.radio a.device.subghz.active
          (s.toTransmitParams repeat_) a.radio).result])
  /-- The radio is tuned, and the interrupt is handed the edges in turn. -/
  plays : ∀ {hal : Subghz.RadioHal} {r : Subghz.Radio}, Granted hal r s.frequency → ∃ ys tx,
    (Subghz.transmit hal false (s.toTransmitParams repeat_) r).calls
        = [.begin true, .reset, .loadPreset s.preset.radio, .setFrequency s.frequency, .flushTx,
            .startAsyncTx true, .stopAsyncTx] ++ Subghz.handBack ∧
      Subghz.txYields hal.yielded (.publish (s.edges.map SubGhzEdge.tx) repeat_) = some (ys, tx) ∧
      (Subghz.transmit hal false (s.toTransmitParams repeat_) r).radio.tx
        = { tx with ptr := none } ∧
      ys.length = hal.yielded ∧
      (∀ k < hal.yielded, k < s.edges.length * repeat_.toNat →
        ∃ e, s.edges[k % s.edges.length]? = some e ∧
          ys[k]? = some { duration := e.durationUs, level := if e.level then 2 else 1 }) ∧
      ∀ k < hal.yielded, s.edges.length * repeat_.toNat ≤ k →
        ys[k]? = some Subghz.levelDurationReset
  /-- If the answer is in time, the caller gets the number of edges, or is told that the
  transmission has not ended. -/
  returns : ∀ {hal : Subghz.RadioHal} {r : Subghz.Radio}, Granted hal r s.frequency →
    ∀ (seq : UInt16) {w : Daemon.Thread} (now : Nat), Awaiting w →
      let timeoutMs := Subghz.txTimeoutMs (s.edges.map SubGhzEdge.tx) repeat_
      callerGets b w now (.reply ((answer seq
          (Subghz.transmit hal false (s.toTransmitParams repeat_) r).result).frame cb))
        = some (if Subghz.waitTx hal.txComplete timeoutMs 0 < timeoutMs then
            .ok (.ofNat (s.edges.length * repeat_.toNat))
          else .error "device error 6: subghz transmit timeout")
  /-- Whatever the radio refuses, the caller is told why. -/
  refused : ∀ {hal : Subghz.RadioHal} {active : Bool} {r : Subghz.Radio} {code : UInt32}
    {message : String},
    (Subghz.transmit hal active (s.toTransmitParams repeat_) r).result = .error (code, message) →
      ∀ (seq : UInt16) {w : Daemon.Thread} (now : Nat), Awaiting w →
        callerGets b w now (.reply ((answer seq
            (Subghz.transmit hal active (s.toTransmitParams repeat_) r).result).frame cb))
          = some (.error ("device error " ++ toString code.toNat ++ ": " ++ message))
  /-- If the daemon's three seconds are over first, the caller is told so. -/
  late : ∀ {w : Daemon.Thread} (now : Nat), Awaiting w →
    callerGets b w now .timeout = some (.error "device error 6: device timeout")

theorem inRange_tx {e : SubGhzEdge} (h : Admitted e) : e.tx.InRange :=
  ⟨Nat.pos_of_ne_zero fun h0 => h.1 (UInt32.toNat_inj.mp h0), UInt32.le_iff_toNat_le.mp h.2⟩

theorem transmit_params {s : SubGhzSignal} {repeat_ : UInt32} (h : s.Sendable repeat_)
    {hal : Subghz.RadioHal} {r : Subghz.Radio} (hg : Granted hal r s.frequency) :
    Subghz.transmit hal false (s.toTransmitParams repeat_) r
      = let edges := s.edges.map SubGhzEdge.tx
        let tx := ((Subghz.txYields hal.yielded (.publish edges repeat_)).map Prod.snd).getD
          (.publish edges repeat_)
        ⟨{ r with tx := { tx with ptr := none } },
          [.begin true, .reset, .loadPreset s.preset.radio, .setFrequency s.frequency, .flushTx,
            .startAsyncTx true, .stopAsyncTx] ++ Subghz.handBack,
          if Subghz.waitTx hal.txComplete (Subghz.txTimeoutMs edges repeat_) 0
              ≥ Subghz.txTimeoutMs edges repeat_ then
            .error (errInternal, "subghz transmit timeout")
          else sentResult (.ofNat (Subghz.saturate (edges.length * repeat_.toNat)))⟩ :=
  Subghz.transmit_granted hg.idle (requiredFrequency_toTransmitParams s repeat_)
    (requiredPreset_toTransmitParams s repeat_)
    ((parseEdges_toTransmitParams s repeat_).1 ⟨h.some_edges, h.few_edges, h.durations⟩)
    ((repeatCount_toTransmitParams s repeat_).trans (if_pos ⟨h.repeat_pos, h.repeat_le⟩))
    hg.device hg.valid hg.begin_ hg.start

theorem transmitted (hcb : cb.Lawful) (hreq : ReadsReq cb fromPayload) (hb : ReadsReplies cb b)
    {s : SubGhzSignal} {repeat_ : UInt32} (h : s.Sendable repeat_)
    (hsize : s.requestSize repeat_ + 13 ≤ maxFrame) :
    s.Transmitted cb b fromPayload repeat_ := by
  have hlen : s.edges.length < 2 ^ 64 := by
    have := h.few_edges
    rw [Subghz.maxEdges] at this
    omega
  have hne : s.edges.map SubGhzEdge.tx ≠ [] := by
    rw [Ne, List.map_eq_nil_iff]
    exact List.length_pos_iff.mp h.some_edges
  have hfew : (s.edges.map SubGhzEdge.tx).length ≤ Subghz.maxEdges := by
    rw [List.length_map]
    exact h.few_edges
  have hrange : ∀ e ∈ s.edges.map SubGhzEdge.tx, e.InRange := by
    intro t ht
    obtain ⟨e, he, rfl⟩ := List.mem_map.mp ht
    exact inRange_tx (h.durations e he)
  constructor
  · intro seq loop ts hacc hidle hts hwire
    refine request_dispatched ?_ hacc hidle hts hwire
    rwa [transmitBody_eq hb, length_reqBody hcb hlen]
  · intro hal a seq d
    rw [transmitBody_eq hb]
    exact handleFrame_transmit hreq hlen repeat_ seq (a.deviceHal hal) d
  · intro hal r hg
    obtain ⟨tx, htx⟩ := Subghz.yields_publish hne hfew h.repeat_le hrange hal.yielded
    rw [transmit_params h hg]
    dsimp only
    rw [htx]
    refine ⟨_, tx, rfl, rfl, rfl, ?_, fun k hk hlt => ?_, fun k hk hle => ?_⟩
    · rw [List.length_map, List.length_range']
    · have hmod : k % s.edges.length < s.edges.length := Nat.mod_lt k h.some_edges
      have htotal : k < Subghz.total (s.edges.map SubGhzEdge.tx) repeat_ := by
        rwa [Subghz.total, List.length_map]
      refine ⟨_, List.getElem?_eq_getElem hmod, ?_⟩
      rw [Subghz.getElem?_played hk, Subghz.played, if_pos htotal, List.length_map,
        List.getElem?_map, List.getElem?_eq_getElem hmod]
      rfl
    · have htotal : ¬k < Subghz.total (s.edges.map SubGhzEdge.tx) repeat_ := by
        rwa [Subghz.total, List.length_map, Nat.not_lt]
      rw [Subghz.getElem?_played hk, Subghz.played, if_neg htotal]
  · intro hal r hg seq w now hw
    have hcount : Subghz.saturate ((s.edges.map SubGhzEdge.tx).length * repeat_.toNat)
        = s.edges.length * repeat_.toNat := by
      have hsaturate := Subghz.saturate_total hfew h.repeat_le
      rw [Subghz.total] at hsaturate
      rw [hsaturate, List.length_map]
    dsimp only
    rw [transmit_params h hg]
    dsimp only
    rw [hcount]
    split_ifs with hlate hintime hintime
    · omega
    · exact callerGets_error hb hw now seq (by decide)
    · exact callerGets_sent hb hw now seq _
    · omega
  · intro hal active r code message hrefused seq w now hw
    have hends := Refusals.transmit_ends hal active (s.toTransmitParams repeat_) r
    have hbrief : (utf8 message).length ≤ 64 := Replies.brief_of_refusals (hends.error hrefused)
    rw [hrefused]
    exact callerGets_error hb hw now seq (by omega)
  · exact fun now hw => callerGets_timeout hb hw now

end SubGhzSignal

end FlipLink
