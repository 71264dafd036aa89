/-
# `FlipLink.Firmware.Replies` — every request is answered once

A PING, HELLO or REQ that the main loop handles is answered with one frame of its
seq.  Which frame that is, `handle_frame` says (`handleReq_answers`); here is whether
it leaves: `cdc_send_all` is called with what `encode` has written, and not at all
when `encode` refuses.  Every body but one is written into a buffer of its own size,
so it leaves if it fits a frame (`Sent.Fits`).  It always does: the error texts are
short, the handlers report a few numbers, and what `sys.echo` returns was read from
a payload of at most `MAX_FRAME` bytes (`length_encode_decode`).

That the handlers return is part of the model: the stack of the machine, which `Value`'s
decoder uses up on a body that nests deep enough, is not.

The exception is the PONG, which the loop writes into `enc`.  `ENC_CAP` is 1100 and
a PING may have up to `MAX_FRAME` bytes, so that a longer one than `enc` is decoded,
and nothing is sent (`answered_once_iff`).
-/
import FlipLink.Firmware.Handback
import FlipLink.Firmware.Refusals
import FlipLink.Firmware.Streams
import FlipLink.Link.Transmit
import FlipLink.Proto.Compact

namespace FlipLink

open Lib Lib.Cbor

/-! ## What is handed to `cdc_send_all` -/

namespace Sent

variable {ε : Type} (cb : Minicbor ε)

/-- The bytes that a sender hands to `cdc_send_all`. -/
def handed (m : Sent) : Option (List UInt8) := frameBytes m.typ 0 m.seq (m.payload cb)

/-- The frame that is sent. -/
def frame (m : Sent) : Frame := { typ := m.typ, flags := 0, seq := m.seq, payload := m.payload cb }

/-- The body fits a frame. -/
def Fits (m : Sent) : Prop := (m.payload cb).length ≤ 0xFFFF

variable {cb}

theorem handed_of_fits {m : Sent} (h : m.Fits cb) : m.handed cb = some (m.frame cb).wire :=
  frameBytes_eq m.typ 0 m.seq h

end Sent

namespace Replies

variable {ε : Type} {cb : Minicbor ε}

/-- The PONG of the main loop, which is written into `enc`. -/
def pongBytes (enc : List UInt8) (seq : UInt16) (payload : List UInt8) : Option (List UInt8) :=
  match encode .pong 0 seq payload enc with
  | (some n, enc) => some (enc.take n)
  | (none, _) => none

/-- It is sent exactly if it fits `enc`, and is then a PONG like any other frame. -/
theorem pongBytes_eq {enc : List UInt8} (henc : enc.length = Device.encCap) (seq : UInt16)
    (payload : List UInt8) :
    pongBytes enc seq payload
      = if payload.length + 13 ≤ Device.encCap then (Sent.pong seq payload).handed cb else none := by
  split_ifs with h
  · simp only [Device.encCap] at h henc
    have he := encode_eq .pong 0 seq payload enc (not_gt_maxPayload (by omega))
      (by simp only [headerSize, crcSize]; omega)
    have hfits : (Sent.pong seq payload).Fits cb := show payload.length ≤ 0xFFFF by omega
    rw [Sent.handed_of_fits hfits, pongBytes, he]
    exact congrArg some (List.take_left' (length_wire .pong 0 seq payload))
  · have hnone : (encode .pong 0 seq payload enc).1 = none := by
      rw [encode]
      by_cases hmax : UInt32.ofNat payload.length > maxPayload
      · rw [if_pos hmax]
      · rw [if_neg hmax]
        dsimp only
        rw [if_pos (by rw [henc]; simp only [headerSize, crcSize]; omega)]
    rw [pongBytes]
    split
    · rename_i heq
      rw [heq] at hnone
      cases hnone
    · rfl

/-! ## Short bodies -/

/-- An error text as long as those of the firmware. -/
def Brief (e : UInt32 × String) : Prop := (utf8 e.2).length ≤ 64

instance : DecidablePred Brief := fun e => Nat.decLe (utf8 e.2).length 64

/-- What a handler returns can be sent. -/
def Deliverable (cb : Minicbor ε) : HandlerResult → Prop
  | .ok v => (Value.encode cb v).length ≤ 0xFFFD
  | .error e => Brief e

theorem length_textBody_le {t : String} {n : Nat} (h : (utf8 t).length ≤ n) :
    (textBody t).length ≤ 9 + n := by
  rw [textBody, List.length_append, length_head]
  have := headSize_le (utf8 t).length
  omega

theorem fits_error {code : UInt32} {message : String} (h : Brief (code, message)) (seq : UInt16) :
    (Sent.error seq code message).Fits cb := by
  show (head 4 2 ++ head 0 code.toNat ++ textBody message).length ≤ _
  rw [List.length_append, List.length_append, length_head, length_head]
  have := headSize_le 2
  have := headSize_le code.toNat
  have : (textBody message).length ≤ 9 + 64 := length_textBody_le h
  omega

theorem fits_streamStart {format : String} (h : (utf8 format).length ≤ 64) (seq : UInt16) :
    (Sent.streamStart seq format).Fits cb := by
  show (head 4 1 ++ textBody format).length ≤ _
  rw [List.length_append, length_head]
  have := headSize_le 1
  have := length_textBody_le h
  omega

theorem fits_caps (seq : UInt16) : (Sent.caps seq).Fits cb := by
  show (capsBody protocolVersion buildCaps).length ≤ _
  decide

theorem fits_resp {result : Value} (h : (Value.encode cb result).length ≤ 0xFFFD) (seq : UInt16) :
    (Sent.resp seq result).Fits cb := by
  show (head 4 2 ++ 0xF5 :: Value.encode cb result).length ≤ _
  rw [List.length_append, List.length_cons, length_head, headSize_of_lt (by decide)]
  omega

/-! ## The handlers -/

/-- The firmware's errors are brief. -/
theorem brief_of_refusals {instrument opcode : String} {e : UInt32 × String}
    (h : e ∈ Refusals.refusals instrument opcode) : Brief e :=
  Refusals.forall_refusals (P := Brief) (by decide) h

/-- A handler that returns short values. -/
theorem deliverable_of_ends {instrument opcode : String} {P : Value → Prop} {x : HandlerResult}
    (h : Refusals.Ends (Refusals.refusals instrument opcode) P x)
    (hP : ∀ v, P v → Deliverable cb (.ok v)) : Deliverable cb x := by
  cases x with
  | error e => exact brief_of_refusals h
  | ok v => exact hP v h

section Results

variable (hcb : cb.Lawful)
include hcb

theorem length_encStr_le {t : String} {n : Nat} (h : (utf8 t).length ≤ n) :
    (cb.encStr t).length ≤ 9 + n := by
  rw [hcb.encStr_eq]
  exact length_textBody_le h

theorem length_encode_u64_le (n : UInt64) : (Value.encode cb (.u64 n)).length ≤ 9 := by
  rw [Value.encode, hcb.encU64_eq, length_head]
  exact headSize_le _

theorem entrySize_u64_le (key : String) (h : (utf8 key).length ≤ 64) (n : UInt64) :
    Value.entrySize cb (key, .u64 n) ≤ 82 :=
  Nat.add_le_add (length_encStr_le hcb h) (length_encode_u64_le hcb n)

/-- A map of a few entries. -/
theorem length_encode_map_le {m : List (String × Value)} {n : Nat}
    (h : (m.map (Value.entrySize cb)).sum ≤ n) : (Value.encode cb (.map m)).length ≤ 9 + n := by
  rw [Value.encode, List.length_append, Value.length_encodeEntries, hcb.encMap_eq, length_head]
  have := headSize_le (UInt64.ofNat m.length).toNat
  omega

/-- What the two `transmit`s report. -/
theorem deliverable_counted {v : Value} (h : Refusals.Counted v) : Deliverable cb (.ok v) := by
  obtain ⟨n, rfl⟩ := h
  have hentry := entrySize_u64_le hcb "sent" (by decide) n
  have hle : (List.map (Value.entrySize cb) [("sent", .u64 n)]).sum ≤ 82 := by
    rw [List.map_singleton, List.sum_singleton]
    exact hentry
  exact Nat.le_trans (length_encode_map_le hcb hle) (by decide)

theorem deliverable_probed {v : Value} (h : Refusals.Probed v) : Deliverable cb (.ok v) := by
  obtain ⟨written, read, callbacks, preview, hpreview, rfl⟩ := h
  simp only [Subghz.maxLinkProbeBytes] at hpreview
  have hwritten := entrySize_u64_le hcb "written" (by decide) written
  have hread := entrySize_u64_le hcb "read" (by decide) read
  have hcallbacks := entrySize_u64_le hcb "callbacks" (by decide) callbacks
  have hbytes : Value.entrySize cb ("rx_preview", .bytes preview) ≤ 19 + 69 := by
    refine Nat.add_le_add (length_encStr_le hcb (t := "rx_preview") (n := 10) (by decide)) ?_
    have := headSize_le preview.length
    rw [Value.encode, hcb.encBytes_eq, List.length_append, length_head]
    omega
  refine Nat.le_trans (length_encode_map_le hcb (n := 334) ?_) (by decide)
  rw [List.map_cons, List.map_cons, List.map_cons, List.map_singleton, List.sum_cons,
    List.sum_cons, List.sum_cons, List.sum_singleton]
  omega

theorem deliverable_version (params : Value) : Deliverable cb (version params) := by
  have hprotocol := entrySize_u64_le hcb "protocol" (by decide) protocolVersion.toUInt64
  have hfw : Value.entrySize cb ("fw", .text "flip-link 0.1") ≤ 82 := by
    refine Nat.le_trans (Nat.add_le_add (length_encStr_le hcb (n := 2) (by decide)) ?_)
      (show 9 + 2 + (9 + 16) ≤ 82 by decide)
    rw [Value.encode]
    exact length_encStr_le hcb (by decide)
  refine Nat.le_trans (length_encode_map_le hcb (n := 164) ?_) (by decide)
  rw [List.map_cons, List.map_singleton, List.sum_cons, List.sum_singleton]
  omega

open Subghz

/-- The handlers, with the transmitter of `ir_instrument.rs`. -/
def withIr (hal : AppHal) (tx : Ir.TxHal) (t : Ir.Tx) : AppHal :=
  { hal with irTransmit := fun params => (Ir.transmit tx params t).result }

theorem deliverable_hardware (hal : AppHal) (tx : Ir.TxHal) (t : Ir.Tx) (a : App)
    (instrument opcode : String) (params : Value) :
    Deliverable cb (App.hardware (withIr hal tx t) a instrument opcode params) := by
  unfold App.hardware
  split
  · exact deliverable_of_ends (Refusals.transmit_ends ..) fun _ => deliverable_counted hcb
  · exact deliverable_of_ends (Refusals.linkProbe_ends ..) fun _ => deliverable_probed hcb
  · exact deliverable_of_ends (Refusals.irTransmit_ends tx params t) fun _ =>
      deliverable_counted hcb

theorem deliverable_dispatch {hardware : String → String → Value → HandlerResult}
    {params : Value} (hhardware : ∀ i o, Deliverable cb (hardware i o params))
    (hecho : (Value.encode cb params).length ≤ 0xFFFD) (instrument opcode : String) :
    Deliverable cb (dispatch hardware instrument opcode params) := by
  have hfind : ∀ handler, find hardware instrument opcode = some handler →
      Deliverable cb (handler params) := by
    intro handler h
    unfold find at h
    split at h
    · cases h
    · split_ifs at h
      split at h
      · cases h
        exact deliverable_version hcb params
      · cases h
        exact hecho
      · cases h
        exact hhardware ..
  unfold dispatch
  split
  · rename_i handler h
    exact hfind handler h
  · split_ifs
    · exact (by decide : Brief (errUnknownInstrument, "unknown instrument"))
    · exact (by decide : Brief (errUnknownOpcode, "unknown opcode"))

end Results

/-! ## A REQ -/

theorem fits_starts {instrument opcode format : String} (hformat : (utf8 format).length ≤ 64)
    {seq : UInt16} {ms : List Sent}
    (h : Refusals.Starts (Refusals.refusals instrument opcode) seq format ms) :
    ∀ m ∈ ms, m.Fits cb := by
  rcases h with rfl | ⟨e, he, rfl⟩
  · exact List.forall_mem_singleton.mpr (fits_streamStart hformat seq)
  · exact List.forall_mem_singleton.mpr (fits_error (brief_of_refusals he) seq)

theorem fits_handleReq (hcb : cb.Lawful) {hal : Device.Hal} {req : Req}
    (hhardware : ∀ i o, Deliverable cb (hal.hardware i o req.params))
    (hecho : (Value.encode cb req.params).length ≤ 0xFFFD) (seq : UInt16) (d : Device) :
    ∀ m ∈ (Device.handleReq hal seq req d).2, m.Fits cb := by
  unfold Device.handleReq
  split_ifs
  · split
    · exact fits_starts (by decide) (Refusals.irStart_starts hal.ir seq d.ir)
    · exact fits_starts (by decide)
        (Refusals.subghzStart_starts hal.subghz seq req.params d.subghz)
    · exact List.forall_mem_singleton.mpr (fits_error (by decide) seq)
  · have h := deliverable_dispatch hcb hhardware hecho req.instrument req.opcode
    split
    · rename_i heq
      rw [heq] at h
      exact List.forall_mem_singleton.mpr (fits_resp h seq)
    · rename_i heq
      rw [heq] at h
      exact List.forall_mem_singleton.mpr (fits_error h seq)

/-! ## A frame -/

/-- The frames that a step hands to `cdc_send_all`. -/
def handed (cb : Minicbor ε) (es : List Device.Event) : List (List UInt8) :=
  (es.flatMap Device.Event.sent).filterMap (Sent.handed cb)

/-- `g` answers `f`: the PONG of a PING, CAPS for HELLO, and one of RESP, ERROR and
STREAM_START for REQ, with the same seq. -/
def AnswersFrame (f g : Frame) : Prop :=
  g.seq = f.seq ∧ g.payload.length ≤ 0xFFFF ∧
    match f.typ with
    | .ping => g.typ = .pong ∧ g.payload = f.payload
    | .hello => g.typ = .caps
    | .req => g.typ = .resp ∨ g.typ = .error ∨ g.typ = .streamStart
    | _ => False

/-- The next frame is taken, and answered with one frame. -/
def AnsweredOnce (cb : Minicbor ε) (fromPayload : List UInt8 → Option Req) (hal : Subghz.AppHal)
    (a : Subghz.App) (f : Frame) : Prop :=
  ∃ d es g, Device.step fromPayload a.device (.handle (a.deviceHal hal)) = some (d, es) ∧
    d.todo = a.device.todo.tail ∧ handed cb es = [g.wire] ∧ AnswersFrame f g

/-- What the derived decoder of REQ bodies does with `params`: the value is decoded
from a part of the payload. -/
def ReadsParams (cb : Minicbor ε) (fromPayload : List UInt8 → Option Req) : Prop :=
  ∀ {payload req}, fromPayload payload = some req →
    ∃ d r, d.length ≤ payload.length ∧ Value.decode cb d = .ok (req.params, r)

/-- The frames that a handled frame hands over. -/
theorem handed_singleton {m : Sent} (h : m.Fits cb) (typ : MsgType) (seq : UInt16) :
    handed cb [.handled typ seq [m]] = [(m.frame cb).wire] := by
  show List.filterMap (Sent.handed cb) [m] = _
  rw [List.filterMap_cons_some (Sent.handed_of_fits h), List.filterMap_nil]

section Step

variable {fromPayload : List UInt8 → Option Req} {hal : Subghz.AppHal} {a : Subghz.App}
  {f : Frame} {rest : List MainLoop.Dispatch}

/-- A frame for `handle_frame` that is answered with one that fits. -/
theorem answeredOnce_of_sent {m : Sent} {typ : MsgType} {seq : UInt16} {payload : List UInt8}
    (htodo : a.device.todo = .handleFrame typ seq payload :: rest)
    (hsent : (Device.handleFrame fromPayload (a.deviceHal hal) typ seq payload
      { a.device with todo := rest }).2 = [m])
    (hfits : m.Fits cb) (hanswers : AnswersFrame f (m.frame cb)) :
    AnsweredOnce cb fromPayload hal a f := by
  have hstep : Device.step fromPayload a.device (.handle (a.deviceHal hal))
      = some ((Device.handleFrame fromPayload (a.deviceHal hal) typ seq payload
          { a.device with todo := rest }).1, [.handled typ seq [m]]) := by
    rw [← hsent]
    simp only [Device.step, htodo]
  refine ⟨_, _, _, hstep, ?_, handed_singleton hfits typ seq, hanswers⟩
  rw [htodo]
  exact (Device.handleFrame_frame ..).1

/-- The main loop's own answer. -/
theorem answeredOnce_ping_iff {seq : UInt16} {payload : List UInt8} {flags : UInt8}
    (htodo : a.device.todo = .echo seq payload :: rest) :
    AnsweredOnce cb fromPayload hal a { typ := .ping, flags, seq, payload } ↔
      payload.length + 13 ≤ Device.encCap := by
  have hstep : Device.step fromPayload a.device (.handle (a.deviceHal hal))
      = some ({ a.device with todo := rest }, [.handled .ping seq
          (if payload.length + 13 ≤ Device.encCap then [.pong seq payload] else [])]) := by
    simp only [Device.step, htodo]
  constructor
  · rintro ⟨d, es, g, hs, -, hone, -⟩
    obtain ⟨-, rfl⟩ := Prod.mk.inj (Option.some.inj (hstep.symm.trans hs))
    by_contra hlong
    rw [if_neg hlong] at hone
    cases hone
  · intro hle
    have hfits : (Sent.pong seq payload).Fits cb := by
      simp only [Device.encCap] at hle
      exact show payload.length ≤ 0xFFFF by omega
    rw [if_pos hle] at hstep
    exact ⟨_, _, _, hstep, by rw [htodo]; rfl, handed_singleton hfits .ping seq, rfl, hfits, rfl, rfl⟩

theorem answeredOnce_req (hcb : cb.Lawful) (hcompact : cb.Compact)
    (hread : ReadsParams cb fromPayload) (tx : Ir.TxHal) (t : Ir.Tx) {seq : UInt16}
    {payload : List UInt8} {flags : UInt8} (hsize : payload.length + 13 ≤ MainLoop.maxFrame)
    (htodo : a.device.todo = .handleFrame .req seq payload :: rest) :
    AnsweredOnce cb fromPayload (withIr hal tx t) a { typ := .req, flags, seq, payload } := by
  simp only [MainLoop.maxFrame] at hsize
  cases hreq : fromPayload payload with
  | none =>
      have hfits : (Sent.error seq errBadParams "bad REQ body").Fits cb := fits_error (by decide) seq
      refine answeredOnce_of_sent htodo ?_ hfits ⟨rfl, hfits, .inr (.inl rfl)⟩
      rw [Device.handleFrame, hreq]
  | some req =>
      obtain ⟨d, r, hd, hdecode⟩ := hread hreq
      have hecho : (Value.encode cb req.params).length ≤ 0xFFFD := by
        have := Value.length_encode_decode hcb hcompact (by omega) hdecode
        omega
      have hhardware : ∀ i o,
          Deliverable cb ((a.deviceHal (withIr hal tx t)).hardware i o req.params) :=
        fun i o => deliverable_hardware hcb hal tx t a i o req.params
      have hfits := fits_handleReq hcb hhardware hecho seq { a.device with todo := rest }
      have hsent : (Device.handleFrame fromPayload (a.deviceHal (withIr hal tx t)) .req seq payload
          { a.device with todo := rest }).2
          = (Device.handleReq (a.deviceHal (withIr hal tx t)) seq req
            { a.device with todo := rest }).2 := by
        rw [Device.handleFrame, hreq]
      rcases Device.handleReq_answers (a.deviceHal (withIr hal tx t)) seq req
        { a.device with todo := rest } with ⟨format, heq⟩ | ⟨result, heq⟩ | ⟨code, message, heq⟩
      · have hm := hfits _ (heq ▸ List.mem_singleton_self _)
        exact answeredOnce_of_sent htodo (hsent.trans heq) hm ⟨rfl, hm, .inr (.inr rfl)⟩
      · have hm := hfits _ (heq ▸ List.mem_singleton_self _)
        exact answeredOnce_of_sent htodo (hsent.trans heq) hm ⟨rfl, hm, .inl rfl⟩
      · have hm := hfits _ (heq ▸ List.mem_singleton_self _)
        exact answeredOnce_of_sent htodo (hsent.trans heq) hm ⟨rfl, hm, .inr (.inl rfl)⟩

/-- **Every request is answered once, unless it is a long PING.**  Whatever the state
of the application and the answers of its hardware, a PING, HELLO or REQ of at most
`MAX_FRAME` bytes is answered with exactly one frame, of its seq, exactly if it is no
PING that is larger than the loop's buffer. -/
theorem answered_once_iff (hcb : cb.Lawful) (hcompact : cb.Compact)
    (hread : ReadsParams cb fromPayload) (hal : Subghz.AppHal) (tx : Ir.TxHal) (t : Ir.Tx)
    (htyp : f.typ = .ping ∨ f.typ = .hello ∨ f.typ = .req)
    (hsize : MainLoop.size f ≤ MainLoop.maxFrame)
    (htodo : a.device.todo = MainLoop.dispatch f :: rest) :
    AnsweredOnce cb fromPayload (withIr hal tx t) a f ↔
      ¬ (f.typ = .ping ∧ Device.encCap < MainLoop.size f) := by
  obtain ⟨typ, flags, seq, payload⟩ := f
  rcases htyp with htyp | htyp | htyp
  · obtain rfl : typ = .ping := htyp
    rw [answeredOnce_ping_iff htodo, not_and, Nat.not_lt]
    exact ⟨fun h _ => h, fun h => h rfl⟩
  · obtain rfl : typ = .hello := htyp
    have hfits : (Sent.caps seq).Fits cb := fits_caps seq
    refine iff_of_true (answeredOnce_of_sent htodo rfl hfits ⟨rfl, hfits, rfl⟩) fun h => ?_
    cases h.1
  · obtain rfl : typ = .req := htyp
    exact iff_of_true (answeredOnce_req hcb hcompact hread tx t hsize htodo) fun h => by cases h.1

end Step

/-! ## Two requests -/

theorem ok_of_toOption {δ α : Type} {x : Except δ α} {a : α} (h : x.toOption = some a) :
    x = .ok a := by
  cases x with
  | error e => cases h
  | ok b =>
      cases h
      rfl

/-- The decoder of an array of three fields reads them so. -/
theorem readsParams_readReq (hcb : cb.Lawful) : ReadsParams cb (readReq cb) := by
  intro payload req h
  simp only [readReq, Option.bind_eq_bind, Option.bind_eq_some_iff] at h
  obtain ⟨⟨n, d₀⟩, harray, -, -, ⟨instrument, d₁⟩, hinstrument, ⟨opcode, d₂⟩, hopcode, ⟨params, r⟩,
    hparams, hreq⟩ := h
  cases hreq
  have hlt : d₀.length < payload.length := hcb.array_lt (ok_of_toOption harray)
  have hlt' : _ + d₁.length < d₀.length := hcb.str_lt (ok_of_toOption hinstrument)
  have hlt'' : _ + d₂.length < d₁.length := hcb.str_lt (ok_of_toOption hopcode)
  exact ⟨d₂, r, by omega, ok_of_toOption hparams⟩

/-- The application with a frame to be handled next. -/
def waiting (f : Frame) : Subghz.App :=
  { Subghz.App.initial with device := { Device.initial with todo := [MainLoop.dispatch f] } }

/-- Hardware that grants everything. -/
def grantedHal : Subghz.AppHal :=
  { ir := ⟨false, true⟩, radio := Subghz.App.grantedRadio, irTransmit := fun _ => .ok .null }

/-- What the main loop sees of it, which the handlers of `sys` have no part in. -/
def sysHal : Device.Hal := Subghz.App.initial.deviceHal (withIr grantedHal Ir.txGranted .initial)

/-- `sys.echo` of a number. -/
def echoFrame : Frame :=
  { typ := .req, flags := 0, seq := 7,
    payload := reqBody (Value.encode rfc8949) ⟨"sys", "echo", .u64 5⟩ }

theorem answered_once_iff_echo :
    AnsweredOnce rfc8949 (readReq rfc8949) (withIr grantedHal Ir.txGranted .initial)
      (waiting echoFrame) echoFrame :=
  (answered_once_iff rfc8949_lawful rfc8949_compact (readsParams_readReq rfc8949_lawful) grantedHal
    Ir.txGranted .initial (.inr (.inr rfl)) (by decide) rfl).mpr fun h => by cases h.1

/-- A PING of one byte more than `enc` holds. -/
def longPing : Frame := { typ := .ping, flags := 0, seq := 7, payload := List.replicate 1088 0 }

theorem size_longPing : MainLoop.size longPing = 1101 :=
  congrArg (· + 13) List.length_replicate

/-- It is decoded, and not answered. -/
theorem long_ping_unanswered :
    (∀ t ∈ singles longPing.wire, MainLoop.Piece t) ∧
    ((singles longPing.wire).map MainLoop.Turn.got).flatten = longPing.wire ∧
    (MainLoop.run .new (singles longPing.wire)).1 = (waiting longPing).device.todo ∧
    MainLoop.size longPing ≤ MainLoop.maxFrame ∧
    ¬ AnsweredOnce rfc8949 (readReq rfc8949) (withIr grantedHal Ir.txGranted .initial)
      (waiting longPing) longPing := by
  have hsize : MainLoop.size longPing ≤ MainLoop.maxFrame := by
    rw [size_longPing]
    decide
  refine ⟨singles_piece, singles_got _, 
    run_frame hsize singles_piece (singles_got _), hsize, fun h => ?_⟩
  have hle : MainLoop.size longPing ≤ Device.encCap := (answeredOnce_ping_iff rfl).mp h
  rw [size_longPing] at hle
  exact absurd hle (by decide)

end Replies

end FlipLink
