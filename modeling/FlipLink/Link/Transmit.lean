/-
# `FlipLink.Link.Transmit` — how large a transmission may be

The REQ of `subghz_transmit` on its way from `round_trip` to the handler.  Four
bounds stand in the way: `MAX_EDGES` in the parameter parser, the codec's limit
of 65535 bytes of payload, the 64 bytes of a receive, and `MAX_FRAME` for the
accumulator of the main loop.

An edge takes 21 to 25 bytes (`requestSize`).  A body above 65535 bytes is refused
by the host, and one of up to 16371 bytes reaches `transmit`; between the two the
host sends a frame that the main loop throws away without a word
(`transmit_reaches_iff`), as it does with 1000 edges (`transmit_lost`).  The loop
never sees as many edges as `MAX_EDGES`.
-/
import FlipLink.Firmware.Device
import FlipLink.Link.SubghzSignals

namespace FlipLink

open Lib Lib.Cbor MainLoop

/-! ## The size of the request -/

namespace SubGhzSignal

/-- The REQ of `subghz_transmit`. -/
def transmitReq (s : SubGhzSignal) (repeat_ : UInt32) : Req where
  instrument := "subghz"
  opcode := "transmit"
  params := s.toTransmitParams repeat_

/-- The bytes of an edge among the parameters. -/
def edgeSize (e : SubGhzEdge) : Nat := 20 + headSize e.durationUs.toNat

/-- The bytes of the REQ body. -/
def requestSize (s : SubGhzSignal) (repeat_ : UInt32) : Nat :=
  49 + headSize s.frequency.toNat + (utf8 s.preset.asStr).length + headSize repeat_.toNat +
    headSize s.edges.length + (s.edges.map edgeSize).sum

theorem utf8_asStr_length (p : SubGhzPreset) : (utf8 p.asStr).length ≤ 11 := by
  cases p <;> decide

section Size

variable {ε : Type} {cb : Minicbor ε} (hcb : cb.Lawful)
include hcb

/-- A key or a name. -/
theorem length_encStr {k : String} (h : (utf8 k).length < 24) :
    (cb.encStr k).length = 1 + (utf8 k).length := by
  rw [hcb.encStr_eq, List.length_append, length_head, headSize_of_lt h]

theorem length_edgeToValue (e : SubGhzEdge) :
    (Value.encode cb (edgeToValue e)).length = edgeSize e := by
  have hmap : (cb.encMap (UInt64.ofNat 2)).length = 1 := by
    rw [hcb.encMap_eq, length_head]
    rfl
  have hlevel : (cb.encStr "level").length = 6 := length_encStr hcb (by decide)
  have hduration : (cb.encStr "duration_us").length = 12 := length_encStr hcb (by decide)
  simp only [edgeToValue, Value.encode, Value.encodeEntries, hcb.encBool_eq, hcb.encU64_eq,
    List.length_append, length_head, List.length_cons, List.length_nil, hmap, hlevel, hduration,
    UInt32.toNat_toUInt64, edgeSize]
  omega

theorem length_edges : ∀ es : List SubGhzEdge,
    (Value.encodeItems cb (es.map edgeToValue)).length = (es.map edgeSize).sum
  | [] => rfl
  | e :: es => by
      rw [List.map_cons, Value.encodeItems, List.length_append, length_edgeToValue hcb,
        length_edges es, List.map_cons, List.sum_cons]

theorem length_toTransmitParams {s : SubGhzSignal} (hlen : s.edges.length < 2 ^ 64)
    (repeat_ : UInt32) :
    (Value.encode cb (s.toTransmitParams repeat_)).length + 17 = s.requestSize repeat_ := by
  have hmap : (cb.encMap (UInt64.ofNat 4)).length = 1 := by
    rw [hcb.encMap_eq, length_head]
    rfl
  have hfrequency : (cb.encStr "frequency").length = 10 := length_encStr hcb (by decide)
  have hpreset : (cb.encStr "preset").length = 7 := length_encStr hcb (by decide)
  have hrepeat : (cb.encStr "repeat").length = 7 := length_encStr hcb (by decide)
  have hedges : (cb.encStr "edges").length = 6 := length_encStr hcb (by decide)
  have hname : (cb.encStr s.preset.asStr).length = 1 + (utf8 s.preset.asStr).length := by
    have := utf8_asStr_length s.preset
    exact length_encStr hcb (by omega)
  have hcount : (UInt64.ofNat s.edges.length).toNat = s.edges.length :=
    UInt64.toNat_ofNat_of_lt hlen
  simp only [toTransmitParams, Value.encode, Value.encodeEntries, hcb.encArray_eq, hcb.encU64_eq,
    List.length_append, length_head, List.length_cons, List.length_nil, List.length_map, hmap,
    hfrequency, hpreset, hrepeat, hedges, hname, length_edges hcb, UInt32.toNat_toUInt64,
    hcount, requestSize]
  omega

theorem length_reqBody {s : SubGhzSignal} (hlen : s.edges.length < 2 ^ 64) (repeat_ : UInt32) :
    (reqBody (Value.encode cb) (s.transmitReq repeat_)).length = s.requestSize repeat_ := by
  have hinstrument : (head 4 3 ++ textBody "subghz" ++ textBody "transmit").length = 17 := by
    decide
  rw [← length_toTransmitParams hcb hlen, reqBody, List.length_append, Nat.add_comm]
  exact congrArg (_ + ·) hinstrument

end Size

/-- The host's own bound on a length is far away. -/
theorem requestSize_lt {s : SubGhzSignal} (h : s.edges.length ≤ Subghz.maxEdges)
    (repeat_ : UInt32) : s.requestSize repeat_ < 2 ^ 32 := by
  have hsum : (s.edges.map edgeSize).sum ≤ s.edges.length * 29 := by
    refine (List.sum_le_card_nsmul _ 29 fun n hn => ?_).trans_eq (by rw [List.length_map]; rfl)
    obtain ⟨e, -, rfl⟩ := List.mem_map.mp hn
    have := headSize_le e.durationUs.toNat
    rw [edgeSize]
    omega
  have h1 := headSize_le s.frequency.toNat
  have h2 := headSize_le repeat_.toNat
  have h3 := headSize_le s.edges.length
  have h4 := utf8_asStr_length s.preset
  rw [requestSize]
  rw [Subghz.maxEdges] at h
  omega

end SubGhzSignal

/-! ## From the main loop to the handler -/

/-- What the handler's answer to a request is sent as. -/
def answer (seq : UInt16) : HandlerResult → Sent
  | .ok result => .resp seq result
  | .error (code, message) => .error seq code message

section Reaches

variable {ε : Type} (cb : Minicbor ε) (fromPayload : List UInt8 → Option Req)

/-- The derived decoder of a REQ body reads back what the derived encoder wrote,
its parameters with the codec of `Value`. -/
def ReadsReq : Prop :=
  ∀ req : Req, (utf8 req.instrument).length < 2 ^ 64 → (utf8 req.opcode).length < 2 ^ 64 →
    req.params.Fits →
      fromPayload (reqBody (Value.encode cb) req) = some { req with params := req.params.norm }

/-- The request is dispatched, nothing else is, and `handle_frame` hands its
parameters to `transmit`. -/
def Reaches (s : SubGhzSignal) (repeat_ : UInt32) (seq : UInt16) (dispatched : List Dispatch) :
    Prop :=
  let body := reqBody (Value.encode cb) (s.transmitReq repeat_)
  dispatched = [.handleFrame .req seq body] ∧
    ∀ (hal : Device.Hal) (d : Device), Device.handleFrame fromPayload hal .req seq body d
      = (d, [answer seq (hal.hardware "subghz" "transmit" (s.toTransmitParams repeat_))])

end Reaches

variable {ε : Type} {cb : Minicbor ε} {fromPayload : List UInt8 → Option Req}

theorem handleFrame_transmit (hreq : ReadsReq cb fromPayload) {s : SubGhzSignal}
    (hlen : s.edges.length < 2 ^ 64) (repeat_ : UInt32) (seq : UInt16) (hal : Device.Hal)
    (d : Device) :
    Device.handleFrame fromPayload hal .req seq
        (reqBody (Value.encode cb) (s.transmitReq repeat_)) d
      = (d, [answer seq (hal.hardware "subghz" "transmit" (s.toTransmitParams repeat_))]) := by
  have hread := hreq (s.transmitReq repeat_) (show (utf8 "subghz").length < 2 ^ 64 by decide)
    (show (utf8 "transmit").length < 2 ^ 64 by decide)
    (SubGhzSignal.fits_toTransmitParams hlen repeat_)
  have hnorm : (s.transmitReq repeat_).params.norm = s.toTransmitParams repeat_ :=
    SubGhzSignal.norm_toTransmitParams s repeat_
  rw [hnorm] at hread
  rw [Device.handleFrame, hread]
  show (match hal.hardware "subghz" "transmit" (s.toTransmitParams repeat_) with
    | .ok result => (d, [Sent.resp seq result])
    | .error (code, message) => (d, [Sent.error seq code message])) = _
  cases hal.hardware "subghz" "transmit" (s.toTransmitParams repeat_) <;> rfl

theorem pending_le : ∀ (fs : List Frame) (n : Nat), pending fs n ≤ n
  | [], _ => Nat.le_refl _
  | f :: fs, n => by
      rw [pending]
      split_ifs
      · exact (pending_le fs _).trans (Nat.sub_le _ _)
      · exact Nat.le_refl _

/-- Pieces that all fit together fit one by one. -/
theorem fits_of_le (fs : List Frame) : ∀ {ps : List (List UInt8)} {n : Nat},
    n + ps.flatten.length ≤ maxFrame → Fits fs n ps
  | [], _, _ => trivial
  | p :: ps, n, h => by
      rw [List.flatten_cons, List.length_append] at h
      have := pending_le fs n
      exact ⟨by omega, fits_of_le fs (by omega)⟩

/-- A frame that arrives by itself, in whatever pieces, is dispatched. -/
theorem run_frame {f : Frame} (hf : size f ≤ maxFrame) {ts : List Turn} (hts : ∀ t ∈ ts, Piece t)
    (hwire : (ts.map Turn.got).flatten = f.wire) : (run .new ts).1 = [MainLoop.dispatch f] := by
  have hfs : ∀ g ∈ [f], size g ≤ maxFrame := List.forall_mem_singleton.mpr hf
  have hwires : wires [f] = (ts.map Turn.got).flatten := by
    rw [hwire, wires, List.flatMap_singleton]
  have hfit : Fits [f] 0 (ts.map Turn.got) := by
    refine fits_of_le [f] ?_
    rw [hwire, length_frame_wire, Nat.zero_add]
    exact hf
  exact run_fits hfs (good_new [f]) hts (Nat.zero_le _) hwires hfit

/-- **How large a transmission may be.**  A transmission within the documented
bounds is refused by the host or reaches `transmit` exactly if its REQ body is
above 65535 bytes or its frame is at most `MAX_FRAME`. -/
theorem transmit_reaches_iff (hcb : cb.Lawful) (hreq : ReadsReq cb fromPayload) {s : SubGhzSignal}
    {repeat_ : UInt32} (h : s.Sendable repeat_) (seq : UInt16) {loop : Loop}
    (hacc : loop.acc = []) (hidle : loop.idle < maxIdle) {ts : List Turn}
    (hts : ∀ t ∈ ts, Piece t)
    (hbytes : ∀ bytes,
      frameBytes .req 0 seq (reqBody (Value.encode cb) (s.transmitReq repeat_)) = some bytes →
        (ts.map Turn.got).flatten = bytes) :
    (frameBytes .req 0 seq (reqBody (Value.encode cb) (s.transmitReq repeat_)) = none ∨
        Reaches cb fromPayload s repeat_ seq (run loop ts).1) ↔
      (65535 < s.requestSize repeat_ ∨ s.requestSize repeat_ + 13 ≤ maxFrame) := by
  have hlen : s.edges.length < 2 ^ 64 := by
    have := h.few_edges
    rw [Subghz.maxEdges] at this
    omega
  have hbody := SubGhzSignal.length_reqBody hcb hlen repeat_
  generalize hdef : reqBody (Value.encode cb) (s.transmitReq repeat_) = body at hbytes hbody ⊢
  rcases Nat.lt_or_ge 65535 (s.requestSize repeat_) with hbig | hsmall
  · -- the host refuses
    have hnone : frameBytes .req 0 seq body = none := frameBytes_eq_none .req 0 seq (by omega)
      (by rw [hbody]; exact SubGhzSignal.requestSize_lt h.few_edges repeat_)
    exact ⟨fun _ => .inl hbig, fun _ => .inl hnone⟩
  · -- the frame is sent
    have hsome : frameBytes .req 0 seq body = some (wire .req 0 seq body) :=
      frameBytes_eq .req 0 seq (by omega)
    let f : Frame := { typ := .req, flags := 0, seq, payload := body }
    have hwire : (ts.map Turn.got).flatten = f.wire := hbytes _ hsome
    have hsize : size f = s.requestSize repeat_ + 13 := congrArg (· + 13) hbody
    have hne : ts ≠ [] := by
      rintro rfl
      have := congrArg List.length hwire
      rw [length_frame_wire, hsize] at this
      exact absurd this.symm (Nat.succ_ne_zero _)
    rw [run_waiting hacc hidle hts hne, hsome, or_iff_right nofun,
      or_iff_right (Nat.not_lt.mpr hsmall)]
    constructor
    · rintro ⟨hrun, -⟩
      have hle := weight_le_maxFrame .new hts (.handleFrame .req seq body)
        (by rw [hrun, hdef]; exact List.mem_singleton_self _)
      rwa [weight, hbody] at hle
    · intro hle
      have hrun := run_frame (f := f) (by rw [hsize]; exact hle) hts hwire
      refine ⟨?_, fun hal d => handleFrame_transmit hreq hlen repeat_ seq hal d⟩
      rw [hdef]
      exact hrun

/-! ## Two requests -/

/-- A decoder of REQ bodies. -/
def readReq (cb : Minicbor ε) (payload : List UInt8) : Option Req := do
  let (n, d) ← (cb.array payload).toOption
  guard (n = some 3)
  let (instrument, d) ← (cb.str d).toOption
  let (opcode, d) ← (cb.str d).toOption
  let (params, _) ← (Value.decode cb d).toOption
  return { instrument, opcode, params }

theorem readsReq_readReq (hcb : cb.Lawful) : ReadsReq cb (readReq cb) := by
  intro req hinstrument hopcode hparams
  have harray : ∀ rest, cb.array (head 4 3 ++ rest) = .ok (some 3, rest) := by
    intro rest
    have := hcb.array_enc 3 rest
    rwa [hcb.encArray_eq] at this
  have hstr : ∀ (t : String) rest, (utf8 t).length < 2 ^ 64 →
      cb.str (textBody t ++ rest) = .ok (t, rest) := by
    intro t rest ht
    have := hcb.str_enc t rest ht
    rwa [hcb.encStr_eq] at this
  have hvalue : Value.decode cb (Value.encode cb req.params) = .ok (req.params.norm, []) := by
    have := Value.decodeN_encode hcb req.params hparams _ (Nat.le_succ _) []
    rwa [List.append_nil] at this
  simp [readReq, reqBody, harray, Except.toOption, hstr _ _ hinstrument, hstr _ _ hopcode, hvalue]

/-- Single bytes, one a turn. -/
def singles (bytes : List UInt8) : List Turn :=
  bytes.map fun b => { got := [b], overflowed := false, capturing := false }

theorem singles_piece {bytes : List UInt8} : ∀ t ∈ singles bytes, Piece t := by
  intro t ht
  obtain ⟨b, -, rfl⟩ := List.mem_map.mp ht
  exact ⟨rfl, Nat.le_refl 1, show 1 ≤ 64 by decide⟩

theorem singles_got (bytes : List UInt8) : ((singles bytes).map Turn.got).flatten = bytes := by
  rw [singles, List.map_map]
  exact flatten_singles bytes

/-- The pulse of two edges reaches `transmit`. -/
theorem transmit_reaches_pulse :
    let s : SubGhzSignal :=
      { frequency := 433920000, preset := .ook650, edges := [⟨true, 500⟩, ⟨false, 0x3fffffff⟩] }
    let bytes := frameBytes .req 0 1 (reqBody (Value.encode rfc8949) (s.transmitReq 3))
    bytes = none ∨
      Reaches rfc8949 (readReq rfc8949) s 3 1 (run .new (singles (bytes.getD []))).1 := by
  intro s bytes
  have hs : s.Sendable 3 := ⟨by decide, by decide, by decide, by decide, by decide⟩
  refine (@transmit_reaches_iff _ _ _ rfc8949_lawful (readsReq_readReq rfc8949_lawful) s 3 hs 1 .new
    rfl (by decide) _ singles_piece ?_).mpr (.inr (by decide))
  intro b hb
  rw [singles_got]
  exact congrArg (·.getD []) hb

/-- A thousand edges of the longest duration. -/
def thousand : SubGhzSignal :=
  { frequency := 433920000, preset := .ook650, edges := List.replicate 1000 ⟨true, 0x3fffffff⟩ }

theorem thousand_sendable : thousand.Sendable 1 where
  some_edges := by
    show 1 ≤ (List.replicate 1000 _).length
    rw [List.length_replicate]
    decide
  few_edges := by
    show (List.replicate 1000 _).length ≤ 4096
    rw [List.length_replicate]
    decide
  durations := by
    intro e he
    rw [List.eq_of_mem_replicate he]
    decide
  repeat_pos := by decide
  repeat_le := by decide

theorem thousand_size : thousand.requestSize 1 = 25064 := by
  have hlen : thousand.edges.length = 1000 := List.length_replicate
  have hsum : (thousand.edges.map SubGhzSignal.edgeSize).sum = 25000 := by
    show ((List.replicate 1000 _).map _).sum = _
    rw [List.map_replicate, List.sum_replicate_nat]
    decide
  rw [SubGhzSignal.requestSize, hlen, hsum]
  decide

/-- The host sends the thousand edges, and the main loop never dispatches them. -/
theorem transmit_lost :
    ∃ bytes, frameBytes .req 0 1 (reqBody (Value.encode rfc8949) (thousand.transmitReq 1))
        = some bytes ∧
      thousand.Sendable 1 ∧ (∀ t ∈ singles bytes, Piece t) ∧
      ((singles bytes).map Turn.got).flatten = bytes ∧
      .handleFrame .req 1 (reqBody (Value.encode rfc8949) (thousand.transmitReq 1))
        ∉ (run .new (singles bytes)).1 := by
  have hlen := SubGhzSignal.length_reqBody rfc8949_lawful (s := thousand)
    (by rw [thousand, List.length_replicate]; decide) 1
  rw [thousand_size] at hlen
  refine ⟨_, frameBytes_eq .req 0 1 (by rw [hlen]; decide), thousand_sendable, singles_piece,
    singles_got _, fun hmem => ?_⟩
  have hle := weight_le_maxFrame .new singles_piece _ hmem
  rw [weight, hlen] at hle
  exact absurd hle (by decide)

end FlipLink
