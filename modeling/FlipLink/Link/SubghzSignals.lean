/-
# `FlipLink.Link.SubghzSignals` — Sub-GHz signals, on both sides

`to_transmit_params` of the host against the parameter functions of the
firmware, with the value codec in between.  The parameters are written in normal
form, so what the firmware decodes is what the host wrote (`norm_toTransmitParams`),
and each function of the firmware is computed on it.

The other way, a capture is stored by the host and replayed by the firmware.
Both take durations up to 0x3fffffff, and `decode_stream_data` any duration but
0, so a capture with a longer record is returned and written to a file that
cannot be read back (`captured_stored_iff`, `captured_not_stored`).
-/
import FlipLink.Client.SubghzCapture
import FlipLink.Firmware.SubghzParams
import FlipLink.Proto.ValueCodec

namespace FlipLink

open Lib

/-- The radio preset that a preset's name denotes. -/
def SubGhzPreset.radio : SubGhzPreset → Subghz.Preset
  | .ook270 => .ook270
  | .ook650 => .ook650
  | .fskDev238 => .fsk2Dev238
  | .fskDev476 => .fsk2Dev476
  | .msk99_97 => .msk99_97
  | .gfsk9_99 => .gfsk9_99

/-- The same edge in the firmware. -/
def SubGhzEdge.tx (e : SubGhzEdge) : Subghz.TxEdge :=
  { level := e.level, durationUs := e.durationUs }

namespace SubGhzSignal

/-- What a transmission may be asked for. -/
structure Sendable (s : SubGhzSignal) (repeat_ : UInt32) : Prop where
  some_edges : 1 ≤ s.edges.length
  few_edges : s.edges.length ≤ Subghz.maxEdges
  durations : ∀ e ∈ s.edges, Admitted e
  repeat_pos : 1 ≤ repeat_.toNat
  repeat_le : repeat_.toNat ≤ 100

/-! ## Through the codec -/

theorem utf8_asStr_lt (p : SubGhzPreset) : (utf8 p.asStr).length < 2 ^ 64 := by
  cases p <;> decide

theorem norm_edgeToValue (e : SubGhzEdge) : (edgeToValue e).norm = edgeToValue e := rfl

theorem normItems_edges : ∀ es : List SubGhzEdge,
    Value.normItems (es.map edgeToValue) = es.map edgeToValue
  | [] => rfl
  | e :: es => by
      rw [List.map_cons, Value.normItems, norm_edgeToValue, normItems_edges es]

theorem norm_toTransmitParams (s : SubGhzSignal) (repeat_ : UInt32) :
    (s.toTransmitParams repeat_).norm = s.toTransmitParams repeat_ := by
  simp only [toTransmitParams, Value.norm, Value.normEntries, normItems_edges]

theorem fits_edgeToValue (e : SubGhzEdge) : (edgeToValue e).Fits :=
  ⟨show 2 < 2 ^ 64 by decide, by decide, trivial, by decide, trivial, trivial⟩

theorem fitsItems_edges : ∀ es : List SubGhzEdge, Value.FitsItems (es.map edgeToValue)
  | [] => trivial
  | e :: es => ⟨fits_edgeToValue e, fitsItems_edges es⟩

/-- The lengths fit if the number of edges is a `usize`. -/
theorem fits_toTransmitParams {s : SubGhzSignal} (hlen : s.edges.length < 2 ^ 64)
    (repeat_ : UInt32) : (s.toTransmitParams repeat_).Fits := by
  have hedges : (s.edges.map edgeToValue).length < 2 ^ 64 := by
    rwa [List.length_map]
  exact ⟨show 4 < 2 ^ 64 by decide, by decide, trivial, by decide, utf8_asStr_lt s.preset,
    by decide, trivial, by decide, ⟨hedges, fitsItems_edges s.edges⟩, trivial⟩

/-! ## In the firmware -/

theorem admitted_iff (e : SubGhzEdge) :
    Admitted e ↔ Subghz.durationOk e.durationUs.toUInt64 = true := by
  rw [Subghz.durationOk_iff, UInt32.toNat_toUInt64, Admitted]
  refine and_congr ?_ Iff.rfl
  rw [Nat.pos_iff_ne_zero]
  exact not_congr UInt32.toNat_inj.symm

theorem parseEdge_edgeToValue (e : SubGhzEdge) :
    Subghz.parseEdge (edgeToValue e)
      = if Admitted e then .ok e.tx else .error (errBadParams, "edge duration_us out of range") := by
  show (if Subghz.durationOk e.durationUs.toUInt64 = true then _ else _) = _
  rw [UInt32.toUInt32_toUInt64]
  exact if_congr (admitted_iff e).symm rfl rfl

theorem parseEdgeItems_map : ∀ es : List SubGhzEdge,
    ((∀ e ∈ es, Admitted e) →
      Subghz.parseEdgeItems (es.map edgeToValue) = .ok (es.map SubGhzEdge.tx)) ∧
    ((¬ ∀ e ∈ es, Admitted e) → ∃ e, Subghz.parseEdgeItems (es.map edgeToValue) = .error e)
  | [] => ⟨fun _ => rfl, fun h => absurd nofun h⟩
  | e :: es => by
      obtain ⟨hall, hbad⟩ := parseEdgeItems_map es
      rw [List.forall_mem_cons, List.map_cons, Subghz.parseEdgeItems, parseEdge_edgeToValue]
      by_cases he : Admitted e
      · rw [if_pos he]
        dsimp only
        refine ⟨fun h => ?_, fun h => ?_⟩
        · rw [hall h.2]
          rfl
        · obtain ⟨m, hm⟩ := hbad fun hes => h ⟨he, hes⟩
          exact ⟨m, by rw [hm]⟩
      · rw [if_neg he]
        exact ⟨fun h => absurd h.1 he, fun _ => ⟨_, rfl⟩⟩

/-- The edges are accepted if there are 1 to `MAX_EDGES` of them and all are in
range, and refused otherwise. -/
theorem parseEdges_toTransmitParams (s : SubGhzSignal) (repeat_ : UInt32) :
    let ok := 1 ≤ s.edges.length ∧ s.edges.length ≤ Subghz.maxEdges ∧ ∀ e ∈ s.edges, Admitted e
    (ok → Subghz.parseEdges (s.toTransmitParams repeat_) = .ok (s.edges.map SubGhzEdge.tx)) ∧
    (¬ ok → ∃ e, Subghz.parseEdges (s.toTransmitParams repeat_) = .error e) := by
  have hparse : Subghz.parseEdges (s.toTransmitParams repeat_)
      = if (s.edges.map edgeToValue).isEmpty then .error (errBadParams, "edges empty")
        else if (s.edges.map edgeToValue).length > Subghz.maxEdges then
          .error (errOversized, "too many subghz edges")
        else Subghz.parseEdgeItems (s.edges.map edgeToValue) := rfl
  obtain ⟨hall, hbad⟩ := parseEdgeItems_map s.edges
  simp only [List.isEmpty_iff, List.map_eq_nil_iff, List.length_map] at hparse
  rw [hparse]
  refine ⟨fun ⟨hpos, hle, hok⟩ => ?_, fun h => ?_⟩
  · rw [if_neg (List.length_pos_iff.mp hpos), if_neg (Nat.not_lt.mpr hle), hall hok]
  · split_ifs with hempty hmany
    · exact ⟨_, rfl⟩
    · exact ⟨_, rfl⟩
    · exact hbad fun hok => h ⟨List.length_pos_iff.mpr hempty, Nat.not_lt.mp hmany, hok⟩

theorem repeatCount_toTransmitParams (s : SubGhzSignal) (repeat_ : UInt32) :
    Subghz.repeatCount (s.toTransmitParams repeat_)
      = if 1 ≤ repeat_.toNat ∧ repeat_.toNat ≤ 100 then .ok repeat_
        else .error (errBadParams, "repeat out of range") := by
  show (if repeat_.toUInt64 = 0 ∨ repeat_.toUInt64 > 100 then Except.error _
    else Except.ok repeat_.toUInt64.toUInt32) = _
  rw [UInt32.toUInt32_toUInt64]
  have hzero : repeat_.toUInt64 = 0 ↔ repeat_.toNat = 0 := by
    rw [← UInt64.toNat_inj, UInt32.toNat_toUInt64]
    rfl
  have hmany : repeat_.toUInt64 > 100 ↔ 100 < repeat_.toNat := by
    rw [gt_iff_lt, UInt64.lt_iff_toNat_lt, UInt32.toNat_toUInt64]
    rfl
  by_cases h : 1 ≤ repeat_.toNat ∧ repeat_.toNat ≤ 100
  · rw [if_pos h, if_neg]
    rw [hzero, hmany]
    omega
  · rw [if_neg h, if_pos]
    rw [hzero, hmany]
    omega

theorem requiredFrequency_toTransmitParams (s : SubGhzSignal) (repeat_ : UInt32) :
    Subghz.requiredFrequency (s.toTransmitParams repeat_) = .ok s.frequency := by
  show Except.ok s.frequency.toUInt64.toUInt32 = _
  rw [UInt32.toUInt32_toUInt64]

theorem presetByName_asStr (p : SubGhzPreset) : Subghz.presetByName p.asStr = .ok p.radio := by
  cases p <;> rfl

theorem requiredPreset_toTransmitParams (s : SubGhzSignal) (repeat_ : UInt32) :
    Subghz.requiredPreset (s.toTransmitParams repeat_) = .ok s.preset.radio :=
  presetByName_asStr s.preset

/-! The parameters of a capture are read the same way. -/

/-- **What the host asks for is what the firmware transmits.**  The parameters
are decoded as they were written; if the transmission is one that may be asked
for, the firmware reads off them the signal and the repeat count, and otherwise
it refuses the edges or the count. -/
theorem transmit_params_read {ε : Type} {cb : Minicbor ε} (hcb : cb.Lawful) (s : SubGhzSignal)
    (repeat_ : UInt32) (hlen : s.edges.length < 2 ^ 64) :
    ∃ p, Value.decode cb (Value.encode cb (s.toTransmitParams repeat_)) = .ok (p, []) ∧
      (s.Sendable repeat_ →
        Subghz.requiredFrequency p = .ok s.frequency ∧
        Subghz.requiredPreset p = .ok s.preset.radio ∧
        Subghz.parseEdges p = .ok (s.edges.map SubGhzEdge.tx) ∧
        Subghz.repeatCount p = .ok repeat_) ∧
      (¬ s.Sendable repeat_ →
        (∃ e, Subghz.parseEdges p = .error e) ∨ ∃ e, Subghz.repeatCount p = .error e) := by
  obtain ⟨hedges, hrefused⟩ := parseEdges_toTransmitParams s repeat_
  refine ⟨s.toTransmitParams repeat_, ?_, fun h => ?_, fun h => ?_⟩
  · have hread := Value.decodeN_encode hcb _ (fits_toTransmitParams hlen repeat_) _
      (Nat.le_succ _) []
    rwa [List.append_nil, norm_toTransmitParams] at hread
  · refine ⟨requiredFrequency_toTransmitParams s repeat_, requiredPreset_toTransmitParams s repeat_,
      hedges ⟨h.some_edges, h.few_edges, h.durations⟩, ?_⟩
    rw [repeatCount_toTransmitParams, if_pos ⟨h.repeat_pos, h.repeat_le⟩]
  · by_cases hok : 1 ≤ s.edges.length ∧ s.edges.length ≤ Subghz.maxEdges ∧ ∀ e ∈ s.edges, Admitted e
    · right
      rw [repeatCount_toTransmitParams, if_neg]
      · exact ⟨_, rfl⟩
      · exact fun hr => h ⟨hok.1, hok.2.1, hok.2.2, hr.1, hr.2⟩
    · exact .inl (hrefused hok)

/-- A pulse three times, and a hundred and one times. -/
theorem transmit_params_read_pulse :
    let s : SubGhzSignal :=
      { frequency := 433920000, preset := .ook650, edges := [⟨true, 500⟩, ⟨false, 0x3fffffff⟩] }
    (∃ p, Value.decode rfc8949 (Value.encode rfc8949 (s.toTransmitParams 3)) = .ok (p, []) ∧
      Subghz.requiredFrequency p = .ok 433920000 ∧ Subghz.requiredPreset p = .ok .ook650 ∧
      Subghz.parseEdges p = .ok [⟨true, 500⟩, ⟨false, 0x3fffffff⟩] ∧ Subghz.repeatCount p = .ok 3) ∧
    ∃ p, Value.decode rfc8949 (Value.encode rfc8949 (s.toTransmitParams 101)) = .ok (p, []) ∧
      ((∃ e, Subghz.parseEdges p = .error e) ∨ ∃ e, Subghz.repeatCount p = .error e) := by
  intro s
  have hlen : s.edges.length < 2 ^ 64 := by decide
  obtain ⟨p, hp, hread, -⟩ := transmit_params_read rfc8949_lawful s 3 hlen
  obtain ⟨p', hp', -, hrefused⟩ := transmit_params_read rfc8949_lawful s 101 hlen
  refine ⟨⟨p, hp, hread ⟨by decide, by decide, by decide, by decide, by decide⟩⟩, p', hp',
    hrefused fun h => absurd h.repeat_le (by decide)⟩

end SubGhzSignal

/-! ## What is captured -/

namespace SubghzCapture

variable {b : Bodies} {frequency : UInt32} {preset : SubGhzPreset}

/-- **Which captures can be stored and replayed.**  The signal that a capture
returns is read back from its file as it was, and each of its edges passes the
duration check of the firmware, exactly if no STREAM_DATA record that was read is
longer than `MAX_SUBGHZ_DURATION_US`. -/
theorem captured_stored_iff {is : List Input} {signal : SubGhzSignal}
    {payloads : List (List UInt8)}
    (hrun : (machine b frequency preset).run .opening is = some (.done (.ok signal), payloads)) :
    (SubGhzSignal.parse signal.toFileString = .ok signal ∧
        ∀ e ∈ signal.edges, Subghz.durationOk e.durationUs.toUInt64 = true) ↔
      ∀ payload ∈ payloads, Storable payload := by
  obtain ⟨hedges, hne⟩ := run_ok hrun
  have hadmitted : (∀ e ∈ signal.edges, SubGhzSignal.Admitted e) ↔
      ∀ payload ∈ payloads, Storable payload := by
    rw [hedges, List.forall_mem_flatMap]
    exact forall₂_congr fun payload _ => admitted_streamEdges payload
  have hfirmware : (∀ e ∈ signal.edges, Subghz.durationOk e.durationUs.toUInt64 = true) ↔
      ∀ e ∈ signal.edges, SubGhzSignal.Admitted e :=
    forall₂_congr fun e _ => (SubGhzSignal.admitted_iff e).symm
  rw [SubGhzSignal.parse_toFileString_iff, hfirmware, ← hadmitted]
  exact ⟨fun h => h.2, fun h => ⟨⟨hne, h⟩, h⟩⟩

/-- Decoders that know the bodies of these captures. -/
def fewBodies : Bodies where
  streamStart payload :=
    if payload = streamStartBody streamFormatSubghzLevelDurationV1 then
      .ok streamFormatSubghzLevelDurationV1
    else .error "unexpected"
  streamStop payload := if payload = streamStopBody 0 then .ok 0 else .error "unexpected"
  agentError _ := .error "unexpected"

/-- A capture of one payload that the device ends by itself. -/
def oneShot (payload : List UInt8) : List Input :=
  let frame (typ : MsgType) (payload : List UInt8) : Input :=
    .turn { cancel := false, got := .ok (some (typ, payload)), elapsed := false }
  [.opened (.ok ()), frame .streamStart (streamStartBody streamFormatSubghzLevelDurationV1),
    frame .streamData payload, frame .streamStop (streamStopBody 0)]

theorem captured_stored_pulse :
    let signal : SubGhzSignal :=
      { frequency := 433920000, preset := .ook650, edges := [⟨true, 500⟩, ⟨false, 0x3fffffff⟩] }
    (machine fewBodies 433920000 .ook650).run .opening
        (oneShot [1, 0xF4, 0x01, 0, 0, 0, 0xFF, 0xFF, 0xFF, 0x3F])
      = some (.done (.ok signal), [[1, 0xF4, 0x01, 0, 0, 0, 0xFF, 0xFF, 0xFF, 0x3F]]) ∧
    SubGhzSignal.parse signal.toFileString = .ok signal ∧
    ∀ e ∈ signal.edges, Subghz.durationOk e.durationUs.toUInt64 = true := by
  intro signal
  have hrun : (machine fewBodies 433920000 .ook650).run .opening
      (oneShot [1, 0xF4, 0x01, 0, 0, 0, 0xFF, 0xFF, 0xFF, 0x3F])
    = some (.done (.ok signal), [[1, 0xF4, 0x01, 0, 0, 0, 0xFF, 0xFF, 0xFF, 0x3F]]) := rfl
  exact ⟨hrun, (captured_stored_iff hrun).mpr (by decide)⟩

/-- A level that lasts 0x40000000 µs is captured, and its file is refused. -/
theorem captured_not_stored :
    ∃ (is : List Input) (signal : SubGhzSignal) (payloads : List (List UInt8)),
      (machine fewBodies 433920000 .ook650).run .opening is = some (.done (.ok signal), payloads) ∧
      (∀ payload ∈ payloads, 5 ∣ payload.length ∧
        ∀ record ∈ chunksExact 5 payload, recordDuration record ≠ 0) ∧
      ¬ (SubGhzSignal.parse signal.toFileString = .ok signal ∧
        ∀ e ∈ signal.edges, Subghz.durationOk e.durationUs.toUInt64 = true) := by
  refine ⟨oneShot [1, 0, 0, 0, 0x40],
    { frequency := 433920000, preset := .ook650, edges := [⟨true, 0x40000000⟩] },
    [[1, 0, 0, 0, 0x40]], rfl, by decide, fun h => ?_⟩
  exact absurd (h.2 ⟨true, 0x40000000⟩ (List.mem_singleton_self _)) (by decide)

end SubghzCapture

end FlipLink
