/-
# `FlipLink.Firmware.Refusals` — what the handlers refuse

Every parser and handler of the firmware ends with a result, or with one of a few errors
that are written out in it.  They are listed here, opcode by opcode (`refusals`), and each
function is gone through once, for its errors and for what it returns without one (`Ends`).
-/
import FlipLink.Firmware.IrInstrument
import FlipLink.Firmware.IrTransmit
import FlipLink.Firmware.SubghzRadio

namespace FlipLink.Refusals

open Subghz

/-! ## The errors of an opcode -/

/-- What `required_frequency`, `required_preset` and their callers say of a radio's settings. -/
def frequencyRefusals : List (UInt32 × String) := [(errBadParams, "frequency required")]

def presetRefusals : List (UInt32 × String) :=
  [(errBadParams, "unknown subghz preset"), (errBadParams, "preset required")]

def edgesRefusals : List (UInt32 × String) :=
  [(errBadParams, "edge duration_us out of range"), (errBadParams, "edge level required"),
    (errBadParams, "edges empty"), (errOversized, "too many subghz edges"),
    (errBadParams, "edges array required")]

def repeatRefusals : List (UInt32 × String) := [(errBadParams, "repeat out of range")]

def payloadRefusals : List (UInt32 × String) :=
  [(errBadParams, "payload empty"), (errOversized, "payload too large"),
    (errBadParams, "payload bytes required")]

def timeoutRefusals : List (UInt32 × String) := [(errBadParams, "timeout_ms out of range")]

/-- What a radio that is not free, or not there, is refused with. -/
def radioRefusals : List (UInt32 × String) :=
  [(errBusy, "subghz busy"), (errInternal, "subghz internal device unavailable"),
    (errBadParams, "invalid subghz frequency"), (errBusy, "subghz device unavailable")]

/-- The errors that a REQ of a listed opcode can be answered with. -/
def refusals (instrument opcode : String) : List (UInt32 × String) :=
  match instrument, opcode with
  | "ir", "transmit" =>
      [(errBadParams, "timings array required"), (errBadParams, "timings empty"),
        (errOversized, "too many timings"), (errBusy, "ir busy")]
  | "ir", "capture" => [(errBusy, "ir busy"), (errInternal, "no capture buffer")]
  | "subghz", "transmit" =>
      frequencyRefusals ++ presetRefusals ++ edgesRefusals ++ repeatRefusals ++ radioRefusals ++
        [(errBadParams, "subghz transmit not allowed on this frequency"),
          (errInternal, "subghz transmit timeout")]
  | "subghz", "link_probe" =>
      frequencyRefusals ++ payloadRefusals ++ timeoutRefusals ++ radioRefusals ++
        [(errBadParams, "subghz link probe not allowed on this frequency"),
          (errInternal, "subghz worker allocation failed"),
          (errBusy, "subghz link worker unavailable"),
          (errInternal, "subghz link worker write failed")]
  | "subghz", "capture" =>
      frequencyRefusals ++ presetRefusals ++ radioRefusals ++
        [(errInternal, "no subghz capture buffer")]
  | _, _ => []

/-- The opcodes that refuse anything. -/
def refusing : List (String × String) :=
  [("ir", "transmit"), ("ir", "capture"), ("subghz", "transmit"), ("subghz", "link_probe"),
    ("subghz", "capture")]

/-- What is to be shown of every refusal. -/
theorem forall_refusals {P : UInt32 × String → Prop}
    (h : ∀ o ∈ refusing, ∀ e ∈ refusals o.1 o.2, P e) {instrument opcode : String}
    {e : UInt32 × String} (he : e ∈ refusals instrument opcode) : P e := by
  unfold refusals at he
  split at he
  · exact h ("ir", "transmit") (by decide) e he
  · exact h ("ir", "capture") (by decide) e he
  · exact h ("subghz", "transmit") (by decide) e he
  · exact h ("subghz", "link_probe") (by decide) e he
  · exact h ("subghz", "capture") (by decide) e he
  · exact absurd he List.not_mem_nil

/-! ## How a computation ends -/

section Ends

variable {α : Type} {es : List (UInt32 × String)} {P : α → Prop}

/-- With one of the errors `es`, or a result that `P` holds of. -/
def Ends (es : List (UInt32 × String)) (P : α → Prop) : Except (UInt32 × String) α → Prop
  | .error e => e ∈ es
  | .ok a => P a

theorem ends_error {e : UInt32 × String} (h : e ∈ es) :
    Ends es P (.error e : Except (UInt32 × String) α) := h

theorem ends_ok {a : α} (h : P a) : Ends es P (.ok a : Except (UInt32 × String) α) := h

theorem Ends.error {x : Except (UInt32 × String) α} (h : Ends es P x) {e : UInt32 × String}
    (hx : x = .error e) : e ∈ es := by
  rw [hx] at h
  exact h

/-- An error is one of `es`. -/
def Within (es : List (UInt32 × String)) (x : Except (UInt32 × String) α) : Prop :=
  Ends es (fun _ => True) x

/-- What a parser refuses, its caller refuses. -/
theorem Within.among {x : Except (UInt32 × String) α} (h : Within es x)
    {es' : List (UInt32 × String)} (hsub : ∀ e ∈ es, e ∈ es') {e : UInt32 × String}
    (hx : x = .error e) : e ∈ es' :=
  hsub e (h.error hx)

end Ends

/-! ## The parsers -/

section Parsers

variable (params : Value)

theorem within_requiredFrequency : Within frequencyRefusals (requiredFrequency params) := by
  unfold requiredFrequency
  split
  · exact ends_ok trivial
  · exact ends_error (by decide)

theorem within_requiredPreset : Within presetRefusals (requiredPreset params) := by
  unfold requiredPreset
  split
  · unfold presetByName
    split
    case h_7 => exact ends_error (by decide)
    all_goals exact ends_ok trivial
  · exact ends_error (by decide)

theorem within_parseEdge (item : Value) : Within edgesRefusals (parseEdge item) := by
  unfold parseEdge
  split
  · split
    · split_ifs
      · exact ends_ok trivial
      · exact ends_error (by decide)
    · exact ends_error (by decide)
  · exact ends_error (by decide)

theorem within_parseEdgeItems (items : List Value) :
    Within edgesRefusals (parseEdgeItems items) := by
  induction items with
  | nil => exact ends_ok trivial
  | cons item items ih =>
      rw [parseEdgeItems]
      split
      · exact ends_error ((within_parseEdge item).error ‹_›)
      · split
        · exact ends_error (ih.error ‹_›)
        · exact ends_ok trivial

theorem within_parseEdges : Within edgesRefusals (parseEdges params) := by
  unfold parseEdges
  split
  · split_ifs
    · exact ends_error (by decide)
    · exact ends_error (by decide)
    · exact within_parseEdgeItems _
  · exact ends_error (by decide)

theorem within_repeatCount : Within repeatRefusals (repeatCount params) := by
  unfold repeatCount
  dsimp only
  split_ifs
  · exact ends_error (by decide)
  · exact ends_ok trivial

theorem within_probePayload : Within payloadRefusals (probePayload params) := by
  unfold probePayload
  split
  · split_ifs
    · exact ends_error (by decide)
    · exact ends_error (by decide)
    · exact ends_ok trivial
  · exact ends_error (by decide)

theorem within_probeTimeoutMs : Within timeoutRefusals (probeTimeoutMs params) := by
  unfold probeTimeoutMs
  dsimp only
  split_ifs
  · exact ends_error (by decide)
  · exact ends_ok trivial

end Parsers

/-! ## The handlers -/

/-- What the two `transmit`s report. -/
def Counted (v : Value) : Prop := ∃ n, v = .map [("sent", .u64 n)]

/-- What `link_probe` reports: three numbers and the preview. -/
def Probed (v : Value) : Prop :=
  ∃ written read callbacks preview, preview.length ≤ maxLinkProbeBytes ∧
    v = .map [("written", .u64 written), ("read", .u64 read), ("callbacks", .u64 callbacks),
      ("rx_preview", .bytes preview)]

theorem irTransmit_ends (hal : Ir.TxHal) (params : Value) (t : Ir.Tx) :
    Ends (refusals "ir" "transmit") Counted (Ir.transmit hal params t).result := by
  unfold Ir.transmit
  split
  · split_ifs
    · exact ends_error (by decide)
    · exact ends_error (by decide)
    · exact ends_error (by decide)
    · exact ends_ok ⟨_, rfl⟩
  · exact ends_error (by decide)

theorem transmit_ends (hal : RadioHal) (active : Bool) (params : Value) (r : Radio) :
    Ends (refusals "subghz" "transmit") Counted (transmit hal active params r).result := by
  unfold transmit
  by_cases hbusy : (active || r.tx.ptr.isSome) = true
  · rw [if_pos hbusy]
    exact ends_error (by decide)
  rw [if_neg hbusy]
  cases hfrequency : requiredFrequency params with
  | error e =>
      exact ends_error ((within_requiredFrequency params).among (by decide) hfrequency)
  | ok frequency =>
  cases hpreset : requiredPreset params with
  | error e =>
      exact ends_error ((within_requiredPreset params).among (by decide) hpreset)
  | ok preset =>
  cases hedges : parseEdges params with
  | error e =>
      exact ends_error ((within_parseEdges params).among (by decide) hedges)
  | ok edges =>
  cases hrepeat : repeatCount params with
  | error e =>
      exact ends_error ((within_repeatCount params).among (by decide) hrepeat)
  | ok repeat_ =>
  dsimp only
  generalize txTimeoutMs edges repeat_ = timeoutMs
  split_ifs
  · exact ends_error (by decide)
  · exact ends_error (by decide)
  · exact ends_error (by decide)
  · exact ends_error (by decide)
  · exact ends_error (by decide)
  · exact ends_ok ⟨_, rfl⟩

/-- The preview of a probe never outgrows `MAX_LINK_PROBE_BYTES`. -/
theorem length_probeLoop_le (hal : RadioHal) : ∀ (left waited : Nat) {p : Probe},
    p.rxPreview.length ≤ maxLinkProbeBytes →
      (probeLoop hal left waited p).1.rxPreview.length ≤ maxLinkProbeBytes
  | 0, _, _, h => h
  | left + 1, waited, p, h => by
      have hturn : (probeTurn hal waited p).1.rxPreview.length ≤ maxLinkProbeBytes := by
        unfold probeTurn
        dsimp only
        split_ifs
        · rw [List.length_append, List.length_take]
          omega
        · exact h
      exact length_probeLoop_le hal left (waited + 1) hturn

theorem linkProbe_ends (hal : RadioHal) (active : Bool) (params : Value) (r : Radio) :
    Ends (refusals "subghz" "link_probe") Probed (linkProbe hal active params r).result := by
  unfold linkProbe
  by_cases hbusy : (active || r.tx.ptr.isSome) = true
  · rw [if_pos hbusy]
    exact ends_error (by decide)
  rw [if_neg hbusy]
  cases hfrequency : requiredFrequency params with
  | error e =>
      exact ends_error ((within_requiredFrequency params).among (by decide) hfrequency)
  | ok frequency =>
  cases hpayload : probePayload params with
  | error e =>
      exact ends_error ((within_probePayload params).among (by decide) hpayload)
  | ok payload =>
  cases htimeout : probeTimeoutMs params with
  | error e =>
      exact ends_error ((within_probeTimeoutMs params).among (by decide) htimeout)
  | ok timeoutMs =>
  dsimp only
  have hpreview := length_probeLoop_le hal timeoutMs.toNat 0
    (p := { readTotal := 0, rxPreview := [] }) (Nat.zero_le _)
  generalize probeLoop hal timeoutMs.toNat 0 { readTotal := 0, rxPreview := [] } = loop
    at hpreview ⊢
  split_ifs
  · exact ends_error (by decide)
  · exact ends_error (by decide)
  · exact ends_error (by decide)
  · exact ends_error (by decide)
  · exact ends_error (by decide)
  · exact ends_error (by decide)
  · exact ends_ok ⟨_, _, _, _, hpreview, rfl⟩

/-! ## The starts of a capture -/

/-- A STREAM_START, or one of the errors `es`. -/
def Starts (es : List (UInt32 × String)) (seq : UInt16) (format : String) (ms : List Sent) :
    Prop :=
  ms = [.streamStart seq format] ∨ ∃ e ∈ es, ms = [.error seq e.1 e.2]

theorem starts_error {es : List (UInt32 × String)} {seq : UInt16} {format : String}
    {e : UInt32 × String} (h : e ∈ es) : Starts es seq format [.error seq e.1 e.2] :=
  .inr ⟨e, h, rfl⟩

theorem irStart_starts (hal : Ir.Hal) (seq : UInt16) (c : Capture Ir.config) :
    Starts (refusals "ir" "capture") seq streamFormatRawI32Us (Ir.startCapture hal seq c).2 := by
  unfold Ir.startCapture
  split_ifs
  · exact starts_error (e := (errBusy, "ir busy")) (by decide)
  · cases c.ensureCaptureBuffer hal.alloc with
    | none => exact starts_error (e := (errInternal, "no capture buffer")) (by decide)
    | some sb => exact .inl rfl

theorem subghzStart_starts (hal : Hal) (seq : UInt16) (params : Value) (c : Capture config) :
    Starts (refusals "subghz" "capture") seq streamFormatSubghzLevelDurationV1
      (startCapture hal seq params c).2 := by
  unfold startCapture
  by_cases hactive : c.active = true
  · rw [if_pos hactive]
    exact starts_error (e := (errBusy, "subghz busy")) (by decide)
  rw [if_neg hactive]
  cases hfrequency : requiredFrequency params with
  | error e =>
      exact starts_error ((within_requiredFrequency params).among (by decide) hfrequency)
  | ok frequency =>
  cases hpreset : requiredPreset params with
  | error e =>
      exact starts_error ((within_requiredPreset params).among (by decide) hpreset)
  | ok preset =>
  dsimp only
  split_ifs
  · exact starts_error (e := (errInternal, "subghz internal device unavailable")) (by decide)
  · exact starts_error (e := (errBadParams, "invalid subghz frequency")) (by decide)
  · exact starts_error (e := (errBusy, "subghz device unavailable")) (by decide)
  · cases c.ensureCaptureBuffer hal.alloc with
    | none => exact starts_error (e := (errInternal, "no subghz capture buffer")) (by decide)
    | some sb => exact .inl rfl

end FlipLink.Refusals
