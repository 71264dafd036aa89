/-
# `FlipLink.Client.LinkProbe` — the link probe on the host

The request and the response of the link probe in `subghz.rs`, and how long
`subghz_link_probe` of `lib.rs` waits for the answer.  A `Duration` is its number
of nanoseconds.
-/
import FlipLink.Proto.Value

namespace FlipLink.LinkProbe

/-- `Duration::from_millis`. -/
def fromMillis (ms : Nat) : Nat := ms * 1000000

def maxLinkProbeBytes : Nat := 60
def minLinkProbeTimeoutMs : Nat := 100
def maxLinkProbeTimeoutMs : Nat := 5000

def validateProbePayload (payload : List UInt8) : Except String Unit :=
  if payload.isEmpty then .error "link probe payload is empty"
  else if payload.length > maxLinkProbeBytes then
    .error ("link probe payload too large: " ++ toString payload.length ++ " bytes (max " ++
      toString maxLinkProbeBytes ++ ")")
  else .ok ()

def linkProbeParams (frequency : UInt32) (payload : List UInt8) (timeout : Nat) :
    Except String Value :=
  match validateProbePayload payload with
  | .error e => .error e
  | .ok () =>
      if timeout < fromMillis minLinkProbeTimeoutMs ∨ timeout > fromMillis maxLinkProbeTimeoutMs ∨
          timeout % 1000000000 % 1000000 ≠ 0 then
        .error ("link probe timeout must be whole milliseconds in " ++
          toString minLinkProbeTimeoutMs ++ "..=" ++ toString maxLinkProbeTimeoutMs ++ " ms")
      else
        .ok (.map [("frequency", .u64 frequency.toUInt64), ("payload", .bytes payload),
          ("timeout_ms", .u64 (.ofNat (timeout / 1000000)))])

/-! ## The response -/

structure SubGhzLinkProbeResult where
  written : UInt64
  read : UInt64
  callbacks : UInt64
  rxPreview : List UInt8
  deriving DecidableEq, Repr

def requiredU64 (value : Value) (key : String) : Except String UInt64 :=
  match value.get key with
  | some (.u64 n) => .ok n
  | _ => .error ("link probe response missing numeric " ++ key ++ " field")

/-- The preview of a response. -/
def requiredPreview (value : Value) : Except String (List UInt8) :=
  match value.get "rx_preview" with
  | some (.bytes bytes) =>
      if bytes.length ≤ maxLinkProbeBytes then .ok bytes
      else
        .error ("link probe response rx_preview too large: " ++ toString bytes.length ++
          " bytes (max " ++ toString maxLinkProbeBytes ++ ")")
  | _ => .error "link probe response missing rx_preview bytes"

def linkProbeResult (value : Value) : Except String SubGhzLinkProbeResult := do
  let written ← requiredU64 value "written"
  let read ← requiredU64 value "read"
  let callbacks ← requiredU64 value "callbacks"
  let rxPreview ← requiredPreview value
  return { written, read, callbacks, rxPreview }

/-! ## How long the host waits -/

/-- `Duration::MAX`. -/
def maxDuration : Nat := 2 ^ 64 * 1000000000 - 1

/-- `host_timeout` of `subghz_link_probe`. -/
def hostTimeout (timeout : Nat) : Nat :=
  if timeout + fromMillis 3000 ≤ maxDuration then timeout + fromMillis 3000 else fromMillis 8000

/-! ## What is accepted -/

theorem validateProbePayload_ok {payload : List UInt8}
    (h : validateProbePayload payload = .ok ()) : payload ≠ [] ∧ payload.length ≤ 60 := by
  unfold validateProbePayload at h
  split_ifs at h with hempty hlong
  exact ⟨List.isEmpty_iff.not.mp hempty, Nat.not_lt.mp hlong⟩

/-- What is accepted: 1 to 60 bytes, and 100 ms to 5 s, in whole milliseconds; the
parameters carry both. -/
theorem linkProbeParams_fields {frequency : UInt32} {payload : List UInt8} {timeout : Nat}
    {params : Value} (h : linkProbeParams frequency payload timeout = .ok params) :
    payload ≠ [] ∧ payload.length ≤ 60 ∧
      ∃ ms, timeout = fromMillis ms ∧ 100 ≤ ms ∧ ms ≤ 5000 ∧
        params = .map [("frequency", .u64 frequency.toUInt64), ("payload", .bytes payload),
          ("timeout_ms", .u64 (.ofNat ms))] := by
  unfold linkProbeParams at h
  cases hp : validateProbePayload payload with
  | error e =>
      rw [hp] at h
      exact nomatch h
  | ok _ =>
      rw [hp] at h
      dsimp only at h
      split_ifs at h with hbad
      cases h
      obtain ⟨hne, hlen⟩ := validateProbePayload_ok hp
      simp only [fromMillis, minLinkProbeTimeoutMs, maxLinkProbeTimeoutMs, not_or, not_lt,
        not_not] at hbad
      obtain ⟨hlow, hhigh, hwhole⟩ := hbad
      refine ⟨hne, hlen, timeout / 1000000, ?_, by omega, by omega, rfl⟩
      rw [fromMillis]
      omega

theorem linkProbeParams_ok {frequency : UInt32} {payload : List UInt8} {timeout : Nat}
    {params : Value} (h : linkProbeParams frequency payload timeout = .ok params) :
    ∃ ms, timeout = fromMillis ms ∧ 100 ≤ ms ∧ ms ≤ 5000 ∧
      params.get "timeout_ms" = some (.u64 (.ofNat ms)) := by
  obtain ⟨-, -, ms, htimeout, hlow, hhigh, rfl⟩ := linkProbeParams_fields h
  exact ⟨ms, htimeout, hlow, hhigh, rfl⟩

end FlipLink.LinkProbe
