/-
# `FlipLink.Firmware.SubghzParams` — the parameters of Sub-GHz requests

`parse_edges`, `repeat_count`, `probe_payload` and `probe_timeout_ms` of
`subghz_instrument.rs`; `required_frequency` and `required_preset` are with the
capture that uses them too.  What each function accepts is said once, as an
equivalence, and its callers use that.
-/
import FlipLink.Firmware.SubghzInstrument

namespace FlipLink.Subghz

def maxEdges : Nat := 4096
def maxLinkProbeBytes : Nat := 60
def minLinkProbeTimeoutMs : UInt64 := 100
def maxLinkProbeTimeoutMs : UInt64 := 5000
def defaultLinkProbeTimeoutMs : UInt64 := 500

structure TxEdge where
  level : Bool
  durationUs : UInt32
  deriving DecidableEq, Repr

/-! ## Edges -/

/-- The duration check of `parse_edges`. -/
def durationOk (durationUs : UInt64) : Bool := durationUs > 0 && durationUs ≤ 0x3fffffff

/-- One turn of the loop of `parse_edges`. -/
def parseEdge (item : Value) : Except (UInt32 × String) TxEdge :=
  match item.get "level" with
  | some (.bool level) =>
      match (item.get "duration_us").bind asU64 with
      | some durationUs =>
          if durationOk durationUs then .ok { level, durationUs := durationUs.toUInt32 }
          else .error (errBadParams, "edge duration_us out of range")
      | none => .error (errBadParams, "edge duration_us out of range")
  | _ => .error (errBadParams, "edge level required")

def parseEdgeItems : List Value → Except (UInt32 × String) (List TxEdge)
  | [] => .ok []
  | item :: items =>
      match parseEdge item with
      | .error e => .error e
      | .ok edge =>
      match parseEdgeItems items with
      | .error e => .error e
      | .ok edges => .ok (edge :: edges)

def parseEdges (params : Value) : Except (UInt32 × String) (List TxEdge) :=
  match params.get "edges" with
  | some (.array array) =>
      if array.isEmpty then .error (errBadParams, "edges empty")
      else if array.length > maxEdges then .error (errOversized, "too many subghz edges")
      else parseEdgeItems array
  | _ => .error (errBadParams, "edges array required")

/-! ## Numbers -/

def repeatCount (params : Value) : Except (UInt32 × String) UInt32 :=
  let repeat_ := ((params.get "repeat").bind asU64).getD 1
  if repeat_ = 0 ∨ repeat_ > 100 then .error (errBadParams, "repeat out of range")
  else .ok repeat_.toUInt32

def probePayload (params : Value) : Except (UInt32 × String) (List UInt8) :=
  match params.get "payload" with
  | some (.bytes bytes) =>
      if bytes.isEmpty then .error (errBadParams, "payload empty")
      else if bytes.length > maxLinkProbeBytes then .error (errOversized, "payload too large")
      else .ok bytes
  | _ => .error (errBadParams, "payload bytes required")

def probeTimeoutMs (params : Value) : Except (UInt32 × String) UInt32 :=
  let timeout := ((params.get "timeout_ms").bind asU64).getD defaultLinkProbeTimeoutMs
  if timeout < minLinkProbeTimeoutMs ∨ timeout > maxLinkProbeTimeoutMs then
    .error (errBadParams, "timeout_ms out of range")
  else .ok timeout.toUInt32

/-! ## What is accepted -/

/-- An accepted edge has a duration in range. -/
def TxEdge.InRange (e : TxEdge) : Prop := 0 < e.durationUs.toNat ∧ e.durationUs.toNat ≤ 0x3fffffff

theorem durationOk_iff (d : UInt64) : durationOk d = true ↔ 0 < d.toNat ∧ d.toNat ≤ 0x3fffffff := by
  rw [durationOk, Bool.and_eq_true, decide_eq_true_eq, decide_eq_true_eq]
  exact Iff.rfl

theorem parseEdge_ok {item : Value} {e : TxEdge} (h : parseEdge item = .ok e) : e.InRange := by
  unfold parseEdge at h
  split at h
  · split at h
    · rename_i d hd
      split_ifs at h with hok
      cases h
      obtain ⟨hpos, hle⟩ := (durationOk_iff d).mp hok
      have hnat : d.toUInt32.toNat = d.toNat := by
        rw [UInt64.toNat_toUInt32]
        exact Nat.mod_eq_of_lt (by omega)
      rw [TxEdge.InRange, hnat]
      exact ⟨hpos, hle⟩
    · exact nomatch h
  · exact nomatch h

theorem parseEdgeItems_ok : ∀ {items : List Value} {edges : List TxEdge},
    parseEdgeItems items = .ok edges →
    edges.length = items.length ∧ ∀ e ∈ edges, e.InRange
  | [], edges, h => by
      cases h
      exact ⟨rfl, nofun⟩
  | item :: items, edges, h => by
      rw [parseEdgeItems] at h
      cases he : parseEdge item with
      | error e =>
          rw [he] at h
          exact nomatch h
      | ok edge =>
        rw [he] at h
        dsimp only at h
        cases hrest : parseEdgeItems items with
        | error e =>
            rw [hrest] at h
            exact nomatch h
        | ok rest =>
            rw [hrest] at h
            cases h
            obtain ⟨hlen, hall⟩ := parseEdgeItems_ok hrest
            exact ⟨congrArg Nat.succ hlen,
              List.forall_mem_cons.mpr ⟨parseEdge_ok he, hall⟩⟩

/-- What `parse_edges` accepts: 1 to `MAX_EDGES` edges, all in range. -/
theorem parseEdges_ok {params : Value} {edges : List TxEdge} (h : parseEdges params = .ok edges) :
    1 ≤ edges.length ∧ edges.length ≤ maxEdges ∧ ∀ e ∈ edges, e.InRange := by
  unfold parseEdges at h
  split at h
  · rename_i array _
    split_ifs at h with hempty hmany
    obtain ⟨hlen, hall⟩ := parseEdgeItems_ok h
    rw [hlen]
    refine ⟨List.length_pos_iff.mpr ?_, Nat.not_lt.mp hmany, hall⟩
    rwa [List.isEmpty_iff] at hempty
  · exact nomatch h

theorem repeatCount_ok {params : Value} {n : UInt32} (h : repeatCount params = .ok n) :
    1 ≤ n.toNat ∧ n.toNat ≤ 100 := by
  unfold repeatCount at h
  generalize ((params.get "repeat").bind asU64).getD 1 = r at h
  dsimp only at h
  split_ifs at h with hr
  cases h
  obtain ⟨hzero, hle⟩ := not_or.mp hr
  have hle : r.toNat ≤ 100 := UInt64.not_lt.mp hle
  have hpos : r.toNat ≠ 0 := fun h0 => hzero (UInt64.toNat_inj.mp h0)
  have hnat : r.toUInt32.toNat = r.toNat := by
    rw [UInt64.toNat_toUInt32]
    exact Nat.mod_eq_of_lt (by omega)
  rw [hnat]
  omega

end FlipLink.Subghz
