/-
# `FlipLink.Firmware.Params` — the numbers of a request

Five numeric parameters are read by the handlers, each by a function of its own:
`required_frequency`, `repeat_count` and `probe_timeout_ms` of
`subghz_instrument.rs`, and the first lines of `ir_instrument::transmit`.  They are
one function with different values (`Scalar.read`): look the key up, take an integer
that is not negative, fall back on the default if there is one, check a range and cut
to 32 bits.  `Handler.uses` lists for a handler which of them it uses, and with what
values, when its checks are over.

Two of the steps do not do what they are there for.  The fallback does not tell a
parameter that is absent from one that is negative or of another type, and the cut
comes without a check where the range has no upper end.  So a parameter that is
present is used as it was sent exactly if it fits (`Scalar.exact_iff`,
`Handler.uses_exactly_iff`).
-/
import FlipLink.Firmware.IrTransmit
import FlipLink.Firmware.SubghzRadio

namespace FlipLink.Params

open Ir (asU64 FitsU32 number_of_asU64 asU64_of_number fitsU32_iff toNat_toUInt32_eq)

/-! ## One parameter -/

/-- A numeric parameter: its key, its default, and the range that is checked. -/
structure Scalar where
  key : String
  default : Option UInt32
  low : UInt64
  high : UInt64

namespace Scalar

/-- The value that is used; `none` is a refusal. -/
def read (s : Scalar) (params : Value) : Option UInt32 :=
  match (params.get s.key).bind asU64 with
  | some n => if s.low ≤ n ∧ n ≤ s.high then some n.toUInt32 else none
  | none => s.default

/-- `DEFAULT_FREQ` of `ir_instrument.rs`. -/
def irFrequency : Scalar := ⟨"frequency", some 38000, 0, 0xFFFFFFFFFFFFFFFF⟩
def dutyPermille : Scalar := ⟨"duty_permille", some 330, 0, 0xFFFFFFFFFFFFFFFF⟩
def subghzFrequency : Scalar := ⟨"frequency", none, 0, 0xFFFFFFFFFFFFFFFF⟩
def repeat_ : Scalar := ⟨"repeat", some 1, 1, 100⟩
def timeoutMs : Scalar := ⟨"timeout_ms", some 500, 100, 5000⟩

/-- The value `n` is the default of a parameter that is absent, or the number of one
that is present. -/
def Exact (s : Scalar) (params : Value) (n : UInt32) : Prop :=
  (params.get s.key = none ∧ s.default = some n) ∨
    ∃ v, params.get s.key = some v ∧ v.number = some (n.toNat : Int)

/-- The parameter is not refused: an integer that is not negative is in range, and
without a default there is one. -/
structure Accepts (s : Scalar) (params : Value) : Prop where
  inRange : ∀ {v n}, params.get s.key = some v → v.number = some n → 0 ≤ n →
    (s.low.toNat : Int) ≤ n ∧ n ≤ s.high.toNat
  present : s.default = none → ∃ v n, params.get s.key = some v ∧ v.number = some n ∧ 0 ≤ n

/-- If it is present, it is an integer from 0 below 2^32. -/
def Fits (s : Scalar) (params : Value) : Prop := ∀ v, params.get s.key = some v → FitsU32 v

theorem read_absent {s : Scalar} {params : Value} (h : params.get s.key = none) :
    s.read params = s.default := by
  rw [read, h]
  rfl

theorem read_other {s : Scalar} {params v : Value} (h : params.get s.key = some v)
    (hv : asU64 v = none) : s.read params = s.default := by
  rw [read, h, Option.bind_some, hv]

theorem read_number {s : Scalar} {params v : Value} {n : UInt64}
    (h : params.get s.key = some v) (hv : asU64 v = some n) :
    s.read params = if s.low ≤ n ∧ n ≤ s.high then some n.toUInt32 else none := by
  rw [read, h, Option.bind_some, hv]

/-- What is no integer from 0 on is no number that could have been used. -/
theorem number_ne {v : Value} (hv : asU64 v = none) (n : Int) (hn : 0 ≤ n) : v.number ≠ some n := by
  intro h
  obtain ⟨k, hk⟩ := asU64_of_number h hn
  exact Option.some_ne_none k (hk.symm.trans hv)

/-- A parameter that is read is used exactly if it fits. -/
theorem exact_iff {s : Scalar} {params : Value} {n : UInt32} (h : s.read params = some n) :
    s.Exact params n ↔ s.Fits params := by
  cases hget : params.get s.key with
  | none =>
      rw [read_absent hget] at h
      refine iff_of_true (.inl ⟨hget, h⟩) fun v hv => ?_
      exact absurd (hv.symm.trans hget) (Option.some_ne_none v)
  | some v =>
      have hfits : s.Fits params ↔ FitsU32 v :=
        ⟨fun hf => hf v hget, fun hf w hw => Option.some.inj (hget.symm.trans hw) ▸ hf⟩
      have hexact : s.Exact params n ↔ v.number = some (n.toNat : Int) := by
        constructor
        · rintro (⟨hnone, -⟩ | ⟨w, hw, hn⟩)
          · exact absurd (hget.symm.trans hnone) (Option.some_ne_none v)
          · exact Option.some.inj (hw.symm.trans hget) ▸ hn
        · exact fun hn => .inr ⟨v, hget, hn⟩
      rw [hfits, hexact, fitsU32_iff]
      cases hv : asU64 v with
      | none =>
          refine iff_of_false (number_ne hv _ (Int.natCast_nonneg _)) ?_
          rintro ⟨k, hk, -⟩
          exact Option.some_ne_none k hk.symm
      | some k =>
          rw [read_number hget hv] at h
          split_ifs at h
          cases h
          rw [number_of_asU64 hv, Option.some.injEq, Int.natCast_inj, eq_comm, toNat_toUInt32_eq]
          constructor
          · exact fun hlt => ⟨k, rfl, hlt⟩
          · rintro ⟨k', hk, hlt⟩
            cases hk
            exact hlt

/-- A parameter is read exactly if it is accepted. -/
theorem read_isSome_iff {s : Scalar} {params : Value} :
    (∃ n, s.read params = some n) ↔ s.Accepts params := by
  cases hget : params.get s.key with
  | none =>
      rw [read_absent hget, ← Option.isSome_iff_exists]
      constructor
      · intro hd
        refine ⟨fun {v _} hv => absurd (hv.symm.trans hget) (Option.some_ne_none v),
          fun hnone => ?_⟩
        rw [hnone] at hd
        exact Bool.noConfusion hd
      · intro ha
        by_contra hd
        obtain ⟨v, n, hv, -⟩ := ha.present (Option.not_isSome_iff_eq_none.mp hd)
        exact Option.some_ne_none v (hv.symm.trans hget)
  | some v =>
      cases hv : asU64 v with
      | none =>
          rw [read_other hget hv, ← Option.isSome_iff_exists]
          have hother : ∀ {w : Value} {n : Int}, params.get s.key = some w → w.number = some n →
              ¬ 0 ≤ n := fun hw hn hpos =>
            number_ne hv _ hpos (Option.some.inj (hw.symm.trans hget) ▸ hn)
          constructor
          · intro hd
            refine ⟨fun hw hn hpos => absurd hpos (hother hw hn), fun hnone => ?_⟩
            rw [hnone] at hd
            exact Bool.noConfusion hd
          · intro ha
            by_contra hd
            obtain ⟨w, n, hw, hn, hpos⟩ := ha.present (Option.not_isSome_iff_eq_none.mp hd)
            exact hother hw hn hpos
      | some k =>
          rw [read_number hget hv]
          have hnum := number_of_asU64 hv
          constructor
          · rintro ⟨n, hn⟩
            split_ifs at hn with hrange
            refine ⟨fun hw hn hpos => ?_, fun _ => ⟨v, _, hget, hnum, Int.natCast_nonneg _⟩⟩
            obtain rfl := Option.some.inj (hget.symm.trans hw)
            obtain rfl := Option.some.inj (hnum.symm.trans hn)
            exact ⟨Int.ofNat_le.mpr (UInt64.le_iff_toNat_le.mp hrange.1),
              Int.ofNat_le.mpr (UInt64.le_iff_toNat_le.mp hrange.2)⟩
          · intro ha
            obtain ⟨hlow, hhigh⟩ := ha.inRange hget hnum (Int.natCast_nonneg _)
            exact ⟨_, if_pos ⟨UInt64.le_iff_toNat_le.mpr (Int.ofNat_le.mp hlow),
              UInt64.le_iff_toNat_le.mpr (Int.ofNat_le.mp hhigh)⟩⟩

end Scalar

/-! ## The source's functions -/

theorem subghz_asU64 : Subghz.asU64 = asU64 := by
  funext v
  cases v <;> rfl

/-- A value that is not above the upper end of a `u64`. -/
theorem le_max (n : UInt64) : 0 ≤ n ∧ n ≤ 0xFFFFFFFFFFFFFFFF :=
  ⟨UInt64.le_iff_toNat_le.mpr (Nat.zero_le _),
    UInt64.le_iff_toNat_le.mpr (Nat.le_of_lt_succ n.toNat_lt)⟩

theorem irFrequency_read (params : Value) :
    Scalar.irFrequency.read params = some (Ir.frequency params) := by
  unfold Scalar.read Ir.frequency Scalar.irFrequency
  cases (params.get "frequency").bind asU64 with
  | none => rfl
  | some n => exact if_pos (le_max n)

theorem dutyPermille_read (params : Value) :
    Scalar.dutyPermille.read params = some (Ir.dutyPermille params) := by
  unfold Scalar.read Ir.dutyPermille Scalar.dutyPermille
  cases (params.get "duty_permille").bind asU64 with
  | none => rfl
  | some n => exact if_pos (le_max n)

theorem subghzFrequency_read (params : Value) :
    Scalar.subghzFrequency.read params = (Subghz.requiredFrequency params).toOption := by
  unfold Scalar.read Subghz.requiredFrequency Scalar.subghzFrequency
  rw [subghz_asU64]
  cases (params.get "frequency").bind asU64 with
  | none => rfl
  | some n => exact if_pos (le_max n)

/-- A check that refuses what is out of range. -/
theorem checked_toOption {p : Prop} [Decidable p] {n low high : UInt64} (e : UInt32 × String)
    (hp : p ↔ ¬ (low ≤ n ∧ n ≤ high)) :
    (if p then .error e else .ok n.toUInt32 : Except (UInt32 × String) UInt32).toOption
      = if low ≤ n ∧ n ≤ high then some n.toUInt32 else none := by
  by_cases h : low ≤ n ∧ n ≤ high
  · rw [if_pos h, if_neg (mt hp.mp (not_not.mpr h))]
    rfl
  · rw [if_neg h, if_pos (hp.mpr h)]
    rfl

theorem out_of_range {n low high : UInt64} : n < low ∨ n > high ↔ ¬ (low ≤ n ∧ n ≤ high) := by
  rw [not_and_or, UInt64.not_le, UInt64.not_le]

theorem lt_one_iff {n : UInt64} : n = 0 ↔ n < 1 := by
  rw [UInt64.lt_iff_toNat_lt, ← UInt64.toNat_inj]
  exact Nat.lt_one_iff.symm

theorem repeat_read (params : Value) :
    Scalar.repeat_.read params = (Subghz.repeatCount params).toOption := by
  unfold Scalar.read Subghz.repeatCount Scalar.repeat_
  rw [subghz_asU64]
  cases (params.get "repeat").bind asU64 with
  | none => rfl
  | some n => exact (checked_toOption _ ((or_congr_left lt_one_iff).trans out_of_range)).symm

theorem timeoutMs_read (params : Value) :
    Scalar.timeoutMs.read params = (Subghz.probeTimeoutMs params).toOption := by
  unfold Scalar.read Subghz.probeTimeoutMs Scalar.timeoutMs
  rw [subghz_asU64]
  cases (params.get "timeout_ms").bind asU64 with
  | none => rfl
  | some n => exact (checked_toOption _ out_of_range).symm

/-! ## The handlers -/

/-- The handlers that take numbers. -/
inductive Handler where
  | irTransmit
  | subghzTransmit
  | subghzCapture
  | subghzLinkProbe
  deriving DecidableEq, Repr

namespace Handler

/-- The numeric parameters that a handler uses when its checks are over, with the values
it uses; `none` is a refusal by one of them. -/
def uses : Handler → Value → Option (List (Scalar × UInt32))
  | .irTransmit, params =>
      match params.get "timings" with
      | some (.array a) =>
          if (Ir.timings a).isEmpty then none
          else if (Ir.timings a).length > Ir.maxEdges then none
          else some [(.irFrequency, Ir.frequency params), (.dutyPermille, Ir.dutyPermille params)]
      | _ => none
  | .subghzTransmit, params => do
      let frequency ← (Subghz.requiredFrequency params).toOption
      let _ ← (Subghz.requiredPreset params).toOption
      let _ ← (Subghz.parseEdges params).toOption
      let count ← (Subghz.repeatCount params).toOption
      return [(.subghzFrequency, frequency), (.repeat_, count)]
  | .subghzCapture, params => do
      let frequency ← (Subghz.requiredFrequency params).toOption
      let _ ← (Subghz.requiredPreset params).toOption
      return [(.subghzFrequency, frequency)]
  | .subghzLinkProbe, params => do
      let frequency ← (Subghz.requiredFrequency params).toOption
      let _ ← (Subghz.probePayload params).toOption
      let timeout ← (Subghz.probeTimeoutMs params).toOption
      return [(.subghzFrequency, frequency), (.timeoutMs, timeout)]

def scalars : Handler → List Scalar
  | .irTransmit => [.irFrequency, .dutyPermille]
  | .subghzTransmit => [.subghzFrequency, .repeat_]
  | .subghzCapture => [.subghzFrequency]
  | .subghzLinkProbe => [.subghzFrequency, .timeoutMs]

/-- The handler's other parameters pass their checks. -/
def OthersPass : Handler → Value → Prop
  | .irTransmit, params => ∃ a, params.get "timings" = some (.array a) ∧
      a.filterMap asU64 ≠ [] ∧ (a.filterMap asU64).length ≤ Ir.maxEdges
  | .subghzTransmit, params => (∃ preset, Subghz.requiredPreset params = .ok preset) ∧
      ∃ edges, Subghz.parseEdges params = .ok edges
  | .subghzCapture, params => ∃ preset, Subghz.requiredPreset params = .ok preset
  | .subghzLinkProbe, params => ∃ payload, Subghz.probePayload params = .ok payload

/-- A request that passes the handler's checks has its numbers used as they were sent,
and a default used only for what it does not hold. -/
def UsesExactly (h : Handler) (params : Value) : Prop :=
  ∀ us, h.uses params = some us → ∀ u ∈ us, u.1.Exact params u.2

theorem toOption_iff {ε α : Type} {a : α} : ∀ {x : Except ε α}, x.toOption = some a ↔ x = .ok a
  | .ok b => by
      rw [Except.toOption, Option.some.injEq, Except.ok.injEq]
  | .error e => iff_of_false (fun h => Option.some_ne_none a h.symm) fun h => by cases h

theorem one_of_map {us : List (Scalar × UInt32)} {s : Scalar} (h : us.map Prod.fst = [s]) :
    ∃ n, us = [(s, n)] := by
  match us, h with
  | [(_, n)], rfl => exact ⟨n, rfl⟩

theorem two_of_map {us : List (Scalar × UInt32)} {s t : Scalar} (h : us.map Prod.fst = [s, t]) :
    ∃ m n, us = [(s, m), (t, n)] := by
  match us, h with
  | [(_, m), (_, n)], rfl => exact ⟨m, n, rfl⟩

theorem forall_mem_two {α : Type} {p : α → Prop} {a b : α} : (∀ x ∈ [a, b], p x) ↔ p a ∧ p b := by
  rw [List.forall_mem_cons, List.forall_mem_singleton]

/-- The handler uses what its parameters' readers return, if all its checks pass. -/
theorem uses_iff : ∀ {h : Handler} {params : Value} {us : List (Scalar × UInt32)},
    h.uses params = some us ↔ h.OthersPass params ∧ us.map Prod.fst = h.scalars ∧
      ∀ u ∈ us, u.1.read params = some u.2
  | .irTransmit, params, us => by
      have hlen (a : List Value) : (Ir.timings a).length = (a.filterMap asU64).length :=
        List.length_map _
      constructor
      · intro h
        simp only [uses] at h
        split at h
        · rename_i a ha
          split_ifs at h with hempty hmany
          cases h
          refine ⟨⟨a, ha, fun hnil => hempty ?_, hlen a ▸ Nat.not_lt.mp hmany⟩, rfl,
            forall_mem_two.mpr ⟨irFrequency_read params, dutyPermille_read params⟩⟩
          rw [Ir.timings, hnil]
          rfl
        · cases h
      · rintro ⟨⟨a, ha, hne, hle⟩, hus, hread⟩
        obtain ⟨frequency, duty, rfl⟩ := two_of_map hus
        obtain ⟨hf, hd⟩ := forall_mem_two.mp hread
        obtain rfl := Option.some.inj ((irFrequency_read params).symm.trans hf)
        obtain rfl := Option.some.inj ((dutyPermille_read params).symm.trans hd)
        have hempty : ¬ (Ir.timings a).isEmpty = true := fun h =>
          hne (List.map_eq_nil_iff.mp (List.isEmpty_iff.mp h))
        simp only [uses, ha]
        rw [if_neg hempty, if_neg (Nat.not_lt.mpr (hlen a ▸ hle))]
  | .subghzTransmit, params, us => by
      simp only [uses, Option.bind_eq_bind, Option.bind_eq_some_iff, toOption_iff,
        Option.pure_def, Option.some.injEq, OthersPass, scalars]
      constructor
      · rintro ⟨frequency, hf, preset, hp, edges, he, count, hc, rfl⟩
        refine ⟨⟨⟨preset, hp⟩, edges, he⟩, rfl, forall_mem_two.mpr ⟨?_, ?_⟩⟩
        · rw [subghzFrequency_read, hf]
          rfl
        · rw [repeat_read, hc]
          rfl
      · rintro ⟨⟨⟨preset, hp⟩, edges, he⟩, hus, hread⟩
        obtain ⟨frequency, count, rfl⟩ := two_of_map hus
        obtain ⟨hf, hc⟩ := forall_mem_two.mp hread
        rw [subghzFrequency_read, toOption_iff] at hf
        rw [repeat_read, toOption_iff] at hc
        exact ⟨frequency, hf, preset, hp, edges, he, count, hc, rfl⟩
  | .subghzCapture, params, us => by
      simp only [uses, Option.bind_eq_bind, Option.bind_eq_some_iff, toOption_iff,
        Option.pure_def, Option.some.injEq, OthersPass, scalars]
      constructor
      · rintro ⟨frequency, hf, preset, hp, rfl⟩
        refine ⟨⟨preset, hp⟩, rfl, List.forall_mem_singleton.mpr ?_⟩
        rw [subghzFrequency_read, hf]
        rfl
      · rintro ⟨⟨preset, hp⟩, hus, hread⟩
        obtain ⟨frequency, rfl⟩ := one_of_map hus
        have hf := List.forall_mem_singleton.mp hread
        rw [subghzFrequency_read, toOption_iff] at hf
        exact ⟨frequency, hf, preset, hp, rfl⟩
  | .subghzLinkProbe, params, us => by
      simp only [uses, Option.bind_eq_bind, Option.bind_eq_some_iff, toOption_iff,
        Option.pure_def, Option.some.injEq, OthersPass, scalars]
      constructor
      · rintro ⟨frequency, hf, payload, hp, timeout, ht, rfl⟩
        refine ⟨⟨payload, hp⟩, rfl, forall_mem_two.mpr ⟨?_, ?_⟩⟩
        · rw [subghzFrequency_read, hf]
          rfl
        · rw [timeoutMs_read, ht]
          rfl
      · rintro ⟨⟨payload, hp⟩, hus, hread⟩
        obtain ⟨frequency, timeout, rfl⟩ := two_of_map hus
        obtain ⟨hf, ht⟩ := forall_mem_two.mp hread
        rw [subghzFrequency_read, toOption_iff] at hf
        rw [timeoutMs_read, toOption_iff] at ht
        exact ⟨frequency, hf, payload, hp, timeout, ht, rfl⟩

/-! ### What a handler does with them -/

/-- `ir.transmit` starts the transmitter with the numbers it uses, or it is refused. -/
theorem irTransmit_uses (hal : Ir.TxHal) (params : Value) (t : Ir.Tx) :
    (∃ e, Ir.transmit hal params t = ⟨t, [], .error e⟩) ∨
    ∃ frequency duty tx,
      uses .irTransmit params = some [(.irFrequency, frequency), (.dutyPermille, duty)] ∧
      (Ir.transmit hal params t).calls
        = [.setDataIsrCallback, .start frequency duty tx, .waitTermination] := by
  rcases Ir.transmit_cases hal params t with ⟨e, heq, -⟩ | ⟨a, tx', ha, hne, hle, -, heq⟩
  · exact .inl ⟨e, heq⟩
  · refine .inr ⟨_, _, _, uses_iff.mpr ⟨⟨a, ha, hne, hle⟩, rfl, ?_⟩, by rw [heq]⟩
    exact forall_mem_two.mpr ⟨irFrequency_read params, dutyPermille_read params⟩

/-- `tx_yield` leaves the count alone. -/
theorem txYield_repeat {t t' : Subghz.Tx} {y : Subghz.LevelDuration}
    (h : Subghz.txYield t = some (y, t')) : t'.repeat_ = t.repeat_ := by
  unfold Subghz.txYield at h
  split at h
  · cases h
    rfl
  split_ifs at h
  · cases h
    rfl
  · cases h
    rfl
  split at h
  · cases h
  · dsimp only at h
    split_ifs at h <;> cases h <;> rfl

theorem txYields_repeat : ∀ {n : Nat} {t t' : Subghz.Tx} {ys : List Subghz.LevelDuration},
    Subghz.txYields n t = some (ys, t') → t'.repeat_ = t.repeat_
  | 0, _, _, _, h => by
      cases h
      rfl
  | n + 1, t, t', ys, h => by
      simp only [Subghz.txYields, Option.bind_eq_bind, Option.bind_eq_some_iff, Option.pure_def,
        Option.some.injEq, Prod.exists] at h
      obtain ⟨y, t₁, hy, zs, t₂, hzs, heq⟩ := h
      cases heq
      exact (txYields_repeat hzs).trans (txYield_repeat hy)

/-- `subghz.transmit` sets the frequency and publishes the count that it uses. -/
theorem subghzTransmit_uses {hal : Subghz.RadioHal} {active : Bool} {params : Value}
    {r : Subghz.Radio} {f : UInt32} :
    .setFrequency f ∈ (Subghz.transmit hal active params r).calls →
      uses .subghzTransmit params = some [(.subghzFrequency, f),
        (.repeat_, (Subghz.transmit hal active params r).radio.tx.repeat_)] := by
  unfold Subghz.transmit
  by_cases hbusy : (active || r.tx.ptr.isSome) = true
  · rw [if_pos hbusy]
    exact fun h => absurd h List.not_mem_nil
  rw [if_neg hbusy]
  cases hf : Subghz.requiredFrequency params with
  | error e => exact fun h => absurd h List.not_mem_nil
  | ok frequency =>
  cases hp : Subghz.requiredPreset params with
  | error e => exact fun h => absurd h List.not_mem_nil
  | ok preset =>
  cases he : Subghz.parseEdges params with
  | error e => exact fun h => absurd h List.not_mem_nil
  | ok edges =>
  cases hc : Subghz.repeatCount params with
  | error e => exact fun h => absurd h List.not_mem_nil
  | ok count =>
  have huses : uses .subghzTransmit params
      = some [(.subghzFrequency, frequency), (.repeat_, count)] := by
    simp only [uses, hf, hp, he, hc]
    rfl
  dsimp only
  split_ifs
  · exact fun h => absurd h List.not_mem_nil
  · exact fun h => absurd h List.not_mem_nil
  · exact fun h => absurd h (by simp)
  · intro h
    obtain rfl : f = frequency := by simpa [Subghz.handBack] using h
    exact huses
  all_goals
    intro h
    obtain rfl : f = frequency := by simpa [Subghz.handBack] using h
    refine huses.trans ?_
    cases hy : Subghz.txYields hal.yielded (.publish edges count) with
    | none => rfl
    | some y =>
        dsimp only [Option.map_some, Option.getD_some]
        rw [txYields_repeat hy]
        rfl

/-- `subghz.capture` sets the frequency that it uses. -/
theorem subghzCapture_uses {hal : Subghz.RadioHal} {params : Value}
    {c : Capture Subghz.config} {r : Subghz.Radio} {f : UInt32} :
    .setFrequency f ∈ (Subghz.startRadio hal params c r).2 →
      uses .subghzCapture params = some [(.subghzFrequency, f)] := by
  unfold Subghz.startRadio
  by_cases hactive : c.active = true
  · rw [if_pos hactive]
    exact fun h => absurd h List.not_mem_nil
  rw [if_neg hactive]
  cases hf : Subghz.requiredFrequency params with
  | error e => exact fun h => absurd h List.not_mem_nil
  | ok frequency =>
  cases hp : Subghz.requiredPreset params with
  | error e => exact fun h => absurd h List.not_mem_nil
  | ok preset =>
  have huses : uses .subghzCapture params = some [(.subghzFrequency, frequency)] := by
    simp only [uses, hf, hp]
    rfl
  dsimp only
  split_ifs
  · exact fun h => absurd h List.not_mem_nil
  · exact fun h => absurd h List.not_mem_nil
  · exact fun h => absurd h (by simp)
  cases c.ensureCaptureBuffer hal.alloc with
  | none => exact fun h => absurd h (by simp)
  | some sb =>
      intro h
      obtain rfl : f = frequency := by simpa using h
      exact huses

/-- The loop of `link_probe` asks the worker once in each millisecond. -/
theorem probeLoop_count (hal : Subghz.RadioHal) : ∀ (left waited : Nat) (p : Subghz.Probe),
    (Subghz.probeLoop hal left waited p).2.count .workerAvailable = left
  | 0, _, _ => rfl
  | left + 1, waited, p => by
      have hturn : (Subghz.probeTurn hal waited p).2.count .workerAvailable = 1 := by
        unfold Subghz.probeTurn
        dsimp only
        split_ifs <;> rfl
      rw [Subghz.probeLoop, List.count_append, hturn, probeLoop_count hal left, Nat.add_comm]

/-- `link_probe` runs on a frequency that is valid and allowed, for the time it uses. -/
theorem linkProbe_uses {hal : Subghz.RadioHal} {active : Bool} {params : Value}
    {r : Subghz.Radio} :
    .workerStart true ∈ (Subghz.linkProbe hal active params r).calls →
      ∃ frequency timeout,
        uses .subghzLinkProbe params
          = some [(.subghzFrequency, frequency), (.timeoutMs, timeout)] ∧
        hal.frequencyValid frequency = true ∧ hal.regionAllowed frequency = true ∧
        (Subghz.linkProbe hal active params r).calls.count .workerAvailable = timeout.toNat := by
  unfold Subghz.linkProbe
  by_cases hbusy : (active || r.tx.ptr.isSome) = true
  · rw [if_pos hbusy]
    exact fun h => absurd h List.not_mem_nil
  rw [if_neg hbusy]
  cases hf : Subghz.requiredFrequency params with
  | error e => exact fun h => absurd h List.not_mem_nil
  | ok frequency =>
  cases hp : Subghz.probePayload params with
  | error e => exact fun h => absurd h List.not_mem_nil
  | ok payload =>
  cases ht : Subghz.probeTimeoutMs params with
  | error e => exact fun h => absurd h List.not_mem_nil
  | ok timeout =>
  have huses : uses .subghzLinkProbe params
      = some [(.subghzFrequency, frequency), (.timeoutMs, timeout)] := by
    simp only [uses, hf, hp, ht]
    rfl
  have hcount := probeLoop_count hal timeout.toNat 0 { readTotal := 0, rxPreview := [] }
  dsimp only
  split_ifs with hdevice hvalid hallowed halloc hstart
  · exact fun h => absurd h List.not_mem_nil
  · exact fun h => absurd h List.not_mem_nil
  · exact fun h => absurd h List.not_mem_nil
  · exact fun h => absurd h (by simp)
  · exact fun h => absurd h (by simp)
  all_goals
    intro _
    rw [Bool.not_eq_true'] at hvalid hallowed
    refine ⟨frequency, timeout, huses, Bool.not_eq_false _ ▸ hvalid,
      Bool.not_eq_false _ ▸ hallowed, ?_⟩
    simp [List.count_append, hcount]

/-- **When the numbers of a request are used as they were sent.**  For every handler and
every request: of one that no check of the handler refuses, exactly if each numeric
parameter that it holds is an integer from 0 below 2^32. -/
theorem uses_exactly_iff (h : Handler) (params : Value) :
    h.UsesExactly params ↔
      (h.OthersPass params → (∀ s ∈ h.scalars, s.Accepts params) →
        ∀ s ∈ h.scalars, s.Fits params) := by
  constructor
  · intro hexact hothers haccepts s hs
    have hreads : ∀ s ∈ h.scalars, s.read params = some ((s.read params).getD 0) := by
      intro s hs
      obtain ⟨n, hn⟩ := Scalar.read_isSome_iff.mpr (haccepts s hs)
      rw [hn]
      rfl
    have huses : h.uses params = some (h.scalars.map fun s => (s, (s.read params).getD 0)) := by
      refine uses_iff.mpr ⟨hothers, ?_, List.forall_mem_map.mpr hreads⟩
      rw [List.map_map]
      exact List.map_id _
    exact (Scalar.exact_iff (hreads s hs)).mp (hexact _ huses _ (List.mem_map_of_mem hs))
  · intro hfits us hus u hu
    obtain ⟨hothers, hscalars, hreads⟩ := uses_iff.mp hus
    have haccepts : ∀ s ∈ h.scalars, s.Accepts params := by
      rw [← hscalars]
      exact List.forall_mem_map.mpr fun u hu => Scalar.read_isSome_iff.mp ⟨u.2, hreads u hu⟩
    have hmem : u.1 ∈ h.scalars := hscalars ▸ List.mem_map_of_mem hu
    exact (Scalar.exact_iff (hreads u hu)).mpr (hfits hothers haccepts _ hmem)

/-- A frequency of 2^32 + 433920000 Hz is cut to 433920000 Hz, and a duty cycle of -1 is
taken for none. -/
theorem uses_inexactly :
    ¬ UsesExactly .subghzCapture
      (.map [("frequency", .u64 4728887296), ("preset", .text "ook650")]) ∧
    ¬ UsesExactly .irTransmit
      (.map [("duty_permille", .i64 (-1)), ("timings", .array [.u64 500])]) := by
  constructor
  · intro h
    rcases h [(.subghzFrequency, 433920000)] rfl _ (List.mem_singleton_self _) with
      ⟨hnone, -⟩ | ⟨v, hv, hn⟩
    · exact Option.some_ne_none _ hnone
    · cases hv
      exact absurd hn (by decide)
  · intro h
    rcases h [(.irFrequency, 38000), (.dutyPermille, 330)] rfl _
        (List.mem_cons_of_mem _ (List.mem_singleton_self _)) with ⟨hnone, -⟩ | ⟨v, hv, hn⟩
    · exact Option.some_ne_none _ hnone
    · cases hv
      exact absurd hn (by decide)

end Handler

end FlipLink.Params
