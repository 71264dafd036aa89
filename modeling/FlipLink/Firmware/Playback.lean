/-
# `FlipLink.Firmware.Playback` — what `tx_yield` hands to the radio

`tx_yield` is called back by the radio for one edge after the other.  Its place in
the signal is in two statics, the position among the edges and the number of whole
turns behind it, and every call stores both anew.  After `k` calls they are `k` modulo
and divided by the number of edges (`Tx.at_`); the edges over, they stay where they are,
and every further call returns the reset value (`yield_over`).
-/
import FlipLink.Firmware.SubghzRadio

namespace FlipLink.Subghz

/-! ## The place in the signal -/

section Playback

variable (edges : List TxEdge) (repeat_ : UInt32)

/-- How many edges there are to play. -/
def total : Nat := edges.length * repeat_.toNat

/-- The statics after `k` calls of `tx_yield`. -/
def Tx.at_ (k : Nat) : Tx :=
  { ptr := some edges
    len := UInt32.ofNat edges.length
    pos := UInt32.ofNat (k % edges.length)
    repeat_
    repeatPos := UInt32.ofNat (k / edges.length) }

/-- The `LevelDuration` of an edge. -/
def TxEdge.levelDuration (e : TxEdge) : LevelDuration :=
  { duration := e.durationUs, level := if e.level then 2 else 1 }

/-- What the `k`-th call is to return. -/
def played (k : Nat) : LevelDuration :=
  if k < total edges repeat_ then
    ((edges[k % edges.length]?).map TxEdge.levelDuration).getD levelDurationReset
  else levelDurationReset

end Playback

/-- An accepted duration fits the field of 30 bits. -/
theorem TxEdge.InRange.levelDuration_eq {e : TxEdge} (h : e.InRange) :
    Subghz.levelDuration e.level e.durationUs = e.levelDuration := by
  have hmask : e.durationUs &&& 0x3fffffff = e.durationUs := by
    refine UInt32.toNat_inj.mp ?_
    have hpow : (0x3fffffff : UInt32).toNat = 2 ^ 30 - 1 := rfl
    rw [UInt32.toNat_and, hpow, Nat.and_two_pow_sub_one_eq_mod]
    have := h.2
    exact Nat.mod_eq_of_lt (by omega)
  rw [Subghz.levelDuration, hmask, TxEdge.levelDuration]

theorem TxEdge.levelDuration_ne_reset : ∀ e : TxEdge, e.levelDuration ≠ levelDurationReset
  | ⟨true, _⟩, h => absurd (congrArg LevelDuration.level h) (show ¬(2 : UInt32) = 0 by decide)
  | ⟨false, _⟩, h => absurd (congrArg LevelDuration.level h) (show ¬(1 : UInt32) = 0 by decide)

/-- The next place, within a turn and at its end. -/
theorem succ_place {n k : Nat} (hn : 0 < n) :
    (k % n + 1 < n ∧ (k + 1) % n = k % n + 1 ∧ (k + 1) / n = k / n) ∨
      (k % n + 1 = n ∧ (k + 1) % n = 0 ∧ (k + 1) / n = k / n + 1) := by
  have hk := Nat.div_add_mod k n
  have hlt := Nat.mod_lt k hn
  generalize k / n = q at hk ⊢
  generalize k % n = m at hk hlt ⊢
  subst hk
  rcases Nat.lt_or_ge (m + 1) n with h | h
  · left
    rw [Nat.add_assoc, Nat.mul_add_mod, Nat.mod_eq_of_lt h, Nat.mul_add_div hn,
      Nat.div_eq_of_lt h]
    exact ⟨h, rfl, rfl⟩
  · right
    have hm : m + 1 = n := Nat.le_antisymm hlt h
    rw [Nat.add_assoc, hm, ← Nat.mul_succ, Nat.mul_mod_right, Nat.mul_div_cancel_left _ hn]
    exact ⟨rfl, rfl, rfl⟩

/-- The turns over, `tx_yield` changes nothing. -/
theorem txYield_over {t : Tx} {edges : List TxEdge} (hptr : t.ptr = some edges)
    (hover : t.repeatPos ≥ t.repeat_) : txYield t = some (levelDurationReset, t) := by
  rw [txYield, hptr]
  dsimp only
  rw [if_pos hover, ite_self]

/-- Before that it returns the edge at its place. -/
theorem txYield_edge {t : Tx} {edges : List TxEdge} {e : TxEdge} (hptr : t.ptr = some edges)
    (hlen : ¬ t.len = 0) (hmore : ¬ t.repeatPos ≥ t.repeat_) (he : edges[t.pos.toNat]? = some e) :
    txYield t = some (levelDuration e.level e.durationUs,
      if t.pos + 1 ≥ t.len then { t with pos := 0, repeatPos := t.repeatPos + 1 }
      else { t with pos := t.pos + 1 }) := by
  rw [txYield, hptr]
  dsimp only
  rw [if_neg hlen, if_neg hmore, he]

section Playback

variable {edges : List TxEdge} {repeat_ : UInt32} (hne : edges ≠ [])
  (hlen : edges.length ≤ maxEdges) (hrepeat : repeat_.toNat ≤ 100)

theorem toNat_small {n : Nat} (h : n ≤ maxEdges) : (UInt32.ofNat n).toNat = n :=
  UInt32.toNat_ofNat_of_lt (Nat.lt_of_le_of_lt h (by decide))

theorem ofNat_ne_zero {n : Nat} (hpos : 0 < n) (h : n ≤ maxEdges) : ¬ UInt32.ofNat n = 0 := by
  intro h0
  have hnat := congrArg UInt32.toNat h0
  rw [toNat_small h] at hnat
  exact absurd hnat (Nat.ne_of_gt hpos)

include hne hlen hrepeat

/-- A call before the end returns the edge at its place, and moves on. -/
theorem yield_edge (hrange : ∀ e ∈ edges, e.InRange) {k : Nat} (hk : k < total edges repeat_) :
    txYield (.at_ edges repeat_ k) = some (played edges repeat_ k, .at_ edges repeat_ (k + 1)) := by
  have hpos : 0 < edges.length := List.length_pos_iff.mpr hne
  have hmod : k % edges.length < edges.length := Nat.mod_lt k hpos
  have hdiv : k / edges.length < repeat_.toNat := Nat.div_lt_of_lt_mul hk
  have hmore : ¬ UInt32.ofNat (k / edges.length) ≥ repeat_ := by
    rw [ge_iff_le, UInt32.le_iff_toNat_le, toNat_small (by simp only [maxEdges]; omega)]
    omega
  have hget : edges[(UInt32.ofNat (k % edges.length)).toNat]? = some edges[k % edges.length] := by
    rw [toNat_small (by omega), List.getElem?_eq_getElem hmod]
  have hplayed : played edges repeat_ k
      = Subghz.levelDuration edges[k % edges.length].level edges[k % edges.length].durationUs := by
    rw [played, if_pos hk, List.getElem?_eq_getElem hmod,
      (hrange _ (List.getElem_mem hmod)).levelDuration_eq]
    rfl
  have hnext : UInt32.ofNat (k % edges.length) + 1 = UInt32.ofNat (k % edges.length + 1) :=
    (UInt32.ofNat_add _ _).symm
  have hturn : UInt32.ofNat (k / edges.length) + 1 = UInt32.ofNat (k / edges.length + 1) :=
    (UInt32.ofNat_add _ _).symm
  have hwrap : UInt32.ofNat (k % edges.length + 1) ≥ UInt32.ofNat edges.length ↔
      edges.length ≤ k % edges.length + 1 := by
    rw [ge_iff_le, UInt32.le_iff_toNat_le, toNat_small hlen, toNat_small (by omega)]
  rw [txYield_edge rfl (ofNat_ne_zero hpos hlen) hmore hget, hplayed]
  rcases succ_place (k := k) hpos with ⟨hlt, hm, hd⟩ | ⟨heq, hm, hd⟩
  · rw [if_neg]
    · simp only [Tx.at_, hnext, hm, hd]
    · show ¬ UInt32.ofNat (k % edges.length) + 1 ≥ UInt32.ofNat edges.length
      rw [hnext, hwrap]
      exact Nat.not_le.mpr hlt
  · rw [if_pos]
    · simp only [Tx.at_, hturn, hm, hd]
      rfl
    · show UInt32.ofNat (k % edges.length) + 1 ≥ UInt32.ofNat edges.length
      rw [hnext, hwrap]
      exact Nat.le_of_eq heq.symm

omit hlen in
/-- A call after the end returns the reset value, and stays. -/
theorem yield_over :
    txYield (.at_ edges repeat_ (total edges repeat_))
      = some (levelDurationReset, .at_ edges repeat_ (total edges repeat_)) := by
  have hpos : 0 < edges.length := List.length_pos_iff.mpr hne
  have hover : UInt32.ofNat (total edges repeat_ / edges.length) ≥ repeat_ := by
    rw [ge_iff_le, UInt32.le_iff_toNat_le, total, Nat.mul_div_cancel_left _ hpos,
      toNat_small (by simp only [maxEdges]; omega)]
  exact txYield_over rfl hover

/-- The `k`-th call, before the end and after it. -/
theorem yield_eq (hrange : ∀ e ∈ edges, e.InRange) (k : Nat) :
    txYield (.at_ edges repeat_ (min k (total edges repeat_)))
      = some (played edges repeat_ k, .at_ edges repeat_ (min (k + 1) (total edges repeat_))) := by
  rcases Nat.lt_or_ge k (total edges repeat_) with hk | hk
  · rw [Nat.min_eq_left (Nat.le_of_lt hk), Nat.min_eq_left hk]
    exact yield_edge hne hlen hrepeat hrange hk
  · rw [Nat.min_eq_right hk, Nat.min_eq_right (Nat.le_succ_of_le hk), played,
      if_neg (Nat.not_lt.mpr hk)]
    exact yield_over hne hrepeat

/-- Any number of calls. -/
theorem yields_eq (hrange : ∀ e ∈ edges, e.InRange) : ∀ m k : Nat,
    txYields m (.at_ edges repeat_ (min k (total edges repeat_)))
      = some ((List.range' k m).map (played edges repeat_),
          .at_ edges repeat_ (min (k + m) (total edges repeat_)))
  | 0, _ => rfl
  | m + 1, k => by
      rw [txYields, yield_eq hne hlen hrepeat hrange k]
      dsimp only [Option.bind_eq_bind, Option.bind_some]
      rw [yields_eq hrange m (k + 1), Nat.add_right_comm, List.range'_succ, List.map_cons]
      rfl

end Playback

/-! ## The count -/

/-- The calls up to the end return edges, the others the reset value. -/
theorem played_ne_reset {edges : List TxEdge} {repeat_ : UInt32} (hne : edges ≠ []) (k : Nat) :
    played edges repeat_ k ≠ levelDurationReset ↔ k < total edges repeat_ := by
  have hpos : 0 < edges.length := List.length_pos_iff.mpr hne
  rw [played]
  split_ifs with hk
  · rw [List.getElem?_eq_getElem (Nat.mod_lt k hpos)]
    exact iff_of_true (TxEdge.levelDuration_ne_reset _) hk
  · exact iff_of_false (not_not.mpr rfl) hk

theorem count_played {edges : List TxEdge} {repeat_ : UInt32} (hne : edges ≠ []) : ∀ m : Nat,
    (((List.range' 0 m).map (played edges repeat_)).filter (· ≠ levelDurationReset)).length
      = min m (total edges repeat_)
  | 0 => (Nat.zero_min _).symm
  | m + 1 => by
      have hiff := @played_ne_reset _ repeat_ hne m
      rw [List.range'_1_concat, List.map_append, List.filter_append, List.length_append,
        count_played hne m, Nat.zero_add, List.map_singleton, List.filter_singleton]
      by_cases hm : m < total edges repeat_
      · rw [decide_eq_true (hiff.mpr hm), cond_true, List.length_singleton]
        omega
      · rw [decide_eq_false (mt hiff.mp hm), cond_false, List.length_nil]
        omega

/-- What `transmit` reports when it succeeds. -/
theorem transmit_sent {hal : RadioHal} {active : Bool} {params v : Value} {r : Radio}
    (h : (transmit hal active params r).result = .ok v) :
    ∃ edges repeat_, parseEdges params = .ok edges ∧ repeatCount params = .ok repeat_ ∧
      v = .map [("sent", .u64 (.ofNat (saturate (total edges repeat_))))] := by
  unfold transmit at h
  split at h
  · exact nomatch h
  split at h
  · exact nomatch h
  split at h
  · exact nomatch h
  split at h
  · exact nomatch h
  rename_i edges hedges
  split at h
  · exact nomatch h
  rename_i repeat_ hrepeat
  split_ifs at h
  dsimp only at h
  split_ifs at h
  exact ⟨edges, repeat_, hedges, hrepeat, (Except.ok.inj h).symm⟩

theorem saturate_total {edges : List TxEdge} {repeat_ : UInt32} (hlen : edges.length ≤ maxEdges)
    (hrepeat : repeat_.toNat ≤ 100) : saturate (total edges repeat_) = total edges repeat_ := by
  have hmul : total edges repeat_ ≤ maxEdges * 100 := Nat.mul_le_mul hlen hrepeat
  simp only [maxEdges] at hmul
  exact Nat.min_eq_left (by omega)

/-- **Sub-GHz playback is exact.**  Of any number of calls of `tx_yield` on the edges
that `transmit` has published none reads outside them; the `k`-th returns the edge at
`k` modulo their number, and the reset value from the end of the last turn on; and
once that has been returned, as many edges have been as `transmit` reports. -/
theorem playback_exact {edges : List TxEdge} {repeat_ : UInt32} (hne : edges ≠ [])
    (hlen : edges.length ≤ maxEdges) (hrange : ∀ e ∈ edges, e.InRange)
    (hrepeat : 1 ≤ repeat_.toNat ∧ repeat_.toNat ≤ 100) (m : Nat) :
    ∃ ys t, txYields m (.publish edges repeat_) = some (ys, t) ∧ ys.length = m ∧
      (∀ k < m, k < edges.length * repeat_.toNat →
        ∃ e, edges[k % edges.length]? = some e ∧
          ys[k]? = some { duration := e.durationUs, level := if e.level then 2 else 1 }) ∧
      (∀ k < m, edges.length * repeat_.toNat ≤ k → ys[k]? = some levelDurationReset) ∧
      ∀ {hal : RadioHal} {active : Bool} {params v : Value} {r : Radio},
        parseEdges params = .ok edges → repeatCount params = .ok repeat_ →
        (transmit hal active params r).result = .ok v → levelDurationReset ∈ ys →
        v = .map [("sent", .u64 (.ofNat (ys.filter (· ≠ levelDurationReset)).length))] := by
  have hpos : 0 < edges.length := List.length_pos_iff.mpr hne
  have hyields := yields_eq hne hlen hrepeat.2 hrange m 0
  have hstart : Tx.at_ edges repeat_ (min 0 (total edges repeat_)) = .publish edges repeat_ := by
    rw [Nat.zero_min, Tx.at_, Nat.zero_mod, Nat.zero_div]
    rfl
  rw [hstart] at hyields
  have hget : ∀ k < m, ((List.range' 0 m).map (played edges repeat_))[k]?
      = some (played edges repeat_ k) := by
    intro k hk
    rw [List.getElem?_map, List.getElem?_range' hk, Nat.zero_add, Nat.one_mul]
    rfl
  refine ⟨_, _, hyields, by rw [List.length_map, List.length_range'], ?_, ?_, ?_⟩
  · intro k hk hlt
    have hmod := Nat.mod_lt k hpos
    refine ⟨_, List.getElem?_eq_getElem hmod, ?_⟩
    rw [hget k hk, played, if_pos (show k < total edges repeat_ from hlt),
      List.getElem?_eq_getElem hmod]
    rfl
  · intro k hk hle
    rw [hget k hk, played, if_neg (show ¬ k < total edges repeat_ from Nat.not_lt.mpr hle)]
  · intro hal active params v r hedges hrep hok hreset
    obtain ⟨edges', repeat', hedges', hrep', rfl⟩ := transmit_sent hok
    obtain rfl := Except.ok.inj (hedges.symm.trans hedges')
    obtain rfl := Except.ok.inj (hrep.symm.trans hrep')
    obtain ⟨k, hk, hplayed⟩ := List.mem_map.mp hreset
    have hover : total edges repeat_ ≤ k :=
      Nat.not_lt.mp fun hlt => (played_ne_reset hne k).mpr hlt hplayed
    have hkm : k < m := by
      have := List.mem_range'_1.mp hk
      omega
    rw [count_played hne m, Nat.min_eq_right (by omega), saturate_total hlen hrepeat.2]

/-- Two edges, played twice, and two calls more. -/
theorem playback_exact_twice :
    ∃ ys t, txYields 6 (.publish [⟨true, 100⟩, ⟨false, 200⟩] 2) = some (ys, t) ∧
      ys[3]? = some { duration := 200, level := 1 } ∧ ys[4]? = some levelDurationReset := by
  have hrange : ∀ e ∈ ([⟨true, 100⟩, ⟨false, 200⟩] : List TxEdge), e.InRange :=
    List.forall_mem_cons.mpr ⟨⟨by decide, by decide⟩,
      List.forall_mem_singleton.mpr ⟨by decide, by decide⟩⟩
  obtain ⟨ys, t, hys, -, hedge, hreset, -⟩ :=
    playback_exact (by decide) (by decide) hrange (show 1 ≤ (2 : UInt32).toNat ∧ _ by decide) 6
  obtain ⟨e, he, hy⟩ := hedge 3 (by decide) (by decide)
  cases he
  exact ⟨ys, t, hys, hy, hreset 4 (by decide) (by decide)⟩

end FlipLink.Subghz
