/-
# `Lib.Collation` — numbers in the order of texts

Texts are in the order of their characters.  Numbers of as many digits are in the same
order as their digits; one of fewer digits is compared with the front of the other
(`digits_lt_iff`), so that `10` is before `9`.
-/
import FlipLink.Lib.Text
import Mathlib.Data.String.Basic

namespace Lib.Text

/-! ## Texts with a common front -/

theorem append_lt_append_iff (c : List Char) {a b : List Char} : c ++ a < c ++ b ↔ a < b := by
  induction c with
  | nil => exact Iff.rfl
  | cons x c ih => rw [List.cons_append, List.cons_append, List.cons_lt_cons_self, ih]

/-- A text is compared with the front of a longer one. -/
theorem append_lt_iff {p a : List Char} (hlen : p.length = a.length) (s : List Char) :
    p ++ s < a ↔ p < a := by
  induction p generalizing a with
  | nil =>
      obtain rfl : a = [] := List.length_eq_zero_iff.mp hlen.symm
      exact iff_of_false (List.not_lt_nil _) (List.not_lt_nil _)
  | cons x p ih =>
      cases a with
      | nil => cases hlen
      | cons y a =>
          rw [List.cons_append, List.cons_lt_cons_iff, List.cons_lt_cons_iff,
            ih (Nat.succ.inj hlen)]

/-! ## Digits -/

theorem ofDigitChars_lt {a b : List Char} (ha : ∀ c ∈ a, c.isDigit = true)
    (hlen : a.length = b.length) {i j : Nat} (h : i < j) :
    Nat.ofDigitChars 10 a i < Nat.ofDigitChars 10 b j := by
  induction a generalizing b i j with
  | nil =>
      obtain rfl : b = [] := List.length_eq_zero_iff.mp hlen.symm
      rw [Nat.ofDigitChars_nil, Nat.ofDigitChars_nil]
      exact h
  | cons x a ih =>
      cases b with
      | nil => cases hlen
      | cons y b =>
          obtain ⟨hx, ha⟩ := List.forall_mem_cons.mp ha
          have hdigit := (isDigit_iff.mp hx).2
          have hzero : '0'.toNat = 48 := rfl
          rw [Nat.ofDigitChars_cons, Nat.ofDigitChars_cons]
          refine ih ha (Nat.succ.inj hlen) ?_
          omega

/-- The greater text is the greater number. -/
theorem ofDigitChars_lt_of_lt {a b : List Char} (ha : ∀ c ∈ a, c.isDigit = true)
    (hlen : a.length = b.length) (h : a < b) (i : Nat) :
    Nat.ofDigitChars 10 a i < Nat.ofDigitChars 10 b i := by
  induction a generalizing b i with
  | nil =>
      obtain rfl : b = [] := List.length_eq_zero_iff.mp hlen.symm
      exact absurd h (List.lt_irrefl _)
  | cons x a ih =>
      cases b with
      | nil => cases hlen
      | cons y b =>
          obtain ⟨hx, ha⟩ := List.forall_mem_cons.mp ha
          rw [Nat.ofDigitChars_cons, Nat.ofDigitChars_cons]
          rcases List.cons_lt_cons_iff.mp h with hxy | ⟨rfl, hab⟩
          · have hlow := (isDigit_iff.mp hx).1
            have hzero : '0'.toNat = 48 := rfl
            have hxy : x.toNat < y.toNat := hxy
            refine ofDigitChars_lt ha (Nat.succ.inj hlen) ?_
            omega
          · exact ih ha (Nat.succ.inj hlen) hab _

theorem lt_iff_ofDigitChars_lt {a b : List Char} (ha : ∀ c ∈ a, c.isDigit = true)
    (hb : ∀ c ∈ b, c.isDigit = true) (hlen : a.length = b.length) :
    a < b ↔ Nat.ofDigitChars 10 a 0 < Nat.ofDigitChars 10 b 0 := by
  refine ⟨fun h => ofDigitChars_lt_of_lt ha hlen h 0, fun h => ?_⟩
  rcases lt_trichotomy a b with hlt | rfl | hgt
  · exact hlt
  · exact absurd h (Nat.lt_irrefl _)
  · exact absurd (ofDigitChars_lt_of_lt hb hlen.symm hgt 0) h.not_gt

theorem ofDigitChars_lt_pow {s : List Char} (hs : ∀ c ∈ s, c.isDigit = true) :
    Nat.ofDigitChars 10 s 0 < 10 ^ s.length := by
  have hlt := ofDigitChars_lt hs (List.length_replicate (n := s.length) (a := '0')).symm
    Nat.zero_lt_one
  rwa [Nat.ofDigitChars_replicate_zero, Nat.mul_one] at hlt

theorem length_digits_mono {m n : Nat} (h : m ≤ n) : (digits m).length ≤ (digits n).length := by
  induction n using Nat.strong_induction_on generalizing m with
  | _ n ih =>
      by_cases hm : m < 10
      · rw [digits, Nat.toDigits_of_lt_base hm]
        exact List.length_pos_iff.mpr Nat.toDigits_ne_nil
      · have hdigits : ∀ k : Nat, 10 ≤ k →
            (digits k).length = (digits (k / 10)).length + 1 := by
          intro k hk
          rw [digits, Nat.toDigits_of_base_le (by decide) hk, List.length_append]
          rfl
        rw [hdigits m (Nat.not_lt.mp hm), hdigits n (by omega)]
        exact Nat.succ_le_succ (ih (n / 10) (by omega) (Nat.div_le_div_right h))

/-- **The order of digits.**  A number is before one that is no greater exactly if its first
digits, as many as the other has, are a number less than that. -/
theorem digits_lt_iff {m n : Nat} (h : m ≤ n) :
    digits n < digits m ↔ n / 10 ^ ((digits n).length - (digits m).length) < m := by
  have hlen := length_digits_mono h
  have hm : ∀ c ∈ digits m, c.isDigit = true := fun c hc => isDigit_of_mem_digits hc
  have hn : ∀ c ∈ digits n, c.isDigit = true := fun c hc => isDigit_of_mem_digits hc
  obtain ⟨front, rest, hfront, hsplit⟩ : ∃ front rest, front.length = (digits m).length ∧
      front ++ rest = digits n :=
    ⟨_, _, (List.length_take_of_le hlen), List.take_append_drop (digits m).length (digits n)⟩
  have hrest : rest.length = (digits n).length - (digits m).length := by
    rw [← hsplit, List.length_append]
    omega
  rw [← hsplit] at hn
  have hvalue : n = 10 ^ rest.length * Nat.ofDigitChars 10 front 0
      + Nat.ofDigitChars 10 rest 0 := by
    rw [← Nat.ofDigitChars_eq_ofDigitChars_zero, ← Nat.ofDigitChars_append, hsplit]
    exact Nat.ofDigitChars_ten_toDigits.symm
  have hlt := ofDigitChars_lt_pow fun c hc => hn c (List.mem_append_right front hc)
  have hdiv : n / 10 ^ rest.length = Nat.ofDigitChars 10 front 0 := by
    rw [hvalue, Nat.mul_add_div (Nat.pow_pos (by decide)), Nat.div_eq_of_lt hlt, Nat.add_zero]
  rw [← hrest, hdiv, ← hsplit, append_lt_iff hfront,
    lt_iff_ofDigitChars_lt (fun c hc => hn c (List.mem_append_left rest hc)) hm hfront, digits,
    Nat.ofDigitChars_ten_toDigits]

end Lib.Text
