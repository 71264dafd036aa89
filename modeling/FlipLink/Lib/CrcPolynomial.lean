/-
# `Lib.CrcPolynomial` — the shift register divides

A register of `w` bits is a polynomial over GF(2) of degree below `w`, bit `i` the
coefficient of `X ^ i` (`toPoly`); exclusive or is addition.  A shift of the register
of `Lib.Crc` multiplies by `X` and takes the modulus `X ^ w + poly` off again when
the product has got too long: the carry that is dropped is the leading term
(`shift_eq`).  So what symbols make of a register is the remainder of the message that
they spell (`toPoly_foldl_feed`).

A string of bits is read with the first bit as the leading coefficient (`ofBits`).
Where two strings differ in `w` neighbouring bits only, the difference is no multiple
of a modulus of degree `w` that has a constant term (`eq_zero_of_burst`).
-/
import FlipLink.Lib.Crc
import Mathlib.Algebra.CharP.Two
import Mathlib.Algebra.Field.ZMod
import Mathlib.Algebra.Polynomial.FieldDivision
import Mathlib.Algebra.Polynomial.OfFn
import Mathlib.Tactic.LinearCombination

namespace Lib.Crc

open Polynomial

/-! ## Words as polynomials -/

/-- A bit as an element of GF(2). -/
def bit (b : Bool) : ZMod 2 := if b then 1 else 0

theorem bit_xor (a b : Bool) : bit (a ^^ b) = bit a + bit b := by
  cases a <;> cases b <;> decide

theorem bit_inj {a b : Bool} (h : bit a = bit b) : a = b := by
  cases a <;> cases b <;> first | rfl | exact absurd h (by decide)

section Words

variable {w : Nat}

/-- The polynomial of a word. -/
noncomputable def toPoly (c : BitVec w) : (ZMod 2)[X] := ofFn w fun i => bit (c.getLsbD i)

theorem coeff_toPoly (c : BitVec w) (i : Nat) : (toPoly c).coeff i = bit (c.getLsbD i) := by
  by_cases hi : i < w
  · exact ofFn_coeff_eq_val_of_lt _ hi
  · have hw : w ≤ i := Nat.le_of_not_lt hi
    rw [BitVec.getLsbD_of_ge c i hw]
    exact ofFn_coeff_eq_zero_of_ge _ hw

theorem degree_toPoly_lt (c : BitVec w) : (toPoly c).degree < w := ofFn_degree_lt _

theorem toPoly_inj {a b : BitVec w} (h : toPoly a = toPoly b) : a = b := by
  refine BitVec.eq_of_getLsbD_eq fun i _ => bit_inj ?_
  rw [← coeff_toPoly, ← coeff_toPoly, h]

theorem toPoly_xor (a b : BitVec w) : toPoly (a ^^^ b) = toPoly a + toPoly b := by
  ext i
  rw [coeff_add, coeff_toPoly, coeff_toPoly, coeff_toPoly, BitVec.getLsbD_xor, bit_xor]

/-- A word with one bit set. -/
theorem toPoly_twoPow {i : Nat} (hi : i < w) : toPoly (BitVec.twoPow w i) = X ^ i := by
  ext j
  rw [coeff_toPoly, coeff_X_pow, BitVec.getLsbD_twoPow, decide_eq_true hi, Bool.true_and]
  by_cases hij : j = i
  · rw [if_pos hij, decide_eq_true hij.symm]
    rfl
  · rw [if_neg hij, decide_eq_false (Ne.symm hij)]
    rfl

/-- A shift drops the bit that `X` moves out of the word. -/
theorem X_mul_toPoly (c : BitVec w) :
    X * toPoly c = toPoly (c <<< 1) + C (bit c.msb) * X ^ w := by
  ext i
  rw [coeff_add, coeff_C_mul_X_pow, coeff_toPoly, BitVec.getLsbD_shiftLeft]
  cases i with
  | zero =>
      rw [coeff_X_mul_zero]
      cases w with
      | zero => simp [BitVec.msb, bit]
      | succ w => simp [bit]
  | succ i =>
      rw [coeff_X_mul, coeff_toPoly]
      by_cases hlast : i + 1 = w
      · subst hlast
        simp [BitVec.msb_eq_getLsbD_last, bit]
      · rw [if_neg hlast, add_zero, Nat.add_sub_cancel]
        by_cases hlt : i + 1 < w
        · simp [hlt]
        · rw [BitVec.getLsbD_of_ge c i (by omega)]
          simp [hlt]

end Words

/-! ## The register divides -/

section Register

variable {w : Nat} (poly : BitVec w)

/-- What the register divides by. -/
noncomputable def modulus : (ZMod 2)[X] := X ^ w + toPoly poly

theorem modulus_monic : (modulus poly).Monic := monic_X_pow_add (degree_toPoly_lt poly)

theorem degree_modulus : (modulus poly).degree = w := by
  have hlt : (toPoly poly).degree < (X ^ w : (ZMod 2)[X]).degree := by
    rw [degree_X_pow]
    exact degree_toPoly_lt poly
  rw [modulus, degree_add_eq_left_of_degree_lt hlt, degree_X_pow]

theorem coeff_modulus_ne_zero {poly : BitVec w} (hpoly : poly.getLsbD 0 = true) :
    (modulus poly).coeff 0 ≠ 0 := by
  have hw : w ≠ 0 := by
    rintro rfl
    rw [BitVec.getLsbD_of_ge poly 0 (Nat.le_refl 0)] at hpoly
    cases hpoly
  rw [modulus, coeff_add, coeff_X_pow, if_neg hw.symm, zero_add, coeff_toPoly, hpoly]
  decide

/-- A word is its own remainder. -/
theorem toPoly_mod (c : BitVec w) : toPoly c %ₘ modulus poly = toPoly c := by
  rw [modByMonic_eq_self_iff (modulus_monic poly), degree_modulus]
  exact degree_toPoly_lt c

/-- A shift multiplies, and takes the modulus off when the top bit has left. -/
theorem shift_eq (c : BitVec w) :
    X * toPoly c = toPoly (shift poly c) + C (bit c.msb) * modulus poly := by
  rw [X_mul_toPoly, shift, modulus]
  cases c.msb with
  | false => simp [bit]
  | true =>
      have htwice : toPoly poly + toPoly poly = 0 := CharTwo.add_self_eq_zero _
      rw [if_pos rfl, toPoly_xor]
      simp only [bit, if_true, map_one, one_mul]
      linear_combination -htwice

theorem shifts_dvd : ∀ (n : Nat) (c : BitVec w),
    modulus poly ∣ X ^ n * toPoly c - toPoly (shifts poly n c)
  | 0, c => by
      rw [shifts, pow_zero, one_mul, sub_self]
      exact dvd_zero _
  | n + 1, c => by
      have hstep : X ^ (n + 1) * toPoly c - toPoly (shifts poly (n + 1) c)
          = X ^ n * C (bit c.msb) * modulus poly
            + (X ^ n * toPoly (shift poly c) - toPoly (shifts poly n (shift poly c))) := by
        rw [shifts]
        linear_combination X ^ n * shift_eq poly c
      rw [hstep]
      exact dvd_add (dvd_mul_left _ _) (shifts_dvd n (shift poly c))

/-- The message that symbols of `n` bits spell, behind `p`. -/
noncomputable def message (n : Nat) (p : (ZMod 2)[X]) (l : List (BitVec w)) : (ZMod 2)[X] :=
  l.foldl (fun p s => p * X ^ n + toPoly s) p

theorem message_concat (n : Nat) (p : (ZMod 2)[X]) (l : List (BitVec w)) (s : BitVec w) :
    message n p (l ++ [s]) = message n p l * X ^ n + toPoly s := by
  rw [message, List.foldl_append]
  rfl

theorem message_eq (n : Nat) : ∀ (l : List (BitVec w)) (p : (ZMod 2)[X]),
    message n p l = p * X ^ (n * l.length) + message n 0 l
  | [], p => by
      rw [message, message, List.foldl_nil, List.foldl_nil, List.length_nil]
      ring
  | s :: l, p => by
      show message n (p * X ^ n + toPoly s) l
        = p * X ^ (n * (l.length + 1)) + message n (0 * X ^ n + toPoly s) l
      rw [message_eq n l, message_eq n l (0 * X ^ n + toPoly s)]
      ring

theorem foldl_feed_dvd (n : Nat) : ∀ (l : List (BitVec w)) (c : BitVec w),
    modulus poly ∣ toPoly c * X ^ (n * l.length) + message n 0 l * X ^ n
      - toPoly (l.foldl (feed poly n) c)
  | [], c => by
      have hnil : toPoly c * X ^ (n * 0) + message n 0 ([] : List (BitVec w)) * X ^ n
          - toPoly c = 0 := by
        rw [message, List.foldl_nil]
        ring
      rw [List.foldl_nil, List.length_nil, hnil]
      exact dvd_zero _
  | s :: l, c => by
      have hstep : toPoly c * X ^ (n * (l.length + 1)) + message n 0 (s :: l) * X ^ n
            - toPoly (l.foldl (feed poly n) (feed poly n c s))
          = X ^ (n * l.length)
              * (X ^ n * toPoly (c ^^^ s) - toPoly (shifts poly n (c ^^^ s)))
            + (toPoly (feed poly n c s) * X ^ (n * l.length) + message n 0 l * X ^ n
              - toPoly (l.foldl (feed poly n) (feed poly n c s))) := by
        have hmessage : message n 0 (s :: l) = toPoly s * X ^ (n * l.length) + message n 0 l := by
          show message n (0 * X ^ n + toPoly s) l = _
          rw [message_eq, zero_mul, zero_add]
        rw [hmessage, toPoly_xor, feed]
        ring
      rw [List.foldl_cons, List.length_cons, hstep]
      exact dvd_add (dvd_mul_of_dvd_right (shifts_dvd poly n _) _) (foldl_feed_dvd n l _)

/-- What symbols make of a register. -/
theorem toPoly_foldl_feed (n : Nat) (l : List (BitVec w)) (c : BitVec w) :
    toPoly (l.foldl (feed poly n) c)
      = (toPoly c * X ^ (n * l.length) + message n 0 l * X ^ n) %ₘ modulus poly := by
  rw [modByMonic_eq_of_dvd_sub (modulus_monic poly) (foldl_feed_dvd poly n l c), toPoly_mod]

end Register

/-! ## Strings of bits -/

/-- The bits of a word, the most significant first. -/
def bits {w : Nat} (c : BitVec w) : List Bool := (List.ofFn fun i : Fin w => c.getLsbD i).reverse

/-- A string of bits, the first the leading coefficient. -/
noncomputable def ofBits (l : List Bool) : (ZMod 2)[X] :=
  l.foldl (fun p b => p * X + C (bit b)) 0

theorem ofBits_concat (l : List Bool) (b : Bool) :
    ofBits (l ++ [b]) = ofBits l * X + C (bit b) := by
  rw [ofBits, List.foldl_append]
  rfl

theorem ofBits_append (l m : List Bool) : ofBits (l ++ m) = ofBits l * X ^ m.length + ofBits m := by
  induction m using List.reverseRecOn with
  | nil =>
      rw [List.append_nil, List.length_nil, pow_zero, mul_one]
      exact (add_zero _).symm
  | append_singleton m b ih =>
      rw [← List.append_assoc, ofBits_concat, ih, ofBits_concat, List.length_append,
        List.length_singleton]
      ring

theorem coeff_ofBits (l : List Bool) (i : Nat) :
    (ofBits l).coeff i = bit (l.reverse[i]?.getD false) := by
  induction l using List.reverseRecOn generalizing i with
  | nil => rw [ofBits, List.foldl_nil, coeff_zero, List.reverse_nil, List.getElem?_nil]; rfl
  | append_singleton l b ih =>
      rw [ofBits_concat, List.reverse_append, List.reverse_singleton, List.singleton_append,
        coeff_add, coeff_C]
      cases i with
      | zero => rw [coeff_mul_X_zero, zero_add, if_pos rfl, List.getElem?_cons_zero]; rfl
      | succ i => rw [coeff_mul_X, ih, if_neg (Nat.succ_ne_zero i), add_zero,
          List.getElem?_cons_succ]

theorem ofBits_inj {l m : List Bool} (hlen : l.length = m.length) (h : ofBits l = ofBits m) :
    l = m := by
  refine List.reverse_injective (List.ext_getElem? fun i => ?_)
  have hbit := congrArg (fun p : (ZMod 2)[X] => p.coeff i) h
  simp only [coeff_ofBits] at hbit
  have hget := bit_inj hbit
  by_cases hi : i < l.length
  · rw [List.getElem?_eq_getElem (by rwa [List.length_reverse]),
      List.getElem?_eq_getElem (by rwa [List.length_reverse, ← hlen])] at hget ⊢
    exact congrArg some hget
  · rw [List.getElem?_eq_none (by rw [List.length_reverse]; omega),
      List.getElem?_eq_none (by rw [List.length_reverse]; omega)]

theorem length_bits {w : Nat} (c : BitVec w) : (bits c).length = w := by
  rw [bits, List.length_reverse, List.length_ofFn]

theorem ofBits_bits {w : Nat} (c : BitVec w) : ofBits (bits c) = toPoly c := by
  ext i
  rw [coeff_ofBits, coeff_toPoly, bits, List.reverse_reverse, List.getElem?_ofFn]
  split_ifs with hi
  · rfl
  · rw [BitVec.getLsbD_of_ge c i (Nat.le_of_not_lt hi)]
    rfl

/-! ## Bursts -/

/-- A multiple of a modulus with a constant term whose coefficients are all among `w`
neighbouring ones, `w` the degree of the modulus. -/
theorem eq_zero_of_burst {K : Type*} [Field K] {g p : K[X]} {w k : Nat} (hdegree : g.degree = w)
    (hconst : g.coeff 0 ≠ 0) (hdvd : g ∣ p)
    (hburst : ∀ i, p.coeff i ≠ 0 → k ≤ i ∧ i < k + w) : p = 0 := by
  obtain ⟨e, rfl⟩ : X ^ k ∣ p := by
    rw [X_pow_dvd_iff]
    intro i hi
    by_contra hne
    exact absurd (hburst i hne).1 (Nat.not_le.mpr hi)
  have hcoprime : IsCoprime g (X ^ k) := by
    have hX : Irreducible (X : K[X]) := irreducible_X
    refine (hX.coprime_iff_not_dvd.mpr ?_).symm.pow_right
    rwa [X_dvd_iff]
  have hshort : e.degree < g.degree := by
    rw [hdegree, degree_lt_iff_coeff_zero]
    intro i hi
    by_contra hne
    have hcoeff : (X ^ k * e).coeff (i + k) ≠ 0 := by rwa [coeff_X_pow_mul]
    have := (hburst _ hcoeff).2
    omega
  rw [eq_zero_of_dvd_of_degree_lt (hcoprime.dvd_of_dvd_mul_left hdvd) hshort, mul_zero]

/-- Strings that differ in `w` neighbouring bits only leave different remainders. -/
theorem eq_of_burst {g : (ZMod 2)[X]} {w k j : Nat} (hdegree : g.degree = w)
    (hconst : g.coeff 0 ≠ 0) {l m : List Bool} (hlen : l.length = m.length)
    (hburst : ∀ i, l[i]? ≠ m[i]? → k ≤ i ∧ i < k + w)
    (hdvd : g ∣ (ofBits l - ofBits m) * X ^ j) : l = m := by
  -- the leading coefficient is the first bit
  have hcoeff : ∀ i, ((ofBits l - ofBits m) * X ^ j).coeff i ≠ 0 →
      l.length + j - k - w ≤ i ∧ i < l.length + j - k - w + w := by
    intro i hne
    rw [coeff_mul_X_pow', coeff_sub, coeff_ofBits, coeff_ofBits] at hne
    split_ifs at hne with hj
    · have hlt : i - j < l.length := by
        by_contra hge
        rw [List.getElem?_eq_none (by rw [List.length_reverse]; omega),
          List.getElem?_eq_none (by rw [List.length_reverse]; omega), sub_self] at hne
        exact hne rfl
      rw [List.getElem?_reverse hlt, List.getElem?_reverse (hlen ▸ hlt), ← hlen] at hne
      have hdiff : l[l.length - 1 - (i - j)]? ≠ m[l.length - 1 - (i - j)]? := by
        intro heq
        rw [heq, sub_self] at hne
        exact hne rfl
      have := hburst _ hdiff
      omega
    · exact absurd rfl hne
  have hzero := eq_zero_of_burst hdegree hconst hdvd hcoeff
  refine ofBits_inj hlen (sub_eq_zero.mp ?_)
  exact (mul_eq_zero.mp hzero).resolve_right (pow_ne_zero _ X_ne_zero)

end Lib.Crc
