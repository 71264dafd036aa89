/-
# `Lib.Le` — little-endian byte strings, and overwriting part of a buffer

`leBytes k n` is the `k`-byte little-endian form of `n`, `ofLeBytes` reads such
a form back, and the two are inverse up to `256 ^ k` (`ofLeBytes_leBytes`,
`leBytes_ofLeBytes`).  `slice` is the half-open window of a list and
`overwrite` the in-place copy of a block into a list; a run of adjacent copies
is one copy of the joined blocks (`overwrite_overwrite`), which is what turns a
field-by-field encoder into one statement about the bytes it leaves.

Nothing here knows about a particular format.
-/
import Mathlib.Data.List.Basic
import Mathlib.Tactic.Ring

namespace Lib

/-! ## Numbers as bytes -/

/-- The `k` low bytes of `n`, least significant first. -/
def leBytes : Nat → Nat → List UInt8
  | 0, _ => []
  | k + 1, n => UInt8.ofNat n :: leBytes k (n / 256)

/-- The number whose little-endian bytes these are. -/
def ofLeBytes : List UInt8 → Nat
  | [] => 0
  | b :: bs => b.toNat + 256 * ofLeBytes bs

@[simp] theorem length_leBytes : ∀ k n : Nat, (leBytes k n).length = k
  | 0, _ => rfl
  | k + 1, n => by simp [leBytes, length_leBytes k]

theorem ofLeBytes_leBytes : ∀ k n : Nat, ofLeBytes (leBytes k n) = n % 256 ^ k
  | 0, n => by simp [leBytes, ofLeBytes, Nat.mod_one]
  | k + 1, n => by
      have hb : (UInt8.ofNat n).toNat = n % 256 := by simp
      rw [leBytes, ofLeBytes, hb, ofLeBytes_leBytes k, Nat.pow_succ, Nat.mul_comm (256 ^ k) 256,
        Nat.mod_mul]

theorem ofLeBytes_lt : ∀ bs : List UInt8, ofLeBytes bs < 256 ^ bs.length
  | [] => by simp [ofLeBytes]
  | b :: bs => by
      have hb := b.toNat_lt
      have ih := ofLeBytes_lt bs
      simp only [ofLeBytes, List.length_cons, Nat.pow_succ]
      omega

theorem leBytes_ofLeBytes : ∀ bs : List UInt8, leBytes bs.length (ofLeBytes bs) = bs
  | [] => rfl
  | b :: bs => by
      have hb : b.toNat < 256 := b.toNat_lt
      have hdiv : (b.toNat + 256 * ofLeBytes bs) / 256 = ofLeBytes bs := by omega
      have hmod : UInt8.ofNat (b.toNat + 256 * ofLeBytes bs) = b := by
        apply UInt8.toNat_inj.mp
        simp only [UInt8.toNat_ofNat']
        omega
      simp only [List.length_cons, ofLeBytes, leBytes, hdiv, hmod, leBytes_ofLeBytes bs]

/-! ## Windows of a list -/

variable {α : Type}

/-- The elements of `l` from index `i` up to, not including, index `j`. -/
def slice (l : List α) (i j : Nat) : List α := (l.drop i).take (j - i)

theorem length_slice {l : List α} {i j : Nat} (hj : j ≤ l.length) :
    (slice l i j).length = j - i := by
  simp only [slice, List.length_take, List.length_drop]
  omega

/-- A window inside `l` does not see what is appended to `l`. -/
theorem slice_append_left {l : List α} {i j : Nat} (hi : i ≤ j) (hj : j ≤ l.length)
    (x : List α) : slice (l ++ x) i j = slice l i j := by
  simp only [slice]
  rw [List.drop_append_of_le_length (by omega), List.take_append_of_le_length]
  rw [List.length_drop]
  omega

/-- The window that starts where `a` ends. -/
theorem slice_append_right (a b : List α) (j : Nat) :
    slice (a ++ b) a.length (a.length + j) = b.take j := by
  simp [slice]

/-- A window is found by what stands before it and how long it is. -/
theorem slice_eq_of_append {l a b c : List α} {i j : Nat} (h : l = a ++ (b ++ c))
    (hi : i = a.length) (hj : j = a.length + b.length) : slice l i j = b := by
  subst h hi hj
  rw [slice_append_right, List.take_left]

/-- A window inside a prefix is the window of the whole. -/
theorem slice_take {l : List α} {i j k : Nat} (hj : j ≤ k) :
    slice (l.take k) i j = slice l i j := by
  simp only [slice, List.drop_take, List.take_take]
  congr 1
  omega

/-! ## Overwriting a block in place -/

/-- `l` with the elements from index `i` on replaced by `bs`, the length kept
when `i + bs.length ≤ l.length`. -/
def overwrite (l : List α) (i : Nat) (bs : List α) : List α :=
  l.take i ++ bs ++ l.drop (i + bs.length)

/-- Two adjacent copies are one copy of the joined blocks. -/
theorem overwrite_overwrite {l : List α} {i j : Nat} {a b : List α}
    (hj : j = i + a.length) (hb : i + a.length + b.length ≤ l.length) :
    overwrite (overwrite l i a) j b = overwrite l i (a ++ b) := by
  subst hj
  have hpre : (l.take i ++ a).length = i + a.length := by
    simp only [List.length_append, List.length_take]
    omega
  have htake : (overwrite l i a).take (i + a.length) = l.take i ++ a := by
    rw [overwrite, ← hpre, List.take_left']
    exact rfl
  have hdrop : (overwrite l i a).drop (i + a.length + b.length)
      = l.drop (i + (a.length + b.length)) := by
    rw [overwrite, List.drop_append, List.drop_eq_nil_of_le (by rw [hpre]; omega), hpre,
      List.drop_drop, List.nil_append]
    congr 1
    omega
  rw [overwrite, htake, hdrop, overwrite, List.length_append]
  simp only [List.append_assoc]

/-- A copy to the front, split at the end of the block. -/
theorem overwrite_zero (l bs : List α) : overwrite l 0 bs = bs ++ l.drop bs.length := by
  simp [overwrite]

end Lib
