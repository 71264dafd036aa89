/-
# `Lib.Crc` — the shift register of a cyclic redundancy check

A register of `w` bits that is shifted left and, when its top bit leaves it, gets a
polynomial added: addition is exclusive or.  The shift is linear (`shift_xor`), and if
the polynomial has its lowest bit it is one to one (`shift_inj`), so a difference
between two registers never dies out.  Symbols are added to the register before each
run of shifts (`feed`); what two runs over the same symbols make of two registers
differs when the registers do (`foldl_feed_inj`), and two symbols on one register
leave the difference that the first of them would leave alone (`feed_xor_feed`).
-/
import Mathlib.Data.BitVec

namespace Lib.Crc

variable {w : Nat} (poly : BitVec w)

/-- One shift; the polynomial is added when the top bit leaves the register. -/
def shift (c : BitVec w) : BitVec w := if c.msb then (c <<< 1) ^^^ poly else c <<< 1

def shifts : Nat → BitVec w → BitVec w
  | 0, c => c
  | n + 1, c => shifts n (shift poly c)

/-- A symbol is added to the register, and `n` shifts. -/
def feed (n : Nat) (c s : BitVec w) : BitVec w := shifts poly n (c ^^^ s)

/-! ## Exclusive or -/

theorem xor_eq_zero {a b : BitVec w} (h : a ^^^ b = 0) : a = b := by
  have hab := congrArg (· ^^^ b) h
  simpa [BitVec.xor_assoc] using hab

/-- What is added to both sides leaves no difference. -/
theorem xor_both (c a b : BitVec w) : c ^^^ a ^^^ (c ^^^ b) = a ^^^ b := by
  calc c ^^^ a ^^^ (c ^^^ b) = c ^^^ c ^^^ (a ^^^ b) := by ac_rfl
    _ = a ^^^ b := by rw [BitVec.xor_self, BitVec.zero_xor]

/-! ## Shifting is linear -/

theorem shift_xor (a b : BitVec w) : shift poly (a ^^^ b) = shift poly a ^^^ shift poly b := by
  unfold shift
  rw [BitVec.msb_xor, BitVec.shiftLeft_xor_distrib]
  cases a.msb <;> cases b.msb <;>
    simp only [Bool.xor_false, Bool.false_xor, Bool.xor_self, Bool.false_eq_true, if_true, if_false]
  · ac_rfl
  · ac_rfl
  · -- the polynomial is added on both sides
    rw [BitVec.xor_comm (a <<< 1) poly, BitVec.xor_comm (b <<< 1) poly, xor_both]

theorem shifts_xor : ∀ (n : Nat) (a b : BitVec w),
    shifts poly n (a ^^^ b) = shifts poly n a ^^^ shifts poly n b
  | 0, _, _ => rfl
  | n + 1, a, b => by
      rw [shifts, shift_xor, shifts_xor n, shifts, shifts]

theorem feed_xor (n : Nat) (c d s t : BitVec w) :
    feed poly n (c ^^^ d) (s ^^^ t) = feed poly n c s ^^^ feed poly n d t := by
  rw [feed, feed, feed, ← shifts_xor]
  congr 1
  ac_rfl

/-- Two symbols on one register. -/
theorem feed_xor_feed (n : Nat) (c s t : BitVec w) :
    feed poly n c s ^^^ feed poly n c t = shifts poly n (s ^^^ t) := by
  rw [feed, feed, ← shifts_xor, xor_both]

/-! ## Shifting is one to one -/

section Injective

variable {poly} (hpoly : poly.getLsbD 0 = true)
include hpoly

theorem shift_eq_zero {c : BitVec w} (h : shift poly c = 0) : c = 0 := by
  unfold shift at h
  split_ifs at h with hmsb
  · -- the bit that was shifted in is the polynomial's
    have hbit := congrArg (BitVec.getLsbD · 0) h
    simp [hpoly] at hbit
  · refine BitVec.eq_of_getLsbD_eq fun i hi => ?_
    show _ = (0#w).getLsbD i
    rw [BitVec.getLsbD_zero]
    by_cases hlast : i + 1 = w
    · rw [show i = w - 1 by omega, ← BitVec.msb_eq_getLsbD_last]
      exact Bool.eq_false_iff.mpr hmsb
    · have hbit : (c <<< 1).getLsbD (i + 1) = (0#w).getLsbD (i + 1) := by rw [h]; rfl
      rw [BitVec.getLsbD_shiftLeft, BitVec.getLsbD_zero] at hbit
      simpa only [show i + 1 < w by omega, decide_true, Bool.true_and, Nat.add_sub_cancel,
        show ¬ i + 1 < 1 by omega, decide_false, Bool.not_false] using hbit

theorem shift_inj {a b : BitVec w} (h : shift poly a = shift poly b) : a = b := by
  refine xor_eq_zero (shift_eq_zero hpoly ?_)
  rw [shift_xor, h, BitVec.xor_self]
  rfl

theorem shifts_inj : ∀ (n : Nat) {a b : BitVec w}, shifts poly n a = shifts poly n b → a = b
  | 0, _, _, h => h
  | n + 1, _, _, h => shift_inj hpoly (shifts_inj n h)

/-- The same symbols keep different registers apart. -/
theorem foldl_feed_inj {n : Nat} : ∀ (l : List (BitVec w)) {a b : BitVec w},
    l.foldl (feed poly n) a = l.foldl (feed poly n) b → a = b
  | [], _, _, h => h
  | s :: l, a, b, h => by
      have hfeed : feed poly n a s = feed poly n b s := foldl_feed_inj l h
      have hs := congrArg (· ^^^ s) (shifts_inj hpoly n hfeed)
      simpa [BitVec.xor_assoc] using hs

end Injective

end Lib.Crc
