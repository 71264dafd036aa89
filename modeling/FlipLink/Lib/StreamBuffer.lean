/-
# `Lib.StreamBuffer` — a bounded FIFO whose writer does not wait

`StreamBuffer α cap` is a FIFO of at most `cap` elements.  `send` takes as much
of its argument as there is room for and says how much that was; `receive` takes
up to `n` elements off the front; `discard` reads until nothing comes.

Where the capacity is a whole number of `r`-element records, so is the room
left, and a record is written whole or not at all (`send_aligned`).
-/
import Mathlib.Data.List.Basic

namespace Lib

/-- A FIFO of at most `cap` elements. -/
structure StreamBuffer (α : Type) (cap : Nat) where
  items : List α
  length_le : items.length ≤ cap
  deriving DecidableEq

namespace StreamBuffer

variable {α : Type} {cap : Nat}

def empty : StreamBuffer α cap := { items := [], length_le := Nat.zero_le _ }

/-- The room left. -/
def free (b : StreamBuffer α cap) : Nat := cap - b.items.length

/-- Write what fits of `x`, without waiting; the first component is how much. -/
def send (b : StreamBuffer α cap) (x : List α) : Nat × StreamBuffer α cap :=
  (min x.length b.free,
    { items := b.items ++ x.take b.free
      length_le := by
        have := b.length_le
        simp only [free, List.length_append, List.length_take]
        omega })

/-- Take up to `n` elements off the front. -/
def receive (b : StreamBuffer α cap) (n : Nat) : List α × StreamBuffer α cap :=
  (b.items.take n,
    { items := b.items.drop n
      length_le := by
        have := b.length_le
        simp only [List.length_drop]
        omega })

theorem free_le (b : StreamBuffer α cap) : b.items.length + b.free = cap :=
  Nat.add_sub_cancel' b.length_le

@[simp] theorem items_empty : (empty : StreamBuffer α cap).items = [] := rfl

@[simp] theorem send_items (b : StreamBuffer α cap) (x : List α) :
    (b.send x).2.items = b.items ++ x.take b.free := rfl

@[simp] theorem receive_items (b : StreamBuffer α cap) (n : Nat) :
    (b.receive n).2.items = b.items.drop n := rfl

/-- Everything is written exactly when there is room for it. -/
theorem send_fst_eq_length {b : StreamBuffer α cap} {x : List α} :
    (b.send x).1 = x.length ↔ x.length ≤ b.free := by
  simp only [send]
  omega

/-- At most `k` turns of reading and discarding `n` at a time until nothing
comes. -/
def discardN (n : Nat) : Nat → StreamBuffer α cap → StreamBuffer α cap
  | 0, b => b
  | k + 1, b => if (b.receive n).1.length > 0 then discardN n k (b.receive n).2 else (b.receive n).2

/-- Read and discard until nothing comes; every turn but the last takes an
element, so the loop ends. -/
def discard (n : Nat) (b : StreamBuffer α cap) : StreamBuffer α cap :=
  discardN n (b.items.length + 1) b

theorem discardN_items {n : Nat} (hn : 0 < n) : ∀ {k : Nat} {b : StreamBuffer α cap},
    b.items.length < k → (discardN n k b).items = []
  | 0, _, h => absurd h (Nat.not_lt_zero _)
  | k + 1, b, h => by
      have hlen : (b.receive n).1.length = min n b.items.length := List.length_take
      rw [discardN]
      by_cases hpos : (b.receive n).1.length > 0
      · rw [if_pos hpos]
        refine discardN_items hn ?_
        rw [receive_items, List.length_drop]
        omega
      · rw [if_neg hpos, receive_items]
        have : b.items.length = 0 := by omega
        rw [List.eq_nil_of_length_eq_zero this, List.drop_nil]

theorem discard_eq_empty {n : Nat} (hn : 0 < n) (b : StreamBuffer α cap) :
    b.discard n = empty := by
  have h : (b.discard n).items = [] := discardN_items hn (Nat.lt_succ_self _)
  cases hd : b.discard n with
  | mk items hle =>
      rw [hd] at h
      cases h
      rfl

/-! ## Whole records -/

/-- With a capacity of whole records and a whole number of them inside, the room
left is nothing or takes a record. -/
theorem free_aligned {r : Nat} {b : StreamBuffer α cap} (hcap : r ∣ cap)
    (hb : r ∣ b.items.length) : r ∣ b.free :=
  Nat.dvd_sub hcap hb

theorem send_aligned {r : Nat} {b : StreamBuffer α cap} (hcap : r ∣ cap)
    (hb : r ∣ b.items.length) {x : List α} (hx : x.length = r) :
    r ∣ (b.send x).2.items.length := by
  rw [send_items, List.length_append, List.length_take, hx]
  refine Nat.dvd_add hb ?_
  rcases Nat.le_total r b.free with h | h
  · simp only [Nat.min_eq_right h, Nat.dvd_refl]
  · rw [Nat.min_eq_left h]
    exact free_aligned hcap hb

theorem receive_aligned {r n : Nat} {b : StreamBuffer α cap} (hn : r ∣ n)
    (hb : r ∣ b.items.length) : r ∣ (b.receive n).2.items.length := by
  rw [receive_items, List.length_drop]
  exact Nat.dvd_sub hb hn

end StreamBuffer

end Lib
