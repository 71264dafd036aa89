/-
# `Lib.Records` — fixed-size records in a stream

A writer puts records of `r` elements into a buffer, all of a record or a torn
front of it, and a reader takes batches off the buffer and forwards the whole
records of each.  They stay in step as long as nothing is put behind a torn
record: `Tracks r out buf recs` says that what was forwarded and what is
buffered is the records written, then at most a piece of one that was torn.  The
lemmas are the moves: a whole record (`push_whole`), a torn one (`push_torn`), a
read (`pull`), and the end of the stream (`done`), where nothing but the torn
piece is left behind.

`wholePart` is the whole records of a batch joined, `chunksExact` the same
records one by one.
-/
import Mathlib.Data.List.Basic
import Mathlib.Data.Nat.ModEq

namespace Lib

variable {α : Type}

/-- The longest front of `l` that is a whole number of `r`-element records. -/
def wholePart (r : Nat) (l : List α) : List α := l.take (l.length - l.length % r)

theorem length_wholePart (r : Nat) (l : List α) :
    (wholePart r l).length = l.length - l.length % r := by
  rw [wholePart, List.length_take]
  omega

theorem dvd_length_wholePart (r : Nat) (l : List α) : r ∣ (wholePart r l).length := by
  rw [length_wholePart]
  exact Nat.dvd_sub_mod _

theorem wholePart_of_dvd {r : Nat} {l : List α} (h : r ∣ l.length) : wholePart r l = l := by
  rw [wholePart, Nat.mod_eq_zero_of_dvd h, Nat.sub_zero, List.take_length]

theorem wholePart_eq_nil {r : Nat} {l : List α} (h : (wholePart r l).length < r) :
    wholePart r l = [] :=
  List.eq_nil_of_length_eq_zero (Nat.eq_zero_of_dvd_of_lt (dvd_length_wholePart r l) h)

/-- A whole number of records in front does not change what the rest counts
for. -/
theorem wholePart_append {r : Nat} {l l' : List α} (h : r ∣ l.length) :
    wholePart r (l ++ l') = l ++ wholePart r l' := by
  have hmod : (l.length + l'.length) % r = l'.length % r := by
    obtain ⟨k, hk⟩ := h
    rw [hk, Nat.mul_add_mod]
  have hle := Nat.mod_le l'.length r
  rw [wholePart, List.length_append, hmod, Nat.add_sub_assoc hle, List.take_length_add_append,
    wholePart]

/-! ## Records one by one -/

/-- The first `n` records of `l`. -/
def chunksN (r : Nat) : Nat → List α → List (List α)
  | 0, _ => []
  | n + 1, l => l.take r :: chunksN r n (l.drop r)

/-- The records of `l`; an incomplete one at its end is left out. -/
def chunksExact (r : Nat) (l : List α) : List (List α) := chunksN r (l.length / r) l

theorem chunksExact_nil (r : Nat) : chunksExact r ([] : List α) = [] := by
  rw [chunksExact, List.length_nil, Nat.zero_div, chunksN]

theorem chunksExact_cons {r : Nat} (hr : 0 < r) {x : List α} (hx : x.length = r) (l : List α) :
    chunksExact r (x ++ l) = x :: chunksExact r l := by
  have hdiv : (x ++ l).length / r = l.length / r + 1 := by
    rw [List.length_append, hx, Nat.add_comm, Nat.add_div_right _ hr]
  rw [chunksExact, hdiv, chunksN, List.take_left' hx, List.drop_left' hx, chunksExact]

/-- Behind a whole number of records the records go on. -/
theorem chunksExact_append {r : Nat} (hr : 0 < r) : ∀ (n : Nat) {l : List α},
    l.length = r * n → ∀ l', chunksExact r (l ++ l') = chunksExact r l ++ chunksExact r l'
  | 0, l, hl, l' => by
      have : l = [] := List.eq_nil_of_length_eq_zero (by rw [hl, Nat.mul_zero])
      rw [this, chunksExact_nil, List.nil_append, List.nil_append]
  | n + 1, l, hl, l' => by
      have htake : (l.take r).length = r := by
        rw [List.length_take, hl, Nat.mul_succ]
        omega
      have hdrop : (l.drop r).length = r * n := by
        rw [List.length_drop, hl, Nat.mul_succ]
        omega
      rw [← List.take_append_drop r l, List.append_assoc, chunksExact_cons hr htake,
        chunksExact_cons hr htake, chunksExact_append hr n hdrop l', List.cons_append]

/-! ## A writer, a buffer and a reader -/

/-- What was forwarded (`out`) and what is buffered (`buf`) is the records
written, then a torn record at most. -/
structure Tracks (r : Nat) (out buf recs : List α) : Prop where
  split : ∃ torn, out ++ buf = recs ++ torn ∧ torn.length < r
  dvd_out : r ∣ out.length
  dvd_recs : r ∣ recs.length

namespace Tracks

variable {r : Nat} {out buf recs : List α}

theorem nil (hr : 0 < r) : Tracks r ([] : List α) [] [] :=
  ⟨⟨[], rfl, hr⟩, Nat.dvd_zero r, Nat.dvd_zero r⟩

/-- Any buffer is its own whole records and a torn piece. -/
theorem self (hr : 0 < r) (buf : List α) : Tracks r [] buf (wholePart r buf) where
  split := by
    refine ⟨buf.drop (buf.length - buf.length % r), ?_, ?_⟩
    · rw [List.nil_append, wholePart, List.take_append_drop]
    · have := Nat.mod_lt buf.length hr
      have := Nat.mod_le buf.length r
      rw [List.length_drop]
      omega
  dvd_out := Nat.dvd_zero r
  dvd_recs := dvd_length_wholePart r buf

/-- The torn piece is as long as the buffer is out of step. -/
theorem torn_length (h : Tracks r out buf recs) {torn : List α}
    (heq : out ++ buf = recs ++ torn) (hlt : torn.length < r) :
    torn.length = buf.length % r := by
  have hlen := congrArg List.length heq
  rw [List.length_append, List.length_append] at hlen
  obtain ⟨a, ha⟩ := h.dvd_out
  obtain ⟨b, hb⟩ := h.dvd_recs
  have hbuf : (out.length + buf.length) % r = buf.length % r := by rw [ha, Nat.mul_add_mod]
  have htorn : (recs.length + torn.length) % r = torn.length % r := by rw [hb, Nat.mul_add_mod]
  rw [← hbuf, hlen, htorn, Nat.mod_eq_of_lt hlt]

/-- In step, nothing torn is about. -/
theorem eq_of_aligned (h : Tracks r out buf recs) (hbuf : r ∣ buf.length) :
    out ++ buf = recs := by
  obtain ⟨torn, heq, hlt⟩ := h.split
  have hzero := h.torn_length heq hlt
  rw [Nat.mod_eq_zero_of_dvd hbuf] at hzero
  rw [heq, List.eq_nil_of_length_eq_zero hzero, List.append_nil]

theorem push_whole (h : Tracks r out buf recs) (hbuf : r ∣ buf.length) {x : List α}
    (hx : x.length = r) : Tracks r out (buf ++ x) (recs ++ x) where
  split := by
    refine ⟨[], ?_, ?_⟩
    · rw [← List.append_assoc, h.eq_of_aligned hbuf, List.append_nil]
    · obtain ⟨_, _, hlt⟩ := h.split
      exact Nat.lt_of_le_of_lt (Nat.zero_le _) hlt
  dvd_out := h.dvd_out
  dvd_recs := by
    rw [List.length_append, hx]
    exact Nat.dvd_add h.dvd_recs (Nat.dvd_refl r)

theorem push_torn (h : Tracks r out buf recs) (hbuf : r ∣ buf.length) {x : List α}
    (hx : x.length < r) : Tracks r out (buf ++ x) recs where
  split := ⟨x, by rw [← List.append_assoc, h.eq_of_aligned hbuf], hx⟩
  dvd_out := h.dvd_out
  dvd_recs := h.dvd_recs

/-- A read of up to `n`, a whole number of records, forwards whole records and
drops what it read of a torn one. -/
theorem pull (h : Tracks r out buf recs) {n : Nat} (hn : r ∣ n) :
    Tracks r (out ++ wholePart r (buf.take n)) (buf.drop n) recs := by
  have hdvd : r ∣ (out ++ wholePart r (buf.take n)).length := by
    rw [List.length_append]
    exact Nat.dvd_add h.dvd_out (dvd_length_wholePart r _)
  obtain ⟨torn, heq, hlt⟩ := h.split
  refine ⟨?_, hdvd, h.dvd_recs⟩
  by_cases hle : n ≤ buf.length
  · -- a full read: all of it whole records
    have htake : wholePart r (buf.take n) = buf.take n :=
      wholePart_of_dvd (by rw [List.length_take_of_le hle]; exact hn)
    exact ⟨torn, by rw [htake, List.append_assoc, List.take_append_drop, heq], hlt⟩
  · -- the buffer is emptied, and a torn record at its end is dropped
    have hshort : buf.length ≤ n := by omega
    refine ⟨[], ?_, Nat.lt_of_le_of_lt (Nat.zero_le _) hlt⟩
    rw [List.take_of_length_le hshort, List.drop_eq_nil_of_le hshort, List.append_nil,
      List.append_nil, ← wholePart_append h.dvd_out, heq, wholePart_append h.dvd_recs, wholePart,
      Nat.mod_eq_of_lt hlt, Nat.sub_self, List.take_zero, List.append_nil]

/-- When less than a record is left, every record has been forwarded. -/
theorem done (h : Tracks r out buf recs) (hlt : buf.length < r) : out = recs := by
  obtain ⟨torn, heq, htorn⟩ := h.split
  have hlen := h.torn_length heq htorn
  rw [Nat.mod_eq_of_lt hlt] at hlen
  exact (List.append_inj' heq hlen.symm).1

end Tracks

end Lib
