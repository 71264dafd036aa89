/-
# `Lib.Scan` — scanners that resynchronise one symbol at a time

A *decoder* looks at the front of a buffer and gives one of three verdicts: a
frame and the number of symbols it used, "need more", or "resync".  A reader
built on it drops the used symbols after a frame, waits on "need more" and
drops a single symbol on "resync".  `Scanner` is a decoder with the two laws
such a reader depends on:

  * a frame uses at least one symbol and no more than there are;
  * a verdict other than "need more" is *final*: appending to the buffer does
    not change it.

From these alone follows that the reader cannot see how its input was cut.
The chain is

    next_append_some   a frame found early is the frame found late
    next_append_none   a pause changes nothing but the dropped garbage
    drain_append       draining twice is draining once
    runOps_drain       any interleaving of feeds and reads, then a drain

and the last of them is the statement about every chunking and every placement
of the reads.
-/
import Mathlib.Algebra.GroupWithZero.Nat
import Mathlib.Data.List.Basic

namespace Lib

/-- What a decoder says about the front of a buffer. -/
inductive Verdict (φ : Type) where
  /-- A complete frame and the number of symbols it occupies. -/
  | frame (f : φ) (used : Nat)
  /-- Not enough symbols yet. -/
  | needMore
  /-- No frame starts here: drop one symbol and look again. -/
  | resync
  deriving DecidableEq, Repr

/-- A decoder whose verdicts are final once they are given. -/
structure Scanner (α φ : Type) where
  decode : List α → Verdict φ
  used_pos : ∀ {buf : List α} {f : φ} {n : Nat}, decode buf = .frame f n → 0 < n
  used_le : ∀ {buf : List α} {f : φ} {n : Nat}, decode buf = .frame f n → n ≤ buf.length
  frame_append : ∀ {buf : List α} {f : φ} {n : Nat} (x : List α),
    decode buf = .frame f n → decode (buf ++ x) = .frame f n
  resync_append : ∀ {buf : List α} (x : List α),
    decode buf = .resync → decode (buf ++ x) = .resync
  decode_nil : decode [] = .needMore

namespace Scanner

variable {α φ : Type} (S : Scanner α φ)

/-! ## One read -/

/-- Pop the next frame, dropping garbage before it; the second component is the
buffer left behind. -/
def next : List α → Option φ × List α
  | [] => (none, [])
  | b :: bs =>
      match S.decode (b :: bs) with
      | .frame f n => (some f, (b :: bs).drop n)
      | .needMore => (none, b :: bs)
      | .resync => next bs

theorem next_of_frame {buf : List α} {f : φ} {n : Nat} (h : S.decode buf = .frame f n) :
    S.next buf = (some f, buf.drop n) := by
  cases buf with
  | nil => rw [S.decode_nil] at h; exact nomatch h
  | cons b bs => simp only [next, h]

theorem next_of_needMore {buf : List α} (h : S.decode buf = .needMore) :
    S.next buf = (none, buf) := by
  cases buf with
  | nil => rfl
  | cons b bs => simp only [next, h]

theorem next_of_resync {b : α} {bs : List α} (h : S.decode (b :: bs) = .resync) :
    S.next (b :: bs) = S.next bs := by
  simp only [next, h]

/-- A frame shortens the buffer. -/
theorem next_length : ∀ {buf : List α} {f : φ} {r : List α},
    S.next buf = (some f, r) → r.length < buf.length
  | [], _, _, h => by simp [next] at h
  | b :: bs, f, r, h => by
      cases hd : S.decode (b :: bs) with
      | frame g n =>
          rw [S.next_of_frame hd] at h
          obtain ⟨-, rfl⟩ := Prod.mk.inj h
          have := S.used_pos hd
          have := S.used_le hd
          simp only [List.length_drop]
          omega
      | needMore =>
          rw [S.next_of_needMore hd] at h
          exact nomatch (Prod.mk.inj h).1
      | resync =>
          rw [S.next_of_resync hd] at h
          have := next_length h
          simp only [List.length_cons]
          omega

/-- What a read leaves behind is a suffix of what was there. -/
theorem next_suffix : ∀ buf : List α, (S.next buf).2 <:+ buf
  | [] => List.suffix_refl _
  | b :: bs => by
      cases hd : S.decode (b :: bs) with
      | frame f n => rw [S.next_of_frame hd]; exact List.drop_suffix n _
      | needMore => simp only [S.next_of_needMore hd, List.suffix_refl]
      | resync =>
          rw [S.next_of_resync hd]
          exact (next_suffix bs).trans (List.suffix_cons b bs)

/-- A read that finds nothing leaves a buffer on which the verdict is "need more". -/
theorem next_none_needMore : ∀ {buf r : List α}, S.next buf = (none, r) → S.decode r = .needMore
  | [], r, h => by
      obtain ⟨-, rfl⟩ := Prod.mk.inj h
      exact S.decode_nil
  | b :: bs, r, h => by
      cases hd : S.decode (b :: bs) with
      | frame f n =>
          rw [S.next_of_frame hd] at h
          exact nomatch (Prod.mk.inj h).1
      | needMore =>
          rw [S.next_of_needMore hd] at h
          obtain ⟨-, rfl⟩ := Prod.mk.inj h
          exact hd
      | resync =>
          rw [S.next_of_resync hd] at h
          exact next_none_needMore h

/-- A frame is decoded from the symbols right before those that are left. -/
theorem next_some_split : ∀ {buf : List α} {f : φ} {r : List α}, S.next buf = (some f, r) →
    ∃ g w, buf = g ++ (w ++ r) ∧ S.decode (w ++ r) = .frame f w.length
  | [], _, _, h => by simp [next] at h
  | b :: bs, f, r, h => by
      cases hd : S.decode (b :: bs) with
      | frame g n =>
          rw [S.next_of_frame hd] at h
          obtain ⟨hg, rfl⟩ := Prod.mk.inj h
          obtain rfl := Option.some.inj hg
          refine ⟨[], (b :: bs).take n, ?_, ?_⟩
          · rw [List.nil_append, List.take_append_drop]
          · rw [List.take_append_drop, List.length_take_of_le (S.used_le hd), hd]
      | needMore =>
          rw [S.next_of_needMore hd] at h
          cases (Prod.mk.inj h).1
      | resync =>
          rw [S.next_of_resync hd] at h
          obtain ⟨g, w, rfl, hw⟩ := next_some_split h
          exact ⟨b :: g, w, rfl, hw⟩

/-- A frame found in a buffer is the frame found in any extension of it. -/
theorem next_append_some : ∀ {buf : List α} {f : φ} {r : List α} (x : List α),
    S.next buf = (some f, r) → S.next (buf ++ x) = (some f, r ++ x)
  | [], _, _, _, h => by simp [next] at h
  | b :: bs, f, r, x, h => by
      cases hd : S.decode (b :: bs) with
      | frame g n =>
          rw [S.next_of_frame hd] at h
          obtain ⟨hg, rfl⟩ := Prod.mk.inj h
          rw [S.next_of_frame (S.frame_append x hd), hg,
            List.drop_append_of_le_length (S.used_le hd)]
      | needMore =>
          rw [S.next_of_needMore hd] at h
          exact nomatch (Prod.mk.inj h).1
      | resync =>
          rw [S.next_of_resync hd] at h
          have hx := S.resync_append x hd
          rw [List.cons_append] at hx ⊢
          rw [S.next_of_resync hx]
          exact next_append_some x h

/-- A read that finds nothing only drops garbage that any later read drops too. -/
theorem next_append_none : ∀ {buf r : List α} (x : List α),
    S.next buf = (none, r) → S.next (buf ++ x) = S.next (r ++ x)
  | [], r, x, h => by
      obtain ⟨-, rfl⟩ := Prod.mk.inj h
      rfl
  | b :: bs, r, x, h => by
      cases hd : S.decode (b :: bs) with
      | frame f n =>
          rw [S.next_of_frame hd] at h
          exact nomatch (Prod.mk.inj h).1
      | needMore =>
          rw [S.next_of_needMore hd] at h
          obtain ⟨-, rfl⟩ := Prod.mk.inj h
          rfl
      | resync =>
          rw [S.next_of_resync hd] at h
          have hx := S.resync_append x hd
          rw [List.cons_append] at hx ⊢
          rw [S.next_of_resync hx]
          exact next_append_none x h

/-! ## Reading until nothing is left -/

/-- At most `k` reads. -/
def drainN : Nat → List α → List φ × List α
  | 0, buf => ([], buf)
  | k + 1, buf =>
      match S.next buf with
      | (some f, r) => (f :: (drainN k r).1, (drainN k r).2)
      | (none, r) => ([], r)

/-- Read until a read finds nothing: the frames, and the buffer left behind. -/
def drain (buf : List α) : List φ × List α := S.drainN (buf.length + 1) buf

/-- More fuel than the buffer is long changes nothing. -/
theorem drainN_eq : ∀ {k m : Nat} {buf : List α}, buf.length < k → buf.length < m →
    S.drainN k buf = S.drainN m buf
  | 0, _, _, hk, _ => absurd hk (Nat.not_lt_zero _)
  | _ + 1, 0, _, _, hm => absurd hm (Nat.not_lt_zero _)
  | k + 1, m + 1, buf, hk, hm => by
      cases h : S.next buf with
      | mk o r =>
        cases o with
        | none => simp only [drainN, h]
        | some f =>
            have hlt := S.next_length h
            simp only [drainN, h]
            rw [drainN_eq (k := k) (m := m) (by omega) (by omega)]

theorem drain_of_some {buf : List α} {f : φ} {r : List α} (h : S.next buf = (some f, r)) :
    S.drain buf = (f :: (S.drain r).1, (S.drain r).2) := by
  have hlt := S.next_length h
  simp only [drain]
  rw [drainN, h]
  simp only [S.drainN_eq hlt (show r.length < r.length + 1 from Nat.lt_succ_self _)]

theorem drain_of_none {buf r : List α} (h : S.next buf = (none, r)) : S.drain buf = ([], r) := by
  simp only [drain, drainN, h]

/-- Induction along a drain: either a read finds nothing, or it finds a frame
and the claim holds of the shorter rest. -/
theorem drain_induction {P : List α → Prop}
    (hnone : ∀ {buf r : List α}, S.next buf = (none, r) → P buf)
    (hsome : ∀ {buf : List α} {f : φ} {r : List α}, S.next buf = (some f, r) → P r → P buf)
    (buf : List α) : P buf := by
  cases h : S.next buf with
  | mk o r =>
    cases o with
    | none => exact hnone h
    | some f =>
        have hlt := S.next_length h
        exact hsome h (drain_induction hnone hsome r)
  termination_by buf.length

/-- Draining, appending and draining again is appending and draining once. -/
theorem drain_append (w x : List α) :
    S.drain (w ++ x)
      = ((S.drain w).1 ++ (S.drain ((S.drain w).2 ++ x)).1,
         (S.drain ((S.drain w).2 ++ x)).2) := by
  induction w using S.drain_induction with
  | hnone h =>
      rename_i buf r
      rw [S.drain_of_none h, List.nil_append]
      cases h' : S.next (r ++ x) with
      | mk o r' =>
        have hb : S.next (buf ++ x) = (o, r') := (S.next_append_none x h).trans h'
        cases o with
        | none => rw [S.drain_of_none hb, S.drain_of_none h']
        | some f => rw [S.drain_of_some hb, S.drain_of_some h']
  | hsome h ih =>
      rw [S.drain_of_some (S.next_append_some x h), S.drain_of_some h, ih]
      rfl

/-- After a drain there is nothing left to read. -/
theorem drain_needMore (buf : List α) : S.decode (S.drain buf).2 = .needMore := by
  induction buf using S.drain_induction with
  | hnone h => rw [S.drain_of_none h]; exact S.next_none_needMore h
  | hsome h ih => rw [S.drain_of_some h]; exact ih

/-- The frames of a drain and what it leaves take up no more room than there
was, if no frame is larger than what it used. -/
theorem drain_weight {size : φ → Nat}
    (hsize : ∀ {buf : List α} {f : φ} {n : Nat}, S.decode buf = .frame f n → size f ≤ n) :
    ∀ buf : List α, ((S.drain buf).1.map size).sum + (S.drain buf).2.length ≤ buf.length := by
  have hnext : ∀ {buf : List α} {f : φ} {r : List α}, S.next buf = (some f, r) →
      size f + r.length ≤ buf.length := by
    intro buf
    induction buf with
    | nil => intro f r h; simp [next] at h
    | cons b bs ih =>
        intro f r h
        cases hd : S.decode (b :: bs) with
        | frame g n =>
            rw [S.next_of_frame hd] at h
            obtain ⟨hg, rfl⟩ := Prod.mk.inj h
            obtain rfl := Option.some.inj hg
            have := hsize hd
            have := S.used_le hd
            rw [List.length_drop]
            omega
        | needMore =>
            rw [S.next_of_needMore hd] at h
            exact nomatch (Prod.mk.inj h).1
        | resync =>
            rw [S.next_of_resync hd] at h
            have := ih h
            rw [List.length_cons]
            omega
  intro buf
  induction buf using S.drain_induction with
  | hnone h =>
      rename_i buf r
      have := List.IsSuffix.length_le (S.next_suffix buf)
      rw [h] at this
      rw [S.drain_of_none h, List.map_nil, List.sum_nil, Nat.zero_add]
      exact this
  | hsome h ih =>
      have := hnext h
      rw [S.drain_of_some h, List.map_cons, List.sum_cons]
      dsimp only
      omega

/-- A drain is what its first read makes of it. -/
theorem drain_congr {buf buf' : List α} (h : S.next buf = S.next buf') :
    S.drain buf = S.drain buf' := by
  cases hn : S.next buf' with
  | mk o r =>
    cases o with
    | none => rw [S.drain_of_none (h.trans hn), S.drain_of_none hn]
    | some f => rw [S.drain_of_some (h.trans hn), S.drain_of_some hn]

/-! ## How far a reader has come -/

/-- A reader that has been given these symbols and has returned `taken` holds `buf`: what
is still to come of them will come of `buf`. -/
def At (symbols : List α) (taken : List φ) (buf : List α) : Prop :=
  S.drain symbols = (taken ++ (S.drain buf).1, (S.drain buf).2)

section At

variable {S} {symbols buf r : List α} {taken : List φ}

theorem at_nil : S.At [] [] [] := rfl

theorem At.frames (h : S.At symbols taken buf) : (S.drain symbols).1 = taken ++ (S.drain buf).1 :=
  congrArg Prod.fst h

theorem At.feed (h : S.At symbols taken buf) (x : List α) :
    S.At (symbols ++ x) taken (buf ++ x) := by
  rw [At] at h ⊢
  rw [drain_append, h, S.drain_append buf, List.append_assoc]

theorem At.next_some {f : φ} (h : S.At symbols taken buf) (hn : S.next buf = (some f, r)) :
    S.At symbols (taken ++ [f]) r := by
  rw [At] at h ⊢
  rw [h, S.drain_of_some hn, List.append_assoc, List.singleton_append]

theorem At.next_none (h : S.At symbols taken buf) (hn : S.next buf = (none, r)) :
    S.At symbols taken r := by
  rw [At] at h ⊢
  rw [h, S.drain_of_none hn, S.drain_of_none (S.next_of_needMore (S.next_none_needMore hn))]

/-- A reader that finds nothing has returned all there is. -/
theorem At.waiting (h : S.At symbols taken buf) (hn : S.next buf = (none, r)) :
    (S.drain symbols).1 = taken := by
  rw [h.frames, S.drain_of_none hn, List.append_nil]

end At

/-! ## Garbage in front -/

/-- Where no offset of `g` is a reason to stop, a read begins behind `g`. -/
theorem next_skip : ∀ {g rest : List α},
    (∀ i < g.length, S.decode ((g ++ rest).drop i) = .resync) → S.next (g ++ rest) = S.next rest
  | [], _, _ => rfl
  | b :: g, rest, h => by
      have hfirst : S.decode (b :: (g ++ rest)) = .resync := h 0 (Nat.zero_lt_succ _)
      rw [List.cons_append, S.next_of_resync hfirst]
      exact next_skip fun i hi => h (i + 1) (Nat.succ_lt_succ hi)

/-! ## Any interleaving of feeds and reads -/

/-- What a caller does with a reader. -/
inductive Op (α : Type) where
  | feed (bytes : List α)
  | read
  deriving DecidableEq, Repr

/-- Everything a list of operations feeds, in order. -/
def fed : List (Op α) → List α
  | [] => []
  | .feed bs :: ops => bs ++ fed ops
  | .read :: ops => fed ops

/-- The frames a list of operations returns, and the buffer it leaves. -/
def runOps : List α → List (Op α) → List φ × List α
  | buf, [] => ([], buf)
  | buf, .feed bs :: ops => runOps (buf ++ bs) ops
  | buf, .read :: ops =>
      match S.next buf with
      | (some f, r) => (f :: (runOps r ops).1, (runOps r ops).2)
      | (none, r) => runOps r ops

/-- **Chunk independence.**  Whatever the interleaving of feeds and reads, a
final drain completes the frame list to that of one drain of all that was fed,
and leaves the same buffer. -/
theorem runOps_drain (ops : List (Op α)) (buf : List α) :
    ((S.runOps buf ops).1 ++ (S.drain (S.runOps buf ops).2).1,
      (S.drain (S.runOps buf ops).2).2) = S.drain (buf ++ fed ops) := by
  induction ops generalizing buf with
  | nil => simp [runOps, fed]
  | cons op ops ih =>
    cases op with
    | feed bs =>
        simp only [runOps, fed]
        rw [ih, List.append_assoc]
    | read =>
        cases h : S.next buf with
        | mk o r =>
          cases o with
          | none =>
              have hd := S.drain_append buf (fed ops)
              rw [S.drain_of_none h] at hd
              simp only [runOps, h, fed]
              rw [ih, hd, List.nil_append]
          | some f =>
              have hih := ih r
              have hd := S.drain_of_some (S.next_append_some (fed ops) h)
              simp only [runOps, h, fed]
              rw [hd, ← hih]
              rfl

end Scanner

end Lib
