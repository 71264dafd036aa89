/-
# `Lib.Cbor` — the heads of RFC 8949 data items

Every CBOR item starts with a *head*: a major type (0 to 7) and an argument
below `2 ^ 64`, in one, two, three, five or nine bytes.  `head m n` is the
shortest of these forms, the one deterministic encoders write; `readHead m`
reads a head of major type `m` in any of its forms.

    argument       additional information   bytes that follow
    n < 24         n                        —
    n < 2^8        24                       1
    n < 2^16       25                       2
    n < 2^32       26                       4
    n < 2^64       27                       8

`readHead_head` is the round trip.  `Width` names the forms, because decoders
report them as types of their own.
-/
import FlipLink.Lib.Le

namespace Lib.Cbor

/-! ## Big-endian arguments -/

/-- The `k`-byte big-endian form of `n`. -/
def beBytes (k n : Nat) : List UInt8 := (leBytes k n).reverse

/-- The number these big-endian bytes spell. -/
def ofBeBytes (bs : List UInt8) : Nat := ofLeBytes bs.reverse

@[simp] theorem length_beBytes (k n : Nat) : (beBytes k n).length = k := by
  simp [beBytes]

theorem ofBeBytes_beBytes {k n : Nat} (h : n < 256 ^ k) : ofBeBytes (beBytes k n) = n := by
  rw [ofBeBytes, beBytes, List.reverse_reverse, ofLeBytes_leBytes, Nat.mod_eq_of_lt h]

/-! ## Writing a head -/

/-- How many bytes of argument follow the initial byte; `short` is an argument
inside the initial byte itself. -/
inductive Width where
  | short | w8 | w16 | w32 | w64
  deriving DecidableEq, Repr

/-- The shortest form that holds `n`. -/
def width (n : Nat) : Width :=
  if n < 24 then .short
  else if n < 2 ^ 8 then .w8
  else if n < 2 ^ 16 then .w16
  else if n < 2 ^ 32 then .w32
  else .w64

/-- The initial byte of major type `m` with additional information `i`. -/
def initial (m i : Nat) : UInt8 := UInt8.ofNat (32 * m + i)

/-- The shortest-form head of major type `m` and argument `n`. -/
def head (m n : Nat) : List UInt8 :=
  match width n with
  | .short => [initial m n]
  | .w8 => initial m 24 :: beBytes 1 n
  | .w16 => initial m 25 :: beBytes 2 n
  | .w32 => initial m 26 :: beBytes 4 n
  | .w64 => initial m 27 :: beBytes 8 n

theorem head_ne_nil (m n : Nat) : head m n ≠ [] := by
  unfold head
  split <;> exact List.cons_ne_nil _ _

theorem length_head_pos (m n : Nat) : 0 < (head m n).length :=
  List.length_pos_iff.mpr (head_ne_nil m n)

/-- The bytes of the head with argument `n`. -/
def headSize (n : Nat) : Nat :=
  match width n with
  | .short => 1
  | .w8 => 2
  | .w16 => 3
  | .w32 => 5
  | .w64 => 9

theorem length_head (m n : Nat) : (head m n).length = headSize n := by
  rw [head, headSize]
  cases width n <;> simp

theorem headSize_pos (n : Nat) : 0 < headSize n := by
  unfold headSize
  cases width n <;> decide

theorem headSize_le (n : Nat) : headSize n ≤ 9 := by
  unfold headSize
  cases width n <;> decide

/-- The head of a short string, or of a few items. -/
theorem headSize_of_lt {n : Nat} (h : n < 24) : headSize n = 1 := by
  rw [headSize, width, if_pos h]

/-! ## Reading a head -/

/-- The first `k` bytes as a big-endian number, and the rest. -/
def takeBe (k : Nat) (bs : List UInt8) : Option (Nat × List UInt8) :=
  if k ≤ bs.length then some (ofBeBytes (bs.take k), bs.drop k) else none

/-- The argument that the additional information `i` announces. -/
def readArg (i : Nat) (bs : List UInt8) : Option (Nat × List UInt8) :=
  if i < 24 then some (i, bs)
  else if i = 24 then takeBe 1 bs
  else if i = 25 then takeBe 2 bs
  else if i = 26 then takeBe 4 bs
  else if i = 27 then takeBe 8 bs
  else none

/-- A head of major type `m`, in any form: its argument and the rest. -/
def readHead (m : Nat) : List UInt8 → Option (Nat × List UInt8)
  | [] => none
  | b :: bs => if b.toNat / 32 = m then readArg (b.toNat % 32) bs else none

theorem takeBe_beBytes {k n : Nat} (h : n < 256 ^ k) (rest : List UInt8) :
    takeBe k (beBytes k n ++ rest) = some (n, rest) := by
  have htake : (beBytes k n ++ rest).take k = beBytes k n := List.take_left' (length_beBytes k n)
  have hdrop : (beBytes k n ++ rest).drop k = rest := List.drop_left' (length_beBytes k n)
  rw [takeBe, if_pos (by simp), htake, hdrop, ofBeBytes_beBytes h]

theorem initial_div {m i : Nat} (hm : m < 8) (hi : i < 32) : (initial m i).toNat / 32 = m := by
  simp only [initial, UInt8.toNat_ofNat']
  omega

theorem initial_mod {m i : Nat} (hi : i < 32) : (initial m i).toNat % 32 = i := by
  simp only [initial, UInt8.toNat_ofNat']
  omega

theorem readHead_initial {m i : Nat} (hm : m < 8) (hi : i < 32) (bs : List UInt8) :
    readHead m (initial m i :: bs) = readArg i bs := by
  rw [readHead, initial_div hm hi, if_pos rfl, initial_mod hi]

/-- What the width of an argument says about it. -/
theorem width_spec {n : Nat} (hn : n < 2 ^ 64) :
    match width n with
    | .short => n < 24
    | .w8 => 24 ≤ n ∧ n < 256 ^ 1
    | .w16 => 2 ^ 8 ≤ n ∧ n < 256 ^ 2
    | .w32 => 2 ^ 16 ≤ n ∧ n < 256 ^ 4
    | .w64 => 2 ^ 32 ≤ n ∧ n < 256 ^ 8 := by
  unfold width
  split_ifs <;> dsimp only <;> omega

/-- **Heads round-trip.** -/
theorem readHead_head {m n : Nat} (hm : m < 8) (hn : n < 2 ^ 64) (rest : List UInt8) :
    readHead m (head m n ++ rest) = some (n, rest) := by
  have hw := width_spec hn
  unfold head
  cases hwn : width n with
  | short =>
      rw [hwn] at hw
      show readHead m (initial m n :: rest) = _
      rw [readHead_initial hm (Nat.lt_trans hw (by decide)), readArg, if_pos hw]
  | w8 =>
      rw [hwn] at hw
      show readHead m (initial m 24 :: (beBytes 1 n ++ rest)) = _
      rw [readHead_initial hm (by decide)]
      exact takeBe_beBytes hw.2 rest
  | w16 =>
      rw [hwn] at hw
      show readHead m (initial m 25 :: (beBytes 2 n ++ rest)) = _
      rw [readHead_initial hm (by decide)]
      exact takeBe_beBytes hw.2 rest
  | w32 =>
      rw [hwn] at hw
      show readHead m (initial m 26 :: (beBytes 4 n ++ rest)) = _
      rw [readHead_initial hm (by decide)]
      exact takeBe_beBytes hw.2 rest
  | w64 =>
      rw [hwn] at hw
      show readHead m (initial m 27 :: (beBytes 8 n ++ rest)) = _
      rw [readHead_initial hm (by decide)]
      exact takeBe_beBytes hw.2 rest

theorem takeBe_spec {k n : Nat} {bs rest : List UInt8} (h : takeBe k bs = some (n, rest)) :
    n < 256 ^ k ∧ k + rest.length = bs.length := by
  unfold takeBe at h
  split_ifs at h with hk
  cases h
  constructor
  · have := ofLeBytes_lt (bs.take k).reverse
    rwa [List.length_reverse, List.length_take, Nat.min_eq_left hk] at this
  · rw [List.length_drop]
    omega

/-- The argument of a head that is read fits 64 bits, and the head is no shorter than
the shortest form of it. -/
theorem readHead_spec {m n : Nat} {bs rest : List UInt8} (h : readHead m bs = some (n, rest)) :
    n < 2 ^ 64 ∧ headSize n + rest.length ≤ bs.length := by
  cases bs with
  | nil => cases h
  | cons b bs =>
      rw [readHead] at h
      split_ifs at h
      unfold readArg at h
      unfold headSize width
      rw [List.length_cons]
      split_ifs at h
      · obtain ⟨rfl, rfl⟩ := Prod.mk.inj (Option.some.inj h)
        split_ifs
        dsimp only
        omega
      all_goals
        obtain ⟨hlt, hlen⟩ := takeBe_spec h
        split_ifs <;> dsimp only <;> omega

/-- A head that is read has at least one byte. -/
theorem readHead_length {m n : Nat} {bs rest : List UInt8} (h : readHead m bs = some (n, rest)) :
    rest.length < bs.length := by
  have := (readHead_spec h).2
  have := headSize_pos n
  omega

end Lib.Cbor
