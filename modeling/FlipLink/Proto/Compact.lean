/-
# `FlipLink.Proto.Compact` — how long a value is that was read

The writers of minicbor emit the shortest head of every item, and the readers take
heads of any form, so that an item is never written longer than it was read
(`Minicbor.Compact`).  For a whole value that is not quite so: an array or a map of
indefinite length is two bytes around its elements, and is written back with a head
that counts them.  Twice the bytes read is enough for either
(`length_encode_decode`, by induction on the nesting).
-/
import FlipLink.Proto.ValueCodec

namespace FlipLink

open Lib Lib.Cbor

/-- What is written is no longer than what was read. -/
structure Minicbor.Compact {ε : Type} (cb : Minicbor ε) : Prop where
  u64_le : ∀ {d n rest}, cb.u64 d = .ok (n, rest) →
    (cb.encU64 n).length + rest.length ≤ d.length
  i64_le : ∀ {d n rest}, cb.i64 d = .ok (n, rest) →
    (cb.encI64 n).length + rest.length ≤ d.length
  str_le : ∀ {d s rest}, cb.str d = .ok (s, rest) →
    (cb.encStr s).length + rest.length ≤ d.length
  bytes_le : ∀ {d b rest}, cb.bytes d = .ok (b, rest) →
    (cb.encBytes b).length + rest.length ≤ d.length
  array_le : ∀ {d n rest}, cb.array d = .ok (some n, rest) →
    (cb.encArray n).length + rest.length ≤ d.length
  map_le : ∀ {d n rest}, cb.map d = .ok (some n, rest) →
    (cb.encMap n).length + rest.length ≤ d.length

namespace Value

variable {ε α : Type} {cb : Minicbor ε}

/-! ## The loops

What an element costs is a measure `size`, paid for twice by the bytes read. -/

section Loops

variable {item : Reader ε α} {size : α → Nat}

theorem times_size (hitem : ∀ {d x r}, d.length < 2 ^ 16 → item d = .ok (x, r) →
      size x + 2 * r.length ≤ 2 * d.length) :
    ∀ {n : Nat} {d r : List UInt8} {xs : List α}, d.length < 2 ^ 16 →
      times item n d = .ok (xs, r) →
      xs.length = n ∧ (xs.map size).sum + 2 * r.length ≤ 2 * d.length
  | 0, d, r, xs, _, h => by
      obtain ⟨rfl, rfl⟩ := Prod.mk.inj (Except.ok.inj h)
      exact ⟨rfl, Nat.le_of_eq (Nat.zero_add _)⟩
  | n + 1, d, r, xs, hd, h => by
      rw [times] at h
      obtain ⟨⟨x, r₁⟩, hx, h⟩ := bind_ok.mp h
      obtain ⟨⟨ys, r₂⟩, hys, h⟩ := bind_ok.mp h
      obtain ⟨rfl, rfl⟩ := Prod.mk.inj (Except.ok.inj h)
      have hle := hitem hd hx
      obtain ⟨hlen, hles⟩ := times_size hitem (by omega) hys
      refine ⟨congrArg Nat.succ hlen, ?_⟩
      rw [List.map_cons, List.sum_cons]
      omega

/-- The byte behind the last element is paid for as well. -/
theorem untilBreak_size (hcb : cb.Lawful) (hitem : ∀ {d x r}, d.length < 2 ^ 16 →
      item d = .ok (x, r) → size x + 2 * r.length ≤ 2 * d.length) :
    ∀ {k : Nat} {d r : List UInt8} {xs : List α}, d.length < 2 ^ 16 →
      untilBreak cb item k d = .ok (xs, r) →
      (xs.map size).sum + 2 * r.length + 2 ≤ 2 * d.length
  | 0, _, _, _, _, h => nomatch h
  | k + 1, d, r, xs, hd, h => by
      rw [untilBreak] at h
      obtain ⟨t, -, h⟩ := bind_ok.mp h
      by_cases ht : t = .break
      · rw [if_pos ht] at h
        obtain ⟨r₁, hskip, h⟩ := bind_ok.mp h
        obtain ⟨rfl, rfl⟩ := Prod.mk.inj (Except.ok.inj h)
        have := hcb.skip_lt (call_ok.mp hskip)
        rw [List.map_nil, List.sum_nil]
        omega
      · rw [if_neg ht] at h
        obtain ⟨⟨x, r₁⟩, hx, h⟩ := bind_ok.mp h
        obtain ⟨⟨ys, r₂⟩, hys, h⟩ := bind_ok.mp h
        obtain ⟨rfl, rfl⟩ := Prod.mk.inj (Except.ok.inj h)
        have hle := hitem hd hx
        have hles := untilBreak_size hcb hitem (by omega) hys
        rw [List.map_cons, List.sum_cons]
        omega

/-- The elements of a container, behind its head. -/
theorem items_size (hcb : cb.Lawful) {P : α → Prop} (hok : ∀ {d x r}, d.length < 2 ^ 64 →
      item d = .ok (x, r) → P x ∧ r.length < d.length)
    (hitem : ∀ {d x r}, d.length < 2 ^ 16 → item d = .ok (x, r) →
      size x + 2 * r.length ≤ 2 * d.length)
    {enc : UInt64 → List UInt8} {m : Nat} (henc : ∀ n, enc n = head m n.toNat)
    {len : Option UInt64} {d d' r : List UInt8} {xs : List α} (hd : d.length < 2 ^ 16)
    (hlt : d'.length < d.length)
    (hlen : ∀ n, len = some n → (enc n).length + d'.length ≤ d.length)
    (h : items cb item len d' = .ok (xs, r)) :
    (enc (.ofNat xs.length)).length + (xs.map size).sum + 2 * r.length ≤ 2 * d.length := by
  cases len with
  | some n =>
      obtain ⟨hn, hle⟩ := times_size hitem (Nat.lt_trans hlt hd) h
      have := hlen n rfl
      rw [hn, UInt64.ofNat_toNat]
      omega
  | none =>
      have hle := untilBreak_size hcb hitem (Nat.lt_trans hlt hd) h
      obtain ⟨-, hcount⟩ := untilBreak_ok hcb hok (by omega) h
      -- fewer than 2^16 elements are counted in three bytes
      have hsize : headSize xs.length ≤ 3 := by
        unfold headSize width
        split_ifs <;> dsimp only <;> omega
      rw [henc, length_head, toNat_ofNat_length (by omega)]
      omega

end Loops

/-! ## A value -/

theorem length_encodeItems (a : List Value) :
    (encodeItems cb a).length = (a.map fun v => (encode cb v).length).sum := by
  induction a with
  | nil => rfl
  | cons v a ih => rw [encodeItems, List.length_append, ih, List.map_cons, List.sum_cons]

/-- The bytes of an entry of a map. -/
def entrySize (cb : Minicbor ε) (kv : String × Value) : Nat :=
  (cb.encStr kv.1).length + (encode cb kv.2).length

theorem length_encodeEntries (m : List (String × Value)) :
    (encodeEntries cb m).length = (m.map (entrySize cb)).sum := by
  induction m with
  | nil => rfl
  | cons kv m ih =>
      rw [encodeEntries, List.length_append, List.length_append, ih, List.map_cons, List.sum_cons,
        entrySize, Nat.add_assoc]

theorem entry_size (hcompact : cb.Compact) {value : Reader ε Value}
    (hvalue : ∀ {d v r}, d.length < 2 ^ 16 → value d = .ok (v, r) →
      (encode cb v).length + 2 * r.length ≤ 2 * d.length)
    {d r : List UInt8} {kv : String × Value} (hd : d.length < 2 ^ 16)
    (h : entry cb value d = .ok (kv, r)) : entrySize cb kv + 2 * r.length ≤ 2 * d.length := by
  rw [entry] at h
  obtain ⟨⟨key, r₁⟩, hkey, h⟩ := bind_ok.mp h
  obtain ⟨⟨v, r₂⟩, hv, h⟩ := bind_ok.mp h
  obtain ⟨rfl, rfl⟩ := Prod.mk.inj (Except.ok.inj h)
  have hle := hcompact.str_le (call_ok.mp hkey)
  have hle' := hvalue (by omega) hv
  show (cb.encStr key).length + (encode cb v).length + _ ≤ _
  omega

theorem length_encode_decodeN (hcb : cb.Lawful) (hcompact : cb.Compact) :
    ∀ {k : Nat} {d r : List UInt8} {v : Value}, d.length < 2 ^ 16 →
      decodeN cb k d = .ok (v, r) → (encode cb v).length + 2 * r.length ≤ 2 * d.length
  | 0, _, _, _, _, h => nomatch h
  | k + 1, d, r, v, hd, h => by
      cases decodeN_turn h with
      | null hr =>
          have := hcb.null_lt hr
          rw [encode, hcb.encNull_eq, List.length_singleton]
          omega
      | bool hb =>
          have := hcb.bool_lt hb
          rw [encode, hcb.encBool_eq, List.length_singleton]
          omega
      | u64 hn =>
          have := hcompact.u64_le hn
          rw [encode]
          omega
      | i64 _ _ hn =>
          have := hcompact.i64_le hn
          rw [encode]
          omega
      | text hs =>
          have := hcompact.str_le hs
          rw [encode]
          omega
      | bytes hb =>
          have := hcompact.bytes_le hb
          rw [encode]
          omega
      | array hlen hout =>
          rw [encode, List.length_append, length_encodeItems]
          refine items_size hcb (decodeN_ok hcb) (length_encode_decodeN hcb hcompact)
            hcb.encArray_eq hd (hcb.array_lt hlen) (fun n hn => ?_) hout
          exact hcompact.array_le (hn ▸ hlen)
      | map hlen hout =>
          rw [encode, List.length_append, length_encodeEntries]
          refine items_size hcb (entry_ok hcb (decodeN_ok hcb))
            (entry_size hcompact (length_encode_decodeN hcb hcompact)) hcb.encMap_eq hd
            (hcb.map_lt hlen) (fun n hn => ?_) hout
          exact hcompact.map_le (hn ▸ hlen)

/-- A value is written in at most twice the bytes that it was read from. -/
theorem length_encode_decode (hcb : cb.Lawful) (hcompact : cb.Compact) {d r : List UInt8}
    {v : Value} (hd : d.length < 2 ^ 16) (h : decode cb d = .ok (v, r)) :
    (encode cb v).length ≤ 2 * d.length := by
  have := length_encode_decodeN hcb hcompact hd h
  omega

end Value

/-! ## The library read off the RFC -/

theorem rfcHead_size {m n : Nat} {d rest : List UInt8} (h : rfcHead m d = .ok (n, rest)) :
    n < 2 ^ 64 ∧ headSize n + rest.length ≤ d.length := by
  unfold rfcHead at h
  cases hr : readHead m d with
  | none =>
      rw [hr] at h
      cases h
  | some p =>
      rw [hr] at h
      cases h
      exact readHead_spec hr

theorem rfcRun_size {m : Nat} {d b rest : List UInt8} (h : rfcRun m d = .ok (b, rest)) :
    headSize b.length + b.length + rest.length ≤ d.length := by
  unfold rfcRun at h
  cases hr : readHead m d with
  | none =>
      rw [hr] at h
      cases h
  | some p =>
      obtain ⟨n, r⟩ := p
      rw [hr] at h
      obtain ⟨-, hle⟩ := readHead_spec hr
      dsimp only at h
      split_ifs at h with hn
      cases h
      rw [List.length_take, List.length_drop, Nat.min_eq_left hn]
      omega

theorem rfcContainer_size {m : Nat} {indef : UInt8} {d rest : List UInt8} {n : UInt64}
    (h : rfcContainer m indef d = .ok (some n, rest)) :
    (head m n.toNat).length + rest.length ≤ d.length := by
  cases d with
  | nil => cases h
  | cons b r =>
      rw [rfcContainer] at h
      split_ifs at h
      · cases h
      · cases hr : rfcHead m (b :: r) with
        | error e =>
            rw [hr] at h
            cases h
        | ok p =>
            rw [hr] at h
            cases h
            obtain ⟨hlt, hle⟩ := rfcHead_size hr
            rwa [length_head, Value.toNat_ofNat_length hlt]

theorem rfcI64_size {d rest : List UInt8} {n : Int64} (h : rfcI64 d = .ok (n, rest)) :
    (rfc8949.encI64 n).length + rest.length ≤ d.length := by
  show (if 0 ≤ n.toInt then head 0 n.toInt.toNat else head 1 (negArg n)).length + _ ≤ _
  unfold rfcI64 at h
  cases h0 : readHead 0 d with
  | some p =>
      obtain ⟨m, r⟩ := p
      simp only [h0] at h
      split_ifs at h with hm
      cases h
      rw [Int64.toInt_ofNat_of_lt hm, if_pos (Int.natCast_nonneg m), length_head, Int.toNat_natCast]
      exact (readHead_spec h0).2
  | none =>
      cases h1 : readHead 1 d with
      | none =>
          simp only [h0, h1] at h
          cases h
      | some p =>
          obtain ⟨m, r⟩ := p
          simp only [h0, h1] at h
          split_ifs at h with hm
          cases h
          have hint : (Int64.ofInt (-1 - (m : Int))).toInt = -1 - m :=
            Int64.toInt_ofInt_of_le (by omega) (by omega)
          have harg : negArg (.ofInt (-1 - (m : Int))) = m := by
            rw [negArg, hint]
            omega
          rw [hint, if_neg (by omega), harg, length_head]
          exact (readHead_spec h1).2

theorem rfc8949_compact : rfc8949.Compact where
  u64_le {d n rest} h := by
    simp only [rfc8949, rfcU64] at h
    cases hr : rfcHead 0 d with
    | error e =>
        rw [hr] at h
        cases h
    | ok p =>
        rw [hr] at h
        cases h
        obtain ⟨hlt, hle⟩ := rfcHead_size hr
        show (head 0 _).length + _ ≤ _
        rwa [length_head, Value.toNat_ofNat_length hlt]
  i64_le := rfcI64_size
  str_le {d s rest} h := by
    simp only [rfc8949, rfcStr] at h
    cases hr : rfcRun 3 d with
    | error e =>
        rw [hr] at h
        cases h
    | ok p =>
        obtain ⟨b, r⟩ := p
        rw [hr] at h
        dsimp only at h
        cases hs : String.fromUTF8? { data := b.toArray } with
        | none =>
            rw [hs] at h
            cases h
        | some t =>
            rw [hs] at h
            cases h
            show (head 3 _ ++ _).length + _ ≤ _
            rw [utf8_of_fromUTF8 hs, List.length_append, length_head]
            exact rfcRun_size hr
  bytes_le {d b rest} h := by
    show (head 2 _ ++ _).length + _ ≤ _
    rw [List.length_append, length_head]
    exact rfcRun_size h
  array_le := rfcContainer_size
  map_le := rfcContainer_size

end FlipLink
