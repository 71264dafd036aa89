/-
# `FlipLink.Proto.Rfc8949` — a CBOR library with the assumed behaviour

`rfc8949` is a `Minicbor` written from RFC 8949: shortest-form heads on the way
out, heads of every form on the way in, UTF-8 validated, the type of an item
read off its initial byte (and, for a negative item, the top bit of its
argument, which is what decides the signed type that holds it).  `skip` knows
the break byte only, which is the one place where the value codec calls it.

`rfc8949_lawful` is the point: everything `Minicbor.Lawful` asks for can be had
at once.
-/
import FlipLink.Proto.Minicbor

namespace FlipLink

open Lib Lib.Cbor

/-! ## The definition -/

/-- The unsigned item types by additional information. -/
def rfcUnsigned (i : Nat) : CborType :=
  if i ≤ 24 then .u8
  else if i = 25 then .u16
  else if i = 26 then .u32
  else if i = 27 then .u64
  else .unknown

/-- The signed item types by additional information and the byte that follows. -/
def rfcNegative (i : Nat) (bs : List UInt8) : Except String CborType :=
  if i < 24 then .ok .i8
  else match bs with
    | [] => .error "end of input bytes"
    | c :: _ =>
        if i = 24 then .ok (if c.toNat < 0x80 then .i8 else .i16)
        else if i = 25 then .ok (if c.toNat < 0x80 then .i16 else .i32)
        else if i = 26 then .ok (if c.toNat < 0x80 then .i32 else .i64)
        else if i = 27 then .ok (if c.toNat < 0x80 then .i64 else .int)
        else .ok .unknown

/-- Item types that come in a definite and an indefinite form. -/
def rfcSized (i : Nat) (definite indefinite : CborType) : CborType :=
  if i ≤ 27 then definite else if i = 31 then indefinite else .unknown

/-- Major type 7. -/
def rfcSimple (i : Nat) : CborType :=
  if i < 20 then .simple
  else if i ≤ 21 then .bool
  else if i = 22 then .null
  else if i = 23 then .undefined
  else if i = 24 then .simple
  else if i = 25 then .f16
  else if i = 26 then .f32
  else if i = 27 then .f64
  else if i = 31 then .break
  else .unknown

def rfcDatatype : List UInt8 → Except String CborType
  | [] => .error "end of input bytes"
  | b :: bs =>
      let m := b.toNat / 32
      let i := b.toNat % 32
      if m = 0 then .ok (rfcUnsigned i)
      else if m = 1 then rfcNegative i bs
      else if m = 2 then .ok (rfcSized i .bytes .bytesIndef)
      else if m = 3 then .ok (rfcSized i .string .stringIndef)
      else if m = 4 then .ok (rfcSized i .array .arrayIndef)
      else if m = 5 then .ok (rfcSized i .map .mapIndef)
      else if m = 6 then .ok .tag
      else .ok (rfcSimple i)

/-- An argument of major type `m`, as a `Result`. -/
def rfcHead (m : Nat) (d : List UInt8) : Except String (Nat × List UInt8) :=
  match readHead m d with
  | some p => .ok p
  | none => .error "unexpected type"

/-- A counted run of bytes of major type `m`. -/
def rfcRun (m : Nat) (d : List UInt8) : Except String (List UInt8 × List UInt8) :=
  match readHead m d with
  | some (n, r) =>
      if n ≤ r.length then .ok (r.take n, r.drop n) else .error "end of input bytes"
  | none => .error "unexpected type"

def rfcNull : List UInt8 → Except String (List UInt8)
  | b :: r => if b = 0xF6 then .ok r else .error "unexpected type"
  | [] => .error "end of input bytes"

def rfcBool : List UInt8 → Except String (Bool × List UInt8)
  | b :: r =>
      if b = 0xF5 then .ok (true, r)
      else if b = 0xF4 then .ok (false, r)
      else .error "unexpected type"
  | [] => .error "end of input bytes"

def rfcU64 (d : List UInt8) : Except String (UInt64 × List UInt8) :=
  (rfcHead 0 d).map fun p => (UInt64.ofNat p.1, p.2)

def rfcI64 (d : List UInt8) : Except String (Int64 × List UInt8) :=
  match readHead 0 d, readHead 1 d with
  | some (n, r), _ => if n < 2 ^ 63 then .ok (Int64.ofNat n, r) else .error "overflow"
  | none, some (n, r) =>
      if n < 2 ^ 63 then .ok (Int64.ofInt (-1 - n), r) else .error "overflow"
  | none, none => .error "unexpected type"

def rfcStr (d : List UInt8) : Except String (String × List UInt8) :=
  match rfcRun 3 d with
  | .error e => .error e
  | .ok (b, r) =>
      match String.fromUTF8? { data := b.toArray } with
      | some s => .ok (s, r)
      | none => .error "invalid UTF-8"

/-- A container head: the byte `indef` opens an indefinite one. -/
def rfcContainer (m : Nat) (indef : UInt8) :
    List UInt8 → Except String (Option UInt64 × List UInt8)
  | [] => .error "end of input bytes"
  | b :: r =>
      if b = indef then .ok (none, r)
      else (rfcHead m (b :: r)).map fun p => (some (UInt64.ofNat p.1), p.2)

def rfcSkip : List UInt8 → Except String (List UInt8)
  | b :: r => if b = 0xFF then .ok r else .error "unexpected type"
  | [] => .error "end of input bytes"

def rfc8949 : Minicbor String where
  encNull := [0xF6]
  encBool b := [if b then 0xF5 else 0xF4]
  encU64 n := head 0 n.toNat
  encI64 n := if 0 ≤ n.toInt then head 0 n.toInt.toNat else head 1 (negArg n)
  encStr s := head 3 (utf8 s).length ++ utf8 s
  encBytes b := head 2 b.length ++ b
  encArray n := head 4 n.toNat
  encMap n := head 5 n.toNat
  datatype := rfcDatatype
  null := rfcNull
  bool := rfcBool
  u64 := rfcU64
  i64 := rfcI64
  str := rfcStr
  bytes := rfcRun 2
  array := rfcContainer 4 0x9F
  map := rfcContainer 5 0xBF
  skip := rfcSkip
  message s := s

/-! ## `datatype` of a head -/

theorem beBytes_succ (k n : Nat) :
    beBytes (k + 1) n = UInt8.ofNat (n / 256 ^ k) :: beBytes k n := by
  have h : ∀ k n, leBytes (k + 1) n = leBytes k n ++ [UInt8.ofNat (n / 256 ^ k)] := by
    intro k
    induction k with
    | zero => intro n; simp [leBytes]
    | succ k ih =>
        intro n
        rw [leBytes, ih, leBytes, Nat.div_div_eq_div_mul, Nat.pow_succ, Nat.mul_comm 256]
        rfl
  rw [beBytes, h, List.reverse_append]
  rfl

/-- The initial byte of a head carries its major type, and the additional
information of its width. -/
theorem head_cons (m n : Nat) (rest : List UInt8) :
    head m n ++ rest =
      match width n with
      | .short => initial m n :: rest
      | .w8 => initial m 24 :: UInt8.ofNat n :: rest
      | .w16 => initial m 25 :: UInt8.ofNat (n / 256 ^ 1) :: (beBytes 1 n ++ rest)
      | .w32 => initial m 26 :: UInt8.ofNat (n / 256 ^ 3) :: (beBytes 3 n ++ rest)
      | .w64 => initial m 27 :: UInt8.ofNat (n / 256 ^ 7) :: (beBytes 7 n ++ rest) := by
  unfold head
  cases width n with
  | short => rfl
  | w8 => show _ :: (beBytes 1 n ++ rest) = _; rw [beBytes_succ, Nat.pow_zero, Nat.div_one]; rfl
  | w16 => show _ :: (beBytes 2 n ++ rest) = _; rw [beBytes_succ]; rfl
  | w32 => show _ :: (beBytes 4 n ++ rest) = _; rw [beBytes_succ]; rfl
  | w64 => show _ :: (beBytes 8 n ++ rest) = _; rw [beBytes_succ]; rfl

/-- The additional information of the head of `n`. -/
def headInfo (n : Nat) : Nat :=
  match width n with
  | .short => n
  | .w8 => 24
  | .w16 => 25
  | .w32 => 26
  | .w64 => 27

theorem headInfo_le {n : Nat} (hn : n < 2 ^ 64) : headInfo n ≤ 27 := by
  have h := width_spec hn
  unfold headInfo
  cases hw : width n <;> rw [hw] at h <;> dsimp only at h ⊢ <;> omega

/-- A head is its initial byte and a tail, whatever its width. -/
theorem head_eq_initial (m n : Nat) : ∃ tail, head m n = initial m (headInfo n) :: tail := by
  unfold head headInfo
  cases width n with
  | short => exact ⟨_, rfl⟩
  | w8 => exact ⟨_, rfl⟩
  | w16 => exact ⟨_, rfl⟩
  | w32 => exact ⟨_, rfl⟩
  | w64 => exact ⟨_, rfl⟩

theorem rfcDatatype_initial {m i : Nat} (hm : m < 8) (hi : i < 32) (bs : List UInt8) :
    rfcDatatype (initial m i :: bs) =
      if m = 0 then .ok (rfcUnsigned i)
      else if m = 1 then rfcNegative i bs
      else if m = 2 then .ok (rfcSized i .bytes .bytesIndef)
      else if m = 3 then .ok (rfcSized i .string .stringIndef)
      else if m = 4 then .ok (rfcSized i .array .arrayIndef)
      else if m = 5 then .ok (rfcSized i .map .mapIndef)
      else if m = 6 then .ok .tag
      else .ok (rfcSimple i) := by
  simp only [rfcDatatype, initial_div hm hi, initial_mod hi]

theorem rfc_unsigned {n : Nat} (hn : n < 2 ^ 64) (rest : List UInt8) :
    rfcDatatype (head 0 n ++ rest) = .ok (unsignedType n) := by
  have hw := width_spec hn
  obtain ⟨tail, htail⟩ := head_eq_initial 0 n
  have hinfo := headInfo_le hn
  rw [htail, List.cons_append, rfcDatatype_initial (by decide) (by omega), if_pos rfl]
  congr 1
  unfold headInfo rfcUnsigned unsignedType
  cases hwn : width n <;> rw [hwn] at hw <;> dsimp only at hw ⊢ <;> split_ifs <;> first
    | rfl
    | omega

theorem rfc_negative {n : Nat} (hn : n < 2 ^ 64) (rest : List UInt8) :
    rfcDatatype (head 1 n ++ rest) = .ok (negativeType n) := by
  have hw := width_spec hn
  rw [head_cons]
  cases hwn : width n <;> rw [hwn] at hw <;> dsimp only at hw ⊢ <;>
    rw [rfcDatatype_initial (by decide) (by omega), if_neg (by decide), if_pos rfl] <;>
    simp only [rfcNegative, negativeType, UInt8.toNat_ofNat'] <;>
    split_ifs <;> first
      | rfl
      | omega

theorem rfcSized_headInfo {n : Nat} (hn : n < 2 ^ 64) (t t' : CborType) :
    rfcSized (headInfo n) t t' = t := by
  rw [rfcSized, if_pos (headInfo_le hn)]

/-- A definite head of one of the four sized major types. -/
theorem rfc_sized {n : Nat} (hn : n < 2 ^ 64) (rest : List UInt8) :
    rfcDatatype (head 2 n ++ rest) = .ok .bytes ∧
    rfcDatatype (head 3 n ++ rest) = .ok .string ∧
    rfcDatatype (head 4 n ++ rest) = .ok .array ∧
    rfcDatatype (head 5 n ++ rest) = .ok .map := by
  have hinfo := headInfo_le hn
  have key : ∀ m, m < 8 → ∃ tail, head m n ++ rest = initial m (headInfo n) :: tail := by
    intro m _
    obtain ⟨tail, htail⟩ := head_eq_initial m n
    exact ⟨tail ++ rest, by rw [htail, List.cons_append]⟩
  obtain ⟨_, h2⟩ := key 2 (by decide)
  obtain ⟨_, h3⟩ := key 3 (by decide)
  obtain ⟨_, h4⟩ := key 4 (by decide)
  obtain ⟨_, h5⟩ := key 5 (by decide)
  refine ⟨?_, ?_, ?_, ?_⟩
  · rw [h2, rfcDatatype_initial (by decide) (by omega)]
    simp only [rfcSized_headInfo hn]
    rfl
  · rw [h3, rfcDatatype_initial (by decide) (by omega)]
    simp only [rfcSized_headInfo hn]
    rfl
  · rw [h4, rfcDatatype_initial (by decide) (by omega)]
    simp only [rfcSized_headInfo hn]
    rfl
  · rw [h5, rfcDatatype_initial (by decide) (by omega)]
    simp only [rfcSized_headInfo hn]
    rfl

/-! ## The readers invert the writers -/

theorem rfcHead_head {m n : Nat} (hm : m < 8) (hn : n < 2 ^ 64) (rest : List UInt8) :
    rfcHead m (head m n ++ rest) = .ok (n, rest) := by
  rw [rfcHead, readHead_head hm hn]

theorem rfcHead_lt {m n : Nat} {d rest : List UInt8} (h : rfcHead m d = .ok (n, rest)) :
    rest.length < d.length := by
  unfold rfcHead at h
  cases hr : readHead m d with
  | none => rw [hr] at h; exact nomatch h
  | some p =>
      rw [hr] at h
      obtain rfl := Except.ok.inj h
      exact readHead_length hr

theorem rfcRun_enc {m : Nat} (hm : m < 8) {b : List UInt8} (hb : b.length < 2 ^ 64)
    (rest : List UInt8) : rfcRun m (head m b.length ++ b ++ rest) = .ok (b, rest) := by
  simp only [rfcRun, List.append_assoc, readHead_head hm hb]
  rw [if_pos (by simp), List.take_left, List.drop_left]

theorem rfcRun_lt {m : Nat} {d b rest : List UInt8} (h : rfcRun m d = .ok (b, rest)) :
    b.length + rest.length < d.length := by
  unfold rfcRun at h
  cases hr : readHead m d with
  | none => rw [hr] at h; exact nomatch h
  | some p =>
      obtain ⟨n, r⟩ := p
      rw [hr] at h
      have hlt := readHead_length hr
      by_cases hn : n ≤ r.length
      · simp only [if_pos hn, Except.ok.injEq, Prod.mk.injEq] at h
        obtain ⟨rfl, rfl⟩ := h
        rw [List.length_take, List.length_drop]
        omega
      · simp only [if_neg hn] at h
        exact nomatch h

theorem fromUTF8_utf8 (s : String) :
    String.fromUTF8? { data := (utf8 s).toArray } = some s := by
  have hdata : ({ data := (utf8 s).toArray } : ByteArray) = s.toByteArray := by
    rw [utf8, Array.toArray_toList]
  rw [hdata, String.fromUTF8?, dif_pos s.isValidUTF8]
  rfl

theorem utf8_of_fromUTF8 {b : List UInt8} {s : String}
    (h : String.fromUTF8? { data := b.toArray } = some s) : utf8 s = b := by
  unfold String.fromUTF8? at h
  split at h
  · rename_i hv
    obtain rfl := Option.some.inj h
    rfl
  · exact nomatch h

theorem rfcStr_enc {s : String} (hs : (utf8 s).length < 2 ^ 64) (rest : List UInt8) :
    rfcStr (head 3 (utf8 s).length ++ utf8 s ++ rest) = .ok (s, rest) := by
  simp only [rfcStr, rfcRun_enc (m := 3) (by decide) hs, fromUTF8_utf8]

theorem rfcStr_lt {d rest : List UInt8} {s : String} (h : rfcStr d = .ok (s, rest)) :
    (utf8 s).length + rest.length < d.length := by
  unfold rfcStr at h
  cases hr : rfcRun 3 d with
  | error e => rw [hr] at h; exact nomatch h
  | ok p =>
      obtain ⟨b, r⟩ := p
      rw [hr] at h
      cases hs : String.fromUTF8? { data := b.toArray } with
      | none => simp only [hs] at h; exact nomatch h
      | some s' =>
          simp only [hs, Except.ok.injEq, Prod.mk.injEq] at h
          obtain ⟨rfl, rfl⟩ := h
          rw [utf8_of_fromUTF8 hs]
          exact rfcRun_lt hr

theorem rfcContainer_enc {m : Nat} (hm : m < 8) {indef : UInt8}
    (hindef : indef = UInt8.ofNat (32 * m + 31)) (n : UInt64) (rest : List UInt8) :
    rfcContainer m indef (head m n.toNat ++ rest) = .ok (some n, rest) := by
  have hn : n.toNat < 2 ^ 64 := n.toNat_lt
  have hinfo := headInfo_le hn
  obtain ⟨tail, htail⟩ := head_eq_initial m n.toNat
  have hne : initial m (headInfo n.toNat) ≠ indef := by
    intro h
    have := congrArg (fun b => b.toNat % 32) h
    simp only [hindef, initial_mod (m := m) (i := headInfo n.toNat) (by omega),
      UInt8.toNat_ofNat'] at this
    omega
  have hh := rfcHead_head hm hn rest
  rw [htail, List.cons_append] at hh ⊢
  rw [rfcContainer, if_neg hne, hh]
  simp only [Except.map, UInt64.ofNat_toNat]

theorem rfcContainer_lt {m : Nat} {indef : UInt8} {d rest : List UInt8} {n : Option UInt64}
    (h : rfcContainer m indef d = .ok (n, rest)) : rest.length < d.length := by
  cases d with
  | nil => exact nomatch h
  | cons b r =>
      rw [rfcContainer] at h
      by_cases hb : b = indef
      · rw [if_pos hb] at h
        obtain ⟨-, rfl⟩ := Prod.mk.inj (Except.ok.inj h)
        exact Nat.lt_succ_self _
      · rw [if_neg hb] at h
        cases hr : rfcHead m (b :: r) with
        | error e => rw [hr] at h; exact nomatch h
        | ok p =>
            rw [hr] at h
            obtain ⟨-, rfl⟩ := Prod.mk.inj (Except.ok.inj h)
            exact rfcHead_lt hr

/-! ## Integers -/

/-- A head is not read under another major type. -/
theorem readHead_head_ne {m m' n : Nat} (hm : m < 8) (hn : n < 2 ^ 64) (hne : m ≠ m')
    (rest : List UInt8) : readHead m' (head m n ++ rest) = none := by
  obtain ⟨tail, htail⟩ := head_eq_initial m n
  have hinfo := headInfo_le hn
  rw [htail, List.cons_append, readHead, initial_div hm (by omega), if_neg hne]

theorem negArg_lt {n : Int64} (h : n.toInt < 0) : negArg n < 2 ^ 63 := by
  have := n.le_toInt
  simp only [negArg]
  omega

theorem ofInt_negArg {n : Int64} (h : n.toInt < 0) : Int64.ofInt (-1 - (negArg n : Int)) = n := by
  have hcast : (-1 - (negArg n : Int)) = n.toInt := by
    simp only [negArg]
    omega
  rw [hcast, Int64.ofInt_toInt]

theorem rfcI64_enc (n : Int64) (rest : List UInt8) :
    rfcI64 ((if 0 ≤ n.toInt then head 0 n.toInt.toNat else head 1 (negArg n)) ++ rest)
      = .ok (n, rest) := by
  have hlt := n.toInt_lt
  by_cases h : 0 ≤ n.toInt
  · have hn : n.toInt.toNat < 2 ^ 63 := by omega
    have hback : Int64.ofNat n.toInt.toNat = n := by
      apply Int64.toInt_inj.mp
      rw [Int64.toInt_ofNat_of_lt hn]
      omega
    rw [if_pos h, rfcI64, readHead_head (by decide) (by omega)]
    simp only [if_pos hn, hback]
  · have hneg : n.toInt < 0 := by omega
    have hn := negArg_lt hneg
    rw [if_neg h, rfcI64, readHead_head_ne (m := 1) (by decide) (by omega) (by decide),
      readHead_head (by decide) (by omega)]
    simp only [if_pos hn, ofInt_negArg hneg]

theorem rfcI64_lt {d rest : List UInt8} {n : Int64} (h : rfcI64 d = .ok (n, rest)) :
    rest.length < d.length := by
  unfold rfcI64 at h
  cases h0 : readHead 0 d with
  | some p =>
      simp only [h0] at h
      split_ifs at h
      obtain ⟨-, rfl⟩ := Prod.mk.inj (Except.ok.inj h)
      exact readHead_length h0
  | none =>
      cases h1 : readHead 1 d with
      | none => simp only [h0, h1] at h; exact nomatch h
      | some p =>
          simp only [h0, h1] at h
          split_ifs at h
          obtain ⟨-, rfl⟩ := Prod.mk.inj (Except.ok.inj h)
          exact readHead_length h1

theorem rfcUnsigned_signed (i : Nat) : (rfcUnsigned i).signed = false := by
  unfold rfcUnsigned
  split_ifs <;> rfl

theorem rfcSized_signed {t t' : CborType} (h : t.signed = false) (h' : t'.signed = false)
    (i : Nat) : (rfcSized i t t').signed = false := by
  unfold rfcSized
  split_ifs <;> first | assumption | rfl

theorem rfcSimple_signed (i : Nat) : (rfcSimple i).signed = false := by
  unfold rfcSimple
  split_ifs <;> rfl

/-- A signed type is reported of major type 1 only. -/
theorem rfcDatatype_signed {b : UInt8} {bs : List UInt8} {t : CborType}
    (h : rfcDatatype (b :: bs) = .ok t) (ht : t.signed = true) : b.toNat / 32 = 1 := by
  by_contra hne
  have hf : t.signed = false := by
    dsimp only [rfcDatatype] at h
    rw [if_neg hne] at h
    split_ifs at h
    · exact Except.ok.inj h ▸ rfcUnsigned_signed _
    · exact Except.ok.inj h ▸ rfcSized_signed rfl rfl _
    · exact Except.ok.inj h ▸ rfcSized_signed rfl rfl _
    · exact Except.ok.inj h ▸ rfcSized_signed rfl rfl _
    · exact Except.ok.inj h ▸ rfcSized_signed rfl rfl _
    · exact Except.ok.inj h ▸ rfl
    · exact Except.ok.inj h ▸ rfcSimple_signed _
  rw [hf] at ht
  exact nomatch ht

theorem rfcI64_neg {d rest : List UInt8} {t : CborType} {n : Int64}
    (hd : rfcDatatype d = .ok t) (ht : t.signed = true)
    (h : rfcI64 d = .ok (n, rest)) : n.toInt < 0 := by
  cases d with
  | nil => cases hd
  | cons b bs =>
      have hb := rfcDatatype_signed hd ht
      have h0 : readHead 0 (b :: bs) = none := by
        rw [readHead, if_neg (by omega)]
      unfold rfcI64 at h
      cases h1 : readHead 1 (b :: bs) with
      | none => simp only [h0, h1] at h; cases h
      | some p =>
          simp only [h0, h1] at h
          split_ifs at h with hp
          obtain ⟨rfl, -⟩ := Prod.mk.inj (Except.ok.inj h)
          rw [Int64.toInt_ofInt_of_le (by omega) (by omega)]
          omega

/-! ## All of it -/

theorem rfc8949_lawful : rfc8949.Lawful where
  encNull_eq := rfl
  encBool_eq _ := rfl
  encU64_eq _ := rfl
  encI64_eq _ := rfl
  encStr_eq _ := rfl
  encBytes_eq _ := rfl
  encArray_eq _ := rfl
  encMap_eq _ := rfl
  null_enc _ := rfl
  bool_enc b _ := by cases b <;> rfl
  u64_enc n rest := by
    show (rfcHead 0 (head 0 n.toNat ++ rest)).map _ = _
    rw [rfcHead_head (by decide) n.toNat_lt]
    simp only [Except.map, UInt64.ofNat_toNat]
  i64_enc := rfcI64_enc
  str_enc _ rest hs := rfcStr_enc hs rest
  bytes_enc _ rest hb := rfcRun_enc (by decide) hb rest
  array_enc n rest := rfcContainer_enc (by decide) rfl n rest
  map_enc n rest := rfcContainer_enc (by decide) rfl n rest
  datatype_null _ := rfl
  datatype_bool b _ := by cases b <;> rfl
  datatype_unsigned _ rest hn := rfc_unsigned hn rest
  datatype_negative _ rest hn := rfc_negative hn rest
  datatype_bytes _ rest hn := (rfc_sized hn rest).1
  datatype_string _ rest hn := (rfc_sized hn rest).2.1
  datatype_array _ rest hn := (rfc_sized hn rest).2.2.1
  datatype_map _ rest hn := (rfc_sized hn rest).2.2.2
  i64_neg := rfcI64_neg
  null_lt {d rest} h := by
    cases d with
    | nil => exact nomatch h
    | cons b r =>
        simp only [rfc8949, rfcNull] at h
        split_ifs at h
        obtain rfl := Except.ok.inj h
        exact Nat.lt_succ_self _
  bool_lt {d b rest} h := by
    cases d with
    | nil => exact nomatch h
    | cons c r =>
        simp only [rfc8949, rfcBool] at h
        split_ifs at h <;> obtain ⟨-, rfl⟩ := Prod.mk.inj (Except.ok.inj h) <;>
          exact Nat.lt_succ_self _
  u64_lt {d n rest} h := by
    simp only [rfc8949, rfcU64] at h
    cases hr : rfcHead 0 d with
    | error e => rw [hr] at h; exact nomatch h
    | ok p =>
        rw [hr] at h
        obtain ⟨-, rfl⟩ := Prod.mk.inj (Except.ok.inj h)
        exact rfcHead_lt hr
  i64_lt := rfcI64_lt
  str_lt := rfcStr_lt
  bytes_lt := rfcRun_lt
  array_lt := rfcContainer_lt
  map_lt := rfcContainer_lt
  skip_lt {d rest} h := by
    cases d with
    | nil => exact nomatch h
    | cons b r =>
        simp only [rfc8949, rfcSkip] at h
        split_ifs at h
        obtain rfl := Except.ok.inj h
        exact Nat.lt_succ_self _

end FlipLink
