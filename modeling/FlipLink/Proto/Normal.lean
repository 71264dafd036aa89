/-
# `FlipLink.Proto.Normal` — values as they come back

What a value is read back as (`norm`) is written like the value itself (`encode_norm`),
comes back as it is, and has lengths that fit if the value's do.  And a value that is
written in fewer than 2^64 bytes has no part that is longer (`fits_of_length`).
-/
import FlipLink.Proto.Minicbor
import FlipLink.Proto.Value

namespace FlipLink

open Lib Lib.Cbor

namespace Value

mutual

/-- What was read back is read back as it is. -/
theorem norm_norm : ∀ v : Value, v.norm.norm = v.norm
  | .null | .bool _ | .u64 _ | .text _ | .bytes _ => rfl
  | .i64 n => by
      by_cases hn : 0 ≤ n.toInt
      · rw [norm, if_pos hn, norm]
      · rw [norm, if_neg hn, norm, if_neg hn]
  | .array a => by rw [norm, norm, normItems_normItems a]
  | .map m => by rw [norm, norm, normEntries_normEntries m]

theorem normItems_normItems : ∀ a : List Value, normItems (normItems a) = normItems a
  | [] => rfl
  | v :: a => by rw [normItems, normItems, norm_norm v, normItems_normItems a]

theorem normEntries_normEntries : ∀ m : List (String × Value),
    normEntries (normEntries m) = normEntries m
  | [] => rfl
  | (k, v) :: m => by rw [normEntries, normEntries, norm_norm v, normEntries_normEntries m]

end

theorem length_normItems (a : List Value) : (normItems a).length = a.length := by
  induction a with
  | nil => rfl
  | cons v a ih => exact congrArg (· + 1) ih

theorem length_normEntries (m : List (String × Value)) :
    (normEntries m).length = m.length := by
  induction m with
  | nil => rfl
  | cons kv m ih => exact congrArg (· + 1) ih

mutual

theorem fits_norm : ∀ {v : Value}, v.Fits → v.norm.Fits
  | .null, _ | .bool _, _ | .u64 _, _ => trivial
  | .i64 n, _ => by
      rw [norm]
      split_ifs <;> trivial
  | .text _, h | .bytes _, h => h
  | .array a, h => ⟨(length_normItems a).symm ▸ h.1, fitsItems_norm h.2⟩
  | .map m, h => ⟨(length_normEntries m).symm ▸ h.1, fitsEntries_norm h.2⟩

theorem fitsItems_norm : ∀ {a : List Value}, FitsItems a → FitsItems (normItems a)
  | [], _ => trivial
  | _ :: _, h => ⟨fits_norm h.1, fitsItems_norm h.2⟩

theorem fitsEntries_norm : ∀ {m : List (String × Value)}, FitsEntries m →
    FitsEntries (normEntries m)
  | [], _ => trivial
  | (_, _) :: _, h => ⟨h.1, fits_norm h.2.1, fitsEntries_norm h.2.2⟩

end

section Length

variable {ε : Type} {cb : Minicbor ε}

theorem encode_pos (hcb : cb.Lawful) (v : Value) : 0 < (encode cb v).length := by
  cases v with
  | null => simp [encode, hcb.encNull_eq]
  | bool b => simp [encode, hcb.encBool_eq]
  | u64 n => simpa [encode, hcb.encU64_eq, length_head] using headSize_pos n.toNat
  | i64 n =>
      rw [encode, hcb.encI64_eq]
      split_ifs <;> exact (length_head _ _).symm ▸ headSize_pos _
  | text s =>
      have := headSize_pos (utf8 s).length
      rw [encode, hcb.encStr_eq, List.length_append, length_head]
      omega
  | bytes b =>
      have := headSize_pos b.length
      rw [encode, hcb.encBytes_eq, List.length_append, length_head]
      omega
  | array a =>
      have := headSize_pos (UInt64.ofNat a.length).toNat
      rw [encode, hcb.encArray_eq, List.length_append, length_head]
      omega
  | map m =>
      have := headSize_pos (UInt64.ofNat m.length).toNat
      rw [encode, hcb.encMap_eq, List.length_append, length_head]
      omega

theorem length_le_encodeItems (hcb : cb.Lawful) (a : List Value) :
    a.length ≤ (encodeItems cb a).length := by
  induction a with
  | nil => exact Nat.le_refl _
  | cons v a ih =>
      have := encode_pos hcb v
      rw [encodeItems, List.length_append, List.length_cons]
      omega

theorem length_le_encodeEntries (hcb : cb.Lawful) (m : List (String × Value)) :
    m.length ≤ (encodeEntries cb m).length := by
  induction m with
  | nil => exact Nat.le_refl _
  | cons kv m ih =>
      have := encode_pos hcb kv.2
      rw [encodeEntries, List.length_append, List.length_append, List.length_cons]
      omega

mutual

/-- A value that is written in fewer than 2^64 bytes has no longer part. -/
theorem fits_of_length (hcb : cb.Lawful) : ∀ {v : Value},
    (encode cb v).length < 2 ^ 64 → v.Fits
  | .null, _ | .bool _, _ | .u64 _, _ | .i64 _, _ => trivial
  | .text s, h => by
      rw [encode, hcb.encStr_eq, List.length_append] at h
      exact Nat.lt_of_le_of_lt (Nat.le_add_left _ _) h
  | .bytes b, h => by
      rw [encode, hcb.encBytes_eq, List.length_append] at h
      exact Nat.lt_of_le_of_lt (Nat.le_add_left _ _) h
  | .array a, h => by
      rw [encode, List.length_append] at h
      have hitems := Nat.lt_of_le_of_lt (Nat.le_add_left _ _) h
      exact ⟨Nat.lt_of_le_of_lt (length_le_encodeItems hcb a) hitems,
        fitsItems_of_length hcb hitems⟩
  | .map m, h => by
      rw [encode, List.length_append] at h
      have hentries := Nat.lt_of_le_of_lt (Nat.le_add_left _ _) h
      exact ⟨Nat.lt_of_le_of_lt (length_le_encodeEntries hcb m) hentries,
        fitsEntries_of_length hcb hentries⟩

theorem fitsItems_of_length (hcb : cb.Lawful) : ∀ {a : List Value},
    (encodeItems cb a).length < 2 ^ 64 → FitsItems a
  | [], _ => trivial
  | v :: a, h => by
      rw [encodeItems, List.length_append] at h
      exact ⟨fits_of_length hcb (by omega), fitsItems_of_length hcb (by omega)⟩

theorem fitsEntries_of_length (hcb : cb.Lawful) : ∀ {m : List (String × Value)},
    (encodeEntries cb m).length < 2 ^ 64 → FitsEntries m
  | [], _ => trivial
  | (k, v) :: m, h => by
      rw [encodeEntries, List.length_append, List.length_append, hcb.encStr_eq,
        List.length_append] at h
      exact ⟨by omega, fits_of_length hcb (by omega), fitsEntries_of_length hcb (by omega)⟩

end

mutual

/-- A value is written as it is read back. -/
theorem encode_norm (hcb : cb.Lawful) : ∀ v : Value, encode cb v.norm = encode cb v
  | .null | .bool _ | .u64 _ | .text _ | .bytes _ => rfl
  | .i64 n => by
      rw [norm]
      split_ifs with hn
      · have hlt : n.toInt < 2 ^ 63 := n.toInt_lt
        have hsize : n.toInt.toNat < UInt64.size := by
          simp only [UInt64.size]
          omega
        rw [encode, encode, hcb.encU64_eq, hcb.encI64_eq, if_pos hn,
          UInt64.toNat_ofNat_of_lt' hsize]
      · rfl
  | .array a => by
      rw [norm, encode, encode, length_normItems, encodeItems_norm hcb a]
  | .map m => by
      rw [norm, encode, encode, length_normEntries, encodeEntries_norm hcb m]

theorem encodeItems_norm (hcb : cb.Lawful) : ∀ a : List Value,
    encodeItems cb (normItems a) = encodeItems cb a
  | [] => rfl
  | v :: a => by
      rw [normItems, encodeItems, encodeItems, encode_norm hcb v, encodeItems_norm hcb a]

theorem encodeEntries_norm (hcb : cb.Lawful) : ∀ m : List (String × Value),
    encodeEntries cb (normEntries m) = encodeEntries cb m
  | [] => rfl
  | (k, v) :: m => by
      rw [normEntries, encodeEntries, encodeEntries, encode_norm hcb v,
        encodeEntries_norm hcb m]

end

end Length

end Value

end FlipLink
