/-
# `FlipLink.Proto.Image` — what `decode` accepts

`FrameCodec` reads off a frame's bytes what `encode` wrote.  Here is the other
direction: the bytes of an accepted frame, put together again from the fields
that `decode` has checked or handed out (`decode_eq_wireAs`).  Every byte but one
is among them.  The version is under the CRC and nothing else looks at it, so a
frame of another version is accepted, and it is told apart from the frame that
`encode` writes by that byte alone (`image_iff`).
-/
import FlipLink.Proto.FrameCodec

namespace FlipLink

open Lib

/-! ## Windows side by side -/

theorem slice_zero {α : Type} (l : List α) (n : Nat) : slice l 0 n = l.take n := rfl

theorem slice_append_slice {α : Type} {l : List α} {i j k : Nat} (hij : i ≤ j) (hjk : j ≤ k) :
    slice l i j ++ slice l j k = slice l i k := by
  have hdrop : l.drop j = (l.drop i).drop (j - i) := by
    rw [List.drop_drop]
    congr 1
    omega
  rw [slice, slice, slice, hdrop, ← List.take_add]
  congr 1
  omega

theorem slice_one {l : List UInt8} {i : Nat} (h : i < l.length) :
    slice l i (i + 1) = [l.getD i 0] := by
  rw [slice, Nat.add_sub_cancel_left, List.drop_eq_getElem_cons h, List.take_one, List.head?_cons,
    Option.toList_some, List.getD_eq_getElem?_getD, List.getElem?_eq_getElem h, Option.getD_some]

theorem MsgType.toU8_of_fromU8 {v : UInt8} {t : MsgType} (h : MsgType.fromU8 v = some t) :
    t.toU8 = v := by
  unfold MsgType.fromU8 at h
  split at h <;> cases h <;> rfl

/-! ## The bytes of an accepted frame -/

/-- The bytes the CRC covers, with any version. -/
def coveredAs (version : UInt8) (f : Frame) : List UInt8 :=
  [version, f.typ.toU8, f.flags] ++ le16 f.seq ++ le32 (UInt32.ofNat f.payload.length) ++ f.payload

/-- The bytes of a frame, with any version. -/
def wireAs (version : UInt8) (f : Frame) : List UInt8 :=
  le16 frameMagic ++ coveredAs version f ++ le16 (crc16CcittFalse (coveredAs version f))

theorem coveredAs_frameVersion (f : Frame) :
    coveredAs frameVersion f = covered f.typ f.flags f.seq f.payload := rfl

theorem wireAs_frameVersion (f : Frame) : wireAs frameVersion f = f.wire := by
  rw [wireAs, coveredAs_frameVersion, Frame.wire, wire]

@[simp] theorem length_coveredAs (version : UInt8) (f : Frame) :
    (coveredAs version f).length = 9 + f.payload.length := by
  simp [coveredAs]
  omega

@[simp] theorem length_wireAs (version : UInt8) (f : Frame) :
    (wireAs version f).length = f.payload.length + 13 := by
  simp [wireAs]
  omega

theorem getD_wireAs_version (version : UInt8) (f : Frame) :
    (wireAs version f).getD 2 0 = version := by
  have hcons : ∃ l, wireAs version f = 0xA6 :: 0xF1 :: version :: l := ⟨_, rfl⟩
  obtain ⟨l, hl⟩ := hcons
  rw [hl]
  rfl

/-- The fields of a buffer that `decodeWhole` accepts. -/
theorem decodeWhole_fields {buf : List UInt8} {f : Frame} {n : Nat}
    (h : decodeWhole buf = .frame f n) :
    f.typ.toU8 = buf.getD 3 0 ∧ f.flags = buf.getD 4 0 ∧ f.seq = ofLe16 (slice buf 5 7) ∧
      ofLe16 (slice buf (headerSize + (lengthField buf).toNat)
          (headerSize + (lengthField buf).toNat + 2))
        = crc16CcittFalse (slice buf 2 (headerSize + (lengthField buf).toNat)) := by
  simp only [decodeWhole] at h
  split at h
  · cases h
  rename_i hcrc
  split at h
  · rename_i typ htyp
    obtain ⟨rfl, rfl⟩ := Verdict.frame.inj h
    exact ⟨MsgType.toU8_of_fromU8 htyp, rfl, rfl, not_not.mp hcrc⟩
  · cases h

/-- The payload handed out is as long as the length field says. -/
theorem lengthField_of_frame {buf : List UInt8} {f : Frame} {n : Nat}
    (h : decode buf = .frame f n) : (lengthField buf).toNat = f.payload.length := by
  obtain ⟨⟨ht, -, -⟩, hw⟩ := decode_eq_frame h
  rw [(decodeWhole_eq_frame hw).2, length_slice (Nat.le_trans (Nat.le_add_right _ _) ht),
    Nat.add_sub_cancel_left]

/-- An accepted frame begins with its own bytes, under the version it came with. -/
theorem decode_eq_wireAs {buf : List UInt8} {f : Frame} {n : Nat} (h : decode buf = .frame f n) :
    buf.take n = wireAs (buf.getD 2 0) f := by
  obtain ⟨⟨-, hmagic, -⟩, hw⟩ := decode_eq_frame h
  obtain ⟨-, hn, hle⟩ := decode_payload_le h
  obtain ⟨-, hpay⟩ := decodeWhole_eq_frame hw
  obtain ⟨htyp, hflags, hseq, hcrc⟩ := decodeWhole_fields hw
  have hlen := lengthField_of_frame h
  rw [hlen] at hpay hcrc
  simp only [headerSize] at hpay hcrc
  have h0 : slice buf 0 2 = le16 frameMagic := by
    rw [← hmagic, le16_ofLe16 (length_slice (by omega))]
  have h5 : slice buf 5 7 = le16 f.seq := by
    rw [hseq, le16_ofLe16 (length_slice (by omega))]
  have h7 : slice buf 7 11 = le32 (UInt32.ofNat f.payload.length) := by
    rw [← hlen, UInt32.ofNat_toNat, lengthField, le32_ofLe32 (length_slice (by omega))]
  have hcovered : slice buf 2 (11 + f.payload.length) = coveredAs (buf.getD 2 0) f := by
    rw [coveredAs, htyp, hflags, ← h5, ← h7,
      ← slice_append_slice (i := 2) (j := 3) (by omega) (by omega),
      ← slice_append_slice (i := 3) (j := 4) (by omega) (by omega),
      ← slice_append_slice (i := 4) (j := 5) (by omega) (by omega),
      ← slice_append_slice (i := 5) (j := 7) (by omega) (by omega),
      ← slice_append_slice (i := 7) (j := 11) (by omega) (by omega),
      slice_one (by omega), slice_one (by omega), slice_one (by omega), ← hpay]
    simp only [List.cons_append, List.nil_append, List.append_assoc]
  have hlast : slice buf (11 + f.payload.length) n
      = le16 (crc16CcittFalse (coveredAs (buf.getD 2 0) f)) := by
    have hend : n = 11 + f.payload.length + 2 := by omega
    rw [← hcovered, ← hcrc, hend, le16_ofLe16]
    rw [length_slice (by omega)]
    omega
  rw [← slice_zero, ← slice_append_slice (j := 2) (by omega) (by omega),
    ← slice_append_slice (i := 2) (j := 11 + f.payload.length) (by omega) (by omega),
    h0, hcovered, hlast, wireAs, List.append_assoc]

/-- **What `decode` accepts.**  The bytes of an accepted frame are those that `encode`
writes for it, into any buffer with room for them, exactly if the version byte is
`FRAME_VERSION`. -/
theorem image_iff {buf : List UInt8} {f : Frame} {used : Nat} (h : decode buf = .frame f used)
    {out : List UInt8} (hout : used ≤ out.length) :
    ((encode f.typ f.flags f.seq f.payload out).1 = some used ∧
        (encode f.typ f.flags f.seq f.payload out).2.take used = buf.take used) ↔
      buf.getD 2 0 = frameVersion := by
  obtain ⟨hmax, rfl, -⟩ := decode_payload_le h
  have he := encode_eq f.typ f.flags f.seq f.payload out (not_gt_maxPayload hmax)
    (by simp only [headerSize, crcSize]; omega)
  have htake : (wire f.typ f.flags f.seq f.payload ++ out.drop (f.payload.length + 13)).take
      (f.payload.length + 13) = wireAs frameVersion f := by
    rw [List.take_left' (length_wire _ _ _ _), wireAs_frameVersion, Frame.wire]
  rw [he, decode_eq_wireAs h]
  dsimp only
  rw [htake]
  constructor
  · rintro ⟨-, hwire⟩
    rw [← getD_wireAs_version (buf.getD 2 0) f, ← hwire, getD_wireAs_version]
  · intro hversion
    exact ⟨rfl, by rw [hversion]⟩

def pingFrame : Frame := { typ := .ping, flags := 0, seq := 1, payload := [] }

/-- A PING of version 1 and one of version 2. -/
theorem versions_decoded :
    decode (wireAs 1 pingFrame) = .frame pingFrame 13 ∧
      decode (wireAs 2 pingFrame) = .frame pingFrame 13 := by
  decide +kernel

theorem image_iff_ping :
    (encode .ping 0 1 [] (List.replicate 13 0)).2.take 13 = (wireAs 1 pingFrame).take 13 :=
  ((@image_iff _ pingFrame 13 versions_decoded.1 (List.replicate 13 0) (Nat.le_refl 13)).mpr rfl).2

/-- The PING of version 2 is accepted, and `encode` writes other bytes for it. -/
theorem other_version_accepted :
    decode (wireAs 2 pingFrame) = .frame pingFrame 13 ∧
      (encode .ping 0 1 [] (List.replicate 13 0)).2.take 13 ≠ (wireAs 2 pingFrame).take 13 :=
  ⟨versions_decoded.2, by decide +kernel⟩

end FlipLink
