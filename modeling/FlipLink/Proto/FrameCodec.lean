/-
# `FlipLink.Proto.FrameCodec` — what is encoded is what is decoded

`wire` and `decode` are two separate readings of one layout.  The section below
states the layout once, as the position of every field in `wire … ++ rest`; the
round trip is then one branch of `decode`, and a truncated frame is one of the
two "need more" branches, according to whether the header is complete.

What `encode` refuses is at the end: every payload that the header's length cannot
hold, and some that it could.
-/
import FlipLink.Proto.Frame

namespace FlipLink

open Lib

/-! ## Where the fields lie -/

section Layout

variable (typ : MsgType) (flags : UInt8) (seq : UInt16) (payload rest : List UInt8)

theorem slice_wire_magic : slice (wire typ flags seq payload ++ rest) 0 2 = le16 frameMagic :=
  slice_eq_of_append (a := []) (by simp only [wire, List.append_assoc, List.nil_append]; rfl) rfl rfl

theorem slice_wire_seq : slice (wire typ flags seq payload ++ rest) 5 7 = le16 seq :=
  slice_eq_of_append (a := le16 frameMagic ++ [frameVersion, typ.toU8, flags])
    (by simp only [wire, covered, List.append_assoc]; rfl) rfl rfl

theorem slice_wire_length :
    slice (wire typ flags seq payload ++ rest) 7 11 = le32 (UInt32.ofNat payload.length) :=
  slice_eq_of_append (a := le16 frameMagic ++ [frameVersion, typ.toU8, flags] ++ le16 seq)
    (by simp only [wire, covered, List.append_assoc]; rfl) rfl rfl

theorem slice_wire_payload :
    slice (wire typ flags seq payload ++ rest) 11 (11 + payload.length) = payload :=
  slice_eq_of_append
    (a := le16 frameMagic ++ [frameVersion, typ.toU8, flags] ++ le16 seq
      ++ le32 (UInt32.ofNat payload.length))
    (by simp only [wire, covered, List.append_assoc]; rfl) rfl rfl

theorem slice_wire_covered :
    slice (wire typ flags seq payload ++ rest) 2 (11 + payload.length)
      = covered typ flags seq payload :=
  slice_eq_of_append (a := le16 frameMagic)
    (by simp only [wire, List.append_assoc]; rfl) rfl (by simp; omega)

theorem slice_wire_crc :
    slice (wire typ flags seq payload ++ rest) (11 + payload.length) (11 + payload.length + 2)
      = le16 (crc16CcittFalse (covered typ flags seq payload)) :=
  slice_eq_of_append (a := le16 frameMagic ++ covered typ flags seq payload)
    (by simp only [wire, List.append_assoc]; rfl) (by simp; omega) (by simp; omega)

theorem getD_wire_type : (wire typ flags seq payload ++ rest).getD 3 0 = typ.toU8 := rfl

theorem getD_wire_flags : (wire typ flags seq payload ++ rest).getD 4 0 = flags := rfl

/-- The length field carries a length of at most 16 bits unchanged. -/
theorem lengthField_wire (hn : payload.length ≤ 0xFFFF) :
    (lengthField (wire typ flags seq payload ++ rest)).toNat = payload.length := by
  rw [lengthField, slice_wire_length, ofLe32_le32, UInt32.toNat_ofNat']
  omega

end Layout

/-- A payload of at most 16 bits of length passes the size test of `encode`. -/
theorem not_gt_maxPayload {n : Nat} (hn : n ≤ 0xFFFF) : ¬ UInt32.ofNat n > maxPayload := by
  simp only [maxPayload, gt_iff_lt, UInt32.lt_iff_toNat_lt, UInt32.toNat_ofNat']
  have : (0xFFFF : UInt32).toNat = 0xFFFF := rfl
  omega

/-! ## Round trip and truncation -/

/-- Whatever follows it, a frame's bytes decode to the frame. -/
theorem decode_wire (typ : MsgType) (flags : UInt8) (seq : UInt16) {payload : List UInt8}
    (hn : payload.length ≤ 0xFFFF) (rest : List UInt8) :
    decode (wire typ flags seq payload ++ rest)
      = .frame { typ, flags, seq, payload } (payload.length + 13) := by
  have hlen := lengthField_wire typ flags seq payload rest hn
  have hsize : frameSize (wire typ flags seq payload ++ rest) = payload.length + 13 := by
    simp only [frameSize, hlen, headerSize, crcSize]
    omega
  have hmagic : ofLe16 (slice (wire typ flags seq payload ++ rest) 0 2) = frameMagic := by
    rw [slice_wire_magic, ofLe16_le16]
  have hmax : ¬ lengthField (wire typ flags seq payload ++ rest) > maxPayload := by
    rw [lengthField, slice_wire_length, ofLe32_le32]
    exact not_gt_maxPayload hn
  rw [decode_whole hmagic hmax (by rw [hsize, List.length_append, length_wire]; omega)]
  simp only [decodeWhole, hlen, hsize, headerSize]
  rw [slice_wire_crc, slice_wire_covered, slice_wire_seq, slice_wire_payload, getD_wire_type,
    getD_wire_flags, ofLe16_le16, ofLe16_le16, MsgType.fromU8_toU8]
  simp

/-- A frame cut anywhere before its end is neither a frame nor garbage. -/
theorem decode_take_wire (typ : MsgType) (flags : UInt8) (seq : UInt16) {payload : List UInt8}
    (hn : payload.length ≤ 0xFFFF) {k : Nat} (hk : k < payload.length + 13) :
    decode ((wire typ flags seq payload).take k) = .needMore := by
  have hlen : ((wire typ flags seq payload).take k).length = k := by
    rw [List.length_take, length_wire]
    omega
  have hw : wire typ flags seq payload ++ [] = wire typ flags seq payload := List.append_nil _
  by_cases h2 : k < 2
  · exact decode_short (by omega)
  have hmagic : ofLe16 (slice ((wire typ flags seq payload).take k) 0 2) = frameMagic := by
    rw [slice_take (by omega), ← hw, slice_wire_magic, ofLe16_le16]
  by_cases hh : k < headerSize
  · exact decode_shortHeader (by omega) hmagic (by omega)
  have h11 : 11 ≤ k := Nat.not_lt.mp hh
  -- the header is complete, so the length field is the frame's own
  have hfield : lengthField ((wire typ flags seq payload).take k)
      = lengthField (wire typ flags seq payload ++ []) := by
    rw [lengthField, lengthField, slice_take h11, hw]
  refine decode_shortBody (by rw [hlen]; exact h11) hmagic ?_ ?_
  · rw [hfield, lengthField, slice_wire_length, ofLe32_le32]
    exact not_gt_maxPayload hn
  · rw [hlen, frameSize, hfield, lengthField_wire _ _ _ _ _ hn]
    simp only [headerSize, crcSize]
    omega

/-- A read at the front of a frame takes the frame. -/
theorem next_wire {f : Frame} (hn : f.payload.length ≤ 0xFFFF) (rest : List UInt8) :
    codec.next (f.wire ++ rest) = (some f, rest) := by
  cases f with
  | mk typ flags seq payload =>
      rw [Frame.wire]
      have h : codec.decode (wire typ flags seq payload ++ rest)
          = .frame ⟨typ, flags, seq, payload⟩ (payload.length + 13) := by
        rw [codec_decode]
        exact decode_wire typ flags seq hn rest
      rw [codec.next_of_frame h, List.drop_left' (length_wire typ flags seq payload)]

/-- A read of a proper front of a frame waits. -/
theorem next_take_wire {f : Frame} (hn : f.payload.length ≤ 0xFFFF) {k : Nat}
    (hk : k < f.payload.length + 13) : codec.next (f.wire.take k) = (none, f.wire.take k) := by
  have h : codec.decode (f.wire.take k) = .needMore := by
    rw [codec_decode]
    exact decode_take_wire f.typ f.flags f.seq hn hk
  exact codec.next_of_needMore h

/-- A drain takes the whole frames at the front. -/
theorem codec_drain_wires : ∀ {fs : List Frame}, (∀ f ∈ fs, f.payload.length ≤ 0xFFFF) →
    ∀ t : List UInt8, (codec.drain (fs.flatMap Frame.wire ++ t)).1 = fs ++ (codec.drain t).1
  | [], _, _ => rfl
  | f :: fs, hfs, t => by
      obtain ⟨hf, hfs⟩ := List.forall_mem_cons.mp hfs
      rw [List.flatMap_cons, List.append_assoc, codec.drain_of_some (next_wire hf _),
        codec_drain_wires hfs]
      rfl

/-- A read of the front of some frames on the wire takes the first of them, or waits
for the rest of it. -/
theorem next_wires {fs : List Frame} (hfs : ∀ f ∈ fs, f.payload.length ≤ 0xFFFF)
    {buf more : List UInt8} (h : buf ++ more <+: fs.flatMap Frame.wire) :
    codec.next buf = (none, buf) ∨
    ∃ f fs' rest, fs = f :: fs' ∧ buf = f.wire ++ rest ∧ codec.next buf = (some f, rest) ∧
      rest ++ more <+: fs'.flatMap Frame.wire := by
  have hbuf : buf <+: fs.flatMap Frame.wire := (List.prefix_append _ _).trans h
  cases fs with
  | nil =>
      rw [List.prefix_nil.mp hbuf]
      exact .inl rfl
  | cons f fs =>
      have hf := hfs f List.mem_cons_self
      have hfront : f.wire <+: (f :: fs).flatMap Frame.wire := List.prefix_append _ _
      by_cases hlt : buf.length < f.payload.length + 13
      · have hpre : buf <+: f.wire :=
          List.prefix_of_prefix_length_le hbuf hfront (by rw [Frame.wire, length_wire]; omega)
        rw [List.prefix_iff_eq_take.mp hpre]
        exact .inl (next_take_wire hf hlt)
      · obtain ⟨rest, rfl⟩ : f.wire <+: buf :=
          List.prefix_of_prefix_length_le hfront hbuf (by rw [Frame.wire, length_wire]; omega)
        refine .inr ⟨f, fs, rest, rfl, rfl, next_wire hf rest, ?_⟩
        rw [List.flatMap_cons, List.append_assoc] at h
        exact (List.prefix_append_right_inj _).mp h

/-- **The codec round trip.**  For a payload within the limit and a buffer that
holds the frame: `encode` reports the frame's size, leaves everything behind
the frame as it was, and writes bytes that decode to the frame whatever follows
them and to "need more" when any of them is missing. -/
theorem encode_decode (typ : MsgType) (flags : UInt8) (seq : UInt16) (payload out : List UInt8)
    (hn : payload.length ≤ 0xFFFF) (hout : payload.length + 13 ≤ out.length) :
    (encode typ flags seq payload out).1 = some (payload.length + 13) ∧
    (encode typ flags seq payload out).2.length = out.length ∧
    (∀ i, payload.length + 13 ≤ i → (encode typ flags seq payload out).2[i]? = out[i]?) ∧
    (∀ rest, decode ((encode typ flags seq payload out).2.take (payload.length + 13) ++ rest)
      = .frame { typ, flags, seq, payload } (payload.length + 13)) ∧
    (∀ k < payload.length + 13,
      decode (((encode typ flags seq payload out).2.take (payload.length + 13)).take k)
        = .needMore) := by
  have he := encode_eq typ flags seq payload out (not_gt_maxPayload hn)
    (by simp only [headerSize, crcSize]; omega)
  have htake : (encode typ flags seq payload out).2.take (payload.length + 13)
      = wire typ flags seq payload := by
    rw [he, List.take_left' (length_wire typ flags seq payload)]
  refine ⟨by rw [he], ?_, ?_, ?_, ?_⟩
  · rw [he, List.length_append, length_wire, List.length_drop]
    omega
  · intro i hi
    rw [he, List.getElem?_append_right (by rw [length_wire]; exact hi), length_wire,
      List.getElem?_drop]
    congr 1
    omega
  · intro rest
    rw [htake]
    exact decode_wire typ flags seq hn rest
  · intro k hk
    rw [htake]
    exact decode_take_wire typ flags seq hn hk

/-- A PING with payload `hi` in a buffer of 64 bytes. -/
theorem encode_decode_ping :
    (encode .ping 0 0x1234 [0x68, 0x69] (List.replicate 64 0)).1 = some 15 ∧
    decode ((encode .ping 0 0x1234 [0x68, 0x69] (List.replicate 64 0)).2.take 15 ++ [7])
      = .frame { typ := .ping, flags := 0, seq := 0x1234, payload := [0x68, 0x69] } 15 := by
  have h := encode_decode .ping 0 0x1234 [0x68, 0x69] (List.replicate 64 0) (by decide) (by decide)
  exact ⟨h.1, h.2.2.2.1 [7]⟩

/-! ## What `encode` refuses -/

/-- The size test of `encode` sees a payload's length modulo `2 ^ 32`. -/
theorem gt_maxPayload_iff (n : Nat) : UInt32.ofNat n > maxPayload ↔ 0xFFFF < n % 2 ^ 32 := by
  rw [gt_iff_lt, UInt32.lt_iff_toNat_lt, UInt32.toNat_ofNat']
  rfl

/-- `encode` by its two size tests. -/
theorem encode_cases (typ : MsgType) (flags : UInt8) (seq : UInt16) (payload out : List UInt8) :
    encode typ flags seq payload out
      = if payload.length % 2 ^ 32 ≤ 0xFFFF ∧ payload.length + 13 ≤ out.length then
          (some (payload.length + 13),
            wire typ flags seq payload ++ out.drop (payload.length + 13))
        else (none, out) := by
  have hsize : headerSize + payload.length + crcSize = payload.length + 13 := by
    simp only [headerSize, crcSize]
    omega
  by_cases hn : UInt32.ofNat payload.length > maxPayload
  · have hgt := (gt_maxPayload_iff _).mp hn
    rw [encode, if_pos hn, if_neg]
    rintro ⟨hle, -⟩
    exact Nat.not_le.mpr hgt hle
  have hle := Nat.not_lt.mp (mt (gt_maxPayload_iff _).mpr hn)
  by_cases hout : out.length < headerSize + payload.length + crcSize
  · have hshort : out.length < payload.length + 13 := hsize ▸ hout
    rw [encode, if_neg hn, if_pos hout, if_neg]
    rintro ⟨-, hroom⟩
    exact Nat.not_le.mpr hshort hroom
  · have hroom : payload.length + 13 ≤ out.length := hsize ▸ Nat.not_lt.mp hout
    rw [encode_eq typ flags seq payload out hn hout, if_pos ⟨hle, hroom⟩]

/-- `encode` does what its documentation says: it writes a frame that fits, and refuses
every other one without touching the buffer. -/
def RefusesMisfit (typ : MsgType) (flags : UInt8) (seq : UInt16) (payload out : List UInt8) :
    Prop :=
  if payload.length ≤ 0xFFFF ∧ payload.length + 13 ≤ out.length then
    (encode typ flags seq payload out).1 = some (payload.length + 13)
  else encode typ flags seq payload out = (none, out)

/-- **What `encode` refuses.**  A payload or a buffer that does not fit is refused, and
nothing else is, except where the length of a payload that is too large is small modulo
`2 ^ 32` and the buffer has room for it all the same. -/
theorem refuses_misfit_iff (typ : MsgType) (flags : UInt8) (seq : UInt16)
    (payload out : List UInt8) :
    RefusesMisfit typ flags seq payload out ↔
      ¬ (0xFFFF < payload.length ∧ payload.length % 2 ^ 32 ≤ 0xFFFF ∧
          payload.length + 13 ≤ out.length) := by
  rw [RefusesMisfit, encode_cases]
  by_cases hn : payload.length ≤ 0xFFFF
  · have hmod : payload.length % 2 ^ 32 = payload.length := Nat.mod_eq_of_lt (by omega)
    rw [hmod]
    by_cases hroom : payload.length + 13 ≤ out.length
    · rw [if_pos ⟨hn, hroom⟩, if_pos ⟨hn, hroom⟩]
      exact ⟨fun _ h => absurd hn (Nat.not_le.mpr h.1), fun _ => rfl⟩
    · rw [if_neg (fun h => hroom h.2), if_neg (fun h => hroom h.2)]
      exact ⟨fun _ h => hroom h.2.2, fun _ => rfl⟩
  · rw [if_neg (fun h => hn h.1)]
    by_cases hfit : payload.length % 2 ^ 32 ≤ 0xFFFF ∧ payload.length + 13 ≤ out.length
    · rw [if_pos hfit]
      refine ⟨fun h => ?_, fun h => absurd ⟨Nat.not_le.mp hn, hfit⟩ h⟩
      cases (Prod.mk.inj h).1
    · rw [if_neg hfit]
      exact ⟨fun _ h => hfit h.2, fun _ => rfl⟩

/-- A PING of `2 ^ 32` bytes is written, under the length 0. -/
theorem misfit_written :
    ¬ RefusesMisfit .ping 0 1 (List.replicate (2 ^ 32) 0) (List.replicate (2 ^ 32 + 13) 0) ∧
      (encode .ping 0 1 (List.replicate (2 ^ 32) 0) (List.replicate (2 ^ 32 + 13) 0)).1
        = some (2 ^ 32 + 13) := by
  have hlen : (List.replicate (2 ^ 32) (0 : UInt8)).length = 2 ^ 32 := List.length_replicate
  have hout : (List.replicate (2 ^ 32 + 13) (0 : UInt8)).length = 2 ^ 32 + 13 :=
    List.length_replicate
  generalize List.replicate (2 ^ 32) (0 : UInt8) = payload at hlen ⊢
  generalize List.replicate (2 ^ 32 + 13) (0 : UInt8) = out at hout ⊢
  have hwritten : encode .ping 0 1 payload out
      = (some (2 ^ 32 + 13), wire .ping 0 1 payload ++ out.drop (2 ^ 32 + 13)) := by
    rw [encode_cases, hlen, hout, if_pos ⟨by decide, Nat.le_refl _⟩]
  refine ⟨fun h => ?_, by rw [hwritten]⟩
  rw [RefusesMisfit, hlen, if_neg (by omega), hwritten] at h
  cases (Prod.mk.inj h).1

/-! ## A frame in a buffer of its own size -/

/-- Encode a frame into a buffer of its own size, as every sender but the main
loop's PONG does; `none` is a payload that is too large. -/
def frameBytes (typ : MsgType) (flags : UInt8) (seq : UInt16) (payload : List UInt8) :
    Option (List UInt8) :=
  match encode typ flags seq payload (List.replicate (headerSize + payload.length + 2) 0) with
  | (some n, buf) => some (buf.take n)
  | (none, _) => none

theorem frameBytes_eq {payload : List UInt8} (typ : MsgType) (flags : UInt8) (seq : UInt16)
    (hn : payload.length ≤ 0xFFFF) :
    frameBytes typ flags seq payload = some (wire typ flags seq payload) := by
  have he := encode_eq typ flags seq payload
    (List.replicate (headerSize + payload.length + 2) 0) (not_gt_maxPayload hn)
    (by rw [List.length_replicate]; simp only [headerSize, crcSize]; omega)
  rw [frameBytes, he]
  dsimp only
  rw [List.take_left' (length_wire typ flags seq payload)]

/-- A larger payload is refused; its length is cast to a `u32`. -/
theorem frameBytes_eq_none {payload : List UInt8} (typ : MsgType) (flags : UInt8) (seq : UInt16)
    (hn : 0xFFFF < payload.length) (hlt : payload.length < 2 ^ 32) :
    frameBytes typ flags seq payload = none := by
  have hgt : UInt32.ofNat payload.length > maxPayload :=
    (gt_maxPayload_iff _).mpr (by rwa [Nat.mod_eq_of_lt hlt])
  rw [frameBytes, encode, if_pos hgt]

end FlipLink
