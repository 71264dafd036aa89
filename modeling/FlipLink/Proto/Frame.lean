/-
# `FlipLink.Proto.Frame` — the frame codec

The wire format of `frame.rs`, little-endian:

    offset  field
    0       magic    0xF1A6
    2       version  1
    3       type
    4       flags
    5       seq
    7       length   of the payload
    11      payload
    11+len  crc16    over bytes 2 .. 11+len

`encode` writes these fields one after the other into a caller's buffer and
`decode` looks at the front of a buffer; both are transcribed statement by
statement.  A `u8` slice is a list of `UInt8`, `from_le_bytes` is `ofLeBytes`
of a slice, `copy_from_slice` is `overwrite`, and `payload.len() as u32` is the
truncation `UInt32.ofNat`.  Each early return of `decode` is one branch, in the
order of the source.

Two facts carry everything said about the codec elsewhere.  `encode_eq`: the
field-by-field copies amount to one copy of `wire`, the frame's bytes.
`decode_cases`: a verdict is the outcome of one branch of `decode`, with the
tests that lead there.
-/
import FlipLink.Lib.Le
import FlipLink.Lib.Scan
import FlipLink.Proto.Crc16

namespace FlipLink

open Lib

/-! ## Constants and data -/

def frameMagic : UInt16 := 0xF1A6
def frameVersion : UInt8 := 1
def headerSize : Nat := 11
def crcSize : Nat := 2
def maxPayload : UInt32 := 0xFFFF

inductive MsgType where
  | hello | caps | req | resp | streamStart | streamData | streamStop | event | error | ping | pong
  deriving DecidableEq, Repr

/-- `typ as u8`. -/
def MsgType.toU8 : MsgType → UInt8
  | .hello => 1 | .caps => 2 | .req => 3 | .resp => 4 | .streamStart => 5 | .streamData => 6
  | .streamStop => 7 | .event => 8 | .error => 9 | .ping => 10 | .pong => 11

def MsgType.fromU8 (v : UInt8) : Option MsgType :=
  match v with
  | 1 => some .hello | 2 => some .caps | 3 => some .req | 4 => some .resp
  | 5 => some .streamStart | 6 => some .streamData | 7 => some .streamStop
  | 8 => some .event | 9 => some .error | 10 => some .ping | 11 => some .pong
  | _ => none

@[simp] theorem MsgType.fromU8_toU8 (t : MsgType) : MsgType.fromU8 t.toU8 = some t := by
  cases t <;> rfl

/-- The `Debug` name of a message type. -/
def MsgType.debug : MsgType → String
  | .hello => "Hello" | .caps => "Caps" | .req => "Req" | .resp => "Resp"
  | .streamStart => "StreamStart" | .streamData => "StreamData" | .streamStop => "StreamStop"
  | .event => "Event" | .error => "Error" | .ping => "Ping" | .pong => "Pong"

/-- A decoded frame.  The source has it twice, once borrowing its payload
(`Frame`) and once owning a copy (`OwnedFrame`); as values they are the same. -/
structure Frame where
  typ : MsgType
  flags : UInt8
  seq : UInt16
  payload : List UInt8
  deriving DecidableEq, Repr

/-- A frame and the bytes it used, not enough bytes yet, or bad bytes at offset 0. -/
abbrev DecodeResult := Verdict Frame

/-- `u16::to_le_bytes` and `u32::to_le_bytes`. -/
def le16 (x : UInt16) : List UInt8 := leBytes 2 x.toNat
def le32 (x : UInt32) : List UInt8 := leBytes 4 x.toNat

/-- `u16::from_le_bytes` and `u32::from_le_bytes`. -/
def ofLe16 (bs : List UInt8) : UInt16 := UInt16.ofNat (ofLeBytes bs)
def ofLe32 (bs : List UInt8) : UInt32 := UInt32.ofNat (ofLeBytes bs)

@[simp] theorem length_le16 (x : UInt16) : (le16 x).length = 2 := length_leBytes 2 _
@[simp] theorem length_le32 (x : UInt32) : (le32 x).length = 4 := length_leBytes 4 _

@[simp] theorem ofLe16_le16 (x : UInt16) : ofLe16 (le16 x) = x := by
  have hx : x.toNat < 256 ^ 2 := x.toNat_lt
  simp only [ofLe16, le16, ofLeBytes_leBytes, Nat.mod_eq_of_lt hx, UInt16.ofNat_toNat]

@[simp] theorem ofLe32_le32 (x : UInt32) : ofLe32 (le32 x) = x := by
  have hx : x.toNat < 256 ^ 4 := x.toNat_lt
  simp only [ofLe32, le32, ofLeBytes_leBytes, Nat.mod_eq_of_lt hx, UInt32.ofNat_toNat]

theorem le16_ofLe16 {bs : List UInt8} (h : bs.length = 2) : le16 (ofLe16 bs) = bs := by
  have hlt := ofLeBytes_lt bs
  rw [h] at hlt
  have hnat : (ofLe16 bs).toNat = ofLeBytes bs := UInt16.toNat_ofNat_of_lt hlt
  rw [le16, hnat, ← h, leBytes_ofLeBytes]

theorem le32_ofLe32 {bs : List UInt8} (h : bs.length = 4) : le32 (ofLe32 bs) = bs := by
  have hlt := ofLeBytes_lt bs
  rw [h] at hlt
  have hnat : (ofLe32 bs).toNat = ofLeBytes bs := UInt32.toNat_ofNat_of_lt hlt
  rw [le32, hnat, ← h, leBytes_ofLeBytes]

/-! ## `encode` -/

/-- Encode a frame into `out`: the bytes written, or `none` if `out` is too
small or the payload exceeds `maxPayload`; the second component is `out` as the
call leaves it. -/
def encode (typ : MsgType) (flags : UInt8) (seq : UInt16) (payload out : List UInt8) :
    Option Nat × List UInt8 :=
  if UInt32.ofNat payload.length > maxPayload then
    (none, out)
  else
    let total := headerSize + payload.length + crcSize
    if out.length < total then
      (none, out)
    else
      let out := overwrite out 0 (le16 frameMagic)
      let out := overwrite out 2 [frameVersion]
      let out := overwrite out 3 [typ.toU8]
      let out := overwrite out 4 [flags]
      let out := overwrite out 5 (le16 seq)
      let out := overwrite out 7 (le32 (UInt32.ofNat payload.length))
      let out := overwrite out headerSize payload
      -- the CRC covers everything except the magic
      let crc := crc16CcittFalse (slice out 2 (headerSize + payload.length))
      let crcAt := headerSize + payload.length
      let out := overwrite out crcAt (le16 crc)
      (some total, out)

/-- The bytes the CRC covers: version up to the end of the payload. -/
def covered (typ : MsgType) (flags : UInt8) (seq : UInt16) (payload : List UInt8) : List UInt8 :=
  [frameVersion, typ.toU8, flags] ++ le16 seq ++ le32 (UInt32.ofNat payload.length) ++ payload

/-- The bytes of a frame on the wire. -/
def wire (typ : MsgType) (flags : UInt8) (seq : UInt16) (payload : List UInt8) : List UInt8 :=
  le16 frameMagic ++ covered typ flags seq payload
    ++ le16 (crc16CcittFalse (covered typ flags seq payload))

/-- The wire bytes of a frame value. -/
def Frame.wire (f : Frame) : List UInt8 := FlipLink.wire f.typ f.flags f.seq f.payload

@[simp] theorem length_covered (typ : MsgType) (flags : UInt8) (seq : UInt16)
    (payload : List UInt8) : (covered typ flags seq payload).length = 9 + payload.length := by
  simp [covered]
  omega

@[simp] theorem length_wire (typ : MsgType) (flags : UInt8) (seq : UInt16) (payload : List UInt8) :
    (wire typ flags seq payload).length = payload.length + 13 := by
  simp [wire]
  omega

/-- Past its two size tests, `encode` copies the frame's bytes to the front of
the buffer and touches nothing behind them. -/
theorem encode_eq (typ : MsgType) (flags : UInt8) (seq : UInt16) (payload out : List UInt8)
    (hn : ¬ UInt32.ofNat payload.length > maxPayload)
    (hout : ¬ out.length < headerSize + payload.length + crcSize) :
    encode typ flags seq payload out
      = (some (payload.length + 13),
         wire typ flags seq payload ++ out.drop (payload.length + 13)) := by
  simp only [headerSize, crcSize] at hout
  -- the seven copies before the checksum, joined from the left
  have hcopies :
      overwrite (overwrite (overwrite (overwrite (overwrite (overwrite (overwrite out 0
        (le16 frameMagic)) 2 [frameVersion]) 3 [typ.toU8]) 4 [flags]) 5 (le16 seq)) 7
        (le32 (UInt32.ofNat payload.length))) 11 payload
      = overwrite out 0 (le16 frameMagic ++ covered typ flags seq payload) := by
    rw [overwrite_overwrite (l := out) (by simp) (by simp; omega),
      overwrite_overwrite (l := out) (by simp) (by simp; omega),
      overwrite_overwrite (l := out) (by simp) (by simp; omega),
      overwrite_overwrite (l := out) (by simp) (by simp; omega),
      overwrite_overwrite (l := out) (by simp) (by simp; omega),
      overwrite_overwrite (l := out) (by simp) (by simp; omega)]
    simp only [covered, List.append_assoc, List.cons_append, List.nil_append]
  have hwin : slice (overwrite out 0 (le16 frameMagic ++ covered typ flags seq payload)) 2
      (11 + payload.length) = covered typ flags seq payload := by
    rw [overwrite_zero, List.append_assoc]
    have h := slice_append_right (le16 frameMagic)
      (covered typ flags seq payload
        ++ out.drop (le16 frameMagic ++ covered typ flags seq payload).length)
      (9 + payload.length)
    rw [length_le16, show 2 + (9 + payload.length) = 11 + payload.length by omega] at h
    rw [h, List.take_left' (by simp)]
  simp only [encode, if_neg hn, headerSize, crcSize, if_neg hout, hcopies, hwin]
  rw [overwrite_overwrite (l := out) (by simp; omega) (by simp; omega), overwrite_zero]
  refine Prod.ext ?_ ?_
  · simp only [Option.some.injEq]
    omega
  · simp only [wire, List.length_append, length_covered, length_le16]
    congr 2
    omega

/-! ## `decode` -/

/-- The length field of a buffer. -/
def lengthField (buf : List UInt8) : UInt32 := ofLe32 (slice buf 7 11)

/-- The bytes a frame with this length field occupies. -/
def frameSize (buf : List UInt8) : Nat := headerSize + (lengthField buf).toNat + crcSize

/-- `decode` from its CRC test on, when the whole frame is there. -/
def decodeWhole (buf : List UInt8) : DecodeResult :=
  let crcAt := headerSize + (lengthField buf).toNat
  let want := ofLe16 (slice buf crcAt (crcAt + 2))
  let got := crc16CcittFalse (slice buf 2 crcAt)
  if want ≠ got then
    .resync
  else
    match MsgType.fromU8 (buf.getD 3 0) with
    | some typ =>
        .frame
          { typ
            flags := buf.getD 4 0
            seq := ofLe16 (slice buf 5 7)
            payload := slice buf headerSize crcAt } (frameSize buf)
    | none => .resync

/-- Try to decode one frame from the front of `buf`. -/
def decode (buf : List UInt8) : DecodeResult :=
  if buf.length < 2 then
    .needMore
  else if ofLe16 (slice buf 0 2) ≠ frameMagic then
    .resync
  else if buf.length < headerSize then
    .needMore
  else if lengthField buf > maxPayload then
    .resync
  else if buf.length < frameSize buf then
    .needMore
  else
    decodeWhole buf

/-! One lemma a branch; everything below goes through these. -/

section Branches

variable {buf : List UInt8}

theorem decode_short (h : buf.length < 2) : decode buf = .needMore := by
  rw [decode, if_pos h]

theorem decode_badMagic (h2 : 2 ≤ buf.length) (hm : ofLe16 (slice buf 0 2) ≠ frameMagic) :
    decode buf = .resync := by
  rw [decode, if_neg (Nat.not_lt.mpr h2), if_pos hm]

theorem decode_shortHeader (h2 : 2 ≤ buf.length) (hm : ofLe16 (slice buf 0 2) = frameMagic)
    (hh : buf.length < headerSize) : decode buf = .needMore := by
  rw [decode, if_neg (Nat.not_lt.mpr h2), if_neg (not_not.mpr hm), if_pos hh]

theorem decode_badLength (hh : headerSize ≤ buf.length)
    (hm : ofLe16 (slice buf 0 2) = frameMagic) (hl : lengthField buf > maxPayload) :
    decode buf = .resync := by
  have h2 : 2 ≤ buf.length := Nat.le_trans (by decide) hh
  rw [decode, if_neg (Nat.not_lt.mpr h2), if_neg (not_not.mpr hm), if_neg (Nat.not_lt.mpr hh),
    if_pos hl]

theorem decode_shortBody (hh : headerSize ≤ buf.length)
    (hm : ofLe16 (slice buf 0 2) = frameMagic) (hl : ¬ lengthField buf > maxPayload)
    (ht : buf.length < frameSize buf) : decode buf = .needMore := by
  have h2 : 2 ≤ buf.length := Nat.le_trans (by decide) hh
  rw [decode, if_neg (Nat.not_lt.mpr h2), if_neg (not_not.mpr hm), if_neg (Nat.not_lt.mpr hh),
    if_neg hl, if_pos ht]

theorem headerSize_le_frameSize : headerSize ≤ frameSize buf := by
  rw [frameSize, Nat.add_assoc]
  exact Nat.le_add_right _ _

theorem decode_whole (hm : ofLe16 (slice buf 0 2) = frameMagic)
    (hl : ¬ lengthField buf > maxPayload) (ht : frameSize buf ≤ buf.length) :
    decode buf = decodeWhole buf := by
  have hh : headerSize ≤ buf.length := Nat.le_trans headerSize_le_frameSize ht
  have h2 : 2 ≤ buf.length := Nat.le_trans (by decide) hh
  rw [decode, if_neg (Nat.not_lt.mpr h2), if_neg (not_not.mpr hm), if_neg (Nat.not_lt.mpr hh),
    if_neg hl, if_neg (Nat.not_lt.mpr ht)]

/-- Which branch a buffer takes. -/
theorem decode_cases (buf : List UInt8) :
    decode buf = .needMore ∨
    (2 ≤ buf.length ∧ ofLe16 (slice buf 0 2) ≠ frameMagic ∧ decode buf = .resync) ∨
    (headerSize ≤ buf.length ∧ ofLe16 (slice buf 0 2) = frameMagic ∧
      lengthField buf > maxPayload ∧ decode buf = .resync) ∨
    (frameSize buf ≤ buf.length ∧ ofLe16 (slice buf 0 2) = frameMagic ∧
      ¬ lengthField buf > maxPayload ∧ decode buf = decodeWhole buf) := by
  by_cases h2 : buf.length < 2
  · exact .inl (decode_short h2)
  have h2 := Nat.not_lt.mp h2
  by_cases hm : ofLe16 (slice buf 0 2) = frameMagic
  swap
  · exact .inr (.inl ⟨h2, hm, decode_badMagic h2 hm⟩)
  by_cases hh : buf.length < headerSize
  · exact .inl (decode_shortHeader h2 hm hh)
  have hh := Nat.not_lt.mp hh
  by_cases hl : lengthField buf > maxPayload
  · exact .inr (.inr (.inl ⟨hh, hm, hl, decode_badLength hh hm hl⟩))
  by_cases ht : buf.length < frameSize buf
  · exact .inl (decode_shortBody hh hm hl ht)
  have ht := Nat.not_lt.mp ht
  exact .inr (.inr (.inr ⟨ht, hm, hl, decode_whole hm hl ht⟩))

end Branches

/-! ## The verdicts are final -/

theorem lengthField_append {buf : List UInt8} (h : headerSize ≤ buf.length) (x : List UInt8) :
    lengthField (buf ++ x) = lengthField buf := by
  rw [lengthField, slice_append_left (by decide) (show 11 ≤ buf.length from h), lengthField]

theorem frameSize_append {buf : List UInt8} (h : headerSize ≤ buf.length) (x : List UInt8) :
    frameSize (buf ++ x) = frameSize buf := by
  rw [frameSize, lengthField_append h, frameSize]

theorem getD_append_left {l : List UInt8} {i : Nat} (h : i < l.length) (x : List UInt8) :
    (l ++ x).getD i 0 = l.getD i 0 := by
  simp only [List.getD_eq_getElem?_getD, List.getElem?_append_left h]

theorem decodeWhole_append {buf : List UInt8} (h : frameSize buf ≤ buf.length) (x : List UInt8) :
    decodeWhole (buf ++ x) = decodeWhole buf := by
  have hh : headerSize ≤ buf.length := Nat.le_trans headerSize_le_frameSize h
  have h11 : 11 ≤ buf.length := hh
  have hcrc : headerSize + (lengthField buf).toNat + 2 ≤ buf.length := h
  simp only [decodeWhole, lengthField_append hh, frameSize_append hh]
  rw [slice_append_left (Nat.le_add_right _ _) hcrc, slice_append_left (by simp [headerSize]; omega)
      (by omega), slice_append_left (Nat.le_add_right _ _) (by omega),
    slice_append_left (by decide) (by omega), getD_append_left (by omega),
    getD_append_left (by omega)]

/-- A verdict other than "need more" looks only at bytes that are there, so it
survives any continuation of the buffer. -/
theorem decode_append {buf : List UInt8} (x : List UInt8) (h : decode buf ≠ .needMore) :
    decode (buf ++ x) = decode buf := by
  have hlen : buf.length ≤ (buf ++ x).length := by simp
  rcases decode_cases buf with hd | ⟨h2, hm, hd⟩ | ⟨hh, hm, hl, hd⟩ | ⟨ht, hm, hl, hd⟩
  · exact absurd hd h
  · rw [hd, decode_badMagic (h2.trans hlen)]
    rwa [slice_append_left (by decide) h2]
  · rw [hd, decode_badLength (hh.trans hlen)]
    · rwa [slice_append_left (by decide) (Nat.le_trans (by decide) hh)]
    · rwa [lengthField_append hh]
  · have hh : headerSize ≤ buf.length := Nat.le_trans headerSize_le_frameSize ht
    rw [hd, decode_whole, decodeWhole_append ht]
    · rwa [slice_append_left (by decide) (Nat.le_trans (by decide) hh)]
    · rwa [lengthField_append hh]
    · rw [frameSize_append hh]
      exact ht.trans hlen

/-- What a frame verdict says: the tests it passed, and the frame it read off. -/
theorem decode_eq_frame {buf : List UInt8} {f : Frame} {n : Nat} (h : decode buf = .frame f n) :
    (frameSize buf ≤ buf.length ∧ ofLe16 (slice buf 0 2) = frameMagic ∧
      ¬ lengthField buf > maxPayload) ∧
    decodeWhole buf = .frame f n := by
  rcases decode_cases buf with hd | ⟨-, -, hd⟩ | ⟨-, -, -, hd⟩ | ⟨ht, hm, hl, hd⟩
  · rw [hd] at h; exact nomatch h
  · rw [hd] at h; exact nomatch h
  · rw [hd] at h; exact nomatch h
  · exact ⟨⟨ht, hm, hl⟩, hd ▸ h⟩

theorem decodeWhole_eq_frame {buf : List UInt8} {f : Frame} {n : Nat}
    (h : decodeWhole buf = .frame f n) :
    n = frameSize buf ∧
      f.payload = slice buf headerSize (headerSize + (lengthField buf).toNat) := by
  simp only [decodeWhole] at h
  split at h
  · exact nomatch h
  split at h
  · obtain ⟨rfl, rfl⟩ := Verdict.frame.inj h
    exact ⟨rfl, rfl⟩
  · exact nomatch h

/-- The payload a frame verdict hands out fits the 16-bit limit, and the frame
is its payload and thirteen bytes more. -/
theorem decode_payload_le {buf : List UInt8} {f : Frame} {n : Nat} (h : decode buf = .frame f n) :
    f.payload.length ≤ 0xFFFF ∧ n = f.payload.length + 13 ∧ n ≤ buf.length := by
  obtain ⟨⟨ht, -, hl⟩, hw⟩ := decode_eq_frame h
  obtain ⟨rfl, hpay⟩ := decodeWhole_eq_frame hw
  have hsize : frameSize buf = (lengthField buf).toNat + 13 := by
    simp only [frameSize, headerSize, crcSize]
    omega
  have hlen : f.payload.length = (lengthField buf).toNat := by
    rw [hpay, length_slice (by simp only [headerSize]; omega)]
    omega
  have hmax : (lengthField buf).toNat ≤ 0xFFFF := by
    simpa [maxPayload, UInt32.lt_iff_toNat_lt] using hl
  exact ⟨hlen ▸ hmax, hlen ▸ hsize, ht⟩

/-- `decode` as a scanner: its verdicts are final. -/
def codec : Scanner UInt8 Frame where
  decode := decode
  used_pos h := by
    have := (decode_payload_le h).2.1
    omega
  used_le h := (decode_payload_le h).2.2
  frame_append x h := by rw [decode_append x (by rw [h]; exact nofun), h]
  resync_append x h := by rw [decode_append x (by rw [h]; exact nofun), h]
  decode_nil := rfl

theorem codec_decode : codec.decode = decode := rfl

end FlipLink
