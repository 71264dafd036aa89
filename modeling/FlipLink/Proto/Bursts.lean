/-
# `FlipLink.Proto.Bursts` — errors in two adjacent bytes of a frame

The 16-bit CRC of a frame tells any two messages apart that differ in two adjacent
bytes only: the register is linear and one to one in what is fed to it (`Lib.Crc`),
and a difference of one byte leaves one that the next byte cannot cancel
(`remainder_low`).  A CRC that follows its data with the high byte first would carry
this over the end of the data.  The frame format is little-endian, so the byte
behind the payload is the low byte of the CRC, and there is one change of the last
payload byte, by 0x89, whose remainder 0x00A1 has nothing in the high byte
(`remainder_high`).  With the change of the CRC's first byte by 0xA1 it is not seen,
and it is the only change of two adjacent bytes that is not (`burst_accepted_iff`).
-/
import FlipLink.Lib.Crc
import FlipLink.Proto.Image

namespace FlipLink

open Lib

/-! ## The CRC as a shift register -/

def crcPoly : BitVec 16 := 0x1021

theorem crcPoly_odd : crcPoly.getLsbD 0 = true := rfl

theorem crcShift_toBitVec (crc : UInt16) :
    (crcShift crc).toBitVec = Crc.shift crcPoly crc.toBitVec := by
  have htop : (crc &&& 0x8000 ≠ 0) ↔ crc.toBitVec.msb = true := by
    rw [Ne, ← UInt16.toBitVec_inj, UInt16.toBitVec_and, BitVec.msb_eq_getLsbD_last,
      show (0x8000 : UInt16).toBitVec = BitVec.twoPow 16 15 from rfl, BitVec.and_twoPow]
    cases crc.toBitVec.getLsbD (16 - 1) <;> decide
  rw [crcShift, Crc.shift]
  by_cases h : crc.toBitVec.msb = true
  · rw [if_pos h, if_pos (htop.mpr h)]
    rfl
  · rw [if_neg h, if_neg (mt htop.mp h)]
    rfl

theorem crcShifts_toBitVec : ∀ (n : Nat) (crc : UInt16),
    (crcShifts n crc).toBitVec = Crc.shifts crcPoly n crc.toBitVec
  | 0, _ => rfl
  | n + 1, crc => by rw [crcShifts, crcShifts_toBitVec n, crcShift_toBitVec, Crc.shifts]

/-- A byte as it is added to the register. -/
def crcSymbol (b : UInt8) : BitVec 16 := (b.toUInt16 <<< 8).toBitVec

theorem crcByte_toBitVec (crc : UInt16) (b : UInt8) :
    (crcByte crc b).toBitVec = Crc.feed crcPoly 8 crc.toBitVec (crcSymbol b) := by
  rw [crcByte, crcShifts_toBitVec, UInt16.toBitVec_xor, Crc.feed, crcSymbol]

theorem foldl_crcByte_toBitVec : ∀ (l : List UInt8) (crc : UInt16),
    (l.foldl crcByte crc).toBitVec
      = (l.map crcSymbol).foldl (Crc.feed crcPoly 8) crc.toBitVec
  | [], _ => rfl
  | b :: l, crc => by
      rw [List.foldl_cons, foldl_crcByte_toBitVec l, crcByte_toBitVec, List.map_cons,
        List.foldl_cons]

/-- The same bytes keep different registers apart. -/
theorem foldl_crcByte_inj {l : List UInt8} {a b : UInt16}
    (h : l.foldl crcByte a = l.foldl crcByte b) : a = b := by
  have hbits := congrArg UInt16.toBitVec h
  rw [foldl_crcByte_toBitVec, foldl_crcByte_toBitVec] at hbits
  exact UInt16.toBitVec_inj.mp (Crc.foldl_feed_inj crcPoly_odd _ hbits)

/-! ## The remainder of a byte -/

/-- What a difference of `e` in one byte comes to. -/
def remainder (e : UInt8) : UInt16 := crcShifts 8 (e.toUInt16 <<< 8)

/-- Two bytes on one register. -/
theorem crcByte_xor (crc : UInt16) (x y : UInt8) :
    crcByte crc x ^^^ crcByte crc y = remainder (x ^^^ y) := by
  refine UInt16.toBitVec_inj.mp ?_
  have hsymbol : ((x ^^^ y).toUInt16 <<< 8).toBitVec = crcSymbol x ^^^ crcSymbol y := by
    rw [crcSymbol, crcSymbol, ← UInt16.toBitVec_xor, UInt8.toUInt16_xor, UInt16.shiftLeft_xor]
  rw [UInt16.toBitVec_xor, crcByte_toBitVec, crcByte_toBitVec, Crc.feed_xor_feed, remainder,
    crcShifts_toBitVec, hsymbol]

/-- The two bytes of the CRC on the wire. -/
def crcLow (crc : UInt16) : UInt8 := crc.toUInt8
def crcHigh (crc : UInt16) : UInt8 := (crc >>> 8).toUInt8

theorem crcLow_xor (a b : UInt16) : crcLow (a ^^^ b) = crcLow a ^^^ crcLow b :=
  UInt16.toUInt8_xor ..

theorem crcHigh_xor (a b : UInt16) : crcHigh (a ^^^ b) = crcHigh a ^^^ crcHigh b := by
  rw [crcHigh, UInt16.shiftRight_xor, UInt16.toUInt8_xor, crcHigh, crcHigh]

theorem le16_eq (crc : UInt16) : le16 crc = [crcLow crc, crcHigh crc] := by
  have hlow : UInt8.ofNat crc.toNat = crcLow crc := rfl
  have hhigh : UInt8.ofNat (crc.toNat / 256) = crcHigh crc := by
    refine UInt8.toNat_inj.mp ?_
    simp [crcHigh, Nat.shiftRight_eq_div_pow]
  rw [le16, leBytes, leBytes, leBytes, hlow, hhigh]

/-- What 256 remainders show: no difference of one byte is cancelled by the next, and
one leaves the high byte alone. -/
theorem remainders : ∀ n < 256,
    (crcLow (remainder (.ofNat n)) = 0 → n = 0) ∧
      (crcHigh (remainder (.ofNat n)) = 0 → n = 0 ∨ n = 0x89) := by
  decide +kernel

theorem remainder_low {e : UInt8} (h : crcLow (remainder e) = 0) : e = 0 := by
  have hn := (remainders e.toNat e.toNat_lt).1
  rw [UInt8.ofNat_toNat] at hn
  exact UInt8.toNat_inj.mp (hn h)

theorem remainder_high {e : UInt8} (h : crcHigh (remainder e) = 0) : e = 0 ∨ e = 0x89 := by
  have hn := (remainders e.toNat e.toNat_lt).2
  rw [UInt8.ofNat_toNat] at hn
  exact (hn h).imp UInt8.toNat_inj.mp UInt8.toNat_inj.mp

/-- The change that the high byte does not see. -/
theorem remainder_hidden : remainder 0x89 = 0x00A1 := by decide +kernel

theorem UInt8.eq_of_xor {x y : UInt8} (h : x ^^^ y = 0) : x = y := by
  have hxy := congrArg (· ^^^ y) h
  simpa [UInt8.xor_assoc] using hxy

theorem crcShifts_inj {n : Nat} {a b : UInt16} (h : crcShifts n a = crcShifts n b) : a = b := by
  have hbits := congrArg UInt16.toBitVec h
  rw [crcShifts_toBitVec, crcShifts_toBitVec] at hbits
  exact UInt16.toBitVec_inj.mp (Crc.shifts_inj crcPoly_odd n hbits)

/-- A byte goes into the upper half of the register. -/
theorem crcLow_shiftLeft (b : UInt8) : crcLow (b.toUInt16 <<< 8) = 0 := by
  refine UInt8.toNat_inj.mp ?_
  simp only [crcLow, UInt16.toNat_toUInt8, UInt16.toNat_shiftLeft, UInt8.toNat_toUInt16]
  show b.toNat <<< 8 % 65536 % 256 = 0
  rw [Nat.shiftLeft_eq]
  omega

theorem crcByte_inj {crc : UInt16} {x y : UInt8} (h : crcByte crc x = crcByte crc y) : x = y := by
  refine UInt8.eq_of_xor (remainder_low ?_)
  rw [← crcByte_xor crc, h, UInt16.xor_self]
  rfl

/-- Two adjacent bytes on one register. -/
theorem crcByte_pair {crc : UInt16} {x x' y y' : UInt8}
    (h : crcByte (crcByte crc x) y = crcByte (crcByte crc x') y') : x = x' ∧ y = y' := by
  have hregister := crcShifts_inj h
  -- the low byte of the register is what the first byte has left there
  have hlow : crcLow (crcByte crc x) = crcLow (crcByte crc x') := by
    have hl := congrArg crcLow hregister
    rwa [crcLow_xor, crcLow_xor, crcLow_shiftLeft, crcLow_shiftLeft, UInt8.xor_zero,
      UInt8.xor_zero] at hl
  have hx : x = x' := by
    refine UInt8.eq_of_xor (remainder_low ?_)
    rw [← crcByte_xor crc, crcLow_xor, hlow, UInt8.xor_self]
  subst hx
  exact ⟨rfl, crcByte_inj h⟩

/-! ## Data and its CRC -/

/-- Data and the CRC behind it. -/
def withCrc (data : List UInt8) : List UInt8 := data ++ le16 (crc16CcittFalse data)

theorem wireAs_eq (version : UInt8) (f : Frame) :
    wireAs version f = le16 frameMagic ++ withCrc (coveredAs version f) := by
  rw [wireAs, withCrc, List.append_assoc]

/-- Two lists that agree but at `i` and `i + 1`. -/
def AgreeBut (i : Nat) (l l' : List UInt8) : Prop := ∀ k, l[k]? ≠ l'[k]? → k = i ∨ k = i + 1

theorem AgreeBut.get {i k : Nat} {l l' : List UInt8} (h : AgreeBut i l l') (hk : k ≠ i)
    (hk' : k ≠ i + 1) : l[k]? = l'[k]? := by
  by_contra hne
  exact (h k hne).elim hk hk'

theorem AgreeBut.take {i n : Nat} {l l' : List UInt8} (h : AgreeBut i l l') (hn : n ≤ i) :
    l.take n = l'.take n := by
  refine List.ext_getElem? fun k => ?_
  rw [List.getElem?_take, List.getElem?_take]
  split_ifs with hk
  · exact h.get (by omega) (by omega)
  · rfl

theorem AgreeBut.drop {i n : Nat} {l l' : List UInt8} (h : AgreeBut i l l') (hn : i + 2 ≤ n) :
    l.drop n = l'.drop n := by
  refine List.ext_getElem? fun k => ?_
  rw [List.getElem?_drop, List.getElem?_drop]
  exact h.get (by omega) (by omega)

theorem take_two {l : List UInt8} {i : Nat} (h : i + 1 < l.length) :
    ∃ x y, l = l.take i ++ x :: y :: l.drop (i + 2) :=
  ⟨l[i], l[i + 1], by
    rw [← List.drop_eq_getElem_cons h, ← List.drop_eq_getElem_cons (by omega),
      List.take_append_drop]⟩

theorem take_one_last {l : List UInt8} {i : Nat} (h : i + 1 = l.length) :
    ∃ x, l = l.take i ++ [x] :=
  ⟨l[i], by
    have hdrop : l.drop i = [l[i]] := by
      rw [List.drop_eq_getElem_cons (by omega), List.drop_of_length_le (by omega)]
    rw [← hdrop, List.take_append_drop]⟩

/-- **Two adjacent bytes of data and its CRC.**  Two such byte strings that agree
elsewhere are the same, or they differ in the last byte of the data by 0x89. -/
theorem withCrc_burst {d d' : List UInt8} {i : Nat} (hlen : d'.length = d.length)
    (h : AgreeBut i (withCrc d') (withCrc d)) :
    d' = d ∨ ∃ a x, d = a ++ [x] ∧ d' = a ++ [x ^^^ 0x89] := by
  have hdata : ∀ {n}, n ≤ d.length → (withCrc d').take n = d'.take n ∧
      (withCrc d).take n = d.take n := fun hn =>
    ⟨List.take_append_of_le_length (hlen ▸ hn), List.take_append_of_le_length hn⟩
  rcases Nat.lt_trichotomy (i + 1) d.length with hi | hi | hi
  · -- both bytes are data, and the CRCs are the same
    left
    have hcrc : crc16CcittFalse d' = crc16CcittFalse d := by
      have hdrop := h.drop (n := d.length) (by omega)
      rw [withCrc, withCrc, List.drop_left, ← hlen, List.drop_left] at hdrop
      rw [← ofLe16_le16 (crc16CcittFalse d'), hdrop, ofLe16_le16]
    have htake : d'.take i = d.take i := by
      have ht := h.take (Nat.le_refl i)
      rwa [(hdata (by omega)).1, (hdata (by omega)).2] at ht
    have hrest : d'.drop (i + 2) = d.drop (i + 2) := by
      have hd := h.drop (Nat.le_refl (i + 2))
      rw [withCrc, withCrc, List.drop_append_of_le_length (by omega),
        List.drop_append_of_le_length (by omega), hcrc] at hd
      exact List.append_cancel_right hd
    obtain ⟨x, y, hd⟩ := take_two hi
    obtain ⟨x', y', hd'⟩ := take_two (hlen.symm ▸ hi)
    rw [htake, hrest] at hd'
    rw [hd, hd', crc16CcittFalse, crc16CcittFalse, List.foldl_append, List.foldl_append,
      List.foldl_cons, List.foldl_cons, List.foldl_cons, List.foldl_cons] at hcrc
    obtain ⟨rfl, rfl⟩ := crcByte_pair (foldl_crcByte_inj hcrc)
    rw [hd, hd']
  · -- the last byte of the data and the low byte of the CRC
    obtain ⟨x, hd⟩ := take_one_last hi
    obtain ⟨x', hd'⟩ := take_one_last (hlen.symm ▸ hi)
    have htake : d'.take i = d.take i := by
      have ht := h.take (Nat.le_refl i)
      rwa [(hdata (by omega)).1, (hdata (by omega)).2] at ht
    rw [htake] at hd'
    have hhigh : crcHigh (crc16CcittFalse d') = crcHigh (crc16CcittFalse d) := by
      have hget := h.get (k := d.length + 1) (by omega) (by omega)
      rw [withCrc, withCrc, le16_eq, le16_eq, List.getElem?_append_right (by omega),
        List.getElem?_append_right (by omega), hlen, Nat.add_sub_cancel_left] at hget
      exact Option.some.inj hget
    have hremainder : crcHigh (remainder (x' ^^^ x)) = 0 := by
      rw [← crcByte_xor ((d.take i).foldl crcByte crcInit), crcHigh_xor]
      rw [hd, hd', crc16CcittFalse, crc16CcittFalse, List.foldl_append, List.foldl_append] at hhigh
      rw [show crcHigh (crcByte _ x') = crcHigh (crcByte _ x) from hhigh, UInt8.xor_self]
    rcases remainder_high hremainder with he | he
    · left
      rw [hd, hd', UInt8.eq_of_xor he]
    · refine .inr ⟨d.take i, x, hd, ?_⟩
      rw [hd', ← he, UInt8.xor_comm x' x, ← UInt8.xor_assoc, UInt8.xor_self, UInt8.zero_xor]
  · -- both bytes are behind the data
    left
    have ht := h.take (n := d.length) (by omega)
    rwa [(hdata (Nat.le_refl _)).1, (hdata (Nat.le_refl _)).2, List.take_length, ← hlen,
      List.take_length] at ht

/-! ## The change that is not seen -/

theorem crc_hidden (a : List UInt8) (x : UInt8) :
    crc16CcittFalse (a ++ [x ^^^ 0x89]) = crc16CcittFalse (a ++ [x]) ^^^ 0x00A1 := by
  have hxor := crcByte_xor (a.foldl crcByte crcInit) (x ^^^ 0x89) x
  have hdiff : x ^^^ 0x89 ^^^ x = 0x89 := by
    rw [UInt8.xor_comm x, UInt8.xor_assoc, UInt8.xor_self, UInt8.xor_zero]
  rw [hdiff, remainder_hidden] at hxor
  have hback := congrArg (crcByte (a.foldl crcByte crcInit) x ^^^ ·) hxor
  rw [crc16CcittFalse, crc16CcittFalse, List.foldl_append, List.foldl_append]
  show crcByte _ (x ^^^ 0x89) = crcByte _ x ^^^ 0x00A1
  rw [← hback, UInt16.xor_comm (crcByte _ (x ^^^ 0x89)), ← UInt16.xor_assoc, UInt16.xor_self,
    UInt16.zero_xor]

theorem withCrc_eq (d : List UInt8) (x : UInt8) :
    withCrc (d ++ [x])
      = d ++ [x, crcLow (crc16CcittFalse (d ++ [x])), crcHigh (crc16CcittFalse (d ++ [x]))] := by
  rw [withCrc, le16_eq, List.append_assoc]
  rfl

/-- The last byte of the payload is changed by 0x89 and the first of the CRC by 0xA1. -/
def Hidden (sent got : List UInt8) : Prop :=
  ∃ a x c r, sent = a ++ [x, c, r] ∧ got = a ++ [x ^^^ 0x89, c ^^^ 0xA1, r]

theorem withCrc_hidden (d : List UInt8) (x : UInt8) :
    withCrc (d ++ [x ^^^ 0x89])
      = d ++ [x ^^^ 0x89, crcLow (crc16CcittFalse (d ++ [x])) ^^^ 0xA1,
          crcHigh (crc16CcittFalse (d ++ [x]))] := by
  rw [withCrc_eq, crc_hidden, crcLow_xor, crcHigh_xor]
  have hlow : crcLow 0x00A1 = 0xA1 := rfl
  have hhigh : crcHigh 0x00A1 = 0 := rfl
  rw [hlow, hhigh, UInt8.xor_zero]

/-! ## Bursts in a frame -/

/-- The bytes changed are neither of the magic nor of the length. -/
def SparesHeader (sent got : List UInt8) : Prop :=
  ∀ k, got[k]? ≠ sent[k]? → 2 ≤ k ∧ ¬(7 ≤ k ∧ k < 11)

theorem SparesHeader.lengthField_eq {sent got : List UInt8} (h : SparesHeader sent got) :
    lengthField got = lengthField sent := by
  have hslice : slice got 7 11 = slice sent 7 11 := by
    refine List.ext_getElem? fun k => ?_
    rw [slice, slice, List.getElem?_take, List.getElem?_take, List.getElem?_drop,
      List.getElem?_drop]
    split_ifs with hk
    · by_contra hne
      have := (h _ hne).2
      omega
    · rfl
  rw [lengthField, hslice, lengthField]

/-- Behind two more bytes. -/
theorem AgreeBut.of_append {i : Nat} {a l l' : List UInt8} (ha : a.length = 2)
    (h : AgreeBut i (a ++ l) (a ++ l')) : AgreeBut (i - 2) l l' := by
  intro k hk
  have hne : (a ++ l)[k + 2]? ≠ (a ++ l')[k + 2]? := by
    rwa [List.getElem?_append_right (by omega), List.getElem?_append_right (by omega), ha,
      Nat.add_sub_cancel]
  have := h _ hne
  omega

/-- A frame with another last byte of the payload. -/
theorem covered_append (typ : MsgType) (flags : UInt8) (seq : UInt16) (p : List UInt8)
    (x y : UInt8) :
    ∃ a, covered typ flags seq (p ++ [x]) = a ++ [x] ∧
      covered typ flags seq (p ++ [y]) = a ++ [y] := by
  have hlen : (p ++ [x]).length = (p ++ [y]).length := by
    rw [List.length_append, List.length_append]
    rfl
  refine ⟨_, (List.append_assoc _ _ _).symm, ?_⟩
  rw [hlen, covered]
  exact (List.append_assoc _ _ _).symm

theorem wire_eq_withCrc (typ : MsgType) (flags : UInt8) (seq : UInt16) (payload : List UInt8) :
    wire typ flags seq payload = le16 frameMagic ++ withCrc (covered typ flags seq payload) := by
  rw [wire, withCrc, List.append_assoc]

theorem agreeBut_append (a b : List UInt8) (x y x' y' : UInt8) :
    AgreeBut a.length (a ++ x :: y :: b) (a ++ x' :: y' :: b) := by
  intro k hk
  by_contra hne
  refine hk ?_
  rcases Nat.lt_or_ge k a.length with hlt | hge
  · rw [List.getElem?_append_left hlt, List.getElem?_append_left hlt]
  · obtain ⟨j, rfl⟩ : ∃ j, k = a.length + 2 + j := ⟨k - (a.length + 2), by omega⟩
    rw [List.getElem?_append_right (by omega), List.getElem?_append_right (by omega),
      show a.length + 2 + j - a.length = j + 2 by omega]
    rfl

/-- A burst outside the two fields. -/
theorem AgreeBut.spares {i : Nat} {got sent : List UInt8} (h : AgreeBut i got sent) (h2 : 2 ≤ i)
    (hi : i + 1 < 7 ∨ 11 ≤ i) : SparesHeader sent got := by
  intro k hk
  have := h k hk
  omega

/-- The hidden change leaves everything before the last byte of the payload alone. -/
theorem Hidden.take {sent got : List UInt8} (h : Hidden sent got) :
    got.take (sent.length - 3) = sent.take (sent.length - 3) := by
  obtain ⟨a, x, c, r, rfl, rfl⟩ := h
  have hlen : (a ++ [x, c, r]).length - 3 = a.length := by simp
  rw [hlen, List.take_left, List.take_left]

section Bursts

variable {typ : MsgType} {flags : UInt8} {seq : UInt16} {payload got : List UInt8} {i : Nat}

/-- A change of two adjacent bytes that decodes is the hidden one. -/
theorem hidden_of_frame (hn : payload.length ≤ 0xFFFF) {f : Frame} {m : Nat}
    (hlen : got.length = payload.length + 13)
    (hburst : AgreeBut i got (wire typ flags seq payload))
    (hspares : SparesHeader (wire typ flags seq payload) got)
    (hne : got ≠ wire typ flags seq payload) (hd : decode got = .frame f m) :
    Hidden (wire typ flags seq payload) got := by
  have hpay : f.payload.length = payload.length := by
    have hsent := lengthField_wire typ flags seq payload [] hn
    rw [List.append_nil, ← hspares.lengthField_eq, lengthField_of_frame hd] at hsent
    exact hsent
  have hgot : got = le16 frameMagic ++ withCrc (coveredAs (got.getD 2 0) f) := by
    have htake := decode_eq_wireAs hd
    rwa [(decode_payload_le hd).2.1, hpay, ← hlen, List.take_length, wireAs_eq] at htake
  rw [wire_eq_withCrc] at hburst hne ⊢
  rw [hgot] at hburst hne ⊢
  have hdata : (coveredAs (got.getD 2 0) f).length = (covered typ flags seq payload).length := by
    rw [length_coveredAs, length_covered, hpay]
  rcases withCrc_burst hdata (hburst.of_append (length_le16 _)) with heq | ⟨a, x, hx, hx'⟩
  · exact absurd (by rw [heq]) hne
  · refine ⟨le16 frameMagic ++ a, x, crcLow (crc16CcittFalse (a ++ [x])),
      crcHigh (crc16CcittFalse (a ++ [x])), ?_, ?_⟩
    · rw [hx, withCrc_eq, List.append_assoc]
    · rw [hx', withCrc_hidden, List.append_assoc]

/-- The hidden change of a frame is a frame. -/
theorem Hidden.decode (hn : payload.length ≤ 0xFFFF)
    (hspares : SparesHeader (wire typ flags seq payload) got)
    (h : Hidden (wire typ flags seq payload) got) :
    ∃ f, FlipLink.decode got = .frame f (payload.length + 13) := by
  obtain ⟨b, x, c, r, hsent, rfl⟩ := h
  have hblen : b.length = payload.length + 10 := by
    have hlen := congrArg List.length hsent
    rw [length_wire, List.length_append] at hlen
    simpa using hlen.symm
  -- the byte that is changed is of the payload
  have hpos : payload ≠ [] := by
    rintro rfl
    have hx : (b ++ [x ^^^ 0x89, c ^^^ 0xA1, r])[b.length]?
        ≠ (wire typ flags seq [])[b.length]? := by
      rw [hsent, List.getElem?_append_right (Nat.le_refl _),
        List.getElem?_append_right (Nat.le_refl _), Nat.sub_self]
      intro heq
      have hxor := congrArg (x ^^^ ·) (Option.some.inj heq)
      rw [← UInt8.xor_assoc, UInt8.xor_self, UInt8.zero_xor] at hxor
      exact absurd hxor (by decide)
    have := (hspares _ hx).2
    rw [hblen, List.length_nil] at this
    omega
  obtain ⟨p, y, rfl⟩ : ∃ p y, payload = p ++ [y] :=
    ⟨_, _, (List.dropLast_append_getLast hpos).symm⟩
  obtain ⟨a, hy, hy'⟩ := covered_append typ flags seq p y (y ^^^ 0x89)
  rw [wire_eq_withCrc, hy, withCrc_eq, ← List.append_assoc] at hsent
  obtain ⟨hb, hlast⟩ := List.append_inj' hsent rfl
  cases hlast
  subst hb
  have hgot : le16 frameMagic ++ a ++ [x ^^^ 0x89, crcLow (crc16CcittFalse (a ++ [x])) ^^^ 0xA1,
      crcHigh (crc16CcittFalse (a ++ [x]))] = wire typ flags seq (p ++ [x ^^^ 0x89]) := by
    rw [wire_eq_withCrc, hy', withCrc_hidden, List.append_assoc]
  have hlen : (p ++ [x]).length = (p ++ [x ^^^ 0x89]).length := by
    rw [List.length_append, List.length_append]
    rfl
  rw [hgot, hlen]
  have hd := @decode_wire typ flags seq (p ++ [x ^^^ 0x89]) (hlen ▸ hn) []
  rw [List.append_nil] at hd
  exact ⟨_, hd⟩

/-- **Errors in two adjacent bytes.**  For a frame written by `encode` and any change
of at most two adjacent bytes of it, none of the magic or the length: `decode` takes
the changed bytes for a frame exactly if the last byte of the payload is changed by
0x89 and the first of the CRC by 0xA1. -/
theorem burst_accepted_iff {out : List UInt8} {n : Nat} (hn : payload.length < 2 ^ 32)
    (henc : (encode typ flags seq payload out).1 = some n) (hlen : got.length = n)
    (hburst : AgreeBut i got ((encode typ flags seq payload out).2.take n))
    (hspares : SparesHeader ((encode typ flags seq payload out).2.take n) got)
    (hne : got ≠ (encode typ flags seq payload out).2.take n) :
    (∃ f m, FlipLink.decode got = .frame f m) ↔
      Hidden ((encode typ flags seq payload out).2.take n) got := by
  have hmax : ¬ UInt32.ofNat payload.length > maxPayload := by
    intro h
    rw [encode, if_pos h] at henc
    cases henc
  have hout : ¬ out.length < headerSize + payload.length + crcSize := by
    intro h
    rw [encode, if_neg hmax] at henc
    dsimp only at henc
    rw [if_pos h] at henc
    cases henc
  have hle : payload.length ≤ 0xFFFF := by
    have hmax := Nat.not_lt.mp (mt UInt32.lt_iff_toNat_lt.mpr hmax)
    rwa [UInt32.toNat_ofNat', Nat.mod_eq_of_lt hn] at hmax
  rw [encode_eq typ flags seq payload out hmax hout] at henc hburst hspares hne ⊢
  obtain rfl : payload.length + 13 = n := Option.some.inj henc
  rw [List.take_left' (length_wire typ flags seq payload)] at hburst hspares hne ⊢
  constructor
  · rintro ⟨f, m, hd⟩
    exact hidden_of_frame hle hlen hburst hspares hne hd
  · intro h
    exact (h.decode hle hspares).imp fun f hd => ⟨_, hd⟩

end Bursts

/-- A PING whose payload is one zero byte. -/
def zeroPing : List UInt8 := (encode .ping 0 1 [0] (List.replicate 14 0)).2.take 14

/-- Another sequence number. -/
def otherSeq : List UInt8 := zeroPing.take 5 ++ 2 :: 0 :: zeroPing.drop 7

/-- The payload and the first byte of the CRC are changed. -/
def missed : List UInt8 :=
  zeroPing.take 11 ++ 0x89 :: (zeroPing.getD 12 0 ^^^ 0xA1) :: zeroPing.drop 13

theorem zeroPing_bytes :
    (encode .ping 0 1 [0] (List.replicate 14 0)).1 = some 14 ∧
      zeroPing = zeroPing.take 5 ++ 1 :: 0 :: zeroPing.drop 7 ∧
      zeroPing = zeroPing.take 11 ++ 0 :: zeroPing.getD 12 0 :: zeroPing.drop 13 ∧
      otherSeq ≠ zeroPing ∧ otherSeq.take 11 ≠ zeroPing.take 11 ∧ missed ≠ zeroPing ∧
      decode missed = .frame { typ := .ping, flags := 0, seq := 1, payload := [0x89] } 14 := by
  decide +kernel

theorem agreeBut_zeroPing : AgreeBut 5 otherSeq zeroPing ∧ AgreeBut 11 missed zeroPing := by
  obtain ⟨-, h5, h11, -⟩ := zeroPing_bytes
  constructor
  · have h := agreeBut_append (zeroPing.take 5) (zeroPing.drop 7) 2 0 1 0
    rwa [← h5] at h
  · have h := agreeBut_append (zeroPing.take 11) (zeroPing.drop 13) 0x89
      (zeroPing.getD 12 0 ^^^ 0xA1) 0 (zeroPing.getD 12 0)
    rwa [← h11] at h

/-- The other sequence number is noticed. -/
theorem burst_accepted_iff_seq : ¬ ∃ f m, decode otherSeq = .frame f m := by
  obtain ⟨henc, -, -, hne, htake, -⟩ := zeroPing_bytes
  obtain ⟨hburst, -⟩ := agreeBut_zeroPing
  intro hd
  exact htake ((burst_accepted_iff (by decide) henc rfl hburst
    (hburst.spares (by decide) (.inl (by decide))) hne).mp hd).take

/-- A change of the last payload byte and the first byte of the CRC is not. -/
theorem burst_missed :
    (encode .ping 0 1 [0] (List.replicate 14 0)).1 = some 14 ∧
      AgreeBut 11 missed ((encode .ping 0 1 [0] (List.replicate 14 0)).2.take 14) ∧
      SparesHeader ((encode .ping 0 1 [0] (List.replicate 14 0)).2.take 14) missed ∧
      missed ≠ (encode .ping 0 1 [0] (List.replicate 14 0)).2.take 14 ∧
      decode missed = .frame { typ := .ping, flags := 0, seq := 1, payload := [0x89] } 14 := by
  obtain ⟨henc, -, -, -, -, hne, hd⟩ := zeroPing_bytes
  obtain ⟨-, hburst⟩ := agreeBut_zeroPing
  exact ⟨henc, hburst, hburst.spares (by decide) (.inr (by decide)), hne, hd⟩

end FlipLink
