/-
# `FlipLink.Proto.CrcRemainder` — the checksum is a remainder

`crc16_ccitt_false` names a polynomial, `x ^ 16 + x ^ 12 + x ^ 5 + 1`, and a first
register of ones.  The bytes are a polynomial with the most significant bit of the first
as its leading coefficient (`dataBits`), and what the two loops leave in the register is
the remainder of this polynomial times `x ^ 16`, with the first register in front of it
(`toPoly_crc16`).  From that follows what the CRC is there for: two strings that differ
within sixteen neighbouring bits have different ones, wherever the bits are
(`eq_of_crc16_burst`).
-/
import FlipLink.Lib.CrcPolynomial
import FlipLink.Proto.Bursts

namespace FlipLink

open Lib Polynomial

/-- The modulus that 0x1021 stands for. -/
theorem modulus_crcPoly :
    Crc.modulus crcPoly = (X ^ 16 + X ^ 12 + X ^ 5 + 1 : (ZMod 2)[X]) := by
  have hbits : crcPoly = BitVec.twoPow 16 12 ^^^ BitVec.twoPow 16 5 ^^^ BitVec.twoPow 16 0 := rfl
  rw [Crc.modulus, hbits, Crc.toPoly_xor, Crc.toPoly_xor, Crc.toPoly_twoPow (by decide),
    Crc.toPoly_twoPow (by decide), Crc.toPoly_twoPow (by decide), pow_zero, add_assoc, add_assoc,
    add_assoc]

/-! ## Bytes as a polynomial -/

/-- The bits of the bytes in order, those of a byte from the most significant on. -/
def dataBits (data : List UInt8) : List Bool := data.flatMap fun b => Crc.bits b.toBitVec

theorem dataBits_concat (data : List UInt8) (b : UInt8) :
    dataBits (data ++ [b]) = dataBits data ++ Crc.bits b.toBitVec := by
  rw [dataBits, List.flatMap_append, List.flatMap_singleton]
  rfl

theorem length_dataBits : ∀ data : List UInt8, (dataBits data).length = 8 * data.length
  | [] => rfl
  | b :: data => by
      have hb := Crc.length_bits b.toBitVec
      have hrest := length_dataBits data
      rw [dataBits] at hrest ⊢
      rw [List.flatMap_cons, List.length_append, List.length_cons, hb, hrest]
      omega

theorem dataBits_inj : ∀ {data data' : List UInt8}, data.length = data'.length →
    dataBits data = dataBits data' → data = data'
  | [], [], _, _ => rfl
  | b :: data, b' :: data', hlen, h => by
      rw [dataBits, dataBits, List.flatMap_cons, List.flatMap_cons] at h
      have hb : (Crc.bits b.toBitVec).length = (Crc.bits b'.toBitVec).length := by
        rw [Crc.length_bits, Crc.length_bits]
      obtain ⟨hhead, htail⟩ := List.append_inj h hb
      have hpoly : Crc.toPoly b.toBitVec = Crc.toPoly b'.toBitVec := by
        rw [← Crc.ofBits_bits, ← Crc.ofBits_bits, hhead]
      rw [UInt8.toBitVec_inj.mp (Crc.toPoly_inj hpoly),
        dataBits_inj (Nat.succ.inj hlen) htail]

/-- A byte is added to the upper half of the register. -/
theorem toPoly_crcSymbol (b : UInt8) :
    Crc.toPoly (crcSymbol b) = Crc.toPoly b.toBitVec * X ^ 8 := by
  have hsymbol : crcSymbol b = b.toBitVec.setWidth 16 <<< 8 := rfl
  ext i
  rw [hsymbol, Crc.coeff_toPoly, BitVec.getLsbD_shiftLeft, BitVec.getLsbD_setWidth,
    coeff_mul_X_pow', Crc.coeff_toPoly]
  by_cases hlow : i < 8
  · rw [if_neg (by omega), decide_eq_true hlow]
    simp [Crc.bit]
  · rw [if_pos (by omega), decide_eq_false hlow]
    by_cases hhigh : i < 16
    · rw [decide_eq_true hhigh, decide_eq_true (show i - 8 < 16 by omega)]
      rfl
    · rw [decide_eq_false hhigh, BitVec.getLsbD_of_ge b.toBitVec (i - 8) (by omega)]
      rfl

theorem message_crcSymbol (data : List UInt8) :
    Crc.message 8 0 (data.map crcSymbol) = Crc.ofBits (dataBits data) * X ^ 8 := by
  induction data using List.reverseRecOn with
  | nil => exact (zero_mul _).symm
  | append_singleton data b ih =>
      rw [List.map_append, List.map_singleton, Crc.message_concat, ih, dataBits_concat,
        Crc.ofBits_append, Crc.length_bits, Crc.ofBits_bits, toPoly_crcSymbol, add_mul]

/-- The CRC is the remainder of the data behind the first register. -/
theorem toPoly_crc16 (data : List UInt8) :
    Crc.toPoly (crc16CcittFalse data).toBitVec
      = (Crc.ofBits (dataBits data) * X ^ 16 + Crc.toPoly 0xFFFF#16 * X ^ (8 * data.length))
        %ₘ (X ^ 16 + X ^ 12 + X ^ 5 + 1) := by
  have hinit : crcInit.toBitVec = 0xFFFF#16 := rfl
  have hshift : Crc.ofBits (dataBits data) * X ^ 8 * X ^ 8
      = Crc.ofBits (dataBits data) * X ^ 16 := by
    rw [mul_assoc, ← pow_add]
  rw [crc16CcittFalse, foldl_crcByte_toBitVec, Crc.toPoly_foldl_feed, modulus_crcPoly,
    message_crcSymbol, List.length_map, hinit, hshift, add_comm]

/-! ## Differences -/

theorem crcByte_xor_xor (c d : UInt16) (x y : UInt8) :
    crcByte (c ^^^ d) (x ^^^ y) = crcByte c x ^^^ crcByte d y := by
  refine UInt16.toBitVec_inj.mp ?_
  have hsymbol : crcSymbol (x ^^^ y) = crcSymbol x ^^^ crcSymbol y := by
    rw [crcSymbol, crcSymbol, crcSymbol, ← UInt16.toBitVec_xor, UInt8.toUInt16_xor,
      UInt16.shiftLeft_xor]
  rw [UInt16.toBitVec_xor, crcByte_toBitVec, crcByte_toBitVec, crcByte_toBitVec,
    UInt16.toBitVec_xor, hsymbol, Crc.feed_xor]

theorem foldl_crcByte_xor : ∀ {a b : List UInt8} (c d : UInt16), a.length = b.length →
    (List.zipWith (· ^^^ ·) a b).foldl crcByte (c ^^^ d)
      = a.foldl crcByte c ^^^ b.foldl crcByte d
  | [], [], _, _, _ => rfl
  | x :: a, y :: b, c, d, hlen => by
      rw [List.zipWith_cons_cons, List.foldl_cons, crcByte_xor_xor,
        foldl_crcByte_xor _ _ (Nat.succ.inj hlen)]
      rfl

/-- The CRC sees every burst of sixteen bits. -/
theorem eq_of_crc16_burst {a b : List UInt8} (hlen : a.length = b.length) {k : Nat}
    (hburst : ∀ i, (dataBits a)[i]? ≠ (dataBits b)[i]? → k ≤ i ∧ i < k + 16)
    (hcrc : crc16CcittFalse a = crc16CcittFalse b) : a = b := by
  have hbits : (dataBits a).length = (dataBits b).length := by
    rw [length_dataBits, length_dataBits, hlen]
  have hdvd := toPoly_crc16 b
  rw [← hcrc, toPoly_crc16 a, hlen, ← modulus_crcPoly, ← sub_eq_zero, ← sub_modByMonic,
    modByMonic_eq_zero_iff_dvd (Crc.modulus_monic crcPoly), add_sub_add_right_eq_sub,
    ← sub_mul] at hdvd
  exact dataBits_inj hlen (Crc.eq_of_burst (Crc.degree_modulus crcPoly)
    (Crc.coeff_modulus_ne_zero crcPoly_odd) hbits hburst hdvd)

/-- **The checksum is the CRC that it names.**  It is the remainder of the data times
`x ^ 16`, with the first register in front, modulo `x ^ 16 + x ^ 12 + x ^ 5 + 1`.  So the
difference of the checksums of two strings of one length is a function of the difference
of the strings, and it is not zero where these differ within sixteen neighbouring bits. -/
theorem crc16_is_remainder :
    (∀ data : List UInt8,
      Crc.toPoly (crc16CcittFalse data).toBitVec
        = (Crc.ofBits (dataBits data) * X ^ 16 + Crc.toPoly 0xFFFF#16 * X ^ (8 * data.length))
          %ₘ (X ^ 16 + X ^ 12 + X ^ 5 + 1)) ∧
    (∀ a b : List UInt8, a.length = b.length →
      crc16CcittFalse a ^^^ crc16CcittFalse b
        = (List.zipWith (· ^^^ ·) a b).foldl crcByte 0) ∧
    ∀ a b : List UInt8, a.length = b.length → a ≠ b →
      ∀ k, (∀ i, (dataBits a)[i]? ≠ (dataBits b)[i]? → k ≤ i ∧ i < k + 16) →
        crc16CcittFalse a ≠ crc16CcittFalse b := by
  refine ⟨toPoly_crc16, fun a b hlen => ?_, fun a b hlen hne k hburst hcrc => ?_⟩
  · rw [crc16CcittFalse, crc16CcittFalse, ← foldl_crcByte_xor crcInit crcInit hlen,
      UInt16.xor_self]
  · exact hne (eq_of_crc16_burst hlen hburst hcrc)

end FlipLink
