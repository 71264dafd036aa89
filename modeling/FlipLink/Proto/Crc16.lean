/-
# `FlipLink.Proto.Crc16` — the checksum of the frame format

`crc16CcittFalse` is `crc16_ccitt_false` of `crc16.rs` with its two loops made
folds: the byte loop over the data, and the eight shift steps of one byte.  The
register is a `UInt16`, so the carry out of the left shift is dropped exactly
where the source drops it.
-/
import Mathlib.Data.List.Basic

namespace FlipLink

/-- The register before the first byte. -/
def crcInit : UInt16 := 0xFFFF

/-- One shift step: the polynomial is added when the top bit leaves the register. -/
def crcShift (crc : UInt16) : UInt16 :=
  if crc &&& 0x8000 ≠ 0 then (crc <<< 1) ^^^ 0x1021 else crc <<< 1

/-- `for _ in 0..n` of shift steps. -/
def crcShifts : Nat → UInt16 → UInt16
  | 0, crc => crc
  | n + 1, crc => crcShifts n (crcShift crc)

/-- One turn of the byte loop. -/
def crcByte (crc : UInt16) (b : UInt8) : UInt16 :=
  crcShifts 8 (crc ^^^ (b.toUInt16 <<< 8))

/-- CRC-16/CCITT-FALSE over `data`. -/
def crc16CcittFalse (data : List UInt8) : UInt16 := data.foldl crcByte crcInit

/-- The published check value, of the ASCII digits `1` to `9`. -/
example : crc16CcittFalse [0x31, 0x32, 0x33, 0x34, 0x35, 0x36, 0x37, 0x38, 0x39] = 0x29B1 := by
  decide +kernel

end FlipLink
