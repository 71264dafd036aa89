/-
# `FlipLink.Proto.Messages` — the bodies of control frames

`messages.rs`: the error codes, the stream formats, and what `to_payload` makes
of a body.  minicbor's derived encoder writes a structure as the array of its
fields, which is what the functions here spell out; a `Value` among the fields is
written by its own `encode`, a parameter where it occurs.
-/
import FlipLink.Proto.Value

namespace FlipLink

open Lib

def protocolVersion : UInt32 := 1

def errUnknownInstrument : UInt32 := 1
def errUnknownOpcode : UInt32 := 2
def errBadParams : UInt32 := 3
def errBusy : UInt32 := 4
def errOversized : UInt32 := 5
def errInternal : UInt32 := 6

/-- The sample format of IR capture: little-endian i32 microsecond durations. -/
def streamFormatRawI32Us : String := "raw_int32_le_us"

/-- Raw Sub-GHz level/duration samples: 1 byte level + u32 little-endian duration_us. -/
def streamFormatSubghzLevelDurationV1 : String := "subghz_level_duration_le_v1"

/-! ## Bodies -/

/-- A text string. -/
def textBody (s : String) : List UInt8 := Cbor.head 3 (utf8 s).length ++ utf8 s

def helloBody (hostVersion : UInt32) : List UInt8 := Cbor.head 4 1 ++ Cbor.head 0 hostVersion.toNat

def instrumentBody (id : String) (opcodes : List String) : List UInt8 :=
  Cbor.head 4 2 ++ textBody id ++ Cbor.head 4 opcodes.length ++ opcodes.flatMap textBody

def capsBody (version : UInt32) (instruments : List (String × List String)) : List UInt8 :=
  Cbor.head 4 2 ++ Cbor.head 0 version.toNat ++ Cbor.head 4 instruments.length ++
    instruments.flatMap fun i => instrumentBody i.1 i.2

/-- A REQ body. -/
structure Req where
  instrument : String
  opcode : String
  params : Value

def reqBody (encodeValue : Value → List UInt8) (req : Req) : List UInt8 :=
  Cbor.head 4 3 ++ textBody req.instrument ++ textBody req.opcode ++ encodeValue req.params

/-- A RESP body that reports success. -/
def respBody (encodeValue : Value → List UInt8) (result : Value) : List UInt8 :=
  Cbor.head 4 2 ++ 0xF5 :: encodeValue result

def agentErrorBody (code : UInt32) (message : String) : List UInt8 :=
  Cbor.head 4 2 ++ Cbor.head 0 code.toNat ++ textBody message

def streamStartBody (format : String) : List UInt8 := Cbor.head 4 1 ++ textBody format

def streamStopBody (dropped : UInt32) : List UInt8 := Cbor.head 4 1 ++ Cbor.head 0 dropped.toNat

end FlipLink
