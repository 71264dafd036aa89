/-
# `FlipLink.Core.DeviceLink` — calls to the device

`DeviceLink` of `device.rs`: `hello`, `request` and `ping`.  Each takes the next seq,
writes a frame, and waits for a frame with this seq.  The two loops that wait, of
`await_seq` and of `ping`, are the same but for the frames they take (`Call.takes`).

A turn of a loop is one step, and what it finds comes with it: whether the deadline has
passed, and what `read` returns.  Between the turns, at any time, the device sends; what
it has sent and the host has not read is `incoming`, and a read takes as much of it as it
likes.  `made`, `read` and `before` are history and no step looks at them.
-/
import FlipLink.Core.Transport
import FlipLink.Lib.Machine
import FlipLink.Proto.Messages

namespace FlipLink

open Lib

/-! ## Bodies -/

structure Instrument where
  id : String
  opcodes : List String
  deriving DecidableEq, Repr

structure Caps where
  protocolVersion : UInt32
  instruments : List Instrument
  deriving DecidableEq, Repr

structure Resp where
  ok : Bool
  result : Value

structure AgentError where
  code : UInt32
  message : String
  deriving DecidableEq, Repr

/-- A framed link to the device. -/
structure DeviceLink where
  reader : FrameReader
  nextSeq : UInt16
  deriving DecidableEq, Repr

namespace DeviceLink

def new : DeviceLink := { reader := .new, nextSeq := 1 }

def allocSeq (l : DeviceLink) : UInt16 × DeviceLink :=
  (l.nextSeq, { l with nextSeq := l.nextSeq + 1 })

/-- `to_payload` of a `Value`, and `from_payload` at the types that a call decodes. -/
structure Bodies where
  value : Value → List UInt8
  caps : List UInt8 → Except String Caps
  resp : List UInt8 → Except String Resp
  agentError : List UInt8 → Except String AgentError

/-! ## Calls -/

inductive Call where
  | hello
  | request (instrument opcode : String) (params : Value)
  | ping (payload : List UInt8)

/-- What a call returns when it succeeds. -/
inductive Reply where
  | caps (c : Caps)
  | resp (r : Resp)
  | pong (payload : List UInt8)

section Calls

variable (b : Bodies)

/-- The frame that `send` makes. -/
def send (typ : MsgType) (seq : UInt16) (body : List UInt8) : Except String (List UInt8) :=
  match encode typ 0 seq body (List.replicate (headerSize + body.length + 2) 0) with
  | (some n, buf) => .ok (buf.take n)
  | (none, _) => .error "frame too large"

/-- What a call writes. -/
def Call.bytes (seq : UInt16) : Call → Except String (List UInt8)
  | .hello => send .hello seq (helloBody 0)
  | .request instrument opcode params =>
      send .req seq (reqBody b.value { instrument, opcode, params })
  | .ping payload =>
      match encode .ping 0 seq payload (List.replicate 1100 0) with
      | (some n, enc) => .ok (enc.take n)
      | (none, _) => .error "ping payload too large"

/-- The frames that the loop of a call does not pass over. -/
def Call.takes (seq : UInt16) (f : OwnedFrame) : Call → Bool
  | .hello | .request .. => f.seq = seq
  | .ping _ => f.typ = .pong ∧ f.seq = seq

def Call.timedOut (seq : UInt16) : Call → String
  | .hello | .request .. => "timed out waiting for seq " ++ toString seq.toNat
  | .ping _ => "ping timed out waiting for pong seq " ++ toString seq.toNat

/-- What a call makes of the frame that it has taken. -/
def Call.finish (f : OwnedFrame) : Call → Except String Reply
  | .hello =>
      match f.typ with
      | .caps =>
          match b.caps f.payload with
          | .ok caps => .ok (.caps caps)
          | .error e => .error ("decode CAPS: " ++ e)
      | other => .error ("expected CAPS, got " ++ other.debug)
  | .request .. =>
      match f.typ with
      | .resp =>
          match b.resp f.payload with
          | .ok resp => .ok (.resp resp)
          | .error e => .error ("decode RESP: " ++ e)
      | .error =>
          match b.agentError f.payload with
          | .ok e => .error ("device error " ++ toString e.code.toNat ++ ": " ++ e.message)
          | .error e => .error ("decode ERROR: " ++ e)
      | other => .error ("expected RESP/ERROR, got " ++ other.debug)
  | .ping _ => .ok (.pong f.payload)

end Calls

/-! ## The link and the device -/

/-- Where the caller is. -/
inductive Phase where
  | idle
  /-- In `write_all`. -/
  | writing (c : Call) (seq : UInt16)
  /-- In the loop that waits. -/
  | awaiting (c : Call) (seq : UInt16)

structure State where
  link : DeviceLink
  phase : Phase
  /-- What the device has sent and the host has not read. -/
  incoming : List UInt8
  /-- The seqs of the calls that have been made. -/
  made : List UInt16
  /-- What the host has read. -/
  read : List UInt8
  /-- What the device had sent when the last call was made. -/
  before : List UInt8

def State.initial : State where
  link := .new
  phase := .idle
  incoming := []
  made := []
  read := []
  before := []

/-- Everything that the device has sent. -/
def State.sent (s : State) : List UInt8 := s.read ++ s.incoming

inductive Label where
  | call (c : Call)
  /-- `write_all` returns. -/
  | wrote (r : Except String Unit)
  /-- A turn of a loop; `read` returns an error, or so many bytes. -/
  | turn (elapsed : Bool) (read : Except String Nat)
  /-- The device sends. -/
  | sends (bytes : List UInt8)

def Label.isCall : Label → Bool
  | .call _ => true
  | _ => false

inductive Event where
  /-- A frame was handed to `write_all`. -/
  | requested (seq : UInt16) (bytes : List UInt8)
  | returned (c : Call) (seq : UInt16) (r : Except String Reply)

section Machine

variable (b : Bodies)

/-- A call is made. -/
def startCall (c : Call) (s : State) : State × List Event :=
  let (seq, link) := s.link.allocSeq
  let s := { s with link, made := s.made ++ [seq], before := s.sent }
  match c.bytes b seq with
  | .ok bytes => ({ s with phase := .writing c seq }, [.requested seq bytes])
  | .error e => (s, [.returned c seq (.error e)])

/-- A turn of the loop that waits. -/
def turn (c : Call) (seq : UInt16) (elapsed : Bool) (read : Except String Nat) (s : State) :
    State × List Event :=
  match s.link.reader.nextFrame with
  | (some f, reader) =>
      let s := { s with link := { s.link with reader } }
      if c.takes seq f then ({ s with phase := .idle }, [.returned c seq (c.finish b f)])
      else (s, [])
  | (none, reader) =>
      let s := { s with link := { s.link with reader } }
      if elapsed then ({ s with phase := .idle }, [.returned c seq (.error (c.timedOut seq))])
      else
        match read with
        | .error e => ({ s with phase := .idle }, [.returned c seq (.error e)])
        | .ok n =>
            -- the scratch buffer has 512 bytes; nothing is fed where nothing was read
            let got := s.incoming.take (min n 512)
            ({ s with
                link := { s.link with reader := reader.feed got }
                incoming := s.incoming.drop (min n 512)
                read := s.read ++ got }, [])

def step (s : State) : Label → Option (State × List Event)
  | .sends bytes => some ({ s with incoming := s.incoming ++ bytes }, [])
  | .call c =>
      match s.phase with
      | .idle => some (startCall b c s)
      | _ => none
  | .wrote r =>
      match s.phase, r with
      | .writing c seq, .ok () => some ({ s with phase := .awaiting c seq }, [])
      | .writing c seq, .error e =>
          some ({ s with phase := .idle }, [.returned c seq (.error e)])
      | _, _ => none
  | .turn elapsed read =>
      match s.phase with
      | .awaiting c seq => some (turn b c seq elapsed read s)
      | _ => none

/-- The calls on one link, and the device. -/
def machine : Machine State Label Event where
  step := step b

end Machine

end DeviceLink

end FlipLink
