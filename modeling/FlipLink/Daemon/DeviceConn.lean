/-
# `FlipLink.Daemon.DeviceConn` — the owner of the serial link

`run`, `connect_and_cache` and `pump` of `device_conn.rs`, in the same form as a
client's thread: a phase, what it asks for, and where the answer leads.

    connect, sleep             the bounded attempts of `run`
    helloWrite, handshake,     `cache_caps`
    handshakeRead, see, cache
    out, write, read,          `pump`
    frames, lookup, send
    clearCaps, idle, drainWake between two rounds of attempts

A frame in the queue to the device carries the request it belongs to, which the
source's bytes do not; no step looks at it.
-/
import FlipLink.Daemon.Server

namespace FlipLink.Daemon

/-! ## Data -/

/-- Connect attempts before going idle. -/
def maxRetries : Nat := 5
/-- The pause between two attempts, in milliseconds. -/
def retryPause : Nat := 500
/-- How long the handshake waits for CAPS, in milliseconds. -/
def capsTimeout : Nat := 2000
/-- Match the Flipper CDC endpoint size. -/
def outboundWriteChunk : Nat := 64

/-- A framed message queued to the device. -/
structure Outbound where
  kind : Kind
  ticket : Ticket
  typ : MsgType
  bytes : List UInt8
  deriving DecidableEq, Repr

/-- A sender in the routing table: the client whose channel it is, and the
request it was registered for. -/
structure Route where
  client : Nat
  id : Nat
  deriving DecidableEq, Repr

/-- `bytes.chunks(n)`, for at most `k` chunks. -/
def chunksUpTo (n : Nat) : Nat → List UInt8 → List (List UInt8)
  | 0, _ => []
  | k + 1, bytes => if bytes.isEmpty then [] else bytes.take n :: chunksUpTo n k (bytes.drop n)

/-- The pieces in which `write_outbound_frame` writes a frame. -/
def outboundChunks (bytes : List UInt8) : List (List UInt8) :=
  chunksUpTo outboundWriteChunk bytes.length bytes

inductive Owner where
  | connect (attempt : Nat)
  | sleep (attempt : Nat) (wakeAt : Nat)
  | helloWrite (attempt : Nat)
  | handshake (attempt : Nat) (reader : FrameReader) (deadline : Nat)
  | handshakeRead (attempt : Nat) (reader : FrameReader) (deadline : Nat)
  | see (attempt : Nat) (reader : FrameReader) (deadline : Nat) (f : Frame)
  | cache (payload : List UInt8)
  | out (reader : FrameReader)
  | write (reader : FrameReader) (item : Outbound) (chunks : List (List UInt8))
  | read (reader : FrameReader)
  | frames (reader : FrameReader)
  | lookup (reader : FrameReader) (f : Frame)
  | send (reader : FrameReader) (f : Frame) (route : Option Route)
  | clearCaps
  | idle
  | drainWake
  deriving DecidableEq, Repr

namespace Owner

/-! ## What a phase asks for -/

inductive Need where
  /-- Find the agent port and open it. -/
  | openPort
  | sleep (wakeAt : Nat)
  /-- Write the HELLO of the handshake. -/
  | hello
  /-- Write a piece of a frame. -/
  | write (item : Outbound) (chunk : List UInt8)
  | read
  /-- A frame of the handshake. -/
  | see (f : Frame)
  | setCaps (payload : List UInt8)
  /-- `outbound.try_recv()`. -/
  | tryRecv
  /-- `deliver` under the lock. -/
  | lookup (f : Frame)
  /-- `deliver` after the lock. -/
  | send (f : Frame) (route : Option Route)
  /-- `wake.recv()`. -/
  | recvWake
  /-- `wake.try_recv()` until there is nothing. -/
  | drainWake
  | go
  deriving DecidableEq, Repr

inductive Answer where
  | opened (ok : Bool)
  | wrote (ok : Bool)
  /-- The bytes read, none of them if the read timed out; `none` is an error. -/
  | read (r : Option (List UInt8))
  | item (x : Option Outbound)
  | route (r : Option Route)
  | done
  deriving DecidableEq, Repr

def need : Owner → Need
  | .connect _ => .openPort
  | .sleep _ wakeAt => .sleep wakeAt
  | .helloWrite _ => .hello
  | .handshake .. => .go
  | .handshakeRead .. => .read
  | .see _ _ _ f => .see f
  | .cache payload => .setCaps payload
  | .out _ => .tryRecv
  | .write _ item (chunk :: _) => .write item chunk
  | .write _ _ [] => .go
  | .read _ => .read
  | .frames _ => .go
  | .lookup _ f => .lookup f
  | .send _ f route => .send f route
  | .clearCaps => .setCaps []
  | .idle => .recvWake
  | .drainWake => .drainWake

/-! ## What it does with the answer -/

/-- A connect attempt has failed. -/
def failed (attempt now : Nat) : Owner :=
  if attempt = maxRetries then .clearCaps else .sleep attempt (now + retryPause)

/-- Where the owner goes from here; `none` is an answer it did not ask for. -/
def resume (o : Owner) (now : Nat) (a : Answer) : Option Owner :=
  match o, a with
  | .connect n, .opened ok => some (if ok then .helloWrite n else failed n now)
  | .sleep n _, .done => some (.connect (n + 1))
  | .helloWrite n, .wrote ok =>
      some (if ok then .handshake n .new (now + capsTimeout) else failed n now)
  | .handshake n reader deadline, .done =>
      match reader.nextFrame with
      | (some f, reader) => some (.see n reader deadline f)
      | (none, reader) =>
          some (if now ≥ deadline then failed n now else .handshakeRead n reader deadline)
  | .see n reader deadline f, .done =>
      some (if f.typ = .caps then .cache f.payload else .handshake n reader deadline)
  | .handshakeRead n _ _, .read none => some (failed n now)
  | .handshakeRead n reader deadline, .read (some bytes) =>
      some (.handshake n (if bytes.isEmpty then reader else reader.feed bytes) deadline)
  | .cache _, .done => some (.out .new)
  | .out reader, .item (some x) => some (.write reader x (outboundChunks x.bytes))
  | .out reader, .item none => some (.read reader)
  | .write reader _ [], .done => some (.out reader)
  | .write reader x (_ :: chunks), .wrote ok =>
      some (if ok then .write reader x chunks else .connect 1)
  | .read _, .read none => some (.connect 1)
  | .read reader, .read (some bytes) =>
      some (if bytes.isEmpty then .out reader else .frames (reader.feed bytes))
  | .frames reader, .done =>
      match reader.nextFrame with
      | (some f, reader) => some (.lookup reader f)
      | (none, reader) => some (.out reader)
  | .lookup reader f, .route r => some (.send reader f r)
  | .send reader _ _, .done => some (.frames reader)
  | .clearCaps, .done => some .idle
  | .idle, .done => some .drainWake
  | .drainWake, .done => some (.connect 1)
  | _, _ => none

/-- The frame that is being written to the device. -/
def writing : Owner → Option Outbound
  | .write _ item _ => some item
  | _ => none

end Owner

end FlipLink.Daemon
