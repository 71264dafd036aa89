/-
# `FlipLink.Daemon.Server` — the thread that serves one client

`serve_client` and `relay_stream_with_stop_timeout` of `server.rs`, as a machine
that asks for one thing at a time.  A `Phase` is where the thread stands; `need`
is what it asks for there (a read of the socket, a write to it, one operation on
what the threads share, or nothing but to go on), and `resume` takes the answer
and goes to the next phase.  Nothing else happens between two answers, so any
interleaving of threads is an interleaving of answers.

    serve_client                       relay_stream
    read, wake, frames                 top, stopTimeoutWrite
    caps, helloWrite                   read, frames, forwardStop, eofForward
    register, forward, await           recv, write
    replyUnregister, replyWrite        unregister
    timeoutUnregister, timeoutWrite
    startWrite

A request is known by its `Ticket`: the device seq that `register` returned, and
how many registrations there were before it.  The source has the seq only; no
step looks at the count, which is there to tell two requests apart when the seqs
have come round.

`errorBody` is `to_payload` of an `AgentError`, which cannot fail on a `Vec`;
`agentErrorBody` is what the derived encoder makes of it.
-/
import FlipLink.Core.Transport
import FlipLink.Daemon.Router
import FlipLink.Proto.Messages

namespace FlipLink.Daemon

/-! ## Data -/

/-- A registered request: its device seq, and its number. -/
structure Ticket where
  seq : UInt16
  id : Nat
  deriving DecidableEq, Repr

/-- The first-reply wait of `serve_client`, in milliseconds. -/
def replyTimeout : Nat := 3000

/-- `STREAM_STOP_ACK_TIMEOUT`, in milliseconds. -/
def streamStopAckTimeout : Nat := 3000

/-- The wait of the relay for a device frame, in milliseconds. -/
def relayRecvTimeout : Nat := 20

/-- What a read of the client socket returns. -/
inductive ReadResult where
  | eof
  | data (bytes : List UInt8)
  | timeout
  | error
  deriving DecidableEq, Repr

/-- What a frame written to the client is about. -/
inductive Source where
  /-- The answer to a HELLO. -/
  | hello
  /-- A device frame received for a request. -/
  | device (d : Ticket) (f : Frame)
  /-- The daemon's own "device timeout". -/
  | timeout (d : Ticket)
  /-- The daemon's own "device timeout waiting for stream stop". -/
  | stopTimeout (d : Ticket)
  deriving DecidableEq, Repr

/-- The locals of the relay. -/
structure Relay where
  clientSeq : UInt16
  dev : Ticket
  reader : FrameReader
  /-- Set once the client asks to stop. -/
  stopDeadline : Option Nat
  deriving DecidableEq, Repr

inductive RelayPhase where
  | top
  | stopTimeoutWrite
  | read
  | frames
  | forwardStop
  | eofForward
  | recv (deadline : Nat)
  | write (f : Frame)
  /-- `unregister` before the relay returns, with an error or without. -/
  | unregister (failed : Bool)
  deriving DecidableEq, Repr

inductive Phase where
  | read
  | wake
  | frames
  | caps (seq : UInt16)
  | helloWrite (typ : MsgType) (seq : UInt16) (payload : List UInt8)
  | register (f : Frame)
  | forward (f : Frame) (d : Ticket)
  | await (clientSeq : UInt16) (d : Ticket) (deadline : Nat)
  | replyUnregister (clientSeq : UInt16) (d : Ticket) (f : Frame)
  | replyWrite (clientSeq : UInt16) (d : Ticket) (f : Frame)
  | timeoutUnregister (clientSeq : UInt16) (d : Ticket)
  | timeoutWrite (clientSeq : UInt16) (d : Ticket)
  | startWrite (clientSeq : UInt16) (d : Ticket) (f : Frame)
  | relay (r : Relay) (at_ : RelayPhase)
  /-- The thread has returned. -/
  | closed
  deriving DecidableEq, Repr

/-- The thread: where it stands, and its reader. -/
structure Thread where
  phase : Phase
  reader : FrameReader
  deriving DecidableEq, Repr

/-- A client that has connected and not sent anything. -/
def Thread.new : Thread := { phase := .read, reader := .new }

/-! ## What a phase asks for -/

/-- What a frame queued to the device is. -/
inductive Kind where
  | request
  | stop
  deriving DecidableEq, Repr

inductive Need where
  /-- `stream.read`. -/
  | read
  /-- `wake.send(())`. -/
  | wake
  /-- `router.caps()`. -/
  | caps
  /-- `write_frame` to the client. -/
  | write (about : Source) (typ : MsgType) (seq : UInt16) (payload : List UInt8)
  /-- `router.register`. -/
  | register
  /-- `forward`: frame the payload and queue it to the device. -/
  | forward (kind : Kind) (d : Ticket) (typ : MsgType) (flags : UInt8) (payload : List UInt8)
  /-- `reply_rx.recv_timeout`, until the deadline. -/
  | recv (d : Ticket) (deadline : Nat)
  /-- `router.unregister`. -/
  | unregister (d : Ticket)
  /-- Nothing: the thread works on its own data. -/
  | go
  /-- The thread is over. -/
  | halt
  deriving DecidableEq, Repr

inductive Answer where
  | read (r : ReadResult)
  | caps (payload : List UInt8)
  /-- A write or a forward succeeded, or did not. -/
  | wrote (ok : Bool)
  | ticket (d : Ticket)
  | reply (f : Frame)
  | timeout
  | done
  deriving DecidableEq, Repr

section Thread

variable (errorBody : UInt32 → String → List UInt8)

def Relay.need (r : Relay) : RelayPhase → Need
  | .top | .frames => .go
  | .stopTimeoutWrite =>
      .write (.stopTimeout r.dev) .error r.clientSeq
        (errorBody errInternal "device timeout waiting for stream stop")
  | .read => .read
  | .forwardStop | .eofForward => .forward .stop r.dev .streamStop 0 []
  | .recv deadline => .recv r.dev deadline
  | .write f => .write (.device r.dev f) f.typ r.clientSeq f.payload
  | .unregister _ => .unregister r.dev

def Phase.need : Phase → Need
  | .read => .read
  | .wake => .wake
  | .frames => .go
  | .caps _ => .caps
  | .helloWrite typ seq payload => .write .hello typ seq payload
  | .register _ => .register
  | .forward f d => .forward .request d f.typ f.flags f.payload
  | .await _ d deadline => .recv d deadline
  | .replyUnregister _ d _ => .unregister d
  | .replyWrite c d f => .write (.device d f) f.typ c f.payload
  | .timeoutUnregister _ d => .unregister d
  | .timeoutWrite c d => .write (.timeout d) .error c (errorBody errInternal "device timeout")
  | .startWrite c d f => .write (.device d f) f.typ c f.payload
  | .relay r p => r.need errorBody p
  | .closed => .halt

/-! ## What it does with the answer -/

/-- The relay with its answer; `none` at the end is a return to `serve_client`,
with an error or without. -/
inductive Next where
  | stay (r : Relay) (p : RelayPhase)
  | back
  | fail
  deriving DecidableEq, Repr

def Relay.resume (r : Relay) (now : Nat) : RelayPhase → Answer → Option Next
  | .top, .done =>
      match r.stopDeadline with
      | some deadline => if now ≥ deadline then some (.stay r .stopTimeoutWrite)
          else some (.stay r .read)
      | none => some (.stay r .read)
  | .stopTimeoutWrite, .wrote ok => some (if ok then .stay r (.unregister false) else .fail)
  | .read, .read .eof => some (.stay r .eofForward)
  | .read, .read (.data bytes) => some (.stay { r with reader := r.reader.feed bytes } .frames)
  | .read, .read .timeout => some (.stay r (.recv (now + relayRecvTimeout)))
  | .read, .read .error => some (.stay r (.unregister true))
  | .frames, .done =>
      match r.reader.nextFrame with
      | (none, reader) => some (.stay { r with reader } (.recv (now + relayRecvTimeout)))
      | (some f, reader) =>
          some (.stay { r with reader } (if f.typ = .streamStop then .forwardStop else .frames))
  | .forwardStop, .wrote ok =>
      some (if ok then
        .stay { r with stopDeadline := some (r.stopDeadline.getD (now + streamStopAckTimeout)) }
          .frames
        else .fail)
  | .eofForward, .wrote ok => some (if ok then .stay r (.unregister false) else .fail)
  | .recv _, .reply f => some (.stay r (.write f))
  | .recv _, .timeout => some (.stay r .top)
  | .write f, .wrote ok =>
      some (if ok then .stay r (if f.typ = .streamStop then .unregister false else .top) else .fail)
  | .unregister failed, .done => some (if failed then .fail else .back)
  | _, _ => none

/-- Where a thread goes from here; `none` is an answer it did not ask for. -/
def Thread.resume (t : Thread) (now : Nat) (a : Answer) : Option Thread :=
  match t.phase, a with
  | .read, .read .eof => some { t with phase := .closed }
  | .read, .read (.data bytes) => some { phase := .wake, reader := t.reader.feed bytes }
  | .read, .read .timeout => some { t with phase := .frames }
  | .read, .read .error => some { t with phase := .closed }
  | .wake, .done => some { t with phase := .frames }
  | .frames, .done =>
      match t.reader.nextFrame with
      | (none, reader) => some { phase := .read, reader }
      | (some f, reader) =>
          some { phase := if f.typ = .hello then .caps f.seq else .register f, reader }
  | .caps seq, .caps payload =>
      some { t with
        phase := if payload.isEmpty
          then .helloWrite .error seq (errorBody errInternal "device not connected")
          else .helloWrite .caps seq payload }
  | .helloWrite .., .wrote ok => some { t with phase := if ok then .frames else .closed }
  | .register f, .ticket d => some { t with phase := .forward f d }
  | .forward f d, .wrote ok =>
      some { t with phase := if ok then .await f.seq d (now + replyTimeout) else .closed }
  | .await c d _, .reply f =>
      some { t with phase := if f.typ = .streamStart then .startWrite c d f
        else .replyUnregister c d f }
  | .await c d _, .timeout => some { t with phase := .timeoutUnregister c d }
  | .replyUnregister c d f, .done => some { t with phase := .replyWrite c d f }
  | .replyWrite .., .wrote ok => some { t with phase := if ok then .frames else .closed }
  | .timeoutUnregister c d, .done => some { t with phase := .timeoutWrite c d }
  | .timeoutWrite .., .wrote ok => some { t with phase := if ok then .frames else .closed }
  | .startWrite c d _, .wrote ok =>
      some { t with
        phase := if ok
          then .relay { clientSeq := c, dev := d, reader := .new, stopDeadline := none } .top
          else .closed }
  | .relay r p, a =>
      match r.resume now p a with
      | some (.stay r' p') => some { t with phase := .relay r' p' }
      | some .back => some { t with phase := .frames }
      | some .fail => some { t with phase := .closed }
      | none => none
  | _, _ => none

end Thread

/-! ## The request a thread is handling -/

/-- The request that the thread has registered and not finished with. -/
def Phase.ticket : Phase → Option Ticket
  | .forward _ d | .await _ d _ | .replyUnregister _ d _ | .replyWrite _ d _
  | .timeoutUnregister _ d | .timeoutWrite _ d | .startWrite _ d _ => some d
  | .relay r _ => some r.dev
  | .read | .wake | .frames | .caps _ | .helloWrite .. | .register _ | .closed => none

end FlipLink.Daemon
