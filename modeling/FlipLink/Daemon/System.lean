/-
# `FlipLink.Daemon.System` — the daemon's threads and what they share

The router, the queue to the device, the wake channel and one reply channel for
each client, with the thread of every client and the owner of the link.  A step
is time passing, one answer to one client's thread, or one answer to the owner;
between two steps everything is at rest, so the runs of `machine` are all the
interleavings.  A client that has not connected is one whose thread has not
taken a step.

`serve` and `own` are what an answer costs: the effect on what is shared and the
events.  What the environment decides comes with the label: what a socket or the
link returns, whether a write succeeds, and whether a wait for a frame ends by
its timeout, which it may only when the deadline has come and the channel is
empty.

`registered`, `holder` and `started` are history and no step looks at them: the
number of registrations, for each seq the last one, and for each registration
whether the device has begun a stream for its seq while it was the last.
-/
import FlipLink.Daemon.DeviceConn
import FlipLink.Lib.Machine

namespace FlipLink.Daemon

open Lib

structure State where
  /-- The clock, in milliseconds. -/
  now : Nat
  router : Router Route
  outbound : List Outbound
  /-- Pokes in the wake channel. -/
  wakes : Nat
  threads : Nat → Thread
  channels : Nat → List Frame
  owner : Owner
  registered : Nat
  holder : UInt16 → Option Route
  started : Nat → Bool

def State.initial : State where
  now := 0
  router := .new
  outbound := []
  wakes := 0
  threads _ := .new
  channels _ := []
  owner := .connect 1
  registered := 0
  holder _ := none
  started _ := false

inductive ClientInput where
  | read (r : ReadResult)
  | wrote (ok : Bool)
  | timeout
  | go
  deriving DecidableEq, Repr

inductive OwnerInput where
  | opened (ok : Bool)
  | wrote (ok : Bool)
  | read (r : Option (List UInt8))
  | go
  deriving DecidableEq, Repr

inductive Label where
  | tick (ms : Nat)
  | client (i : Nat) (inp : ClientInput)
  | owner (inp : OwnerInput)
  deriving DecidableEq, Repr

inductive Event where
  | registered (i : Nat) (d : Ticket)
  /-- A frame was queued to the device. -/
  | queued (i : Nat) (d : Ticket) (kind : Kind) (typ : MsgType)
  /-- A device frame was taken out of the reply channel. -/
  | received (i : Nat) (d : Ticket) (f : Frame)
  /-- A frame was written to the client. -/
  | wrote (i : Nat) (about : Source) (typ : MsgType) (seq : UInt16) (payload : List UInt8)
  /-- The owner has a frame of the device in hand: it has looked up its route, or has seen it
  in the handshake. -/
  | arrived (f : Frame)
  /-- A piece of a frame was handed to the link. -/
  | deviceWrite (item : Outbound) (chunk : List UInt8)
  deriving DecidableEq, Repr

/-! ## Answers -/

/-- The answer to a client's thread, and what it does to what is shared. -/
def serve (s : State) (i : Nat) : Need → ClientInput → Option (Answer × State × List Event)
  | .read, .read r => some (.read r, s, [])
  | .wake, .go => some (.done, { s with wakes := s.wakes + 1 }, [])
  | .caps, .go => some (.caps s.router.caps, s, [])
  | .write about typ seq payload, .wrote true =>
      match frameBytes typ 0 seq payload with
      | some _ => some (.wrote true, s, [.wrote i about typ seq payload])
      | none => none
  | .write .., .wrote false => some (.wrote false, s, [])
  | .register, .go =>
      some (.ticket ⟨s.router.nextSeq, s.registered⟩,
        { s with
          router := (s.router.register ⟨i, s.registered⟩).2
          registered := s.registered + 1
          holder := Function.update s.holder s.router.nextSeq (some ⟨i, s.registered⟩) },
        [.registered i ⟨s.router.nextSeq, s.registered⟩])
  | .forward kind d typ flags payload, .go =>
      match frameBytes typ flags d.seq payload with
      | some bytes =>
          some (.wrote true, { s with outbound := s.outbound ++ [⟨kind, d, typ, bytes⟩] },
            [.queued i d kind typ])
      | none => some (.wrote false, s, [])
  | .recv d _, .go =>
      match s.channels i with
      | f :: rest =>
          some (.reply f, { s with channels := Function.update s.channels i rest },
            [.received i d f])
      | [] => none
  | .recv _ deadline, .timeout =>
      if (s.channels i).isEmpty ∧ deadline ≤ s.now then some (.timeout, s, []) else none
  | .unregister d, .go => some (.done, { s with router := s.router.unregister d.seq }, [])
  | .go, .go => some (.done, s, [])
  | _, _ => none

/-- A frame from the device, for the history. -/
def mark (s : State) (f : Frame) : State :=
  if f.typ = .streamStart then
    match s.holder f.seq with
    | some r => { s with started := Function.update s.started r.id true }
    | none => s
  else s

/-- The answer to the owner, and what it does to what is shared. -/
def own (s : State) : Owner.Need → OwnerInput → Option (Owner.Answer × State × List Event)
  | .openPort, .opened ok => some (.opened ok, s, [])
  | .sleep wakeAt, .go => if wakeAt ≤ s.now then some (.done, s, []) else none
  | .hello, .wrote ok => some (.wrote ok, s, [])
  | .write item chunk, .wrote ok => some (.wrote ok, s, [.deviceWrite item chunk])
  | .read, .read r => some (.read r, s, [])
  | .see f, .go => some (.done, mark s f, [.arrived f])
  | .setCaps payload, .go => some (.done, { s with router := s.router.setCaps payload }, [])
  | .tryRecv, .go =>
      match s.outbound with
      | x :: rest => some (.item (some x), { s with outbound := rest }, [])
      | [] => some (.item none, s, [])
  | .lookup f, .go => some (.route (s.router.lookup f), mark s f, [.arrived f])
  | .send f route, .go =>
      match route with
      | some r =>
          -- the channel of a thread that has returned has no receiver
          if (s.threads r.client).phase = .closed then some (.done, s, [])
          else
            some (.done,
              { s with
                channels := Function.update s.channels r.client (s.channels r.client ++ [f]) }, [])
      | none => some (.done, s, [])
  | .recvWake, .go =>
      if 0 < s.wakes then some (.done, { s with wakes := s.wakes - 1 }, []) else none
  | .drainWake, .go => some (.done, { s with wakes := 0 }, [])
  | .go, .go => some (.done, s, [])
  | _, _ => none

/-! ## The machine -/

section Machine

variable (errorBody : UInt32 → String → List UInt8)

/-- One answer to the thread of client `i`. -/
def clientStep (s : State) (i : Nat) (inp : ClientInput) : Option (State × List Event) :=
  match serve s i ((s.threads i).phase.need errorBody) inp with
  | none => none
  | some (a, s', es) =>
      match (s.threads i).resume errorBody s.now a with
      | none => none
      | some t => some ({ s' with threads := Function.update s'.threads i t }, es)

/-- One answer to the owner. -/
def ownerStep (s : State) (inp : OwnerInput) : Option (State × List Event) :=
  match own s s.owner.need inp with
  | none => none
  | some (a, s', es) =>
      match s.owner.resume s.now a with
      | none => none
      | some o => some ({ s' with owner := o }, es)

def step (s : State) : Label → Option (State × List Event)
  | .tick ms => some ({ s with now := s.now + ms }, [])
  | .client i inp => clientStep errorBody s i inp
  | .owner inp => ownerStep s inp

def machine : Machine State Label Event where
  step := step errorBody

end Machine

end FlipLink.Daemon
