/-
# `FlipLink.Client.Requests` — one call, one connection

`caps`, `invoke`, `ping_through_daemon` and `status` of the client's `daemon.rs`.  Each
opens a connection of its own, writes one frame with seq 1 and waits for a frame; the
loops that wait are the same but for the frames they pass over (`Call.takes`), the size of
a read and what they say when nothing comes.  `round_trip` is the loop of the first two.

The connection is there, or `connect` has failed before any of this.  A turn of a loop is
one step, and what it finds comes with it: whether the deadline has passed, and what the
read returns, no bytes where it times out.

Whatever the reads make of the bytes, a call takes the first of their frames that it does
not pass over (`Awaited`).
-/
import FlipLink.Core.DeviceLink

namespace FlipLink.DaemonClient

open Lib
open DeviceLink (Bodies)

inductive DeviceStatus where
  | connected (instruments : Nat)
  | disconnected
  | unknown (why : String)
  deriving DecidableEq, Repr

inductive Call where
  | caps
  | invoke (instrument opcode : String) (params : Value)
  | ping (payload : List UInt8)
  | status

/-- What a call returns when it succeeds; `status` always does. -/
inductive Reply where
  | caps (c : Caps)
  | resp (r : Resp)
  | pong (payload : List UInt8)
  | status (d : DeviceStatus)

/-- Why a call has no frame to look at. -/
inductive Failure where
  | tooBig
  | write (e : String)
  | late
  | read (e : String)
  deriving DecidableEq, Repr

/-- Where a call is that has written its frame. -/
inductive Wait where
  | waiting (reader : FrameReader)
  | over (r : Except Failure OwnedFrame)
  deriving DecidableEq

section Calls

variable (b : Bodies)

/-- The frame of a call. -/
def Call.frame : Call → OwnedFrame
  | .caps | .status => { typ := .hello, flags := 0, seq := 1, payload := helloBody 0 }
  | .invoke instrument opcode params =>
      { typ := .req, flags := 0, seq := 1
        payload := reqBody b.value { instrument, opcode, params } }
  | .ping payload => { typ := .ping, flags := 0, seq := 1, payload }

/-- What a call writes; the buffer of a PING is of a fixed size. -/
def Call.bytes (c : Call) : Except Failure (List UInt8) :=
  let room := match c with
    | .ping _ => 1100
    | _ => headerSize + (c.frame b).payload.length + 2
  match encode (c.frame b).typ 0 1 (c.frame b).payload (List.replicate room 0) with
  | (some n, buf) => .ok (buf.take n)
  | (none, _) => .error .tooBig

/-- The frames that the loop of a call does not pass over. -/
def Call.takes (f : OwnedFrame) : Call → Bool
  | .ping _ => f.typ = .pong ∧ f.seq = 1
  | _ => true

/-- The bytes that a read of the loop asks for. -/
def Call.scratch : Call → Nat
  | .ping _ => 512
  | _ => 1024

/-- A turn of the loop that waits, and what it leaves of the bytes on the connection. -/
def Call.turn (c : Call) (late : Bool) (read : Except String Nat) (incoming : List UInt8)
    (reader : FrameReader) : Wait × List UInt8 :=
  match reader.nextFrame with
  | (some f, reader) => (if c.takes f then .over (.ok f) else .waiting reader, incoming)
  | (none, reader) =>
      if late then (.over (.error .late), incoming)
      else
        match read with
        | .error e => (.over (.error (.read e)), incoming)
        | .ok n =>
            (.waiting (reader.feed (incoming.take (min n c.scratch))),
              incoming.drop (min n c.scratch))

/-! ## What is made of the frame -/

def roundTripError : Failure → String
  | .tooBig => "payload too big"
  | .late => "timed out waiting for reply via daemon"
  | .write e | .read e => e

def capsResult : Except Failure OwnedFrame → Except String Caps
  | .ok f =>
      match f.typ with
      | .caps =>
          match b.caps f.payload with
          | .ok caps => .ok caps
          | .error e => .error ("decode CAPS: " ++ e)
      | other => .error ("expected CAPS, got " ++ other.debug)
  | .error e => .error (roundTripError e)

def invokeResult : Except Failure OwnedFrame → Except String Resp
  | .ok f =>
      match f.typ with
      | .resp =>
          match b.resp f.payload with
          | .ok resp => .ok resp
          | .error e => .error ("decode RESP: " ++ e)
      | .error =>
          match b.agentError f.payload with
          | .ok e => .error ("device error " ++ toString e.code.toNat ++ ": " ++ e.message)
          | .error e => .error ("decode ERROR: " ++ e)
      | other => .error ("expected RESP/ERROR, got " ++ other.debug)
  | .error e => .error (roundTripError e)

def pingResult : Except Failure OwnedFrame → Except String (List UInt8)
  | .ok f => .ok f.payload
  | .error .late => .error "timed out waiting for pong via daemon"
  | .error e => .error (roundTripError e)

def statusResult : Except Failure OwnedFrame → DeviceStatus
  | .ok f =>
      match f.typ with
      | .caps =>
          match b.caps f.payload with
          | .ok caps => .connected caps.instruments.length
          | .error _ => .unknown "CAPS undecodable"
      | _ => .disconnected
  | .error .tooBig => .unknown "HELLO payload too big"
  | .error (.write _) => .unknown "write error"
  | .error .late => .unknown "no reply"
  | .error (.read _) => .unknown "read error"

/-- What a call returns. -/
def Call.result (r : Except Failure OwnedFrame) : Call → Except String Reply
  | .caps => (capsResult b r).map .caps
  | .invoke .. => (invokeResult b r).map .resp
  | .ping _ => (pingResult r).map .pong
  | .status => .ok (.status (statusResult b r))

/-- `sent_count`. -/
def sentCount : Value → Except String UInt64
  | .u64 n => .ok n
  | .map fields =>
      match fields.find? (·.1 = "sent") with
      | some (_, .u64 n) => .ok n
      | _ => .error "transmit response missing numeric sent field"
  | _ => .error "transmit response was not a sent count"

/-- What `ir_transmit` and `subghz_transmit` return. -/
def transmitResult (r : Except Failure OwnedFrame) : Except String UInt64 :=
  (invokeResult b r).bind fun resp => sentCount resp.result

/-! What a call that succeeds has made its result of. -/

variable {b} {r : Except Failure OwnedFrame}

theorem capsResult_ok {caps : Caps} (h : capsResult b r = .ok caps) :
    ∃ f, r = .ok f ∧ f.typ = .caps ∧ b.caps f.payload = .ok caps := by
  unfold capsResult at h
  split at h
  · split at h
    · split at h
      · cases h
        exact ⟨_, rfl, ‹_›, ‹_›⟩
      · cases h
    · cases h
  · cases h

theorem invokeResult_ok {resp : Resp} (h : invokeResult b r = .ok resp) :
    ∃ f, r = .ok f ∧ f.typ = .resp ∧ b.resp f.payload = .ok resp := by
  unfold invokeResult at h
  split at h
  · split at h
    · split at h
      · cases h
        exact ⟨_, rfl, ‹_›, ‹_›⟩
      · cases h
    · split at h <;> cases h
    · cases h
  · cases h

theorem pingResult_ok {payload : List UInt8} (h : pingResult r = .ok payload) :
    ∃ f, r = .ok f ∧ f.payload = payload := by
  unfold pingResult at h
  split at h <;> cases h
  exact ⟨_, rfl, rfl⟩

theorem statusResult_connected {n : Nat} (h : statusResult b r = .connected n) :
    ∃ f caps, r = .ok f ∧ f.typ = .caps ∧ b.caps f.payload = .ok caps ∧
      caps.instruments.length = n := by
  unfold statusResult at h
  split at h
  · split at h
    · split at h
      · cases h
        exact ⟨_, _, rfl, ‹_›, ‹_›, rfl⟩
      · cases h
    · cases h
  all_goals cases h

end Calls

/-! ## The frame a call takes -/

/-- A call that has read these bytes has passed over the frames that it has taken out of
them, or has taken the first one that it does not pass over. -/
def Awaited (c : Call) (bytes : List UInt8) : Wait → Prop
  | .waiting reader => ∃ passed, codec.At bytes passed reader.buf ∧ passed.find? c.takes = none
  | .over (.ok f) => (codec.drain bytes).1.find? c.takes = some f
  | .over (.error _) => True

theorem Awaited.new (c : Call) : Awaited c [] (.waiting .new) := ⟨[], codec.at_nil, rfl⟩

/-- A turn of the loop that waits keeps it so, with what its read has returned. -/
theorem Awaited.turn {c : Call} {bytes : List UInt8} {reader : FrameReader} {late : Bool}
    {read : Except String Nat} {incoming rest : List UInt8} {w : Wait}
    (h : Awaited c bytes (.waiting reader)) (ht : c.turn late read incoming reader = (w, rest)) :
    ∃ got, incoming = got ++ rest ∧ Awaited c (bytes ++ got) w := by
  obtain ⟨passed, hat, hpassed⟩ := h
  unfold Call.turn at ht
  split at ht
  · rename_i f reader' hn
    have hnext := FrameReader.next_of_nextFrame hn
    cases ht
    refine ⟨[], rfl, ?_⟩
    rw [List.append_nil]
    split_ifs with htakes
    · show (codec.drain bytes).1.find? c.takes = some f
      rw [(hat.next_some hnext).frames, List.append_assoc, List.find?_append, hpassed]
      simp [htakes]
    · refine ⟨passed ++ [f], hat.next_some hnext, ?_⟩
      rw [List.find?_append, hpassed]
      simpa using htakes
  · rename_i reader' hn
    have hnext := FrameReader.next_of_nextFrame hn
    split_ifs at ht
    · cases ht
      exact ⟨[], rfl, trivial⟩
    · split at ht
      · cases ht
        exact ⟨[], rfl, trivial⟩
      · cases ht
        refine ⟨_, (List.take_append_drop _ _).symm, passed, ?_, hpassed⟩
        exact (hat.next_none hnext).feed _

end FlipLink.DaemonClient
