/-
# `FlipLink.Daemon.Conversation` — every frame of a client is answered, in turn

What happens on one client's connection, in the order in which it happens: the frames
that its thread takes up, what it queues to the device for them and what it writes back.
`conversation` reads these turns off the steps of the daemon, whatever the other threads
do in between.

An `Exchange` is a frame with everything that is done about it.  There are seven shapes of
it, and what holds of each is part of the data, so that an exchange with no answer, or with
two, or with somebody else's seq, cannot be built.  The conversation is whole exchanges one
after the other, and behind them the `Draft` of one more; and the frames taken up are the
first ones of the bytes that the client has sent outside a stream.

The step lemma is `phase_turns`, which knows from the draft where the thread stands
(`Stands`).
-/
import FlipLink.Daemon.Tickets
import FlipLink.Lib.Sessions

namespace FlipLink.Daemon

open Lib

/-! ## Turns -/

inductive Turn where
  /-- The thread takes up a frame, outside a stream. -/
  | ask (f : Frame)
  /-- A frame is queued to the device. -/
  | queue (x : Outbound)
  /-- A frame is written to the client. -/
  | tell (about : Source) (typ : MsgType) (seq : UInt16) (payload : List UInt8)
  /-- The client hangs up during a stream. -/
  | hangUp
  deriving DecidableEq, Repr

/-- What the thread learns from its client with its next step. -/
def Thread.learns (t : Thread) (inp : ClientInput) : List Turn :=
  match t.phase, inp with
  | .frames, .go => t.reader.nextFrame.1.toList.map .ask
  | .relay _ .read, .read .eof => [.hangUp]
  | _, _ => []

def Event.told : Event → Option Turn
  | .wrote _ about typ seq payload => some (.tell about typ seq payload)
  | _ => none

/-- What an answer to the thread makes of a conversation. -/
def Thread.turns (t : Thread) (inp : ClientInput) (s s' : State) (es : List Event) : List Turn :=
  t.learns inp ++ ((s'.outbound.drop s.outbound.length).map .queue ++ es.filterMap Event.told)

/-- The turns of client `i`'s conversation that a step makes. -/
def turns (i : Nat) (s : State) (l : Label) (s' : State) (es : List Event) : List Turn :=
  match l with
  | .client j inp => if j = i then (s.threads i).turns inp s s' es else []
  | _ => []

/-- The bytes that the thread reads outside a stream. -/
def Thread.hears (t : Thread) (inp : ClientInput) : List UInt8 :=
  match t.phase, inp with
  | .read, .read (.data bytes) => bytes
  | _, _ => []

/-- The bytes that a step reads from client `i` outside a stream. -/
def hears (i : Nat) (s : State) (l : Label) (_ : State) (_ : List Event) : List UInt8 :=
  match l with
  | .client j inp => if j = i then (s.threads i).hears inp else []
  | _ => []

def Turn.asked : Turn → Option Frame
  | .ask f => some f
  | _ => none

/-- What client `i` is told. -/
def Event.toldTo (i : Nat) : Event → Option Turn
  | .wrote j about typ seq payload =>
      if j = i then some (.tell about typ seq payload) else none
  | _ => none

def Turn.isTell : Turn → Bool
  | .tell .. => true
  | _ => false

/-! ## Exchanges -/

/-- A request that is sent on to the device. -/
structure Request where
  frame : Frame
  ticket : Ticket
  bytes : List UInt8
  notHello : frame.typ ≠ .hello
  framed : frameBytes frame.typ frame.flags ticket.seq frame.payload = some bytes

namespace Request

variable (r : Request)

def item : Outbound where
  kind := .request
  ticket := r.ticket
  typ := r.frame.typ
  bytes := r.bytes

/-- The STREAM_STOP for it. -/
def stop : Outbound where
  kind := .stop
  ticket := r.ticket
  typ := .streamStop
  bytes := wire .streamStop 0 r.ticket.seq []

def turns : List Turn := [.ask r.frame, .queue r.item]

/-- A device frame passed on for it. -/
def relays (g : Frame) : Turn := .tell (.device r.ticket g) g.typ r.frame.seq g.payload

end Request

/-- A stream that has begun. -/
structure Stream where
  request : Request
  start : Frame
  body : List Turn
  begins : start.typ = .streamStart
  /-- What follows is device frames, and STREAM_STOPs for the device. -/
  follows : ∀ t ∈ body,
    t = .queue request.stop ∨ ∃ g : Frame, g.typ ≠ .streamStop ∧ t = request.relays g

namespace Stream

variable (s : Stream)

def turns : List Turn := s.request.turns ++ s.request.relays s.start :: s.body

/-- A stream of which no more than the STREAM_START has come. -/
def begin (r : Request) (g : Frame) (begins : g.typ = .streamStart) : Stream where
  request := r
  start := g
  body := []
  begins := begins
  follows _ ht := nomatch ht

/-- A stream goes on with a device frame. -/
def relay (g : Frame) (hg : g.typ ≠ .streamStop) : Stream where
  request := s.request
  start := s.start
  body := s.body ++ [s.request.relays g]
  begins := s.begins
  follows t ht := by
    rcases List.mem_append.mp ht with ht | ht
    · exact s.follows t ht
    · exact .inr ⟨g, hg, List.mem_singleton.mp ht⟩

/-- It goes on with the client asking to stop. -/
def stop : Stream where
  request := s.request
  start := s.start
  body := s.body ++ [.queue s.request.stop]
  begins := s.begins
  follows t ht := by
    rcases List.mem_append.mp ht with ht | ht
    · exact s.follows t ht
    · exact .inl (List.mem_singleton.mp ht)

end Stream

/-- A frame of the client and what is done about it. -/
inductive Exchange where
  /-- A HELLO, while the daemon knows the device's CAPS. -/
  | caps (f : Frame) (payload : List UInt8) (hello : f.typ = .hello) (cached : payload ≠ [])
  /-- A HELLO, while it does not. -/
  | noDevice (f : Frame) (hello : f.typ = .hello)
  /-- The device answers with one frame. -/
  | reply (r : Request) (g : Frame) (brief : g.typ ≠ .streamStart)
  | timeout (r : Request)
  /-- A stream that the device ends. -/
  | stopped (s : Stream) (g : Frame) (final : g.typ = .streamStop)
  /-- A stream that the client has asked to stop, and the device does not end. -/
  | stopTimeout (s : Stream) (asked : .queue s.request.stop ∈ s.body)
  /-- A stream that the client hangs up on. -/
  | hungUp (s : Stream)

/-- The start of an exchange. -/
inductive Draft where
  | none
  | asked (f : Frame)
  | sent (r : Request)
  | streaming (s : Stream)
  | hangingUp (s : Stream)

def Exchange.frame : Exchange → Frame
  | .caps f _ _ _ | .noDevice f _ => f
  | .reply r _ _ | .timeout r => r.frame
  | .stopped s _ _ | .stopTimeout s _ | .hungUp s => s.request.frame

def Draft.frame : Draft → Option Frame
  | .none => Option.none
  | .asked f => some f
  | .sent r => some r.frame
  | .streaming s | .hangingUp s => some s.request.frame

def Draft.turns : Draft → List Turn
  | .none => []
  | .asked f => [.ask f]
  | .sent r => r.turns
  | .streaming s => s.turns
  | .hangingUp s => s.turns ++ [.hangUp]

section Turns

variable (errorBody : UInt32 → String → List UInt8)

def Exchange.turns : Exchange → List Turn
  | .caps f payload _ _ => [.ask f, .tell .hello .caps f.seq payload]
  | .noDevice f _ =>
      [.ask f, .tell .hello .error f.seq (errorBody errInternal "device not connected")]
  | .reply r g _ => r.turns ++ [r.relays g]
  | .timeout r =>
      r.turns ++ [.tell (.timeout r.ticket) .error r.frame.seq
        (errorBody errInternal "device timeout")]
  | .stopped s g _ => s.turns ++ [s.request.relays g]
  | .stopTimeout s _ =>
      s.turns ++ [.tell (.stopTimeout s.request.ticket) .error s.request.frame.seq
        (errorBody errInternal "device timeout waiting for stream stop")]
  | .hungUp s => s.turns ++ [.hangUp, .queue s.request.stop]

/-- The conversation on client `i`'s connection, from the daemon's start. -/
def conversation (i : Nat) (ls : List Label) : List Turn :=
  (machine errorBody).trace (Daemon.turns i) .initial ls

/-- The bytes read from client `i` outside a stream, from the daemon's start. -/
def heard (i : Nat) (ls : List Label) : List UInt8 :=
  (machine errorBody).trace (hears i) .initial ls

/-! ## Where the thread stands in an exchange -/

/-- The phases of a relay that go on with the stream. -/
def RelayPhase.Open (ρ : Relay) : RelayPhase → Prop
  | .eofForward | .unregister false => False
  | .stopTimeoutWrite => ρ.stopDeadline.isSome
  | _ => True

inductive Stands : Phase → Draft → Prop
  | read : Stands .read .none
  | wake : Stands .wake .none
  | frames : Stands .frames .none
  | caps {f} (hello : f.typ = .hello) : Stands (.caps f.seq) (.asked f)
  | helloWrite {f payload} (hello : f.typ = .hello) (cached : payload ≠ []) :
      Stands (.helloWrite .caps f.seq payload) (.asked f)
  | noDevice {f} (hello : f.typ = .hello) :
      Stands (.helloWrite .error f.seq (errorBody errInternal "device not connected")) (.asked f)
  | register {f} (notHello : f.typ ≠ .hello) : Stands (.register f) (.asked f)
  | forward {f d} (notHello : f.typ ≠ .hello) : Stands (.forward f d) (.asked f)
  | await {r deadline} : Stands (.await r.frame.seq r.ticket deadline) (.sent r)
  | replyUnregister {r g} (brief : g.typ ≠ .streamStart) :
      Stands (.replyUnregister r.frame.seq r.ticket g) (.sent r)
  | replyWrite {r g} (brief : g.typ ≠ .streamStart) :
      Stands (.replyWrite r.frame.seq r.ticket g) (.sent r)
  | timeoutUnregister {r} : Stands (.timeoutUnregister r.frame.seq r.ticket) (.sent r)
  | timeoutWrite {r} : Stands (.timeoutWrite r.frame.seq r.ticket) (.sent r)
  | startWrite {r g} (begins : g.typ = .streamStart) :
      Stands (.startWrite r.frame.seq r.ticket g) (.sent r)
  | relay {s : Stream} {ρ p} (hc : ρ.clientSeq = s.request.frame.seq)
      (hd : ρ.dev = s.request.ticket)
      (asked : ρ.stopDeadline.isSome → .queue s.request.stop ∈ s.body) (hp : p.Open ρ) :
      Stands (.relay ρ p) (.streaming s)
  | eofForward {s : Stream} {ρ} (hd : ρ.dev = s.request.ticket) :
      Stands (.relay ρ .eofForward) (.hangingUp s)
  | unregister {ρ} : Stands (.relay ρ (.unregister false)) .none
  | closed {d} : Stands .closed d

/-- How a draft grows by some turns: it goes on, or it is an exchange then. -/
inductive Grows (d : Draft) (ts : List Turn) : Draft → Prop
  | draft {d'} (h : d'.turns = d.turns ++ ts) : Grows d ts d'
  | whole (x : Exchange) (h : x.turns errorBody = d.turns ++ ts) : Grows d ts .none

end Turns

/-! ## One step -/

section Step

variable {eb : UInt32 → String → List UInt8} {s s₁ : State} {i : Nat} {inp : ClientInput}
  {a : Answer} {es : List Event} {reader : FrameReader} {t' : Thread} {d : Draft}

/-- The exchange goes on, from where the thread stands now to where it stands then. -/
def GoesOn (eb : UInt32 → String → List UInt8) (d : Draft) (ts : List Turn) (p' : Phase) : Prop :=
  ∃ d', Grows eb d ts d' ∧ Stands eb p' d'

theorem GoesOn.note {p' : Phase} {e : Draft} {ts : List Turn} (h : Stands eb p' e)
    (hd : e.turns = d.turns ++ ts) : GoesOn eb d ts p' :=
  ⟨e, .draft hd, h⟩

theorem GoesOn.close {p' : Phase} {x : Exchange} {ts : List Turn} (h : Stands eb p' .none)
    (hx : x.turns eb = d.turns ++ ts) : GoesOn eb d ts p' :=
  ⟨.none, .whole x hx, h⟩

/-- A STREAM_STOP for the device, as `forward` frames it. -/
theorem Request.stop_of_framed {r : Request} {d : Ticket} {bytes : List UInt8} (hd : d = r.ticket)
    (h : frameBytes .streamStop 0 d.seq [] = some bytes) :
    (⟨.stop, d, .streamStop, bytes⟩ : Outbound) = r.stop := by
  subst hd
  rw [frameBytes_eq _ _ _ (by decide)] at h
  cases h
  rfl

/-- A step that makes no turn. -/
theorem GoesOn.still {p' : Phase} {t : Thread} (h : Stands eb p' d) (hl : t.learns inp = [])
    (ho : s₁.outbound = s.outbound) (hes : es.filterMap Event.told = []) :
    GoesOn eb d (t.turns inp s s₁ es) p' := by
  rw [Thread.turns, hl, ho, hes, List.drop_length]
  exact ⟨d, .draft (List.append_nil _).symm, h⟩

theorem turns_told {t : Thread} {about : Source} {typ : MsgType} {seq : UInt16}
    {payload : List UInt8} (h : t.learns inp = []) :
    t.turns inp s s [.wrote i about typ seq payload] = [.tell about typ seq payload] := by
  simp [Thread.turns, h, Event.told]

theorem turns_queued {t : Thread} {x : Outbound} {d : Ticket} {k : Kind} {typ : MsgType}
    (h : t.learns inp = []) :
    t.turns inp s { s with outbound := s.outbound ++ [x] } [.queued i d k typ] = [.queue x] := by
  simp [Thread.turns, h, Event.told]

theorem relay_turns {r : Relay} {n : Next} : ∀ {p : RelayPhase},
    Served s i (r.need eb p) inp a s₁ es → Stands eb (.relay r p) d → r.resume s.now p a = some n →
    GoesOn eb d ((⟨.relay r p, reader⟩ : Thread).turns inp s s₁ es) n.phase
  | .top, .go => by
      intro hst hr
      cases hst with
      | relay hc hd asked =>
          refine .still ?_ rfl rfl rfl
          simp only [Relay.resume] at hr
          split at hr
          · rename_i hdl
            split_ifs at hr
            · cases hr
              exact .relay hc hd asked (by rw [RelayPhase.Open, hdl]; rfl)
            · cases hr; exact .relay hc hd asked trivial
          · cases hr; exact .relay hc hd asked trivial
  | .stopTimeoutWrite, .wrote => by
      intro hst hr
      cases hst with
      | relay hc hd asked hp =>
          cases hr
          rw [turns_told rfl, hc, hd]
          exact .close (x := .stopTimeout _ (asked hp)) .unregister rfl
  | .stopTimeoutWrite, .failed => by
      intro _ hr
      cases hr; exact .still .closed rfl rfl rfl
  | .read, .read .eof => by
      intro hst hr
      cases hst with
      | relay hc hd asked =>
          cases hr
          exact .note (e := .hangingUp _) (.eofForward hd)
            (by simp [Thread.turns, Thread.learns]; rfl)
  | .read, .read (.data _) => by
      intro hst hr
      cases hst with
      | relay hc hd asked =>
          cases hr; exact .still (.relay hc hd asked trivial) rfl rfl rfl
  | .read, .read .timeout => by
      intro hst hr
      cases hst with
      | relay hc hd asked =>
          cases hr; exact .still (.relay hc hd asked trivial) rfl rfl rfl
  | .read, .read .error => by
      intro hst hr
      cases hst with
      | relay hc hd asked =>
          cases hr; exact .still (.relay hc hd asked trivial) rfl rfl rfl
  | .frames, .go => by
      intro hst hr
      cases hst with
      | relay hc hd asked =>
          refine .still ?_ rfl rfl rfl
          simp only [Relay.resume] at hr
          split at hr
          · cases hr; exact .relay hc hd asked trivial
          · cases hr
            refine .relay hc hd asked ?_
            split_ifs <;> trivial
  | .forwardStop, .queued h => by
      intro hst hr
      cases hst with
      | relay hc hd asked =>
          cases hr
          rw [turns_queued rfl, Request.stop_of_framed hd h]
          exact .note (e := .streaming (Stream.stop _))
            (.relay hc hd (fun _ => List.mem_append_right _ (List.mem_singleton.mpr rfl)) trivial)
            (by simp [Draft.turns, Stream.turns, Stream.stop])
  | .forwardStop, .tooLarge h => absurd h (frameBytes_stop _)
  | .eofForward, .queued h => by
      intro hst hr
      cases hst with
      | relay _ _ _ hp => exact hp.elim
      | @eofForward str _ hd =>
          cases hr
          rw [turns_queued rfl, Request.stop_of_framed hd h]
          exact .close (x := .hungUp str) .unregister (by simp [Draft.turns, Exchange.turns])
  | .eofForward, .tooLarge h => absurd h (frameBytes_stop _)
  | .recv _, .received h => by
      intro hst hr
      cases hst with
      | relay hc hd asked =>
          cases hr; exact .still (.relay hc hd asked trivial) rfl rfl rfl
  | .recv _, .timeout _ _ => by
      intro hst hr
      cases hst with
      | relay hc hd asked =>
          cases hr; exact .still (.relay hc hd asked trivial) rfl rfl rfl
  | .write f, .wrote => by
      intro hst hr
      cases hst with
      | relay hc hd asked =>
          rw [turns_told rfl, hc, hd]
          simp only [Relay.resume, if_true] at hr
          split_ifs at hr with ht
          · cases hr
            exact .close (x := .stopped _ f ht) .unregister rfl
          · cases hr
            exact .note (e := .streaming (Stream.relay _ f ht))
              (.relay hc hd (fun h => List.mem_append_left _ (asked h)) trivial)
              (by simp [Draft.turns, Stream.turns, Stream.relay, Request.relays])
  | .write f, .failed => by
      intro _ hr
      cases hr; exact .still .closed rfl rfl rfl
  | .unregister false, .unregister => by
      intro hst hr
      cases hst with
      | relay _ _ _ hp => exact hp.elim
      | unregister => cases hr; exact .still .frames rfl rfl rfl
  | .unregister true, .unregister => by
      intro _ hr
      cases hr; exact .still .closed rfl rfl rfl

theorem phase_turns : ∀ {p : Phase}, Served s i (p.need eb) inp a s₁ es → Stands eb p d →
    (⟨p, reader⟩ : Thread).resume eb s.now a = some t' →
    GoesOn eb d ((⟨p, reader⟩ : Thread).turns inp s s₁ es) t'.phase
  | .read, .read .eof => by
      intro hst hr
      cases hst with
      | read =>
          cases hr; exact .still .closed rfl rfl rfl
  | .read, .read (.data _) => by
      intro hst hr
      cases hst with
      | read =>
          cases hr; exact .still .wake rfl rfl rfl
  | .read, .read .timeout => by
      intro hst hr
      cases hst with
      | read =>
          cases hr; exact .still .frames rfl rfl rfl
  | .read, .read .error => by
      intro hst hr
      cases hst with
      | read =>
          cases hr; exact .still .closed rfl rfl rfl
  | .wake, .wake => by
      intro hst hr
      cases hst with
      | wake =>
          cases hr; exact .still .frames rfl rfl rfl
  | .frames, .go => by
      intro hst hr
      cases hst with
      | frames =>
          simp only [Thread.resume] at hr
          have hts : (⟨.frames, reader⟩ : Thread).turns .go s s []
              = reader.nextFrame.1.toList.map .ask := by
            simp [Thread.turns, Thread.learns]
          rw [hts]
          split at hr
          · rename_i hn
            cases hr
            rw [hn]
            exact .note .read (List.append_nil _).symm
          · rename_i f reader' hn
            cases hr
            rw [hn]
            refine .note (e := .asked f) ?_ rfl
            dsimp only
            split_ifs with ht
            · exact .caps ht
            · exact .register ht
  | .caps _, .caps => by
      intro hst hr
      cases hst with
      | caps hello =>
          cases hr
          refine .still ?_ rfl rfl rfl
          dsimp only
          split_ifs with hcaps
          · exact .noDevice hello
          · exact .helloWrite hello (fun h => hcaps (List.isEmpty_iff.mpr h))
  | .helloWrite .., .wrote => by
      intro hst hr
      cases hr
      rw [turns_told rfl]
      cases hst with
      | helloWrite hello cached => exact .close (x := .caps _ _ hello cached) .frames rfl
      | noDevice hello => exact .close (x := .noDevice _ hello) .frames rfl
  | .helloWrite .., .failed => by
      intro _ hr
      cases hr; exact .still .closed rfl rfl rfl
  | .register f, .register => by
      intro hst hr
      cases hst with
      | register notHello =>
          cases hr; exact .still (.forward notHello) rfl rfl rfl
  | .forward f _, .queued h => by
      intro hst hr
      cases hst with
      | forward notHello =>
          cases hr
          rw [turns_queued rfl]
          exact .note (e := .sent ⟨f, _, _, notHello, h⟩)
            (.await (r := ⟨f, _, _, notHello, h⟩)) rfl
  | .forward f _, .tooLarge _ => by
      intro hst hr
      cases hst with
      | forward notHello =>
          cases hr; exact .still .closed rfl rfl rfl
  | .await .., .received h => by
      intro hst hr
      cases hst with
      | await =>
          cases hr
          refine .still ?_ rfl rfl rfl
          dsimp only
          split_ifs with ht
          · exact .startWrite ht
          · exact .replyUnregister ht
  | .await .., .timeout h hd => by
      intro hst hr
      cases hst with
      | await =>
          cases hr; exact .still .timeoutUnregister rfl rfl rfl
  | .replyUnregister .., .unregister => by
      intro hst hr
      cases hst with
      | replyUnregister brief =>
          cases hr; exact .still (.replyWrite brief) rfl rfl rfl
  | .replyWrite .., .wrote => by
      intro hst hr
      cases hst with
      | replyWrite brief =>
          cases hr
          rw [turns_told rfl]
          exact .close (x := .reply _ _ brief) .frames rfl
  | .replyWrite .., .failed => by
      intro _ hr
      cases hr; exact .still .closed rfl rfl rfl
  | .timeoutUnregister .., .unregister => by
      intro hst hr
      cases hst with
      | timeoutUnregister =>
          cases hr; exact .still .timeoutWrite rfl rfl rfl
  | .timeoutWrite .., .wrote => by
      intro hst hr
      cases hst with
      | timeoutWrite =>
          cases hr
          rw [turns_told rfl]
          exact .close (x := .timeout _) .frames rfl
  | .timeoutWrite .., .failed => by
      intro _ hr
      cases hr; exact .still .closed rfl rfl rfl
  | .startWrite .., .wrote => by
      intro hst hr
      cases hst with
      | startWrite begins =>
          cases hr
          rw [turns_told rfl]
          exact .note (e := .streaming (.begin _ _ begins)) (.relay rfl rfl (by intro h; cases h) trivial) rfl
  | .startWrite .., .failed => by
      intro _ hr
      cases hr; exact .still .closed rfl rfl rfl
  | .relay r p, hs => by
      intro hst hr
      simp only [Thread.resume] at hr
      split at hr <;> cases hr
      all_goals exact relay_turns hs hst ‹_›

end Step

/-! ## What the thread has read -/

section Reader

variable {eb : UInt32 → String → List UInt8} {s s₁ : State} {i : Nat} {inp : ClientInput}
  {a : Answer} {es : List Event} {t t' : Thread} {bytes : List UInt8} {fs : List Frame}

/-- The frames taken up are the first ones of the bytes read, and where the thread goes
back to its socket they are all of them. -/
structure Caught (bytes : List UInt8) (fs : List Frame) (t : Thread) : Prop where
  reader : codec.At bytes fs t.reader.buf
  read : t.phase = .read → codec.decode t.reader.buf = .needMore

/-- Only `read` and `frames` touch the reader, and only `frames` goes back to `read`. -/
theorem resume_reader {now : Nat} (h : t.resume eb now a = some t') (hread : t.phase ≠ .read)
    (hframes : t.phase ≠ .frames) : t'.reader = t.reader ∧ t'.phase ≠ .read := by
  obtain ⟨p, reader⟩ := t
  unfold Thread.resume at h
  dsimp only at h hread hframes ⊢
  split at h
  all_goals first
    | contradiction
    | (split at h <;> cases h <;> refine ⟨rfl, ?_⟩ <;> simp)
    | (cases h; refine ⟨rfl, ?_⟩; simp)

theorem Caught.step (h : Caught bytes fs t) (hs : Served s i (t.phase.need eb) inp a s₁ es)
    (hr : t.resume eb s.now a = some t') :
    Caught (bytes ++ t.hears inp) (fs ++ (t.learns inp).filterMap Turn.asked) t' := by
  obtain ⟨p, reader⟩ := t
  by_cases hread : p = .read
  · subst hread
    obtain ⟨hat, -⟩ := h
    cases hs with
    | read r =>
        cases r with
        | data x =>
            cases hr
            exact ⟨(List.append_nil fs).symm ▸ hat.feed x, fun hp => by cases hp⟩
        | _ =>
            cases hr
            exact ⟨by simpa [Thread.hears, Thread.learns] using hat, fun hp => by cases hp⟩
  by_cases hframes : p = .frames
  · subst hframes
    obtain ⟨hat, -⟩ := h
    cases hs with
    | go =>
        simp only [Thread.resume] at hr
        split at hr
        · rename_i hn
          have hnext := FrameReader.next_of_nextFrame hn
          cases hr
          refine ⟨?_, fun _ => codec.next_none_needMore hnext⟩
          simpa [Thread.hears, Thread.learns, hn] using hat.next_none hnext
        · rename_i f reader' hn
          have hnext := FrameReader.next_of_nextFrame hn
          cases hr
          refine ⟨?_, by dsimp only; split_ifs <;> intro hp <;> cases hp⟩
          simpa [Thread.hears, Thread.learns, hn, Turn.asked] using hat.next_some hnext
  obtain ⟨hreader, hphase⟩ := resume_reader hr hread hframes
  have hh : (⟨p, reader⟩ : Thread).hears inp = [] := by
    unfold Thread.hears
    split
    · contradiction
    · rfl
  have hl : ((⟨p, reader⟩ : Thread).learns inp).filterMap Turn.asked = [] := by
    unfold Thread.learns
    split
    · contradiction
    · rfl
    · rfl
  rw [hh, hl, List.append_nil, List.append_nil]
  exact ⟨hreader ▸ h.reader, fun hp => absurd hp hphase⟩

end Reader

/-! ## A whole run -/

section Run

variable {eb : UInt32 → String → List UInt8} {i : Nat}

theorem turns_asked {t : Thread} {inp : ClientInput} {s s' : State} {es : List Event} :
    (t.turns inp s s' es).filterMap Turn.asked = (t.learns inp).filterMap Turn.asked := by
  have hq : ∀ xs : List Outbound, (xs.map Turn.queue).filterMap Turn.asked = [] := by
    intro xs
    simp [List.filterMap_map, Function.comp_def, Turn.asked]
  have ht : ∀ es : List Event, (es.filterMap Event.told).filterMap Turn.asked = [] := by
    intro es
    rw [List.filterMap_filterMap, List.filterMap_eq_nil_iff]
    rintro e -
    cases e <;> rfl
  rw [Thread.turns, List.filterMap_append, List.filterMap_append, hq, ht, List.append_nil,
    List.append_nil]

theorem Served.threads {s s₁ : State} {n : Need} {inp : ClientInput} {a : Answer} {es : List Event}
    (h : Served s i n inp a s₁ es) : s₁.threads = s.threads := by
  cases h <;> rfl

/-- The conversation so far, and where the thread stands in it. -/
structure Conversing (eb : UInt32 → String → List UInt8) (i : Nat) (s : State) (ts : List Turn)
    (bytes : List UInt8) : Prop where
  kept : ∃ d : Draft, Kept (Exchange.turns eb) d.turns ts ∧ Stands eb (s.threads i).phase d
  caught : Caught bytes (ts.filterMap Turn.asked) (s.threads i)

theorem Conversing.initial : Conversing eb i .initial [] [] where
  kept := ⟨.none, kept_nil, .read⟩
  caught := ⟨codec.at_nil, fun _ => rfl⟩

theorem Conversing.step {s s' : State} {l : Label} {ts : List Turn} {bytes : List UInt8}
    {es : List Event} (h : Conversing eb i s ts bytes)
    (hs : (machine eb).step s l = some (s', es)) :
    Conversing eb i s' (ts ++ turns i s l s' es) (bytes ++ hears i s l s' es) := by
  have hidle : (s'.threads i) = s.threads i → Conversing eb i s' (ts ++ []) (bytes ++ []) := by
    intro ht
    rw [List.append_nil, List.append_nil]
    exact ⟨ht ▸ h.kept, ht ▸ h.caught⟩
  cases l with
  | tick ms => cases hs; exact hidle rfl
  | owner inp =>
      obtain ⟨s₁, o, hm, rfl⟩ := ownerStep_moves hs
      exact hidle (congrFun hm.frame.1 i)
  | client j inp =>
      obtain ⟨a, s₁, t, hserve, hserved, hresume, rfl⟩ := clientStep_cases hs
      rcases eq_or_ne j i with rfl | hj
      · obtain ⟨⟨d, hkept, hstands⟩, hcaught⟩ := h
        obtain ⟨d', hgrows, hstands'⟩ := phase_turns hserved hstands hresume
        have hts : turns j s (.client j inp) (s₁.setThread j t) es
            = (s.threads j).turns inp s s₁ es := if_pos rfl
        have hbs : hears j s (.client j inp) (s₁.setThread j t) es = (s.threads j).hears inp :=
          if_pos rfl
        rw [hts, hbs]
        constructor
        · rw [State.setThread_self]
          cases hgrows with
          | draft hd => exact ⟨d', hd ▸ hkept.note _, hstands'⟩
          | whole x hx => exact ⟨.none, hkept.close hx, hstands'⟩
        · rw [State.setThread_self, List.filterMap_append, turns_asked]
          exact hcaught.step hserved hresume
      · have hts : turns i s (.client j inp) (s₁.setThread j t) es = [] := if_neg hj
        have hbs : hears i s (.client j inp) (s₁.setThread j t) es = [] := if_neg hj
        rw [hts, hbs]
        exact hidle (by rw [State.setThread_of_ne _ _ _ hj.symm, hserved.threads])

theorem run_conversing {ls : List Label} {s : State} {es : List Event}
    (hr : (machine eb).run .initial ls = some (s, es)) :
    Conversing eb i s (conversation eb i ls) (heard eb i ls) :=
  Machine.run_traces (Q := Conversing eb i) (fun h hs => h.step hs) .initial hr

/-! ## The frames of a conversation -/

theorem Stream.turns_asked (str : Stream) :
    str.turns.filterMap Turn.asked = [str.request.frame] := by
  have hbody : str.body.filterMap Turn.asked = [] := by
    refine List.filterMap_eq_nil_iff.mpr fun t ht => ?_
    rcases str.follows t ht with rfl | ⟨g, -, rfl⟩ <;> rfl
  show str.request.frame :: str.body.filterMap Turn.asked = _
  rw [hbody]

theorem Exchange.turns_asked : ∀ x : Exchange,
    (x.turns eb).filterMap Turn.asked = [x.frame]
  | .caps .. | .noDevice .. | .reply .. | .timeout .. => rfl
  | .stopped str .. | .stopTimeout str _ | .hungUp str => by
      rw [Exchange.turns, List.filterMap_append, str.turns_asked]
      rfl

theorem Draft.turns_asked : ∀ d : Draft, d.turns.filterMap Turn.asked = d.frame.toList
  | .none | .asked _ | .sent _ => rfl
  | .streaming str => str.turns_asked
  | .hangingUp str => by
      rw [Draft.turns, List.filterMap_append, str.turns_asked]
      rfl

theorem kept_asked (xs : List Exchange) (d : Draft) :
    (xs.flatMap (Exchange.turns eb) ++ d.turns).filterMap Turn.asked
      = xs.map Exchange.frame ++ d.frame.toList := by
  rw [List.filterMap_append, d.turns_asked, List.filterMap_flatMap]
  simp only [Exchange.turns_asked]
  rw [← List.map_eq_flatMap]

theorem turns_tells {t : Thread} {inp : ClientInput} {s s' : State} {es : List Event} :
    (t.turns inp s s' es).filter Turn.isTell = es.filterMap Event.told := by
  have hl : (t.learns inp).filter Turn.isTell = [] := by
    refine List.filter_eq_nil_iff.mpr fun u hu => ?_
    unfold Thread.learns at hu
    split at hu
    · obtain ⟨f, -, rfl⟩ := List.mem_map.mp hu
      exact Bool.false_ne_true
    · cases List.mem_singleton.mp hu
      exact Bool.false_ne_true
    · cases hu
  have hq : ∀ xs : List Outbound, (xs.map Turn.queue).filter Turn.isTell = [] := by
    intro xs
    refine List.filter_eq_nil_iff.mpr fun u hu => ?_
    obtain ⟨x, -, rfl⟩ := List.mem_map.mp hu
    exact Bool.false_ne_true
  have ht : (es.filterMap Event.told).filter Turn.isTell = es.filterMap Event.told := by
    refine List.filter_eq_self.mpr fun u hu => ?_
    obtain ⟨e, -, he⟩ := List.mem_filterMap.mp hu
    cases e with
    | wrote => cases he; rfl
    | _ => cases he
  rw [Thread.turns, List.filter_append, List.filter_append, hl, hq, ht, List.nil_append,
    List.nil_append]

theorem Served.toldTo {s s₁ : State} {j : Nat} {n : Need} {inp : ClientInput} {a : Answer}
    {es : List Event} (h : Served s j n inp a s₁ es) :
    es.filterMap (Event.toldTo i) = if j = i then es.filterMap Event.told else [] := by
  cases h with
  | wrote => by_cases hj : j = i <;> simp [Event.toldTo, Event.told, hj]
  | _ => split_ifs <;> rfl

/-- The tells of a step are the frames that it writes to the client. -/
theorem turns_told_to {s s' : State} {l : Label} {es : List Event}
    (hs : (machine eb).step s l = some (s', es)) :
    (turns i s l s' es).filter Turn.isTell = es.filterMap (Event.toldTo i) := by
  cases l with
  | tick ms => cases hs; rfl
  | owner inp =>
      obtain ⟨s₁, o, hm, rfl⟩ := ownerStep_moves hs
      refine (List.filterMap_eq_nil_iff.mpr fun e he => ?_).symm
      cases e with
      | wrote => exact absurd he hm.wrote
      | _ => rfl
  | client j inp =>
      obtain ⟨a, s₁, t, -, hserved, -, rfl⟩ := clientStep_cases hs
      rcases eq_or_ne j i with rfl | hj
      · have hts : turns j s (.client j inp) (s₁.setThread j t) es
            = (s.threads j).turns inp s s₁ es := if_pos rfl
        rw [hts, turns_tells, hserved.toldTo, if_pos rfl]
      · have hts : turns i s (.client j inp) (s₁.setThread j t) es = [] := if_neg hj
        rw [hts, hserved.toldTo, if_neg hj]
        rfl

/-- What a client is told stands in its conversation. -/
theorem conversation_tells {ls : List Label} {s : State} {es : List Event}
    (hr : (machine eb).run .initial ls = some (s, es)) :
    (conversation eb i ls).filter Turn.isTell = es.filterMap (Event.toldTo i) := by
  have hnil : ([] : List Turn).filter Turn.isTell = [].filterMap (Event.toldTo i) := rfl
  have htold := Machine.run_traces (f := turns i) (g := fun _ _ _ es => es)
    (Q := fun _ ts es => ts.filter Turn.isTell = es.filterMap (Event.toldTo i))
    (fun h hs => by rw [List.filter_append, List.filterMap_append, h, turns_told_to hs]) hnil hr
  rwa [Machine.trace_events hr] at htold

/-- **Every frame of a client is answered, in turn.**  In every run of the daemon, with any
number of clients in any interleaving, what has happened on client `i`'s connection is whole
exchanges one after the other and the draft of one more.  Their frames, in this order, are
the first ones of what the client has sent outside its streams, and all that it has sent
when the thread goes back to its socket; and the client is told nothing but what stands in
them. -/
theorem every_frame_answered {ls : List Label} {s : State} {es : List Event}
    (hr : (machine eb).run .initial ls = some (s, es)) :
    ∃ (xs : List Exchange) (d : Draft),
      conversation eb i ls = xs.flatMap (Exchange.turns eb) ++ d.turns ∧
      xs.map Exchange.frame ++ d.frame.toList <+: (codec.drain (heard eb i ls)).1 ∧
      ((s.threads i).phase = .read →
        d = .none ∧ xs.map Exchange.frame = (codec.drain (heard eb i ls)).1) ∧
      (conversation eb i ls).filter Turn.isTell = es.filterMap (Event.toldTo i) := by
  obtain ⟨⟨d, ⟨xs, hkept⟩, hstands⟩, hcaught⟩ := run_conversing (i := i) hr
  have hasked : (conversation eb i ls).filterMap Turn.asked
      = xs.map Exchange.frame ++ d.frame.toList := by
    rw [hkept, kept_asked]
  refine ⟨xs, d, hkept, ?_, fun hread => ?_, conversation_tells hr⟩
  · rw [hcaught.reader.frames, hasked]
    exact List.prefix_append ..
  · -- the thread is between two exchanges, and its reader holds no whole frame
    have hd : d = .none := by
      rw [hread] at hstands
      cases hstands
      rfl
    refine ⟨hd, ?_⟩
    rw [hcaught.reader.frames, hasked, hd,
      codec.drain_of_none (codec.next_of_needMore (hcaught.read hread))]
    simp [Draft.frame]

/-- A HELLO and a request in one piece, while there is no device. -/
def greetAndAsk : List Label :=
  [.client 0 (.read (.data (wire .hello 0 4 [] ++ lateRequest.wire))), .client 0 .go,
    .client 0 .go, .client 0 .go, .client 0 (.wrote true), .client 0 .go, .client 0 .go,
    .client 0 .go, .tick 3000, .client 0 .timeout, .client 0 .go, .client 0 (.wrote true),
    .client 0 .go]

/-- There both are answered. -/
theorem every_frame_answered_both :
    ∃ (s : State) (es : List Event) (xs : List Exchange) (d : Draft),
    (machine agentErrorBody).run .initial greetAndAsk = some (s, es) ∧
      conversation agentErrorBody 0 greetAndAsk
        = xs.flatMap (Exchange.turns agentErrorBody) ++ d.turns ∧
      ((s.threads 0).phase = .read → d = .none ∧
        xs.map Exchange.frame = (codec.drain (heard agentErrorBody 0 greetAndAsk)).1) := by
  obtain ⟨es, hr⟩ := Machine.run_of_isSome
    (show ((machine agentErrorBody).run .initial greetAndAsk).isSome = true by decide +kernel)
  obtain ⟨xs, d, hconv, -, hread, -⟩ := every_frame_answered (i := 0) hr
  exact ⟨_, es, xs, d, hr, hconv, hread⟩

end Run

end FlipLink.Daemon
