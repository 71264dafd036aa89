/-
# `FlipLink.Daemon.Steps` — what a step can do

The inversion lemmas that every invariant of the daemon is proved from.
`Served` and `Owned` list what an answer costs, one constructor for each effect
on what is shared.  `ClientMove` and `OwnerMove` are whole steps, one constructor
for each edge from phase to phase with its effect and its events; an invariant is
a case analysis on one of them, and no later proof looks into `need`, `serve` or
`resume`.
-/
import FlipLink.Daemon.System

namespace FlipLink.Daemon

open Lib

/-- The state with client `i`'s thread moved on. -/
def State.setThread (s : State) (i : Nat) (t : Thread) : State :=
  { s with threads := Function.update s.threads i t }

section SetThread

variable (s : State) (i : Nat) (t : Thread)

@[simp] theorem State.setThread_self : (s.setThread i t).threads i = t := Function.update_self ..

theorem State.setThread_of_ne {j : Nat} (h : j ≠ i) : (s.setThread i t).threads j = s.threads j :=
  Function.update_of_ne h ..

end SetThread

/-! ## Answers to a client's thread -/

/-- `serve`, by what it does. -/
inductive Served (s : State) (i : Nat) :
    Need → ClientInput → Answer → State → List Event → Prop where
  | read (r) : Served s i .read (.read r) (.read r) s []
  | wake : Served s i .wake .go .done { s with wakes := s.wakes + 1 } []
  | caps : Served s i .caps .go (.caps s.router.caps) s []
  | wrote {about typ seq payload} :
      Served s i (.write about typ seq payload) (.wrote true) (.wrote true) s
        [.wrote i about typ seq payload]
  | failed {about typ seq payload} :
      Served s i (.write about typ seq payload) (.wrote false) (.wrote false) s []
  | register :
      Served s i .register .go (.ticket ⟨s.router.nextSeq, s.registered⟩)
        { s with
          router := (s.router.register ⟨i, s.registered⟩).2
          registered := s.registered + 1
          holder := Function.update s.holder s.router.nextSeq (some ⟨i, s.registered⟩) }
        [.registered i ⟨s.router.nextSeq, s.registered⟩]
  | queued {kind d typ flags payload bytes} (h : frameBytes typ flags d.seq payload = some bytes) :
      Served s i (.forward kind d typ flags payload) .go (.wrote true)
        { s with outbound := s.outbound ++ [⟨kind, d, typ, bytes⟩] } [.queued i d kind typ]
  | tooLarge {kind d typ flags payload} (h : frameBytes typ flags d.seq payload = none) :
      Served s i (.forward kind d typ flags payload) .go (.wrote false) s []
  | received {d deadline f rest} (h : s.channels i = f :: rest) :
      Served s i (.recv d deadline) .go (.reply f)
        { s with channels := Function.update s.channels i rest } [.received i d f]
  | timeout {d deadline} (h : s.channels i = []) (hd : deadline ≤ s.now) :
      Served s i (.recv d deadline) .timeout .timeout s []
  | unregister {d} :
      Served s i (.unregister d) .go .done { s with router := s.router.unregister d.seq } []
  | go : Served s i .go .go .done s []

theorem serve_cases {s s' : State} {i : Nat} {n : Need} {inp : ClientInput} {a : Answer}
    {es : List Event} (h : serve s i n inp = some (a, s', es)) : Served s i n inp a s' es := by
  unfold serve at h
  split at h
  · cases h; exact .read _
  · cases h; exact .wake
  · cases h; exact .caps
  · split at h
    · cases h; exact .wrote
    · exact nomatch h
  · cases h; exact .failed
  · cases h; exact .register
  · split at h
    · cases h; exact .queued ‹_›
    · cases h; exact .tooLarge ‹_›
  · split at h
    · cases h; exact .received ‹_›
    · exact nomatch h
  · split_ifs at h with hc
    cases h
    exact .timeout (List.isEmpty_iff.mp hc.1) hc.2
  · cases h; exact .unregister
  · cases h; exact .go
  · exact nomatch h

/-- A client's step is an answer and the thread's move on it. -/
theorem clientStep_cases {eb : UInt32 → String → List UInt8} {s s' : State} {i : Nat}
    {inp : ClientInput} {es : List Event} (h : clientStep eb s i inp = some (s', es)) :
    ∃ a s₁ t, serve s i ((s.threads i).phase.need eb) inp = some (a, s₁, es) ∧
      Served s i ((s.threads i).phase.need eb) inp a s₁ es ∧
      (s.threads i).resume eb s.now a = some t ∧
      s' = s₁.setThread i t := by
  unfold clientStep at h
  cases hs : serve s i ((s.threads i).phase.need eb) inp with
  | none => rw [hs] at h; exact nomatch h
  | some p =>
      obtain ⟨a, s₁, es₁⟩ := p
      rw [hs] at h
      dsimp only at h
      cases hr : (s.threads i).resume eb s.now a with
      | none => rw [hr] at h; exact nomatch h
      | some t =>
          rw [hr] at h
          cases h
          exact ⟨a, s₁, t, rfl, serve_cases hs, hr, rfl⟩

/-! ## Answers to the owner -/

/-- `own`, by what it does. -/
inductive Owned (s : State) : Owner.Need → Owner.Answer → State → List Event → Prop where
  | openPort (ok) : Owned s .openPort (.opened ok) s []
  | sleep {wakeAt} (h : wakeAt ≤ s.now) : Owned s (.sleep wakeAt) .done s []
  | hello (ok) : Owned s .hello (.wrote ok) s []
  | write {item chunk} (ok) : Owned s (.write item chunk) (.wrote ok) s [.deviceWrite item chunk]
  | read (r) : Owned s .read (.read r) s []
  | see {f} : Owned s (.see f) .done (mark s f) [.arrived f]
  | setCaps {payload} :
      Owned s (.setCaps payload) .done { s with router := s.router.setCaps payload } []
  | popped {x rest} (h : s.outbound = x :: rest) :
      Owned s .tryRecv (.item (some x)) { s with outbound := rest } []
  | empty (h : s.outbound = []) : Owned s .tryRecv (.item none) s []
  | lookup {f} : Owned s (.lookup f) (.route (s.router.lookup f)) (mark s f) [.arrived f]
  | sent {f r} (h : (s.threads r.client).phase ≠ .closed) :
      Owned s (.send f (some r)) .done
        { s with channels := Function.update s.channels r.client (s.channels r.client ++ [f]) } []
  | hungUp {f r} (h : (s.threads r.client).phase = .closed) : Owned s (.send f (some r)) .done s []
  | unrouted {f} : Owned s (.send f none) .done s []
  | recvWake (h : 0 < s.wakes) : Owned s .recvWake .done { s with wakes := s.wakes - 1 } []
  | drainWake : Owned s .drainWake .done { s with wakes := 0 } []
  | go : Owned s .go .done s []

theorem own_cases {s s' : State} {n : Owner.Need} {inp : OwnerInput} {a : Owner.Answer}
    {es : List Event} (h : own s n inp = some (a, s', es)) : Owned s n a s' es := by
  unfold own at h
  split at h
  · cases h; exact .openPort _
  · split_ifs at h
    cases h
    exact .sleep ‹_›
  · cases h; exact .hello _
  · cases h; exact .write _
  · cases h; exact .read _
  · cases h; exact .see
  · cases h; exact .setCaps
  · split at h
    · cases h; exact .popped ‹_›
    · cases h; exact .empty ‹_›
  · cases h; exact .lookup
  · split at h
    · split_ifs at h
      · cases h; exact .hungUp ‹_›
      · cases h; exact .sent ‹_›
    · cases h; exact .unrouted
  · split_ifs at h
    cases h
    exact .recvWake ‹_›
  · cases h; exact .drainWake
  · cases h; exact .go
  · exact nomatch h

/-- An owner's step is an answer and the owner's move on it. -/
theorem ownerStep_cases {s s' : State} {inp : OwnerInput} {es : List Event}
    (h : ownerStep s inp = some (s', es)) :
    ∃ a s₁ o, own s s.owner.need inp = some (a, s₁, es) ∧ Owned s s.owner.need a s₁ es ∧
      s.owner.resume s.now a = some o ∧ s' = { s₁ with owner := o } := by
  unfold ownerStep at h
  cases hs : own s s.owner.need inp with
  | none => rw [hs] at h; exact nomatch h
  | some p =>
      obtain ⟨a, s₁, es₁⟩ := p
      rw [hs] at h
      dsimp only at h
      cases hr : s.owner.resume s.now a with
      | none => rw [hr] at h; exact nomatch h
      | some o =>
          rw [hr] at h
          cases h
          exact ⟨a, s₁, o, rfl, own_cases hs, hr, rfl⟩

/-- A frame from the device changes the history only. -/
theorem mark_frame (s : State) (f : Frame) :
    (mark s f).threads = s.threads ∧ (mark s f).router = s.router ∧
    (mark s f).outbound = s.outbound ∧ (mark s f).channels = s.channels ∧
    (mark s f).registered = s.registered ∧ (mark s f).holder = s.holder := by
  unfold mark
  split_ifs
  · split <;> exact ⟨rfl, rfl, rfl, rfl, rfl, rfl⟩
  · exact ⟨rfl, rfl, rfl, rfl, rfl, rfl⟩

/-! ## A step of a client's thread -/

/-- The thread is between two requests. -/
def Phase.Idle : Phase → Prop
  | .read | .wake | .frames | .caps _ | .helloWrite .. => True
  | _ => False

theorem Phase.Idle.ticket : ∀ {p : Phase}, p.Idle → p.ticket = none
  | .read, _ | .wake, _ | .frames, _ | .caps _, _ | .helloWrite .., _ => rfl

/-- A request that is about to be queued can be framed. -/
def Phase.Fits : Phase → Prop
  | .register f | .forward f _ => f.payload.length ≤ 0xFFFF
  | _ => True

/-- A step from one phase of client `i`'s thread to another, with what it does to
what is shared. -/
inductive ClientMove (s : State) (i : Nat) :
    ClientInput → Phase → State → Phase → List Event → Prop where
  /-- Between two requests. -/
  | outside {inp p p'} (hp : p.Idle) (hp' : p'.ticket = none) (hf : p'.Fits) :
      ClientMove s i inp p s p' []
  | helloWrite {typ seq payload} :
      ClientMove s i (.wrote true) (.helloWrite typ seq payload) s .frames
        [.wrote i .hello typ seq payload]
  | wake : ClientMove s i .go .wake { s with wakes := s.wakes + 1 } .frames []
  | register {f} :
      ClientMove s i .go (.register f)
        { s with
          router := (s.router.register ⟨i, s.registered⟩).2
          registered := s.registered + 1
          holder := Function.update s.holder s.router.nextSeq (some ⟨i, s.registered⟩) }
        (.forward f ⟨s.router.nextSeq, s.registered⟩)
        [.registered i ⟨s.router.nextSeq, s.registered⟩]
  | forward {f d bytes} (h : frameBytes f.typ f.flags d.seq f.payload = some bytes) :
      ClientMove s i .go (.forward f d)
        { s with outbound := s.outbound ++ [⟨.request, d, f.typ, bytes⟩] }
        (.await f.seq d (s.now + replyTimeout)) [.queued i d .request f.typ]
  | tooLarge {f d} (h : frameBytes f.typ f.flags d.seq f.payload = none) :
      ClientMove s i .go (.forward f d) s .closed []
  | start {c d deadline f rest} (h : s.channels i = f :: rest) (ht : f.typ = .streamStart) :
      ClientMove s i .go (.await c d deadline)
        { s with channels := Function.update s.channels i rest } (.startWrite c d f)
        [.received i d f]
  | reply {c d deadline f rest} (h : s.channels i = f :: rest) (ht : f.typ ≠ .streamStart) :
      ClientMove s i .go (.await c d deadline)
        { s with channels := Function.update s.channels i rest } (.replyUnregister c d f)
        [.received i d f]
  | timeout {c d deadline} (h : s.channels i = []) (hd : deadline ≤ s.now) :
      ClientMove s i .timeout (.await c d deadline) s (.timeoutUnregister c d) []
  | replyUnregister {c d f} :
      ClientMove s i .go (.replyUnregister c d f) { s with router := s.router.unregister d.seq }
        (.replyWrite c d f) []
  | replyWrite {c d f} :
      ClientMove s i (.wrote true) (.replyWrite c d f) s .frames
        [.wrote i (.device d f) f.typ c f.payload]
  | replyFailed {c d f} : ClientMove s i (.wrote false) (.replyWrite c d f) s .closed []
  | timeoutUnregister {c d} :
      ClientMove s i .go (.timeoutUnregister c d) { s with router := s.router.unregister d.seq }
        (.timeoutWrite c d) []
  | timeoutWrite {c d payload} :
      ClientMove s i (.wrote true) (.timeoutWrite c d) s .frames
        [.wrote i (.timeout d) .error c payload]
  | timeoutFailed {c d} : ClientMove s i (.wrote false) (.timeoutWrite c d) s .closed []
  | startWrite {c d f} :
      ClientMove s i (.wrote true) (.startWrite c d f) s (.relay ⟨c, d, .new, none⟩ .top)
        [.wrote i (.device d f) f.typ c f.payload]
  | startFailed {c d f} : ClientMove s i (.wrote false) (.startWrite c d f) s .closed []
  /-- A turn of the relay's loop begins, with the stop overdue. -/
  | overdue {r deadline} (h : r.stopDeadline = some deadline) (hd : deadline ≤ s.now) :
      ClientMove s i .go (.relay r .top) s (.relay r .stopTimeoutWrite) []
  | look {r} : ClientMove s i .go (.relay r .top) s (.relay r .read) []
  | stopTimeoutWrite {r payload} :
      ClientMove s i (.wrote true) (.relay r .stopTimeoutWrite) s (.relay r (.unregister false))
        [.wrote i (.stopTimeout r.dev) .error r.clientSeq payload]
  | stopTimeoutFailed {r} : ClientMove s i (.wrote false) (.relay r .stopTimeoutWrite) s .closed []
  | hangUp {r} : ClientMove s i (.read .eof) (.relay r .read) s (.relay r .eofForward) []
  | readFailed {r} :
      ClientMove s i (.read .error) (.relay r .read) s (.relay r (.unregister true)) []
  /-- The client has said nothing more for now. -/
  | listen {inp r p reader deadline} (hp : p = .read ∨ p = .frames) :
      ClientMove s i inp (.relay r p) s (.relay { r with reader } (.recv deadline)) []
  /-- The client has said something else than STREAM_STOP, or not all of it yet. -/
  | chatter {inp r p reader} (hp : p = .read ∨ p = .frames) :
      ClientMove s i inp (.relay r p) s (.relay { r with reader } .frames) []
  | stopAsked {r reader} :
      ClientMove s i .go (.relay r .frames) s (.relay { r with reader } .forwardStop) []
  | stop {r bytes deadline} (h : frameBytes .streamStop 0 r.dev.seq [] = some bytes) :
      ClientMove s i .go (.relay r .forwardStop)
        { s with outbound := s.outbound ++ [⟨.stop, r.dev, .streamStop, bytes⟩] }
        (.relay { r with stopDeadline := some deadline } .frames)
        [.queued i r.dev .stop .streamStop]
  | hangUpStop {r bytes} (h : frameBytes .streamStop 0 r.dev.seq [] = some bytes) :
      ClientMove s i .go (.relay r .eofForward)
        { s with outbound := s.outbound ++ [⟨.stop, r.dev, .streamStop, bytes⟩] }
        (.relay r (.unregister false)) [.queued i r.dev .stop .streamStop]
  | relayed {r deadline f rest} (h : s.channels i = f :: rest) :
      ClientMove s i .go (.relay r (.recv deadline))
        { s with channels := Function.update s.channels i rest } (.relay r (.write f))
        [.received i r.dev f]
  | quiet {r deadline} : ClientMove s i .timeout (.relay r (.recv deadline)) s (.relay r .top) []
  | write {r f} (ht : f.typ ≠ .streamStop) :
      ClientMove s i (.wrote true) (.relay r (.write f)) s (.relay r .top)
        [.wrote i (.device r.dev f) f.typ r.clientSeq f.payload]
  | final {r f} (ht : f.typ = .streamStop) :
      ClientMove s i (.wrote true) (.relay r (.write f)) s (.relay r (.unregister false))
        [.wrote i (.device r.dev f) f.typ r.clientSeq f.payload]
  | writeFailed {r f} : ClientMove s i (.wrote false) (.relay r (.write f)) s .closed []
  | back {r failed p} (hp : p = .frames ∨ p = .closed) :
      ClientMove s i .go (.relay r (.unregister failed))
        { s with router := s.router.unregister r.dev.seq } p []

section Client

variable {eb : UInt32 → String → List UInt8} {s s₁ : State} {i : Nat} {inp : ClientInput}
  {a : Answer} {es : List Event} {t' : Thread}

/-- A STREAM_STOP has no body, so it is never too large. -/
theorem frameBytes_stop (seq : UInt16) : frameBytes .streamStop 0 seq [] ≠ none := by
  rw [frameBytes_eq _ _ _ (by decide)]
  exact nofun

/-- The phase that the relay's move leads to. -/
def Next.phase : Next → Phase
  | .stay r p => .relay r p
  | .back => .frames
  | .fail => .closed

theorem relay_moves {r : Relay} {n : Next} :
    ∀ {p : RelayPhase}, Served s i (r.need eb p) inp a s₁ es → r.resume s.now p a = some n →
      ClientMove s i inp (.relay r p) s₁ n.phase es
  | .top, .go, hr => by
      simp only [Relay.resume] at hr
      split at hr
      · split_ifs at hr with hd
        · cases hr; exact .overdue ‹_› hd
        · cases hr; exact .look
      · cases hr; exact .look
  | .stopTimeoutWrite, .wrote, hr => by cases hr; exact .stopTimeoutWrite
  | .stopTimeoutWrite, .failed, hr => by cases hr; exact .stopTimeoutFailed
  | .read, .read .eof, hr => by cases hr; exact .hangUp
  | .read, .read (.data bytes), hr => by cases hr; exact .chatter (.inl rfl)
  | .read, .read .timeout, hr => by
      cases hr
      exact @ClientMove.listen s i _ r .read r.reader _ (.inl rfl)
  | .read, .read .error, hr => by cases hr; exact .readFailed
  | .frames, .go, hr => by
      simp only [Relay.resume] at hr
      split at hr
      · cases hr; exact .listen (.inr rfl)
      · split_ifs at hr
        · cases hr; exact .stopAsked
        · cases hr; exact .chatter (.inr rfl)
  | .forwardStop, .queued h, hr => by cases hr; exact .stop h
  | .forwardStop, .tooLarge h, _ => absurd h (frameBytes_stop _)
  | .eofForward, .queued h, hr => by cases hr; exact .hangUpStop h
  | .eofForward, .tooLarge h, _ => absurd h (frameBytes_stop _)
  | .recv _, .received h, hr => by cases hr; exact .relayed h
  | .recv _, .timeout _ _, hr => by cases hr; exact .quiet
  | .write f, .wrote, hr => by
      simp only [Relay.resume, if_true] at hr
      split_ifs at hr with ht
      · cases hr; exact .final ht
      · cases hr; exact .write ht
  | .write f, .failed, hr => by cases hr; exact .writeFailed
  | .unregister false, .unregister, hr => by cases hr; exact .back (.inl rfl)
  | .unregister true, .unregister, hr => by cases hr; exact .back (.inr rfl)

theorem phase_moves {reader : FrameReader} :
    ∀ {p : Phase}, Served s i (p.need eb) inp a s₁ es →
      (⟨p, reader⟩ : Thread).resume eb s.now a = some t' → ClientMove s i inp p s₁ t'.phase es
  | .read, .read .eof, hr => by cases hr; exact .outside trivial rfl trivial
  | .read, .read (.data _), hr => by cases hr; exact .outside trivial rfl trivial
  | .read, .read .timeout, hr => by cases hr; exact .outside trivial rfl trivial
  | .read, .read .error, hr => by cases hr; exact .outside trivial rfl trivial
  | .wake, .wake, hr => by cases hr; exact .wake
  | .frames, .go, hr => by
      simp only [Thread.resume] at hr
      split at hr
      · cases hr; exact .outside trivial rfl trivial
      · rename_i f rest hn
        cases hr
        refine .outside trivial ?_ ?_
        · dsimp only
          split_ifs <;> rfl
        · dsimp only
          split_ifs
          · trivial
          · exact FrameReader.nextFrame_payload_le hn
  | .caps _, .caps, hr => by
      cases hr
      refine .outside trivial ?_ ?_
      · dsimp only
        split_ifs <;> rfl
      · dsimp only
        split_ifs <;> trivial
  | .helloWrite .., .wrote, hr => by cases hr; exact .helloWrite
  | .helloWrite .., .failed, hr => by cases hr; exact .outside trivial rfl trivial
  | .register f, .register, hr => by cases hr; exact .register
  | .forward f d, .queued h, hr => by cases hr; exact .forward h
  | .forward f d, .tooLarge h, hr => by cases hr; exact .tooLarge h
  | .await .., .received h, hr => by
      cases hr
      dsimp only
      split_ifs with ht
      · exact .start h ht
      · exact .reply h ht
  | .await .., .timeout h hd, hr => by cases hr; exact .timeout h hd
  | .replyUnregister .., .unregister, hr => by cases hr; exact .replyUnregister
  | .replyWrite .., .wrote, hr => by cases hr; exact .replyWrite
  | .replyWrite .., .failed, hr => by cases hr; exact .replyFailed
  | .timeoutUnregister .., .unregister, hr => by cases hr; exact .timeoutUnregister
  | .timeoutWrite .., .wrote, hr => by cases hr; exact .timeoutWrite
  | .timeoutWrite .., .failed, hr => by cases hr; exact .timeoutFailed
  | .startWrite .., .wrote, hr => by cases hr; exact .startWrite
  | .startWrite .., .failed, hr => by cases hr; exact .startFailed
  | .relay r p, hs, hr => by
      simp only [Thread.resume] at hr
      split at hr <;> cases hr
      all_goals exact relay_moves hs ‹_›

/-- A client's step is a move, and its thread is then where the move leads. -/
theorem clientStep_moves {s' : State} (h : clientStep eb s i inp = some (s', es)) :
    ∃ s₁ t, ClientMove s i inp (s.threads i).phase s₁ t.phase es ∧
      s' = s₁.setThread i t := by
  obtain ⟨a, s₁, t, -, hs, hr, hs'⟩ := clientStep_cases h
  exact ⟨s₁, t, phase_moves hs hr, hs'⟩

/-- A move leaves the threads, the owner and the clock as they were. -/
theorem ClientMove.frame {p p' : Phase} (h : ClientMove s i inp p s₁ p' es) :
    s₁.threads = s.threads ∧ s₁.owner = s.owner ∧ s₁.now = s.now := by
  cases h <;> exact ⟨rfl, rfl, rfl⟩

/-- A client's thread takes from its own channel only. -/
theorem ClientMove.channels_of_ne {p p' : Phase} {j : Nat} (h : ClientMove s i inp p s₁ p' es)
    (hj : j ≠ i) : s₁.channels j = s.channels j := by
  cases h with
  | start | reply | relayed => exact Function.update_of_ne hj ..
  | _ => rfl

/-- What holds of the phase that the thread has come to, and of every other
thread's, holds of all phases after the step. -/
theorem ClientMove.forall_phase {P : Nat → Phase → Prop} {p : Phase} {t : Thread}
    (h : ClientMove s i inp p s₁ t.phase es) (hi : P i t.phase)
    (ho : ∀ j, j ≠ i → P j (s.threads j).phase) (j : Nat) :
    P j ((s₁.setThread i t).threads j).phase := by
  rcases eq_or_ne j i with rfl | hj
  · rwa [State.setThread_self]
  · rw [State.setThread_of_ne _ _ _ hj, h.frame.1]
    exact ho j hj

end Client

/-! ## A step of the owner -/

namespace Owner

/-- The frame that the owner is about to send to a client's channel, and where. -/
def sending : Owner → Option (Frame × Option Route)
  | .send _ f route => some (f, route)
  | _ => none

/-- The frame that comes from the device with the owner's next step, and whether
it is the pump that reads it. -/
def arriving : Owner → Option (Frame × Bool)
  | .see _ _ _ f => some (f, false)
  | .lookup _ f => some (f, true)
  | _ => none

/-- The owner is neither writing a frame nor sending one. -/
def Between (o : Owner) : Prop := o.writing = none ∧ o.sending = none

/-- Nor is there a frame that comes next. -/
def Quiet (o : Owner) : Prop := o.Between ∧ o.arriving = none

theorem Quiet.sending {o : Owner} (h : o.Quiet) : o.sending = none := h.1.2

theorem Quiet.arriving {o : Owner} (h : o.Quiet) : o.arriving = none := h.2

theorem failed_between (n now : Nat) : (failed n now).Between := by
  unfold failed
  split_ifs <;> exact ⟨rfl, rfl⟩

end Owner

/-- A step from one phase of the owner to another, with what it does to what is
shared. -/
inductive OwnerMove (s : State) : Owner → State → Owner → List Event → Prop where
  /-- Connecting, shaking hands, reading. -/
  | quiet {o o'} (ho : o.Quiet) (ho' : o'.Between) : OwnerMove s o s o' []
  | setCaps {o o' payload} (ho : o.Quiet) (ho' : o'.Between) :
      OwnerMove s o { s with router := s.router.setCaps payload } o' []
  | woken {o o' wakes} (ho : o.Quiet) (ho' : o'.Between) : OwnerMove s o { s with wakes } o' []
  | see {n reader deadline f o'} (ho' : o'.Between) :
      OwnerMove s (.see n reader deadline f) (mark s f) o' [.arrived f]
  | pop {reader x rest} (h : s.outbound = x :: rest) :
      OwnerMove s (.out reader) { s with outbound := rest }
        (.write reader x (outboundChunks x.bytes)) []
  | chunk {reader x chunk chunks} :
      OwnerMove s (.write reader x (chunk :: chunks)) s (.write reader x chunks)
        [.deviceWrite x chunk]
  | chunkFailed {reader x chunk chunks} :
      OwnerMove s (.write reader x (chunk :: chunks)) s (.connect 1) [.deviceWrite x chunk]
  | written {reader x} : OwnerMove s (.write reader x []) s (.out reader) []
  | lookup {reader f} :
      OwnerMove s (.lookup reader f) (mark s f) (.send reader f (s.router.lookup f)) [.arrived f]
  | sent {reader f r} (h : (s.threads r.client).phase ≠ .closed) :
      OwnerMove s (.send reader f (some r))
        { s with channels := Function.update s.channels r.client (s.channels r.client ++ [f]) }
        (.frames reader) []
  | hungUp {reader f r} (h : (s.threads r.client).phase = .closed) :
      OwnerMove s (.send reader f (some r)) s (.frames reader) []
  | unrouted {reader f} : OwnerMove s (.send reader f none) s (.frames reader) []

section Owner

variable {s s₁ : State} {a : Owner.Answer} {es : List Event} {o' : Owner}

theorem owner_moves : ∀ {o : Owner}, Owned s o.need a s₁ es → o.resume s.now a = some o' →
    OwnerMove s o s₁ o' es
  | .connect n, .openPort ok, hr => by
      cases hr
      refine .quiet ⟨⟨rfl, rfl⟩, rfl⟩ ?_
      split_ifs
      · exact ⟨rfl, rfl⟩
      · exact Owner.failed_between _ _
  | .sleep .., .sleep _, hr => by cases hr; exact .quiet ⟨⟨rfl, rfl⟩, rfl⟩ ⟨rfl, rfl⟩
  | .helloWrite n, .hello ok, hr => by
      cases hr
      refine .quiet ⟨⟨rfl, rfl⟩, rfl⟩ ?_
      split_ifs
      · exact ⟨rfl, rfl⟩
      · exact Owner.failed_between _ _
  | .handshake n reader deadline, .go, hr => by
      simp only [Owner.resume] at hr
      split at hr
      · cases hr; exact .quiet ⟨⟨rfl, rfl⟩, rfl⟩ ⟨rfl, rfl⟩
      · cases hr
        refine .quiet ⟨⟨rfl, rfl⟩, rfl⟩ ?_
        split_ifs
        · exact Owner.failed_between _ _
        · exact ⟨rfl, rfl⟩
  | .handshakeRead .., .read none, hr => by
      cases hr
      exact .quiet ⟨⟨rfl, rfl⟩, rfl⟩ (Owner.failed_between _ _)
  | .handshakeRead .., .read (some _), hr => by
      cases hr
      exact .quiet ⟨⟨rfl, rfl⟩, rfl⟩ ⟨rfl, rfl⟩
  | .see n reader deadline f, .see, hr => by
      cases hr
      refine .see ?_
      split_ifs <;> exact ⟨rfl, rfl⟩
  | .cache _, .setCaps, hr => by cases hr; exact .setCaps ⟨⟨rfl, rfl⟩, rfl⟩ ⟨rfl, rfl⟩
  | .out _, .popped h, hr => by cases hr; exact .pop h
  | .out _, .empty _, hr => by cases hr; exact .quiet ⟨⟨rfl, rfl⟩, rfl⟩ ⟨rfl, rfl⟩
  | .write _ _ [], .go, hr => by cases hr; exact .written
  | .write _ _ (_ :: _), .write true, hr => by cases hr; exact .chunk
  | .write _ _ (_ :: _), .write false, hr => by cases hr; exact .chunkFailed
  | .read _, .read none, hr => by cases hr; exact .quiet ⟨⟨rfl, rfl⟩, rfl⟩ ⟨rfl, rfl⟩
  | .read _, .read (some bytes), hr => by
      cases hr
      refine .quiet ⟨⟨rfl, rfl⟩, rfl⟩ ?_
      split_ifs <;> exact ⟨rfl, rfl⟩
  | .frames reader, .go, hr => by
      simp only [Owner.resume] at hr
      split at hr <;> cases hr <;> exact .quiet ⟨⟨rfl, rfl⟩, rfl⟩ ⟨rfl, rfl⟩
  | .lookup _ _, .lookup, hr => by cases hr; exact .lookup
  | .send _ _ (some _), .sent h, hr => by cases hr; exact .sent h
  | .send _ _ (some _), .hungUp h, hr => by cases hr; exact .hungUp h
  | .send _ _ none, .unrouted, hr => by cases hr; exact .unrouted
  | .clearCaps, .setCaps, hr => by cases hr; exact .setCaps ⟨⟨rfl, rfl⟩, rfl⟩ ⟨rfl, rfl⟩
  | .idle, .recvWake _, hr => by cases hr; exact .woken ⟨⟨rfl, rfl⟩, rfl⟩ ⟨rfl, rfl⟩
  | .drainWake, .drainWake, hr => by cases hr; exact .woken ⟨⟨rfl, rfl⟩, rfl⟩ ⟨rfl, rfl⟩

/-- An owner's step is a move, and it is then where the move leads. -/
theorem ownerStep_moves {s' : State} {inp : OwnerInput} (h : ownerStep s inp = some (s', es)) :
    ∃ s₁ o, OwnerMove s s.owner s₁ o es ∧ s' = { s₁ with owner := o } := by
  obtain ⟨a, s₁, o, -, hs, hr, hs'⟩ := ownerStep_cases h
  exact ⟨s₁, o, owner_moves hs hr, hs'⟩

/-- The owner touches no thread, no route and no count. -/
theorem OwnerMove.frame {o : Owner} (h : OwnerMove s o s₁ o' es) :
    s₁.threads = s.threads ∧ s₁.registered = s.registered ∧
    s₁.router.routes = s.router.routes ∧ s₁.router.nextSeq = s.router.nextSeq := by
  cases h with
  | see =>
      obtain ⟨ht, hr, -, -, hn, -⟩ := mark_frame s _
      exact ⟨ht, hn, congrArg Router.routes hr, congrArg Router.nextSeq hr⟩
  | lookup =>
      obtain ⟨ht, hr, -, -, hn, -⟩ := mark_frame s _
      exact ⟨ht, hn, congrArg Router.routes hr, congrArg Router.nextSeq hr⟩
  | _ => exact ⟨rfl, rfl, rfl, rfl⟩

end Owner

/-! ## A step of the daemon -/

/-- `step`, by who takes it. -/
inductive Moved (s : State) : Label → State → List Event → Prop where
  | tick (ms) : Moved s (.tick ms) { s with now := s.now + ms } []
  | client {i inp s₁ t es} (h : ClientMove s i inp (s.threads i).phase s₁ t.phase es) :
      Moved s (.client i inp) (s₁.setThread i t) es
  | owner {inp s₁ o es} (h : OwnerMove s s.owner s₁ o es) :
      Moved s (.owner inp) { s₁ with owner := o } es

theorem step_moved {eb : UInt32 → String → List UInt8} {s s' : State} {es : List Event} :
    ∀ {l : Label}, step eb s l = some (s', es) → Moved s l s' es
  | .tick ms, h => by cases h; exact .tick ms
  | .client i inp, h => by
      obtain ⟨s₁, t, hm, rfl⟩ := clientStep_moves h
      exact .client hm
  | .owner inp, h => by
      obtain ⟨s₁, o, hm, rfl⟩ := ownerStep_moves h
      exact .owner hm

/-- A thread that goes on with a request does not change which; it takes one up
by registering it. -/
theorem ClientMove.ticket {s s₁ : State} {i : Nat} {inp : ClientInput} {p p' : Phase}
    {es : List Event} (h : ClientMove s i inp p s₁ p' es) :
    ((p'.ticket = p.ticket ∨ p'.ticket = none) ∧ s₁.registered = s.registered) ∨
      ∃ f, p = .register f ∧ p' = .forward f ⟨s.router.nextSeq, s.registered⟩ ∧
        s₁.registered = s.registered + 1 ∧
        es = [.registered i ⟨s.router.nextSeq, s.registered⟩] := by
  cases h with
  | register => exact .inr ⟨_, rfl, rfl, rfl, rfl⟩
  | outside _ hp' => exact .inl ⟨.inr hp', rfl⟩
  | back hp => exact .inl ⟨.inr (by rcases hp with rfl | rfl <;> rfl), rfl⟩
  | _ => exact .inl ⟨by first | exact .inl rfl | exact .inr rfl, rfl⟩

end FlipLink.Daemon
