/-
# `FlipLink.Daemon.Connection` — one connection and its two readers

The thread of one client by itself, against any device: `need` and `resume` are
those of `Server`, the seqs that its registrations get are a parameter, and what
the device replies comes with the labels.

The request loop and the relay each have a `FrameReader` and read the same
socket in turn.  What the relay finds in its reader is never the rest of what
the loop has read, and what is left in it when the relay returns is gone, so
which frame is acted on, and by whom, can depend on where the reads cut the
stream.  `inTurn` says when it does not: then the frames sent to the device are
those that `acted` computes from the client's frames and the device's replies
(`acts_on_every_frame`).
-/
import FlipLink.Daemon.Steps

namespace FlipLink.Daemon

open Lib

/-- One thread of the daemon, and its clock. -/
structure Connection where
  thread : Thread
  /-- The clock, in milliseconds. -/
  now : Nat
  /-- How many requests it has registered. -/
  count : Nat
  /-- The request that the request loop came to last, if it has begun a stream.  No
  step looks at it. -/
  stream : Option Ticket
  deriving Repr

namespace Connection

def new : Connection := { thread := .new, now := 0, count := 0, stream := none }

inductive Label where
  /-- Time passes. -/
  | tick (ms : Nat)
  | read (r : ReadResult)
  /-- What the router has cached. -/
  | caps (payload : List UInt8)
  | wrote (ok : Bool)
  /-- A device frame is taken out of the reply channel. -/
  | reply (f : Frame)
  | timeout
  | go
  deriving DecidableEq, Repr

inductive Event where
  /-- A frame was queued to the device, on the client's behalf or because it hung up. -/
  | forwarded (hungUp : Bool) (f : Frame)
  | received (d : Ticket) (f : Frame)
  | wrote (about : Source)
  deriving DecidableEq, Repr

/-- The relay has found that the client hung up. -/
def hungUp : Phase → Bool
  | .relay _ .eofForward => true
  | _ => false

/-- The stream of the last request, after a step from `p` to `p'`. -/
def streamAfter (stream : Option Ticket) : Phase → Phase → Option Ticket
  | .frames, .caps _ | .frames, .register _ => none
  | .startWrite _ d _, .relay .. => some d
  | _, _ => stream

section Step

variable (seqs : Nat → UInt16)

/-- The answer to the thread, the number of registrations after it, and the events. -/
def serve (c : Connection) : Need → Label → Option (Answer × Nat × List Event)
  | .read, .read r => some (.read r, c.count, [])
  | .wake, .go => some (.done, c.count, [])
  | .caps, .caps payload => some (.caps payload, c.count, [])
  | .write about typ seq payload, .wrote true =>
      match frameBytes typ 0 seq payload with
      | some _ => some (.wrote true, c.count, [.wrote about])
      | none => none
  | .write .., .wrote false => some (.wrote false, c.count, [])
  | .register, .go => some (.ticket ⟨seqs c.count, c.count⟩, c.count + 1, [])
  | .forward _ d typ flags payload, .go =>
      match frameBytes typ flags d.seq payload with
      | some _ =>
          some (.wrote true, c.count,
            [.forwarded (hungUp c.thread.phase) ⟨typ, flags, d.seq, payload⟩])
      | none => some (.wrote false, c.count, [])
  | .recv d _, .reply f => some (.reply f, c.count, [.received d f])
  | .recv _ deadline, .timeout => if deadline ≤ c.now then some (.timeout, c.count, []) else none
  | .unregister _, .go => some (.done, c.count, [])
  | .go, .go => some (.done, c.count, [])
  | _, _ => none

def threadStep (c : Connection) (l : Label) : Option (Connection × List Event) :=
  match c.serve seqs (c.thread.phase.need agentErrorBody) l with
  | none => none
  | some (a, count, es) =>
      match c.thread.resume agentErrorBody c.now a with
      | none => none
      | some thread =>
          some ({ c with thread, count, stream := streamAfter c.stream c.thread.phase thread.phase },
            es)

def step (c : Connection) : Label → Option (Connection × List Event)
  | .tick ms => some ({ c with now := c.now + ms }, [])
  | l => c.threadStep seqs l

def machine : Machine Connection Label Event where
  step := step seqs

end Step

/-! ## What goes in and what comes out -/

/-- The bytes the client has written that were read, by either reader. -/
def bytesRead (ls : List Label) : List UInt8 :=
  ls.flatMap fun
    | .read (.data bytes) => bytes
    | _ => []

/-- The frames sent to the device on the client's behalf. -/
def forwarded (es : List Event) : List Frame :=
  es.filterMap fun
    | .forwarded false f => some f
    | _ => none

/-- What the device replied to request `k`, as far as it was received. -/
def receivedFor (k : Nat) (es : List Event) : List Frame :=
  es.filterMap fun
    | .received d f => if d.id = k then some f else none
    | _ => none

/-- These are the device's replies: what is received for a request is the front of
them, and a request is given up only if there are none. -/
structure Answered (replies : Nat → List Frame) (es : List Event) : Prop where
  received : ∀ k, receivedFor k es <+: replies k
  gaveUp : ∀ d, .wrote (.timeout d) ∈ es → replies d.id = []

/-- The thread waits for the client to write more, and has acted on all it has read. -/
def waiting (c : Connection) : Bool :=
  match c.thread.phase with
  | .read => true
  | .relay _ .read => c.thread.reader.buf.isEmpty
  | _ => false

/-! ## The frames acted on in turn -/

/-- A client's frames are acted on, one after the other. -/
structure Acting where
  /-- How many requests there were. -/
  count : Nat
  /-- The request whose stream the client may stop. -/
  on : Option Ticket
  /-- The frames sent to the device. -/
  out : List Frame

/-- What asks the device to stop the stream of a request. -/
def stop (d : Ticket) : Frame := { typ := .streamStop, flags := 0, seq := d.seq, payload := [] }

section Acting

variable (seqs : Nat → UInt16) (replies : Nat → List Frame)

/-- The request, if the device's first reply to it begins a stream. -/
def begins (d : Ticket) : Option Ticket :=
  if (replies d.id).head?.any (·.typ = .streamStart) then some d else none

def Acting.request (a : Acting) (f : Frame) : Acting where
  count := a.count + 1
  on := begins replies ⟨seqs a.count, a.count⟩
  out := a.out ++ [{ f with seq := seqs a.count }]

/-- The daemon answers a HELLO itself.  A STREAM_STOP asks the device to stop the
stream of the request before it, if that has begun one.  Everything else is a request. -/
def Acting.take (a : Acting) (f : Frame) : Acting :=
  if f.typ = .hello then { a with on := none }
  else
    match a.on with
    | some d =>
        if f.typ = .streamStop then { a with out := a.out ++ [stop d] }
        else a.request seqs replies f
    | none => a.request seqs replies f

def Acting.all (fs : List Frame) : Acting :=
  fs.foldl (Acting.take seqs replies) { count := 0, on := none, out := [] }

/-- The frames to send to the device for the client's frames. -/
def acted (fs : List Frame) : List Frame := (Acting.all seqs replies fs).out

end Acting

/-- A step with which the two readers do not get into each other's way: the relay
reads the socket only when nothing is left in the request loop's reader, what it
reads is STREAM_STOPs, and nothing is left in its own reader when it returns; and
the request loop is not handed a STREAM_STOP right behind a stream. -/
def inTurn (c : Connection) (l : Label) : Bool :=
  match c.thread.phase, l with
  | .frames, .go => c.thread.reader.nextFrame.1.all (·.typ ≠ .streamStop) || c.stream.isNone
  | .relay _ .read, .read (.data _) => c.thread.reader.buf.isEmpty
  | .relay r .frames, .go => r.reader.nextFrame.1.all (·.typ = .streamStop)
  | .relay r (.unregister false), .go => r.reader.buf.isEmpty
  | _, _ => true

/-! ## The moves of the thread -/

/-- The phases of the request loop between its work on one frame and the next. -/
def idle : Phase → Bool
  | .read | .wake | .frames | .caps _ | .helloWrite .. | .replyUnregister .. | .replyWrite .. => true
  | _ => false

/-- The phases of the relay that find nothing whole in its reader. -/
def resting : RelayPhase → Bool
  | .frames | .forwardStop => false
  | _ => true

/-- A step that reads bytes. -/
def reads : Label → Bool
  | .read (.data _) => true
  | _ => false

/-- The frame that a step takes out of a reader. -/
def taken (reader : FrameReader) : Phase → Label → Option Frame
  | .frames, .go => reader.nextFrame.1
  | .relay r .frames, .go => r.reader.nextFrame.1
  | _, _ => none

/-- Events that nothing but the client or the relay of `d` is concerned with. -/
inductive Aside (d : Option Ticket) : List Event → Prop
  | none : Aside d []
  | wrote {about} (h : ∀ e, about ≠ .timeout e) : Aside d [.wrote about]
  | received {e f} (h : d = some e) : Aside d [.received e f]
  | hungUp {f} : Aside d [.forwarded true f]

/-- What a step of the thread does: where it leads, the reader of the request loop,
the registrations, and the events. -/
inductive Move (seqs : Nat → UInt16) (c : Connection) (reader : FrameReader) :
    Phase → Label → Phase → FrameReader → Nat → List Event → Prop
  | closed {p l} : taken reader p l = none → Move seqs c reader p l .closed reader c.count []
  | fed {bytes} :
      Move seqs c reader .read (.read (.data bytes)) .wake (reader.feed bytes) c.count []
  | drained {reader'} : reader.nextFrame = (none, reader') →
      Move seqs c reader .frames .go .read reader' c.count []
  | hello {f reader'} : reader.nextFrame = (some f, reader') → f.typ = .hello →
      Move seqs c reader .frames .go (.caps f.seq) reader' c.count []
  | request {f reader'} : reader.nextFrame = (some f, reader') → f.typ ≠ .hello →
      Move seqs c reader .frames .go (.register f) reader' c.count []
  | idle {p l p' es} : idle p = true → p ≠ .frames → idle p' = true → p' ≠ .read →
      Aside none es → (∀ bytes, l ≠ .read (.data bytes)) → Move seqs c reader p l p' reader c.count es
  | registered {f} : Move seqs c reader (.register f) .go (.forward f ⟨seqs c.count, c.count⟩)
      reader (c.count + 1) []
  | sent {f d} : Move seqs c reader (.forward f d) .go
      (.await f.seq d (c.now + replyTimeout)) reader c.count
      [.forwarded false { f with seq := d.seq }]
  | starting {seq d deadline f} : f.typ = .streamStart →
      Move seqs c reader (.await seq d deadline) (.reply f) (.startWrite seq d f) reader c.count
        [.received d f]
  | answered {seq d deadline f} : f.typ ≠ .streamStart →
      Move seqs c reader (.await seq d deadline) (.reply f) (.replyUnregister seq d f) reader
        c.count [.received d f]
  | timedOut {seq d deadline} : Move seqs c reader (.await seq d deadline) .timeout
      (.timeoutUnregister seq d) reader c.count []
  | givingUp {seq d} : Move seqs c reader (.timeoutUnregister seq d) .go (.timeoutWrite seq d)
      reader c.count []
  | gaveUp {seq d} : Move seqs c reader (.timeoutWrite seq d) (.wrote true) .frames reader c.count
      [.wrote (.timeout d)]
  | started {seq d f} : Move seqs c reader (.startWrite seq d f) (.wrote true)
      (.relay { clientSeq := seq, dev := d, reader := .new, stopDeadline := none } .top)
      reader c.count [.wrote (.device d f)]
  | relayFed {r bytes} : Move seqs c reader (.relay r .read) (.read (.data bytes))
      (.relay { r with reader := r.reader.feed bytes } .frames) reader c.count []
  | relayDrained {r reader'} : r.reader.nextFrame = (none, reader') →
      Move seqs c reader (.relay r .frames) .go
        (.relay { r with reader := reader' } (.recv (c.now + relayRecvTimeout))) reader c.count []
  | relayTook {r f reader'} : r.reader.nextFrame = (some f, reader') →
      Move seqs c reader (.relay r .frames) .go
        (.relay { r with reader := reader' }
          (if f.typ = .streamStop then .forwardStop else .frames))
        reader c.count []
  | stopped {r stopDeadline} : Move seqs c reader (.relay r .forwardStop) .go
      (.relay { r with stopDeadline } .frames) reader c.count [.forwarded false (stop r.dev)]
  | relay {r p l p' es} : resting p = true → resting p' = true → Aside (some r.dev) es →
      (∀ bytes, l ≠ .read (.data bytes)) →
      Move seqs c reader (.relay r p) l (.relay r p') reader c.count es
  | back {r} : Move seqs c reader (.relay r (.unregister false)) .go .frames reader c.count []

/-- `serve`, by what it does. -/
inductive Served (seqs : Nat → UInt16) (c : Connection) :
    Need → Label → Answer → Nat → List Event → Prop
  | go : Served seqs c .go .go .done c.count []
  | read (r) : Served seqs c .read (.read r) (.read r) c.count []
  | wake : Served seqs c .wake .go .done c.count []
  | caps (payload) : Served seqs c .caps (.caps payload) (.caps payload) c.count []
  | wrote {about typ seq payload} : Served seqs c (.write about typ seq payload) (.wrote true)
      (.wrote true) c.count [.wrote about]
  | failed {about typ seq payload} : Served seqs c (.write about typ seq payload) (.wrote false)
      (.wrote false) c.count []
  | register : Served seqs c .register .go (.ticket ⟨seqs c.count, c.count⟩) (c.count + 1) []
  | forward {kind d typ flags payload} : Served seqs c (.forward kind d typ flags payload) .go
      (.wrote true) c.count [.forwarded (hungUp c.thread.phase) ⟨typ, flags, d.seq, payload⟩]
  | unsent {kind d typ flags payload} : Served seqs c (.forward kind d typ flags payload) .go
      (.wrote false) c.count []
  | reply {d deadline f} : Served seqs c (.recv d deadline) (.reply f) (.reply f) c.count
      [.received d f]
  | timeout {d deadline} : Served seqs c (.recv d deadline) .timeout .timeout c.count []
  | unregister {d} : Served seqs c (.unregister d) .go .done c.count []

section Moves

variable {seqs : Nat → UInt16} {c c' : Connection} {l : Label} {es : List Event} {a : Answer}
  {count : Nat}

theorem serve_cases {n : Need} (h : c.serve seqs n l = some (a, count, es)) :
    Served seqs c n l a count es := by
  unfold serve at h
  split at h
  · cases h; exact .read _
  · cases h; exact .wake
  · cases h; exact .caps _
  · split at h
    · cases h; exact .wrote
    · exact nomatch h
  · cases h; exact .failed
  · cases h; exact .register
  · split at h
    · cases h; exact .forward
    · cases h; exact .unsent
  · cases h; exact .reply
  · split_ifs at h
    cases h
    exact .timeout
  · cases h; exact .unregister
  · cases h; exact .go
  · exact nomatch h

theorem ne_data (h : reads l = false) (bytes : List UInt8) (hl : l = .read (.data bytes)) :
    False := by
  rw [hl] at h
  exact Bool.noConfusion h

theorem relay_move {reader : FrameReader} {r : Relay} {n : Next} : ∀ {p : RelayPhase},
    c.thread.phase = .relay r p → Served seqs c (r.need agentErrorBody p) l a count es →
    r.resume c.now p a = some n → Move seqs c reader (.relay r p) l n.phase reader count es
  | .top, _, .go, hr => by
      simp only [Relay.resume] at hr
      split at hr
      · split_ifs at hr
        all_goals
          cases hr
          exact .relay rfl rfl .none (ne_data rfl)
      · cases hr; exact .relay rfl rfl .none (ne_data rfl)
  | .stopTimeoutWrite, _, .wrote, hr => by
      cases hr
      exact .relay rfl rfl (.wrote fun _ => Source.noConfusion) (ne_data rfl)
  | .stopTimeoutWrite, _, .failed, hr => by cases hr; exact .closed rfl
  | .read, _, .read .eof, hr => by cases hr; exact .relay rfl rfl .none (ne_data rfl)
  | .read, _, .read (.data bytes), hr => by cases hr; exact .relayFed
  | .read, _, .read .timeout, hr => by cases hr; exact .relay rfl rfl .none (ne_data rfl)
  | .read, _, .read .error, hr => by cases hr; exact .relay rfl rfl .none (ne_data rfl)
  | .frames, _, .go, hr => by
      simp only [Relay.resume] at hr
      split at hr
      · cases hr; exact .relayDrained ‹_›
      · cases hr; exact .relayTook ‹_›
  | .forwardStop, hp, .forward, hr => by
      cases hr
      rw [hp]
      exact .stopped
  | .forwardStop, _, .unsent, hr => by cases hr; exact .closed rfl
  | .eofForward, hp, .forward, hr => by
      cases hr
      rw [hp]
      exact .relay rfl rfl .hungUp (ne_data rfl)
  | .eofForward, _, .unsent, hr => by cases hr; exact .closed rfl
  | .recv _, _, .reply, hr => by cases hr; exact .relay rfl rfl (.received rfl) (ne_data rfl)
  | .recv _, _, .timeout, hr => by cases hr; exact .relay rfl rfl .none (ne_data rfl)
  | .write f, _, .wrote, hr => by
      cases hr
      dsimp only [Next.phase, if_true]
      refine .relay rfl ?_ (.wrote fun _ => Source.noConfusion) (ne_data rfl)
      split_ifs <;> rfl
  | .write f, _, .failed, hr => by cases hr; exact .closed rfl
  | .unregister false, _, .unregister, hr => by cases hr; exact .back
  | .unregister true, _, .unregister, hr => by cases hr; exact .closed rfl

theorem thread_move {reader : FrameReader} {t : Thread} : ∀ {p : Phase}, c.thread.phase = p →
    Served seqs c (p.need agentErrorBody) l a count es →
    Thread.resume agentErrorBody ⟨p, reader⟩ c.now a = some t →
    Move seqs c reader p l t.phase t.reader count es
  | .read, _, .read .eof, ht => by cases ht; exact .closed rfl
  | .read, _, .read (.data bytes), ht => by cases ht; exact .fed
  | .read, _, .read .timeout, ht => by
      cases ht
      exact .idle rfl Phase.noConfusion rfl Phase.noConfusion .none (ne_data rfl)
  | .read, _, .read .error, ht => by cases ht; exact .closed rfl
  | .wake, _, .wake, ht => by
      cases ht
      exact .idle rfl Phase.noConfusion rfl Phase.noConfusion .none (ne_data rfl)
  | .frames, _, .go, ht => by
      simp only [Thread.resume] at ht
      split at ht
      · cases ht; exact .drained ‹_›
      · cases ht
        dsimp only
        split_ifs with h
        · exact .hello ‹_› h
        · exact .request ‹_› h
  | .caps seq, _, .caps payload, ht => by
      cases ht
      refine .idle rfl Phase.noConfusion ?_ ?_ .none (ne_data rfl)
      · dsimp only
        split_ifs <;> rfl
      · dsimp only
        split_ifs <;> exact Phase.noConfusion
  | .helloWrite .., _, .wrote, ht => by
      cases ht
      exact .idle rfl Phase.noConfusion rfl Phase.noConfusion
        (.wrote fun _ => Source.noConfusion) (ne_data rfl)
  | .helloWrite .., _, .failed, ht => by cases ht; exact .closed rfl
  | .register f, _, .register, ht => by cases ht; exact .registered
  | .forward f d, hp, .forward, ht => by
      cases ht
      rw [hp]
      exact .sent
  | .forward f d, _, .unsent, ht => by cases ht; exact .closed rfl
  | .await seq d deadline, _, .reply, ht => by
      cases ht
      dsimp only
      split_ifs with h
      · exact .starting h
      · exact .answered h
  | .await seq d deadline, _, .timeout, ht => by cases ht; exact .timedOut
  | .replyUnregister seq d f, _, .unregister, ht => by
      cases ht
      exact .idle rfl Phase.noConfusion rfl Phase.noConfusion .none (ne_data rfl)
  | .replyWrite seq d f, _, .wrote, ht => by
      cases ht
      exact .idle rfl Phase.noConfusion rfl Phase.noConfusion
        (.wrote fun _ => Source.noConfusion) (ne_data rfl)
  | .replyWrite .., _, .failed, ht => by cases ht; exact .closed rfl
  | .timeoutUnregister seq d, _, .unregister, ht => by cases ht; exact .givingUp
  | .timeoutWrite seq d, _, .wrote, ht => by cases ht; exact .gaveUp
  | .timeoutWrite seq d, _, .failed, ht => by cases ht; exact .closed rfl
  | .startWrite seq d f, _, .wrote, ht => by cases ht; exact .started
  | .startWrite seq d f, _, .failed, ht => by cases ht; exact .closed rfl
  | .relay r p, hp, hs, ht => by
      simp only [Thread.resume] at ht
      split at ht <;> cases ht
      all_goals exact relay_move hp hs ‹_›

theorem step_cases (h : c.step seqs l = some (c', es)) :
    (∃ ms, l = .tick ms ∧ c' = { c with now := c.now + ms } ∧ es = []) ∨
    Move seqs c c.thread.reader c.thread.phase l c'.thread.phase c'.thread.reader c'.count es ∧
      c'.stream = streamAfter c.stream c.thread.phase c'.thread.phase := by
  unfold step at h
  split at h
  · rename_i ms
    cases h
    exact .inl ⟨ms, rfl, rfl, rfl⟩
  · unfold threadStep at h
    split at h
    · exact nomatch h
    · rename_i a count es₁ hs
      split at h
      · exact nomatch h
      · rename_i t ht
        cases h
        exact .inr ⟨thread_move rfl (serve_cases hs) ht, rfl⟩

end Moves

/-! ## The bytes that the readers hold -/

/-- What the relay has read and not decoded. -/
def relayBuf : Phase → List UInt8
  | .relay r _ => r.reader.buf
  | _ => []

/-- The bytes read are those of the frames taken, and behind them what is held in one
of the readers. -/
structure Held (taken : List Frame) (p : Phase) (reader : FrameReader) (ls : List Label) :
    Prop where
  bytes : p ≠ .closed → bytesRead ls = taken.flatMap Frame.wire ++ (reader.buf ++ relayBuf p)
  one : reader.buf = [] ∨ relayBuf p = []
  /-- The request loop reads the socket with nothing whole in its reader. -/
  waiting : p = .read → reader.nextFrame.1 = none
  resting : ∀ r q, p = .relay r q → Connection.resting q = true → r.reader.nextFrame.1 = none

section Held

variable {seqs : Nat → UInt16} {c : Connection} {p p' : Phase} {reader reader' : FrameReader}
  {l : Label} {ls : List Label} {count : Nat} {es : List Event} {fs gs : List Frame}

theorem bytesRead_append (ls ls' : List Label) :
    bytesRead (ls ++ ls') = bytesRead ls ++ bytesRead ls' :=
  List.flatMap_append

/-- A step that reads nothing. -/
theorem bytesRead_still (h : ∀ bytes, l ≠ .read (.data bytes)) :
    bytesRead (ls ++ [l]) = bytesRead ls := by
  rw [bytesRead_append]
  have hl : bytesRead [l] = [] := by
    unfold bytesRead
    rw [List.flatMap_singleton]
    split
    · exact absurd rfl (h _)
    · rfl
  rw [hl, List.append_nil]

theorem bytesRead_data (bytes : List UInt8) :
    bytesRead (ls ++ [.read (.data bytes)]) = bytesRead ls ++ bytes := by
  rw [bytesRead_append]
  exact congrArg (bytesRead ls ++ ·) (List.append_nil bytes)

theorem relayBuf_idle : ∀ {p : Phase}, idle p = true → relayBuf p = []
  | .read, _ | .wake, _ | .frames, _ | .caps _, _ | .helloWrite .., _ | .replyUnregister .., _
  | .replyWrite .., _ => rfl

theorem taken_idle : ∀ {p : Phase}, idle p = true → p ≠ .frames → taken reader p l = none
  | .read, _, _ | .wake, _, _ | .caps _, _, _ | .helloWrite .., _, _ | .replyUnregister .., _, _
  | .replyWrite .., _, _ => rfl
  | .frames, _, h => absurd rfl h

theorem taken_resting {r : Relay} : ∀ {q : RelayPhase}, resting q = true →
    taken reader (.relay r q) l = none
  | .top, _ | .stopTimeoutWrite, _ | .read, _ | .eofForward, _ | .recv _, _ | .write _, _
  | .unregister _, _ => rfl

/-- What is held is the front of the frames to come. -/
theorem Held.front (h : Held fs p reader ls) (hp : p ≠ .closed)
    (hread : bytesRead (ls ++ [l]) <+: fs.flatMap Frame.wire ++ gs.flatMap Frame.wire) :
    reader.buf ++ relayBuf p <+: gs.flatMap Frame.wire := by
  refine (List.prefix_append_right_inj (fs.flatMap Frame.wire)).mp ?_
  rw [← h.bytes hp]
  exact (List.prefix_append ..).trans (bytesRead_append ls [l] ▸ hread)

/-- In the relay, what its own reader holds. -/
theorem Held.front_relay {r : Relay} {q : RelayPhase} (h : Held fs (.relay r q) reader ls)
    (hread : bytesRead (ls ++ [l]) <+: fs.flatMap Frame.wire ++ gs.flatMap Frame.wire) :
    r.reader.buf ++ [] <+: gs.flatMap Frame.wire := by
  rw [List.append_nil]
  rcases h.one with hone | hone
  · have hfront := h.front nofun hread
    rwa [hone] at hfront
  · rw [show r.reader.buf = [] from hone]
    exact List.nil_prefix

/-- A step that reads nothing and takes no frame, outside the relay. -/
theorem Held.still (h : Held fs p reader ls) (hp : p ≠ .closed)
    (hl : ∀ bytes, l ≠ .read (.data bytes)) (hbuf : relayBuf p = [])
    (hbuf' : relayBuf p' = []) (hread : p' ≠ .read) (hrelay : ∀ r q, p' ≠ .relay r q) :
    Held fs p' reader (ls ++ [l]) where
  bytes _ := by rw [bytesRead_still hl, h.bytes hp, hbuf, hbuf']
  one := .inr hbuf'
  waiting hp' := absurd hp' hread
  resting r q hp' := absurd hp' (hrelay r q)

/-- The request loop takes a frame. -/
theorem Held.took {f : Frame} (h : Held fs .frames reader ls)
    (hn : reader.nextFrame = (some f, reader')) (hgs : ∀ g ∈ gs, g.payload.length ≤ 0xFFFF)
    (hread : bytesRead (ls ++ [.go]) <+: fs.flatMap Frame.wire ++ gs.flatMap Frame.wire)
    (hbuf : relayBuf p' = []) (hp' : p' ≠ .read) (hrelay : ∀ r q, p' ≠ .relay r q) :
    ∃ gs', gs = f :: gs' ∧ Held (fs ++ [f]) p' reader' (ls ++ [.go]) := by
  rcases FrameReader.nextFrame_wires hgs (h.front nofun hread) with
    hnone | ⟨g, gs', rest, rfl, hwire, hsome, -⟩
  · cases hn.symm.trans hnone
  · cases hn.symm.trans hsome
    refine ⟨gs', rfl, ?_, .inr hbuf, fun hp => absurd hp hp', fun r q hp => absurd hp (hrelay r q)⟩
    intro _
    rw [bytesRead_still (l := .go) nofun, h.bytes nofun, hwire, hbuf, List.flatMap_append,
      List.flatMap_singleton]
    simp only [relayBuf, List.append_nil, List.append_assoc]

/-- The relay takes a frame. -/
theorem Held.relayTook {r : Relay} {f : Frame} {q : RelayPhase}
    (h : Held fs (.relay r .frames) reader ls)
    (hn : r.reader.nextFrame = (some f, reader')) (hgs : ∀ g ∈ gs, g.payload.length ≤ 0xFFFF)
    (hread : bytesRead (ls ++ [.go]) <+: fs.flatMap Frame.wire ++ gs.flatMap Frame.wire)
    (hq : Connection.resting q = false) :
    ∃ gs', gs = f :: gs' ∧
      Held (fs ++ [f]) (.relay { r with reader := reader' } q) reader (ls ++ [.go]) := by
  rcases FrameReader.nextFrame_wires hgs (h.front_relay hread) with
    hnone | ⟨g, gs', rest, rfl, hwire, hsome, -⟩
  · cases hn.symm.trans hnone
  · cases hn.symm.trans hsome
    have hbuf : reader.buf = [] := by
      refine h.one.resolve_right fun hnil => ?_
      have hlen := congrArg List.length (hwire.symm.trans hnil)
      rw [List.length_append, Frame.wire, length_wire, List.length_nil] at hlen
      omega
    refine ⟨gs', rfl, ?_, .inl hbuf, Phase.noConfusion, ?_⟩
    · intro _
      rw [bytesRead_still (l := .go) (ne_data rfl), h.bytes Phase.noConfusion, hbuf,
        List.flatMap_append, List.flatMap_singleton]
      simp only [relayBuf, hwire, List.nil_append, List.append_assoc]
    · rintro _ _ heq hrest
      cases heq
      exact Bool.noConfusion (hq.symm.trans hrest)

/-- A step of the relay that reads nothing and takes no frame. -/
theorem Held.relay {r r' : Relay} {q q' : RelayPhase} (h : Held fs (.relay r q) reader ls)
    (hl : ∀ bytes, l ≠ .read (.data bytes)) (hr : r'.reader = r.reader)
    (hrest : Connection.resting q' = true → r.reader.nextFrame.1 = none) :
    Held fs (.relay r' q') reader (ls ++ [l]) where
  bytes _ := by rw [bytesRead_still hl, h.bytes nofun, relayBuf, relayBuf, hr]
  one := by
    rw [relayBuf, hr]
    exact h.one
  waiting := nofun
  resting _ _ heq hq := by
    cases heq
    rw [hr]
    exact hrest hq

/-- No frame is taken. -/
theorem Held.not_taken (ht : taken reader p l = none) (h : Held fs p' reader' ls) :
    ∃ gs', gs = (taken reader p l).toList ++ gs' ∧
      Held (fs ++ (taken reader p l).toList) p' reader' ls := by
  rw [ht]
  exact ⟨gs, rfl, by rwa [Option.toList_none, List.append_nil]⟩

/-- What a step makes of the bytes: the frame it takes is the first of those to come. -/
theorem Move.held (hp : c.thread = ⟨p, reader⟩) (h : Move seqs c reader p l p' reader' count es)
    (hheld : Held fs p reader ls) (hturn : inTurn c l = true)
    (hgs : ∀ g ∈ gs, g.payload.length ≤ 0xFFFF)
    (hread : bytesRead (ls ++ [l]) <+: fs.flatMap Frame.wire ++ gs.flatMap Frame.wire) :
    ∃ gs', gs = (taken reader p l).toList ++ gs' ∧
      Held (fs ++ (taken reader p l).toList) p' reader' (ls ++ [l]) := by
  cases h with
  | closed ht => exact Held.not_taken ht ⟨(absurd rfl ·), .inr rfl, nofun, nofun⟩
  | fed =>
      refine Held.not_taken rfl ⟨fun _ => ?_, .inr rfl, nofun, nofun⟩
      rw [bytesRead_data, hheld.bytes nofun, List.append_assoc]
      simp only [relayBuf, List.append_nil, FrameReader.feed]
  | drained hn =>
      rcases FrameReader.nextFrame_wires hgs (hheld.front nofun hread) with
        hnone | ⟨g, gs', rest, rfl, -, hsome, -⟩
      · cases hn.symm.trans hnone
        refine Held.not_taken (congrArg Prod.fst hn) ⟨fun _ => ?_, .inr rfl, fun _ => ?_, nofun⟩
        · rw [bytesRead_still (l := .go) nofun]
          exact hheld.bytes nofun
        · rw [hn]
      · cases hn.symm.trans hsome
  | hello hn =>
      rw [show taken reader .frames .go = _ from congrArg Prod.fst hn]
      exact hheld.took hn hgs hread rfl nofun nofun
  | request hn =>
      rw [show taken reader .frames .go = _ from congrArg Prod.fst hn]
      exact hheld.took hn hgs hread rfl nofun nofun
  | idle hidle hframes hidle' hread' _ hl =>
      refine Held.not_taken (taken_idle hidle hframes)
        (hheld.still ?_ hl (relayBuf_idle hidle) (relayBuf_idle hidle') hread' ?_)
      · rintro rfl
        exact nomatch hidle
      · rintro r q rfl
        exact nomatch hidle'
  | registered | sent | starting | answered | timedOut | givingUp | gaveUp =>
      exact Held.not_taken rfl (hheld.still nofun nofun rfl rfl nofun nofun)
  | started =>
      refine Held.not_taken rfl ⟨fun _ => ?_, .inr rfl, nofun, ?_⟩
      · rw [bytesRead_still (l := .wrote true) nofun]
        exact hheld.bytes nofun
      · rintro _ _ heq -
        cases heq
        rfl
  | relayFed =>
      have hbuf : reader.buf = [] := by
        simp only [inTurn, hp] at hturn
        exact List.isEmpty_iff.mp hturn
      refine Held.not_taken rfl ⟨fun _ => ?_, .inl hbuf, nofun, ?_⟩
      · rw [bytesRead_data, hheld.bytes nofun, hbuf, List.append_assoc]
        rfl
      · rintro _ _ heq hrest
        cases heq
        exact nomatch hrest
  | relayDrained hn =>
      rcases FrameReader.nextFrame_wires hgs (hheld.front_relay hread) with
        hnone | ⟨g, gs', rest, rfl, -, hsome, -⟩
      · cases hn.symm.trans hnone
        exact Held.not_taken (congrArg Prod.fst hn) (hheld.relay nofun rfl fun _ => by rw [hn])
      · cases hn.symm.trans hsome
  | relayTook hn =>
      rw [show taken reader (.relay _ .frames) .go = _ from congrArg Prod.fst hn]
      refine hheld.relayTook hn hgs hread ?_
      split_ifs <;> rfl
  | stopped => exact Held.not_taken rfl (hheld.relay nofun rfl nofun)
  | relay hq _ _ hl =>
      exact Held.not_taken (taken_resting hq) (hheld.relay hl rfl fun _ => hheld.resting _ _ rfl hq)
  | back =>
      simp only [inTurn, hp] at hturn
      exact Held.not_taken rfl
        (hheld.still nofun nofun (List.isEmpty_iff.mp hturn) rfl nofun nofun)

end Held

/-! ## The replies -/

/-- The request that nothing has been received for. -/
def unanswered : Phase → Option Ticket
  | .forward _ d | .await _ d _ => some d
  | _ => none

/-- Requests are numbered as they are registered, and their replies come after. -/
structure Numbered (p : Phase) (count : Nat) (es : List Event) : Prop where
  inHand : idle p = false → ∀ d ∈ p.ticket, d.id < count
  received : ∀ k, count ≤ k → receivedFor k es = []
  unanswered : ∀ d ∈ Connection.unanswered p, receivedFor d.id es = []

section Numbered

variable {seqs : Nat → UInt16} {c : Connection} {p p' : Phase} {reader reader' : FrameReader}
  {l : Label} {count n k : Nat} {es es' : List Event} {d : Ticket} {f : Frame}

theorem forwarded_append (es es' : List Event) :
    forwarded (es ++ es') = forwarded es ++ forwarded es' :=
  List.filterMap_append

theorem receivedFor_append (k : Nat) (es es' : List Event) :
    receivedFor k (es ++ es') = receivedFor k es ++ receivedFor k es' :=
  List.filterMap_append

theorem receivedFor_self : receivedFor d.id [.received d f] = [f] := by
  simp only [receivedFor, List.filterMap_cons, if_true, List.filterMap_nil]

theorem receivedFor_of_lt (h : d.id < k) : receivedFor k [.received d f] = [] := by
  simp only [receivedFor, List.filterMap_cons, if_neg h.ne, List.filterMap_nil]

theorem Aside.forwarded {o : Option Ticket} (h : Aside o es) : forwarded es = [] := by
  cases h <;> rfl

theorem Aside.receivedFor {o : Option Ticket} (h : Aside o es) (hd : ∀ d ∈ o, d.id < k) :
    receivedFor k es = [] := by
  cases h with
  | none | wrote | hungUp => rfl
  | received ho => exact receivedFor_of_lt (hd _ ho)

/-- A step that registers nothing. -/
theorem Numbered.next (h : Numbered p n es) (hes : ∀ k, n ≤ k → receivedFor k es' = [])
    (hhand : idle p' = false → ∀ d ∈ p'.ticket, d.id < n)
    (hun : ∀ d ∈ Connection.unanswered p', d ∈ Connection.unanswered p ∧ receivedFor d.id es' = []) :
    Numbered p' n (es ++ es') where
  inHand := hhand
  received k hk := by rw [receivedFor_append, h.received k hk, hes k hk, List.append_nil]
  unanswered d hd := by
    obtain ⟨hd, hnil⟩ := hun d hd
    rw [receivedFor_append, h.unanswered d hd, hnil, List.append_nil]

theorem unanswered_idle : ∀ {p : Phase}, idle p = true → Connection.unanswered p = none
  | .read, _ | .wake, _ | .frames, _ | .caps _, _ | .helloWrite .., _ | .replyUnregister .., _
  | .replyWrite .., _ => rfl

theorem Move.numbered (h : Move seqs c reader p l p' reader' count es')
    (hn : Numbered p c.count es) : Numbered p' count (es ++ es') := by
  cases h with
  | closed | fed | drained | hello | request | gaveUp | back =>
      exact hn.next (fun _ _ => rfl) nofun nofun
  | idle _ _ hidle' _ haside =>
      refine hn.next (fun _ _ => haside.receivedFor nofun) ?_ ?_
      · exact fun h => nomatch hidle'.symm.trans h
      · rw [unanswered_idle hidle']
        exact nofun
  | registered =>
      refine ⟨fun _ d hd => ?_, fun k hk => ?_, fun d hd => ?_⟩
      · cases hd
        exact Nat.lt_succ_self _
      · rw [List.append_nil]
        exact hn.received k (Nat.le_of_succ_le hk)
      · cases hd
        rw [List.append_nil]
        exact hn.received _ le_rfl
  | sent => exact hn.next (fun _ _ => rfl) (fun _ => hn.inHand rfl) (fun d hd => ⟨hd, rfl⟩)
  | starting =>
      have hlt := hn.inHand rfl _ rfl
      exact hn.next (fun k hk => receivedFor_of_lt (hlt.trans_le hk)) (fun _ => hn.inHand rfl) nofun
  | answered =>
      have hlt := hn.inHand rfl _ rfl
      exact hn.next (fun k hk => receivedFor_of_lt (hlt.trans_le hk)) nofun nofun
  | timedOut | givingUp | started | relayFed | relayDrained | relayTook | stopped =>
      exact hn.next (fun _ _ => rfl) (fun _ => hn.inHand rfl) nofun
  | relay _ _ haside =>
      refine hn.next (fun k hk => haside.receivedFor fun d hd => ?_) (fun _ => hn.inHand rfl) nofun
      exact (hn.inHand rfl d hd).trans_le hk

end Numbered

/-! ## The frames acted on -/

/-- The requests taken, by where the thread stands. -/
def requests (count : Nat) : Phase → Nat
  | .register _ => count + 1
  | _ => count

/-- What the client has asked to be sent to the device and was not sent yet. -/
def pending (seqs : Nat → UInt16) (count : Nat) : Phase → List Frame
  | .register f => [{ f with seq := seqs count }]
  | .forward f d => [{ f with seq := d.seq }]
  | .relay r .forwardStop => [stop r.dev]
  | _ => []

/-- The request whose stream may be stopped, or will be once it has begun. -/
def stoppable (seqs : Nat → UInt16) (replies : Nat → List Frame) (count : Nat)
    (stream : Option Ticket) : Phase → Option Ticket
  | .register _ => begins replies ⟨seqs count, count⟩
  | .forward _ d | .await _ d _ | .timeoutUnregister _ d | .timeoutWrite _ d => begins replies d
  | .startWrite _ d _ => some d
  | _ => stream

/-- No stream has begun before the answer, and in the relay there is one. -/
def Streaming (stream : Option Ticket) : Phase → Prop
  | .register _ | .forward .. | .await .. | .timeoutUnregister .. | .timeoutWrite .. => stream = none
  | .relay r _ => stream = some r.dev
  | _ => True

/-- Where the thread stands on the frames taken. -/
structure Tracks (seqs : Nat → UInt16) (replies : Nat → List Frame) (a : Acting) (p : Phase)
    (n : Nat) (stream : Option Ticket) (es : List Event) : Prop where
  count : a.count = requests n p
  on : a.on = stoppable seqs replies n stream p
  out : a.out = forwarded es ++ pending seqs n p
  streaming : Streaming stream p

/-- The same while it runs; a thread that has returned sends nothing more. -/
inductive Follows (seqs : Nat → UInt16) (replies : Nat → List Frame) (a : Acting) (p : Phase)
    (n : Nat) (stream : Option Ticket) (es : List Event) : Prop
  | running (h : Tracks seqs replies a p n stream es)
  | closed (hp : p = .closed) (h : forwarded es <+: a.out)

section Tracks

variable {seqs : Nat → UInt16} {replies : Nat → List Frame} {c : Connection} {p p' : Phase}
  {reader reader' : FrameReader} {l : Label} {count n : Nat} {stream : Option Ticket}
  {es es' : List Event} {a : Acting} {d : Ticket} {f : Frame}

theorem Follows.sent (h : Follows seqs replies a p n stream es) : forwarded es <+: a.out := by
  cases h with
  | running h =>
      rw [h.out]
      exact List.prefix_append ..
  | closed _ h => exact h

theorem Acting.take_request (h : f.typ ≠ .hello) (hstop : f.typ = .streamStop → a.on = none) :
    a.take seqs replies f = a.request seqs replies f := by
  rw [Acting.take, if_neg h]
  split
  · rename_i d hd
    rw [if_neg fun hf => nomatch hd.symm.trans (hstop hf)]
  · rfl

theorem Acting.take_stop (h : f.typ = .streamStop) (hon : a.on = some d) :
    a.take seqs replies f = { a with out := a.out ++ [stop d] } := by
  rw [Acting.take, if_neg (by rw [h]; exact nofun), hon]
  exact if_pos h

/-- The first reply decides. -/
theorem begins_of_received (hans : Answered replies es) (hf : receivedFor d.id es = [f]) :
    begins replies d = if f.typ = .streamStart then some d else none := by
  obtain ⟨rest, hrest⟩ := hans.received d.id
  rw [begins, ← hrest, hf]
  simp only [List.cons_append, List.head?_cons, Option.any_some, decide_eq_true_eq]

theorem begins_of_gaveUp (hans : Answered replies es) (hd : .wrote (.timeout d) ∈ es) :
    begins replies d = none := by
  rw [begins, hans.gaveUp d hd]
  rfl

theorem streamAfter_idle : ∀ {p : Phase}, idle p = true → p ≠ .frames →
    streamAfter stream p p' = stream
  | .read, _, _ | .wake, _, _ | .caps _, _, _ | .helloWrite .., _, _ | .replyUnregister .., _, _
  | .replyWrite .., _, _ => rfl
  | .frames, _, h => absurd rfl h

theorem tracks_iff (hcount : requests n p = n) (hon : stoppable seqs replies n stream p = stream)
    (hout : pending seqs n p = []) :
    Tracks seqs replies a p n stream es ↔ a = ⟨n, stream, forwarded es⟩ ∧ Streaming stream p := by
  constructor
  · rintro ⟨ha, ha', ha'', hs⟩
    rw [hcount] at ha
    rw [hon] at ha'
    rw [hout, List.append_nil] at ha''
    cases a
    cases ha
    cases ha'
    cases ha''
    exact ⟨rfl, hs⟩
  · rintro ⟨rfl, hs⟩
    exact ⟨hcount.symm, hon.symm, by rw [hout, List.append_nil], hs⟩

/-- Between two frames, those taken are acted on. -/
theorem tracks_idle : ∀ {p : Phase}, idle p = true →
    (Tracks seqs replies a p n stream es ↔ a = ⟨n, stream, forwarded es⟩)
  | .read, _ | .wake, _ | .frames, _ | .caps _, _ | .helloWrite .., _ | .replyUnregister .., _
  | .replyWrite .., _ => (tracks_iff rfl rfl rfl).trans (and_iff_left trivial)

theorem tracks_relay {r : Relay} : ∀ {q : RelayPhase}, q ≠ .forwardStop →
    (Tracks seqs replies a (.relay r q) n stream es ↔
      a = ⟨n, stream, forwarded es⟩ ∧ stream = some r.dev)
  | .top, _ | .stopTimeoutWrite, _ | .read, _ | .frames, _ | .eofForward, _ | .recv _, _
  | .write _, _ | .unregister _, _ => tracks_iff rfl rfl rfl
  | .forwardStop, h => absurd rfl h

/-- A step that takes nothing and sends nothing. -/
theorem Tracks.next {stream' : Option Ticket} (h : Tracks seqs replies a p n stream es)
    (hes : forwarded es' = []) (hcount : requests n p' = requests n p)
    (hon : a.on = stoppable seqs replies n stream' p')
    (hout : pending seqs n p' = pending seqs n p) (hs : Streaming stream' p') :
    Tracks seqs replies a p' n stream' (es ++ es') where
  count := h.count.trans hcount.symm
  on := hon
  out := by rw [forwarded_append, hes, List.append_nil, hout, h.out]
  streaming := hs

/-- What a step makes of the frames taken. -/
theorem Move.tracks (hp : c.thread = ⟨p, reader⟩)
    (h : Move seqs c reader p l p' reader' count es')
    (ht : Tracks seqs replies a p c.count c.stream es) (hturn : inTurn c l = true)
    (hn : Numbered p c.count es) (hans : Answered replies (es ++ es')) :
    Follows seqs replies ((taken reader p l).toList.foldl (Acting.take seqs replies) a) p' count
      (streamAfter c.stream p p') (es ++ es') := by
  cases h with
  | closed htaken =>
      rw [htaken, List.append_nil]
      exact .closed rfl (Follows.running ht).sent
  | fed => exact .running (ht.next rfl rfl ht.on rfl trivial)
  | drained hnext =>
      rw [show taken reader .frames .go = _ from congrArg Prod.fst hnext]
      exact .running (ht.next rfl rfl ht.on rfl trivial)
  | hello hnext hf =>
      rw [show taken reader .frames .go = _ from congrArg Prod.fst hnext, List.append_nil]
      obtain rfl := (tracks_idle rfl).mp ht
      refine .running ((tracks_idle rfl).mpr ?_)
      exact if_pos hf
  | @request f _ hnext hf =>
      rw [show taken reader .frames .go = _ from congrArg Prod.fst hnext, List.append_nil]
      obtain rfl := (tracks_idle rfl).mp ht
      have hstop : f.typ = .streamStop → c.stream = none := by
        intro hstop
        simpa only [inTurn, hp, hnext, Option.all_some, hstop, ne_eq, not_true_eq_false, decide_false,
          Bool.false_or, Option.isNone_iff_eq_none] using hturn
      rw [Option.toList_some, List.foldl_cons, List.foldl_nil, Acting.take_request hf hstop]
      exact .running ⟨rfl, rfl, rfl, rfl⟩
  | idle hidle hframes hidle' _ haside =>
      rw [taken_idle hidle hframes, streamAfter_idle hidle hframes]
      obtain rfl := (tracks_idle hidle).mp ht
      refine .running ((tracks_idle hidle').mpr ?_)
      rw [forwarded_append, haside.forwarded, List.append_nil]
      rfl
  | registered =>
      rw [List.append_nil]
      exact .running ⟨ht.count, ht.on, ht.out, ht.streaming⟩
  | sent =>
      refine .running ⟨ht.count, ht.on, ?_, ht.streaming⟩
      rw [forwarded_append]
      exact ht.out.trans (List.append_nil _).symm
  | @starting seq d deadline f hf =>
      have hreceived : receivedFor d.id (es ++ [.received d f]) = [f] := by
        rw [receivedFor_append, hn.unanswered d rfl, receivedFor_self, List.nil_append]
      refine .running (ht.next rfl rfl ?_ rfl trivial)
      exact ht.on.trans ((begins_of_received hans hreceived).trans (if_pos hf))
  | @answered seq d deadline f hf =>
      have hreceived : receivedFor d.id (es ++ [.received d f]) = [f] := by
        rw [receivedFor_append, hn.unanswered d rfl, receivedFor_self, List.nil_append]
      refine .running (ht.next rfl rfl ?_ rfl trivial)
      exact ht.on.trans ((begins_of_received hans hreceived).trans ((if_neg hf).trans
        ht.streaming.symm))
  | timedOut | givingUp => exact .running (ht.next rfl rfl ht.on rfl ht.streaming)
  | @gaveUp seq d =>
      have hnone := begins_of_gaveUp hans (List.mem_append_right es (List.mem_singleton_self _))
      exact .running (ht.next rfl rfl (ht.on.trans (hnone.trans ht.streaming.symm)) rfl trivial)
  | started => exact .running (ht.next rfl rfl ht.on rfl rfl)
  | relayFed => exact .running (ht.next rfl rfl ht.on rfl ht.streaming)
  | relayDrained hnext =>
      rw [show taken reader (.relay _ .frames) .go = _ from congrArg Prod.fst hnext]
      exact .running (ht.next rfl rfl ht.on rfl ht.streaming)
  | @relayTook r f reader' hnext =>
      rw [show taken reader (.relay r .frames) .go = _ from congrArg Prod.fst hnext,
        List.append_nil]
      obtain ⟨rfl, hs⟩ := (tracks_relay (q := .frames) nofun).mp ht
      have hf : f.typ = .streamStop := by
        simpa only [inTurn, hp, hnext, Option.all_some, decide_eq_true_eq] using hturn
      rw [Option.toList_some, List.foldl_cons, List.foldl_nil, Acting.take_stop hf hs, if_pos hf]
      exact .running ⟨rfl, rfl, rfl, hs⟩
  | stopped =>
      refine .running ⟨ht.count, ht.on, ?_, ht.streaming⟩
      rw [forwarded_append]
      exact ht.out.trans (List.append_nil _).symm
  | @relay r q _ q' _ hq hq' haside _ =>
      rw [taken_resting hq]
      obtain ⟨rfl, hs⟩ := (tracks_relay (q := q) (by rintro rfl; exact nomatch hq)).mp ht
      refine .running ((tracks_relay (by rintro rfl; exact nomatch hq')).mpr ⟨?_, hs⟩)
      rw [forwarded_append, haside.forwarded, List.append_nil]
      rfl
  | back =>
      obtain ⟨rfl, -⟩ := (tracks_relay (q := .unregister false) nofun).mp ht
      rw [List.append_nil]
      exact .running ((tracks_idle rfl).mpr rfl)

end Tracks

/-! ## Every frame is acted on -/

section Run

variable {seqs : Nat → UInt16} {replies : Nat → List Frame} {c c' : Connection} {fs gs : List Frame}
  {l : Label} {ls : List Label} {es es' : List Event} {a : Acting}

/-- Where a run stands: of the client's frames, some are taken, and it stands on them. -/
structure Inv (seqs : Nat → UInt16) (replies : Nat → List Frame) (taken : List Frame)
    (c : Connection) (ls : List Label) (es : List Event) : Prop where
  held : Held taken c.thread.phase c.thread.reader ls
  follows : Follows seqs replies (Acting.all seqs replies taken) c.thread.phase c.count c.stream es
  numbered : Numbered c.thread.phase c.count es

theorem Inv.new : Inv seqs replies [] new [] [] where
  held := ⟨fun _ => rfl, .inl rfl, fun _ => rfl, nofun⟩
  follows := .running ((tracks_idle rfl).mpr rfl)
  numbered := ⟨nofun, fun _ _ => rfl, nofun⟩

theorem Answered.before (h : Answered replies (es ++ es')) : Answered replies es where
  received k := by
    have := h.received k
    rw [receivedFor_append] at this
    exact (List.prefix_append ..).trans this
  gaveUp d hd := h.gaveUp d (List.mem_append_left _ hd)

/-- A thread that has returned does nothing. -/
theorem Move.of_closed {reader reader' : FrameReader} {p : Phase} {count : Nat}
    (h : Move seqs c reader .closed l p reader' count es) : p = .closed ∧ es = [] := by
  cases h with
  | closed => exact ⟨rfl, rfl⟩
  | idle hidle => exact nomatch hidle

theorem Inv.step {taken left : List Frame} (h : Inv seqs replies taken c ls es)
    (hfs : ∀ f ∈ left, f.payload.length ≤ 0xFFFF) (hturn : inTurn c l = true)
    (hread : bytesRead (ls ++ [l]) <+: (taken ++ left).flatMap Frame.wire)
    (hans : Answered replies (es ++ es')) (hs : (machine seqs).step c l = some (c', es')) :
    ∃ taken' left', taken ++ left = taken' ++ left' ∧
      Inv seqs replies taken' c' (ls ++ [l]) (es ++ es') := by
  rcases step_cases hs with ⟨ms, rfl, rfl, rfl⟩ | ⟨hmove, hstream⟩
  · refine ⟨taken, left, rfl, ⟨?_, h.held.one, h.held.waiting, h.held.resting⟩, ?_, ?_⟩
    · rw [bytesRead_still (l := .tick ms) nofun]
      exact h.held.bytes
    · rw [List.append_nil]
      exact h.follows
    · rw [List.append_nil]
      exact h.numbered
  · rw [List.flatMap_append] at hread
    obtain ⟨left', rfl, hheld⟩ := hmove.held rfl h.held hturn hfs hread
    refine ⟨taken ++ (Connection.taken c.thread.reader c.thread.phase l).toList, left',
      (List.append_assoc ..).symm, hheld, ?_, hmove.numbered h.numbered⟩
    rw [hstream, Acting.all, List.foldl_append]
    cases h.follows with
    | running htracks => exact hmove.tracks rfl htracks hturn h.numbered hans
    | closed hp hsent =>
        rw [hp] at hmove ⊢
        obtain ⟨hp', rfl⟩ := hmove.of_closed
        rw [List.append_nil]
        exact .closed hp' hsent

/-- The frames sent to the device are those that were to be, behind one another. -/
theorem take_out (f : Frame) : a.out <+: (a.take seqs replies f).out := by
  unfold Acting.take
  split
  · exact List.prefix_rfl
  · split
    · split
      · exact List.prefix_append ..
      · exact List.prefix_append ..
    · exact List.prefix_append ..

theorem foldl_out : ∀ (fs : List Frame) (a : Acting),
    a.out <+: (fs.foldl (Acting.take seqs replies) a).out
  | [], _ => List.prefix_rfl
  | f :: fs, _ => (take_out f).trans (foldl_out fs _)

theorem acted_append (fs gs : List Frame) :
    acted seqs replies fs <+: acted seqs replies (fs ++ gs) := by
  rw [acted, acted, Acting.all, Acting.all, List.foldl_append]
  exact foldl_out gs _

/-- A reader that holds nothing but whole frames, and finds none. -/
theorem nothing_left (hfs : ∀ f ∈ fs, f.payload.length ≤ 0xFFFF) {r : FrameReader}
    (hbuf : r.buf = fs.flatMap Frame.wire) (hnone : r.nextFrame.1 = none) : fs = [] := by
  cases fs with
  | nil => rfl
  | cons f fs =>
      have hnext := FrameReader.nextFrame_wire (hfs f List.mem_cons_self) (fs.flatMap Frame.wire)
      rw [← List.flatMap_cons, ← hbuf] at hnext
      exact nomatch hnone.symm.trans (congrArg Prod.fst hnext)

/-- The bytes that a running thread holds are those of the frames not taken. -/
theorem Inv.held_left {taken left : List Frame} (h : Inv seqs replies taken c ls es)
    (hp : c.thread.phase ≠ .closed) (hread : bytesRead ls = (taken ++ left).flatMap Frame.wire) :
    c.thread.reader.buf ++ relayBuf c.thread.phase = left.flatMap Frame.wire := by
  rw [h.held.bytes hp, List.flatMap_append] at hread
  exact List.append_cancel_left hread

/-- A thread that waits has taken all the frames there were, and acted on them. -/
theorem Inv.all_taken {taken left : List Frame} (h : Inv seqs replies taken c ls es)
    (hfs : ∀ f ∈ left, f.payload.length ≤ 0xFFFF) (hw : c.waiting = true)
    (hread : bytesRead ls = (taken ++ left).flatMap Frame.wire) :
    left = [] ∧ forwarded es = acted seqs replies taken := by
  unfold waiting at hw
  split at hw
  · rename_i hp
    have hbuf := h.held_left (by rw [hp]; exact nofun) hread
    rw [hp, relayBuf_idle rfl, List.append_nil] at hbuf
    refine ⟨nothing_left hfs hbuf (h.held.waiting hp), ?_⟩
    cases h.follows with
    | running htracks =>
        rw [hp, tracks_idle rfl] at htracks
        rw [acted, htracks]
    | closed hclosed => exact nomatch hp.symm.trans hclosed
  · rename_i r hp
    have hbuf := h.held_left (by rw [hp]; exact nofun) hread
    rw [hp, List.isEmpty_iff.mp hw] at hbuf
    refine ⟨nothing_left hfs hbuf (h.held.resting r _ hp rfl), ?_⟩
    cases h.follows with
    | running htracks =>
        rw [hp, tracks_relay (q := .read) nofun] at htracks
        rw [acted, htracks.1]
    | closed hclosed => exact nomatch hp.symm.trans hclosed
  · exact nomatch hw

theorem run_inv (hfs : ∀ f ∈ fs, f.payload.length ≤ 0xFFFF)
    (hrun : (machine seqs).run .new ls = some (c, es))
    (hturn : (machine seqs).Guarded (fun c l => inTurn c l = true) .new ls)
    (hread : bytesRead ls <+: fs.flatMap Frame.wire) (hans : Answered replies es) :
    ∃ taken left, fs = taken ++ left ∧ Inv seqs replies taken c ls es := by
  have hinv := (machine seqs).run_guarded
    (P := fun c ls es => bytesRead ls <+: fs.flatMap Frame.wire → Answered replies es →
      ∃ taken left, fs = taken ++ left ∧ Inv seqs replies taken c ls es)
    ?_ (fun _ _ => ⟨[], fs, rfl, Inv.new⟩) hturn hrun
  · exact hinv hread hans
  · intro c ls es l c' es' ih hturn hs hread hans
    have hbefore := (List.prefix_append ..).trans (bytesRead_append ls [l] ▸ hread)
    obtain ⟨taken, left, rfl, hinv⟩ := ih hbefore hans.before
    exact hinv.step (fun f hf => hfs f (List.mem_append_right _ hf)) hturn hread hans hs

/-- **Every frame is acted on.**  If every step is taken in turn, then wherever the
reads cut the client's stream, the frames sent to the device are those that the
client's frames and the device's replies come to: the front of them at any time, and
all of them when the thread waits for more. -/
theorem acts_on_every_frame (hfs : ∀ f ∈ fs, f.payload.length ≤ 0xFFFF)
    (hrun : (machine seqs).run .new ls = some (c, es))
    (hturn : (machine seqs).Guarded (fun c l => inTurn c l = true) .new ls)
    (hread : bytesRead ls <+: fs.flatMap Frame.wire) (hans : Answered replies es) :
    forwarded es <+: acted seqs replies fs ∧
      (c.waiting = true → bytesRead ls = fs.flatMap Frame.wire →
        forwarded es = acted seqs replies fs) := by
  obtain ⟨taken, left, rfl, hinv⟩ := run_inv hfs hrun hturn hread hans
  refine ⟨hinv.follows.sent.trans (acted_append taken left), fun hw hread => ?_⟩
  obtain ⟨rfl, hsent⟩ := hinv.all_taken (fun f hf => hfs f (List.mem_append_right _ hf)) hw hread
  rw [hsent, List.append_nil]

end Run

/-! ## A STREAM_STOP behind its request -/

namespace Pipelined

/-- A client that starts a capture and stops it. -/
def captureRequest : Frame := { typ := .req, flags := 0, seq := 7, payload := [] }

def clientStop : Frame := { typ := .streamStop, flags := 0, seq := 7, payload := [] }

def begun : Frame := { typ := .streamStart, flags := 0, seq := 1, payload := [] }

def ended : Frame := { typ := .streamStop, flags := 0, seq := 1, payload := [] }

/-- The device streams for the first request, and does not answer the second. -/
def replies : Nat → List Frame
  | 0 => [begun, ended]
  | _ => []

def seqs (k : Nat) : UInt16 := .ofNat (k + 1)

/-- Two reads: the relay reads the STREAM_STOP. -/
def apart : List Label :=
  [.read (.data captureRequest.wire), .go, .go, .go, .go, .reply begun, .wrote true,
    .go, .read (.data clientStop.wire), .go, .go, .go, .reply ended, .wrote true, .go, .go]

/-- One read: the STREAM_STOP is left to the request loop, for which it is a request. -/
def together : List Label :=
  [.read (.data (captureRequest.wire ++ clientStop.wire)), .go, .go, .go, .go, .reply begun,
    .wrote true, .go, .read .timeout, .reply ended, .wrote true, .go,
    .go, .go, .go, .tick 3000, .timeout, .go, .wrote true, .go]

/-- What the run apart forwards, and what it hears. -/
def apartEvents : List Event :=
  [.forwarded false { captureRequest with seq := 1 }, .received ⟨1, 0⟩ begun,
    .wrote (.device ⟨1, 0⟩ begun), .forwarded false { clientStop with seq := 1 },
    .received ⟨1, 0⟩ ended, .wrote (.device ⟨1, 0⟩ ended)]

def togetherEvents : List Event :=
  [.forwarded false { captureRequest with seq := 1 }, .received ⟨1, 0⟩ begun,
    .wrote (.device ⟨1, 0⟩ begun), .received ⟨1, 0⟩ ended, .wrote (.device ⟨1, 0⟩ ended),
    .forwarded false { clientStop with seq := 2 }, .wrote (.timeout ⟨2, 1⟩)]

theorem runs :
    ((machine seqs).run .new apart).map Prod.snd = some apartEvents ∧
    ((machine seqs).final .new apart).waiting = true ∧
    (machine seqs).Guarded (fun c l => inTurn c l = true) .new apart ∧
    ((machine seqs).run .new together).map Prod.snd = some togetherEvents ∧
    ((machine seqs).final .new together).waiting = true ∧
    bytesRead apart = [captureRequest, clientStop].flatMap Frame.wire ∧
    bytesRead together = [captureRequest, clientStop].flatMap Frame.wire := by
  decide +kernel

theorem answered_apart : Answered replies apartEvents where
  received
    | 0 => by decide
    | k + 1 => by
        rw [show receivedFor (k + 1) apartEvents = [] from rfl]
        exact List.nil_prefix
  gaveUp d hd := by
    simp [apartEvents] at hd

theorem answered_together : Answered replies togetherEvents where
  received
    | 0 => by decide
    | k + 1 => by
        rw [show receivedFor (k + 1) togetherEvents = [] from rfl]
        exact List.nil_prefix
  gaveUp d hd := by
    simp [togetherEvents] at hd
    subst hd
    rfl

/-- In two reads the STREAM_STOP stops the stream. -/
theorem acts_on_every_frame_apart :
    forwarded apartEvents = acted seqs replies [captureRequest, clientStop] :=
  have ⟨hrun, hwaiting, hturn, _, _, hread, _⟩ := runs
  have hfs : ∀ f ∈ [captureRequest, clientStop], f.payload.length ≤ 0xFFFF := by decide
  (acts_on_every_frame hfs (Machine.run_final hrun) hturn (hread ▸ List.prefix_rfl) answered_apart).2
    hwaiting hread

/-- In one read it does not, so what is sent depends on the reads. -/
theorem split_decides : ¬∃ F : List Frame → (Nat → List Frame) → List Frame,
    ∀ fs replies ls c es, (∀ f ∈ fs, f.payload.length ≤ 0xFFFF) →
      (machine seqs).run .new ls = some (c, es) → bytesRead ls = fs.flatMap Frame.wire →
      Answered replies es → c.waiting = true → forwarded es = F fs replies := by
  rintro ⟨F, hF⟩
  obtain ⟨hrun, hwaiting, -, hrun', hwaiting', hread, hread'⟩ := runs
  have happart := hF [captureRequest, clientStop] replies apart _ _ (by decide)
    (Machine.run_final hrun) hread answered_apart hwaiting
  have htogether := hF [captureRequest, clientStop] replies together _ _ (by decide)
    (Machine.run_final hrun') hread' answered_together hwaiting'
  exact absurd (happart.trans htogether.symm) (by decide)

end Pipelined

end Connection

end FlipLink.Daemon
