/-
# `FlipLink.Daemon.Relay` — the relay and its clock

`relay_stream` by itself, against any device and any client: the turns are those
of `Relay.resume`, device frames are delivered into the reply channel at any
moment, and the clock moves while the relay waits, up to 50 ms in a read of the
socket and up to 20 ms in a wait for the channel, which only an empty channel
makes it wait.  Everything else takes no time.

A turn reads the socket and then relays one device frame, so what the device has
sent queues up in front of its STREAM_STOP, and the stop deadline is looked at
before the queue is.  The relay tells the client that the device has not
confirmed exactly if the deadline comes while the queue is still being relayed
(`stop_reported`).
-/
import FlipLink.Daemon.System

namespace FlipLink.Daemon

open Lib

/-- The read timeout of a client's socket, in milliseconds. -/
def clientReadTimeout : Nat := 50

/-- The relay, its clock and its reply channel. -/
structure Relaying where
  /-- Where the relay stands; `none` when it has returned. -/
  at_ : Option (Relay × RelayPhase)
  /-- The clock, in milliseconds. -/
  now : Nat
  /-- When it came to where it stands. -/
  since : Nat
  /-- The device frames in the channel, each with the time it was delivered. -/
  channel : List (Nat × Frame)

/-- Where a relay stands after an answer. -/
def Next.at_ : Next → Option (Relay × RelayPhase)
  | .stay r p => some (r, p)
  | .back | .fail => none

namespace Relaying

def start (clientSeq : UInt16) (dev : Ticket) (now : Nat) : Relaying where
  at_ := some ({ clientSeq, dev, reader := .new, stopDeadline := none }, .top)
  now := now
  since := now
  channel := []

inductive Label where
  /-- The router delivers a device frame. -/
  | deliver (f : Frame)
  /-- Time passes. -/
  | wait (ms : Nat)
  | client (inp : ClientInput)
  deriving DecidableEq, Repr

inductive Event where
  | delivered (at_ : Nat) (f : Frame)
  /-- A frame was written to the client, the stop deadline being what it is. -/
  | wrote (about : Source) (stopDeadline : Option Nat)
  deriving DecidableEq, Repr

/-- The relay may still wait this long where it stands. -/
def mayWait (s : Relaying) (ms : Nat) : Bool :=
  match s.at_ with
  | some (_, .read) => s.now + ms ≤ s.since + clientReadTimeout
  | some (_, .recv deadline) => s.channel.isEmpty && s.now + ms ≤ deadline
  | _ => false

/-- The answer to the relay, what it leaves of the channel, and the events. -/
def serve (s : Relaying) (stopDeadline : Option Nat) :
    Need → ClientInput → Option (Answer × List (Nat × Frame) × List Event)
  | .go, .go => some (.done, s.channel, [])
  | .read, .read r => some (.read r, s.channel, [])
  | .write about typ seq payload, .wrote true =>
      match frameBytes typ 0 seq payload with
      | some _ => some (.wrote true, s.channel, [.wrote about stopDeadline])
      | none => none
  | .write .., .wrote false => some (.wrote false, s.channel, [])
  | .forward _ d typ flags payload, .go =>
      some (.wrote (frameBytes typ flags d.seq payload).isSome, s.channel, [])
  | .recv _ _, .go =>
      match s.channel with
      | (_, f) :: rest => some (.reply f, rest, [])
      | [] => none
  | .recv _ deadline, .timeout =>
      if s.channel.isEmpty ∧ deadline ≤ s.now then some (.timeout, s.channel, []) else none
  | .unregister _, .go => some (.done, s.channel, [])
  | _, _ => none

def clientStep (s : Relaying) (r : Relay) (p : RelayPhase) (inp : ClientInput) :
    Option (Relaying × List Event) :=
  match s.serve r.stopDeadline (r.need agentErrorBody p) inp with
  | none => none
  | some (a, channel, es) =>
      match r.resume s.now p a with
      | none => none
      | some next => some ({ s with at_ := next.at_, since := s.now, channel }, es)

def step (s : Relaying) : Label → Option (Relaying × List Event)
  | .deliver f => some ({ s with channel := s.channel ++ [(s.now, f)] }, [.delivered s.now f])
  | .wait ms => if s.mayWait ms then some ({ s with now := s.now + ms }, []) else none
  | .client inp =>
      match s.at_ with
      | some (r, p) => s.clientStep r p inp
      | none => none

def machine : Machine Relaying Label Event where
  step := step

/-! ## What the client is told -/

/-- The device has confirmed the stop before the deadline. -/
def Confirms (dev : Ticket) (deadline : Nat) (x : Nat × Frame) : Prop :=
  x.2.typ = .streamStop ∧ x.2.seq = dev.seq ∧ x.1 < deadline

instance (dev : Ticket) (deadline : Nat) (x : Nat × Frame) : Decidable (Confirms dev deadline x) :=
  inferInstanceAs (Decidable (_ ∧ _))

/-- A turn that finds the device's confirmation in the channel begins before the
deadline. -/
def Timely (s : Relaying) (l : Label) : Prop :=
  ∀ x ∈ s.at_, l = .client .go → x.2 = .top → ∀ deadline ∈ x.1.stopDeadline,
    (∃ y ∈ s.channel, Confirms x.1.dev deadline y) → s.now < deadline

instance (s : Relaying) (l : Label) : Decidable (Timely s l) :=
  inferInstanceAs (Decidable (∀ x ∈ s.at_, _))

/-- The ERROR is written only when its deadline has passed and no confirmation was
delivered before it. -/
def Honest (dev : Ticket) (before : List Event) : Event → Prop
  | .wrote (.stopTimeout _) stopDeadline => ∃ deadline, stopDeadline = some deadline ∧
      ∀ x, .delivered x.1 x.2 ∈ before → ¬Confirms dev deadline x
  | _ => True

/-! ## The moves of the relay -/

/-- The phases between the check of the deadline and the relaying of a frame. -/
def working : RelayPhase → Bool
  | .read | .frames | .forwardStop | .eofForward | .recv _ => true
  | .top | .stopTimeoutWrite | .write _ | .unregister _ => false

/-- What a step of the relay does: where it leads, the channel it leaves, and the
events. -/
inductive Move (s : Relaying) (r : Relay) :
    RelayPhase → ClientInput → Option (Relay × RelayPhase) → List (Nat × Frame) → List Event → Prop
  | expired {deadline} : r.stopDeadline = some deadline → deadline ≤ s.now →
      Move s r .top .go (some (r, .stopTimeoutWrite)) s.channel []
  | turn : (∀ deadline, r.stopDeadline = some deadline → s.now < deadline) →
      Move s r .top .go (some (r, .read)) s.channel []
  | reported : Move s r .stopTimeoutWrite (.wrote true) (some (r, .unregister false)) s.channel
      [.wrote (.stopTimeout r.dev) r.stopDeadline]
  | work {p inp r' p'} : working p = true → r'.dev = r.dev → p' ≠ .stopTimeoutWrite →
      Move s r p inp (some (r', p')) s.channel []
  | received {deadline t f rest} : s.channel = (t, f) :: rest →
      Move s r (.recv deadline) .go (some (r, .write f)) rest []
  | relayed {f} : Move s r (.write f) (.wrote true)
      (some (r, if f.typ = .streamStop then .unregister false else .top)) s.channel
      [.wrote (.device r.dev f) r.stopDeadline]
  | returned {p inp} : Move s r p inp none s.channel []

/-- `serve`, by what it does. -/
inductive Served (s : Relaying) (stopDeadline : Option Nat) :
    Need → ClientInput → Answer → List (Nat × Frame) → List Event → Prop
  | go : Served s stopDeadline .go .go .done s.channel []
  | read (r) : Served s stopDeadline .read (.read r) (.read r) s.channel []
  | wrote {about typ seq payload} : Served s stopDeadline (.write about typ seq payload)
      (.wrote true) (.wrote true) s.channel [.wrote about stopDeadline]
  | failed {about typ seq payload} : Served s stopDeadline (.write about typ seq payload)
      (.wrote false) (.wrote false) s.channel []
  | forward {kind d typ flags payload} (ok) :
      Served s stopDeadline (.forward kind d typ flags payload) .go (.wrote ok) s.channel []
  | received {d deadline t f rest} (h : s.channel = (t, f) :: rest) :
      Served s stopDeadline (.recv d deadline) .go (.reply f) rest []
  | timeout {d deadline} : Served s stopDeadline (.recv d deadline) .timeout .timeout s.channel []
  | unregister {d} : Served s stopDeadline (.unregister d) .go .done s.channel []

section Moves

variable {s s' : Relaying} {r : Relay} {es : List Event} {a : Answer} {channel : List (Nat × Frame)}

theorem serve_cases {stopDeadline : Option Nat} {n : Need} {inp : ClientInput}
    (h : s.serve stopDeadline n inp = some (a, channel, es)) :
    Served s stopDeadline n inp a channel es := by
  unfold serve at h
  split at h
  · cases h; exact .go
  · cases h; exact .read _
  · split at h
    · cases h; exact .wrote
    · exact nomatch h
  · cases h; exact .failed
  · cases h; exact .forward _
  · split at h
    · cases h; exact .received ‹_›
    · exact nomatch h
  · split_ifs at h
    cases h
    exact .timeout
  · cases h; exact .unregister
  · exact nomatch h

theorem relay_move {n : Next} {inp : ClientInput} : ∀ {p : RelayPhase},
    Served s r.stopDeadline (r.need agentErrorBody p) inp a channel es →
    r.resume s.now p a = some n → Move s r p inp n.at_ channel es
  | .top, .go, hr => by
      simp only [Relay.resume] at hr
      split at hr
      · rename_i deadline hd
        split_ifs at hr with hlate
        · cases hr
          exact .expired hd hlate
        · cases hr
          refine .turn fun deadline' hd' => ?_
          cases hd.symm.trans hd'
          exact Nat.not_le.mp hlate
      · rename_i hd
        cases hr
        exact .turn fun deadline' hd' => nomatch hd.symm.trans hd'
  | .stopTimeoutWrite, .wrote, hr => by cases hr; exact .reported
  | .stopTimeoutWrite, .failed, hr => by cases hr; exact .returned
  | .read, .read .eof, hr => by cases hr; exact .work rfl rfl nofun
  | .read, .read (.data bytes), hr => by cases hr; exact .work rfl rfl nofun
  | .read, .read .timeout, hr => by cases hr; exact .work rfl rfl nofun
  | .read, .read .error, hr => by cases hr; exact .work rfl rfl nofun
  | .frames, .go, hr => by
      simp only [Relay.resume] at hr
      split at hr
      · cases hr; exact .work rfl rfl nofun
      · cases hr
        refine .work rfl rfl ?_
        split_ifs <;> exact nofun
  | .forwardStop, .forward ok, hr => by
      cases ok
      · cases hr; exact .returned
      · cases hr; exact .work rfl rfl nofun
  | .eofForward, .forward ok, hr => by
      cases ok
      · cases hr; exact .returned
      · cases hr; exact .work rfl rfl nofun
  | .recv _, .received h, hr => by cases hr; exact .received h
  | .recv _, .timeout, hr => by cases hr; exact .work rfl rfl nofun
  | .write f, .wrote, hr => by cases hr; exact .relayed
  | .write f, .failed, hr => by cases hr; exact .returned
  | .unregister false, .unregister, hr => by cases hr; exact .returned
  | .unregister true, .unregister, hr => by cases hr; exact .returned

theorem clientStep_move {p : RelayPhase} {inp : ClientInput}
    (h : s.clientStep r p inp = some (s', es)) :
    ∃ at_ channel, Move s r p inp at_ channel es ∧
      s' = { s with at_, since := s.now, channel } := by
  unfold clientStep at h
  split at h
  · exact nomatch h
  · rename_i a channel es₁ hs
    split at h
    · exact nomatch h
    · rename_i n hr
      cases h
      exact ⟨_, _, relay_move (serve_cases hs) hr, rfl⟩

end Moves

/-! ## The channel and the deadline -/

/-- A frame that the relay has taken out of the channel. -/
def taken : RelayPhase → Frame → Prop
  | .write f, g => g = f
  | .unregister _, _ => True
  | _, _ => False

/-- While the relay goes on, every STREAM_STOP that was delivered is in its channel
or in its hands. -/
structure Inv (dev : Ticket) (s : Relaying) (es : List Event) : Prop where
  dev_eq : ∀ r p, s.at_ = some (r, p) → r.dev = dev
  delivered : ∀ x ∈ s.channel, .delivered x.1 x.2 ∈ es
  queued : ∀ r p, s.at_ = some (r, p) → ∀ x, .delivered x.1 x.2 ∈ es → x.2.typ = .streamStop →
    x ∈ s.channel ∨ taken p x.2

/-- When the relay has found the stop overdue, the deadline has come and no
confirmation is in the channel. -/
def Overdue (dev : Ticket) (s : Relaying) : Prop :=
  ∀ r, s.at_ = some (r, .stopTimeoutWrite) → ∃ deadline, r.stopDeadline = some deadline ∧
    deadline ≤ s.now ∧ ∀ x ∈ s.channel, ¬Confirms dev deadline x

section Step

variable {dev : Ticket} {s s' : Relaying} {es es' : List Event}

theorem Inv.start (clientSeq : UInt16) (dev : Ticket) (now : Nat) :
    Inv dev (start clientSeq dev now) [] where
  dev_eq r p h := by
    cases h
    rfl
  delivered _ hx := nomatch hx
  queued _ _ _ _ hx := nomatch hx

namespace Move

variable {r r' : Relay} {p p' : RelayPhase} {inp : ClientInput} {channel : List (Nat × Frame)}
  {at_ : Option (Relay × RelayPhase)}

theorem not_delivered (hm : Move s r p inp at_ channel es) (x : Nat × Frame) :
    .delivered x.1 x.2 ∉ es := by
  cases hm with
  | reported | relayed => exact fun hx => nomatch List.mem_singleton.mp hx
  | _ => exact fun hx => nomatch hx

theorem dev_eq (hm : Move s r p inp (some (r', p')) channel es) : r'.dev = r.dev := by
  cases hm with
  | work _ hdev => exact hdev
  | _ => rfl

theorem subset (hm : Move s r p inp at_ channel es) : ∀ x ∈ channel, x ∈ s.channel := by
  cases hm with
  | received hc => exact fun x hx => hc ▸ List.mem_cons_of_mem _ hx
  | _ => exact fun _ hx => hx

/-- A STREAM_STOP that is relayed is the last of the relay. -/
theorem queued (hm : Move s r p inp (some (r', p')) channel es) {x : Nat × Frame}
    (ht : x.2.typ = .streamStop) (hx : x ∈ s.channel ∨ taken p x.2) :
    x ∈ channel ∨ taken p' x.2 := by
  cases hm with
  | expired | turn => exact .inl (hx.resolve_right id)
  | reported => exact .inr trivial
  | work hp =>
      refine .inl (hx.resolve_right ?_)
      cases p <;> first | exact id | exact nomatch hp
  | received hc =>
      rw [hc] at hx
      rcases List.mem_cons.mp (hx.resolve_right id) with rfl | hx
      · exact .inr rfl
      · exact .inl hx
  | relayed =>
      rcases hx with hx | hx
      · exact .inl hx
      · refine .inr ?_
        rw [if_pos (hx ▸ ht)]
        trivial

theorem overdue (hm : Move s r p inp (some (r', .stopTimeoutWrite)) channel es) :
    p = .top ∧ inp = .go ∧ r' = r ∧ channel = s.channel ∧
      ∃ deadline, r.stopDeadline = some deadline ∧ deadline ≤ s.now := by
  generalize hp' : RelayPhase.stopTimeoutWrite = p' at hm
  cases hm with
  | expired hd hlate => exact ⟨rfl, rfl, rfl, rfl, _, hd, hlate⟩
  | turn | reported | received => exact nomatch hp'
  | work _ _ hne => exact absurd hp'.symm hne
  | relayed => split_ifs at hp'

end Move

theorem Inv.move (h : Inv dev s es) {r : Relay} {p : RelayPhase} {inp : ClientInput}
    (hat : s.at_ = some (r, p)) {at_ : Option (Relay × RelayPhase)} {channel : List (Nat × Frame)}
    {since : Nat} (hm : Move s r p inp at_ channel es') :
    Inv dev { s with at_, since, channel } (es ++ es') where
  dev_eq r' p' h' := by
    cases h'
    exact hm.dev_eq.trans (h.dev_eq r p hat)
  delivered x hx := List.mem_append_left _ (h.delivered x (hm.subset x hx))
  queued r' p' h' x hx ht := by
    cases h'
    exact hm.queued ht (h.queued r p hat x
      ((List.mem_append.mp hx).resolve_right (hm.not_delivered x)) ht)

theorem Inv.step (h : Inv dev s es) : ∀ {l : Label}, step s l = some (s', es') →
    Inv dev s' (es ++ es')
  | .deliver f, hs => by
      cases hs
      refine ⟨h.dev_eq, fun x hx => ?_, fun r p hat x hx ht => ?_⟩
      · rcases List.mem_append.mp hx with hx | hx
        · exact List.mem_append_left _ (h.delivered x hx)
        · cases List.mem_singleton.mp hx
          exact List.mem_append_right _ (List.mem_singleton_self _)
      · rcases List.mem_append.mp hx with hx | hx
        · exact (h.queued r p hat x hx ht).imp_left (List.mem_append_left _)
        · refine .inl (List.mem_append_right _ (List.mem_singleton.mpr ?_))
          exact Prod.ext (Event.delivered.inj (List.mem_singleton.mp hx)).1
            (Event.delivered.inj (List.mem_singleton.mp hx)).2
  | .wait ms, hs => by
      simp only [Relaying.step] at hs
      split_ifs at hs
      cases hs
      rw [List.append_nil]
      exact ⟨h.dev_eq, h.delivered, h.queued⟩
  | .client inp, hs => by
      simp only [Relaying.step] at hs
      split at hs
      · rename_i r p hat
        obtain ⟨at_, channel, hm, rfl⟩ := clientStep_move hs
        exact h.move hat hm
      · exact nomatch hs

/-- A turn that begins in time does not find the stop overdue with a confirmation
in the channel. -/
theorem Overdue.step (hinv : Inv dev s es) (h : Overdue dev s) : ∀ {l : Label}, Timely s l →
    step s l = some (s', es') → Overdue dev s'
  | .deliver f, _, hs => by
      cases hs
      intro r hat
      obtain ⟨deadline, hd, hlate, hnone⟩ := h r hat
      refine ⟨deadline, hd, hlate, fun x hx => ?_⟩
      rcases List.mem_append.mp hx with hx | hx
      · exact hnone x hx
      · cases List.mem_singleton.mp hx
        exact fun hc => Nat.not_lt.mpr hlate hc.2.2
  | .wait ms, _, hs => by
      simp only [Relaying.step] at hs
      split_ifs at hs
      cases hs
      intro r hat
      obtain ⟨deadline, hd, hlate, hnone⟩ := h r hat
      exact ⟨deadline, hd, Nat.le_add_right_of_le hlate, hnone⟩
  | .client inp, htimely, hs => by
      simp only [Relaying.step] at hs
      split at hs
      · rename_i r p hat
        obtain ⟨at_, channel, hm, rfl⟩ := clientStep_move hs
        intro r' hat'
        cases hat'
        obtain ⟨rfl, rfl, rfl, rfl, deadline, hd, hlate⟩ := hm.overdue
        refine ⟨deadline, hd, hlate, fun x hx hc => Nat.not_lt.mpr hlate ?_⟩
        exact htimely _ hat rfl rfl deadline hd ⟨x, hx, (hinv.dev_eq _ _ hat).symm ▸ hc⟩
      · exact nomatch hs

/-- What a timely step writes is honest. -/
theorem honest_step (hinv : Inv dev s es) (h : Overdue dev s) : ∀ {l : Label},
    step s l = some (s', es') → Machine.Each (fun before => Honest dev (es ++ before)) es'
  | .deliver f, hs => by
      cases hs
      exact Machine.each_singleton.mpr trivial
  | .wait ms, hs => by
      simp only [Relaying.step] at hs
      split_ifs at hs
      cases hs
      exact Machine.each_nil
  | .client inp, hs => by
      simp only [Relaying.step] at hs
      split at hs
      · rename_i r p hat
        obtain ⟨at_, channel, hm, rfl⟩ := clientStep_move hs
        cases hm with
        | reported =>
            rw [Machine.each_singleton, List.append_nil]
            obtain ⟨deadline, hd, -, hnone⟩ := h r hat
            refine ⟨deadline, hd, fun x hx hc => ?_⟩
            exact hnone x ((hinv.queued r _ hat x hx hc.1).resolve_right id) hc
        | relayed => exact Machine.each_singleton.mpr trivial
        | _ => exact Machine.each_nil
      · exact nomatch hs

end Step

theorem step_check {s : Relaying} {r : Relay} {deadline : Nat} (hat : s.at_ = some (r, .top))
    (hd : r.stopDeadline = some deadline) (hlate : deadline ≤ s.now) :
    machine.step s (.client .go)
      = some ({ s with at_ := some (r, .stopTimeoutWrite), since := s.now }, []) := by
  show step s (.client .go) = _
  simp only [step, hat, clientStep, Relay.need, serve, Relay.resume, hd, ge_iff_le, if_pos hlate,
    Next.at_]

theorem step_report {s : Relaying} {r : Relay} (hat : s.at_ = some (r, .stopTimeoutWrite)) :
    machine.step s (.client (.wrote true))
      = some ({ s with at_ := some (r, .unregister false), since := s.now },
          [.wrote (.stopTimeout r.dev) r.stopDeadline]) := by
  show step s (.client (.wrote true)) = _
  have hfits : (agentErrorBody errInternal "device timeout waiting for stream stop").length
      ≤ 0xFFFF := by decide
  simp only [step, hat, clientStep, Relay.need, serve, frameBytes_eq _ _ _ hfits, Relay.resume,
    Next.at_, if_true]

/-- Where the guard fails, the stop is overdue with a confirmation in the channel, and
the ERROR is written. -/
theorem reported_of_not_timely {s : Relaying} {l : Label} (h : ¬Timely s l) :
    ∃ r deadline s', s.at_ = some (r, .top) ∧ (∃ x ∈ s.channel, Confirms r.dev deadline x) ∧
      machine.run s [.client .go, .client (.wrote true)]
        = some (s', [.wrote (.stopTimeout r.dev) (some deadline)]) := by
  simp only [Timely, not_forall] at h
  obtain ⟨⟨r, p⟩, hat, -, hp, deadline, hd, hx, hlate⟩ := h
  cases hp
  have hcheck := step_check hat hd (Nat.not_lt.mp hlate)
  have hreport := step_report (r := r)
    (s := { s with at_ := some (r, .stopTimeoutWrite), since := s.now }) rfl
  rw [hd] at hreport
  exact ⟨r, deadline, _, hat, hx, Machine.run_step hcheck (Machine.run_step hreport rfl)⟩

theorem not_honest_of_not_timely {clientSeq : UInt16} {dev : Ticket} {now : Nat} {ls : List Label}
    {s : Relaying} {l : Label} {es : List Event}
    (hrun : machine.run (start clientSeq dev now) ls = some (s, es)) (h : ¬Timely s l) :
    ∃ s' es', machine.run (start clientSeq dev now) (ls ++ [.client .go, .client (.wrote true)])
      = some (s', es') ∧ ¬Machine.Each (Honest dev) es' := by
  have hinv : Inv dev s es :=
    Machine.run_events (P := Inv dev) (fun h hs => h.step hs) (.start clientSeq dev now) hrun
  obtain ⟨r, deadline, s', hat, ⟨x, hx, hc⟩, hreport⟩ := reported_of_not_timely h
  refine ⟨s', _, Machine.run_append hrun hreport, fun heach => ?_⟩
  obtain ⟨deadline', hd, hnone⟩ := heach es _ [] rfl
  cases hd
  exact hnone x (hinv.delivered x hx) (hinv.dev_eq r _ hat ▸ hc)

/-- **A confirmed stop and the device timeout.**  In a run whose turns are timely, the
relay reports "device timeout waiting for stream stop" only if no STREAM_STOP for its
device seq was delivered before the stop deadline.  A run with a turn that is not gets
there, and then the ERROR is written with the confirmation in the channel. -/
theorem stop_reported {clientSeq : UInt16} {dev : Ticket} {now : Nat} {ls : List Label}
    {s : Relaying} {es : List Event}
    (hrun : machine.run (start clientSeq dev now) ls = some (s, es)) :
    (machine.Guarded Timely (start clientSeq dev now) ls → Machine.Each (Honest dev) es) ∧
    (¬machine.Guarded Timely (start clientSeq dev now) ls →
      ∃ ls₁ s₁ es₁, ls₁ <+: ls ∧
        machine.run (start clientSeq dev now) (ls₁ ++ [.client .go, .client (.wrote true)])
          = some (s₁, es₁) ∧ ¬Machine.Each (Honest dev) es₁) := by
  constructor
  · intro hguard
    have hinv : Inv dev s es ∧ Overdue dev s ∧ Machine.Each (Honest dev) es := by
      refine Machine.run_guarded_events
        (P := fun s es => Inv dev s es ∧ Overdue dev s ∧ Machine.Each (Honest dev) es)
        (fun h hg hs => ?_) ⟨.start clientSeq dev now, ?_, Machine.each_nil⟩ hguard hrun
      · obtain ⟨hinv, hover, heach⟩ := h
        exact ⟨hinv.step hs, hover.step hinv hg hs,
          Machine.each_append.mpr ⟨heach, honest_step hinv hover hs⟩⟩
      · intro r hat
        exact nomatch (Prod.mk.inj (Option.some.inj hat)).2
    exact hinv.2.2
  · intro hguard
    obtain ⟨ls₁, l, ls₂, s₁, es₁, rfl, hrun₁, hnot⟩ := Machine.exists_of_not_guarded hrun hguard
    obtain ⟨s₂, es₂, hrun₂, hdishonest⟩ := not_honest_of_not_timely hrun₁ hnot
    exact ⟨ls₁, s₂, es₂, List.prefix_append _ _, hrun₂, hdishonest⟩

/-! ## A long capture -/

/-- A turn in which the client says nothing. -/
def idleTurn : List Label :=
  [.client .go, .wait clientReadTimeout, .client (.read .timeout), .client .go,
    .client (.wrote true)]

/-- An idle turn relays one frame, and takes as long as the read. -/
theorem run_idleTurn {r : Relay} {now since t : Nat} {f : Frame} {rest : List (Nat × Frame)}
    (htime : ∀ deadline, r.stopDeadline = some deadline → now < deadline)
    (ht : f.typ ≠ .streamStop) (hfits : f.payload.length ≤ 0xFFFF) :
    machine.run ⟨some (r, .top), now, since, (t, f) :: rest⟩ idleTurn
      = some (⟨some (r, .top), now + 50, now + 50, rest⟩,
          [.wrote (.device r.dev f) r.stopDeadline]) := by
  have hcheck : machine.step ⟨some (r, .top), now, since, (t, f) :: rest⟩ (.client .go)
      = some (⟨some (r, .read), now, now, (t, f) :: rest⟩, []) := by
    simp only [machine, step, clientStep, Relay.need, serve, Relay.resume]
    cases hd : r.stopDeadline with
    | none => rfl
    | some deadline =>
        simp only [ge_iff_le, if_neg (Nat.not_le.mpr (htime deadline hd)), Next.at_]
  have hwait : machine.step ⟨some (r, .read), now, now, (t, f) :: rest⟩ (.wait clientReadTimeout)
      = some (⟨some (r, .read), now + 50, now, (t, f) :: rest⟩, []) := by
    simp only [machine, step, mayWait, clientReadTimeout, Nat.le_refl, decide_true, if_true]
  have hread : machine.step ⟨some (r, .read), now + 50, now, (t, f) :: rest⟩
        (.client (.read .timeout))
      = some (⟨some (r, .recv (now + 50 + relayRecvTimeout)), now + 50, now + 50, (t, f) :: rest⟩,
          []) := rfl
  have hrecv : machine.step ⟨some (r, .recv (now + 50 + relayRecvTimeout)), now + 50, now + 50,
        (t, f) :: rest⟩ (.client .go)
      = some (⟨some (r, .write f), now + 50, now + 50, rest⟩, []) := rfl
  have hwrite : machine.step ⟨some (r, .write f), now + 50, now + 50, rest⟩ (.client (.wrote true))
      = some (⟨some (r, .top), now + 50, now + 50, rest⟩,
          [.wrote (.device r.dev f) r.stopDeadline]) := by
    simp only [machine, step, clientStep, Relay.need, serve, frameBytes_eq _ _ _ hfits,
      Relay.resume, Next.at_, if_true, if_neg ht]
  exact Machine.run_step hcheck (Machine.run_step hwait (Machine.run_step hread
    (Machine.run_step hrecv (Machine.run_step hwrite rfl))))

/-- Idle turns relay the queue one frame after the other, as long as each begins
before the deadline. -/
theorem run_idleTurns {r : Relay} {t : Nat} {f : Frame} {rest : List (Nat × Frame)}
    (ht : f.typ ≠ .streamStop) (hfits : f.payload.length ≤ 0xFFFF) :
    ∀ {n now since : Nat}, (∀ deadline, r.stopDeadline = some deadline → now + 50 * n ≤ deadline) →
      ∃ s es, machine.run ⟨some (r, .top), now, since, List.replicate n (t, f) ++ rest⟩
          (List.replicate n idleTurn).flatten = some (s, es) ∧
        s.at_ = some (r, .top) ∧ s.now = now + 50 * n ∧ s.channel = rest
  | 0, now, since, _ => ⟨⟨some (r, .top), now, since, rest⟩, [], rfl, rfl, rfl, rfl⟩
  | n + 1, now, since, htime => by
      have hnow : ∀ deadline, r.stopDeadline = some deadline → now < deadline :=
        fun deadline hd => by have := htime deadline hd; omega
      have hlater : ∀ deadline, r.stopDeadline = some deadline → now + 50 + 50 * n ≤ deadline :=
        fun deadline hd => by have := htime deadline hd; omega
      have hturn := @run_idleTurn r now since t f (List.replicate n (t, f) ++ rest) hnow ht hfits
      obtain ⟨s, es, hrun, hat, hnow, hchannel⟩ :=
        @run_idleTurns r t f rest ht hfits n (now + 50) (now + 50) hlater
      exact ⟨s, _, Machine.run_append hturn hrun, hat, by omega, hchannel⟩

theorem run_deliver (s : Relaying) (f : Frame) : ∀ n : Nat,
    machine.run s (List.replicate n (.deliver f))
      = some ({ s with channel := s.channel ++ List.replicate n (s.now, f) },
          List.replicate n (.delivered s.now f))
  | 0 => by
      rw [List.replicate_zero, List.replicate_zero, List.append_nil]
      rfl
  | n + 1 => by
      have hs : machine.step s (.deliver f)
          = some ({ s with channel := s.channel ++ [(s.now, f)] }, [.delivered s.now f]) := rfl
      have hrun := run_deliver { s with channel := s.channel ++ [(s.now, f)] } f n
      rw [List.append_assoc] at hrun
      exact Machine.run_step hs hrun

namespace LongCapture

def data : Frame := { typ := .streamData, flags := 0, seq := 7, payload := [0x30, 2, 0, 0] }

def confirmation : Frame :=
  { typ := .streamStop, flags := 0, seq := 7, payload := streamStopBody 0 }

def asksToStop : Frame := { typ := .streamStop, flags := 0, seq := 1, payload := [] }

/-- The client asks to stop, and one device frame is relayed. -/
def stopTurn : List Label :=
  [.client .go, .client (.read (.data asksToStop.wire)), .client .go, .client .go, .client .go,
    .client .go, .client (.wrote true)]

/-- The device has sent 61 batches when the client asks to stop, and confirms at once. -/
def labels : List Label :=
  List.replicate 61 (.deliver data) ++ (stopTurn ++ (.deliver confirmation ::
    ((List.replicate 60 idleTurn).flatten ++ [.client .go, .client (.wrote true)])))

def relay (stopDeadline : Option Nat) : Relay :=
  { clientSeq := 1, dev := ⟨7, 0⟩, reader := .new, stopDeadline }

theorem run_stopTurn (rest : List (Nat × Frame)) :
    machine.run ⟨some (relay none, .top), 0, 0, (0, data) :: rest⟩ stopTurn
      = some (⟨some (relay (some 3000), .top), 0, 0, rest⟩,
          [.wrote (.device ⟨7, 0⟩ data) (some 3000)]) := by
  let fed : Relay := { relay none with reader := ⟨asksToStop.wire⟩ }
  have htake : FrameReader.nextFrame ⟨asksToStop.wire⟩ = (some asksToStop, .new) := by
    have := FrameReader.nextFrame_wire (f := asksToStop) (by decide) []
    rwa [List.append_nil] at this
  have hcheck : machine.step ⟨some (relay none, .top), 0, 0, (0, data) :: rest⟩ (.client .go)
      = some (⟨some (relay none, .read), 0, 0, (0, data) :: rest⟩, []) := rfl
  have hread : machine.step ⟨some (relay none, .read), 0, 0, (0, data) :: rest⟩
        (.client (.read (.data asksToStop.wire)))
      = some (⟨some (fed, .frames), 0, 0, (0, data) :: rest⟩, []) := rfl
  have hframe : machine.step ⟨some (fed, .frames), 0, 0, (0, data) :: rest⟩ (.client .go)
      = some (⟨some (relay none, .forwardStop), 0, 0, (0, data) :: rest⟩, []) := by
    simp only [machine, step, clientStep, Relay.need, serve, Relay.resume, fed, htake]
    rfl
  have hforward : machine.step ⟨some (relay none, .forwardStop), 0, 0, (0, data) :: rest⟩
        (.client .go)
      = some (⟨some (relay (some 3000), .frames), 0, 0, (0, data) :: rest⟩, []) := by
    simp only [machine, step, clientStep, Relay.need, serve,
      frameBytes_eq _ _ _ (show ([] : List UInt8).length ≤ 0xFFFF by decide), Relay.resume]
    rfl
  have hnone : machine.step ⟨some (relay (some 3000), .frames), 0, 0, (0, data) :: rest⟩
        (.client .go)
      = some (⟨some (relay (some 3000), .recv relayRecvTimeout), 0, 0, (0, data) :: rest⟩, []) :=
    rfl
  have hrecv : machine.step ⟨some (relay (some 3000), .recv relayRecvTimeout), 0, 0,
        (0, data) :: rest⟩ (.client .go)
      = some (⟨some (relay (some 3000), .write data), 0, 0, rest⟩, []) := rfl
  have hwrite : machine.step ⟨some (relay (some 3000), .write data), 0, 0, rest⟩
        (.client (.wrote true))
      = some (⟨some (relay (some 3000), .top), 0, 0, rest⟩,
          [.wrote (.device ⟨7, 0⟩ data) (some 3000)]) := by
    simp only [machine, step, clientStep, Relay.need, serve,
      frameBytes_eq _ _ _ (show data.payload.length ≤ 0xFFFF by decide), Relay.resume]
    rfl
  exact Machine.run_step hcheck (Machine.run_step hread (Machine.run_step hframe
    (Machine.run_step hforward (Machine.run_step hnone (Machine.run_step hrecv
    (Machine.run_step hwrite rfl))))))

/-- A stop that is confirmed in time. -/
theorem stop_reported_relayed :
    let ls := .deliver data :: stopTurn ++ .deliver confirmation :: idleTurn
    ∃ s es, machine.run (start 1 ⟨7, 0⟩ 0) ls = some (s, es) ∧
      .wrote (.device ⟨7, 0⟩ confirmation) (some 3000) ∈ es ∧ Machine.Each (Honest ⟨7, 0⟩) es := by
  intro ls
  have hes : (machine.run (start 1 ⟨7, 0⟩ 0) ls).map Prod.snd
      = some [.delivered 0 data, .wrote (.device ⟨7, 0⟩ data) (some 3000),
          .delivered 0 confirmation, .wrote (.device ⟨7, 0⟩ confirmation) (some 3000)] := by
    decide +kernel
  obtain ⟨⟨s, es⟩, hrun, rfl⟩ := Option.map_eq_some_iff.mp hes
  exact ⟨s, _, hrun, by decide, (stop_reported hrun).1 (by decide +kernel)⟩

/-- The 61 batches take the three seconds, and the confirmation behind them is reported
as a timeout of the device. -/
theorem stop_reported_late :
    ∃ s es, machine.run (start 1 ⟨7, 0⟩ 0) labels = some (s, es) ∧
      ¬Machine.Each (Honest ⟨7, 0⟩) es := by
  have hdeliver := run_deliver (start 1 ⟨7, 0⟩ 0) data 61
  have hstop := run_stopTurn (List.replicate 60 (0, data))
  have hconfirm : machine.step ⟨some (relay (some 3000), .top), 0, 0, List.replicate 60 (0, data)⟩
        (.deliver confirmation)
      = some (⟨some (relay (some 3000), .top), 0, 0,
          List.replicate 60 (0, data) ++ [(0, confirmation)]⟩, [.delivered 0 confirmation]) := rfl
  obtain ⟨s, es, hturns, hat, hnow, hchannel⟩ :=
    @run_idleTurns (relay (some 3000)) 0 data [(0, confirmation)] (by decide) (by decide) 60 0 0
      (fun deadline hd => by cases hd; decide)
  have hlate : ¬Timely s (.client .go) := by
    intro h
    have := h _ hat rfl rfl 3000 rfl
      ⟨(0, confirmation), hchannel ▸ List.mem_singleton_self _, rfl, rfl, by decide⟩
    omega
  have hrun := Machine.run_append hdeliver (Machine.run_append hstop
    (Machine.run_step hconfirm hturns))
  obtain ⟨s', es', hrun', hdishonest⟩ := not_honest_of_not_timely hrun hlate
  refine ⟨s', es', ?_, hdishonest⟩
  rw [← hrun', labels]
  simp only [List.append_assoc, List.cons_append]

end LongCapture

end Relaying

end FlipLink.Daemon
