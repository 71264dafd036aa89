/-
# `FlipLink.Daemon.Cleanup` — what a request leaves behind

When a thread is done with a request, its route should be gone and the device
should not be left capturing for it: either its final STREAM_STOP was received,
or a STREAM_STOP has been queued (`Settled`).

There are exits that leave something behind: a failed write of the STREAM_START,
of a relayed frame or of the stop timeout returns with the route in place; a
failed read in the relay, and a STREAM_START that comes when nobody waits for it,
leave the device capturing.  `Orderly` excludes these, and `settled` shows that
there are no others.

    a stream the device has started is stopped, or live, which is to say
      START is on its way to the thread that waits        (`StartNext`)
      or the thread streams, and every exit goes by STOP  (`Streaming`)

`orphaned_stream` is a run where the client hangs up at the wrong moment.
-/
import FlipLink.Daemon.Correlation

namespace FlipLink.Daemon

open Lib

variable {eb : UInt32 → String → List UInt8}

/-! ## Registrations -/

theorem OwnerMove.history {s s₁ : State} {o o' : Owner} {es : List Event}
    (h : OwnerMove s o s₁ o' es) : (∀ i d, .registered i d ∉ es) ∧ s₁.holder = s.holder := by
  cases h with
  | see | lookup => exact ⟨by simp, (mark_frame s _).2.2.2.2.2⟩
  | _ => exact ⟨by simp, rfl⟩

/-- What a step does to the registrations: nothing but drop a route, or add one. -/
theorem Moved.registry {s s' : State} {l : Label} {es : List Event} (h : Moved s l s' es) :
    ((∀ i d, .registered i d ∉ es) ∧ s'.registered = s.registered ∧ s'.holder = s.holder ∧
      ∀ q r, s'.router.routes q = some r → s.router.routes q = some r) ∨
    ∃ i, es = [.registered i ⟨s.router.nextSeq, s.registered⟩] ∧
      s'.registered = s.registered + 1 ∧
      s'.holder = Function.update s.holder s.router.nextSeq (some ⟨i, s.registered⟩) ∧
      s'.router.routes
        = Function.update s.router.routes s.router.nextSeq (some ⟨i, s.registered⟩) := by
  cases h with
  | tick => exact .inl ⟨fun _ _ => List.not_mem_nil, rfl, rfl, fun _ _ => id⟩
  | owner hm =>
      obtain ⟨-, hn, hr, -⟩ := hm.frame
      exact .inl ⟨hm.history.1, hn, hm.history.2, fun _ _ h => hr ▸ h⟩
  | @client i _ s₁ t _ hm =>
      generalize (s.threads i).phase = p, t.phase = p' at hm
      cases hm with
      | register => exact .inr ⟨i, rfl, rfl, rfl, rfl⟩
      | replyUnregister | timeoutUnregister | back =>
          exact .inl ⟨by simp, rfl, rfl, fun q r h => (Router.unregister_some _ _ _ h).2⟩
      | _ => exact .inl ⟨by simp, rfl, rfl, fun _ _ => id⟩

structure Registry (s : State) (es : List Event) : Prop where
  lt : ∀ {i d}, .registered i d ∈ es → d.id < s.registered
  unique : ∀ {i j d e}, .registered i d ∈ es → .registered j e ∈ es → d.id = e.id → i = j ∧ d = e
  holder : ∀ {q r}, s.holder q = some r → .registered r.client ⟨q, r.id⟩ ∈ es
  latest : ∀ {i d}, .registered i d ∈ es → ∃ r, s.holder d.seq = some r ∧ d.id ≤ r.id
  route : ∀ {q r}, s.router.routes q = some r → s.holder q = some r

theorem Registry.initial : Registry .initial [] where
  lt := nofun
  unique := nofun
  holder := nofun
  latest := nofun
  route := nofun

theorem Registry.moved {s s' : State} {l : Label} {es es' : List Event} (h : Registry s es)
    (hm : Moved s l s' es') : Registry s' (es ++ es') := by
  rcases hm.registry with ⟨hno, hn, hh, hr⟩ | ⟨i, rfl, hn, hh, hr⟩
  · have hold : ∀ {i d}, .registered i d ∈ es ++ es' → .registered i d ∈ es := fun hd =>
      (List.mem_append.mp hd).resolve_right (hno _ _)
    refine ⟨fun hd => hn ▸ h.lt (hold hd), fun hd he => h.unique (hold hd) (hold he), ?_, ?_, ?_⟩
    · exact fun hq => List.mem_append_left _ (h.holder (hh ▸ hq))
    · exact fun hd => hh ▸ h.latest (hold hd)
    · exact fun hq => hh ▸ h.route (hr _ _ hq)
  · have hold : ∀ {j d}, .registered j d ∈ es ++ [.registered i ⟨s.router.nextSeq, s.registered⟩] →
        .registered j d ∈ es ∨ (j = i ∧ d = ⟨s.router.nextSeq, s.registered⟩) := by
      intro j d hd
      rcases List.mem_append.mp hd with hd | hd
      · exact .inl hd
      · cases List.mem_singleton.mp hd
        exact .inr ⟨rfl, rfl⟩
    refine ⟨?_, ?_, ?_, ?_, ?_⟩
    · intro j d hd
      rw [hn]
      rcases hold hd with hd | ⟨-, rfl⟩
      · exact Nat.lt_succ_of_lt (h.lt hd)
      · exact Nat.lt_succ_self _
    · intro j k d e hd he hde
      rcases hold hd with hd' | ⟨rfl, rfl⟩ <;> rcases hold he with he' | ⟨rfl, rfl⟩
      · exact h.unique hd' he' hde
      · exact absurd hde (Nat.ne_of_lt (h.lt hd'))
      · exact absurd hde.symm (Nat.ne_of_lt (h.lt he'))
      · exact ⟨rfl, rfl⟩
    · intro q r hq
      rw [hh] at hq
      rcases eq_or_ne q s.router.nextSeq with rfl | hne
      · rw [Function.update_self] at hq
        cases hq
        exact List.mem_append_right _ (List.mem_singleton_self _)
      · rw [Function.update_of_ne hne] at hq
        exact List.mem_append_left _ (h.holder hq)
    · intro j d hd
      rw [hh]
      rcases eq_or_ne d.seq s.router.nextSeq with hq | hne
      · rw [hq, Function.update_self]
        refine ⟨_, rfl, ?_⟩
        rcases hold hd with hd | ⟨-, rfl⟩
        · exact Nat.le_of_lt (h.lt hd)
        · exact Nat.le_refl _
      · rw [Function.update_of_ne hne]
        rcases hold hd with hd | ⟨-, rfl⟩
        · exact h.latest hd
        · exact absurd rfl hne
    · intro q r hq
      rw [hr] at hq
      rw [hh]
      rcases eq_or_ne q s.router.nextSeq with rfl | hne
      · rwa [Function.update_self] at hq ⊢
      · rw [Function.update_of_ne hne] at hq ⊢
        exact h.route hq

/-! ## Steps that leave nothing behind -/

/-- The thread is about to write what a stream depends on: the STREAM_START, a
relayed frame, or that the stop has timed out. -/
def Phase.streamWrite : Phase → Bool
  | .startWrite .. | .relay _ .stopTimeoutWrite | .relay _ (.write _) => true
  | _ => false

/-- The request whose first reply the thread waits for, or is about to. -/
def Phase.waits : Phase → Option Ticket
  | .forward _ d | .await _ d _ => some d
  | _ => none

/-- The request of a relay that reads its client, which has not asked to stop. -/
def Phase.unstopped : Phase → Option Ticket
  | .relay r .read => if r.stopDeadline = none then some r.dev else none
  | _ => none

/-- The client that the owner is about to send a STREAM_START. -/
def Owner.starting (o : Owner) : Option Nat :=
  match o.sending with
  | some (f, some r) => if f.typ = .streamStart then some r.client else none
  | _ => none

/-- The frame will go to the thread of the registration, which waits for its first
reply and has received nothing. -/
def Awaited (s : State) (f : Frame) (r : Route) : Prop :=
  s.router.lookup f = some r ∧ (s.threads r.client).phase.waits = some ⟨f.seq, r.id⟩ ∧
    s.channels r.client = []

instance (s : State) (f : Frame) (r : Route) : Decidable (Awaited s f r) :=
  inferInstanceAs (Decidable (_ ∧ _ ∧ _))

/-- The write a stream depends on succeeds; a relay's read fails only after the
client has asked to stop; the wait for the first reply does not end while a
STREAM_START is being sent to the thread; and the first STREAM_START that comes
for a registration comes to the pump, for a thread that waits for it. -/
def Orderly (s : State) : Label → Prop
  | .client i (.wrote ok) => (s.threads i).phase.streamWrite = true → ok = true
  | .client i (.read r) =>
      r = .error → ∀ d ∈ (s.threads i).phase.unstopped, s.started d.id = false
  | .client i .timeout => (s.threads i).phase.waits ≠ none → s.owner.starting ≠ some i
  | .owner _ =>
      ∀ x ∈ s.owner.arriving, x.1.typ = .streamStart →
        ∀ r ∈ s.holder x.1.seq, s.started r.id = false → x.2 = true ∧ Awaited s x.1 r
  | .client _ .go | .tick _ => True

instance : ∀ (s : State) (l : Label), Decidable (Orderly s l)
  | s, .client i (.wrote ok) =>
      inferInstanceAs (Decidable ((s.threads i).phase.streamWrite = true → ok = true))
  | s, .client i (.read r) =>
      inferInstanceAs (Decidable (r = .error → ∀ d ∈ (s.threads i).phase.unstopped, _))
  | s, .client i .timeout =>
      inferInstanceAs (Decidable ((s.threads i).phase.waits ≠ none → s.owner.starting ≠ some i))
  | s, .owner _ => inferInstanceAs (Decidable (∀ x ∈ s.owner.arriving, _))
  | _, .client _ .go | _, .tick _ => .isTrue trivial

theorem Orderly.write {s : State} {i : Nat} :
    ∀ {inp : ClientInput}, Orderly s (.client i inp) → inp = .wrote false →
      (s.threads i).phase.streamWrite = false
  | _, hg, rfl => Bool.eq_false_iff.mpr fun h => nomatch hg h

/-! ## Routes -/

/-- The request whose route the thread has to drop. -/
def Phase.routed : Phase → Option Ticket
  | .forward _ d | .await _ d _ | .replyUnregister _ d _ | .timeoutUnregister _ d
  | .startWrite _ d _ => some d
  | .relay r _ => some r.dev
  | _ => none

theorem Phase.ticket_of_routed {d : Ticket} :
    ∀ {p : Phase}, p.routed = some d → p.ticket = some d
  | .forward .., h | .await .., h | .replyUnregister .., h | .timeoutUnregister .., h
  | .startWrite .., h | .relay .., h => h

/-- Every route is the route of a request in hand, and its thread has to drop it. -/
def Kept (s : State) : Prop :=
  ∀ q r, s.router.routes q = some r → (s.threads r.client).phase.routed = some ⟨q, r.id⟩

section Routes

variable {s s₁ : State} {i : Nat} {inp : ClientInput} {p p' : Phase} {es : List Event}

theorem ClientMove.kept {q : UInt16} {r : Route} (h : ClientMove s i inp p s₁ p' es)
    (hfits : p.Fits) (hw : inp = .wrote false → p.streamWrite = false)
    (hi : ∀ q r, s.router.routes q = some r → r.client = i → p.routed = some ⟨q, r.id⟩)
    (hr : s₁.router.routes q = some r) :
    (r.client ≠ i → s.router.routes q = some r) ∧
      (r.client = i → p'.routed = some ⟨q, r.id⟩) := by
  cases h with
  | outside hp => exact ⟨fun _ => hr, fun hc =>
      nomatch hp.ticket.symm.trans (Phase.ticket_of_routed (hi _ _ hr hc))⟩
  | register =>
      rcases Router.register_some _ _ hr with ⟨rfl, rfl⟩ | ⟨-, hr⟩
      · exact ⟨fun hc => absurd rfl hc, fun _ => rfl⟩
      · exact ⟨fun _ => hr, fun hc => nomatch hi _ _ hr hc⟩
  | replyUnregister | timeoutUnregister | back =>
      obtain ⟨hq, hr⟩ := Router.unregister_some _ _ _ hr
      refine ⟨fun _ => hr, fun hc => absurd ?_ hq⟩
      exact (congrArg Ticket.seq (Option.some.inj (hi _ _ hr hc))).symm
  | tooLarge h => exact absurd h (by rw [frameBytes_eq _ _ _ hfits]; exact nofun)
  | startFailed | stopTimeoutFailed | writeFailed => exact nomatch hw rfl
  | helloWrite | wake | replyWrite | replyFailed | timeoutWrite | timeoutFailed =>
      exact ⟨fun _ => hr, fun hc => nomatch hi _ _ hr hc⟩
  | _ => exact ⟨fun _ => hr, hi _ _ hr⟩

theorem Kept.moved {s s' : State} {l : Label} {es : List Event} (h : Kept s)
    (hfits : ∀ i, (s.threads i).phase.Fits) (hg : Orderly s l) (hm : Moved s l s' es) :
    Kept s' := by
  intro q r hr
  cases hm with
  | tick => exact h q r hr
  | owner hm =>
      obtain ⟨ht, -, hroutes, -⟩ := hm.frame
      rw [hroutes] at hr
      rw [ht]
      exact h q r hr
  | @client i inp s₁ t _ hm =>
      obtain ⟨hother, hself⟩ := hm.kept (hfits i) hg.write (fun q r hr hc => hc ▸ h q r hr) hr
      rcases eq_or_ne r.client i with hc | hc
      · rw [hc, State.setThread_self]
        exact hself hc
      · rw [State.setThread_of_ne _ _ _ hc, hm.frame.1]
        exact h q r (hother hc)

end Routes

/-! ## Streams -/

/-- The device's final STREAM_STOP for the request has been received, or a
STREAM_STOP has been queued for it. -/
def Stopped (es : List Event) (i : Nat) (d : Ticket) : Prop :=
  (∃ f, .received i d f ∈ es ∧ f.typ = .streamStop ∧ f.seq = d.seq) ∨
    .queued i d .stop .streamStop ∈ es

theorem Stopped.append {es : List Event} {i : Nat} {d : Ticket} (h : Stopped es i d)
    (es' : List Event) : Stopped (es ++ es') i d :=
  h.imp (fun ⟨f, hf, h⟩ => ⟨f, List.mem_append_left _ hf, h⟩) (List.mem_append_left _)

/-- The request of a relay whose client has asked to stop. -/
def Phase.asked : Phase → Option Ticket
  | .relay r _ => if r.stopDeadline = none then none else some r.dev
  | _ => none

theorem Phase.ticket_of_asked {d : Ticket} : ∀ {p : Phase}, p.asked = some d → p.ticket = some d
  | .relay r _, h => by
      rw [asked] at h
      split_ifs at h
      exact h

theorem Phase.asked_of_deadline {r : Relay} (h : r.stopDeadline ≠ none) (p : RelayPhase) :
    (Phase.relay r p).asked = some r.dev := if_neg h

/-- The thread streams for the request, and has not come to an end of it yet. -/
def Phase.Streaming (d : Ticket) : Phase → Prop
  | .startWrite _ e _ => e = d
  | .relay r (.write f) => r.dev = d ∧ f.typ ≠ .streamStop
  | .relay _ .stopTimeoutWrite | .relay _ (.unregister _) => False
  | .relay r .top | .relay r .read | .relay r .frames | .relay r .forwardStop
  | .relay r .eofForward | .relay r (.recv _) => r.dev = d
  | _ => False

theorem Phase.Streaming.ticket {d : Ticket} : ∀ {p : Phase}, p.Streaming d → p.ticket = some d
  | .startWrite .., h | .relay _ .top, h | .relay _ .read, h | .relay _ .frames, h
  | .relay _ .forwardStop, h | .relay _ .eofForward, h | .relay _ (.recv _), h => congrArg some h
  | .relay _ (.write _), h => congrArg some h.1

theorem Phase.ticket_of_waits {d : Ticket} : ∀ {p : Phase}, p.waits = some d → p.ticket = some d
  | .forward .., h | .await .., h => h

/-- The first thing that the thread will receive is a STREAM_START. -/
def StartNext (s : State) (i : Nat) : Prop :=
  (∃ f rest, s.channels i = f :: rest ∧ f.typ = .streamStart) ∨
    (s.channels i = [] ∧ s.owner.starting = some i)

section Moves

variable {s s₁ : State} {i : Nat} {inp : ClientInput} {p p' : Phase} {es : List Event} {d : Ticket}

theorem ClientMove.asked (h : ClientMove s i inp p s₁ p' es) (ha : p'.asked = some d) :
    p.asked = some d ∨ .queued i d .stop .streamStop ∈ es := by
  cases h with
  | outside _ hp' => exact nomatch hp'.symm.trans (Phase.ticket_of_asked ha)
  | stop =>
      cases ha
      exact .inr (List.mem_singleton_self _)
  | back hp => rcases hp with rfl | rfl <;> exact nomatch ha
  | _ => first | exact .inl ha | exact nomatch ha

/-- A thread that streams goes on with it, or the stream is stopped. -/
theorem ClientMove.streaming {es₀ : List Event} (h : ClientMove s i inp p s₁ p' es)
    (hp : p.Streaming d) (hw : inp = .wrote false → p.streamWrite = false)
    (hr : inp = .read .error → p.unstopped ≠ some d)
    (ha : ∀ e, p.asked = some e → .queued i e .stop .streamStop ∈ es₀)
    (hc : ∀ f ∈ s.channels i, f.seq = d.seq) :
    p'.Streaming d ∨ Stopped (es₀ ++ es) i d := by
  cases h with
  | outside hidle => exact nomatch hidle.ticket.symm.trans hp.ticket
  | startWrite | look | hangUp | stopAsked | quiet => exact .inl hp
  | startFailed | writeFailed => exact nomatch hw rfl
  | @overdue r deadline hd =>
      cases hp
      have hq := ha _ (Phase.asked_of_deadline (hd ▸ nofun) _)
      exact .inr (.inr (List.mem_append_left _ hq))
  | @readFailed r =>
      cases hp
      by_cases hd : r.stopDeadline = none
      · exact absurd (if_pos hd) (hr rfl)
      · exact .inr (.inr (List.mem_append_left _ (ha _ (Phase.asked_of_deadline hd _))))
  | listen hq | chatter hq => rcases hq with rfl | rfl <;> exact .inl hp
  | stop | hangUpStop =>
      cases hp
      exact .inr (.inr (List.mem_append_right _ (List.mem_singleton_self _)))
  | @relayed r deadline f rest h =>
      have hf : f ∈ s.channels i := h ▸ List.mem_cons_self
      cases hp
      by_cases ht : f.typ = .streamStop
      · exact .inr (.inl ⟨f, List.mem_append_right _ (List.mem_singleton_self _), ht, hc f hf⟩)
      · exact .inl ⟨rfl, ht⟩
  | write => exact .inl hp.1
  | final ht => exact absurd ht hp.2
  | _ => exact hp.elim

/-- A thread whose first reply will be a STREAM_START goes on waiting for it, or
receives it. -/
theorem ClientMove.waiting (h : ClientMove s i inp p s₁ p' es) (hp : p.waits = some d)
    (hs : StartNext s i) (hfits : p.Fits)
    (ht : inp = .timeout → p.waits ≠ none → s.owner.starting ≠ some i) :
    p'.Streaming d ∨ (p'.waits = some d ∧ s₁.channels i = s.channels i) := by
  cases h with
  | outside hidle => exact nomatch hidle.ticket.symm.trans (Phase.ticket_of_waits hp)
  | forward => exact .inr ⟨hp, rfl⟩
  | tooLarge h => exact absurd h (by rw [frameBytes_eq _ _ _ hfits]; exact nofun)
  | start => exact .inl (Option.some.inj hp)
  | reply h hf =>
      rcases hs with ⟨g, rest, hg, hgt⟩ | ⟨hnil, -⟩
      · cases h.symm.trans hg
        exact absurd hgt hf
      · exact nomatch h.symm.trans hnil
  | timeout h =>
      rcases hs with ⟨g, rest, hg, -⟩ | ⟨-, hstart⟩
      · exact nomatch h.symm.trans hg
      · exact absurd hstart (ht rfl (hp ▸ nofun))
  | _ => exact nomatch hp

theorem StartNext.congr (hc : s₁.channels i = s.channels i) (ho : s₁.owner = s.owner)
    (h : StartNext s i) : StartNext s₁ i := by
  rwa [StartNext, hc, ho]

theorem Owner.sending_of_starting {o : Owner} (h : o.starting = some i) :
    ∃ f r, o.sending = some (f, some r) ∧ f.typ = .streamStart ∧ r.client = i := by
  unfold starting at h
  split at h
  · split_ifs at h with ht
    exact ⟨_, _, ‹_›, ht, Option.some.inj h⟩
  · exact nomatch h

theorem Owner.starting_of_sending {o : Owner} {f : Frame} {r : Route}
    (h : o.sending = some (f, some r)) (ht : f.typ = .streamStart) :
    o.starting = some r.client := by
  unfold starting
  rw [h]
  exact if_pos ht

/-- The owner keeps a STREAM_START the first thing that the thread will receive. -/
theorem OwnerMove.startNext {o' : Owner} (h : OwnerMove s s.owner s₁ o' es)
    (hc : (s.threads i).phase ≠ .closed) (hs : StartNext s i) :
    StartNext { s₁ with owner := o' } i := by
  rcases hs with ⟨f, rest, hf, ht⟩ | ⟨hnil, hstart⟩
  · left
    generalize s.owner = o at h
    cases h with
    | see | lookup => exact ⟨f, rest, (congrFun (mark_frame s _).2.2.2.1 i).trans hf, ht⟩
    | @sent _ g r =>
        rcases eq_or_ne i r.client with rfl | hi
        · exact ⟨f, rest ++ [g], by dsimp only; rw [Function.update_self, hf]; rfl, ht⟩
        · exact ⟨f, rest, by dsimp only; rwa [Function.update_of_ne hi], ht⟩
    | _ => exact ⟨f, rest, hf, ht⟩
  · left
    obtain ⟨f, r, hsend, ht, rfl⟩ := Owner.sending_of_starting hstart
    generalize s.owner = o at h hsend
    cases h with
    | sent =>
        cases hsend
        exact ⟨f, [], by dsimp only; rw [Function.update_self, hnil]; rfl, ht⟩
    | hungUp hclosed =>
        cases hsend
        exact absurd hclosed hc
    | quiet ho | setCaps ho | woken ho => exact nomatch ho.sending.symm.trans hsend
    | _ => exact nomatch hsend

end Moves

/-- A stream that the device has started and that will be stopped: its thread
streams, or will receive the STREAM_START, and nothing that goes to the thread is
about another request. -/
structure Live (s : State) (i : Nat) (d : Ticket) : Prop where
  thread : (s.threads i).phase.Streaming d ∨ ((s.threads i).phase.waits = some d ∧ StartNext s i)
  channel : ∀ f ∈ s.channels i, f.seq = d.seq
  sending : ∀ f r, s.owner.sending = some (f, some r) → r.client = i → f.seq = d.seq

theorem Live.ticket {s : State} {i : Nat} {d : Ticket} (h : Live s i d) : s.ticket i = some d :=
  h.thread.elim Phase.Streaming.ticket fun h => Phase.ticket_of_waits h.1

/-- A live stream stays live, or is stopped. -/
theorem Live.moved {s s' : State} {l : Label} {es es' : List Event} {i : Nat} {d : Ticket}
    (h : Live s i d) (hk : Kept s) (hfits : ∀ i, (s.threads i).phase.Fits)
    (ha : ∀ i e, (s.threads i).phase.asked = some e → .queued i e .stop .streamStop ∈ es)
    (hst : s.started d.id = true) (hg : Orderly s l) (hm : Moved s l s' es') :
    Stopped (es ++ es') i d ∨ Live s' i d := by
  cases hm with
  | tick => exact .inr ⟨h.thread, h.channel, h.sending⟩
  | @owner _ s₁ o _ hm =>
      have hclosed : (s.threads i).phase ≠ .closed := fun hc => by
        have := h.ticket
        rw [State.ticket, hc] at this
        cases this
      refine .inr ⟨?_, ?_, ?_⟩
      · show (s₁.threads i).phase.Streaming d ∨ ((s₁.threads i).phase.waits = some d ∧ _)
        rw [hm.frame.1]
        exact h.thread.imp_right fun h => ⟨h.1, hm.startNext hclosed h.2⟩
      · intro f hf
        rcases hm.channels hf with hf | ⟨r, hs, hr⟩
        · exact h.channel f hf
        · exact h.sending f r hs hr
      · -- the route that was looked up is the one of the request
        rintro f r hf rfl
        have hroute := hk _ _ (hm.sending hf).1.symm
        have := (Phase.ticket_of_routed hroute).symm.trans h.ticket
        exact congrArg Ticket.seq (Option.some.inj this)
  | @client j inp s₁ t _ hm =>
      have hsend : ∀ f r, s₁.owner.sending = some (f, some r) → r.client = i → f.seq = d.seq :=
        fun f r hf => h.sending f r (hm.frame.2.1 ▸ hf)
      have hchan : ∀ f ∈ s₁.channels i, f.seq = d.seq := fun f hf => h.channel f (hm.channels hf)
      rcases eq_or_ne i j with rfl | hij
      · have hread : inp = .read .error → (s.threads i).phase.unstopped ≠ some d := by
          rintro rfl hu
          cases hst.symm.trans (hg rfl d hu)
        have htime : inp = .timeout → (s.threads i).phase.waits ≠ none →
            s.owner.starting ≠ some i := by
          rintro rfl
          exact hg
        rw [or_comm]
        rcases h.thread with hs | ⟨hw, hs⟩
        · refine (hm.streaming hs hg.write hread (ha i) h.channel).imp_left fun hs => ?_
          exact ⟨.inl (by rwa [State.setThread_self]), hchan, hsend⟩
        · refine .inl ⟨?_, hchan, hsend⟩
          rw [State.setThread_self]
          refine (hm.waiting hw hs (hfits i) htime).imp_right fun h => ⟨h.1, ?_⟩
          exact hs.congr h.2 hm.frame.2.1
      · refine .inr ⟨?_, hchan, hsend⟩
        rw [State.setThread_of_ne _ _ _ hij, hm.frame.1]
        refine h.thread.imp_right fun h => ⟨h.1, ?_⟩
        exact h.2.congr (hm.channels_of_ne hij) hm.frame.2.1

theorem ClientMove.started {s s₁ : State} {i : Nat} {inp : ClientInput} {p p' : Phase}
    {es : List Event} (h : ClientMove s i inp p s₁ p' es) : s₁.started = s.started := by
  cases h <;> rfl

theorem mark_started (s : State) (f : Frame) :
    (mark s f).started = s.started ∨ ∃ r, f.typ = .streamStart ∧ s.holder f.seq = some r ∧
      (mark s f).started = Function.update s.started r.id true := by
  unfold mark
  split_ifs with ht
  · split
    · exact .inr ⟨_, ht, ‹_›, rfl⟩
    · exact .inl rfl
  · exact .inl rfl

/-- What a step does to the history of streams: nothing, or a STREAM_START comes
from the device for a registration. -/
theorem Moved.started {s s' : State} {l : Label} {es : List Event} (h : Moved s l s' es) :
    s'.started = s.started ∨
    ∃ inp f pumped r, l = .owner inp ∧ s.owner.arriving = some (f, pumped) ∧
      f.typ = .streamStart ∧ s.holder f.seq = some r ∧
      s'.started = Function.update s.started r.id true := by
  cases h with
  | tick => exact .inl rfl
  | @client i _ s₁ t _ hm =>
      exact .inl hm.started
  | @owner inp s₁ o' _ hm =>
      generalize s.owner = o at hm
      cases hm with
      | see | lookup =>
          refine (mark_started s _).imp_right fun ⟨r, ht, hr, hs⟩ => ?_
          exact ⟨inp, _, _, r, rfl, rfl, ht, hr, hs⟩
      | _ => exact .inl rfl

/-- What the pump reads, the owner has in its hands next. -/
theorem OwnerMove.arrived {s s₁ : State} {o o' : Owner} {es : List Event} {f : Frame}
    (h : OwnerMove s o s₁ o' es) (ha : o.arriving = some (f, true)) :
    o'.sending = some (f, s.router.lookup f) ∧ s₁.channels = s.channels := by
  cases h with
  | lookup =>
      cases ha
      exact ⟨rfl, (mark_frame s _).2.2.2.1⟩
  | quiet ho | setCaps ho | woken ho => exact nomatch ho.arriving.symm.trans ha
  | _ => exact nomatch ha

/-- Every stream that the device has started is stopped or live. -/
structure Streams (s : State) (es : List Event) : Prop where
  known : ∀ {n}, s.started n = true → n < s.registered
  asked : ∀ i d, (s.threads i).phase.asked = some d → .queued i d .stop .streamStop ∈ es
  live : ∀ {i d}, .registered i d ∈ es → s.started d.id = true → Stopped es i d ∨ Live s i d

theorem Streams.initial : Streams .initial [] where
  known := nofun
  asked _ _ := nofun
  live := nofun

/-- A STREAM_START that comes for a request that waits for it begins a live
stream. -/
theorem Awaited.live {s s₁ : State} {o : Owner} {es : List Event} {f : Frame} {r : Route}
    (h : Awaited s f r) (ht : f.typ = .streamStart) (hm : OwnerMove s s.owner s₁ o es)
    (ha : s.owner.arriving = some (f, true)) :
    Live { s₁ with owner := o } r.client ⟨f.seq, r.id⟩ := by
  obtain ⟨hroute, hwaits, hnil⟩ := h
  obtain ⟨hsend, hchan⟩ := hm.arrived ha
  rw [hroute] at hsend
  refine ⟨.inr ⟨?_, .inr ⟨?_, ?_⟩⟩, ?_, ?_⟩
  · rwa [← hm.frame.1] at hwaits
  · exact (congrFun hchan _).trans hnil
  · exact Owner.starting_of_sending hsend ht
  · intro g hg
    have : g ∈ s.channels r.client := hchan ▸ hg
    exact nomatch hnil ▸ this
  · intro g r' hg _
    cases hsend.symm.trans hg
    rfl

theorem Streams.moved {s s' : State} {l : Label} {es es' : List Event} (h : Streams s es)
    (hr : Registry s es) (hk : Kept s) (hfits : ∀ i, (s.threads i).phase.Fits)
    (hg : Orderly s l) (hm : Moved s l s' es') : Streams s' (es ++ es') := by
  have hknown : ∀ {n}, s'.started n = true → n < s.registered := by
    intro n hn
    rcases hm.started with heq | ⟨-, f, -, r, -, -, -, hh, hup⟩
    · exact h.known (heq ▸ hn)
    · rcases eq_or_ne n r.id with rfl | hne
      · exact hr.lt (hr.holder hh)
      · rw [hup, Function.update_of_ne hne] at hn
        exact h.known hn
  refine ⟨fun hn => Nat.lt_of_lt_of_le (hknown hn) hm.registered_le, ?_, ?_⟩
  · cases hm with
    | tick => exact fun i d hd => List.mem_append_left _ (h.asked i d hd)
    | owner hm =>
        intro i d hd
        rw [hm.frame.1] at hd
        exact List.mem_append_left _ (h.asked i d hd)
    | @client j _ _ _ _ hm =>
        refine hm.forall_phase
          (P := fun i p => ∀ d, p.asked = some d → Event.queued i d .stop .streamStop ∈ es ++ es') ?_
          fun i _ d hd => List.mem_append_left _ (h.asked i d hd)
        intro d hd
        rcases hm.asked hd with hd | hq
        · exact List.mem_append_left _ (h.asked j d hd)
        · exact List.mem_append_right _ hq
  · intro i d hd hst
    by_cases hold : .registered i d ∈ es
    · by_cases hs : s.started d.id = true
      · rcases h.live hold hs with hstop | hlive
        · exact .inl (hstop.append _)
        · exact hlive.moved hk hfits h.asked hs hg hm
      · -- the stream starts now
        rcases hm.started with heq | ⟨inp, f, pumped, r, rfl, ha, ht, hh, hup⟩
        · exact absurd (heq ▸ hst) hs
        · have hid : d.id = r.id := by
            by_contra hne
            rw [hup, Function.update_of_ne hne] at hst
            exact hs hst
          obtain ⟨rfl, rfl⟩ := hr.unique hold (hr.holder hh) hid
          obtain ⟨rfl, haw⟩ := hg (f, pumped) ha ht r hh (Bool.eq_false_iff.mpr hs)
          cases hm with
          | owner hm => exact .inr (haw.live ht hm ha)
    · -- a request registered now has no stream yet
      rcases hm.registry with ⟨hno, -⟩ | ⟨j, rfl, -⟩
      · exact absurd ((List.mem_append.mp hd).resolve_left hold) (hno i d)
      · cases List.mem_singleton.mp ((List.mem_append.mp hd).resolve_left hold)
        exact absurd (hknown hst) (Nat.lt_irrefl _)

/-! ## What is left behind -/

/-- When a thread is done with a request, no route of it is left (a route under
its seq belongs to a later request), and a stream the device has started for it
is stopped. -/
def Settled (s : State) (es : List Event) : Prop :=
  ∀ i d, .registered i d ∈ es → s.ticket i ≠ some d →
    (∀ r, s.router.routes d.seq = some r → d.id < r.id) ∧
    (s.started d.id = true → Stopped es i d)

/-- **Nothing is left behind in orderly runs.** -/
theorem settled {ls : List Label} {s : State} {es : List Event}
    (hG : (machine eb).Guarded Orderly .initial ls)
    (hr : (machine eb).run .initial ls = some (s, es)) : Settled s es := by
  obtain ⟨hreg, -, hkept, hstreams⟩ := Machine.run_guarded_events (M := machine eb) (G := Orderly)
    (P := fun s es => Registry s es ∧ (∀ i, (s.threads i).phase.Fits) ∧ Kept s ∧ Streams s es)
    (fun ⟨hr, hf, hk, hst⟩ hg hs =>
      have hm := step_moved hs
      ⟨hr.moved hm, hm.fits hf, hk.moved hf hg hm, hst.moved hr hk hf hg hm⟩)
    ⟨.initial, fun _ => trivial, fun _ _ => nofun, .initial⟩ hG hr
  intro i d hd hover
  refine ⟨fun r hroute => ?_, fun hst => ?_⟩
  · obtain ⟨r', hh, hle⟩ := hreg.latest hd
    cases (hreg.route hroute).symm.trans hh
    refine Nat.lt_of_le_of_ne hle fun hid => hover ?_
    obtain ⟨rfl, he⟩ := hreg.unique hd (hreg.holder hh) hid
    exact (Phase.ticket_of_routed (hkept _ _ hroute)).trans (congrArg some he.symm)
  · rcases hstreams.live hd hst with hstop | hlive
    · exact hstop
    · exact absurd hlive.ticket hover

/-! ## A run that leaves a stream behind -/

/-- The device begins a stream for the first request of a run. -/
def firstStart : Frame := { typ := .streamStart, flags := 0, seq := 1, payload := [] }

/-- The device ends it. -/
def firstStop : Frame := { typ := .streamStop, flags := 0, seq := 1, payload := [0] }

/-- The owner writes the request, and reads and delivers the STREAM_START; the
thread takes it out of its channel. -/
def startLabels : List Label :=
  [.owner .go, .owner (.wrote true), .owner .go, .owner .go,
    .owner (.read (some firstStart.wire)), .owner .go, .owner .go, .owner .go, .client 0 .go]

/-- Connecting and one request that begins a stream. -/
def startEvents : List Event :=
  [.arrived { typ := .caps, flags := 0, seq := 0, payload := [0] }, .registered 0 ⟨1, 0⟩,
    .queued 0 ⟨1, 0⟩ .request .req,
    .deviceWrite ⟨.request, ⟨1, 0⟩, .req, wire .req 0 1 [1, 2]⟩ (wire .req 0 1 [1, 2]),
    .arrived firstStart, .received 0 ⟨1, 0⟩ firstStart]

/-- The stream is relayed until the client asks to stop, and its thread ends with
the device's own STREAM_STOP. -/
def stopLabels : List Label :=
  [.client 0 (.wrote true), .client 0 .go, .client 0 (.read (.data (wire .streamStop 0 5 []))),
    .client 0 .go, .client 0 .go, .client 0 .go, .owner .go, .owner .go, .owner (.wrote true),
    .owner .go, .owner .go, .owner (.read (some firstStop.wire)), .owner .go, .owner .go,
    .owner .go, .client 0 .go, .client 0 (.wrote true), .client 0 .go]

/-- The client has hung up when the STREAM_START is written to it: the thread is
done with the request, its route is still there, and the device captures.  Where it
has not, the stream is stopped. -/
theorem capture_runs :
    ((machine agentErrorBody).run .initial
      (connectLabels ++ askLabels 5 ++ startLabels ++ [.client 0 (.wrote false)])).map
        (fun p => (p.1.ticket 0, p.1.router.routes 1, p.1.started 0, p.2))
      = some (none, some ⟨0, 0⟩, true, startEvents) ∧
    ((machine agentErrorBody).run .initial
      (connectLabels ++ askLabels 5 ++ startLabels ++ stopLabels)).map
        (fun p => (p.1.ticket 0, p.1.started 0)) = some (none, true) ∧
    (machine agentErrorBody).Guarded Orderly .initial
      (connectLabels ++ askLabels 5 ++ startLabels ++ stopLabels) := by
  decide +kernel

/-- It is not so that in every run a thread leaves nothing behind. -/
theorem orphaned_stream :
    ¬ ∀ (ls : List Label) (s : State) (es : List Event),
      (machine agentErrorBody).run .initial ls = some (s, es) → Settled s es := by
  intro h
  obtain ⟨⟨s, es⟩, hr, hes⟩ := Option.map_eq_some_iff.mp capture_runs.1
  obtain ⟨ht, hes⟩ := Prod.mk.inj hes
  obtain ⟨hroute, hes⟩ := Prod.mk.inj hes
  obtain ⟨-, rfl⟩ := Prod.mk.inj hes
  have hover : s.ticket 0 ≠ some ⟨1, 0⟩ := by
    rw [ht]
    exact nofun
  exact absurd ((h _ s _ hr 0 ⟨1, 0⟩ (by decide) hover).1 _ hroute) (by decide)

theorem settled_capture :
    ∃ s es, (machine agentErrorBody).run .initial
        (connectLabels ++ askLabels 5 ++ startLabels ++ stopLabels) = some (s, es) ∧
      s.ticket 0 = none ∧ s.started 0 = true ∧ Settled s es := by
  obtain ⟨-, hrun, horderly⟩ := capture_runs
  obtain ⟨⟨s, es⟩, hr, hes⟩ := Option.map_eq_some_iff.mp hrun
  obtain ⟨ht, hst⟩ := Prod.mk.inj hes
  exact ⟨s, es, hr, ht, hst, settled horderly hr⟩

end FlipLink.Daemon
