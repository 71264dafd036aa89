/-
# `FlipLink.Daemon.Correlation` — which reply answers which request

What a client is told about a request: the daemon's own timeout, or a device
frame.  All requests of a client share one channel, and `deliver` sends outside
the lock, so a frame that was on its way when its request was given up lands in
the channel afterwards and is the first thing the next request receives.

    routes      lead to a thread that waits for the seq      (`Routed`)
    frames      on their way to a client, in its channel, or
                in its thread's hands came from the device   (`Came`)
                and carry the seq of its request             (`Matched`)

The first two hold in every run.  The third needs that no frame is left over for
a client when its next request is registered (`Fresh`); with it every frame
written to a client answers the request it is written for (`correlated`).
`stale_reply` is a run where one is left over.
-/
import FlipLink.Daemon.Tickets

namespace FlipLink.Daemon

open Lib

variable {eb : UInt32 → String → List UInt8}

/-! ## Routes -/

/-- A route for the seq can lead to a thread that stands here: it has not dropped
the route yet, or it has returned and will not. -/
def Phase.Serves (q : UInt16) : Phase → Prop
  | .forward _ d | .await _ d _ | .replyUnregister _ d _ | .timeoutUnregister _ d
  | .startWrite _ d _ => d.seq = q
  | .relay r _ => r.dev.seq = q
  | .closed => True
  | .read | .wake | .frames | .caps _ | .helloWrite .. | .register _ | .replyWrite ..
  | .timeoutWrite .. => False

theorem Phase.Serves.seq {q : UInt16} {d : Ticket} :
    ∀ {p : Phase}, p.Serves q → p.ticket = some d → d.seq = q
  | .forward .., h, hd | .await .., h, hd | .replyUnregister .., h, hd
  | .timeoutUnregister .., h, hd | .startWrite .., h, hd | .relay .., h, hd => by
      cases hd
      exact h

/-- Every route leads to a thread that waits for its seq, or has returned. -/
def Routed (s : State) : Prop :=
  ∀ q r, s.router.routes q = some r → (s.threads r.client).phase.Serves q

section Routes

variable {s s₁ : State} {i : Nat} {inp : ClientInput} {p p' : Phase} {es : List Event}

theorem Phase.Idle.serves {q : UInt16} : ∀ {p : Phase}, p.Idle → ¬ p.Serves q
  | .read, _ | .wake, _ | .frames, _ | .caps _, _ | .helloWrite .., _ => id

/-- A client's step keeps the routes of the others, and its own as long as it
serves them. -/
theorem ClientMove.routes {q : UInt16} {r : Route} (h : ClientMove s i inp p s₁ p' es)
    (hi : ∀ q r, s.router.routes q = some r → r.client = i → p.Serves q)
    (hr : s₁.router.routes q = some r) :
    (r.client ≠ i → s.router.routes q = some r) ∧ (r.client = i → p'.Serves q) := by
  cases h with
  | outside hp => exact ⟨fun _ => hr, fun hc => absurd (hi _ _ hr hc) hp.serves⟩
  | register =>
      rcases Router.register_some _ _ hr with ⟨rfl, rfl⟩ | ⟨-, hr⟩
      · exact ⟨fun hc => absurd rfl hc, fun _ => rfl⟩
      · exact ⟨fun _ => hr, fun hc => (hi _ _ hr hc).elim⟩
  | replyUnregister | timeoutUnregister | back =>
      obtain ⟨hq, hr⟩ := Router.unregister_some _ _ _ hr
      exact ⟨fun _ => hr, fun hc => absurd (hi _ _ hr hc).symm hq⟩
  | helloWrite | wake | replyWrite | timeoutWrite =>
      exact ⟨fun _ => hr, fun hc => (hi _ _ hr hc).elim⟩
  | tooLarge | replyFailed | timeoutFailed | startFailed | stopTimeoutFailed | writeFailed =>
      exact ⟨fun _ => hr, fun _ => trivial⟩
  | _ => exact ⟨fun _ => hr, hi _ _ hr⟩

theorem Routed.moved {s s' : State} {l : Label} {es : List Event} (h : Routed s)
    (hm : Moved s l s' es) : Routed s' := by
  intro q r hr
  cases hm with
  | tick => exact h q r hr
  | owner hm =>
      obtain ⟨ht, -, hroutes, -⟩ := hm.frame
      rw [hroutes] at hr
      rw [ht]
      exact h q r hr
  | @client i _ s₁ t _ hm =>
      obtain ⟨hother, hself⟩ := hm.routes (fun q r hr hc => hc ▸ h q r hr) hr
      rcases eq_or_ne r.client i with hc | hc
      · rw [hc, State.setThread_self]
        exact hself hc
      · rw [State.setThread_of_ne _ _ _ hc, hm.frame.1]
        exact h q r (hother hc)

end Routes

/-! ## Device frames on their way to a client -/

/-- The device frame that the thread has in hand, and the request it took it
for. -/
def Phase.held : Phase → Option (Ticket × Frame)
  | .replyUnregister _ d f | .replyWrite _ d f | .startWrite _ d f => some (d, f)
  | .relay r (.write f) => some (r.dev, f)
  | _ => none

theorem Phase.ticket_of_held {d : Ticket} {f : Frame} :
    ∀ {p : Phase}, p.held = some (d, f) → p.ticket = some d
  | .replyUnregister .., h | .replyWrite .., h | .startWrite .., h | .relay _ (.write _), h => by
      cases h
      rfl

section Frames

variable {s s₁ : State} {i : Nat} {inp : ClientInput} {p p' : Phase} {es : List Event}

/-- A thread gets a frame out of its channel. -/
theorem ClientMove.held {d : Ticket} {f : Frame} (h : ClientMove s i inp p s₁ p' es)
    (hf : p'.held = some (d, f)) :
    p.held = some (d, f) ∨ (p.ticket = some d ∧ f ∈ s.channels i) := by
  cases h with
  | outside _ hp' => exact nomatch hp'.symm.trans (Phase.ticket_of_held hf)
  | replyUnregister => exact .inl hf
  | start h | reply h | relayed h =>
      cases hf
      exact .inr ⟨rfl, h ▸ List.mem_cons_self⟩
  | back hp => rcases hp with rfl | rfl <;> exact nomatch hf
  | _ => exact nomatch hf

/-- Only the owner puts a frame into a channel. -/
theorem ClientMove.channels {j : Nat} {f : Frame} (h : ClientMove s i inp p s₁ p' es)
    (hf : f ∈ s₁.channels j) : f ∈ s.channels j := by
  cases h with
  | start h | reply h | relayed h =>
      dsimp only at hf
      rcases eq_or_ne j i with rfl | hj
      · rw [Function.update_self] at hf
        rw [h]
        exact List.mem_cons_of_mem _ hf
      · rwa [Function.update_of_ne hj] at hf
  | _ => exact hf

/-- A frame is sent where the route of its seq led when it arrived. -/
theorem OwnerMove.sending {o o' : Owner} {f : Frame} {route : Option Route}
    (h : OwnerMove s o s₁ o' es) (hf : o'.sending = some (f, route)) :
    route = s.router.lookup f ∧ .arrived f ∈ es := by
  cases h with
  | lookup =>
      cases hf
      exact ⟨rfl, List.mem_singleton_self _⟩
  | quiet _ ho' | setCaps _ ho' | woken _ ho' | see ho' => exact nomatch ho'.2.symm.trans hf
  | _ => exact nomatch hf

theorem OwnerMove.channels {o o' : Owner} {j : Nat} {f : Frame} (h : OwnerMove s o s₁ o' es)
    (hf : f ∈ s₁.channels j) :
    f ∈ s.channels j ∨ ∃ r, o.sending = some (f, some r) ∧ r.client = j := by
  cases h with
  | see | lookup =>
      rw [(mark_frame s _).2.2.2.1] at hf
      exact .inl hf
  | @sent _ g r hc =>
      dsimp only at hf
      rcases eq_or_ne j r.client with rfl | hj
      · rw [Function.update_self] at hf
        rcases List.mem_append.mp hf with hf | hf
        · exact .inl hf
        · cases List.mem_singleton.mp hf
          exact .inr ⟨r, rfl, rfl⟩
      · rw [Function.update_of_ne hj] at hf
        exact .inl hf
  | _ => exact .inl hf

/-- What is written to a client is about the request its thread has in hand. -/
theorem ClientMove.wrote {j : Nat} {about : Source} {typ : MsgType} {c : UInt16}
    {payload : List UInt8} (h : ClientMove s i inp p s₁ p' es)
    (he : .wrote j about typ c payload ∈ es) :
    j = i ∧ match about with
      | .hello => True
      | .device d f => p.held = some (d, f) ∧ typ = f.typ ∧ payload = f.payload
      | .timeout d | .stopTimeout d => p.ticket = some d ∧ typ = .error := by
  cases h with
  | helloWrite =>
      cases List.mem_singleton.mp he
      exact ⟨rfl, trivial⟩
  | replyWrite | startWrite | write | final =>
      cases List.mem_singleton.mp he
      exact ⟨rfl, rfl, rfl, rfl⟩
  | timeoutWrite | stopTimeoutWrite =>
      cases List.mem_singleton.mp he
      exact ⟨rfl, rfl, rfl⟩
  | _ => simp at he

end Frames

/-- Every frame on its way to a client came from the device, and every request
in hand was registered by its thread. -/
structure Came (s : State) (es : List Event) : Prop where
  sending : ∀ f route, s.owner.sending = some (f, route) → .arrived f ∈ es
  channels : ∀ i, ∀ f ∈ s.channels i, .arrived f ∈ es
  held : ∀ i d f, (s.threads i).phase.held = some (d, f) → .arrived f ∈ es
  registered : ∀ i d, s.ticket i = some d → .registered i d ∈ es

theorem Came.initial : Came .initial [] where
  sending _ _ := nofun
  channels _ _ := nofun
  held _ _ _ := nofun
  registered _ _ := nofun

theorem Came.moved {s s' : State} {l : Label} {es es' : List Event} (h : Came s es)
    (hm : Moved s l s' es') : Came s' (es ++ es') := by
  have hreg : ∀ i d, s'.ticket i = some d → .registered i d ∈ es ++ es' := by
    intro i d hd
    rcases hm.ticket with ⟨-, hkeep⟩ | ⟨k, -, -, -, -, hes, -, hk, hother⟩
    · exact List.mem_append_left _ (h.registered i d (hkeep hd))
    · rcases eq_or_ne i k with rfl | hik
      · rw [hk] at hd
        cases hd
        exact List.mem_append_right _ (hes ▸ List.mem_singleton_self _)
      · exact List.mem_append_left _ (h.registered i d (hother i hik ▸ hd))
  cases hm with
  | tick =>
      rw [List.append_nil] at *
      exact ⟨h.sending, h.channels, h.held, hreg⟩
  | owner hm =>
      refine ⟨?_, ?_, ?_, hreg⟩
      · exact fun f route hf => List.mem_append_right _ (hm.sending hf).2
      · intro i f hf
        refine List.mem_append_left _ ?_
        rcases hm.channels hf with hf | ⟨r, hr, -⟩
        · exact h.channels i f hf
        · exact h.sending f _ hr
      · intro i d f hf
        rw [hm.frame.1] at hf
        exact List.mem_append_left _ (h.held i d f hf)
  | @client i _ s₁ t _ hm =>
      refine ⟨?_, ?_, ?_, hreg⟩
      · intro f route hf
        exact List.mem_append_left _ (h.sending f route (hm.frame.2.1 ▸ hf))
      · exact fun j f hf => List.mem_append_left _ (h.channels j f (hm.channels hf))
      · refine hm.forall_phase
          (P := fun _ p => ∀ d f, p.held = some (d, f) → Event.arrived f ∈ es ++ es') ?_ ?_
        · intro d f hf
          refine List.mem_append_left _ ?_
          rcases hm.held hf with hf | ⟨-, hf⟩
          · exact h.held i d f hf
          · exact h.channels i f hf
        · exact fun j _ d f hf => List.mem_append_left _ (h.held j d f hf)

/-! ## Requests that start with nothing left over -/

/-- Where the owner is about to send the frame in its hands. -/
def Owner.sendingTo (o : Owner) : Option Nat := o.sending.bind fun x => x.2.map Route.client

/-- The thread is about to register a request. -/
def Phase.registers : Phase → Bool
  | .register _ => true
  | _ => false

/-- When a client's request is registered, no device frame is left over for the
client: its channel is empty, and the owner is not about to send it one. -/
def Fresh (s : State) : Label → Prop
  | .client i _ =>
      (s.threads i).phase.registers = true → s.channels i = [] ∧ s.owner.sendingTo ≠ some i
  | _ => True

instance : ∀ (s : State) (l : Label), Decidable (Fresh s l)
  | s, .client i _ => inferInstanceAs (Decidable ((s.threads i).phase.registers = true → _ ∧ _))
  | _, .tick _ | _, .owner _ => .isTrue trivial

/-- Every frame on its way to a client with a request in hand carries the seq of
the request. -/
structure Matched (s : State) : Prop where
  sending : ∀ f r d, s.owner.sending = some (f, some r) → s.ticket r.client = some d →
    f.seq = d.seq
  channels : ∀ i d, s.ticket i = some d → ∀ f ∈ s.channels i, f.seq = d.seq
  held : ∀ i d f, (s.threads i).phase.held = some (d, f) → f.seq = d.seq

theorem Matched.initial : Matched .initial where
  sending _ _ _ := nofun
  channels _ _ := nofun
  held _ _ _ := nofun

/-- Under the guard, a request in hand after a step was in hand before, or there is
nothing left over for its client. -/
theorem Moved.fresh {s s' : State} {l : Label} {es : List Event} (hm : Moved s l s' es)
    (hg : Fresh s l) {j : Nat} {d : Ticket} (hd : s'.ticket j = some d) :
    s.ticket j = some d ∨ (s.channels j = [] ∧ s.owner.sendingTo ≠ some j) := by
  rcases hm.ticket with ⟨-, hkeep⟩ | ⟨i, _, f, rfl, hp, -, -, -, hother⟩
  · exact .inl (hkeep hd)
  · rcases eq_or_ne j i with rfl | hj
    · rw [Fresh, hp] at hg
      exact .inr (hg rfl)
    · exact .inl (hother j hj ▸ hd)

theorem Matched.moved {s s' : State} {l : Label} {es : List Event} (h : Matched s)
    (hr : Routed s) (hg : Fresh s l) (hm : Moved s l s' es) : Matched s' := by
  have hfresh := fun {j d} => hm.fresh hg (j := j) (d := d)
  cases hm with
  | tick => exact ⟨h.sending, h.channels, h.held⟩
  | @owner _ s₁ o _ hm =>
      have ht : ∀ {j d}, s₁.ticket j = some d → s.ticket j = some d := by
        intro j d hd
        rwa [State.ticket, hm.frame.1] at hd
      refine ⟨?_, ?_, ?_⟩
      · -- the route led to a thread that waits for the frame's seq
        intro f r d hf hd
        exact ((hr f.seq r (hm.sending hf).1.symm).seq (ht hd)).symm
      · intro i d hd f hf
        rcases hm.channels hf with hf | ⟨r, hs, rfl⟩
        · exact h.channels i d (ht hd) f hf
        · exact h.sending f r d hs (ht hd)
      · intro i d f hf
        rw [hm.frame.1] at hf
        exact h.held i d f hf
  | @client i _ s₁ t _ hm =>
      refine ⟨?_, ?_, ?_⟩
      · intro f r d hf hd
        replace hf : s.owner.sending = some (f, some r) := hm.frame.2.1 ▸ hf
        rcases hfresh hd with hd | ⟨-, hne⟩
        · exact h.sending f r d hf hd
        · exact absurd (by rw [Owner.sendingTo, hf]; rfl) hne
      · intro j d hd f hf
        replace hf := hm.channels hf
        rcases hfresh hd with hd | ⟨hnil, -⟩
        · exact h.channels j d hd f hf
        · rw [hnil] at hf
          cases hf
      · refine hm.forall_phase (P := fun _ p => ∀ d f, p.held = some (d, f) → f.seq = d.seq) ?_ ?_
        · intro d f hf
          rcases hm.held hf with hf | ⟨hd, hf⟩
          · exact h.held i d f hf
          · exact h.channels i d hd f hf
        · exact fun j _ => h.held j

/-! ## What a client is told -/

/-- What is written to a client for a request it has registered is the daemon's
own timeout, or the type and body of a frame that came from the device with the
seq of the request. -/
def Correlated (es : List Event) : Prop :=
  ∀ i about typ c payload, .wrote i about typ c payload ∈ es →
    match about with
    | .hello => True
    | .timeout d | .stopTimeout d => .registered i d ∈ es ∧ typ = .error
    | .device d f =>
        .registered i d ∈ es ∧ .arrived f ∈ es ∧ f.seq = d.seq ∧ typ = f.typ ∧ payload = f.payload

theorem Correlated.moved {s s' : State} {l : Label} {es es' : List Event} (h : Correlated es)
    (hc : Came s es) (hd : Matched s) (hm : Moved s l s' es') : Correlated (es ++ es') := by
  intro i about typ c payload he
  rcases List.mem_append.mp he with he | he
  · have := h i about typ c payload he
    cases about with
    | hello => trivial
    | timeout | stopTimeout => exact ⟨List.mem_append_left _ this.1, this.2⟩
    | device =>
        exact ⟨List.mem_append_left _ this.1, List.mem_append_left _ this.2.1, this.2.2⟩
  · cases hm with
    | tick => exact nomatch he
    | owner hm => exact absurd he hm.wrote
    | client hm =>
        obtain ⟨rfl, hw⟩ := hm.wrote he
        cases about with
        | hello => trivial
        | timeout d | stopTimeout d =>
            exact ⟨List.mem_append_left _ (hc.registered i d hw.1), hw.2⟩
        | device d f =>
            obtain ⟨hf, ht, hp⟩ := hw
            have hreg := hc.registered i d (Phase.ticket_of_held hf)
            exact ⟨List.mem_append_left _ hreg, List.mem_append_left _ (hc.held i d f hf),
              hd.held i d f hf, ht, hp⟩

/-- **Replies are correlated where requests start fresh.**  In every run that
registers a client's request only when no device frame is left over for the
client, whatever is written to a client for a request is the daemon's own timeout
or carries the type and body of a device frame with the request's seq. -/
theorem correlated {ls : List Label} {s : State} {es : List Event}
    (hG : (machine eb).Guarded Fresh .initial ls)
    (hr : (machine eb).run .initial ls = some (s, es)) : Correlated es := by
  refine (Machine.run_guarded_events (G := Fresh) (P := fun s es =>
    Routed s ∧ Came s es ∧ Matched s ∧ Correlated es) ?_ ?_ hG hr).2.2.2
  · rintro s es l s' es' ⟨hrt, hc, hmt, hco⟩ hg hs
    have hm := step_moved hs
    exact ⟨hrt.moved hm, hc.moved hm, hmt.moved hrt hg hm, hco.moved hc hmt hm⟩
  · exact ⟨fun _ _ => nofun, .initial, .initial, fun _ _ _ _ _ => nofun⟩

/-! ## A run where a reply is left over -/

/-- A request that the client numbers `c`. -/
def askFrame (c : UInt16) : Frame := { typ := .req, flags := 0, seq := c, payload := [1, 2] }

/-- The device's reply to the first request of a run. -/
def firstReply : Frame := { typ := .resp, flags := 0, seq := 1, payload := [42] }

/-- The owner finds the device and is ready to pump. -/
def connectLabels : List Label :=
  [.owner (.opened true), .owner (.wrote true), .owner .go,
    .owner (.read (some (wire .caps 0 0 [0]))), .owner .go, .owner .go, .owner .go]

/-- A client sends a request, and it is queued. -/
def askLabels (c : UInt16) : List Label :=
  [.client 0 (.read (.data (askFrame c).wire)), .client 0 .go, .client 0 .go, .client 0 .go,
    .client 0 .go]

/-- The owner writes the request, reads the reply and looks up where it goes. -/
def answerLabels : List Label :=
  [.owner .go, .owner (.wrote true), .owner .go, .owner .go,
    .owner (.read (some firstReply.wire)), .owner .go, .owner .go]

/-- The wait is over before the owner sends the reply on. -/
def tooLateLabels : List Label :=
  [.tick 3000, .client 0 .timeout, .client 0 .go, .client 0 (.wrote true), .owner .go,
    .client 0 .go]

/-- The thread takes a frame out of its channel and writes it to the client. -/
def takeLabels : List Label := [.client 0 .go, .client 0 .go, .client 0 (.wrote true)]

/-- Connecting and one request. -/
def firstEvents : List Event :=
  [.arrived { typ := .caps, flags := 0, seq := 0, payload := [0] }, .registered 0 ⟨1, 0⟩,
    .queued 0 ⟨1, 0⟩ .request .req,
    .deviceWrite ⟨.request, ⟨1, 0⟩, .req, wire .req 0 1 [1, 2]⟩ (wire .req 0 1 [1, 2]),
    .arrived firstReply]

/-- The client gets the reply to its request 5 for its request 6; or the reply comes
in time. -/
theorem reply_runs :
    ((machine agentErrorBody).run .initial
      (connectLabels ++ askLabels 5 ++ answerLabels ++ tooLateLabels ++ askLabels 6 ++
        takeLabels)).map (fun p => (p.1.registered, p.2))
      = some (2, firstEvents ++
        [.wrote 0 (.timeout ⟨1, 0⟩) .error 5 (agentErrorBody errInternal "device timeout"),
          .registered 0 ⟨2, 1⟩, .queued 0 ⟨2, 1⟩ .request .req, .received 0 ⟨2, 1⟩ firstReply,
          .wrote 0 (.device ⟨2, 1⟩ firstReply) .resp 6 [42]]) ∧
    ((machine agentErrorBody).run .initial
      (connectLabels ++ askLabels 5 ++ answerLabels ++ [.owner .go] ++ takeLabels)).map Prod.snd
      = some (firstEvents ++ [.received 0 ⟨1, 0⟩ firstReply,
        .wrote 0 (.device ⟨1, 0⟩ firstReply) .resp 5 [42]]) ∧
    (machine agentErrorBody).Guarded Fresh .initial
      (connectLabels ++ askLabels 5 ++ answerLabels ++ [.owner .go] ++ takeLabels) := by
  decide +kernel

/-- It is not so that in every run replies are correlated, not even where no seq
is used twice. -/
theorem stale_reply :
    ¬ ∀ (ls : List Label) (s : State) (es : List Event),
      (machine agentErrorBody).run .initial ls = some (s, es) → s.registered < 65535 →
      Correlated es := by
  intro h
  obtain ⟨⟨s, es⟩, hr, hes⟩ := Option.map_eq_some_iff.mp reply_runs.1
  obtain ⟨hn, rfl⟩ := Prod.mk.inj hes
  have hw := h _ s _ hr (by rw [hn]; decide) 0 (.device ⟨2, 1⟩ firstReply) .resp 6 [42]
    (List.mem_append_right _ (by simp))
  exact absurd hw.2.2.1 (by decide)

/-- A request that is answered in time. -/
theorem correlated_round_trip :
    ∃ s, (machine agentErrorBody).run .initial
        (connectLabels ++ askLabels 5 ++ answerLabels ++ [.owner .go] ++ takeLabels)
        = some (s, firstEvents ++ [.received 0 ⟨1, 0⟩ firstReply,
            .wrote 0 (.device ⟨1, 0⟩ firstReply) .resp 5 [42]]) ∧
      Correlated (firstEvents ++ [.received 0 ⟨1, 0⟩ firstReply,
        .wrote 0 (.device ⟨1, 0⟩ firstReply) .resp 5 [42]]) := by
  obtain ⟨-, hrun, hfresh⟩ := reply_runs
  obtain ⟨⟨s, es⟩, hr, rfl⟩ := Option.map_eq_some_iff.mp hrun
  exact ⟨s, hr, correlated hfresh hr⟩

end FlipLink.Daemon
