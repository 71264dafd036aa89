/-
# `FlipLink.Daemon.OneRequest` — a connection that asks once

The client library opens a connection for each request that it sends.  Such a connection
has no older request whose reply could be left over in its channel, so what `correlated`
asks of a run comes for free, for this client, whatever the other clients do:

    no route leads to the client and no frame is        before its request
    on its way to it                                    (`Unasked`)
    its only route is that of the request, and the      from then on
    frames on their way to it came after the request    (`Asked`)
    and carry its seq

A frame gets on its way to a client only where a route leads there (`Moved.onWay`), and
only a registration makes a route (`Moved.route`).
-/
import FlipLink.Daemon.Cleanup
import FlipLink.Daemon.Conversation
import FlipLink.Daemon.Delivery
import FlipLink.Daemon.Response

namespace FlipLink.Daemon

open Lib

/-- A device frame is on its way to client `i`: its channel has it, the owner is about to
send it there, or its thread has it in hand. -/
def State.OnWay (s : State) (i : Nat) (f : Frame) : Prop :=
  f ∈ s.channels i ∨ (∃ r, s.owner.sending = some (f, some r) ∧ r.client = i) ∨
    ∃ d, (s.threads i).phase.held = some (d, f)

/-- A route for the seq leads to client `i`. -/
def State.Leads (s : State) (i : Nat) (q : UInt16) : Prop :=
  ∃ r, s.router.routes q = some r ∧ r.client = i

/-! ## One step -/

section Step

variable {s s₁ s' : State} {i : Nat} {l : Label} {es : List Event}

/-- A frame gets on its way to a client by coming from the device while a route for its
seq leads there. -/
theorem Moved.onWay {f : Frame} (hm : Moved s l s' es) (hf : s'.OnWay i f) :
    s.OnWay i f ∨ (.arrived f ∈ es ∧ s.Leads i f.seq) := by
  cases hm with
  | tick => exact .inl hf
  | owner hm =>
      rcases hf with hf | ⟨r, hf, hi⟩ | ⟨d, hf⟩
      · rcases hm.channels hf with hf | ⟨r, hf, hi⟩
        · exact .inl (.inl hf)
        · exact .inl (.inr (.inl ⟨r, hf, hi⟩))
      · obtain ⟨hroute, harrived⟩ := hm.sending hf
        exact .inr ⟨harrived, r, hroute.symm, hi⟩
      · refine .inl (.inr (.inr ⟨d, ?_⟩))
        rwa [← hm.frame.1]
  | @client j _ s₁ t _ hm =>
      rcases hf with hf | ⟨r, hf, hi⟩ | ⟨d, hf⟩
      · exact .inl (.inl (hm.channels hf))
      · exact .inl (.inr (.inl ⟨r, hm.frame.2.1 ▸ hf, hi⟩))
      · rcases eq_or_ne i j with rfl | hij
        · rw [State.setThread_self] at hf
          rcases hm.held hf with hf | ⟨-, hf⟩
          · exact .inl (.inr (.inr ⟨d, hf⟩))
          · exact .inl (.inl hf)
        · rw [State.setThread_of_ne _ _ _ hij, hm.frame.1] at hf
          exact .inl (.inr (.inr ⟨d, hf⟩))

/-- Only a registration makes a route. -/
theorem Moved.route {q : UInt16} (hm : Moved s l s' es) (hq : s'.Leads i q) :
    s.Leads i q ∨ (q = s.router.nextSeq ∧
      es = [.registered i ⟨s.router.nextSeq, s.registered⟩]) := by
  obtain ⟨r, hr, rfl⟩ := hq
  rcases hm.registry with ⟨-, -, -, hroutes⟩ | ⟨j, hes, -, -, hroutes⟩
  · exact .inl ⟨r, hroutes q r hr, rfl⟩
  · rw [hroutes] at hr
    rcases eq_or_ne q s.router.nextSeq with rfl | hq
    · rw [Function.update_self] at hr
      cases hr
      exact .inr ⟨rfl, hes⟩
    · rw [Function.update_of_ne hq] at hr
      exact .inl ⟨r, hr, rfl⟩

/-- A thread comes to register a request by taking up its frame. -/
theorem resume_register {eb : UInt32 → String → List UInt8} {t t' : Thread} {now : Nat}
    {a : Answer} {f : Frame} (hr : t.resume eb now a = some t') (hf : t'.phase = .register f) :
    t.phase = .frames ∧ t.reader.nextFrame.1 = some f := by
  obtain ⟨p, reader⟩ := t
  unfold Thread.resume at hr
  dsimp only at hr
  split at hr
  case h_6 =>
    split at hr
    · cases hr
      cases hf
    · rename_i hn
      cases hr
      dsimp only at hf
      split_ifs at hf
      cases hf
      exact ⟨rfl, congrArg Prod.fst hn⟩
  all_goals first
    | contradiction
    | (cases hr; dsimp only at hf; split_ifs at hf)
    | (cases hr; cases hf)
    | (split at hr <;> cases hr <;> cases hf)

end Step

/-! ## From the request on -/

/-- `since` is what has happened since the request was registered. -/
structure Asked (s : State) (i : Nat) (d : Ticket) (since : List Event) : Prop where
  ticket : ∀ e, s.ticket i = some e → e = d
  routes : ∀ q, s.Leads i q → q = d.seq
  frames : ∀ f, s.OnWay i f → f.seq = d.seq ∧ .arrived f ∈ since

section Phases

variable {s s' : State} {i : Nat} {l : Label} {es : List Event}

theorem Unused.not_onWay {f : Frame} (h : Unused i s) (hp : (s.threads i).phase.held = none) :
    ¬ s.OnWay i f := by
  rintro (hf | ⟨r, hf, hi⟩ | ⟨d, hf⟩)
  · rw [h.channel] at hf
    cases hf
  · have hto := h.sending
    rw [Owner.framesTo, hf] at hto
    dsimp only at hto
    rw [if_pos hi] at hto
    cases hto
  · cases hp.symm.trans hf

/-- A request is registered where the thread has come to register it. -/
theorem Moved.registers {d : Ticket} (hm : Moved s l s' es) (hes : .registered i d ∈ es) :
    (∃ f, (s.threads i).phase = .register f) ∧ es = [.registered i d] ∧ s'.ticket i = some d := by
  rcases hm.ticket with ⟨hn, -⟩ | ⟨j, _, f, -, hp, hreg, -, hj, -⟩
  · rcases hm.registry with ⟨hno, -⟩ | ⟨-, -, hn', -⟩
    · exact absurd hes (hno i d)
    · omega
  · rw [hreg] at hes
    cases List.mem_singleton.mp hes
    exact ⟨⟨f, hp⟩, hreg, hj⟩

/-- A client that has had no request before registers one. -/
theorem Unused.asked {d : Ticket} (h : Unused i s) (hm : Moved s l s' es)
    (hes : .registered i d ∈ es) : Asked s' i d [] := by
  obtain ⟨⟨f, hp⟩, hreg, hticket⟩ := hm.registers hes
  refine ⟨fun e he => (Option.some.inj (hticket.symm.trans he)).symm, fun q hq => ?_,
    fun f hf => ?_⟩
  · rcases hm.route hq with ⟨r, hr, hi⟩ | ⟨hq, hreg'⟩
    · exact absurd hi (h.route q r hr)
    · rw [hreg] at hreg'
      cases hreg'
      exact hq
  · rcases hm.onWay hf with hf | ⟨harrived, -⟩
    · exact absurd hf (h.not_onWay (by rw [hp]; rfl))
    · rw [hreg] at harrived
      cases List.mem_singleton.mp harrived

/-- As long as it registers no other, nothing else comes to it. -/
theorem Asked.moved {d : Ticket} {since : List Event} (h : Asked s i d since)
    (hm : Moved s l s' es) (hes : ∀ e, .registered i e ∉ es) : Asked s' i d (since ++ es) := by
  refine ⟨fun e he => ?_, fun q hq => ?_, fun f hf => ?_⟩
  · rcases hm.ticket with ⟨-, hkeep⟩ | ⟨j, _, _, -, -, hreg, -, -, hother⟩
    · exact h.ticket e (hkeep he)
    · rcases eq_or_ne i j with rfl | hij
      · exact absurd (hreg ▸ List.mem_singleton_self _) (hes _)
      · exact h.ticket e (hother i hij ▸ he)
  · rcases hm.route hq with hq | ⟨-, hreg⟩
    · exact h.routes q hq
    · exact absurd (hreg ▸ List.mem_singleton_self _) (hes _)
  · rcases hm.onWay hf with hf | ⟨harrived, hroute⟩
    · exact (h.frames f hf).imp_right (List.mem_append_left _)
    · exact ⟨h.routes _ hroute, List.mem_append_right _ harrived⟩

end Phases

/-! ## A whole run -/

section Run

variable {eb : UInt32 → String → List UInt8} {i : Nat}

/-- A device frame that the client is told of came after the client's request, and has its
seq. -/
def Own (i : Nat) (es : List Event) : Prop :=
  ∀ d f typ c payload, .wrote i (.device d f) typ c payload ∈ es →
    f.seq = d.seq ∧ typ = f.typ ∧ payload = f.payload ∧
      ∃ before since, es = before ++ .registered i d :: since ∧ .arrived f ∈ since

/-- A client that has taken up one frame, or none. -/
inductive Once (i : Nat) (s : State) (ts : List Turn) (es : List Event) : Prop
  | before (unused : Unused i s) (quiet : ∀ d, .registered i d ∉ es)
      (ticket : s.ticket i = none)
      (turn : ∀ f, (s.threads i).phase = .register f → ts.filterMap Turn.asked ≠ [])
  | since (d : Ticket) {es₁ es₂ : List Event} (hes : es = es₁ ++ .registered i d :: es₂)
      (asked : Asked s i d es₂) (turn : ts.filterMap Turn.asked ≠ [])
      (past : ∀ f, (s.threads i).phase ≠ .register f)

/-- A thread takes up a frame before it registers it. -/
theorem step_register {s s' : State} {l : Label} {es : List Event} {f : Frame}
    (hs : (machine eb).step s l = some (s', es)) (hf : (s'.threads i).phase = .register f) :
    (s.threads i).phase = .register f ∨ (turns i s l s' es).filterMap Turn.asked ≠ [] := by
  cases l with
  | tick ms => cases hs; exact .inl hf
  | owner inp =>
      obtain ⟨s₁, o, hm, rfl⟩ := ownerStep_moves hs
      exact .inl ((congrArg Thread.phase (congrFun hm.frame.1 i)).symm.trans hf)
  | client j inp =>
      obtain ⟨a, s₁, t, -, hserved, hr, rfl⟩ := clientStep_cases hs
      rcases eq_or_ne i j with rfl | hij
      · rw [State.setThread_self] at hf
        obtain ⟨hframes, hnext⟩ := resume_register hr hf
        rw [hframes] at hserved
        cases hserved
        have hts : turns i s (.client i .go) (s.setThread i t) []
            = (s.threads i).turns .go s s [] := if_pos rfl
        rw [hts, turns_asked]
        exact .inr (by simp [Thread.learns, hframes, hnext, Turn.asked])
      · rw [State.setThread_of_ne _ _ _ hij, hserved.open.2] at hf
        exact .inl hf

theorem Once.initial : Once i .initial [] [] :=
  .before .initial (fun _ => nofun) rfl fun _ => nofun

theorem Once.step {s s' : State} {l : Label} {ts : List Turn} {es es' : List Event}
    (h : Once i s ts es) (hs : (machine eb).step s l = some (s', es'))
    (hone : ((ts ++ turns i s l s' es').filterMap Turn.asked).length ≤ 1) :
    Once i s' (ts ++ turns i s l s' es') (es ++ es') := by
  have hm : Moved s l s' es' := step_moved hs
  rw [List.filterMap_append, List.length_append] at hone
  cases h with
  | before unused quiet ticket turn =>
      by_cases hreg : ∃ d, .registered i d ∈ es'
      · obtain ⟨d, hd⟩ := hreg
        obtain ⟨⟨f, hp⟩, hes, hticket⟩ := hm.registers hd
        refine .since d (by rw [hes]) (unused.asked hm hd) ?_ fun g hg => ?_
        · rw [List.filterMap_append]
          exact List.append_ne_nil_of_left_ne_nil (turn f hp) _
        · rw [State.ticket, hg] at hticket
          cases hticket
      · replace hreg : ∀ d, .registered i d ∉ es' := fun d hd => hreg ⟨d, hd⟩
        refine .before (unused.moved hm hreg) (fun d hd => ?_) ?_ fun f hf => ?_
        · exact (List.mem_append.mp hd).elim (quiet d) (hreg d)
        · rcases hm.ticket with ⟨-, hkeep⟩ | ⟨j, _, _, -, -, hes, -, -, hother⟩
          · refine Option.eq_none_iff_forall_ne_some.mpr fun d hd => ?_
            cases ticket.symm.trans (hkeep hd)
          · rcases eq_or_ne i j with rfl | hij
            · exact absurd (hes ▸ List.mem_singleton_self _) (hreg _)
            · exact (hother i hij).trans ticket
        · rw [List.filterMap_append]
          rcases step_register hs hf with hp | hturn
          · exact List.append_ne_nil_of_left_ne_nil (turn f hp) _
          · exact List.append_ne_nil_of_right_ne_nil _ hturn
  | since d hes asked turn past =>
      have hreg : ∀ e, .registered i e ∉ es' := fun e he =>
        (hm.registers he).1.elim fun f hp => past f hp
      refine .since d (by rw [hes, List.append_assoc, List.cons_append]) (asked.moved hm hreg) ?_
        fun f hf => ?_
      · rw [List.filterMap_append]
        exact List.append_ne_nil_of_left_ne_nil turn _
      · rcases step_register hs hf with hp | hturn
        · exact past f hp
        · have := List.length_pos_iff.mpr turn
          have := List.length_pos_iff.mpr hturn
          omega

theorem Own.step {s s' : State} {l : Label} {ts : List Turn} {es es' : List Event}
    (h : Own i es) (honce : Once i s ts es) (hm : Moved s l s' es') : Own i (es ++ es') := by
  intro d f typ c payload he
  rcases List.mem_append.mp he with he | he
  · obtain ⟨hseq, htyp, hpayload, before, since, rfl, harrived⟩ := h d f typ c payload he
    exact ⟨hseq, htyp, hpayload, before, since ++ es', List.append_assoc ..,
      List.mem_append_left _ harrived⟩
  · cases hm with
    | tick => exact nomatch he
    | owner hm => exact absurd he hm.wrote
    | client hm =>
        obtain ⟨rfl, hheld, htyp, hpayload⟩ := hm.wrote he
        have hticket := Phase.ticket_of_held hheld
        cases honce with
        | before _ _ ticket => exact nomatch ticket.symm.trans hticket
        | @since e es₁ es₂ hes asked =>
            cases asked.ticket d hticket
            obtain ⟨hseq, harrived⟩ := asked.frames f (.inr (.inr ⟨d, hheld⟩))
            exact ⟨hseq, htyp, hpayload, es₁, es₂ ++ es', by rw [hes, List.append_assoc]; rfl,
              List.mem_append_left _ harrived⟩

/-- A client that has taken up one frame at most is told of device frames that are its own. -/
theorem run_own {ls : List Label} {s : State} {es : List Event}
    (hr : (machine eb).run .initial ls = some (s, es))
    (hone : ((conversation eb i ls).filterMap Turn.asked).length ≤ 1) : Own i es := by
  have h := Machine.run_traces (f := turns i) (g := fun _ _ _ es => es)
    (Q := fun s ts es => (ts.filterMap Turn.asked).length ≤ 1 → Once i s ts es ∧ Own i es)
    (fun h hs hone => ?_) (fun _ => ⟨.initial, fun _ _ _ _ _ => nofun⟩) hr hone
  · rw [Machine.trace_events hr] at h
    exact h.2
  · have hbefore := hone
    rw [List.filterMap_append, List.length_append] at hbefore
    obtain ⟨honce, hown⟩ := h (by omega)
    exact ⟨honce.step hs hone, hown.step honce (step_moved hs)⟩

/-- **A connection that asks once is told its own replies.**  In every run of the daemon in
which client `i` has sent no more than one frame outside its stream, whatever the other
clients do, every device frame that is passed on to the client came from the device after
its request was registered, and with the seq of the request. -/
theorem own_replies {ls : List Label} {s : State} {es : List Event}
    (hr : (machine eb).run .initial ls = some (s, es))
    (hone : (codec.drain (heard eb i ls)).1.length ≤ 1) : Own i es := by
  refine run_own hr ?_
  rw [(run_conversing (i := i) hr).caught.reader.frames, List.length_append] at hone
  omega

/-- A connection that asks once and is answered in time. -/
def askOnce : List Label :=
  connectLabels ++ askLabels 5 ++ answerLabels ++ [.owner .go] ++ takeLabels

theorem own_replies_in_time : ∃ (s : State) (es : List Event),
    (machine agentErrorBody).run .initial askOnce = some (s, es) ∧
      .wrote 0 (.device ⟨1, 0⟩ firstReply) .resp 5 [42] ∈ es ∧ Own 0 es := by
  obtain ⟨⟨s, es⟩, hr, hes⟩ := Option.map_eq_some_iff.mp
    (show ((machine agentErrorBody).run .initial askOnce).map
        (fun p => decide (.wrote 0 (.device ⟨1, 0⟩ firstReply) .resp 5 [42] ∈ p.2)) = some true by
      decide +kernel)
  have hheard : heard agentErrorBody 0 askOnce = (askFrame 5).wire := by decide +kernel
  have hdrain : (codec.drain (askFrame 5).wire).1 = [askFrame 5] := by decide +kernel
  exact ⟨s, es, hr, of_decide_eq_true hes, own_replies hr (by rw [hheard, hdrain]; decide)⟩

end Run

end FlipLink.Daemon
