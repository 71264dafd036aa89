/-
# `FlipLink.Daemon.Delivery` — the stream relay is a queue

From the device to the client: the frames of a request are decoded by the pump,
sent into its client's channel, taken out by its thread and written.  While the
request is in hand and its route stands, the frames that have come for its seq
are, in this order,

    written to the client ++ in the thread's hands ++ in the channel
      ++ in the owner's hands

and once the route is gone nothing is added behind them (`InOrder`).  What the
thread writes at each point of its course is `Progress`.

The request is the client's first, so that nothing is in its channel beforehand;
a later one may find frames of an earlier one there.
-/
import FlipLink.Daemon.Correlation
import FlipLink.Daemon.Pump

namespace FlipLink.Daemon

open Lib

/-! ## What is written for a request -/

/-- The request that a frame written to a client is about. -/
def Source.ticket : Source → Option Ticket
  | .hello => none
  | .device d _ | .timeout d | .stopTimeout d => some d

/-- What client `i` is told about request `d`: type, seq and payload of each frame. -/
def told (i : Nat) (d : Ticket) (es : List Event) : List (MsgType × UInt16 × List UInt8) :=
  es.filterMap fun
    | .wrote j about typ seq payload =>
        if j = i ∧ about.ticket = some d then some (typ, seq, payload) else none
    | _ => none

/-- The device frames written to client `i` for request `d`. -/
def passedOn (i : Nat) (d : Ticket) (es : List Event) : List Frame :=
  es.filterMap fun
    | .wrote j (.device e f) _ _ _ => if j = i ∧ e = d then some f else none
    | _ => none

/-- The frames with this seq that have come from the device. -/
def emitted (q : UInt16) (es : List Event) : List Frame :=
  es.filterMap fun
    | .arrived f => if f.seq = q then some f else none
    | _ => none

/-- A device frame as the client sees it. -/
def asTold (c : UInt16) (f : Frame) : MsgType × UInt16 × List UInt8 := (f.typ, c, f.payload)

section Append

variable (i : Nat) (d : Ticket) (es es' : List Event)

theorem told_append : told i d (es ++ es') = told i d es ++ told i d es' := List.filterMap_append

theorem passedOn_append : passedOn i d (es ++ es') = passedOn i d es ++ passedOn i d es' :=
  List.filterMap_append

theorem emitted_append (q : UInt16) : emitted q (es ++ es') = emitted q es ++ emitted q es' :=
  List.filterMap_append

end Append

/-! ## The course of a request -/

/-- The request is not answered yet. -/
def Phase.Unanswered (c : UInt16) (d : Ticket) : Phase → Prop
  | .forward f e => f.seq = c ∧ e = d
  | .await c' e _ | .replyUnregister c' e _ | .replyWrite c' e _ | .timeoutUnregister c' e
  | .timeoutWrite c' e => c' = c ∧ e = d
  | _ => False

/-- Nothing more is written for the request. -/
def Phase.Past (d : Ticket) (p : Phase) : Prop :=
  p.ticket ≠ some d ∨ ∃ r failed, p = .relay r (.unregister failed)

/-- What a request comes to: the device frames and the daemon's ERROR behind them,
if there is one. -/
structure Final (fs : List Frame) (err : List (MsgType × UInt16 × List UInt8)) : Prop where
  /-- A stream, or the one reply. -/
  head : ∀ f ∈ fs.head?, f.typ = .streamStart ∨ fs = [f]
  /-- A STREAM_STOP is the last frame of all. -/
  stop : ∀ before f after, fs = before ++ f :: after → f.typ = .streamStop → after = [] ∧ err = []

/-- Where a thread stands, the device frames it has written for the request, and the
ERROR of its own. -/
inductive Progress (c : UInt16) (d : Ticket) :
    Phase → List Frame → List (MsgType × UInt16 × List UInt8) → Prop
  | waiting {p} (hp : p.Unanswered c d) : Progress c d p [] []
  | starting {f} (ht : f.typ = .streamStart) : Progress c d (.startWrite c d f) [] []
  | streaming {r p f fs} (hc : r.clientSeq = c) (hd : r.dev = d)
      (hp : ∀ failed, p ≠ .unregister failed) (hf : f.typ = .streamStart)
      (hfs : ∀ g ∈ fs, g.typ ≠ .streamStop) : Progress c d (.relay r p) (f :: fs) []
  | past {p fs err} (hp : p.Past d) (hfinal : Final fs err)
      (herr : err = [] ∨ ∃ payload, err = [(.error, c, payload)]) : Progress c d p fs err

section Progress

variable {s s₁ : State} {i : Nat} {inp : ClientInput} {p p' : Phase} {es : List Event}
  {c : UInt16} {d : Ticket} {fs : List Frame} {err : List (MsgType × UInt16 × List UInt8)}

theorem Final.nil {err : List (MsgType × UInt16 × List UInt8)} : Final [] err where
  head _ h := nomatch h
  stop _ _ _ h := absurd h.symm (List.append_ne_nil_of_right_ne_nil _ (List.cons_ne_nil _ _))

theorem Final.reply (f : Frame) : Final [f] [] where
  head g h := .inr (by rw [Option.mem_some_iff.mp h])
  stop before g after h _ := by
    have hlen := congrArg List.length h
    simp only [List.length_append, List.length_cons, List.length_nil] at hlen
    exact ⟨List.eq_nil_of_length_eq_zero (by omega), rfl⟩

/-- A stream without a STREAM_STOP. -/
theorem Final.cut {f : Frame} (hf : f.typ = .streamStart) (hfs : ∀ g ∈ fs, g.typ ≠ .streamStop) :
    Final (f :: fs) err where
  head g h := .inl (Option.mem_some_iff.mp h ▸ hf)
  stop before g after h ht := by
    have hg : g ∈ f :: fs := h ▸ List.mem_append_right _ List.mem_cons_self
    rcases List.mem_cons.mp hg with rfl | hg
    · exact nomatch hf.symm.trans ht
    · exact absurd ht (hfs g hg)

/-- A stream that its STREAM_STOP ends. -/
theorem Final.stopped {f g : Frame} (hf : f.typ = .streamStart)
    (hfs : ∀ g ∈ fs, g.typ ≠ .streamStop) : Final (f :: fs ++ [g]) [] where
  head h hh := .inl (Option.mem_some_iff.mp hh ▸ hf)
  stop before h after heq ht := by
    refine ⟨?_, rfl⟩
    rcases List.eq_nil_or_concat after with rfl | ⟨init, l, rfl⟩
    · rfl
    · -- then the frame is among those before the last, and none of them is a STREAM_STOP
      have hinit : f :: fs = before ++ h :: init := by
        refine List.append_inj_left' (?_ : _ ++ [g] = _ ++ [l]) rfl
        rw [heq, List.concat_eq_append, List.append_assoc, List.cons_append]
      have hmem : h ∈ f :: fs := hinit ▸ List.mem_append_right _ List.mem_cons_self
      rcases List.mem_cons.mp hmem with rfl | hmem
      · exact nomatch hf.symm.trans ht
      · exact absurd ht (hfs h hmem)

/-- A thread writes about the request it has in hand. -/
theorem ClientMove.about {j : Nat} {about : Source} {typ : MsgType} {seq : UInt16}
    {payload : List UInt8} (h : ClientMove s i inp p s₁ p' es)
    (he : .wrote j about typ seq payload ∈ es) : j = i ∧ about.ticket = p.ticket := by
  cases h with
  | helloWrite | replyWrite | timeoutWrite | startWrite | stopTimeoutWrite | write | final =>
      cases List.mem_singleton.mp he
      exact ⟨rfl, rfl⟩
  | _ => simp at he

theorem told_eq_nil (h : ∀ about typ seq payload, .wrote i about typ seq payload ∈ es →
    about.ticket ≠ some d) : told i d es = [] ∧ passedOn i d es = [] := by
  constructor
  · refine List.filterMap_eq_nil_iff.mpr fun e he => ?_
    cases e with
    | wrote j about typ seq payload => exact if_neg fun hd => h _ _ _ _ (hd.1 ▸ he) hd.2
    | _ => rfl
  · refine List.filterMap_eq_nil_iff.mpr fun e he => ?_
    cases e with
    | wrote j about typ seq payload =>
        cases about with
        | device e f =>
            exact if_neg fun hd => h (.device e f) _ _ _ (hd.1 ▸ he) (congrArg some hd.2)
        | _ => rfl
    | _ => rfl

theorem ClientMove.told_nil (hm : ClientMove s i inp p s₁ p' es) (hp : p.ticket ≠ some d) :
    told i d es = [] ∧ passedOn i d es = [] :=
  told_eq_nil fun _ _ _ _ he hd => hp ((hm.about he).2.symm.trans hd)

/-- What a step of the thread writes for the request, and where it leaves it. -/
def Advances (i : Nat) (c : UInt16) (d : Ticket) (p' : Phase) (fs : List Frame)
    (err : List (MsgType × UInt16 × List UInt8)) (es : List Event) : Prop :=
  ∃ err', err ++ told i d es = (passedOn i d es).map (asTold c) ++ err' ∧
    Progress c d p' (fs ++ passedOn i d es) err'

/-- A step that writes nothing for it. -/
theorem Advances.silent (hes : told i d es = [] ∧ passedOn i d es = []) (h : Progress c d p' fs err) :
    Advances i c d p' fs err es := by
  refine ⟨err, ?_, ?_⟩
  · rw [hes.1, hes.2, List.append_nil]
    rfl
  · rwa [hes.2, List.append_nil]

/-- A step that writes a device frame. -/
theorem Advances.frame {f : Frame} (h : Progress c d p' (fs ++ [f]) []) :
    Advances i c d p' fs [] [.wrote i (.device d f) f.typ c f.payload] := by
  have ht : told i d [.wrote i (.device d f) f.typ c f.payload] = [asTold c f] := by
    simp [told, asTold, Source.ticket]
  have hr : passedOn i d [.wrote i (.device d f) f.typ c f.payload] = [f] := by
    simp [passedOn]
  rw [Advances, ht, hr]
  exact ⟨[], rfl, h⟩

/-- A step that writes an ERROR of the daemon's own. -/
theorem Advances.notice {about : Source} {payload : List UInt8}
    (hs : about = .timeout d ∨ about = .stopTimeout d)
    (h : Progress c d p' fs [(.error, c, payload)]) :
    Advances i c d p' fs [] [.wrote i about .error c payload] := by
  have ht : told i d [.wrote i about .error c payload] = [(.error, c, payload)] := by
    rcases hs with rfl | rfl <;> simp [told, Source.ticket]
  have hr : passedOn i d [.wrote i about .error c payload] = [] := by
    rcases hs with rfl | rfl <;> rfl
  rw [Advances, ht, hr, List.append_nil]
  exact ⟨_, rfl, h⟩

theorem Progress.waiting_move (hm : ClientMove s i inp p s₁ p' es) (hp : p.Unanswered c d) :
    Advances i c d p' [] [] es := by
  have hpast : ∀ {q : Phase}, q.Past d → Progress c d q [] [] :=
    fun hq => .past hq .nil (.inl rfl)
  cases hm with
  | outside hidle => cases p <;> first | exact hp.elim | exact hidle.elim
  | helloWrite | wake | register => exact hp.elim
  | forward => exact .silent ⟨rfl, rfl⟩ (.waiting hp)
  | tooLarge | replyFailed | timeoutFailed => exact .silent ⟨rfl, rfl⟩ (hpast (.inl nofun))
  | start _ ht =>
      obtain ⟨rfl, rfl⟩ := hp
      exact .silent ⟨rfl, rfl⟩ (.starting ht)
  | reply | timeout | replyUnregister | timeoutUnregister =>
      exact .silent ⟨rfl, rfl⟩ (.waiting hp)
  | replyWrite =>
      obtain ⟨rfl, rfl⟩ := hp
      exact .frame (.past (.inl nofun) (.reply _) (.inl rfl))
  | timeoutWrite =>
      obtain ⟨rfl, rfl⟩ := hp
      exact .notice (.inl rfl) (.past (.inl nofun) .nil (.inr ⟨_, rfl⟩))
  | _ => exact hp.elim

theorem Progress.streaming_move {r : Relay} {rp : RelayPhase} {f : Frame}
    (hm : ClientMove s i inp (.relay r rp) s₁ p' es) (hc : r.clientSeq = c) (hd : r.dev = d)
    (hp : ∀ failed, rp ≠ .unregister failed) (hf : f.typ = .streamStart)
    (hfs : ∀ g ∈ fs, g.typ ≠ .streamStop) : Advances i c d p' (f :: fs) [] es := by
  have hcut : ∀ {q : Phase}, q.Past d → Progress c d q (f :: fs) [] :=
    fun hq => .past hq (.cut hf hfs) (.inl rfl)
  subst hc hd
  cases hm with
  | outside hidle => exact hidle.elim
  | overdue | look | hangUp | listen | chatter | stopAsked | stop | relayed | quiet =>
      exact .silent ⟨rfl, rfl⟩ (.streaming rfl rfl nofun hf hfs)
  | stopTimeoutWrite =>
      exact .notice (.inr rfl) (.past (.inr ⟨_, _, rfl⟩) (.cut hf hfs) (.inr ⟨_, rfl⟩))
  | stopTimeoutFailed | writeFailed => exact .silent ⟨rfl, rfl⟩ (hcut (.inl nofun))
  | readFailed | hangUpStop => exact .silent ⟨rfl, rfl⟩ (hcut (.inr ⟨_, _, rfl⟩))
  | write ht =>
      refine .frame (.streaming rfl rfl nofun hf fun g hg => ?_)
      rcases List.mem_append.mp hg with hg | hg
      · exact hfs g hg
      · exact List.mem_singleton.mp hg ▸ ht
  | final => exact .frame (.past (.inr ⟨_, _, rfl⟩) (.stopped hf hfs) (.inl rfl))
  | back => exact absurd rfl (hp _)

theorem Progress.final (h : Progress c d p fs err) :
    Final fs err ∧ (err = [] ∨ ∃ payload, err = [(.error, c, payload)]) := by
  cases h with
  | waiting | starting => exact ⟨.nil, .inl rfl⟩
  | streaming _ _ _ hf hfs => exact ⟨.cut hf hfs, .inl rfl⟩
  | past _ hfinal herr => exact ⟨hfinal, herr⟩

/-- The course of a request, one step of its thread further. -/
theorem Progress.move (hm : ClientMove s i inp p s₁ p' es)
    (hkeep : p'.ticket = some d → p.ticket = some d) (h : Progress c d p fs err) :
    Advances i c d p' fs err es := by
  cases h with
  | waiting hp => exact waiting_move hm hp
  | starting ht =>
      cases hm with
      | outside hidle => exact hidle.elim
      | startWrite =>
          exact .frame (.streaming rfl rfl nofun ht fun _ hg => nomatch hg)
      | startFailed => exact .silent ⟨rfl, rfl⟩ (.past (.inl nofun) .nil (.inl rfl))
  | streaming hc hd hp hf hfs => exact streaming_move hm hc hd hp hf hfs
  | past hp hfinal herr =>
      rcases hp with hp | ⟨r, failed, rfl⟩
      · exact .silent (hm.told_nil hp)
          (.past (.inl fun h => hp (hkeep h)) hfinal herr)
      · cases hm with
        | outside hidle => exact hidle.elim
        | listen hq | chatter hq => rcases hq with hq | hq <;> exact nomatch hq
        | back hq =>
            exact .silent ⟨rfl, rfl⟩
              (.past (.inl (by rcases hq with rfl | rfl <;> exact nofun)) hfinal herr)

end Progress

/-! ## The queue -/

/-- The frame that the owner is about to send to the client. -/
def Owner.framesTo (o : Owner) (i : Nat) : List Frame :=
  match o.sending with
  | some (f, some r) => if r.client = i then [f] else []
  | _ => []

/-- The frame that the thread is about to write. -/
def Phase.inHand (p : Phase) : List Frame := p.held.toList.map Prod.snd

/-- The device frames on their way to the client, the first to be written first. -/
def State.onTheWay (s : State) (i : Nat) : List Frame :=
  (s.threads i).phase.inHand ++ s.channels i ++ s.owner.framesTo i

section Queue

variable {s s₁ : State} {i : Nat} {inp : ClientInput} {p p' : Phase} {es : List Event} {d : Ticket}

theorem Owner.framesTo_of_sending {o : Owner} (h : o.sending = none) : o.framesTo i = [] := by
  rw [Owner.framesTo, h]

theorem Owner.framesTo_unrouted (reader : FrameReader) (f : Frame) :
    (Owner.send reader f none).framesTo i = [] := rfl

theorem Owner.framesTo_routed {reader : FrameReader} {f : Frame} {r : Route} (h : r.client = i) :
    (Owner.send reader f (some r)).framesTo i = [f] := if_pos h

/-- A route is there before a client's step, or the step registers it. -/
theorem ClientMove.route_cases {q : UInt16} {r : Route} (h : ClientMove s i inp p s₁ p' es)
    (hr : s₁.router.routes q = some r) :
    s.router.routes q = some r ∨ (∃ e, .registered i e ∈ es ∧ e.seq = q) ∧ r.client = i := by
  cases h with
  | register =>
      rcases Router.register_some _ _ hr with ⟨rfl, rfl⟩ | ⟨-, hr⟩
      · exact .inr ⟨⟨_, List.mem_singleton_self _, rfl⟩, rfl⟩
      · exact .inl hr
  | replyUnregister | timeoutUnregister | back => exact .inl (Router.unregister_some _ _ _ hr).2
  | _ => exact .inl hr

/-- A request that was registered earlier is not taken up again. -/
theorem ClientMove.keeps (h : ClientMove s i inp p s₁ p' es) (hold : d.id < s.registered)
    (hd : p'.ticket = some d) : p.ticket = some d := by
  rcases h.ticket with ⟨hk | hk, -⟩ | ⟨f, -, hp', -, -⟩
  · exact hk ▸ hd
  · exact nomatch hk.symm.trans hd
  · rw [hp'] at hd
    cases hd
    exact absurd hold (Nat.lt_irrefl _)

theorem ClientMove.emitted_nil {q : UInt16} (h : ClientMove s i inp p s₁ p' es) :
    emitted q es = [] := by
  cases h <;> rfl

/-- What the thread writes for its request is what it has in hand, and what it takes
in hand is the first in its channel. -/
theorem ClientMove.flow (h : ClientMove s i inp p s₁ p' es) (hp : p.ticket = some d) :
    ∃ rest, p.inHand ++ s.channels i = passedOn i d es ++ rest ∧
      (p'.ticket = some d → rest = p'.inHand ++ s₁.channels i) := by
  have hpassed : ∀ (e : Ticket) (c : UInt16) (f : Frame),
      passedOn i e [.wrote i (.device e f) f.typ c f.payload] = [f] := by
    intro e c f
    simp [passedOn]
  cases h with
  | outside hidle => exact nomatch hidle.ticket.symm.trans hp
  | helloWrite | wake | register => exact nomatch hp
  | start hc | reply hc | relayed hc =>
      refine ⟨_, rfl, fun _ => ?_⟩
      dsimp only
      rw [Function.update_self, hc]
      rfl
  | replyWrite | startWrite | write | final =>
      cases hp
      rw [hpassed]
      exact ⟨_, rfl, fun _ => rfl⟩
  | timeout hc => exact ⟨_, rfl, fun _ => rfl⟩
  | back hq => exact ⟨_, rfl, fun h => by rcases hq with rfl | rfl <;> exact nomatch h⟩
  | listen hq | chatter hq =>
      rcases hq with rfl | rfl <;> exact ⟨_, rfl, fun _ => rfl⟩
  | _ => exact ⟨_, rfl, fun h => by first | rfl | exact nomatch h⟩

/-- Nothing is on its way to a client that has registered no request. -/
structure Unused (i : Nat) (s : State) : Prop where
  route : ∀ q r, s.router.routes q = some r → r.client ≠ i
  channel : s.channels i = []
  sending : s.owner.framesTo i = []

theorem Unused.initial : Unused i .initial where
  route _ _ h := nomatch h
  channel := rfl
  sending := rfl

theorem Unused.moved {s' : State} {l : Label} (h : Unused i s) (hm : Moved s l s' es)
    (hnone : ∀ e, .registered i e ∉ es) : Unused i s' := by
  cases hm with
  | tick => exact ⟨h.route, h.channel, h.sending⟩
  | @client j _ s₁ t _ hm =>
      refine ⟨fun q r hr => ?_, ?_, ?_⟩
      · rcases hm.route_cases hr with hr | ⟨⟨e, he, -⟩, rfl⟩
        · exact h.route q r hr
        · rintro rfl
          exact hnone e he
      · refine List.eq_nil_iff_forall_not_mem.mpr fun f hf => ?_
        exact nomatch h.channel ▸ hm.channels hf
      · show s₁.owner.framesTo i = []
        rw [hm.frame.2.1]
        exact h.sending
  | @owner _ s₁ o _ hm =>
      refine ⟨fun q r hr => h.route q r (hm.frame.2.2.1 ▸ hr), ?_, ?_⟩
      · refine List.eq_nil_iff_forall_not_mem.mpr fun f hf => ?_
        rcases hm.channels hf with hf | ⟨r, hs, rfl⟩
        · exact nomatch h.channel ▸ hf
        · have hto := h.sending
          rw [Owner.framesTo, hs] at hto
          simp at hto
      · cases hs : o.sending with
        | none => exact Owner.framesTo_of_sending hs
        | some x =>
            obtain ⟨f, route⟩ := x
            rw [Owner.framesTo, hs]
            cases route with
            | none => rfl
            | some r => exact if_neg (h.route f.seq r (hm.sending hs).1.symm)

/-- The frames of client `i`'s request `d`, from the device to the client. -/
structure InOrder (i : Nat) (d : Ticket) (s : State) (es : List Event) : Prop where
  /-- The number of the request is not given again. -/
  old : d.id < s.registered
  route : ∀ r, s.router.routes d.seq = some r → r.client = i
  inHand : s.ticket i = some d → ∃ lost,
    emitted d.seq es = passedOn i d es ++ s.onTheWay i ++ lost ∧
    (s.router.routes d.seq ≠ none → lost = [])
  isPrefix : passedOn i d es <+: emitted d.seq es

/-- Right after the client's first registration. -/
theorem InOrder.registered {t : Thread} (hu : Unused i s)
    (hm : ClientMove s i inp (s.threads i).phase s₁ t.phase [.registered i d]) :
    InOrder i d (s₁.setThread i t) [] := by
  generalize hp : (s.threads i).phase = p at hm
  generalize hp' : t.phase = p' at hm
  cases hm with
  | register =>
      refine ⟨Nat.lt_succ_self _, fun r hr => ?_, fun _ => ⟨[], ?_, fun _ => rfl⟩,
        List.prefix_refl _⟩
      · cases (Router.register_self _ _).symm.trans hr
        rfl
      · rw [State.onTheWay, State.setThread_self, hp']
        show [] = [] ++ ([] ++ s.channels i ++ s.owner.framesTo i) ++ []
        rw [hu.channel, hu.sending]
        rfl

theorem InOrder.client {j : Nat} {t : Thread} {es' : List Event} (h : InOrder i d s es)
    (hm : ClientMove s j inp (s.threads j).phase s₁ t.phase es')
    (hseq : ∀ k e, .registered k e ∈ es' → e.seq ≠ d.seq) :
    InOrder i d (s₁.setThread j t) (es ++ es') := by
  have hemitted : emitted d.seq (es ++ es') = emitted d.seq es := by
    rw [emitted_append, hm.emitted_nil, List.append_nil]
  have hroute : ∀ r, s₁.router.routes d.seq = some r → s.router.routes d.seq = some r := by
    intro r hr
    rcases hm.route_cases hr with hr | ⟨⟨e, he, hq⟩, -⟩
    · exact hr
    · exact absurd hq (hseq j e he)
  have hlost : s₁.router.routes d.seq ≠ none → s.router.routes d.seq ≠ none := by
    intro hr
    obtain ⟨r, hr⟩ := Option.ne_none_iff_exists'.mp hr
    exact fun hnone => nomatch (hroute r hr).symm.trans hnone
  have hold : d.id < s₁.registered := by
    rcases hm.ticket with ⟨-, hn⟩ | ⟨-, -, -, hn, -⟩ <;> have := h.old <;> omega
  have hsending : s₁.owner = s.owner := hm.frame.2.1
  rcases eq_or_ne j i with rfl | hj
  · -- the client's own thread
    have hkeep := hm.keeps h.old
    by_cases hp : (s.threads j).phase.ticket = some d
    · obtain ⟨lost, heq, hstands⟩ := h.inHand hp
      obtain ⟨rest, hflow, hrest⟩ := hm.flow hp
      have hwhole : emitted d.seq (es ++ es')
          = passedOn j d (es ++ es') ++ (rest ++ s.owner.framesTo j) ++ lost := by
        rw [hemitted, heq, State.onTheWay, hflow, passedOn_append]
        simp only [List.append_assoc]
      refine ⟨hold, fun r hr => h.route r (hroute r hr), fun hd => ⟨lost, ?_, ?_⟩, ?_⟩
      · rw [State.ticket, State.setThread_self] at hd
        rw [hwhole, hrest hd, State.onTheWay, State.setThread_self]
        show _ = _ ++ (_ ++ s₁.owner.framesTo j) ++ _
        rw [hsending]
        rfl
      · exact fun hr => hstands (hlost hr)
      · rw [hwhole, List.append_assoc]
        exact List.prefix_append _ _
    · have hnil := (hm.told_nil hp).2
      refine ⟨hold, fun r hr => h.route r (hroute r hr), fun hd => ?_, ?_⟩
      · rw [State.ticket, State.setThread_self] at hd
        exact absurd (hkeep hd) hp
      · rw [hemitted, passedOn_append, hnil, List.append_nil]
        exact h.isPrefix
  · -- another client's thread
    have hnil : passedOn i d es' = [] :=
      (told_eq_nil fun _ _ _ _ he _ => hj (hm.about he).1.symm).2
    refine ⟨hold, fun r hr => h.route r (hroute r hr), fun hd => ?_, ?_⟩
    · rw [State.ticket, State.setThread_of_ne _ _ _ hj.symm, hm.frame.1] at hd
      obtain ⟨lost, heq, hstands⟩ := h.inHand hd
      refine ⟨lost, ?_, fun hr => hstands (hlost hr)⟩
      rw [hemitted, heq, passedOn_append, hnil, List.append_nil, State.onTheWay, State.onTheWay,
        State.setThread_of_ne _ _ _ hj.symm, hm.frame.1]
      show _ = _ ++ (_ ++ s₁.channels i ++ s₁.owner.framesTo i) ++ _
      rw [hm.channels_of_ne hj.symm, hsending]
    · rw [hemitted, passedOn_append, hnil, List.append_nil]
      exact h.isPrefix

/-- The owner's step moves what is to be sent one place further, or it is the arrival
of the next frame. -/
theorem OwnerMove.flow {o o' : Owner} (hm : OwnerMove s o s₁ o' es) (hup : o.up = true)
    (hopen : (s.threads i).phase ≠ .closed) :
    (emitted d.seq es = [] ∧ s₁.channels i ++ o'.framesTo i = s.channels i ++ o.framesTo i) ∨
    ∃ reader f, o.framesTo i = [] ∧ s₁.channels i = s.channels i ∧ es = [.arrived f] ∧
      o' = .send reader f (s.router.lookup f) := by
  cases hm with
  | quiet ho ho' | setCaps ho ho' | woken ho ho' =>
      refine .inl ⟨rfl, ?_⟩
      rw [Owner.framesTo_of_sending ho.1.2, Owner.framesTo_of_sending ho'.2]
  | see => exact nomatch hup
  | pop | chunk | chunkFailed | written => exact .inl ⟨rfl, rfl⟩
  | lookup => exact .inr ⟨_, _, rfl, by rw [(mark_frame s _).2.2.2.1], rfl, rfl⟩
  | @sent reader f r =>
      refine .inl ⟨rfl, ?_⟩
      show Function.update s.channels r.client _ i ++ []
        = s.channels i ++ if r.client = i then [f] else []
      split_ifs with hc
      · rw [hc, Function.update_self, List.append_nil]
      · rw [Function.update_of_ne (Ne.symm hc)]
  | @hungUp reader f r hclosed =>
      refine .inl ⟨rfl, ?_⟩
      show s.channels i ++ [] = s.channels i ++ if r.client = i then [f] else []
      rw [if_neg]
      rintro rfl
      exact hopen hclosed
  | unrouted => exact .inl ⟨rfl, rfl⟩

theorem InOrder.owner {o : Owner} {es' : List Event} (h : InOrder i d s es) (hr : Routed s)
    (hup : s.owner.up = true) (hm : OwnerMove s s.owner s₁ o es') :
    InOrder i d { s₁ with owner := o } (es ++ es') := by
  obtain ⟨hthreads, hregistered, hroutes, -⟩ := hm.frame
  have hpassed : passedOn i d (es ++ es') = passedOn i d es := by
    rw [passedOn_append, (told_eq_nil fun _ _ _ _ he _ => hm.wrote he).2, List.append_nil]
  refine ⟨hregistered ▸ h.old, fun r hr => h.route r (hroutes ▸ hr), fun hd => ?_, ?_⟩
  · rw [State.ticket, hthreads] at hd
    obtain ⟨lost, heq, hstands⟩ := h.inHand hd
    have hopen : (s.threads i).phase ≠ .closed := by
      intro hclosed
      rw [hclosed] at hd
      cases hd
    rw [hpassed, emitted_append, heq, State.onTheWay, State.onTheWay, hthreads]
    dsimp only
    rcases hm.flow hup hopen with ⟨hnone, hflow⟩ | ⟨reader, f, hnil, hchannel, rfl, rfl⟩
    · refine ⟨lost, ?_, fun hr => hstands (hroutes ▸ hr)⟩
      rw [hnone, List.append_nil, List.append_assoc _ (s.channels i), ← hflow,
        List.append_assoc _ (s₁.channels i)]
    · rw [hnil, hchannel, List.append_nil]
      by_cases hq : f.seq = d.seq
      · have hone : emitted d.seq [.arrived f] = [f] := by simp [emitted, hq]
        rw [hone, Router.lookup, hq]
        cases hrt : s.router.routes d.seq with
        | none =>
            refine ⟨lost ++ [f], ?_, fun hr => absurd (hroutes ▸ hrt) hr⟩
            rw [Owner.framesTo_unrouted, List.append_nil, List.append_assoc]
        | some r =>
            refine ⟨[], ?_, fun _ => rfl⟩
            rw [hstands (hrt ▸ Option.some_ne_none r), Owner.framesTo_routed (h.route r hrt)]
            simp only [List.append_assoc, List.append_nil]
      · -- another seq's frame is routed elsewhere
        have hone : emitted d.seq [.arrived f] = [] := by simp [emitted, hq]
        have helse : (Owner.send reader f (s.router.lookup f)).framesTo i = [] := by
          cases hrt : s.router.lookup f with
          | none => rfl
          | some r =>
              refine if_neg ?_
              rintro rfl
              exact hq ((hr f.seq r hrt).seq hd).symm
        refine ⟨lost, ?_, fun hr => hstands (hroutes ▸ hr)⟩
        rw [hone, helse, List.append_nil, List.append_nil]
  · rw [hpassed, emitted_append]
    exact h.isPrefix.trans (List.prefix_append _ _)

/-- What client `i` has been told about its request `d`, with the client's seq `c`. -/
structure Course (i : Nat) (c : UInt16) (d : Ticket) (s : State) (es : List Event) : Prop where
  progress : ∃ err, told i d es = (passedOn i d es).map (asTold c) ++ err ∧
    Progress c d (s.threads i).phase (passedOn i d es) err
  /-- While the request is in hand, the client is told about nothing else. -/
  only : s.ticket i = some d → ∀ about typ seq payload, .wrote i about typ seq payload ∈ es →
    about.ticket = some d

theorem Course.moved {c : UInt16} {s' : State} {l : Label} {es' : List Event}
    (h : Course i c d s es) (hold : d.id < s.registered) (hm : Moved s l s' es') :
    Course i c d s' (es ++ es') := by
  have hsame : (s'.threads i).phase = (s.threads i).phase →
      (∀ about typ seq payload, .wrote i about typ seq payload ∉ es') →
      Course i c d s' (es ++ es') := by
    intro hphase hnone
    have hnil : told i d es' = [] ∧ passedOn i d es' = [] :=
      told_eq_nil fun _ _ _ _ he _ => hnone _ _ _ _ he
    refine ⟨?_, fun hd about typ seq payload he => ?_⟩
    · rw [told_append, passedOn_append, hnil.1, hnil.2, List.append_nil, List.append_nil, hphase]
      exact h.progress
    · rw [State.ticket, hphase] at hd
      exact h.only hd about typ seq payload
        ((List.mem_append.mp he).resolve_right (hnone _ _ _ _))
  cases hm with
  | tick => exact hsame rfl fun _ _ _ _ => List.not_mem_nil
  | owner hm => exact hsame (by rw [hm.frame.1]) fun _ _ _ _ => hm.wrote
  | @client j _ s₁ t _ hm =>
      rcases eq_or_ne i j with rfl | hj
      · obtain ⟨err, htold, hp⟩ := h.progress
        obtain ⟨err', hnew, hp'⟩ := hp.move hm (hm.keeps hold)
        constructor
        · refine ⟨err', ?_, ?_⟩
          · rw [told_append, passedOn_append, htold, List.append_assoc, hnew, List.map_append,
              List.append_assoc]
          · rw [passedOn_append, State.setThread_self]
            exact hp'
        · intro hd about typ seq payload he
          rw [State.ticket, State.setThread_self] at hd
          have hbefore := hm.keeps hold hd
          rcases List.mem_append.mp he with he | he
          · exact h.only hbefore about typ seq payload he
          · exact (hm.about he).2.trans hbefore
      · refine hsame ?_ fun _ _ _ _ he => hj (hm.about he).1
        rw [State.setThread_of_ne _ _ _ hj, hm.frame.1]

theorem InOrder.moved {s' : State} {l : Label} {es' : List Event} (h : InOrder i d s es)
    (hr : Routed s) (hup : s.owner.up = true) (hm : Moved s l s' es')
    (hseq : ∀ k e, .registered k e ∈ es' → e.seq ≠ d.seq) : InOrder i d s' (es ++ es') := by
  cases hm with
  | tick =>
      rw [List.append_nil]
      exact ⟨h.old, h.route, h.inHand, h.isPrefix⟩
  | owner hm => exact h.owner hr hup hm
  | client hm => exact h.client hm hseq

end Queue

theorem run_routed {ls : List Label} {s : State} {es : List Event}
    (hr : (machine eb).run .initial ls = some (s, es)) : Routed s := by
  refine Machine.run_invariant (P := Routed) (fun h hs => h.moved (step_moved hs)) ?_ hr
  exact fun _ _ h => nomatch h

theorem run_unused {ls : List Label} {s : State} {es : List Event} {i : Nat}
    (hr : (machine eb).run .initial ls = some (s, es)) (hnone : ∀ e, .registered i e ∉ es) :
    Unused i s := by
  refine Machine.run_events (P := fun s es => (∀ e, .registered i e ∉ es) → Unused i s)
    (fun h hs hnone => ?_) (fun _ => .initial) hr hnone
  refine (h fun e he => hnone e (List.mem_append_left _ he)).moved (step_moved hs) fun e he => ?_
  exact hnone e (List.mem_append_right _ he)

theorem emitted_eq_filter (q : UInt16) (es : List Event) :
    emitted q es = (arrivals es).filter fun f => f.seq = q := by
  rw [arrivals, List.filter_filterMap]
  refine congrArg (fun g => es.filterMap g) (funext fun e => ?_)
  cases e with
  | arrived f => simp [Option.filter]
  | _ => rfl

/-- **The stream relay is a queue.**  Let a client register its first request, which
it numbers `f.seq`, and let the link stay up and the device seq not be registered
again.  In every run from there, the device frames written to the client for the
request are a prefix of those that have come from the device with its seq, each
with its type and payload and the client's seq, and behind them at most one ERROR
of the daemon's own; they are a stream or a single reply, and a STREAM_STOP among
them is the last frame of all.  While the request is in hand, nothing else is
written to the client.  What has come from the device is a prefix of what it sends:
of any frames `gs` whose bytes are those the pump reads. -/
theorem relay_in_order {ls₁ ls₂ : List Label} {s₁ s₂ s₃ : State} {es₁ es₂ : List Event} {i : Nat}
    {f : Frame} {d : Ticket} (hr₁ : (machine eb).run .initial ls₁ = some (s₁, es₁))
    (hfirst : ∀ e, .registered i e ∉ es₁) (hf : (s₁.threads i).phase = .register f)
    (hreg : (machine eb).step s₁ (.client i .go) = some (s₂, [.registered i d]))
    (hr₂ : (machine eb).run s₂ ls₂ = some (s₃, es₂))
    (hseq : ∀ j e, .registered j e ∈ es₂ → e.seq ≠ d.seq)
    (hup : (machine eb).Guarded LinkUp s₂ ls₂) :
    (∃ err, told i d es₂ = (passedOn i d es₂).map (asTold f.seq) ++ err ∧
      (err = [] ∨ ∃ payload, err = [(.error, f.seq, payload)]) ∧ Final (passedOn i d es₂) err) ∧
    passedOn i d es₂ <+: emitted d.seq es₂ ∧
    (s₃.ticket i = some d → ∀ about typ seq payload, .wrote i about typ seq payload ∈ es₂ →
      about.ticket = some d) ∧
    ∀ gs : List Frame, (∀ g ∈ gs, g.payload.length ≤ 0xFFFF) →
      s₂.owner.undecoded ++ bytesRead ls₂ <+: gs.flatMap Frame.wire →
      emitted d.seq es₂ <+: (s₂.owner.decoded ++ gs).filter fun g => g.seq = d.seq := by
  have hm : Moved s₁ (.client i .go) s₂ [.registered i d] := by
    rw [machine] at hreg
    exact step_moved hreg
  have hrouted : Routed s₂ := (run_routed hr₁).moved hm
  have hstart : InOrder i d s₂ [] ∧ Course i f.seq d s₂ [] := by
    cases hm with
    | @client _ _ s t _ hm =>
        refine ⟨.registered (run_unused hr₁ hfirst) hm, ⟨[], rfl, ?_⟩,
          fun _ _ _ _ _ he => nomatch he⟩
        rw [State.setThread_self]
        refine .waiting ?_
        generalize ht : t.phase = p' at hm
        rw [hf] at hm
        cases hm
        exact ⟨rfl, rfl⟩
  have hrun : Routed s₃ ∧ InOrder i d s₃ es₂ ∧ Course i f.seq d s₃ es₂ := by
    refine Machine.run_guarded_events (G := LinkUp) (P := fun s es =>
      (∀ j e, .registered j e ∈ es → e.seq ≠ d.seq) →
        Routed s ∧ InOrder i d s es ∧ Course i f.seq d s es)
      (fun h hg hs hseq => ?_) (fun _ => ⟨hrouted, hstart⟩) hup hr₂ hseq
    obtain ⟨hrt, hin, hco⟩ := h fun j e he => hseq j e (List.mem_append_left _ he)
    have hm := step_moved hs
    exact ⟨hrt.moved hm,
      hin.moved hrt hg hm fun j e he => hseq j e (List.mem_append_right _ he),
      hco.moved hin.old hm⟩
  obtain ⟨-, hin, hco⟩ := hrun
  obtain ⟨err, htold, hp⟩ := hco.progress
  have hfinal := hp.final
  refine ⟨⟨err, htold, hfinal.2, hfinal.1⟩, hin.isPrefix, hco.only, fun gs hgs hpre => ?_⟩
  rw [emitted_eq_filter]
  exact (run_pump hgs hup hr₂ hpre).filter _

/-! ## A stream that is relayed -/

def streamStart : Frame :=
  { typ := .streamStart, flags := 0, seq := 1, payload := streamStartBody streamFormatRawI32Us }

def streamStop : Frame := { typ := .streamStop, flags := 0, seq := 1, payload := streamStopBody 0 }

/-- The device is there, and a client has sent its first request. -/
def firstRequest : List Label :=
  connectLabels ++ [.client 0 (.read (.data (askFrame 5).wire)), .client 0 .go, .client 0 .go]

/-- The request is written, and the device answers with a stream that is over at once. -/
def shortStream : List Label :=
  [.client 0 .go, .owner .go, .owner (.wrote true), .owner .go, .owner .go,
    .owner (.read (some (streamStart.wire ++ streamStop.wire))), .owner .go, .owner .go, .owner .go,
    .client 0 .go, .client 0 (.wrote true), .owner .go, .owner .go, .owner .go, .client 0 .go,
    .client 0 (.read .timeout), .client 0 .go, .client 0 (.wrote true)]

/-- A stream that is relayed to its end. -/
theorem relay_in_order_stream :
    ∃ s₁ s₂ s₃ es₂, (machine agentErrorBody).step s₁ (.client 0 .go)
        = some (s₂, [.registered 0 ⟨1, 0⟩]) ∧
      (machine agentErrorBody).run s₂ shortStream = some (s₃, es₂) ∧
      passedOn 0 ⟨1, 0⟩ es₂ = [streamStart, streamStop] ∧
      passedOn 0 ⟨1, 0⟩ es₂ <+: emitted 1 es₂ ∧
      ∃ err, told 0 ⟨1, 0⟩ es₂ = (passedOn 0 ⟨1, 0⟩ es₂).map (asTold 5) ++ err := by
  let M := machine agentErrorBody
  let s₁ := M.final .initial firstRequest
  let s₂ := M.final s₁ [.client 0 .go]
  have hr₁ : M.run .initial firstRequest
      = some (s₁, [.arrived { typ := .caps, flags := 0, seq := 0, payload := [0] }]) :=
    Machine.run_final (by decide +kernel)
  have hr : M.run s₁ [.client 0 .go] = some (s₂, [.registered 0 ⟨1, 0⟩]) :=
    Machine.run_final (by decide +kernel)
  have hr₂ : M.run s₂ shortStream = some (M.final s₂ shortStream,
      [.queued 0 ⟨1, 0⟩ .request .req,
        .deviceWrite ⟨.request, ⟨1, 0⟩, .req, wire .req 0 1 [1, 2]⟩ (wire .req 0 1 [1, 2]),
        .arrived streamStart, .received 0 ⟨1, 0⟩ streamStart,
        .wrote 0 (.device ⟨1, 0⟩ streamStart) .streamStart 5 streamStart.payload,
        .arrived streamStop, .received 0 ⟨1, 0⟩ streamStop,
        .wrote 0 (.device ⟨1, 0⟩ streamStop) .streamStop 5 streamStop.payload]) :=
    Machine.run_final (by decide +kernel)
  have hreg := Machine.step_of_run hr
  have h := relay_in_order (f := askFrame 5) hr₁ (fun e he => nomatch List.mem_singleton.mp he)
    (by decide +kernel) hreg hr₂ (by simp) (by decide +kernel)
  obtain ⟨⟨err, htold, -⟩, hprefix, -⟩ := h
  exact ⟨s₁, s₂, _, _, hreg, hr₂, by decide, hprefix, err, htold⟩

end FlipLink.Daemon
