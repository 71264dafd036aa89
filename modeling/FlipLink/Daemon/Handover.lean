/-
# `FlipLink.Daemon.Handover` — from the handshake to the pump

After a HELLO the device may send CAPS among other frames: a relay survives a serial
error, and the stream that it relays goes on.  `cache_caps` and `pump` read the same bytes
with a reader each.  The handshake passes over every frame but CAPS, and when it returns,
what its reader holds behind CAPS is gone, whole frames and the beginning of one.

`recorded` is the daemon with what has gone over the link since the HELLO.  What the pump
hands on are the frames of the bytes that it reads itself (`Handed`); so the frames of a
seq all come to their route exactly if the bytes of the handshake make none of them, and
the unfinished ones make no difference to what follows.
-/
import FlipLink.Daemon.Caps
import FlipLink.Daemon.Delivery

namespace FlipLink.Daemon

open Lib

/-! ## What goes over the link -/

/-- What there is to know of a session. -/
structure Traffic where
  /-- The bytes that the handshake has read. -/
  greeted : List UInt8
  /-- The bytes that the pump has read. -/
  pumped : List UInt8
  /-- The frames that went into a channel, and the routes that led there. -/
  delivered : List (Frame × Route)
  deriving DecidableEq, Repr

namespace Traffic

def initial : Traffic := { greeted := [], pumped := [], delivered := [] }

/-- The traffic over a step of the owner. -/
def next (k : Traffic) (s : State) (inp : OwnerInput) : Traffic :=
  match s.owner with
  | .handshakeRead .. => { k with greeted := k.greeted ++ inp.bytes }
  | .read _ => { k with pumped := k.pumped ++ inp.bytes }
  | .send _ f (some r) =>
      if (s.threads r.client).phase = .closed then k
      else { k with delivered := k.delivered ++ [(f, r)] }
  | _ => k

/-- The traffic over a step of the daemon. -/
def after (k : Traffic) (s : State) : Label → Traffic
  | .owner inp => k.next s inp
  | .client .. | .tick _ => k

/-- The frames of a seq that went the way of a route. -/
def sentTo (k : Traffic) (q : UInt16) (r : Route) : List Frame :=
  k.delivered.filterMap fun d => if d.1.seq = q ∧ d.2 = r then some d.1 else none

end Traffic

/-- The frames of a seq that a reader makes of the bytes. -/
def framesOf (q : UInt16) (bytes : List UInt8) : List Frame :=
  (FrameReader.new.feed bytes).drain.1.filter fun f => f.seq = q

/-- The bytes that it is left with. -/
def unfinished (bytes : List UInt8) : List UInt8 := (FrameReader.new.feed bytes).drain.2.buf

namespace Owner

/-- The device has been greeted, and the link has not failed since. -/
def inSession : Owner → Bool
  | .handshake .. | .handshakeRead .. | .see .. | .cache _ => true
  | o => o.up

/-- A frame of this seq is being handed on. -/
def handsOn (q : UInt16) : Owner → Bool
  | .lookup _ f | .send _ f _ => f.seq = q
  | _ => false

/-- The pump has handed on every frame that it has read. -/
def caughtUp : Owner → Bool
  | .out _ | .write .. | .read _ => true
  | _ => false

end Owner

section Recorded

variable (errorBody : UInt32 → String → List UInt8)

/-- The daemon with the traffic of the session. -/
def recorded : Machine (State × Traffic) Label Event where
  step x l := (step errorBody x.1 l).map fun p => ((p.1, x.2.after x.1 l), p.2)

/-- A run of it is a run of the daemon. -/
theorem recorded_run (x : State × Traffic) (ls : List Label) :
    (machine errorBody).run x.1 ls
      = ((recorded errorBody).run x ls).map fun p => (p.1.1, p.2) := by
  refine Machine.run_map (f := Prod.fst) (fun x l => ?_) ls x
  show step errorBody x.1 l = ((step errorBody x.1 l).map _).map _
  rw [Option.map_map]
  exact Option.map_id'.symm

end Recorded

/-- The session lasts, and where a frame of seq `q` is handed on `r` is its route, with a
receiver at the end. -/
def LiveRoute (q : UInt16) (r : Route) (x : State × Traffic) (_ : Label) : Prop :=
  x.1.owner.inSession = true ∧
    (x.1.owner.handsOn q = true →
      x.1.router.routes q = some r ∧ (x.1.threads r.client).phase ≠ .closed)

/-- When the pump has caught up, the frames of seq `q` that have come are those that went
to `r`, once each and in order. -/
def AllDelivered (q : UInt16) (r : Route) (x : State × Traffic) (_ : Label) : Prop :=
  x.1.owner.caughtUp = true → x.2.sentTo q r = framesOf q (x.2.greeted ++ x.2.pumped)

/-- When the pump has caught up: the bytes of the handshake make no frame of seq `q`, and
with the unfinished ones before them those of the pump make the same as without. -/
def Seamless (q : UInt16) (x : State × Traffic) (_ : Label) : Prop :=
  x.1.owner.caughtUp = true →
    framesOf q x.2.greeted = [] ∧
      framesOf q (unfinished x.2.greeted ++ x.2.pumped) = framesOf q x.2.pumped

instance (q : UInt16) (r : Route) (x : State × Traffic) (l : Label) :
    Decidable (LiveRoute q r x l) :=
  inferInstanceAs (Decidable (_ ∧ (_ → _)))

instance (q : UInt16) (r : Route) (x : State × Traffic) (l : Label) :
    Decidable (AllDelivered q r x l) :=
  inferInstanceAs (Decidable (_ → _))

instance (q : UInt16) (x : State × Traffic) (l : Label) : Decidable (Seamless q x l) :=
  inferInstanceAs (Decidable (_ → _))

theorem Traffic.next_delivered (k : Traffic) {s : State}
    (h : ∀ f r, s.owner.sending ≠ some (f, some r)) (inp : OwnerInput) :
    (k.next s inp).delivered = k.delivered := by
  unfold Traffic.next
  split
  · rfl
  · rfl
  · rename_i f r ho
    exact absurd (by rw [ho]; rfl) (h f r)
  · rfl

/-- What is delivered is put into the channel of the route's client. -/
theorem recorded_delivered {eb : UInt32 → String → List UInt8} {x x' : State × Traffic}
    {l : Label} {es : List Event} (hs : (recorded eb).step x l = some (x', es)) :
    x'.2.delivered = x.2.delivered ∨
      ∃ f r, x'.2.delivered = x.2.delivered ++ [(f, r)] ∧
        x'.1.channels
          = Function.update x.1.channels r.client (x.1.channels r.client ++ [f]) := by
  obtain ⟨⟨s', es'⟩, hstep, heq⟩ := Option.map_eq_some_iff.mp hs
  cases heq
  cases l with
  | tick ms | client i inp => exact .inl rfl
  | owner inp =>
      obtain ⟨s₁, o, hm, rfl⟩ := ownerStep_moves hstep
      show (x.2.next x.1 inp).delivered = _ ∨ _
      generalize ho : x.1.owner = o₀ at hm
      cases hm with
      | sent hopen =>
          refine .inr ⟨_, _, ?_, rfl⟩
          show (x.2.next x.1 inp).delivered = _
          rw [Traffic.next, ho]
          dsimp only
          rw [if_neg hopen]
      | hungUp hclosed =>
          left
          rw [Traffic.next, ho]
          dsimp only
          rw [if_pos hclosed]
      | quiet hq | setCaps hq | woken hq =>
          refine .inl (Traffic.next_delivered _ (fun f r hsend => ?_) inp)
          rw [ho, hq.sending] at hsend
          cases hsend
      | _ =>
          refine .inl (Traffic.next_delivered _ (fun f r hsend => ?_) inp)
          rw [ho] at hsend
          cases hsend

/-! ## Two readers of one stream -/

theorem framesOf_eq (q : UInt16) (bytes : List UInt8) :
    framesOf q bytes = (codec.drain bytes).1.filter fun f => f.seq = q := by
  rw [framesOf, FrameReader.new_feed, FrameReader.drain_eq]

theorem unfinished_eq (bytes : List UInt8) : unfinished bytes = (codec.drain bytes).2 := by
  rw [unfinished, FrameReader.new_feed, FrameReader.drain_eq]

theorem framesOf_append (q : UInt16) (a b : List UInt8) :
    framesOf q (a ++ b) = framesOf q a ++ framesOf q (unfinished a ++ b) := by
  rw [framesOf_eq, framesOf_eq, framesOf_eq, unfinished_eq, codec.drain_append,
    List.filter_append]

/-- Nothing more comes of what a reader is left with. -/
theorem drain_of_needMore {buf : List UInt8} (h : codec.decode buf = .needMore) :
    codec.drain buf = ([], buf) :=
  codec.drain_of_none (codec.next_of_needMore h)

theorem framesOf_unfinished (q : UInt16) (bytes : List UInt8) :
    framesOf q (unfinished bytes) = [] := by
  rw [framesOf_eq, unfinished_eq, drain_of_needMore (codec.drain_needMore bytes)]
  rfl

/-! ## What the pump hands on -/

section Handed

variable {q : UInt16} {r : Route}

/-- What went to the route, with what the owner has in its hands and what its reader can
still make, are the frames of the bytes pumped. -/
def Holding (q : UInt16) (r : Route) (k : Traffic) (hand : List Frame) (buf : List UInt8) : Prop :=
  k.sentTo q r ++ (hand ++ (codec.drain buf).1).filter (fun f => f.seq = q)
      = (codec.drain k.pumped).1.filter (fun f => f.seq = q) ∧
    (codec.drain buf).2 = (codec.drain k.pumped).2

/-- The handshake hands nothing on, and the pump what it has read. -/
def Handed (q : UInt16) (r : Route) (k : Traffic) : Owner → Prop
  | .handshake .. | .handshakeRead .. | .see .. | .cache _ => k.pumped = [] ∧ k.sentTo q r = []
  | .out reader | .write reader _ _ | .read reader =>
      Holding q r k [] reader.buf ∧ codec.decode reader.buf = .needMore
  | .frames reader => Holding q r k [] reader.buf
  | .lookup reader f => Holding q r k [f] reader.buf
  | .send reader f route => Holding q r k [f] reader.buf ∧ (f.seq = q → route = some r)
  | _ => True

theorem Handed.caughtUp {k : Traffic} : ∀ {o : Owner}, Handed q r k o → o.caughtUp = true →
    k.sentTo q r = framesOf q k.pumped
  | .out _, ⟨h, hmore⟩, _ | .write .., ⟨h, hmore⟩, _ | .read _, ⟨h, hmore⟩, _ => by
      have hframes := h.1
      rw [drain_of_needMore hmore, List.append_nil, List.filter_nil, List.append_nil] at hframes
      rw [framesOf_eq, hframes]

theorem handed_failed (k : Traffic) (n now : Nat) : Handed q r k (Owner.failed n now) := by
  unfold Owner.failed
  split_ifs <;> trivial

/-- More bytes, where nothing can be made of those that are there. -/
theorem Holding.feed {k : Traffic} {buf : List UInt8} (h : Holding q r k [] buf)
    (hmore : codec.decode buf = .needMore) (bytes : List UInt8) :
    Holding q r { k with pumped := k.pumped ++ bytes } [] (buf ++ bytes) := by
  obtain ⟨hframes, hrest⟩ := h
  rw [drain_of_needMore hmore] at hframes hrest
  dsimp only at hframes hrest
  rw [List.append_nil, List.filter_nil, List.append_nil] at hframes
  subst hrest
  refine ⟨?_, ?_⟩
  · show k.sentTo q r ++ _ = _
    rw [hframes, codec.drain_append k.pumped, List.nil_append, ← List.filter_append]
  · rw [codec.drain_append k.pumped]

/-- A frame that is taken out of the reader is in hand. -/
theorem Holding.next {k : Traffic} {reader reader' : FrameReader} {f : Frame}
    (h : Holding q r k [] reader.buf) (hn : reader.nextFrame = (some f, reader')) :
    Holding q r k [f] reader'.buf := by
  have hnext := FrameReader.next_of_nextFrame hn
  rw [Holding, codec.drain_of_some hnext] at h
  exact h

/-- When there is none to take, the reader is left with what needs more. -/
theorem Holding.waiting {k : Traffic} {reader reader' : FrameReader}
    (h : Holding q r k [] reader.buf) (hn : reader.nextFrame = (none, reader')) :
    Holding q r k [] reader'.buf ∧ codec.decode reader'.buf = .needMore := by
  have hnext := FrameReader.next_of_nextFrame hn
  have hmore := codec.next_none_needMore hnext
  rw [Holding, codec.drain_of_none hnext] at h
  refine ⟨?_, hmore⟩
  rw [Holding, drain_of_needMore hmore]
  exact h

/-- A frame of another seq leaves the hand. -/
theorem Holding.other {k : Traffic} {f : Frame} {buf : List UInt8} (h : Holding q r k [f] buf)
    (hf : f.seq ≠ q) : Holding q r k [] buf := by
  obtain ⟨hframes, hrest⟩ := h
  refine ⟨?_, hrest⟩
  rw [← hframes, List.singleton_append, List.filter_cons_of_neg (by simpa using hf)]
  rfl

/-- A frame goes into a channel. -/
theorem Holding.sent {k : Traffic} {f : Frame} {buf : List UInt8} {r' : Route}
    (h : Holding q r k [f] buf) (hr : f.seq = q → r' = r) :
    Holding q r { k with delivered := k.delivered ++ [(f, r')] } [] buf := by
  by_cases hf : f.seq = q
  · obtain ⟨hframes, hrest⟩ := h
    refine ⟨?_, hrest⟩
    rw [List.singleton_append, List.filter_cons_of_pos (by simpa using hf)] at hframes
    rw [← hframes, Traffic.sentTo, List.filterMap_append]
    dsimp only [List.filterMap_cons, List.filterMap_nil]
    rw [if_pos ⟨hf, hr hf⟩, List.append_assoc]
    rfl
  · obtain ⟨hframes, hrest⟩ := h.other hf
    refine ⟨?_, hrest⟩
    rw [← hframes, Traffic.sentTo, List.filterMap_append]
    dsimp only [List.filterMap_cons, List.filterMap_nil]
    rw [if_neg fun hc => hf hc.1, List.append_nil]
    rfl

variable {s s₁ : State} {k : Traffic} {a : Owner.Answer} {inp : OwnerInput} {es : List Event}
  {o' : Owner}

/-- A step of the owner while the session lasts. -/
theorem handed_moves : ∀ {o : Owner}, s.owner = o → Handed q r k o →
    (o.handsOn q = true → s.router.routes q = some r ∧ (s.threads r.client).phase ≠ .closed) →
    Owned s o.need a s₁ es → a.bytes = inp.bytes → o.resume s.now a = some o' →
    o.inSession = true → Handed q r (k.next s inp) o'
  | .handshake n reader deadline, ho, h, _, .go, _, hr, _ => by
      rw [Traffic.next, ho]
      simp only [Owner.resume] at hr
      split at hr
      · cases hr
        exact h
      · cases hr
        split_ifs
        · exact handed_failed k _ _
        · exact h
  | .see n reader deadline f, ho, h, _, .see, _, hr, _ => by
      rw [Traffic.next, ho]
      cases hr
      split_ifs <;> exact h
  | .handshakeRead n reader deadline, ho, h, _, .read none, _, hr, _ => by
      rw [Traffic.next, ho]
      cases hr
      exact handed_failed _ _ _
  | .handshakeRead n reader deadline, ho, h, _, .read (some bytes), _, hr, _ => by
      rw [Traffic.next, ho]
      cases hr
      exact h
  | .cache payload, ho, ⟨hpumped, hsent⟩, _, .setCaps, _, hr, _ => by
      rw [Traffic.next, ho]
      cases hr
      refine ⟨⟨?_, ?_⟩, rfl⟩
      · rw [hsent, hpumped]
        rfl
      · rw [hpumped]
        rfl
  | .out reader, ho, h, _, .popped _, _, hr, _ | .out reader, ho, h, _, .empty _, _, hr, _ => by
      rw [Traffic.next, ho]
      cases hr
      exact h
  | .write reader _ [], ho, h, _, .go, _, hr, _
  | .write reader _ (_ :: _), ho, h, _, .write true, _, hr, _ => by
      rw [Traffic.next, ho]
      cases hr
      exact h
  | .write reader _ (_ :: _), ho, h, _, .write false, _, hr, _ => by
      rw [Traffic.next, ho]
      cases hr
      trivial
  | .read reader, ho, h, _, .read none, _, hr, _ => by
      rw [Traffic.next, ho]
      cases hr
      trivial
  | .read reader, ho, ⟨h, hmore⟩, _, .read (some bytes), hbytes, hr, _ => by
      rw [Traffic.next, ho]
      cases hr
      dsimp only
      rw [← hbytes]
      cases bytes with
      | nil =>
          show Holding q r { k with pumped := k.pumped ++ [] } [] reader.buf ∧ _
          rw [List.append_nil]
          exact ⟨h, hmore⟩
      | cons b bytes => exact h.feed hmore (b :: bytes)
  | .frames reader, ho, h, _, .go, _, hr, _ => by
      rw [Traffic.next, ho]
      simp only [Owner.resume] at hr
      split at hr
      · rename_i hn
        cases hr
        exact h.next hn
      · rename_i hn
        cases hr
        exact h.waiting hn
  | .lookup reader f, ho, h, hlive, .lookup, _, hr, _ => by
      rw [Traffic.next, ho]
      cases hr
      refine ⟨h, fun hf => ?_⟩
      rw [Router.lookup, hf]
      exact (hlive (decide_eq_true hf)).1
  | .send reader f (some r'), ho, ⟨h, hroute⟩, _, .sent hopen, _, hr, _ => by
      rw [Traffic.next, ho]
      cases hr
      dsimp only
      rw [if_neg hopen]
      exact h.sent fun hf => Option.some.inj (hroute hf)
  | .send reader f (some r'), ho, ⟨h, hroute⟩, hlive, .hungUp hclosed, _, hr, _ => by
      rw [Traffic.next, ho]
      cases hr
      dsimp only
      rw [if_pos hclosed]
      refine h.other fun hf => (hlive (decide_eq_true hf)).2 ?_
      rw [← Option.some.inj (hroute hf)]
      exact hclosed
  | .send reader f none, ho, ⟨h, hroute⟩, _, .unrouted, _, hr, _ => by
      rw [Traffic.next, ho]
      cases hr
      exact h.other fun hf => by cases hroute hf

theorem Handed.step {eb : UInt32 → String → List UInt8} {x x' : State × Traffic} {l : Label}
    (h : Handed q r x.2 x.1.owner) (hlive : LiveRoute q r x l)
    (hs : (recorded eb).step x l = some (x', es)) : Handed q r x'.2 x'.1.owner := by
  obtain ⟨⟨s', es'⟩, hstep, heq⟩ := Option.map_eq_some_iff.mp hs
  cases heq
  cases l with
  | tick ms =>
      cases hstep
      exact h
  | client i inp =>
      obtain ⟨s₁, t, hm, rfl⟩ := clientStep_moves hstep
      show Handed q r x.2 s₁.owner
      rw [hm.frame.2.1]
      exact h
  | owner inp =>
      obtain ⟨a, s₁, o, hown, howned, hr, rfl⟩ := ownerStep_cases hstep
      exact handed_moves rfl h hlive.2 howned (own_bytes hown) hr hlive.1

/-! ## What is lost in between -/

/-- Nothing of seq `q` has been lost so far, unless it is just now. -/
def Clear (q : UInt16) (x : State × Traffic) : Prop :=
  x.1.owner.up = true →
    x.1.owner.caughtUp = true ∧ x.2.pumped = [] ∨ framesOf q x.2.greeted = []

/-- Everything is delivered exactly if nothing is lost. -/
theorem delivered_iff {x : State × Traffic} {l : Label} (h : Handed q r x.2 x.1.owner)
    (hclear : Clear q x) : AllDelivered q r x l ↔ Seamless q x l := by
  refine imp_congr_right fun hcaught => ?_
  have hup : x.1.owner.up = true := by
    cases ho : x.1.owner with
    | out | write | read => rfl
    | _ => rw [ho] at hcaught; cases hcaught
  rw [h.caughtUp hcaught, framesOf_append]
  rcases hclear hup with ⟨-, hpumped⟩ | hgreeted
  · have hnil : framesOf q [] = [] := rfl
    rw [hpumped, List.append_nil, framesOf_unfinished, List.append_nil, hnil]
    exact ⟨fun h => ⟨h.symm, rfl⟩, fun h => h.1.symm⟩
  · rw [hgreeted, List.nil_append]
    exact ⟨fun h => ⟨rfl, h.symm⟩, fun h => h.2.symm⟩

/-- The pump reads no more of the handshake's bytes. -/
theorem Traffic.next_greeted (k : Traffic) {s : State} (hup : s.owner.up = true)
    (inp : OwnerInput) : (k.next s inp).greeted = k.greeted := by
  unfold Traffic.next
  split
  · rename_i ho
    rw [ho] at hup
    cases hup
  · rfl
  · split_ifs <;> rfl
  · rfl

theorem Clear.step {eb : UInt32 → String → List UInt8} {x x' : State × Traffic} {l : Label}
    (hclear : Clear q x) (h : Handed q r x.2 x.1.owner) (hseam : Seamless q x l)
    (hs : (recorded eb).step x l = some (x', es)) : Clear q x' := by
  obtain ⟨⟨s', es'⟩, hstep, heq⟩ := Option.map_eq_some_iff.mp hs
  cases heq
  -- what the handshake has read is looked at as soon as the pump has caught up
  have hlost : x.1.owner.up = true → framesOf q x.2.greeted = [] := fun hup =>
    (hclear hup).elim (fun hc => (hseam hc.1).1) id
  cases l with
  | tick ms =>
      cases hstep
      exact fun hup => .inr (hlost hup)
  | client i inp =>
      obtain ⟨s₁, t, hm, rfl⟩ := clientStep_moves hstep
      intro hup
      refine .inr (hlost ?_)
      rw [← hm.frame.2.1]
      exact hup
  | owner inp =>
      obtain ⟨a, s₁, o, -, howned, hr, rfl⟩ := ownerStep_cases hstep
      intro hup
      rcases resume_up hr hup with hup' | ⟨caps, hcache⟩
      · right
        show framesOf q (x.2.next x.1 inp).greeted = []
        rw [Traffic.next_greeted _ hup']
        exact hlost hup'
      · left
        rw [hcache] at h howned hr
        cases howned
        cases hr
        refine ⟨rfl, ?_⟩
        show (x.2.next x.1 inp).pumped = []
        rw [Traffic.next, hcache]
        exact h.1

theorem guarded_delivered_iff {eb : UInt32 → String → List UInt8} :
    ∀ {ls : List Label} {x : State × Traffic}, Handed q r x.2 x.1.owner → Clear q x →
      (recorded eb).Guarded (LiveRoute q r) x ls →
      ((recorded eb).Guarded (AllDelivered q r) x ls ↔ (recorded eb).Guarded (Seamless q) x ls)
  | [], _, _, _, _ => Iff.rfl
  | l :: ls, x, h, hclear, ⟨hlive, hrest⟩ => by
      rw [Machine.Guarded, Machine.Guarded, delivered_iff h hclear]
      refine and_congr_right fun hseam => ?_
      cases hs : (recorded eb).step x l with
      | none => exact Iff.rfl
      | some p =>
          rw [hs] at hrest
          exact guarded_delivered_iff (h.step hlive hs) (hclear.step h hseam hs) hrest

end Handed

/-- **What the hand-over loses.**  From the HELLO of a session on, as long as it lasts and
`r` is the live route of seq `q` whenever a frame of it is handed on: the frames of the
seq that the device has sent have all gone to `r`, once each and in order, whenever the
pump has caught up with what it has read, exactly if the bytes that the handshake has read
make no frame of the seq, and the unfinished ones at their end make no difference to the
frames of the seq that come behind them. -/
theorem handed_over_iff {eb : UInt32 → String → List UInt8} {q : UInt16} {r : Route} {s : State}
    {n deadline : Nat} (hs : s.owner = .handshake n .new deadline) {ls : List Label}
    (hlive : (recorded eb).Guarded (LiveRoute q r) (s, .initial) ls) :
    (recorded eb).Guarded (AllDelivered q r) (s, .initial) ls ↔
      (recorded eb).Guarded (Seamless q) (s, .initial) ls := by
  refine guarded_delivered_iff ?_ ?_ hlive
  · rw [hs]
    exact ⟨rfl, rfl⟩
  · intro hup
    rw [hs] at hup
    cases hup

/-! ## A relay that survives a serial error -/

/-- A client's stream is relayed, the link fails, and the device is greeted again. -/
def greetedAgain : List Label :=
  firstRequest ++ [.client 0 .go, .client 0 .go, .owner .go, .owner (.wrote true), .owner .go,
    .owner .go, .owner (.read (some streamStart.wire)), .owner .go, .owner .go, .owner .go,
    .client 0 .go, .client 0 (.wrote true), .owner .go, .owner .go, .owner (.read none),
    .owner (.opened true), .owner (.wrote true)]

/-- A frame of the stream. -/
def streamData : Frame :=
  { typ := .streamData, flags := 0, seq := 1, payload := [0x30, 0x02, 0, 0] }

/-- CAPS in one read, the frame in the next. -/
def apart : List Label :=
  [.owner .go, .owner (.read (some capsFrame.wire)), .owner .go, .owner .go, .owner .go, .owner .go,
    .owner (.read (some streamData.wire)), .owner .go, .owner .go, .owner .go, .owner .go, .tick 0]

/-- Both in one read. -/
def together : List Label :=
  [.owner .go, .owner (.read (some (capsFrame.wire ++ streamData.wire))), .owner .go, .owner .go,
    .owner .go, .tick 0]

/-- The daemon when the device has been greeted again. -/
def greetedState : State := (machine agentErrorBody).final .initial greetedAgain

theorem greetedState_run :
    ∃ es, (machine agentErrorBody).run .initial greetedAgain = some (greetedState, es) :=
  Machine.run_of_isSome (by decide +kernel)

theorem greetedState_owner : greetedState.owner = .handshake 1 .new 2000 := by decide +kernel

/-- With CAPS in a read of its own, the frame comes to the relay. -/
theorem handed_over_iff_apart :
    (∃ es, (machine agentErrorBody).run .initial greetedAgain = some (greetedState, es)) ∧
      (recorded agentErrorBody).Guarded (AllDelivered 1 ⟨0, 0⟩) (greetedState, .initial) apart ∧
      ((recorded agentErrorBody).run (greetedState, .initial) apart).map
        (fun p => p.1.2.sentTo 1 ⟨0, 0⟩) = some [streamData] := by
  have hlive :
      (recorded agentErrorBody).Guarded (LiveRoute 1 ⟨0, 0⟩) (greetedState, .initial) apart := by
    decide +kernel
  have hseam : (recorded agentErrorBody).Guarded (Seamless 1) (greetedState, .initial) apart := by
    decide +kernel
  exact ⟨greetedState_run, (handed_over_iff greetedState_owner hlive).mpr hseam, by decide +kernel⟩

/-- In the same read as CAPS it is lost, though its route is there all the while. -/
theorem lost_at_handover :
    (∃ es, (machine agentErrorBody).run .initial greetedAgain = some (greetedState, es)) ∧
      greetedState.owner = .handshake 1 .new 2000 ∧
      (recorded agentErrorBody).Guarded
        (fun x l => LiveRoute 1 ⟨0, 0⟩ x l ∧ x.1.router.routes 1 = some ⟨0, 0⟩)
        (greetedState, .initial) together ∧
      (∃ x es, (recorded agentErrorBody).run (greetedState, .initial) together = some (x, es) ∧
        x.1.owner.caughtUp = true ∧ x.2.sentTo 1 ⟨0, 0⟩ = [] ∧
        framesOf 1 (x.2.greeted ++ x.2.pumped) = [streamData]) ∧
      ¬ (recorded agentErrorBody).Guarded (AllDelivered 1 ⟨0, 0⟩) (greetedState, .initial)
        together := by
  have hsome : ((recorded agentErrorBody).run (greetedState, .initial) together).isSome = true := by
    decide +kernel
  obtain ⟨es, hrun⟩ := Machine.run_of_isSome hsome
  refine ⟨greetedState_run, greetedState_owner, by decide +kernel, ?_, by decide +kernel⟩
  exact ⟨_, es, hrun, by decide +kernel, by decide +kernel, by decide +kernel⟩

end FlipLink.Daemon
