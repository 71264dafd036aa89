/-
# `FlipLink.Daemon.Tickets` — a request from its registration to its last write

Which thread handles a request and where its frame is.  `Tickets`: the requests
being handled are registered ones, and no two threads handle the same.  `Fits`:
a request that the daemon accepts can be framed, so `forward` always queues it.

A frame travels one way: from its thread's `forward` to the queue, from there to
the owner's hands, from there to the link (`ToWrite`), and no step puts it back.
So a request that was answered with the daemon's own timeout is written later
only if its frame was in the queue or in the owner's hands when the answer was
written (`given_up_not_written`).  Nothing takes a frame out of the queue but the
owner writing it: `given_up_written` is a run where the device comes back after
the answer.
-/
import FlipLink.Daemon.Steps

namespace FlipLink.Daemon

open Lib

variable {eb : UInt32 → String → List UInt8}

/-! ## Requests and the threads that handle them -/

/-- The request that client `i`'s thread is handling. -/
def State.ticket (s : State) (i : Nat) : Option Ticket := (s.threads i).phase.ticket

structure Tickets (s : State) : Prop where
  /-- A request being handled has been registered. -/
  lt : ∀ {i d}, s.ticket i = some d → d.id < s.registered
  /-- Two threads do not handle the same request. -/
  distinct : ∀ {i j d e}, s.ticket i = some d → s.ticket j = some e → d.id = e.id → i = j

/-- A step leaves every request with its thread or drops it, or else it registers
one. -/
theorem Moved.ticket {s s' : State} {l : Label} {es : List Event} (h : Moved s l s' es) :
    (s'.registered = s.registered ∧ ∀ {i d}, s'.ticket i = some d → s.ticket i = some d) ∨
    ∃ i inp f, l = .client i inp ∧ (s.threads i).phase = .register f ∧
      es = [.registered i ⟨s.router.nextSeq, s.registered⟩] ∧
      s'.registered = s.registered + 1 ∧
      s'.ticket i = some ⟨s.router.nextSeq, s.registered⟩ ∧
      ∀ j, j ≠ i → s'.ticket j = s.ticket j := by
  cases h with
  | tick => exact .inl ⟨rfl, id⟩
  | owner hm =>
      obtain ⟨ht, hn, -⟩ := hm.frame
      refine .inl ⟨hn, fun {i d} h => ?_⟩
      rwa [State.ticket, ht] at h
  | @client i inp s₁ t es hm =>
      have hother : ∀ j, j ≠ i → (s₁.setThread i t).ticket j = s.ticket j := by
        intro j hj
        rw [State.ticket, State.setThread_of_ne _ _ _ hj, hm.frame.1]
        rfl
      have hself : (s₁.setThread i t).ticket i = t.phase.ticket := by
        rw [State.ticket, State.setThread_self]
      rcases hm.ticket with ⟨hkeep, hn⟩ | ⟨f, hp, hp', hn, hes⟩
      · refine .inl ⟨hn, fun {j d} h => ?_⟩
        rcases eq_or_ne j i with rfl | hj
        · rw [hself] at h
          rcases hkeep with hk | hk
          · rwa [hk] at h
          · rw [hk] at h
            exact nomatch h
        · rwa [hother j hj] at h
      · refine .inr ⟨i, inp, f, rfl, hp, hes, hn, ?_, hother⟩
        rw [hself, hp']
        rfl

theorem Tickets.initial : Tickets .initial where
  lt h := nomatch h
  distinct h := nomatch h

theorem Tickets.moved {s s' : State} {l : Label} {es : List Event} (h : Tickets s)
    (hm : Moved s l s' es) : Tickets s' := by
  rcases hm.ticket with ⟨hn, hkeep⟩ | ⟨i, -, -, -, -, -, hn, hi, hother⟩
  · exact ⟨fun hd => hn ▸ h.lt (hkeep hd), fun hd he => h.distinct (hkeep hd) (hkeep he)⟩
  · -- the new request has the number of the count, which no other has reached
    have hlt : ∀ {j d}, s'.ticket j = some d → j ≠ i → d.id < s.registered := by
      intro j d hd hj
      exact h.lt (hother j hj ▸ hd)
    have hnew : ∀ {d}, s'.ticket i = some d → d.id = s.registered := by
      intro d hd
      rw [hi] at hd
      cases hd
      rfl
    constructor
    · intro j d hd
      rcases eq_or_ne j i with rfl | hj
      · have := hnew hd
        omega
      · have := hlt hd hj
        omega
    · intro j k d e hd he hde
      rcases eq_or_ne i j with rfl | hj <;> rcases eq_or_ne i k with rfl | hk
      · rfl
      · have := hnew hd
        have := hlt he hk.symm
        omega
      · have := hlt hd hj.symm
        have := hnew he
        omega
      · exact h.distinct (hother j hj.symm ▸ hd) (hother k hk.symm ▸ he) hde

theorem Tickets.run {ls : List Label} {s : State} {es : List Event}
    (hr : (machine eb).run .initial ls = some (s, es)) : Tickets s :=
  Machine.run_invariant (fun h hs => h.moved (step_moved hs)) .initial hr

/-! ## A request can be framed -/

theorem ClientMove.fits {s s₁ : State} {i : Nat} {inp : ClientInput} {p p' : Phase}
    {es : List Event} (h : ClientMove s i inp p s₁ p' es) (hp : p.Fits) : p'.Fits := by
  cases h with
  | outside _ _ hf => exact hf
  | register => exact hp
  | back hp' => rcases hp' with rfl | rfl <;> trivial
  | _ => trivial

/-- Every request that a thread is about to queue can be framed. -/
theorem Moved.fits {s s' : State} {l : Label} {es : List Event} (hm : Moved s l s' es)
    (h : ∀ i, (s.threads i).phase.Fits) (i : Nat) : (s'.threads i).phase.Fits := by
  cases hm with
  | tick => exact h i
  | owner hm =>
      rw [hm.frame.1]
      exact h i
  | client hm => exact hm.forall_phase (P := fun _ p => p.Fits) (hm.fits (h _)) (fun j _ => h j) i

/-! ## Where a request's frame is -/

section Move

variable {s s₁ : State} {i : Nat} {inp : ClientInput} {p p' : Phase} {es : List Event}

/-- Only a registration leads to a `forward`, and it is of a new request. -/
theorem ClientMove.to_forward {f : Frame} {d : Ticket}
    (h : ClientMove s i inp p s₁ (.forward f d) es) :
    d.id = s.registered := by
  cases h with
  | register => rfl
  | outside _ hp' => exact nomatch hp'
  | back hp => rcases hp with hp | hp <;> exact nomatch hp

/-- What is in the queue after a client's step was there before, or is the frame
the thread had to forward. -/
theorem ClientMove.outbound {x : Outbound} (h : ClientMove s i inp p s₁ p' es)
    (hx : x ∈ s₁.outbound) :
    x ∈ s.outbound ∨ (∃ f, p = .forward f x.ticket) ∨ x.kind = .stop := by
  cases h with
  | forward =>
      rcases List.mem_append.mp hx with hx | hx
      · exact .inl hx
      · cases List.mem_singleton.mp hx
        exact .inr (.inl ⟨_, rfl⟩)
  | stop | hangUpStop =>
      rcases List.mem_append.mp hx with hx | hx
      · exact .inl hx
      · cases List.mem_singleton.mp hx
        exact .inr (.inr rfl)
  | _ => exact .inl hx

/-- The owner takes a frame out of the queue to write it. -/
theorem OwnerMove.outbound {o o' : Owner} {x : Outbound} (h : OwnerMove s o s₁ o' es)
    (hx : x ∈ s₁.outbound ∨ o'.writing = some x) : x ∈ s.outbound ∨ o.writing = some x := by
  cases h with
  | quiet _ ho' | setCaps _ ho' | woken _ ho' =>
      rw [ho'.1] at hx
      exact .inl (hx.resolve_right nofun)
  | see ho' =>
      rw [(mark_frame s _).2.2.1, ho'.1] at hx
      exact .inl (hx.resolve_right nofun)
  | lookup =>
      rw [(mark_frame s _).2.2.1] at hx
      exact .inl (hx.resolve_right nofun)
  | pop h =>
      rw [h]
      refine .inl (List.mem_cons.mpr ?_)
      rcases hx with hx | hx
      · exact .inr hx
      · exact .inl (Option.some.inj hx).symm
  | chunk => exact hx
  | chunkFailed | written | sent | hungUp | unrouted => exact .inl (hx.resolve_right nofun)

/-- Only the frame in the owner's hands is written to the device. -/
theorem OwnerMove.deviceWrite {o o' : Owner} {x : Outbound} {chunk : List UInt8}
    (h : OwnerMove s o s₁ o' es) (he : .deviceWrite x chunk ∈ es) : o.writing = some x := by
  cases h with
  | chunk | chunkFailed =>
      cases List.mem_singleton.mp he
      rfl
  | see | lookup => exact nomatch List.mem_singleton.mp he
  | _ => exact nomatch he

/-- Nor does a client's thread write to the device. -/
theorem ClientMove.deviceWrite {x : Outbound} {chunk : List UInt8}
    (h : ClientMove s i inp p s₁ p' es) :
    .deviceWrite x chunk ∉ es := by
  cases h <;> simp

end Move

/-- The frame is still on its way to the link: its thread has it, or the queue,
or the owner. -/
def ToWrite (s : State) (x : Outbound) : Prop :=
  (∃ i f, (s.threads i).phase = .forward f x.ticket) ∨ x ∈ s.outbound ∨ s.owner.writing = some x

/-- A request's frame that is not on its way to the link is not written, and does
not come back. -/
theorem Moved.toWrite {s s' : State} {l : Label} {es : List Event} {x : Outbound}
    (h : Moved s l s' es) (hk : x.kind = .request) (hid : x.ticket.id < s.registered)
    (hx : ¬ ToWrite s x) : ¬ ToWrite s' x ∧ ∀ chunk, .deviceWrite x chunk ∉ es := by
  cases h with
  | tick => exact ⟨hx, fun _ => nofun⟩
  | owner hm =>
      refine ⟨?_, fun chunk he => hx (.inr (.inr (hm.deviceWrite he)))⟩
      rintro (⟨i, f, hi⟩ | hq)
      · exact hx (.inl ⟨i, f, by rwa [← hm.frame.1]⟩)
      · exact hx (.inr (hm.outbound hq))
  | @client i _ s₁ t _ hm =>
      obtain ⟨ht, ho, -⟩ := hm.frame
      refine ⟨?_, fun chunk he => hm.deviceWrite he⟩
      rintro (⟨j, f, hj⟩ | hq | hq)
      · rcases eq_or_ne j i with rfl | hji
        · rw [State.setThread_self] at hj
          rw [hj] at hm
          exact absurd hm.to_forward (Nat.ne_of_lt hid)
        · rw [State.setThread_of_ne _ _ _ hji, ht] at hj
          exact hx (.inl ⟨j, f, hj⟩)
      · rcases hm.outbound hq with hq | ⟨f, hf⟩ | hs
        · exact hx (.inr (.inl hq))
        · exact hx (.inl ⟨i, f, hf⟩)
        · exact nomatch hk.symm.trans hs
      · exact hx (.inr (.inr (ho ▸ hq)))

theorem Moved.registered_le {s s' : State} {l : Label} {es : List Event} (h : Moved s l s' es) :
    s.registered ≤ s'.registered := by
  rcases h.ticket with ⟨hn, -⟩ | ⟨-, -, -, -, -, -, hn, -⟩ <;> omega

/-- Nor is it written in a whole run. -/
theorem run_toWrite {ls : List Label} {s s' : State} {es : List Event} {x : Outbound}
    (hk : x.kind = .request) (hid : x.ticket.id < s.registered) (hx : ¬ ToWrite s x)
    (hr : (machine eb).run s ls = some (s', es)) : ∀ chunk, .deviceWrite x chunk ∉ es := by
  refine (Machine.run_events (P := fun s es => x.ticket.id < s.registered ∧ ¬ ToWrite s x ∧
    ∀ chunk, .deviceWrite x chunk ∉ es) ?_ ⟨hid, hx, fun _ => nofun⟩ hr).2.2
  rintro s es l s' es' ⟨hid, hx, hes⟩ hs
  have hm := step_moved hs
  obtain ⟨hx', hes'⟩ := hm.toWrite hk hid hx
  refine ⟨Nat.lt_of_lt_of_le hid hm.registered_le, hx', fun chunk he => ?_⟩
  rcases List.mem_append.mp he with he | he
  · exact hes chunk he
  · exact hes' chunk he

/-! ## A request the daemon has given up on -/

/-- No thread handles a request that the daemon has answered with its own
timeout. -/
def Answered (s : State) (es : List Event) : Prop :=
  ∀ i d typ c payload, .wrote i (.timeout d) typ c payload ∈ es →
    d.id < s.registered ∧ ∀ j e, s.ticket j = some e → e.id ≠ d.id

theorem ClientMove.timedOut {s s₁ : State} {i j : Nat} {inp : ClientInput} {p p' : Phase}
    {es : List Event} {d : Ticket} {typ : MsgType} {c : UInt16} {payload : List UInt8}
    (h : ClientMove s i inp p s₁ p' es)
    (he : .wrote j (.timeout d) typ c payload ∈ es) :
    p.ticket = some d ∧ p' = .frames ∧ s₁.registered = s.registered := by
  cases h with
  | timeoutWrite =>
      cases List.mem_singleton.mp he
      exact ⟨rfl, rfl, rfl⟩
  | _ => simp at he

theorem OwnerMove.wrote {s s₁ : State} {o o' : Owner} {es : List Event} {j : Nat} {about : Source}
    {typ : MsgType} {c : UInt16} {payload : List UInt8} (h : OwnerMove s o s₁ o' es) :
    .wrote j about typ c payload ∉ es := by
  cases h <;> simp

theorem Answered.moved {s s' : State} {l : Label} {es es' : List Event} (h : Answered s es)
    (ht : Tickets s) (hm : Moved s l s' es') : Answered s' (es ++ es') := by
  intro i d typ c payload he
  rcases List.mem_append.mp he with he | he
  · -- answered before: the request is an old one, and nobody took it up again
    obtain ⟨hid, hnone⟩ := h _ _ _ _ _ he
    refine ⟨Nat.lt_of_lt_of_le hid hm.registered_le, fun j e hj => ?_⟩
    rcases hm.ticket with ⟨-, hkeep⟩ | ⟨k, -, -, -, -, -, -, hk, hother⟩
    · exact hnone _ _ (hkeep hj)
    · rcases eq_or_ne j k with rfl | hjk
      · rw [hk] at hj
        cases hj
        exact Nat.ne_of_gt hid
      · exact hnone _ _ (hother j hjk ▸ hj)
  · -- answered now: the thread that handled it is done with it, and it was the only one
    cases hm with
    | tick => exact nomatch he
    | owner hm => exact absurd he hm.wrote
    | @client k _ s₁ t _ hm =>
        obtain ⟨hp, hp', hn⟩ := hm.timedOut he
        refine ⟨hn ▸ ht.lt hp, fun j e hj hde => ?_⟩
        rcases eq_or_ne j k with rfl | hjk
        · rw [State.ticket, State.setThread_self, hp'] at hj
          exact nomatch hj
        · rw [State.ticket, State.setThread_of_ne _ _ _ hjk, hm.frame.1] at hj
          exact hjk (ht.distinct hj hp hde)

theorem run_answered {ls : List Label} {s : State} {es : List Event}
    (hr : (machine eb).run .initial ls = some (s, es)) : Answered s es :=
  (Machine.run_events (P := fun s es => Tickets s ∧ Answered s es)
    (fun h hs => ⟨h.1.moved (step_moved hs), h.2.moved h.1 (step_moved hs)⟩)
    ⟨.initial, fun _ _ _ _ _ => nofun⟩ hr).2

/-- **A request the daemon has given up on is written later only if its frame was
queued already.**  In any run, when the client has been told "device timeout"
for a request, its frame is handed to the link at a later time only if it still
stands in the queue, or is in the owner's hands, now. -/
theorem given_up_not_written {ls₁ ls₂ : List Label} {s₁ s₂ : State} {es₁ es₂ : List Event} {i : Nat}
    {d : Ticket} {typ : MsgType} {c : UInt16} {payload chunk : List UInt8} {x : Outbound}
    (h₁ : (machine eb).run .initial ls₁ = some (s₁, es₁))
    (ha : .wrote i (.timeout d) typ c payload ∈ es₁)
    (h₂ : (machine eb).run s₁ ls₂ = some (s₂, es₂)) (hw : .deviceWrite x chunk ∈ es₂)
    (hk : x.kind = .request) (hd : x.ticket = d) :
    x ∈ s₁.outbound ∨ s₁.owner.writing = some x := by
  subst hd
  obtain ⟨hid, hnone⟩ := run_answered h₁ _ _ _ _ _ ha
  by_contra hx
  refine run_toWrite hk hid ?_ h₂ chunk hw
  rintro (⟨j, f, hj⟩ | hq)
  · exact hnone _ _ (congrArg Phase.ticket hj) rfl
  · exact hx hq

/-! ## A run where the device comes back late -/

/-- A request that the client numbers 9. -/
def lateRequest : Frame := { typ := .req, flags := 0, seq := 9, payload := [1, 2] }

/-- The same frame as the daemon queues it, under device seq 1. -/
def lateFrame : List UInt8 := wire .req 0 1 [1, 2]

/-- The request comes while the owner has no device, and three seconds pass. -/
def giveUpLabels : List Label :=
  [.client 0 (.read (.data lateRequest.wire)), .client 0 .go, .client 0 .go, .client 0 .go,
    .client 0 .go, .tick 3000, .client 0 .timeout, .client 0 .go, .client 0 (.wrote true)]

/-- The device connects. -/
def comeBackLabels : List Label :=
  [.owner (.opened true), .owner (.wrote true), .owner .go,
    .owner (.read (some (wire .caps 0 0 [0]))), .owner .go, .owner .go, .owner .go, .owner .go,
    .owner (.wrote true)]

def giveUpEvents : List Event :=
  [.registered 0 ⟨1, 0⟩, .queued 0 ⟨1, 0⟩ .request .req,
    .wrote 0 (.timeout ⟨1, 0⟩) .error 9 (agentErrorBody errInternal "device timeout")]

def comeBackEvents : List Event :=
  [.arrived { typ := .caps, flags := 0, seq := 0, payload := [0] },
    .deviceWrite ⟨.request, ⟨1, 0⟩, .req, lateFrame⟩ lateFrame]

/-- The client is told "device timeout" for the request, and after that the owner
writes the request to the device. -/
theorem run_late : ∃ s₁ s₂,
    (machine agentErrorBody).run .initial giveUpLabels = some (s₁, giveUpEvents) ∧
    (machine agentErrorBody).run s₁ comeBackLabels = some (s₂, comeBackEvents) :=
  Machine.run_split (by decide +kernel) (by decide +kernel)

theorem timeout_mem : .wrote 0 (.timeout ⟨1, 0⟩) .error 9
    (agentErrorBody errInternal "device timeout") ∈ giveUpEvents :=
  List.mem_cons_of_mem _ (List.mem_cons_of_mem _ List.mem_cons_self)

theorem deviceWrite_mem :
    .deviceWrite ⟨.request, ⟨1, 0⟩, .req, lateFrame⟩ lateFrame ∈ comeBackEvents :=
  List.mem_cons_of_mem _ List.mem_cons_self

/-- It is not so that a request the daemon has given up on is never written
later. -/
theorem given_up_written :
    ¬ ∀ (ls₁ ls₂ : List Label) (s₁ s₂ : State) (es₁ es₂ : List Event) (i : Nat) (d : Ticket)
        (typ : MsgType) (c : UInt16) (payload chunk : List UInt8) (x : Outbound),
      (machine agentErrorBody).run .initial ls₁ = some (s₁, es₁) →
      .wrote i (.timeout d) typ c payload ∈ es₁ →
      (machine agentErrorBody).run s₁ ls₂ = some (s₂, es₂) →
      .deviceWrite x chunk ∈ es₂ → x.kind = .request → x.ticket ≠ d := by
  intro h
  obtain ⟨s₁, s₂, h₁, h₂⟩ := run_late
  exact h _ _ s₁ s₂ _ _ _ _ _ _ _ _ _ h₁ timeout_mem h₂ deviceWrite_mem rfl rfl

/-- There the frame was in the queue when the answer was written. -/
theorem given_up_not_written_late :
    ∃ s₁ s₂, (machine agentErrorBody).run .initial giveUpLabels = some (s₁, giveUpEvents) ∧
      (machine agentErrorBody).run s₁ comeBackLabels = some (s₂, comeBackEvents) ∧
      (⟨.request, ⟨1, 0⟩, .req, lateFrame⟩ ∈ s₁.outbound ∨
        s₁.owner.writing = some ⟨.request, ⟨1, 0⟩, .req, lateFrame⟩) := by
  obtain ⟨s₁, s₂, h₁, h₂⟩ := run_late
  exact ⟨s₁, s₂, h₁, h₂, given_up_not_written h₁ timeout_mem h₂ deviceWrite_mem rfl rfl⟩

end FlipLink.Daemon
