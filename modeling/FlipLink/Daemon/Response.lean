/-
# `FlipLink.Daemon.Response` — no client waits for ever

The side of `serve_client` that the shape of its exchanges does not show: while a frame
stands unanswered, each step of its thread brings the answer nearer (`owed` counts the
steps), and only the wait for the device can hold the thread up, which it does for at most
three seconds.  Nothing that another client, the owner of the link or the device does can
make that longer.
-/
import FlipLink.Daemon.Tickets

namespace FlipLink.Daemon

open Lib

/-- The steps that the thread has to take to answer the frame that it has taken up; none,
if there is no such frame or its stream has begun. -/
def Phase.owed : Phase → Nat
  | .caps _ => 2
  | .helloWrite .. => 1
  | .register _ => 5
  | .forward .. => 4
  | .await .. => 3
  | .replyUnregister .. | .timeoutUnregister .. => 2
  | .replyWrite .. | .timeoutWrite .. | .startWrite .. => 1
  | .read | .wake | .frames | .relay .. | .closed => 0

/-- When the thread stops waiting for the device's first frame. -/
def Phase.giveUpAt : Phase → Option Nat
  | .await _ _ deadline => some deadline
  | _ => none

/-- A frame is written to client `i`. -/
def Event.Tells (i : Nat) : Event → Prop
  | .wrote j .. => j = i
  | _ => False

/-- A step of the thread of client `i`. -/
def Label.isOf (i : Nat) : Label → Bool
  | .client j _ => j = i
  | _ => false

section Step

variable {eb : UInt32 → String → List UInt8} {s s₁ : State} {i : Nat} {inp : ClientInput}
  {a : Answer} {es : List Event} {t' : Thread} {reader : FrameReader}

/-- The answer is written, or it has come one step nearer, or the thread has returned. -/
def Nearer (i n : Nat) (p' : Phase) (es : List Event) : Prop :=
  (∃ e ∈ es, Event.Tells i e) ∨ p' = .closed ∨ 0 < p'.owed ∧ p'.owed < n

theorem Nearer.told {n : Nat} {p' : Phase} {about : Source} {typ : MsgType} {seq : UInt16}
    {payload : List UInt8} : Nearer i n p' [.wrote i about typ seq payload] :=
  .inl ⟨_, List.mem_singleton.mpr rfl, rfl⟩

theorem owed_step : ∀ {p : Phase}, 0 < p.owed → Served s i (p.need eb) inp a s₁ es →
    (⟨p, reader⟩ : Thread).resume eb s.now a = some t' → Nearer i p.owed t'.phase es
  | .caps _, _, .caps, hr => by
      cases hr
      dsimp only
      split_ifs <;> exact .inr (.inr (by simp [Phase.owed]))
  | .helloWrite .., _, .wrote, hr => .told
  | .helloWrite .., _, .failed, hr => by cases hr; exact .inr (.inl rfl)
  | .register _, _, .register, hr => by cases hr; exact .inr (.inr (by simp [Phase.owed]))
  | .forward .., _, .queued _, hr => by cases hr; exact .inr (.inr (by simp [Phase.owed]))
  | .forward .., _, .tooLarge _, hr => by cases hr; exact .inr (.inl rfl)
  | .await .., _, .received _, hr => by
      cases hr
      dsimp only
      split_ifs <;> exact .inr (.inr (by simp [Phase.owed]))
  | .await .., _, .timeout .., hr => by cases hr; exact .inr (.inr (by simp [Phase.owed]))
  | .replyUnregister .., _, .unregister, hr => by cases hr; exact .inr (.inr (by simp [Phase.owed]))
  | .timeoutUnregister .., _, .unregister, hr => by
      cases hr; exact .inr (.inr (by simp [Phase.owed]))
  | .replyWrite .., _, .wrote, hr => .told
  | .replyWrite .., _, .failed, hr => by cases hr; exact .inr (.inl rfl)
  | .timeoutWrite .., _, .wrote, hr => .told
  | .timeoutWrite .., _, .failed, hr => by cases hr; exact .inr (.inl rfl)
  | .startWrite .., _, .wrote, hr => .told
  | .startWrite .., _, .failed, hr => by cases hr; exact .inr (.inl rfl)

end Step

/-! ## Whole runs -/

section Run

variable {eb : UInt32 → String → List UInt8} {i : Nat}

theorem Served.open {s s₁ : State} {n : Need} {inp : ClientInput} {a : Answer} {es : List Event}
    (h : Served s i n inp a s₁ es) : n ≠ .halt ∧ s₁.threads = s.threads := by
  cases h <;> exact ⟨nofun, rfl⟩

/-- The steps of the others leave the thread where it stands. -/
theorem others_step {s s' : State} {l : Label} {es : List Event} (hl : l.isOf i = false)
    (hs : (machine eb).step s l = some (s', es)) : s'.threads i = s.threads i := by
  cases l with
  | tick ms =>
      cases hs
      rfl
  | owner inp =>
      obtain ⟨s₁, o, hm, rfl⟩ := ownerStep_moves hs
      exact congrFun hm.frame.1 i
  | client j inp =>
      obtain ⟨a, s₁, t, -, hserved, -, rfl⟩ := clientStep_cases hs
      have hj : i ≠ j := fun h => of_decide_eq_false hl h.symm
      rw [State.setThread_of_ne _ _ _ hj, hserved.open.2]

/-- A step of its own. -/
theorem eq_client_of_isOf {l : Label} (h : l.isOf i = true) : ∃ inp, l = .client i inp := by
  cases l with
  | tick ms => cases h
  | owner inp => cases h
  | client j inp => exact ⟨inp, by rw [of_decide_eq_true h]⟩

/-- A thread that has returned does not come back. -/
theorem closed_step {s s' : State} {l : Label} {es : List Event}
    (h : (s.threads i).phase = .closed) (hs : (machine eb).step s l = some (s', es)) :
    (s'.threads i).phase = .closed := by
  cases hl : l.isOf i with
  | false => rwa [others_step hl hs]
  | true =>
      obtain ⟨inp, rfl⟩ := eq_client_of_isOf hl
      obtain ⟨a, s₁, t, -, hserved, -, -⟩ := clientStep_cases hs
      exact absurd (by rw [h]; rfl) hserved.open.1

/-- The thread has at most `n + 1` steps to go to its answer. -/
def WithinSteps (i : Nat) (s : State) (n : Nat) : Prop :=
  0 < (s.threads i).phase.owed ∧ (s.threads i).phase.owed ≤ n + 1

theorem WithinSteps.step {s s' : State} {n : Nat} {l : Label} {es : List Event}
    (h : WithinSteps i s n) (hs : (machine eb).step s l = some (s', es)) :
    (∃ e ∈ es, Event.Tells i e) ∨ (s'.threads i).phase = .closed ∨
      (l.isOf i = false ∧ WithinSteps i s' n) ∨ ∃ m, n = m + 1 ∧ WithinSteps i s' m := by
  cases hl : l.isOf i with
  | false => exact .inr (.inr (.inl ⟨rfl, by rwa [WithinSteps, others_step hl hs]⟩))
  | true =>
      obtain ⟨inp, rfl⟩ := eq_client_of_isOf hl
      obtain ⟨a, s₁, t, -, hserved, hresume, rfl⟩ := clientStep_cases hs
      rcases owed_step h.1 hserved hresume with htold | hclosed | ⟨hpos, hlt⟩
      · exact .inl htold
      · exact .inr (.inl (by rwa [State.setThread_self]))
      · have hle := h.2
        refine .inr (.inr (.inr ⟨n - 1, by omega, ?_⟩))
        rw [WithinSteps, State.setThread_self]
        exact ⟨hpos, by omega⟩

/-- No wait for the device lasts longer than three seconds from now. -/
def Patient (s : State) : Prop :=
  ∀ i deadline, (s.threads i).phase.giveUpAt = some deadline → deadline ≤ s.now + replyTimeout

theorem ClientMove.giveUpAt {s s₁ : State} {inp : ClientInput} {p p' : Phase} {es : List Event}
    {deadline : Nat} (h : ClientMove s i inp p s₁ p' es) (hd : p'.giveUpAt = some deadline) :
    deadline = s.now + replyTimeout := by
  cases h with
  | forward => exact (Option.some.inj hd).symm
  | outside _ hp' =>
      unfold Phase.giveUpAt at hd
      split at hd
      · exact nomatch hp'
      · exact nomatch hd
  | back hp => rcases hp with rfl | rfl <;> exact nomatch hd
  | _ => exact nomatch hd

theorem OwnerMove.now {s s₁ : State} {o o' : Owner} {es : List Event}
    (h : OwnerMove s o s₁ o' es) : s₁.now = s.now := by
  have hmark : ∀ f, (mark s f).now = s.now := by
    intro f
    unfold mark
    split_ifs
    · split <;> rfl
    · rfl
  cases h <;> first | rfl | exact hmark _

theorem Patient.moved {s s' : State} {l : Label} {es : List Event} (h : Patient s)
    (hm : Moved s l s' es) : Patient s' := by
  intro k deadline hd
  cases hm with
  | tick ms =>
      have := h k deadline hd
      show deadline ≤ s.now + ms + replyTimeout
      omega
  | @owner _ s₁ o _ hm =>
      have hd' : (s.threads k).phase.giveUpAt = some deadline := by
        rw [← hm.frame.1]
        exact hd
      show deadline ≤ s₁.now + replyTimeout
      rw [hm.now]
      exact h k deadline hd'
  | @client j _ s₁ t _ hm =>
      show deadline ≤ s₁.now + replyTimeout
      rw [hm.frame.2.2]
      rcases eq_or_ne k j with rfl | hk
      · rw [State.setThread_self] at hd
        exact Nat.le_of_eq (hm.giveUpAt hd)
      · rw [State.setThread_of_ne _ _ _ hk, hm.frame.1] at hd
        exact h k deadline hd

theorem run_patient {ls : List Label} {s : State} {es : List Event}
    (hr : (machine eb).run .initial ls = some (s, es)) : Patient s :=
  Machine.run_invariant (fun h hs => h.moved (step_moved hs)) (fun _ _ h => (by cases h)) hr

/-- The thread can go on by itself, or only has to write to its client. -/
def CanGoOn (eb : UInt32 → String → List UInt8) (i : Nat) (s : State) : Prop :=
  (∃ inp, (inp = .go ∨ inp = .timeout) ∧ (clientStep eb s i inp).isSome) ∨
    ∃ about typ seq payload, (s.threads i).phase.need eb = .write about typ seq payload

theorem clientStep_isSome {s s₁ : State} {inp : ClientInput} {a : Answer} {es : List Event}
    {t : Thread} (hs : serve s i ((s.threads i).phase.need eb) inp = some (a, s₁, es))
    (hr : (s.threads i).resume eb s.now a = some t) : (clientStep eb s i inp).isSome := by
  rw [clientStep, hs]
  dsimp only
  rw [hr]
  rfl

/-- A wait that is over, or has not begun, holds nobody up. -/
theorem canGoOn {s : State} (howed : 0 < (s.threads i).phase.owed)
    (htime : ∀ deadline, (s.threads i).phase.giveUpAt = some deadline → deadline ≤ s.now) :
    CanGoOn eb i s := by
  have hgo : ∀ {inp a s₁ es t}, inp = .go ∨ inp = .timeout →
      serve s i ((s.threads i).phase.need eb) inp = some (a, s₁, es) →
      (s.threads i).resume eb s.now a = some t → CanGoOn eb i s :=
    fun hinp hs hr => .inl ⟨_, hinp, clientStep_isSome hs hr⟩
  obtain ⟨p, reader, ht⟩ : ∃ p reader, s.threads i = ⟨p, reader⟩ := ⟨_, _, rfl⟩
  rw [ht] at howed htime hgo
  cases p with
  | caps => exact hgo (.inl rfl) rfl rfl
  | helloWrite | replyWrite | timeoutWrite | startWrite =>
      exact .inr ⟨_, _, _, _, by rw [ht]; rfl⟩
  | register => exact hgo (.inl rfl) rfl rfl
  | forward f d =>
      cases hf : frameBytes f.typ f.flags d.seq f.payload with
      | none => exact hgo (.inl rfl) (by rw [Phase.need, serve, hf]) rfl
      | some bytes => exact hgo (.inl rfl) (by rw [Phase.need, serve, hf]) rfl
  | await c d deadline =>
      cases hch : s.channels i with
      | nil =>
          have hs : serve s i (.recv d deadline) .timeout = some (.timeout, s, []) := by
            rw [serve, hch, if_pos ⟨rfl, htime _ rfl⟩]
          exact hgo (.inr rfl) hs rfl
      | cons f rest => exact hgo (.inl rfl) (by rw [Phase.need, serve, hch]) rfl
  | replyUnregister | timeoutUnregister => exact hgo (.inl rfl) rfl rfl
  | read | wake | frames | relay | closed => exact absurd howed (Nat.lt_irrefl 0)

theorem others_run {s s' : State} {ls : List Label} {es : List Event}
    (hls : ∀ l ∈ ls, l.isOf i = false) (hr : (machine eb).run s ls = some (s', es)) :
    s'.threads i = s.threads i := by
  induction ls generalizing s es with
  | nil =>
      cases hr
      rfl
  | cons l ls ih =>
      obtain ⟨hl, hls⟩ := List.forall_mem_cons.mp hls
      obtain ⟨s₁, es₁, es₂, hs, hrest, rfl⟩ := Machine.run_cons hr
      rw [ih hls hrest, others_step hl hs]

/-- **No client waits for ever.**  In every run of the daemon, while a frame of client `i`
stands unanswered: whatever the others do and however long its own thread is kept waiting,
from three seconds on that thread can go on without the device, the owner or another client,
or only has to write; and in whatever goes on, five steps of it bring a frame to the client,
or the end of the connection. -/
theorem answered_in_time {ls : List Label} {s : State} {es : List Event}
    (hr : (machine eb).run .initial ls = some (s, es)) (howed : 0 < (s.threads i).phase.owed)
    {ls' : List Label} {s' : State} {es' : List Event}
    (hr' : (machine eb).run s ls' = some (s', es')) :
    ((∀ l ∈ ls', l.isOf i = false) → s.now + replyTimeout ≤ s'.now → CanGoOn eb i s') ∧
    (5 ≤ ls'.countP (Label.isOf i) →
      (∃ e ∈ es', Event.Tells i e) ∨ (s'.threads i).phase = .closed) := by
  refine ⟨fun hothers htime => ?_, fun hfive => ?_⟩
  · have hthread := others_run hothers hr'
    refine canGoOn (by rwa [hthread]) fun deadline hd => ?_
    rw [hthread] at hd
    exact Nat.le_trans (run_patient hr i deadline hd) htime
  · have hle : (s.threads i).phase.owed ≤ 4 + 1 := by
      cases (s.threads i).phase <;> simp [Phase.owed]
    exact Machine.run_countdown (P := WithinSteps i) (fun h hs => closed_step h hs)
      (fun h hs => h.step hs) ⟨howed, hle⟩ hr' hfive

/-- A request that has been queued while there is no device. -/
def askAlone : List Label :=
  [.client 0 (.read (.data lateRequest.wire)), .client 0 .go, .client 0 .go, .client 0 .go,
    .client 0 .go]

/-- Another client connects and goes, the owner tries the port, and time passes. -/
def meanwhile : List Label :=
  [.client 1 (.read .timeout), .owner (.opened false), .tick 1000, .client 1 .go, .tick 2000]

/-- The thread gives up, and tells the client. -/
def givingUp : List Label :=
  [.tick 3000, .client 0 .timeout, .client 0 .go, .client 0 (.wrote true), .client 0 .go,
    .client 0 (.read .timeout)]

/-- After three seconds it can go on; five more steps, and the client has been told. -/
theorem answered_in_time_alone : ∃ (s s₁ s₂ : State) (es es₁ es₂ : List Event),
    (machine agentErrorBody).run .initial askAlone = some (s, es) ∧
      (machine agentErrorBody).run s meanwhile = some (s₁, es₁) ∧ CanGoOn agentErrorBody 0 s₁ ∧
      (machine agentErrorBody).run s givingUp = some (s₂, es₂) ∧
      ((∃ e ∈ es₂, Event.Tells 0 e) ∨ (s₂.threads 0).phase = .closed) := by
  obtain ⟨es, hr⟩ := Machine.run_of_isSome
    (show ((machine agentErrorBody).run .initial askAlone).isSome = true by decide +kernel)
  obtain ⟨es₁, hr₁⟩ := Machine.run_of_isSome
    (show ((machine agentErrorBody).run ((machine agentErrorBody).final .initial askAlone)
      meanwhile).isSome = true by decide +kernel)
  obtain ⟨es₂, hr₂⟩ := Machine.run_of_isSome
    (show ((machine agentErrorBody).run ((machine agentErrorBody).final .initial askAlone)
      givingUp).isSome = true by decide +kernel)
  have howed : 0 < (((machine agentErrorBody).final .initial askAlone).threads 0).phase.owed := by
    decide +kernel
  exact ⟨_, _, _, es, es₁, es₂, hr, hr₁,
    (answered_in_time hr howed hr₁).1 (by decide) (by decide +kernel), hr₂,
    (answered_in_time hr howed hr₂).2 (by decide)⟩

end Run

end FlipLink.Daemon
