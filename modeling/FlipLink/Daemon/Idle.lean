/-
# `FlipLink.Daemon.Idle` — the owner's wait for a poke

After `MAX_RETRIES` failures the owner waits for a poke, which a client's thread sends
when it has read something; it takes one, throws the others away and starts a fresh
round of attempts.  A poke that comes while it waits always does that
(`tries_afresh`).

The pokes before the wait are not thrown away, and the channel holds any number of
them: one from a command that found the device connected, or from the round of attempts
that has just failed, ends the wait at once.  So the owner waits for a client's bytes
if, when it gives up, no poke is queued or still to come for bytes sent before
(`NoneDue`).  A thread that has ended sends none; a relay reads without a poke, but the
loop it ends into reads what is left with one.

The sockets of the clients are part of the machine here, for a client has sent its bytes
before its thread reads them.
-/
import FlipLink.Daemon.Steps

namespace FlipLink.Daemon

open Lib

/-! ## The daemon and its sockets -/

structure Sockets where
  daemon : State
  /-- What a client has sent and its thread has not read. -/
  unread : Nat → List UInt8
  /-- History: a client has sent bytes since the owner gave up, or it never has. -/
  asked : Bool

def Sockets.initial : Sockets where
  daemon := .initial
  unread _ := []
  asked := true

inductive SocketLabel where
  | sends (i : Nat) (bytes : List UInt8)
  | daemon (l : Label)
  deriving DecidableEq, Repr

/-- The owner begins an attempt to connect, and whether it was asked to. -/
inductive SocketEvent where
  | attempt (asked : Bool)
  deriving DecidableEq, Repr

/-- What the daemon reads is there to be read. -/
def Label.Reads (unread : Nat → List UInt8) : Label → Bool
  | .client i (.read (.data bytes)) => !bytes.isEmpty && bytes.isPrefixOf (unread i)
  | _ => true

/-- What is left unread. -/
def Label.leaves (unread : Nat → List UInt8) : Label → Nat → List UInt8
  | .client i (.read (.data bytes)) =>
      Function.update unread i ((unread i).drop bytes.length)
  | _ => unread

/-- The last attempt of a round has failed. -/
def Owner.givesUp (o o' : Owner) : Bool := o != .clearCaps && o' == .clearCaps

/-- An attempt to connect begins. -/
def Owner.tries (o o' : Owner) : Bool :=
  match o, o' with
  | .connect _, _ => false
  | _, .connect _ => true
  | _, _ => false

section Machine

variable (errorBody : UInt32 → String → List UInt8)

def Sockets.step (x : Sockets) : SocketLabel → Option (Sockets × List SocketEvent)
  | .sends i bytes =>
      if bytes.isEmpty then none
      else
        some ({ x with
          unread := Function.update x.unread i (x.unread i ++ bytes)
          asked := true }, [])
  | .daemon l =>
      if l.Reads x.unread then
        match Daemon.step errorBody x.daemon l with
        | none => none
        | some (s, _) =>
            some ({ daemon := s
                    unread := l.leaves x.unread
                    asked := x.asked && !x.daemon.owner.givesUp s.owner },
              if x.daemon.owner.tries s.owner then [.attempt x.asked] else [])
      else none

def sockets : Machine Sockets SocketLabel SocketEvent where
  step := Sockets.step errorBody

end Machine

/-! ## A poke during the wait -/

/-- The owner waits for a poke, or is about to, or has just taken one. -/
def Owner.waiting : Owner → Bool
  | .clearCaps | .idle | .drainWake => true
  | _ => false

/-- How many steps of the owner a fresh round is away. -/
def Owner.away : Owner → Nat
  | .clearCaps => 3
  | .idle => 2
  | .drainWake => 1
  | _ => 0

/-- The owner waits, and there is a poke for it. -/
def Woken (s : State) : Prop := s.owner.waiting = true ∧ (s.owner = .drainWake ∨ 0 < s.wakes)

/-- The steps of the owner. -/
def ownerSteps (ls : List SocketLabel) : Nat :=
  ls.countP fun
    | .daemon (.owner _) => true
    | _ => false

/-- A step of a client takes no poke out of the channel. -/
theorem ClientMove.wakes_le {s s₁ : State} {i : Nat} {inp : ClientInput} {p p' : Phase}
    {es : List Event} (h : ClientMove s i inp p s₁ p' es) : s.wakes ≤ s₁.wakes := by
  cases h with
  | wake => exact Nat.le_succ _
  | _ => exact Nat.le_refl _

/-- A woken owner is not blocked. -/
theorem Woken.enabled {s : State} (h : Woken s) : ownerStep s .go ≠ none := by
  obtain ⟨hwait, hpoke⟩ := h
  cases ho : s.owner with
  | clearCaps =>
      rw [ownerStep, ho]
      exact Option.some_ne_none _
  | idle =>
      have hw : 0 < s.wakes := hpoke.resolve_left fun h => by rw [ho] at h; cases h
      rw [ownerStep, ho]
      dsimp only [Owner.need, own]
      rw [if_pos hw]
      exact Option.some_ne_none _
  | drainWake =>
      rw [ownerStep, ho]
      exact Option.some_ne_none _
  | _ =>
      rw [ho] at hwait
      cases hwait

/-- Its step brings the fresh round nearer. -/
theorem Woken.owner {s s' : State} {inp : OwnerInput} {es : List Event} (h : Woken s)
    (hs : ownerStep s inp = some (s', es)) :
    s'.owner = .connect 1 ∨ (Woken s' ∧ s'.owner.away < s.owner.away) := by
  obtain ⟨hwait, hpoke⟩ := h
  obtain ⟨a, s₁, o, -, ho, hr, rfl⟩ := ownerStep_cases hs
  cases hown : s.owner with
  | clearCaps =>
      have hw : 0 < s.wakes := hpoke.resolve_left fun h => by rw [hown] at h; cases h
      rw [hown] at ho hr
      cases ho
      cases hr
      exact .inr ⟨⟨rfl, .inr hw⟩, show 2 < 3 by decide⟩
  | idle =>
      rw [hown] at ho hr
      cases ho
      cases hr
      exact .inr ⟨⟨rfl, .inl rfl⟩, show 1 < 2 by decide⟩
  | drainWake =>
      rw [hown] at ho hr
      cases ho
      cases hr
      exact .inl rfl
  | _ =>
      rw [hown] at hwait
      cases hwait

/-- Another's step leaves it woken. -/
theorem Woken.client {s s' : State} {i : Nat} {inp : ClientInput}
    {eb : UInt32 → String → List UInt8} {es : List Event} (h : Woken s) (hs : clientStep eb s i inp = some (s', es)) :
    Woken s' ∧ s'.owner = s.owner := by
  obtain ⟨s₁, t, hm, rfl⟩ := clientStep_moves hs
  have howner : (s₁.setThread i t).owner = s.owner := hm.frame.2.1
  refine ⟨⟨?_, ?_⟩, howner⟩
  · rw [howner]
    exact h.1
  · rw [howner]
    exact h.2.imp_right fun hw => Nat.lt_of_lt_of_le hw hm.wakes_le

section Sockets

variable {eb : UInt32 → String → List UInt8}

theorem Sockets.step_daemon {x x' : Sockets} {l : Label} {es : List SocketEvent}
    (h : x.step eb (.daemon l) = some (x', es)) :
    ∃ es', l.Reads x.unread = true ∧ Daemon.step eb x.daemon l = some (x'.daemon, es') ∧
      x'.unread = l.leaves x.unread ∧
      x'.asked = (x.asked && !x.daemon.owner.givesUp x'.daemon.owner) ∧
      es = if x.daemon.owner.tries x'.daemon.owner then [.attempt x.asked] else [] := by
  unfold Sockets.step at h
  dsimp only at h
  split_ifs at h with hreads
  cases hs : Daemon.step eb x.daemon l with
  | none =>
      rw [hs] at h
      cases h
  | some p =>
      rw [hs] at h
      cases h
      exact ⟨p.2, hreads, rfl, rfl, rfl, rfl⟩

/-- A woken owner comes to a fresh round, or is nearer to it and not blocked. -/
theorem Woken.run : ∀ {ls : List SocketLabel} {x x' : Sockets} {es : List SocketEvent},
    Woken x.daemon → (sockets eb).run x ls = some (x', es) →
    (∃ is js y fs, ls = is ++ js ∧ (sockets eb).run x is = some (y, fs) ∧
      y.daemon.owner = .connect 1) ∨
    (Woken x'.daemon ∧ x'.daemon.owner.away + ownerSteps ls ≤ x.daemon.owner.away)
  | [], x, x', es, hw, h => by
      cases h
      exact .inr ⟨hw, Nat.le_refl _⟩
  | l :: ls, x, x', es, hw, h => by
      obtain ⟨x₁, es₁, es₂, hs, hr, rfl⟩ := Machine.run_cons h
      have hs : x.step eb l = some (x₁, es₁) := hs
      have hstep : x₁.daemon.owner = .connect 1 ∨ (Woken x₁.daemon ∧
          x₁.daemon.owner.away + ownerSteps [l] ≤ x.daemon.owner.away) := by
        cases l with
        | sends i bytes =>
            simp only [Sockets.step] at hs
            split_ifs at hs
            cases hs
            exact .inr ⟨hw, Nat.le_refl _⟩
        | daemon l =>
            obtain ⟨es', -, hd, -⟩ := Sockets.step_daemon hs
            cases l with
            | tick ms =>
                obtain ⟨hd, -⟩ := Prod.mk.inj (Option.some.inj hd)
                rw [← hd]
                exact .inr ⟨hw, Nat.le_refl _⟩
            | client i inp =>
                obtain ⟨hw₁, howner⟩ := hw.client hd
                exact .inr ⟨hw₁, Nat.le_of_eq (congrArg Owner.away howner)⟩
            | owner inp => exact (hw.owner hd).imp_right fun ⟨hw₁, hlt⟩ => ⟨hw₁, hlt⟩
      rcases hstep with hdone | ⟨hw₁, haway⟩
      · exact .inl ⟨[l], ls, x₁, _, rfl, Machine.run_step hs rfl, hdone⟩
      · rcases Woken.run hw₁ hr with ⟨is, js, y, fs, rfl, hrun, hdone⟩ | ⟨hw', haway'⟩
        · exact .inl ⟨l :: is, js, y, _, rfl, Machine.run_step hs hrun, hdone⟩
        · refine .inr ⟨hw', ?_⟩
          have hcount : ownerSteps (l :: ls) = ownerSteps [l] + ownerSteps ls :=
            @List.countP_append _ _ [l] ls
          omega

variable (eb) in
/-- The owner comes to a fresh round: whatever happens, it has begun one, or it is less
than three of its own steps on, and not blocked. -/
def TriesAfresh (x : Sockets) : Prop :=
  ∀ {ls : List SocketLabel} {x' : Sockets} {es : List SocketEvent},
    (sockets eb).run x ls = some (x', es) →
    (∃ is js y fs, ls = is ++ js ∧ (sockets eb).run x is = some (y, fs) ∧
      y.daemon.owner = .connect 1) ∨
    (ownerSteps ls < 3 ∧ (sockets eb).step x' (.daemon (.owner .go)) ≠ none)

theorem Woken.tries_afresh {x : Sockets} (h : Woken x.daemon) : TriesAfresh eb x := by
  intro ls x' es hrun
  refine (h.run hrun).imp_right fun ⟨hw, haway⟩ => ⟨?_, ?_⟩
  · have hle : x.daemon.owner.away ≤ 3 := by
      cases x.daemon.owner <;> simp [Owner.away]
    have hpos : 0 < x'.daemon.owner.away := by
      have hwait := hw.1
      cases ho : x'.daemon.owner <;> rw [ho] at hwait <;>
        first | (cases hwait; done) | simp [Owner.away]
    omega
  · obtain ⟨y, hy⟩ := Option.ne_none_iff_exists'.mp hw.enabled
    have hstep : Daemon.step eb x'.daemon (.owner .go) = some y := hy
    have hreads : Label.Reads x'.unread (.owner .go) = true := rfl
    show Sockets.step eb x' (.daemon (.owner .go)) ≠ none
    unfold Sockets.step
    dsimp only
    rw [if_pos hreads, hstep]
    exact Option.some_ne_none _

/-! ## No attempt unasked -/

/-- The thread may yet poke the owner: it has not ended, and no error of its relay is about to
end it. -/
def Phase.mayPoke : Phase → Bool
  | .closed | .relay _ (.unregister true) => false
  | _ => true

/-- No poke is queued, and none is to come for bytes already sent. -/
structure NoneDue (x : Sockets) : Prop where
  wakes : x.daemon.wakes = 0
  unread : ∀ i, (x.daemon.threads i).phase.mayPoke = true → x.unread i = []
  reading : ∀ i, (x.daemon.threads i).phase ≠ .wake

variable (eb) in
/-- When the owner gives up, no poke is due. -/
def GivesUpNoneDue (x : Sockets) : SocketLabel → Prop
  | .daemon l => ∀ s es, Daemon.step eb x.daemon l = some (s, es) →
      x.daemon.owner.givesUp s.owner = true → NoneDue x
  | .sends .. => True

/-- What a wait is until a client sends something. -/
def Unasked (x : Sockets) : Prop :=
  x.asked = false → (x.daemon.owner = .clearCaps ∨ x.daemon.owner = .idle) ∧ NoneDue x

theorem ClientMove.wakes_eq {s s₁ : State} {i : Nat} {inp : ClientInput} {p p' : Phase}
    {es : List Event} (h : ClientMove s i inp p s₁ p' es) (hp : p ≠ .wake) :
    s₁.wakes = s.wakes := by
  cases h with
  | wake => exact absurd rfl hp
  | _ => rfl

theorem givesUp_iff {o o' : Owner} : o.givesUp o' = true ↔ o ≠ .clearCaps ∧ o' = .clearCaps := by
  rw [Owner.givesUp, Bool.and_eq_true, bne_iff_ne, beq_iff_eq]

theorem givesUp_self (o : Owner) : o.givesUp o = false :=
  Bool.eq_false_iff.mpr fun h => (givesUp_iff.mp h).1 (givesUp_iff.mp h).2

/-- A thread has a poke to send only when it has read something. -/
theorem resume_wake {t t' : Thread} {now : Nat} {a : Answer} (h : t.resume eb now a = some t')
    (hw : t'.phase = .wake) : ∃ bytes, a = .read (.data bytes) := by
  obtain ⟨phase, reader⟩ := t
  unfold Thread.resume at h
  split at h
  case h_2 => exact ⟨_, rfl⟩
  case h_6 =>
    -- `frames`: the next frame, or none
    split at h
    · cases h
      cases hw
    · cases h
      dsimp only at hw
      split_ifs at hw
  case h_18 => split at h <;> cases h <;> cases hw
  all_goals first
    | (cases h; cases hw)
    | (cases h; dsimp only at hw; split_ifs at hw)
    | cases h

/-- A thread that sends no more pokes reads nothing, and ends. -/
theorem resume_ends {t t' : Thread} {s s₁ : State} {i : Nat} {inp : ClientInput} {a : Answer}
    {es : List Event} (hp : t.phase.mayPoke = false)
    (h : Served s i (t.phase.need eb) inp a s₁ es) (hr : t.resume eb s.now a = some t') :
    (∀ bytes, inp ≠ .read (.data bytes)) ∧ t'.phase = .closed := by
  obtain ⟨phase, reader⟩ := t
  dsimp only at hp h
  unfold Phase.mayPoke at hp
  split at hp
  · cases h
  · cases h
    cases hr
    exact ⟨fun _ h => (by cases h), rfl⟩
  · cases hp

/-- What a thread reads is what the socket delivers. -/
theorem Served.input {s s₁ : State} {i : Nat} {n : Need} {inp : ClientInput} {bytes : List UInt8}
    {es : List Event} (h : Served s i n inp (.read (.data bytes)) s₁ es) :
    inp = .read (.data bytes) := by
  cases h
  rfl

/-- With no poke due, no step of a client makes one due. -/
theorem NoneDue.client {x : Sockets} (h : NoneDue x) {i : Nat} {inp : ClientInput} {s : State}
    {es : List Event} (hreads : Label.Reads x.unread (.client i inp) = true)
    (hs : clientStep eb x.daemon i inp = some (s, es)) (asked : Bool) :
    NoneDue ⟨s, Label.leaves x.unread (.client i inp), asked⟩ := by
  obtain ⟨a, s₁, t, -, hserved, hr, rfl⟩ := clientStep_cases hs
  have hm := phase_moves hserved hr
  -- a thread that may poke has nothing to read, another one reads nothing
  have hdata : ∀ bytes, inp ≠ .read (.data bytes) := by
    rintro bytes rfl
    by_cases hp : (x.daemon.threads i).phase.mayPoke = true
    · simp only [Label.Reads, h.unread i hp, Bool.and_eq_true, List.isPrefixOf_iff_prefix,
        List.prefix_nil] at hreads
      obtain ⟨hne, rfl⟩ := hreads
      cases hne
    · exact (resume_ends (Bool.eq_false_iff.mpr hp) hserved hr).1 bytes rfl
  have hleaves : Label.leaves x.unread (.client i inp) = x.unread := by
    unfold Label.leaves
    split
    · rename_i heq
      cases heq
      exact absurd rfl (hdata _)
    · rfl
  refine ⟨?_, ?_, ?_⟩
  · exact (hm.wakes_eq (h.reading i)).trans h.wakes
  · rw [hleaves]
    refine hm.forall_phase (P := fun j p => p.mayPoke = true → x.unread j = []) (fun hp => ?_)
      fun j _ => h.unread j
    by_cases hbefore : (x.daemon.threads i).phase.mayPoke = true
    · exact h.unread i hbefore
    · rw [(resume_ends (Bool.eq_false_iff.mpr hbefore) hserved hr).2] at hp
      cases hp
  · refine hm.forall_phase (P := fun _ p => p ≠ .wake) (fun hw => ?_) fun j _ => h.reading j
    obtain ⟨bytes, rfl⟩ := resume_wake hr hw
    exact hdata bytes hserved.input

/-- The owner only takes pokes. -/
theorem Owned.wakes_le {s s₁ : State} {n : Owner.Need} {a : Owner.Answer} {es : List Event}
    (h : Owned s n a s₁ es) : s₁.wakes ≤ s.wakes := by
  cases h with
  | recvWake => exact Nat.sub_le _ _
  | drainWake => exact Nat.zero_le _
  | see | lookup =>
      unfold mark
      split_ifs
      · split <;> exact Nat.le_refl _
      · exact Nat.le_refl _
  | _ => exact Nat.le_refl _

/-- No step of the daemon does, until a client sends something. -/
theorem NoneDue.step {x : Sockets} (h : NoneDue x) {s : State} {es : List Event} (asked : Bool) :
    ∀ {l : Label}, Label.Reads x.unread l = true → Daemon.step eb x.daemon l = some (s, es) →
    NoneDue ⟨s, l.leaves x.unread, asked⟩
  | .tick ms, _, hd => by
      cases hd
      exact ⟨h.wakes, h.unread, h.reading⟩
  | .client i inp, hreads, hd => h.client hreads hd asked
  | .owner inp, _, hd => by
      obtain ⟨a, s₁, o, -, ho, hr, rfl⟩ := ownerStep_cases hd
      have hthreads : s₁.threads = x.daemon.threads := (owner_moves ho hr).frame.1
      refine ⟨Nat.le_zero.mp (h.wakes ▸ ho.wakes_le), fun i hp => ?_, fun i => ?_⟩
      · have hp : (s₁.threads i).phase.mayPoke = true := hp
        rw [hthreads] at hp
        exact h.unread i hp
      · show (s₁.threads i).phase ≠ .wake
        rw [hthreads]
        exact h.reading i

/-- From a wait the owner does not give up; unasked, it does not leave it either. -/
theorem waiting_step {x : State} (hwait : x.owner.waiting = true) {s : State} {es : List Event} :
    ∀ {l : Label}, Daemon.step eb x l = some (s, es) →
    x.owner.givesUp s.owner = false ∧
      (x.wakes = 0 → x.owner = .clearCaps ∨ x.owner = .idle → s.owner = .clearCaps ∨ s.owner = .idle)
  | .tick ms, hd => by
      cases hd
      exact ⟨givesUp_self _, fun _ h => h⟩
  | .client i inp, hd => by
      obtain ⟨s₁, t, hm, rfl⟩ := clientStep_moves hd
      have howner : (s₁.setThread i t).owner = x.owner := hm.frame.2.1
      rw [howner]
      exact ⟨givesUp_self _, fun _ h => h⟩
  | .owner inp, hd => by
      obtain ⟨a, s₁, o, -, ho, hr, rfl⟩ := ownerStep_cases hd
      cases hown : x.owner with
      | clearCaps =>
          rw [hown] at ho hr
          cases ho
          cases hr
          exact ⟨rfl, fun _ _ => .inr rfl⟩
      | idle =>
          rw [hown] at ho hr
          cases ho with
          | recvWake hw =>
              cases hr
              exact ⟨rfl, fun h0 => absurd h0 (Nat.ne_of_gt hw)⟩
      | drainWake =>
          rw [hown] at ho hr
          cases ho
          cases hr
          refine ⟨rfl, fun _ h => ?_⟩
          rcases h with h | h <;> cases h
      | _ =>
          rw [hown] at hwait
          cases hwait

theorem tries_wait {o o' : Owner} (h : o' = .clearCaps ∨ o' = .idle) : o.tries o' = false := by
  rcases h with rfl | rfl <;> cases o <;> rfl

/-- One step, with no poke due when the owner gives up. -/
theorem Unasked.step {x x' : Sockets} {l : SocketLabel} {es : List SocketEvent} (h : Unasked x)
    (hG : GivesUpNoneDue eb x l) (hs : (sockets eb).step x l = some (x', es)) :
    Unasked x' ∧ ∀ asked, .attempt asked ∈ es → asked = true := by
  have hs : x.step eb l = some (x', es) := hs
  cases l with
  | sends i bytes =>
      simp only [Sockets.step] at hs
      split_ifs at hs
      cases hs
      exact ⟨fun hasked => Bool.noConfusion hasked, fun _ he => absurd he List.not_mem_nil⟩
  | daemon l =>
      obtain ⟨es', hreads, hd, hunread, hasked, rfl⟩ := Sockets.step_daemon hs
      obtain ⟨s, unread, asked⟩ := x'
      dsimp only at hd hunread hasked ⊢
      subst hunread
      cases hx : x.asked with
      | false =>
          obtain ⟨hown, hdue⟩ := h hx
          have hwait : x.daemon.owner.waiting = true := by
            rcases hown with hown | hown <;> rw [hown] <;> rfl
          have hown' := (waiting_step hwait hd).2 hdue.wakes hown
          refine ⟨fun _ => ⟨hown', hdue.step asked hreads hd⟩, fun _ he => ?_⟩
          rw [tries_wait hown', if_neg Bool.false_ne_true] at he
          exact absurd he List.not_mem_nil
      | true =>
          refine ⟨fun hno => ?_, fun asked he => ?_⟩
          · have hno : asked = false := hno
            have hgives : x.daemon.owner.givesUp s.owner = true := by
              rw [hx, hno, Bool.true_and] at hasked
              simpa using hasked
            exact ⟨.inl (givesUp_iff.mp hgives).2, (hG s es' hd hgives).step asked hreads hd⟩
          · split_ifs at he
            · cases List.mem_singleton.mp he
              rfl
            · exact absurd he List.not_mem_nil

/-- **The owner waits until it is asked.**  In every run in which no poke is queued, or to
come for bytes already sent, when the last attempt of a round fails, the owner begins no
attempt after that before a client has sent bytes.  And in every run whatever, a poke that
comes while the owner waits is followed by a fresh round. -/
theorem idles_until_asked {ls : List SocketLabel} {x : Sockets} {es : List SocketEvent}
    (h : (sockets eb).run .initial ls = some (x, es)) :
    ((sockets eb).Guarded (GivesUpNoneDue eb) .initial ls →
      ∀ asked, .attempt asked ∈ es → asked = true) ∧
    ∀ {i : Nat} {x' : Sockets} {es' : List SocketEvent}, x.daemon.owner.waiting = true →
      (x.daemon.threads i).phase = .wake →
      (sockets eb).step x (.daemon (.client i .go)) = some (x', es') → TriesAfresh eb x' := by
  constructor
  · intro hG
    refine (Machine.run_guarded_events (M := sockets eb)
      (P := fun x es => Unasked x ∧ ∀ asked, .attempt asked ∈ es → asked = true)
      (fun hP hG hs => ?_) ⟨fun h => Bool.noConfusion h, fun _ he => absurd he List.not_mem_nil⟩
      hG h).2
    obtain ⟨hun, hes⟩ := hP.1.step hG hs
    exact ⟨hun, fun asked he => (List.mem_append.mp he).elim (hP.2 asked) (hes asked)⟩
  · intro i x' es' hwait hphase hs
    refine @Woken.tries_afresh eb x' ?_
    have hs : x.step eb (.daemon (.client i .go)) = some (x', es') := hs
    obtain ⟨es'', -, hd, -⟩ := Sockets.step_daemon hs
    have hd : clientStep eb x.daemon i .go = some (x'.daemon, es'') := hd
    obtain ⟨a, s₁, t, -, hserved, -, heq⟩ := clientStep_cases hd
    rw [hphase] at hserved
    cases hserved
    rw [heq]
    exact ⟨hwait, .inr (Nat.succ_pos _)⟩

/-- Until a client sends something, none becomes due. -/
theorem NoneDue.guarded : ∀ {ls : List Label} {x : Sockets}, NoneDue x →
    (sockets eb).Guarded (GivesUpNoneDue eb) x (ls.map .daemon)
  | [], _, _ => trivial
  | l :: ls, x, h => by
      refine ⟨fun _ _ _ _ => h, ?_⟩
      cases hs : (sockets eb).step x (.daemon l) with
      | none => trivial
      | some p =>
          have hs : x.step eb (.daemon l) = some (p.1, p.2) := hs
          obtain ⟨es', hreads, hd, hunread, -, -⟩ := Sockets.step_daemon hs
          have hp := h.step p.1.asked hreads hd
          rw [← hunread] at hp
          exact hp.guarded

theorem givesUpNoneDue_of_waiting {x : Sockets} {l : SocketLabel}
    (h : x.daemon.owner.waiting = true) : GivesUpNoneDue eb x l := by
  cases l with
  | sends i bytes => trivial
  | daemon l =>
      intro s es hd hgives
      rw [(waiting_step h hd).1] at hgives
      exact Bool.noConfusion hgives

end Sockets

/-! ## An old poke -/

/-- An attempt fails, and the owner waits for the next. -/
def failing : List Label := [.owner (.opened false), .tick 500, .owner .go]

/-- Five attempts fail. -/
def failedRound : List Label := failing ++ failing ++ failing ++ failing ++ [.owner (.opened false)]

/-- A client's byte arrives and its thread pokes the owner. -/
def poking : List SocketLabel :=
  [.sends 0 [0], .daemon (.client 0 (.read (.data [0]))), .daemon (.client 0 .go)]

/-- The owner empties the cache, takes a poke, throws the others away. -/
def waking : List SocketLabel := [.daemon (.owner .go), .daemon (.owner .go), .daemon (.owner .go)]

/-- Asked by a byte that comes after the five failures, the owner begins a new round. -/
theorem idles_until_asked_poked :
    ∃ x es, (sockets agentErrorBody).run .initial
        (failedRound.map .daemon ++ (.daemon (.owner .go) :: poking ++ waking.tail))
        = some (x, es) ∧ es.length = 5 ∧ ∀ asked, .attempt asked ∈ es → asked = true := by
  have hrun : ((sockets agentErrorBody).run .initial
        (failedRound.map .daemon ++ (.daemon (.owner .go) :: poking ++ waking.tail))).map Prod.snd
      = some (List.replicate 5 (.attempt true)) := by
    decide +kernel
  have hround : ((sockets agentErrorBody).run .initial (failedRound.map .daemon)).map Prod.snd
      = some (List.replicate 4 (.attempt true)) := by
    decide +kernel
  have hdue : NoneDue .initial := ⟨rfl, fun _ _ => rfl, fun _ h => Phase.noConfusion h⟩
  have hG : (sockets agentErrorBody).Guarded (GivesUpNoneDue agentErrorBody) .initial
      (failedRound.map .daemon ++ (.daemon (.owner .go) :: poking ++ waking.tail)) :=
    Machine.guarded_append (Machine.run_final hround) hdue.guarded
    ⟨givesUpNoneDue_of_waiting rfl, givesUpNoneDue_of_waiting rfl, givesUpNoneDue_of_waiting rfl,
      givesUpNoneDue_of_waiting rfl, givesUpNoneDue_of_waiting rfl,
      givesUpNoneDue_of_waiting rfl, trivial⟩
  have hfinal := Machine.run_final hrun
  exact ⟨_, _, hfinal, rfl, (idles_until_asked hfinal).1 hG⟩

/-- A poke from before the round ends the wait at once. -/
theorem woken_unasked :
    ∃ x es, (sockets agentErrorBody).run .initial (poking ++ failedRound.map .daemon ++ waking)
        = some (x, es) ∧ ¬ ∀ asked, .attempt asked ∈ es → asked = true := by
  have hrun : ((sockets agentErrorBody).run .initial
        (poking ++ failedRound.map .daemon ++ waking)).map Prod.snd
      = some (List.replicate 4 (.attempt true) ++ [.attempt false]) := by
    decide +kernel
  refine ⟨_, _, Machine.run_final hrun, fun h => ?_⟩
  exact Bool.noConfusion (h false (List.mem_append_right _ (List.mem_singleton_self _)))

end FlipLink.Daemon
