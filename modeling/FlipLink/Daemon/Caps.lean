/-
# `FlipLink.Daemon.Caps` — the cached CAPS and the session they are from

A client's HELLO is answered from the cache.  The owner fills it when a handshake is
complete and empties it when it goes idle; when a session ends it does not, it goes
round to the next attempt to connect.  So between two sessions the cache holds what the
last one left (`Cached`), and a HELLO is answered with it as if the device were there.

`traced` is the daemon with the history that this is about: the CAPS body of the
session, and what the cache keeps of one that is over.  Its events are the HELLOs that
are answered, each with the history it was answered in.
-/
import FlipLink.Daemon.Pump

namespace FlipLink.Daemon

open Lib

/-! ## The session -/

/-- What there is to know of the device link. -/
structure Link where
  /-- The CAPS body of the handshake, while the session lasts. -/
  session : Option (List UInt8)
  /-- The CAPS body of a session that is over, until the owner goes idle. -/
  left : List UInt8
  deriving DecidableEq, Repr

namespace Link

def initial : Link := { session := none, left := [] }

/-- The link over a step of the owner from `o` to `o'`. -/
def next (k : Link) (o o' : Owner) : Link :=
  match o with
  | .cache caps => { session := some caps, left := [] }
  | .clearCaps => initial
  | _ => if o'.up then k else { session := none, left := k.session.getD k.left }

/-- The link over a step of the daemon. -/
def after (k : Link) (s : State) (l : Label) (s' : State) : Link :=
  match l with
  | .owner _ => k.next s.owner s'.owner
  | .client .. | .tick _ => k

end Link

/-- An answered HELLO: the link at that moment, the seq, and what the thread goes on to
write. -/
structure Hello where
  link : Link
  seq : UInt16
  answer : Phase
  deriving DecidableEq, Repr

/-- The HELLO that a step answers. -/
def hellos (s : State) (k : Link) (l : Label) (s' : State) : List Hello :=
  match l with
  | .client i _ =>
      match (s.threads i).phase with
      | .caps seq => [⟨k, seq, (s'.threads i).phase⟩]
      | _ => []
  | .owner _ | .tick _ => []

section Traced

variable (errorBody : UInt32 → String → List UInt8)

def tracedStep (x : State × Link) (l : Label) : Option ((State × Link) × List Hello) :=
  match step errorBody x.1 l with
  | none => none
  | some (s, _) => some ((s, x.2.after x.1 l s), hellos x.1 x.2 l s)

/-- The daemon with its history. -/
def traced : Machine (State × Link) Label Hello where
  step := tracedStep errorBody

/-- What a HELLO is to be answered with. -/
def Hello.Right (h : Hello) : Prop :=
  h.answer =
    match h.link.session with
    | some caps => .helloWrite .caps h.seq caps
    | none => .helloWrite .error h.seq (errorBody errInternal "device not connected")

end Traced

/-- The session, if there is one, has a CAPS body that is not empty; if there is none,
nothing is left of one. -/
def Link.Current (k : Link) : Prop := k.session ≠ some [] ∧ (k.session = none → k.left = [])

instance (k : Link) : Decidable k.Current := inferInstanceAs (Decidable (_ ∧ _))

/-- A HELLO that is answered finds the link so. -/
def AnswersCurrent (x : State × Link) : Label → Prop
  | .client i _ => (x.1.threads i).phase matches .caps _ → x.2.Current
  | .owner _ | .tick _ => True

instance (x : State × Link) : ∀ l : Label, Decidable (AnswersCurrent x l)
  | .client .. => inferInstanceAs (Decidable (_ → _))
  | .owner _ | .tick _ => .isTrue trivial

section Traced

variable {eb : UInt32 → String → List UInt8}

theorem tracedStep_cases {x x' : State × Link} {l : Label} {hs : List Hello}
    (h : tracedStep eb x l = some (x', hs)) :
    ∃ es, step eb x.1 l = some (x'.1, es) ∧ x'.2 = x.2.after x.1 l x'.1 ∧
      hs = hellos x.1 x.2 l x'.1 := by
  unfold tracedStep at h
  cases hs : step eb x.1 l with
  | none =>
      rw [hs] at h
      cases h
  | some p =>
      rw [hs] at h
      cases h
      exact ⟨p.2, rfl, rfl, rfl⟩

/-- The history belongs to the daemon's runs, and every run has one. -/
theorem traced_run : ∀ {ls : List Label} {s s' : State} {es : List Event} (k : Link),
    (machine eb).run s ls = some (s', es) →
    ∃ k' hs, (traced eb).run (s, k) ls = some ((s', k'), hs)
  | [], _, _, _, k, h => by
      cases h
      exact ⟨k, [], rfl⟩
  | l :: ls, s, s', es, k, h => by
      obtain ⟨s₁, es₁, es₂, hs, hr, rfl⟩ := Machine.run_cons h
      obtain ⟨k', hs', hrun⟩ := traced_run (k.after s l s₁) hr
      have hs : step eb s l = some (s₁, es₁) := hs
      have hstep : (traced eb).step (s, k) l
          = some ((s₁, k.after s l s₁), hellos s k l s₁) := by
        show tracedStep eb (s, k) l = _
        unfold tracedStep
        rw [hs]
      exact ⟨k', _, Machine.run_step hstep hrun⟩

/-! ## The cache -/

/-- The cache holds the CAPS of the session, or what is left of one. -/
structure Cached (x : State × Link) : Prop where
  caps : x.1.router.capsPayload = x.2.session.getD x.2.left
  up : x.2.session.isSome = x.1.owner.up

theorem Cached.initial : Cached (.initial, .initial) := ⟨rfl, rfl⟩

/-- No client changes the cache. -/
theorem ClientMove.capsPayload {s s₁ : State} {i : Nat} {inp : ClientInput} {p p' : Phase}
    {es : List Event} (h : ClientMove s i inp p s₁ p' es) :
    s₁.router.capsPayload = s.router.capsPayload := by
  cases h <;> rfl

/-- Of the owner's steps only those that ask for it do. -/
theorem Owned.capsPayload {s s₁ : State} {n : Owner.Need} {a : Owner.Answer} {es : List Event}
    (h : Owned s n a s₁ es) (hn : ∀ caps, n ≠ .setCaps caps) :
    s₁.router.capsPayload = s.router.capsPayload := by
  cases h with
  | setCaps => exact absurd rfl (hn _)
  | see | lookup => exact congrArg Router.capsPayload (mark_frame s _).2.1
  | _ => rfl

theorem failed_up (n now : Nat) : (Owner.failed n now).up = false := by
  unfold Owner.failed
  split_ifs <;> rfl

/-- The pump is entered from the handshake's end only. -/
theorem resume_up {now : Nat} {a : Owner.Answer} {o' : Owner} : ∀ {o : Owner},
    o.resume now a = some o' → o'.up = true → o.up = true ∨ ∃ caps, o = .cache caps
  | .out _, _, _ | .write .., _, _ | .read _, _, _ | .frames _, _, _ | .lookup .., _, _
  | .send .., _, _ => .inl rfl
  | .cache caps, _, _ => .inr ⟨caps, rfl⟩
  | .connect n, hr, hup => by
      cases a <;> cases hr
      rename_i ok
      cases ok
      · exact absurd hup (Bool.eq_false_iff.mp (failed_up n now))
      · cases hup
  | .sleep .., hr, hup | .clearCaps, hr, hup | .idle, hr, hup | .drainWake, hr, hup => by
      cases a <;> cases hr
      cases hup
  | .helloWrite n, hr, hup => by
      cases a <;> cases hr
      rename_i ok
      cases ok
      · exact absurd hup (Bool.eq_false_iff.mp (failed_up n now))
      · cases hup
  | .handshake n reader deadline, hr, hup => by
      cases a <;> try cases hr
      simp only [Owner.resume] at hr
      split at hr
      · cases hr
        cases hup
      · split_ifs at hr
        · cases hr
          exact absurd hup (Bool.eq_false_iff.mp (failed_up n now))
        · cases hr
          cases hup
  | .see n reader deadline f, hr, hup => by
      cases a <;> cases hr
      split_ifs at hup <;> cases hup
  | .handshakeRead n _ _, hr, hup => by
      cases a <;> try cases hr
      rename_i r
      cases r
      · cases hr
        exact absurd hup (Bool.eq_false_iff.mp (failed_up n now))
      · cases hr
        cases hup

/-- Elsewhere than at the end of a handshake and on the way to idle, the link lasts as
long as the pump. -/
theorem Link.next_of_ne {k : Link} {o o' : Owner} (hcache : ∀ caps, o ≠ .cache caps)
    (hclear : o ≠ .clearCaps) :
    k.next o o' = if o'.up then k else { session := none, left := k.session.getD k.left } := by
  cases o with
  | cache caps => exact absurd rfl (hcache caps)
  | clearCaps => exact absurd rfl hclear
  | _ => rfl

theorem need_setCaps {o : Owner} {payload : List UInt8} (h : o.need = .setCaps payload) :
    (∃ caps, o = .cache caps) ∨ o = .clearCaps := by
  cases o with
  | cache caps => exact .inl ⟨caps, rfl⟩
  | clearCaps => exact .inr rfl
  | write reader item chunks => cases chunks <;> cases h
  | _ => cases h

/-- An owner's step keeps the cache and the link together. -/
theorem Cached.owner {s s₁ : State} {k : Link} (h : Cached (s, k)) {a : Owner.Answer}
    {es : List Event} {o' : Owner} (ho : Owned s s.owner.need a s₁ es)
    (hr : s.owner.resume s.now a = some o') :
    Cached ({ s₁ with owner := o' }, k.next s.owner o') := by
  obtain ⟨hcaps, hup⟩ := h
  dsimp only at hcaps hup
  by_cases hcache : ∃ caps, s.owner = .cache caps
  · obtain ⟨caps, hcache⟩ := hcache
    rw [hcache] at ho hr ⊢
    cases ho
    cases hr
    exact ⟨rfl, rfl⟩
  by_cases hclear : s.owner = .clearCaps
  · rw [hclear] at ho hr ⊢
    cases ho
    cases hr
    exact ⟨rfl, rfl⟩
  have hkeep : s₁.router.capsPayload = s.router.capsPayload :=
    ho.capsPayload fun payload hn => (need_setCaps hn).elim hcache hclear
  rw [Link.next_of_ne (fun caps hc => hcache ⟨caps, hc⟩) hclear]
  by_cases hup' : o'.up = true
  · have hsession : s.owner.up = true := (resume_up hr hup').resolve_right hcache
    rw [if_pos hup']
    exact ⟨hkeep.trans hcaps, (hup.trans hsession).trans hup'.symm⟩
  · rw [if_neg hup']
    exact ⟨hkeep.trans hcaps, (Bool.eq_false_iff.mpr hup').symm⟩

theorem Cached.step {x x' : State × Link} {l : Label} {hs : List Hello} (h : Cached x)
    (hstep : tracedStep eb x l = some (x', hs)) : Cached x' := by
  obtain ⟨es, hs, hk, -⟩ := tracedStep_cases hstep
  obtain ⟨s, k⟩ := x
  obtain ⟨s', k'⟩ := x'
  dsimp only at hs hk
  subst hk
  cases l with
  | tick ms =>
      cases hs
      exact ⟨h.caps, h.up⟩
  | client i inp =>
      obtain ⟨s₁, t, hm, rfl⟩ := clientStep_moves hs
      refine ⟨hm.capsPayload.trans h.caps, ?_⟩
      show k.session.isSome = s₁.owner.up
      rw [hm.frame.2.1]
      exact h.up
  | owner inp =>
      obtain ⟨a, s₁, o, -, ho, hr, rfl⟩ := ownerStep_cases hs
      exact h.owner ho hr

/-! ## The answers -/

/-- The answer to a HELLO, from the cache. -/
theorem caps_answer {s s' : State} {i : Nat} {inp : ClientInput} {es : List Event} {seq : UInt16}
    (hs : clientStep eb s i inp = some (s', es)) (hp : (s.threads i).phase = .caps seq) :
    (s'.threads i).phase = if s.router.capsPayload.isEmpty
      then .helloWrite .error seq (eb errInternal "device not connected")
      else .helloWrite .caps seq s.router.capsPayload := by
  obtain ⟨a, s₁, t, -, hserved, hr, rfl⟩ := clientStep_cases hs
  rw [hp] at hserved
  cases hserved
  have hthread : s.threads i = ⟨.caps seq, (s.threads i).reader⟩ := by rw [← hp]
  rw [hthread] at hr
  cases hr
  rw [State.setThread_self]
  rfl

/-- A HELLO is answered right exactly if it is answered with what is current. -/
theorem Cached.right_iff {s : State} {k : Link} (h : Cached (s, k)) {seq : UInt16} :
    Hello.Right eb ⟨k, seq, if s.router.capsPayload.isEmpty
        then .helloWrite .error seq (eb errInternal "device not connected")
        else .helloWrite .caps seq s.router.capsPayload⟩ ↔ k.Current := by
  have hcaps := h.caps
  dsimp only at hcaps
  rw [hcaps, Hello.Right, Link.Current]
  cases k.session with
  | some caps =>
      cases caps with
      | nil => exact iff_of_false (fun h => by cases h) fun h => h.1 rfl
      | cons b bs => exact iff_of_true rfl ⟨by simp, by simp⟩
  | none =>
      cases k.left with
      | nil => exact iff_of_true rfl ⟨by simp, fun _ => rfl⟩
      | cons b bs => exact iff_of_false (fun h => by cases h) fun h => List.cons_ne_nil b bs (h.2 rfl)

/-- The HELLO that a step answers is answered right exactly if what is cached is current. -/
theorem Cached.current_iff {x x' : State × Link} {l : Label} {hs : List Hello} (h : Cached x)
    (hstep : tracedStep eb x l = some (x', hs)) :
    AnswersCurrent x l ↔ Machine.Each (fun _ => Hello.Right eb) hs := by
  obtain ⟨es, hs, -, rfl⟩ := tracedStep_cases hstep
  cases l with
  | tick ms | owner inp => exact iff_of_true trivial Machine.each_nil
  | client i inp =>
      show ((x.1.threads i).phase matches .caps _ → _) ↔ Machine.Each _ (hellos ..)
      unfold hellos
      dsimp only
      cases hp : (x.1.threads i).phase with
      | caps seq =>
          rw [Machine.each_singleton, caps_answer hs hp, h.right_iff]
          exact ⟨fun hc => hc rfl, fun hc _ => hc⟩
      | _ => exact iff_of_true (fun h => by cases h) Machine.each_nil

/-- **When capabilities are not stale.**  Over any run of the daemon, every HELLO is
answered from the session it was processed in, or with "device not connected" outside
one, exactly if none was processed with something left in the cache of a session that is
over, or in a session whose CAPS body is empty. -/
theorem caps_current_iff {ls : List Label} {x : State × Link} {hs : List Hello}
    (h : (traced eb).run (.initial, .initial) ls = some (x, hs)) :
    (traced eb).Guarded AnswersCurrent (.initial, .initial) ls ↔ ∀ hello ∈ hs, hello.Right eb := by
  rw [← Machine.each_const]
  exact Machine.guarded_iff_each (M := traced eb) (P := fun x _ => Cached x)
    (fun hP hstep => hP.step hstep) (fun hP hstep => hP.current_iff hstep) .initial h

end Traced

/-! ## A HELLO between two sessions -/

/-- The device's CAPS, in a frame of 14 bytes. -/
def capsFrame : Frame := { typ := .caps, flags := 0, seq := 0, payload := [0xA0] }

def helloFrame : Frame := { typ := .hello, flags := 0, seq := 7, payload := [] }

/-- A connect and a whole handshake. -/
def connecting : List Label :=
  [.owner (.opened true), .owner (.wrote true), .owner .go, .owner (.read (some capsFrame.wire)),
    .owner .go, .owner .go, .owner .go]

/-- A client's HELLO, up to the answer. -/
def greeting : List Label :=
  [.client 0 (.read (.data helloFrame.wire)), .client 0 .go, .client 0 .go, .client 0 .go]

/-- In the session the HELLO is answered with its CAPS. -/
theorem caps_current_iff_session :
    ∃ x hs, (traced agentErrorBody).run (.initial, .initial) (connecting ++ greeting)
        = some (x, hs) ∧ hs.length = 1 ∧ ∀ hello ∈ hs, hello.Right agentErrorBody := by
  have hrun : ((traced agentErrorBody).run (.initial, .initial) (connecting ++ greeting)).map Prod.snd
        = some [⟨⟨some [0xA0], []⟩, 7, .helloWrite .caps 7 [0xA0]⟩] ∧
      (traced agentErrorBody).Guarded AnswersCurrent (.initial, .initial)
        (connecting ++ greeting) := by
    decide +kernel
  have hfinal := Machine.run_final hrun.1
  exact ⟨_, _, hfinal, rfl, (caps_current_iff hfinal).mp hrun.2⟩

/-- The read after which the session is over, and the next attempt not yet made. -/
def dropped : List Label := [.owner .go, .owner (.read none)]

/-- Between the end of a session and the next attempt to connect, a HELLO is answered
with the CAPS of the device that is gone. -/
theorem stale_caps :
    ∃ x hs, (traced agentErrorBody).run (.initial, .initial) (connecting ++ dropped ++ greeting)
        = some (x, hs) ∧ ¬ ∀ hello ∈ hs, hello.Right agentErrorBody := by
  have hrun : ((traced agentErrorBody).run (.initial, .initial)
        (connecting ++ dropped ++ greeting)).map Prod.snd
      = some [⟨⟨none, [0xA0]⟩, 7, .helloWrite .caps 7 [0xA0]⟩] := by
    decide +kernel
  refine ⟨_, _, Machine.run_final hrun, fun h => ?_⟩
  have hright : Phase.helloWrite .caps 7 [0xA0] = .helloWrite .error 7 _ :=
    h _ (List.mem_singleton_self _)
  cases hright

end FlipLink.Daemon
