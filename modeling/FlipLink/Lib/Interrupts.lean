/-
# `Lib.Interrupts` — a thread and the interrupts that suspend it

A thread runs a program of atomic operations, with branches and loops, over a
memory that it shares with interrupt handlers.  Between two steps of the thread
any interrupt that is enabled may run, and a handler runs to its end.  Each step
of the thread is given an answer from outside, which is what the hardware and the
data it does not model may say.  An operation, or a handler, that has no outcome
in the memory it finds is a fault.

`Outline I J P p Q` is the proof outline of a program in the manner of Owicki and
Gries: an assertion stands at each point of the program, no interrupt fails where
it holds, and none makes it false (`Stable`).  `J` is what holds throughout.  An
outline is sound for every interleaving (`Outline.run`): no run faults, `J` holds
in each of its states, and where the thread has come to its end, `Q` does.

Two memories beside each other have both their interrupts (`Interrupts.prod`), and a
program that touches one of them keeps what is stable in the other (`Outline.left`,
`Outline.right`): that is the frame rule.  A program of the right memory may call one
of the left (`Prog.call`).
-/
import FlipLink.Lib.Machine

namespace Lib

/-! ## Programs and interrupts -/

/-- Which interrupts may come, and what they do to the memory. -/
structure Interrupts (σ ι : Type) where
  enabled : ι → σ → Bool
  handle : ι → σ → Option σ

/-- The program of a thread. -/
inductive Prog (α σ : Type) where
  | skip
  | act (f : α → σ → Option σ)
  | seq (p q : Prog α σ)
  | ite (b : α → σ → Bool) (p q : Prog α σ)
  | loop (b : α → σ → Bool) (p : Prog α σ)
  /-- A call of a program of another memory; for this one it does nothing. -/
  | call

namespace Interrupts

inductive Label (α ι : Type) where
  /-- The thread's next step, with the answer to it. -/
  | main (a : α)
  | interrupt (i : ι)

inductive Fault (ι : Type) where
  | main
  | interrupt (i : ι)

variable {α σ ι : Type} (I : Interrupts σ ι)

/-- A step of the memory and of what the thread has still to do. -/
def step : σ × List (Prog α σ) → Label α ι → Option ((σ × List (Prog α σ)) × List (Fault ι))
  | (s, k), .interrupt i =>
      if I.enabled i s then
        match I.handle i s with
        | some s' => some ((s', k), [])
        | none => some ((s, k), [.interrupt i])
      else none
  | (_, []), .main _ => none
  | (s, .skip :: k), .main _ | (s, .call :: k), .main _ => some ((s, k), [])
  | (s, .act f :: k), .main a =>
      match f a s with
      | some s' => some ((s', k), [])
      | none => some ((s, k), [.main])
  | (s, .seq p q :: k), .main _ => some ((s, p :: q :: k), [])
  | (s, .ite b p q :: k), .main a => some ((s, (if b a s then p else q) :: k), [])
  | (s, .loop b p :: k), .main a => some ((s, if b a s then p :: .loop b p :: k else k), [])

def machine (α : Type) : Machine (σ × List (Prog α σ)) (Label α ι) (Fault ι) where
  step := I.step

/-! ## Proof outlines -/

/-- Where `P` holds, `J` does, no enabled interrupt fails, and each leaves `P` true. -/
structure Stable (J P : σ → Prop) : Prop where
  holds : ∀ s, P s → J s
  kept : ∀ i s, P s → I.enabled i s = true → ∃ s', I.handle i s = some s' ∧ P s'

/-- The rules: the assertions at all points of the program are stable. -/
inductive Outline (J : σ → Prop) : (σ → Prop) → Prog α σ → (σ → Prop) → Prop
  | skip {P : σ → Prop} : I.Stable J P → Outline J P .skip P
  | call {P : σ → Prop} : I.Stable J P → Outline J P .call P
  | act {P Q : σ → Prop} {f : α → σ → Option σ} : I.Stable J P → I.Stable J Q →
      (∀ a s, P s → ∃ s', f a s = some s' ∧ Q s') → Outline J P (.act f) Q
  | seq {P R Q : σ → Prop} {p q : Prog α σ} : Outline J P p R → Outline J R q Q →
      Outline J P (.seq p q) Q
  | ite {P P₁ P₂ Q : σ → Prop} {b : α → σ → Bool} {p q : Prog α σ} : I.Stable J P →
      (∀ a s, P s → b a s = true → P₁ s) → (∀ a s, P s → b a s = false → P₂ s) →
      Outline J P₁ p Q → Outline J P₂ q Q → Outline J P (.ite b p q) Q
  | loop {P P₁ Q : σ → Prop} {b : α → σ → Bool} {p : Prog α σ} : I.Stable J P → I.Stable J Q →
      (∀ a s, P s → b a s = true → P₁ s) → (∀ a s, P s → b a s = false → Q s) →
      Outline J P₁ p P → Outline J P (.loop b p) Q
  | weaken {P P' Q Q' : σ → Prop} {p : Prog α σ} : (∀ s, P s → P' s) → Outline J P' p Q' →
      (∀ s, Q' s → Q s) → I.Stable J Q → Outline J P p Q

/-- What the thread has still to do leads from `P` to `Q`. -/
inductive Rest (J : σ → Prop) : (σ → Prop) → List (Prog α σ) → (σ → Prop) → Prop
  | nil {P Q : σ → Prop} : I.Stable J P → (∀ s, P s → Q s) → Rest J P [] Q
  | cons {P R Q : σ → Prop} {p : Prog α σ} {k : List (Prog α σ)} : I.Outline J P p R →
      Rest J R k Q → Rest J P (p :: k) Q

/-- The memory is where an outline of the rest begins. -/
def Good (J Q : σ → Prop) (c : σ × List (Prog α σ)) : Prop :=
  ∃ P, P c.1 ∧ I.Stable J P ∧ I.Rest J P c.2 Q

variable {I} {J P Q R : σ → Prop} {p : Prog α σ} {k : List (Prog α σ)}

theorem Stable.or (hP : I.Stable J P) (hQ : I.Stable J Q) : I.Stable J (fun s => P s ∨ Q s) where
  holds s hs := hs.elim (hP.holds s) (hQ.holds s)
  kept i s hs hi := by
    rcases hs with hs | hs
    · obtain ⟨s', hs', h⟩ := hP.kept i s hs hi
      exact ⟨s', hs', .inl h⟩
    · obtain ⟨s', hs', h⟩ := hQ.kept i s hs hi
      exact ⟨s', hs', .inr h⟩

/-- What no interrupt changes keeps what is said of it. -/
theorem Stable.of_spared {ρ : Type} {res : σ → ρ} {F : ρ → Prop} (hJ : ∀ s, F (res s) → J s)
    (h : ∀ i s, F (res s) → I.enabled i s = true → ∃ s', I.handle i s = some s' ∧ res s' = res s) :
    I.Stable J (fun s => F (res s)) where
  holds := hJ
  kept i s hs hi := by
    obtain ⟨s', hs', hres⟩ := h i s hs hi
    exact ⟨s', hs', hres ▸ hs⟩

theorem Outline.post (h : I.Outline J P p Q) : I.Stable J Q := by
  induction h with
  | skip hP | call hP => exact hP
  | act _ hQ _ => exact hQ
  | seq _ _ _ ih => exact ih
  | ite _ _ _ _ _ ih _ => exact ih
  | loop _ hQ _ _ _ _ => exact hQ
  | weaken _ _ _ hQ _ => exact hQ

/-- An outline may begin at an assertion that is stable. -/
theorem Outline.pre (h : I.Outline J P p Q) {s : σ} (hs : P s) :
    ∃ P', P' s ∧ I.Stable J P' ∧ I.Outline J P' p Q := by
  induction h with
  | skip hP => exact ⟨_, hs, hP, .skip hP⟩
  | call hP => exact ⟨_, hs, hP, .call hP⟩
  | act hP hQ hf => exact ⟨_, hs, hP, .act hP hQ hf⟩
  | seq _ hq ihp _ =>
      obtain ⟨P', hs', hP', hp'⟩ := ihp hs
      exact ⟨P', hs', hP', .seq hp' hq⟩
  | ite hP h₁ h₂ hp hq _ _ => exact ⟨_, hs, hP, .ite hP h₁ h₂ hp hq⟩
  | loop hP hQ h₁ h₂ hp _ => exact ⟨_, hs, hP, .loop hP hQ h₁ h₂ hp⟩
  | weaken hpre _ hpost hQ ih =>
      obtain ⟨P', hs', hP', hp'⟩ := ih (hpre _ hs)
      exact ⟨P', hs', hP', .weaken (fun _ h => h) hp' hpost hQ⟩

theorem Rest.weaken (h : I.Rest J P k Q) (hR : I.Stable J R) (hRP : ∀ s, R s → P s) :
    I.Rest J R k Q := by
  cases h with
  | nil _ hQ => exact .nil hR fun s hs => hQ s (hRP s hs)
  | cons hp hk => exact .cons (.weaken hRP hp (fun _ h => h) hp.post) hk

/-- What is left to do may be begun at an assertion that is stable. -/
theorem Rest.good (h : I.Rest J P k Q) {s : σ} (hs : P s) : I.Good J Q (s, k) := by
  cases h with
  | nil hP hQ => exact ⟨P, hs, hP, .nil hP hQ⟩
  | cons hp hk =>
      obtain ⟨P', hs', hP', hp'⟩ := hp.pre hs
      exact ⟨P', hs', hP', .cons hp' hk⟩

/-- The thread's next step does not fail, and leads on to an outline of the rest. -/
theorem Outline.main (h : I.Outline J P p R) (a : α) :
    ∀ {k : List (Prog α σ)} {s : σ}, P s → I.Rest J R k Q →
      ∃ c, I.step (s, p :: k) (.main a) = some (c, []) ∧ I.Good J Q c := by
  induction h with
  | skip _ | call _ => exact fun hs hk => ⟨_, rfl, hk.good hs⟩
  | act _ _ hf =>
      intro k s hs hk
      obtain ⟨s', hs', hQ⟩ := hf a s hs
      exact ⟨(s', k), by rw [step, hs'], hk.good hQ⟩
  | seq hp hq _ _ =>
      intro k s hs hk
      exact ⟨_, rfl, (Rest.cons hp (.cons hq hk)).good hs⟩
  | @ite P P₁ P₂ R b p q _ h₁ h₂ hp hq _ _ =>
      intro k s hs hk
      refine ⟨_, rfl, ?_⟩
      cases hb : b a s with
      | true =>
          rw [if_pos rfl]
          exact (Rest.cons hp hk).good (h₁ a s hs hb)
      | false =>
          rw [if_neg Bool.false_ne_true]
          exact (Rest.cons hq hk).good (h₂ a s hs hb)
  | @loop P P₁ R b p hP hR h₁ h₂ hp _ =>
      intro k s hs hk
      refine ⟨_, rfl, ?_⟩
      cases hb : b a s with
      | true =>
          rw [if_pos rfl]
          exact (Rest.cons hp (.cons (.loop hP hR h₁ h₂ hp) hk)).good (h₁ a s hs hb)
      | false =>
          rw [if_neg Bool.false_ne_true]
          exact hk.good (h₂ a s hs hb)
  | weaken hpre hp hpost _ ih =>
      intro k s hs hk
      exact ih (hpre s hs) (hk.weaken hp.post hpost)

/-- A step keeps what is left outlined, and is no fault. -/
theorem Good.step {c c' : σ × List (Prog α σ)} {l : Label α ι} {es : List (Fault ι)}
    (h : I.Good J Q c) (hs : I.step c l = some (c', es)) : es = [] ∧ I.Good J Q c' := by
  obtain ⟨s, k⟩ := c
  obtain ⟨P, hP, hstable, hk⟩ := h
  cases l with
  | interrupt i =>
      rw [Interrupts.step] at hs
      split_ifs at hs with hi
      obtain ⟨s', hs', hP'⟩ := hstable.kept i s hP hi
      rw [hs'] at hs
      cases hs
      exact ⟨rfl, P, hP', hstable, hk⟩
  | main a =>
      cases hk with
      | nil _ _ => cases hs
      | cons hp hk =>
          obtain ⟨c'', hs', hgood⟩ := hp.main a hP hk
          obtain ⟨rfl, rfl⟩ := Prod.mk.inj (Option.some.inj (hs'.symm.trans hs))
          exact ⟨rfl, hgood⟩

/-- **An outline is sound.**  Wherever the interrupts come, the thread's run is without a
fault, `J` holds in the state it has come to, and at the end of the program `Q` does. -/
theorem Outline.run (h : I.Outline J P p Q) {s s' : σ} (hs : P s) {ls : List (Label α ι)}
    {es : List (Fault ι)} (hr : (I.machine α).run (s, [p]) ls = some ((s', k), es)) :
    es = [] ∧ J s' ∧ (k = [] → Q s') := by
  have hgood : I.Good J Q (s, [p]) :=
    (Rest.cons h (.nil h.post fun _ h => h)).good hs
  have hrun : es = [] ∧ I.Good J Q (s', k) := by
    refine Machine.run_events (P := fun c es => es = [] ∧ I.Good J Q c) ?_ ⟨rfl, hgood⟩ hr
    rintro s es l s' es' ⟨rfl, hg⟩ hs
    exact hg.step hs
  obtain ⟨hes, P', hP', hstable, hk⟩ := hrun
  refine ⟨hes, hstable.holds s' hP', ?_⟩
  rintro rfl
  cases hk with
  | nil _ hQ => exact hQ s' hP'

/-! ## Two memories beside each other -/

/-- The interrupts of both. -/
def prod {τ κ : Type} (I : Interrupts σ ι) (K : Interrupts τ κ) :
    Interrupts (σ × τ) (ι ⊕ κ) where
  enabled
    | .inl i, s => I.enabled i s.1
    | .inr j, s => K.enabled j s.2
  handle
    | .inl i, s => (I.handle i s.1).map (·, s.2)
    | .inr j, s => (K.handle j s.2).map (s.1, ·)

/-- Each of the two memories is as it should be. -/
def Both {τ : Type} (P : σ → Prop) (F : τ → Prop) (s : σ × τ) : Prop := P s.1 ∧ F s.2

end Interrupts

/-- A program of the left memory. -/
def Prog.left {α σ τ : Type} : Prog α σ → Prog α (σ × τ)
  | .skip => .skip
  | .act f => .act fun a s => (f a s.1).map (·, s.2)
  | .seq p q => .seq p.left q.left
  | .ite b p q => .ite (fun a s => b a s.1) p.left q.left
  | .loop b p => .loop (fun a s => b a s.1) p.left
  | .call => .call

/-- A program of the right memory, that calls one of the left. -/
def Prog.right {α σ τ : Type} (c : Prog α σ) : Prog α τ → Prog α (σ × τ)
  | .skip => .skip
  | .act f => .act fun a s => (f a s.2).map (s.1, ·)
  | .seq p q => .seq (right c p) (right c q)
  | .ite b p q => .ite (fun a s => b a s.2) (right c p) (right c q)
  | .loop b p => .loop (fun a s => b a s.2) (right c p)
  | .call => c.left

namespace Interrupts

variable {α σ τ ι κ : Type} {I : Interrupts σ ι} {K : Interrupts τ κ} {J P Q : σ → Prop}
  {L F G : τ → Prop}

theorem Stable.prod (hP : I.Stable J P) (hF : K.Stable L F) :
    (I.prod K).Stable (Both J L) (Both P F) where
  holds s hs := ⟨hP.holds s.1 hs.1, hF.holds s.2 hs.2⟩
  kept
    | .inl i, s, hs, hi => by
        obtain ⟨s', hs', hP'⟩ := hP.kept i s.1 hs.1 hi
        exact ⟨(s', s.2), congrArg (Option.map (·, s.2)) hs', hP', hs.2⟩
    | .inr j, s, hs, hj => by
        obtain ⟨s', hs', hF'⟩ := hF.kept j s.2 hs.2 hj
        exact ⟨(s.1, s'), congrArg (Option.map (s.1, ·)) hs', hs.1, hF'⟩

/-- The frame rule: a program of the left memory keeps what is stable in the right one. -/
theorem Outline.left {p : Prog α σ} (h : I.Outline J P p Q) (hF : K.Stable L F) :
    (I.prod K).Outline (Both J L) (Both P F) p.left (Both Q F) := by
  induction h with
  | skip hP => exact .skip (hP.prod hF)
  | call hP => exact .call (hP.prod hF)
  | act hP hQ hf =>
      refine .act (hP.prod hF) (hQ.prod hF) fun a s hs => ?_
      obtain ⟨s', hs', hQ'⟩ := hf a s.1 hs.1
      exact ⟨(s', s.2), congrArg (Option.map (·, s.2)) hs', hQ', hs.2⟩
  | seq _ _ ihp ihq => exact .seq ihp ihq
  | ite hP h₁ h₂ _ _ ihp ihq =>
      exact .ite (hP.prod hF) (fun a s hs hb => ⟨h₁ a s.1 hs.1 hb, hs.2⟩)
        (fun a s hs hb => ⟨h₂ a s.1 hs.1 hb, hs.2⟩) ihp ihq
  | loop hP hQ h₁ h₂ _ ih =>
      exact .loop (hP.prod hF) (hQ.prod hF) (fun a s hs hb => ⟨h₁ a s.1 hs.1 hb, hs.2⟩)
        (fun a s hs hb => ⟨h₂ a s.1 hs.1 hb, hs.2⟩) ih
  | weaken hpre _ hpost hQ ih =>
      exact .weaken (fun s hs => ⟨hpre s.1 hs.1, hs.2⟩) ih (fun s hs => ⟨hpost s.1 hs.1, hs.2⟩)
        (hQ.prod hF)

theorem Outline.right {c : Prog α σ} {p : Prog α τ} (hc : I.Outline J P c P)
    (h : K.Outline L F p G) :
    (I.prod K).Outline (Both J L) (Both P F) (.right c p) (Both P G) := by
  have hP : I.Stable J P := hc.post
  induction h with
  | skip hF => exact .skip (hP.prod hF)
  | call hF => exact hc.left hF
  | act hF hG hf =>
      refine .act (hP.prod hF) (hP.prod hG) fun a s hs => ?_
      obtain ⟨s', hs', hG'⟩ := hf a s.2 hs.2
      exact ⟨(s.1, s'), congrArg (Option.map (s.1, ·)) hs', hs.1, hG'⟩
  | seq _ _ ihp ihq => exact .seq ihp ihq
  | ite hF h₁ h₂ _ _ ihp ihq =>
      exact .ite (hP.prod hF) (fun a s hs hb => ⟨hs.1, h₁ a s.2 hs.2 hb⟩)
        (fun a s hs hb => ⟨hs.1, h₂ a s.2 hs.2 hb⟩) ihp ihq
  | loop hF hG h₁ h₂ _ ih =>
      exact .loop (hP.prod hF) (hP.prod hG) (fun a s hs hb => ⟨hs.1, h₁ a s.2 hs.2 hb⟩)
        (fun a s hs hb => ⟨hs.1, h₂ a s.2 hs.2 hb⟩) ih
  | weaken hpre _ hpost hG ih =>
      exact .weaken (fun s hs => ⟨hs.1, hpre s.2 hs.2⟩) ih (fun s hs => ⟨hs.1, hpost s.2 hs.2⟩)
        (hP.prod hG)

end Interrupts

end Lib
