/-
# `Lib.Machine` — labelled step machines, their runs and their invariants

A machine is an executable partial step function: given a label it either
refuses, or moves to a state and emits some events.  A run threads the state
through a list of labels and collects the events.

The rules that proofs about runs are made of: what every step preserves, every
run preserves, the property speaking about the state and about the events so far
(`run_induction`); and the same under a guard that each step of the run has to
meet (`run_guarded`).  Where the guard says of each step whether its events are
right, it says of a run whether all its events are (`guarded_iff_each`).  What the
events do not tell can be read off the steps (`trace`, `run_traces`).
-/
import Mathlib.Data.List.Basic

namespace Lib

/-- A step either refuses its label or moves and emits. -/
structure Machine (σ ι ο : Type) where
  step : σ → ι → Option (σ × List ο)

namespace Machine

variable {σ ι ο : Type} (M : Machine σ ι ο)

/-- Follow the labels, collecting the events. -/
def run : σ → List ι → Option (σ × List ο)
  | s, [] => some (s, [])
  | s, i :: is =>
      match M.step s i with
      | none => none
      | some (s', es) =>
          match run s' is with
          | none => none
          | some (s'', es') => some (s'', es ++ es')

/-- The guard holds at every step of the run that follows the labels. -/
def Guarded (G : σ → ι → Prop) : σ → List ι → Prop
  | _, [] => True
  | s, i :: is =>
      G s i ∧
        match M.step s i with
        | none => True
        | some (s', _) => Guarded G s' is

/-- Where a run ends. -/
def final (s : σ) (is : List ι) : σ := ((M.run s is).map Prod.fst).getD s

variable {M}

/-- A run whose events are known. -/
theorem run_final {s : σ} {is : List ι} {es : List ο} (h : (M.run s is).map Prod.snd = some es) :
    M.run s is = some (M.final s is, es) := by
  obtain ⟨⟨s', _⟩, hr, rfl⟩ := Option.map_eq_some_iff.mp h
  rw [final, hr]
  rfl

/-- A run that is not refused. -/
theorem run_of_isSome {s : σ} {is : List ι} (h : (M.run s is).isSome = true) :
    ∃ es, M.run s is = some (M.final s is, es) := by
  obtain ⟨⟨s', es⟩, hr⟩ := Option.isSome_iff_exists.mp h
  exact ⟨es, run_final (by rw [hr]; rfl)⟩

theorem run_cons {s s'' : σ} {i : ι} {is : List ι} {es : List ο}
    (h : M.run s (i :: is) = some (s'', es)) :
    ∃ s' es₁ es₂, M.step s i = some (s', es₁) ∧ M.run s' is = some (s'', es₂) ∧
      es = es₁ ++ es₂ := by
  rw [run] at h
  cases hs : M.step s i with
  | none => rw [hs] at h; exact nomatch h
  | some p =>
      obtain ⟨s', es₁⟩ := p
      rw [hs] at h
      dsimp only at h
      cases hr : M.run s' is with
      | none => rw [hr] at h; exact nomatch h
      | some q =>
          obtain ⟨s₂, es₂⟩ := q
          rw [hr] at h
          obtain ⟨rfl, rfl⟩ := Prod.mk.inj (Option.some.inj h)
          exact ⟨s', es₁, es₂, rfl, hr, rfl⟩

theorem run_step {s s' s'' : σ} {i : ι} {is : List ι} {es₁ es₂ : List ο}
    (hs : M.step s i = some (s', es₁)) (hr : M.run s' is = some (s'', es₂)) :
    M.run s (i :: is) = some (s'', es₁ ++ es₂) := by
  rw [run, hs]
  dsimp only
  rw [hr]

theorem step_of_run {s s' : σ} {i : ι} {es : List ο} (h : M.run s [i] = some (s', es)) :
    M.step s i = some (s', es) := by
  obtain ⟨s₁, es₁, es₂, hs, hnil, rfl⟩ := run_cons h
  obtain ⟨rfl, rfl⟩ := Prod.mk.inj (Option.some.inj hnil)
  rw [hs, List.append_nil]

theorem run_append : ∀ {is js : List ι} {s s' s'' : σ} {es es' : List ο},
    M.run s is = some (s', es) → M.run s' js = some (s'', es') →
    M.run s (is ++ js) = some (s'', es ++ es')
  | [], _, _, _, _, _, _, h, h' => by
      obtain ⟨rfl, rfl⟩ := Prod.mk.inj (Option.some.inj h)
      exact h'
  | i :: is, _, _, _, _, _, _, h, h' => by
      obtain ⟨s₁, es₁, es₂, hs, hr, rfl⟩ := run_cons h
      rw [List.append_assoc]
      exact run_step hs (run_append hr h')

/-- Cut a run whose events are known where the events of its first part are. -/
theorem run_split : ∀ {is js : List ι} {s : σ} {es es' : List ο},
    (M.run s (is ++ js)).map Prod.snd = some (es ++ es') → (M.run s is).map Prod.snd = some es →
    ∃ s' s'', M.run s is = some (s', es) ∧ M.run s' js = some (s'', es')
  | [], _, s, _, _, h, h' => by
      obtain ⟨⟨s'', _⟩, hr, rfl⟩ := Option.map_eq_some_iff.mp h
      cases h'
      exact ⟨s, s'', rfl, hr⟩
  | i :: is, js, s, es, es', h, h' => by
      obtain ⟨⟨s₂, _⟩, hr, hes⟩ := Option.map_eq_some_iff.mp h
      obtain ⟨⟨s₃, _⟩, hr', rfl⟩ := Option.map_eq_some_iff.mp h'
      obtain ⟨s₁, es₁, es₂, hs, hrest, rfl⟩ := run_cons hr
      obtain ⟨s₁', es₁', es₃, hs', hrest', he⟩ := run_cons hr'
      obtain ⟨rfl, rfl⟩ := Prod.mk.inj (Option.some.inj (hs.symm.trans hs'))
      dsimp only at hes he
      rw [he, List.append_assoc] at hes
      have hwhole : (M.run s₁ (is ++ js)).map Prod.snd = some (es₃ ++ es') := by
        rw [← List.append_cancel_left hes]
        exact congrArg (Option.map Prod.snd) hrest
      obtain ⟨s', s'', hi, hj⟩ := run_split hwhole (congrArg (Option.map Prod.snd) hrest')
      refine ⟨s', s'', ?_, hj⟩
      dsimp only
      rw [he]
      exact run_step hs hi

/-- What each step preserves, of the state and the labels and events so far, a
run preserves. -/
theorem run_induction {P : σ → List ι → List ο → Prop}
    (hstep : ∀ {s is es i s' es'}, P s is es → M.step s i = some (s', es') →
      P s' (is ++ [i]) (es ++ es')) :
    ∀ {js : List ι} {s s' : σ} {is : List ι} {es es' : List ο},
      P s is es → M.run s js = some (s', es') → P s' (is ++ js) (es ++ es')
  | [], _, _, is, es, _, hP, h => by
      obtain ⟨rfl, rfl⟩ := Prod.mk.inj (Option.some.inj h)
      rwa [List.append_nil, List.append_nil]
  | j :: js, _, _, is, es, _, hP, h => by
      obtain ⟨s₁, es₁, es₂, hs, hr, rfl⟩ := run_cons h
      have := run_induction @hstep (hstep hP hs) hr
      rwa [List.append_assoc, List.append_assoc] at this

/-- An invariant of the state and the events so far. -/
theorem run_events {P : σ → List ο → Prop}
    (hstep : ∀ {s es i s' es'}, P s es → M.step s i = some (s', es') → P s' (es ++ es'))
    {is : List ι} {s s' : σ} {es : List ο} (h : P s []) (hr : M.run s is = some (s', es)) :
    P s' es :=
  @run_induction _ _ _ M (fun s _ es => P s es) (fun hP hs => hstep hP hs) is s s' [] [] es h hr

/-- An invariant of the state alone. -/
theorem run_invariant {P : σ → Prop}
    (hstep : ∀ {s i s' es}, P s → M.step s i = some (s', es) → P s')
    {is : List ι} {s s' : σ} {es : List ο} (h : P s) (hr : M.run s is = some (s', es)) : P s' :=
  run_events (P := fun s _ => P s) hstep h hr

/-- `run_induction` for runs whose steps all meet a guard. -/
theorem run_guarded {G : σ → ι → Prop} {P : σ → List ι → List ο → Prop}
    (hstep : ∀ {s is es i s' es'}, P s is es → G s i → M.step s i = some (s', es') →
      P s' (is ++ [i]) (es ++ es')) :
    ∀ {js : List ι} {s s' : σ} {is : List ι} {es es' : List ο},
      P s is es → M.Guarded G s js → M.run s js = some (s', es') → P s' (is ++ js) (es ++ es')
  | [], _, _, is, es, _, hP, _, h => by
      obtain ⟨rfl, rfl⟩ := Prod.mk.inj (Option.some.inj h)
      rwa [List.append_nil, List.append_nil]
  | j :: js, _, _, is, es, _, hP, hG, h => by
      obtain ⟨s₁, es₁, es₂, hs, hr, rfl⟩ := run_cons h
      obtain ⟨hg, hrest⟩ := hG
      rw [hs] at hrest
      have := run_guarded @hstep (hstep hP hg hs) hrest hr
      rwa [List.append_assoc, List.append_assoc] at this

/-- `run_events` for runs whose steps all meet a guard. -/
theorem run_guarded_events {G : σ → ι → Prop} {P : σ → List ο → Prop}
    (hstep : ∀ {s es i s' es'}, P s es → G s i → M.step s i = some (s', es') → P s' (es ++ es'))
    {is : List ι} {s s' : σ} {es : List ο} (h : P s []) (hG : M.Guarded G s is)
    (hr : M.run s is = some (s', es)) : P s' es :=
  @run_guarded _ _ _ M G (fun s _ es => P s es) (fun hP hg hs => hstep hP hg hs)
    is s s' [] [] es h hG hr

theorem guarded_append {G : σ → ι → Prop} : ∀ {is js : List ι} {s s' : σ} {es : List ο},
    M.run s is = some (s', es) → M.Guarded G s is → M.Guarded G s' js → M.Guarded G s (is ++ js)
  | [], _, _, _, _, h, _, hjs => by
      obtain ⟨rfl, rfl⟩ := Prod.mk.inj (Option.some.inj h)
      exact hjs
  | i :: is, _, _, _, _, h, his, hjs => by
      obtain ⟨s₁, es₁, es₂, hs, hr, rfl⟩ := run_cons h
      obtain ⟨hi, his⟩ := his
      rw [hs] at his
      refine ⟨hi, ?_⟩
      rw [hs]
      exact guarded_append hr his hjs

/-- A guard that another one implies. -/
theorem guarded_mono {G G' : σ → ι → Prop} (hG : ∀ {s i}, G s i → G' s i) :
    ∀ {is : List ι} {s : σ}, M.Guarded G s is → M.Guarded G' s is
  | [], _, _ => trivial
  | i :: is, s, ⟨hi, his⟩ => by
      refine ⟨hG hi, ?_⟩
      cases hs : M.step s i with
      | none => trivial
      | some p =>
          rw [hs] at his
          exact guarded_mono @hG his

/-- Labels that the guard allows everywhere. -/
theorem guarded_of_forall {G : σ → ι → Prop} : ∀ {is : List ι} {s : σ},
    (∀ i ∈ is, ∀ s, G s i) → M.Guarded G s is
  | [], _, _ => trivial
  | i :: is, s, h => by
      obtain ⟨hi, his⟩ := List.forall_mem_cons.mp h
      refine ⟨hi s, ?_⟩
      cases M.step s i with
      | none => trivial
      | some p => exact guarded_of_forall his

/-- A run whose guard fails gets to the step where it fails. -/
theorem exists_of_not_guarded {G : σ → ι → Prop} : ∀ {is : List ι} {s s' : σ} {es : List ο},
    M.run s is = some (s', es) → ¬M.Guarded G s is →
    ∃ is₁ i is₂ s₁ es₁, is = is₁ ++ i :: is₂ ∧ M.run s is₁ = some (s₁, es₁) ∧ ¬G s₁ i
  | [], _, _, _, _, h => absurd trivial h
  | i :: is, s, _, _, h, hnot => by
      obtain ⟨s₁, es₁, es₂, hs, hr, rfl⟩ := run_cons h
      by_cases hi : G s i
      · have hrest : ¬M.Guarded G s₁ is := by
          intro hrest
          refine hnot ⟨hi, ?_⟩
          rw [hs]
          exact hrest
        obtain ⟨is₁, j, is₂, s₂, es₃, rfl, hrun, hj⟩ := exists_of_not_guarded hr hrest
        exact ⟨i :: is₁, j, is₂, s₂, _, rfl, run_step hs hrun, hj⟩
      · exact ⟨[], i, is, s, [], rfl, rfl, hi⟩

/-- A machine that makes the steps of another, state for state, makes its runs. -/
theorem run_map {τ : Type} {N : Machine τ ι ο} {f : σ → τ}
    (h : ∀ s i, N.step (f s) i = (M.step s i).map fun r => (f r.1, r.2)) :
    ∀ (is : List ι) (s : σ), N.run (f s) is = (M.run s is).map fun r => (f r.1, r.2)
  | [], _ => rfl
  | i :: is, s => by
      rw [run, run, h]
      cases M.step s i with
      | none => rfl
      | some p =>
          rw [Option.map_some]
          dsimp only
          rw [run_map h is p.1]
          cases M.run p.1 is <;> rfl

/-! ## Events and what came before them -/

/-- Each event stands to the events before it as `Q` says. -/
def Each (Q : List ο → ο → Prop) (es : List ο) : Prop :=
  ∀ before e after, es = before ++ e :: after → Q before e

theorem each_nil {Q : List ο → ο → Prop} : Each Q [] := by
  intro before e after h
  exact absurd h.symm (List.append_ne_nil_of_right_ne_nil _ (List.cons_ne_nil _ _))

theorem each_singleton {Q : List ο → ο → Prop} {e : ο} : Each Q [e] ↔ Q [] e := by
  refine ⟨fun h => h [] e [] rfl, fun h before e' after he => ?_⟩
  cases before with
  | nil =>
      obtain ⟨rfl, -⟩ := List.cons.inj he
      exact h
  | cons b before =>
      exact absurd (List.cons.inj he).2.symm
        (List.append_ne_nil_of_right_ne_nil _ (List.cons_ne_nil _ _))

theorem each_append {Q : List ο → ο → Prop} {es es' : List ο} :
    Each Q (es ++ es') ↔ Each Q es ∧ Each (fun before => Q (es ++ before)) es' := by
  constructor
  · refine fun h => ⟨fun before e after he => ?_, fun before e after he => ?_⟩
    · exact h before e (after ++ es') (by rw [he, List.append_assoc, List.cons_append])
    · exact h (es ++ before) e after (by rw [he, List.append_assoc])
  · rintro ⟨h, h'⟩ before e after he
    rcases List.append_eq_append_iff.mp he with ⟨xs, rfl, hes'⟩ | ⟨xs, hes, hes'⟩
    · exact h' xs e after hes'
    · cases xs with
      | nil =>
          have := h' [] e after hes'.symm
          rwa [hes, List.append_nil, List.append_nil] at this
      | cons x xs =>
          obtain ⟨rfl, -⟩ := List.cons.inj hes'
          exact h before e xs hes

/-- What does not look at the events before says the same of every event. -/
theorem each_const {P : ο → Prop} {es : List ο} : Each (fun _ => P) es ↔ ∀ e ∈ es, P e := by
  constructor
  · intro h e he
    obtain ⟨before, after, hes⟩ := List.append_of_mem he
    exact h before e after hes
  · intro h before e after hes
    exact h e (hes ▸ List.mem_append_right _ (List.mem_cons_self ..))

theorem each_map {α : Type} {f : α → ο} {Q : List ο → ο → Prop} {xs : List α} :
    Each Q (xs.map f) ↔ Each (fun before x => Q (before.map f) (f x)) xs := by
  constructor
  · intro h before x after hx
    exact h (before.map f) (f x) (after.map f) (by rw [hx, List.map_append, List.map_cons])
  · intro h before e after he
    obtain ⟨xs₁, xs₂, rfl, rfl, hxs⟩ := List.map_eq_append_iff.mp he
    obtain ⟨x, xs₃, rfl, rfl, rfl⟩ := List.map_eq_cons_iff.mp hxs
    exact h xs₁ x xs₃ rfl

/-- `guarded_iff_each` in the middle of a run. -/
theorem guarded_iff_each_from {G : σ → ι → Prop} {P : σ → List ο → Prop} {Q : List ο → ο → Prop}
    (hstep : ∀ {s es i s' es'}, P s es → M.step s i = some (s', es') → P s' (es ++ es'))
    (hiff : ∀ {s es i s' es'}, P s es → M.step s i = some (s', es') →
      (G s i ↔ Each (fun before => Q (es ++ before)) es')) :
    ∀ {is : List ι} {s s' : σ} {es es' : List ο}, P s es → M.run s is = some (s', es') →
      (M.Guarded G s is ↔ Each (fun before => Q (es ++ before)) es')
  | [], _, _, _, _, _, h => by
      obtain ⟨rfl, rfl⟩ := Prod.mk.inj (Option.some.inj h)
      exact ⟨fun _ => each_nil, fun _ => trivial⟩
  | i :: is, s, _, es, _, hP, h => by
      obtain ⟨s₁, es₁, es₂, hs, hr, rfl⟩ := run_cons h
      have ih := guarded_iff_each_from @hstep @hiff (hstep hP hs) hr
      rw [each_append, ← hiff hP hs, Guarded, hs]
      dsimp only
      rw [ih]
      simp only [List.append_assoc]

/-- A guard that holds of a step exactly when its events are right, in every state
the invariant allows, holds along a run exactly when all its events are right. -/
theorem guarded_iff_each {G : σ → ι → Prop} {P : σ → List ο → Prop} {Q : List ο → ο → Prop}
    (hstep : ∀ {s es i s' es'}, P s es → M.step s i = some (s', es') → P s' (es ++ es'))
    (hiff : ∀ {s es i s' es'}, P s es → M.step s i = some (s', es') →
      (G s i ↔ Each (fun before => Q (es ++ before)) es'))
    {is : List ι} {s s' : σ} {es : List ο} (h : P s []) (hr : M.run s is = some (s', es)) :
    M.Guarded G s is ↔ Each Q es :=
  guarded_iff_each_from (Q := Q) hstep hiff h hr

variable (M) in
/-- The guard, checked along a run. -/
def guards (g : σ → ι → Bool) : σ → List ι → Bool
  | _, [] => true
  | s, i :: is =>
      g s i &&
        match M.step s i with
        | none => true
        | some (s', _) => guards g s' is

theorem guards_iff {G : σ → ι → Prop} [∀ s i, Decidable (G s i)] : ∀ {is : List ι} {s : σ},
    M.guards (fun s i => decide (G s i)) s is = true ↔ M.Guarded G s is
  | [], _ => ⟨fun _ => trivial, fun _ => rfl⟩
  | i :: is, s => by
      rw [guards, Guarded, Bool.and_eq_true, decide_eq_true_eq]
      cases M.step s i with
      | none => exact and_congr_right fun _ => ⟨fun _ => trivial, fun _ => rfl⟩
      | some p => exact and_congr_right fun _ => guards_iff

/-- A decidable guard can be checked along a run. -/
instance decidableGuarded {G : σ → ι → Prop} [∀ s i, Decidable (G s i)] (s : σ) (is : List ι) :
    Decidable (M.Guarded G s is) :=
  decidable_of_iff _ guards_iff

/-! ## What is seen along a run -/

section Trace

variable {κ μ : Type}

variable (M) in
/-- What `f` sees of the steps that the labels make. -/
def trace (f : σ → ι → σ → List ο → List κ) : σ → List ι → List κ
  | _, [] => []
  | s, i :: is =>
      match M.step s i with
      | none => []
      | some (s', es) => f s i s' es ++ trace f s' is

theorem trace_cons {f : σ → ι → σ → List ο → List κ} {s s' : σ} {i : ι} {es : List ο}
    (h : M.step s i = some (s', es)) (is : List ι) :
    M.trace f s (i :: is) = f s i s' es ++ M.trace f s' is := by
  rw [trace, h]

theorem trace_append {f : σ → ι → σ → List ο → List κ} :
    ∀ {is : List ι} {s s' : σ} {es : List ο} (js : List ι), M.run s is = some (s', es) →
      M.trace f s (is ++ js) = M.trace f s is ++ M.trace f s' js
  | [], _, _, _, _, h => by
      obtain ⟨rfl, rfl⟩ := Prod.mk.inj (Option.some.inj h)
      rfl
  | i :: is, _, _, _, js, h => by
      obtain ⟨s₁, es₁, es₂, hs, hr, rfl⟩ := run_cons h
      rw [List.cons_append, trace_cons hs, trace_cons hs, trace_append js hr, List.append_assoc]

/-- The events are what is seen by looking at nothing else. -/
theorem trace_events : ∀ {is : List ι} {s s' : σ} {es : List ο}, M.run s is = some (s', es) →
    M.trace (fun _ _ _ es => es) s is = es
  | [], _, _, _, h => by
      obtain ⟨rfl, rfl⟩ := Prod.mk.inj (Option.some.inj h)
      rfl
  | i :: is, _, _, _, h => by
      obtain ⟨s₁, es₁, es₂, hs, hr, rfl⟩ := run_cons h
      rw [trace_cons hs, trace_events hr]

/-- What each step preserves, of the state and of two views of the run so far, a
run preserves. -/
theorem run_traces {f : σ → ι → σ → List ο → List κ} {g : σ → ι → σ → List ο → List μ}
    {Q : σ → List κ → List μ → Prop}
    (hstep : ∀ {s ks ms i s' es}, Q s ks ms → M.step s i = some (s', es) →
      Q s' (ks ++ f s i s' es) (ms ++ g s i s' es)) :
    ∀ {is : List ι} {s s' : σ} {es : List ο} {ks : List κ} {ms : List μ}, Q s ks ms →
      M.run s is = some (s', es) → Q s' (ks ++ M.trace f s is) (ms ++ M.trace g s is)
  | [], _, _, _, _, _, hQ, h => by
      obtain ⟨rfl, rfl⟩ := Prod.mk.inj (Option.some.inj h)
      rwa [trace, trace, List.append_nil, List.append_nil]
  | i :: is, _, _, _, _, _, hQ, h => by
      obtain ⟨s₁, es₁, es₂, hs, hr, rfl⟩ := run_cons h
      rw [trace_cons hs, trace_cons hs, ← List.append_assoc, ← List.append_assoc]
      exact run_traces @hstep (hstep hQ hs) hr

/-- With one trace. -/
theorem run_trace {f : σ → ι → σ → List ο → List κ} {Q : σ → List κ → Prop}
    (hstep : ∀ {s ks i s' es}, Q s ks → M.step s i = some (s', es) → Q s' (ks ++ f s i s' es))
    {is : List ι} {s s' : σ} {es : List ο} {ks : List κ} (hQ : Q s ks)
    (hr : M.run s is = some (s', es)) : Q s' (ks ++ M.trace f s is) :=
  (run_traces (f := f) (g := f) (Q := fun s ks ms => Q s ks ∧ ms = ks)
    (fun h hs => ⟨hstep h.1 hs, congrArg (· ++ _) h.2⟩) ⟨hQ, rfl⟩ hr).1

end Trace

/-! ## Bounded waits -/

/-- `P s n` allows at most `n` more steps of one's own before an event of a kind: each of
them brings it, or uses one of the `n` up, and other steps use up none.  `D` is the way out,
and there is none back. -/
theorem run_countdown {P : σ → Nat → Prop} {D : σ → Prop} {own : ι → Bool} {E : ο → Prop}
    (hD : ∀ {s i s' es}, D s → M.step s i = some (s', es) → D s')
    (hstep : ∀ {s n i s' es}, P s n → M.step s i = some (s', es) →
      (∃ e ∈ es, E e) ∨ D s' ∨ (own i = false ∧ P s' n) ∨ ∃ m, n = m + 1 ∧ P s' m) :
    ∀ {is : List ι} {s s' : σ} {es : List ο} {n : Nat}, P s n → M.run s is = some (s', es) →
      n < is.countP own → (∃ e ∈ es, E e) ∨ D s'
  | [], _, _, _, _, _, _, hn => absurd hn (Nat.not_lt_zero _)
  | i :: is, _, s', _, n, hP, h, hn => by
      obtain ⟨s₁, es₁, es₂, hs, hr, rfl⟩ := run_cons h
      rw [List.countP_cons] at hn
      have hrest : ∀ {m}, P s₁ m → m < is.countP own → (∃ e ∈ es₁ ++ es₂, E e) ∨ D s' := by
        intro m hm hlt
        rcases run_countdown @hD @hstep hm hr hlt with ⟨e, he, hE⟩ | hd
        · exact .inl ⟨e, List.mem_append_right _ he, hE⟩
        · exact .inr hd
      rcases hstep hP hs with ⟨e, he, hE⟩ | hd | ⟨hi, hP'⟩ | ⟨m, rfl, hP'⟩
      · exact .inl ⟨e, List.mem_append_left _ he, hE⟩
      · exact .inr (run_invariant hD hd hr)
      · rw [hi] at hn
        exact hrest hP' hn
      · refine hrest hP' ?_
        split at hn <;> omega

end Machine

end Lib
