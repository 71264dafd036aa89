/-
# `Lib.Sessions` — sessions one after the other

A session opens with a head, carries items and is closed, and every mark of it
has the session's key.  `after` is the automaton that reads the marks and knows
the key of the session that is open; what it accepts are whole sessions one
after the other, and behind them at most the start of one more
(`afterAll_iff`).

Records of any shape are kept in the same way, and `Kept` has the two rules by
which a log grows: a note goes on with the draft of a record, and closes it or
does not.
-/
import Mathlib.Data.List.Induction

namespace Lib

/-- A mark of a session with key `κ`: its head `α`, an item `β` or its close `γ`. -/
inductive Mark (κ α β γ : Type) where
  | head (key : κ) (a : α)
  | item (key : κ) (b : β)
  | close (key : κ) (c : γ)
  deriving DecidableEq, Repr

/-- The start of a session. -/
structure Opened (κ α β : Type) where
  key : κ
  head : α
  items : List β

/-- A whole session. -/
structure Session (κ α β γ : Type) extends Opened κ α β where
  last : γ

variable {κ α β γ : Type}

def Opened.marks (γ : Type) (o : Opened κ α β) : List (Mark κ α β γ) :=
  .head o.key o.head :: o.items.map (.item o.key)

def Session.marks (s : Session κ α β γ) : List (Mark κ α β γ) :=
  s.toOpened.marks γ ++ [.close s.key s.last]

namespace Mark

variable [DecidableEq κ]

/-- The key of the open session after a mark; `none` is a mark out of place. -/
def after : Option κ → Mark κ α β γ → Option (Option κ)
  | none, .head key _ => some (some key)
  | some open_, .item key _ => if key = open_ then some (some open_) else none
  | some open_, .close key _ => if key = open_ then some none else none
  | _, _ => none

def afterAll (o : Option κ) (ms : List (Mark κ α β γ)) : Option (Option κ) := ms.foldlM after o

@[simp] theorem afterAll_nil (o : Option κ) :
    afterAll o ([] : List (Mark κ α β γ)) = some o := rfl

theorem afterAll_append {o o' : Option κ} {ms ms' : List (Mark κ α β γ)}
    (h : afterAll o ms = some o') : afterAll o (ms ++ ms') = afterAll o' ms' := by
  rw [afterAll, List.foldlM_append]
  exact congrArg (· >>= _) h

/-- An open session takes items. -/
theorem afterAll_items (key : κ) :
    ∀ items : List β, afterAll (some key) (items.map (Mark.item (α := α) (γ := γ) key))
      = some (some key)
  | [] => rfl
  | b :: items => by
      rw [List.map_cons, afterAll, List.foldlM_cons, after, if_pos rfl]
      exact afterAll_items key items

theorem afterAll_opened (o : Opened κ α β) : afterAll none (o.marks γ) = some (some o.key) :=
  afterAll_items o.key o.items

theorem afterAll_session (s : Session κ α β γ) : afterAll none s.marks = some none := by
  rw [Session.marks, afterAll_append (afterAll_opened s.toOpened), afterAll, List.foldlM_cons,
    after, if_pos rfl]
  rfl

theorem afterAll_sessions : ∀ ss : List (Session κ α β γ),
    afterAll none (ss.flatMap Session.marks) = some none
  | [] => rfl
  | s :: ss => by
      rw [List.flatMap_cons, afterAll_append (afterAll_session s)]
      exact afterAll_sessions ss

/-- What the automaton accepts: whole sessions, and the start of the one that is
open. -/
theorem afterAll_iff {ms : List (Mark κ α β γ)} {o : Option κ} :
    afterAll none ms = some o ↔
      ∃ (sessions : List (Session κ α β γ)) (opened : Option (Opened κ α β)),
        ms = sessions.flatMap Session.marks ++ opened.elim [] (Opened.marks γ) ∧
        o = opened.map Opened.key := by
  constructor
  · induction ms using List.reverseRecOn generalizing o with
    | nil =>
        intro h
        exact ⟨[], none, rfl, (Option.some.inj h).symm⟩
    | append_singleton ms m ih =>
        intro h
        rw [afterAll, List.foldlM_append] at h
        obtain ⟨o₁, h₁, h₂⟩ := Option.bind_eq_some_iff.mp h
        obtain ⟨sessions, opened, rfl, rfl⟩ := ih h₁
        rw [List.foldlM_cons] at h₂
        obtain ⟨o₂, h₂, hnil⟩ := Option.bind_eq_some_iff.mp h₂
        cases hnil
        cases opened with
        | none =>
            cases m with
            | head key a =>
                cases h₂
                refine ⟨sessions, some ⟨key, a, []⟩, ?_, rfl⟩
                rw [Option.elim, List.append_assoc]
                rfl
            | item | close => exact nomatch h₂
        | some p =>
            cases m with
            | head => exact nomatch h₂
            | item key b =>
                obtain ⟨hkey, hp⟩ := Option.ite_none_right_eq_some.mp h₂
                cases hp
                refine ⟨sessions, some { p with items := p.items ++ [b] }, ?_, rfl⟩
                rw [List.append_assoc]
                refine congrArg (sessions.flatMap Session.marks ++ ·) ?_
                simp only [Option.elim, Opened.marks, List.map_append, List.cons_append, hkey]
                rfl
            | close key c =>
                obtain ⟨hkey, hp⟩ := Option.ite_none_right_eq_some.mp h₂
                cases hp
                refine ⟨sessions ++ [⟨p, c⟩], none, ?_, rfl⟩
                rw [List.flatMap_append, List.flatMap_singleton, List.append_assoc]
                simp only [Option.elim, Session.marks, List.append_nil, hkey]
  · rintro ⟨sessions, opened, rfl, rfl⟩
    rw [afterAll_append (afterAll_sessions sessions)]
    cases opened with
    | none => rfl
    | some p => exact afterAll_opened p

/-- Nothing is open behind whole sessions. -/
theorem afterAll_none_iff {ms : List (Mark κ α β γ)} :
    afterAll none ms = some none ↔
      ∃ sessions : List (Session κ α β γ), ms = sessions.flatMap Session.marks := by
  rw [afterAll_iff]
  constructor
  · rintro ⟨sessions, opened, rfl, hopened⟩
    cases opened with
    | none => exact ⟨sessions, List.append_nil _⟩
    | some p => exact nomatch hopened
  · rintro ⟨sessions, rfl⟩
    exact ⟨sessions, none, (List.append_nil _).symm, rfl⟩

end Mark

/-! ## Records of any shape -/

section Kept

variable {ρ τ : Type} {record : ρ → List τ} {draft log : List τ}

variable (record draft log) in
/-- The log is whole records one after the other, and the draft of one more. -/
def Kept : Prop := ∃ rs : List ρ, log = rs.flatMap record ++ draft

theorem kept_nil : Kept record [] [] := ⟨[], rfl⟩

theorem Kept.note (h : Kept record draft log) (ts : List τ) :
    Kept record (draft ++ ts) (log ++ ts) := by
  obtain ⟨rs, rfl⟩ := h
  exact ⟨rs, List.append_assoc ..⟩

theorem Kept.close {r : ρ} {ts : List τ} (h : Kept record draft log)
    (hr : record r = draft ++ ts) : Kept record [] (log ++ ts) := by
  obtain ⟨rs, rfl⟩ := h
  refine ⟨rs ++ [r], ?_⟩
  rw [List.flatMap_append, List.flatMap_singleton, hr, List.append_nil, List.append_assoc]

end Kept

end Lib
