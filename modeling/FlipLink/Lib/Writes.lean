/-
# `Lib.Writes` — a table holds what was written last

A table from keys to values, some of which are not there, and a list of writes: each puts a
value at a key or takes it away.  What is found at a key afterwards is what the last write
to it put there (`written_eq_some`); the writes to other keys make no difference.
-/
import Mathlib.Data.List.Induction
import Mathlib.Logic.Function.Basic

namespace Lib.Writes

variable {κ α : Type*} [DecidableEq κ]

/-- An empty table after these writes. -/
def written (ws : List (κ × Option α)) : κ → Option α :=
  ws.foldl (fun t w => Function.update t w.1 w.2) fun _ => none

theorem written_concat (ws : List (κ × Option α)) (w : κ × Option α) :
    written (ws ++ [w]) = Function.update (written ws) w.1 w.2 := by
  rw [written, List.foldl_append]
  rfl

/-- With one element more: it is the last that matters, or it does not matter. -/
theorem last_concat {β : Type*} {P : β → Prop} {l : List β} {x y : β} :
    (∃ before after, l ++ [y] = before ++ x :: after ∧ ∀ z ∈ after, P z) ↔
      y = x ∨ P y ∧ ∃ before after, l = before ++ x :: after ∧ ∀ z ∈ after, P z := by
  constructor
  · rintro ⟨before, after, heq, hafter⟩
    rcases List.eq_nil_or_concat after with rfl | ⟨after, z, rfl⟩
    · exact .inl (List.head_eq_of_cons_eq (List.append_inj' heq rfl).2)
    · rw [List.concat_eq_append] at heq hafter
      rw [← List.cons_append, ← List.append_assoc] at heq
      obtain ⟨rfl, hz⟩ := List.append_inj' heq rfl
      obtain rfl := List.head_eq_of_cons_eq hz
      refine .inr ⟨hafter y (List.mem_append_right _ (List.mem_singleton_self y)), before,
        after, rfl, fun z hz => ?_⟩
      exact hafter z (List.mem_append_left _ hz)
  · rintro (rfl | ⟨hy, before, after, rfl, hafter⟩)
    · exact ⟨l, [], rfl, fun z hz => absurd hz List.not_mem_nil⟩
    · refine ⟨before, after ++ [y], by rw [List.append_assoc, List.cons_append], ?_⟩
      intro z hz
      rcases List.mem_append.mp hz with hz | hz
      · exact hafter z hz
      · rwa [List.mem_singleton.mp hz]

/-- What is found at a key is the last value written to it. -/
theorem written_eq_some {ws : List (κ × Option α)} {k : κ} {v : α} :
    written ws k = some v ↔
      ∃ before after, ws = before ++ (k, some v) :: after ∧ ∀ w ∈ after, w.1 ≠ k := by
  induction ws using List.reverseRecOn with
  | nil =>
      refine ⟨fun h => (by cases h), fun ⟨before, after, h, _⟩ => ?_⟩
      exact absurd h.symm (List.append_ne_nil_of_right_ne_nil _ (List.cons_ne_nil _ _))
  | append_singleton ws w ih =>
      obtain ⟨k', o⟩ := w
      rw [written_concat, last_concat, ← ih]
      by_cases hk : k' = k
      · subst hk
        rw [Function.update_self]
        refine ⟨fun h => .inl (congrArg _ h), ?_⟩
        rintro (h | ⟨hne, -⟩)
        · exact congrArg Prod.snd h
        · exact absurd rfl hne
      · rw [Function.update_of_ne (Ne.symm hk)]
        refine ⟨fun h => .inr ⟨hk, h⟩, ?_⟩
        rintro (h | ⟨-, h⟩)
        · exact absurd (congrArg Prod.fst h) hk
        · exact h

end Lib.Writes
