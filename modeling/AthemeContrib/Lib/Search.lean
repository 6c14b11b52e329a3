/-
# A search that never goes back

The text is compared with the pattern from its first character; where it does
not go on as the pattern does, the search starts again at the next character,
and what it has passed is not looked at a second time. So it passes a text in
false starts: a start of the pattern, then a character that the pattern does
not go on with.

Key definitions: `FalseStart`, `Skipped`, `Begun`.
Key theorems: `exists_skipped`.
-/
import Mathlib.Data.List.Forall2
import Mathlib.Data.List.Induction

namespace AthemeContrib
namespace Search

variable {α : Type} {r : α → α → Prop} {x : List α}

/-- A start of the pattern, then a character that it does not go on with. -/
def FalseStart (r : α → α → Prop) (x s : List α) : Prop :=
  ∃ w c v d rest, s = w ++ [c] ∧ x = v ++ d :: rest ∧ List.Forall₂ r w v ∧ ¬ r c d

/-- A text that consists of false starts. -/
inductive Skipped (r : α → α → Prop) (x : List α) : List α → Prop
  | nil : Skipped r x []
  | append {s t : List α} : Skipped r x s → FalseStart r x t → Skipped r x (s ++ t)

/-- A start of the pattern, and not all of it. -/
def Begun (r : α → α → Prop) (x s : List α) : Prop :=
  ∃ v d rest, x = v ++ d :: rest ∧ List.Forall₂ r s v

theorem begun_nil (hx : x ≠ []) : Begun r x [] := by
  obtain ⟨d, rest, rfl⟩ := List.exists_cons_of_ne_nil hx
  exact ⟨[], d, rest, rfl, List.Forall₂.nil⟩

/-- A text that breaks off is one more false start if nothing in the pattern
is the character behind it. -/
theorem Begun.falseStart {s : List α} (h : Begun r x s) {c : α} (hc : ∀ d ∈ x, ¬ r c d) :
    FalseStart r x (s ++ [c]) := by
  obtain ⟨v, d, rest, rfl, hs⟩ := h
  exact ⟨s, c, v, d, rest, rfl, rfl, hs, hc d (by simp)⟩

theorem Skipped.trans {s t : List α} (hs : Skipped r x s) (ht : Skipped r x t) : Skipped r x (s ++ t) := by
  induction ht with
  | nil => rwa [List.append_nil]
  | append _ hfalse ih =>
    rw [← List.append_assoc]
    exact ih.append hfalse

/-- Any text: false starts, and then the pattern and something behind it, or a
start of the pattern at which the text ends. -/
theorem exists_skipped (hx : x ≠ []) (t : List α) : ∃ y s, t = y ++ s ∧ Skipped r x y ∧
    ((∃ x' z, s = x' ++ z ∧ List.Forall₂ r x' x) ∨ Begun r x s) := by
  induction t using List.reverseRecOn with
  | nil => exact ⟨[], [], rfl, .nil, Or.inr (begun_nil hx)⟩
  | append_singleton t c ih =>
    obtain ⟨y, s, rfl, hy, ⟨x', z, rfl, hx'⟩ | ⟨v, d, rest, rfl, hs⟩⟩ := ih
    · exact ⟨y, x' ++ (z ++ [c]), by simp, hy, Or.inl ⟨x', z ++ [c], rfl, hx'⟩⟩
    · by_cases hc : r c d
      · have hsc : List.Forall₂ r (s ++ [c]) (v ++ [d]) :=
          List.rel_append hs (List.Forall₂.cons hc List.Forall₂.nil)
        refine ⟨y, s ++ [c], by simp, hy, ?_⟩
        cases rest with
        | nil => exact Or.inl ⟨s ++ [c], [], by simp, hsc⟩
        | cons d' rest => exact Or.inr ⟨v ++ [d], d', rest, by simp, hsc⟩
      · refine ⟨y ++ (s ++ [c]), [], by simp, ?_, Or.inr (begun_nil hx)⟩
        exact hy.append ⟨s, c, v, d, rest, rfl, rfl, hs, hc⟩

end Search
end AthemeContrib
