/-
# Lists joined by a separator

`[sep].intercalate es`, cut open at one of its entries: what is in front of an
entry is the entries before it, each with the separator behind, and what is
behind it the entries after it, each with the separator in front.

Key definitions: `lead`, `trail`.
Key theorems: `intercalate_split`, `trail_inj_head`, `count_trail`.
-/
import Mathlib.Data.List.Flatten

namespace AthemeContrib
namespace Joined

variable {α : Type} {sep : α}

/-- The entries in front of another one. -/
def lead (sep : α) (es : List (List α)) : List α := es.flatMap (· ++ [sep])

/-- The entries behind another one. -/
def trail (sep : α) (es : List (List α)) : List α := es.flatMap (sep :: ·)

@[simp] theorem lead_nil : lead sep [] = [] := rfl

@[simp] theorem trail_nil : trail sep [] = [] := rfl

theorem lead_cons (e : List α) (es : List (List α)) : lead sep (e :: es) = e ++ sep :: lead sep es := by
  simp [lead]

theorem lead_append (es fs : List (List α)) : lead sep (es ++ fs) = lead sep es ++ lead sep fs :=
  List.flatMap_append

theorem trail_cons (e : List α) (es : List (List α)) : trail sep (e :: es) = sep :: (e ++ trail sep es) := by
  simp [trail]

/-- The first entry, and those behind it. -/
theorem intercalate_cons (e : List α) : ∀ es : List (List α),
    [sep].intercalate (e :: es) = e ++ trail sep es
  | [] => by simp
  | f :: es => by
    rw [List.intercalate_cons_cons, intercalate_cons f es, trail_cons, List.append_assoc,
      List.singleton_append]

/-- A joined list, cut open at an entry. -/
theorem intercalate_split (e : List α) (post : List (List α)) : ∀ pre : List (List α),
    [sep].intercalate (pre ++ e :: post) = lead sep pre ++ (e ++ trail sep post)
  | [] => intercalate_cons e post
  | f :: pre => by
    have hne : pre ++ e :: post ≠ [] := by simp
    rw [List.cons_append, List.intercalate_cons_of_ne_nil hne, intercalate_split e post pre, lead_cons]
    simp

/-- What is in front of an entry is the list before it and a separator. -/
theorem lead_eq {es : List (List α)} (h : es ≠ []) : lead sep es = [sep].intercalate es ++ [sep] := by
  induction es with
  | nil => exact absurd rfl h
  | cons e es ih =>
    rw [lead_cons, intercalate_cons]
    cases es with
    | nil => simp
    | cons f es =>
      rw [ih (by simp), intercalate_cons, trail_cons]
      simp

theorem lead_eq_nil {es : List (List α)} : lead sep es = [] ↔ es = [] := by
  cases es <;> simp [lead_cons]

theorem trail_eq_nil {es : List (List α)} : trail sep es = [] ↔ es = [] := by
  cases es <;> simp [trail_cons]

/-- Each entry brings one separator. -/
theorem count_trail [DecidableEq α] {es : List (List α)} (h : ∀ e ∈ es, sep ∉ e) :
    (trail sep es).count sep = es.length := by
  induction es with
  | nil => rfl
  | cons e es ih =>
    have he : e.count sep = 0 := List.count_eq_zero.mpr (h e (by simp))
    rw [trail_cons, List.count_cons_self, List.count_append, he, Nat.zero_add, List.length_cons,
      ih fun f hf => h f (by simp [hf])]

/-- Two texts that go on with separated entries, or end, have the same first
entry. -/
theorem trail_inj_head {e f : List α} {es fs : List (List α)} (he : sep ∉ e) (hf : sep ∉ f)
    (h : e ++ trail sep es = f ++ trail sep fs) : e = f := by
  induction e generalizing f with
  | nil =>
    cases f with
    | nil => rfl
    | cons c f =>
      -- the separator cannot be the first character of `f`
      cases es with
      | nil => simp at h
      | cons e' es =>
        rw [trail_cons] at h
        simp only [List.nil_append, List.cons_append, List.cons.injEq] at h
        exact absurd (by simp [h.1]) hf
  | cons c e ih =>
    cases f with
    | nil =>
      cases fs with
      | nil => simp at h
      | cons f' fs =>
        rw [trail_cons] at h
        simp only [List.nil_append, List.cons_append, List.cons.injEq] at h
        exact absurd (by simp [h.1]) he
    | cons d f =>
      simp only [List.cons_append, List.cons.injEq] at h
      simp only [List.mem_cons, not_or] at he hf
      rw [h.1, ih he.2 hf.2 h.2]

end Joined
end AthemeContrib
