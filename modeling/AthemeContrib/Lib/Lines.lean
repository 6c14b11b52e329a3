/-
# The lines of a stream

A stream that is cut at a separator is its complete lines, each with a
separator behind it, and the rest of a line that is not complete yet. More of
the stream ends that line or makes it longer: how the lines and the rest go on
is all there is to say of a stream that comes in pieces (`lines_append_of_notMem`,
`lines_append_cut`).

Key definitions: `lines`, `rest`.
Key theorems: `line_induction`, `joined`, `lines_append_of_notMem`,
`lines_append_cut`.
-/
import AthemeContrib.Lib.Joined

namespace AthemeContrib
namespace Lines

variable {α : Type} [DecidableEq α] {sep : α} {s t w : List α}

/-- The complete lines, without their separators. -/
def lines (sep : α) (s : List α) : List (List α) := (s.splitOn sep).dropLast

/-- What is behind the last separator. -/
def rest (sep : α) (s : List α) : List α := (s.splitOn sep).getLast (List.splitOn_ne_nil sep s)

theorem splitOn_eq (sep : α) (s : List α) : s.splitOn sep = lines sep s ++ [rest sep s] :=
  (List.dropLast_concat_getLast _).symm

/-- A text is cut in one way. -/
theorem of_splitOn {ls : List (List α)} {r : List α} (h : s.splitOn sep = ls ++ [r]) :
    lines sep s = ls ∧ rest sep s = r := by
  rw [splitOn_eq] at h
  obtain ⟨hlines, hrest⟩ := List.append_inj' h rfl
  exact ⟨hlines, List.singleton_inj.mp hrest⟩

theorem lines_of_notMem (h : sep ∉ s) : lines sep s = [] ∧ rest sep s = s :=
  of_splitOn (List.splitOn_eq_singleton h)

/-- The first line, and those behind it. -/
theorem lines_cut (h : sep ∉ w) (s : List α) :
    lines sep (w ++ sep :: s) = w :: lines sep s ∧ rest sep (w ++ sep :: s) = rest sep s := by
  apply of_splitOn
  rw [List.splitOn_append_cons_self, List.splitOn_eq_singleton h, splitOn_eq sep s]
  rfl

/-- A stream is a line not complete, or a line and a stream. -/
theorem line_induction {P : List α → Prop} (sep : α) (hrest : ∀ w, sep ∉ w → P w)
    (hline : ∀ w s, sep ∉ w → P s → P (w ++ sep :: s)) (s : List α) : P s := by
  induction hn : s.length using Nat.strongRecOn generalizing s with
  | ind n ih =>
    by_cases hmem : sep ∈ s
    · obtain ⟨w, t, rfl, hw⟩ := List.eq_append_cons_of_mem hmem
      have hlt : t.length < n := by
        rw [← hn, List.length_append, List.length_cons]
        omega
      exact hline w t hw (ih t.length hlt t rfl)
    · exact hrest s hmem

/-- The lines and the rest are the stream. -/
theorem joined (sep : α) (s : List α) : Joined.lead sep (lines sep s) ++ rest sep s = s := by
  induction s using line_induction sep with
  | hrest w hw => rw [(lines_of_notMem hw).1, (lines_of_notMem hw).2]; rfl
  | hline w s hw ih =>
    rw [(lines_cut hw s).1, (lines_cut hw s).2, Joined.lead_cons, List.append_assoc, List.cons_append, ih]

theorem notMem_rest (sep : α) (s : List α) : sep ∉ rest sep s := by
  induction s using line_induction sep with
  | hrest w hw => rwa [(lines_of_notMem hw).2]
  | hline w s hw ih => rwa [(lines_cut hw s).2]

theorem length_rest_le (sep : α) (s : List α) : (rest sep s).length ≤ s.length := by
  have hlen := congrArg List.length (joined sep s)
  rw [List.length_append] at hlen
  omega

theorem count_lead_lines (sep : α) (s : List α) : (Joined.lead sep (lines sep s)).count sep = s.count sep := by
  have hrest : (rest sep s).count sep = 0 := List.count_eq_zero.mpr (notMem_rest sep s)
  have hcount := congrArg (List.count sep) (joined sep s)
  rwa [List.count_append, hrest, Nat.add_zero] at hcount

/-! ### A stream that goes on -/

/-- A piece without a separator makes the rest longer. -/
theorem lines_append_of_notMem (h : sep ∉ t) (s : List α) :
    lines sep (s ++ t) = lines sep s ∧ rest sep (s ++ t) = rest sep s ++ t := by
  induction s using line_induction sep with
  | hrest w hw =>
    have hwt : sep ∉ w ++ t := by
      rw [List.mem_append, not_or]
      exact ⟨hw, h⟩
    rw [(lines_of_notMem hw).1, (lines_of_notMem hw).2]
    exact lines_of_notMem hwt
  | hline w s hw ih =>
    rw [List.append_assoc, List.cons_append, (lines_cut hw _).1, (lines_cut hw _).2, (lines_cut hw _).1,
      (lines_cut hw _).2, ih.1, ih.2]
    exact ⟨rfl, rfl⟩

/-- A piece with one ends the line that was begun, and begins its own lines. -/
theorem lines_append_cut (h : sep ∉ w) (s t : List α) :
    lines sep (s ++ (w ++ sep :: t)) = lines sep s ++ (rest sep s ++ w) :: lines sep t ∧
      rest sep (s ++ (w ++ sep :: t)) = rest sep t := by
  apply of_splitOn
  obtain ⟨hlines, hrest⟩ := lines_append_of_notMem h s
  rw [← List.append_assoc, List.splitOn_append_cons_self, splitOn_eq sep (s ++ w), splitOn_eq sep t, hlines,
    hrest, List.append_assoc]
  simp

end Lines
end AthemeContrib
