/-
# A set kept in a word, and its copy elsewhere

One side keeps a set of marks as the bits of a word, the other as a set; the first
tells the second what changes. A `Draft` is what came of a set by changes each of
which was needed: the copy that makes the same changes is the same set, and made
none in vain.

Key definitions: `Masks`, `Masks.marks`, `Change`, `replay`, `Needed`, `Draft`.
Key theorems: `Masks.marks_or`, `Masks.marks_and_not`, `replay_append`, `needed_append`.
-/
import Mathlib.Data.Nat.Notation
import Mathlib.Logic.Function.Basic

namespace AthemeContrib
namespace Mirror

/-- Marks, those that are used with a mask in the word, which no two share. -/
structure Masks (ι : Type) (w : ℕ) where
  used : ι → Bool
  mask : ι → BitVec w
  ne_zero : ∀ i, used i = true → mask i ≠ 0#w
  disjoint : ∀ i j, used i = true → used j = true → i ≠ j → mask i &&& mask j = 0#w

variable {ι : Type} {w : ℕ}

/-- The marks that are in the word. -/
def Masks.marks (M : Masks ι w) (m : BitVec w) (i : ι) : Bool := M.used i && decide (M.mask i &&& m ≠ 0#w)

section Words

variable (M : Masks ι w) {m : BitVec w} {i j : ι}

theorem Masks.marks_zero : M.marks 0#w = fun _ => false := by
  funext i
  simp [marks]

theorem Masks.and_or (hi : M.used i = true) (hj : M.used j = true) (hij : j ≠ i) :
    M.mask j &&& (m ||| M.mask i) = M.mask j &&& m := by
  rw [BitVec.and_or_distrib_left, M.disjoint j i hj hi hij, BitVec.or_zero]

theorem Masks.and_or_ne_zero (hi : M.used i = true) : M.mask i &&& (m ||| M.mask i) ≠ 0#w := by
  intro h
  apply M.ne_zero i hi
  have habs : M.mask i &&& (m ||| M.mask i) = M.mask i := by
    ext k hk
    simp only [BitVec.getElem_and, BitVec.getElem_or]
    cases (M.mask i)[k] <;> simp
  rw [← habs, h]

theorem Masks.and_not (hi : M.used i = true) (hj : M.used j = true) (hij : j ≠ i) :
    M.mask j &&& (m &&& ~~~M.mask i) = M.mask j &&& m := by
  have hdis := M.disjoint j i hj hi hij
  ext k hk
  have hbit : (M.mask j)[k] = true → (M.mask i)[k] = false := by
    intro hjk
    have := congrArg (fun v : BitVec w => v.getLsbD k) hdis
    simpa [BitVec.getLsbD_eq_getElem hk, hjk] using this
  simp only [BitVec.getElem_and, BitVec.getElem_not]
  cases hjk : (M.mask j)[k] with
  | false => simp
  | true => simp [hbit hjk]

variable [DecidableEq ι]

/-- Setting a mask marks what it is the mask of, and nothing else. -/
theorem Masks.marks_or (hi : M.used i = true) :
    M.marks (m ||| M.mask i) = Function.update (M.marks m) i true := by
  funext j
  by_cases hij : j = i
  · subst hij
    rw [Function.update_self, marks, hi]
    exact decide_eq_true (M.and_or_ne_zero hi)
  · rw [Function.update_of_ne hij, marks, marks]
    cases hj : M.used j with
    | false => rfl
    | true => rw [M.and_or hi hj hij]

/-- Clearing it unmarks that, and nothing else. -/
theorem Masks.marks_and_not (hi : M.used i = true) :
    M.marks (m &&& ~~~M.mask i) = Function.update (M.marks m) i false := by
  funext j
  by_cases hij : j = i
  · subst hij
    have hzero : M.mask j &&& (m &&& ~~~M.mask j) = 0#w := by
      ext k hk
      simp only [BitVec.getElem_and, BitVec.getElem_not]
      cases (M.mask j)[k] <;> simp
    rw [Function.update_self, marks, hzero]
    simp
  · rw [Function.update_of_ne hij, marks, marks]
    cases hj : M.used j with
    | false => rfl
    | true => rw [M.and_not hi hj hij]

end Words

/-! ### The copy -/

/-- A mark is added or taken away. -/
structure Change (ι : Type) where
  add : Bool
  mark : ι
deriving DecidableEq, Repr

section Copy

variable [DecidableEq ι]

def Change.apply (v : ι → Bool) (c : Change ι) : ι → Bool := Function.update v c.mark c.add

/-- What the changes make of the set `v`. -/
def replay (v : ι → Bool) (cs : List (Change ι)) : ι → Bool := cs.foldl Change.apply v

/-- Each change changes the set. -/
def Needed : (ι → Bool) → List (Change ι) → Prop
  | _, [] => True
  | v, c :: cs => v c.mark ≠ c.add ∧ Needed (c.apply v) cs

theorem replay_append (v : ι → Bool) (cs ds : List (Change ι)) :
    replay v (cs ++ ds) = replay (replay v cs) ds := List.foldl_append

theorem needed_append : ∀ {v : ι → Bool} {cs ds : List (Change ι)},
    Needed v (cs ++ ds) ↔ Needed v cs ∧ Needed (replay v cs) ds
  | _, [], _ => ⟨fun h => ⟨trivial, h⟩, fun h => h.2⟩
  | v, c :: cs, ds => by
    rw [List.cons_append, Needed, Needed, needed_append, and_assoc]
    rfl

/-- A set that came of `v`, and the changes it took. -/
structure Draft (v : ι → Bool) where
  view : ι → Bool
  changes : List (Change ι)
  replayed : replay v changes = view
  needed : Needed v changes

variable {v : ι → Bool}

/-- Nothing is changed yet. -/
def Draft.start (v : ι → Bool) : Draft v := ⟨v, [], rfl, trivial⟩

/-- The mark `i` is made `b`, which takes a change if it is not. -/
def Draft.set (d : Draft v) (i : ι) (b : Bool) : Draft v :=
  if h : d.view i = b then d
  else
    ⟨Function.update d.view i b, d.changes ++ [⟨b, i⟩], by
      rw [replay_append, d.replayed]
      rfl, needed_append.mpr ⟨d.needed, by
        rw [d.replayed]
        exact ⟨h, trivial⟩⟩⟩

theorem Draft.set_of_eq (d : Draft v) {i : ι} {b : Bool} (h : d.view i = b) : d.set i b = d := dif_pos h

theorem Draft.changes_set (d : Draft v) {i : ι} {b : Bool} (h : d.view i ≠ b) :
    (d.set i b).changes = d.changes ++ [⟨b, i⟩] := by
  rw [set, dif_neg h]

theorem Draft.view_set (d : Draft v) (i : ι) (b : Bool) : (d.set i b).view = Function.update d.view i b := by
  unfold set
  split
  · rename_i h
    rw [← h, Function.update_eq_self]
  · rfl

end Copy

end Mirror
end AthemeContrib
