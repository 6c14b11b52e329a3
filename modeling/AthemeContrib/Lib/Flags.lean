/-
# Sets of flags in a machine word

A word `m` has all of the flags `f`, or none of them, and how `|=` and `&= ~`
change that, bit by bit.

Key definitions: `Has`, `Lacks`.
Key theorems: `has_iff`, `lacks_iff`, `and_eq_and_iff`.
-/
import Mathlib.Data.Nat.Notation

namespace AthemeContrib
namespace Flags

variable {w : ℕ} {m f g : BitVec w}

/-- All of `f` is in `m`. -/
def Has (m f : BitVec w) : Prop := m &&& f = f

/-- Nothing of `f` is in `m`. -/
def Lacks (m f : BitVec w) : Prop := m &&& f = 0#w

instance (m f : BitVec w) : Decidable (Has m f) := inferInstanceAs (Decidable (_ = _))

instance (m f : BitVec w) : Decidable (Lacks m f) := inferInstanceAs (Decidable (_ = _))

theorem has_iff : Has m f ↔ ∀ i, f.getLsbD i = true → m.getLsbD i = true := by
  constructor
  · intro h i hi
    have hbit : (m &&& f).getLsbD i = true := by rw [h, hi]
    rw [BitVec.getLsbD_and, Bool.and_eq_true] at hbit
    exact hbit.1
  · intro h
    refine BitVec.eq_of_getLsbD_eq fun i _ => ?_
    rw [BitVec.getLsbD_and]
    cases hf : f.getLsbD i with
    | false => rw [Bool.and_false]
    | true => rw [h i hf, Bool.and_true]

theorem lacks_iff : Lacks m f ↔ ∀ i, f.getLsbD i = true → m.getLsbD i = false := by
  constructor
  · intro h i hi
    have hbit : (m &&& f).getLsbD i = false := by rw [h, BitVec.getLsbD_zero]
    rwa [BitVec.getLsbD_and, hi, Bool.and_true] at hbit
  · intro h
    refine BitVec.eq_of_getLsbD_eq fun i _ => ?_
    rw [BitVec.getLsbD_and, BitVec.getLsbD_zero]
    cases hf : f.getLsbD i with
    | false => rw [Bool.and_false]
    | true => rw [h i hf, Bool.false_and]

/-- Flags that are there are not missing, unless there are none. -/
theorem eq_zero_of_has_lacks (hhas : Has m f) (hlacks : Lacks m f) : f = 0#w := by
  rw [← hhas]
  exact hlacks

/-- Two words agree on the flags `f`. -/
theorem and_eq_and_iff {m m' : BitVec w} :
    m &&& f = m' &&& f ↔ ∀ i, f.getLsbD i = true → m.getLsbD i = m'.getLsbD i := by
  constructor
  · intro h i hi
    have hbit : (m &&& f).getLsbD i = (m' &&& f).getLsbD i := by rw [h]
    rwa [BitVec.getLsbD_and, BitVec.getLsbD_and, hi, Bool.and_true, Bool.and_true] at hbit
  · intro h
    refine BitVec.eq_of_getLsbD_eq fun i _ => ?_
    rw [BitVec.getLsbD_and, BitVec.getLsbD_and]
    cases hf : f.getLsbD i with
    | false => rw [Bool.and_false, Bool.and_false]
    | true => rw [h i hf]

end Flags
end AthemeContrib
