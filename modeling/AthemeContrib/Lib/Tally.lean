/-
# How many places hold a thing

`tally I f c` counts the places of `I` where `f` has the value `c`. One place
is given another value: the count of the old value goes down by one and that
of the new value up by one (`tally_update`). A thing is taken from one place
and put into another: every count but that of the empty value `e` is the same
exactly if nothing else was there (`tally_moved_iff`).

Key definitions: `tally`, `moved`.
Key theorems: `tally_update`, `tally_moved`, `tally_moved_iff`.
-/
import Mathlib.Data.Finset.Card

namespace AthemeContrib

variable {ι κ : Type*} [DecidableEq ι] [DecidableEq κ]

/-- The number of places of `I` with the value `c`. -/
def tally (I : Finset ι) (f : ι → κ) (c : κ) : ℕ := (I.filter fun i => f i = c).card

variable {I : Finset ι} {f : ι → κ} {i k t : ι}

theorem tally_erase (hi : i ∈ I) (f : ι → κ) (c : κ) :
    tally I f c = tally (I.erase i) f c + if f i = c then 1 else 0 := by
  unfold tally
  rw [Finset.filter_erase]
  by_cases hc : f i = c
  · rw [if_pos hc, Finset.card_erase_add_one (Finset.mem_filter.mpr ⟨hi, hc⟩)]
  · have hnot : i ∉ I.filter fun i => f i = c := fun h => hc (Finset.mem_filter.mp h).2
    rw [if_neg hc, Finset.erase_eq_of_notMem hnot, Nat.add_zero]

theorem tally_update_of_notMem (hi : i ∉ I) (f : ι → κ) (b c : κ) :
    tally I (Function.update f i b) c = tally I f c := by
  unfold tally
  congr 1
  apply Finset.filter_congr
  intro j hj
  have hne : j ≠ i := fun h => hi (h ▸ hj)
  rw [Function.update_of_ne hne]

/-- The old value is counted once less, the new one once more. -/
theorem tally_update (hi : i ∈ I) (f : ι → κ) (b c : κ) :
    tally I (Function.update f i b) c + (if f i = c then 1 else 0) =
      tally I f c + if b = c then 1 else 0 := by
  have hrest := tally_update_of_notMem (Finset.notMem_erase i I) f b c
  rw [tally_erase hi f c, tally_erase hi (Function.update f i b) c, hrest, Function.update_self]
  omega

/-- What was in the place `k` is put into the place `t`, and `k` is left empty. -/
def moved (f : ι → κ) (e : κ) (k t : ι) : ι → κ := Function.update (Function.update f k e) t (f k)

/-- Of a thing that is moved the place it gets to loses what it held. -/
theorem tally_moved (hk : k ∈ I) (ht : t ∈ I) (e c : κ) :
    tally I (moved f e k t) c + (if Function.update f k e t = c then 1 else 0) =
      tally I f c + if e = c then 1 else 0 := by
  have hleave := tally_update hk f e c
  have harrive := tally_update ht (Function.update f k e) (f k) c
  unfold moved
  omega

/-- **Moving a thing loses none exactly if it is put back or into an empty
place.** -/
theorem tally_moved_iff (hk : k ∈ I) (ht : t ∈ I) (e : κ) :
    (∀ c, c ≠ e → tally I (moved f e k t) c = tally I f c) ↔ t = k ∨ f t = e := by
  have hold : Function.update f k e t = e ↔ t = k ∨ f t = e := by
    by_cases htk : t = k
    · simp [htk]
    · simp [htk]
  rw [← hold]
  constructor
  · intro h
    by_contra hne
    have hc := tally_moved (f := f) hk ht e (Function.update f k e t)
    rw [h _ hne, if_pos rfl, if_neg (Ne.symm hne)] at hc
    omega
  · intro he c hc
    have hmv := tally_moved (f := f) hk ht e c
    rw [he, if_neg (Ne.symm hc)] at hmv
    exact hmv

end AthemeContrib
