/-
# Checks that can refuse a request

A request is put to one check after another. A check keeps a state of its own,
counts a refusal and says why; a polite one does nothing once somebody has
refused. Nobody takes a refusal back, so the request is refused if some check,
asked alone, would refuse it, in whatever order they are asked (`ask_refused_iff`,
`ask_perm`). What the order decides is who gets to speak (`ask_said`).

Key definitions: `Asked`, `ask`, `Vetoes`, `before`, `heard`.
Key theorems: `ask_refused_iff`, `ask_perm`, `ask_said`.
-/
import Mathlib.Data.List.Nodup
import Mathlib.Data.List.TakeWhile
import Mathlib.Tactic.Common

namespace AthemeContrib
namespace Veto

variable {ι σ τ : Type*}

/-- A request that is checked: what the checks keep, how many refusals there
were, and what was said. -/
structure Asked (σ τ : Type*) where
  state : σ
  refusals : ℕ
  said : List τ

/-- The checks `is`, one after another. -/
def ask (check : ι → Asked σ τ → Asked σ τ) (is : List ι) (a : Asked σ τ) : Asked σ τ :=
  is.foldl (fun a i => check i a) a

/-- Each check goes by `answer`: it lets the request pass, or refuses it with some
words. A polite one leaves alone what is refused already, and no check has a say
in what another answers. -/
structure Vetoes (check : ι → Asked σ τ → Asked σ τ) (answer : ι → σ → Option (List τ)) (polite : ι → Bool) :
    Prop where
  passes : ∀ i a, answer i a.state = none → (check i a).refusals = a.refusals ∧ (check i a).said = a.said
  refuses : ∀ i a ws, answer i a.state = some ws → (polite i = true → a.refusals = 0) →
    a.refusals < (check i a).refusals ∧ (check i a).said = a.said ++ ws
  silent : ∀ i a, polite i = true → a.refusals ≠ 0 →
    (check i a).refusals = a.refusals ∧ (check i a).said = a.said
  apart : ∀ i j a, i ≠ j → answer j (check i a).state = answer j a.state

variable {check : ι → Asked σ τ → Asked σ τ} {answer : ι → σ → Option (List τ)} {polite : ι → Bool}

theorem ask_cons (i : ι) (is : List ι) (a : Asked σ τ) : ask check (i :: is) a = ask check is (check i a) := rfl

theorem ask_append (is js : List ι) (a : Asked σ τ) : ask check (is ++ js) a = ask check js (ask check is a) :=
  List.foldl_append

/-- What only `i` changes is as `i` leaves it. -/
theorem ask_view {β : Type*} (f : σ → β) : ∀ {is : List ι} {a : Asked σ τ},
    (∀ i ∈ is, ∀ a, f (check i a).state = f a.state) → f (ask check is a).state = f a.state
  | [], _, _ => rfl
  | i :: is, a, h => by
    rw [ask_cons, ask_view f fun j hj => h j (List.mem_cons_of_mem i hj)]
    exact h i List.mem_cons_self a

/-- One check refuses or leaves the count alone. -/
theorem Vetoes.refused_iff (h : Vetoes check answer polite) (i : ι) (a : Asked σ τ) :
    (check i a).refusals ≠ 0 ↔ a.refusals ≠ 0 ∨ (answer i a.state).isSome = true := by
  cases ha : answer i a.state with
  | none =>
    rw [(h.passes i a ha).1]
    simp
  | some ws =>
    refine iff_of_true ?_ (Or.inr rfl)
    by_cases hp : polite i = true ∧ a.refusals ≠ 0
    · rw [(h.silent i a hp.1 hp.2).1]
      exact hp.2
    · have := (h.refuses i a ws ha fun hi => not_not.mp fun hr => hp ⟨hi, hr⟩).1
      omega

/-- The others answer as they did. -/
theorem Vetoes.answer_eq (h : Vetoes check answer polite) {i : ι} {is : List ι} (hi : i ∉ is) (a : Asked σ τ) :
    ∀ j ∈ is, answer j (check i a).state = answer j a.state :=
  fun j hj => h.apart i j a fun he => hi (he ▸ hj)

/-- **One veto is enough**, and without one the request passes. -/
theorem ask_refused_iff (h : Vetoes check answer polite) : ∀ {is : List ι} {a : Asked σ τ}, is.Nodup →
    ((ask check is a).refusals ≠ 0 ↔ a.refusals ≠ 0 ∨ ∃ i ∈ is, (answer i a.state).isSome = true)
  | [], a, _ => by simp [ask]
  | i :: is, a, hn => by
    obtain ⟨hi, hn⟩ := List.nodup_cons.mp hn
    rw [ask_cons, ask_refused_iff h hn, h.refused_iff, or_assoc]
    refine or_congr_right ?_
    rw [List.exists_mem_cons_iff]
    refine or_congr_right (exists_congr fun j => and_congr_right fun hj => ?_)
    rw [h.answer_eq hi a j hj]

/-- The verdict is the same in whatever order they are asked. -/
theorem ask_perm (h : Vetoes check answer polite) {is js : List ι} (hp : is.Perm js) (hn : is.Nodup)
    (a : Asked σ τ) : (ask check is a).refusals = 0 ↔ (ask check js a).refusals = 0 := by
  refine not_iff_not.mp ?_
  rw [← Ne, ← Ne, ask_refused_iff h hn, ask_refused_iff h (hp.nodup_iff.mp hn)]
  simp only [hp.mem_iff]

/-! ### Who speaks -/

variable [DecidableEq ι]

/-- Who is asked before `i`. -/
def before (is : List ι) (i : ι) : List ι := is.takeWhile (· ≠ i)

/-- What the check `i` of `is` gets to say, where `r` requests were refused
before any was asked. -/
def words (answer : ι → Option (List τ)) (polite : ι → Bool) (r : Bool) (is : List ι) (i : ι) : List τ :=
  if polite i && (r || (before is i).any fun j => (answer j).isSome) then [] else (answer i).getD []

/-- All that is said, in order. -/
def heard (answer : ι → Option (List τ)) (polite : ι → Bool) (r : Bool) (is : List ι) : List τ :=
  is.flatMap (words answer polite r is)

theorem before_self (i : ι) (is : List ι) : before (i :: is) i = [] := by simp [before]

theorem before_cons {i j : ι} (hij : i ≠ j) (is : List ι) : before (i :: is) j = i :: before is j := by
  simp [before, hij]

theorem before_sublist (is : List ι) (i : ι) : (before is i).Sublist is := List.takeWhile_sublist _

/-- Who is asked up to a check that stands once. -/
theorem before_append {pre post : List ι} {i : ι} (hi : i ∉ pre) : before (pre ++ i :: post) i = pre := by
  induction pre with
  | nil => exact before_self i post
  | cons j pre ih =>
    rw [List.mem_cons, not_or] at hi
    rw [List.cons_append, before_cons (Ne.symm hi.1), ih hi.2]

/-- Who is asked is asked before the ones that follow. -/
theorem mem_before {pre post : List ι} {i j : ι} (hn : (pre ++ i :: post).Nodup) (hj : j ∈ post) :
    i ∈ before (pre ++ i :: post) j := by
  obtain ⟨mid, rest, rfl⟩ := List.append_of_mem hj
  have hsplit : pre ++ i :: (mid ++ j :: rest) = (pre ++ i :: mid) ++ j :: rest := by simp
  rw [hsplit] at hn ⊢
  rw [before_append fun h => (List.nodup_append.mp hn).2.2 _ h _ List.mem_cons_self rfl]
  exact List.mem_append_right _ List.mem_cons_self

theorem heard_cons {ans : ι → Option (List τ)} {r : Bool} {i : ι} {is : List ι} (hi : i ∉ is) :
    heard ans polite r (i :: is) =
      (if polite i && r then [] else (ans i).getD []) ++ heard ans polite (r || (ans i).isSome) is := by
  unfold heard
  rw [List.flatMap_cons]
  congr 1
  · simp [words, before_self]
  · refine List.flatMap_congr fun j hj => ?_
    have hij : i ≠ j := fun he => hi (he ▸ hj)
    simp only [words, before_cons hij, List.any_cons, Bool.or_assoc]

theorem heard_congr {ans ans' : ι → Option (List τ)} {is : List ι} (polite : ι → Bool) (r : Bool)
    (h : ∀ i ∈ is, ans i = ans' i) :
    heard ans polite r is = heard ans' polite r is := by
  refine List.flatMap_congr fun i hi => ?_
  have hb : (before is i).any (fun j => (ans j).isSome) = (before is i).any fun j => (ans' j).isSome := by
    rw [Bool.eq_iff_iff, List.any_eq_true, List.any_eq_true]
    refine exists_congr fun j => and_congr_right fun hj => ?_
    rw [h j ((before_sublist is i).subset hj)]
  simp only [words, hb, h i hi]

/-- **Who speaks, and in what order**: whoever refuses, but a polite one only if
nobody asked before it does. -/
theorem ask_said (h : Vetoes check answer polite) : ∀ {is : List ι} {a : Asked σ τ}, is.Nodup →
    (ask check is a).said = a.said ++ heard (fun i => answer i a.state) polite (a.refusals ≠ 0) is
  | [], a, _ => (List.append_nil a.said).symm
  | i :: is, a, hn => by
    obtain ⟨hi, hn⟩ := List.nodup_cons.mp hn
    have hr : decide ((check i a).refusals ≠ 0) = (decide (a.refusals ≠ 0) || (answer i a.state).isSome) := by
      rw [Bool.eq_iff_iff, decide_eq_true_iff, h.refused_iff, Bool.or_eq_true, decide_eq_true_iff]
    have hrest := heard_congr polite (decide ((check i a).refusals ≠ 0)) (h.answer_eq hi a)
    rw [ask_cons, ask_said h hn, hrest, heard_cons hi, hr, ← List.append_assoc]
    congr 1
    by_cases hp : polite i = true ∧ a.refusals ≠ 0
    · rw [(h.silent i a hp.1 hp.2).2]
      simp [hp.1, hp.2]
    · have hpolite : (polite i && decide (a.refusals ≠ 0)) = false := by
        rw [Bool.eq_false_iff, Ne, Bool.and_eq_true, decide_eq_true_iff]
        exact hp
      rw [hpolite, if_neg Bool.false_ne_true]
      cases ha : answer i a.state with
      | none => rw [(h.passes i a ha).2, Option.getD_none, List.append_nil]
      | some ws => exact (h.refuses i a ws ha fun hi => not_not.mp fun hr => hp ⟨hi, hr⟩).2

end Veto
end AthemeContrib
