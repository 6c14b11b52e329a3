/-
# A counter that limits a rate

Attempts are counted, and the count starts over when the last one counted is
more than `maxTime` ago. An attempt is made only while the count is at most
`maxNum`. So attempts on the two sides of a reset are more than `maxTime`
apart, and there are no more than `maxNum + 1` between two resets: no window of
`maxTime` has more, wherever it starts (`attempts_le`), and whatever the
counter was at first.

Key definitions: `Counter`, `Counter.reset`, `Moves`, `Run`.
Key theorems: `remaining_le`, `attempts_le`.
-/
import Mathlib.Data.Int.Notation
import Mathlib.Data.Nat.Notation

namespace AthemeContrib
namespace RateLimit

/-- The number of attempts, and the time of the last one counted. -/
structure Counter where
  num : ℕ
  time : ℤ
deriving DecidableEq, Repr

variable (maxNum : ℕ) (maxTime : ℤ)

/-- The counter as it is read at the time `now`. -/
def Counter.reset (c : Counter) (now : ℤ) : Counter :=
  if maxTime < now - c.time then { c with num := 0 } else c

/-- What an event at the time `now` makes of the counter: an attempt is
counted, and where there is none the counter has at most been read. -/
inductive Moves (now : ℤ) : Bool → Counter → Counter → Prop
  | attempt {c : Counter} (h : (c.reset maxTime now).num ≤ maxNum) :
      Moves now true c ⟨(c.reset maxTime now).num + 1, now⟩
  | read (c : Counter) : Moves now false c (c.reset maxTime now)
  | skip (c : Counter) : Moves now false c c

/-- The events from a counter: their times, and whether they are attempts. -/
inductive Run : Counter → List (ℤ × Bool) → Prop
  | nil (c : Counter) : Run c []
  | cons {c c' : Counter} {now : ℤ} {b : Bool} {es : List (ℤ × Bool)} (h : Moves maxNum maxTime now b c c')
      (hes : Run c' es) : Run c ((now, b) :: es)

/-- The event is an attempt in the window of `maxTime` that starts at `a`. -/
def inWindow (a : ℤ) (e : ℤ × Bool) : Bool := e.2 && decide (a ≤ e.1 ∧ e.1 ≤ a + maxTime)

variable {maxNum maxTime}

/-- Times do not decrease. -/
abbrev Ordered (es : List (ℤ × Bool)) : Prop := es.Pairwise fun e f => e.1 ≤ f.1

theorem attempts_after {a now : ℤ} (h : a + maxTime < now) {es : List (ℤ × Bool)}
    (hes : ∀ e ∈ es, now ≤ e.1) : es.countP (inWindow maxTime a) = 0 := by
  refine List.countP_eq_zero.mpr fun e he => ?_
  have hle : now ≤ e.1 := hes e he
  simp only [inWindow, Bool.and_eq_true, decide_eq_true_eq, not_and]
  omega

/-- While the last attempt counted is in the window, there is no reset in it,
and what it can still hold is what the count leaves. -/
theorem remaining_le {a : ℤ} : ∀ {es : List (ℤ × Bool)} {c : Counter}, Run maxNum maxTime c es → Ordered es →
    (∀ e ∈ es, c.time ≤ e.1) → a ≤ c.time → es.countP (inWindow maxTime a) ≤ maxNum + 1 - c.num
  | [], _, _, _, _, _ => Nat.zero_le _
  | (now, b) :: es, c, hrun, hord, htime, ha => by
    obtain ⟨hfirst, hrest⟩ := List.pairwise_cons.mp hord
    have hnow : c.time ≤ now := htime (now, b) (by simp)
    by_cases hafter : a + maxTime < now
    · have hall : ∀ e ∈ (now, b) :: es, now ≤ e.1 := List.forall_mem_cons.mpr ⟨Int.le_refl now, hfirst⟩
      rw [attempts_after hafter hall]
      exact Nat.zero_le _
    · have hreset : c.reset maxTime now = c := if_neg (by omega)
      cases hrun with
      | cons hmove hes =>
        have hlater : ∀ e ∈ es, c.time ≤ e.1 := fun e he => Int.le_trans hnow (hfirst e he)
        cases hmove with
        | attempt hnum =>
          rw [hreset] at hnum hes
          have hleft : es.countP (inWindow maxTime a) ≤ maxNum + 1 - (c.num + 1) :=
            remaining_le hes hrest hfirst (Int.le_trans ha hnow)
          have hone : (((now, true) :: es).countP (inWindow maxTime a)) ≤
              es.countP (inWindow maxTime a) + 1 := by
            rw [List.countP_cons]
            split <;> omega
          omega
        | read =>
          rw [hreset] at hes
          rw [List.countP_cons_of_neg (by simp [inWindow])]
          exact remaining_le hes hrest hlater ha
        | skip =>
          rw [List.countP_cons_of_neg (by simp [inWindow])]
          exact remaining_le hes hrest hlater ha

/-- **No window has more than `maxNum + 1` attempts.** -/
theorem attempts_le {a : ℤ} : ∀ {es : List (ℤ × Bool)} {c : Counter}, Run maxNum maxTime c es → Ordered es →
    es.countP (inWindow maxTime a) ≤ maxNum + 1
  | [], _, _, _ => Nat.zero_le _
  | (now, b) :: es, c, hrun, hord => by
    obtain ⟨hfirst, hrest⟩ := List.pairwise_cons.mp hord
    cases hrun with
    | cons hmove hes =>
      by_cases hin : inWindow maxTime a (now, b) = true
      · rw [List.countP_cons_of_pos hin]
        simp only [inWindow, Bool.and_eq_true, decide_eq_true_eq] at hin
        obtain ⟨rfl, hstart, -⟩ := hin
        cases hmove with
        | attempt hnum =>
          -- The first attempt of the window: from here on nothing is reset in it.
          have hleft := remaining_le hes hrest hfirst hstart
          simp only at hleft
          omega
      · rw [List.countP_cons_of_neg hin]
        exact attempts_le hes hrest

end RateLimit
end AthemeContrib
