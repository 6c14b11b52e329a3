/-
# An event loop's timers

Timers are created periodic (`timerAdd`) or one-shot (`timerAddOnce`), are
destroyed by handle, and a one-shot timer is gone once its callback has run
(`ran`). A handle is never given out twice (`fresh`, `nodup` are fields, so a
loop that breaks them cannot be built), so a handle kept past its timer's end
names nothing: destroying it is a misuse, which the loop records and
otherwise ignores. The null handle is refused by the loop's own guard and is
no misuse.

Key definitions: `EventLoop`, `timerAdd`, `timerAddOnce`, `timerDestroy`, `ran`.
Key theorems: `timers_timerDestroy`, `timers_ran`,
`misused_timerDestroy_of_live`.
-/
import Mathlib.Data.Int.Notation
import Mathlib.Data.List.Nodup

namespace AthemeContrib

/-- A pending timer: its handle, the callback it runs, whether it runs only
once, and its interval in seconds. -/
structure Timer (κ : Type*) where
  id : ℕ
  func : κ
  once : Bool
  delay : ℤ
deriving DecidableEq, Repr

/-- The pending timers of an event loop; `misused` are the handles destroyed
while they named no pending timer. -/
structure EventLoop (κ : Type*) where
  timers : List (Timer κ)
  next : ℕ
  misused : List ℕ
  fresh : ∀ t ∈ timers, t.id < next
  nodup : (timers.map Timer.id).Nodup

namespace EventLoop

variable {κ : Type*}

/-- The loop before any timer. -/
def init : EventLoop κ := ⟨[], 0, [], by simp, by simp⟩

/-- A new timer under the handle `l.next`. -/
def push (l : EventLoop κ) (f : κ) (once : Bool) (delay : ℤ) : EventLoop κ where
  timers := l.timers ++ [⟨l.next, f, once, delay⟩]
  next := l.next + 1
  misused := l.misused
  fresh := by
    intro t ht
    rcases List.mem_append.mp ht with ht | ht
    · exact Nat.lt_succ_of_lt (l.fresh t ht)
    · rw [List.mem_singleton.mp ht]
      exact Nat.lt_succ_self _
  nodup := by
    rw [List.map_append, List.map_singleton, List.nodup_append]
    refine ⟨l.nodup, List.nodup_singleton _, ?_⟩
    rintro a ha b hb rfl
    obtain ⟨t, ht, hid⟩ := List.mem_map.mp ha
    have := l.fresh t ht
    rw [hid, List.mem_singleton.mp hb] at this
    exact absurd this (Nat.lt_irrefl _)

/-- The loop without the timer `id`. -/
def drop (l : EventLoop κ) (id : ℕ) : EventLoop κ where
  timers := l.timers.filter (·.id ≠ id)
  next := l.next
  misused := l.misused
  fresh := fun t ht => l.fresh t (List.mem_of_mem_filter ht)
  nodup := l.nodup.sublist (List.filter_sublist.map _)

/-- The pending timer a handle names. -/
def find (l : EventLoop κ) (id : ℕ) : Option (Timer κ) := l.timers.find? (·.id = id)

/-- The handle names a pending timer. -/
def Live (l : EventLoop κ) (id : ℕ) : Prop := ∃ t ∈ l.timers, t.id = id

instance (l : EventLoop κ) (id : ℕ) : Decidable (l.Live id) :=
  inferInstanceAs (Decidable (∃ t ∈ l.timers, t.id = id))

def timerAdd (l : EventLoop κ) (f : κ) (delay : ℤ) : EventLoop κ := l.push f false delay

def timerAddOnce (l : EventLoop κ) (f : κ) (delay : ℤ) : EventLoop κ := l.push f true delay

/-- A handle is destroyed. -/
def timerDestroy (l : EventLoop κ) : Option ℕ → EventLoop κ
  | none => l
  | some id => if l.Live id then l.drop id else { l with misused := l.misused ++ [id] }

/-- The callback of timer `id` has returned: a one-shot timer is gone. -/
def ran (l : EventLoop κ) (t : Timer κ) : EventLoop κ := if t.once then l.drop t.id else l

/-! ### What is pending afterwards -/

theorem live_of_mem {l : EventLoop κ} {t : Timer κ} (h : t ∈ l.timers) : l.Live t.id := ⟨t, h, rfl⟩

theorem mem_of_find {l : EventLoop κ} {id : ℕ} {t : Timer κ} (h : l.find id = some t) :
    t ∈ l.timers ∧ t.id = id :=
  ⟨List.mem_of_find?_eq_some h, by simpa using List.find?_some h⟩

/-- A handle names at most one timer. -/
theorem find_func_iff {l : EventLoop κ} {id : ℕ} {t : Timer κ} (h : l.find id = some t) {f : κ} :
    (∃ t', l.find id = some t' ∧ t'.func = f) ↔ t.func = f := by
  constructor
  · intro ⟨t', ht', hf⟩
    rw [h, Option.some.injEq] at ht'
    rw [ht', hf]
  · exact fun hf => ⟨t, h, hf⟩

@[simp] theorem timers_init : (init : EventLoop κ).timers = [] := rfl

@[simp] theorem timers_push (l : EventLoop κ) (f : κ) (o : Bool) (d : ℤ) :
    (l.push f o d).timers = l.timers ++ [⟨l.next, f, o, d⟩] := rfl

@[simp] theorem timers_drop (l : EventLoop κ) (id : ℕ) :
    (l.drop id).timers = l.timers.filter (·.id ≠ id) := rfl

@[simp] theorem misused_drop (l : EventLoop κ) (id : ℕ) : (l.drop id).misused = l.misused := rfl

@[simp] theorem timerDestroy_none (l : EventLoop κ) : l.timerDestroy none = l := rfl

theorem timerDestroy_of_live {l : EventLoop κ} {id : ℕ} (h : l.Live id) :
    l.timerDestroy (some id) = l.drop id := if_pos h

theorem timerDestroy_of_not_live {l : EventLoop κ} {id : ℕ} (h : ¬ l.Live id) :
    l.timerDestroy (some id) = { l with misused := l.misused ++ [id] } := if_neg h

/-- Destroying a handle leaves the timers it does not name. -/
theorem timers_timerDestroy (l : EventLoop κ) (h : Option ℕ) :
    (l.timerDestroy h).timers = l.timers.filter (fun t => some t.id ≠ h) := by
  cases h with
  | none => simp
  | some id =>
    by_cases hl : l.Live id
    · rw [timerDestroy_of_live hl, timers_drop]
      simp
    · rw [timerDestroy_of_not_live hl]
      symm
      rw [List.filter_eq_self]
      intro t ht
      simp only [ne_eq, Option.some.injEq, decide_eq_true_eq]
      rintro rfl
      exact hl (live_of_mem ht)

theorem misused_timerDestroy_of_live {l : EventLoop κ} {h : Option ℕ} (hl : ∀ id, h = some id → l.Live id) :
    (l.timerDestroy h).misused = l.misused := by
  cases h with
  | none => rfl
  | some id => rw [timerDestroy_of_live (hl id rfl), misused_drop]

theorem timers_ran (l : EventLoop κ) (t : Timer κ) :
    (l.ran t).timers = l.timers.filter (fun t' => ¬ (t.once = true ∧ t'.id = t.id)) := by
  unfold ran
  cases ho : t.once <;> simp

@[simp] theorem misused_ran (l : EventLoop κ) (t : Timer κ) : (l.ran t).misused = l.misused := by
  unfold ran
  split <;> rfl

end EventLoop
end AthemeContrib
