/-
# Programs that draw random numbers and may fault

A program changes a state, takes its random numbers off the front of a list,
and stops in one of three ways: done, with a fault (a null pointer followed,
an index out of range), or starved, when the list has run out. A loop that
draws until a number suits it is then a recursion over the list, and a run of
it that ends needs only finitely many numbers.

`wp m Q s rs` says that `m` does not fault from `s` with the numbers `rs`, and
that it is done in `Q` unless it starves. The rules below compute it.

`Keeps f m` says that `m` leaves the part `f` of the state alone, wherever it
is done; no state has to be followed to see that.

Key definitions: `Prog`, `rand`, `deref`, `forEach`, `wp`, `Keeps`.
Key theorems: `wp_bind`, `wp_rand`, `wp_forEach_cons`, `wp_done`, `keeps_bind`.
-/
import Mathlib.Data.Nat.Notation
import Mathlib.Tactic.Common

namespace AthemeContrib

/-- How a program stops. -/
inductive Outcome (σ α : Type)
  | done (a : α) (s : σ) (rs : List ℕ)
  | fault
  | starved
deriving Repr

/-- A program over the state `σ`. -/
def Prog (σ α : Type) := σ → List ℕ → Outcome σ α

namespace Prog

variable {σ α β : Type}

protected def pure (a : α) : Prog σ α := fun s rs => .done a s rs

protected def bind (m : Prog σ α) (f : α → Prog σ β) : Prog σ β := fun s rs =>
  match m s rs with
  | .done a s' rs' => f a s' rs'
  | .fault => .fault
  | .starved => .starved

instance : Monad (Prog σ) where
  pure := Prog.pure
  bind := Prog.bind

def get : Prog σ σ := fun s rs => .done s s rs

def modify (f : σ → σ) : Prog σ Unit := fun s rs => .done () (f s) rs

/-- The next random number. -/
def rand : Prog σ ℕ := fun s rs =>
  match rs with
  | [] => .starved
  | r :: rs => .done r s rs

def fault : Prog σ α := fun _ _ => .fault

/-- A pointer is followed. -/
def deref : Option α → Prog σ α
  | none => fault
  | some a => pure a

/-- A random number below `n`: `rand() % n`. -/
def randBelow (n : ℕ) : Prog σ ℕ := do
  let r ← rand
  if n = 0 then fault else pure (r % n)

/-- `if (c) m;` -/
def when (c : Prop) [Decidable c] (m : Prog σ Unit) : Prog σ Unit := if c then m else pure ()

def forEach (f : α → Prog σ Unit) : List α → Prog σ Unit
  | [] => pure ()
  | a :: as => do
    f a
    forEach f as

/-- `m` does not fault, and is done in `Q` unless it starves. -/
def wp (m : Prog σ α) (Q : α → σ → List ℕ → Prop) (s : σ) (rs : List ℕ) : Prop :=
  match m s rs with
  | .done a s' rs' => Q a s' rs'
  | .fault => False
  | .starved => True

/-- What comes after a run that is done. -/
theorem bind_of_done {m : Prog σ β} {b : β} {s s' : σ} {rs rs' : List ℕ} (h : m s rs = .done b s' rs')
    (f : β → Prog σ α) : (m >>= f) s rs = f b s' rs' := by
  show Prog.bind m f s rs = _
  rw [Prog.bind, h]

/-- A run of two programs that is done is one of each. -/
theorem bind_eq_done {m : Prog σ β} {f : β → Prog σ α} {a : α} {s s' : σ} {rs rs' : List ℕ} :
    (m >>= f) s rs = .done a s' rs' ↔ ∃ b s₁ rs₁, m s rs = .done b s₁ rs₁ ∧ f b s₁ rs₁ = .done a s' rs' := by
  show Prog.bind m f s rs = _ ↔ _
  unfold Prog.bind
  cases m s rs <;> simp

/-- A pointer is followed only if it names something. -/
theorem deref_eq_done {p : Option α} {a : α} {s s' : σ} {rs rs' : List ℕ} :
    deref p s rs = .done a s' rs' ↔ p = some a ∧ s = s' ∧ rs = rs' := by
  cases p with
  | none => simp [deref, fault]
  | some b =>
    show Outcome.done b s rs = .done a s' rs' ↔ _
    simp

variable {Q R : α → σ → List ℕ → Prop} {s : σ} {rs : List ℕ}

@[simp] theorem wp_pure (a : α) : wp (pure a) Q s rs ↔ Q a s rs := Iff.rfl

@[simp] theorem wp_bind (m : Prog σ β) (f : β → Prog σ α) :
    wp (m >>= f) Q s rs ↔ wp m (fun b s' rs' => wp (f b) Q s' rs') s rs := by
  show (match Prog.bind m f s rs with | .done a s' rs' => Q a s' rs' | .fault => False | .starved => True) ↔ _
  unfold wp Prog.bind
  cases m s rs <;> rfl

@[simp] theorem wp_rand {Q : ℕ → σ → List ℕ → Prop} :
    wp rand Q s rs ↔ ∀ r rs', rs = r :: rs' → Q r s rs' := by
  cases rs with
  | nil => simp [wp, rand]
  | cons r rs => simp [wp, rand]

theorem wp_deref {o : Option α} {a : α} (h : o = some a) (hQ : Q a s rs) : wp (deref o) Q s rs := by
  rw [h]
  exact hQ

theorem wp_randBelow {Q : ℕ → σ → List ℕ → Prop} {n : ℕ} (hn : 0 < n)
    (h : ∀ r rs', rs = r :: rs' → Q (r % n) s rs') : wp (randBelow n) Q s rs := by
  simp only [randBelow, wp_bind, wp_rand]
  intro r rs' hr
  rw [if_neg (Nat.ne_of_gt hn)]
  exact h r rs' hr

@[simp] theorem wp_forEach_nil {Q : Unit → σ → List ℕ → Prop} (f : α → Prog σ Unit) :
    wp (forEach f []) Q s rs ↔ Q () s rs := Iff.rfl

@[simp] theorem wp_forEach_cons {Q : Unit → σ → List ℕ → Prop} (f : α → Prog σ Unit) (a : α) (as : List α) :
    wp (forEach f (a :: as)) Q s rs ↔ wp (f a) (fun _ s' rs' => wp (forEach f as) Q s' rs') s rs := by
  rw [forEach, wp_bind]

/-- A run that is done ends in `Q`. -/
theorem wp_done {m : Prog σ α} (h : wp m Q s rs) {a : α} {s' : σ} {rs' : List ℕ}
    (hm : m s rs = .done a s' rs') : Q a s' rs' := by
  unfold wp at h
  rwa [hm] at h

theorem wp_not_fault {m : Prog σ α} (h : wp m Q s rs) : m s rs ≠ .fault := by
  intro hm
  unfold wp at h
  rwa [hm] at h

/-! ### What a program leaves alone -/

/-- `m` leaves the part `f` of the state as it is. -/
def Keeps {γ : Type} (f : σ → γ) (m : Prog σ α) : Prop :=
  ∀ s rs a s' rs', m s rs = .done a s' rs' → f s' = f s

section
variable {γ : Type} {f : σ → γ}

theorem keeps_pure (a : α) : Keeps f (pure a) := by
  intro s rs b s' rs' h
  cases h
  rfl

theorem keeps_get : Keeps f (get : Prog σ σ) := by
  intro s rs b s' rs' h
  cases h
  rfl

theorem keeps_modify {g : σ → σ} (hg : ∀ s, f (g s) = f s) : Keeps f (modify g) := by
  intro s rs b s' rs' h
  cases h
  exact hg s

theorem keeps_rand : Keeps f (rand : Prog σ ℕ) := by
  intro s rs b s' rs' h
  cases rs with
  | nil => cases h
  | cons r rs =>
    cases h
    rfl

theorem keeps_fault : Keeps f (fault : Prog σ α) := fun _ _ _ _ _ h => by cases h

theorem keeps_deref (p : Option α) : Keeps f (deref p) := fun _ _ _ _ _ h =>
  congrArg f (deref_eq_done.mp h).2.1.symm

theorem keeps_bind {m : Prog σ β} {g : β → Prog σ α} (hm : Keeps f m) (hg : ∀ b, Keeps f (g b)) :
    Keeps f (m >>= g) := by
  intro s rs a s' rs' h
  obtain ⟨b, s₁, rs₁, h₁, h₂⟩ := bind_eq_done.mp h
  exact (hg b s₁ rs₁ a s' rs' h₂).trans (hm s rs b s₁ rs₁ h₁)

theorem keeps_randBelow (n : ℕ) : Keeps f (randBelow n : Prog σ ℕ) := by
  apply keeps_bind keeps_rand
  intro r
  split
  · exact keeps_fault
  · exact keeps_pure _

theorem keeps_when {c : Prop} [Decidable c] {m : Prog σ Unit} (hm : Keeps f m) : Keeps f (when c m) := by
  unfold when
  split
  · exact hm
  · exact keeps_pure ()

theorem keeps_forEach {g : β → Prog σ Unit} (hg : ∀ b, Keeps f (g b)) : ∀ bs : List β, Keeps f (forEach g bs)
  | [] => keeps_pure ()
  | b :: bs => keeps_bind (hg b) fun _ => keeps_forEach hg bs

end

end Prog
end AthemeContrib
