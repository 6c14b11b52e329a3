/-
# Runs of an event-driven component

A component is a partial step function `step : σ → ε → Option σ`: what the
event `e` makes of the state `s`, `none` where `e` cannot happen. An event
carries everything the environment chooses (arguments, random draws, the
clock), so a run is a list of events, and what is shown for every list is
shown for every interleaving.

`Along step Q s es` says `Q` of every step of the run, `Always step P s es`
says `P` of every state of it. A property that holds only as long as each
step meets a condition `C` is an equivalence of two `Along`s, and one step at
a time is enough (`along_congr`, `always_iff_along`). Neither says that an
event can happen; `Total` does, and `Before` is what is asked of the events
for it (`total_iff_before`).

Key definitions: `exec`, `Reach`, `Along`, `Always`, `Total`, `Before`.
Key theorems: `exec_history`, `reach_inv`, `along_congr`, `always_iff_along`,
`along_iff_split`, `total_iff_before`.
-/
import Mathlib.Data.List.Induction
import Mathlib.Logic.Relation

namespace AthemeContrib
namespace Run

variable {σ ε : Type*} (step : σ → ε → Option σ)

/-- The state after the events `es`, if each can happen where it stands. -/
def exec : σ → List ε → Option σ
  | s, [] => some s
  | s, e :: es => (step s e).bind fun s' => exec s' es

/-- `s` is reached from `s₀` by some run. -/
def Reach (s₀ s : σ) : Prop := ∃ es, exec step s₀ es = some s

/-- `Q` holds of every step of the run of `es` from `s`: of the state before
it, the event and the state after it. -/
def Along (Q : σ → ε → σ → Prop) : σ → List ε → Prop
  | _, [] => True
  | s, e :: es => ∀ s', step s e = some s' → Q s e s' ∧ Along Q s' es

/-- `P` holds of every state of the run of `es` from `s`. -/
def Always (P : σ → Prop) (s : σ) (es : List ε) : Prop :=
  P s ∧ Along step (fun _ _ s' => P s') s es

/-- Each event can happen where it stands, and `Q` holds of the step. -/
def Total (Q : σ → ε → σ → Prop) : σ → List ε → Prop
  | _, [] => True
  | s, e :: es => ∃ s', step s e = some s' ∧ Q s e s' ∧ Total Q s' es

/-- `C` holds of each event in the state it finds. -/
def Before (C : σ → ε → Prop) : σ → List ε → Prop
  | _, [] => True
  | s, e :: es => C s e ∧ ∀ s', step s e = some s' → Before C s' es

variable {step}

@[simp] theorem exec_nil (s : σ) : exec step s [] = some s := rfl

theorem exec_cons (s : σ) (e : ε) (es : List ε) :
    exec step s (e :: es) = (step s e).bind fun s' => exec step s' es := rfl

theorem exec_append (s : σ) (es fs : List ε) :
    exec step s (es ++ fs) = (exec step s es).bind fun s' => exec step s' fs := by
  induction es generalizing s with
  | nil => rfl
  | cons e es ih =>
    rw [List.cons_append, exec_cons, exec_cons, Option.bind_assoc]
    exact Option.bind_congr fun s' _ => ih s'

theorem exec_snoc {s s' : σ} {es : List ε} (h : exec step s es = some s') (e : ε) :
    exec step s (es ++ [e]) = step s' e := by
  rw [exec_append, h]
  cases hs : step s' e <;> simp [exec_cons, hs]

/-! ### Reachable states -/

/-- An invariant of the steps is an invariant of the run. -/
theorem exec_inv {I : σ → Prop} (hstep : ∀ s e s', I s → step s e = some s' → I s') :
    ∀ {es : List ε} {s s' : σ}, I s → exec step s es = some s' → I s'
  | [], _, _, hs, h => by cases h; exact hs
  | e :: es, s, s', hs, h => by
    rw [exec_cons, Option.bind_eq_some_iff] at h
    obtain ⟨t, ht, h⟩ := h
    exact exec_inv hstep (hstep s e t hs ht) h

/-- What holds at the start of no events, and still holds when a step is added
to the events, holds of the events of any run and where it ends. -/
theorem exec_history {I : List ε → σ → Prop} {s₀ : σ} (h0 : I [] s₀)
    (hstep : ∀ es s e s', I es s → step s e = some s' → I (es ++ [e]) s') {es : List ε} :
    ∀ {s : σ}, exec step s₀ es = some s → I es s := by
  induction es using List.reverseRecOn with
  | nil =>
    intro s h
    cases h
    exact h0
  | append_singleton es e ih =>
    intro s h
    rw [exec_append, Option.bind_eq_some_iff] at h
    obtain ⟨t, ht, h⟩ := h
    rw [exec_cons, Option.bind_eq_some_iff] at h
    obtain ⟨s', hs', h⟩ := h
    cases h
    exact hstep es t e s (ih ht) hs'

/-- What holds at the start and is kept by every step holds wherever a run
can get. -/
theorem reach_inv {I : σ → Prop} {s₀ s : σ} (h0 : I s₀)
    (hstep : ∀ s e s', I s → step s e = some s' → I s') (h : Reach step s₀ s) : I s := by
  obtain ⟨es, hes⟩ := h
  exact exec_inv hstep h0 hes

/-! ### Properties of the steps of a run -/

theorem Along.mono {Q R : σ → ε → σ → Prop} (h : ∀ s e s', Q s e s' → R s e s') :
    ∀ {es : List ε} {s : σ}, Along step Q s es → Along step R s es
  | [], _, _ => trivial
  | _ :: _, _, hq => fun s' hs => ⟨h _ _ _ (hq s' hs).1, (hq s' hs).2.mono h⟩

theorem along_and {Q R : σ → ε → σ → Prop} : ∀ {es : List ε} {s : σ},
    Along step (fun s e s' => Q s e s' ∧ R s e s') s es ↔ Along step Q s es ∧ Along step R s es
  | [], _ => by simp [Along]
  | e :: es, s => by
    constructor
    · intro h
      refine ⟨fun s' hs => ⟨(h s' hs).1.1, (along_and.mp (h s' hs).2).1⟩, fun s' hs => ?_⟩
      exact ⟨(h s' hs).1.2, (along_and.mp (h s' hs).2).2⟩
    · intro ⟨hq, hr⟩ s' hs
      exact ⟨⟨(hq s' hs).1, (hr s' hs).1⟩, along_and.mpr ⟨(hq s' hs).2, (hr s' hs).2⟩⟩

/-- Two properties that agree on every step taken from a state of `I`, where
either of them keeps `I`, hold along the same runs. -/
theorem along_congr (I : σ → Prop) {C Q : σ → ε → σ → Prop}
    (hCQ : ∀ s e s', I s → step s e = some s' → (C s e s' ↔ Q s e s'))
    (hI : ∀ s e s', I s → step s e = some s' → C s e s' → I s') :
    ∀ {es : List ε} {s : σ}, I s → (Along step C s es ↔ Along step Q s es)
  | [], _, _ => Iff.rfl
  | e :: es, s, hs => by
    refine forall_congr' fun s' => imp_congr_right fun hstep => ?_
    rw [hCQ s e s' hs hstep]
    refine and_congr_right fun hq => ?_
    exact along_congr I hCQ hI (hI s e s' hs hstep ((hCQ s e s' hs hstep).mpr hq))

/-- A property of states holds all along the runs whose steps meet the
condition under which one step keeps it, and along no others. -/
theorem always_iff_along (I : σ → Prop) {P : σ → Prop} {C : σ → ε → σ → Prop} {s₀ : σ}
    (h0 : I s₀) (hP0 : P s₀)
    (hCP : ∀ s e s', I s → P s → step s e = some s' → (C s e s' ↔ P s'))
    (hI : ∀ s e s', I s → P s → step s e = some s' → I s') (es : List ε) :
    Always step P s₀ es ↔ Along step C s₀ es := by
  unfold Always
  rw [and_iff_right hP0]
  symm
  refine along_congr (fun s => I s ∧ P s) (fun s e s' h => hCP s e s' h.1 h.2) ?_ ⟨h0, hP0⟩
  exact fun s e s' h hs hc => ⟨hI s e s' h.1 h.2 hs, (hCP s e s' h.1 h.2 hs).mp hc⟩

/-- A property of every state holds of the last one. -/
theorem Always.of_exec {P : σ → Prop} : ∀ {es : List ε} {s s' : σ}, Always step P s es →
    exec step s es = some s' → P s'
  | [], _, _, h, he => by cases he; exact h.1
  | e :: es, s, s', h, he => by
    rw [exec_cons, Option.bind_eq_some_iff] at he
    obtain ⟨t, ht, he⟩ := he
    exact Always.of_exec ⟨(h.2 t ht).1, (h.2 t ht).2⟩ he

/-- A property of every state holds before every step. -/
theorem Always.along_pre {P : σ → Prop} : ∀ {es : List ε} {s : σ}, Always step P s es →
    Along step (fun t _ _ => P t) s es
  | [], _, _ => trivial
  | _ :: _, _, h => fun s' hs => ⟨h.1, Always.along_pre ⟨(h.2 s' hs).1, (h.2 s' hs).2⟩⟩

/-- Along a run means along the rest of it. -/
theorem Along.rest {Q : σ → ε → σ → Prop} {fs : List ε} : ∀ {es : List ε} {s t : σ},
    Along step Q s (es ++ fs) → exec step s es = some t → Along step Q t fs
  | [], _, _, h, he => by cases he; exact h
  | e :: es, s, t, h, he => by
    rw [exec_cons, Option.bind_eq_some_iff] at he
    obtain ⟨s', hs', he⟩ := he
    exact (h s' hs').2.rest he

/-- Where every step is one of `R`, as `f` sees the states, so is the run. -/
theorem Along.steps {τ : Type*} {R : τ → τ → Prop} {f : σ → τ} : ∀ {es : List ε} {s s' : σ},
    Along step (fun t _ t' => R (f t) (f t')) s es → exec step s es = some s' →
    Relation.ReflTransGen R (f s) (f s')
  | [], _, _, _, he => by cases he; exact .refl
  | e :: es, s, s', h, he => by
    rw [exec_cons, Option.bind_eq_some_iff] at he
    obtain ⟨t, ht, he⟩ := he
    exact .head (h t ht).1 ((h t ht).2.steps he)

/-- Along a run means at every place of it. -/
theorem along_iff_split {Q : σ → ε → σ → Prop} : ∀ {es : List ε} {s : σ}, Along step Q s es ↔
    ∀ pre e post, es = pre ++ e :: post → ∀ t t', exec step s pre = some t → step t e = some t' →
      Q t e t'
  | [], s => by simp [Along]
  | d :: es, s => by
    constructor
    · intro h pre e post heq t t' ht hstep
      cases pre with
      | nil =>
        cases ht
        obtain ⟨rfl, -⟩ := List.cons.inj heq
        exact (h t' hstep).1
      | cons p pre =>
        obtain ⟨rfl, rfl⟩ := List.cons.inj heq
        rw [exec_cons, Option.bind_eq_some_iff] at ht
        obtain ⟨s', hs', ht⟩ := ht
        exact along_iff_split.mp (h s' hs').2 pre e post rfl t t' ht hstep
    · intro h s' hs'
      refine ⟨h [] d es rfl s s' rfl hs', along_iff_split.mpr fun pre e post heq t t' ht hstep => ?_⟩
      exact h (d :: pre) e post (by rw [heq]; rfl) t t' (by rw [exec_cons, hs']; exact ht) hstep

/-- A property every step from a reachable state has holds along every run. -/
theorem along_of_reach {Q : σ → ε → σ → Prop} {s₀ : σ}
    (h : ∀ s e s', Reach step s₀ s → step s e = some s' → Q s e s') (es : List ε) :
    Along step Q s₀ es := by
  rw [along_iff_split]
  exact fun pre e _ _ t t' ht hstep => h t e t' ⟨pre, ht⟩ hstep

/-- What each event needs in order to happen, and for `Q` to hold then, the
events of a run need one after another. -/
theorem total_iff_before (I : σ → Prop) {C : σ → ε → Prop} {Q : σ → ε → σ → Prop}
    (hCQ : ∀ s e, I s → (C s e ↔ ∃ s', step s e = some s' ∧ Q s e s'))
    (hI : ∀ s e s', I s → step s e = some s' → I s') :
    ∀ {es : List ε} {s : σ}, I s → (Total step Q s es ↔ Before step C s es)
  | [], _, _ => Iff.rfl
  | e :: es, s, hs => by
    constructor
    · intro h
      obtain ⟨s', hstep, hq, h⟩ := h
      refine ⟨(hCQ s e hs).mpr ⟨s', hstep, hq⟩, fun t ht => ?_⟩
      cases hstep.symm.trans ht
      exact (total_iff_before I hCQ hI (hI s e s' hs hstep)).mp h
    · intro h
      obtain ⟨s', hstep, hq⟩ := (hCQ s e hs).mp h.1
      exact ⟨s', hstep, hq, (total_iff_before I hCQ hI (hI s e s' hs hstep)).mpr (h.2 s' hstep)⟩

end Run
end AthemeContrib
