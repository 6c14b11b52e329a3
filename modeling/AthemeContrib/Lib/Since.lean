/-
# What was so since the last time it became so

A property of states that some steps bring about, some end, and all others leave as it
is: it holds at the end of a run exactly if there was a step that brought it about and
none has ended it since, or it held at the start and none has ended it at all
(`since_or_never`). `B` says of an event, in the state it finds, that it brings the
property about, and `A` that it ends it; a step that does both brings it about.

Key definitions: `Never`, `Since`.
Key theorems: `since_snoc`, `since_iff_split`, `since_or_never`, `since_iff`.
-/
import AthemeContrib.Lib.Run

namespace AthemeContrib
namespace Run

variable {σ ε : Type*} (step : σ → ε → Option σ)

/-- No event of the run of `es` from `s` is an `A` in the state it finds. -/
def Never (A : σ → ε → Prop) (s : σ) (es : List ε) : Prop := Along step (fun t e _ => ¬ A t e) s es

/-- In the run of `es` from `s₀` there is a `B`, and no `A` after it. -/
def Since (A B : σ → ε → Prop) (s₀ : σ) (es : List ε) : Prop :=
  ∃ pre e post t t', es = pre ++ e :: post ∧ exec step s₀ pre = some t ∧ step t e = some t' ∧ B t e ∧
    Never step A t' post

variable {step} {A B : σ → ε → Prop} {s₀ s s' : σ} {e : ε} {es : List ε}

theorem never_nil : Never step A s [] := trivial

/-- What does not look at the state is never the case if it is not of any event. -/
theorem Never.of_forall {A : ε → Prop} : ∀ {es : List ε} {s : σ}, (∀ e ∈ es, ¬ A e) →
    Never step (fun _ e => A e) s es
  | [], _, _ => trivial
  | e :: _, _, h => fun _ _ =>
    ⟨h e List.mem_cons_self, Never.of_forall fun d hd => h d (List.mem_cons_of_mem e hd)⟩

/-- And only then, where the run goes through. -/
theorem Never.forall {A : ε → Prop} : ∀ {es : List ε} {s s' : σ}, Never step (fun _ e => A e) s es →
    exec step s es = some s' → ∀ e ∈ es, ¬ A e
  | [], _, _, _, _ => by simp
  | e :: es, s, s', h, hs => by
    rw [exec_cons, Option.bind_eq_some_iff] at hs
    obtain ⟨t, ht, hs⟩ := hs
    obtain ⟨he, h⟩ := h t ht
    intro d hd
    rcases List.mem_cons.mp hd with rfl | hd
    · exact he
    · exact Never.forall h hs d hd

theorem never_snoc : ∀ {es : List ε} {s t t' : σ}, exec step s es = some t → step t e = some t' →
    (Never step A s (es ++ [e]) ↔ Never step A s es ∧ ¬ A t e)
  | [], s, t, t', hs, he => by
    cases hs
    exact ⟨fun h => ⟨never_nil, (h t' he).1⟩, fun h u _ => ⟨h.2, never_nil⟩⟩
  | d :: es, s, t, t', hs, he => by
    rw [exec_cons, Option.bind_eq_some_iff] at hs
    obtain ⟨u, hu, hs⟩ := hs
    constructor
    · intro h
      obtain ⟨hd, h⟩ := h u hu
      obtain ⟨hes, he'⟩ := (never_snoc hs he).mp h
      refine ⟨fun u' hu' => ?_, he'⟩
      cases hu.symm.trans hu'
      exact ⟨hd, hes⟩
    · rintro ⟨h, he'⟩ u' hu'
      cases hu.symm.trans hu'
      exact ⟨(h u hu).1, (never_snoc hs he).mpr ⟨(h u hu).2, he'⟩⟩

/-- **One more step**: it is a `B`, or there was one before, and this is no `A`. -/
theorem since_snoc (hs : exec step s₀ es = some s) (he : step s e = some s') :
    Since step A B s₀ (es ++ [e]) ↔ B s e ∨ Since step A B s₀ es ∧ ¬ A s e := by
  constructor
  · rintro ⟨pre, d, post, t, t', heq, ht, hd, hB, hnever⟩
    rcases List.eq_nil_or_concat post with rfl | ⟨post, e', rfl⟩
    · obtain ⟨rfl, hde⟩ := List.append_inj' heq rfl
      cases hde
      cases hs.symm.trans ht
      exact Or.inl hB
    · rw [List.concat_eq_append, ← List.cons_append, ← List.append_assoc] at heq
      obtain ⟨rfl, hee⟩ := List.append_inj' heq rfl
      cases hee
      have hpost : exec step t' post = some s := by
        rwa [exec_append, ht, Option.bind_some, exec_cons, hd, Option.bind_some] at hs
      rw [List.concat_eq_append, never_snoc hpost he] at hnever
      exact Or.inr ⟨⟨pre, d, post, t, t', rfl, ht, hd, hB, hnever.1⟩, hnever.2⟩
  · rintro (hB | ⟨⟨pre, d, post, t, t', rfl, ht, hd, hB, hnever⟩, hA⟩)
    · exact ⟨es, e, [], s, s', rfl, hs, he, hB, never_nil⟩
    · have hpost : exec step t' post = some s := by
        rwa [exec_append, ht, Option.bind_some, exec_cons, hd, Option.bind_some] at hs
      exact ⟨pre, d, post ++ [e], t, t', by simp, ht, hd, hB, (never_snoc hpost he).mpr ⟨hnever, hA⟩⟩

/-- An `A` that is told by the event alone. -/
theorem since_iff_split {A : ε → Prop} (hs : exec step s₀ es = some s) :
    Since step (fun _ e => A e) B s₀ es ↔ ∃ pre e post t, es = pre ++ e :: post ∧
      exec step s₀ pre = some t ∧ B t e ∧ ∀ d ∈ post, ¬ A d := by
  constructor
  · rintro ⟨pre, e, post, t, t', rfl, ht, he, hB, hnever⟩
    rw [exec_append, ht, Option.bind_some, exec_cons, he, Option.bind_some] at hs
    exact ⟨pre, e, post, t, rfl, ht, hB, hnever.forall hs⟩
  · rintro ⟨pre, e, post, t, rfl, ht, hB, hpost⟩
    rw [exec_append, ht, Option.bind_some, exec_cons, Option.bind_eq_some_iff] at hs
    obtain ⟨t', he, -⟩ := hs
    exact ⟨pre, e, post, t, t', rfl, ht, he, hB, .of_forall hpost⟩

/-- **A property holds since it was brought about, or has held from the start.** The
invariant `I` of the runs is there for the steps. -/
theorem since_or_never {P : σ → Prop} (I : σ → Prop) (h0 : I s₀)
    (hI : ∀ s e s', I s → step s e = some s' → I s')
    (hstep : ∀ s e s', I s → step s e = some s' → (P s' ↔ B s e ∨ P s ∧ ¬ A s e))
    (h : exec step s₀ es = some s) : P s ↔ Since step A B s₀ es ∨ P s₀ ∧ Never step A s₀ es := by
  refine (exec_history (I := fun es s => exec step s₀ es = some s ∧ I s ∧
    (P s ↔ Since step A B s₀ es ∨ P s₀ ∧ Never step A s₀ es)) ?_ ?_ h).2.2
  · refine ⟨rfl, h0, fun h => Or.inr ⟨h, never_nil⟩, ?_⟩
    rintro (⟨pre, e, post, _, _, heq, -⟩ | ⟨h, -⟩)
    · simp at heq
    · exact h
  · intro es s e s' ⟨hes, hs, ih⟩ he
    refine ⟨(exec_snoc hes e).trans he, hI s e s' hs he, ?_⟩
    rw [hstep s e s' hs he, ih, since_snoc hes he, never_snoc hes he]
    tauto

/-- What does not hold at the start holds exactly if it was brought about, and not ended
since. -/
theorem since_iff {P : σ → Prop} (I : σ → Prop) (h0 : I s₀) (hP : ¬ P s₀)
    (hI : ∀ s e s', I s → step s e = some s' → I s')
    (hstep : ∀ s e s', I s → step s e = some s' → (P s' ↔ B s e ∨ P s ∧ ¬ A s e))
    (h : exec step s₀ es = some s) : P s ↔ Since step A B s₀ es := by
  rw [since_or_never I h0 hI hstep h, or_iff_left fun hh => hP hh.1]

end Run
end AthemeContrib
