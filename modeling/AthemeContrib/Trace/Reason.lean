/-
# os_trace: the reason is split off whole

`reason_extract` skips blanks, takes a word or a text in quotes off the front,
and leaves the rest, or a null pointer if there is none. No character gets
lost but the blanks, the quotes and the one that ends the reason.

That nothing is left to take a reason from is what the last test is for, but
by then the pointer it compares with is null: a string of blanks has the empty
string as its reason (`reasonExtract_blank`), and `TRACE KILL` goes on with it.
On every other string the split is exact (`reason_split_iff`).

Key definitions: `argsAt`, `Splits`.
Key theorems: `reasonExtract_blank`, `reasonExtract_text`, `reason_split_iff`.
-/
import AthemeContrib.Trace.Params

namespace AthemeContrib
namespace Trace

open CStr

/-- `*args` at the text `rest`: a null pointer where nothing is left. -/
def argsAt (rest : CStr) : Option CStr := if rest = [] then none else some rest

/-- What is meant to become of `t`, which starts with no blank: the reason, and
`*args`. -/
structure Splits (t : CStr) (out : Option CStr × Option CStr) : Prop where
  null : out.1 = none ↔ t = [] ∨ ∃ u, t = '"' :: u ∧ '"' ∉ u
  quoted : ∀ q rest, t = '"' :: (q ++ '"' :: rest) → '"' ∉ q → out = (some q, argsAt rest)
  word : t ≠ [] → t.head? ≠ some '"' →
    out = (some (t.takeWhile (· ≠ ' ')), argsAt (t.dropWhile (· ≠ ' ')).tail)
  whole : ∀ r, out.1 = some r → t = '"' :: (r ++ '"' :: out.2.getD []) ∨
    t = r ++ ' ' :: out.2.getD [] ∨ t = r ∧ out.2 = none

/-- A word of the text, and what is behind the blank after it. -/
theorem word_or_last (t : CStr) : ' ' ∉ t ∧ t.takeWhile (· ≠ ' ') = t ∧ (t.dropWhile (· ≠ ' ')).tail = [] ∨
    ∃ w rest, t = w ++ ' ' :: rest ∧ ' ' ∉ w ∧ t.takeWhile (· ≠ ' ') = w ∧
      (t.dropWhile (· ≠ ' ')).tail = rest := by
  by_cases hmem : ' ' ∈ t
  · right
    obtain ⟨w, rest, rfl, hw⟩ := List.eq_append_cons_of_mem hmem
    have hall : ∀ c ∈ w, decide (c ≠ ' ') = true := by
      intro c hc
      exact decide_eq_true fun h => hw (h ▸ hc)
    refine ⟨w, rest, rfl, hw, ?_, ?_⟩
    · rw [List.takeWhile_append_of_pos hall, List.takeWhile_cons_of_neg (by simp), List.append_nil]
    · rw [List.dropWhile_append_of_pos hall, List.dropWhile_cons_of_neg (by simp), List.tail_cons]
  · left
    have hall : ∀ c ∈ t, decide (c ≠ ' ') = true := by
      intro c hc
      exact decide_eq_true fun h => hmem (h ▸ hc)
    refine ⟨hmem, List.takeWhile_eq_self_iff.mpr hall, ?_⟩
    rw [List.dropWhile_eq_nil_iff.mpr hall, List.tail_nil]

theorem getD_argsAt (rest : CStr) : (argsAt rest).getD [] = rest := by
  unfold argsAt
  by_cases h : rest = []
  · rw [if_pos h, h]
    rfl
  · rw [if_neg h]
    rfl

theorem reasonExtract_blank {s : CStr} (h : Blank s) : reasonExtract s = (some [], none) := by
  have hs : reasonExtract (s ++ []) = reasonFrom [] false := reasonExtract_word h nofun nofun
  rw [List.append_nil] at hs
  rw [hs]
  rfl

/-- **Any other string is split exactly.** -/
theorem reasonExtract_text {b t : CStr} (hb : Blank b) (h0 : t ≠ []) (ht : t.head? ≠ some ' ') :
    Splits t (reasonExtract (b ++ t)) := by
  by_cases hq : t.head? = some '"'
  · obtain ⟨u, rfl⟩ := List.head?_eq_some_iff.mp hq
    rw [reasonExtract_quoted hb]
    by_cases hmem : '"' ∈ u
    · obtain ⟨q, rest, rfl, hqn⟩ := List.eq_append_cons_of_mem hmem
      have hcut : reasonFrom (q ++ '"' :: rest) true = (some q, argsAt rest) := reasonFrom_cut true hqn rest
      rw [hcut]
      refine ⟨iff_of_false nofun ?_, ?_, fun _ hno => absurd rfl hno, ?_⟩
      · intro h
        rcases h with h | ⟨v, hv, hno⟩
        · cases h
        · cases hv
          exact hno hmem
      · intro q' rest' heq hq'
        have htail : q ++ '"' :: rest = q' ++ '"' :: rest' := List.tail_eq_of_cons_eq heq
        rw [← hcut, htail]
        exact reasonFrom_cut true hq' rest'
      · intro r hr
        cases hr
        left
        rw [getD_argsAt]
    · rw [reasonFrom_end true hmem]
      refine ⟨iff_of_true rfl (Or.inr ⟨u, rfl, hmem⟩), ?_, fun _ hno => absurd rfl hno, nofun⟩
      intro q rest heq _
      cases heq
      exact absurd (by simp) hmem
  · rw [reasonExtract_word hb ht hq]
    have hquote : ¬ ∃ u, t = '"' :: u ∧ '"' ∉ u := fun ⟨u, hu, _⟩ => hq (by rw [hu]; rfl)
    have hnull : ¬ (t = [] ∨ ∃ u, t = '"' :: u ∧ '"' ∉ u) := fun h => h.elim h0 hquote
    have hno : ∀ q rest, t = '"' :: (q ++ '"' :: rest) → '"' ∉ q →
        reasonFrom t false = (some q, argsAt rest) := by
      intro q rest heq _
      exact absurd (by rw [heq]; rfl) hq
    rcases word_or_last t with ⟨hmem, htake, hdrop⟩ | ⟨w, rest, heq, hw, htake, hdrop⟩
    · have hend : reasonFrom t false = (some t, argsAt []) := reasonFrom_end false hmem
      refine ⟨?_, hno, fun _ _ => by rw [htake, hdrop, hend], ?_⟩
      · rw [hend]
        exact iff_of_false nofun hnull
      · intro r hr
        rw [hend] at hr ⊢
        cases hr
        exact Or.inr (Or.inr ⟨rfl, rfl⟩)
    · have hcut : reasonFrom t false = (some w, argsAt rest) := by
        rw [heq]
        exact reasonFrom_cut false hw rest
      refine ⟨?_, hno, fun _ _ => by rw [htake, hdrop, hcut], ?_⟩
      · rw [hcut]
        exact iff_of_false nofun hnull
      · intro r hr
        rw [hcut] at hr ⊢
        cases hr
        exact Or.inr (Or.inl (by rw [getD_argsAt]; exact heq))

/-- **A reason is split off exactly unless there is nothing but blanks.** -/
theorem reason_split_iff (s : CStr) :
    Splits (s.dropWhile (· = ' ')) (reasonExtract s) ↔ ∃ c ∈ s, c ≠ ' ' := by
  have hblank : (¬ ∃ c ∈ s, c ≠ ' ') ↔ Blank s := by
    simp only [Blank, not_exists, not_and, not_not]
  obtain ⟨b, t, rfl, hb, ht⟩ := exists_blanks s
  rw [dropBlanks hb ht]
  by_cases h0 : t = []
  · rw [h0, List.append_nil] at hblank ⊢
    rw [← not_iff_not, hblank, reasonExtract_blank hb]
    refine iff_of_true (fun h => ?_) hb
    have hnull := h.null.mpr (Or.inl rfl)
    cases hnull
  · obtain ⟨c, t, rfl⟩ := List.exists_cons_of_ne_nil h0
    refine iff_of_true (reasonExtract_text hb h0 ht) ⟨c, by simp, fun h => ht (by rw [h]; rfl)⟩

/-- `!P` is all that `TRACE AKILL !P` says: the reason is looked for where
nothing is left. -/
theorem nothing_is_a_reason : ¬ Splits ("".toList.dropWhile (· = ' ')) (reasonExtract "".toList) :=
  fun h => nomatch h.null.mpr (Or.inl rfl)

end Trace
end AthemeContrib
