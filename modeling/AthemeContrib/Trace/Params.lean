/-
# os_trace: what an action takes off its parameters

`KILL` takes a reason off the front of the argument string, a word or a text
in double quotes, and `AKILL` before it a token and a duration. `Reason` and
`OwnParams` are the grammar of that: which strings an action accepts, and what
is left of them for the criteria.

Key definitions: `Reason`, `OwnParams`.
Key theorems: `reasonExtract_iff`, `leaves_akill`, `prepare_iff`.
-/
import AthemeContrib.Trace.Model
import Mathlib.Data.List.Basic

namespace AthemeContrib
namespace Trace

open CStr

variable {sv : Services} {saved : CStr}

/-! ### Reasons -/

/-- The character that ends a reason. -/
def terminator (quotes : Bool) : Char := if quotes then '"' else ' '

theorem reasonLoop_cut (quotes : Bool) {w : CStr} (hw : terminator quotes ∉ w) (rest : CStr) :
    reasonLoop quotes (w ++ terminator quotes :: rest) = (w, rest, false) := by
  induction w with
  | nil => cases quotes <;> rfl
  | cons c w ih =>
    rw [List.mem_cons, not_or] at hw
    rw [List.cons_append, reasonLoop, ih hw.2]
    cases quotes
    · rw [if_neg (by simp), if_neg fun h => hw.1 h.2.symm]
    · rw [if_neg fun h => hw.1 h.2.symm, if_neg (by simp)]

theorem reasonLoop_end (quotes : Bool) {w : CStr} (hw : terminator quotes ∉ w) :
    reasonLoop quotes w = (w, [], quotes) := by
  induction w with
  | nil => rfl
  | cons c w ih =>
    rw [List.mem_cons, not_or] at hw
    rw [reasonLoop, ih hw.2]
    cases quotes
    · rw [if_neg (by simp), if_neg fun h => hw.1 h.2.symm]
    · rw [if_neg fun h => hw.1 h.2.symm, if_neg (by simp)]

/-- A reason that is ended is returned; what is left is never where it
starts. -/
theorem reasonFrom_cut (quotes : Bool) {w : CStr} (hw : terminator quotes ∉ w) (rest : CStr) :
    reasonFrom (w ++ terminator quotes :: rest) quotes = (some w, if rest = [] then none else some rest) := by
  have hne : some (w ++ terminator quotes :: rest) ≠ if rest = [] then none else some rest := by
    by_cases h0 : rest = []
    · rw [if_pos h0]
      exact Option.some_ne_none _
    · rw [if_neg h0, Ne, Option.some.injEq]
      intro he
      have := congrArg List.length he
      simp at this
      omega
  unfold reasonFrom
  simp only [reasonLoop_cut quotes hw rest, if_neg hne, Bool.false_eq_true, if_false]

theorem reasonFrom_end (quotes : Bool) {w : CStr} (hw : terminator quotes ∉ w) :
    reasonFrom w quotes = (if quotes then none else some w, none) := by
  unfold reasonFrom
  simp only [reasonLoop_end quotes hw, if_true, reduceCtorEq, if_false]
  cases quotes <;> rfl

/-- `rest` is left of the string after the reason `r`, which is a word and
the blank after it, or a text in quotes. -/
inductive Reason : CStr → CStr → CStr → Prop
  | word {b w rest : CStr} (hb : Blank b) (h0 : w ≠ []) (hw : ' ' ∉ w) (hq : w.head? ≠ some '"') :
      Reason (b ++ (w ++ ' ' :: rest)) w rest
  | quoted {b q rest : CStr} (hb : Blank b) (hq : '"' ∉ q) : Reason (b ++ '"' :: (q ++ '"' :: rest)) q rest

theorem Reason.ne_nil {s r rest : CStr} (h : Reason s r rest) : s ≠ [] := by
  rcases h with ⟨hb, h0, hw, hq⟩ | ⟨hb, hq⟩
  · simp
  · simp

theorem dropBlanks {b t : CStr} (hb : Blank b) (ht : t.head? ≠ some ' ') :
    (b ++ t).dropWhile (· = ' ') = t := dropWhile_blanks (fun _ => decide_eq_true_iff) hb ht

theorem reasonExtract_quoted {b s : CStr} (hb : Blank b) :
    reasonExtract (b ++ '"' :: s) = reasonFrom s true := by
  unfold reasonExtract
  rw [dropBlanks hb (by simp)]
  rfl

theorem reasonExtract_word {b s : CStr} (hb : Blank b) (hs : s.head? ≠ some ' ') (hq : s.head? ≠ some '"') :
    reasonExtract (b ++ s) = reasonFrom s false := by
  unfold reasonExtract
  rw [dropBlanks hb hs]
  split
  · exact absurd rfl hq
  · rfl

theorem some_of_ite {r r' rest rest' : CStr}
    (h : (some r', if rest' = [] then none else some rest') = (some r, some rest)) :
    r' = r ∧ rest' = rest ∧ rest ≠ [] := by
  rw [Prod.mk.injEq, Option.some.injEq] at h
  by_cases h0 : rest' = []
  · rw [if_pos h0] at h
    exact absurd h.2 (by simp)
  · rw [if_neg h0, Option.some.injEq] at h
    exact ⟨h.1, h.2, h.2 ▸ h0⟩

/-- **`reason_extract` finds a reason and leaves something exactly where there
is one with something after it.** -/
theorem reasonExtract_iff {s r rest : CStr} :
    reasonExtract s = (some r, some rest) ↔ Reason s r rest ∧ rest ≠ [] := by
  constructor
  · intro h
    obtain ⟨b, t, rfl, hb, ht⟩ := exists_blanks s
    by_cases hq : t.head? = some '"'
    · obtain ⟨u, rfl⟩ := List.head?_eq_some_iff.mp hq
      rw [reasonExtract_quoted hb] at h
      by_cases hmem : '"' ∈ u
      · obtain ⟨q, v, rfl, hqn⟩ := List.eq_append_cons_of_mem hmem
        have hcut : reasonFrom (q ++ '"' :: v) true = _ := reasonFrom_cut true hqn v
        rw [hcut] at h
        obtain ⟨rfl, rfl, h0⟩ := some_of_ite h
        exact ⟨.quoted hb hqn, h0⟩
      · rw [reasonFrom_end true hmem] at h
        cases h
    · rw [reasonExtract_word hb ht hq] at h
      by_cases hmem : ' ' ∈ t
      · obtain ⟨w, v, rfl, hw⟩ := List.eq_append_cons_of_mem hmem
        have hcut : reasonFrom (w ++ ' ' :: v) false = _ := reasonFrom_cut false hw v
        rw [hcut] at h
        obtain ⟨rfl, rfl, h0⟩ := some_of_ite h
        have hw0 : w ≠ [] := by
          rintro rfl
          exact ht rfl
        refine ⟨.word hb hw0 hw fun hh => hq ?_, h0⟩
        rw [List.head?_append_of_ne_nil _ hw0]
        exact hh
      · rw [reasonFrom_end false hmem] at h
        cases h
  · intro ⟨hr, h0⟩
    rcases hr with ⟨hb, hw0, hw, hq⟩ | ⟨hb, hq⟩
    · have hhead : ∀ {c : Char}, (r ++ ' ' :: rest).head? = some c → r.head? = some c := by
        intro c hc
        rwa [List.head?_append_of_ne_nil _ hw0] at hc
      have hblank : r.head? ≠ some ' ' := fun hh => hw (List.mem_of_head? hh)
      rw [reasonExtract_word hb (fun hh => hblank (hhead hh)) fun hh => hq (hhead hh)]
      exact (reasonFrom_cut false hw rest).trans (by rw [if_neg h0])
    · rw [reasonExtract_quoted hb]
      exact (reasonFrom_cut true hq rest).trans (by rw [if_neg h0])

/-! ### Tokens and durations -/

/-- The string starts with the token `!T` or `!P`. -/
def Tokened (s : CStr) : Prop :=
  ∃ c t, s = '!' :: c :: t ∧ (c.toLower = 't' ∨ c.toLower = 'p') ∧ (t = [] ∨ t.head? = some ' ')

theorem akillToken_of_not {s : CStr} (h : ¬ Tokened s) : akillToken s = (none, s) := by
  unfold akillToken
  split
  · rename_i c t
    split_ifs with hc
    · split
      · exact absurd ⟨c, _, rfl, hc, Or.inr rfl⟩ h
      · exact absurd ⟨c, _, rfl, hc, Or.inl rfl⟩ h
      · rfl
    · rfl
  · rfl

theorem akillToken_blank {c : Char} (hc : c.toLower = 't' ∨ c.toLower = 'p') (s : CStr) :
    akillToken ('!' :: c :: ' ' :: s) = (some c.toLower, s) := if_pos hc

theorem akillToken_end {c : Char} (hc : c.toLower = 't' ∨ c.toLower = 'p') :
    akillToken ['!', c] = (some c.toLower, []) := if_pos hc

/-- `rest` is left of the arguments `s` of the action for the criteria. -/
inductive OwnParams : ActionConstructor → CStr → CStr → Prop
  | print {rest} : OwnParams .print rest rest
  | count {rest} : OwnParams .count rest rest
  | kill {s r rest} (h : Reason s r rest) (h0 : rest ≠ []) : OwnParams .kill s rest
  | akill {b s r rest} (hb : Blank b) (hs : s.head? ≠ some ' ') (ht : ¬ Tokened s) (h : Reason s r rest)
      (h0 : rest ≠ []) : OwnParams .akill (b ++ s) rest
  | akillPermanent {b c s r rest} (hb : Blank b) (hc : c.toLower = 'p') (h : Reason s r rest)
      (h0 : rest ≠ []) : OwnParams .akill (b ++ '!' :: c :: ' ' :: s) rest
  | akillTimed {b c b' d s r rest} (hb : Blank b) (hc : c.toLower = 't') (hb' : Blank b') (hd0 : d ≠ [])
      (hd : ' ' ∉ d) (hv : akillDuration d ≠ 0) (h : Reason s r rest) (h0 : rest ≠ []) :
      OwnParams .akill (b ++ '!' :: c :: ' ' :: (b' ++ d ++ ' ' :: s)) rest

/-- The action is prepared, and `rest` is left. -/
def Leaves (p : Prepared Action) (rest : CStr) : Prop := ∃ act saved, p = .made act (some rest) saved

theorem exists_reason {s rest : CStr} :
    (∃ r, reasonExtract s = (some r, some rest)) ↔ rest ≠ [] ∧ ∃ r, Reason s r rest := by
  simp only [reasonExtract_iff, exists_and_right]
  exact and_comm

theorem leaves_kill {s rest : CStr} :
    Leaves (traceKillPrepare (some s) saved) rest ↔ rest ≠ [] ∧ ∃ r, Reason s r rest := by
  calc Leaves (traceKillPrepare (some s) saved) rest
      ↔ ∃ r, reasonExtract s = (some r, some rest) := by
        unfold Leaves traceKillPrepare
        simp only
        split
        · rename_i h
          simp [h]
        · rename_i r a h
          simp [h, eq_comm]
    _ ↔ rest ≠ [] ∧ ∃ r, Reason s r rest := exists_reason

theorem leaves_akillReason {d : ℤ} {s rest : CStr} :
    Leaves (akillReason d s saved) rest ↔ rest ≠ [] ∧ ∃ r, Reason s r rest := by
  calc Leaves (akillReason d s saved) rest
      ↔ ∃ r, reasonExtract s = (some r, some rest) := by
        unfold Leaves akillReason
        split
        · rename_i h
          simp [h]
        · rename_i r a h
          simp [h, eq_comm]
    _ ↔ rest ≠ [] ∧ ∃ r, Reason s r rest := exists_reason

theorem eq_of_blanks {b b' t t' : CStr} (hb : Blank b) (hb' : Blank b') (ht : t.head? ≠ some ' ')
    (ht' : t'.head? ≠ some ' ') (h : b ++ t = b' ++ t') : t = t' := by
  rw [← dropBlanks hb ht, h, dropBlanks hb' ht']

/-- What `AKILL` accepts after its token, for each token. -/
theorem ownParams_akill {b t rest : CStr} (hb : Blank b) (ht : t.head? ≠ some ' ') :
    OwnParams .akill (b ++ t) rest ↔ rest ≠ [] ∧
      (¬ Tokened t ∧ (∃ r, Reason t r rest) ∨
        (∃ c s, t = '!' :: c :: ' ' :: s ∧ c.toLower = 'p' ∧ ∃ r, Reason s r rest) ∨
        ∃ c s d u, t = '!' :: c :: ' ' :: s ∧ c.toLower = 't' ∧ strtok none [' '] s = (some d, u) ∧
          akillDuration d ≠ 0 ∧ ∃ r, Reason u r rest) := by
  constructor
  · intro h
    generalize hs : b ++ t = s at h
    cases h with
    | akill hb' hs' htok h h0 =>
      have he := eq_of_blanks hb hb' ht hs' hs
      rw [he]
      exact ⟨h0, Or.inl ⟨htok, _, h⟩⟩
    | akillPermanent hb' hc h h0 =>
      exact ⟨h0, Or.inr (Or.inl ⟨_, _, eq_of_blanks hb hb' ht (by simp) hs, hc, _, h⟩)⟩
    | akillTimed hb' hc hb'' hd0 hd hv h h0 =>
      exact ⟨h0, Or.inr (Or.inr ⟨_, _, _, _, eq_of_blanks hb hb' ht (by simp) hs, hc,
        strtok_first hb'' hd0 hd _, hv, _, h⟩)⟩
  · rintro ⟨h0, ⟨htok, r, h⟩ | ⟨c, s, rfl, hc, r, h⟩ | ⟨c, s, d, u, rfl, hc, hst, hv, r, h⟩⟩
    · exact .akill hb ht htok h h0
    · exact .akillPermanent hb hc h h0
    · rcases exists_word s with hbl | ⟨b', w, hb', hw0, hw, rfl | ⟨x, rfl⟩⟩
      · rw [strtok_blank hbl] at hst
        cases hst
      · -- after the only word there is nothing, and no reason
        rw [strtok_only hb' hw0 hw] at hst
        cases hst
        exact absurd rfl h.ne_nil
      · rw [strtok_first hb' hw0 hw] at hst
        cases hst
        exact .akillTimed hb hc hb' hw0 hw hv h h0

theorem leaves_akillTimed {s rest : CStr} : Leaves (akillTimed s saved) rest ↔
    rest ≠ [] ∧ ∃ d u, strtok none [' '] s = (some d, u) ∧ akillDuration d ≠ 0 ∧ ∃ r, Reason u r rest := by
  have hnull : ¬ Leaves .null rest := by
    intro ⟨act, saved', h⟩
    cases h
  unfold akillTimed
  rw [strtok_some]
  rcases hst : strtok none [' '] s with ⟨d, u⟩
  by_cases hu : u = []
  · -- nothing is left for a reason
    rw [hu]
    apply iff_of_false hnull
    rintro ⟨-, d', u', he, -, r, hr⟩
    cases he
    exact hr.ne_nil rfl
  · simp only [strtok_rest hu]
    cases d with
    | none =>
      refine iff_of_false ?_ ?_
      · intro ⟨act, saved', h⟩
        cases h
      · rintro ⟨-, d', u', he, -⟩
        cases he
    | some d =>
      have hiff : (∃ d' u', (some d, u) = (some d', u') ∧ akillDuration d' ≠ 0 ∧ ∃ r, Reason u' r rest) ↔
          akillDuration d ≠ 0 ∧ ∃ r, Reason u r rest := by
        constructor
        · intro ⟨d', u', he, hr⟩
          cases he
          exact hr
        · exact fun hr => ⟨d, u, rfl, hr⟩
      rw [hiff]
      simp only
      by_cases hd : akillDuration d = 0
      · rw [if_pos hd]
        exact iff_of_false hnull fun h => h.2.1 hd
      · rw [if_neg hd, leaves_akillReason]
        exact and_congr_right fun _ => (and_iff_right hd).symm

/-- What `AKILL` leaves, for each token. -/
theorem leaves_akill {b t rest : CStr} (hb : Blank b) (ht : t.head? ≠ some ' ') :
    Leaves (traceAkillPrepare sv (some (b ++ t)) saved) rest ↔ rest ≠ [] ∧
      (¬ Tokened t ∧ (∃ r, Reason t r rest) ∨
        (∃ c s, t = '!' :: c :: ' ' :: s ∧ c.toLower = 'p' ∧ ∃ r, Reason s r rest) ∨
        ∃ c s d u, t = '!' :: c :: ' ' :: s ∧ c.toLower = 't' ∧ strtok none [' '] s = (some d, u) ∧
          akillDuration d ≠ 0 ∧ ∃ r, Reason u r rest) := by
  unfold traceAkillPrepare
  simp only [dropBlanks hb ht]
  by_cases htok : Tokened t
  · obtain ⟨c, u, rfl, hc, hu⟩ := htok
    have htok : Tokened ('!' :: c :: u) := ⟨c, u, rfl, hc, hu⟩
    rcases hu with rfl | hu
    · -- nothing follows the token
      rw [akillToken_end hc]
      refine iff_of_false ?_ ?_
      · rcases hc with hc | hc
        · rw [hc]
          refine fun h => ?_
          obtain ⟨-, d, u, he, -⟩ := leaves_akillTimed.mp h
          cases he
        · rw [hc]
          refine fun h => ?_
          obtain ⟨-, r, hr⟩ := leaves_akillReason.mp h
          exact hr.ne_nil rfl
      · rintro ⟨-, ⟨hno, -⟩ | ⟨c', s, he, -⟩ | ⟨c', s, d, u, he, -⟩⟩
        · exact hno htok
        · cases he
        · cases he
    · obtain ⟨s, rfl⟩ := List.head?_eq_some_iff.mp hu
      rw [akillToken_blank hc]
      rcases hc with hc | hc
      · rw [hc]
        refine leaves_akillTimed.trans (and_congr_right fun _ => ?_)
        constructor
        · intro ⟨d, u, he, hr⟩
          exact Or.inr (Or.inr ⟨c, s, d, u, rfl, hc, he, hr⟩)
        · rintro (⟨hno, -⟩ | ⟨c', s', he, hc', -⟩ | ⟨c', s', d, u, he, hc', hr⟩)
          · exact absurd htok hno
          · cases he
            exact absurd (hc.symm.trans hc') (by decide)
          · cases he
            exact ⟨d, u, hr⟩
      · rw [hc]
        apply leaves_akillReason.trans
        refine and_congr_right fun _ => ?_
        constructor
        · exact fun hr => Or.inr (Or.inl ⟨c, s, rfl, hc, hr⟩)
        · rintro (⟨hno, -⟩ | ⟨c', s', he, hc', hr⟩ | ⟨c', s', d, u, he, hc', -⟩)
          · exact absurd htok hno
          · cases he
            exact hr
          · cases he
            exact absurd (hc.symm.trans hc') (by decide)
  · rw [akillToken_of_not htok]
    apply leaves_akillReason.trans
    refine and_congr_right fun _ => ?_
    constructor
    · exact fun hr => Or.inl ⟨htok, hr⟩
    · rintro (⟨-, hr⟩ | ⟨c, s, rfl, hc, -⟩ | ⟨c, s, d, u, rfl, hc, -⟩)
      · exact hr
      · exact absurd ⟨c, _, rfl, Or.inr hc, Or.inr rfl⟩ htok
      · exact absurd ⟨c, _, rfl, Or.inl hc, Or.inr rfl⟩ htok

/-- **What an action accepts, and what it leaves for the criteria.** -/
theorem prepare_iff {cons : ActionConstructor} {s rest : CStr} :
    Leaves (cons.prepare sv (some s) saved) rest ↔ OwnParams cons s rest := by
  cases cons with
  | print =>
    constructor
    · intro ⟨act, saved', h⟩
      cases h
      exact .print
    · intro h
      cases h
      exact ⟨_, _, rfl⟩
  | count =>
    constructor
    · intro ⟨act, saved', h⟩
      cases h
      exact .count
    · intro h
      cases h
      exact ⟨_, _, rfl⟩
  | kill =>
    apply leaves_kill.trans
    constructor
    · intro ⟨h0, r, h⟩
      exact .kill h h0
    · intro h
      cases h with
      | kill h h0 => exact ⟨h0, _, h⟩
  | akill =>
    obtain ⟨b, t, rfl, hb, ht⟩ := exists_blanks s
    exact (leaves_akill hb ht).trans (ownParams_akill hb ht).symm

end Trace
end AthemeContrib
