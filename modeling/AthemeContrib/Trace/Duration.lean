/-
# os_trace: the duration of TRACE AKILL !T

The number is read with `atol`, which stops at the largest long, and is
multiplied by 60 and by the minutes of the unit, each time in a long that
wraps around; only a product of zero is rejected. So a duration is exact up to
the longest one that fits a long, and past it exactly those are that come out
as zero and are rejected (`durations_exact_iff`).

Key definitions: `Duration`, `BadDuration`, `DurationsExact`, `InRange`.
Key theorems: `akillDuration_eq`, `akillDuration_bad`, `akillTimed_eq`, `durations_exact_iff`.
-/
import AthemeContrib.Trace.Compare

namespace AthemeContrib
namespace Trace

open CStr

variable {sv : Services} {saved : CStr}

/-! ### Tokens -/

/-- A unit as it is written, and its seconds. -/
inductive DurationUnit : CStr → ℕ → Prop
  | minutes : DurationUnit [] 60
  | hours {c : Char} (h : c = 'h' ∨ c = 'H') : DurationUnit [c] 3600
  | days {c : Char} (h : c = 'd' ∨ c = 'D') : DurationUnit [c] 86400
  | weeks {c : Char} (h : c = 'w' ∨ c = 'W') : DurationUnit [c] 604800

/-- The token is `n` in decimal digits, and a unit of `f` seconds. -/
def Duration (tok : CStr) (n f : ℕ) : Prop :=
  ∃ ds u, tok = ds ++ u ∧ ds ≠ [] ∧ (∀ c ∈ ds, isdigit c = true) ∧ n = digits ds ∧ DurationUnit u f

/-- The token's leading digits are absent, or denote zero, or something else
than a unit follows them. -/
def BadDuration (tok : CStr) : Prop :=
  tok.takeWhile isdigit = [] ∨ digits tok = 0 ∨
    ∃ c t, tok.dropWhile isdigit = c :: t ∧ c ∉ ['h', 'H', 'd', 'D', 'w', 'W']

theorem DurationUnit.head {u : CStr} {f : ℕ} (h : DurationUnit u f) : ∀ c ∈ u, isdigit c = false := by
  cases h with
  | minutes => exact fun c hc => by cases hc
  | hours h => rcases h with rfl | rfl <;> exact List.forall_mem_singleton.mpr (by decide)
  | days h => rcases h with rfl | rfl <;> exact List.forall_mem_singleton.mpr (by decide)
  | weeks h => rcases h with rfl | rfl <;> exact List.forall_mem_singleton.mpr (by decide)

theorem span_digits {ds u : CStr} (hds : ∀ c ∈ ds, isdigit c = true) (hu : ∀ c ∈ u, isdigit c = false) :
    (ds ++ u).takeWhile isdigit = ds ∧ (ds ++ u).dropWhile isdigit = u := by
  have hhead : u.takeWhile isdigit = [] ∧ u.dropWhile isdigit = u := by
    cases u with
    | nil => exact ⟨rfl, rfl⟩
    | cons c u =>
      have hc := hu c (by simp)
      exact ⟨List.takeWhile_cons_of_neg (by simp [hc]), List.dropWhile_cons_of_neg (by simp [hc])⟩
  rw [List.takeWhile_append_of_pos hds, List.dropWhile_append_of_pos hds, hhead.1, hhead.2, List.append_nil]
  exact ⟨rfl, rfl⟩

/-- The number a token starts with, where it starts with a digit. -/
theorem strtol_digit {tok : CStr} (h : tok.takeWhile isdigit ≠ []) :
    strtol tok = if digits tok < 2 ^ 63 then (digits tok : ℤ) else 2 ^ 63 - 1 := by
  obtain ⟨c, t, rfl, hc⟩ : ∃ c t, tok = c :: t ∧ isdigit c = true := by
    cases tok with
    | nil => exact absurd rfl h
    | cons c t =>
      refine ⟨c, t, rfl, ?_⟩
      by_contra hc
      exact h (List.takeWhile_cons_of_neg hc)
  have hdrop : (c :: t).dropWhile isspace = c :: t :=
    List.dropWhile_cons_of_neg (by simp [isspace_digit hc])
  unfold strtol
  rw [hdrop]
  split
  · rename_i heq
    exact absurd (List.cons.inj heq).1 (isdigit_ne hc rfl)
  · rename_i heq
    exact absurd (List.cons.inj heq).1 (isdigit_ne hc rfl)
  · split <;> omega

/-! ### The duration -/

/-- The number times the seconds of the unit, in a long. -/
theorem akillDuration_unit {tok u : CStr} {f : ℕ} (hdrop : tok.dropWhile isdigit = u)
    (hu : DurationUnit u f) :
    akillDuration tok = (strtol tok * f).bmod (2 ^ 64) := by
  unfold akillDuration
  simp only [hdrop]
  generalize strtol tok = n
  -- the number of minutes may have wrapped around already
  have hwrap : ∀ m : ℤ, ((n * 60).bmod (2 ^ 64) * m).bmod (2 ^ 64) = (n * (60 * m)).bmod (2 ^ 64) := by
    intro m
    rw [Int.bmod_mul_bmod, Int.mul_assoc]
  cases hu with
  | minutes => rfl
  | hours h => rcases h with rfl | rfl <;> exact hwrap 60
  | days h => rcases h with rfl | rfl <;> exact hwrap 1440
  | weeks h => rcases h with rfl | rfl <;> exact hwrap 10080

/-- **The duration of a token**: the number, at most the largest long, times
the unit's seconds, as it comes out in a long. -/
theorem akillDuration_eq {tok : CStr} {n f : ℕ} (h : Duration tok n f) :
    akillDuration tok = ((if n < 2 ^ 63 then (n : ℤ) else 2 ^ 63 - 1) * f).bmod (2 ^ 64) := by
  obtain ⟨ds, u, rfl, h0, hds, rfl, hu⟩ := h
  obtain ⟨htake, hdrop⟩ := span_digits hds hu.head
  have hself := (span_digits (u := []) hds (by simp)).1
  rw [List.append_nil] at hself
  have hsame : digits (ds ++ u) = digits ds := by rw [digits, digits, htake, hself]
  rw [akillDuration_unit hdrop hu, strtol_digit (by rwa [htake]), hsame]

theorem akillDuration_bad {tok : CStr} (h : BadDuration tok) (h0 : tok ≠ []) : akillDuration tok = 0 := by
  have hother : ∀ c t, tok.dropWhile isdigit = c :: t → c ∉ ['h', 'H', 'd', 'D', 'w', 'W'] →
      akillDuration tok = 0 := by
    intro c t hdrop hc
    simp only [List.mem_cons, List.not_mem_nil, or_false, not_or] at hc
    unfold akillDuration
    simp [hdrop, hc]
  have hzero : strtol tok = 0 → akillDuration tok = 0 := by
    intro hlong
    unfold akillDuration
    simp only [hlong]
    split
    · rfl
    · split_ifs <;> rfl
  have hnodigits : tok.takeWhile isdigit = [] → akillDuration tok = 0 := by
    intro hnone
    obtain ⟨c, t, rfl⟩ := List.exists_cons_of_ne_nil h0
    have hc : ¬ isdigit c = true := fun hc => by simp [List.takeWhile_cons_of_pos hc] at hnone
    by_cases hunit : c ∈ ['h', 'H', 'd', 'D', 'w', 'W']
    · -- a letter is no sign, and no number is read
      have hletter : ∀ c ∈ ['h', 'H', 'd', 'D', 'w', 'W'], isspace c = false ∧ c ≠ '-' ∧ c ≠ '+' := by
        simp only [List.forall_mem_cons]
        exact ⟨by decide, by decide, by decide, by decide, by decide, by decide, List.forall_mem_nil _⟩
      obtain ⟨hspace, hminus, hplus⟩ := hletter c hunit
      have hdigits : digits (c :: t) = 0 := by
        rw [digits, hnone]
        rfl
      apply hzero
      unfold strtol
      rw [List.dropWhile_cons_of_neg (by simp [hspace])]
      split
      · rename_i heq
        exact absurd (List.cons.inj heq).1 hminus
      · rename_i heq
        exact absurd (List.cons.inj heq).1 hplus
      · rw [hdigits]
        rfl
    · exact hother c t (List.dropWhile_cons_of_neg hc) hunit
  rcases h with hnone | hdigits | ⟨c, t, hdrop, hc⟩
  · exact hnodigits hnone
  · by_cases hnone : tok.takeWhile isdigit = []
    · exact hnodigits hnone
    · apply hzero
      rw [strtol_digit hnone, hdigits]
      rfl
  · exact hother c t hdrop hc

/-! ### The action -/

/-- What `prepare` makes of a token `!T`, a duration and a reason. -/
theorem akillTimed_eq {b : CStr} {c : Char} {b' tok rest r : CStr} {more : Option CStr} (hb : Blank b)
    (hc : c.toLower = 't') (hb' : Blank b') (h0 : tok ≠ []) (htok : ' ' ∉ tok) (hrest : rest ≠ [])
    (hreason : reasonExtract rest = (some r, more)) :
    traceAkillPrepare sv (some (b ++ '!' :: c :: ' ' :: (b' ++ tok ++ ' ' :: rest))) saved =
      if akillDuration tok = 0 then .null else .made (.akill (akillDuration tok) r) more [] := by
  have hhead : ('!' :: c :: ' ' :: (b' ++ tok ++ ' ' :: rest)).head? ≠ some ' ' := by simp
  unfold traceAkillPrepare
  simp only [dropBlanks hb hhead, akillToken_blank (Or.inl hc), hc]
  unfold akillTimed
  simp only [strtok_some, strtok_first hb' h0 htok, strtok_rest hrest]
  unfold akillReason
  simp only [hreason]

/-- `prepare` rejects the duration, or stores it exactly; it rejects what is
none. -/
structure DurationsExact (sv : Services) (args saved tok : CStr) : Prop where
  exact : ∀ n f, Duration tok n f → 1 ≤ n → traceAkillPrepare sv (some args) saved = .null ∨
    ∃ (d : ℤ) (r : CStr) (more : Option CStr) (saved' : CStr),
      traceAkillPrepare sv (some args) saved = .made (.akill d r) more saved' ∧ 0 < d ∧ d = ((n * f : ℕ) : ℤ)
  rejected : BadDuration tok → traceAkillPrepare sv (some args) saved = .null

/-- The duration fits a long, or it is rejected because it comes out as
zero. -/
def InRange (tok : CStr) : Prop :=
  ∀ n f, Duration tok n f → n * f < 2 ^ 63 ∨ (n < 2 ^ 63 ∧ 2 ^ 64 ∣ n * f)

theorem DurationUnit.pos {u : CStr} {f : ℕ} (h : DurationUnit u f) : 1 ≤ f := by cases h <;> decide

/-- The largest long is odd, and no unit makes it come out as zero. -/
theorem DurationUnit.largest {u : CStr} {f : ℕ} (h : DurationUnit u f) :
    ¬ (2 ^ 64 : ℤ) ∣ (2 ^ 63 - 1) * (f : ℤ) := by cases h <;> decide

/-- What comes out in a long is right exactly if it is in range. -/
theorem wrapped_iff {tok : CStr} {n f : ℕ} (h : Duration tok n f) (hn : 1 ≤ n) :
    (akillDuration tok = 0 ∨ (0 < akillDuration tok ∧ akillDuration tok = ((n * f : ℕ) : ℤ))) ↔
      n * f < 2 ^ 63 ∨ (n < 2 ^ 63 ∧ 2 ^ 64 ∣ n * f) := by
  rw [akillDuration_eq h]
  obtain ⟨ds, u, -, -, -, -, hu⟩ := h
  have hf := hu.pos
  have hnf : 1 * 1 ≤ n * f := Nat.mul_le_mul hn hf
  have hle : n * 1 ≤ n * f := Nat.mul_le_mul_left n hf
  by_cases hlt : n < 2 ^ 63
  · have hexact : (n : ℤ) * f = ((n * f : ℕ) : ℤ) := (Int.natCast_mul n f).symm
    rw [if_pos hlt, hexact, and_iff_right hlt]
    constructor
    · rintro (hzero | ⟨-, hsame⟩)
      · exact Or.inr (Int.natCast_dvd_natCast.mp (Int.dvd_of_bmod_eq_zero hzero))
      · have hlong := Int.bmod_lt (x := ((n * f : ℕ) : ℤ)) (m := 2 ^ 64) (by decide)
        rw [hsame] at hlong
        exact Or.inl (by omega)
    · rintro (hfit | hdvd)
      · rw [Int.bmod_eq_of_le (n := ((n * f : ℕ) : ℤ)) (m := 2 ^ 64) (by omega) (by omega)]
        exact Or.inr ⟨by omega, rfl⟩
      · exact Or.inl (Int.bmod_eq_zero_of_dvd (Int.natCast_dvd_natCast.mpr hdvd))
  · rw [if_neg hlt]
    refine iff_of_false ?_ (by omega)
    rintro (hzero | ⟨-, hsame⟩)
    · exact hu.largest (Int.dvd_of_bmod_eq_zero hzero)
    · have hlong := Int.bmod_lt (x := (2 ^ 63 - 1) * (f : ℤ)) (m := 2 ^ 64) (by decide)
      rw [hsame] at hlong
      omega

/-- **The durations of `AKILL !T` are exact**, or rejected, exactly if they fit
a long or come out as zero. -/
theorem durations_exact_iff (sv : Services) (saved : CStr) {b b' tok rest r : CStr} {c : Char}
    {more : Option CStr} (hb : Blank b) (hc : c.toLower = 't') (hb' : Blank b') (h0 : tok ≠ [])
    (htok : ' ' ∉ tok) (hrest : rest ≠ []) (hreason : reasonExtract rest = (some r, more)) :
    DurationsExact sv (b ++ '!' :: c :: ' ' :: (b' ++ tok ++ ' ' :: rest)) saved tok ↔ InRange tok := by
  have hrun : traceAkillPrepare sv (some (b ++ '!' :: c :: ' ' :: (b' ++ tok ++ ' ' :: rest))) saved = _ :=
    akillTimed_eq hb hc hb' h0 htok hrest hreason
  have hone : ∀ {n f : ℕ}, (traceAkillPrepare sv
        (some (b ++ '!' :: c :: ' ' :: (b' ++ tok ++ ' ' :: rest))) saved = .null ∨
      ∃ (d : ℤ) (r : CStr) (more : Option CStr) (saved' : CStr), traceAkillPrepare sv
        (some (b ++ '!' :: c :: ' ' :: (b' ++ tok ++ ' ' :: rest))) saved = .made (.akill d r) more saved' ∧
        0 < d ∧ d = ((n * f : ℕ) : ℤ)) ↔
      (akillDuration tok = 0 ∨ (0 < akillDuration tok ∧ akillDuration tok = ((n * f : ℕ) : ℤ))) := by
    intro n f
    rw [hrun]
    by_cases hzero : akillDuration tok = 0
    · rw [if_pos hzero]
      exact iff_of_true (Or.inl rfl) (Or.inl hzero)
    · rw [if_neg hzero, or_iff_right hzero, or_iff_right (by simp)]
      constructor
      · intro ⟨d, r', more', saved', hmade, hd⟩
        cases hmade
        exact hd
      · exact fun hd => ⟨_, _, _, _, rfl, hd⟩
  constructor
  · intro h n f htokn
    by_cases hn : 1 ≤ n
    · exact (wrapped_iff htokn hn).mp (hone.mp (h.exact n f htokn hn))
    · left
      obtain rfl : n = 0 := by omega
      rw [Nat.zero_mul]
      decide
  · intro hin
    refine ⟨fun n f htokn hn => hone.mpr ((wrapped_iff htokn hn).mpr (hin n f htokn)), fun hbad => ?_⟩
    rw [hrun, if_pos (akillDuration_bad hbad h0)]

/-- `!T 2h spam` -/
theorem durations_exact_hours : reasonExtract "spam".toList = (some "spam".toList, none) ∧
    (DurationsExact onlyOperserv "!T 2h spam".toList [] "2h".toList ↔ InRange "2h".toList) := by
  have hreason : reasonExtract "spam".toList = (some "spam".toList, none) := by decide
  exact ⟨hreason, @durations_exact_iff onlyOperserv [] [] [] "2h".toList "spam".toList "spam".toList 'T' none
    (by decide) (by decide) (by decide) (by decide) (by decide) (by decide) hreason⟩

/-- `!T 307445734561825861 spam`: in seconds that is 44 more than wraps around,
and 44 seconds are stored. -/
theorem duration_wraps :
    traceAkillPrepare onlyOperserv (some "!T 307445734561825861 spam".toList) [] =
      .made (.akill 44 "spam".toList) none [] ∧
    Duration "307445734561825861".toList 307445734561825861 60 ∧
    ¬ DurationsExact onlyOperserv "!T 307445734561825861 spam".toList [] "307445734561825861".toList := by
  have hrun : traceAkillPrepare onlyOperserv (some "!T 307445734561825861 spam".toList) [] =
      .made (.akill 44 "spam".toList) none [] := by decide
  have htok : Duration "307445734561825861".toList 307445734561825861 60 :=
    ⟨"307445734561825861".toList, [], by decide, by decide, List.all_eq_true.mp (by decide), by decide,
      .minutes⟩
  refine ⟨hrun, htok, fun h => ?_⟩
  rcases h.exact _ _ htok (by decide) with hnull | ⟨d, r, more, saved', hmade, -, hd⟩
  · rw [hrun] at hnull
    cases hnull
  · rw [hrun] at hmade
    cases hmade
    exact absurd hd (by decide)

end Trace
end AthemeContrib
