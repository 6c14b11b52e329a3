/-
# os_trace: the criteria that compare integers

`NICKAGE` and `NUMCHAN` read an operator and an integer off their value.
`NICKAGE` compares ints, and means what it says. `NUMCHAN` compares unsigned
ints, so that -1 is more than any number of channels: it means what it says
exactly if neither side is changed by the conversion, or the comparison comes
out the same (`Unwrapped`).

Key definitions: `opText`, `Numeral`, `selects`, `ComparesInts`, `Unwrapped`.
Key theorems: `readComparisonOperator_opText`, `selects_nickage`,
`selects_numchan`, `compares_ints_iff`.
-/
import AthemeContrib.Trace.Total

namespace AthemeContrib
namespace Trace

open CStr

variable {sv : Services} {s : State} {saved : CStr}

/-! ### Values -/

/-- How an operator is written; it may be left out. -/
def opText : Option Comparison → CStr
  | none => []
  | some .lt => ['<']
  | some .le => ['<', '=']
  | some .gt => ['>']
  | some .ge => ['>', '=']
  | some .eq => ['=']

/-- `d` is the integer `k` in decimal, perhaps with a sign. -/
def Numeral (d : CStr) (k : ℤ) : Prop :=
  ∃ sign ds, d = sign ++ ds ∧ ds ≠ [] ∧ (∀ c ∈ ds, isdigit c = true) ∧
    ((sign = [] ∨ sign = ['+']) ∧ k = digits ds ∨ sign = ['-'] ∧ k = -(digits ds : ℤ))

theorem isdigit_ne {c d : Char} (h : isdigit c = true) (hd : isdigit d = false) : c ≠ d := by
  rintro rfl
  rw [h] at hd
  cases hd

theorem isspace_digit {c : Char} (h : isdigit c = true) : isspace c = false := by
  have hne : ∀ d, isdigit d = false → c ≠ d := fun d hd => isdigit_ne h hd
  simp [isspace, hne ' ' rfl, hne '\t' rfl, hne '\n' rfl, hne '\x0b' rfl, hne '\x0c' rfl, hne '\x0d' rfl]

theorem Numeral.head {d : CStr} {k : ℤ} (h : Numeral d k) : ∃ c t, d = c :: t ∧ isspace c = false ∧
    c ≠ '<' ∧ c ≠ '>' ∧ c ≠ '=' := by
  obtain ⟨sign, ds, rfl, h0, hds, hsign⟩ := h
  obtain ⟨c, t, rfl⟩ := List.exists_cons_of_ne_nil h0
  have hc := hds c (by simp)
  have hplain : ∃ c' t', c :: t = c' :: t' ∧ isspace c' = false ∧ c' ≠ '<' ∧ c' ≠ '>' ∧ c' ≠ '=' :=
    ⟨c, t, rfl, isspace_digit hc, isdigit_ne hc rfl, isdigit_ne hc rfl, isdigit_ne hc rfl⟩
  rcases hsign with ⟨rfl | rfl, -⟩ | ⟨rfl, -⟩
  · exact hplain
  · exact ⟨'+', c :: t, rfl, by decide, by decide, by decide, by decide⟩
  · exact ⟨'-', c :: t, rfl, by decide, by decide, by decide, by decide⟩

theorem Numeral.intValue {d : CStr} {k : ℤ} (h : Numeral d k) : CStr.intValue d = k := by
  obtain ⟨c, t, hct, hspace, -⟩ := h.head
  have hdrop : d.dropWhile isspace = d := by
    rw [hct, List.dropWhile_cons_of_neg (by simp [hspace])]
  obtain ⟨sign, ds, rfl, h0, hds, hsign⟩ := h
  unfold CStr.intValue
  rw [hdrop]
  rcases hsign with ⟨rfl | rfl, rfl⟩ | ⟨rfl, rfl⟩
  · obtain ⟨e, u, rfl⟩ := List.exists_cons_of_ne_nil h0
    have he := hds e (by simp)
    rw [List.nil_append]
    split
    · rename_i heq
      exact absurd (List.cons.inj heq).1 (isdigit_ne he rfl)
    · rename_i heq
      exact absurd (List.cons.inj heq).1 (isdigit_ne he rfl)
    · rfl
  · rfl
  · rfl

/-- The operator is read, or the default taken, and the numeral is left. -/
theorem readComparisonOperator_opText {d : CStr} {k : ℤ} (h : Numeral d k) (o : Option Comparison)
    (default : Comparison) : readComparisonOperator (opText o ++ d) default = (d, o.getD default) := by
  obtain ⟨c, t, rfl, -, hlt, hgt, heq⟩ := h.head
  cases o with
  | none =>
    unfold readComparisonOperator opText
    simp [hlt, hgt, heq]
  | some comparison =>
    cases comparison <;> simp [readComparisonOperator, opText, heq]

/-! ### What the criteria select -/

/-- The criterion `cons`, prepared from `args`, of the user `u`: none if it is
not prepared. -/
def selects (sv : Services) (s : State) (cons : QueryConstructor) (args saved : CStr) (u : User) :
    Option Bool :=
  match cons.prepare sv s args saved with
  | .made q _ _ => q.exec sv s u
  | _ => none

/-- `u->channels.count` -/
def joined (s : State) (u : User) : ℕ := s.channels.countP fun c => u.id ∈ c.members

section Selects

variable {o : Option Comparison} {d args rest : CStr} {k : ℤ} {u : User}

/-- `NICKAGE` compares the user's age with the integer. -/
theorem selects_nickage (hd : Numeral d k) (hlo : -2 ^ 31 ≤ k) (hhi : k < 2 ^ 31)
    (hage : -2 ^ 31 ≤ sv.now - u.ts ∧ sv.now - u.ts < 2 ^ 31) (h : FirstWord args (opText o ++ d) rest) :
    selects sv s .nickage args saved u = some ((o.getD .le).holds (sv.now - u.ts) k) := by
  have hk : atoi d = k := (atoi_eq (hd.intValue ▸ hlo) (hd.intValue ▸ hhi)).trans hd.intValue
  have hint : (sv.now - u.ts).bmod (2 ^ 32) = sv.now - u.ts :=
    Int.bmod_eq_of_le (by omega) (by omega)
  unfold selects
  simp only [QueryConstructor.prepare, traceNickagePrepare, strtok_some, firstWord_iff.mp h,
    readComparisonOperator_opText hd, hk, Query.exec, hint]

/-- `NUMCHAN` compares the number of channels with it, as unsigned ints. -/
theorem selects_numchan (hd : Numeral d k) (hlo : -2 ^ 31 ≤ k) (hhi : k < 2 ^ 31)
    (h : FirstWord args (opText o ++ d) rest) : selects sv s .numchan args saved u =
      some ((o.getD .eq).holds ((joined s u % 2 ^ 32 : ℕ) : ℤ) ((k % 2 ^ 32).toNat : ℤ)) := by
  have hk : atoi d = k := (atoi_eq (hd.intValue ▸ hlo) (hd.intValue ▸ hhi)).trans hd.intValue
  unfold selects
  simp only [QueryConstructor.prepare, traceNumchanPrepare, strtok_some, firstWord_iff.mp h,
    readComparisonOperator_opText hd, hk, Query.exec, joined]

end Selects

theorem holds_partition (a b : ℤ) :
    ∃! c : Comparison, (c = .lt ∨ c = .eq ∨ c = .gt) ∧ c.holds a b = true := by
  have hunique : ∀ c : Comparison, (c = .lt ∨ c = .eq ∨ c = .gt) → c.holds a b = true →
      ∀ c' : Comparison, (c' = .lt ∨ c' = .eq ∨ c' = .gt) ∧ c'.holds a b = true → c' = c := by
    rintro c (rfl | rfl | rfl) h c' ⟨rfl | rfl | rfl, h'⟩ <;>
      simp only [Comparison.holds, decide_eq_true_eq] at h h' <;> first | rfl | omega
  rcases Int.lt_trichotomy a b with hab | hab | hab
  · have h : Comparison.lt.holds a b = true := by simpa [Comparison.holds] using hab
    exact ⟨.lt, ⟨Or.inl rfl, h⟩, hunique .lt (Or.inl rfl) h⟩
  · have h : Comparison.eq.holds a b = true := by simpa [Comparison.holds] using hab
    exact ⟨.eq, ⟨Or.inr (Or.inl rfl), h⟩, hunique .eq (Or.inr (Or.inl rfl)) h⟩
  · have h : Comparison.gt.holds a b = true := by simpa [Comparison.holds] using hab
    exact ⟨.gt, ⟨Or.inr (Or.inr rfl), h⟩, hunique .gt (Or.inr (Or.inr rfl)) h⟩

/-! ### Integers -/

/-- As unsigned ints, `n` and `k` compare as they do as integers: neither is
changed, or it makes no difference. -/
def Unwrapped (comparison : Comparison) (k : ℤ) (n : ℕ) : Prop :=
  (0 ≤ k ∧ n < 2 ^ 32) ∨
    match comparison with
    | .eq => (n % 2 ^ 32 : ℤ) ≠ k % 2 ^ 32
    | .lt => k % 2 ^ 32 ≤ (n % 2 ^ 32 : ℤ)
    | .ge => k % 2 ^ 32 ≤ (n % 2 ^ 32 : ℤ)
    | .le => k % 2 ^ 32 < (n % 2 ^ 32 : ℤ)
    | .gt => k % 2 ^ 32 < (n % 2 ^ 32 : ℤ)

theorem holds_unsigned_iff (comparison : Comparison) {k : ℤ} (hlo : -2 ^ 31 ≤ k) (hhi : k < 2 ^ 31) (n : ℕ) :
    comparison.holds ((n % 2 ^ 32 : ℕ) : ℤ) ((k % 2 ^ 32).toNat : ℤ) = comparison.holds n k ↔
      Unwrapped comparison k n := by
  have hk : ((k % 2 ^ 32).toNat : ℤ) = k % 2 ^ 32 := Int.toNat_of_nonneg (Int.emod_nonneg _ (by decide))
  have hn : ((n % 2 ^ 32 : ℕ) : ℤ) = (n : ℤ) % 2 ^ 32 := Int.natCast_emod n (2 ^ 32)
  rw [hk, hn]
  unfold Unwrapped
  cases comparison <;> simp only [Comparison.holds, decide_eq_decide] <;> omega

/-- The two criteria mean the comparison of integers, and of the selections by
`<`, `=` and `>` each user is in exactly one. -/
structure ComparesInts (sv : Services) (s : State) (o : Option Comparison) (d : CStr) (k : ℤ)
    (args saved : CStr) (u : User) : Prop where
  nickage : selects sv s .nickage args saved u = some ((o.getD .le).holds (sv.now - u.ts) k)
  numchan : selects sv s .numchan args saved u = some ((o.getD .eq).holds (joined s u) k)
  partition : ∀ cons, cons = .nickage ∨ cons = .numchan → ∀ args' rest' : Comparison → CStr,
    (∀ c, FirstWord (args' c) (opText (some c) ++ d) (rest' c)) →
    ∃! c, (c = .lt ∨ c = .eq ∨ c = .gt) ∧ selects sv s cons (args' c) saved u = some true

/-- **`NICKAGE` and `NUMCHAN` mean the comparison of integers** exactly where
the conversion to unsigned ints leaves `NUMCHAN`'s comparison as it is. -/
theorem compares_ints_iff {sv : Services} {s : State} {o : Option Comparison} {d : CStr} {k : ℤ}
    (hd : Numeral d k) (hlo : -2 ^ 31 ≤ k) (hhi : k < 2 ^ 31) {args rest : CStr}
    (hargs : FirstWord args (opText o ++ d) rest) (saved : CStr) {u : User}
    (hage : -2 ^ 31 ≤ sv.now - u.ts ∧ sv.now - u.ts < 2 ^ 31) :
    ComparesInts sv s o d k args saved u ↔ Unwrapped (o.getD .eq) k (joined s u) := by
  rw [← holds_unsigned_iff _ hlo hhi]
  constructor
  · intro h
    have hnum : selects sv s .numchan args saved u = _ := selects_numchan hd hlo hhi hargs
    exact Option.some.inj (hnum.symm.trans h.numchan)
  · intro h
    refine ⟨selects_nickage hd hlo hhi hage hargs, ?_, ?_⟩
    · rw [selects_numchan hd hlo hhi hargs, h]
    · rintro cons (rfl | rfl) args' rest' hargs'
      · have hsel : ∀ c, selects sv s .nickage (args' c) saved u = some (c.holds (sv.now - u.ts) k) :=
          fun c => selects_nickage hd hlo hhi hage (hargs' c)
        simpa only [hsel, Option.some.injEq] using holds_partition (sv.now - u.ts) k
      · have hsel : ∀ c, selects sv s .numchan (args' c) saved u = some (c.holds _ _) :=
          fun c => selects_numchan hd hlo hhi (hargs' c)
        simpa only [hsel, Option.some.injEq] using holds_partition _ _

/-- `NICKAGE` and `NUMCHAN` with the value `<=5`. -/
theorem compares_five : Numeral ['5'] 5 ∧ FirstWord "<=5".toList (opText (some .le) ++ ['5']) [] ∧
    (ComparesInts onlyOperserv (.begin [] [] []) (some .le) ['5'] 5 "<=5".toList [] (stranger 1) ↔
      Unwrapped .le 5 (joined (.begin [] [] []) (stranger 1))) := by
  have hd : Numeral ['5'] 5 :=
    ⟨[], ['5'], rfl, by decide, List.all_eq_true.mp (by decide), Or.inl ⟨Or.inl rfl, rfl⟩⟩
  have hargs : FirstWord "<=5".toList (opText (some .le) ++ ['5']) [] := firstWord_iff.mpr rfl
  exact ⟨hd, hargs, compares_ints_iff hd (by decide) (by decide) hargs [] (by decide)⟩

/-- `NUMCHAN >-1`: a user in no channel is not selected. -/
theorem more_than_minus_one : Numeral ['-', '1'] (-1) ∧
    FirstWord ">-1".toList (opText (some .gt) ++ ['-', '1']) [] ∧
    selects onlyOperserv (.begin [stranger 1] [] []) .numchan ">-1".toList [] (stranger 1) = some false ∧
    joined (.begin [stranger 1] [] []) (stranger 1) = 0 ∧
    ¬ ComparesInts onlyOperserv (.begin [stranger 1] [] []) (some .gt) ['-', '1'] (-1) ">-1".toList []
      (stranger 1) := by
  have hd : Numeral ['-', '1'] (-1) :=
    ⟨['-'], ['1'], rfl, by decide, List.all_eq_true.mp (by decide), Or.inr ⟨rfl, rfl⟩⟩
  have hsel : selects onlyOperserv (.begin [stranger 1] [] []) .numchan ">-1".toList [] (stranger 1) =
      some false := by decide
  refine ⟨hd, firstWord_iff.mpr rfl, hsel, rfl, fun h => ?_⟩
  have hnum := h.numchan
  rw [hsel] at hnum
  exact absurd hnum (by decide)

end Trace
end AthemeContrib
