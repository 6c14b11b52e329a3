/-
# Formats of unsigned numbers

Formats that have `%u` and characters that stand for themselves, as `printf` and `scanf`
read them. `scan` assigns the numbers up to the first directive that fails, and if none
does there is a rest of the text. What is printed by a format is scanned by it again, and
nothing after it, if no digit stands right after a number (`scan_print`).

Key definitions: `Directive`, `scanU`, `scan`, `print`, `Separated`, `Number`, `Matches`.
Key theorems: `scanU_toDigits`, `scan_print`, `map_toLower_print`, `scanU_iff`, `scan_isSome_iff`,
`scan_length_iff`.
-/
import AthemeContrib.Lib.CString

namespace AthemeContrib
namespace Scanf

open CStr

/-- `%u`, or a character that is no blank. -/
inductive Directive
  | u
  | lit (c : Char)
deriving DecidableEq, Repr

/-- What is left of a number's text once its blanks and its sign are taken. -/
def unsigned (s : CStr) : CStr :=
  match s.dropWhile isspace with
  | '-' :: t => t
  | '+' :: t => t
  | t => t

/-- `%u` of `scanf`: blanks, a sign and digits, of which there must be one; the value is
that of `strtoul`, cut to an unsigned int. -/
def scanU (s : CStr) : Option (ℕ × CStr) :=
  if (unsigned s).takeWhile isdigit = [] then none
  else some (strtoul s % 2 ^ 32, (unsigned s).dropWhile isdigit)

/-- `sscanf(s, format, …)`: the numbers that are assigned, and the rest of the text if all
of the format is matched. -/
def scan : List Directive → CStr → List ℕ × Option CStr
  | [], s => ([], some s)
  | .u :: format, s =>
    match scanU s with
    | none => ([], none)
    | some (n, t) => (n :: (scan format t).1, (scan format t).2)
  | .lit c :: format, s =>
    match s with
    | [] => ([], none)
    | d :: t => if d = c then scan format t else ([], none)

/-- `sprintf(…, format, …)` -/
def print : List Directive → List ℕ → CStr
  | [], _ => []
  | .u :: format, ns => Nat.toDigits 10 (ns.headD 0) ++ print format ns.tail
  | .lit c :: format, ns => c :: print format ns

/-- No digit stands right after a number, in the format or in what comes after it. -/
def Separated : List Directive → CStr → Prop
  | [], _ => True
  | [.u], rest => ∀ c ∈ rest.head?, isdigit c = false
  | .u :: .u :: _, _ => False
  | .u :: .lit c :: format, rest => isdigit c = false ∧ Separated (.lit c :: format) rest
  | .lit _ :: format, rest => Separated format rest

/-- A number as `scanf` takes it. -/
structure Number (w : CStr) : Prop where
  spelled : ∃ blanks sign ds, w = blanks ++ (sign ++ ds) ∧ (∀ c ∈ blanks, isspace c = true) ∧
    (sign = [] ∨ sign = ['-'] ∨ sign = ['+']) ∧ ds ≠ [] ∧ ∀ c ∈ ds, isdigit c = true

/-- The text starts with what the format asks for. -/
inductive Matches : List Directive → CStr → Prop
  | nil (s : CStr) : Matches [] s
  | u {format : List Directive} {w s : CStr} (hw : Number w) (hs : ∀ c ∈ s.head?, isdigit c = false)
      (h : Matches format s) : Matches (.u :: format) (w ++ s)
  | lit {format : List Directive} {s : CStr} (c : Char) (h : Matches format s) :
      Matches (.lit c :: format) (c :: s)

example : scan [.u, .lit '.', .u] "10. 7x".toList = ([10, 7], some ['x']) := by decide

theorem takeWhile_digits {ds rest : CStr} (hds : ∀ c ∈ ds, isdigit c = true)
    (h : ∀ c ∈ rest.head?, isdigit c = false) :
    (ds ++ rest).takeWhile isdigit = ds ∧ (ds ++ rest).dropWhile isdigit = rest := by
  rw [List.takeWhile_append_of_pos hds, List.dropWhile_append_of_pos hds]
  cases rest with
  | nil => simp
  | cons c rest =>
    have hc : isdigit c = false := h c rfl
    simp [hc]

/-- A number that is printed has no blank and no sign in front. -/
theorem unsigned_toDigits (n : ℕ) (rest : CStr) :
    (Nat.toDigits 10 n ++ rest).dropWhile isspace = Nat.toDigits 10 n ++ rest ∧
      unsigned (Nat.toDigits 10 n ++ rest) = Nat.toDigits 10 n ++ rest := by
  obtain ⟨c, s, hs, hc, hspace⟩ := toDigits_head n
  have hdrop : (c :: s ++ rest).dropWhile isspace = c :: s ++ rest :=
    List.dropWhile_cons_of_neg (by simp [hspace])
  rw [hs, unsigned, hdrop]
  refine ⟨rfl, ?_⟩
  split
  · rename_i heq
    cases heq
    exact absurd hc (by decide)
  · rename_i heq
    cases heq
    exact absurd hc (by decide)
  · rfl

theorem strtoul_append {n : ℕ} (hn : n < 2 ^ 64) {rest : CStr} (h : ∀ c ∈ rest.head?, isdigit c = false) :
    strtoul (Nat.toDigits 10 n ++ rest) = n := by
  obtain ⟨c, s, hs, hc, -⟩ := toDigits_head n
  have hvalue : digits (Nat.toDigits 10 n ++ rest) = n := by
    have hn := digits_toDigits n
    rw [digits, (takeWhile_digits (fun c hc => isdigit_toDigits hc) h).1]
    rwa [digits, List.takeWhile_eq_self_iff.mpr fun c hc => isdigit_toDigits hc] at hn
  rw [strtoul, (unsigned_toDigits n rest).1]
  split
  · rename_i heq
    rw [hs] at heq
    cases heq
    exact absurd hc (by decide)
  · rename_i heq
    rw [hs] at heq
    cases heq
    exact absurd hc (by decide)
  · rw [hvalue]
    omega

/-- **A number that is printed is scanned.** -/
theorem scanU_toDigits {n : ℕ} (hn : n < 2 ^ 32) {rest : CStr} (h : ∀ c ∈ rest.head?, isdigit c = false) :
    scanU (Nat.toDigits 10 n ++ rest) = some (n, rest) := by
  have hne : Nat.toDigits 10 n ≠ [] := Nat.toDigits_ne_nil
  have hdigits : ∀ c ∈ Nat.toDigits 10 n, isdigit c = true := fun c hc => isdigit_toDigits hc
  obtain ⟨htake, hdrop⟩ := takeWhile_digits hdigits h
  rw [scanU, (unsigned_toDigits n rest).2, htake, hdrop, if_neg hne, strtoul_append (by omega) h,
    Nat.mod_eq_of_lt hn]

/-- **What is printed by a format is scanned by it.** -/
theorem scan_print {format : List Directive} {ns : List ℕ} {rest : CStr} (hsep : Separated format rest)
    (hlen : ns.length = format.count .u) (hns : ∀ n ∈ ns, n < 2 ^ 32) :
    scan format (print format ns ++ rest) = (ns, some rest) := by
  induction format generalizing ns with
  | nil =>
    rw [List.count_nil, List.length_eq_zero_iff] at hlen
    subst hlen
    rfl
  | cons d format ih =>
    cases d with
    | lit c =>
      have hsep' : Separated format rest := by
        cases format with
        | nil => trivial
        | cons _ _ => exact hsep
      rw [List.count_cons_of_ne (by simp)] at hlen
      rw [print, List.cons_append, scan, if_pos rfl, ih hsep' hlen hns]
    | u =>
      obtain ⟨n, ns, rfl⟩ : ∃ n ms, ns = n :: ms := by
        cases ns with
        | nil => simp at hlen
        | cons n ms => exact ⟨n, ms, rfl⟩
      rw [List.count_cons_self, List.length_cons, Nat.add_right_cancel_iff] at hlen
      have hafter : Separated format rest ∧ ∀ c ∈ (print format ns ++ rest).head?, isdigit c = false := by
        cases format with
        | nil => exact ⟨trivial, hsep⟩
        | cons d format =>
          cases d with
          | u => exact hsep.elim
          | lit c =>
            refine ⟨hsep.2, fun c' hc' => ?_⟩
            cases hc'
            exact hsep.1
      have hn : n < 2 ^ 32 := hns n List.mem_cons_self
      have hih := ih hafter.1 hlen fun m hm => hns m (List.mem_cons_of_mem n hm)
      rw [print, List.headD_cons, List.tail_cons, List.append_assoc, scan, scanU_toDigits hn hafter.2]
      simp only [hih]

/-- No more numbers are scanned than the format has. -/
theorem scan_length : ∀ (format : List Directive) (s : CStr), (scan format s).1.length ≤ format.count .u
  | [], _ => le_rfl
  | .u :: format, s => by
    rw [scan, List.count_cons_self]
    split
    · exact Nat.zero_le _
    · exact Nat.succ_le_succ (scan_length format _)
  | .lit _ :: _, [] => Nat.zero_le _
  | .lit c :: format, d :: s => by
    rw [List.count_cons_of_ne (by simp), scan]
    split
    · exact scan_length format s
    · exact Nat.zero_le _

/-- What is printed has no letters but those of the format. -/
theorem map_toLower_print {format : List Directive} (h : ∀ c, .lit c ∈ format → c.toLower = c) (ns : List ℕ) :
    (print format ns).map Char.toLower = print format ns := by
  induction format generalizing ns with
  | nil => rfl
  | cons d format ih =>
    have hformat := ih fun c hc => h c (List.mem_cons_of_mem d hc)
    cases d with
    | lit c => rw [print, List.map_cons, hformat, h c List.mem_cons_self]
    | u =>
      rw [print, List.map_append, hformat]
      congr 1
      refine (List.map_congr_left fun c hc => ?_).trans (List.map_id _)
      have hdigit : isdigit c = true := isdigit_toDigits hc
      simp only [isdigit, Bool.and_eq_true, decide_eq_true_eq] at hdigit
      have hle : c.toNat ≤ '9'.toNat := hdigit.2
      have h9 : '9'.toNat = 57 := rfl
      refine toLower_of_not_isUpper (decide_eq_false fun hupper => ?_)
      have hA : 'A'.toNat ≤ c.toNat := hupper.1
      have hA' : 'A'.toNat = 65 := rfl
      omega

/-! ### What is scanned -/

theorem isspace_of_isdigit {c : Char} (h : isdigit c = true) : isspace c = false := by
  by_contra hsp
  simp only [isspace, Bool.not_eq_false, decide_eq_true_eq, List.mem_cons, List.not_mem_nil, or_false] at hsp
  rcases hsp with rfl | rfl | rfl | rfl | rfl | rfl <;> exact absurd h (by decide)

theorem unsigned_number {blanks sign ds : CStr} (hblanks : ∀ c ∈ blanks, isspace c = true)
    (hsign : sign = [] ∨ sign = ['-'] ∨ sign = ['+']) (hne : ds ≠ []) (hds : ∀ c ∈ ds, isdigit c = true)
    (s : CStr) : unsigned (blanks ++ (sign ++ ds) ++ s) = ds ++ s := by
  obtain ⟨c, ds', rfl⟩ := List.exists_cons_of_ne_nil hne
  have hc : isdigit c = true := hds c List.mem_cons_self
  rw [unsigned, List.append_assoc, List.dropWhile_append_of_pos hblanks]
  rcases hsign with rfl | rfl | rfl
  · rw [List.nil_append, List.cons_append, List.dropWhile_cons_of_neg (by simp [isspace_of_isdigit hc])]
    split
    · rename_i heq
      cases heq
      exact absurd hc (by decide)
    · rename_i heq
      cases heq
      exact absurd hc (by decide)
    · rfl
  · rfl
  · rfl

/-- **`%u` takes a number**, with all its digits. -/
theorem scanU_iff {s t : CStr} : (∃ n, scanU s = some (n, t)) ↔
    ∃ w, Number w ∧ s = w ++ t ∧ ∀ c ∈ t.head?, isdigit c = false := by
  constructor
  · rintro ⟨n, h⟩
    unfold scanU at h
    split at h
    · cases h
    · rename_i hne
      rw [Option.some.injEq, Prod.mk.injEq] at h
      obtain ⟨-, rfl⟩ := h
      have hsign : ∃ sign, s.dropWhile isspace = sign ++ unsigned s ∧
          (sign = [] ∨ sign = ['-'] ∨ sign = ['+']) := by
        unfold unsigned
        split
        · rename_i heq
          exact ⟨['-'], heq, Or.inr (Or.inl rfl)⟩
        · rename_i heq
          exact ⟨['+'], heq, Or.inr (Or.inr rfl)⟩
        · exact ⟨[], rfl, Or.inl rfl⟩
      obtain ⟨sign, hdrop, hsign⟩ := hsign
      have hnumber : Number (s.takeWhile isspace ++ (sign ++ (unsigned s).takeWhile isdigit)) :=
        ⟨_, sign, _, rfl, fun c hc => List.mem_takeWhile_imp hc, hsign, hne,
          fun c hc => List.mem_takeWhile_imp hc⟩
      refine ⟨_, hnumber, ?_, ?_⟩
      · rw [List.append_assoc, List.append_assoc, List.takeWhile_append_dropWhile, ← hdrop,
          List.takeWhile_append_dropWhile]
      · intro c hc
        have := List.head?_dropWhile_not isdigit (unsigned s)
        rw [Option.mem_def.mp hc] at this
        simpa using this
  · rintro ⟨w, ⟨blanks, sign, ds, rfl, hblanks, hsign, hne, hds⟩, rfl, ht⟩
    have hunsigned := unsigned_number hblanks hsign hne hds t
    obtain ⟨htake, hdrop⟩ := takeWhile_digits hds ht
    exact ⟨_, by rw [scanU, hunsigned, htake, hdrop, if_neg hne]⟩

/-- **All of a format is scanned** exactly in texts that start with what it asks for. -/
theorem scan_isSome_iff {format : List Directive} {s : CStr} :
    (scan format s).2.isSome = true ↔ Matches format s := by
  induction format generalizing s with
  | nil => exact iff_of_true rfl (.nil s)
  | cons d format ih =>
    cases d with
    | u =>
      rw [scan]
      constructor
      · intro h
        split at h
        · cases h
        · rename_i n t hn
          obtain ⟨w, hw, rfl, ht⟩ := scanU_iff.mp ⟨n, hn⟩
          exact .u hw ht (ih.mp h)
      · intro h
        cases h with
        | u hw ht h =>
          obtain ⟨n, hn⟩ := scanU_iff.mpr ⟨_, hw, rfl, ht⟩
          rw [hn]
          exact ih.mpr h
    | lit c =>
      constructor
      · intro h
        cases s with
        | nil => cases h
        | cons d s =>
          rw [scan] at h
          split at h
          · rename_i hdc
            exact hdc ▸ .lit d (ih.mp h)
          · cases h
      · intro h
        cases h with
        | lit _ h =>
          rw [scan, if_pos rfl]
          exact ih.mpr h

/-- A format that ends in a number assigns all of them only if it is scanned. -/
theorem scan_length_iff {format : List Directive} {s : CStr} (hlast : format.getLast? = some .u) :
    (scan format s).1.length = format.count .u ↔ (scan format s).2.isSome = true := by
  induction format generalizing s with
  | nil => cases hlast
  | cons d format ih =>
    have hcount : format ≠ [] → 0 < format.count .u ∧ format.getLast? = some .u := by
      intro hne
      have hlast' : format.getLast? = some .u := by
        rwa [List.getLast?_cons_of_ne_nil hne] at hlast
      exact ⟨List.count_pos_iff.mpr (List.mem_of_getLast? hlast'), hlast'⟩
    cases d with
    | u =>
      rw [scan, List.count_cons_self]
      split
      · simp
      · rename_i n t hn
        rw [List.length_cons, Nat.add_right_cancel_iff]
        by_cases hne : format = []
        · subst hne
          simp [scan]
        · exact ih (hcount hne).2
    | lit c =>
      have hne : format ≠ [] := by
        rintro rfl
        cases hlast
      rw [List.count_cons_of_ne (by simp)]
      have hpos := (hcount hne).1
      cases s with
      | nil =>
        simp [scan]
        omega
      | cons d s =>
        rw [scan]
        split
        · exact ih (hcount hne).2
        · simp
          omega

end Scanf
end AthemeContrib
