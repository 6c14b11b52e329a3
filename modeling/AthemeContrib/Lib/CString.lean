/-
# C strings

A C string is the list of its characters before the terminator; a null
pointer is `none`. A pointer into a buffer is the suffix it points at, which
is all that a callee can read through it. The functions here are those of the
C library, in the C locale, with the int and long of an LP64 target.

`strtok` takes the pointer it saved as an argument and returns the next one:
a first call (`some s`) starts over at `s`, a later one (`none`) goes on at
the saved pointer.

Key definitions: `CStr`, `strcasecmp`, `strlcpy`, `strtol`, `atoi`, `decimal`,
`strtok`, `tokens`, `fgets`, `fileLines`, `Word`, `Blank`.
Key theorems: `strtok_token`, `tokens_eq`, `tokens_append`, `strtok_blank`,
`strtok_first`, `strtok_only`, `strtok_rest`, `exists_word`.
-/
import Mathlib.Algebra.Group.Int.Defs
import Mathlib.Algebra.Group.Nat.Defs
import Mathlib.Data.Int.Notation
import Mathlib.Data.List.TakeWhile
import Mathlib.Tactic.Common

namespace AthemeContrib

/-- The characters of a C string, without its terminator. -/
abbrev CStr := List Char

namespace CStr

/-- `strcasecmp(a, b) == 0`: equal but for the case of ASCII letters. -/
def strcasecmp (a b : CStr) : Bool := a.map Char.toLower = b.map Char.toLower

/-- `strncasecmp(a, b, n) == 0` -/
def strncasecmp (a b : CStr) (n : ℕ) : Bool := strcasecmp (a.take n) (b.take n)

/-- `strlcpy(dst, s, size)`: at most `size - 1` characters are copied. -/
def strlcpy (s : CStr) (size : ℕ) : CStr := s.take (size - 1)

/-- `strlcat(dst, src, size)`: `src` is cut so that there is room. -/
def strlcat (dst src : CStr) (size : ℕ) : CStr := dst ++ src.take (size - 1 - dst.length)

/-- `strchr(s, c)`: the suffix at the first `c`. -/
def strchr (s : CStr) (c : Char) : Option CStr :=
  match s.dropWhile (· ≠ c) with
  | [] => none
  | t => some t

def isspace (c : Char) : Bool := c ∈ [' ', '\t', '\n', '\x0b', '\x0c', '\x0d']

def isdigit (c : Char) : Bool := '0' ≤ c && c ≤ '9'

def isalnum (c : Char) : Bool := isdigit c || ('a' ≤ c && c ≤ 'z') || ('A' ≤ c && c ≤ 'Z')

/-- The last `width` decimal digits of `n`: what `%0<width>d` prints of a
number with no more of them. -/
def decimal : ℕ → ℕ → CStr
  | 0, _ => []
  | width + 1, n => decimal width (n / 10) ++ [Nat.digitChar (n % 10)]

/-- The value of the leading decimal digits. -/
def digits (s : CStr) : ℕ := (s.takeWhile isdigit).foldl (fun n c => 10 * n + (c.toNat - '0'.toNat)) 0

/-- `strtol(s, NULL, 10)`: blanks, a sign, digits; clamped to a long. -/
def strtol (s : CStr) : ℤ :=
  match s.dropWhile isspace with
  | '-' :: t => max (-2 ^ 63) (-(digits t : ℤ))
  | '+' :: t => min (2 ^ 63 - 1) (digits t)
  | t => min (2 ^ 63 - 1) (digits t)

/-- `strtoul(s, NULL, 10)`: blanks, a sign, digits; an unsigned long, which a minus
sign negates, or the largest one if the digits are too many. -/
def strtoul (s : CStr) : ℕ :=
  match s.dropWhile isspace with
  | '-' :: t => if digits t < 2 ^ 64 then (2 ^ 64 - digits t) % 2 ^ 64 else 2 ^ 64 - 1
  | '+' :: t => min (2 ^ 64 - 1) (digits t)
  | t => min (2 ^ 64 - 1) (digits t)

/-- `atoi(s)`: the long, cut to an int. -/
def atoi (s : CStr) : ℤ := (strtol s).bmod (2 ^ 32)

example : atoi " -12x".toList = -12 := by decide

/-- The integer that `s` begins with: blanks, a sign, digits. -/
def intValue (s : CStr) : ℤ :=
  match s.dropWhile isspace with
  | '-' :: t => -(digits t : ℤ)
  | '+' :: t => digits t
  | t => digits t

theorem strtol_eq (s : CStr) : strtol s = max (-2 ^ 63) (min (2 ^ 63 - 1) (intValue s)) := by
  unfold strtol intValue
  split <;> omega

theorem strtoul_eq {s : CStr} (h0 : 0 ≤ intValue s) (h : intValue s < 2 ^ 64) : (strtoul s : ℤ) = intValue s := by
  revert h0 h
  unfold strtoul intValue
  split <;> intro h0 h
  · split <;> omega
  · omega
  · omega

/-- An integer that fits is converted as it is. -/
theorem atoi_eq {s : CStr} (hlo : -2 ^ 31 ≤ intValue s) (hhi : intValue s < 2 ^ 31) :
    atoi s = intValue s := by
  have hlong : strtol s = intValue s := by
    rw [strtol_eq]
    omega
  rw [atoi, hlong]
  exact Int.bmod_eq_of_le (by omega) (by omega)

theorem strchr_append {w : CStr} {c : Char} (h : c ∉ w) (s : CStr) :
    strchr (w ++ c :: s) c = some (c :: s) := by
  have hdrop : (w ++ c :: s).dropWhile (· ≠ c) = c :: s := by
    rw [List.dropWhile_append_of_pos fun d hd => by simpa using fun he : d = c => h (he ▸ hd)]
    exact List.dropWhile_cons_of_neg (by simp)
  rw [strchr, hdrop]

theorem strchr_none {w : CStr} {c : Char} (h : c ∉ w) : strchr w c = none := by
  have hdrop : w.dropWhile (· ≠ c) = [] := by
    rw [List.dropWhile_eq_nil_iff]
    exact fun d hd => by simpa using fun he : d = c => h (he ▸ hd)
  rw [strchr, hdrop]

/-- What is found starts with the character, and is no longer than the
string. -/
theorem strchr_eq_some {s t : CStr} {c : Char} (h : strchr s c = some t) :
    ∃ u, t = c :: u ∧ t.length ≤ s.length := by
  unfold strchr at h
  split at h
  · cases h
  · rename_i hne
    cases h
    have hlen : (s.dropWhile (· ≠ c)).length ≤ s.length := (List.dropWhile_sublist _).length_le
    rcases hdrop : s.dropWhile (· ≠ c) with _ | ⟨d, u⟩
    · exact absurd hdrop hne
    · have hhead := List.head?_dropWhile_not (fun x => decide (x ≠ c)) s
      rw [hdrop] at hhead hlen
      simp only [List.head?_cons, ne_eq, decide_not, Bool.not_eq_false', decide_eq_true_eq] at hhead
      rw [hhead] at hlen ⊢
      exact ⟨u, rfl, hlen⟩

theorem strcasecmp_iff {a b : CStr} : strcasecmp a b = true ↔ a.map Char.toLower = b.map Char.toLower :=
  decide_eq_true_iff

theorem strcasecmp_comm (a b : CStr) : strcasecmp a b = strcasecmp b a := by
  rw [Bool.eq_iff_iff, strcasecmp_iff, strcasecmp_iff, eq_comm]

/-- A capital is as far from its lower case as `A` is. -/
theorem val_toLower {c : Char} (hu : c.val ≥ 'A'.val ∧ c.val ≤ 'Z'.val) :
    c.toLower.val = c.val + ('a'.val - 'A'.val) := congrArg Char.val (dif_pos hu)

/-- What sorts before the letters is the lower case of itself alone. -/
theorem toLower_eq_iff {c d : Char} (hd : d.toNat < 'A'.toNat) : c.toLower = d ↔ c = d := by
  by_cases hu : c.val ≥ 'A'.val ∧ c.val ≤ 'Z'.val
  · have hA : 'A'.toNat ≤ c.toNat := hu.1
    have hZ : c.toNat ≤ 'Z'.toNat := hu.2
    constructor
    · intro he
      have hval : (c.val + ('a'.val - 'A'.val)).toNat = d.toNat := by
        rw [← val_toLower hu, he]
        rfl
      rw [UInt32.toNat_add] at hval
      have hc : c.val.toNat = c.toNat := rfl
      have h32 : ('a'.val - 'A'.val).toNat = 32 := rfl
      have hA' : 'A'.toNat = 65 := rfl
      have hZ' : 'Z'.toNat = 90 := rfl
      omega
    · intro he
      rw [he] at hA
      omega
  · have heq : c.toLower = c := dif_neg hu
    rw [heq]

theorem toLower_of_not_isUpper {c : Char} (h : c.isUpper = false) : c.toLower = c := by
  have hu : ¬ (c.val ≥ 'A'.val ∧ c.val ≤ 'Z'.val) := of_decide_eq_false h
  exact dif_neg hu

/-- No capital is left in lower case. -/
theorem isUpper_toLower (c : Char) : c.toLower.isUpper = false := by
  by_cases hu : c.val ≥ 'A'.val ∧ c.val ≤ 'Z'.val
  · have hA : 'A'.toNat ≤ c.val.toNat := hu.1
    have hZ : c.val.toNat ≤ 'Z'.toNat := hu.2
    have hA' : 'A'.toNat = 65 := rfl
    have hZ' : 'Z'.toNat = 90 := rfl
    have h32 : ('a'.val - 'A'.val).toNat = 32 := rfl
    apply decide_eq_false
    intro h
    have hle : c.toLower.val.toNat ≤ 'Z'.toNat := h.2
    rw [val_toLower hu, UInt32.toNat_add, h32] at hle
    omega
  · have heq : c.toLower = c := dif_neg hu
    rw [heq]
    exact decide_eq_false hu

theorem strcasecmp_length {a b : CStr} (h : strcasecmp a b = true) : a.length = b.length := by
  have hmap := congrArg List.length (strcasecmp_iff.mp h)
  rwa [List.length_map, List.length_map] at hmap

theorem strcasecmp_mem {a b : CStr} {d : Char} (hd : d.toNat < 'A'.toNat) (h : strcasecmp a b = true)
    (hb : d ∈ b) : d ∈ a := by
  have hmem : d ∈ b.map Char.toLower := List.mem_map.mpr ⟨d, hb, (toLower_eq_iff hd).mpr rfl⟩
  rw [← strcasecmp_iff.mp h] at hmem
  obtain ⟨c, hc, he⟩ := List.mem_map.mp hmem
  rwa [(toLower_eq_iff hd).mp he] at hc

@[simp] theorem length_decimal (width n : ℕ) : (decimal width n).length = width := by
  induction width generalizing n with
  | zero => rfl
  | succ width ih => rw [decimal, List.length_append, ih, List.length_singleton]

/-- A digit has no case, and is the digit of one number. -/
theorem toLower_digitChar : ∀ d < 10, (Nat.digitChar d).toLower = Nat.digitChar d := by decide

theorem digitChar_inj : ∀ d < 10, ∀ d' < 10, Nat.digitChar d = Nat.digitChar d' → d = d' := by decide

theorem toLower_decimal (width n : ℕ) : (decimal width n).map Char.toLower = decimal width n := by
  induction width generalizing n with
  | zero => rfl
  | succ width ih =>
    rw [decimal, List.map_append, ih, List.map_singleton, toLower_digitChar _ (Nat.mod_lt _ (by omega))]

theorem isdigit_digitChar : ∀ d < 10, isdigit (Nat.digitChar d) = true := by decide

theorem isdigit_decimal {width n : ℕ} {c : Char} (h : c ∈ decimal width n) : isdigit c = true := by
  induction width generalizing n with
  | zero => cases h
  | succ width ih =>
    rw [decimal, List.mem_append, List.mem_singleton] at h
    rcases h with h | rfl
    · exact ih h
    · exact isdigit_digitChar _ (Nat.mod_lt _ (by omega))

/-- A number that fits is given by its digits. -/
theorem decimal_inj {width n n' : ℕ} (hn : n < 10 ^ width) (hn' : n' < 10 ^ width)
    (h : decimal width n = decimal width n') : n = n' := by
  induction width generalizing n n' with
  | zero =>
    rw [Nat.pow_zero, Nat.lt_one_iff] at hn hn'
    rw [hn, hn']
  | succ width ih =>
    rw [Nat.pow_succ] at hn hn'
    obtain ⟨hhigh, hlow⟩ := List.append_inj h (by rw [length_decimal, length_decimal])
    have hdiv : n / 10 = n' / 10 := ih (by omega) (by omega) hhigh
    have hmod : n % 10 = n' % 10 :=
      digitChar_inj _ (Nat.mod_lt _ (by omega)) _ (Nat.mod_lt _ (by omega)) (List.singleton_inj.mp hlow)
    omega

theorem isdigit_toDigits {n : ℕ} {c : Char} (h : c ∈ Nat.toDigits 10 n) : isdigit c = true := by
  have hdigit : c.isDigit = true := Nat.isDigit_of_mem_toDigits (by decide) (by decide) h
  simp only [Char.isDigit, Bool.and_eq_true, decide_eq_true_eq] at hdigit
  simp only [isdigit, Bool.and_eq_true, decide_eq_true_eq]
  exact hdigit

/-- A number that is printed is read back. -/
theorem digits_toDigits (n : ℕ) : digits (Nat.toDigits 10 n) = n := by
  have hall : (Nat.toDigits 10 n).takeWhile isdigit = Nat.toDigits 10 n :=
    List.takeWhile_eq_self_iff.mpr fun c hc => isdigit_toDigits hc
  rw [digits, hall]
  exact Nat.ofDigitChars_ten_toDigits

/-- A number that is printed starts with a digit, and with no blank. -/
theorem toDigits_head (n : ℕ) : ∃ c s, Nat.toDigits 10 n = c :: s ∧ isdigit c = true ∧ isspace c = false := by
  obtain ⟨c, s, hs⟩ := List.exists_cons_of_ne_nil (Nat.toDigits_ne_nil (n := n) (b := 10))
  have hc : isdigit c = true := isdigit_toDigits (n := n) (by rw [hs]; simp)
  have hspace : isspace c = false := by
    by_contra hsp
    simp only [isspace, Bool.not_eq_false, decide_eq_true_eq, List.mem_cons, List.not_mem_nil,
      or_false] at hsp
    rcases hsp with rfl | rfl | rfl | rfl | rfl | rfl <;> exact absurd hc (by decide)
  exact ⟨c, s, hs, hc, hspace⟩

theorem intValue_toDigits (n : ℕ) : intValue (Nat.toDigits 10 n) = n := by
  obtain ⟨c, s, hs, hc, hspace⟩ := toDigits_head n
  have hn := digits_toDigits n
  rw [hs] at hn ⊢
  rw [intValue, List.dropWhile_cons_of_neg (by simp [hspace])]
  split
  · rename_i he
    injection he with he
    exact absurd hc (by rw [he]; decide)
  · rename_i he
    injection he with he
    exact absurd hc (by rw [he]; decide)
  · rw [hn]

theorem strtoul_toDigits {n : ℕ} (h : n < 2 ^ 64) : strtoul (Nat.toDigits 10 n) = n := by
  have hn := intValue_toDigits n
  have heq := strtoul_eq (s := Nat.toDigits 10 n) (by omega) (by omega)
  omega

theorem strtol_toDigits {n : ℕ} (h : n < 2 ^ 63) : strtol (Nat.toDigits 10 n) = n := by
  rw [strtol_eq, intValue_toDigits]
  omega

theorem strlcpy_eq_self {s : CStr} {size : ℕ} (h : s.length < size) : strlcpy s size = s :=
  List.take_of_length_le (by omega)

theorem strlcpy_ne {s : CStr} {size : ℕ} (h : size ≤ s.length) (h0 : 0 < size) : strlcpy s size ≠ s := by
  intro he
  have hl : (strlcpy s size).length = s.length := by rw [he]
  simp only [strlcpy, List.length_take] at hl
  omega

/-- Two strings put one after another into a buffer are cut where it ends. -/
theorem strlcat_strlcpy (a b : CStr) (size : ℕ) :
    strlcat (strlcpy a size) b size = (a ++ b).take (size - 1) := by
  rw [strlcat, strlcpy, List.take_append, List.length_take]
  congr 2
  omega

/-- They are whole exactly if there is room for both and the terminator. -/
theorem strlcat_strlcpy_eq_iff {a b : CStr} {size : ℕ} (h : 0 < size) :
    strlcat (strlcpy a size) b size = a ++ b ↔ a.length + b.length < size := by
  rw [strlcat_strlcpy]
  constructor
  · intro he
    have hlen := congrArg List.length he
    rw [List.length_take, List.length_append] at hlen
    omega
  · intro hlt
    apply List.take_of_length_le
    rw [List.length_append]
    omega

/-! ### strtok -/

/-- `strtok(arg, delims)` with the pointer saved by the last call: the token,
or null, and the pointer it saves. -/
def strtok (arg : Option CStr) (delims : List Char) (saved : CStr) : Option CStr × CStr :=
  match (arg.getD saved).dropWhile (· ∈ delims) with
  | [] => (none, [])
  | s => (some (s.takeWhile (· ∉ delims)), (s.dropWhile (· ∉ delims)).drop 1)

@[simp] theorem strtok_some (s : CStr) (delims : List Char) (saved : CStr) :
    strtok (some s) delims saved = strtok none delims s := rfl

/-- Delimiters in front are skipped. -/
theorem strtok_skip {delims : List Char} {b : CStr} (hb : ∀ c ∈ b, c ∈ delims) (s : CStr) :
    strtok none delims (b ++ s) = strtok none delims s := by
  have hd : (b ++ s).dropWhile (· ∈ delims) = s.dropWhile (· ∈ delims) := by
    induction b with
    | nil => rfl
    | cons c b ih =>
      rw [List.cons_append, List.dropWhile_cons_of_pos (by simpa using hb c (by simp))]
      exact ih fun c hc => hb c (by simp [hc])
  simp only [strtok, Option.getD_none, hd]

/-- A string of delimiters has no token. -/
theorem strtok_delims {delims : List Char} {s : CStr} (h : ∀ c ∈ s, c ∈ delims) :
    strtok none delims s = (none, []) := by
  have := strtok_skip h []
  rwa [List.append_nil] at this

/-- A word and the delimiter after it are taken. -/
theorem strtok_word {delims : List Char} {w : CStr} (h0 : w ≠ []) (hw : ∀ c ∈ w, c ∉ delims) {d : Char}
    (hd : d ∈ delims) (s : CStr) : strtok none delims (w ++ d :: s) = (some w, s) := by
  obtain ⟨c, v, rfl⟩ := List.exists_cons_of_ne_nil h0
  have hc : c ∉ delims := hw c (by simp)
  have htake : (c :: v ++ d :: s).takeWhile (· ∉ delims) = c :: v := by
    rw [List.takeWhile_append_of_pos (by simpa using hw), List.takeWhile_cons_of_neg (by simpa using hd),
      List.append_nil]
  have hdrop : (c :: v ++ d :: s).dropWhile (· ∉ delims) = d :: s := by
    rw [List.dropWhile_append_of_pos (by simpa using hw), List.dropWhile_cons_of_neg (by simpa using hd)]
  have hskip : (c :: v ++ d :: s).dropWhile (· ∈ delims) = c :: v ++ d :: s :=
    List.dropWhile_cons_of_neg (by simpa using hc)
  rw [strtok, Option.getD_none, hskip]
  simp only [List.cons_append] at *
  rw [htake, hdrop]
  rfl

/-- The last word leaves nothing. -/
theorem strtok_last {delims : List Char} {w : CStr} (h0 : w ≠ []) (hw : ∀ c ∈ w, c ∉ delims) :
    strtok none delims w = (some w, []) := by
  obtain ⟨c, v, rfl⟩ := List.exists_cons_of_ne_nil h0
  have hc : c ∉ delims := hw c (by simp)
  have htake : (c :: v).takeWhile (· ∉ delims) = c :: v :=
    List.takeWhile_eq_self_iff.mpr (by simpa using hw)
  have hdrop : (c :: v).dropWhile (· ∉ delims) = [] := List.dropWhile_eq_nil_iff.mpr (by simpa using hw)
  rw [strtok, Option.getD_none, List.dropWhile_cons_of_neg (by simpa using hc)]
  simp only [htake, hdrop, List.drop_nil]

/-- A string has nothing but delimiters, or a first token, which ends at a
delimiter or at the end. -/
theorem exists_token (delims : List Char) : ∀ s : CStr, (∀ c ∈ s, c ∈ delims) ∨
    ∃ d w, (∀ c ∈ d, c ∈ delims) ∧ w ≠ [] ∧ (∀ c ∈ w, c ∉ delims) ∧
      (s = d ++ w ∨ ∃ x t, x ∈ delims ∧ s = d ++ (w ++ x :: t))
  | [] => Or.inl fun c hc => by cases hc
  | c :: s => by
    by_cases hc : c ∈ delims
    · rcases exists_token delims s with h | ⟨d, w, hd, h0, hw, hs⟩
      · left
        intro x hx
        rcases List.mem_cons.mp hx with rfl | hx
        · exact hc
        · exact h x hx
      · refine Or.inr ⟨c :: d, w, ?_, h0, hw, ?_⟩
        · intro x hx
          rcases List.mem_cons.mp hx with rfl | hx
          · exact hc
          · exact hd x hx
        · rcases hs with rfl | ⟨x, t, hx, rfl⟩
          · exact Or.inl rfl
          · exact Or.inr ⟨x, t, hx, rfl⟩
    · have hsplit : (c :: s).takeWhile (· ∉ delims) ++ (c :: s).dropWhile (· ∉ delims) = c :: s :=
        List.takeWhile_append_dropWhile
      have h0 : (c :: s).takeWhile (· ∉ delims) ≠ [] := by simp [hc]
      have hw : ∀ x ∈ (c :: s).takeWhile (· ∉ delims), x ∉ delims := by
        intro x hx
        simpa using List.mem_takeWhile_imp hx
      have hhead := List.head?_dropWhile_not (fun x => decide (x ∉ delims)) (c :: s)
      refine Or.inr ⟨[], _, by simp, h0, hw, ?_⟩
      rcases hd : (c :: s).dropWhile (· ∉ delims) with _ | ⟨x, t⟩
      · rw [hd, List.append_nil] at hsplit
        exact Or.inl hsplit.symm
      · rw [hd] at hsplit hhead
        exact Or.inr ⟨x, t, by simpa using hhead, hsplit.symm⟩

/-- The token that `strtok` returns, and where it goes on. -/
theorem strtok_token {delims : List Char} {s w t : CStr} (h : strtok none delims s = (some w, t)) :
    ∃ d, (∀ c ∈ d, c ∈ delims) ∧ w ≠ [] ∧ (∀ c ∈ w, c ∉ delims) ∧
      (s = d ++ w ∧ t = [] ∨ ∃ x ∈ delims, s = d ++ (w ++ x :: t)) := by
  rcases exists_token delims s with hs | ⟨d, v, hd, h0, hv, hs⟩
  · rw [strtok_delims hs] at h
    cases h
  · rcases hs with rfl | ⟨x, u, hx, rfl⟩
    · rw [strtok_skip hd, strtok_last h0 hv] at h
      cases h
      exact ⟨d, hd, h0, hv, Or.inl ⟨rfl, rfl⟩⟩
    · rw [strtok_skip hd, strtok_word h0 hv hx] at h
      cases h
      exact ⟨d, hd, h0, hv, Or.inr ⟨x, hx, rfl⟩⟩

/-- Something, without blanks. -/
def Word (w : CStr) : Prop := w ≠ [] ∧ ' ' ∉ w

instance (w : CStr) : Decidable (Word w) := inferInstanceAs (Decidable (_ ∧ _))

/-- A printed number is a word. -/
theorem toDigits_word (n : ℕ) : Word (Nat.toDigits 10 n) :=
  ⟨Nat.toDigits_ne_nil, fun h => absurd (isdigit_toDigits h) (by decide)⟩

/-- Nothing but blanks. -/
def Blank (s : CStr) : Prop := ∀ c ∈ s, c = ' '

instance (s : CStr) : Decidable (Blank s) := List.decidableBAll (· = ' ') s

@[simp] theorem blank_nil : Blank [] := by simp [Blank]

@[simp] theorem blank_cons {c : Char} {s : CStr} : Blank (c :: s) ↔ c = ' ' ∧ Blank s := by
  simp [Blank]

/-- A string is its leading blanks and the rest, which starts with something
else or not at all. -/
theorem exists_blanks : ∀ s : CStr, ∃ b t, s = b ++ t ∧ Blank b ∧ t.head? ≠ some ' '
  | [] => ⟨[], [], rfl, blank_nil, by simp⟩
  | c :: s => by
    by_cases hc : c = ' '
    · obtain ⟨b, t, rfl, hb, ht⟩ := exists_blanks s
      exact ⟨c :: b, t, rfl, by simp [hc, hb], ht⟩
    · exact ⟨[], c :: s, rfl, blank_nil, by simpa using hc⟩

theorem dropWhile_blanks {p : Char → Bool} {b t : CStr} (hp : ∀ c, p c = true ↔ c = ' ') (hb : Blank b)
    (ht : t.head? ≠ some ' ') : (b ++ t).dropWhile p = t := by
  induction b with
  | nil =>
    cases t with
    | nil => rfl
    | cons c t =>
      rw [List.nil_append, List.dropWhile_cons_of_neg]
      rw [hp]
      simpa using ht
  | cons c b ih =>
    rw [blank_cons] at hb
    rw [List.cons_append, List.dropWhile_cons_of_pos ((hp c).mpr hb.1), ih hb.2]

theorem strtok_blank {s : CStr} (h : Blank s) : strtok none [' '] s = (none, []) :=
  strtok_delims fun c hc => List.mem_singleton.mpr (h c hc)

theorem not_mem_blank {w : CStr} (hw : ' ' ∉ w) : ∀ c ∈ w, c ∉ [' '] := by
  intro c hc hd
  rw [List.mem_singleton.mp hd] at hc
  exact hw hc

/-- The first word is taken, and the blank after it. -/
theorem strtok_first {b w : CStr} (hb : Blank b) (h0 : w ≠ []) (hw : ' ' ∉ w) (t : CStr) :
    strtok none [' '] (b ++ w ++ ' ' :: t) = (some w, t) := by
  rw [List.append_assoc, strtok_skip fun c hc => List.mem_singleton.mpr (hb c hc)]
  exact strtok_word h0 (not_mem_blank hw) (List.mem_singleton.mpr rfl) t

/-- The only word is taken. -/
theorem strtok_only {b w : CStr} (hb : Blank b) (h0 : w ≠ []) (hw : ' ' ∉ w) :
    strtok none [' '] (b ++ w) = (some w, []) := by
  rw [strtok_skip fun c hc => List.mem_singleton.mpr (hb c hc)]
  exact strtok_last h0 (not_mem_blank hw)

/-- A string of blanks has no word; another has a first one, which is the only
one or is followed by a blank. -/
theorem exists_word (s : CStr) : Blank s ∨ ∃ b w, Blank b ∧ w ≠ [] ∧ ' ' ∉ w ∧
    (s = b ++ w ∨ ∃ t, s = b ++ w ++ ' ' :: t) := by
  obtain ⟨b, t, rfl, hb, ht⟩ := exists_blanks s
  by_cases h0 : t = []
  · left
    rw [h0, List.append_nil]
    exact hb
  · right
    by_cases hmem : ' ' ∈ t
    · obtain ⟨w, u, rfl, hw⟩ := List.eq_append_cons_of_mem hmem
      have hw0 : w ≠ [] := by
        rintro rfl
        exact ht rfl
      exact ⟨b, w, hb, hw0, hw, Or.inr ⟨u, (List.append_assoc _ _ _).symm⟩⟩
    · exact ⟨b, t, hb, h0, hmem, Or.inl rfl⟩

/-- There is no word exactly in a string of blanks. -/
theorem strtok_fst_eq_none {s : CStr} : (strtok none [' '] s).1 = none ↔ Blank s := by
  rcases exists_word s with hb | ⟨b, w, hb, h0, hw, hs⟩
  · rw [strtok_blank hb]
    exact iff_of_true rfl hb
  · obtain ⟨c, hc⟩ := List.exists_mem_of_ne_nil w h0
    have hnot : ∀ {t : CStr}, ¬ Blank (b ++ w ++ t) := by
      intro t hbl
      have hblank : c = ' ' := hbl c (by simp [hc])
      exact hw (hblank ▸ hc)
    rcases hs with rfl | ⟨t, rfl⟩
    · rw [strtok_only hb h0 hw]
      apply iff_of_false (Option.some_ne_none w)
      simpa using hnot (t := [])
    · rw [strtok_first hb h0 hw]
      exact iff_of_false (Option.some_ne_none w) hnot

/-- With no delimiters all that is left is one token. -/
theorem strtok_rest {s : CStr} (h : s ≠ []) : strtok none [] s = (some s, []) := by
  exact strtok_last h fun _ _ hd => List.not_mem_nil hd

theorem strtok_getD (arg : Option CStr) (delims : List Char) (saved : CStr) :
    strtok arg delims saved = strtok none delims (arg.getD saved) := by cases arg <;> rfl

/-- Without a token nothing is saved. -/
theorem strtok_none {delims : List Char} {s t : CStr} (h : strtok none delims s = (none, t)) : t = [] := by
  unfold strtok at h
  split at h
  · cases h
    rfl
  · cases h

/-- What is saved is shorter when there was a token. -/
theorem strtok_lt {delims : List Char} {s w t : CStr} (h : strtok none delims s = (some w, t)) :
    t.length < s.length := by
  obtain ⟨d, -, h0, -, hs⟩ := strtok_token h
  have hw : 0 < w.length := List.length_pos_iff.mpr h0
  rcases hs with ⟨rfl, rfl⟩ | ⟨x, -, rfl⟩
  · rw [List.length_append, List.length_nil]
    omega
  · simp only [List.length_append, List.length_cons]
    omega

theorem strtok_snd_le (delims : List Char) (s : CStr) : (strtok none delims s).2.length ≤ s.length := by
  rcases h : strtok none delims s with ⟨_ | w, t⟩
  · rw [strtok_none h]
    exact Nat.zero_le _
  · exact Nat.le_of_lt (strtok_lt h)

/-- After `strtok(NULL, "")` the parsing is where it was. -/
theorem strtok_rest_getD (s : CStr) : (strtok none [] s).1.getD (strtok none [] s).2 = s := by
  by_cases h : s = []
  · rw [h]
    rfl
  · rw [strtok_rest h]
    rfl

@[simp] theorem strtok_nil (delims : List Char) : strtok none delims [] = (none, []) := rfl

/-! ### The loop over the tokens -/

/-- The tokens of the loop over `strtok(NULL, delims)`, within `n` passes. -/
def strtokLoop (delims : List Char) : ℕ → CStr → List CStr
  | 0, _ => []
  | n + 1, saved =>
    match strtok none delims saved with
    | (none, _) => []
    | (some w, saved) => w :: strtokLoop delims n saved

/-- All the tokens; there are no more than characters. -/
def tokens (delims : List Char) (s : CStr) : List CStr := strtokLoop delims (s.length + 1) s

/-- The tokens are the pieces between the delimiters that are not empty. -/
theorem strtokLoop_eq {delims : List Char} : ∀ {n : ℕ} {s : CStr}, s.length < n →
    strtokLoop delims n s = (s.splitOnP (· ∈ delims)).filter (· ≠ [])
  | 0, _, h => absurd h (Nat.not_lt_zero _)
  | n + 1, s, h => by
    have hskip : ∀ {d u : CStr}, (∀ c ∈ d, c ∈ delims) →
        ((d ++ u).splitOnP (· ∈ delims)).filter (· ≠ []) = (u.splitOnP (· ∈ delims)).filter (· ≠ []) := by
      intro d u hd
      induction d with
      | nil => rfl
      | cons c d ih =>
        have hc : decide (c ∈ delims) = true := by simpa using hd c (by simp)
        have hcut := List.splitOnP_append_cons (p := fun c => decide (c ∈ delims)) [] (d ++ u) hc
        rw [List.cons_append, ← List.nil_append (c :: (d ++ u)), hcut, List.splitOnP_nil,
          List.singleton_append, List.filter_cons_of_neg (by simp), ih fun x hx => hd x (by simp [hx])]
    rw [strtokLoop]
    rcases exists_token delims s with hs | ⟨d, w, hd, h0, hw, hs⟩
    · have hnone : ((s ++ []).splitOnP (· ∈ delims)).filter (· ≠ []) = [] := by
        rw [hskip hs]
        rfl
      rw [List.append_nil] at hnone
      rw [strtok_delims hs, hnone]
    · have hpiece : w.splitOnP (· ∈ delims) = [w] := List.splitOnP_eq_singleton (by simpa using hw)
      rcases hs with rfl | ⟨x, t, hx, rfl⟩
      · rw [strtok_skip hd, strtok_last h0 hw, hskip hd, hpiece, List.filter_cons_of_pos (by simpa using h0)]
        cases n <;> rfl
      · have hlt : t.length < n := by
          simp only [List.length_append, List.length_cons] at h
          omega
        rw [strtok_skip hd, strtok_word h0 hw hx, hskip hd,
          List.splitOnP_append_cons w t (by simpa using hx), hpiece, List.singleton_append,
          List.filter_cons_of_pos (by simpa using h0), ← strtokLoop_eq hlt]

theorem tokens_eq (delims : List Char) (s : CStr) :
    tokens delims s = (s.splitOnP (· ∈ delims)).filter (· ≠ []) := strtokLoop_eq (Nat.lt_succ_self _)

/-- A delimiter keeps the tokens before it and after it apart. -/
theorem tokens_append {delims : List Char} {x : Char} (hx : x ∈ delims) (a b : CStr) :
    tokens delims (a ++ x :: b) = tokens delims a ++ tokens delims b := by
  rw [tokens_eq, tokens_eq, tokens_eq, List.splitOnP_append_cons a b (by simpa using hx), List.filter_append]

@[simp] theorem tokens_nil (delims : List Char) : tokens delims [] = [] := rfl

/-- The next token, and those of the rest. -/
theorem tokens_of_strtok {delims : List Char} {s w t : CStr} (h : strtok none delims s = (some w, t)) :
    tokens delims s = w :: tokens delims t := by
  have hlt : t.length < s.length := strtok_lt h
  rw [tokens, strtokLoop, h]
  simp only
  rw [strtokLoop_eq hlt, ← tokens_eq]

theorem tokens_of_none {delims : List Char} {s t : CStr} (h : strtok none delims s = (none, t)) :
    tokens delims s = [] := by
  rw [tokens, strtokLoop, h]

/-- A word is its only token. -/
theorem tokens_word {delims : List Char} {w : CStr} (h0 : w ≠ []) (hw : ∀ c ∈ w, c ∉ delims) :
    tokens delims w = [w] := by
  rw [tokens_of_strtok (strtok_last h0 hw), tokens_nil]

/-- A token is no longer than the string, and holds no delimiter. -/
theorem of_mem_tokens {delims : List Char} {w : CStr} : ∀ (n : ℕ) {s : CStr}, s.length < n →
    w ∈ tokens delims s → w ≠ [] ∧ (∀ c ∈ w, c ∉ delims) ∧ w.length ≤ s.length
  | 0, _, h, _ => absurd h (Nat.not_lt_zero _)
  | n + 1, s, h, hmem => by
    rcases hs : strtok none delims s with ⟨_ | v, t⟩
    · rw [tokens_of_none hs] at hmem
      cases hmem
    · have hlt : t.length < s.length := strtok_lt hs
      rw [tokens_of_strtok hs, List.mem_cons] at hmem
      rcases hmem with rfl | hmem
      · obtain ⟨d, -, h0, hw, hsplit⟩ := strtok_token hs
        refine ⟨h0, hw, ?_⟩
        rcases hsplit with ⟨rfl, -⟩ | ⟨x, -, rfl⟩
        · simp
        · simp only [List.length_append]
          omega
      · obtain ⟨h0, hw, hle⟩ := of_mem_tokens n (by omega) hmem
        exact ⟨h0, hw, by omega⟩

theorem mem_tokens {delims : List Char} {s w : CStr} (h : w ∈ tokens delims s) :
    w ≠ [] ∧ (∀ c ∈ w, c ∉ delims) ∧ w.length ≤ s.length := of_mem_tokens _ (Nat.lt_succ_self _) h

/-! ### The lines of a file -/

/-- What `fgets` reads with room for `n` characters, and what it leaves. -/
def fgetsLoop : ℕ → CStr → CStr × CStr
  | 0, file => ([], file)
  | _ + 1, [] => ([], [])
  | n + 1, c :: file =>
    if c = '\n' then (['\n'], file)
    else
      let (buf, file) := fgetsLoop n file
      (c :: buf, file)

/-- `fgets(buf, size, in)`: the line with its newline, and the rest of the
file; none at its end. -/
def fgets (size : ℕ) (file : CStr) : Option (CStr × CStr) :=
  if file = [] then none else some (fgetsLoop (size - 1) file)

/-- The string in a buffer: it ends at the first `\\0`. -/
def cstr (buf : List Char) : CStr := buf.takeWhile (· ≠ '\x00')

theorem cstr_eq_self {buf : List Char} (h : '\x00' ∉ buf) : cstr buf = buf := by
  refine List.takeWhile_eq_self_iff.mpr fun c hc => ?_
  have hne : c ≠ '\x00' := fun he => h (he ▸ hc)
  exact decide_eq_true hne

/-- The lines of a file, with their newlines; the last one need not have one. -/
def fileLines : CStr → List CStr
  | [] => []
  | c :: file =>
    if c = '\n' then ['\n'] :: fileLines file
    else match fileLines file with
      | [] => [[c]]
      | line :: lines => (c :: line) :: lines

theorem fileLines_eq_nil {file : CStr} : fileLines file = [] ↔ file = [] := by
  cases file with
  | nil => simp [fileLines]
  | cons c file =>
    rw [fileLines]
    split
    · simp
    · split <;> simp

theorem fileLines_line {line : CStr} (hl : '\n' ∉ line) (file : CStr) :
    fileLines (line ++ '\n' :: file) = (line ++ ['\n']) :: fileLines file := by
  induction line with
  | nil => rw [List.nil_append, fileLines, if_pos rfl, List.nil_append]
  | cons c line ih =>
    rw [List.mem_cons, not_or] at hl
    rw [List.cons_append, fileLines, if_neg fun h => hl.1 h.symm, ih hl.2]
    rfl

/-- A line that fits is read whole, and the lines that are left are the
others. -/
theorem fgetsLoop_line : ∀ {file line : CStr} {lines : List CStr} {n : ℕ}, fileLines file = line :: lines →
    line.length ≤ n → ∃ rest, fgetsLoop n file = (line, rest) ∧ file = line ++ rest ∧ line ≠ [] ∧
      fileLines rest = lines
  | [], _, _, _, h, _ => by simp [fileLines] at h
  | c :: file, line, lines, n, h, hn => by
    rw [fileLines] at h
    split at h
    next hc =>
      obtain ⟨rfl, rfl⟩ := List.cons.inj h
      obtain ⟨m, rfl⟩ : ∃ m, n = m + 1 := ⟨n - 1, by simp at hn; omega⟩
      exact ⟨file, by rw [fgetsLoop, if_pos hc], by rw [hc]; rfl, by simp, rfl⟩
    next hc =>
      split at h
      next hnil =>
        obtain ⟨rfl, rfl⟩ := List.cons.inj h
        rw [fileLines_eq_nil] at hnil
        obtain ⟨m, rfl⟩ : ∃ m, n = m + 1 := ⟨n - 1, by simp at hn; omega⟩
        refine ⟨[], ?_, by rw [hnil]; rfl, by simp, rfl⟩
        rw [fgetsLoop, if_neg hc, hnil]
        cases m <;> rfl
      next line' lines' hcons =>
        obtain ⟨rfl, rfl⟩ := List.cons.inj h
        rw [List.length_cons] at hn
        obtain ⟨m, rfl⟩ : ∃ m, n = m + 1 := ⟨n - 1, by omega⟩
        obtain ⟨rest, hloop, hfile, -, hrest⟩ := fgetsLoop_line (n := m) hcons (by omega)
        refine ⟨rest, ?_, by rw [hfile]; rfl, by simp, hrest⟩
        rw [fgetsLoop, if_neg hc, hloop]

/-- What `while (fgets(buf, size, in) != NULL)` finds in the buffer, within `n`
passes. -/
def fgetsAll (size : ℕ) : ℕ → CStr → List (List Char)
  | 0, _ => []
  | n + 1, file =>
    match fgets size file with
    | none => []
    | some (buf, file) => buf :: fgetsAll size n file

/-- Such a loop over a file; each pass but the last takes a character, if there is
room for one. -/
def bufs (size : ℕ) (file : CStr) : List (List Char) := fgetsAll size (file.length + 1) file

end CStr
end AthemeContrib
