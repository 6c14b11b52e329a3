/-
# cs_access_alias: the name of a template

A channel's templates are one string, the metadata `private:templates`:
entries `name=flags` with blanks between them. `get_template_name` goes over
it with three pointers, to the entry, to its `=` and to the blank behind it,
and copies flags and name into buffers of 40 and 400 bytes. Up to 38 flags and
398 characters of a name nothing is cut (`flags_copied`, `name_copied`), and
the name is that of the first entry with the flags, or where there is none, that of
the last global template with them (`template_name_exact`).

Key definitions: `searchTemplates`, `getTemplateName`, `Template`, `Written`.
Key theorems: `searchTemplates_ends`, `searchTemplates_written`, `globalTemplate_eq`,
`template_name_exact`.
-/
import AthemeContrib.Lib.CString

namespace AthemeContrib
namespace AccessAlias

open CStr

/-- `unsigned int`, a set of access flags. -/
abbrev Level := BitVec 32

/-- How the loop over the templates ends: with a name, without one, or not
within the passes it is given. -/
inductive Searched
  | found (name : CStr)
  | notFound
  | endless
deriving DecidableEq, Repr

section Lookup

-- `flags_to_bitmask(.., 0)`
variable (flagsToBitmask : CStr → Level)

/-- The loop of `get_template_name`. Its test `r < q` never holds: `r` is
searched from `q` on. -/
def searchTemplates (level : Level) : ℕ → CStr → Searched
  | 0, _ => .endless
  | n + 1, p =>
    let p := p.dropWhile (· = ' ')
    match strchr p '=' with
    | none => .notFound
    | some q =>
      let ss := strlcpy q 40
      match strchr q ' ' with
      | none =>
        if level = flagsToBitmask ss then .found ((strlcpy p 400).takeWhile (· ≠ '=')) else .notFound
      | some r =>
        let len := q.length - r.length
        let ss := if len < 39 then ss.take len else ss
        if level = flagsToBitmask ss then .found ((strlcpy p 400).takeWhile (· ≠ '='))
        else searchTemplates level n r

/-- `global_template_search`, called for each entry of `global_template_dict`:
the last one with these flags stays. -/
def globalTemplateSearch (level : Level) (res : Option CStr) (entry : CStr × Level) : Option CStr :=
  if entry.2 = level then some entry.1 else res

/-- `mowgli_patricia_foreach(global_template_dict, global_template_search, &iter)` -/
def globalTemplate (globalTemplateDict : List (CStr × Level)) (level : Level) : Option CStr :=
  globalTemplateDict.foldl (globalTemplateSearch level) none

/-- `get_template_name(mc, level)`, of a channel with this metadata
`private:templates`; none if it does not return. A pass takes at least one
character, so as many passes are enough. -/
def getTemplateName (globalTemplateDict : List (CStr × Level)) (md : Option CStr) (level : Level) :
    Option (Option CStr) :=
  match md with
  | none => some (globalTemplate globalTemplateDict level)
  | some value =>
    match searchTemplates flagsToBitmask level (value.length + 1) value with
    | .found name => some (some name)
    | .notFound => some (globalTemplate globalTemplateDict level)
    | .endless => none

end Lookup

/-! ### The list of templates -/

/-- A template, no part of which is cut when it is copied. -/
structure Template where
  name : CStr
  flags : CStr
  name_ne : name ≠ []
  name_word : ' ' ∉ name ∧ '=' ∉ name
  name_length : name.length ≤ 398
  flags_word : ' ' ∉ flags ∧ '=' ∉ flags
  flags_length : flags.length ≤ 38

/-- The string lists the templates, with blanks before each and none at the
end. -/
inductive Written : CStr → List Template → Prop
  | nil : Written [] []
  | cons {b rest : CStr} {ts : List Template} (t : Template) (hb : Blank b)
      (hend : rest = [] ∨ rest.head? = some ' ') (h : Written rest ts) :
      Written (b ++ (t.name ++ '=' :: (t.flags ++ rest))) (t :: ts)

variable {flagsToBitmask : CStr → Level} {level : Level}

theorem skip_blanks {b : CStr} (hb : Blank b) (t : Template) (s : CStr) :
    (b ++ (t.name ++ s)).dropWhile (· = ' ') = t.name ++ s := by
  apply dropWhile_blanks (fun _ => decide_eq_true_iff) hb
  obtain ⟨c, w, hname⟩ := List.exists_cons_of_ne_nil t.name_ne
  have hword := t.name_word.1
  rw [hname] at hword ⊢
  simp only [List.mem_cons, not_or] at hword
  simpa using fun h : c = ' ' => hword.1 h.symm

/-- The flags, up to the blank behind them, fit their buffer. -/
theorem flags_copied (t : Template) (s : CStr) :
    (if (('=' :: (t.flags ++ ' ' :: s)).length - (' ' :: s).length) < 39 then
        (strlcpy ('=' :: (t.flags ++ ' ' :: s)) 40).take
          (('=' :: (t.flags ++ ' ' :: s)).length - (' ' :: s).length)
      else strlcpy ('=' :: (t.flags ++ ' ' :: s)) 40) = '=' :: t.flags := by
  have hlen : ('=' :: (t.flags ++ ' ' :: s)).length - (' ' :: s).length = ('=' :: t.flags).length := by
    simp only [List.length_cons, List.length_append]
    omega
  have hcut : ∀ n, n = ('=' :: t.flags).length → ('=' :: (t.flags ++ ' ' :: s)).take n = '=' :: t.flags := by
    rintro n rfl
    rw [← List.cons_append, List.take_left]
  have hmax := t.flags_length
  rw [hlen]
  split
  · rename_i hlt
    rw [strlcpy, List.take_take, Nat.min_eq_left (by omega)]
    exact hcut _ rfl
  · -- 38 flags fill the buffer
    rename_i hfull
    rw [List.length_cons] at hfull
    exact hcut _ (by rw [List.length_cons]; omega)

theorem name_copied (t : Template) (s : CStr) :
    (strlcpy (t.name ++ '=' :: s) 400).takeWhile (· ≠ '=') = t.name := by
  have hmax := t.name_length
  obtain ⟨n, hn⟩ : ∃ n, 400 - 1 = t.name.length + (n + 1) := ⟨398 - t.name.length, by omega⟩
  have htake : strlcpy (t.name ++ '=' :: s) 400 = t.name ++ '=' :: s.take n := by
    rw [strlcpy, hn, List.take_length_add_append, List.take_succ_cons]
  have hname : ∀ c ∈ t.name, decide (c ≠ '=') = true := by
    intro c hc
    exact decide_eq_true fun he => t.name_word.2 (he ▸ hc)
  rw [htake, List.takeWhile_append_of_pos hname, List.takeWhile_cons_of_neg (by simp), List.append_nil]

/-- **One pass of the loop**, at a template: its name is returned if it has the
flags, and otherwise the loop goes on behind it. -/
theorem searchTemplates_template {b rest : CStr} (hb : Blank b) (t : Template)
    (hend : rest = [] ∨ rest.head? = some ' ') (n : ℕ) :
    searchTemplates flagsToBitmask level (n + 1) (b ++ (t.name ++ '=' :: (t.flags ++ rest))) =
      if level = flagsToBitmask ('=' :: t.flags) then .found t.name
      else if rest = [] then .notFound
      else searchTemplates flagsToBitmask level n rest := by
  rw [searchTemplates]
  simp only [skip_blanks hb, strchr_append t.name_word.2, name_copied]
  rcases hend with rfl | hend
  · have hnone : strchr ('=' :: (t.flags ++ [])) ' ' = none := by
      rw [List.append_nil]
      apply strchr_none
      simpa using t.flags_word.1
    have hcopy : strlcpy ('=' :: (t.flags ++ [])) 40 = '=' :: t.flags := by
      have hmax := t.flags_length
      rw [List.append_nil]
      exact strlcpy_eq_self (by rw [List.length_cons]; omega)
    simp only [hnone, hcopy, if_true]
  · obtain ⟨s, rfl⟩ := List.head?_eq_some_iff.mp hend
    have hblank : strchr ('=' :: (t.flags ++ ' ' :: s)) ' ' = some (' ' :: s) := by
      rw [← List.cons_append]
      apply strchr_append
      simpa using t.flags_word.1
    simp only [hblank, flags_copied, reduceCtorEq, if_false]

/-- **The loop over a list of templates** finds the first one with the
flags. -/
theorem searchTemplates_written {value : CStr} {ts : List Template} (h : Written value ts) :
    ∀ {n : ℕ}, value.length < n → searchTemplates flagsToBitmask level n value =
      match ts.find? fun t => level = flagsToBitmask ('=' :: t.flags) with
      | some t => .found t.name
      | none => .notFound := by
  induction h with
  | nil =>
    intro n hn
    obtain ⟨m, rfl⟩ : ∃ m, n = m + 1 := ⟨n - 1, by omega⟩
    rfl
  | @cons b rest ts t hb hend h ih =>
    intro n hn
    obtain ⟨m, rfl⟩ : ∃ m, n = m + 1 := ⟨n - 1, by omega⟩
    simp only [List.length_append, List.length_cons] at hn
    rw [searchTemplates_template hb t hend]
    by_cases hlevel : level = flagsToBitmask ('=' :: t.flags)
    · rw [if_pos hlevel, List.find?_cons_of_pos (by simpa using hlevel)]
    · rw [if_neg hlevel, List.find?_cons_of_neg (by simpa using hlevel)]
      by_cases hrest : rest = []
      · rw [if_pos hrest]
        cases h with
        | nil => rfl
        | cons t' hb' hend' h' => simp at hrest
      · rw [if_neg hrest]
        exact ih (by omega)

/-! ### Termination -/

/-- Whatever the string is, the loop ends. -/
theorem searchTemplates_ends : ∀ {n : ℕ} {p : CStr}, p.length < n →
    searchTemplates flagsToBitmask level n p ≠ .endless
  | 0, _, h => absurd h (Nat.not_lt_zero _)
  | n + 1, p, h => by
    have hskip : (p.dropWhile (· = ' ')).length ≤ p.length := (List.dropWhile_sublist _).length_le
    unfold searchTemplates
    simp only
    split
    · simp
    · rename_i q hq
      obtain ⟨u, rfl, hle⟩ := strchr_eq_some hq
      split
      · split_ifs <;> simp
      · rename_i r hr
        obtain ⟨v, rfl, hle'⟩ := strchr_eq_some hr
        have hlt : (' ' :: v).length < n := by
          have hbehind : strchr ('=' :: u) ' ' = strchr u ' ' := rfl
          rw [hbehind] at hr
          obtain ⟨-, -, hle''⟩ := strchr_eq_some hr
          rw [List.length_cons] at hle
          omega
        have hnext : searchTemplates flagsToBitmask level n (' ' :: v) ≠ .endless := searchTemplates_ends hlt
        split_ifs
        · simp
        · exact hnext
        · simp
        · exact hnext

/-! ### The name -/

theorem globalTemplateSearch_foldl (level : Level) : ∀ (dict : List (CStr × Level)) (res : Option CStr),
    dict.foldl (globalTemplateSearch level) res =
      ((dict.findRev? fun entry => entry.2 = level).map Prod.fst).or res
  | [], res => rfl
  | entry :: dict, res => by
    rw [List.foldl_cons, globalTemplateSearch_foldl level dict, List.findRev?]
    cases dict.findRev? fun entry => entry.2 = level with
    | some found => rfl
    | none =>
      by_cases hlevel : entry.2 = level
      · simp [globalTemplateSearch, hlevel]
      · simp [globalTemplateSearch, hlevel]

/-- The search of the dictionary ends with the last entry that has the flags. -/
theorem globalTemplate_eq (dict : List (CStr × Level)) (level : Level) :
    globalTemplate dict level = (dict.findRev? fun entry => entry.2 = level).map Prod.fst := by
  rw [globalTemplate, globalTemplateSearch_foldl, Option.or_none]

/-- **`get_template_name` returns the name of the first template with the flags**, and
where there is none, the name of the last global template with them, if one has. -/
theorem template_name_exact {flagsToBitmask : CStr → Level} {bitmask : CStr → Level}
    (hflags : ∀ flags, ' ' ∉ flags → '=' ∉ flags → flagsToBitmask ('=' :: flags) = bitmask flags)
    (globalTemplateDict : List (CStr × Level)) {value : CStr} {ts : List Template} (h : Written value ts)
    (level : Level) : getTemplateName flagsToBitmask globalTemplateDict (some value) level =
      some (match ts.find? fun t => bitmask t.flags = level with
        | some t => some t.name
        | none => (globalTemplateDict.findRev? fun entry => entry.2 = level).map Prod.fst) := by
  have hsame : (fun t : Template => decide (level = flagsToBitmask ('=' :: t.flags))) =
      fun t : Template => decide (bitmask t.flags = level) := by
    funext t
    rw [hflags t.flags t.flags_word.1 t.flags_word.2, decide_eq_decide]
    exact eq_comm
  unfold getTemplateName
  simp only
  rw [searchTemplates_written h (Nat.lt_succ_self _), hsame, globalTemplate_eq]
  cases ts.find? fun t => decide (bitmask t.flags = level) <;> rfl

/-- `flags_to_bitmask(s, 0)` of a string with the flags `v` and `o`. -/
def voiceOp (s : CStr) : Level :=
  s.foldl (fun m c => if c = '=' then 0#32
    else if c = 'v' then m ||| 1#32
    else if c = 'o' then m ||| 4#32
    else m) 0#32

/-- Two templates and three global ones: the access `+vo` is looked up in the channel,
and the access `+o` in the dictionary, where the last of two has the name. -/
theorem template_name_op : ∃ value ts, Written value ts ∧ value = "VOICE=v  OP=vo".toList ∧
    getTemplateName voiceOp [("AOP".toList, 4#32), ("SOP".toList, 5#32), ("XOP".toList, 4#32)] (some value) 5#32 =
      some (some "OP".toList) ∧
    getTemplateName voiceOp [("AOP".toList, 4#32), ("SOP".toList, 5#32), ("XOP".toList, 4#32)] (some value) 4#32 =
      some (some "XOP".toList) := by
  let voice : Template := ⟨"VOICE".toList, ['v'], by decide, by decide, by decide, by decide, by decide⟩
  let op : Template := ⟨"OP".toList, "vo".toList, by decide, by decide, by decide, by decide, by decide⟩
  have hop : Written (' ' :: ' ' :: (op.name ++ '=' :: (op.flags ++ []))) [op] :=
    .cons (b := [' ', ' ']) op (by decide) (Or.inl rfl) .nil
  have hboth := Written.cons (b := []) voice (by decide) (Or.inr rfl) hop
  have hflags : ∀ flags, ' ' ∉ flags → '=' ∉ flags → voiceOp ('=' :: flags) = voiceOp flags := fun _ _ _ => rfl
  exact ⟨_, _, hboth, by decide, (template_name_exact hflags _ hboth 5#32).trans (by decide),
    (template_name_exact hflags _ hboth 4#32).trans (by decide)⟩

end AccessAlias
end AthemeContrib
