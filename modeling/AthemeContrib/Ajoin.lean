/-
# ns_ajoin: the list of channels to join

An account's list is one string, the metadata `private:autojoin`, its entries
joined by commas. `LIST` and `ADD` read it with `strtok(.., ",")`. So does
`ajoin_on_identify`, except that its first call takes blanks for delimiters,
too: it joins what `LIST` shows exactly if there is no blank in the first entry
(`joins_listed_iff`). And `ADD` puts its parameter into the string as it is,
which makes it one more entry exactly if it has no comma and is not longer
than the buffers the string is read into (`ordered_set_iff`).

Key definitions: `nsCmdAjoin`, `ajoinOnIdentify`, `entries`, `Ordered`,
`Single`.
Key theorems: `joins_listed_iff`, `ajoinAdd_cases`, `ordered_set_iff`.
-/
import AthemeContrib.Command
import AthemeContrib.Lib.Run

namespace AthemeContrib
namespace Ajoin

open CStr Run

/-- The size of `buf`. -/
def bufSize : ℕ := 512

/-- `ns_cmd_ajoin_syntaxerr` -/
def syntaxerr : List Output :=
  [.fail .badparams (STR_INSUFFICIENT_PARAMS "AJOIN"),
    .fail .badparams "Syntax: AJOIN <LIST|ADD|DEL|CLEAR> [#channel]"]

/-- A line of `AJOIN LIST`. -/
def listLine (chan : CStr) : Output := .success (String.ofList chan)

/-- `AJOIN LIST`: what it sends. -/
def ajoinList (md : Option CStr) : List Output :=
  .success "\x02AJOIN LIST\x02:" ::
    ((match md with
      | none => []
      | some value => (tokens [','] (strlcpy value bufSize)).map listLine) ++
      [.success "End of \x02AJOIN LIST\x02"])

def duplicateText (chan : CStr) : String := s!"{String.ofList chan} is already on your AJOIN list."

def addedText (chan : CStr) : String := s!"{String.ofList chan} added to AJOIN successfully."

/-- `AJOIN ADD chan` -/
def ajoinAdd (chan : CStr) (md : Option CStr) : Option CStr × List Output :=
  match md with
  | none => (some chan, [.success (addedText chan)])
  | some value =>
    if (tokens [','] (strlcpy value bufSize)).any fun e => strcasecmp e chan then
      (md, [.fail .badparams (duplicateText chan)])
    else if 400 < value.length + chan.length then
      (md, [.fail .badparams "Sorry, you have too many AJOIN entries set."])
    else
      (some (strlcat (strlcat (strlcpy value bufSize) [','] bufSize) chan bufSize),
        [.success (addedText chan)])

/-- The loop of `AJOIN DEL` over the list, from its character `i`: `itempos`
and `rmlen`, and where it has got to in `remove1`. -/
def delLoop (remove1 : CStr) : CStr → ℕ → ℕ → ℕ → ℕ → ℕ × ℕ × ℕ
  | [], _, j, itempos, rmlen => (itempos, rmlen, j)
  | c :: list, i, j, itempos, rmlen =>
    if rmlen ≠ 0 then delLoop remove1 list (i + 1) j itempos rmlen
    else if remove1[j]?.any fun r => c.toLower = r.toLower then
      delLoop remove1 list (i + 1) (j + 1) (if j = 0 then i else itempos)
        (if remove1.length ≤ j + 1 then j + 1 else 0)
    else delLoop remove1 list (i + 1) 0 itempos 0

def notOnListText (chan : CStr) : String := s!"{String.ofList chan} is not on your AJOIN list."

def removedText (chan : CStr) : String := s!"{String.ofList chan} removed from AJOIN successfully."

/-- What `AJOIN DEL` makes of the list, once it has found the item. -/
def delItem (list : CStr) (itempos rmlen : ℕ) : Option CStr :=
  if list.length ≤ itempos + rmlen then
    if 0 < itempos then some (list.take (itempos - 1)) else none
  else some (list.take itempos ++ list.drop (itempos + (rmlen + 1)))

/-- `AJOIN DEL chan` -/
def ajoinDel (chan : CStr) (md : Option CStr) : Option CStr × List Output :=
  match md with
  | none => (none, [.fail .badparams (notOnListText chan)])
  | some list =>
    let (itempos, rmlen, j) := delLoop chan list 0 0 0 0
    if j < chan.length then (md, [.fail .badparams (notOnListText chan)])
    else (delItem list itempos rmlen, [.success (removedText chan)])

/-- `AJOIN command chan`: the metadata afterwards, and what is sent. -/
def nsCmdAjoin (command chan : Option CStr) (md : Option CStr) : Option CStr × List Output :=
  match command with
  | none => (md, syntaxerr)
  | some command =>
    if strcasecmp command "LIST".toList then (md, ajoinList md)
    else if strcasecmp command "ADD".toList then
      match chan with
      | none => (md, syntaxerr)
      | some chan => ajoinAdd chan md
    else if strcasecmp command "CLEAR".toList then
      (none, [.success "AJOIN list cleared successfully."])
    else if strcasecmp command "DEL".toList then
      match chan with
      | none => (md, syntaxerr)
      | some chan => ajoinDel chan md
    else (md, [])

/-- What an `SVSJOIN` is sent with: whether the IRC daemon is
elemental-ircd, the names of the services server and of NickServ. -/
structure Uplink where
  elemental : Bool
  me : CStr
  nicksvs : CStr

/-- The line that makes the user join. -/
def svsjoin (up : Uplink) (u chan : CStr) : CStr :=
  (if up.elemental then ':' :: up.me ++ " ENCAP * SVSJOIN ".toList
    else ':' :: up.nicksvs ++ " SVSJOIN ".toList) ++ u ++ ' ' :: chan

/-- `ajoin_on_identify(u)`, of a user logged in to the account: the lines that
are sent. -/
def ajoinOnIdentify (up : Uplink) (u : CStr) (md : Option CStr) : List CStr :=
  match md with
  | none => []
  | some value =>
    match strtok (some (strlcpy value bufSize)) [' ', ','] [] with
    | (none, _) => []
    | (some chan, saved) => svsjoin up u chan :: (tokens [','] saved).map (svsjoin up u)

/-! ### The entries -/

/-- The entries that `LIST` shows. -/
def entries (md : Option CStr) : List CStr :=
  match md with
  | none => []
  | some value => tokens [','] (strlcpy value bufSize)

theorem ajoinList_eq (md : Option CStr) :
    ajoinList md = .success "\x02AJOIN LIST\x02:" ::
      ((entries md).map listLine ++ [.success "End of \x02AJOIN LIST\x02"]) := by cases md <;> rfl

theorem mem_entries {md : Option CStr} {e : CStr} (h : e ∈ entries md) :
    e ≠ [] ∧ ',' ∉ e ∧ e.length < bufSize := by
  cases md with
  | none => cases h
  | some value =>
    obtain ⟨h0, hcomma, hlen⟩ := mem_tokens h
    refine ⟨h0, fun hc => hcomma _ hc (by simp), Nat.lt_of_le_of_lt hlen ?_⟩
    rw [strlcpy, List.length_take]
    exact Nat.lt_of_le_of_lt (Nat.min_le_left _ _) (by decide)

/-- The list and the new entry would be too long. -/
def TooLong (md : Option CStr) (chan : CStr) : Prop :=
  ∃ value, md = some value ∧ 400 < value.length + chan.length

/-- **What `ADD` does**: it refuses, and the string stays, or it accepts, and
the tokens of its parameter are the new entries. -/
theorem ajoinAdd_cases (chan : CStr) (md : Option CStr) :
    ((ajoinAdd chan md).1 = md ∧ .success (addedText chan) ∉ (ajoinAdd chan md).2 ∧
      (TooLong md chan ∨ ∃ e ∈ entries md, strcasecmp e chan = true)) ∨
    (entries (ajoinAdd chan md).1 = entries md ++ tokens [','] (strlcpy chan bufSize) ∧
      .success (addedText chan) ∈ (ajoinAdd chan md).2 ∧ ¬ TooLong md chan ∧
      ∀ e ∈ entries md, strcasecmp e chan = false) := by
  cases md with
  | none =>
    refine Or.inr ⟨rfl, List.mem_singleton.mpr rfl, ?_, fun e he => by cases he⟩
    rintro ⟨value, h, -⟩
    cases h
  | some value =>
    have hlong : TooLong (some value) chan ↔ 400 < value.length + chan.length := by simp [TooLong]
    rw [hlong]
    unfold ajoinAdd
    simp only
    split
    · rename_i h
      obtain ⟨e, he, hc⟩ := List.any_eq_true.mp h
      exact Or.inl ⟨rfl, by simp, Or.inr ⟨e, he, hc⟩⟩
    · rename_i h
      have hfresh : ∀ e ∈ entries (some value), strcasecmp e chan = false := by
        intro e he
        by_contra hc
        exact h (List.any_eq_true.mpr ⟨e, he, by simpa using hc⟩)
      split
      · rename_i hlen
        exact Or.inl ⟨rfl, by simp, Or.inl hlen⟩
      · rename_i hlen
        refine Or.inr ⟨?_, List.mem_singleton.mpr rfl, hlen, hfresh⟩
        have hvalue : strlcpy value bufSize = value := strlcpy_eq_self (by unfold bufSize; omega)
        have hchan : strlcpy chan bufSize = chan := strlcpy_eq_self (by unfold bufSize; omega)
        have hcat : strlcat (strlcat value [','] bufSize) chan bufSize = value ++ ',' :: chan := by
          have hcomma : strlcat value [','] bufSize = value ++ [','] := by
            rw [strlcat, List.take_of_length_le]
            simp only [bufSize, List.length_singleton]
            omega
          rw [hcomma, strlcat, List.take_of_length_le, List.append_assoc, List.singleton_append]
          simp only [bufSize, List.length_append, List.length_singleton]
          omega
        have hnew : strlcpy (value ++ ',' :: chan) bufSize = value ++ ',' :: chan := by
          apply strlcpy_eq_self
          simp only [bufSize, List.length_append, List.length_cons]
          omega
        simp only [entries, hvalue, hcat, hnew, hchan]
        exact tokens_append (by simp) value chan

/-! ### Runs of ADD and CLEAR -/

/-- The commands that a user builds the list with. -/
inductive Cmd
  | add (chan : CStr)
  | clear
deriving DecidableEq, Repr

/-- The metadata after the command. -/
def step (md : Option CStr) : Cmd → Option (Option CStr)
  | .add chan => some (nsCmdAjoin (some "ADD".toList) (some chan) md).1
  | .clear => some (nsCmdAjoin (some "CLEAR".toList) none md).1

theorem step_add (chan : CStr) (md : Option CStr) : step md (.add chan) = some (ajoinAdd chan md).1 := rfl

theorem step_clear (md : Option CStr) : step md .clear = some none := rfl

/-! ### The channels that are joined -/

/-- The user is made to join what `LIST` shows, each once, in that order. -/
def Agrees (up : Uplink) (u : CStr) (md : Option CStr) : Prop :=
  ∃ es : List CStr, ajoinList md = .success "\x02AJOIN LIST\x02:" ::
      (es.map listLine ++ [.success "End of \x02AJOIN LIST\x02"]) ∧
    ajoinOnIdentify up u md = es.map (svsjoin up u)

/-- What comes before the first comma, once those in front are skipped. -/
def firstPiece (value : CStr) : CStr :=
  ((strlcpy value bufSize).dropWhile (· = ',')).takeWhile (· ≠ ',')

/-- An `ADD` that starts the list, and is not refused, starts it with a piece
without blanks. -/
def Starts (md : Option CStr) : Cmd → Prop
  | .add chan => entries md = [] → ¬ TooLong md chan → ' ' ∉ firstPiece chan
  | .clear => True

/-- The first entry, if there is one, has no blank. -/
def Whole (es : List CStr) : Prop := ∀ e, es.head? = some e → ' ' ∉ e

theorem head?_tokens (delims : List Char) (s : CStr) :
    (tokens delims s).head? = (strtok none delims s).1 := by
  rcases hs : strtok none delims s with ⟨_ | w, t⟩
  · rw [tokens_of_none hs]
    rfl
  · rw [tokens_of_strtok hs]
    rfl

theorem whole_iff (chan : CStr) : Whole (tokens [','] (strlcpy chan bufSize)) ↔ ' ' ∉ firstPiece chan := by
  have hskip : ∀ s : CStr, s.dropWhile (· ∈ [',']) = s.dropWhile (· = ',') := by simp
  have hpiece : ∀ s : CStr, s.takeWhile (· ∉ [',']) = s.takeWhile (· ≠ ',') := by simp
  unfold Whole firstPiece
  rw [head?_tokens, strtok, Option.getD_none, hskip]
  rcases (strlcpy chan bufSize).dropWhile (· = ',') with _ | ⟨c, s⟩
  · simp
  · simp only [hpiece, Option.some.injEq]
    exact forall_eq'

theorem svsjoin_inj {up : Uplink} {u chan chan' : CStr} (h : svsjoin up u chan = svsjoin up u chan') :
    chan = chan' := by
  unfold svsjoin at h
  exact (List.cons.inj (List.append_cancel_left h)).2

theorem listLine_inj : Function.Injective listLine := by
  intro a b h
  injection h with h
  exact String.ofList_injective h

/-- **What is joined is what is listed** exactly if there is no blank in the
first entry: only there do blanks end a token. -/
theorem agrees_iff (up : Uplink) (u : CStr) (md : Option CStr) : Agrees up u md ↔ Whole (entries md) := by
  have hlist : Agrees up u md ↔ ajoinOnIdentify up u md = (entries md).map (svsjoin up u) := by
    constructor
    · intro ⟨es, hes, hjoin⟩
      rw [ajoinList_eq, List.cons.injEq, List.append_left_inj] at hes
      rw [hjoin, List.map_injective_iff.mpr listLine_inj hes.2]
    · exact fun h => ⟨entries md, ajoinList_eq md, h⟩
  rw [hlist]
  cases md with
  | none => exact iff_of_true rfl fun e he => by cases he
  | some value =>
    unfold ajoinOnIdentify entries
    simp only [strtok_some]
    generalize strlcpy value bufSize = s
    have hboth : ∀ {c : Char}, c ∈ [','] → c ∈ [' ', ','] := fun hc => List.mem_cons_of_mem _ hc
    rcases exists_token [','] s with hs | ⟨d, w, hd, h0, hw, hs⟩
    · rw [strtok_delims fun c hc => hboth (hs c hc), tokens_of_none (strtok_delims hs)]
      exact iff_of_true rfl fun e he => by cases he
    · have hd' : ∀ c ∈ d, c ∈ [' ', ','] := fun c hc => hboth (hd c hc)
      obtain ⟨t, hfirst, hnoblank⟩ : ∃ t, strtok none [','] s = (some w, t) ∧
          (' ' ∉ w → strtok none [' ', ','] s = (some w, t)) := by
        have hw' : ' ' ∉ w → ∀ c ∈ w, c ∉ [' ', ','] := by
          intro hb c hc hmem
          rcases List.mem_cons.mp hmem with rfl | hmem
          · exact hb hc
          · exact hw c hc hmem
        rcases hs with rfl | ⟨x, t, hx, rfl⟩
        · rw [strtok_skip hd, strtok_skip hd']
          exact ⟨[], strtok_last h0 hw, fun hb => strtok_last h0 (hw' hb)⟩
        · rw [strtok_skip hd, strtok_skip hd']
          exact ⟨t, strtok_word h0 hw hx t, fun hb => strtok_word h0 (hw' hb) (hboth hx) t⟩
      rw [tokens_of_strtok hfirst]
      constructor
      · intro hjoin e he hblank
        rw [List.head?_cons, Option.some.injEq] at he
        rcases hj : strtok none [' ', ','] s with ⟨_ | v, u'⟩
        · rw [hj] at hjoin
          cases hjoin
        · rw [hj] at hjoin
          simp only [List.map_cons, List.cons.injEq] at hjoin
          obtain ⟨-, -, -, hv, -⟩ := strtok_token hj
          rw [svsjoin_inj hjoin.1, he] at hv
          exact hv ' ' hblank (by simp)
      · intro hwhole
        rw [hnoblank (hwhole w rfl)]
        rfl

/-- A command keeps the first entry whole exactly if it does not start the
list with a piece that has a blank. -/
theorem starts_iff {md md' : Option CStr} {cmd : Cmd} (hmd : Whole (entries md))
    (hs : step md cmd = some md') : Starts md cmd ↔ Whole (entries md') := by
  cases cmd with
  | clear =>
    rw [step_clear] at hs
    cases hs
    exact iff_of_true trivial fun e he => by cases he
  | add chan =>
    rw [step_add] at hs
    cases hs
    rcases ajoinAdd_cases chan md with ⟨hsame, -, hwhy⟩ | ⟨hnew, -, hshort, -⟩
    · rw [hsame]
      refine iff_of_true (fun h0 hshort => ?_) hmd
      rcases hwhy with hlong | ⟨e, he, -⟩
      · exact absurd hlong hshort
      · rw [h0] at he
        cases he
    · rw [hnew]
      cases hes : entries md with
      | nil =>
        rw [List.nil_append, whole_iff]
        exact ⟨fun h => h hes hshort, fun h _ _ => h⟩
      | cons e es =>
        rw [hes] at hmd
        refine iff_of_true (fun h0 => ?_) hmd
        rw [hes] at h0
        cases h0

/-- **A user that identifies is made to join what `AJOIN LIST` shows**, after
each command of a run, exactly if no `ADD` of the run starts the list with a
piece that has a blank in it. -/
theorem joins_listed_iff (up : Uplink) (u : CStr) (cmds : List Cmd) :
    Always step (Agrees up u) none cmds ↔ Along step (fun md cmd _ => Starts md cmd) none cmds := by
  have hstart : Whole (entries none) := fun e he => by cases he
  refine always_iff_along (fun _ => True) trivial ((agrees_iff up u none).mpr hstart) ?_
    (fun _ _ _ _ _ _ => trivial) cmds
  intro md cmd md' _ hmd hs
  rw [agrees_iff] at hmd ⊢
  exact starts_iff hmd hs

/-- `AJOIN ADD #a #b`: `LIST` shows one entry, and two channels are joined. -/
theorem entry_joined_twice : step none (.add "#a #b".toList) = some (some "#a #b".toList) ∧
    ajoinList (some "#a #b".toList) = [.success "\x02AJOIN LIST\x02:", .success "#a #b",
      .success "End of \x02AJOIN LIST\x02"] ∧
    ajoinOnIdentify ⟨false, "services.".toList, "NickServ".toList⟩ "alice".toList (some "#a #b".toList) =
      [":NickServ SVSJOIN alice #a".toList, ":NickServ SVSJOIN alice #b".toList] := by decide

/-! ### The list as a set -/

/-- `ADD` appends its parameter, or changes nothing, and no entry is there
twice. -/
def Ordered (md : Option CStr) (cmd : Cmd) (md' : Option CStr) : Prop :=
  match cmd with
  | .clear => True
  | .add chan =>
    if .success (addedText chan) ∈ (nsCmdAjoin (some "ADD".toList) (some chan) md).2 then
      entries md' = entries md ++ [chan] ∧ (entries md').Pairwise fun a b => strcasecmp a b = false
    else md' = md

/-- The parameter is one entry, or is refused for its length. -/
def Single (md : Option CStr) : Cmd → Prop
  | .clear => True
  | .add chan => (chan ≠ [] ∧ ',' ∉ chan ∧ chan.length < bufSize) ∨ TooLong md chan

/-- A parameter is its only token exactly if it is not empty, has no comma and
is not cut. -/
theorem tokens_single_iff (chan : CStr) : tokens [','] (strlcpy chan bufSize) = [chan] ↔
    chan ≠ [] ∧ ',' ∉ chan ∧ chan.length < bufSize := by
  constructor
  · intro h
    obtain ⟨h0, hcomma, hlen⟩ := mem_tokens (s := strlcpy chan bufSize) (w := chan) (by rw [h]; simp)
    refine ⟨h0, fun hc => hcomma ',' hc (by simp), Nat.lt_of_le_of_lt hlen ?_⟩
    rw [strlcpy, List.length_take]
    exact Nat.lt_of_le_of_lt (Nat.min_le_left _ _) (by decide)
  · intro h
    obtain ⟨h0, hcomma, hlen⟩ := h
    rw [strlcpy_eq_self hlen]
    refine tokens_word h0 fun c hc hmem => ?_
    rw [List.mem_singleton.mp hmem] at hc
    exact hcomma hc

/-- No entry is there twice. -/
def Distinct (md : Option CStr) : Prop := (entries md).Pairwise fun a b => strcasecmp a b = false

theorem ordered_iff {md md' : Option CStr} {cmd : Cmd} (hmd : Distinct md) (hs : step md cmd = some md') :
    Single md cmd ↔ Ordered md cmd md' := by
  cases cmd with
  | clear => exact Iff.rfl
  | add chan =>
    rw [step_add] at hs
    cases hs
    have hrun : nsCmdAjoin (some "ADD".toList) (some chan) md = ajoinAdd chan md := rfl
    unfold Ordered Single
    simp only [hrun]
    rcases ajoinAdd_cases chan md with ⟨hsame, hno, hwhy⟩ | ⟨hnew, hyes, hshort, hfresh⟩
    · rw [if_neg hno]
      refine iff_of_true ?_ hsame
      rcases hwhy with hlong | ⟨e, he, hdup⟩
      · exact Or.inr hlong
      · -- the entry that it repeats is one token
        obtain ⟨h0, hcomma, hlen⟩ := mem_entries he
        have hsize := strcasecmp_length hdup
        refine Or.inl ⟨fun hc => h0 ?_, fun hc => hcomma (strcasecmp_mem (by decide) hdup hc), by omega⟩
        rwa [hc, List.length_nil, List.length_eq_zero_iff] at hsize
    · rw [if_pos hyes, hnew, ← tokens_single_iff, or_iff_left hshort]
      constructor
      · intro h
        refine ⟨by rw [h], ?_⟩
        rw [h, List.pairwise_append]
        refine ⟨hmd, List.pairwise_singleton _ _, fun e he c hc => ?_⟩
        rw [List.mem_singleton.mp hc]
        exact hfresh e he
      · exact fun h => List.append_cancel_left h.1

theorem distinct_step {md md' : Option CStr} {cmd : Cmd} (hmd : Distinct md) (hs : step md cmd = some md')
    (h : Ordered md cmd md') : Distinct md' := by
  cases cmd with
  | clear =>
    rw [step_clear] at hs
    cases hs
    exact List.Pairwise.nil
  | add chan =>
    unfold Ordered at h
    simp only at h
    split at h
    · exact h.2
    · rwa [h]

/-- **`AJOIN ADD` keeps an ordered set** in a run exactly if each parameter of
an `ADD` is one entry, not empty, without a comma and not cut, or is refused
for its length. -/
theorem ordered_set_iff (cmds : List Cmd) :
    Along step Ordered none cmds ↔ Along step (fun md cmd _ => Single md cmd) none cmds := by
  have hnone : Distinct none := List.Pairwise.nil
  refine (along_congr Distinct (C := fun md cmd _ => Single md cmd) (Q := Ordered) ?_ ?_ hnone).symm
  · exact fun md cmd md' hmd hs => ordered_iff hmd hs
  · exact fun md cmd md' hmd hs hc => distinct_step hmd hs ((ordered_iff hmd hs).mp hc)

/-- `AJOIN ADD #b` and `AJOIN ADD #a,#b`: two more entries, one of them a
second time. -/
theorem entry_added_twice :
    exec step none [.add "#b".toList, .add "#a,#b".toList] = some (some "#b,#a,#b".toList) ∧
    (nsCmdAjoin (some "ADD".toList) (some "#a,#b".toList) (some "#b".toList)).2 =
      [.success "#a,#b added to AJOIN successfully."] ∧
    entries (some "#b,#a,#b".toList) = ["#b".toList, "#a".toList, "#b".toList] := by decide

end Ajoin
end AthemeContrib
