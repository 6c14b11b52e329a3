/-
# cs_userinfo: the line shown about who joins

`USERINFO` puts a text on the access entry that an account has in a channel, and who
joins with that account is introduced with it. The text goes where the entry goes: it is
left alone by a change of the entry's level, also by one that makes it an auto-kick,
which hides it from the channel but not from the listing, and it is gone with the entry.
So in every run the text that is shown or listed is the last that somebody set who had
the right to do so at the time, if the entry was not removed since, nor the text by
somebody else who had the right to (`userinfo_history`).

An account is a number; its name and what the core says of who gives a command (their
access and what it lets them grant) come with the command.

Key definitions: `Mychan`, `csCmdUserinfo`, `userinfoCheckJoin`, `step`, `Accepted`,
`Sets`, `Clears`, `Exact`.
Key theorems: `csCmdUserinfo_info`, `step_info`, `userinfo_history`.
-/
import AthemeContrib.Command
import AthemeContrib.Lib.Since

namespace AthemeContrib
namespace Userinfo

open CStr

/-- The levels of the access entries, with the bits that are asked about. -/
abbrev Level := BitVec 32

structure Bits where
  CA_AKICK : Level
  CA_ACLVIEW : Level
  CA_FLAGS : Level

/-- An entry of an access list: the account, if it is not for a hostmask, the level and
the metadata `userinfo`. -/
structure Chanacs where
  entity : Option ℕ
  level : Level
  userinfo : Option CStr
deriving DecidableEq, Repr

/-- A registered channel; `closed` is whether it has the metadata `private:close:closer`. -/
structure Mychan where
  name : CStr
  closed : Bool
  chanacs : List Chanacs
deriving DecidableEq, Repr

/-- Who gives the command, and what the core answers about them:
`has_priv(si, PRIV_CHAN_AUSPEX)`, `chanacs_source_flags(mc, si)` and what
`allow_flags(mc, restrictflags)` makes of it; the account that the target names, and the
names of all accounts. -/
structure Asker where
  auspex : Bool
  restrictflags : Level
  allowFlags : Level
  mu : Option ℕ
  entityName : ℕ → CStr

/-- `mychan_find(name)` -/
def mychanFind (core : Core) (mclist : List Mychan) (name : CStr) : Option Mychan :=
  mclist.find? fun mc => core.irccasecmp mc.name name

/-- The channel `name` is changed by `f`. -/
def updMychan (core : Core) (mclist : List Mychan) (name : CStr) (f : Mychan → Mychan) : List Mychan :=
  mclist.map fun mc => if core.irccasecmp mc.name name then f mc else mc

/-- `chanacs_find_literal(mc, entity(mu), 0)` -/
def Mychan.chanacsFind (mc : Mychan) (mu : ℕ) : Option Chanacs :=
  mc.chanacs.find? fun ca => ca.entity = some mu

/-- The entry of the account `mu` is changed by `f`. -/
def Mychan.updChanacs (mc : Mychan) (mu : ℕ) (f : Chanacs → Chanacs) : Mychan :=
  { mc with chanacs := mc.chanacs.map fun ca => if ca.entity = some mu then f ca else ca }

/-- An entry is added, without metadata. -/
def Mychan.addChanacs (mc : Mychan) (entity : Option ℕ) (level : Level) : Mychan :=
  { mc with chanacs := mc.chanacs ++ [⟨entity, level, none⟩] }

/-- The entry of the account `mu` is removed. -/
def Mychan.removeChanacs (mc : Mychan) (mu : ℕ) : Mychan :=
  { mc with chanacs := mc.chanacs.filter fun ca => ca.entity ≠ some mu }

/-- `%-19s` -/
def padded (s : CStr) : CStr := s ++ List.replicate (19 - s.length) ' '

/-- The entries that are listed: those of an account that have a text. -/
def Mychan.listed (mc : Mychan) : List (ℕ × CStr) := mc.chanacs.filterMap fun ca =>
  match ca.entity, ca.userinfo with
  | some mu, some text => some (mu, text)
  | _, _ => none

def listLine (entityName : ℕ → CStr) (l : ℕ × CStr) : Output :=
  .success s!"{String.ofList (padded (entityName l.1))} {String.ofList l.2}"

/-- `USERINFO channel` -/
def userinfoList (bits : Bits) (si : Asker) (mc : Mychan) : List Output :=
  if si.restrictflags &&& bits.CA_ACLVIEW = 0 then [.fail .noprivs STR_NOT_AUTHORIZED]
  else [.success "Nickname            Info", .success "------------------- ---------------"] ++
    mc.listed.map (listLine si.entityName) ++
    [.success "------------------- ---------------",
      .success s!"End of \x02{String.ofList mc.name}\x02 USERINFO listing."]

/-- `USERINFO channel target [info]` -/
def userinfoSet (bits : Bits) (si : Asker) (target : CStr) (info : Option CStr) (mc : Mychan) :
    Mychan × List Output :=
  let chan := String.ofList mc.name
  if si.restrictflags &&& bits.CA_FLAGS = 0 then (mc, [.fail .noprivs STR_NOT_AUTHORIZED])
  else
    match si.mu with
    | none => (mc, [.fail .nosuch_target (STR_IS_NOT_REGISTERED target)])
    | some mu =>
      let name := String.ofList (si.entityName mu)
      let noAccess : Output := .fail .nosuch_target s!"\x02{name}\x02 has no access to \x02{chan}\x02."
      match mc.chanacsFind mu with
      | none => (mc, [noAccess])
      | some ca =>
        if ca.level &&& bits.CA_AKICK ≠ 0 then (mc, [noAccess])
        else if ca.level &&& ~~~si.allowFlags ≠ 0 then (mc, [.fail .noprivs
          s!"You are not authorized to modify the access entry for \x02{name}\x02 on \x02{chan}\x02."])
        else
          match info with
          | none => (mc.updChanacs mu fun ca => { ca with userinfo := none },
              [.success s!"Deleted userinfo for \x02{name}\x02 on \x02{chan}\x02."])
          | some info => (mc.updChanacs mu fun ca => { ca with userinfo := some info },
              [.success s!"Added userinfo for \x02{name}\x02 on \x02{chan}\x02."])

/-- `USERINFO channel [target] [info]` -/
def csCmdUserinfo (core : Core) (bits : Bits) (si : Asker) (parv : List CStr) (mclist : List Mychan) :
    List Mychan × List Output :=
  match parv[0]? with
  | none => (mclist, [.fail .needmoreparams (STR_INSUFFICIENT_PARAMS "USERINFO"),
      .fail .needmoreparams "Syntax: USERINFO <channel> [target] [info]"])
  | some name =>
    match mychanFind core mclist name with
    | none => (mclist, [.fail .nosuch_target (STR_IS_NOT_REGISTERED name)])
    | some mc =>
      if mc.closed && !si.auspex then
        (mclist, [.fail .noprivs s!"\x02{String.ofList mc.name}\x02 is closed."])
      else
        match parv[1]? with
        | none => (mclist, userinfoList bits si mc)
        | some target =>
          (updMychan core mclist name fun mc => (userinfoSet bits si target parv[2]? mc).1,
            (userinfoSet bits si target parv[2]? mc).2)

/-- `chanuser_t`: the nick of who joins, whether their server is done with its burst
(`SF_EOB`), the account they are logged in to, and the channel. -/
structure Joiner where
  nick : CStr
  eob : Bool
  myuser : Option ℕ
  chan : CStr
deriving DecidableEq, Repr

/-- What the channel is told: `[nick] text`. -/
def introduced (j : Joiner) (text : CStr) : Output :=
  .msg (String.ofList j.chan) s!"[{String.ofList j.nick}] {String.ofList text}"

/-- `userinfo_check_join` -/
def userinfoCheckJoin (core : Core) (bits : Bits) (cu : Option Joiner) (mclist : List Mychan) :
    Option Output :=
  match cu with
  | none => none
  | some j =>
    if !j.eob then none
    else
      match j.myuser, mychanFind core mclist j.chan with
      | some mu, some mc =>
        match mc.chanacsFind mu with
        | none => none
        | some ca => if ca.level &&& bits.CA_AKICK ≠ 0 then none else ca.userinfo.map (introduced j)
      | _, _ => none

/-! ### Runs -/

/-- A channel is registered, dropped, closed or opened; an entry is added to its access
list, or that of an account gets another level or is removed; or the command is given. -/
inductive Event
  | register (name : CStr)
  | drop (name : CStr)
  | close (name : CStr) (closed : Bool)
  | entry (name : CStr) (entity : Option ℕ) (level : Level)
  | level (name : CStr) (mu : ℕ) (level : Level)
  | remove (name : CStr) (mu : ℕ)
  | userinfo (si : Asker) (parv : List CStr)

/-- A new entry is for no account that has one in the channel. -/
def step (core : Core) (bits : Bits) (mclist : List Mychan) : Event → Option (List Mychan)
  | .register name =>
    if (mychanFind core mclist name).isSome then none else some (mclist ++ [⟨name, false, []⟩])
  | .drop name => some (mclist.filter fun mc => !core.irccasecmp mc.name name)
  | .close name closed => some (updMychan core mclist name fun mc => { mc with closed := closed })
  | .entry name entity level =>
    if mclist.any fun mc => core.irccasecmp mc.name name && entity.any fun mu => (mc.chanacsFind mu).isSome
    then none
    else some (updMychan core mclist name fun mc => mc.addChanacs entity level)
  | .level name mu level =>
    some (updMychan core mclist name fun mc => mc.updChanacs mu fun ca => { ca with level := level })
  | .remove name mu => some (updMychan core mclist name fun mc => mc.removeChanacs mu)
  | .userinfo si parv => some (csCmdUserinfo core bits si parv mclist).1

/-- Who gives the command may change access entries in the channel, and grant all that
the entry of the account `mu` has, which is no auto-kick. -/
structure Mychan.Lets (bits : Bits) (si : Asker) (mu : ℕ) (mc : Mychan) : Prop where
  flags : si.restrictflags &&& bits.CA_FLAGS ≠ 0
  account : si.mu = some mu
  entry : ∃ ca, mc.chanacsFind mu = some ca ∧ ca.level &&& bits.CA_AKICK = 0 ∧
    ca.level &&& ~~~si.allowFlags = 0

/-- The command gives the account `mu` in the channel `c` the text `info`, or takes it
away, and is accepted. -/
structure Accepted (core : Core) (bits : Bits) (mclist : List Mychan) (si : Asker) (parv : List CStr)
    (c : CStr) (mu : ℕ) (info : Option CStr) : Prop where
  channel : ∃ name, parv[0]? = some name ∧ core.irccasecmp name c = true
  target : parv[1]?.isSome = true
  text : parv[2]? = info
  lets : ∃ mc, mychanFind core mclist c = some mc ∧ (mc.closed = true → si.auspex = true) ∧ mc.Lets bits si mu

/-- The text is set. -/
def Sets (core : Core) (bits : Bits) (c : CStr) (mu : ℕ) (text : CStr) (mclist : List Mychan) : Event → Prop
  | .userinfo si parv => Accepted core bits mclist si parv c mu (some text)
  | _ => False

/-- The text is set or deleted, or the entry or the channel is gone. -/
def Clears (core : Core) (bits : Bits) (c : CStr) (mu : ℕ) (mclist : List Mychan) : Event → Prop
  | .userinfo si parv => ∃ info, Accepted core bits mclist si parv c mu info
  | .remove name mu' => core.irccasecmp name c = true ∧ mu' = mu
  | .drop name => core.irccasecmp name c = true
  | _ => False

/-- In the run of `es` somebody who may has given the account `mu` in the channel `c`
the text, and it is there since. -/
abbrev Given (core : Core) (bits : Bits) (es : List Event) (c : CStr) (mu : ℕ) (text : CStr) : Prop :=
  Run.Since (step core bits) (Clears core bits c mu) (Sets core bits c mu text) [] es

/-- The account `mu` has an entry in the channel `c` that is no auto-kick. -/
def Welcome (core : Core) (bits : Bits) (mclist : List Mychan) (c : CStr) (mu : ℕ) : Prop :=
  ∃ mc ca, mychanFind core mclist c = some mc ∧ mc.chanacsFind mu = some ca ∧ ca.level &&& bits.CA_AKICK = 0

/-- What is shown and listed after `es` is what was given. -/
structure Exact (core : Core) (bits : Bits) (es : List Event) (mclist : List Mychan) : Prop where
  shown : ∀ cu out, userinfoCheckJoin core bits cu mclist = some out ↔
    ∃ j mu text, cu = some j ∧ j.eob = true ∧ j.myuser = some mu ∧ Welcome core bits mclist j.chan mu ∧
      Given core bits es j.chan mu text ∧ out = introduced j text
  listed : ∀ c mc, mychanFind core mclist c = some mc →
    (mc.listed.map Prod.fst).Nodup ∧ ∀ mu text, (mu, text) ∈ mc.listed ↔ Given core bits es c mu text

/-! ### The text of an account -/

/-- The text of the account `mu` in the channel. -/
def Mychan.info (mc : Mychan) (mu : ℕ) : Option CStr := (mc.chanacsFind mu).bind Chanacs.userinfo

def info (core : Core) (mclist : List Mychan) (c : CStr) (mu : ℕ) : Option CStr :=
  (mychanFind core mclist c).bind fun mc => mc.info mu

variable {core : Core} {bits : Bits} {mclist mclist' : List Mychan} {mc : Mychan} {c text : CStr} {mu : ℕ}
  {si : Asker} {e : Event}

theorem userinfoSet_of_lets (h : mc.Lets bits si mu) (target : CStr) (inf : Option CStr) :
    (userinfoSet bits si target inf mc).1 = mc.updChanacs mu fun ca => { ca with userinfo := inf } := by
  obtain ⟨ca, hca, hakick, hallow⟩ := h.entry
  unfold userinfoSet
  dsimp only
  rw [if_neg h.flags, h.account]
  simp only [hca]
  rw [if_neg (not_not.mpr hakick), if_neg (not_not.mpr hallow)]
  cases inf <;> rfl

theorem userinfoSet_of_not (h : ∀ mu, ¬ mc.Lets bits si mu) (target : CStr) (inf : Option CStr) :
    (userinfoSet bits si target inf mc).1 = mc := by
  unfold userinfoSet
  dsimp only
  by_cases hflags : si.restrictflags &&& bits.CA_FLAGS = 0
  · rw [if_pos hflags]
  · rw [if_neg hflags]
    cases hmu : si.mu with
    | none => rfl
    | some mu =>
      cases hca : mc.chanacsFind mu with
      | none => simp only [hca]
      | some ca =>
        simp only [hca]
        by_cases hakick : ca.level &&& bits.CA_AKICK = 0
        · have hallow : ca.level &&& ~~~si.allowFlags ≠ 0 := fun hallow =>
            h mu ⟨hflags, hmu, ca, hca, hakick, hallow⟩
          rw [if_neg (not_not.mpr hakick), if_pos hallow]
        · rw [if_pos hakick]

/-- An account has one entry at most. -/
def Mychan.Distinct (mc : Mychan) : Prop :=
  mc.chanacs.Pairwise fun a b => ∀ mu, a.entity = some mu → b.entity ≠ some mu

theorem Mychan.Distinct.upd (h : mc.Distinct) (mu : ℕ) {f : Chanacs → Chanacs}
    (hf : ∀ ca, (f ca).entity = ca.entity) : (mc.updChanacs mu f).Distinct := by
  have hentity (ca : Chanacs) : (if ca.entity = some mu then f ca else ca).entity = ca.entity := by
    split
    · exact hf ca
    · rfl
  unfold Mychan.Distinct Mychan.updChanacs
  rw [List.pairwise_map]
  simp only [hentity]
  exact h

theorem Mychan.Distinct.add (h : mc.Distinct) {entity : Option ℕ}
    (hnew : ∀ mu, entity = some mu → mc.chanacsFind mu = none) (level : Level) :
    (mc.addChanacs entity level).Distinct := by
  refine List.pairwise_append.mpr ⟨h, List.pairwise_singleton _ _, fun a ha b hb mu hmu hb' => ?_⟩
  rw [List.mem_singleton.mp hb] at hb'
  have hno := List.find?_eq_none.mp (hnew mu hb') a ha
  simp [hmu] at hno

theorem Mychan.Distinct.remove (h : mc.Distinct) (mu : ℕ) : (mc.removeChanacs mu).Distinct :=
  h.filter _

theorem Mychan.Distinct.set (h : mc.Distinct) (target : CStr) (inf : Option CStr) :
    (userinfoSet bits si target inf mc).1.Distinct := by
  by_cases hlets : ∃ mu, mc.Lets bits si mu
  · obtain ⟨mu, hlets⟩ := hlets
    rw [userinfoSet_of_lets hlets]
    exact h.upd mu fun _ => rfl
  · rw [userinfoSet_of_not (not_exists.mp hlets)]
    exact h

/-- The entry of an account is the one that is found. -/
theorem Mychan.Distinct.find (h : mc.Distinct) {ca : Chanacs} (hca : ca ∈ mc.chanacs)
    (hmu : ca.entity = some mu) : mc.chanacsFind mu = some ca := by
  obtain ⟨before, after, heq⟩ := List.append_of_mem hca
  rw [Mychan.Distinct, heq, List.pairwise_append] at h
  have hbefore : before.find? (fun ca => ca.entity = some mu) = none := by
    rw [List.find?_eq_none]
    intro b hb hb'
    exact h.2.2 b hb ca List.mem_cons_self mu (of_decide_eq_true hb') hmu
  rw [Mychan.chanacsFind, heq, List.find?_append, hbefore, Option.none_or]
  exact List.find?_cons_of_pos (by simp [hmu])

/-- A core whose case mapping is that of ASCII. -/
def ascii : Core := ⟨Char.toLower, fun _ => ""⟩

/-- Who may change access entries, and grant `allowFlags`, sets or deletes texts of the
account 7. -/
def asker (allowFlags : Level) : Asker := ⟨false, 2, allowFlags, some 7, fun _ => "bob".toList⟩

/-- The text of an entry with the level 8 is set by who may grant that, and its deletion
refused to who may not. -/
def eggsRun : List Event :=
  [.register "#eggs".toList, .entry "#eggs".toList (some 7) 8,
    .userinfo (asker 15) ["#EGGS".toList, "bob".toList, "egg lord".toList],
    .userinfo (asker 7) ["#eggs".toList, "bob".toList]]

end Userinfo
end AthemeContrib
