/-
# os_joinmon: the patterns whose users are watched

`JOINMON` keeps a list of patterns, saved as rows of the type `JM`. Without a
reason an entry gets the literal `"None"`, not a copy of it; `DEL` frees the
reason of the entry that it unlinks, and freeing a literal ends the program,
which is the command's `none`.

Key definitions: `Reason`, `Joinmon`, `osCmdJoinmon`, `writeJmdb`, `dbHJm`,
`op`, `FreesLiteral`.
Key theorems: `osCmdJoinmon_cases`, `osCmdJoinmon_edited`,
`osCmdJoinmon_writable`, `dbHJm_row`.
-/
import AthemeContrib.Command
import AthemeContrib.Lib.Rows

namespace AthemeContrib
namespace OsJoinmon

open CStr Rows

/-- What a `reason` points to: a copy that `sstrdup` made, or a literal of the
program. -/
inductive Reason
  | copy (str : CStr)
  | literal (str : CStr)
deriving DecidableEq, Repr

/-- The text pointed to. -/
def Reason.str : Reason → CStr
  | .copy str => str
  | .literal str => str

structure Joinmon where
  user : CStr
  monTs : ℕ
  creator : CStr
  reason : Reason
deriving DecidableEq, Repr

/-- The row of one pattern. -/
def joinmonRow (l : Joinmon) : Row := entryRow "JM".toList l.user l.monTs l.creator l.reason.str

/-- `write_jmdb` -/
def writeJmdb (osMonlist : List Joinmon) : List Row := osMonlist.map joinmonRow

/-- `db_h_jm` -/
def dbHJm (B : Backend) (osMonlist : List Joinmon) : RowReader B (List Joinmon) := do
  let (user, monTs, creator, reason) ← sreadEntry
  return osMonlist ++ [⟨user, monTs, creator, .copy reason⟩]

/-- A line of `JOINMON LIST`. -/
def listLine (core : Core) (l : Joinmon) : Output :=
  let user := String.ofList l.user
  let reason := String.ofList l.reason.str
  let creator := String.ofList l.creator
  let buf := core.strftime l.monTs
  .success s!"Pattern: \x02{user}\x02, Reason: \x02{reason}\x02 ({creator} - {buf})"

/-- `JOINMON ADD pattern [reason]` -/
def joinmonAdd (core : Core) (si : Source) (now : ℕ) (pattern reason : Option CStr)
    (osMonlist : List Joinmon) : List Joinmon × List Output :=
  match pattern with
  | none => (osMonlist,
    [.fail .needmoreparams (STR_INSUFFICIENT_PARAMS "JOINMON"),
      .fail .needmoreparams "Syntax: JOINMON ADD <pattern> [reason]"])
  | some pattern =>
    if si.smu.isNone then (osMonlist, [.fail .noprivs STR_NOT_LOGGED_IN])
    else if osMonlist.any fun l => core.irccasecmp l.user pattern then
      (osMonlist, [.success s!"Pattern \x02{String.ofList pattern}\x02 is already being monitored."])
    else
      let reason := match reason with
        | some reason => .copy reason
        | none => .literal "None".toList
      (osMonlist ++ [⟨pattern, now, si.name, reason⟩],
        [.success s!"\x02{String.ofList pattern}\x02 is now being monitored."])

/-- `JOINMON DEL pattern`; a success is not reported. -/
def joinmonDel (core : Core) (pattern : Option CStr) (osMonlist : List Joinmon) :
    Option (List Joinmon × List Output) :=
  match pattern with
  | none => some (osMonlist,
    [.fail .needmoreparams (STR_INSUFFICIENT_PARAMS "JOINMON"),
      .fail .needmoreparams "Syntax: JOINMON DEL <pattern>"])
  | some pattern =>
    match osMonlist.find? fun l => core.irccasecmp l.user pattern with
    | some l =>
      match l.reason with
      | .copy _ => some (osMonlist.eraseP fun l => core.irccasecmp l.user pattern, [])
      | .literal _ => none
    | none => some (osMonlist,
      [.success s!"Pattern \x02{String.ofList pattern}\x02 not found in joinmon database."])

/-- `JOINMON action [pattern] [reason]` -/
def osCmdJoinmon (core : Core) (si : Source) (now : ℕ) (parv : List CStr) (osMonlist : List Joinmon) :
    Option (List Joinmon × List Output) :=
  match parv[0]? with
  | none => some (osMonlist,
    [.fail .needmoreparams (STR_INSUFFICIENT_PARAMS "JOINMON"),
      .fail .needmoreparams "Syntax: JOINMON ADD|DEL|LIST [parameters]"])
  | some action =>
    if strcasecmp "ADD".toList action then some (joinmonAdd core si now parv[1]? parv[2]? osMonlist)
    else if strcasecmp "DEL".toList action then joinmonDel core parv[1]? osMonlist
    else if strcasecmp "LIST".toList action then
      some (osMonlist, osMonlist.map (listLine core) ++ [.success "End of list."])
    else some (osMonlist, [.fail .badparams (STR_INVALID_PARAMS "JOINMON")])

/-! ### What a command does to the list -/

/-- An entry that `JOINMON` adds. -/
def Added (si : Source) (now : ℕ) (parv : List CStr) (l : Joinmon) : Prop :=
  parv[1]? = some l.user ∧ l.monTs = now ∧ l.creator = si.name ∧
    (parv[2]? = some l.reason.str ∨ l.reason = .literal "None".toList)

/-- What the command asks of the list. -/
def op (si : Source) (now : ℕ) (parv : List CStr) : Keyed.Op Joinmon CStr :=
  match parv[0]? with
  | none => .look
  | some action =>
    if strcasecmp "ADD".toList action then
      match parv[1]? with
      | none => .look
      | some pattern =>
        if si.smu.isNone then .look
        else
          let reason := match parv[2]? with
            | some reason => .copy reason
            | none => .literal "None".toList
          .add ⟨pattern, now, si.name, reason⟩
    else if strcasecmp "DEL".toList action then
      match parv[1]? with
      | some pattern => .del pattern
      | none => .look
    else .look

/-- The entry that is to be deleted was added without a reason. -/
def FreesLiteral (core : Core) (op : Keyed.Op Joinmon CStr) (osMonlist : List Joinmon) : Prop :=
  ∃ pattern, op = .del pattern ∧ ∃ l ∈ osMonlist.find? fun l => core.irccasecmp l.user pattern,
    ∃ str, l.reason = .literal str

/-- A `DEL` finds the entry and frees its reason. -/
theorem joinmonDel_some (core : Core) (pattern : CStr) (osMonlist : List Joinmon) :
    FreesLiteral core (.del pattern) osMonlist ∧ joinmonDel core (some pattern) osMonlist = none ∨
    ¬ FreesLiteral core (.del pattern) osMonlist ∧ ∃ out, joinmonDel core (some pattern) osMonlist =
      some (osMonlist.eraseP fun l => core.irccasecmp l.user pattern, out) := by
  have hfrees : FreesLiteral core (.del pattern) osMonlist ↔
      ∃ l ∈ osMonlist.find? fun l => core.irccasecmp l.user pattern, ∃ str, l.reason = .literal str := by
    simp [FreesLiteral]
  rw [hfrees, joinmonDel]
  cases hfind : osMonlist.find? fun l => core.irccasecmp l.user pattern with
  | none =>
    rw [Keyed.erase_of_none hfind]
    exact Or.inr ⟨by simp, _, rfl⟩
  | some l =>
    cases hreason : l.reason with
    | copy str => exact Or.inr ⟨by simp [hreason], [], by simp [hreason]⟩
    | literal str => exact Or.inl ⟨⟨l, rfl, str, hreason⟩, by simp [hreason]⟩

/-- **The list is an ordered set of the patterns**, as long as the command ends. -/
theorem osCmdJoinmon_cases (core : Core) (si : Source) (now : ℕ) (parv : List CStr)
    (osMonlist : List Joinmon) :
    FreesLiteral core (op si now parv) osMonlist ∧ osCmdJoinmon core si now parv osMonlist = none ∨
    ¬ FreesLiteral core (op si now parv) osMonlist ∧ ∃ out, osCmdJoinmon core si now parv osMonlist =
      some ((op si now parv).run core.irccasecmp Joinmon.user osMonlist, out) := by
  have hlook : ¬ FreesLiteral core .look osMonlist := fun h => by
    obtain ⟨_, hop, -⟩ := h
    cases hop
  unfold osCmdJoinmon op
  split
  · exact Or.inr ⟨hlook, _, rfl⟩
  · split
    · right
      unfold joinmonAdd
      split
      · exact ⟨hlook, _, rfl⟩
      · split
        · exact ⟨hlook, _, rfl⟩
        · refine ⟨fun h => ?_, ?_⟩
          · obtain ⟨_, hop, -⟩ := h
            cases hop
          · rw [Keyed.Op.run]
            split
            · exact ⟨_, rfl⟩
            · exact ⟨_, rfl⟩
    · split
      · cases parv[1]? with
        | none => exact Or.inr ⟨hlook, _, rfl⟩
        | some pattern => exact joinmonDel_some core pattern osMonlist
      · right
        split
        · exact ⟨hlook, _, rfl⟩
        · exact ⟨hlook, _, rfl⟩

theorem added_of_op {si : Source} {now : ℕ} {parv : List CStr} {l : Joinmon}
    (h : op si now parv = .add l) : Added si now parv l := by
  unfold op at h
  split at h
  · cases h
  · split at h
    · split at h
      · cases h
      · rename_i pattern hpattern
        split at h
        · cases h
        · cases h
          refine ⟨hpattern, rfl, rfl, ?_⟩
          cases hreason : parv[2]? with
          | some reason => exact Or.inl rfl
          | none => exact Or.inr rfl
    · split at h
      · split at h
        · cases h
        · cases h
      · cases h

/-- What a command makes of the list. -/
theorem osCmdJoinmon_edited {core : Core} {si : Source} {now : ℕ} {parv : List CStr}
    {osMonlist osMonlist' : List Joinmon} {out : List Output}
    (h : osCmdJoinmon core si now parv osMonlist = some (osMonlist', out)) :
    Keyed.Edited core.irccasecmp Joinmon.user (Added si now parv) osMonlist osMonlist' := by
  rcases osCmdJoinmon_cases core si now parv osMonlist with ⟨-, hnone⟩ | ⟨-, out', hrun⟩
  · rw [hnone] at h
    cases h
  · cases hrun.symm.trans h
    exact (Keyed.Op.run_edited _ osMonlist).mono fun _ => added_of_op

/-! ### The rows -/

/-- An entry whose fields can be written. -/
structure Joinmon.Writable (l : Joinmon) : Prop where
  user : Word l.user
  creator : Word l.creator
  reason : l.reason.str ≠ []

/-- The entries can be written after a command, too. -/
theorem osCmdJoinmon_writable {core : Core} {si : Source} {now : ℕ} {parv : List CStr}
    {osMonlist osMonlist' : List Joinmon} {out : List Output} (hsi : Word si.name) (hparv : Params 3 parv)
    (h : ∀ l ∈ osMonlist, l.Writable)
    (hrun : osCmdJoinmon core si now parv osMonlist = some (osMonlist', out)) :
    ∀ l ∈ osMonlist', l.Writable := by
  refine (osCmdJoinmon_edited hrun).forall h fun l hl => ?_
  obtain ⟨huser, -, hcreator, hreason⟩ := hl
  refine ⟨hparv.word huser (by omega), by rw [hcreator]; exact hsi, ?_⟩
  rcases hreason with hreason | hreason
  · exact hparv.final hreason
  · rw [hreason]
    decide

/-- The entry that a load makes of a row: all its strings are copies. -/
def Joinmon.dup (l : Joinmon) : Joinmon := { l with reason := .copy l.reason.str }

/-- A row that is written is read back. -/
theorem dbHJm_row {B : Backend} {l : Joinmon} (h : l.Writable) (osMonlist : List Joinmon) :
    dbHJm B osMonlist (B.text (joinmonRow l).fields) = some (osMonlist ++ [l.dup], B.text []) := by
  rw [dbHJm, joinmonRow, sreadEntry_bind h.user h.creator h.reason]
  rfl

end OsJoinmon
end AthemeContrib
