/-
# ns_goodmail: the addresses an account can be registered with

`GOODMAIL` keeps a list of address patterns, saved as rows of the type `GE`.
The list is an ordered set of the addresses (`nsCmdGoodmail_fst`).

Key definitions: `Goodmail`, `nsCmdGoodmail`, `writeGedb`, `dbHGe`, `op`.
Key theorems: `nsCmdGoodmail_fst`, `nsCmdGoodmail_edited`,
`nsCmdGoodmail_writable`, `dbHGe_row`.
-/
import AthemeContrib.Command
import AthemeContrib.Lib.Rows

namespace AthemeContrib
namespace NsGoodmail

open CStr Rows

structure Goodmail where
  mail : CStr
  mailTs : ℕ
  creator : CStr
  reason : CStr
deriving DecidableEq, Repr

/-- The row of one address. -/
def goodmailRow (l : Goodmail) : Row := entryRow "GE".toList l.mail l.mailTs l.creator l.reason

/-- `write_gedb` -/
def writeGedb (nsMaillist : List Goodmail) : List Row := nsMaillist.map goodmailRow

/-- `db_h_ge` -/
def dbHGe (B : Backend) (nsMaillist : List Goodmail) : RowReader B (List Goodmail) := do
  let (mail, mailTs, creator, reason) ← sreadEntry
  return nsMaillist ++ [⟨mail, mailTs, creator, reason⟩]

/-- A line of `GOODMAIL LIST`. -/
def listLine (core : Core) (l : Goodmail) : Output :=
  let mail := String.ofList l.mail
  let reason := String.ofList l.reason
  let creator := String.ofList l.creator
  let buf := core.strftime l.mailTs
  .success s!"Email: \x02{mail}\x02, Reason: \x02{reason}\x02 ({creator} - {buf})"

/-- `GOODMAIL ADD email reason` -/
def goodmailAdd (core : Core) (si : Source) (now : ℕ) (email reason : Option CStr)
    (nsMaillist : List Goodmail) : List Goodmail × List Output :=
  match email, reason with
  | some email, some reason =>
    if si.smu.isNone then (nsMaillist, [.fail .noprivs STR_NOT_LOGGED_IN])
    else if nsMaillist.any fun l => core.irccasecmp l.mail email then
      (nsMaillist, [.success s!"Email \x02{String.ofList email}\x02 has already been whitelisted."])
    else
      (nsMaillist ++ [⟨email, now, si.name, reason⟩],
        [.success s!"You have whitelisted email address \x02{String.ofList email}\x02."])
  | _, _ => (nsMaillist,
    [.fail .needmoreparams (STR_INSUFFICIENT_PARAMS "goodmail"),
      .fail .needmoreparams "Syntax: goodmail ADD <email> <reason>"])

/-- `GOODMAIL DEL email`; a success is not reported. -/
def goodmailDel (core : Core) (email : Option CStr) (nsMaillist : List Goodmail) :
    List Goodmail × List Output :=
  match email with
  | none => (nsMaillist,
    [.fail .needmoreparams (STR_INSUFFICIENT_PARAMS "goodmail"),
      .fail .needmoreparams "Syntax: goodmail DEL <email>"])
  | some email =>
    match nsMaillist.find? fun l => core.irccasecmp l.mail email with
    | some _ => (nsMaillist.eraseP fun l => core.irccasecmp l.mail email, [])
    | none => (nsMaillist,
      [.success s!"Email pattern \x02{String.ofList email}\x02 not found in goodmail database."])

/-- `GOODMAIL action [email] [reason]` -/
def nsCmdGoodmail (core : Core) (si : Source) (now : ℕ) (parv : List CStr) (nsMaillist : List Goodmail) :
    List Goodmail × List Output :=
  match parv[0]? with
  | none => (nsMaillist,
    [.fail .needmoreparams (STR_INSUFFICIENT_PARAMS "goodmail"),
      .fail .needmoreparams "Syntax: goodmail ADD|DEL|LIST [parameters]"])
  | some action =>
    if strcasecmp "ADD".toList action then goodmailAdd core si now parv[1]? parv[2]? nsMaillist
    else if strcasecmp "DEL".toList action then goodmailDel core parv[1]? nsMaillist
    else if strcasecmp "LIST".toList action then
      (nsMaillist, nsMaillist.map (listLine core) ++ [.success "End of list."])
    else (nsMaillist, [.fail .badparams (STR_INVALID_PARAMS "goodmail")])

/-! ### What a command does to the list -/

/-- An entry that `GOODMAIL` adds. -/
def Added (si : Source) (now : ℕ) (parv : List CStr) (l : Goodmail) : Prop :=
  parv[1]? = some l.mail ∧ l.mailTs = now ∧ l.creator = si.name ∧ parv[2]? = some l.reason

/-- What the command asks of the list. -/
def op (si : Source) (now : ℕ) (parv : List CStr) : Keyed.Op Goodmail CStr :=
  match parv[0]? with
  | none => .look
  | some action =>
    if strcasecmp "ADD".toList action then
      match parv[1]?, parv[2]? with
      | some email, some reason => if si.smu.isNone then .look else .add ⟨email, now, si.name, reason⟩
      | _, _ => .look
    else if strcasecmp "DEL".toList action then
      match parv[1]? with
      | some email => .del email
      | none => .look
    else .look

/-- **The list is an ordered set of the addresses.** -/
theorem nsCmdGoodmail_fst (core : Core) (si : Source) (now : ℕ) (parv : List CStr)
    (nsMaillist : List Goodmail) : (nsCmdGoodmail core si now parv nsMaillist).1 =
      (op si now parv).run core.irccasecmp Goodmail.mail nsMaillist := by
  unfold nsCmdGoodmail op
  split
  · rfl
  · split
    · unfold goodmailAdd
      split
      · split
        · rfl
        · rw [Keyed.Op.run]
          split
          · rfl
          · rfl
      · rfl
    · split
      · cases parv[1]? with
        | none => rfl
        | some email =>
          rw [goodmailDel, Keyed.Op.run]
          split
          · rfl
          · rename_i hnone
            exact (Keyed.erase_of_none hnone).symm
      · split
        · rfl
        · rfl

theorem added_of_op {si : Source} {now : ℕ} {parv : List CStr} {l : Goodmail}
    (h : op si now parv = .add l) : Added si now parv l := by
  unfold op at h
  split at h
  · cases h
  · split at h
    · split at h
      · rename_i email reason hemail hreason
        split at h
        · cases h
        · cases h
          exact ⟨hemail, rfl, rfl, hreason⟩
      · cases h
    · split at h
      · split at h
        · cases h
        · cases h
      · cases h

/-- What a command makes of the list. -/
theorem nsCmdGoodmail_edited (core : Core) (si : Source) (now : ℕ) (parv : List CStr)
    (nsMaillist : List Goodmail) :
    Keyed.Edited core.irccasecmp Goodmail.mail (Added si now parv) nsMaillist
      (nsCmdGoodmail core si now parv nsMaillist).1 := by
  rw [nsCmdGoodmail_fst]
  exact (Keyed.Op.run_edited _ nsMaillist).mono fun _ => added_of_op

/-! ### The rows -/

/-- An entry whose fields can be written. -/
structure Goodmail.Writable (l : Goodmail) : Prop where
  mail : Word l.mail
  creator : Word l.creator
  reason : l.reason ≠ []

/-- The entries can be written after a command, too. -/
theorem nsCmdGoodmail_writable {core : Core} {si : Source} {now : ℕ} {parv : List CStr}
    {nsMaillist : List Goodmail} (hsi : Word si.name) (hparv : Params 3 parv)
    (h : ∀ l ∈ nsMaillist, l.Writable) :
    ∀ l ∈ (nsCmdGoodmail core si now parv nsMaillist).1, l.Writable := by
  refine (nsCmdGoodmail_edited core si now parv nsMaillist).forall h fun l hl => ?_
  obtain ⟨hmail, -, hcreator, hreason⟩ := hl
  exact ⟨hparv.word hmail (by omega), by rw [hcreator]; exact hsi, hparv.final hreason⟩

/-- A row that is written is read back. -/
theorem dbHGe_row {B : Backend} {l : Goodmail} (h : l.Writable) (nsMaillist : List Goodmail) :
    dbHGe B nsMaillist (B.text (goodmailRow l).fields) = some (nsMaillist ++ [l], B.text []) := by
  rw [dbHGe, goodmailRow, sreadEntry_bind h.mail h.creator h.reason]
  rfl

end NsGoodmail
end AthemeContrib
