/-
# What a command sends

The replies and notices of the services commands, as far as a user sees
them; log lines are left out. A text is the format string with its arguments
filled in, `\2` (bold) included. The name a reply is addressed to is the
nick's.

`Core` is what the modules use of the services core: the IRC daemon's case
mapping, which strings are compared by, and the date format of the listings.

Key definitions: `Fault`, `Output`, `Sent`, `Core`, `Source`, `Params`.
Key theorem: `irccasecmp_same`.
-/
import AthemeContrib.Lib.CString
import AthemeContrib.Lib.Keyed

namespace AthemeContrib

/-- The fault codes the modelled commands report. -/
inductive Fault
  | needmoreparams
  | badparams
  | nosuch_source
  | nosuch_target
  | noprivs
  | alreadyexists
  | toomany
  | internalerror
deriving DecidableEq, Repr

/-- What is sent: the two kinds of reply to the source of a command, a notice
to a user, a message to a channel, and the two broadcasts. -/
inductive Output
  | fail (code : Fault) (text : String)
  | success (text : String)
  | notice (nick : String) (text : String)
  | msg (chan : String) (text : String)
  | noticeGlobal (text : String)
  | wallops (text : String)
deriving DecidableEq, Repr

/-- The kinds of mail that are sent. -/
inductive Email
  | memo
  | setpass
deriving DecidableEq, Repr

/-- What is sent by a command that sends mail, too: the account the mail is to,
its address and what it says. -/
inductive Sent
  | irc (o : Output)
  | email (type : Email) (account address text : CStr)
deriving DecidableEq, Repr

/-- `myuser_notice(source, mu, text)`: a notice to whoever is logged in to the
account, which is named instead of them. -/
def myuserNotice (account : CStr) (text : String) : Output := .notice (String.ofList account) text

/-- `STR_INSUFFICIENT_PARAMS` -/
def STR_INSUFFICIENT_PARAMS (cmd : String) : String := s!"Insufficient parameters for \x02{cmd}\x02."

/-- `STR_INVALID_PARAMS` -/
def STR_INVALID_PARAMS (cmd : String) : String := s!"Invalid parameters for \x02{cmd}\x02."

/-- `STR_IS_NOT_REGISTERED` -/
def STR_IS_NOT_REGISTERED (name : CStr) : String := s!"\x02{String.ofList name}\x02 is not registered."

/-- `STR_NOT_AUTHORIZED` -/
def STR_NOT_AUTHORIZED : String := "You are not authorized to perform this operation."

/-- `STR_NOT_LOGGED_IN` -/
def STR_NOT_LOGGED_IN : String := "You are not logged in."

/-- Who gives a command: `get_source_name(si)`, and the account `si->smu` they
are logged in to. -/
structure Source where
  name : CStr
  smu : Option CStr
deriving DecidableEq, Repr

/-- The parameters of a command that takes `maxparc`, as they come from IRC: the
last of these is the rest of the line, the others are words. -/
structure Params (maxparc : ℕ) (parv : List CStr) : Prop where
  le : parv.length ≤ maxparc
  words : ∀ w ∈ parv.take (maxparc - 1), CStr.Word w
  rest : ∀ w ∈ parv.drop (maxparc - 1), w ≠ [] ∧ w.head? ≠ some ' '

/-- The IRC daemon's case mapping and the core's date format. -/
structure Core where
  lower : Char → Char
  strftime : ℕ → String

/-- `irccasecmp(a, b) == 0` -/
def Core.irccasecmp (core : Core) (a b : CStr) : Bool := a.map core.lower = b.map core.lower

variable {core : Core} {a b c : CStr}

theorem irccasecmp_iff : core.irccasecmp a b = true ↔ a.map core.lower = b.map core.lower :=
  decide_eq_true_iff

@[simp] theorem irccasecmp_self (core : Core) (a : CStr) : core.irccasecmp a a = true :=
  irccasecmp_iff.mpr rfl

theorem irccasecmp_comm (core : Core) (a b : CStr) : core.irccasecmp a b = core.irccasecmp b a := by
  rw [Bool.eq_iff_iff, irccasecmp_iff, irccasecmp_iff, eq_comm]

/-- Names that are equal are equal to the same names. -/
theorem irccasecmp_congr (h : core.irccasecmp a b = true) (c : CStr) :
    core.irccasecmp a c = core.irccasecmp b c := by
  rw [irccasecmp_iff] at h
  rw [Bool.eq_iff_iff, irccasecmp_iff, irccasecmp_iff, h]

/-- `strip(line)`: the line ends at a newline, a carriage return or a `\1`. -/
def strip (line : CStr) : CStr := line.takeWhile (· ∉ ['\n', '\x0d', '\x01'])

/-- A parameter before the last is a word. -/
theorem Params.word {maxparc : ℕ} {parv : List CStr} (h : Params maxparc parv) {i : ℕ} {w : CStr}
    (hw : parv[i]? = some w) (hi : i + 1 < maxparc) : CStr.Word w := by
  have htake : (parv.take (maxparc - 1))[i]? = some w := by
    rw [List.getElem?_take, if_pos (by omega), hw]
  exact h.words w (List.mem_of_getElem? htake)

/-- The last parameter is not empty. -/
theorem Params.final {maxparc : ℕ} {parv : List CStr} (h : Params maxparc parv) {w : CStr}
    (hw : parv[maxparc - 1]? = some w) : w ≠ [] := by
  have hdrop : (parv.drop (maxparc - 1))[0]? = some w := by
    rw [List.getElem?_drop, Nat.add_zero, hw]
  exact (h.rest w (List.mem_of_getElem? hdrop)).1

theorem irccasecmp_same (core : Core) : Keyed.Same core.irccasecmp :=
  ⟨irccasecmp_self core, irccasecmp_comm core, fun _ _ h c => irccasecmp_congr h c⟩

end AthemeContrib
