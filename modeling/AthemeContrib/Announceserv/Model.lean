/-
# ircd_announceserv: the module's functions

An account can have one request for an announcement pending. It cancels the
request itself, or the staff activates it, which broadcasts it, or rejects it,
and it goes with the account when that is dropped. The requests are saved as
rows of the type `AR`.

The list is one of nodes, and a node is an object with a number that is never
given out twice, so that one request can be told from a later one that says
the same.

Key definitions: `Asreq`, `State`, `asCmdRequest`, `asCmdActivate`,
`asCmdReject`, `asCmdCancel`, `accountDropRequest`, `step`, `writeAsreqdb`,
`dbHAr`.
Key theorems: `asCmdRequest_cases`, `step_cases`, `step_edited`, `step_writable`, `dbHAr_row`.
-/
import AthemeContrib.Command
import AthemeContrib.Lib.Rows

namespace AthemeContrib
namespace Announceserv

open CStr Rows

/-- `BUFSIZE` -/
def bufSize : ℕ := 1024

structure Asreq where
  nick : CStr
  subject : CStr
  announceTs : ℕ
  creator : CStr
  text : CStr
deriving DecidableEq, Repr

/-- A node of `as_reqlist`. -/
structure Node where
  id : ℕ
  data : Asreq
deriving DecidableEq, Repr

/-- The list, and the number of the node that is made next. -/
structure State where
  asReqlist : List Node
  next : ℕ
deriving DecidableEq, Repr

/-- `mowgli_node_add(l, mowgli_node_create(), &as_reqlist)` -/
def State.add (s : State) (l : Asreq) : State := ⟨s.asReqlist ++ [⟨s.next, l⟩], s.next + 1⟩

/-- The first request of `nick`. -/
def State.find (s : State) (core : Core) (nick : CStr) : Option Node :=
  s.asReqlist.find? fun n => core.irccasecmp n.data.nick nick

/-- `mowgli_node_delete`, of the first request of `nick`. -/
def State.delete (s : State) (core : Core) (nick : CStr) : State :=
  { s with asReqlist := s.asReqlist.eraseP fun n => core.irccasecmp n.data.nick nick }

/-- The row of one request. -/
def asreqRow (l : Asreq) : Row :=
  let row := startRow "AR".toList
  let row := writeWord row l.nick
  let row := writeWord row l.subject
  let row := writeTime row l.announceTs
  let row := writeWord row l.creator
  writeStr row l.text

/-- `write_asreqdb` -/
def writeAsreqdb (s : State) : List Row := s.asReqlist.map fun n => asreqRow n.data

/-- `db_h_ar` -/
def dbHAr (B : Backend) (s : State) : RowReader B State := do
  let nick ← B.sreadWord
  let subject ← B.sreadWord
  let announceTs ← B.sreadTime
  let creator ← B.sreadWord
  let text ← B.sreadStr
  return s.add ⟨nick, subject, announceTs, creator, text⟩

/-- `account_drop_request(mu)` -/
def accountDropRequest (core : Core) (mu : CStr) (s : State) : State := s.delete core mu

/-- `replace(subject, BUFSIZE, "_", " ")` -/
def replace (subject : CStr) : CStr := subject.map fun c => if c = '_' then ' ' else c

/-- `"[%s - %s] %s"` -/
def announcement (subject2 creator text : CStr) : CStr :=
  '[' :: subject2 ++ " - ".toList ++ creator ++ "] ".toList ++ text

/-- `REQUEST subject text`, from the account `smu`, which is `restricted` or
not. -/
def asCmdRequest (core : Core) (smu : CStr) (restricted : Bool) (now : ℕ) (parv : List CStr) (s : State) :
    State × List Output :=
  match parv[0]?, parv[1]? with
  | some subject, some text =>
    if restricted then
      (s, [.fail .noprivs "You have been restricted from requesting announcements by network staff."])
    else if s.asReqlist.any fun n => core.irccasecmp n.data.nick smu then
      (s, [.fail .badparams ("You cannot request more than one announcement. Use CANCEL if you wish to " ++
        "cancel your current announcement and submit another.")])
    else if 35 < subject.length then
      (s, [.fail .badparams "Your subject is too long. Subjects need to be under 35 characters."])
    else if 450 < text.length then
      (s, [.fail .badparams "Your announcement is too long. Announcements need to be under 450 characters."])
    else
      let buf := strlcpy text bufSize
      (s.add ⟨smu, subject, now, smu, buf⟩,
        [.success "You have requested the following announcement: ",
          .success (String.ofList (announcement (replace subject) smu buf))])
  | _, _ =>
    (s, [.fail .needmoreparams (STR_INSUFFICIENT_PARAMS "REQUEST"),
      .fail .needmoreparams "Syntax: REQUEST <subject> <text>"])

/-- The notice to a user of the name the staff gave, if there is one. -/
def autoMemo (u : Option CStr) (fate : String) : List Output :=
  u.toList.map fun nick =>
    .notice (String.ofList nick) s!"[auto memo] Your requested announcement has been {fate}."

/-- `ACTIVATE nick`, where `u` is the user of that name. -/
def asCmdActivate (core : Core) (u : Option CStr) (parv : List CStr) (s : State) : State × List Output :=
  match parv[0]? with
  | none =>
    (s, [.fail .needmoreparams (STR_INSUFFICIENT_PARAMS "ACTIVATE"),
      .fail .needmoreparams "Syntax: ACTIVATE <nickname>"])
  | some nick =>
    match s.find core nick with
    | some l =>
      let buf := strlcpy (announcement (replace l.data.subject) l.data.creator l.data.text) bufSize
      (s.delete core nick, autoMemo u "approved" ++ [.noticeGlobal (String.ofList buf)])
    | none =>
      (s, [.success s!"Nick \x02{String.ofList nick}\x02 not found in announce request database."])

/-- `REJECT nick`, where `u` is the user of that name; a success is not
reported. -/
def asCmdReject (core : Core) (u : Option CStr) (parv : List CStr) (s : State) : State × List Output :=
  match parv[0]? with
  | none =>
    (s, [.fail .needmoreparams (STR_INSUFFICIENT_PARAMS "REJECT"),
      .fail .needmoreparams "Syntax: REJECT <nickname>"])
  | some nick =>
    match s.find core nick with
    | some _ => (s.delete core nick, autoMemo u "rejected")
    | none =>
      (s, [.success s!"Nick \x02{String.ofList nick}\x02 not found in announcement request database."])

/-- `CANCEL`, from the account `smu` -/
def asCmdCancel (core : Core) (smu : CStr) (s : State) : State × List Output :=
  match s.find core smu with
  | some _ => (s.delete core smu, [.success "Your pending announcement has been canceled."])
  | none => (s, [.fail .badparams "You do not have a pending announcement to cancel."])

/-- One operation on the list. -/
inductive Op
  | request (smu : CStr) (restricted : Bool) (now : ℕ) (parv : List CStr)
  | cancel (smu : CStr)
  | activate (u : Option CStr) (parv : List CStr)
  | reject (u : Option CStr) (parv : List CStr)
  | drop (mu : CStr)
deriving DecidableEq, Repr

/-- The state after an operation, and what is sent. -/
def step (core : Core) (s : State) : Op → State × List Output
  | .request smu restricted now parv => asCmdRequest core smu restricted now parv s
  | .cancel smu => asCmdCancel core smu s
  | .activate u parv => asCmdActivate core u parv s
  | .reject u parv => asCmdReject core u parv s
  | .drop mu => (accountDropRequest core mu s, [])

def Op.isRequest : Op → Bool
  | .request .. => true
  | _ => false

/-- The account whose request an operation is about, if it names one. -/
def Op.account : Op → Option CStr
  | .request smu _ _ _ => some smu
  | .cancel smu => some smu
  | .activate _ parv => parv[0]?
  | .reject _ parv => parv[0]?
  | .drop mu => some mu

/-! ### What an operation does to the list -/

/-- `REQUEST` leaves the list as it is, or appends the request; the account had
none, and its text is not cut. -/
theorem asCmdRequest_cases (core : Core) (smu : CStr) (restricted : Bool) (now : ℕ) (parv : List CStr)
    (s : State) : (asCmdRequest core smu restricted now parv s).1 = s ∨
      ∃ subject text, parv[0]? = some subject ∧ parv[1]? = some text ∧ subject.length ≤ 35 ∧
        text.length ≤ 450 ∧ (∀ n ∈ s.asReqlist, core.irccasecmp n.data.nick smu = false) ∧
        (asCmdRequest core smu restricted now parv s).1 = s.add ⟨smu, subject, now, smu, text⟩ := by
  unfold asCmdRequest
  split
  · rename_i subject text hsubject htext
    split
    · exact Or.inl rfl
    · split
      · exact Or.inl rfl
      · rename_i hfresh
        split
        · exact Or.inl rfl
        · split
          · exact Or.inl rfl
          · rename_i hshort hfits
            have htext' : strlcpy text bufSize = text := strlcpy_eq_self (by unfold bufSize; omega)
            refine Or.inr ⟨subject, text, hsubject, htext, by omega, by omega, by simpa using hfresh, ?_⟩
            simp only [htext']
  · exact Or.inl rfl

theorem delete_of_find {s : State} {core : Core} {nick : CStr} (h : s.find core nick = none) :
    s.delete core nick = s := by
  have hnone : ∀ n ∈ s.asReqlist, ¬ core.irccasecmp n.data.nick nick = true := by
    simpa [State.find] using h
  rw [State.delete, List.eraseP_of_forall_not hnone]

theorem asCmdCancel_fst (core : Core) (smu : CStr) (s : State) :
    (asCmdCancel core smu s).1 = s.delete core smu := by
  unfold asCmdCancel
  split
  · rfl
  · rename_i hnone
    exact (delete_of_find hnone).symm

theorem asCmdActivate_fst (core : Core) (u : Option CStr) (parv : List CStr) (s : State) :
    (asCmdActivate core u parv s).1 = parv[0]?.elim s (s.delete core) := by
  unfold asCmdActivate
  split
  · rename_i hnone
    rw [hnone]
    rfl
  · rename_i nick hnick
    rw [hnick]
    split
    · rfl
    · rename_i hfind
      exact (delete_of_find hfind).symm

theorem asCmdReject_fst (core : Core) (u : Option CStr) (parv : List CStr) (s : State) :
    (asCmdReject core u parv s).1 = parv[0]?.elim s (s.delete core) := by
  unfold asCmdReject
  split
  · rename_i hnone
    rw [hnone]
    rfl
  · rename_i nick hnick
    rw [hnick]
    split
    · rfl
    · rename_i hfind
      exact (delete_of_find hfind).symm

/-- An operation is a request that is refused or appended, or it unlinks the
first request of the account that it is about. -/
theorem step_cases (core : Core) (s : State) (op : Op) : (op.isRequest = true ∧ (step core s op).1 = s) ∨
    (∃ smu restricted now subject text parv, op = .request smu restricted now (subject :: text :: parv) ∧
      subject.length ≤ 35 ∧ text.length ≤ 450 ∧ (∀ n ∈ s.asReqlist, core.irccasecmp n.data.nick smu = false) ∧
      (step core s op).1 = s.add ⟨smu, subject, now, smu, text⟩) ∨
    (op.isRequest = false ∧ (step core s op).1 = op.account.elim s (s.delete core)) := by
  cases op with
  | request smu restricted now parv =>
    rcases asCmdRequest_cases core smu restricted now parv s with
      hsame | ⟨subject, text, hs, ht, h35, h450, hne, hadd⟩
    · exact Or.inl ⟨rfl, hsame⟩
    · obtain ⟨rest, rfl⟩ : ∃ rest, parv = subject :: text :: rest := by
        rcases parv with _ | ⟨a, _ | ⟨b, rest⟩⟩
        · cases hs
        · cases ht
        · cases hs
          cases ht
          exact ⟨rest, rfl⟩
      exact Or.inr (Or.inl ⟨smu, restricted, now, subject, text, rest, rfl, h35, h450, hne, hadd⟩)
  | cancel smu => exact Or.inr (Or.inr ⟨rfl, asCmdCancel_fst core smu s⟩)
  | activate u parv => exact Or.inr (Or.inr ⟨rfl, asCmdActivate_fst core u parv s⟩)
  | reject u parv => exact Or.inr (Or.inr ⟨rfl, asCmdReject_fst core u parv s⟩)
  | drop mu => exact Or.inr (Or.inr ⟨rfl, rfl⟩)

/-- The request that an operation adds, in a new node. -/
def Requested (s : State) (op : Op) (n : Node) : Prop :=
  ∃ smu restricted now subject text parv, op = .request smu restricted now (subject :: text :: parv) ∧
    subject.length ≤ 35 ∧ text.length ≤ 450 ∧ n = ⟨s.next, smu, subject, now, smu, text⟩

/-- What an operation makes of the list. -/
theorem step_edited (core : Core) (s : State) (op : Op) :
    Keyed.Edited core.irccasecmp (·.data.nick) (Requested s op) s.asReqlist
      (step core s op).1.asReqlist := by
  rcases step_cases core s op with
    ⟨-, hsame⟩ | ⟨smu, restricted, now, subject, text, parv, hop, h35, h450, hne, hadd⟩ | ⟨-, hdel⟩
  · rw [hsame]
    exact .kept
  · rw [hadd]
    exact .added ⟨smu, restricted, now, subject, text, parv, hop, h35, h450, rfl⟩ hne
  · rw [hdel]
    cases op.account with
    | none => exact .kept
    | some nick => exact .unlinked nick

/-! ### The rows -/

/-- A request whose fields can be written. -/
structure Asreq.Writable (l : Asreq) : Prop where
  nick : Word l.nick
  subject : Word l.subject
  creator : Word l.creator
  text : l.text ≠ []

/-- An operation as it comes from IRC: an account's name is a word. -/
def Op.Issued : Op → Prop
  | .request smu _ _ parv => Word smu ∧ Params 2 parv
  | .cancel smu => Word smu
  | .activate _ parv => Params 2 parv
  | .reject _ parv => Params 2 parv
  | .drop mu => Word mu

theorem step_writable {core : Core} {s : State} {op : Op} (hop : op.Issued)
    (h : ∀ n ∈ s.asReqlist, n.data.Writable) : ∀ n ∈ (step core s op).1.asReqlist, n.data.Writable := by
  refine (step_edited core s op).forall h fun n hn => ?_
  obtain ⟨smu, _, now, subject, text, parv, rfl, -, -, rfl⟩ := hn
  obtain ⟨hsmu, hparv⟩ := hop
  exact ⟨hsmu, hparv.words subject (by simp), hsmu, (hparv.rest text (by simp)).1⟩

theorem dbHAr_row {B : Backend} {l : Asreq} (h : l.Writable) (s : State) :
    dbHAr B s (B.text (asreqRow l).fields) = some (s.add l, B.text []) := by
  show dbHAr B s (B.text [.word l.nick, .word l.subject, .time l.announceTs, .word l.creator, .str l.text]) = _
  rw [dbHAr, B.word_bind h.nick, B.word_bind h.subject, B.time_bind, B.word_bind h.creator, B.str_bind h.text]
  rfl

/-- Requests that are added are in the list, in their order. -/
theorem map_data_foldl_add : ∀ (l : List Node) (s : State),
    (l.foldl (fun s n => s.add n.data) s).asReqlist.map (·.data) = s.asReqlist.map (·.data) ++ l.map (·.data)
  | [], s => by simp
  | n :: l, s => by
    rw [List.foldl_cons, map_data_foldl_add l, State.add, List.map_append, List.append_assoc, List.map_cons]
    rfl

end Announceserv
end AthemeContrib
