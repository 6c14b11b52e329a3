/-
# ns_sendpassmail: keys for a new password by mail

`SENDPASSMAIL email` goes over all accounts and mails a key to each that has
the address, unless it is frozen, logged in, an operator's or has a key
outstanding; only the log says so. The reply at the end is the same whether
there was any. But when the key cannot be hashed the source is told, once for
each account (`replies_eq`): two networks give the same replies exactly if this
happens equally often on both (`same_replies_iff`).

Key definitions: `Myuser`, `Outcome`, `canSendpass`, `sendpassmailForeachCb`,
`nsCmdSendpassmail`, `replies`, `unhashed`.
Key theorems: `replies_eq`, `same_replies_iff`.
-/
import AthemeContrib.Command

namespace AthemeContrib
namespace Sendpassmail

open CStr

/-- An account; `metadata` are its entries by their keys. -/
structure Myuser where
  name : CStr
  emailCanonical : CStr
  email : CStr
  soper : Bool
  logins : ℕ
  metadata : List (String × CStr)
deriving DecidableEq, Repr

/-- `metadata_find(mu, key)` -/
def Myuser.metadataFind (mu : Myuser) (key : String) : Option CStr := mu.metadata.lookup key

/-- `metadata_add(mu, key, value)` -/
def Myuser.metadataAdd (mu : Myuser) (key : String) (value : CStr) : Myuser :=
  { mu with metadata := (key, value) :: mu.metadata.filter fun p => p.1 ≠ key }

/-- The source of the command: whether it has `PRIV_ADMIN`, its name as an
operator, and the time. -/
structure Requester where
  privAdmin : Bool
  operName : CStr
  now : ℕ
deriving DecidableEq, Repr

/-- What the core makes of addresses: whether one is valid, and its canonical
form, which the accounts' are compared with. -/
structure Addresses where
  validemail : CStr → Bool
  canonicalizeEmail : CStr → CStr

/-- What the core does for one account: whether the `user_needforce` hooks allow
the account to be changed, the random key, its hash, if it can be hashed, and
whether the mail is sent. -/
structure Outcome where
  allowed : Bool
  key : CStr
  hash : Option CStr
  sent : Bool
deriving DecidableEq, Repr

/-- `can_sendpass(si, mu)` -/
def canSendpass (si : Requester) (mu : Myuser) : Bool :=
  if mu.soper && !si.privAdmin then false
  else if 0 < mu.logins then false
  else if (mu.metadataFind "private:freeze:freezer").isSome then false
  else if (mu.metadataFind "private:setpass:key").isSome then false
  else true

/-- `sendpassmail_foreach_cb`, for the account `mu`: the account afterwards, and
what is sent. -/
def sendpassmailForeachCb (si : Requester) (emailCanonical : CStr) (o : Outcome) (mu : Myuser) :
    Myuser × List Sent :=
  if emailCanonical ≠ mu.emailCanonical then (mu, [])
  else
    let ismarked := !o.allowed || (mu.metadataFind "private:mark:setter").isSome
    if !canSendpass si mu then (mu, [])
    else
      match o.hash with
      | none => (mu, [.irc (.fail .internalerror "Hash generation for password change key failed.")])
      | some hash =>
        if o.sent then
          let oper := String.ofList si.operName
          let name := String.ofList mu.name
          let address := String.ofList mu.emailCanonical
          let wallops : List Sent := if ismarked then
              [.irc (.wallops s!"{oper} used SENDPASSMAIL for the \x02MARKED\x02 account {name} ({address}).")]
            else []
          let mu' := mu.metadataAdd "private:sendpass:sender" si.operName
          let mu' := mu'.metadataAdd "private:sendpass:timestamp" (Nat.toDigits 10 si.now)
          let mu' := mu'.metadataAdd "private:setpass:key" hash
          (mu', .email .setpass mu.name mu.email o.key :: wallops)
        else (mu, [])

/-- The reply at the end. -/
def doneText (email : CStr) : String :=
  s!"A password reset email has been sent for all accounts matching address \x02{String.ofList email}\x02, " ++
    "if any."

/-- `SENDPASSMAIL email`, where `outcome` is what the core does for the account
of a name: the accounts afterwards, and what is sent. -/
def nsCmdSendpassmail (core : Addresses) (si : Requester) (email : Option CStr) (outcome : CStr → Outcome)
    (accounts : List Myuser) : List Myuser × List Sent :=
  match email with
  | none => (accounts,
    [.irc (.fail .needmoreparams (STR_INSUFFICIENT_PARAMS "SENDPASSMAIL")),
      .irc (.fail .needmoreparams "Syntax: SENDPASSMAIL <email>")])
  | some email =>
    let emailCanonical := core.canonicalizeEmail email
    if !core.validemail email then
      (accounts, [.irc (.fail .badparams s!"\x02{String.ofList email}\x02 is not a valid email address.")])
    else
      let visited := accounts.map fun mu => sendpassmailForeachCb si emailCanonical (outcome mu.name) mu
      (visited.map Prod.fst, visited.flatMap Prod.snd ++ [.irc (.success (doneText email))])

/-- What the source of the command is told. -/
def replies (out : List Sent) : List Output :=
  out.filterMap fun
    | .irc (.fail code text) => some (.fail code text)
    | .irc (.success text) => some (.success text)
    | _ => none

/-- The accounts with the address that a key would be mailed to, if it could be
hashed. -/
def unhashed (si : Requester) (emailCanonical : CStr) (outcome : CStr → Outcome)
    (accounts : List Myuser) : ℕ :=
  accounts.countP fun mu =>
    mu.emailCanonical = emailCanonical && canSendpass si mu && (outcome mu.name).hash.isNone

/-! ### What is told -/

/-- The one reply for an account. -/
def hashFailed : Output := .fail .internalerror "Hash generation for password change key failed."

variable {core : Addresses} {si : Requester}

/-- For an account there is a reply if its key could not be hashed, and none
otherwise. -/
theorem replies_foreach (emailCanonical : CStr) (o : Outcome) (mu : Myuser) :
    replies (sendpassmailForeachCb si emailCanonical o mu).2 =
      if mu.emailCanonical = emailCanonical && canSendpass si mu && o.hash.isNone then [hashFailed]
      else [] := by
  unfold sendpassmailForeachCb
  by_cases he : mu.emailCanonical = emailCanonical
  · rw [if_neg (fun h => h he.symm)]
    cases hcan : canSendpass si mu with
    | false => simp [replies]
    | true =>
      cases hhash : o.hash with
      | none => simp [he, replies, hashFailed]
      | some hash =>
        simp only [he, Bool.not_true, Bool.false_eq_true, if_false, Option.isNone_some, Bool.and_false]
        split
        · simp only
          split <;> rfl
        · rfl
  · rw [if_pos (fun h => he h.symm)]
    simp [he, replies]

theorem replies_append (a b : List Sent) : replies (a ++ b) = replies a ++ replies b := List.filterMap_append

theorem replies_visited (emailCanonical : CStr) (outcome : CStr → Outcome) : ∀ accounts : List Myuser,
    replies ((accounts.map fun mu =>
        sendpassmailForeachCb si emailCanonical (outcome mu.name) mu).flatMap Prod.snd) =
      List.replicate (unhashed si emailCanonical outcome accounts) hashFailed
  | [] => rfl
  | mu :: accounts => by
    rw [List.map_cons, List.flatMap_cons, replies_append, replies_foreach, replies_visited _ outcome accounts,
      unhashed, unhashed, List.countP_cons]
    split
    · rw [List.singleton_append, List.replicate_succ]
    · rw [List.nil_append, Nat.add_zero]

/-- **What is told** for a valid address. -/
theorem replies_eq {email : CStr} (hvalid : core.validemail email = true) (outcome : CStr → Outcome)
    (accounts : List Myuser) : replies (nsCmdSendpassmail core si (some email) outcome accounts).2 =
      List.replicate (unhashed si (core.canonicalizeEmail email) outcome accounts) hashFailed ++
        [.success (doneText email)] := by
  simp only [nsCmdSendpassmail, hvalid, Bool.not_true, Bool.false_eq_true, if_false, replies_append,
    replies_visited]
  rfl

/-- What is told where there is no valid address says nothing of the accounts. -/
theorem replies_of_not_valid {email : Option CStr}
    (h : ∀ address, email = some address → core.validemail address = false)
    (outcome outcome' : CStr → Outcome) (accounts accounts' : List Myuser) :
    replies (nsCmdSendpassmail core si email outcome accounts).2 =
      replies (nsCmdSendpassmail core si email outcome' accounts').2 := by
  cases email with
  | none => rfl
  | some address =>
    have hnot : core.validemail address = false := h address rfl
    simp only [nsCmdSendpassmail, hnot, Bool.not_false, if_true]

/-- **Two networks give the same replies** to the same command exactly if there
is no address, or none that is valid, or keys could not be hashed for equally
many of the accounts with it. -/
theorem same_replies_iff (core : Addresses) (si : Requester) (email : Option CStr)
    (outcome outcome' : CStr → Outcome) (accounts accounts' : List Myuser) :
    replies (nsCmdSendpassmail core si email outcome accounts).2 =
        replies (nsCmdSendpassmail core si email outcome' accounts').2 ↔
      ∀ address, email = some address → core.validemail address = true →
        unhashed si (core.canonicalizeEmail address) outcome accounts =
          unhashed si (core.canonicalizeEmail address) outcome' accounts' := by
  constructor
  · rintro hsame address rfl hvalid
    rw [replies_eq hvalid, replies_eq hvalid, List.append_left_inj] at hsame
    have hlen := congrArg List.length hsame
    rwa [List.length_replicate, List.length_replicate] at hlen
  · intro hcount
    by_cases hvalid : ∃ address, email = some address ∧ core.validemail address = true
    · obtain ⟨address, rfl, hvalid⟩ := hvalid
      rw [replies_eq hvalid, replies_eq hvalid, hcount address rfl hvalid]
    · refine replies_of_not_valid (fun address he => ?_) outcome outcome' accounts accounts'
      by_contra hv
      exact hvalid ⟨address, he, by simpa using hv⟩

/-- An account with the address, for which nothing is in the way of a key. -/
def alice : Myuser := ⟨"alice".toList, "alice@example.org".toList, "alice@example.org".toList, false, 0, []⟩

/-- Where no key can be hashed, the replies tell whether there is an account. -/
theorem account_told :
    let core : Addresses := ⟨fun _ => true, id⟩
    let si : Requester := ⟨false, "guest".toList, 1700000000⟩
    let outcome : CStr → Outcome := fun _ => ⟨true, "k".toList, none, true⟩
    replies (nsCmdSendpassmail core si (some "alice@example.org".toList) outcome []).2 ≠
      replies (nsCmdSendpassmail core si (some "alice@example.org".toList) outcome [alice]).2 := by decide

end Sendpassmail
end AthemeContrib
