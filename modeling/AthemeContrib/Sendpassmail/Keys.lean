/-
# ns_sendpassmail: one key at a time

A key that was mailed stays in the account's metadata until it is used, taken back or
replaced, which is done elsewhere; while one is there no other is mailed. So whoever
asks how often, an account's keys, mailed or given to it elsewhere, are as many as
went away and the one that is outstanding, which is the last
(`one_key_at_a_time`).

The rest of services may change the accounts in any way, as long as no two have the
same name. `State.keys` and `State.gone` are ghost state: the keys, and whose went
away.

Key definitions: `setpassKey`, `keyOf`, `mailed`, `given`, `lost`, `State`, `step`, `Ledger`,
`Permitted`.
Key theorems: `foreachCb_cases`, `command_ledger`, `elsewhere_ledger`, `one_key_at_a_time`.
-/
import AthemeContrib.Lib.Run
import AthemeContrib.Sendpassmail
import Mathlib.Data.List.Nodup

namespace AthemeContrib
namespace Sendpassmail

/-- The hash of the key that is outstanding. -/
def Myuser.setpassKey (mu : Myuser) : Option CStr := mu.metadataFind "private:setpass:key"

/-- The key of the account `name`, if there is one. -/
def keyOf (accounts : List Myuser) (name : CStr) : Option CStr :=
  (accounts.find? fun mu => mu.name = name).bind Myuser.setpassKey

/-- The keys that are mailed, by the accounts they are for. -/
def mailed (out : List Sent) : List (CStr × CStr) :=
  out.filterMap fun
    | .email .setpass name _ key => some (name, key)
    | _ => none

/-- A key: whose it is, its text if it was mailed, and the hash of it. -/
structure Key where
  name : CStr
  mailed : Option CStr
  hash : Option CStr
deriving DecidableEq, Repr

structure State where
  accounts : List Myuser
  keys : List Key
  gone : List CStr
deriving DecidableEq, Repr

/-- The command is given, or the rest of services changes the accounts. -/
inductive Event
  | sendpassmail (si : Requester) (email : Option CStr) (outcome : CStr → Outcome)
  | others (accounts : List Myuser)

/-- The keys that `accounts'` have and `accounts` did not. -/
def given (accounts accounts' : List Myuser) : List Key :=
  accounts'.flatMap fun mu =>
    if mu.setpassKey = keyOf accounts mu.name then []
    else mu.setpassKey.toList.map fun hash => ⟨mu.name, none, some hash⟩

/-- Whose key `accounts'` do not have any more. -/
def lost (accounts accounts' : List Myuser) : List CStr :=
  (accounts.map Myuser.name).filter fun name =>
    (keyOf accounts name).isSome && decide (keyOf accounts' name ≠ keyOf accounts name)

def step (core : Addresses) (s : State) : Event → Option State
  | .sendpassmail si email outcome =>
    let r := nsCmdSendpassmail core si email outcome s.accounts
    some { s with
      accounts := r.1
      keys := s.keys ++ (mailed r.2).map fun m => ⟨m.1, some m.2, (outcome m.1).hash⟩ }
  | .others accounts =>
    if (accounts.map Myuser.name).Nodup then
      some { s with
        accounts := accounts
        keys := s.keys ++ given s.accounts accounts
        gone := s.gone ++ lost s.accounts accounts }
    else none

/-- The keys of an account. -/
def State.keysOf (s : State) (name : CStr) : List Key := s.keys.filter fun k => k.name = name

/-- The account was given a key for each that went away, and one more if there is one
outstanding; that is the last it was given. -/
structure Ledger (s : State) (name : CStr) : Prop where
  count : (s.keysOf name).length = s.gone.count name + (keyOf s.accounts name).toList.length
  last : ∀ hash, keyOf s.accounts name = some hash → (s.keysOf name).getLast?.bind Key.hash = some hash

/-- The account may be mailed a key. -/
structure Permitted (si : Requester) (mu : Myuser) : Prop where
  soper : mu.soper = true → si.privAdmin = true
  loggedOut : mu.logins = 0
  unfrozen : mu.metadataFind "private:freeze:freezer" = none
  noKey : mu.setpassKey = none

/-! ### One account -/

variable {core : Addresses} {si : Requester} {accounts : List Myuser} {name : CStr}

theorem mailed_append (a b : List Sent) : mailed (a ++ b) = mailed a ++ mailed b := List.filterMap_append

theorem permitted_of_canSendpass {mu : Myuser} (h : canSendpass si mu = true) : Permitted si mu := by
  unfold canSendpass at h
  split_ifs at h with hsoper hlogins hfreeze hkey
  refine ⟨fun hs => ?_, by omega, ?_, ?_⟩
  · simpa [hs] using hsoper
  · simpa using hfreeze
  · rw [Myuser.setpassKey]
    simpa using hkey

theorem metadataFind_metadataAdd (mu : Myuser) (key : String) (value : CStr) :
    (mu.metadataAdd key value).metadataFind key = some value := by
  simp [Myuser.metadataFind, Myuser.metadataAdd]

/-- What is done for an account: nothing, or it is mailed a key, and the hash of it
is kept. -/
theorem foreachCb_cases (si : Requester) (emailCanonical : CStr) (o : Outcome) (mu : Myuser) :
    ((sendpassmailForeachCb si emailCanonical o mu).1 = mu ∧
      mailed (sendpassmailForeachCb si emailCanonical o mu).2 = []) ∨
    ∃ hash, o.hash = some hash ∧ Permitted si mu ∧
      (sendpassmailForeachCb si emailCanonical o mu).1.name = mu.name ∧
      (sendpassmailForeachCb si emailCanonical o mu).1.setpassKey = some hash ∧
      mailed (sendpassmailForeachCb si emailCanonical o mu).2 = [(mu.name, o.key)] := by
  unfold sendpassmailForeachCb
  by_cases he : emailCanonical ≠ mu.emailCanonical
  · rw [if_pos he]
    exact Or.inl ⟨rfl, rfl⟩
  · rw [if_neg he]
    cases hcan : canSendpass si mu with
    | false => exact Or.inl ⟨rfl, rfl⟩
    | true =>
      cases hhash : o.hash with
      | none => exact Or.inl ⟨rfl, rfl⟩
      | some hash =>
        cases hsent : o.sent with
        | false => exact Or.inl ⟨rfl, rfl⟩
        | true =>
          refine Or.inr ⟨hash, rfl, permitted_of_canSendpass hcan, rfl, metadataFind_metadataAdd _ _ _, ?_⟩
          simp only [Bool.not_true, Bool.false_eq_true, if_false, if_true]
          split <;> rfl

/-! ### One command -/

/-- What is done for the accounts, one after another. -/
def visit (si : Requester) (emailCanonical : CStr) (outcome : CStr → Outcome) (mu : Myuser) :
    Myuser × List Sent :=
  sendpassmailForeachCb si emailCanonical (outcome mu.name) mu

theorem visit_name (si : Requester) (emailCanonical : CStr) (outcome : CStr → Outcome) (mu : Myuser) :
    (visit si emailCanonical outcome mu).1.name = mu.name := by
  rcases foreachCb_cases si emailCanonical (outcome mu.name) mu with ⟨h, -⟩ | ⟨-, -, -, hname, -⟩
  · rw [visit, h]
  · exact hname

/-- Whoever is mailed a key is an account, and may be. -/
theorem visit_mailed {emailCanonical : CStr} {outcome : CStr → Outcome} {mu : Myuser} {m : CStr × CStr}
    (h : m ∈ mailed (visit si emailCanonical outcome mu).2) :
    m.1 = mu.name ∧ m.2 = (outcome mu.name).key ∧ Permitted si mu := by
  rcases foreachCb_cases si emailCanonical (outcome mu.name) mu with ⟨-, hnone⟩ | ⟨-, -, hok, -, -, hone⟩
  · rw [visit, hnone] at h
    cases h
  · rw [visit, hone] at h
    rw [List.mem_singleton.mp h]
    exact ⟨rfl, rfl, hok⟩

theorem keyOf_cons (mu : Myuser) (accounts : List Myuser) (name : CStr) :
    keyOf (mu :: accounts) name = if mu.name = name then mu.setpassKey else keyOf accounts name := by
  by_cases h : mu.name = name
  · simp [keyOf, h]
  · simp [keyOf, h]

/-- For the account `name` nothing is done, or it is mailed one key. -/
theorem visited_cases (si : Requester) (emailCanonical : CStr) (outcome : CStr → Outcome) (name : CStr) :
    ∀ {accounts : List Myuser}, (accounts.map Myuser.name).Nodup →
      (keyOf (accounts.map fun mu => (visit si emailCanonical outcome mu).1) name = keyOf accounts name ∧
        (accounts.flatMap fun mu => mailed (visit si emailCanonical outcome mu).2).filter
          (fun m => m.1 = name) = []) ∨
      ∃ hash, (outcome name).hash = some hash ∧ keyOf accounts name = none ∧
        keyOf (accounts.map fun mu => (visit si emailCanonical outcome mu).1) name = some hash ∧
        (accounts.flatMap fun mu => mailed (visit si emailCanonical outcome mu).2).filter
            (fun m => m.1 = name) =
          [(name, (outcome name).key)]
  | [], _ => Or.inl ⟨rfl, rfl⟩
  | mu :: accounts, hn => by
    obtain ⟨hmu, hn⟩ := List.nodup_cons.mp hn
    rw [List.map_cons, keyOf_cons, keyOf_cons, visit_name, List.flatMap_cons, List.filter_append]
    by_cases hname : mu.name = name
    · -- nobody behind has the name
      have hrest : (accounts.flatMap fun mu => mailed (visit si emailCanonical outcome mu).2).filter
          (fun m => m.1 = name) = [] := by
        rw [List.filter_eq_nil_iff]
        intro m hm hmn
        obtain ⟨mu', hmu', hm⟩ := List.mem_flatMap.mp hm
        have hsame : mu'.name = mu.name := by
          rw [← (visit_mailed hm).1, hname]
          exact of_decide_eq_true hmn
        exact hmu (hsame ▸ List.mem_map_of_mem hmu')
      rw [if_pos hname, if_pos hname, hrest, List.append_nil]
      rcases foreachCb_cases si emailCanonical (outcome mu.name) mu with ⟨hmu, hnone⟩ |
        ⟨hash, hhash, hok, -, hkey, hone⟩
      · refine Or.inl ⟨by rw [visit, hmu], by rw [visit, hnone]; rfl⟩
      · subst hname
        refine Or.inr ⟨hash, hhash, hok.noKey, hkey, ?_⟩
        rw [visit, hone]
        simp
    · have hhead : (mailed (visit si emailCanonical outcome mu).2).filter (fun m => m.1 = name) = [] := by
        rw [List.filter_eq_nil_iff]
        intro m hm hmn
        exact hname ((visit_mailed hm).1.symm.trans (of_decide_eq_true hmn))
      rw [if_neg hname, if_neg hname, hhead, List.nil_append]
      exact visited_cases si emailCanonical outcome name hn

/-- What the command does: nothing, or it visits the accounts. -/
theorem command_cases (core : Addresses) (si : Requester) (email : Option CStr) (outcome : CStr → Outcome)
    (accounts : List Myuser) :
    ((nsCmdSendpassmail core si email outcome accounts).1 = accounts ∧
      mailed (nsCmdSendpassmail core si email outcome accounts).2 = []) ∨
    ∃ emailCanonical,
      (nsCmdSendpassmail core si email outcome accounts).1 =
        accounts.map (fun mu => (visit si emailCanonical outcome mu).1) ∧
      mailed (nsCmdSendpassmail core si email outcome accounts).2 =
        accounts.flatMap fun mu => mailed (visit si emailCanonical outcome mu).2 := by
  unfold nsCmdSendpassmail
  cases email with
  | none => exact Or.inl ⟨rfl, rfl⟩
  | some email =>
    cases hvalid : core.validemail email with
    | false => exact Or.inl ⟨by simp [hvalid], by simp [hvalid, mailed]⟩
    | true =>
      refine Or.inr ⟨core.canonicalizeEmail email, ?_, ?_⟩
      · simp only [hvalid, Bool.not_true, Bool.false_eq_true, if_false, List.map_map]
        rfl
      · simp only [hvalid, Bool.not_true, Bool.false_eq_true, if_false, mailed_append, List.flatMap_map]
        rw [mailed, List.filterMap_flatMap]
        exact List.append_nil _

/-- The names of the accounts are told apart, and the ledger of each is right. -/
structure Inv (s : State) : Prop where
  names : (s.accounts.map Myuser.name).Nodup
  ledger : ∀ name, Ledger s name

/-- **A command mails a key to an account that has none**, and keeps its hash. -/
theorem command_ledger {s s' : State} {email : Option CStr} {outcome : CStr → Outcome} (h : Inv s)
    (hs : step core s (.sendpassmail si email outcome) = some s') : Inv s' := by
  cases hs
  rcases command_cases core si email outcome s.accounts with ⟨hacc, hmailed⟩ | ⟨em, hacc, hmailed⟩
  · rw [hacc, hmailed, List.map_nil, List.append_nil]
    exact h
  · rw [hacc, hmailed]
    refine ⟨?_, fun name => ?_⟩
    · have hnames : s.accounts.map (Myuser.name ∘ fun mu => (visit si em outcome mu).1) =
          s.accounts.map Myuser.name :=
        List.map_congr_left fun mu _ => visit_name si em outcome mu
      simp only [List.map_map]
      rw [hnames]
      exact h.names
    · have hto : ∀ l : List (CStr × CStr),
          (l.map fun m => (⟨m.1, some m.2, (outcome m.1).hash⟩ : Key)).filter (fun k => k.name = name) =
            (l.filter fun m => m.1 = name).map fun m => ⟨m.1, some m.2, (outcome m.1).hash⟩ :=
        fun l => List.filter_map
      obtain ⟨hcount, hlast⟩ := h.ledger name
      rcases visited_cases si em outcome name h.names with ⟨hkey, hnone⟩ | ⟨hash, hhash, hno, hkey, hone⟩
      · refine ⟨?_, ?_⟩
        · rw [State.keysOf, List.filter_append, hto, hnone, List.map_nil, List.append_nil, hkey]
          exact hcount
        · rw [State.keysOf, List.filter_append, hto, hnone, List.map_nil, List.append_nil, hkey]
          exact hlast
      · rw [hno, Option.toList_none, List.length_nil] at hcount
        have hto' : State.keysOf
            { s with
              accounts := s.accounts.map fun mu => (visit si em outcome mu).1
              keys := s.keys ++ (s.accounts.flatMap fun mu => mailed (visit si em outcome mu).2).map
                fun m => ⟨m.1, some m.2, (outcome m.1).hash⟩ } name =
            s.keysOf name ++ [⟨name, some (outcome name).key, (outcome name).hash⟩] := by
          rw [State.keysOf, List.filter_append, hto, hone]
          rfl
        refine ⟨?_, fun hash' hkey' => ?_⟩
        · rw [hto', hkey, List.length_append, hcount]
          rfl
        · rw [hkey] at hkey'
          rw [hto', List.getLast?_concat, Option.bind_some, hhash]
          exact hkey'

/-! ### The rest of services -/

theorem keyOf_ne_none {accounts : List Myuser} {name : CStr} (h : (keyOf accounts name).isSome = true) :
    name ∈ accounts.map Myuser.name := by
  obtain ⟨hash, hkey⟩ := Option.isSome_iff_exists.mp h
  obtain ⟨mu, hfind, -⟩ := Option.bind_eq_some_iff.mp hkey
  have hname : mu.name = name := by simpa using List.find?_some hfind
  exact hname ▸ List.mem_map_of_mem (List.mem_of_find?_eq_some hfind)

/-- An account is given a key if the one it has is another. -/
theorem given_of (accounts : List Myuser) (name : CStr) : ∀ {accounts' : List Myuser},
    (accounts'.map Myuser.name).Nodup → (given accounts accounts').filter (fun k => k.name = name) =
      if keyOf accounts' name = keyOf accounts name then []
      else (keyOf accounts' name).toList.map fun hash => ⟨name, none, some hash⟩
  | [], _ => by simp [given, keyOf]
  | mu :: accounts', hn => by
    obtain ⟨hmu, hn⟩ := List.nodup_cons.mp hn
    have hhead : ∀ {mu : Myuser} {k : Key}, k ∈ given accounts [mu] → k.name = mu.name := by
      intro mu k hk
      rw [given, List.flatMap_cons, List.flatMap_nil, List.append_nil] at hk
      split at hk
      · cases hk
      · obtain ⟨hash, -, rfl⟩ := List.mem_map.mp hk
        rfl
    have hcons : given accounts (mu :: accounts') = given accounts [mu] ++ given accounts accounts' := by
      simp [given]
    rw [hcons, List.filter_append, keyOf_cons]
    by_cases hname : mu.name = name
    · -- nobody behind has the name
      have hrest : (given accounts accounts').filter (fun k => k.name = name) = [] := by
        rw [List.filter_eq_nil_iff]
        intro k hk hkn
        obtain ⟨mu', hmu', hk⟩ := List.mem_flatMap.mp hk
        have hk : k ∈ given accounts [mu'] := by simpa [given] using hk
        have hsame : mu'.name = mu.name := by
          rw [← hhead hk, hname]
          exact of_decide_eq_true hkn
        exact hmu (hsame ▸ List.mem_map_of_mem hmu')
      have hall : (given accounts [mu]).filter (fun k => k.name = name) = given accounts [mu] :=
        List.filter_eq_self.mpr fun k hk => decide_eq_true ((hhead hk).trans hname)
      rw [hrest, hall, if_pos hname, List.append_nil]
      simp [given, hname]
    · have hnone : (given accounts [mu]).filter (fun k => k.name = name) = [] := by
        rw [List.filter_eq_nil_iff]
        exact fun k hk hkn => hname ((hhead hk).symm.trans (of_decide_eq_true hkn))
      rw [hnone, if_neg hname, List.nil_append]
      exact given_of accounts name hn

theorem lost_count {accounts : List Myuser} (hn : (accounts.map Myuser.name).Nodup)
    (accounts' : List Myuser) (name : CStr) : (lost accounts accounts').count name =
      if keyOf accounts' name = keyOf accounts name then 0 else (keyOf accounts name).toList.length := by
  have hmem : name ∈ lost accounts accounts' ↔
      (keyOf accounts name).isSome = true ∧ keyOf accounts' name ≠ keyOf accounts name := by
    rw [lost, List.mem_filter, Bool.and_eq_true, decide_eq_true_eq]
    exact ⟨fun h => h.2, fun h => ⟨keyOf_ne_none h.1, h⟩⟩
  by_cases hl : name ∈ lost accounts accounts'
  · obtain ⟨hash, hhash⟩ := Option.isSome_iff_exists.mp (hmem.mp hl).1
    have hone : (lost accounts accounts').count name = 1 := List.count_eq_one_of_mem (hn.filter _) hl
    rw [if_neg (hmem.mp hl).2, hone, hhash]
    rfl
  · rw [List.count_eq_zero_of_not_mem hl]
    split
    · rfl
    · rename_i hne
      cases hkey : keyOf accounts name with
      | none => rfl
      | some hash => exact absurd (hmem.mpr ⟨by rw [hkey]; rfl, hne⟩) hl

/-- **Whatever the rest of services does**, a key that an account has not had is given
to it, and one that it has no more is gone. -/
theorem elsewhere_ledger {s s' : State} {accounts : List Myuser} (h : Inv s)
    (hs : step core s (.others accounts) = some s') : Inv s' := by
  simp only [step] at hs
  split at hs
  · rename_i hn
    cases hs
    refine ⟨hn, fun name => ?_⟩
    obtain ⟨hcount, hlast⟩ := h.ledger name
    have hkeys : State.keysOf
        { s with
          accounts := accounts
          keys := s.keys ++ given s.accounts accounts
          gone := s.gone ++ lost s.accounts accounts } name =
        s.keysOf name ++ if keyOf accounts name = keyOf s.accounts name then []
          else (keyOf accounts name).toList.map fun hash => ⟨name, none, some hash⟩ := by
      rw [State.keysOf, List.filter_append, given_of s.accounts name hn]
      rfl
    by_cases hsame : keyOf accounts name = keyOf s.accounts name
    · rw [if_pos hsame, List.append_nil] at hkeys
      refine ⟨?_, ?_⟩
      · rw [hkeys, List.count_append, lost_count h.names, if_pos hsame, hsame]
        exact hcount
      · rw [hkeys, hsame]
        exact hlast
    · rw [if_neg hsame] at hkeys
      refine ⟨?_, fun hash hkey => ?_⟩
      · rw [hkeys, List.count_append, lost_count h.names, if_neg hsame, List.length_append,
          List.length_map, hcount]
      · rw [hkeys, hkey]
        simp
  · cases hs

/-! ### Every run -/

/-- At first no key is outstanding. -/
def start (accounts : List Myuser) : State := ⟨accounts, [], []⟩

theorem start_inv (hn : (accounts.map Myuser.name).Nodup) (hk : ∀ mu ∈ accounts, mu.setpassKey = none) :
    Inv (start accounts) := by
  have hkey : ∀ name, keyOf accounts name = none := by
    intro name
    rw [keyOf, Option.bind_eq_none_iff]
    exact fun mu hmu => hk mu (List.mem_of_find?_eq_some hmu)
  refine ⟨hn, fun name => ⟨?_, fun hash h => ?_⟩⟩
  · rw [start, hkey]
    rfl
  · rw [start, hkey] at h
    cases h

theorem step_inv {s s' : State} {e : Event} (h : Inv s) (hs : step core s e = some s') : Inv s' := by
  cases e with
  | sendpassmail si email outcome => exact command_ledger h hs
  | others accounts => exact elsewhere_ledger h hs

/-- Whoever the command mails a key is an account that may be mailed one. -/
def MailsPermitted (s : State) (e : Event) (s' : State) : Prop :=
  ∀ si email outcome, e = .sendpassmail si email outcome → ∃ new, s'.keys = s.keys ++ new ∧
    ∀ k ∈ new, ∃ mu ∈ s.accounts, mu.name = k.name ∧ Permitted si mu

theorem step_permitted {s s' : State} {e : Event} (hs : step core s e = some s') : MailsPermitted s e s' := by
  rintro si email outcome rfl
  cases hs
  refine ⟨_, rfl, fun m hm => ?_⟩
  obtain ⟨p, hp, rfl⟩ := List.mem_map.mp hm
  rcases command_cases core si email outcome s.accounts with ⟨-, hnone⟩ | ⟨em, -, hmailed⟩
  · rw [hnone] at hp
    cases hp
  · rw [hmailed, List.mem_flatMap] at hp
    obtain ⟨mu, hmu, hp⟩ := hp
    obtain ⟨hname, -, hok⟩ := visit_mailed hp
    exact ⟨mu, hmu, hname.symm, hok⟩

/-- **One key at a time**: in every run each account was given as many keys, by this
command or elsewhere, as went away and at most one more, which is outstanding and was
the last; and the command mails a key only to an account that has none and may be
mailed one. -/
theorem one_key_at_a_time (core : Addresses) {accounts : List Myuser} (hn : (accounts.map Myuser.name).Nodup)
    (hk : ∀ mu ∈ accounts, mu.setpassKey = none) (es : List Event) :
    Run.Always (step core) (fun s => ∀ name, Ledger s name) (start accounts) es ∧
      Run.Along (step core) MailsPermitted (start accounts) es := by
  have hstart := start_inv hn hk
  have hpermitted : Run.Along (step core) MailsPermitted (start accounts) es :=
    Run.along_of_reach (fun s e s' _ (hs : step core s e = some s') => step_permitted hs) es
  refine ⟨⟨hstart.ledger, Run.along_of_reach (fun s e s' hr hs => ?_) es⟩, hpermitted⟩
  exact (step_inv (Run.reach_inv hstart (fun _ _ _ hI hs => step_inv hI hs) hr) hs).ledger

/-- Alice is mailed a key, asked for again at once; then it is taken back, and she is
mailed another. -/
theorem one_key_at_a_time_alice :
    let alice : Myuser := ⟨"alice".toList, "a@x".toList, "a@x".toList, false, 0, []⟩
    let core : Addresses := ⟨fun _ => true, id⟩
    let mail (key : String) : Event :=
      .sendpassmail ⟨false, "bob".toList, 0⟩ (some "a@x".toList)
        fun _ => ⟨true, key.toList, some key.toList, true⟩
    let es := [mail "k", mail "l", .others [alice], mail "m"]
    (alice.setpassKey = none ∧
        (Run.exec (step core) (start [alice]) es).map State.gone = some ["alice".toList]) ∧
      (Run.Always (step core) (fun s => ∀ name, Ledger s name) (start [alice]) es ∧
        Run.Along (step core) MailsPermitted (start [alice]) es) :=
  ⟨⟨by decide, by decide⟩, one_key_at_a_time _ (by decide) (by decide) _⟩

end Sendpassmail
end AthemeContrib
