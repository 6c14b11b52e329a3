/-
# ns_forbid: nicknames nobody may use

`FORBID ON` registers the nickname as a frozen account that nobody can log in
to, and `FORBID OFF` takes such an account away. What tells it from any other
account is not written down: `OFF` looks for the freeze, for a registration
time that is the time of the last login, for exactly one nick and for the
e-mail address `noemail`.

Without nick ownership the account gets no nick, so there `OFF` finds no
forbidden nickname at all; with it `OFF` undoes `ON`, and nothing else
(`forbid_undone_iff`).

Key definitions: `MyUser`, `Db`, `makeForbid`, `destroyForbid`, `nsCmdForbid`,
`WellFormed`, `Elsewhere`, `step`, `OffUndoesOn`, `KeepsOthers`.
Key theorems: `makeForbid_accepted`, `destroyForbid_found`, `good_step`,
`forbid_undone_iff`.
-/
import AthemeContrib.Command
import AthemeContrib.Lib.Run
import Mathlib.Data.List.Pairwise

namespace AthemeContrib
namespace NsForbid

open CStr

/-! ### Accounts and nicks -/

/-- The `MU_` flags of an account that are set here. -/
inductive Flag
  | cryptpass
  | enforce
  | hold
  | noburstlogin
deriving DecidableEq, Repr

/-- `myuser_t`: an account, told from the others by its `id`. -/
structure MyUser where
  id : ℕ
  name : CStr
  pass : CStr
  email : CStr
  flags : List Flag
  registered : ℕ
  lastlogin : ℕ
  metadata : List (String × String)
deriving DecidableEq, Repr

/-- `mynick_t`: a nick of the account `owner`. -/
structure MyNick where
  nick : CStr
  owner : ℕ
  registered : ℕ
  lastseen : ℕ
deriving DecidableEq, Repr

/-- The accounts and the nicks; the next account gets the id `nextId`. -/
structure Db where
  accounts : List MyUser
  nicks : List MyNick
  nextId : ℕ
deriving DecidableEq, Repr

/-- What the module uses of the core: `nicksvs.no_nick_ownership` and
`is_valid_nick`. -/
structure Config extends Core where
  noNickOwnership : Bool
  isValidNick : CStr → Bool

/-- Who gives the command and when; `online` are the nicks of the users of the
network. -/
structure Caller where
  operName : String
  now : ℕ
  online : List CStr
deriving DecidableEq, Repr

/-- What the command does outside the database. -/
inductive Effect
  | irc (o : Output)
  | nickEnforce (u mn : CStr)
deriving DecidableEq, Repr

/-- `#define FORBID_EMAIL "noemail"` -/
def FORBID_EMAIL : CStr := "noemail".toList

/-- `myuser_find(name)` -/
def myuserFind (core : Core) (db : Db) (name : CStr) : Option MyUser :=
  db.accounts.find? fun mu => core.irccasecmp mu.name name

/-- `mynick_find(name)` -/
def mynickFind (core : Core) (db : Db) (name : CStr) : Option MyNick :=
  db.nicks.find? fun mn => core.irccasecmp mn.nick name

/-- `mu->nicks` -/
def Db.nicksOf (db : Db) (mu : MyUser) : List MyNick := db.nicks.filter fun mn => mn.owner = mu.id

/-- `metadata_find(mu, key)` -/
def metadataFind (mu : MyUser) (key : String) : Option String :=
  (mu.metadata.find? fun md => md.1 = key).map (·.2)

/-- `myuser_add`: the account gets the next id. -/
def myuserAdd (mu : MyUser) (db : Db) : Db :=
  { db with accounts := db.accounts ++ [mu], nextId := db.nextId + 1 }

/-- `mynick_add` -/
def mynickAdd (mn : MyNick) (db : Db) : Db := { db with nicks := db.nicks ++ [mn] }

/-- `atheme_object_unref(mu)`: the account is destroyed, and its nicks with
it. -/
def myuserDelete (mu : MyUser) (db : Db) : Db :=
  { db with
    accounts := db.accounts.filter fun m => m.id ≠ mu.id
    nicks := db.nicks.filter fun mn => mn.owner ≠ mu.id }

/-! ### The command -/

/-- The account of a forbidden nickname, as `make_forbid` sets it up. -/
def forbidAccount (id : ℕ) (si : Caller) (account reason : CStr) : MyUser where
  id := id
  name := account
  pass := "*".toList
  email := FORBID_EMAIL
  flags := [.cryptpass, .enforce, .hold, .noburstlogin]
  registered := si.now
  lastlogin := si.now
  metadata := [("private:freeze:freezer", si.operName),
    ("private:freeze:reason", String.ofList reason),
    ("private:freeze:timestamp", String.ofList (Nat.toDigits 10 si.now))]

/-- A user who uses the nick is told, and made to change it. -/
def enforceNick (cfg : Config) (si : Caller) (mn : MyNick) : List Effect :=
  match si.online.find? fun u => cfg.irccasecmp u mn.nick with
  | some u =>
    [.irc (.notice (String.ofList u) s!"The nick \x02{String.ofList mn.nick}\x02 is now forbidden."),
      .nickEnforce u mn.nick]
  | none => []

/-- There is an account of the name already, or a nick with nick ownership. -/
def isRegistered (cfg : Config) (account : CStr) (db : Db) : Bool :=
  if cfg.noNickOwnership then (myuserFind cfg.toCore db account).isSome
  else (mynickFind cfg.toCore db account).isSome

/-- `make_forbid(si, account, reason)`: the database afterwards, and what is
sent. -/
def makeForbid (cfg : Config) (si : Caller) (account reason : CStr) (db : Db) : Db × List Effect :=
  if !cfg.noNickOwnership && isdigit (account.headD '\x00') then
    (db, [.irc (.fail .badparams "For security reasons, you can't forbid a UID.")])
  else if !cfg.isValidNick account then
    (db, [.irc (.fail .badparams s!"The account name \x02{String.ofList account}\x02 is invalid.")])
  else if isRegistered cfg account db then
    (db, [.irc (.fail .alreadyexists s!"\x02{String.ofList account}\x02 is already registered.")])
  else
    let mu := forbidAccount db.nextId si account reason
    let db := myuserAdd mu db
    let mn : MyNick := ⟨mu.name, mu.id, si.now, si.now⟩
    let (db, enforced) := if cfg.noNickOwnership then (db, []) else (mynickAdd mn db, enforceNick cfg si mn)
    (db, enforced ++
      [.irc (.wallops
        s!"{si.operName} forbade the nickname \x02{String.ofList account}\x02 ({String.ofList reason})."),
        .irc (.success s!"\x02{String.ofList mu.name}\x02 is now forbidden.")])

/-- `destroy_forbid(si, account)` -/
def destroyForbid (cfg : Config) (si : Caller) (account : CStr) (db : Db) : Db × List Effect :=
  match myuserFind cfg.toCore db account with
  | none => (db, [.irc (.fail .nosuch_target (STR_IS_NOT_REGISTERED account))])
  | some mu =>
    if metadataFind mu "private:freeze:freezer" = none ∨ mu.registered ≠ mu.lastlogin ∨
        (db.nicksOf mu).length ≠ 1 ∨ mu.email ≠ FORBID_EMAIL then
      (db, [.irc (.fail .nosuch_target s!"\x02{String.ofList account}\x02 is not a forbidden nickname.")])
    else (myuserDelete mu db,
      [.irc (.wallops s!"{si.operName} unforbade the nickname \x02{String.ofList account}\x02."),
        .irc (.success s!"\x02{String.ofList mu.name}\x02 is no longer forbidden.")])

/-- `FORBID <nickname> ON|OFF [reason]` -/
def nsCmdForbid (cfg : Config) (si : Caller) (parv : List CStr) (db : Db) : Db × List Effect :=
  match parv[0]?, parv[1]? with
  | some account, some action =>
    if strcasecmp action "ON".toList then
      match parv[2]? with
      | none => (db, [.irc (.fail .needmoreparams (STR_INSUFFICIENT_PARAMS "FORBID")),
          .irc (.fail .needmoreparams "Usage: FORBID <nickname> ON <reason>")])
      | some reason => makeForbid cfg si account reason db
    else if strcasecmp action "OFF".toList then destroyForbid cfg si account db
    else (db, [.irc (.fail .needmoreparams (STR_INSUFFICIENT_PARAMS "FORBID")),
      .irc (.fail .needmoreparams "Usage: FORBID <nickname> ON|OFF [reason]")])
  | _, _ => (db, [.irc (.fail .needmoreparams (STR_INSUFFICIENT_PARAMS "FORBID")),
      .irc (.fail .needmoreparams "Syntax: FORBID <nickname> ON|OFF [reason]")])

/-- The command reports success. -/
def Succeeded (sent : List Effect) : Prop := ∃ text, Effect.irc (.success text) ∈ sent

/-! ### The database over a run -/

/-- What the core keeps true of the database: names and ids are there once,
every nick has its account, and with nick ownership every account owns the
nick of its name. -/
structure WellFormed (cfg : Config) (db : Db) : Prop where
  names : Keyed.Unique cfg.irccasecmp MyUser.name db.accounts
  nicks : Keyed.Unique cfg.irccasecmp MyNick.nick db.nicks
  ids : db.accounts.Pairwise fun mu mu' => mu.id ≠ mu'.id
  fresh : ∀ mu ∈ db.accounts, mu.id < db.nextId
  owned : ∀ mn ∈ db.nicks, ∃ mu ∈ db.accounts, mu.id = mn.owner
  own : cfg.noNickOwnership = false → ∀ mu ∈ db.accounts, ∃ mn ∈ db.nicks,
    mn.owner = mu.id ∧ cfg.irccasecmp mn.nick mu.name = true

/-- What the rest of services may make of the database: no id is given out
again, and an account gets the address `noemail` neither when it is registered
nor later. -/
structure Elsewhere (cfg : Config) (db db' : Db) : Prop where
  wellFormed : WellFormed cfg db'
  next : db.nextId ≤ db'.nextId
  fresh : ∀ mu ∈ db'.accounts, mu.id < db.nextId → ∃ old ∈ db.accounts, old.id = mu.id
  emails : ∀ mu ∈ db'.accounts, mu.email = FORBID_EMAIL →
    ∃ old ∈ db.accounts, old.id = mu.id ∧ old.email = FORBID_EMAIL

instance (cfg : Config) (db : Db) : Decidable (WellFormed cfg db) :=
  decidable_of_iff
    (Keyed.Unique cfg.irccasecmp MyUser.name db.accounts ∧ Keyed.Unique cfg.irccasecmp MyNick.nick db.nicks ∧
      (db.accounts.Pairwise fun mu mu' => mu.id ≠ mu'.id) ∧ (∀ mu ∈ db.accounts, mu.id < db.nextId) ∧
      (∀ mn ∈ db.nicks, ∃ mu ∈ db.accounts, mu.id = mn.owner) ∧
      (cfg.noNickOwnership = false → ∀ mu ∈ db.accounts, ∃ mn ∈ db.nicks,
        mn.owner = mu.id ∧ cfg.irccasecmp mn.nick mu.name = true))
    ⟨fun ⟨h1, h2, h3, h4, h5, h6⟩ => ⟨h1, h2, h3, h4, h5, h6⟩,
      fun ⟨h1, h2, h3, h4, h5, h6⟩ => ⟨h1, h2, h3, h4, h5, h6⟩⟩

instance (cfg : Config) (db db' : Db) : Decidable (Elsewhere cfg db db') :=
  decidable_of_iff
    (WellFormed cfg db' ∧ db.nextId ≤ db'.nextId ∧
      (∀ mu ∈ db'.accounts, mu.id < db.nextId → ∃ old ∈ db.accounts, old.id = mu.id) ∧
      ∀ mu ∈ db'.accounts, mu.email = FORBID_EMAIL →
        ∃ old ∈ db.accounts, old.id = mu.id ∧ old.email = FORBID_EMAIL)
    ⟨fun ⟨h1, h2, h3, h4⟩ => ⟨h1, h2, h3, h4⟩, fun ⟨h1, h2, h3, h4⟩ => ⟨h1, h2, h3, h4⟩⟩

/-- The database, and the ids of the accounts that `FORBID ON` has created. -/
structure State where
  db : Db
  forbade : List ℕ
deriving DecidableEq, Repr

/-- A `FORBID` command, or something else that changes the database. -/
inductive Event
  | forbid (si : Caller) (parv : List CStr)
  | others (db : Db)
deriving DecidableEq, Repr

/-- The ids of the accounts of `db'` that `db` has not. -/
def created (db db' : Db) : List ℕ :=
  (db'.accounts.map MyUser.id).filter fun id => id ∉ db.accounts.map MyUser.id

def step (cfg : Config) (s : State) : Event → Option State
  | .forbid si parv =>
    let db := (nsCmdForbid cfg si parv s.db).1
    some ⟨db, s.forbade ++ created s.db db⟩
  | .others db => if Elsewhere cfg s.db db then some { s with db := db } else none

/-- What a run starts from and keeps: every account without a real address is
one that `FORBID ON` has created. -/
structure Good (cfg : Config) (s : State) : Prop where
  wellFormed : WellFormed cfg s.db
  emails : ∀ mu ∈ s.db.accounts, mu.email = FORBID_EMAIL → mu.id ∈ s.forbade

/-- The account is there as it was, with the nicks it had. -/
def Unchanged (mu : MyUser) (db db' : Db) : Prop := mu ∈ db'.accounts ∧ db'.nicksOf mu = db.nicksOf mu

/-- **`OFF` undoes `ON`** of the nickname: whenever `ON` succeeds, and the
account it creates is later found unchanged, `OFF` succeeds, takes away that
account and its nicks and leaves the rest, which is what there was before
unless others have changed it. -/
def OffUndoesOn (cfg : Config) (s : State) (account : CStr) : Prop :=
  ∀ si reason s₁, step cfg s (.forbid si [account, "ON".toList, reason]) = some s₁ →
    Succeeded (nsCmdForbid cfg si [account, "ON".toList, reason] s.db).2 →
    ∃ mu, s₁.db.accounts = s.db.accounts ++ [mu] ∧ ∀ es s₂, Run.exec (step cfg) s₁ es = some s₂ →
      Unchanged mu s₁.db s₂.db → ∀ si' db₃ sent,
        nsCmdForbid cfg si' [account, "OFF".toList] s₂.db = (db₃, sent) →
        Succeeded sent ∧
        db₃.accounts = s₂.db.accounts.filter (fun m => m ≠ mu) ∧
        db₃.nicks = s₂.db.nicks.filter (fun mn => mn ∉ s₂.db.nicksOf mu) ∧
        (s₂.db.accounts = s₁.db.accounts → s₂.db.nicks = s₁.db.nicks →
          db₃.accounts = s.db.accounts ∧ db₃.nicks = s.db.nicks)

/-- **No other account is removed**: the command leaves every account as it is
that `FORBID ON` has not created. -/
def KeepsOthers (cfg : Config) (s : State) : Prop :=
  ∀ si parv, ∀ mu ∈ s.db.accounts, mu.id ∉ s.forbade → Unchanged mu s.db (nsCmdForbid cfg si parv s.db).1

/-- `FORBID ON` is not refused for the nickname. -/
structure Forbiddable (cfg : Config) (db : Db) (account : CStr) : Prop where
  noUid : cfg.noNickOwnership = false → isdigit (account.headD '\x00') = false
  valid : cfg.isValidNick account = true
  free : isRegistered cfg account db = false

variable {cfg : Config} {db : Db} {si : Caller}

/-! ### What the command makes of the database -/

/-- The database with the account of a forbidden nickname. -/
def forbidden (cfg : Config) (si : Caller) (account reason : CStr) (db : Db) : Db :=
  let mu := forbidAccount db.nextId si account reason
  if cfg.noNickOwnership then myuserAdd mu db
  else mynickAdd ⟨mu.name, mu.id, si.now, si.now⟩ (myuserAdd mu db)

/-- What `OFF` takes for the account of a forbidden nickname. -/
structure IsForbid (db : Db) (mu : MyUser) : Prop where
  frozen : metadataFind mu "private:freeze:freezer" ≠ none
  times : mu.registered = mu.lastlogin
  nicks : (db.nicksOf mu).length = 1
  email : mu.email = FORBID_EMAIL

theorem not_succeeded {code : Fault} {text : String} : ¬ Succeeded [.irc (.fail code text)] := by
  intro ⟨t, ht⟩
  simp at ht

theorem makeForbid_accepted {account : CStr} (h : Forbiddable cfg db account) (si : Caller) (reason : CStr) :
    (makeForbid cfg si account reason db).1 = forbidden cfg si account reason db ∧
      Succeeded (makeForbid cfg si account reason db).2 := by
  have huid : ¬ (!cfg.noNickOwnership && isdigit (account.headD '\x00')) = true := by
    intro hc
    rw [Bool.and_eq_true, Bool.not_eq_true'] at hc
    rw [h.noUid hc.1] at hc
    exact Bool.noConfusion hc.2
  have hvalid : ¬ (!cfg.isValidNick account) = true := by simp [h.valid]
  have hfree : ¬ isRegistered cfg account db = true := by simp [h.free]
  rw [makeForbid, if_neg huid, if_neg hvalid, if_neg hfree, forbidden]
  have hsent : ∀ (l : List Effect) (w text : String),
      Succeeded (l ++ [.irc (.wallops w), .irc (.success text)]) := fun l w text => ⟨text, by simp⟩
  cases cfg.noNickOwnership with
  | true => exact ⟨rfl, hsent _ _ _⟩
  | false => exact ⟨rfl, hsent _ _ _⟩

theorem makeForbid_refused {account : CStr} (h : ¬ Forbiddable cfg db account) (si : Caller) (reason : CStr) :
    (makeForbid cfg si account reason db).1 = db ∧ ¬ Succeeded (makeForbid cfg si account reason db).2 := by
  unfold makeForbid
  split
  · exact ⟨rfl, not_succeeded⟩
  next huid =>
  split
  · exact ⟨rfl, not_succeeded⟩
  next hvalid =>
  split
  · exact ⟨rfl, not_succeeded⟩
  next hfree =>
    refine absurd ⟨fun hown => ?_, by simpa using hvalid, by simpa using hfree⟩ h
    simpa [hown] using huid

theorem destroyForbid_found {account : CStr} {mu : MyUser} (h : myuserFind cfg.toCore db account = some mu)
    (hmu : IsForbid db mu) (si : Caller) : (destroyForbid cfg si account db).1 = myuserDelete mu db ∧
      Succeeded (destroyForbid cfg si account db).2 := by
  have hpass : ¬ (metadataFind mu "private:freeze:freezer" = none ∨ mu.registered ≠ mu.lastlogin ∨
      (db.nicksOf mu).length ≠ 1 ∨ mu.email ≠ FORBID_EMAIL) := by
    simp [hmu.frozen, hmu.times, hmu.nicks, hmu.email]
  rw [destroyForbid, h]
  dsimp only
  rw [if_neg hpass]
  exact ⟨rfl, _, List.mem_cons_of_mem _ (List.mem_singleton.mpr rfl)⟩

theorem destroyForbid_refused {account : CStr}
    (h : ∀ mu, myuserFind cfg.toCore db account = some mu → ¬ IsForbid db mu) (si : Caller) :
    (destroyForbid cfg si account db).1 = db ∧ ¬ Succeeded (destroyForbid cfg si account db).2 := by
  rw [destroyForbid]
  cases hfind : myuserFind cfg.toCore db account with
  | none => exact ⟨rfl, not_succeeded⟩
  | some mu =>
    have hfail : metadataFind mu "private:freeze:freezer" = none ∨ mu.registered ≠ mu.lastlogin ∨
        (db.nicksOf mu).length ≠ 1 ∨ mu.email ≠ FORBID_EMAIL := by
      by_contra hc
      push Not at hc
      exact h mu hfind ⟨hc.1, hc.2.1, hc.2.2.1, hc.2.2.2⟩
    dsimp only
    rw [if_pos hfail]
    exact ⟨rfl, not_succeeded⟩

/-- What a command does: nothing, or it forbids a nickname that was free, or
it takes away an account that looks forbidden. -/
theorem nsCmdForbid_cases (cfg : Config) (si : Caller) (parv : List CStr) (db : Db) :
    (nsCmdForbid cfg si parv db).1 = db ∨
    (∃ account reason, Forbiddable cfg db account ∧
      (nsCmdForbid cfg si parv db).1 = forbidden cfg si account reason db) ∨
    ∃ mu ∈ db.accounts, IsForbid db mu ∧ (nsCmdForbid cfg si parv db).1 = myuserDelete mu db := by
  unfold nsCmdForbid
  split
  next account action _ _ =>
    split
    · split
      · exact Or.inl rfl
      next reason _ =>
        by_cases h : Forbiddable cfg db account
        · exact Or.inr (Or.inl ⟨account, reason, h, (makeForbid_accepted h si reason).1⟩)
        · exact Or.inl (makeForbid_refused h si reason).1
    · split
      · by_cases h : ∃ mu, myuserFind cfg.toCore db account = some mu ∧ IsForbid db mu
        · obtain ⟨mu, hfind, hmu⟩ := h
          have hmem : mu ∈ db.accounts := List.mem_of_find?_eq_some hfind
          exact Or.inr (Or.inr ⟨mu, hmem, hmu, (destroyForbid_found hfind hmu si).1⟩)
        · push Not at h
          exact Or.inl (destroyForbid_refused h si).1
      · exact Or.inl rfl
  · exact Or.inl rfl

@[simp] theorem accounts_forbidden (cfg : Config) (si : Caller) (account reason : CStr) (db : Db) :
    (forbidden cfg si account reason db).accounts =
      db.accounts ++ [forbidAccount db.nextId si account reason] := by
  unfold forbidden
  cases cfg.noNickOwnership <;> rfl

@[simp] theorem nextId_forbidden (cfg : Config) (si : Caller) (account reason : CStr) (db : Db) :
    (forbidden cfg si account reason db).nextId = db.nextId + 1 := by
  unfold forbidden
  cases cfg.noNickOwnership <;> rfl

theorem nicks_forbidden (cfg : Config) (si : Caller) (account reason : CStr) (db : Db) :
    (forbidden cfg si account reason db).nicks =
      if cfg.noNickOwnership then db.nicks else db.nicks ++ [⟨account, db.nextId, si.now, si.now⟩] := by
  unfold forbidden
  cases cfg.noNickOwnership <;> rfl

theorem mem_accounts_forbidden {account reason : CStr} {mu : MyUser} :
    mu ∈ (forbidden cfg si account reason db).accounts ↔
      mu ∈ db.accounts ∨ mu = forbidAccount db.nextId si account reason := by
  rw [accounts_forbidden, List.mem_append, List.mem_singleton]

theorem mem_nicks_forbidden {account reason : CStr} {mn : MyNick} :
    mn ∈ (forbidden cfg si account reason db).nicks ↔
      mn ∈ db.nicks ∨ cfg.noNickOwnership = false ∧ mn = ⟨account, db.nextId, si.now, si.now⟩ := by
  rw [nicks_forbidden]
  cases cfg.noNickOwnership with
  | true => simp
  | false =>
    show mn ∈ db.nicks ++ [_] ↔ _
    rw [List.mem_append, List.mem_singleton, and_iff_right rfl]

/-! ### Well-formed databases -/

/-- A nickname that can be forbidden is the name of no account. -/
theorem WellFormed.no_account (h : WellFormed cfg db) {account : CStr} (hf : Forbiddable cfg db account) :
    ∀ mu ∈ db.accounts, cfg.irccasecmp mu.name account = false := by
  intro mu hmu
  have hfree := hf.free
  unfold isRegistered at hfree
  cases hown : cfg.noNickOwnership with
  | true =>
    rw [hown, if_pos rfl, Option.isSome_eq_false_iff, Option.isNone_iff_eq_none] at hfree
    exact Bool.eq_false_iff.mpr (List.find?_eq_none.mp hfree mu hmu)
  | false =>
    -- the account would own the nick of its name
    rw [hown, if_neg (by decide), Option.isSome_eq_false_iff, Option.isNone_iff_eq_none] at hfree
    obtain ⟨mn, hmn, -, hname⟩ := h.own hown mu hmu
    rw [← irccasecmp_congr hname]
    exact Bool.eq_false_iff.mpr (List.find?_eq_none.mp hfree mn hmn)

/-- With nick ownership it is no nick either. -/
theorem Forbiddable.no_nick {account : CStr} (hf : Forbiddable cfg db account)
    (hown : cfg.noNickOwnership = false) : ∀ mn ∈ db.nicks, cfg.irccasecmp mn.nick account = false := by
  intro mn hmn
  have hfree := hf.free
  rw [isRegistered, hown, if_neg (by decide), Option.isSome_eq_false_iff, Option.isNone_iff_eq_none] at hfree
  exact Bool.eq_false_iff.mpr (List.find?_eq_none.mp hfree mn hmn)

/-- An account is the only one with its id. -/
theorem WellFormed.id_inj (h : WellFormed cfg db) {mu mu' : MyUser} (hmu : mu ∈ db.accounts)
    (hmu' : mu' ∈ db.accounts) (hid : mu.id = mu'.id) : mu = mu' := by
  have hsymm : Std.Symm fun mu mu' : MyUser => mu.id ≠ mu'.id := ⟨fun _ _ hne => hne.symm⟩
  by_contra hne
  exact h.ids.forall hmu hmu' hne hid

/-- No nick belongs to an account that is still to come. -/
theorem WellFormed.no_owner (h : WellFormed cfg db) : ∀ mn ∈ db.nicks, mn.owner < db.nextId := by
  intro mn hmn
  obtain ⟨mu, hmu, hid⟩ := h.owned mn hmn
  exact hid ▸ h.fresh mu hmu

theorem WellFormed.afterOn (h : WellFormed cfg db) {account : CStr} (hf : Forbiddable cfg db account)
    (si : Caller) (reason : CStr) : WellFormed cfg (forbidden cfg si account reason db) := by
  constructor
  · rw [accounts_forbidden]
    exact h.names.append (h.no_account hf)
  · rw [nicks_forbidden]
    cases hown : cfg.noNickOwnership with
    | true => exact h.nicks
    | false => exact h.nicks.append (hf.no_nick hown)
  · rw [accounts_forbidden, List.pairwise_append]
    refine ⟨h.ids, List.pairwise_singleton _ _, fun mu hmu mu' hmu' => ?_⟩
    rw [List.mem_singleton.mp hmu']
    exact Nat.ne_of_lt (h.fresh mu hmu)
  · intro mu hmu
    rw [nextId_forbidden]
    rcases mem_accounts_forbidden.mp hmu with hmu | rfl
    · exact Nat.lt_succ_of_lt (h.fresh mu hmu)
    · exact Nat.lt_succ_self _
  · intro mn hmn
    rcases mem_nicks_forbidden.mp hmn with hmn | ⟨-, rfl⟩
    · obtain ⟨mu, hmu, hid⟩ := h.owned mn hmn
      exact ⟨mu, mem_accounts_forbidden.mpr (Or.inl hmu), hid⟩
    · exact ⟨_, mem_accounts_forbidden.mpr (Or.inr rfl), rfl⟩
  · intro hown mu hmu
    rcases mem_accounts_forbidden.mp hmu with hmu | rfl
    · obtain ⟨mn, hmn, howner, hname⟩ := h.own hown mu hmu
      exact ⟨mn, mem_nicks_forbidden.mpr (Or.inl hmn), howner, hname⟩
    · exact ⟨_, mem_nicks_forbidden.mpr (Or.inr ⟨hown, rfl⟩), rfl, irccasecmp_self _ account⟩

theorem WellFormed.afterOff (h : WellFormed cfg db) (mu : MyUser) : WellFormed cfg (myuserDelete mu db) := by
  have haccounts : ∀ m, m ∈ (myuserDelete mu db).accounts ↔ m ∈ db.accounts ∧ m.id ≠ mu.id := by
    intro m
    simp [myuserDelete]
  have hnicks : ∀ mn, mn ∈ (myuserDelete mu db).nicks ↔ mn ∈ db.nicks ∧ mn.owner ≠ mu.id := by
    intro mn
    simp [myuserDelete]
  constructor
  · exact h.names.sublist List.filter_sublist
  · exact h.nicks.sublist List.filter_sublist
  · exact h.ids.sublist List.filter_sublist
  · exact fun m hm => h.fresh m ((haccounts m).mp hm).1
  · intro mn hmn
    obtain ⟨hmn, hne⟩ := (hnicks mn).mp hmn
    obtain ⟨m, hm, hid⟩ := h.owned mn hmn
    exact ⟨m, (haccounts m).mpr ⟨hm, hid ▸ hne⟩, hid⟩
  · intro hown m hm
    obtain ⟨hm, hne⟩ := (haccounts m).mp hm
    obtain ⟨mn, hmn, howner, hname⟩ := h.own hown m hm
    exact ⟨mn, (hnicks mn).mpr ⟨hmn, howner ▸ hne⟩, howner, hname⟩

theorem mem_created {db' : Db} {mu : MyUser} (hmu : mu ∈ db'.accounts)
    (hnew : ∀ old ∈ db.accounts, old.id ≠ mu.id) : mu.id ∈ created db db' := by
  unfold created
  rw [List.mem_filter]
  refine ⟨List.mem_map_of_mem hmu, decide_eq_true fun hold => ?_⟩
  obtain ⟨old, hmem, hid⟩ := List.mem_map.mp hold
  exact hnew old hmem hid

/-- Every step keeps the database well-formed, and accounts without an address
for `FORBID ON`. -/
theorem good_step {s s' : State} {e : Event} (h : Good cfg s) (hstep : step cfg s e = some s') :
    Good cfg s' := by
  obtain ⟨hw, hmail⟩ := h
  cases e with
  | forbid si parv =>
    obtain rfl := Option.some.inj hstep
    rcases nsCmdForbid_cases cfg si parv s.db with heq | ⟨account, reason, hf, heq⟩ | ⟨mu, -, -, heq⟩
    · rw [heq]
      exact ⟨hw, fun mu hmu hm => List.mem_append_left _ (hmail mu hmu hm)⟩
    · rw [heq]
      refine ⟨hw.afterOn hf si reason, fun mu hmu hm => List.mem_append.mpr ?_⟩
      rcases mem_accounts_forbidden.mp hmu with hold | rfl
      · exact Or.inl (hmail mu hold hm)
      · exact Or.inr (mem_created hmu fun old hold => Nat.ne_of_lt (hw.fresh old hold))
    · rw [heq]
      refine ⟨hw.afterOff mu, fun m hm hmm => List.mem_append_left _ (hmail m ?_ hmm)⟩
      exact List.mem_of_mem_filter hm
  | others db =>
    rw [step] at hstep
    split at hstep
    next helse =>
      obtain rfl := Option.some.inj hstep
      refine ⟨helse.wellFormed, fun mu hmu hm => ?_⟩
      obtain ⟨old, hold, hid, hmo⟩ := helse.emails mu hmu hm
      exact hid ▸ hmail old hold hmo
    · cases hstep

/-! ### `OFF` after `ON` -/

theorem nsCmdForbid_on (cfg : Config) (si : Caller) (account reason : CStr) (db : Db) :
    nsCmdForbid cfg si [account, "ON".toList, reason] db = makeForbid cfg si account reason db := rfl

theorem nsCmdForbid_off (cfg : Config) (si : Caller) (account : CStr) (db : Db) :
    nsCmdForbid cfg si [account, "OFF".toList] db = destroyForbid cfg si account db := rfl

/-- The account of a forbidden nickname has no nick but its own, and that only
with nick ownership. -/
theorem WellFormed.nicksOf_forbidden (h : WellFormed cfg db) (si : Caller) (account reason : CStr) :
    (forbidden cfg si account reason db).nicksOf (forbidAccount db.nextId si account reason) =
      if cfg.noNickOwnership then [] else [⟨account, db.nextId, si.now, si.now⟩] := by
  have hnone : (db.nicks.filter fun mn => mn.owner = db.nextId) = [] := by
    rw [List.filter_eq_nil_iff]
    intro mn hmn
    simpa using Nat.ne_of_lt (h.no_owner mn hmn)
  show ((forbidden cfg si account reason db).nicks.filter fun mn => mn.owner = db.nextId) = _
  rw [nicks_forbidden]
  cases cfg.noNickOwnership with
  | true => exact hnone
  | false =>
    show (db.nicks ++ [_]).filter _ = [_]
    rw [List.filter_append, hnone]
    simp

theorem Good.find {s : State} (h : Good cfg s) {mu : MyUser} (hmu : mu ∈ s.db.accounts) :
    myuserFind cfg.toCore s.db mu.name = some mu :=
  h.wellFormed.names.find (irccasecmp_same cfg.toCore) hmu (irccasecmp_self _ _)

/-- `OFF` takes away the account and its nicks, and only these. -/
theorem WellFormed.myuserDelete_eq (h : WellFormed cfg db) {mu : MyUser} (hmu : mu ∈ db.accounts) :
    (myuserDelete mu db).accounts = db.accounts.filter (fun m => m ≠ mu) ∧
      (myuserDelete mu db).nicks = db.nicks.filter fun mn => mn ∉ db.nicksOf mu := by
  constructor
  · refine List.filter_congr fun m hm => ?_
    rw [decide_eq_decide]
    exact not_congr ⟨h.id_inj hm hmu, fun he => he ▸ rfl⟩
  · refine List.filter_congr fun mn hmn => ?_
    simp [Db.nicksOf, hmn]

/-- Before anything else has changed, the database is what it was. -/
theorem WellFormed.deleted_forbidden (h : WellFormed cfg db) {account : CStr} (si : Caller) (reason : CStr)
    {db₂ : Db} (haccounts : db₂.accounts = (forbidden cfg si account reason db).accounts)
    (hnicks : db₂.nicks = (forbidden cfg si account reason db).nicks) :
    (myuserDelete (forbidAccount db.nextId si account reason) db₂).accounts = db.accounts ∧
      (myuserDelete (forbidAccount db.nextId si account reason) db₂).nicks = db.nicks := by
  have hold : (db.accounts.filter fun m => m.id ≠ db.nextId) = db.accounts := by
    rw [List.filter_eq_self]
    intro m hm
    simpa using Nat.ne_of_lt (h.fresh m hm)
  have hnone : (db.nicks.filter fun mn => mn.owner ≠ db.nextId) = db.nicks := by
    rw [List.filter_eq_self]
    intro mn hmn
    simpa using Nat.ne_of_lt (h.no_owner mn hmn)
  constructor
  · show db₂.accounts.filter (fun m => m.id ≠ db.nextId) = _
    rw [haccounts, accounts_forbidden, List.filter_append, hold]
    simp [forbidAccount]
  · show db₂.nicks.filter (fun mn => mn.owner ≠ db.nextId) = _
    rw [hnicks, nicks_forbidden]
    cases cfg.noNickOwnership with
    | true => exact hnone
    | false =>
      show (db.nicks ++ [_]).filter _ = _
      rw [List.filter_append, hnone]
      simp

/-- The account of a forbidden nickname looks forbidden, while it has one
nick. -/
theorem isForbid_forbidAccount {id : ℕ} {account reason : CStr}
    (h : (db.nicksOf (forbidAccount id si account reason)).length = 1) :
    IsForbid db (forbidAccount id si account reason) :=
  ⟨by simp [metadataFind, forbidAccount], rfl, h, rfl⟩

theorem offUndoesOn_of_owned {s : State} (h : Good cfg s) {account : CStr}
    (hown : Forbiddable cfg s.db account → cfg.noNickOwnership = false) : OffUndoesOn cfg s account := by
  intro si reason s₁ hs₁ hon
  rw [nsCmdForbid_on] at hon
  by_cases hf : Forbiddable cfg s.db account
  · have hg : Good cfg s₁ := good_step h hs₁
    have hdb : s₁.db = forbidden cfg si account reason s.db := by
      obtain rfl := Option.some.inj hs₁
      exact (makeForbid_accepted hf si reason).1
    have hnicks := h.wellFormed.nicksOf_forbidden si account reason
    rw [hown hf] at hnicks
    refine ⟨_, by rw [hdb, accounts_forbidden], fun es s₂ hs₂ hsame si' db₃ sent hoff => ?_⟩
    have hg₂ : Good cfg s₂ := Run.exec_inv (fun _ _ _ => good_step) hg hs₂
    have hforbid := isForbid_forbidAccount (by rw [hsame.2, hdb, hnicks]; rfl)
    have hfind : myuserFind cfg.toCore s₂.db account = some _ := hg₂.find hsame.1
    obtain ⟨hdel, hsucc⟩ := destroyForbid_found hfind hforbid si'
    rw [nsCmdForbid_off] at hoff
    rw [hoff] at hdel hsucc
    obtain ⟨haccounts, hnicks₃⟩ := hg₂.wellFormed.myuserDelete_eq hsame.1
    rw [← hdel] at haccounts hnicks₃
    refine ⟨hsucc, haccounts, hnicks₃, fun ha hn => ?_⟩
    have hback := h.wellFormed.deleted_forbidden si reason (ha.trans (by rw [hdb])) (hn.trans (by rw [hdb]))
    rw [← hdel] at hback
    exact hback
  · exact absurd hon (makeForbid_refused hf si reason).2

/-- Without nick ownership `OFF` does not find the nickname forbidden. -/
theorem owned_of_offUndoesOn {s : State} (h : Good cfg s) {account : CStr} (hu : OffUndoesOn cfg s account)
    (hf : Forbiddable cfg s.db account) : cfg.noNickOwnership = false := by
  by_contra hown
  rw [Bool.not_eq_false] at hown
  have si : Caller := ⟨"", 0, []⟩
  obtain ⟨hdb, hon⟩ := makeForbid_accepted hf si []
  obtain ⟨mu, hmu, hoff⟩ := hu si [] _ rfl hon
  have hg₁ : Good cfg _ := good_step h (e := .forbid si [account, "ON".toList, []]) rfl
  rw [nsCmdForbid_on] at hmu hoff hg₁
  have hlast : mu = forbidAccount s.db.nextId si account [] := by
    rw [hdb, accounts_forbidden] at hmu
    simpa using hmu.symm
  have hmem : mu ∈ (makeForbid cfg si account [] s.db).1.accounts := by
    rw [hmu]
    exact List.mem_append_right _ (List.mem_singleton.mpr rfl)
  have hfind : myuserFind cfg.toCore (makeForbid cfg si account [] s.db).1 account = some mu := by
    have hname : account = mu.name := by
      rw [hlast]
      rfl
    rw [hname] at hg₁ hmem ⊢
    exact hg₁.find hmem
  have hnone : (makeForbid cfg si account [] s.db).1.nicksOf mu = [] := by
    rw [hdb, hlast, h.wellFormed.nicksOf_forbidden si account [], hown]
    rfl
  obtain ⟨hsucc, -⟩ := hoff [] _ rfl ⟨hmem, rfl⟩ si _ _ rfl
  refine (destroyForbid_refused (fun mu' hmu' hforbid => ?_) si).2 hsucc
  rw [hfind, Option.some.injEq] at hmu'
  have hone := hforbid.nicks
  rw [← hmu', hnone] at hone
  exact Nat.zero_ne_one hone

theorem unchanged_delete {mu m : MyUser} (hm : m ∈ db.accounts) (hne : m.id ≠ mu.id) :
    Unchanged m db (myuserDelete mu db) := by
  refine ⟨List.mem_filter.mpr ⟨hm, decide_eq_true hne⟩, ?_⟩
  show (db.nicks.filter fun mn => mn.owner ≠ mu.id).filter (fun mn => mn.owner = m.id) = _
  rw [List.filter_filter]
  refine List.filter_congr fun mn _ => ?_
  by_cases howner : mn.owner = m.id
  · simp [howner, hne]
  · simp [howner]

theorem unchanged_forbidden (h : WellFormed cfg db) (si : Caller) (account reason : CStr) {m : MyUser}
    (hm : m ∈ db.accounts) : Unchanged m db (forbidden cfg si account reason db) := by
  refine ⟨?_, ?_⟩
  · rw [accounts_forbidden]
    exact List.mem_append_left _ hm
  · show (forbidden cfg si account reason db).nicks.filter (fun mn => mn.owner = m.id) = _
    rw [nicks_forbidden]
    cases cfg.noNickOwnership with
    | true => rfl
    | false =>
      have hne : db.nextId ≠ m.id := (Nat.ne_of_lt (h.fresh m hm)).symm
      show (db.nicks ++ [_]).filter _ = _
      rw [List.filter_append]
      simp [hne, Db.nicksOf]

/-- What looks forbidden has the address `noemail`, so `FORBID ON` has created
it. -/
theorem Good.keepsOthers {s : State} (h : Good cfg s) : KeepsOthers cfg s := by
  intro si parv m hm hnot
  rcases nsCmdForbid_cases cfg si parv s.db with heq | ⟨account, reason, -, heq⟩ | ⟨mu, hmu, hforbid, heq⟩
  · rw [heq]
    exact ⟨hm, rfl⟩
  · rw [heq]
    exact unchanged_forbidden h.wellFormed si account reason hm
  · rw [heq]
    have hmail := h.emails mu hmu hforbid.email
    exact unchanged_delete hm fun hid => hnot (hid ▸ hmail)

/-- **`FORBID OFF` undoes `FORBID ON` and nothing else, with nick ownership**:
in every state that is reached, and for every nickname; without nick ownership
that is so only of the nicknames that `ON` refuses. -/
theorem forbid_undone_iff {cfg : Config} {s₀ s : State} (h0 : Good cfg s₀) (hs : Run.Reach (step cfg) s₀ s)
    (account : CStr) : OffUndoesOn cfg s account ∧ KeepsOthers cfg s ↔
      (Forbiddable cfg s.db account → cfg.noNickOwnership = false) := by
  have h : Good cfg s := Run.reach_inv h0 (fun _ _ _ => good_step) hs
  constructor
  · intro ⟨hu, _⟩
    exact owned_of_offUndoesOn h hu
  · exact fun hown => ⟨offUndoesOn_of_owned h hown, h.keepsOthers⟩

/-- Services where every nickname is valid. -/
def anyNick (noNickOwnership : Bool) : Config := ⟨⟨Char.toLower, fun _ => ""⟩, noNickOwnership, fun _ => true⟩

/-- An account with its nick. -/
def alice : Db :=
  ⟨[⟨0, "alice".toList, "secret".toList, "alice@host".toList, [], 10, 20, []⟩],
    [⟨"alice".toList, 0, 10, 20⟩], 1⟩

/-- An operator, at the time 100. -/
def oper : Caller := ⟨"oper", 100, ["Spam".toList]⟩

theorem alice_good (noNickOwnership : Bool) : Good (anyNick noNickOwnership) ⟨alice, []⟩ := by
  refine ⟨?_, by decide⟩
  cases noNickOwnership <;> decide

/-- `spam` has been forbidden, and now `eggs` is. -/
theorem forbid_undone_eggs :
    let s : State := ⟨forbidden (anyNick false) oper "spam".toList "x".toList alice, [1]⟩
    OffUndoesOn (anyNick false) s "eggs".toList ∧ KeepsOthers (anyNick false) s ↔
      (Forbiddable (anyNick false) s.db "eggs".toList → (anyNick false).noNickOwnership = false) :=
  forbid_undone_iff (alice_good false)
    ⟨[.forbid oper ["spam".toList, "ON".toList, "x".toList]], rfl⟩ "eggs".toList

/-- Without nick ownership `spam` is forbidden for good. -/
theorem off_refused :
    let on := nsCmdForbid (anyNick true) oper ["spam".toList, "ON".toList, "x".toList] alice
    Good (anyNick true) ⟨alice, []⟩ ∧ Succeeded on.2 ∧
      nsCmdForbid (anyNick true) oper ["spam".toList, "OFF".toList] on.1 =
        (on.1, [.irc (.fail .nosuch_target "\x02spam\x02 is not a forbidden nickname.")]) ∧
      ¬ OffUndoesOn (anyNick true) ⟨alice, []⟩ "spam".toList := by
  have hf : Forbiddable (anyNick true) alice "spam".toList := ⟨by decide, rfl, by decide⟩
  refine ⟨alice_good true, (makeForbid_accepted hf oper _).2, rfl, fun hu => ?_⟩
  exact absurd (owned_of_offUndoesOn (alice_good true) hu hf) (by decide)

end NsForbid
end AthemeContrib
