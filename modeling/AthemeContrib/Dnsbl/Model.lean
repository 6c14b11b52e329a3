/-
# dnsbl: the module's functions

A user that connects is looked up in every configured blacklist, if an action
is set and the address is not exempt; `DNSBLSCAN` looks a user up on demand.
The action is set by `SET DNSBLACTION`, or by the `dnsbl_action` of the
configuration file, which may be any string. A lookup is a `BlacklistClient`
with raw pointers to the user and the blacklist; the resolver answers it later,
once, through `blacklist_dns_callback`. Pointers are object numbers, never given
out twice, so a pointer to a freed object names nothing; reading through one, or
through a null pointer, crashes the services, and nothing happens afterwards
(`State.crashed`). The address of a user may be such a null pointer.

`State.lookups` are the lookups the resolver has not answered, and a user's
`queries` is the private data "dnsbl:queries", a list of the lookups'
addresses. `State.hits` is ghost state: the value of `action` each time
`dnsbl_hit` was entered. The name asked of the resolver is left out, as
nothing reads it back, and so are log lines. OperServ is taken to exist.

Key definitions: `State`, `osCmdSetDnsblaction`, `osCmdDnsblexempt`,
`dnsblHit`, `blacklistDnsCallback`, `lookupBlacklists`, `checkDnsbls`, `step`.
-/
import AthemeContrib.Command
import AthemeContrib.Lib.Run

namespace AthemeContrib
namespace Dnsbl

open CStr

/-- A user of the network. -/
structure User where
  id : ℕ
  nick : CStr
  user : CStr
  host : CStr
  ip : Option CStr
  internal : Bool
  klinesent : Bool
  queries : Option (List ℕ)
deriving DecidableEq, Repr

/-- A configured DNSBL. -/
structure Blacklist where
  id : ℕ
  status : ℕ
  refcount : ℕ
  host : CStr
  lastwarning : ℕ
deriving DecidableEq, Repr

/-- A lookup in progress for a particular DNSBL for a particular client. -/
structure BlacklistClient where
  id : ℕ
  blacklist : ℕ
  u : Option ℕ
deriving DecidableEq, Repr

/-- An address no lookup is made for. -/
structure Exempt where
  ip : CStr
  exemptTs : ℕ
  creator : CStr
  reason : CStr
deriving DecidableEq, Repr

/-- A network ban as `kline_add` sets it. -/
structure Kline where
  user : CStr
  host : CStr
  reason : String
  duration : ℕ
deriving DecidableEq, Repr

/-- The address of a DNS answer: its family and its first byte. -/
structure Addr where
  inet : Bool
  first : ℕ
deriving DecidableEq, Repr

structure State where
  users : List User
  blacklistList : List Blacklist
  dnsblElist : List Exempt
  action : Option CStr
  lookups : List BlacklistClient
  next : ℕ
  klines : List Kline
  hits : List (Option CStr)
  crashed : Bool
  out : List Output
deriving DecidableEq, Repr

def init : State := ⟨[], [], [], none, [], 0, [], [], false, []⟩

def State.send (s : State) (o : List Output) : State := { s with out := s.out ++ o }

def State.user? (s : State) (id : ℕ) : Option User := s.users.find? (·.id = id)

def State.blacklist? (s : State) (id : ℕ) : Option Blacklist := s.blacklistList.find? (·.id = id)

/-- The user `id` is changed by `f`. -/
def State.updUser (s : State) (id : ℕ) (f : User → User) : State :=
  { s with users := s.users.map fun u => if u.id = id then f u else u }

/-- The blacklist `id` is changed by `f`. -/
def State.updBlacklist (s : State) (id : ℕ) (f : Blacklist → Blacklist) : State :=
  { s with blacklistList := s.blacklistList.map fun b => if b.id = id then f b else b }

/-- `dnsbl_queries(u)`: the list is made the first time it is asked for. -/
def dnsblQueries (u : User) : List ℕ := u.queries.getD []

/-! ### SET DNSBLACTION -/

/-- A value that names an action. -/
def isAction (act : CStr) : Bool :=
  strcasecmp "SNOOP".toList act || strcasecmp "KLINE".toList act || strcasecmp "NOTIFY".toList act

def isNone (act : CStr) : Bool := strcasecmp "NONE".toList act

def actionSetText (act : CStr) : String := s!"DNSBLACTION successfully set to \x02{String.ofList act}\x02"

/-- `SET DNSBLACTION [action]` -/
def osCmdSetDnsblaction (act : Option CStr) (s : State) : State :=
  match act with
  | none => s.send
      [.fail .needmoreparams (STR_INSUFFICIENT_PARAMS "SET DNSBLACTION"),
       .fail .needmoreparams "Syntax: SET DNSBLACTION <action> <SNOOP|KLINE|NOTIFY|NONE>"]
  | some act =>
    if isAction act then ({ s with action := some act } : State).send [.success (actionSetText act)]
    else if isNone act then ({ s with action := none } : State).send [.success (actionSetText act)]
    else s.send [.fail .badparams "Invalid action given."]

/-! ### DNSBLEXEMPT -/

def exemptSyntax : Output := .fail .needmoreparams "Syntax: DNSBLEXEMPT ADD|DEL|LIST [ip] [reason]"

/-- `DNSBLEXEMPT command [ip] [reason]`, from `source` at the time `now`. -/
def osCmdDnsblexempt (core : Core) (source : CStr) (now : ℕ) (command ip reason : Option CStr) (s : State) :
    State :=
  match command with
  | none => s.send [.fail .needmoreparams (STR_INSUFFICIENT_PARAMS "DNSBLEXEMPT"), exemptSyntax]
  | some command =>
    if strcasecmp "ADD".toList command then
      match ip, reason with
      | some ip, some reason =>
        if s.dnsblElist.any (fun de => core.irccasecmp de.ip ip) then
          s.send [.success
            s!"\x02{String.ofList ip}\x02 has already been entered into the DNSBL exempts list."]
        else
          ({ s with dnsblElist := s.dnsblElist ++ [⟨ip, now, source, reason⟩] } : State).send
            [.success s!"You have added \x02{String.ofList ip}\x02 to the DNSBL exempts list."]
      | _, _ => s.send
          [.fail .needmoreparams (STR_INSUFFICIENT_PARAMS "DNSBLEXEMPT ADD"),
           .fail .needmoreparams "Syntax: DNSBLEXEMPT ADD <ip> <reason>"]
    else if strcasecmp "DEL".toList command then
      match ip with
      | some ip =>
        match s.dnsblElist.find? (fun de => core.irccasecmp de.ip ip) with
        | some de =>
          ({ s with dnsblElist := s.dnsblElist.erase de } : State).send
            [.success s!"DNSBL Exempt IP \x02{String.ofList de.ip}\x02 has been deleted."]
        | none => s.send [.success s!"IP \x02{String.ofList ip}\x02 not found in DNSBL Exempt database."]
      | none => s.send
          [.fail .needmoreparams (STR_INSUFFICIENT_PARAMS "DNSBLEXEMPT DEL"),
           .fail .needmoreparams "Syntax: DNSBLEXEMPT DEL <ip>"]
    else if strcasecmp "LIST".toList command then
      let line (de : Exempt) : Output :=
        let ip := String.ofList de.ip
        let reason := String.ofList de.reason
        let creator := String.ofList de.creator
        let buf := core.strftime de.exemptTs
        .success s!"IP: \x02{ip}\x02, Reason: \x02{reason}\x02 ({creator} - {buf})"
      s.send (s.dnsblElist.map line ++ [.success "End of list."])
    else s.send [.fail .needmoreparams (STR_INVALID_PARAMS "DNSBLEXEMPT"), exemptSyntax]

/-! ### Lookups -/

def State.crash (s : State) : State := { s with crashed := true }

/-- `initiate_blacklist_dnsquery(blptr, u)`: `sscanf` reads the address. -/
def initiateBlacklistDnsquery (blptr : ℕ) (u : User) (s : State) : State :=
  match u.ip with
  | none => s.crash
  | some _ =>
    let id := s.next
    let s : State := { s with lookups := s.lookups ++ [⟨id, blptr, some u.id⟩], next := id + 1 }
    let s := s.updUser u.id fun u => { u with queries := some (dnsblQueries u ++ [id]) }
    s.updBlacklist blptr fun b => { b with refcount := b.refcount + 1 }

/-- One round of the loop over the blacklists, if the services still run. -/
def lookupBlacklist (u : User) (s : State) (b : Blacklist) : State :=
  if s.crashed then s
  else initiateBlacklistDnsquery b.id u (s.updBlacklist b.id fun b => { b with status := 0 })

/-- `lookup_blacklists(u)`; neither caller passes a null user. -/
def lookupBlacklists (u : User) (s : State) : State := s.blacklistList.foldl (lookupBlacklist u) s

/-- `DNSBLSCAN [nickname]` -/
def osCmdDnsblscan (core : Core) (user : Option CStr) (s : State) : State :=
  match user with
  | none => s.send
      [.fail .needmoreparams (STR_INSUFFICIENT_PARAMS "DNSBLSCAN"),
       .fail .needmoreparams "Syntax: DNSBLSCAN <nickname>"]
  | some user =>
    match s.users.find? (fun u => core.irccasecmp u.nick user) with
    | some u =>
      let s := lookupBlacklists u s
      if s.crashed then s else s.send [.success s!"{String.ofList user} has been scanned."]
    | none => s.send [.fail .badparams
        s!"User {String.ofList user} is not on the network, you cannot scan them."]

/-- The hook on new users. -/
def checkDnsbls (core : Core) (u : User) (s : State) : State :=
  if u.internal then s
  else if s.action.isNone then s
  else match u.ip with
    | none => if s.dnsblElist.isEmpty then lookupBlacklists u s else s.crash
    | some ip => if s.dnsblElist.any (fun de => core.irccasecmp de.ip ip) then s else lookupBlacklists u s

/-! ### Answers -/

def listedText (ip host : CStr) : String :=
  s!"Your IP address {String.ofList ip} is listed in DNS Blacklist {String.ofList host}"

/-- `dnsbl_hit(u, blptr)`: `action` is compared first, then the user and the
blacklist are read. -/
def dnsblHit (u blptr : ℕ) (s : State) : State :=
  let s := { s with hits := s.hits ++ [s.action] }
  match s.action with
  | none => s.crash
  | some action =>
    if !isAction action then s
    else match s.user? u with
      | none => s.crash
      | some usr =>
        if strcasecmp "KLINE".toList action && usr.klinesent then s
        else match s.blacklist? blptr with
          | none => s.crash
          | some bl =>
            let ip := usr.ip.getD "(null)".toList
            let notice : Output := .notice (String.ofList usr.nick) (listedText ip bl.host)
            if strcasecmp "SNOOP".toList action then s
            else if strcasecmp "NOTIFY".toList action then s.send [notice]
            else
              let kline : Kline := ⟨usr.user, usr.host, "Banned (DNS Blacklist)", 86400⟩
              let s := { s.send [notice] with klines := s.klines ++ [kline] }
              s.updUser u fun u => { u with klinesent := true }

/-- Only 127.x.y.z is a listing. -/
def listed : Option Addr → Bool
  | none => false
  | some a => a.inet && a.first == 127

/-- An answer that is no listing: the blacklist is read for the warning, if
there was an answer. -/
def garbageReply (blptr now : ℕ) (reply : Option Addr) (s : State) : State :=
  match reply with
  | none => s
  | some _ =>
    match s.blacklist? blptr with
    | none => s.crash
    | some bl =>
      if bl.lastwarning + 3600 < now then s.updBlacklist blptr fun b => { b with lastwarning := now } else s

/-- `blacklist_dns_callback(reply, result, vptr)` -/
def blacklistDnsCallback (blcptr : BlacklistClient) (reply : Option Addr) (now : ℕ) (s : State) : State :=
  match blcptr.u with
  | none => s
  | some u =>
    if listed reply then dnsblHit u blcptr.blacklist s
    else
      let s := garbageReply blcptr.blacklist now reply s
      match s.user? u with
      | none => s.crash
      | some _ => s.updUser u fun u => { u with queries := some ((dnsblQueries u).filter (· ≠ blcptr.id)) }

/-! ### Configuration -/

def IRCD_RES_HOSTLEN : ℕ := 255

/-- `new_blacklist(name)` -/
def newBlacklist (name : CStr) (s : State) : State :=
  let host := strlcpy name (IRCD_RES_HOSTLEN + 1)
  match s.blacklistList.find? (fun b => strcasecmp b.host name) with
  | some b => s.updBlacklist b.id fun b => { b with host := host, lastwarning := 0 }
  | none => { s with
      blacklistList := s.blacklistList ++ [⟨s.next, 0, 0, host, 0⟩]
      next := s.next + 1 }

/-- `dnsbl_config_handler`, given the names of the block. -/
def dnsblConfigHandler (names : List CStr) (s : State) : State := names.foldl (fun s n => newBlacklist n s) s

/-- The configuration is read with this `dnsbl_action`, or with none. -/
def dnsblActionItem (value : Option CStr) (s : State) : State := { s with action := value }

/-- `dnsbl_config_purge` -/
def destroyBlacklists (s : State) : State := { s with blacklistList := [] }

/-! ### Events -/

inductive Event
  | connect (nick user host : CStr) (ip : Option CStr) (internal : Bool)
  | quit (id : ℕ)
  | scan (user : Option CStr)
  | setAction (act : Option CStr)
  | exempt (source : CStr) (now : ℕ) (command ip reason : Option CStr)
  | config (names : List CStr)
  | dnsblAction (value : Option CStr)
  | purge
  | reply (id : ℕ) (reply : Option Addr) (now : ℕ)
deriving DecidableEq, Repr

/-- The unanswered lookup at an address. -/
def State.lookup? (s : State) (id : ℕ) : Option BlacklistClient := s.lookups.find? (·.id = id)

/-- The record of a user that connects. -/
def newUser (s : State) (nick user host : CStr) (ip : Option CStr) (internal : Bool) : User :=
  ⟨s.next, nick, user, host, ip, internal, false, none⟩

def State.addUser (s : State) (u : User) : State := { s with users := s.users ++ [u], next := s.next + 1 }

/-- What an event makes of a state in which the services run. A lookup is
answered at most once. -/
def handle (core : Core) (s : State) : Event → Option State
  | .connect nick user host ip internal =>
    let u := newUser s nick user host ip internal
    some (checkDnsbls core u (s.addUser u))
  | .quit id => some { s with users := s.users.filter (·.id ≠ id) }
  | .scan user => some (osCmdDnsblscan core user s)
  | .setAction act => some (osCmdSetDnsblaction act s)
  | .exempt source now command ip reason => some (osCmdDnsblexempt core source now command ip reason s)
  | .config names => some (dnsblConfigHandler names s)
  | .dnsblAction value => some (dnsblActionItem value s)
  | .purge => some (destroyBlacklists s)
  | .reply id reply now =>
    (s.lookup? id).map fun c =>
      blacklistDnsCallback c reply now { s with lookups := s.lookups.filter (·.id ≠ id) }

def step (core : Core) (s : State) (e : Event) : Option State :=
  if s.crashed then none else handle core s e

end Dnsbl
end AthemeContrib
