/-
# os_trace: the module's functions

`TRACE action params` compiles the action, which takes its own parameters off
the front of the argument string, then the criteria, and executes the action
on every user that satisfies them all. `*args`, where the parsing has got to,
is the suffix of the string it points at, and the functions that call `strtok`
take and return the pointer it has saved.

Users, servers and channels are object numbers. `kill_user` removes the user
from the user list and from its channels, and a channel goes with its last
member, so a pointer to either may name nothing then; following such a
pointer, or a null token, crashes the services, and nothing happens
afterwards (`State.crashed`). The matching, the regular expressions and the
searches of the services core are `Services`; log lines are left out.

`State.crit` are the criteria that were prepared, `State.cleaned` those that
were cleaned up, and `State.touched` the users the action was executed on.

Key definitions: `Services`, `Query`, `Action`, `reasonExtract`,
`QueryConstructor.prepare`, `ActionConstructor.prepare`, `compile`,
`osCmdTrace`.
-/
import AthemeContrib.Command

namespace AthemeContrib
namespace Trace

open CStr

/-- `user_t`, as far as it is read here. -/
structure User where
  id : ℕ
  nick : CStr
  user : CStr
  host : CStr
  gecos : CStr
  server : ℕ
  ts : ℤ
  identified : Bool
  soper : Bool
  ircop : Bool
  internal : Bool
deriving DecidableEq, Repr

/-- `channel_t`: its name and its members. -/
structure Channel where
  id : ℕ
  name : CStr
  members : List ℕ
deriving DecidableEq, Repr

/-- A network ban as `kline_add` sets it. -/
structure Kline where
  user : CStr
  host : CStr
  reason : CStr
  duration : ℤ
  setby : CStr
deriving DecidableEq, Repr

/-- What the module uses of the services core: `regexExtract` returns the
pattern, its flags and how far the string has been read, `regexCreate` what
the pattern matches, if it compiles. -/
structure Services extends Core where
  serverFind : CStr → Option ℕ
  serverName : ℕ → CStr
  matchMask : CStr → CStr → Bool
  matchIps : CStr → CStr → Bool
  regexExtract : CStr → Option (CStr × ℕ × ℕ)
  regexCreate : CStr → ℕ → Option (CStr → Bool)
  klineFind : List Kline → CStr → CStr → Bool
  klineTime : ℤ
  vhost : Option CStr
  operserv : Bool
  storageOperName : CStr
  now : ℤ

/-- The five comparisons. -/
inductive Comparison
  | eq
  | lt
  | le
  | gt
  | ge
deriving DecidableEq, Repr

/-- A criterion that has been prepared: the `trace_query_*_domain`s. -/
inductive Query
  | regexp (pattern : Option (CStr × ℕ))
  | server (server : Option ℕ)
  | glob (pattern : Option CStr)
  | channel (channel : Option ℕ)
  | nickage (nickage : ℤ) (comparison : Comparison)
  | numchan (numchan : ℕ) (comparison : Comparison)
  | identified (identified : Bool)
deriving DecidableEq, Repr

/-- The seven `trace_query_constructor`s. -/
inductive QueryConstructor
  | regexp
  | server
  | glob
  | channel
  | nickage
  | numchan
  | identified
deriving DecidableEq, Repr

/-- An action that has been prepared: the `trace_action_*`s. -/
inductive Action
  | print
  | kill (reason : CStr)
  | akill (duration : ℤ) (reason : CStr)
  | count
deriving DecidableEq, Repr

/-- The four `trace_action_constructor`s. -/
inductive ActionConstructor
  | print
  | kill
  | akill
  | count
deriving DecidableEq, Repr

/-- The network, and what the command has done. -/
structure State where
  users : List User
  channels : List Channel
  klines : List Kline
  kills : List (ℕ × CStr)
  out : List Output
  crit : List Query
  cleaned : List Query
  touched : List ℕ
  matched : Bool
  found : ℕ
  crashed : Bool
deriving DecidableEq, Repr

/-- The network when the command is given. -/
def State.begin (users : List User) (channels : List Channel) (klines : List Kline) : State :=
  ⟨users, channels, klines, [], [], [], [], [], false, 0, false⟩

def State.send (s : State) (o : List Output) : State := { s with out := s.out ++ o }

def State.crash (s : State) : State := { s with crashed := true }

def State.user? (s : State) (id : ℕ) : Option User := s.users.find? (·.id = id)

def State.channel? (s : State) (id : ℕ) : Option Channel := s.channels.find? (·.id = id)

/-- `kill_user(source, u, "%s", reason)` -/
def State.killUser (s : State) (u : ℕ) (reason : CStr) : State :=
  { s with
    kills := s.kills ++ [(u, reason)]
    users := s.users.filter (·.id ≠ u)
    channels := s.channels.filterMap fun c =>
      if u ∈ c.members then
        let members := c.members.erase u
        if members = [] then none else some { c with members := members }
      else some c }

/-! ### Reading the parameters -/

/-- What a `prepare` function makes of `*args`: it follows a null token,
returns null, or returns what it has prepared. -/
inductive Prepared (α : Type)
  | crash
  | null
  | made (a : α) (args : Option CStr) (saved : CStr)
deriving DecidableEq, Repr

/-- `read_comparison_operator(string, default)` -/
def readComparisonOperator (string : CStr) (default : Comparison) : CStr × Comparison :=
  match string with
  | '<' :: '=' :: s => (s, .le)
  | '<' :: s => (s, .lt)
  | '>' :: '=' :: s => (s, .ge)
  | '>' :: s => (s, .gt)
  | '=' :: s => (s, .eq)
  | s => (s, default)

/-- The loop of `reason_extract`: the characters it passes, `*args`, and
`quotes`. -/
def reasonLoop (quotes : Bool) : CStr → CStr × CStr × Bool
  | [] => ([], [], quotes)
  | c :: s =>
    if quotes ∧ c = '"' then ([], s, false)
    else if ¬ quotes ∧ c = ' ' then ([], s, quotes)
    else
      let (reason, args, quotes) := reasonLoop quotes s
      (c :: reason, args, quotes)

/-- `reason_extract` from its loop on. -/
def reasonFrom (start : CStr) (quotes : Bool) : Option CStr × Option CStr :=
  let (reason, args, quotes) := reasonLoop quotes start
  let args := if args = [] then none else some args
  -- `start == *args`: both point at the same suffix
  if some start = args then (none, args)
  else if quotes then (none, args)
  else (some reason, args)

/-- `reason_extract(args)`: the reason, and `*args`. -/
def reasonExtract (args : CStr) : Option CStr × Option CStr :=
  match args.dropWhile (· = ' ') with
  | '"' :: s => reasonFrom s true
  | s => reasonFrom s false

/-! ### The criteria -/

/-- `trace_regexp_prepare` -/
def traceRegexpPrepare (sv : Services) (args : CStr) (saved : CStr) : Prepared Query :=
  match sv.regexExtract args with
  | none => .made (.regexp none) (some args) saved
  | some (pattern, flags, n) => .made (.regexp (some (pattern, flags))) (some (args.drop n)) saved

/-- `trace_server_prepare` -/
def traceServerPrepare (sv : Services) (args : CStr) (saved : CStr) : Prepared Query :=
  let (server, saved) := strtok (some args) [' '] saved
  let (args, saved) := strtok none [] saved
  .made (.server (server.bind sv.serverFind)) args saved

/-- `trace_glob_prepare` -/
def traceGlobPrepare (args : CStr) (saved : CStr) : Prepared Query :=
  let (pattern, saved) := strtok (some args) [' '] saved
  let (args, saved) := strtok none [] saved
  .made (.glob pattern) args saved

/-- `channel_find(name)` -/
def channelFind (sv : Services) (s : State) (name : CStr) : Option ℕ :=
  (s.channels.find? fun c => sv.irccasecmp c.name name).map (·.id)

/-- `trace_channel_prepare` -/
def traceChannelPrepare (sv : Services) (s : State) (args : CStr) (saved : CStr) : Prepared Query :=
  let (channel, saved) := strtok (some args) [' '] saved
  let (args, saved) := strtok none [] saved
  .made (.channel (channel.bind (channelFind sv s))) args saved

/-- `trace_nickage_prepare` -/
def traceNickagePrepare (args : CStr) (saved : CStr) : Prepared Query :=
  match strtok (some args) [' '] saved with
  | (none, _) => .crash
  | (some nickage, saved) =>
    let (nickage, comparison) := readComparisonOperator nickage .le
    let (args, saved) := strtok none [] saved
    .made (.nickage (atoi nickage) comparison) args saved

/-- `trace_numchan_prepare` -/
def traceNumchanPrepare (args : CStr) (saved : CStr) : Prepared Query :=
  match strtok (some args) [' '] saved with
  | (none, _) => .crash
  | (some numchan, saved) =>
    let (numchan, comparison) := readComparisonOperator numchan .eq
    let (args, saved) := strtok none [] saved
    .made (.numchan (atoi numchan % 2 ^ 32).toNat comparison) args saved

/-- `trace_identified_prepare` -/
def traceIdentifiedPrepare (args : CStr) (saved : CStr) : Prepared Query :=
  match strtok (some args) [' '] saved with
  | (none, _) => .crash
  | (some yesno, saved) =>
    let (args, saved) := strtok none [] saved
    if strcasecmp yesno "yes".toList then .made (.identified true) args saved
    else if strcasecmp yesno "no".toList then .made (.identified false) args saved
    else .null

/-- `cons->prepare` -/
def QueryConstructor.prepare (sv : Services) (s : State) (args : CStr) (saved : CStr) :
    QueryConstructor → Prepared Query
  | .regexp => traceRegexpPrepare sv args saved
  | .server => traceServerPrepare sv args saved
  | .glob => traceGlobPrepare args saved
  | .channel => traceChannelPrepare sv s args saved
  | .nickage => traceNickagePrepare args saved
  | .numchan => traceNumchanPrepare args saved
  | .identified => traceIdentifiedPrepare args saved

/-- `trace_cmdtree` -/
def traceCmdtree : List (CStr × QueryConstructor) :=
  [("REGEXP".toList, .regexp), ("SERVER".toList, .server), ("GLOB".toList, .glob),
    ("CHANNEL".toList, .channel), ("NICKAGE".toList, .nickage), ("NUMCHAN".toList, .numchan),
    ("IDENTIFIED".toList, .identified)]

/-- `trace_acttree` -/
def traceActtree : List (CStr × ActionConstructor) :=
  [("PRINT".toList, .print), ("KILL".toList, .kill), ("AKILL".toList, .akill), ("COUNT".toList, .count)]

/-- `mowgli_patricia_retrieve(tree, key)`: the keys are compared without
case. -/
def retrieve {α : Type} (tree : List (CStr × α)) (key : CStr) : Option α :=
  (tree.find? fun entry => strcasecmp entry.1 key).map (·.2)

/-- What is compared by a comparison. -/
def Comparison.holds (a b : ℤ) : Comparison → Bool
  | .lt => a < b
  | .le => a ≤ b
  | .gt => a > b
  | .ge => a ≥ b
  | .eq => a = b

/-- `snprintf(usermask, 512, ..)` cuts the mask. -/
def usermask (mask : CStr) : CStr := strlcpy mask 512

/-- `q->cons->exec(u, q)`; none if it follows a pointer to a channel that is
gone. -/
def Query.exec (sv : Services) (s : State) (u : User) : Query → Option Bool
  | .regexp none => some false
  | .regexp (some (pattern, flags)) => some <|
    match sv.regexCreate pattern flags with
    | none => false
    | some regex => regex (usermask (u.nick ++ '!' :: u.user ++ '@' :: u.host ++ ' ' :: u.gecos))
  | .server srv => some (srv = some u.server)
  | .glob none => some false
  | .glob (some pattern) => some (sv.matchMask pattern (usermask (u.nick ++ '!' :: u.user ++ '@' :: u.host)))
  | .channel none => some false
  | .channel (some ch) => (s.channel? ch).map fun c => u.id ∈ c.members
  | .nickage n comparison => some (comparison.holds ((sv.now - u.ts).bmod (2 ^ 32)) n)
  | .numchan n comparison =>
    some (comparison.holds ((s.channels.countP fun c => u.id ∈ c.members) % 2 ^ 32 : ℕ) n)
  | .identified b => some (b = u.identified)

/-! ### The actions -/

/-- `trace_kill_prepare` -/
def traceKillPrepare (args : Option CStr) (saved : CStr) : Prepared Action :=
  match args with
  | none => .null
  | some args =>
    match reasonExtract args with
    | (none, _) => .null
    | (some reason, args) => .made (.kill reason) args saved

/-- The token that `trace_akill_prepare` takes off: `t`, `p`, or none, and
`*args`. -/
def akillToken (args : CStr) : Option Char × CStr :=
  match args with
  | '!' :: c :: rest =>
    if c.toLower = 't' ∨ c.toLower = 'p' then
      match rest with
      | ' ' :: rest => (some c.toLower, rest)
      | [] => (some c.toLower, [])
      | _ => (none, args)
    else (none, args)
  | _ => (none, args)

/-- The duration after `!T`, in seconds, as the 64-bit long it is computed
in. -/
def akillDuration (s : CStr) : ℤ :=
  let duration := (strtol s * 60).bmod (2 ^ 64)
  match s.dropWhile isdigit with
  | [] => duration
  | c :: _ =>
    if c = 'h' ∨ c = 'H' then (duration * 60).bmod (2 ^ 64)
    else if c = 'd' ∨ c = 'D' then (duration * 1440).bmod (2 ^ 64)
    else if c = 'w' ∨ c = 'W' then (duration * 10080).bmod (2 ^ 64)
    else 0

/-- The end of `trace_akill_prepare`. -/
def akillReason (duration : ℤ) (args : CStr) (saved : CStr) : Prepared Action :=
  match reasonExtract args with
  | (none, _) => .null
  | (some reason, args) => .made (.akill duration reason) args saved

/-- `trace_akill_prepare` after the token `!T`. -/
def akillTimed (args : CStr) (saved : CStr) : Prepared Action :=
  let (s, saved) := strtok (some args) [' '] saved
  match strtok none [] saved with
  | (none, _) => .null
  | (some args, saved) =>
    match s with
    | none => .crash
    | some s => if akillDuration s = 0 then .null else akillReason (akillDuration s) args saved

/-- `trace_akill_prepare` -/
def traceAkillPrepare (sv : Services) (args : Option CStr) (saved : CStr) : Prepared Action :=
  match args with
  | none => .null
  | some args =>
    match akillToken (args.dropWhile (· = ' ')) with
    | (some 't', args) => akillTimed args saved
    | (some 'p', args) => akillReason 0 args saved
    | (_, args) => akillReason sv.klineTime args saved

/-- `actcons->prepare` -/
def ActionConstructor.prepare (sv : Services) (args : Option CStr) (saved : CStr) :
    ActionConstructor → Prepared Action
  | .print => .made .print args saved
  | .kill => traceKillPrepare args saved
  | .akill => traceAkillPrepare sv args saved
  | .count => .made .count args saved

def matchText (sv : Services) (u : User) : String :=
  s!"\x02Match:\x02  {String.ofList u.nick}!{String.ofList u.user}@{String.ofList u.host} " ++
    s!"{String.ofList u.gecos} \x7b{String.ofList (sv.serverName u.server)}\x7d"

def killedText (u : User) : String := s!"\x02{String.ofList u.nick}\x02 has been killed."

def akilledText (u : User) : String := s!"\x02{String.ofList u.nick}\x02 has been akilled."

/-- `trace_print_exec` -/
def tracePrintExec (sv : Services) (u : User) (s : State) : State :=
  if u.internal then s else ({ s with matched := true } : State).send [.success (matchText sv u)]

/-- `trace_kill_exec`: the last message reads the user after it is gone. -/
def traceKillExec (sv : Services) (reason : CStr) (u : User) (s : State) : State :=
  if u.internal then s
  else if u.ircop then s
  else if u.identified && u.soper then s
  else if !sv.operserv then s
  else
    let s := ({ s with matched := true } : State).killUser u.id reason
    match s.user? u.id with
    | none => s.crash
    | some u => s.send [.success (killedText u)]

/-- `trace_akill_exec` -/
def traceAkillExec (sv : Services) (duration : ℤ) (reason : CStr) (u : User) (s : State) : State :=
  let same (name : CStr) : Bool := sv.matchMask u.host name || sv.matchIps u.host name
  if u.internal then s
  else if u.ircop then s
  else if u.identified && u.soper then s
  else if same "127.0.0.1".toList then s
  else if sv.vhost.any same then s
  else if sv.klineFind s.klines ['*'] u.host then s
  else
    ({ s with matched := true
              klines := s.klines ++ [⟨['*'], u.host, reason, duration, sv.storageOperName⟩] } : State).send
      [.success (akilledText u)]

/-- `trace_count_exec` -/
def traceCountExec (u : User) (s : State) : State :=
  if u.internal then s else { s with matched := true, found := (s.found + 1) % 2 ^ 32 }

/-- `actcons->exec(u, act)` -/
def Action.exec (sv : Services) (u : User) (s : State) : Action → State
  | .print => tracePrintExec sv u s
  | .kill reason => traceKillExec sv reason u s
  | .akill duration reason => traceAkillExec sv duration reason u s
  | .count => traceCountExec u s

/-- `q->cons->cleanup(q)` -/
def Query.cleanup (q : Query) (s : State) : State := { s with cleaned := s.cleaned ++ [q] }

/-- The `cleanup` of `PRINT`, `KILL` and `AKILL`. -/
def noMatches (succeeded : Bool) (s : State) : State :=
  if !s.matched && succeeded then s.send [.success "No matches."] else s

/-- `actcons->cleanup(act, succeeded)` -/
def Action.cleanup (succeeded : Bool) (s : State) : Action → State
  | .print => noMatches succeeded s
  | .kill _ => noMatches succeeded s
  | .akill _ _ => noMatches succeeded s
  | .count => if succeeded then s.send [.success s!"\x02{s.found}\x02 matches"] else s

/-! ### TRACE -/

/-- How the loop over the criteria ends, with the criteria it has added:
at the end of the string, at something that is no criterion, at a null token,
or not within the passes it is given. -/
inductive Compiled
  | all (crit : List Query)
  | invalid (crit : List Query)
  | crash (crit : List Query)
  | endless (crit : List Query)
deriving DecidableEq, Repr

/-- The loop of `os_cmd_trace_run` over the criteria. -/
def compile (sv : Services) (s : State) : ℕ → Option CStr → CStr → List Query → Compiled
  | 0, _, _, crit => .endless crit
  | n + 1, args, saved, crit =>
    match strtok args [' '] saved with
    | (none, _) => .all crit
    | (some cmd, saved) =>
      match retrieve traceCmdtree cmd with
      | none => .invalid crit
      | some cons =>
        match strtok none [] saved with
        | (none, _) => .invalid crit
        | (some args, saved) =>
          match cons.prepare sv s args saved with
          | .crash => .crash crit
          | .null => .invalid crit
          | .made q args saved => compile sv s n args saved (crit ++ [q])

/-- Does the user satisfy all the criteria? -/
def satisfies (sv : Services) (s : State) (u : User) : List Query → Option Bool
  | [] => some true
  | q :: crit => (q.exec sv s u).bind fun b => if b then satisfies sv s u crit else some false

/-- The loop of `os_cmd_trace_run` over the users. -/
def runUsers (sv : Services) (act : Action) : List User → State → State
  | [], s => s
  | u :: us, s =>
    if s.crashed then s
    else
      match satisfies sv s u s.crit with
      | none => s.crash
      | some false => runUsers sv act us s
      | some true => runUsers sv act us (act.exec sv u { s with touched := s.touched ++ [u.id] })

/-- The end of `os_cmd_trace_run`. -/
def runCompiled (sv : Services) (act : Action) (s : State) : Compiled → State × Bool
  | .all crit => (runUsers sv act s.users { s with crit := crit }, true)
  | .invalid crit =>
    (({ s with crit := crit } : State).send [.fail .nosuch_target "Invalid criteria specified."], false)
  | .crash crit => (({ s with crit := crit } : State).crash, false)
  | .endless crit => (({ s with crit := crit } : State).crash, false)

/-- `os_cmd_trace_run`; a criterion takes at least one character, so the loop
ends within as many passes as there are characters, and one. -/
def osCmdTraceRun (sv : Services) (act : Action) (args : Option CStr) (saved : CStr) (s : State) :
    State × Bool :=
  match args with
  | none =>
    (s.send [.fail .needmoreparams (STR_INSUFFICIENT_PARAMS "TRACE"),
      .fail .needmoreparams "Syntax: TRACE <action> <params>"], false)
  | some string => runCompiled sv act s (compile sv s (string.length + 1) args saved [])

/-- The end of `os_cmd_trace`: the criteria are cleaned up one after another, and then
the action. -/
def finish (act : Action) (run : State × Bool) : State :=
  if run.1.crashed then run.1 else act.cleanup run.2 (run.1.crit.foldl (fun s q => q.cleanup s) run.1)

def badAction : List Output :=
  [.fail .badparams (STR_INVALID_PARAMS "TRACE"), .fail .badparams "Syntax: TRACE <action> <params>"]

/-- `TRACE action args`; `saved` is what `strtok` has saved before. -/
def osCmdTrace (sv : Services) (action args : Option CStr) (saved : CStr) (s : State) : State :=
  match action.bind (retrieve traceActtree) with
  | none => s.send badAction
  | some actcons =>
    match actcons.prepare sv args saved with
    | .crash => s.crash
    | .null => s.send [.fail .nosuch_target "Action compilation failed."]
    | .made act args saved => finish act (osCmdTraceRun sv act args saved s)

end Trace
end AthemeContrib
