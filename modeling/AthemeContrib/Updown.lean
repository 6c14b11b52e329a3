/-
# cs_updown and cs_fregister: who has which status

Services keep the statuses of a user on a channel as bits of a word, and the server as
a set of modes; `UP`, `DOWN` and the end of `FREGISTER` change the word and stack the
mode for the server, each only where the word says that it is needed. In every run the
server has what the word says, no mode is sent in vain, and a command changes nobody
but the one who gives it: `UP` to what the flags give on top of what there was, `DOWN`
to nothing (`views_agree`).

`UP` gives no protection to an owner; `FREGISTER` does, if it finds them owner already,
since its `else` then looks at the next mode.

Key definitions: `Ircd`, `Protocol`, `give`, `take`, `csCmdUp`, `csCmdDown`, `fregisterEnd`,
`receive`, `step`, `Agree`, `upped`, `fregistered`, `Effect`.
Key theorems: `give_drafted`, `up_drafted`, `down_drafted`, `fregister_drafted`, `views_agree`.
-/
import AthemeContrib.Command
import AthemeContrib.Lib.Mirror
import AthemeContrib.Lib.Run
import Mathlib.Data.List.Nodup

namespace AthemeContrib
namespace Updown

open CStr

/-- The statuses of a user on a channel. -/
inductive Status
  | owner
  | protect
  | op
  | halfop
  | voice
deriving DecidableEq, Repr

/-- `ircd_t`: the statuses that the IRC daemon has, and for each its bit and its mode;
and the core's constants `CSTATUS_*`. -/
structure Ircd where
  usesOwner : Bool
  usesProtect : Bool
  usesHalfops : Bool
  ownerMode : BitVec 32
  protectMode : BitVec 32
  halfopsMode : BitVec 32
  ownerMchar : Char
  protectMchar : Char
  halfopsMchar : Char
  cstatusOwner : BitVec 32
  cstatusProtect : BitVec 32
  cstatusOp : BitVec 32
  cstatusVoice : BitVec 32
deriving DecidableEq, Repr

def Ircd.used (ircd : Ircd) : Status → Bool
  | .owner => ircd.usesOwner
  | .protect => ircd.usesProtect
  | .halfop => ircd.usesHalfops
  | .op | .voice => true

def Ircd.mode (ircd : Ircd) : Status → BitVec 32
  | .owner => ircd.ownerMode
  | .protect => ircd.protectMode
  | .op => ircd.cstatusOp
  | .halfop => ircd.halfopsMode
  | .voice => ircd.cstatusVoice

def Ircd.mchar (ircd : Ircd) : Status → Char
  | .owner => ircd.ownerMchar
  | .protect => ircd.protectMchar
  | .op => 'o'
  | .halfop => ircd.halfopsMchar
  | .voice => 'v'

/-- What the module for an IRC daemon's protocol declares: the statuses have bits and
modes of their own, and those of owners and protected users are the core's. -/
structure Protocol extends Ircd where
  mode_ne_zero : ∀ st, toIrcd.used st = true → toIrcd.mode st ≠ 0#32
  mode_disjoint : ∀ st st', toIrcd.used st = true → toIrcd.used st' = true → st ≠ st' →
    toIrcd.mode st &&& toIrcd.mode st' = 0#32
  mchar_inj : ∀ st st', toIrcd.used st = true → toIrcd.used st' = true →
    toIrcd.mchar st = toIrcd.mchar st' → st = st'
  owner_eq : usesOwner = true → ownerMode = cstatusOwner
  protect_eq : usesProtect = true → protectMode = cstatusProtect

def Protocol.masks (p : Protocol) : Mirror.Masks Status 32 where
  used := p.used
  mask := p.mode
  ne_zero := p.mode_ne_zero
  disjoint := p.mode_disjoint

/-- `chanuser_t`; the user is `CLIENT_NAME(cu->user)`. -/
structure Chanuser where
  user : CStr
  modes : BitVec 32
deriving DecidableEq, Repr

structure Channel where
  name : CStr
  members : List Chanuser
deriving DecidableEq, Repr

/-- A registered channel; `closed` is whether it has the metadata
`private:close:closer`. -/
structure Mychan where
  name : CStr
  closed : Bool
deriving DecidableEq, Repr

/-- The access flags that the commands look at. -/
structure Flags where
  useowner : Bool
  useprotect : Bool
  autoop : Bool
  op : Bool
  autohalfop : Bool
  halfop : Bool
  autovoice : Bool
  voice : Bool
deriving DecidableEq, Repr

/-- A mode that is stacked: who sends it, and what the server is told. -/
structure ModeMsg where
  source : CStr
  chan : CStr
  add : Bool
  mchar : Char
  user : CStr
deriving DecidableEq, Repr

/-- `mychan_find(name)` -/
def mychanFind (core : Core) (mclist : List Mychan) (name : CStr) : Option Mychan :=
  mclist.find? fun mc => core.irccasecmp mc.name name

/-- `channel_find(name)`, which is `mc->chan` of the registered channel `name`. -/
def channelFind (core : Core) (chanlist : List Channel) (name : CStr) : Option Channel :=
  chanlist.find? fun c => core.irccasecmp c.name name

/-- `chanuser_find(c, u)` -/
def chanuserFind (c : Channel) (u : CStr) : Option Chanuser := c.members.find? fun cu => cu.user = u

/-- The checks of `UP` and `DOWN`: the channel and its user, or the replies. -/
def target (core : Core) (mclist : List Mychan) (chanlist : List Channel) (cmd : String)
    (su name : Option CStr) : Except (List Output) (Mychan × Channel × Chanuser) :=
  match name with
  | none => .error [.fail .needmoreparams (STR_INSUFFICIENT_PARAMS cmd),
      .fail .needmoreparams s!"Syntax: {cmd} <#channel>"]
  | some name =>
    match mychanFind core mclist name with
    | none => .error [.fail .nosuch_target (STR_IS_NOT_REGISTERED name)]
    | some mc =>
      if mc.closed then .error [.fail .noprivs s!"\x02{String.ofList name}\x02 is closed."]
      else
        match channelFind core chanlist mc.name with
        | none => .error [.fail .nosuch_target s!"The channel \x02{String.ofList name}\x02 does not exist."]
        | some c =>
          match su with
          | none => .error []
          | some su =>
            match chanuserFind c su with
            | none =>
              .error [.fail .nosuch_target s!"You are not in the channel \x02{String.ofList mc.name}\x02."]
            | some cu => .ok (mc, c, cu)

section Modes

-- who sends the modes, on which channel and about whom
variable (ircd : Ircd) (source chan user : CStr)

/-- `modestack_mode_param(source, chan, MTYPE_ADD or MTYPE_DEL, mchar, user)` -/
def modestack (st : Status) (add : Bool) : ModeMsg := ⟨source, chan, add, ircd.mchar st, user⟩

/-- A status is given, if there is reason to and `modes` lacks it. -/
def give (st : Status) (cond : Bool) (r : BitVec 32 × List ModeMsg) : BitVec 32 × List ModeMsg :=
  if cond && decide (ircd.mode st &&& r.1 = 0#32) then
    (r.1 ||| ircd.mode st, r.2 ++ [modestack ircd source chan user st true])
  else r

/-- A status is taken away, if `modes` has it. -/
def take (st : Status) (r : BitVec 32 × List ModeMsg) : BitVec 32 × List ModeMsg :=
  if ircd.mode st &&& r.1 ≠ 0#32 then
    (r.1 &&& ~~~ircd.mode st, r.2 ++ [modestack ircd source chan user st false])
  else r

/-- What `cs_cmd_up` makes of `cu->modes`, for a user with the flags `fl`. -/
def upModes (fl : Flags) (modes : BitVec 32) : BitVec 32 × List ModeMsg :=
  let give := give ircd source chan user
  let r := (modes, [])
  let r := if ircd.usesOwner then (if fl.useowner then give .owner fl.autoop r else r) else r
  let r :=
    if ircd.usesProtect then
      (if fl.useprotect then
        give .protect (fl.autoop && !(ircd.usesOwner && decide (r.1 &&& ircd.ownerMode ≠ 0#32))) r
      else r)
    else r
  let r := if fl.autoop || fl.op then give .op fl.autoop r else r
  let r :=
    if ircd.usesHalfops then (if fl.autohalfop || fl.halfop then give .halfop fl.autohalfop r else r) else r
  if fl.autovoice || fl.voice then give .voice fl.autovoice r else r

/-- What `cs_cmd_down` makes of `cu->modes`. -/
def downModes (modes : BitVec 32) : BitVec 32 × List ModeMsg :=
  let take := take ircd source chan user
  let r := (modes, [])
  let r := if ircd.usesOwner then take .owner r else r
  let r := if ircd.usesProtect then take .protect r else r
  let r := take .op r
  let r := if ircd.usesHalfops then take .halfop r else r
  take .voice r

/-- What the end of `cs_cmd_fregister` makes of `cu->modes`. -/
def fregisterModes (fl : Flags) (modes : BitVec 32) : BitVec 32 × List ModeMsg :=
  if ircd.usesOwner && fl.useowner && fl.autoop && decide (modes &&& ircd.cstatusOwner = 0#32) then
    (modes ||| ircd.cstatusOwner, [modestack ircd source chan user .owner true])
  else if ircd.usesProtect && fl.useprotect && fl.autoop && decide (modes &&& ircd.cstatusProtect = 0#32) then
    (modes ||| ircd.cstatusProtect, [modestack ircd source chan user .protect true])
  else (modes, [])

end Modes

/-- `cu->modes` is assigned to. -/
def setModes (chan user : CStr) (modes : BitVec 32) (chanlist : List Channel) : List Channel :=
  chanlist.map fun c =>
    if c.name = chan then
      { c with members := c.members.map fun cu => if cu.user = user then { cu with modes } else cu }
    else c

/-- Who gives a command: the user, if it is given over IRC, and the service it is
given to. -/
structure Requester where
  su : Option CStr
  service : CStr
deriving DecidableEq, Repr

section Commands

-- `chansvs.nick` is the nick of ChanServ
variable (ircd : Ircd) (core : Core) (chansvsNick : CStr)

/-- `UP name`, of a user with the flags `fl` on the channel. -/
def csCmdUp (si : Requester) (name : Option CStr) (fl : Flags) (mclist : List Mychan)
    (chanlist : List Channel) : List Channel × List ModeMsg × List Output :=
  match target core mclist chanlist "UP" si.su name with
  | .error replies => (chanlist, [], replies)
  | .ok (mc, c, cu) =>
    let r := upModes ircd chansvsNick c.name cu.user fl cu.modes
    (setModes c.name cu.user r.1 chanlist, r.2,
      [.success s!"Upped successfully on \x02{String.ofList mc.name}\x02."])

/-- `DOWN name` -/
def csCmdDown (si : Requester) (name : Option CStr) (mclist : List Mychan) (chanlist : List Channel) :
    List Channel × List ModeMsg × List Output :=
  match target core mclist chanlist "DOWN" si.su name with
  | .error replies => (chanlist, [], replies)
  | .ok (mc, c, cu) =>
    let r := downModes ircd chansvsNick c.name cu.user cu.modes
    (setModes c.name cu.user r.1 chanlist, r.2,
      [.success s!"Downed successfully on \x02{String.ofList mc.name}\x02."])

/-- The end of `cs_cmd_fregister`, when the channel `name` is registered; the source
has the flags `fl` on it. -/
def fregisterEnd (si : Requester) (name : CStr) (fl : Flags) (chanlist : List Channel) :
    List Channel × List ModeMsg :=
  match channelFind core chanlist name with
  | none => (chanlist, [])
  | some c =>
    match si.su.bind (chanuserFind c) with
    | none => (chanlist, [])
    | some cu =>
      let r := fregisterModes ircd si.service c.name cu.user fl cu.modes
      (setModes c.name cu.user r.1 chanlist, r.2)

end Commands

/-! ### The network -/

/-- `server chan user` are the statuses the server has; `sent` are all modes that were
stacked. -/
structure Network where
  mclist : List Mychan
  chanlist : List Channel
  server : CStr → CStr → Status → Bool
  sent : List ModeMsg

/-- At first there are no channels. -/
def start : Network := ⟨[], [], fun _ _ _ => false, []⟩

/-- `approved` is whether the source may register channels: they are logged in and
verified, it is no fantasy command, and no hook objects. -/
inductive Event
  | up (si : Requester) (name : Option CStr) (fl : Flags)
  | down (si : Requester) (name : Option CStr)
  | fregister (si : Requester) (name : CStr) (fl : Flags) (approved : Bool)
  | join (chan user : CStr)
  | part (chan user : CStr)
  | destroy (chan : CStr)
  | mode (chan user : CStr) (c : Mirror.Change Status)
  | chanserv (mclist : List Mychan)

/-- The status with the mode `mchar`. -/
def Ircd.status? (ircd : Ircd) (mchar : Char) : Option Status :=
  [.owner, .protect, .op, .halfop, .voice].find? fun st => ircd.used st && decide (ircd.mchar st = mchar)

/-- `server` with the statuses of one user on one channel changed. -/
def assign (server : CStr → CStr → Status → Bool) (chan user : CStr) (v : Status → Bool) :
    CStr → CStr → Status → Bool :=
  fun chan' user' => if chan' = chan ∧ user' = user then v else server chan' user'

/-- The server is told a mode. -/
def receive (ircd : Ircd) (server : CStr → CStr → Status → Bool) (m : ModeMsg) :
    CStr → CStr → Status → Bool :=
  match ircd.status? m.mchar with
  | none => server
  | some st => assign server m.chan m.user (Mirror.Change.apply (server m.chan m.user) ⟨m.add, st⟩)

/-- The statuses of a user are changed, and the server is told. -/
def Network.changed (ircd : Ircd) (s : Network) (chanlist : List Channel) (msgs : List ModeMsg) : Network :=
  { s with chanlist := chanlist, server := msgs.foldl (receive ircd) s.server, sent := s.sent ++ msgs }

/-- The channel can be registered. -/
def registrable (core : Core) (s : Network) (name : CStr) : Bool :=
  decide (name.head? = some '#') && (mychanFind core s.mclist name).isNone &&
    (channelFind core s.chanlist name).isSome

/-- What the event does; a channel is there with its first user, and may be gone with
its last, and a mode that others set is told to both sides. -/
def step (ircd : Ircd) (core : Core) (chansvsNick : CStr) (s : Network) : Event → Option Network
  | .up si name fl =>
    let r := csCmdUp ircd core chansvsNick si name fl s.mclist s.chanlist
    some (s.changed ircd r.1 r.2.1)
  | .down si name =>
    let r := csCmdDown ircd core chansvsNick si name s.mclist s.chanlist
    some (s.changed ircd r.1 r.2.1)
  | .fregister si name fl approved =>
    if approved && registrable core s name then
      let r := fregisterEnd ircd core si name fl s.chanlist
      some { s.changed ircd r.1 r.2 with mclist := s.mclist ++ [⟨name, false⟩] }
    else some s
  | .join chan user =>
    match channelFind core s.chanlist chan with
    | none =>
      some { s with
        chanlist := s.chanlist ++ [⟨chan, [⟨user, 0#32⟩]⟩]
        server := assign s.server chan user fun _ => false }
    | some c =>
      if (chanuserFind c user).isSome then none
      else
        some { s with
          chanlist := s.chanlist.map fun c' =>
            if c'.name = c.name then { c' with members := c'.members ++ [⟨user, 0#32⟩] } else c'
          server := assign s.server c.name user fun _ => false }
  | .part chan user =>
    some { s with chanlist := s.chanlist.map fun c =>
      if core.irccasecmp c.name chan then { c with members := c.members.filter fun cu => cu.user ≠ user }
      else c }
  | .destroy chan =>
    some { s with chanlist := s.chanlist.filter fun c => !(core.irccasecmp c.name chan && c.members.isEmpty) }
  | .mode chan user c =>
    match channelFind core s.chanlist chan with
    | none => none
    | some ch =>
      match chanuserFind ch user with
      | none => none
      | some cu =>
        if ircd.used c.mark then
          let modes := if c.add then cu.modes ||| ircd.mode c.mark else cu.modes &&& ~~~ircd.mode c.mark
          some { s with
            chanlist := setModes ch.name cu.user modes s.chanlist
            server := assign s.server ch.name cu.user (c.apply (s.server ch.name cu.user)) }
        else none
  | .chanserv mclist => some { s with mclist := mclist }

/-- The server has the statuses that the words say. -/
def Agree (p : Protocol) (s : Network) : Prop :=
  ∀ c ∈ s.chanlist, ∀ cu ∈ c.members, s.server c.name cu.user = p.masks.marks cu.modes

/-- The statuses after `UP`. -/
def upped (ircd : Ircd) (fl : Flags) (v : Status → Bool) : Status → Bool
  | .owner => v .owner || (ircd.usesOwner && fl.useowner && fl.autoop)
  | .protect => v .protect || (ircd.usesProtect && fl.useprotect && fl.autoop &&
      !(v .owner || (ircd.usesOwner && fl.useowner && fl.autoop)))
  | .op => v .op || fl.autoop
  | .halfop => v .halfop || (ircd.usesHalfops && fl.autohalfop)
  | .voice => v .voice || fl.autovoice

/-- The statuses after `FREGISTER`. -/
def fregistered (ircd : Ircd) (fl : Flags) (v : Status → Bool) : Status → Bool
  | .owner => v .owner || (ircd.usesOwner && fl.useowner && fl.autoop)
  | .protect => v .protect || (ircd.usesProtect && fl.useprotect && fl.autoop &&
      (v .owner || !(ircd.usesOwner && fl.useowner && fl.autoop)))
  | st => v st

/-- A command turns the statuses of the one it finds by `f`, sending no mode in vain,
and leaves all others alone. -/
structure Effect (ircd : Ircd) (s s' : Network) (source : CStr) (found : Option (CStr × CStr))
    (f : (Status → Bool) → Status → Bool) : Prop where
  server : ∀ chan user, s'.server chan user =
    if found = some (chan, user) then f (s.server chan user) else s.server chan user
  quiet : found = none → s'.sent = s.sent
  sent : ∀ chan user, found = some (chan, user) → ∃ changes, Mirror.Needed (s.server chan user) changes ∧
    s'.sent = s.sent ++ changes.map fun c => modestack ircd source chan user c.mark c.add

/-- The one a command of the service finds. -/
def found (core : Core) (s : Network) (cmd : String) (su name : Option CStr) : Option (CStr × CStr) :=
  (target core s.mclist s.chanlist cmd su name).toOption.map fun t => (t.2.1.name, t.2.2.user)

/-- The one who registers the channel, if that is not refused. -/
def registering (core : Core) (s : Network) (si : Requester) (name : CStr) (approved : Bool) :
    Option (CStr × CStr) :=
  if approved && registrable core s name then
    (channelFind core s.chanlist name).bind fun c =>
      (si.su.bind (chanuserFind c)).map fun cu => (c.name, cu.user)
  else none

/-- What a step does to the server. -/
def Does (ircd : Ircd) (core : Core) (chansvsNick : CStr) (s : Network) (e : Event) (s' : Network) : Prop :=
  match e with
  | .up si name fl => Effect ircd s s' chansvsNick (found core s "UP" si.su name) (upped ircd fl)
  | .down si name => Effect ircd s s' chansvsNick (found core s "DOWN" si.su name) fun _ _ => false
  | .fregister si name fl approved =>
    Effect ircd s s' si.service (registering core s si name approved) (fregistered ircd fl)
  | _ => s'.sent = s.sent

/-! ### One user's statuses -/

variable {p : Protocol} {source chan user : CStr} {st : Status} {v : Status → Bool}
  {r : BitVec 32 × List ModeMsg} {d : Mirror.Draft v}

/-- The word and the modes are what the draft says, and it is about statuses that are
used. -/
structure Drafted (p : Protocol) (source chan user : CStr) (r : BitVec 32 × List ModeMsg)
    (d : Mirror.Draft v) : Prop where
  marks : p.masks.marks r.1 = d.view
  msgs : r.2 = d.changes.map fun c => modestack p.toIrcd source chan user c.mark c.add
  used : ∀ c ∈ d.changes, p.used c.mark = true

theorem used_changes_set {b : Bool} (hu : p.used st = true) (h : ∀ c ∈ d.changes, p.used c.mark = true) :
    ∀ c ∈ (d.set st b).changes, p.used c.mark = true := by
  by_cases hb : d.view st = b
  · rw [d.set_of_eq hb]
    exact h
  · rw [d.changes_set hb]
    intro c hc
    rcases List.mem_append.mp hc with hc | hc
    · exact h c hc
    · rw [List.mem_singleton.mp hc]
      exact hu

theorem start_drafted (p : Protocol) (source chan user : CStr) (modes : BitVec 32) :
    Drafted p source chan user (modes, []) (Mirror.Draft.start (p.masks.marks modes)) :=
  ⟨rfl, rfl, fun _ h => by cases h⟩

theorem view_eq (h : Drafted p source chan user r d) (st : Status) :
    d.view st = (p.used st && decide (p.mode st &&& r.1 ≠ 0#32)) := by
  rw [← h.marks]
  rfl

theorem view_of_used (h : Drafted p source chan user r d) (hu : p.used st = true) :
    d.view st = decide (p.mode st &&& r.1 ≠ 0#32) := by
  rw [view_eq h, hu, Bool.true_and]

/-- A status is given only if it is used, and is one more change if it was not there. -/
theorem give_drafted (cond : Bool) (hu : cond = true → p.used st = true)
    (h : Drafted p source chan user r d) :
    ∃ d' : Mirror.Draft v, Drafted p source chan user (give p.toIrcd source chan user st cond r) d' ∧
      d'.view = Function.update d.view st (d.view st || cond) := by
  cases hc : cond with
  | false =>
    refine ⟨d, ?_, ?_⟩
    · rw [give, Bool.false_and]
      exact h
    · rw [Bool.or_false, Function.update_eq_self]
  | true =>
    have hview := view_of_used h (hu hc)
    rw [Bool.or_true]
    refine ⟨d.set st true, ?_, d.view_set st true⟩
    by_cases hbit : p.mode st &&& r.1 = 0#32
    · have hne : d.view st ≠ true := by
        rw [hview, hbit]
        simp
      rw [give, Bool.true_and, if_pos (decide_eq_true hbit)]
      refine ⟨?_, ?_, used_changes_set (hu hc) h.used⟩
      · rw [d.view_set, ← h.marks]
        exact p.masks.marks_or (hu hc)
      · rw [d.changes_set hne, List.map_append, ← h.msgs]
        rfl
    · have heq : d.view st = true := by
        rw [hview]
        exact decide_eq_true hbit
      rw [give, Bool.true_and, if_neg (by simpa using hbit), d.set_of_eq heq]
      exact h

/-- A status that is used is taken away. -/
theorem take_drafted (hu : p.used st = true) (h : Drafted p source chan user r d) :
    ∃ d' : Mirror.Draft v, Drafted p source chan user (take p.toIrcd source chan user st r) d' ∧
      d'.view = Function.update d.view st false := by
  have hview := view_of_used h hu
  refine ⟨d.set st false, ?_, d.view_set st false⟩
  by_cases hbit : p.mode st &&& r.1 = 0#32
  · have heq : d.view st = false := by
      rw [hview, hbit]
      simp
    rw [take, if_neg (not_not_intro hbit), d.set_of_eq heq]
    exact h
  · have hne : d.view st ≠ false := by
      rw [hview]
      simpa using hbit
    rw [take, if_pos hbit]
    refine ⟨?_, ?_, used_changes_set hu h.used⟩
    · rw [d.view_set, ← h.marks]
      exact p.masks.marks_and_not hu
    · rw [d.changes_set hne, List.map_append, ← h.msgs]
      rfl

theorem give_if (ircd : Ircd) (source chan user : CStr) (st : Status) (b cond : Bool)
    (r : BitVec 32 × List ModeMsg) :
    (if b = true then give ircd source chan user st cond r else r) =
      give ircd source chan user st (b && cond) r := by
  cases b with
  | false => rw [if_neg Bool.false_ne_true, give, Bool.false_and, Bool.false_and, if_neg Bool.false_ne_true]
  | true => rw [if_pos rfl, Bool.true_and]

/-- **`UP`**: what it makes of the word, and what it sends. -/
theorem up_drafted (p : Protocol) (source chan user : CStr) (fl : Flags) (modes : BitVec 32) :
    ∃ d : Mirror.Draft (p.masks.marks modes),
      Drafted p source chan user (upModes p.toIrcd source chan user fl modes) d ∧
        d.view = upped p.toIrcd fl (p.masks.marks modes) := by
  have huOwner : (p.usesOwner && (fl.useowner && fl.autoop)) = true → p.used .owner = true :=
    fun h => (Bool.and_eq_true_iff.mp h).1
  have huOp : ∀ b : Bool, b = true → p.used .op = true := fun _ _ => rfl
  have huVoice : ∀ b : Bool, b = true → p.used .voice = true := fun _ _ => rfl
  have huProtect : ∀ b, (p.usesProtect && b) = true → p.used .protect = true :=
    fun b h => (Bool.and_eq_true_iff.mp h).1
  have huHalfop : (p.usesHalfops && ((fl.autohalfop || fl.halfop) && fl.autohalfop)) = true →
      p.used .halfop = true := fun h => (Bool.and_eq_true_iff.mp h).1
  obtain ⟨d1, h1, hv1⟩ := give_drafted _ huOwner (start_drafted p source chan user modes)
  unfold upModes
  simp only [give_if]
  generalize give p.toIrcd source chan user .owner (p.usesOwner && (fl.useowner && fl.autoop)) (modes, []) =
    r at h1 ⊢
  have howner : (p.usesOwner && decide (r.1 &&& p.ownerMode ≠ 0#32)) = d1.view .owner := by
    rw [view_eq h1, BitVec.and_comm]
    rfl
  rw [howner]
  obtain ⟨d2, h2, hv2⟩ := give_drafted _ (huProtect _) h1
  obtain ⟨d3, h3, hv3⟩ := give_drafted _ (huOp _) h2
  obtain ⟨d4, h4, hv4⟩ := give_drafted _ huHalfop h3
  obtain ⟨d5, h5, hv5⟩ := give_drafted _ (huVoice _) h4
  refine ⟨d5, h5, ?_⟩
  rw [hv5, hv4, hv3, hv2, hv1]
  have habs : ∀ a b : Bool, ((a || b) && a) = a := by decide
  funext st
  cases st with
  | owner | protect => simp [upped, Mirror.Draft.start, Bool.and_assoc]
  | op | halfop | voice => simp [upped, Mirror.Draft.start, habs]

/-- A status is taken away if the daemon has it. -/
theorem take_used_drafted (st : Status) (h : Drafted p source chan user r d) :
    ∃ d' : Mirror.Draft v,
      Drafted p source chan user (if p.used st = true then take p.toIrcd source chan user st r else r) d' ∧
        d'.view = Function.update d.view st false := by
  by_cases hu : p.used st = true
  · rw [if_pos hu]
    exact take_drafted hu h
  · have hfalse : d.view st = false := by
      rw [view_eq h, eq_false_of_ne_true hu, Bool.false_and]
    rw [if_neg hu]
    refine ⟨d, h, ?_⟩
    rw [← hfalse, Function.update_eq_self]

/-- **`DOWN`** leaves no status. -/
theorem down_drafted (p : Protocol) (source chan user : CStr) (modes : BitVec 32) :
    ∃ d : Mirror.Draft (p.masks.marks modes),
      Drafted p source chan user (downModes p.toIrcd source chan user modes) d ∧ d.view = fun _ => false := by
  obtain ⟨d1, h1, hv1⟩ := take_used_drafted .owner (start_drafted p source chan user modes)
  obtain ⟨d2, h2, hv2⟩ := take_used_drafted .protect h1
  obtain ⟨d3, h3, hv3⟩ := take_used_drafted .op h2
  obtain ⟨d4, h4, hv4⟩ := take_used_drafted .halfop h3
  obtain ⟨d5, h5, hv5⟩ := take_used_drafted .voice h4
  refine ⟨d5, h5, ?_⟩
  rw [hv5, hv4, hv3, hv2, hv1]
  funext st
  cases st <;> simp

/-- The test of `FREGISTER`, with the core's constant for the bit of a status that is used. -/
theorem lacks_eq (p : Protocol) (modes : BitVec 32) (st : Status) {cstatus : BitVec 32}
    (heq : p.used st = true → p.mode st = cstatus) (a b : Bool) :
    (p.used st && a && b && decide (modes &&& cstatus = 0#32)) =
      (p.used st && a && b && !p.masks.marks modes st) := by
  cases hu : p.used st with
  | false => simp
  | true =>
    have hview := view_of_used (start_drafted p [] [] [] modes) hu
    rw [← heq hu, BitVec.and_comm]
    show _ = (true && a && b && !(Mirror.Draft.start (p.masks.marks modes)).view st)
    rw [hview]
    simp

/-- A status that is not there is given. -/
theorem lacking_drafted (p : Protocol) (source chan user : CStr) (modes : BitVec 32) (st : Status)
    {cstatus : BitVec 32} (heq : p.mode st = cstatus) (hu : p.used st = true)
    (hlacks : p.masks.marks modes st = false) :
    ∃ d : Mirror.Draft (p.masks.marks modes),
      Drafted p source chan user (modes ||| cstatus, [modestack p.toIrcd source chan user st true]) d ∧
        d.view = Function.update (p.masks.marks modes) st true := by
  have hstart := start_drafted p source chan user modes
  have hbit : p.mode st &&& modes = 0#32 := by
    have hview := view_of_used hstart hu
    rw [show (Mirror.Draft.start (p.masks.marks modes)).view st = false from hlacks] at hview
    simpa using hview.symm
  obtain ⟨d, hd, hv⟩ := give_drafted true (fun _ => hu) hstart
  rw [give, Bool.true_and, if_pos (decide_eq_true hbit), heq] at hd
  refine ⟨d, hd, ?_⟩
  rw [hv, Bool.or_true]
  rfl

/-- **`FREGISTER`** gives one status at most. -/
theorem fregister_drafted (p : Protocol) (source chan user : CStr) (fl : Flags) (modes : BitVec 32) :
    ∃ d : Mirror.Draft (p.masks.marks modes),
      Drafted p source chan user (fregisterModes p.toIrcd source chan user fl modes) d ∧
        d.view = fregistered p.toIrcd fl (p.masks.marks modes) := by
  have howner := lacks_eq p modes .owner p.owner_eq fl.useowner fl.autoop
  have hprotect := lacks_eq p modes .protect p.protect_eq fl.useprotect fl.autoop
  change (p.usesOwner && _ && _ && _) = (p.usesOwner && _ && _ && _) at howner
  change (p.usesProtect && _ && _ && _) = (p.usesProtect && _ && _ && _) at hprotect
  unfold fregisterModes
  rw [howner, hprotect]
  by_cases ho : (p.usesOwner && fl.useowner && fl.autoop && !p.masks.marks modes .owner) = true
  · rw [if_pos ho]
    simp only [Bool.and_eq_true, Bool.not_eq_true'] at ho
    obtain ⟨⟨⟨huses, hfl⟩, hauto⟩, hlacks⟩ := ho
    have hu : p.used .owner = true := huses
    obtain ⟨d, hd, hv⟩ := lacking_drafted p source chan user modes .owner (p.owner_eq huses) hu hlacks
    refine ⟨d, hd, ?_⟩
    rw [hv]
    funext st
    cases st <;> simp [fregistered, huses, hfl, hauto, hlacks]
  · -- the owner is one already, or is not to be
    have hkeep : ∀ a b : Bool, ¬(a && !b) = true → b = (b || a) ∧ (b || !a) = true := by decide
    obtain ⟨howner, hnext⟩ := hkeep _ _ ho
    rw [if_neg ho]
    by_cases hp : (p.usesProtect && fl.useprotect && fl.autoop && !p.masks.marks modes .protect) = true
    · rw [if_pos hp]
      simp only [Bool.and_eq_true, Bool.not_eq_true'] at hp
      obtain ⟨⟨⟨huses, hfl⟩, hauto⟩, hlacks⟩ := hp
      have hu : p.used .protect = true := huses
      obtain ⟨d, hd, hv⟩ := lacking_drafted p source chan user modes .protect (p.protect_eq huses) hu hlacks
      refine ⟨d, hd, ?_⟩
      rw [hv]
      funext st
      cases st with
      | owner => exact howner
      | protect =>
        rw [Function.update_self, fregistered, huses, hfl, hauto, Bool.and_true, Bool.and_true, Bool.true_and]
        rw [hauto] at hnext
        rw [hnext, Bool.or_true]
      | op | halfop | voice => rfl
    · rw [if_neg hp]
      have hprot : ∀ a b c : Bool, ¬(a && !b) = true → b = (b || (a && c)) := by decide
      refine ⟨_, start_drafted p source chan user modes, ?_⟩
      funext st
      cases st with
      | owner => exact howner
      | protect => exact hprot _ _ _ hp
      | op | halfop | voice => rfl

/-! ### The server -/

theorem status?_mchar (p : Protocol) (hu : p.used st = true) : p.status? (p.mchar st) = some st := by
  have hall : st ∈ [Status.owner, .protect, .op, .halfop, .voice] := by cases st <;> simp
  cases hfind : p.status? (p.mchar st) with
  | none =>
    have hno := List.find?_eq_none.mp hfind st hall
    simp [hu] at hno
  | some st' =>
    have hst' := List.find?_some hfind
    rw [Bool.and_eq_true, decide_eq_true_eq] at hst'
    rw [p.mchar_inj st' st hst'.1 hu hst'.2]

variable {server : CStr → CStr → Status → Bool}

theorem assign_self (server : CStr → CStr → Status → Bool) (chan user : CStr) (v : Status → Bool) :
    assign server chan user v chan user = v := if_pos ⟨rfl, rfl⟩

theorem assign_of_ne {chan' user' : CStr} (h : ¬(chan' = chan ∧ user' = user)) (v : Status → Bool) :
    assign server chan user v chan' user' = server chan' user' := if_neg h

theorem assign_assign (v v' : Status → Bool) :
    assign (assign server chan user v) chan user v' = assign server chan user v' := by
  funext chan' user'
  unfold assign
  split <;> rfl

theorem assign_eq_self (server : CStr → CStr → Status → Bool) (chan user : CStr) :
    assign server chan user (server chan user) = server := by
  funext chan' user'
  unfold assign
  split
  · rename_i h
    rw [h.1, h.2]
  · rfl

/-- The server makes the changes of a draft. -/
theorem receive_changes (p : Protocol) (source chan user : CStr) : ∀ {changes : List (Mirror.Change Status)}
    {server : CStr → CStr → Status → Bool}, (∀ c ∈ changes, p.used c.mark = true) →
    (changes.map fun c => modestack p.toIrcd source chan user c.mark c.add).foldl (receive p.toIrcd) server =
      assign server chan user (Mirror.replay (server chan user) changes)
  | [], server, _ => (assign_eq_self server chan user).symm
  | c :: changes, server, h => by
    have hstatus : p.status? (p.mchar c.mark) = some c.mark := status?_mchar p (h c List.mem_cons_self)
    have hone : receive p.toIrcd server (modestack p.toIrcd source chan user c.mark c.add) =
        assign server chan user (c.apply (server chan user)) := by
      unfold receive
      rw [show (modestack p.toIrcd source chan user c.mark c.add).mchar = p.mchar c.mark from rfl, hstatus]
      rfl
    rw [List.map_cons, List.foldl_cons, hone, receive_changes p source chan user fun c' hc' =>
      h c' (List.mem_cons_of_mem _ hc'), assign_assign, assign_self]
    rfl

/-! ### Every run -/

/-- No two channels have the same name, and the server has what the words say. -/
structure Inv (p : Protocol) (chanlist : List Channel) (server : CStr → CStr → Status → Bool) : Prop where
  names : (chanlist.map Channel.name).Nodup
  agree : ∀ c ∈ chanlist, ∀ cu ∈ c.members, server c.name cu.user = p.masks.marks cu.modes

variable {core : Core} {chanlist : List Channel}

/-- When members come and go, the channels keep their names. -/
theorem map_members_names (b : Channel → Prop) [DecidablePred b] (f : Channel → List Chanuser)
    (chanlist : List Channel) :
    (chanlist.map fun c => if b c then { c with members := f c } else c).map Channel.name =
      chanlist.map Channel.name := by
  rw [List.map_map]
  refine List.map_congr_left fun c _ => ?_
  show (if b c then _ else c).name = c.name
  split <;> rfl

/-- A word and the server's set are changed alike. -/
theorem setModes_inv (h : Inv p chanlist server) (chan user : CStr) (modes : BitVec 32) :
    Inv p (setModes chan user modes chanlist) (assign server chan user (p.masks.marks modes)) := by
  refine ⟨by rw [setModes, map_members_names]; exact h.names, fun c' hc' cu' hcu' => ?_⟩
  obtain ⟨c, hc, rfl⟩ := List.mem_map.mp hc'
  by_cases hname : c.name = chan
  · rw [if_pos hname] at hcu' ⊢
    obtain ⟨cu, hcu, rfl⟩ := List.mem_map.mp hcu'
    by_cases huser : cu.user = user
    · rw [if_pos huser]
      exact if_pos ⟨hname, huser⟩
    · rw [if_neg huser, assign_of_ne fun hh => huser hh.2]
      exact h.agree c hc cu hcu
  · rw [if_neg hname] at hcu' ⊢
    rw [assign_of_ne fun hh => hname hh.1]
    exact h.agree c hc cu' hcu'

/-- **A command's step**: the word of the one it finds is changed by a draft, and the
server is told. -/
theorem changed_does {s : Network} (h : Inv p s.chanlist s.server) {c : Channel} (hc : c ∈ s.chanlist)
    {cu : Chanuser} (hcu : cu ∈ c.members) {d : Mirror.Draft (p.masks.marks cu.modes)}
    (hd : Drafted p source c.name cu.user r d) {f : (Status → Bool) → Status → Bool}
    (hf : d.view = f (p.masks.marks cu.modes)) {s' : Network} {mclist : List Mychan}
    (hs' : s' = { s.changed p.toIrcd (setModes c.name cu.user r.1 s.chanlist) r.2 with mclist := mclist }) :
    Inv p s'.chanlist s'.server ∧ Effect p.toIrcd s s' source (some (c.name, cu.user)) f := by
  have hbefore := h.agree c hc cu hcu
  have hserver : s'.server = assign s.server c.name cu.user d.view := by
    rw [hs']
    show r.2.foldl (receive p.toIrcd) s.server = _
    rw [hd.msgs, receive_changes p source c.name cu.user hd.used, hbefore, d.replayed]
  have hchanlist : s'.chanlist = setModes c.name cu.user r.1 s.chanlist := by rw [hs']; rfl
  have hsent : s'.sent = s.sent ++ r.2 := by rw [hs']; rfl
  refine ⟨?_, fun chan user => ?_, fun hnone => ?_, fun chan user hsome => ?_⟩
  · rw [hchanlist, hserver, ← hd.marks]
    exact setModes_inv h c.name cu.user r.1
  · rw [hserver]
    by_cases hone : some (c.name, cu.user) = some (chan, user)
    · cases hone
      rw [if_pos rfl, assign_self, hbefore, hf]
    · rw [if_neg hone, assign_of_ne]
      rintro ⟨rfl, rfl⟩
      exact hone rfl
  · cases hnone
  · cases hsome
    rw [hbefore]
    exact ⟨d.changes, d.needed, by rw [hsent, hd.msgs]⟩

/-- A command that finds nobody does nothing. -/
theorem unchanged_does {s s' : Network} (h : Inv p s.chanlist s.server) (source : CStr)
    (f : (Status → Bool) → Status → Bool) {mclist : List Mychan}
    (hs' : s' = { s.changed p.toIrcd s.chanlist [] with mclist := mclist }) :
    Inv p s'.chanlist s'.server ∧ Effect p.toIrcd s s' source none f := by
  subst hs'
  exact ⟨h, fun chan user => (if_neg (Option.some_ne_none _).symm).symm, fun _ => List.append_nil _,
    fun _ _ hsome => by cases hsome⟩

theorem target_ok {mclist : List Mychan} {cmd : String} {su name : Option CStr} {mc : Mychan} {c : Channel}
    {cu : Chanuser} (h : target core mclist chanlist cmd su name = .ok (mc, c, cu)) :
    c ∈ chanlist ∧ cu ∈ c.members := by
  unfold target at h
  split at h
  · cases h
  · split at h
    · cases h
    · split at h
      · cases h
      · split at h
        · cases h
        · rename_i hfind
          split at h
          · cases h
          · split at h
            · cases h
            · rename_i hcu
              cases h
              exact ⟨List.mem_of_find?_eq_some hfind, List.mem_of_find?_eq_some hcu⟩

theorem up_does {s s' : Network} {chansvsNick : CStr} {si : Requester} {name : Option CStr} {fl : Flags}
    (h : Inv p s.chanlist s.server) (hs : step p.toIrcd core chansvsNick s (.up si name fl) = some s') :
    Inv p s'.chanlist s'.server ∧
      Effect p.toIrcd s s' chansvsNick (found core s "UP" si.su name) (upped p.toIrcd fl) := by
  simp only [step, csCmdUp, Option.some.injEq] at hs
  unfold found
  cases ht : target core s.mclist s.chanlist "UP" si.su name with
  | error replies =>
    rw [ht] at hs
    exact unchanged_does h _ _ hs.symm
  | ok t =>
    obtain ⟨mc, c, cu⟩ := t
    rw [ht] at hs
    obtain ⟨hc, hcu⟩ := target_ok ht
    obtain ⟨d, hd, hf⟩ := up_drafted p chansvsNick c.name cu.user fl cu.modes
    exact changed_does h hc hcu hd hf hs.symm

theorem down_does {s s' : Network} {chansvsNick : CStr} {si : Requester} {name : Option CStr}
    (h : Inv p s.chanlist s.server) (hs : step p.toIrcd core chansvsNick s (.down si name) = some s') :
    Inv p s'.chanlist s'.server ∧
      Effect p.toIrcd s s' chansvsNick (found core s "DOWN" si.su name) fun _ _ => false := by
  simp only [step, csCmdDown, Option.some.injEq] at hs
  unfold found
  cases ht : target core s.mclist s.chanlist "DOWN" si.su name with
  | error replies =>
    rw [ht] at hs
    exact unchanged_does h _ _ hs.symm
  | ok t =>
    obtain ⟨mc, c, cu⟩ := t
    rw [ht] at hs
    obtain ⟨hc, hcu⟩ := target_ok ht
    obtain ⟨d, hd, hf⟩ := down_drafted p chansvsNick c.name cu.user cu.modes
    exact changed_does h hc hcu hd hf hs.symm

theorem fregister_does {s s' : Network} {chansvsNick : CStr} {si : Requester} {name : CStr} {fl : Flags}
    {approved : Bool} (h : Inv p s.chanlist s.server)
    (hs : step p.toIrcd core chansvsNick s (.fregister si name fl approved) = some s') :
    Inv p s'.chanlist s'.server ∧
      Effect p.toIrcd s s' si.service (registering core s si name approved) (fregistered p.toIrcd fl) := by
  simp only [step] at hs
  unfold registering
  split at hs
  · simp only [fregisterEnd, Option.some.injEq] at hs
    rw [if_pos ‹_›]
    cases hc : channelFind core s.chanlist name with
    | none =>
      simp only [hc] at hs
      exact unchanged_does h _ _ hs.symm
    | some c =>
      rw [Option.bind_some]
      cases hcu : si.su.bind (chanuserFind c) with
      | none =>
        simp only [hc, hcu] at hs
        exact unchanged_does h _ _ hs.symm
      | some cu =>
        simp only [hc, hcu] at hs
        obtain ⟨d, hd, hf⟩ := fregister_drafted p si.service c.name cu.user fl cu.modes
        have hmem : cu ∈ c.members := by
          obtain ⟨su, -, hfind⟩ := Option.bind_eq_some_iff.mp hcu
          exact List.mem_of_find?_eq_some hfind
        exact changed_does h (List.mem_of_find?_eq_some hc) hmem hd hf hs.symm
  · rw [if_neg ‹_›]
    cases hs
    have hsame : s = { s.changed p.toIrcd s.chanlist [] with mclist := s.mclist } := by simp [Network.changed]
    exact unchanged_does h _ _ hsame

/-- Whoever joins has no status, on a channel that is new, -/
theorem join_new_inv (h : Inv p chanlist server) (user : CStr) (hnew : ∀ c ∈ chanlist, c.name ≠ chan) :
    Inv p (chanlist ++ [⟨chan, [⟨user, 0#32⟩]⟩]) (assign server chan user fun _ => false) := by
  refine ⟨?_, fun c hc cu hcu => ?_⟩
  · rw [List.map_append, List.nodup_append]
    refine ⟨h.names, List.nodup_singleton _, ?_⟩
    rintro name hname name' hname' rfl
    obtain ⟨c, hc, rfl⟩ := List.mem_map.mp hname
    exact hnew c hc (List.mem_singleton.mp hname')
  · rcases List.mem_append.mp hc with hc | hc
    · rw [assign_of_ne fun hh => hnew c hc hh.1]
      exact h.agree c hc cu hcu
    · cases List.mem_singleton.mp hc
      cases List.mem_singleton.mp hcu
      rw [assign_self, p.masks.marks_zero]

/-- or on one that they are not on. -/
theorem join_old_inv (h : Inv p chanlist server) {ch : Channel} (hch : ch ∈ chanlist)
    (hno : ∀ cu ∈ ch.members, cu.user ≠ user) :
    Inv p
      (chanlist.map fun c =>
        if c.name = ch.name then { c with members := c.members ++ [⟨user, 0#32⟩] } else c)
      (assign server ch.name user fun _ => false) := by
  refine ⟨by rw [map_members_names]; exact h.names, fun c' hc' cu hcu => ?_⟩
  obtain ⟨c, hc, rfl⟩ := List.mem_map.mp hc'
  by_cases hname : c.name = ch.name
  · have hsame : c = ch := List.inj_on_of_nodup_map h.names hc hch hname
    subst hsame
    rw [if_pos rfl] at hcu ⊢
    rcases List.mem_append.mp hcu with hcu | hcu
    · rw [assign_of_ne fun hh => hno cu hcu hh.2]
      exact h.agree c hc cu hcu
    · cases List.mem_singleton.mp hcu
      exact (assign_self server c.name user _).trans p.masks.marks_zero.symm
  · rw [if_neg hname] at hcu ⊢
    rw [assign_of_ne fun hh => hname hh.1]
    exact h.agree c hc cu hcu

theorem join_inv {s s' : Network} {chansvsNick : CStr} (h : Inv p s.chanlist s.server)
    (hs : step p.toIrcd core chansvsNick s (.join chan user) = some s') :
    Inv p s'.chanlist s'.server ∧ s'.sent = s.sent := by
  simp only [step] at hs
  cases hfind : channelFind core s.chanlist chan with
  | none =>
    simp only [hfind, Option.some.injEq] at hs
    have hnew : ∀ c ∈ s.chanlist, c.name ≠ chan := by
      rintro c hc rfl
      exact List.find?_eq_none.mp hfind c hc (irccasecmp_self core c.name)
    subst hs
    exact ⟨join_new_inv h user hnew, rfl⟩
  | some ch =>
    simp only [hfind] at hs
    split at hs
    · cases hs
    · rename_i hno
      cases hs
      have hother : ∀ cu ∈ ch.members, cu.user ≠ user := by
        have hnone : chanuserFind ch user = none := by simpa using hno
        simpa [chanuserFind] using hnone
      exact ⟨join_old_inv h (List.mem_of_find?_eq_some hfind) hother, rfl⟩

/-- Whoever leaves is forgotten. -/
theorem part_inv (h : Inv p chanlist server) (core : Core) (chan user : CStr) :
    Inv p (chanlist.map fun c => if core.irccasecmp c.name chan then
      { c with members := c.members.filter fun cu => cu.user ≠ user } else c) server := by
  refine ⟨by rw [map_members_names]; exact h.names, fun c' hc' cu hcu => ?_⟩
  obtain ⟨c, hc, rfl⟩ := List.mem_map.mp hc'
  split at hcu
  · rw [if_pos ‹_›]
    exact h.agree c hc cu (List.mem_of_mem_filter hcu)
  · rw [if_neg ‹_›]
    exact h.agree c hc cu hcu

/-- A mode that others set is known to both sides. -/
theorem mode_inv {s s' : Network} {chansvsNick : CStr} {c : Mirror.Change Status}
    (h : Inv p s.chanlist s.server) (hs : step p.toIrcd core chansvsNick s (.mode chan user c) = some s') :
    Inv p s'.chanlist s'.server ∧ s'.sent = s.sent := by
  simp only [step] at hs
  split at hs
  · cases hs
  · rename_i ch hch
    split at hs
    · cases hs
    · rename_i cu hcu
      split at hs
      · rename_i hu
        cases hs
        have hbefore := h.agree ch (List.mem_of_find?_eq_some hch) cu (List.mem_of_find?_eq_some hcu)
        have hboth : c.apply (s.server ch.name cu.user) =
            p.masks.marks (if c.add then cu.modes ||| p.mode c.mark else cu.modes &&& ~~~p.mode c.mark) := by
          rw [hbefore, Mirror.Change.apply]
          cases hadd : c.add with
          | true => exact (p.masks.marks_or hu).symm
          | false => exact (p.masks.marks_and_not hu).symm
        refine ⟨?_, rfl⟩
        show Inv p (setModes _ _ _ _) (assign _ _ _ _)
        rw [hboth]
        exact setModes_inv h _ _ _
      · cases hs

/-- **One step**: the words and the server agree afterwards, and the step does what it
is meant to. -/
theorem step_does {s s' : Network} {chansvsNick : CStr} {e : Event} (h : Inv p s.chanlist s.server)
    (hs : step p.toIrcd core chansvsNick s e = some s') :
    Inv p s'.chanlist s'.server ∧ Does p.toIrcd core chansvsNick s e s' := by
  cases e with
  | up si name fl => exact up_does h hs
  | down si name => exact down_does h hs
  | fregister si name fl approved => exact fregister_does h hs
  | join chan user => exact join_inv h hs
  | part chan user =>
    cases hs
    exact ⟨part_inv h core chan user, rfl⟩
  | destroy chan =>
    cases hs
    refine ⟨⟨?_, fun c hc cu hcu => h.agree c (List.mem_of_mem_filter hc) cu hcu⟩, rfl⟩
    exact h.names.sublist (List.filter_sublist.map _)
  | mode chan user c => exact mode_inv h hs
  | chanserv mclist =>
    cases hs
    exact ⟨h, rfl⟩

/-- **The server has what services think it has**: in every run, whoever joins, leaves
and is given what by whom, and however `UP`, `DOWN` and `FREGISTER` come in between. No
mode is sent in vain, and a command does to the statuses of the one who gives it what
it is for, and nothing to anybody else's. -/
theorem views_agree (p : Protocol) (core : Core) (chansvsNick : CStr) (es : List Event) :
    Run.Always (step p.toIrcd core chansvsNick) (Agree p) start es ∧
      Run.Along (step p.toIrcd core chansvsNick) (Does p.toIrcd core chansvsNick) start es := by
  have hstart : Inv p start.chanlist start.server := ⟨List.nodup_nil, fun c hc => by cases hc⟩
  have hreach : ∀ {s}, Run.Reach (step p.toIrcd core chansvsNick) start s → Inv p s.chanlist s.server := by
    intro s hr
    exact Run.reach_inv (I := fun s => Inv p s.chanlist s.server) hstart
      (fun _ _ _ h hs => (step_does h hs).1) hr
  refine ⟨⟨hstart.agree, Run.along_of_reach (fun s e s' hr hs => ?_) es⟩,
    Run.along_of_reach (fun s e s' hr hs => ?_) es⟩
  · exact (step_does (hreach hr) hs).1.agree
  · exact (step_does (hreach hr) hs).2

/-- A daemon with all five statuses. -/
def fiveStatuses : Protocol where
  toIrcd := ⟨true, true, true, 4, 8, 16, 'q', 'a', 'h', 4, 8, 1, 2⟩
  mode_ne_zero := fun st _ => by cases st <;> decide
  mode_disjoint := fun st st' _ _ => by cases st <;> cases st' <;> decide
  mchar_inj := fun st st' _ _ => by cases st <;> cases st' <;> decide
  owner_eq := fun _ => rfl
  protect_eq := fun _ => rfl

def ascii : Core := ⟨Char.toLower, fun _ => ""⟩

/-- `bob` and `eve` join; `bob` registers the channel twice and ups, and then downs. -/
def fiveRun : List Event :=
  let bob : Requester := ⟨some "bob".toList, "ChanServ".toList⟩
  let fl : Flags := ⟨true, true, true, false, false, false, false, false⟩
  [.join "#a".toList "bob".toList, .join "#a".toList "eve".toList, .fregister bob "#A".toList fl true,
    .fregister bob "#a".toList fl true, .up bob (some "#a".toList) fl, .down bob (some "#a".toList)]

/-- `bob` gets `q`, and then `o` but not `a`, and loses both. -/
theorem views_agree_five :
    (Run.Always (step fiveStatuses.toIrcd ascii "ChanServ".toList) (Agree fiveStatuses) start fiveRun ∧
      Run.Along (step fiveStatuses.toIrcd ascii "ChanServ".toList)
        (Does fiveStatuses.toIrcd ascii "ChanServ".toList) start fiveRun) ∧
    (Run.exec (step fiveStatuses.toIrcd ascii "ChanServ".toList) start fiveRun).map
        (fun s => s.sent.map fun m => (m.add, m.mchar, String.ofList m.user)) =
      some [(true, 'q', "bob"), (true, 'o', "bob"), (false, 'q', "bob"), (false, 'o', "bob")] :=
  ⟨views_agree fiveStatuses ascii "ChanServ".toList fiveRun, by decide⟩

-- an owner is protected by `FREGISTER`, and not by `UP`
example :
    let fl : Flags := ⟨true, true, true, false, false, false, false, false⟩
    (fregisterModes fiveStatuses.toIrcd [] [] [] fl 4).1 = 12 ∧
      (upModes fiveStatuses.toIrcd [] [] [] fl 4).1 = 5 := by decide

end Updown
end AthemeContrib
