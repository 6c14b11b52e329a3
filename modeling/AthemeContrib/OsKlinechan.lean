/-
# os_klinechan: channels whose joiners are banned

`KLINECHAN ON` puts three metadata on a registered channel (who, why and when),
`OFF` takes them away, and while the first is there who joins gets a ban, unless
it is exempt, which the operators are told, or may join such channels, which it
is warned of itself. Nothing else touches these metadata, so a channel is on
autokline exactly if the last command that could do something was an `ON`, and
`INFO` tells whose (`klinechan_history`, `info_of_on`). `LISTKLINECHAN` lists
these channels (`klinechans_listed`).

A command without a user behind it has no nick to record and ends the services,
which is the command's `none`.

Key definitions: `Mychan`, `osCmdKlinechan`, `osCmdListklinechans`,
`klinechanShowInfo`, `step`, `ask`, `Enables`, `Releases`, `Enabled`.
Key theorems: `klinechan_history`, `klinechans_listed`.
-/
import AthemeContrib.Command
import AthemeContrib.Lib.Since

namespace AthemeContrib
namespace OsKlinechan

open CStr

/-- A registered channel: the flag `CHAN_LOG`, and the metadata
`private:klinechan:closer`, `:reason` and `:timestamp`. -/
structure Mychan where
  name : CStr
  log : Bool
  closer : Option CStr
  reason : Option CStr
  timestamp : Option CStr
deriving DecidableEq, Repr

/-- A reply; `fault_nochange` is reported by this module only. -/
inductive Reply
  | irc (o : Output)
  | nochange (text : String)
deriving DecidableEq, Repr

/-- `si->su->nick`, if there is a user, and `get_oper_name(si)`. -/
structure Oper where
  nick : Option CStr
  name : String
deriving DecidableEq, Repr

/-- `mychan_find(name)` -/
def mychanFind (core : Core) (mclist : List Mychan) (name : CStr) : Option Mychan :=
  mclist.find? fun mc => core.irccasecmp mc.name name

/-- The channel `name` is changed by `f`. -/
def updMychan (core : Core) (mclist : List Mychan) (name : CStr) (f : Mychan → Mychan) : List Mychan :=
  mclist.map fun mc => if core.irccasecmp mc.name name then f mc else mc

/-- `int64_to_string(n)` -/
def int64ToString (n : ℕ) : CStr := Nat.toDigits 10 n

/-- `atoll(s)` -/
def atoll (s : CStr) : ℤ := strtol s

def Mychan.enabled (closer reason : CStr) (now : ℕ) (mc : Mychan) : Mychan :=
  { mc with closer := some closer, reason := some reason, timestamp := some (int64ToString now) }

def Mychan.disabled (mc : Mychan) : Mychan := { mc with closer := none, reason := none, timestamp := none }

def usage : Reply := .irc (.fail .needmoreparams "Usage: KLINECHAN <#channel> <ON|OFF> [reason]")

/-- `KLINECHAN target action [reason]` at the time `now` -/
def osCmdKlinechan (core : Core) (si : Oper) (now : ℕ) (parv : List CStr) (mclist : List Mychan) :
    Option (List Mychan × List Reply) :=
  match parv[0]?, parv[1]? with
  | some target, some action =>
    let name := String.ofList target
    match mychanFind core mclist target with
    | none => some (mclist, [.irc (.fail .nosuch_target (STR_IS_NOT_REGISTERED target))])
    | some mc =>
      if strcasecmp action "ON".toList then
        match parv[2]? with
        | none => some (mclist,
          [.irc (.fail .needmoreparams (STR_INSUFFICIENT_PARAMS "KLINECHAN")),
            .irc (.fail .needmoreparams "Usage: KLINECHAN <#channel> ON <reason>")])
        | some reason =>
          if mc.log then some (mclist, [.irc (.fail .noprivs s!"\x02{name}\x02 cannot be closed.")])
          else if mc.closer.isSome then some (mclist, [.nochange s!"\x02{name}\x02 is already on autokline."])
          else si.nick.map fun nick =>
            let because := String.ofList reason
            (updMychan core mclist target (Mychan.enabled nick reason now),
              [.irc (.wallops s!"{si.name} enabled automatic klines on the channel \x02{name}\x02 ({because})."),
                .irc (.success s!"Klining all users joining \x02{name}\x02.")])
      else if strcasecmp action "OFF".toList then
        if mc.closer.isNone then some (mclist, [.nochange s!"\x02{name}\x02 is not closed."])
        else some (updMychan core mclist target Mychan.disabled,
          [.irc (.wallops s!"{si.name} disabled automatic klines on the channel \x02{name}\x02."),
            .irc (.success s!"No longer klining users joining \x02{name}\x02.")])
      else some (mclist,
        [.irc (.fail .badparams (STR_INVALID_PARAMS "KLINECHAN")),
          .irc (.fail .badparams "Usage: KLINECHAN <#channel> <ON|OFF> [reason]")])
  | _, _ => some (mclist, [.irc (.fail .needmoreparams (STR_INSUFFICIENT_PARAMS "KLINECHAN")), usage])

/-- `%-30s` -/
def padded (s : CStr) : CStr := s ++ List.replicate (30 - s.length) ' '

def listLine (mc : Mychan) : Output := .success s!"- {String.ofList (padded mc.name)}"

/-- The loop over the channels, with what has been sent and `matches` so far. -/
def listLoop (globMatch : CStr → CStr → Bool) (pattern : CStr) : List Mychan → List Output → ℕ → List Output × ℕ
  | [], sent, n => (sent, n)
  | mc :: mclist, sent, n =>
    if mc.closer.isNone then listLoop globMatch pattern mclist sent n
    else if globMatch pattern mc.name then listLoop globMatch pattern mclist (sent ++ [listLine mc]) (n + 1)
    else listLoop globMatch pattern mclist sent n

/-- The last line, by the number of matches. -/
def matchesText (pattern : String) : ℕ → String
  | 0 => s!"No K:line channels matched pattern \x02{pattern}\x02"
  | 1 => s!"\x021\x02 match for pattern \x02{pattern}\x02"
  | n => s!"\x02{n}\x02 matches for pattern \x02{pattern}\x02"

/-- `LISTKLINECHAN [pattern]`, by the glob matching of the core. -/
def osCmdListklinechans (globMatch : CStr → CStr → Bool) (pattern : Option CStr) (mclist : List Mychan) :
    List Output :=
  let pattern := pattern.getD ['*']
  let (sent, n) := listLoop globMatch pattern mclist [] 0
  sent ++ [.success (matchesText (String.ofList pattern) n)]

def infoText (name setter time reason : String) : String :=
  s!"{name} had \x02automatic klines\x02 enabled on it by {setter} on {time} ({reason})"

/-- `klinechan_show_info`: the line that `INFO` has for who may see it. -/
def klinechanShowInfo (core : Core) (auspex : Bool) (mc : Mychan) : List Output :=
  if auspex then
    match mc.closer with
    | none => []
    | some setter =>
      let reason := (mc.reason.map String.ofList).getD "unknown"
      let ts := (mc.timestamp.map atoll).getD 0
      [.success (infoText (String.ofList mc.name) (String.ofList setter) (core.strftime ts.toNat) reason)]
  else []

/-! ### Runs -/

/-- A channel is registered, dropped, or made the log channel or not; or the
command is given. -/
inductive Event
  | register (name : CStr)
  | drop (name : CStr)
  | log (name : CStr) (log : Bool)
  | klinechan (si : Oper) (now : ℕ) (parv : List CStr)
deriving DecidableEq, Repr

/-- A new registration has no metadata, and is of no channel that is registered. -/
def step (core : Core) (mclist : List Mychan) : Event → Option (List Mychan)
  | .register name =>
    if (mychanFind core mclist name).isSome then none else some (mclist ++ [⟨name, false, none, none, none⟩])
  | .drop name => some (mclist.filter fun mc => !core.irccasecmp mc.name name)
  | .log name log => some (updMychan core mclist name fun mc => { mc with log := log })
  | .klinechan si now parv => (osCmdKlinechan core si now parv mclist).map Prod.fst

/-- What the parameters of `KLINECHAN` ask for. -/
inductive Ask
  | on (target reason : CStr)
  | off (target : CStr)
  | nothing
deriving DecidableEq, Repr

def ask (parv : List CStr) : Ask :=
  match parv[0]?, parv[1]? with
  | some target, some action =>
    if strcasecmp action "ON".toList then
      match parv[2]? with
      | some reason => .on target reason
      | none => .nothing
    else if strcasecmp action "OFF".toList then .off target
    else .nothing
  | _, _ => .nothing

/-- The channel can be put on autokline. -/
def Mychan.free (mc : Mychan) : Bool := !mc.log && mc.closer.isNone

/-- What becomes of the channels when it is asked for. -/
def Ask.run (core : Core) (si : Oper) (now : ℕ) (mclist : List Mychan) : Ask → Option (List Mychan)
  | .on target reason =>
    match mychanFind core mclist target with
    | some mc =>
      if mc.free then si.nick.map fun nick => updMychan core mclist target (Mychan.enabled nick reason now)
      else some mclist
    | none => some mclist
  | .off target =>
    match mychanFind core mclist target with
    | some mc => if mc.closer.isSome then some (updMychan core mclist target Mychan.disabled) else some mclist
    | none => some mclist
  | .nothing => some mclist

/-- The event is an `ON` for the channel `c`, which it finds there, not on
autokline and no log channel: `closer` gives `reason` at the time `now`. -/
def Enables (core : Core) (mclist : List Mychan) (c closer reason : CStr) (now : ℕ) : Event → Prop
  | .klinechan si t parv => si.nick = some closer ∧ t = now ∧ ∃ target, ask parv = .on target reason ∧
      core.irccasecmp target c = true ∧ ∃ mc, mychanFind core mclist c = some mc ∧ mc.free = true
  | _ => False

/-- The event is an `OFF` for the channel `c`, or drops it. -/
def Releases (core : Core) (c : CStr) : Event → Prop
  | .klinechan _ _ parv => ∃ target, ask parv = .off target ∧ core.irccasecmp target c = true
  | .drop name => core.irccasecmp name c = true
  | _ => False

/-- The channel `c` is on autokline by `closer`, who gave `reason` at the time
`now`. -/
def On (core : Core) (mclist : List Mychan) (c closer reason : CStr) (now : ℕ) : Prop :=
  ∃ mc, mychanFind core mclist c = some mc ∧ mc.closer = some closer ∧ mc.reason = some reason ∧
    mc.timestamp = some (int64ToString now)

/-! ### The channels -/

variable {core : Core} {mclist mclist' : List Mychan} {c closer reason : CStr} {now : ℕ} {e : Event}
  {es : List Event}

/-- What is looked for under two names that are equal is found under both. -/
theorem mychanFind_congr {c' : CStr} (h : core.irccasecmp c' c = true) :
    mychanFind core mclist c' = mychanFind core mclist c :=
  Keyed.find_congr (irccasecmp_same core) h mclist

theorem mychanFind_upd (name : CStr) {f : Mychan → Mychan} (hf : ∀ mc, (f mc).name = mc.name) :
    mychanFind core (updMychan core mclist name f) c =
      if core.irccasecmp name c then (mychanFind core mclist c).map f else mychanFind core mclist c :=
  Keyed.find_map (irccasecmp_same core) name hf c mclist

theorem mychanFind_append (l : List Mychan) (mc : Mychan) : mychanFind core (l ++ [mc]) c =
    (mychanFind core l c).or (if core.irccasecmp mc.name c then some mc else none) := by
  unfold mychanFind
  rw [List.find?_append, List.find?_singleton]

theorem mychanFind_filter (name : CStr) :
    mychanFind core (mclist.filter fun mc => !core.irccasecmp mc.name name) c =
      if core.irccasecmp name c then none else mychanFind core mclist c :=
  Keyed.find_filter (irccasecmp_same core) name c mclist

/-! ### Who has put a channel on autokline -/

theorem int64ToString_inj {m n : ℕ} : int64ToString m = int64ToString n ↔ m = n := by
  constructor
  · intro h
    have := congrArg digits h
    rwa [int64ToString, int64ToString, digits_toDigits, digits_toDigits] at this
  · exact congrArg int64ToString

/-- A channel that is changed by `f` is on autokline as `f` leaves it. -/
theorem on_upd (name : CStr) (f : Mychan → Mychan) (hf : ∀ mc, (f mc).name = mc.name) :
    On core (updMychan core mclist name f) c closer reason now ↔
      if core.irccasecmp name c then
        ∃ mc, mychanFind core mclist c = some mc ∧ (f mc).closer = some closer ∧ (f mc).reason = some reason ∧
          (f mc).timestamp = some (int64ToString now)
      else On core mclist c closer reason now := by
  unfold On
  rw [mychanFind_upd name hf]
  cases core.irccasecmp name c with
  | false => rfl
  | true =>
    simp only [if_true, Option.map_eq_some_iff]
    constructor
    · rintro ⟨_, ⟨mc, hmc, rfl⟩, h⟩
      exact ⟨mc, hmc, h⟩
    · rintro ⟨mc, hmc, h⟩
      exact ⟨f mc, ⟨mc, hmc, rfl⟩, h⟩

/-- What a command leaves of the channels is what it asks for. -/
theorem osCmdKlinechan_fst (si : Oper) (t : ℕ) (parv : List CStr) :
    (osCmdKlinechan core si t parv mclist).map Prod.fst = (ask parv).run core si t mclist := by
  unfold osCmdKlinechan ask
  cases parv[0]? with
  | none => rfl
  | some target =>
    cases parv[1]? with
    | none => rfl
    | some action =>
      simp only
      cases strcasecmp action "ON".toList with
      | true =>
        simp only [if_true]
        cases hmc : mychanFind core mclist target with
        | none => cases parv[2]? <;> simp [Ask.run, hmc]
        | some mc =>
          cases parv[2]? with
          | none => rfl
          | some reason =>
            cases hlog : mc.log <;> cases hcl : mc.closer <;> cases hnick : si.nick <;>
              simp [Ask.run, hmc, Mychan.free, hlog, hcl, hnick]
      | false =>
        simp only [Bool.false_eq_true, if_false]
        cases strcasecmp action "OFF".toList with
        | false => cases mychanFind core mclist target <;> rfl
        | true =>
          cases hmc : mychanFind core mclist target with
          | none => simp [Ask.run, hmc]
          | some mc => cases hcl : mc.closer <;> simp [Ask.run, hmc, hcl]

/-- A step after which `c` is on autokline put it there, or left it there. -/
def Follows (core : Core) (mclist mclist' : List Mychan) (c closer reason : CStr) (now : ℕ) (e : Event) : Prop :=
  On core mclist' c closer reason now ↔
    Enables core mclist c closer reason now e ∨ On core mclist c closer reason now ∧ ¬ Releases core c e

theorem follows_of_idle (he : ¬ Enables core mclist c closer reason now e)
    (hr : On core mclist c closer reason now → ¬ Releases core c e) :
    Follows core mclist mclist c closer reason now e :=
  ⟨fun h => Or.inr ⟨h, hr h⟩, fun h => h.elim (fun h => absurd h he) And.left⟩

theorem on_follows {si : Oper} {t : ℕ} {parv : List CStr} {target why : CStr} (ha : ask parv = .on target why)
    (h : (Ask.on target why).run core si t mclist = some mclist') :
    Follows core mclist mclist' c closer reason now (.klinechan si t parv) := by
  have hr : ¬ Releases core c (.klinechan si t parv) := by
    rintro ⟨target', ha', -⟩
    rw [ha] at ha'
    cases ha'
  have henables : Enables core mclist c closer reason now (.klinechan si t parv) ↔ si.nick = some closer ∧
      t = now ∧ why = reason ∧ core.irccasecmp target c = true ∧
        ∃ mc, mychanFind core mclist target = some mc ∧ mc.free = true := by
    simp only [Enables, ha, Ask.on.injEq]
    constructor
    · rintro ⟨hn, ht, target', ⟨rfl, hw⟩, hc, hmc⟩
      exact ⟨hn, ht, hw, hc, mychanFind_congr hc ▸ hmc⟩
    · rintro ⟨hn, ht, hw, hc, hmc⟩
      exact ⟨hn, ht, target, ⟨rfl, hw⟩, hc, mychanFind_congr hc ▸ hmc⟩
  simp only [Ask.run] at h
  cases hmc : mychanFind core mclist target with
  | none =>
    rw [hmc] at h
    cases h
    exact follows_of_idle (by simp [henables, hmc]) fun _ => hr
  | some mc =>
    rw [hmc] at h
    simp only at h
    split at h
    · rename_i hfree
      obtain ⟨nick, hnick, rfl⟩ := Option.map_eq_some_iff.mp h
      unfold Follows
      rw [on_upd target (Mychan.enabled nick why t) fun _ => rfl, henables]
      cases hc : core.irccasecmp target c with
      | false => simp [hr]
      | true =>
        rw [← mychanFind_congr hc]
        have hoff : ¬ On core mclist c closer reason now := by
          rintro ⟨mc', hmc', hcl, -⟩
          rw [← mychanFind_congr hc, hmc, Option.some.injEq] at hmc'
          simp [Mychan.free, hmc', hcl] at hfree
        simp only [if_true, hmc, hfree, hnick, hoff, Mychan.enabled, Option.some.injEq, exists_eq_left',
          int64ToString_inj, false_and, or_false, and_true]
        tauto
    · rename_i hfree
      cases h
      exact follows_of_idle (by simp [henables, hmc, hfree]) fun _ => hr

theorem off_follows {si : Oper} {t : ℕ} {parv : List CStr} {target : CStr} (ha : ask parv = .off target)
    (h : (Ask.off target).run core si t mclist = some mclist') :
    Follows core mclist mclist' c closer reason now (.klinechan si t parv) := by
  have he : ¬ Enables core mclist c closer reason now (.klinechan si t parv) := by
    rintro ⟨-, -, target', ha', -⟩
    rw [ha] at ha'
    cases ha'
  have hreleases : Releases core c (.klinechan si t parv) ↔ core.irccasecmp target c = true := by
    simp [Releases, ha]
  -- a channel that is on autokline is found, and taken off
  have hidle : (∀ mc, mychanFind core mclist target = some mc → mc.closer = none) →
      On core mclist c closer reason now → ¬ Releases core c (.klinechan si t parv) := by
    rintro hnone ⟨mc, hmc, hcl, -⟩ hr
    rw [hreleases] at hr
    rw [← mychanFind_congr hr] at hmc
    rw [hnone mc hmc] at hcl
    cases hcl
  simp only [Ask.run] at h
  cases hmc : mychanFind core mclist target with
  | none =>
    rw [hmc] at h
    cases h
    exact follows_of_idle he (hidle (by simp [hmc]))
  | some mc =>
    rw [hmc] at h
    simp only at h
    split at h
    · cases h
      unfold Follows
      rw [on_upd target Mychan.disabled fun _ => rfl, or_iff_right he, hreleases]
      cases core.irccasecmp target c <;> simp [Mychan.disabled]
    · rename_i hcl
      cases h
      refine follows_of_idle he (hidle fun mc' hmc' => ?_)
      rw [hmc, Option.some.injEq] at hmc'
      rw [← hmc']
      simpa using hcl

theorem step_follows (h : step core mclist e = some mclist') :
    Follows core mclist mclist' c closer reason now e := by
  cases e with
  | register name =>
    simp only [step] at h
    split at h
    · cases h
    · rename_i hnew
      cases h
      have hon : On core (mclist ++ [⟨name, false, none, none, none⟩]) c closer reason now ↔
          On core mclist c closer reason now := by
        unfold On
        rw [mychanFind_append]
        cases hc : mychanFind core mclist c with
        | some mc => simp
        | none =>
          rw [Option.none_or]
          split <;> simp
      exact ⟨fun h => Or.inr ⟨hon.mp h, id⟩, fun h => h.elim False.elim fun h => hon.mpr h.1⟩
  | drop name =>
    cases h
    unfold Follows On
    rw [mychanFind_filter]
    cases hc : core.irccasecmp name c <;> simp [Enables, Releases, hc]
  | log name log =>
    cases h
    have hon : On core (updMychan core mclist name fun mc => { mc with log := log }) c closer reason now ↔
        On core mclist c closer reason now := by
      rw [on_upd name (fun mc => { mc with log := log }) fun _ => rfl]
      split <;> rfl
    exact ⟨fun h => Or.inr ⟨hon.mp h, id⟩, fun h => h.elim False.elim fun h => hon.mpr h.1⟩
  | klinechan si t parv =>
    rw [step, osCmdKlinechan_fst] at h
    cases ha : ask parv with
    | on target why => exact on_follows ha (ha ▸ h)
    | off target => exact off_follows ha (ha ▸ h)
    | nothing =>
      rw [ha] at h
      cases h
      exact follows_of_idle (by simp [Enables, ha]) fun _ => by simp [Releases, ha]

/-! ### Every run -/

/-- In the run of `es` there is an `ON` for the channel `c` by `closer`, for
`reason`, at the time `now`, and nothing after it takes the channel off. -/
def Enabled (core : Core) (es : List Event) (c closer reason : CStr) (now : ℕ) : Prop :=
  ∃ pre e post s, es = pre ++ e :: post ∧ Run.exec (step core) [] pre = some s ∧
    Enables core s c closer reason now e ∧ ∀ d ∈ post, ¬ Releases core c d

theorem on_iff_enabled (h : Run.exec (step core) [] es = some mclist) :
    On core mclist c closer reason now ↔ Enabled core es c closer reason now := by
  have hoff : ¬ On core [] c closer reason now := by
    rintro ⟨mc, hmc, -⟩
    cases hmc
  have hsince := Run.since_iff (A := fun _ e => Releases core c e)
    (B := fun l e => Enables core l c closer reason now e) (P := fun l => On core l c closer reason now)
    (fun _ => True) trivial hoff (fun _ _ _ _ _ => trivial) (fun _ _ _ _ hstep => step_follows hstep) h
  exact hsince.trans (Run.since_iff_split h)

/-- **A channel is on autokline by who enabled it last**, for the reason and at the
time recorded, and by nobody else. -/
theorem klinechan_history (core : Core) {es : List Event} {mclist : List Mychan}
    (h : Run.exec (step core) [] es = some mclist) (c closer reason : CStr) (now : ℕ) :
    On core mclist c closer reason now ↔ Enabled core es c closer reason now := on_iff_enabled h

/-- `INFO` tells who it was, why, and when. -/
theorem info_of_on (h : On core mclist c closer reason now) (ht : now < 2 ^ 63) : ∃ mc,
    mychanFind core mclist c = some mc ∧ klinechanShowInfo core true mc =
      [.success (infoText (String.ofList mc.name) (String.ofList closer) (core.strftime now)
        (String.ofList reason))] := by
  obtain ⟨mc, hmc, hcl, hre, hts⟩ := h
  refine ⟨mc, hmc, ?_⟩
  have hat : atoll (int64ToString now) = now := strtol_toDigits ht
  simp [klinechanShowInfo, hcl, hre, hts, hat]

/-- A core whose case mapping is that of ASCII. -/
def ascii : Core := ⟨Char.toLower, fun _ => ""⟩

/-- `#eggs` is put on autokline, taken off, and put there by somebody else. -/
def eggs : List Event :=
  [.register "#eggs".toList,
    .klinechan ⟨some "alice".toList, "alice"⟩ 7 ["#Eggs".toList, "on".toList, "bots".toList],
    .klinechan ⟨some "alice".toList, "alice"⟩ 8 ["#eggs".toList, "OFF".toList],
    .klinechan ⟨some "bob".toList, "bob"⟩ 9 ["#eggs".toList, "ON".toList, "spam".toList]]

/-- `#eggs`, as that leaves it. -/
def eggsOn : Mychan := ⟨"#eggs".toList, false, some "bob".toList, some "spam".toList, some "9".toList⟩

theorem klinechan_history_eggs : Run.exec (step ascii) [] eggs = some [eggsOn] ∧
    (On ascii [eggsOn] "#EGGS".toList "bob".toList "spam".toList 9 ↔
      Enabled ascii eggs "#EGGS".toList "bob".toList "spam".toList 9) :=
  ⟨by decide, klinechan_history ascii (by decide) _ _ _ _⟩

/-! ### The list -/

/-- What has a setter has a reason and a time. -/
def Mychan.Whole (mc : Mychan) : Prop := ∀ closer, mc.closer = some closer →
  ∃ reason now, mc.reason = some reason ∧ mc.timestamp = some (int64ToString now)

/-- The names are all different, and the three metadata come together. -/
structure Sound (core : Core) (mclist : List Mychan) : Prop where
  unique : Keyed.Unique core.irccasecmp Mychan.name mclist
  whole : ∀ mc ∈ mclist, mc.Whole

theorem Sound.upd (h : Sound core mclist) (name : CStr) {f : Mychan → Mychan}
    (hf : ∀ mc, (f mc).name = mc.name) (hw : ∀ mc, mc.Whole → (f mc).Whole) :
    Sound core (updMychan core mclist name f) := by
  have hname : ∀ mc : Mychan, (if core.irccasecmp mc.name name then f mc else mc).name = mc.name := by
    intro mc
    split
    · exact hf mc
    · rfl
  refine ⟨List.pairwise_map.mpr (h.unique.imp fun hne => ?_), fun mc hmc => ?_⟩
  · rw [hname, hname]
    exact hne
  · obtain ⟨mc', hmc', rfl⟩ := List.mem_map.mp hmc
    split
    · exact hw mc' (h.whole mc' hmc')
    · exact h.whole mc' hmc'

theorem Ask.run_sound (h : Sound core mclist) {si : Oper} {t : ℕ} {a : Ask}
    (hrun : a.run core si t mclist = some mclist') : Sound core mclist' := by
  cases a with
  | nothing =>
    cases hrun
    exact h
  | off target =>
    simp only [Ask.run] at hrun
    split at hrun
    · split at hrun
      · cases hrun
        exact h.upd target (fun _ => rfl) fun _ _ _ hcl => by cases hcl
      · cases hrun
        exact h
    · cases hrun
      exact h
  | on target reason =>
    simp only [Ask.run] at hrun
    split at hrun
    · split at hrun
      · obtain ⟨nick, -, rfl⟩ := Option.map_eq_some_iff.mp hrun
        exact h.upd target (fun _ => rfl) fun _ _ _ _ => ⟨reason, t, rfl, rfl⟩
      · cases hrun
        exact h
    · cases hrun
      exact h

theorem step_sound (h : Sound core mclist) (hstep : step core mclist e = some mclist') :
    Sound core mclist' := by
  cases e with
  | register name =>
    simp only [step] at hstep
    split at hstep
    · cases hstep
    · rename_i hnew
      cases hstep
      have hfresh : ∀ mc ∈ mclist, core.irccasecmp mc.name name = false := by
        intro mc hmc
        rw [Bool.not_eq_true, Option.isSome_eq_false_iff, Option.isNone_iff_eq_none] at hnew
        exact Bool.eq_false_iff.mpr (List.find?_eq_none.mp hnew mc hmc)
      refine ⟨h.unique.append hfresh, fun mc hmc => ?_⟩
      rcases List.mem_append.mp hmc with hmc | hmc
      · exact h.whole mc hmc
      · rw [List.mem_singleton.mp hmc]
        intro closer hcl
        cases hcl
  | drop name =>
    cases hstep
    exact ⟨h.unique.sublist List.filter_sublist, fun mc hmc => h.whole mc (List.mem_filter.mp hmc).1⟩
  | log name log =>
    cases hstep
    exact h.upd name (fun _ => rfl) fun _ hw => hw
  | klinechan si t parv =>
    rw [step, osCmdKlinechan_fst] at hstep
    exact Ask.run_sound h hstep

/-- A channel that has a setter is on autokline by somebody. -/
theorem Sound.on_iff (h : Sound core mclist) {mc : Mychan} (hmc : mc ∈ mclist) :
    mc.closer.isSome = true ↔ ∃ closer reason now, On core mclist mc.name closer reason now := by
  have hfind : mychanFind core mclist mc.name = some mc :=
    h.unique.find (irccasecmp_same core) hmc (irccasecmp_self core mc.name)
  constructor
  · intro hsome
    obtain ⟨closer, hcl⟩ := Option.isSome_iff_exists.mp hsome
    obtain ⟨reason, now, hre, hts⟩ := h.whole mc hmc closer hcl
    exact ⟨closer, reason, now, mc, hfind, hcl, hre, hts⟩
  · rintro ⟨closer, reason, now, mc', hmc', hcl, -⟩
    obtain rfl := Option.some.inj (hfind.symm.trans hmc')
    rw [hcl]
    rfl

theorem listLoop_eq (globMatch : CStr → CStr → Bool) (pattern : CStr) : ∀ (mclist : List Mychan)
    (sent : List Output) (n : ℕ),
    let listed := mclist.filter fun mc => mc.closer.isSome && globMatch pattern mc.name
    listLoop globMatch pattern mclist sent n = (sent ++ listed.map listLine, n + listed.length)
  | [], sent, n => by simp [listLoop]
  | mc :: mclist, sent, n => by
    cases hcl : mc.closer with
    | none => simp [listLoop, hcl, listLoop_eq globMatch pattern mclist]
    | some closer =>
      cases hm : globMatch pattern mc.name with
      | false => simp [listLoop, hcl, hm, listLoop_eq globMatch pattern mclist]
      | true =>
        simp [listLoop, hcl, hm, listLoop_eq globMatch pattern mclist]
        omega

/-- **`LISTKLINECHAN` lists the channels that somebody has put on autokline**
since they were taken off last, of those whose names match, and counts them. -/
theorem klinechans_listed (core : Core) {es : List Event} {mclist : List Mychan}
    (h : Run.exec (step core) [] es = some mclist) (globMatch : CStr → CStr → Bool) (pattern : Option CStr) :
    ∃ listed : List Mychan, listed.Sublist mclist ∧
      (∀ mc ∈ mclist, mc ∈ listed ↔ globMatch (pattern.getD ['*']) mc.name = true ∧
        ∃ closer reason now, Enabled core es mc.name closer reason now) ∧
      osCmdListklinechans globMatch pattern mclist = listed.map listLine ++
        [.success (matchesText (String.ofList (pattern.getD ['*'])) listed.length)] := by
  have hsound : Sound core mclist :=
    Run.exec_inv (I := Sound core) (fun _ _ _ hs hstep => step_sound hs hstep)
      ⟨List.Pairwise.nil, fun mc hmc => (List.not_mem_nil hmc).elim⟩ h
  refine ⟨mclist.filter fun mc => mc.closer.isSome && globMatch (pattern.getD ['*']) mc.name,
    List.filter_sublist, fun mc hmc => ?_, ?_⟩
  · rw [List.mem_filter, Bool.and_eq_true, hsound.on_iff hmc, and_iff_right hmc, and_comm]
    apply and_congr_right'
    exact exists_congr fun closer => exists_congr fun reason => exists_congr fun now => on_iff_enabled h
  · unfold osCmdListklinechans
    dsimp only
    rw [listLoop_eq]
    simp

end OsKlinechan
end AthemeContrib
