/-
# os_defcon: the DEFCON level and its timer

`DEFCON n` sets the level, and a level below 5 is to expire: the command
creates a one-shot timer for `defcon_timeoutfunc`, which puts the level back
to 5. The command creates the timer only while `defcon_timer` is null, and
the callback does not null it, so the first expiry is the last one: the
pointer then names no timer, no later command creates one, and `DEFCON 5`
destroys the stale pointer (`defcon_never_expires`). Until a timer has run
the law holds, and no longer (`defcon_expires_iff`).

An argument that is no level puts the level to 5 before the command fails,
and nothing undoes what the level before it did: the ignore of `*@*` and the
channel mode stay, and the timer goes on (`ignore_left_behind`). At level 5
nothing is lost (`rejected_noop_iff`).

The hooks on registrations and connections only read the level. OperServ is
taken to exist.

Key definitions: `State`, `osCmdDefcon`, `defconTimeoutfunc`, `step`, `TimerOk`,
`netStep`, `RejectOk`, `IgnoreOk`, `AtFive`.
Key theorems: `defcon_expires_iff`, `defcon_never_expires`, `rejectOk_iff`,
`ignoreOk_step`, `rejected_noop_iff`.
-/
import AthemeContrib.Command
import AthemeContrib.Lib.EventLoop
import AthemeContrib.Lib.Run

namespace AthemeContrib
namespace Defcon

open CStr

/-- An entry of the services ignore list. -/
structure Svsignore where
  mask : CStr
  reason : String
  setby : String
  settime : ℕ
deriving DecidableEq, Repr

/-- A channel: its name and its modes without a parameter. -/
structure Chan where
  name : CStr
  modes : List Char
deriving DecidableEq, Repr

/-- The callback a timer of this module runs. -/
inductive Callback
  | defconTimeoutfunc
deriving DecidableEq, Repr

/-- The module's variables, the lists of the core it changes, and what it
has sent. -/
structure State where
  level : ℤ
  defconTimeout : ℕ
  defconTimer : Option ℕ
  loop : EventLoop Callback
  svsIgnoreList : List Svsignore
  chanlist : List Chan
  out : List Output

/-- The module as loaded, on a network with the given ignores and channels. -/
def init (timeout : ℕ) (ignores : List Svsignore) (chans : List Chan) : State :=
  ⟨5, timeout, none, EventLoop.init, ignores, chans, []⟩

def DEFCON_CMODE : Char := 'R'

/-- The mask DEFCON ignores everyone by. -/
def everyone : CStr := "*@*".toList

/-- Adds the `*@*` ignore at level 2 and below, removes it at 3 and above. -/
def defconSvsignore (now : ℕ) (s : State) : State :=
  if s.level ≤ 2 then
    if s.svsIgnoreList.any (fun i => strcasecmp i.mask everyone) then s
    else { s with
      svsIgnoreList := s.svsIgnoreList ++ [⟨everyone, "DEFCON Level 1 or 2 activated", "DEFCON", now⟩] }
  else if 3 ≤ s.level then
    { s with svsIgnoreList := s.svsIgnoreList.filter fun i => !strcasecmp i.mask everyone }
  else s

/-- `channel_mode_va(svs->me, c, 1, "+m" or "-m")` -/
def channelMode (add : Bool) (m : Char) (c : Chan) : Chan :=
  if add then (if m ∈ c.modes then c else { c with modes := c.modes ++ [m] })
  else { c with modes := c.modes.filter (· ≠ m) }

/-- Sets `DEFCON_CMODE` on every channel at level 3 and below, unsets it at 4
and above. -/
def defconForcechanmodes (s : State) : State :=
  if s.level ≤ 3 then { s with chanlist := s.chanlist.map (channelMode true DEFCON_CMODE) }
  else if 4 ≤ s.level then { s with chanlist := s.chanlist.map (channelMode false DEFCON_CMODE) }
  else s

def normalText (level : ℤ) : String :=
  s!"The DEFCON level is now back to normal (\x02{level}\x02). Sorry for any inconvenience this caused."

def changedText (level : ℤ) : String :=
  s!"The DEFCON level has been changed to \x02{level}\x02. We apologize for any inconvenience."

/-- The timer's callback. -/
def defconTimeoutfunc (now : ℕ) (s : State) : State :=
  let s := defconForcechanmodes (defconSvsignore now { s with level := 5 })
  { s with out := s.out ++ [.noticeGlobal (normalText s.level)] }

/-- Below 5 a timer is created if none is recorded; at 5 the recorded one is
destroyed. -/
def setTimer (s : State) : State :=
  if s.level < 5 then
    match s.defconTimer with
    | none => { s with
        defconTimer := some s.loop.next
        loop := s.loop.timerAddOnce .defconTimeoutfunc s.defconTimeout }
    | some _ => s
  else { s with defconTimer := none, loop := s.loop.timerDestroy s.defconTimer }

/-- `DEFCON [level]`, from the operator `oper` at the time `now`. -/
def osCmdDefcon (oper : String) (now : ℕ) (defcon : Option CStr) (s : State) : State :=
  match defcon with
  | none => { s with out := s.out ++ [.success s!"Defense condition is currently level \x02{s.level}\x02."] }
  | some arg =>
    let level := atoi arg
    if level ≤ 0 ∨ 5 < level then
      { s with
        level := 5
        out := s.out ++ [.fail .badparams "Defcon level must be between 1 and 5"] }
    else
      let s := setTimer (defconForcechanmodes (defconSvsignore now { s with level := level }))
      { s with out := s.out ++
        [.noticeGlobal (if level < 5 then changedText level else normalText level),
         .success s!"Defense condition set to level \x02{level}\x02.",
         .wallops s!"\x02{oper}\x02 set Defense condition to level \x02{level}\x02."] }

/-- A command arrives, or a pending timer runs. -/
inductive Event
  | command (oper : String) (now : ℕ) (defcon : Option CStr)
  | fire (id now : ℕ)
deriving DecidableEq, Repr

def step (s : State) : Event → Option State
  | .command oper now defcon => some (osCmdDefcon oper now defcon s)
  | .fire id now =>
    (s.loop.find id).map fun t =>
      let s := defconTimeoutfunc now s
      { s with loop := s.loop.ran t }

/-! ### What each function leaves alone -/

@[simp] theorem defconSvsignore_loop (now : ℕ) (s : State) : (defconSvsignore now s).loop = s.loop := by
  unfold defconSvsignore; split_ifs <;> rfl

@[simp] theorem defconSvsignore_timer (now : ℕ) (s : State) :
    (defconSvsignore now s).defconTimer = s.defconTimer := by
  unfold defconSvsignore; split_ifs <;> rfl

@[simp] theorem defconSvsignore_level (now : ℕ) (s : State) : (defconSvsignore now s).level = s.level := by
  unfold defconSvsignore; split_ifs <;> rfl

@[simp] theorem defconForcechanmodes_loop (s : State) : (defconForcechanmodes s).loop = s.loop := by
  unfold defconForcechanmodes; split_ifs <;> rfl

@[simp] theorem defconForcechanmodes_timer (s : State) :
    (defconForcechanmodes s).defconTimer = s.defconTimer := by
  unfold defconForcechanmodes; split_ifs <;> rfl

@[simp] theorem defconForcechanmodes_level (s : State) : (defconForcechanmodes s).level = s.level := by
  unfold defconForcechanmodes; split_ifs <;> rfl

@[simp] theorem defconSvsignore_out (now : ℕ) (s : State) : (defconSvsignore now s).out = s.out := by
  unfold defconSvsignore; split_ifs <;> rfl

@[simp] theorem defconForcechanmodes_ignores (s : State) :
    (defconForcechanmodes s).svsIgnoreList = s.svsIgnoreList := by
  unfold defconForcechanmodes; split_ifs <;> rfl

@[simp] theorem defconForcechanmodes_out (s : State) : (defconForcechanmodes s).out = s.out := by
  unfold defconForcechanmodes; split_ifs <;> rfl

@[simp] theorem setTimer_level (s : State) : (setTimer s).level = s.level := by
  unfold setTimer; split <;> [cases s.defconTimer <;> rfl; rfl]

@[simp] theorem setTimer_ignores (s : State) : (setTimer s).svsIgnoreList = s.svsIgnoreList := by
  unfold setTimer; split <;> [cases s.defconTimer <;> rfl; rfl]

@[simp] theorem setTimer_out (s : State) : (setTimer s).out = s.out := by
  unfold setTimer; split <;> [cases s.defconTimer <;> rfl; rfl]

/-! ### The timer -/

/-- The law of the timer: below level 5 a one-shot timer is pending,
`defcon_timer` is non-null exactly when it names a pending timer, and no
handle was destroyed that named none. -/
def TimerOk (s : State) : Prop :=
  (s.level < 5 → ∃ t ∈ s.loop.timers, t.func = .defconTimeoutfunc ∧ t.once = true) ∧
  (s.defconTimer ≠ none ↔ ∃ id, s.defconTimer = some id ∧ s.loop.Live id) ∧
  s.loop.misused = []

/-- Every pending timer is the module's, one-shot, and recorded. -/
def Recorded (s : State) : Prop :=
  ∀ t ∈ s.loop.timers, s.defconTimer = some t.id ∧ t.func = .defconTimeoutfunc ∧ t.once = true

theorem TimerOk.live {s : State} (h : TimerOk s) {id : ℕ} (hid : s.defconTimer = some id) :
    s.loop.Live id := by
  obtain ⟨id', hid', hl⟩ := h.2.1.mp (by simp [hid])
  rw [hid, Option.some.injEq] at hid'
  exact hid' ▸ hl

theorem TimerOk.pending {s : State} (h : TimerOk s) (hl : s.level < 5) : s.loop.timers ≠ [] := by
  obtain ⟨t, ht, -⟩ := h.1 hl
  exact List.ne_nil_of_mem ht

/-- The level is set and the timer follows it. -/
theorem setTimer_ok (s : State) (hR : Recorded s) (hm : s.loop.misused = [])
    (hl : ∀ id, s.defconTimer = some id → s.loop.Live id) :
    Recorded (setTimer s) ∧ TimerOk (setTimer s) := by
  unfold setTimer
  split
  · rename_i h5
    cases ht : s.defconTimer with
    | none =>
      have hnil : s.loop.timers = [] := by
        rw [List.eq_nil_iff_forall_not_mem]
        intro t hmem
        have := (hR t hmem).1
        rw [ht] at this
        cases this
      refine ⟨fun t hmem => ?_, ⟨fun _ => ?_, ?_, hm⟩⟩
      · simp only [EventLoop.timerAddOnce, EventLoop.timers_push, hnil, List.nil_append,
          List.mem_singleton] at hmem
        simp [hmem]
      · exact ⟨_, List.mem_append_right _ (List.mem_singleton_self _), rfl, rfl⟩
      · simp [EventLoop.Live, EventLoop.timerAddOnce]
    | some id =>
      refine ⟨hR, ⟨fun _ => ?_, ?_, hm⟩⟩
      · obtain ⟨t, hmem, -⟩ := hl id ht
        exact ⟨t, hmem, (hR t hmem).2⟩
      · simpa [ht] using hl id ht
  · rename_i h5
    have hnil : (s.loop.timerDestroy s.defconTimer).timers = [] := by
      rw [EventLoop.timers_timerDestroy, List.filter_eq_nil_iff]
      intro t hmem
      simp [(hR t hmem).1]
    refine ⟨fun t hmem => ?_, ⟨fun h => absurd h h5, by simp, ?_⟩⟩
    · simp only [hnil, List.not_mem_nil] at hmem
    · exact (EventLoop.misused_timerDestroy_of_live hl).trans hm

/-- A command keeps the law, whatever its argument. -/
theorem command_ok {s : State} (oper : String) (now : ℕ) (defcon : Option CStr) (hR : Recorded s)
    (h : TimerOk s) :
    Recorded (osCmdDefcon oper now defcon s) ∧ TimerOk (osCmdDefcon oper now defcon s) := by
  unfold osCmdDefcon
  cases defcon with
  | none => exact ⟨hR, h⟩
  | some arg =>
    simp only
    split
    · exact ⟨hR, fun h5 => absurd h5 (by simp), h.2⟩
    · obtain ⟨h1, h2⟩ := setTimer_ok (defconForcechanmodes (defconSvsignore now { s with level := atoi arg }))
        (by simpa [Recorded] using hR) (by simpa using h.2.2)
        (fun id hid => by simpa using h.live (by simpa using hid))
      exact ⟨h1, h2⟩

/-- A timer that runs leaves `defcon_timer` naming it. -/
theorem fire_stale {s s' : State} {id now : ℕ} (hR : Recorded s) (h : step s (.fire id now) = some s') :
    Recorded s' ∧ ¬ TimerOk s' := by
  simp only [step, Option.map_eq_some_iff] at h
  obtain ⟨t, ht, rfl⟩ := h
  obtain ⟨hmem, -⟩ := EventLoop.mem_of_find ht
  obtain ⟨hrec, -, honce⟩ := hR t hmem
  have hnil : ((s.loop).ran t).timers = [] := by
    rw [EventLoop.timers_ran, List.filter_eq_nil_iff]
    intro t' hmem'
    have hid : some t'.id = some t.id := (hR t' hmem').1.symm.trans hrec
    simp [honce, Option.some.inj hid]
  constructor
  · intro t' hmem'
    simp [defconTimeoutfunc, hnil] at hmem'
  · intro hok
    have hid : (defconTimeoutfunc now s).defconTimer = some t.id := by simpa [defconTimeoutfunc] using hrec
    obtain ⟨t', hmem', -⟩ := hok.live hid
    simp [defconTimeoutfunc, hnil] at hmem'

/-- The event is the run of a timer. -/
def Event.IsFire : Event → Prop
  | .fire _ _ => True
  | .command _ _ _ => False

/-- **DEFCON expires until it has expired once.** The law of the timer holds
in every state of a run exactly if no timer has run in it. -/
theorem defcon_expires_iff (timeout : ℕ) (ignores : List Svsignore) (chans : List Chan) (es : List Event) :
    Run.Always step TimerOk (init timeout ignores chans) es ↔
      Run.Along step (fun _ e _ => ¬ e.IsFire) (init timeout ignores chans) es := by
  refine Run.always_iff_along Recorded ?_ ?_ ?_ ?_ es
  · exact fun t ht => by simp [init] at ht
  · exact ⟨fun h => absurd h (by simp [init]), by simp [init], rfl⟩
  · intro s e s' hR hok hstep
    cases e with
    | command oper now defcon =>
      cases hstep
      simpa [Event.IsFire] using (command_ok oper now defcon hR hok).2
    | fire id now => simpa [Event.IsFire] using (fire_stale hR hstep).2
  · intro s e s' hR hok hstep
    cases e with
    | command oper now defcon =>
      cases hstep
      exact (command_ok oper now defcon hR hok).1
    | fire id now => exact (fire_stale hR hstep).1

/-- DEFCON 3, its expiry, DEFCON 3 again: the level is 3 and no timer is
pending, so it stays 3. -/
theorem defcon_never_expires : ∃ s,
    Run.exec step (init 900 [] [])
      [.command "oper" 0 (some ['3']), .fire 0 900, .command "oper" 1000 (some ['3'])] = some s ∧
    s.level = 3 ∧ s.loop.timers = [] ∧ ¬ TimerOk s :=
  ⟨_, rfl, by decide, by decide, fun h => h.pending (by decide) (by decide)⟩

/-! ### Commands that are rejected -/

/-- The ignore is one that DEFCON takes for its own. -/
def ignoresEveryone (i : Svsignore) : Bool := strcasecmp i.mask everyone

/-- What happens on the network: an event of the module, or others edit the
services ignore list or the channels. -/
inductive NetEvent
  | own (e : Event)
  | ignores (l : List Svsignore)
  | channels (l : List Chan)
deriving DecidableEq, Repr

/-- The others add and remove no `*@*` ignore. -/
def netStep (s : State) : NetEvent → Option State
  | .own e => step s e
  | .ignores l =>
    if l.filter ignoresEveryone = s.svsIgnoreList.filter ignoresEveryone then
      some { s with svsIgnoreList := l }
    else none
  | .channels l => some { s with chanlist := l }

/-- Everyone is ignored exactly at level 2 and below. -/
def IgnoreOk (s : State) : Prop := s.svsIgnoreList.any ignoresEveryone = true ↔ s.level ≤ 2

/-- The argument is no level. -/
def BadLevel (arg : CStr) : Prop := ¬ (1 ≤ intValue arg ∧ intValue arg ≤ 5)

instance (arg : CStr) : Decidable (BadLevel arg) := inferInstanceAs (Decidable (¬ _))

/-- The command has failed and changed nothing. -/
structure Rejected (s s' : State) : Prop where
  level : s'.level = s.level
  ignores : s'.svsIgnoreList = s.svsIgnoreList
  modes : s'.chanlist = s.chanlist
  timer : s'.defconTimer = s.defconTimer ∧ s'.loop = s.loop
  out : s'.out = s.out ++ [.fail .badparams "Defcon level must be between 1 and 5"]

/-- A command with an argument that is no level fails and changes nothing. -/
def RejectOk (s : State) (e : NetEvent) (s' : State) : Prop :=
  ∀ oper now arg, e = .own (.command oper now (some arg)) → BadLevel arg → Rejected s s'

/-- Such a command arrives at level 5, and its argument is no level as an int,
either. -/
def AtFive (s : State) (e : NetEvent) (_ : State) : Prop :=
  ∀ oper now arg, e = .own (.command oper now (some arg)) → BadLevel arg →
    s.level = 5 ∧ (atoi arg ≤ 0 ∨ 5 < atoi arg)

/-- What is no level as an int is none. -/
theorem badLevel_of_atoi {arg : CStr} (h : atoi arg ≤ 0 ∨ 5 < atoi arg) : BadLevel arg := by
  intro ⟨hlo, hhi⟩
  have hatoi := atoi_eq (s := arg) (by omega) (by omega)
  omega

theorem osCmdDefcon_rejected (oper : String) (now : ℕ) {arg : CStr} (h : atoi arg ≤ 0 ∨ 5 < atoi arg)
    (s : State) : osCmdDefcon oper now (some arg) s = { s with
      level := 5, out := s.out ++ [.fail .badparams "Defcon level must be between 1 and 5"] } := if_pos h

/-- The level, the ignores and the channel modes that an accepted command
sets. -/
theorem osCmdDefcon_accepted (oper : String) (now : ℕ) {arg : CStr} (h : ¬ (atoi arg ≤ 0 ∨ 5 < atoi arg))
    (s : State) : (osCmdDefcon oper now (some arg) s).level = atoi arg ∧
      (osCmdDefcon oper now (some arg) s).svsIgnoreList =
        (defconSvsignore now { s with level := atoi arg }).svsIgnoreList ∧
      (osCmdDefcon oper now (some arg) s).out.length = s.out.length + 3 := by
  unfold osCmdDefcon
  simp [if_neg h]

/-- What is done to the ignores fits the level. -/
theorem ignoreOk_defconSvsignore (now : ℕ) (s : State) : IgnoreOk (defconSvsignore now s) := by
  unfold IgnoreOk
  rw [defconSvsignore_level]
  unfold defconSvsignore
  split_ifs with h2 hany h3
  · exact iff_of_true hany h2
  · refine iff_of_true ?_ h2
    rw [List.any_append, Bool.or_eq_true]
    exact Or.inr (by rfl)
  · refine iff_of_false ?_ h2
    rw [List.any_eq_true]
    intro ⟨i, hi, hmask⟩
    rw [List.mem_filter] at hi
    simp only [ignoresEveryone] at hmask
    simp [hmask] at hi
  · omega

/-- A command with an argument that is no level is rejected as it should be
exactly at level 5. -/
theorem rejectOk_iff {s s' : State} {e : NetEvent} (h : netStep s e = some s') :
    AtFive s e s' ↔ RejectOk s e s' := by
  refine forall_congr' fun oper => forall_congr' fun now => forall_congr' fun arg =>
    forall_congr' fun he => imp_congr_right fun _ => ?_
  subst he
  cases h
  by_cases hint : atoi arg ≤ 0 ∨ 5 < atoi arg
  · rw [osCmdDefcon_rejected oper now hint]
    refine ⟨fun h => ⟨h.1.symm, rfl, rfl, ⟨rfl, rfl⟩, rfl⟩, fun h => ⟨h.level.symm, hint⟩⟩
  · refine iff_of_false (fun h => hint h.2) fun h => ?_
    obtain ⟨-, -, hout⟩ := osCmdDefcon_accepted oper now hint s
    rw [h.out, List.length_append, List.length_singleton] at hout
    omega

/-- If it arrives at level 5, the ignores go on fitting the level. -/
theorem ignoreOk_step {s s' : State} {e : NetEvent} (hs : IgnoreOk s) (h : netStep s e = some s')
    (hfive : AtFive s e s') : IgnoreOk s' := by
  cases e with
  | ignores l =>
    simp only [netStep, Option.ite_none_right_eq_some, Option.some.injEq] at h
    obtain ⟨hsame, rfl⟩ := h
    have hany : ∀ l : List Svsignore, l.any ignoresEveryone = true ↔ l.filter ignoresEveryone ≠ [] := by
      intro l
      simp [List.filter_eq_nil_iff]
    unfold IgnoreOk at hs ⊢
    rwa [hany, hsame, ← hany]
  | channels l =>
    cases h
    exact hs
  | own e =>
    cases e with
    | fire id now =>
      simp only [netStep, step, Option.map_eq_some_iff] at h
      obtain ⟨t, -, rfl⟩ := h
      have hok := ignoreOk_defconSvsignore now { s with level := 5 }
      unfold IgnoreOk at hok ⊢
      simpa [defconTimeoutfunc] using hok
    | command oper now defcon =>
      cases h
      cases defcon with
      | none => exact hs
      | some arg =>
        by_cases hint : atoi arg ≤ 0 ∨ 5 < atoi arg
        · obtain ⟨h5, -⟩ := hfive oper now arg rfl (badLevel_of_atoi hint)
          rw [osCmdDefcon_rejected oper now hint]
          unfold IgnoreOk at hs ⊢
          rwa [h5] at hs
        · obtain ⟨hlevel, hignores, -⟩ := osCmdDefcon_accepted oper now hint s
          have hok := ignoreOk_defconSvsignore now { s with level := atoi arg }
          unfold IgnoreOk at hok ⊢
          rw [hlevel, hignores]
          rwa [defconSvsignore_level] at hok

/-- **A rejected DEFCON command changes nothing**, and everyone is ignored
exactly at level 2 and below, in the runs in which the commands whose argument
is no level arrive at level 5, and in no others. -/
theorem rejected_noop_iff (timeout : ℕ) {ignores : List Svsignore}
    (hi : ∀ i ∈ ignores, ignoresEveryone i = false) (chans : List Chan) (es : List NetEvent) :
    (Run.Along netStep RejectOk (init timeout ignores chans) es ∧
      Run.Always netStep IgnoreOk (init timeout ignores chans) es) ↔
    Run.Along netStep AtFive (init timeout ignores chans) es := by
  have hreject : Run.Along netStep RejectOk (init timeout ignores chans) es ↔
      Run.Along netStep AtFive (init timeout ignores chans) es := by
    refine (Run.along_congr (fun _ => True) (C := AtFive) (Q := RejectOk) ?_ ?_ trivial).symm
    · exact fun s e s' _ h => rejectOk_iff h
    · exact fun _ _ _ _ _ _ => trivial
  have hstart : IgnoreOk (init timeout ignores chans) := by
    refine iff_of_false ?_ (by simp [init])
    rw [List.any_eq_true]
    intro ⟨i, hmem, hmask⟩
    rw [hi i hmem] at hmask
    cases hmask
  rw [hreject]
  refine ⟨And.left, fun hfive => ⟨hfive, hstart, ?_⟩⟩
  have hboth : Run.Along netStep (fun s e s' => AtFive s e s' ∧ IgnoreOk s')
      (init timeout ignores chans) es := by
    refine (Run.along_congr IgnoreOk (C := AtFive) ?_ ?_ hstart).mp hfive
    · exact fun s e s' hs h => ⟨fun h5 => ⟨h5, ignoreOk_step hs h h5⟩, And.left⟩
    · exact fun s e s' hs h h5 => ignoreOk_step hs h h5
  exact (Run.along_and.mp hboth).2

/-- An operator mistypes the level at level 5, and then sets it to 1. -/
theorem rejected_noop_at_five :
    (∀ i ∈ [Svsignore.mk "*@spam.example".toList "spam" "oper" 0], ignoresEveryone i = false) ∧
    ((Run.Along netStep RejectOk (init 900 [⟨"*@spam.example".toList, "spam", "oper", 0⟩] [])
        [.own (.command "oper" 0 (some ['9'])), .own (.command "oper" 1 (some ['1']))] ∧
      Run.Always netStep IgnoreOk (init 900 [⟨"*@spam.example".toList, "spam", "oper", 0⟩] [])
        [.own (.command "oper" 0 (some ['9'])), .own (.command "oper" 1 (some ['1']))]) ↔
    Run.Along netStep AtFive (init 900 [⟨"*@spam.example".toList, "spam", "oper", 0⟩] [])
      [.own (.command "oper" 0 (some ['9'])), .own (.command "oper" 1 (some ['1']))]) :=
  ⟨by decide, rejected_noop_iff 900 (by decide) [] _⟩

/-- `DEFCON 1` and then `DEFCON 9`: the command fails, the level is 5, the
timer is pending, and everyone is still ignored. -/
theorem ignore_left_behind : ∃ s s',
    netStep (init 900 [] []) (.own (.command "oper" 0 (some ['1']))) = some s ∧
    netStep s (.own (.command "oper" 1 (some ['9']))) = some s' ∧ BadLevel ['9'] ∧
    s.level = 1 ∧ s'.level = 5 ∧ s'.svsIgnoreList.any ignoresEveryone = true ∧
    ¬ Rejected s s' ∧ ¬ IgnoreOk s' := by
  refine ⟨_, _, rfl, rfl, by decide, by decide, by decide, by decide, fun h => ?_, fun h => ?_⟩
  · exact absurd h.level (by decide)
  · exact absurd (h.mp (by decide)) (by decide)

end Defcon
end AthemeContrib
