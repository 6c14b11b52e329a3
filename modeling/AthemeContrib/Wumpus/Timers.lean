/-
# wumpus: the timers of a phase

The module keeps two timer pointers. `Phase` is the table of what they and
the event loop hold while no game is on, while one is starting and while one
is running; `TimersOk` says that the state is in the phase its flags say, and
that no timer has been destroyed twice.

Three ways out of a phase leave it. When `start_game` gives up, for lack of
players or of rooms, `start_game_timer` keeps naming a timer that is gone.
And a shot that wounds the wumpus installs a new timer although the wumpus
may just have ended the game (`Lingers`).

Key definitions: `Phase`, `TimersOk`, `Aborts`, `Lingers`.
Key theorems: `Turn.timersOk_iff`, `timers_ok_iff`.
-/
import AthemeContrib.Wumpus.Represented

namespace AthemeContrib
namespace Wumpus

variable {s : State} {rs : List ℕ}

/-- The flags `running` and `starting`, the pointers `move_timer` and
`start_game_timer`, and the pending timers that go with them. -/
inductive Phase : Bool → Bool → Option ℕ → Option ℕ → List (Timer Callback) → Prop
  | idle : Phase false false none none []
  | starting (t : Timer Callback) (hf : t.func = .startGame) (ho : t.once = true) :
      Phase false true none (some t.id) [t]
  | running (t : Timer Callback) (hf : t.func = .moveWumpus) (ho : t.once = false) :
      Phase true false (some t.id) none [t]

/-- The pointers name the timers of the phase, an unloaded module has none,
and none was destroyed that was gone. -/
structure TimersOk (s : State) : Prop where
  phase : s.loaded = true → Phase s.running s.starting s.moveTimer s.startGameTimer s.loop.timers
  unloaded : s.loaded = false → s.loop.timers = []
  once : s.loop.misused = []

theorem TimersOk.congr {s' : State} (h : TimersOk s) (hl : s'.loaded = s.loaded) (hr : s'.running = s.running)
    (hs : s'.starting = s.starting) (hm : s'.moveTimer = s.moveTimer)
    (hg : s'.startGameTimer = s.startGameTimer) (hlp : s'.loop = s.loop) : TimersOk s' := by
  constructor
  · rw [hl, hr, hs, hm, hg, hlp]
    exact h.phase
  · rw [hl, hlp]
    exact h.unloaded
  · rw [hlp]
    exact h.once

theorem TimersOk.of_frame {s' : State} (h : TimersOk s) (hf : Frame s s') : TimersOk s' :=
  h.congr hf.loaded hf.running hf.starting hf.moveTimer hf.startGameTimer hf.loop

theorem timersOk_of_phase (hl : s.loaded = true)
    (hp : Phase s.running s.starting s.moveTimer s.startGameTimer s.loop.timers) (ho : s.loop.misused = []) :
    TimersOk s :=
  ⟨fun _ => hp, fun h => absurd (hl.symm.trans h) (by decide), ho⟩

/-! ### The phases -/

section
variable {r g : Bool} {m st : Option ℕ} {ts : List (Timer Callback)} (h : Phase r g m st ts)
include h

theorem Phase.of_idle (hr : r = false) (hg : g = false) : m = none ∧ st = none ∧ ts = [] := by
  rcases h with _ | ⟨t, hf, ho⟩ | ⟨t, hf, ho⟩
  · exact ⟨rfl, rfl, rfl⟩
  · exact absurd hg (by decide)
  · exact absurd hr (by decide)

theorem Phase.of_starting (hg : g = true) :
    ∃ t, t.func = .startGame ∧ t.once = true ∧ m = none ∧ st = some t.id ∧ ts = [t] := by
  rcases h with _ | ⟨t, hf, ho⟩ | ⟨t, hf, ho⟩
  · exact absurd hg (by decide)
  · exact ⟨t, hf, ho, rfl, rfl, rfl⟩
  · exact absurd hg (by decide)

theorem Phase.of_running (hr : r = true) :
    ∃ t, t.func = .moveWumpus ∧ t.once = false ∧ m = some t.id ∧ st = none ∧ ts = [t] := by
  rcases h with _ | ⟨t, hf, ho⟩ | ⟨t, hf, ho⟩
  · exact absurd hr (by decide)
  · exact absurd hr (by decide)
  · exact ⟨t, hf, ho, rfl, rfl, rfl⟩

end

/-- A pending timer is destroyed, and nothing else happens. -/
theorem timers_destroyed {l : EventLoop Callback} {t : Timer Callback} (h : l.timers = [t]) :
    (l.timerDestroy (some t.id)).timers = [] ∧ (l.timerDestroy (some t.id)).misused = l.misused := by
  have hlive : l.Live t.id := EventLoop.live_of_mem (by rw [h]; simp)
  constructor
  · rw [EventLoop.timers_timerDestroy, h]
    simp
  · refine EventLoop.misused_timerDestroy_of_live fun id hid => ?_
    rw [← Option.some.inj hid]
    exact hlive

/-- A game is on, and no other is about to start. -/
structure Playing (s : State) : Prop where
  loaded : s.loaded = true
  on : s.running = true
  notStarting : s.starting = false

theorem Inv.playing (h : Inv s) (hl : s.loaded = true) (hr : s.running = true) : Playing s :=
  ⟨hl, hr, h.not_starting hr⟩

theorem Playing.of_frame {s' : State} (h : Playing s) (hf : Frame s s') : Playing s' :=
  ⟨hf.loaded.trans h.loaded, hf.running.trans h.on, hf.starting.trans h.notStarting⟩

theorem Playing.hunted (h : Playing s) (c : Contents) (d n : ℕ) : Playing (s.hunted c d n) :=
  Playing.of_frame (s := { s with wumpus := n }) ⟨h.loaded, h.on, h.notStarting⟩ (frame_hunted s c d n)

/-- A game that is over. -/
theorem TimersOk.ended (h : TimersOk s) (hp : Playing s) : TimersOk s.ended := by
  obtain ⟨t, -, -, hm, hg, hts⟩ := (h.phase hp.loaded).of_running hp.on
  obtain ⟨hnil, hmis⟩ := timers_destroyed hts
  refine timersOk_of_phase hp.loaded ?_ ?_
  · show Phase false s.starting none s.startGameTimer (s.loop.timerDestroy s.moveTimer).timers
    rw [hm, hnil, hp.notStarting, hg]
    exact .idle
  · show (s.loop.timerDestroy s.moveTimer).misused = []
    rw [hm, hmis]
    exact h.once

theorem TimersOk.settled (h : TimersOk s) (hp : Playing s) : TimersOk s.settled := by
  unfold State.settled
  split
  · exact h.ended hp
  · exact h

theorem TimersOk.retimed (h : TimersOk s) (hp : Playing s) : TimersOk s.retimed := by
  obtain ⟨t, -, -, hm, hg, hts⟩ := (h.phase hp.loaded).of_running hp.on
  obtain ⟨hnil, hmis⟩ := timers_destroyed hts
  refine timersOk_of_phase hp.loaded ?_ ?_
  · show Phase s.running s.starting (some (s.loop.timerDestroy s.moveTimer).next) s.startGameTimer
      ((s.loop.timerDestroy s.moveTimer).timers ++
        [⟨(s.loop.timerDestroy s.moveTimer).next, .moveWumpus, false, s.speed⟩])
    rw [hm, hnil, hp.on, hp.notStarting, hg]
    exact .running ⟨_, .moveWumpus, false, s.speed⟩ rfl rfl
  · show (s.loop.timerDestroy s.moveTimer).misused = []
    rw [hm, hmis]
    exact h.once

/-- A timer that is installed when the game is over belongs to no phase. -/
theorem not_timersOk_retimed (hl : s.loaded = true) (hr : s.running = false) : ¬ TimersOk s.retimed := by
  intro h
  have hp := h.phase hl
  have hlast : (⟨(s.loop.timerDestroy s.moveTimer).next, .moveWumpus, false, s.speed⟩ : Timer Callback) ∈
      s.retimed.loop.timers := List.mem_append_right _ (by simp)
  cases hs : s.starting with
  | false =>
    obtain ⟨-, -, hnil⟩ := hp.of_idle hr hs
    rw [hnil] at hlast
    cases hlast
  | true =>
    obtain ⟨t, hf, -, -, -, hts⟩ := hp.of_starting hs
    rw [hts, List.mem_singleton] at hlast
    rw [← hlast] at hf
    cases hf

/-- A timer that fires has returned. -/
theorem TimersOk.ran (h : TimersOk s) {t : Timer Callback} (ho : t.once = false) : TimersOk (s.ran t) := by
  have hloop : s.loop.ran t = s.loop := by
    unfold EventLoop.ran
    rw [ho]
    rfl
  exact h.congr rfl rfl rfl rfl rfl hloop

/-- What is pending when `start_game` has returned. -/
theorem timers_ran_start {l : EventLoop Callback} {t : Timer Callback} (ho : t.once = true)
    {ts : List (Timer Callback)} (hts : l.timers = t :: ts) (hne : ∀ t' ∈ ts, t'.id ≠ t.id) :
    (l.ran t).timers = ts := by
  rw [EventLoop.timers_ran, hts, List.filter_cons_of_neg (by simp [ho]), List.filter_eq_self]
  intro t' ht'
  simpa [ho] using hne t' ht'

/-- `start_game` has given up: its timer is gone, and still named. -/
theorem not_timersOk_of_stale (hl : s.loaded = true) (hr : s.running = false) (hs : s.starting = false)
    (hg : s.startGameTimer ≠ none) : ¬ TimersOk s :=
  fun h => hg ((h.phase hl).of_idle hr hs).2.1

/-- The module is unloaded. -/
theorem TimersOk.unloaded_of (h : TimersOk s) (hl : s.loaded = true) (hr : s.running = false) :
    TimersOk s.unloaded := by
  have hoff : s.unloaded.loaded = false := rfl
  suffices hh : s.unloaded.loop.timers = [] ∧ s.unloaded.loop.misused = [] from
    ⟨fun hon => absurd (hon.symm.trans hoff) (by decide), fun _ => hh.1, hh.2⟩
  show ((s.loop.timerDestroy s.moveTimer).timerDestroy s.startGameTimer).timers = [] ∧
    ((s.loop.timerDestroy s.moveTimer).timerDestroy s.startGameTimer).misused = []
  cases hs : s.starting with
  | false =>
    obtain ⟨hm, hg, hts⟩ := (h.phase hl).of_idle hr hs
    rw [hm, hg]
    exact ⟨hts, h.once⟩
  | true =>
    obtain ⟨t, -, -, hm, hg, hts⟩ := (h.phase hl).of_starting hs
    obtain ⟨hnil, hmis⟩ := timers_destroyed hts
    rw [hm, hg, EventLoop.timerDestroy_none]
    exact ⟨hnil, hmis.trans h.once⟩

/-! ### One turn -/

/-- A game that is about to start does not: the players are too few, or the
rooms. -/
def Aborts (s : State) : Act → Prop
  | .fire id => (∃ t, s.loop.find id = some t ∧ t.func = .startGame) ∧ (s.players.length < 2 ∨ s.wanted < 10)
  | _ => False

/-- A shot wounds the wumpus, which then moves, and fewer than two players
are left. -/
def Lingers (s : State) (rs : List ℕ) : Act → Prop
  | .shoot u id => 5 < s.wumpHp ∧ rs.headD 0 % 3 < 2 ∧ ∃ d n, Prowls s rs d n (.shoot u id) ∧
    (s.away n).length < 2
  | _ => False

/-- The act leaves a phase only for another. -/
def Timely (s : State) (rs : List ℕ) (a : Act) : Prop := ¬ Aborts s a ∧ ¬ Lingers s rs a

theorem TimersOk.hunted (h : TimersOk s) (c : Contents) (d n : ℕ) : TimersOk (s.hunted c d n) :=
  TimersOk.of_frame (s := { s with wumpus := n }) (h.congr rfl rfl rfl rfl rfl rfl) (frame_hunted s c d n)

theorem TimersOk.aimed (h : TimersOk s) (p : Player) : TimersOk (s.aimed p) := h.of_frame ⟨_, _, rfl⟩

theorem TimersOk.armed (h : TimersOk s) (hl : s.loaded = true) (hb : ¬ (s.running = true ∨ s.starting = true))
    (n : ℕ) : TimersOk (s.armed n) := by
  rw [not_or, Bool.not_eq_true, Bool.not_eq_true] at hb
  obtain ⟨hm, -, hts⟩ := (h.phase hl).of_idle hb.1 hb.2
  refine timersOk_of_phase hl ?_ h.once
  show Phase s.running true s.moveTimer (some s.loop.next)
    (s.loop.timers ++ [⟨s.loop.next, .startGame, true, 60⟩])
  rw [hb.1, hm, hts]
  exact .starting ⟨s.loop.next, .startGame, true, 60⟩ rfl rfl

/-- What the timer that fires is, while a game is starting. -/
theorem TimersOk.fires (h : TimersOk s) (hI : Inv s) (hl : s.loaded = true) {id : ℕ} {t : Timer Callback}
    (ht : s.loop.find id = some t) (hf : t.func = .startGame) :
    t.once = true ∧ s.running = false ∧ s.moveTimer = none ∧ s.startGameTimer = some t.id ∧
      s.loop.timers = [t] := by
  obtain ⟨hmem, hs, hr⟩ := hI.fires ht hf
  obtain ⟨t', -, ho, hm, hg, hts⟩ := (h.phase hl).of_starting hs
  rw [hts, List.mem_singleton] at hmem
  rw [hmem]
  exact ⟨ho, hr, hm, hg, hts⟩

/-- A game has started. -/
theorem TimersOk.started (h : TimersOk s) (hI : Inv s) (hl : s.loaded = true) {id : ℕ} {t : Timer Callback}
    (ht : s.loop.find id = some t) (hf : t.func = .startGame) {s' : State}
    (hst : Started { s with starting := false, wantsize := s.wanted } s' rs) : TimersOk (s'.ran t) := by
  obtain ⟨ho, -, -, -, hts⟩ := h.fires hI hl ht hf
  have hid : t.id ≠ s.loop.next := by
    have := s.loop.fresh t (by rw [hts]; simp)
    omega
  refine timersOk_of_phase (hst.loaded.trans hl) ?_ ?_
  · show Phase s'.running s'.starting s'.moveTimer s'.startGameTimer (s'.loop.ran t).timers
    rw [hst.on, hst.starting, hst.moveTimer, hst.startGameTimer, hst.loop]
    have htimers : (s.loop.timerAdd .moveWumpus 60).timers =
        [t] ++ [⟨s.loop.next, .moveWumpus, false, 60⟩] := by
      rw [← hts]
      rfl
    have hgone : ((s.loop.timerAdd .moveWumpus 60).ran t).timers =
        [⟨s.loop.next, .moveWumpus, false, 60⟩] := by
      refine timers_ran_start ho htimers fun t' ht' => ?_
      rw [List.mem_singleton.mp ht']
      exact hid.symm
    show Phase true false (some s.loop.next) none ((s.loop.timerAdd .moveWumpus 60).ran t).timers
    rw [hgone]
    exact .running ⟨s.loop.next, .moveWumpus, false, 60⟩ rfl rfl
  · show (s'.loop.ran t).misused = []
    rw [EventLoop.misused_ran, hst.loop]
    exact h.once

theorem not_lingers {u : ℕ} {id : Option CStr} (h : ∀ d n, ¬ Prowls s rs d n (.shoot u id)) :
    ¬ Lingers s rs (.shoot u id) := fun ⟨_, _, d, n, hpr, _⟩ => h d n hpr

theorem lingers_iff {u d n : ℕ} {id : Option CStr} (hp : 5 < s.wumpHp) (hit : rs.headD 0 % 3 < 2)
    (hpr : Prowls s rs d n (.shoot u id)) : Lingers s rs (.shoot u id) ↔ (s.away n).length < 2 := by
  constructor
  · rintro ⟨-, -, d', n', hpr', hfew⟩
    obtain ⟨-, rfl⟩ := hpr.unique hpr'
    exact hfew
  · exact fun hfew => ⟨hp, hit, d, n, hpr, hfew⟩

/-- After a shot that wounds the wumpus the new timer is in order exactly if
the wumpus leaves two players. -/
theorem TimersOk.wound_iff (h : TimersOk s) (hI : Inv s) (hl : s.loaded = true) {u : ℕ} {id : Option CStr}
    {p : Player} {k : ℕ} {r : Room} (hs : Shooter s u id p k r) (hp : 5 < s.wumpHp)
    (hit : rs.headD 0 % 3 < 2) {c : Contents} {d n : ℕ} (hpr : Prowls s rs d n (.shoot u id)) :
    Timely s rs (.shoot u id) ↔ TimersOk ((s.aimed p).wounded.hunted c d n).settled.retimed := by
  have hlen : ((s.aimed p).wounded.hunted c d n).players.length = (s.away n).length := by
    have hP : PlayersOk (s.aimed p).wounded := ((hI.on hs.on).aimed p).players.congr rfl rfl rfl
    exact (length_hunted hP c d n).trans (length_away_aimed p n)
  have hok : TimersOk ((s.aimed p).wounded.hunted c d n) := by
    have hw : TimersOk (s.aimed p).wounded := (h.aimed p).congr rfl rfl rfl rfl rfl rfl
    exact hw.hunted c d n
  have hon : Playing ((s.aimed p).wounded.hunted c d n) := by
    have hw : Playing (s.aimed p).wounded := ⟨hl, hs.on, hI.not_starting hs.on⟩
    exact hw.hunted c d n
  have hlinger := lingers_iff hp hit hpr
  unfold State.settled
  rw [hlen]
  by_cases hfew : (s.away n).length < 2
  · rw [if_pos hfew]
    exact iff_of_false (fun ht => ht.2 (hlinger.mpr hfew)) (not_timersOk_retimed hon.loaded rfl)
  · rw [if_neg hfew]
    exact iff_of_true ⟨not_false, fun hc => hfew (hlinger.mp hc)⟩ (hok.retimed hon)

/-- **A turn keeps the timers in order exactly if the act is timely.** -/
theorem Turn.timersOk_iff {a : Act} {s' : State} {v : List Output} (hT : Turn s rs a s' v) (hI : Inv s)
    (h : TimersOk s) (hl : s.loaded = true) : Timely s rs a ↔ TimersOk s' := by
  have quiet : ¬ Aborts s a → ¬ Lingers s rs a → TimersOk s' → (Timely s rs a ↔ TimersOk s') :=
    fun h1 h2 h3 => iff_of_true ⟨h1, h2⟩ h3
  cases hT with
  | startBusy _ => exact quiet not_false not_false h
  | start n hb => exact quiet not_false not_false (h.armed hl hb n)
  | joinNo => exact quiet not_false not_false h
  | join hs hr hp => exact quiet not_false not_false (h.congr rfl rfl rfl rfl rfl rfl)
  | look => exact quiet not_false not_false h
  | who => exact quiet not_false not_false h
  | moveNo _ => exact quiet not_false not_false h
  | @moveLost u id p k hm hd =>
    have hf := frame_lost s p k rs
    exact quiet not_false not_false ((h.of_frame hf).settled ((hI.playing hl hm.on).of_frame hf))
  | @move u id p k hm hd => exact quiet not_false not_false (h.of_frame (frame_gone s p k rs))
  | shootNo hno =>
    exact quiet not_false (not_lingers fun _ _ => not_prowls_of_no_shot hno) h
  | @shootPlayer u id p k r t as hs hr ht hlt =>
    have hplayer : r.players ≠ [] := by
      rw [hr]
      exact List.cons_ne_nil _ _
    refine quiet not_false (not_lingers fun _ _ => hs.not_prowls (Or.inl hplayer)) ?_
    exact h.of_frame (Frame.trans ⟨_, _, rfl⟩ (frame_struck (s.aimed p) t _))
  | shootNothing hs hr hw =>
    exact quiet not_false (not_lingers fun _ _ => hs.not_prowls (Or.inr hw)) (h.aimed _)
  | @shootKill u id p k r hs hr hw hp hp5 hit =>
    refine quiet not_false ?_ ((h.aimed p).ended ((hI.playing hl hs.on).of_frame ⟨_, _, rfl⟩))
    rintro ⟨hp5', -⟩
    omega
  | @shootWound u id p k r c d n hs hr hw hp hit hst =>
    have hpr : Prowls s rs d n (.shoot u id) := ⟨⟨p, k, r, hs, hr, hw⟩, by omega, c, hst⟩
    exact h.wound_iff hI hl hs hp hit hpr
  | @shootMiss u id p k r c d n hs hr hw hm hst =>
    have hp : Playing (s.aimed p) := (hI.playing hl hs.on).of_frame ⟨_, _, rfl⟩
    refine quiet not_false ?_ (((h.aimed p).hunted c d n).settled (hp.hunted c d n))
    rintro ⟨hp, hit, -⟩
    exact hm ⟨by omega, hit⟩
  | resignNo _ => exact quiet not_false not_false h
  | resign hp hr => exact quiet not_false not_false (h.of_frame (frame_resigned s _))
  | resetNo _ => exact quiet not_false not_false h
  | reset hr =>
    have he := h.ended (hI.playing hl hr)
    exact quiet not_false not_false (he.congr rfl rfl (hI.not_starting hr).symm rfl rfl rfl)
  | quitNo _ => exact quiet not_false not_false h
  | quit hp => exact quiet not_false not_false (h.of_frame (frame_resigned s _))
  | nick f => exact quiet not_false not_false (h.congr rfl rfl rfl rfl rfl rfl)
  | @fireMove id t c d n ht hf hr hst =>
    obtain ⟨t', -, ho, -, -, hts⟩ := (h.phase hl).of_running hr
    have htt : t = t' := by
      have := (EventLoop.mem_of_find ht).1
      rwa [hts, List.mem_singleton] at this
    have hsettled := (h.hunted c d n).settled ((hI.playing hl hr).hunted c d n)
    refine quiet (fun hab => ?_) not_false (hsettled.ran (htt ▸ ho))
    exact absurd (hf.symm.trans ((EventLoop.find_func_iff ht).mp hab.1)) (by decide)
  | @fireIdle id t ht hf hr =>
    -- the timer of a game that is off is not pending
    have hmem := (EventLoop.mem_of_find ht).1
    cases hs : s.starting with
    | false =>
      rw [((h.phase hl).of_idle hr hs).2.2] at hmem
      cases hmem
    | true =>
      obtain ⟨t', hf', -, -, -, hts⟩ := (h.phase hl).of_starting hs
      rw [hts, List.mem_singleton] at hmem
      rw [hmem, hf'] at hf
      cases hf
  | @fireFew id t ht hf hp =>
    obtain ⟨ho, hr, hm, hg, hts⟩ := h.fires hI hl ht hf
    refine iff_of_false (fun hti => hti.1 ⟨⟨t, ht, hf⟩, Or.inl hp⟩) (not_timersOk_of_stale hl hr rfl ?_)
    show s.startGameTimer ≠ none
    rw [hg]
    exact Option.some_ne_none _
  | @fireSmall id t ht hf hp hs =>
    obtain ⟨ho, hr, hm, hg, hts⟩ := h.fires hI hl ht hf
    refine iff_of_false (fun hti => hti.1 ⟨⟨t, ht, hf⟩, Or.inr hs⟩) (not_timersOk_of_stale hl rfl rfl ?_)
    show s.startGameTimer ≠ none
    rw [hg]
    exact Option.some_ne_none _
  | @fireStart id t s' ht hf hp hs hm hst =>
    refine quiet ?_ not_false (h.started hI hl ht hf hst)
    rintro ⟨-, hfew | hsmall⟩
    · omega
    · omega
  | unload =>
    apply quiet not_false not_false
    split
    · rename_i hr
      exact (h.ended (hI.playing hl hr)).unloaded_of hl rfl
    · rename_i hr
      exact h.unloaded_of hl (by simpa using hr)

/-! ### Every run -/

theorem init_timersOk : TimersOk init.st := timersOk_of_phase rfl .idle rfl

/-- **The timers match the phase as long as every act is timely.** They do in
every state of a run exactly if in it no start is given up and no wounded
wumpus ends the game. -/
theorem timers_ok_iff (es : List Event) : Run.Always step (fun w => TimersOk w.st) init es ↔
    Run.Along step (fun w e _ => Timely w.st e.draws e.act) init es := by
  exact always_iff_of_turn init_timersOk (fun hT hI hl h => hT.timersOk_iff hI h hl) es

/-- A game that nobody joins: `start_game_timer` names a timer that is gone. -/
theorem start_game_timer_dangles : ∃ w,
    Run.exec step init [⟨.start 0 none, []⟩, ⟨.fire 0, []⟩] = some w ∧
    w.st.starting = false ∧ w.st.startGameTimer = some 0 ∧ w.st.loop.timers = [] ∧ ¬ TimersOk w.st :=
  ⟨_, rfl, rfl, rfl, rfl, not_timersOk_of_stale rfl rfl rfl (by decide)⟩

end Wumpus
end AthemeContrib
