/-
# wumpus: what an event does

`Turn s rs a s' v` lists what the act `a` can make of the state `s` with the
numbers `rs`: one case for each way through the commands, the timers and the
hook, with the conditions under which it is taken. `v` is what
`check_last_person_alive` sends in it. `turn_of_step`: under the invariant
`Inv` an event never faults, and what it does is a turn. The properties of
the game are then shown turn by turn.

Key definitions: `Inv`, `Mover`, `Shooter`, `Prowls`, `Turn`.
Key theorems: `turn_of_step`.
-/
import AthemeContrib.Wumpus.Build

namespace AthemeContrib
namespace Wumpus

open Prog

variable {s : State} {o : List Output} {rs : List ℕ}

/-- The game is off, or on in a maze that everybody is in; a pending
`start_game` timer is the only one, and belongs to a game that is starting. -/
structure Inv (s : State) : Prop where
  phase : ¬ (s.running = true ∧ s.starting = true)
  idle : s.running = false → Idle s
  on : s.running = true → Running s
  oneStart : ∀ t ∈ s.loop.timers, t.func = .startGame →
    t.once = true ∧ s.starting = true ∧ ∀ t' ∈ s.loop.timers, t'.func = .startGame → t' = t
  whole : s.faulted = false

theorem Inv.players (h : Inv s) : PlayersOk s := by
  cases hr : s.running with
  | false => exact (h.idle hr).players
  | true => exact (h.on hr).players

theorem Inv.endable (h : Inv s) : Endable s := by
  cases hr : s.running with
  | false => exact (h.idle hr).endable
  | true => exact (h.on hr).maze.endable

theorem Inv.not_starting (h : Inv s) (hr : s.running = true) : s.starting = false := by
  cases hs : s.starting with
  | false => rfl
  | true => exact absurd ⟨hr, hs⟩ h.phase

/-- A game that is about to start is not on. -/
theorem Inv.fires (h : Inv s) {id : ℕ} {t : Timer Callback} (ht : s.loop.find id = some t)
    (hf : t.func = .startGame) : t ∈ s.loop.timers ∧ s.starting = true ∧ s.running = false := by
  have hmem := (EventLoop.mem_of_find ht).1
  have hs := (h.oneStart t hmem hf).2.1
  refine ⟨hmem, hs, ?_⟩
  cases hr : s.running with
  | false => rfl
  | true => exact absurd ⟨hr, hs⟩ h.phase

/-! ### Who does something -/

/-- `MOVE id` takes the player `p` of the user `u` towards the room `k`. -/
structure Mover (s : State) (u : ℕ) (id : Option CStr) (p : Player) (k : ℕ) : Prop where
  player : s.findPlayer u = some p
  on : s.running = true
  id : ∃ t, id = some t ∧ CStr.atoi t = k
  adjacent : s.Adjacent p k
  lt : k < s.mazesize

/-- With `SHOOT id` the player `p` of the user `u` shoots into the room `k`,
which is `r`. -/
structure Shooter (s : State) (u : ℕ) (id : Option CStr) (p : Player) (k : ℕ) (r : Room) : Prop where
  player : s.findPlayer u = some p
  on : s.running = true
  id : ∃ t, id = some t ∧ CanShoot s p (CStr.atoi t) k r

theorem Mover.unique {u : ℕ} {id : Option CStr} {p p' : Player} {k k' : ℕ} (h : Mover s u id p k)
    (h' : Mover s u id p' k') : p = p' ∧ k = k' := by
  obtain ⟨t, ht, hk⟩ := h.id
  obtain ⟨t', ht', hk'⟩ := h'.id
  rw [ht, Option.some.injEq] at ht'
  rw [← ht', hk] at hk'
  exact ⟨Option.some.inj (h.player.symm.trans h'.player), Int.natCast_inj.mp hk'⟩

theorem Shooter.unique {u : ℕ} {id : Option CStr} {p p' : Player} {k k' : ℕ} {r r' : Room}
    (h : Shooter s u id p k r) (h' : Shooter s u id p' k' r') : p = p' ∧ k = k' ∧ r = r' := by
  obtain ⟨t, ht, hc⟩ := h.id
  obtain ⟨t', ht', hc'⟩ := h'.id
  rw [ht, Option.some.injEq] at ht'
  rw [← ht'] at hc'
  have hk : k = k' := Int.natCast_inj.mp (hc.id.symm.trans hc'.id)
  have hr := hc'.room
  rw [← hk, hc.room, Option.some.injEq] at hr
  exact ⟨Option.some.inj (h.player.symm.trans h'.player), hk, hr⟩

/-- With the numbers `rs` the act `a` makes the wumpus move to the room `n`,
and what was in its room reappear in the room `d`: its timer fires, or a shot
at it does not kill it. -/
def Prowls (s : State) (rs : List ℕ) (d n : ℕ) : Act → Prop
  | .fire id => s.running = true ∧ (∃ t, s.loop.find id = some t ∧ t.func = .moveWumpus) ∧
    ∃ c, Stride s rs c d n
  | .shoot u id => (∃ p k r, Shooter s u id p k r ∧ r.players = [] ∧ r.contents = .wumpus) ∧
    ¬ (0 < s.wumpHp ∧ s.wumpHp ≤ 5 ∧ rs.headD 0 % 3 < 2) ∧ ∃ c, Stride s rs.tail c d n
  | _ => False

theorem Prowls.of_shooter {u : ℕ} {id : Option CStr} {p : Player} {k d n : ℕ} {r : Room}
    (h : Prowls s rs d n (.shoot u id)) (hs : Shooter s u id p k r) : r.players = [] ∧ r.contents = .wumpus ∧
      ¬ (0 < s.wumpHp ∧ s.wumpHp ≤ 5 ∧ rs.headD 0 % 3 < 2) ∧ ∃ c, Stride s rs.tail c d n := by
  obtain ⟨⟨p', k', r', hs', hr, hw⟩, hkill, hst⟩ := h
  obtain ⟨-, -, rfl⟩ := hs.unique hs'
  exact ⟨hr, hw, hkill, hst⟩

theorem Prowls.of_find {id d n : ℕ} {t : Timer Callback} (h : Prowls s rs d n (.fire id))
    (ht : s.loop.find id = some t) : t.func = .moveWumpus ∧ s.running = true ∧ ∃ c, Stride s rs c d n := by
  obtain ⟨hr, hex, hst⟩ := h
  exact ⟨(EventLoop.find_func_iff ht).mp hex, hr, hst⟩

/-- Without a shot the wumpus is not shot at. -/
theorem not_prowls_of_no_shot {u d n : ℕ} {id : Option CStr} (hno : ∀ p k r, ¬ Shooter s u id p k r) :
    ¬ Prowls s rs d n (.shoot u id) := by
  rintro ⟨⟨p, k, r, hs, -, -⟩, -⟩
  exact hno p k r hs

/-- A shot into a room with a player, or without the wumpus, does not move
it. -/
theorem Shooter.not_prowls {u : ℕ} {id : Option CStr} {p : Player} {k d n : ℕ} {r : Room}
    (h : Shooter s u id p k r) (hr : r.players ≠ [] ∨ r.contents ≠ .wumpus) :
    ¬ Prowls s rs d n (.shoot u id) := by
  intro hpr
  obtain ⟨hnil, hw, -⟩ := hpr.of_shooter h
  rcases hr with hr | hr
  · exact hr hnil
  · exact hr hw

/-- The timer of a game that starts does not move the wumpus. -/
theorem not_prowls_of_start {id d n : ℕ} {t : Timer Callback} (ht : s.loop.find id = some t)
    (hf : t.func = .startGame) : ¬ Prowls s rs d n (.fire id) := by
  intro hpr
  have hmove := (hpr.of_find ht).1
  rw [hf] at hmove
  cases hmove

theorem Prowls.unique {a : Act} {d d' n n' : ℕ} (h : Prowls s rs d n a) (h' : Prowls s rs d' n' a) :
    d = d' ∧ n = n' := by
  cases a with
  | fire id =>
    obtain ⟨-, -, c, hst⟩ := h
    obtain ⟨-, -, c', hst'⟩ := h'
    exact (hst.unique hst').2
  | shoot u id =>
    obtain ⟨-, -, c, hst⟩ := h
    obtain ⟨-, -, c', hst'⟩ := h'
    exact (hst.unique hst').2
  | _ => exact h.elim

/-- The state after `START`. -/
def State.armed (s : State) (size : ℕ) : State := { s with
  starting := true, wantsize := size
  loop := s.loop.timerAddOnce .startGame 60, startGameTimer := some s.loop.next }

/-- The state after `JOIN`. -/
def State.joined (s : State) (u : ℕ) : State :=
  { s with players := s.players ++ [newPlayer s.fresh u], fresh := s.fresh + 1 }

/-- The state after a timer's callback. -/
def State.ran (s : State) (t : Timer Callback) : State := { s with loop := s.loop.ran t }

/-- The state after `mod_deinit`, the game being over. -/
def State.unloaded (s : State) : State := { s with
  loop := (s.loop.timerDestroy s.moveTimer).timerDestroy s.startGameTimer, loaded := false }

/-- What the act `a` can make of `s`. -/
inductive Turn (s : State) (rs : List ℕ) : Act → State → List Output → Prop
  | startBusy {u size} (h : s.running = true ∨ s.starting = true) : Turn s rs (.start u size) s []
  | start {u size} (n : ℕ) (h : ¬ (s.running = true ∨ s.starting = true)) :
      Turn s rs (.start u size) (s.armed n) []
  | joinNo {u} : Turn s rs (.join u) s []
  | join {u} (hs : s.starting = true) (hr : s.running = false) (hp : s.findPlayer u = none) :
      Turn s rs (.join u) (s.joined u) []
  | look {u} : Turn s rs (.look u) s []
  | who {u} : Turn s rs (.who u) s []
  | moveNo {u id} (h : ∀ p k, ¬ Mover s u id p k) : Turn s rs (.move u id) s []
  | moveLost {u id p k} (h : Mover s u id p k) (hd : (s.swept k rs).Deadly (s.landing k rs)) :
      Turn s rs (.move u id) ((s.swept k rs).resigned p).settled ((s.swept k rs).resigned p).verdict
  | move {u id p k} (h : Mover s u id p k) (hd : ¬ (s.swept k rs).Deadly (s.landing k rs)) :
      Turn s rs (.move u id)
        (((s.swept k rs).foraged p (s.landing k rs) (s.spot rs)).relocated p (s.landing k rs)) []
  | shootNo {u id} (h : ∀ p k r, ¬ Shooter s u id p k r) : Turn s rs (.shoot u id) s []
  | shootPlayer {u id p k r t as} (h : Shooter s u id p k r) (hr : r.players = t.addr :: as)
      (ht : t ∈ s.players) (hl : t.location = some k) :
      Turn s rs (.shoot u id) ((s.aimed p).struck t (rs.headD 0 % 3)) []
  | shootNothing {u id p k r} (h : Shooter s u id p k r) (hr : r.players = []) (hw : r.contents ≠ .wumpus) :
      Turn s rs (.shoot u id) (s.aimed p) []
  | shootKill {u id p k r} (h : Shooter s u id p k r) (hr : r.players = []) (hw : r.contents = .wumpus)
      (hp : 0 < s.wumpHp) (hp5 : s.wumpHp ≤ 5) (hit : rs.headD 0 % 3 < 2) :
      Turn s rs (.shoot u id) (s.aimed p).ended []
  | shootWound {u id p k r c d n} (h : Shooter s u id p k r) (hr : r.players = []) (hw : r.contents = .wumpus)
      (hp : 5 < s.wumpHp) (hit : rs.headD 0 % 3 < 2) (hst : Stride s rs.tail c d n) :
      Turn s rs (.shoot u id) ((s.aimed p).wounded.hunted c d n).settled.retimed
        ((s.aimed p).wounded.hunted c d n).verdict
  | shootMiss {u id p k r c d n} (h : Shooter s u id p k r) (hr : r.players = []) (hw : r.contents = .wumpus)
      (hm : ¬ (0 < s.wumpHp ∧ rs.headD 0 % 3 < 2)) (hst : Stride s rs.tail c d n) :
      Turn s rs (.shoot u id) ((s.aimed p).hunted c d n).settled ((s.aimed p).hunted c d n).verdict
  | resignNo {u} (h : ∀ p, s.findPlayer u = some p → s.running = false) : Turn s rs (.resign u) s []
  | resign {u p} (hp : s.findPlayer u = some p) (hr : s.running = true) :
      Turn s rs (.resign u) (s.resigned p) []
  | resetNo {u} (h : s.running = false) : Turn s rs (.reset u) s []
  | reset {u} (h : s.running = true) : Turn s rs (.reset u) { s.ended with starting := false } []
  | quitNo {u} (h : s.findPlayer u = none) : Turn s rs (.quit u) s []
  | quit {u p} (hp : s.findPlayer u = some p) : Turn s rs (.quit u) (s.resigned p) []
  | nick {u nick} (f : ℕ → String) : Turn s rs (.nick u nick) { s with nick := f } []
  | fireMove {id t c d n} (ht : s.loop.find id = some t) (hf : t.func = .moveWumpus) (hr : s.running = true)
      (hst : Stride s rs c d n) :
      Turn s rs (.fire id) ((s.hunted c d n).settled.ran t) (s.hunted c d n).verdict
  | fireIdle {id t} (ht : s.loop.find id = some t) (hf : t.func = .moveWumpus) (hr : s.running = false) :
      Turn s rs (.fire id) (({ s with loop := s.loop.timerDestroy s.moveTimer } : State).ran t) []
  | fireFew {id t} (ht : s.loop.find id = some t) (hf : t.func = .startGame) (hp : s.players.length < 2) :
      Turn s rs (.fire id) (({ s with starting := false } : State).ran t) []
  | fireSmall {id t} (ht : s.loop.find id = some t) (hf : t.func = .startGame) (hp : 2 ≤ s.players.length)
      (hs : s.wanted < 10) :
      Turn s rs (.fire id) (({ s with starting := false, wantsize := s.wanted } : State).ended.ran t) []
  | fireStart {id t s'} (ht : s.loop.find id = some t) (hf : t.func = .startGame) (hp : 2 ≤ s.players.length)
      (hs : 10 ≤ s.wanted) (hm : s'.mazesize = s.wanted)
      (h : Started { s with starting := false, wantsize := s.wanted } s' rs) :
      Turn s rs (.fire id) (s'.ran t) []
  | unload : Turn s rs .unload (if s.running = true then s.ended.unloaded else s.unloaded) []

/-- The program is done in a turn. -/
def Takes (s : State) (rs : List ℕ) (a : Act) (m : Prog World Unit) : Prop :=
  ∀ o, wp m (fun _ w _ => ∃ o' v, Turn s rs a w.st v ∧ w.out = o' ++ v) ⟨s, o⟩ rs

/-- A turn in which nobody has won or lost. -/
theorem turn_of {a : Act} {s' : State} (h : Turn s rs a s' []) (o' : List Output) :
    ∃ o'' v, Turn s rs a s' v ∧ o' = o'' ++ v := ⟨o', [], h, (List.append_nil o').symm⟩

theorem takes_start (u : ℕ) (size : Option CStr) : Takes s rs (.start u size) (cmdStart u size) := by
  intro o
  simp only [cmdStart, wp_bind, wp_getState]
  by_cases hb : s.running = true ∨ s.starting = true
  · rw [if_pos hb]
    exact wp_notice fun o' => turn_of (.startBusy hb) o'
  · rw [if_neg hb, wp_bind]
    exact wp_msg fun o' => turn_of (.start _ hb) o'

theorem takes_join (u : ℕ) : Takes s rs (.join u) (cmdJoin u) := by
  intro o
  simp only [cmdJoin, wp_bind, wp_getState]
  by_cases hb : ¬ s.starting = true ∨ s.running = true
  · rw [if_pos hb]
    exact wp_notice fun o' => turn_of .joinNo o'
  · rw [not_or, not_not, Bool.not_eq_true] at hb
    rw [if_neg (by simp [hb.1, hb.2]), wp_bind]
    simp only [createPlayer, wp_bind, wp_getState]
    cases hf : s.findPlayer u with
    | some p =>
      rw [Option.isSome_some, if_pos rfl, wp_bind]
      refine wp_notice fun o' => ?_
      rw [wp_pure]
      exact turn_of .joinNo o'
    | none =>
      rw [Option.isSome_none, if_neg (by simp), if_neg (by simp [hb.2]), wp_bind, wp_update, wp_pure]
      exact wp_when (fun _ => wp_msg fun o' => turn_of (.join hb.1 hb.2 hf) o')
        fun _ => turn_of (.join hb.1 hb.2 hf) o

theorem takes_who (u : ℕ) : Takes s rs (.who u) (cmdWho u) := by
  intro o
  simp only [cmdWho, wp_bind]
  refine wp_notice fun o => ?_
  rw [wp_getState]
  exact wp_forEach_says (fun p _ o R hR => wp_notice hR) fun o' => turn_of .who o'

section
variable (hI : Inv s)
include hI

theorem takes_look (u : ℕ) : Takes s rs (.look u) (cmdLook u) := by
  intro o
  simp only [cmdLook, wp_bind, wp_getState]
  cases hf : s.findPlayer u with
  | none => exact wp_notice fun o' => turn_of .look o'
  | some p =>
    simp only
    by_cases hr : s.running = true
    · have hR := hI.on hr
      have hp := (mem_of_findPlayer hf).1
      obtain ⟨i, r, hi, hir⟩ := hR.exists_room hp
      rw [if_pos hr]
      exact wp_lookPlayer hR.maze.linked (hR.players.player? hp) hi ⟨r, hir⟩ fun o' => turn_of .look o'
    · rw [if_neg hr]
      exact wp_notice fun o' => turn_of .look o'

theorem takes_move (u : ℕ) (id : Option CStr) : Takes s rs (.move u id) (cmdMove u id) := by
  intro o
  simp only [cmdMove, wp_bind, wp_getState]
  cases hf : s.findPlayer u with
  | none =>
    have hno : ∀ p k, ¬ Mover s u id p k := fun p k h => by
      rw [h.player] at hf
      cases hf
    exact wp_notice fun o' => turn_of (.moveNo hno) o'
  | some p =>
    cases id with
    | none =>
      have hno : ∀ p k, ¬ Mover s u none p k := fun p k h => by
        obtain ⟨t, ht, -⟩ := h.id
        cases ht
      exact wp_notice fun o' => turn_of (.moveNo hno) o'
    | some t =>
      simp only
      by_cases hr : s.running = true
      · rw [if_pos hr]
        have hp := (mem_of_findPlayer hf).1
        refine wp_movePlayer (hI.on hr) hp ?_ ?_ ?_
        · intro hadj o'
          have hno : ∀ q k, ¬ Mover s u (some t) q k := fun q k h => by
            obtain ⟨t', ht', hk⟩ := h.id
            have hq := h.player
            rw [hf, Option.some.injEq] at hq
            cases ht'
            rw [hq, hk] at hadj
            exact hadj h.adjacent
          exact turn_of (.moveNo hno) o'
        · intro k rs' o' hk hadj hlt hd
          rw [hk] at hadj
          exact ⟨o', _, .moveLost ⟨hf, hr, ⟨t, rfl, hk⟩, hadj, hlt⟩ hd, rfl⟩
        · intro k rs' o' hk hadj hlt hd
          rw [hk] at hadj
          exact turn_of (.move ⟨hf, hr, ⟨t, rfl, hk⟩, hadj, hlt⟩ hd) o'
      · rw [if_neg hr]
        exact wp_notice fun o' => turn_of (.moveNo fun p k h => hr h.on) o'

theorem takes_shoot (u : ℕ) (id : Option CStr) : Takes s rs (.shoot u id) (cmdShoot u id) := by
  intro o
  simp only [cmdShoot, wp_bind, wp_getState]
  cases hf : s.findPlayer u with
  | none =>
    have hno : ∀ p k r, ¬ Shooter s u id p k r := fun p k r h => by
      rw [h.player] at hf
      cases hf
    exact wp_notice fun o' => turn_of (.shootNo hno) o'
  | some p =>
    cases id with
    | none =>
      have hno : ∀ p k r, ¬ Shooter s u none p k r := fun p k r h => by
        obtain ⟨t, ht, -⟩ := h.id
        cases ht
      exact wp_notice fun o' => turn_of (.shootNo hno) o'
    | some t =>
      simp only
      by_cases hr : s.running = true
      · rw [if_pos hr]
        have hR := hI.on hr
        have hp := (mem_of_findPlayer hf).1
        refine wp_shootPlayer hR hp ?_ ?_ ?_ ?_
        · intro hcan rs' o'
          have hno : ∀ q k r, ¬ Shooter s u (some t) q k r := fun q k r h => by
            obtain ⟨t', ht', hc⟩ := h.id
            have hq := h.player
            rw [hf, Option.some.injEq] at hq
            cases ht'
            rw [hq] at hcan
            exact hcan ⟨hc.arrows, hc.adjacent⟩
          exact turn_of (.shootNo hno) o'
        · intro k r hit rs' q as o' hc hrs hps hq hl
          have hsh : Shooter s u (some t) p k r := ⟨hf, hr, t, rfl, hc⟩
          have hturn : Turn s (hit :: rs') (.shoot u (some t)) ((s.aimed p).struck q (hit % 3)) [] :=
            .shootPlayer hsh hps hq hl
          rw [hrs]
          exact turn_of hturn o'
        · intro k r hit rs' o' hc hrs hps hw
          have hsh : Shooter s u (some t) p k r := ⟨hf, hr, t, rfl, hc⟩
          have hp' : { p with arrows := p.arrows - 1 } ∈ (s.aimed p).players :=
            List.mem_map.mpr ⟨p, hp, if_pos rfl⟩
          rw [hrs]
          refine wp_shootAtWumpus (hR.aimed p) hp' ?_ ?_ ?_
          · intro h1 h2 h3 o'
            have hturn : Turn s (hit :: rs') (.shoot u (some t)) (s.aimed p).ended [] :=
              .shootKill hsh hps hw h1 h2 h3
            exact turn_of hturn o'
          · intro h1 h2 c d n rs'' o' hst
            exact ⟨o', _, .shootWound hsh hps hw h1 h2 (hst.congr rfl rfl rfl), rfl⟩
          · intro h1 c d n rs'' o' hst
            exact ⟨o', _, .shootMiss hsh hps hw h1 (hst.congr rfl rfl rfl), rfl⟩
        · intro k r rs' o' hc hps hw
          exact turn_of (.shootNothing ⟨hf, hr, t, rfl, hc⟩ hps hw) o'
      · rw [if_neg hr]
        exact wp_notice fun o' => turn_of (.shootNo fun p k r h => hr h.on) o'

theorem takes_resign (u : ℕ) : Takes s rs (.resign u) (cmdResign u) := by
  intro o
  simp only [cmdResign, wp_bind, wp_getState]
  cases hf : s.findPlayer u with
  | none =>
    refine wp_notice fun o' => turn_of (.resignNo fun p hp => ?_) o'
    rw [hf] at hp
    cases hp
  | some p =>
    simp only
    by_cases hr : s.running = true
    · rw [if_pos hr, wp_bind]
      exact wp_msg fun o' => wp_resignPlayer hI.players (mem_of_findPlayer hf).1 (turn_of (.resign hf hr) o')
    · rw [if_neg hr]
      exact wp_notice fun o' => turn_of (.resignNo fun _ _ => by simpa using hr) o'

theorem takes_reset (u : ℕ) : Takes s rs (.reset u) (cmdReset u) := by
  intro o
  simp only [cmdReset, wp_bind, wp_getState]
  refine wp_when (fun hr => ?_) fun hr => turn_of (.resetNo (by simpa using hr)) o
  simp only [wp_bind]
  exact wp_msg fun o' => wp_endGame hI.players hI.endable (turn_of (.reset hr) o')

theorem takes_quit (u : ℕ) : Takes s rs (.quit u) (userDeleted u) := by
  intro o
  simp only [userDeleted, wp_bind, wp_getState]
  cases hf : s.findPlayer u with
  | none => exact turn_of (.quitNo hf) o
  | some p =>
    simp only [wp_bind]
    exact wp_msg fun o' => wp_resignPlayer hI.players (mem_of_findPlayer hf).1 (turn_of (.quit hf) o')

theorem takes_unload : Takes s rs .unload modDeinit := by
  intro o
  simp only [modDeinit, wp_bind, wp_getState]
  have h : Turn s rs .unload (if s.running = true then s.ended.unloaded else s.unloaded) [] := .unload
  refine wp_when (fun hr => ?_) fun hr => ?_
  · rw [if_pos hr] at h
    exact wp_endGame hI.players hI.endable (turn_of h o)
  · rw [if_neg hr] at h
    exact turn_of h o

theorem takes_fire {id : ℕ} {t : Timer Callback} (ht : s.loop.find id = some t) :
    Takes s rs (.fire id) (runTimer t) := by
  intro o
  simp only [runTimer]
  cases hf : t.func with
  | moveWumpus =>
    simp only [wp_bind]
    by_cases hr : s.running = true
    · have hR := hI.on hr
      exact wp_moveWumpus hR.maze hR.players hR.located fun c d n rs' o' hst =>
        ⟨o', _, .fireMove ht hf hr hst, rfl⟩
    · rw [Bool.not_eq_true] at hr
      simp only [moveWumpus, wp_bind, wp_getState, (hI.idle hr).maze]
      exact turn_of (.fireIdle ht hf hr) o
  | startGame =>
    simp only [wp_bind]
    refine wp_startGame (hI.idle (hI.fires ht hf).2.2) ?_ ?_ ?_
    · exact fun hp o' => turn_of (.fireFew ht hf hp) o'
    · exact fun hp hs o' => turn_of (.fireSmall ht hf hp hs) o'
    · exact fun hp hs s' rs' o' hm h => turn_of (.fireStart ht hf hp hs hm h) o'

/-- Every program of an act takes its turn. -/
theorem takes_program {a : Act} {m : Prog World Unit} (h : program s a = some m) : Takes s rs a m := by
  cases a with
  | start u size => cases h; exact takes_start u size
  | join u => cases h; exact takes_join u
  | look u => cases h; exact takes_look hI u
  | move u id => cases h; exact takes_move hI u id
  | shoot u id => cases h; exact takes_shoot hI u id
  | resign u => cases h; exact takes_resign hI u
  | reset u => cases h; exact takes_reset hI u
  | who u => cases h; exact takes_who u
  | quit u => cases h; exact takes_quit hI u
  | nick u nick => cases h; exact fun o => turn_of (.nick _) o
  | fire id =>
    simp only [program, Option.map_eq_some_iff] at h
    obtain ⟨t, ht, rfl⟩ := h
    exact takes_fire hI ht
  | unload => cases h; exact takes_unload hI

end

/-- **An event takes a turn, without a fault.** -/
theorem turn_of_step {w w' : World} {e : Event} (hI : Inv w.st) (h : step w e = some w') :
    ∃ o v, Turn w.st e.draws e.act w'.st v ∧ w'.out = o ++ v := by
  unfold step at h
  split at h
  · cases h
  rw [Option.bind_eq_some_iff] at h
  obtain ⟨m, hm, h⟩ := h
  have hT : wp m _ ⟨w.st, []⟩ e.draws := takes_program hI hm []
  cases hrun : m { w with out := [] } e.draws with
  | done a w₁ rs' =>
    rw [hrun] at h
    cases h
    exact wp_done hT hrun
  | fault => exact absurd hrun (wp_not_fault hT)
  | starved =>
    rw [hrun] at h
    cases h

end Wumpus
end AthemeContrib
