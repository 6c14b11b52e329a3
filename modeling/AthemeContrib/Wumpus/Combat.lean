/-
# wumpus: arrows, hit points and the wumpus' speed

Players start with ten arrows and thirty hit points; five arrows are found
only by those who have none, a hit takes ten points, and who has ten left is
killed by it. A hit takes five points off the wumpus and makes it three
seconds faster, so that its speed is a linear function of its hit points
(`Angered`), and the interval its timer is given stays between 21 and 60
seconds. An arrow is taken away only from a player who has one
(`Shooter.armed`), so that nobody has fewer than none.

Key definitions: `Fit`, `Angered`, `Resources`, `LastHit`.
Key theorems: `Turn.resources`, `Turn.ends_of_lastHit`, `resources_in_range`.
-/
import AthemeContrib.Wumpus.Represented

namespace AthemeContrib
namespace Wumpus

variable {s s' : State} {rs : List ℕ} {a : Act} {v : List Output}

/-- What a player has left is in range. -/
structure Fit (p : Player) : Prop where
  arrows : 0 ≤ p.arrows ∧ p.arrows ≤ 10
  hp : p.hp = 10 ∨ p.hp = 20 ∨ p.hp = 30

/-- The wumpus is alive, and the faster the fewer hit points it has. -/
structure Angered (s : State) : Prop where
  pos : 0 < s.wumpHp
  le : s.wumpHp ≤ 70
  five : 5 ∣ s.wumpHp
  speed : 5 * s.speed = 3 * s.wumpHp + 90

/-- The timers of the wumpus run every 21 to 60 seconds. -/
def Paced (l : EventLoop Callback) : Prop :=
  ∀ t ∈ l.timers, t.func = .moveWumpus → 21 ≤ t.delay ∧ t.delay ≤ 60

/-- What the players and the wumpus have left is in range. -/
structure Resources (s : State) : Prop where
  players : ∀ p ∈ s.players, Fit p
  wumpus : s.running = true → Angered s
  timers : Paced s.loop

theorem Angered.interval (h : Angered s) : 21 ≤ s.speed ∧ s.speed ≤ 60 := by
  obtain ⟨c, hc⟩ := h.five
  have hpos := h.pos
  have hle := h.le
  have hspeed := h.speed
  omega

theorem Angered.congr (h : Angered s) (hp : s'.wumpHp = s.wumpHp) (hs : s'.speed = s.speed) : Angered s' := by
  constructor
  · rw [hp]; exact h.pos
  · rw [hp]; exact h.le
  · rw [hp]; exact h.five
  · rw [hp, hs]; exact h.speed

/-- A wumpus that survives a hit. -/
theorem Angered.wounded (h : Angered s) (hp : 5 < s.wumpHp) : Angered s.wounded := by
  have hle := h.le
  have hspeed := h.speed
  constructor
  · show 0 < s.wumpHp - 5
    omega
  · show s.wumpHp - 5 ≤ 70
    omega
  · exact Int.dvd_sub h.five (Int.dvd_refl 5)
  · show 5 * (s.speed - 3) = 3 * (s.wumpHp - 5) + 90
    omega

/-! ### The timers -/

section
variable {l : EventLoop Callback} (h : Paced l)
include h

theorem Paced.timerDestroy (id : Option ℕ) : Paced (l.timerDestroy id) := by
  intro t ht
  rw [EventLoop.timers_timerDestroy] at ht
  exact h t (List.mem_of_mem_filter ht)

theorem Paced.ran (t : Timer Callback) : Paced (l.ran t) := by
  intro t' ht'
  rw [EventLoop.timers_ran] at ht'
  exact h t' (List.mem_of_mem_filter ht')

theorem Paced.push {f : Callback} {b : Bool} {d : ℤ} (hd : f = .moveWumpus → 21 ≤ d ∧ d ≤ 60) :
    Paced (l.push f b d) := by
  intro t ht
  rw [EventLoop.timers_push] at ht
  rcases List.mem_append.mp ht with ht | ht
  · exact h t ht
  · rw [List.mem_singleton.mp ht]
    exact hd

end

/-! ### What is left after each thing that happens -/

section
variable (h : Resources s)
include h

theorem Resources.congr (hp : s'.players = s.players) (hr : s'.running = s.running)
    (hh : s'.wumpHp = s.wumpHp) (hs : s'.speed = s.speed) (hl : Paced s'.loop) : Resources s' where
  players := by rw [hp]; exact h.players
  wumpus := fun hon => (h.wumpus (hr.symm.trans hon)).congr hh hs
  timers := hl

theorem Resources.of_frame (hf : Frame s s') (hp : ∀ p ∈ s'.players, Fit p) : Resources s' where
  players := hp
  wumpus := fun hon => (h.wumpus (hf.running.symm.trans hon)).congr hf.wumpHp hf.speed
  timers := by rw [hf.loop]; exact h.timers

theorem Resources.ended : Resources s.ended where
  players := fun p hp => by cases hp
  wumpus := fun hon => by cases hon
  timers := h.timers.timerDestroy _

theorem Resources.settled : Resources s.settled := by
  unfold State.settled
  split
  · exact h.ended
  · exact h

theorem Resources.ran (t : Timer Callback) : Resources (s.ran t) :=
  h.congr rfl rfl rfl rfl (h.timers.ran t)

theorem Resources.resigned (p : Player) : Resources (s.resigned p) := by
  apply h.of_frame (frame_resigned s p)
  intro q hq
  exact h.players q (List.mem_of_mem_filter hq)

theorem Resources.joined (u : ℕ) : Resources (s.joined u) where
  players := fun p hp => by
    rcases List.mem_append.mp hp with hp | hp
    · exact h.players p hp
    · rw [List.mem_singleton.mp hp]
      exact ⟨⟨by simp [newPlayer], by simp [newPlayer]⟩, Or.inr (Or.inr rfl)⟩
  wumpus := fun hon => (h.wumpus hon).congr rfl rfl
  timers := h.timers

/-- One player is changed, and stays in range. -/
theorem Resources.updPlayer (i : ℕ) {f : Player → Player}
    (hf : ∀ p ∈ s.players, p.addr = i → Fit p → Fit (f p)) : Resources (s.updPlayer i f) := by
  have hframe : Frame s (s.updPlayer i f) := ⟨_, _, rfl⟩
  apply h.of_frame hframe
  intro q hq
  obtain ⟨p, hp, rfl⟩ := List.mem_map.mp hq
  have hfit := h.players p hp
  split
  · exact hf p hp ‹_› hfit
  · exact hfit

/-- An arrow is gone, which was there. -/
theorem Resources.aimed (hP : PlayersOk s) {p : Player} (hp : p ∈ s.players) (harmed : p.arrows ≠ 0) :
    Resources (s.aimed p) := by
  apply h.updPlayer p.addr
  intro q hq he hfit
  have hqp := hP.eq_of_addr hq hp he
  rw [← hqp] at harmed
  obtain ⟨hnonneg, hle⟩ := hfit.arrows
  refine ⟨?_, hfit.hp⟩
  show 0 ≤ q.arrows - 1 ∧ q.arrows - 1 ≤ 10
  omega

/-- Who has ten points left is killed by a hit, anybody else has ten at least. -/
theorem Resources.struck (hP : PlayersOk s) {t : Player} (ht : t ∈ s.players) (hit : ℕ) :
    Resources (s.struck t hit) := by
  unfold State.struck
  split_ifs with hhit hten
  · exact h.resigned t
  · apply h.updPlayer t.addr
    intro q hq he hfit
    have hqt := hP.eq_of_addr hq ht he
    rw [hqt] at hfit ⊢
    refine ⟨hfit.arrows, ?_⟩
    have hhp := hfit.hp
    show t.hp - 10 = 10 ∨ t.hp - 10 = 20 ∨ t.hp - 10 = 30
    omega
  · exact h

/-- The players the wumpus has left lose nothing. -/
theorem Resources.hunted (hP : PlayersOk s) (c : Contents) (d n : ℕ) : Resources (s.hunted c d n) := by
  have hw : Resources { s with wumpus := n } := h.congr rfl rfl rfl rfl h.timers
  apply hw.of_frame (frame_hunted s c d n)
  intro q hq
  rw [players_hunted hP] at hq
  obtain ⟨p, hp, rfl⟩ := List.mem_map.mp hq
  have hfit := h.players p (List.mem_of_mem_filter hp)
  exact ⟨hfit.arrows, hfit.hp⟩

theorem Resources.wounded (hr : s.running = true) (hp : 5 < s.wumpHp) : Resources s.wounded where
  players := h.players
  wumpus := fun _ => (h.wumpus hr).wounded hp
  timers := h.timers

theorem Resources.retimed (hs : 21 ≤ s.speed ∧ s.speed ≤ 60) : Resources s.retimed :=
  h.congr rfl rfl rfl rfl ((h.timers.timerDestroy _).push fun _ => hs)

theorem Resources.swept (k : ℕ) (rs : List ℕ) : Resources (s.swept k rs) := by
  apply h.of_frame (frame_swept s k rs)
  rw [players_swept]
  exact h.players

/-- Arrows are taken only by who has none. -/
theorem Resources.foraged (hP : PlayersOk s) {p : Player} (hp : p ∈ s.players) (d t : ℕ) :
    Resources (s.foraged p d t) := by
  apply h.of_frame (frame_foraged s p d t)
  unfold State.foraged
  split_ifs with harrows hnone
  · have htaken : Resources (s.updPlayer p.addr fun p => { p with arrows := p.arrows + 5 }) := by
      apply h.updPlayer p.addr
      intro q hq he hfit
      have hqp := hP.eq_of_addr hq hp he
      refine ⟨?_, hfit.hp⟩
      show 0 ≤ q.arrows + 5 ∧ q.arrows + 5 ≤ 10
      rw [hqp, hnone]
      decide
    exact htaken.players
  · exact h.players
  · exact h.players
  · exact h.players

theorem Resources.relocated (p : Player) (d : ℕ) : Resources (s.relocated p d) := by
  apply h.of_frame (frame_relocated s p d)
  intro q hq
  rw [players_relocated] at hq
  obtain ⟨q', hq', rfl⟩ := List.mem_map.mp hq
  have hfit := h.players q' hq'
  split
  · exact ⟨hfit.arrows, hfit.hp⟩
  · exact hfit

/-- A game that starts gives everybody a place, and nothing else. -/
theorem Resources.started (hst : Started s s' rs) : Resources s' where
  players := fun p hp => by
    have hmem : { p with location := none } ∈ s'.players.map fun p => { p with location := none } :=
      List.mem_map_of_mem hp
    rw [hst.users] at hmem
    obtain ⟨q, hq, heq⟩ := List.mem_map.mp hmem
    have hfit := h.players q hq
    simp only [Player.mk.injEq] at heq
    obtain ⟨-, -, -, harrows, hhp, -⟩ := heq
    exact ⟨by rw [← harrows]; exact hfit.arrows, by rw [← hhp]; exact hfit.hp⟩
  wumpus := fun _ => by
    have hhp : s'.wumpHp = 70 := hst.wumpHp
    have hspeed : s'.speed = 60 := hst.speed
    have hfive : s'.wumpHp = 5 * 14 := hhp
    exact ⟨by omega, by omega, ⟨14, hfive⟩, by omega⟩
  timers := by
    rw [hst.loop]
    exact h.timers.push fun _ => by omega

end

/-! ### Turns -/

/-- The end of a game leaves the wumpus as fast as it was. -/
theorem speed_settled (s : State) : s.settled.speed = s.speed := by
  unfold State.settled
  split
  · rfl
  · rfl

/-- Who shoots has an arrow left. -/
theorem Shooter.armed {u k : ℕ} {id : Option CStr} {p : Player} {r : Room} (h : Shooter s u id p k r) :
    p.arrows ≠ 0 := by
  obtain ⟨_, -, hc⟩ := h.id
  exact hc.arrows

/-- The shot has left an arrow less. -/
theorem Shooter.resources {u k : ℕ} {id : Option CStr} {p : Player} {r : Room} (h : Shooter s u id p k r)
    (hI : Inv s) (hR : Resources s) : Resources (s.aimed p) :=
  hR.aimed (hI.on h.on).players (mem_of_findPlayer h.player).1 h.armed

/-- Every turn keeps what is left in range. -/
theorem Turn.resources (h : Turn s rs a s' v) (hI : Inv s) (hR : Resources s) : Resources s' := by
  cases h with
  | startBusy _ => exact hR
  | start n _ => exact hR.congr rfl rfl rfl rfl (hR.timers.push fun hf => by cases hf)
  | joinNo => exact hR
  | join _ _ _ => exact hR.joined _
  | look => exact hR
  | who => exact hR
  | moveNo _ => exact hR
  | moveLost hm _ => exact ((hR.swept _ rs).resigned _).settled
  | @move u id p k hm _ =>
    have hP := ((hI.on hm.on).swept k rs).players
    exact ((hR.swept k rs).foraged hP hm.mem_swept _ _).relocated p _
  | shootNo _ => exact hR
  | @shootPlayer u id p k r t as hs _ ht hl =>
    have hon := hI.on hs.on
    exact (hs.resources hI hR).struck (hon.aimed p).players (hs.mem_aimed hon ht hl) _
  | shootNothing hs _ _ => exact hs.resources hI hR
  | shootKill hs _ _ _ _ _ => exact (hs.resources hI hR).ended
  | @shootWound u id p k r c d n hs _ _ hp _ _ =>
    have hP := ((hI.on hs.on).aimed p).players
    have hw := (hs.resources hI hR).wounded hs.on hp
    have hspeed : ((s.aimed p).wounded.hunted c d n).settled.speed = (s.aimed p).wounded.speed :=
      (speed_settled _).trans (frame_hunted (s.aimed p).wounded c d n).speed
    apply (hw.hunted (hP.congr rfl rfl rfl) c d n).settled.retimed
    rw [hspeed]
    exact (hw.wumpus hs.on).interval
  | @shootMiss u id p k r c d n hs _ _ _ _ =>
    exact ((hs.resources hI hR).hunted ((hI.on hs.on).aimed p).players c d n).settled
  | resignNo _ => exact hR
  | resign _ _ => exact hR.resigned _
  | resetNo _ => exact hR
  | reset _ => exact hR.ended.congr rfl rfl rfl rfl hR.ended.timers
  | quitNo _ => exact hR
  | quit _ => exact hR.resigned _
  | nick f => exact hR.congr rfl rfl rfl rfl hR.timers
  | fireMove _ _ _ _ => exact (hR.hunted hI.players _ _ _).settled.ran _
  | fireIdle _ _ _ =>
    have hd : Resources { s with loop := s.loop.timerDestroy s.moveTimer } :=
      hR.congr rfl rfl rfl rfl (hR.timers.timerDestroy _)
    exact hd.ran _
  | fireFew _ _ _ =>
    have hd : Resources { s with starting := false } := hR.congr rfl rfl rfl rfl hR.timers
    exact hd.ran _
  | fireSmall _ _ _ _ =>
    have hd : Resources { s with starting := false, wantsize := s.wanted } :=
      hR.congr rfl rfl rfl rfl hR.timers
    exact hd.ended.ran _
  | fireStart _ _ _ _ _ hst =>
    have hd : Resources { s with starting := false, wantsize := s.wanted } :=
      hR.congr rfl rfl rfl rfl hR.timers
    exact (hd.started hst).ran _
  | unload =>
    have hgone : ∀ {t : State}, Resources t → Resources t.unloaded := fun ht =>
      ht.congr rfl rfl rfl rfl ((ht.timers.timerDestroy _).timerDestroy _)
    split
    · exact hgone hR.ended
    · exact hgone hR

/-- A shot that hits the wumpus when it has five points left. -/
def LastHit (s : State) (rs : List ℕ) : Act → Prop
  | .shoot u id => (∃ p k r, Shooter s u id p k r ∧ r.players = [] ∧ r.contents = .wumpus) ∧
    s.wumpHp = 5 ∧ rs.headD 0 % 3 < 2
  | _ => False

/-- The last hit ends the game. -/
theorem Turn.ends_of_lastHit (h : Turn s rs a s' v) (hl : LastHit s rs a) : s'.running = false := by
  cases a with
  | shoot u id =>
    obtain ⟨⟨p, k, r, hs, hnil, hw⟩, hfive, hhit⟩ := hl
    cases h with
    | shootNo hno => exact absurd hs (hno p k r)
    | shootPlayer hs' hr _ _ =>
      obtain ⟨-, -, rfl⟩ := hs.unique hs'
      rw [hnil] at hr
      cases hr
    | shootNothing hs' _ hne =>
      obtain ⟨-, -, rfl⟩ := hs.unique hs'
      exact absurd hw hne
    | shootKill _ _ _ _ _ _ => rfl
    | shootWound _ _ _ hp _ _ => omega
    | shootMiss _ _ _ hm _ => exact absurd ⟨by omega, hhit⟩ hm
  | _ => exact hl.elim

theorem resources_init : Resources init.st where
  players := fun p hp => by cases hp
  wumpus := fun hon => by cases hon
  timers := fun t ht => by cases ht

/-- **In every state of every run the arrows and hit points of the players and of
the wumpus are in range, its speed is tied to its hit points and its timer runs
every 21 to 60 seconds; and a hit when it has five points left ends the game.** -/
theorem resources_in_range (es : List Event) : Run.Always step (fun w => Resources w.st) init es ∧
    Run.Along step (fun w e w' => LastHit w.st e.draws e.act → w'.st.running = false) init es := by
  have hreach : ∀ {w : World}, Run.Reach step init w → Inv w.st ∧ Resources w.st := by
    intro w hw
    refine Run.reach_inv (I := fun w => Inv w.st ∧ Resources w.st) ⟨init_inv, resources_init⟩ ?_ hw
    intro w e w' ⟨hI, hR⟩ hs
    obtain ⟨o, v, hT, -⟩ := turn_of_step hI hs
    exact ⟨hT.inv hI, hT.resources hI hR⟩
  refine ⟨⟨resources_init, Run.along_of_reach (fun w e w' hw hs => ?_) es⟩,
    Run.along_of_reach (fun w e w' hw hs => ?_) es⟩
  · obtain ⟨hI, hR⟩ := hreach hw
    obtain ⟨o, v, hT, -⟩ := turn_of_step hI hs
    exact hT.resources hI hR
  · obtain ⟨o, v, hT, -⟩ := turn_of_step (inv_of_reach hw) hs
    exact hT.ends_of_lastHit

end Wumpus
end AthemeContrib
