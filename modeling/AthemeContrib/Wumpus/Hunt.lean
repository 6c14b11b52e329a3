/-
# wumpus: the game is a pursuit

Seen from far away the module is a lobby and, from time to time, a pursuit in a
maze (`Stage`): `State.stage` forgets the timers, the arrows, the health, what
lies in the rooms, and who is listed where. Every event, whatever numbers are
drawn, is then a step of that pursuit (`Turn.refines`). So in one game the exits
stay as they were dug, nobody joins, and the wumpus is where exits have led it.

Key definitions: `State.hunt`, `State.stage`.
Key theorems: `Turn.refines`, `wumpus_is_a_pursuit`, `one_game`.
-/
import AthemeContrib.Lib.Pursuit
import AthemeContrib.Wumpus.Distance
import AthemeContrib.Wumpus.Survivors

namespace AthemeContrib
namespace Wumpus

variable {s s' : State} {rs : List ℕ}

/-- Where the user's player is. -/
def State.place (s : State) (u : ℕ) : Option ℕ := (s.findPlayer u).bind (·.location)

/-- The pursuit that a running game is. -/
def State.hunt (s : State) : Pursuit ℕ ℕ where
  tunnel i k := k ∈ s.exitsOf i
  place := s.place
  beast := s.wumpus.toNat

/-- The users that have a player. -/
def State.waiting (s : State) : Set ℕ := {u | ∃ p ∈ s.players, p.u = u}

def State.stage (s : State) : Stage ℕ ℕ := if s.running = true then .hunt s.hunt else .lobby s.waiting

theorem stage_on (h : s.running = true) : s.stage = .hunt s.hunt := if_pos h

theorem stage_off (h : s.running = false) : s.stage = .lobby s.waiting := if_neg (by simp [h])

theorem stage_ended (s : State) : s.ended.stage = .lobby ∅ := by
  have hnone : s.ended.waiting = ∅ := Set.eq_empty_iff_forall_notMem.mpr fun u hu => by
    obtain ⟨p, hp, -⟩ := hu
    cases hp
  rw [stage_off (s := s.ended) rfl, hnone]

/-! ### Places -/

section
variable (hP : PlayersOk s)
include hP

theorem findPlayer_of_mem {p : Player} (hp : p ∈ s.players) : s.findPlayer p.u = some p := by
  have hsome : (s.players.find? (·.u = p.u)).isSome := by
    rw [List.find?_isSome]
    exact ⟨p, hp, by simp⟩
  obtain ⟨q, hq⟩ := Option.isSome_iff_exists.mp hsome
  obtain ⟨hmem, hu⟩ := mem_of_findPlayer hq
  rw [State.findPlayer, hq, List.inj_on_of_nodup_map hP.users hmem hp hu]

theorem place_of_mem {p : Player} (hp : p ∈ s.players) : s.place p.u = p.location := by
  rw [State.place, findPlayer_of_mem hP hp, Option.bind_some]

omit hP in
theorem place_eq_none {u : ℕ} (h : ∀ p ∈ s.players, p.u ≠ u) : s.place u = none := by
  have hnone : s.findPlayer u = none := List.find?_eq_none.mpr fun p hp => by simpa using h p hp
  rw [State.place, hnone, Option.bind_none]

theorem place_eq_some {u i : ℕ} : s.place u = some i ↔ ∃ p ∈ s.players, p.u = u ∧ p.location = some i := by
  constructor
  · intro h
    obtain ⟨p, hp, hl⟩ := Option.bind_eq_some_iff.mp h
    obtain ⟨hmem, hu⟩ := mem_of_findPlayer hp
    exact ⟨p, hmem, hu, hl⟩
  · rintro ⟨p, hp, rfl, hl⟩
    rw [place_of_mem hP hp, hl]

/-- Who is where, by the lists of players. -/
theorem place_congr {s' : State} (hP' : PlayersOk s')
    (h : s'.players.map (fun p => (p.u, p.location)) = s.players.map fun p => (p.u, p.location)) :
    s'.place = s.place := by
  have hiff : ∀ {t : State} (_ : PlayersOk t) u i,
      t.place u = some i ↔ (u, some i) ∈ t.players.map fun p => (p.u, p.location) := by
    intro t ht u i
    rw [place_eq_some ht, List.mem_map]
    simp only [Prod.mk.injEq]
  funext u
  refine Option.ext fun i => ?_
  rw [hiff hP' u i, hiff hP u i, h]

end

/-! ### What the changes of the state do to the pursuit -/

theorem exitsOf_congr {i : ℕ} (h : (s'.room? i).map (·.exits) = (s.room? i).map (·.exits)) :
    s'.exitsOf i = s.exitsOf i := by rw [State.exitsOf, State.exitsOf, h]

theorem exitsOf_put (s : State) (j : ℕ) (c : Contents) (i : ℕ) : (s.put j c).exitsOf i = s.exitsOf i := by
  refine exitsOf_congr ?_
  rw [State.put, room?_updRoom, Option.map_map]
  refine Option.map_congr fun r _ => ?_
  simp only [Function.comp_apply]
  split <;> rfl

theorem exitsOf_resigned (s : State) (p : Player) (i : ℕ) : (s.resigned p).exitsOf i = s.exitsOf i := by
  refine exitsOf_congr ?_
  rw [room?_resigned, Option.map_map]
  refine Option.map_congr fun r _ => ?_
  simp only [Function.comp_apply]
  split <;> rfl

theorem exitsOf_relocated (s : State) (p : Player) (d i : ℕ) :
    (s.relocated p d).exitsOf i = s.exitsOf i := by
  refine exitsOf_congr ?_
  rw [room?_relocated, Option.map_map]
  rfl

theorem exitsOf_feast (s : State) (ps : List Player) (i : ℕ) : (s.feast ps).exitsOf i = s.exitsOf i := by
  induction ps generalizing s with
  | nil => rfl
  | cons p ps ih =>
    have hmeal : (s.meal p).exitsOf i = s.exitsOf i := by
      unfold State.meal
      split
      · exact exitsOf_resigned s p i
      · rfl
    exact (ih (s.meal p)).trans hmeal

theorem exitsOf_hunted (s : State) (c : Contents) (d n i : ℕ) : (s.hunted c d n).exitsOf i = s.exitsOf i := by
  rw [State.hunted, exitsOf_feast, State.prowl, exitsOf_put]
  exact (exitsOf_put _ _ _ _).trans (exitsOf_put s d c i)

theorem exitsOf_swept (s : State) (k : ℕ) (rs : List ℕ) (i : ℕ) : (s.swept k rs).exitsOf i = s.exitsOf i := by
  unfold State.swept
  split
  · rw [State.flown, exitsOf_put, exitsOf_put]
  · rfl

theorem exitsOf_foraged (s : State) (p : Player) (d t i : ℕ) :
    (s.foraged p d t).exitsOf i = s.exitsOf i := by
  unfold State.foraged
  split_ifs
  · rw [exitsOf_put, exitsOf_put]
    rfl
  · rw [exitsOf_put, exitsOf_put]
  · rw [exitsOf_put, exitsOf_put]
  · rfl

theorem hunt_eq {t : State} {place : ℕ → Option ℕ} {n : ℕ} (hx : ∀ i, t.exitsOf i = s.exitsOf i)
    (hp : t.place = place) (hw : t.wumpus.toNat = n) : t.hunt = { s.hunt with place := place, beast := n } := by
  have htunnel : (fun i k => k ∈ t.exitsOf i) = fun i k => k ∈ s.exitsOf i := by
    funext i k
    rw [hx i]
  rw [State.hunt, htunnel, hp, hw]
  rfl

/-- A player who keeps its place changes nothing. -/
theorem hunt_updPlayer (hP : PlayersOk s) (a : ℕ) {f : Player → Player} (ha : ∀ p, (f p).addr = p.addr)
    (hu : ∀ p, (f p).u = p.u) (hl : ∀ p, (f p).location = p.location) : (s.updPlayer a f).hunt = s.hunt := by
  refine hunt_eq (fun _ => rfl) (place_congr hP (hP.updPlayer a ha hu hl) ?_) rfl
  rw [State.updPlayer, List.map_map]
  refine List.map_congr_left fun p _ => ?_
  simp only [Function.comp_apply]
  split
  · rw [hu, hl]
  · rfl

theorem hunt_swept (s : State) (k : ℕ) (rs : List ℕ) : (s.swept k rs).hunt = s.hunt := by
  refine hunt_eq (exitsOf_swept s k rs) ?_ (by rw [(frame_swept s k rs).wumpus])
  funext u
  rw [State.place, State.findPlayer, players_swept]
  rfl

/-- Who resigns is nowhere. -/
theorem hunt_resigned (hP : PlayersOk s) {p : Player} (hp : p ∈ s.players) :
    (s.resigned p).hunt = { s.hunt with place := Function.update s.place p.u none } := by
  refine hunt_eq (exitsOf_resigned s p) ?_ (by rw [(frame_resigned s p).wumpus]; rfl)
  funext u
  by_cases hu : u = p.u
  · rw [hu, Function.update_self]
    refine place_eq_none fun q hq hqu => ?_
    obtain ⟨hmem, hne⟩ := List.mem_filter.mp hq
    rw [List.inj_on_of_nodup_map hP.users hmem hp hqu] at hne
    simp at hne
  · rw [Function.update_of_ne hu]
    refine Option.ext fun i => ?_
    rw [place_eq_some (hP.resigned hp), place_eq_some hP]
    refine exists_congr fun q => and_congr_left fun hq => ?_
    rw [players_resigned, List.mem_filter, and_iff_left_iff_imp]
    intro hmem
    have hne : q.addr ≠ p.addr := fun he => hu (by rw [← hq.1, hP.eq_of_addr hmem hp he])
    simpa using hne

/-- Who gets to the room `d` is there. -/
theorem hunt_relocated (hP : PlayersOk s) {p : Player} (hp : p ∈ s.players) {d : ℕ}
    (hd : ∃ r, s.room? d = some r) :
    (s.relocated p d).hunt = { s.hunt with place := Function.update s.place p.u (some d) } := by
  refine hunt_eq (exitsOf_relocated s p d) ?_ (by rw [(frame_relocated s p d).wumpus]; rfl)
  funext u
  have hP' := hP.relocated hp hd
  by_cases hu : u = p.u
  · have hmem : { p with location := some d } ∈ (s.relocated p d).players := by
      rw [players_relocated]
      exact List.mem_map.mpr ⟨p, hp, if_pos rfl⟩
    rw [hu, Function.update_self]
    exact place_of_mem hP' hmem
  · rw [Function.update_of_ne hu]
    refine Option.ext fun i => ?_
    rw [place_eq_some hP', place_eq_some hP, players_relocated]
    simp only [List.mem_map, exists_exists_and_eq_and]
    refine exists_congr fun q => and_congr_right fun hq => ?_
    by_cases hqp : q.addr = p.addr
    · have hne : q.u ≠ u := by
        rw [hP.eq_of_addr hq hp hqp]
        exact Ne.symm hu
      rw [if_pos hqp]
      exact iff_of_false (fun h => hne h.1) fun h => hne h.1
    · rw [if_neg hqp]

/-- The wumpus is in the room `n`, and who was there is nowhere. -/
theorem hunt_hunted (hR : Running s) (c : Contents) (d : ℕ) {n : ℕ} (hn : n < s.mazesize) :
    (s.hunted c d n).hunt =
      { s.hunt with place := fun u => if s.place u = some n then none else s.place u, beast := n } := by
  refine hunt_eq (exitsOf_hunted s c d n) ?_ (by rw [(frame_hunted s c d n).wumpus]; rfl)
  funext u
  refine Option.ext fun i => ?_
  rw [place_eq_some (hR.hunted c d hn).players, players_hunted hR.players]
  simp only [List.mem_map, exists_exists_and_eq_and, State.away, List.mem_filter, decide_eq_true_eq]
  constructor
  · rintro ⟨p, ⟨hp, hne⟩, rfl, hl⟩
    rw [place_of_mem hR.players hp, if_neg hne, hl]
  · intro h
    split at h
    · cases h
    · rename_i hne
      obtain ⟨p, hp, hu, hl⟩ := (place_eq_some hR.players).mp h
      refine ⟨p, ⟨hp, fun hn => hne ?_⟩, hu, hl⟩
      rw [← hu, place_of_mem hR.players hp, hn]

/-! ### A game that is on -/

theorem Running.room_iff (h : Running s) (i : ℕ) : s.hunt.Room i ↔ i < s.mazesize := by
  constructor
  · rintro ⟨k, hk⟩
    cases hr : s.room? i with
    | none =>
      have hnone : s.exitsOf i = [] := by rw [State.exitsOf, hr]; rfl
      have hk' : k ∈ s.exitsOf i := hk
      rw [hnone] at hk'
      cases hk'
    | some r => exact (h.maze.room i r hr).1
  · intro hi
    obtain ⟨r, hr⟩ := h.maze.rooms i hi
    have h3 := (h.maze.room i r hr).2.three
    obtain ⟨k, hk⟩ : ∃ k, k ∈ r.exits := List.exists_mem_of_ne_nil _ (by intro hnil; simp [hnil] at h3)
    refine ⟨k, ?_⟩
    show k ∈ s.exitsOf i
    rwa [exitsOf_eq hr]

theorem Running.sound (h : Running s) : s.hunt.Sound := by
  have hexit : ∀ i k, s.hunt.tunnel i k → k < s.mazesize ∧ k ≠ i := by
    intro i k hk
    obtain ⟨r, hr⟩ := h.maze.rooms i ((h.room_iff i).mp ⟨k, hk⟩)
    have hk' : k ∈ s.exitsOf i := hk
    rw [exitsOf_eq hr] at hk'
    exact (h.maze.room i r hr).2.exits k hk'
  constructor
  · exact fun i k hk => (h.room_iff k).mpr (hexit i k hk).1
  · exact fun i hi => (hexit i i hi).2 rfl
  · obtain ⟨k, hk, hw⟩ := h.maze.wumpus
    rw [h.room_iff]
    show s.wumpus.toNat < s.mazesize
    rw [hw]
    exact hk
  · intro u i hu
    obtain ⟨p, hp, -, hl⟩ := (place_eq_some h.players).mp hu
    obtain ⟨r, hr⟩ := h.players.located p hp i hl
    exact (h.room_iff i).mpr (h.maze.room i r hr).1

theorem Stride.tunnel {c : Contents} {d n : ℕ} (h : Stride s rs c d n) : s.hunt.tunnel s.hunt.beast n := by
  obtain ⟨r, hr, hn⟩ := h.exit
  show n ∈ s.exitsOf s.wumpus.toNat
  rw [exitsOf_eq hr]
  exact List.mem_of_getElem? hn

theorem Running.prowled (h : Running s) {c : Contents} {d n : ℕ} (hst : Stride s rs c d n) :
    s.hunt.Move (s.hunted c d n).hunt := by
  rw [hunt_hunted h c d hst.lt]
  exact .prowl hst.tunnel

theorem Running.lost (h : Running s) {p : Player} (hp : p ∈ s.players) : s.hunt.Move (s.resigned p).hunt := by
  rw [hunt_resigned h.players hp]
  obtain ⟨i, hi⟩ := Option.ne_none_iff_exists'.mp (h.located p hp)
  exact .lost (i := i) ((place_of_mem h.players hp).trans hi)

/-! ### One turn -/

theorem hunt_foraged (h : Running s) (p : Player) (d t : ℕ) : (s.foraged p d t).hunt = s.hunt := by
  refine hunt_eq (exitsOf_foraged s p d t) ?_ (by rw [(frame_foraged s p d t).wumpus])
  refine place_congr h.players (h.foraged p d t).players ?_
  unfold State.foraged
  split_ifs
  · show List.map _ (List.map _ s.players) = _
    rw [List.map_map]
    refine List.map_congr_left fun q _ => ?_
    simp only [Function.comp_apply]
    split <;> rfl
  · rfl
  · rfl
  · rfl

theorem mem_foraged_user {p : Player} (hp : p ∈ s.players) (d t : ℕ) : ∃ q ∈ (s.foraged p d t).players,
    q.addr = p.addr ∧ q.u = p.u ∧ q.location = p.location := by
  unfold State.foraged
  split_ifs
  · exact ⟨{ p with arrows := p.arrows + 5 }, List.mem_map.mpr ⟨p, hp, if_pos rfl⟩, rfl, rfl, rfl⟩
  · exact ⟨p, hp, rfl, rfl, rfl⟩
  · exact ⟨p, hp, rfl, rfl, rfl⟩
  · exact ⟨p, hp, rfl, rfl, rfl⟩

theorem Mover.tunnel {u : ℕ} {id : Option CStr} {p : Player} {k : ℕ} (h : Mover s u id p k) :
    ∃ i, p.location = some i ∧ s.hunt.tunnel i k := by
  obtain ⟨i, r, hi, hr, n, hn, hnk⟩ := h.adjacent
  refine ⟨i, hi, ?_⟩
  show k ∈ s.exitsOf i
  rwa [exitsOf_eq hr, ← Int.natCast_inj.mp hnk]

/-- A move that is survived takes the player through the exit, or to where the
bats set it down. -/
theorem Mover.walked {u : ℕ} {id : Option CStr} {p : Player} {k : ℕ} (h : Mover s u id p k) (hR : Running s)
    (hd : ¬ (s.swept k rs).Deadly (s.landing k rs)) :
    s.hunt.Move (((s.swept k rs).foraged p (s.landing k rs) (s.spot rs)).relocated p (s.landing k rs)).hunt := by
  have hland := landing_lt h.lt rs
  have hRs : Running (s.swept k rs) := hR.swept k rs
  have hRf : Running ((s.swept k rs).foraged p (s.landing k rs) (s.spot rs)) := hRs.foraged p _ _
  obtain ⟨q, hq, hqa, hqu, hql⟩ := mem_foraged_user h.mem_swept (s.landing k rs) (s.spot rs)
  have hroom : ∃ r, ((s.swept k rs).foraged p (s.landing k rs) (s.spot rs)).room? (s.landing k rs) = some r :=
    hRf.maze.rooms _ (by rwa [mazesize_foraged, (frame_swept s k rs).mazesize])
  have hsame : ((s.swept k rs).foraged p (s.landing k rs) (s.spot rs)).hunt = s.hunt :=
    (hunt_foraged hRs p _ _).trans (hunt_swept s k rs)
  have hplace : ((s.swept k rs).foraged p (s.landing k rs) (s.spot rs)).place = s.place :=
    congrArg Pursuit.place hsame
  obtain ⟨i, hi, ht⟩ := h.tunnel
  obtain ⟨hp, -⟩ := mem_of_findPlayer h.player
  have hpi : s.hunt.place p.u = some i := (place_of_mem hR.players hp).trans hi
  have hbeast : s.landing k rs ≠ s.hunt.beast := by
    intro he
    obtain ⟨w, -, hw⟩ := hR.maze.wumpus
    refine hd (Or.inl ?_)
    rw [(frame_swept s k rs).wumpus, he]
    show s.wumpus = ((s.wumpus.toNat : ℕ) : ℤ)
    rw [hw, Int.toNat_natCast]
  rw [← relocated_congr hqa hql, hunt_relocated hRf.players hq hroom, hsame, hplace, hqu]
  by_cases hb : s.contents k = some .bats
  · exact .carried hpi ht ((hR.room_iff _).mpr hland) hbeast
  · have hk : s.landing k rs = k := if_neg hb
    rw [hk] at hbeast ⊢
    exact .walk hpi ht hbeast

/-- After the check the pursuit goes on, or is over. -/
theorem refines_settled {s₁ : State} (hr : s.running = true) (hr₁ : s₁.running = true)
    (hm : s.hunt.Move s₁.hunt) : s.stage.Step s₁.settled.stage := by
  rw [stage_on hr]
  unfold State.settled
  split
  · rw [stage_ended]
    exact .finish
  · rw [stage_on hr₁]
    exact .move hm

theorem refines_move (hr : s.running = true) (hr' : s'.running = true) (hm : s.hunt.Move s'.hunt) :
    s.stage.Step s'.stage := by
  rw [stage_on hr, stage_on hr']
  exact .move hm

theorem refines_ended (s : State) : s.stage.Step s.ended.stage := by
  rw [stage_ended]
  cases hr : s.running with
  | true =>
    rw [stage_on hr]
    exact .finish
  | false =>
    rw [stage_off hr]
    exact .scatter

/-- Who quits or resigns is lost to the pursuit, or leaves the lobby. -/
theorem Inv.refines_resigned (h : Inv s) {p : Player} (hp : p ∈ s.players) :
    s.stage.Step (s.resigned p).stage := by
  cases hr : s.running with
  | true => exact refines_move hr ((frame_resigned s p).running.trans hr) ((h.on hr).lost hp)
  | false =>
    have hleft : (s.resigned p).waiting = s.waiting \ {p.u} := by
      ext u
      simp only [State.waiting, Set.mem_ofPred_eq, Set.mem_sdiff, Set.mem_singleton_iff, players_resigned,
        List.mem_filter, decide_eq_true_eq]
      constructor
      · rintro ⟨q, ⟨hq, hne⟩, rfl⟩
        refine ⟨⟨q, hq, rfl⟩, fun hu => hne ?_⟩
        rw [List.inj_on_of_nodup_map h.players.users hq hp hu]
      · rintro ⟨⟨q, hq, rfl⟩, hne⟩
        exact ⟨q, ⟨hq, fun ha => hne (by rw [h.players.eq_of_addr hq hp ha])⟩, rfl⟩
    rw [stage_off hr, stage_off ((frame_resigned s p).running.trans hr), hleft]
    exact .leave ⟨p, hp, rfl⟩

theorem refines_joined (hr : s.running = false) {u : ℕ} (hu : s.findPlayer u = none) :
    s.stage.Step (s.joined u).stage := by
  have hnew : (s.joined u).waiting = insert u s.waiting := by
    ext v
    simp only [State.waiting, State.joined, Set.mem_ofPred_eq, Set.mem_insert_iff, List.mem_append,
      List.mem_singleton, or_and_right, exists_or, exists_eq_left, newPlayer]
    rw [or_comm, eq_comm]
  have hnot : u ∉ s.waiting := by
    rintro ⟨p, hp, hpu⟩
    have := List.find?_eq_none.mp hu p hp
    simp [hpu] at this
  rw [stage_off hr, stage_off (s := s.joined u) hr, hnew]
  exact .join hnot

/-- Those who wait begin the pursuit. -/
theorem Started.refines {s₀ : State} (h : Started s₀ s' rs) (hP : PlayersOk s₀)
    (h2 : 2 ≤ s₀.players.length) : (Stage.lobby s₀.waiting).Step s'.stage := by
  have husers : s'.players.map (·.u) = s₀.players.map (·.u) := by
    have := congrArg (List.map (·.u)) h.users
    rwa [List.map_map, List.map_map] at this
  have hwaiting : ∀ u, u ∈ s₀.waiting ↔ u ∈ s'.players.map (·.u) := fun u => by
    rw [husers, List.mem_map]
    rfl
  have hhunters : s'.hunt.hunters = s₀.waiting := by
    ext u
    rw [hwaiting u, List.mem_map]
    constructor
    · intro hu
      obtain ⟨i, hi⟩ := Option.ne_none_iff_exists'.mp hu
      obtain ⟨p, hp, hpu, -⟩ := (place_eq_some h.running.players).mp hi
      exact ⟨p, hp, hpu⟩
    · rintro ⟨p, hp, rfl⟩
      have hplace : s'.hunt.place p.u = p.location := place_of_mem h.running.players hp
      exact fun hnone => h.running.located p hp (hplace.symm.trans hnone)
  have htwo : s₀.waiting.Nontrivial := by
    have hlen : 1 < (s₀.players.map (·.u)).length := by rwa [List.length_map]
    have hne := List.pairwise_iff_getElem.mp hP.users 0 1 (by omega) hlen Nat.zero_lt_one
    exact ⟨_, List.mem_map.mp (List.getElem_mem _), _, List.mem_map.mp (List.getElem_mem _), hne⟩
  rw [stage_on h.on]
  exact .start htwo hhunters h.running.sound

/-- **A turn of the game is a step of the pursuit.** -/
theorem Turn.refines {a : Act} {v : List Output} (hT : Turn s rs a s' v) (h : Inv s) :
    s.stage.Step s'.stage := by
  have haimed : s.running = true → ∀ p, (s.aimed p).hunt = s.hunt := fun hr p =>
    hunt_updPlayer (h.on hr).players p.addr (fun _ => rfl) (fun _ => rfl) fun _ => rfl
  cases hT with
  | startBusy _ | joinNo | look | who | moveNo _ | shootNo _ | resignNo _ | resetNo _ | quitNo _ => exact .stay
  | start n hb => exact .stay
  | nick f => exact .stay
  | join hs hr hp => exact refines_joined hr hp
  | @moveLost u id p k hm hd =>
    refine refines_settled hm.on ((frame_lost s p k rs).running.trans hm.on) ?_
    rw [← hunt_swept s k rs]
    exact ((h.on hm.on).swept k rs).lost hm.mem_swept
  | @move u id p k hm hd =>
    exact refines_move hm.on ((frame_gone s p k rs).running.trans hm.on) (hm.walked (h.on hm.on) hd)
  | @shootPlayer u id p k r t as hs hr ht hl =>
    have hRa := (h.on hs.on).aimed p
    have ht' := hs.mem_aimed (h.on hs.on) ht hl
    refine refines_move hs.on ((frame_struck (s.aimed p) t _).running.trans hs.on) ?_
    rw [← haimed hs.on p]
    unfold State.struck
    split_ifs
    · exact hRa.lost ht'
    · have hsame : ((s.aimed p).updPlayer t.addr fun t => { t with hp := t.hp - 10 }).hunt = (s.aimed p).hunt :=
        hunt_updPlayer hRa.players t.addr (fun _ => rfl) (fun _ => rfl) fun _ => rfl
      rw [hsame]
      exact .rest
    · exact .rest
  | @shootNothing u id p k r hs hr hw =>
    refine refines_move hs.on hs.on ?_
    rw [haimed hs.on p]
    exact .rest
  | @shootKill u id p k r hs hr hw hp hp5 hit =>
    rw [stage_on hs.on, stage_ended]
    exact .finish
  | @shootWound u id p k r c d n hs hr hw hp hit hst =>
    have hRw : Running (s.aimed p).wounded := ((h.on hs.on).aimed p).congr rfl rfl rfl rfl rfl
    have hst' : Stride (s.aimed p).wounded rs.tail c d n := hst.congr rfl rfl rfl
    have hm : s.hunt.Move ((s.aimed p).wounded.hunted c d n).hunt := by
      rw [← haimed hs.on p]
      exact hRw.prowled hst'
    have hon : ((s.aimed p).wounded.hunted c d n).running = true :=
      (frame_hunted (s.aimed p).wounded c d n).running.trans hs.on
    exact refines_settled hs.on hon hm
  | @shootMiss u id p k r c d n hs hr hw hmiss hst =>
    have hst' : Stride (s.aimed p) rs.tail c d n := hst.congr rfl rfl rfl
    have hm : s.hunt.Move ((s.aimed p).hunted c d n).hunt := by
      rw [← haimed hs.on p]
      exact ((h.on hs.on).aimed p).prowled hst'
    exact refines_settled hs.on ((frame_hunted (s.aimed p) c d n).running.trans hs.on) hm
  | resign hp hr => exact h.refines_resigned (mem_of_findPlayer hp).1
  | reset hr => exact refines_ended s
  | quit hp => exact h.refines_resigned (mem_of_findPlayer hp).1
  | @fireMove id t c d n ht hf hr hst =>
    exact refines_settled hr ((frame_hunted s c d n).running.trans hr) ((h.on hr).prowled hst)
  | fireIdle ht hf hr => exact .stay
  | fireFew ht hf hp => exact .stay
  | fireSmall ht hf hp hs => exact refines_ended s
  | @fireStart id t s' ht hf hp hs hm hst =>
    have hP : PlayersOk { s with starting := false, wantsize := s.wanted } := h.players.congr rfl rfl rfl
    rw [stage_off (h.fires ht hf).2.2]
    exact hst.refines hP hp
  | unload =>
    split
    · exact refines_ended s
    · exact .stay

/-! ### Every run -/

theorem stage_step {w w' : World} {e : Event} (hr : Run.Reach step init w) (hs : step w e = some w') :
    w.st.stage.Step w'.st.stage := by
  obtain ⟨o, v, hT, -⟩ := turn_of_step (inv_of_reach hr) hs
  exact hT.refines (inv_of_reach hr)

/-- **The module is a lobby and pursuits**, whatever is done and drawn. -/
theorem wumpus_is_a_pursuit (es : List Event) :
    Run.Along step (fun w _ w' => w.st.stage.Step w'.st.stage) init es :=
  Run.along_of_reach (fun _ _ _ => stage_step) es

/-- **While a game is on** the exits of every room stay, nobody joins, the wumpus
gets only to where exits lead it, and meets nobody it has not come to. -/
theorem one_game {es fs : List Event} {w w' : World} (hw : Run.exec step init es = some w)
    (hw' : Run.exec step w fs = some w') (hon : Run.Always step (fun w => w.st.running = true) w fs) :
    w.st.hunt.Later w'.st.hunt := by
  have hmoves : Run.Along step (fun t _ t' => t.st.hunt.Move t'.st.hunt) w fs := by
    have hsteps : Run.Along step (fun t _ t' => t.st.stage.Step t'.st.stage) w fs :=
      (Run.along_of_reach (fun _ _ _ => stage_step) (es ++ fs)).rest hw
    refine (Run.along_and.mpr ⟨hsteps, Run.along_and.mpr ⟨hon.along_pre, hon.2⟩⟩).mono ?_
    intro t e t' h
    obtain ⟨hstep, hr, hr'⟩ := h
    rw [stage_on hr, stage_on hr'] at hstep
    exact hstep.hunt
  exact Pursuit.later_of_moves (hmoves.steps (f := fun w => w.st.hunt) hw')

/-- The wumpus' timer fires once in a game of two. -/
theorem one_game_prowl : ∃ w w', Run.exec step init (opening 5 [3, 4]) = some w ∧
    Run.exec step w [⟨.fire 1, [7, 0]⟩] = some w' ∧ w.st.hunt.Later w'.st.hunt := by
  obtain ⟨w, hw⟩ : ∃ w, Run.exec step init (opening 5 [3, 4]) = some w :=
    Option.isSome_iff_exists.mp (by decide +kernel)
  have hrun : ((Run.exec step init (opening 5 [3, 4])).map fun w => (w.st.running,
      (Run.exec step w [⟨.fire 1, [7, 0]⟩]).map fun w' => w'.st.running)) = some (true, some true) := by
    decide +kernel
  rw [hw, Option.map_some, Option.some.injEq, Prod.mk.injEq, Option.map_eq_some_iff] at hrun
  obtain ⟨hon, w', hw', hon'⟩ := hrun
  refine ⟨w, w', hw, hw', one_game hw hw' ⟨hon, fun t ht => ⟨?_, trivial⟩⟩⟩
  rw [Run.exec_cons, ht] at hw'
  cases hw'
  exact hon'

end Wumpus
end AthemeContrib
