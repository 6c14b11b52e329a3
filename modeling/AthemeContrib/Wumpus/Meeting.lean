/-
# wumpus: nobody is with the wumpus

`Apart` says that while the game is on nobody is in the wumpus' room. Three of
the four ways to get there are seen to in the event itself: who walks in, or is
carried in by bats, is eaten (`move_player`), and so are those the wumpus walks
in on, whether its timer or a shot made it move (`move_wumpus`).

The fourth is not: `init_game` draws a room for every player and does not ask
where the wumpus is (`Meets`). A player who starts in its room stays alive
there.

Key definitions: `Apart`, `Clear`, `Meets`.
Key theorems: `clear_hunted`, `clear_gone`, `Turn.clear_iff`, `nobody_with_wumpus_iff`.
-/
import AthemeContrib.Wumpus.Represented

namespace AthemeContrib
namespace Wumpus

variable {s : State} {rs : List ℕ}

/-- While the game is on, the id of nobody's room is the wumpus'. -/
def Apart (s : State) : Prop :=
  s.running = true → ∀ p ∈ s.players, ∀ i r, p.location = some i → s.room? i = some r → (r.id : ℤ) ≠ s.wumpus

/-- Nobody is in the wumpus' room. -/
def Clear (s : State) : Prop := ∀ k : ℕ, Occupied s k → s.wumpus ≠ k

/-- With the numbers `rs` the act starts a game, and one of the players is put
into the wumpus' room. -/
def Meets (s : State) (rs : List ℕ) : Act → Prop
  | .fire id => (∃ t, s.loop.find id = some t ∧ t.func = .startGame) ∧ 2 ≤ s.players.length ∧ 10 ≤ s.wanted ∧
    ∃ rest, skipRooms s.wanted (List.range s.wanted) rs = some rest ∧
      rest.headD 0 % s.wanted ∈ places s.wanted s.players.length rest
  | _ => False

theorem Running.apart_iff (h : Running s) (hr : s.running = true) : Apart s ↔ Clear s := by
  unfold Apart
  rw [forall_prop_of_true hr]
  constructor
  · intro ha k ⟨p, hp, hk⟩ hw
    obtain ⟨i, r, hi, hir⟩ := h.exists_room hp
    have hid := (h.maze.room i r hir).2.id
    rw [hi, Option.some.injEq] at hk
    apply ha p hp i r hi hir
    rw [hid, hk, hw]
  · intro hc p hp i r hi hir hw
    have hid := (h.maze.room i r hir).2.id
    rw [hid] at hw
    exact hc i ⟨p, hp, hi⟩ hw.symm

theorem Inv.apart_iff (h : Inv s) : Apart s ↔ (s.running = true → Clear s) := by
  by_cases hr : s.running = true
  · rw [(h.on hr).apart_iff hr, forall_prop_of_true hr]
  · exact iff_of_true (fun hr' => absurd hr' hr) fun hr' => absurd hr' hr

/-! ### Who is where afterwards -/

/-- If no room gets occupied, nobody gets to the wumpus. -/
theorem Clear.of_occupied {s' : State} (h : Clear s) (hw : s'.wumpus = s.wumpus)
    (ho : ∀ k, Occupied s' k → Occupied s k) : Clear s' := by
  intro k hk
  rw [hw]
  exact h k (ho k hk)

/-- What happens to a player who stays leaves the rooms occupied as they are. -/
theorem occupied_updPlayer {a : ℕ} {f : Player → Player} (hf : ∀ p, (f p).location = p.location) (k : ℕ) :
    Occupied (s.updPlayer a f) k ↔ Occupied s k := by
  simp only [Occupied, State.updPlayer, List.mem_map, exists_exists_and_eq_and]
  refine exists_congr fun p => and_congr_right fun _ => ?_
  split
  · rw [hf]
  · rfl

theorem occupied_aimed (p : Player) (k : ℕ) : Occupied (s.aimed p) k ↔ Occupied s k :=
  occupied_updPlayer (f := fun p => { p with arrows := p.arrows - 1 }) (fun _ => rfl) k

theorem occupied_resigned {p : Player} {k : ℕ} (h : Occupied (s.resigned p) k) : Occupied s k := by
  obtain ⟨q, hq, hk⟩ := h
  exact ⟨q, List.mem_of_mem_filter hq, hk⟩

theorem occupied_struck {t : Player} {hit k : ℕ} (h : Occupied (s.struck t hit) k) : Occupied s k := by
  unfold State.struck at h
  split_ifs at h
  · exact occupied_resigned h
  · exact (occupied_updPlayer (f := fun t => { t with hp := t.hp - 10 }) (fun _ => rfl) k).mp h
  · exact h

theorem occupied_swept (n k : ℕ) : Occupied (s.swept n rs) k ↔ Occupied s k := by
  unfold Occupied
  rw [players_swept]

theorem occupied_foraged (p : Player) (d t k : ℕ) : Occupied (s.foraged p d t) k ↔ Occupied s k := by
  unfold State.foraged
  split_ifs
  · exact occupied_updPlayer (f := fun p => { p with arrows := p.arrows + 5 }) (fun _ => rfl) k
  · exact Iff.rfl
  · exact Iff.rfl
  · exact Iff.rfl

/-- A player who gets to the room `d` occupies no other. -/
theorem occupied_of_relocated {p : Player} {d k : ℕ} (h : Occupied (s.relocated p d) k) :
    Occupied s k ∨ k = d := by
  obtain ⟨q, hq, hk⟩ := h
  rw [players_relocated] at hq
  obtain ⟨q', hq', rfl⟩ := List.mem_map.mp hq
  split at hk
  · exact Or.inr (Option.some.inj hk).symm
  · exact Or.inl ⟨q', hq', hk⟩

/-- Nobody is left in the room the wumpus has moved to. -/
theorem clear_hunted (h : PlayersOk s) (c : Contents) (d n : ℕ) : Clear (s.hunted c d n) := by
  intro k ⟨p, hp, hk⟩
  have hw : (s.hunted c d n).wumpus = n := (frame_hunted s c d n).wumpus
  rw [players_hunted h] at hp
  obtain ⟨q, hq, rfl⟩ := List.mem_map.mp hp
  have hne : q.location ≠ some n := of_decide_eq_true (List.mem_filter.mp hq).2
  rw [hw]
  intro he
  rw [Int.natCast_inj] at he
  rw [he] at hne
  exact hne hk

/-- A player who gets somewhere is not with the wumpus. -/
theorem clear_gone (h : Clear s) {p : Player} {k : ℕ} (hd : ¬ (s.swept k rs).Deadly (s.landing k rs)) :
    Clear (((s.swept k rs).foraged p (s.landing k rs) (s.spot rs)).relocated p (s.landing k rs)) := by
  intro j hj
  rw [(frame_gone s p k rs).wumpus]
  rcases occupied_of_relocated hj with hj | rfl
  · rw [occupied_foraged, occupied_swept] at hj
    exact h j hj
  · intro hw
    refine hd (Or.inl ?_)
    rw [(frame_swept s k rs).wumpus]
    exact hw

/-- The check ends the game or leaves everybody where they are. -/
theorem clear_settled (h : Clear s) : s.settled.running = true → Clear s.settled := by
  unfold State.settled
  split
  · intro hr
    cases hr
  · exact fun _ => h

/-! ### One turn -/

theorem not_meets_of_find {id : ℕ} {t : Timer Callback} (ht : s.loop.find id = some t)
    (hf : t.func = .moveWumpus) : ¬ Meets s rs (.fire id) :=
  fun hm => absurd (hf.symm.trans ((EventLoop.find_func_iff ht).mp hm.1)) (by decide)

/-- In a new game somebody is with the wumpus exactly if one of the players is
put there. -/
theorem Started.clear_iff {s₀ s' : State} (h : Started s₀ s' rs) {rest : List ℕ}
    (hskip : skipRooms s'.mazesize (List.range s'.mazesize) rs = some rest) :
    Clear s' ↔ rest.headD 0 % s'.mazesize ∉ places s'.mazesize s₀.players.length rest := by
  obtain ⟨rest', hskip', hw, hocc⟩ := h.rooms
  rw [hskip, Option.some.injEq] at hskip'
  rw [← hskip'] at hw hocc
  rw [← hocc]
  constructor
  · exact fun hc ho => hc _ ho hw
  · intro hno k hk hwk
    rw [hw, Int.natCast_inj] at hwk
    rw [← hwk] at hk
    exact hno hk

/-- **A turn leaves nobody with the wumpus exactly if it does not start a game
with somebody in its room.** -/
theorem Turn.clear_iff {a : Act} {s' : State} {v : List Output} (hT : Turn s rs a s' v) (hI : Inv s)
    (h : s.running = true → Clear s) : ¬ Meets s rs a ↔ (s'.running = true → Clear s') := by
  have off : s'.running = false → s'.running = true → Clear s' :=
    fun hf hr => absurd (hf.symm.trans hr) (by decide)
  cases hT with
  | startBusy _ => exact iff_of_true not_false h
  | start n hb => exact iff_of_true not_false h
  | joinNo => exact iff_of_true not_false h
  | join hs hr hp => exact iff_of_true not_false (off hr)
  | look => exact iff_of_true not_false h
  | who => exact iff_of_true not_false h
  | moveNo _ => exact iff_of_true not_false h
  | @moveLost u id p k hm hd =>
    refine iff_of_true not_false (clear_settled ?_)
    refine (h hm.on).of_occupied (frame_lost s p k rs).wumpus fun j hj => ?_
    exact (occupied_swept k j).mp (occupied_resigned hj)
  | move hm hd => exact iff_of_true not_false fun _ => clear_gone (h hm.on) hd
  | shootNo _ => exact iff_of_true not_false h
  | @shootPlayer u id p k r t as hs hr ht hl =>
    refine iff_of_true not_false fun _ => ?_
    refine (h hs.on).of_occupied (frame_struck (s.aimed p) t _).wumpus fun j hj => ?_
    exact (occupied_aimed p j).mp (occupied_struck hj)
  | shootNothing hs hr hw =>
    refine iff_of_true not_false fun _ => ?_
    exact (h hs.on).of_occupied rfl fun j => (occupied_aimed _ j).mp
  | shootKill hs hr hw hp hp5 hit => exact iff_of_true not_false (off rfl)
  | @shootWound u id p k r c d n hs hr hw hp hit hst =>
    have hP : PlayersOk (s.aimed p).wounded := ((hI.on hs.on).aimed p).players.congr rfl rfl rfl
    exact iff_of_true not_false (clear_settled (clear_hunted hP c d n))
  | @shootMiss u id p k r c d n hs hr hw hm hst =>
    have hP := ((hI.on hs.on).aimed p).players
    exact iff_of_true not_false (clear_settled (clear_hunted hP c d n))
  | resignNo _ => exact iff_of_true not_false h
  | @resign u p hp hr =>
    refine iff_of_true not_false fun _ => ?_
    exact (h hr).of_occupied (frame_resigned s p).wumpus fun _ => occupied_resigned
  | resetNo _ => exact iff_of_true not_false h
  | reset _ => exact iff_of_true not_false (off rfl)
  | quitNo _ => exact iff_of_true not_false h
  | @quit u p hp =>
    refine iff_of_true not_false fun hr => ?_
    have hon : s.running = true := (frame_resigned s p).running.symm.trans hr
    exact (h hon).of_occupied (frame_resigned s p).wumpus fun _ => occupied_resigned
  | nick f => exact iff_of_true not_false h
  | @fireMove id t c d n ht hf hr hst =>
    exact iff_of_true (not_meets_of_find ht hf) (clear_settled (clear_hunted hI.players c d n))
  | fireIdle ht hf hr => exact iff_of_true (not_meets_of_find ht hf) (off hr)
  | fireFew ht hf hp =>
    refine iff_of_true ?_ (off (hI.fires ht hf).2.2)
    rintro ⟨-, hge, -⟩
    omega
  | fireSmall ht hf hp hs =>
    refine iff_of_true ?_ (off rfl)
    rintro ⟨-, -, hge, -⟩
    omega
  | @fireStart id t s' ht hf hp hs hm hst =>
    obtain ⟨rest, hskip, -⟩ := hst.rooms
    have hclear : ((s'.ran t).running = true → Clear (s'.ran t)) ↔
        rest.headD 0 % s.wanted ∉ places s.wanted s.players.length rest := by
      rw [← hm]
      exact (forall_prop_of_true (p := (s'.ran t).running = true) hst.on).trans (hst.clear_iff hskip)
    rw [hm] at hskip
    rw [hclear, not_iff_not]
    constructor
    · rintro ⟨-, -, -, rest', hskip', hmem⟩
      rw [hskip, Option.some.injEq] at hskip'
      rwa [← hskip'] at hmem
    · exact fun hmem => ⟨⟨t, ht, hf⟩, hp, hs, rest, hskip, hmem⟩
  | unload =>
    apply iff_of_true not_false
    split
    · intro hr
      cases hr
    · rename_i hoff
      exact fun hr => absurd hr hoff

/-! ### Every run -/

/-- **Nobody survives in the wumpus' room, as long as no game starts with a
player in it.** -/
theorem nobody_with_wumpus_iff (es : List Event) : Run.Always step (fun w => Apart w.st) init es ↔
    Run.Along step (fun w e _ => ¬ Meets w.st e.draws e.act) init es := by
  have h0 : Apart init.st := fun hr => absurd hr (by decide)
  refine always_iff_of_turn (C := fun s rs a => ¬ Meets s rs a) h0 (fun hT hI _ h => ?_) es
  rw [(hT.inv hI).apart_iff]
  exact hT.clear_iff hI (hI.apart_iff.mp h)

/-- The first player is put into the room 0, where the wumpus is. -/
theorem placed_with_wumpus : ¬ Run.Always step (fun w => Apart w.st) init (opening 5 [0, 1]) := by
  intro h
  have hrun : (Run.exec step init (opening 5 [0, 1])).map
      (fun w => (w.st.running, w.st.wumpus, w.st.players.map (·.location), (w.st.room? 0).map (·.id))) =
      some (true, 0, [some 0, some 1], some 0) := by
    decide +kernel
  rw [Option.map_eq_some_iff] at hrun
  obtain ⟨w, hw, heq⟩ := hrun
  simp only [Prod.mk.injEq] at heq
  obtain ⟨hon, hwumpus, hloc, hroom⟩ := heq
  obtain ⟨r, hr, hid⟩ := Option.map_eq_some_iff.mp hroom
  have hmem : some 0 ∈ w.st.players.map (·.location) := by
    rw [hloc]
    exact List.mem_cons_self
  obtain ⟨p, hp, hp0⟩ := List.mem_map.mp hmem
  have hapart := h.of_exec hw hon p hp 0 r hp0 hr
  rw [hid, hwumpus] at hapart
  exact hapart rfl

end Wumpus
end AthemeContrib
