/-
# wumpus: what MOVE does to the player and to the objects

The room a move ends in decides what becomes of the player (`Resolved`), and
bats, arrows and the crystal ball are taken from one room and put into another
(`State.holding` counts the rooms that hold a thing). Both suffer from the
random room being written to whatever is in it: bats that carry the player to a
pit replace the pit before it is asked for (`Cushioned`), and whatever was in
the random room is gone (`Tramples`).

Key definitions: `Resolved`, `Cushioned`, `State.holding`, `Tramples`.
Key theorems: `Turn.resolved_iff`, `Turn.holding_iff`, `move_resolves_iff`, `move_conserves_iff`.
-/
import AthemeContrib.Lib.Tally
import AthemeContrib.Wumpus.Contents

namespace AthemeContrib
namespace Wumpus

variable {s s' : State} {rs : List ℕ} {u : ℕ} {id : Option CStr} {v : List Output}

/-! ### The player -/

/-- What `MOVE id` by the user `u` is meant to make of `s`. -/
structure Resolved (s : State) (rs : List ℕ) (u : ℕ) (id : Option CStr) (s' : State) : Prop where
  refused : (∀ p k, ¬ Mover s u id p k) → s' = s
  removed : ∀ p k, Mover s u id p k → ((∀ q ∈ s'.players, q.addr ≠ p.addr) ↔ s.Deadly (s.landing k rs))
  arrives : ∀ p k, Mover s u id p k → ¬ s.Deadly (s.landing k rs) →
    ∃ q ∈ s'.players, q.addr = p.addr ∧ q.location = some (s.landing k rs)
  others : s'.running = s.running → ∀ q ∈ s.players, q.u ≠ u → q ∈ s'.players

/-- The bats of the room `k` would carry the player into a pit, and not to the
wumpus. -/
def Softened (s : State) (k : ℕ) (rs : List ℕ) : Prop :=
  s.contents k = some .bats ∧ s.contents (s.spot rs) = some .pit ∧ s.wumpus ≠ s.spot rs

/-- `MOVE id` leads to bats that would carry the player into a pit. -/
def Cushioned (s : State) (rs : List ℕ) (u : ℕ) (id : Option CStr) : Prop :=
  ∃ p k, Mover s u id p k ∧ Softened s k rs

theorem Mover.cushioned_iff {p : Player} {k : ℕ} (h : Mover s u id p k) :
    Cushioned s rs u id ↔ Softened s k rs := by
  constructor
  · intro ⟨p', k', h', hs⟩
    rwa [(h.unique h').2]
  · exact fun hs => ⟨p, k, h, hs⟩

/-- Bats fly the player on, and are where it is set down. -/
theorem swept_of_bats (rs : List ℕ) (hM : MazeOk s) {k : ℕ} (hb : s.contents k = some .bats) :
    s.swept k rs = s.flown k (s.spot rs) ∧ s.landing k rs = s.spot rs ∧
      (s.flown k (s.spot rs)).contents (s.spot rs) = some .bats := by
  have hspot : s.spot rs < s.mazesize := Nat.mod_lt _ (by have := hM.lo; omega)
  exact ⟨if_pos hb, if_pos hb, contents_put_self _ ((hM.put k .nothing).rooms _ hspot)⟩

/-- After the bats the player is lost where it would have been before, but in a
pit it is carried into. -/
theorem deadly_swept_iff (hM : MazeOk s) (k : ℕ) :
    (s.swept k rs).Deadly (s.landing k rs) ↔ s.Deadly (s.landing k rs) ∧ ¬ Softened s k rs := by
  unfold Softened
  by_cases hb : s.contents k = some .bats
  · obtain ⟨hswept, hland, hbats⟩ := swept_of_bats rs hM hb
    have hwumpus : (s.flown k (s.spot rs)).wumpus = s.wumpus := rfl
    rw [hswept, hland, State.Deadly, State.Deadly, hbats, hwumpus]
    by_cases hw : s.wumpus = s.spot rs
    · simp [hw]
    · simp [hw, hb]
  · have hswept : s.swept k rs = s := if_neg hb
    rw [hswept, and_iff_left fun h => hb h.1]

theorem mem_foraged_of_ne {p q : Player} (hq : q ∈ s.players) (hne : q.addr ≠ p.addr) (d t : ℕ) :
    q ∈ (s.foraged p d t).players := by
  unfold State.foraged
  split_ifs
  · exact List.mem_map.mpr ⟨q, hq, if_neg hne⟩
  · exact hq
  · exact hq
  · exact hq

theorem running_settled_of_on (hs : s.settled.running = true) : s.settled = s := by
  unfold State.settled at hs ⊢
  by_cases hlt : s.players.length < 2
  · rw [if_pos hlt] at hs
    cases hs
  · rw [if_neg hlt]

theorem Mover.addr_ne {p q : Player} {k : ℕ} (h : Mover s u id p k) (hP : PlayersOk s) (hq : q ∈ s.players)
    (hne : q.u ≠ u) : q.addr ≠ p.addr := by
  obtain ⟨hp, hpu⟩ := mem_of_findPlayer h.player
  intro he
  rw [hP.eq_of_addr hq hp he, hpu] at hne
  exact hne rfl

/-- A player who is lost is out of the game, and nobody else is, unless it ends. -/
theorem Mover.lost {p : Player} {k : ℕ} (h : Mover s u id p k) (hI : Inv s) (rs : List ℕ) :
    (∀ q ∈ ((s.swept k rs).resigned p).settled.players, q.addr ≠ p.addr) ∧
      (((s.swept k rs).resigned p).settled.running = s.running →
        ∀ q ∈ s.players, q.u ≠ u → q ∈ ((s.swept k rs).resigned p).settled.players) := by
  constructor
  · intro q hq
    unfold State.settled at hq
    split at hq
    · cases hq
    · exact of_decide_eq_true (List.mem_filter.mp hq).2
  · intro hr q hq hne
    rw [running_settled_of_on (hr.trans h.on), players_resigned, players_swept]
    exact List.mem_filter.mpr ⟨hq, decide_eq_true (h.addr_ne hI.players hq hne)⟩

/-- A player who is not lost is where the move ends, and the others where they were. -/
theorem Mover.gone {p : Player} {k : ℕ} (h : Mover s u id p k) (hI : Inv s) (rs : List ℕ) (d t : ℕ) :
    (∃ q ∈ (((s.swept k rs).foraged p d t).relocated p d).players, q.addr = p.addr ∧ q.location = some d) ∧
      ∀ q ∈ s.players, q.u ≠ u → q ∈ (((s.swept k rs).foraged p d t).relocated p d).players := by
  rw [players_relocated]
  constructor
  · obtain ⟨q, hq, hqa, -⟩ := mem_foraged (s := s.swept k rs) h.mem_swept d t
    exact ⟨{ q with location := some d }, List.mem_map.mpr ⟨q, hq, if_pos hqa⟩, hqa, rfl⟩
  · intro q hq hne
    have hqp := h.addr_ne hI.players hq hne
    have hmem : q ∈ ((s.swept k rs).foraged p d t).players :=
      mem_foraged_of_ne (by rwa [players_swept]) hqp d t
    exact List.mem_map.mpr ⟨q, hmem, if_neg hqp⟩

/-- A move turns out as it should exactly if no bats carry the player into a pit. -/
theorem Turn.resolved_iff (h : Turn s rs (.move u id) s' v) (hI : Inv s) :
    Resolved s rs u id s' ↔ ¬ Cushioned s rs u id := by
  cases h with
  | moveNo hno =>
    have hnot : ¬ Cushioned s rs u id := fun ⟨p, k, h, _⟩ => hno p k h
    refine iff_of_true ⟨fun _ => rfl, ?_, ?_, fun _ q hq _ => hq⟩ hnot
    · exact fun p k h => absurd h (hno p k)
    · exact fun p k h => absurd h (hno p k)
  | @moveLost _ _ p k h hd =>
    obtain ⟨hd, hnot⟩ := (deadly_swept_iff (hI.on h.on).maze k).mp hd
    obtain ⟨hgone, hothers⟩ := h.lost hI rs
    refine iff_of_true ⟨fun hno => absurd h (hno p k), ?_, ?_, hothers⟩ fun hc => hnot (h.cushioned_iff.mp hc)
    · intro p' k' h'
      obtain ⟨rfl, rfl⟩ := h.unique h'
      exact iff_of_true hgone hd
    · intro p' k' h' hsafe
      obtain ⟨rfl, rfl⟩ := h.unique h'
      exact absurd hd hsafe
  | @move _ _ p k h hd =>
    obtain ⟨⟨q, hq, hqa, hql⟩, hothers⟩ := h.gone hI rs (s.landing k rs) (s.spot rs)
    rw [deadly_swept_iff (hI.on h.on).maze k, not_and, not_not] at hd
    rw [h.cushioned_iff]
    constructor
    · intro hres hsoft
      have hdeadly : s.Deadly (s.landing k rs) := by
        rw [State.landing, if_pos hsoft.1]
        exact Or.inr hsoft.2.1
      exact (hres.removed p k h).mpr hdeadly q hq hqa
    · intro hnot
      refine ⟨fun hno => absurd h (hno p k), ?_, ?_, fun _ => hothers⟩
      · intro p' k' h'
        obtain ⟨rfl, rfl⟩ := h.unique h'
        exact iff_of_false (fun hall => hall q hq hqa) fun hdeadly => hnot (hd hdeadly)
      · intro p' k' h' _
        obtain ⟨rfl, rfl⟩ := h.unique h'
        exact ⟨q, hq, hqa, hql⟩

/-! ### The objects -/

/-- What is in the room `i`. -/
def State.item (s : State) (i : ℕ) : Contents := (s.contents i).getD .nothing

/-- How many rooms hold `c`. -/
def State.holding (s : State) (c : Contents) : ℕ := tally (Finset.range s.mazesize) s.item c

/-- Something is taken from the room `k`: bats, or arrows or the crystal ball
that the wumpus is not with. -/
def Lifts (s : State) (k : ℕ) : Prop :=
  s.contents k = some .bats ∨ s.wumpus ≠ k ∧ (s.contents k = some .arrows ∨ s.contents k = some .crystalball)

/-- `MOVE id` takes something from a room and puts it into another that is not
empty. -/
def Tramples (s : State) (rs : List ℕ) (u : ℕ) (id : Option CStr) : Prop :=
  ∃ p k, Mover s u id p k ∧ Lifts s k ∧ s.spot rs ≠ k ∧ s.contents (s.spot rs) ≠ some .nothing

theorem Mover.tramples_iff {p : Player} {k : ℕ} (h : Mover s u id p k) :
    Tramples s rs u id ↔ Lifts s k ∧ s.spot rs ≠ k ∧ s.contents (s.spot rs) ≠ some .nothing := by
  constructor
  · intro ⟨p', k', h', hs⟩
    rwa [(h.unique h').2]
  · exact fun hs => ⟨p, k, h, hs⟩

theorem holding_congr (hm : s'.mazesize = s.mazesize) (hc : ∀ i, s'.contents i = s.contents i)
    (c : Contents) : s'.holding c = s.holding c := by
  have hitem : s'.item = s.item := funext fun i => by rw [State.item, State.item, hc]
  rw [State.holding, State.holding, hm, hitem]

theorem item_put {i : ℕ} (hi : ∃ r, s.room? i = some r) (c : Contents) :
    (s.put i c).item = Function.update s.item i c := by
  funext j
  by_cases hj : j = i
  · rw [hj, Function.update_self, State.item, contents_put_self c hi]
    rfl
  · rw [Function.update_of_ne hj, State.item, contents_put_ne c (Ne.symm hj)]
    rfl

/-- A thing that is put into another room is not lost, and loses nothing, exactly
if that room was empty. -/
theorem holding_moved_iff (hM : MazeOk s) {k t : ℕ} (hk : k < s.mazesize) (ht : t < s.mazesize) {b : Contents}
    (hb : s.contents k = some b) :
    (∀ c, c ≠ .nothing → ((s.put k .nothing).put t b).holding c = s.holding c) ↔
      t = k ∨ s.contents t = some .nothing := by
  have hitem : ((s.put k .nothing).put t b).item = moved s.item .nothing k t := by
    rw [item_put ((hM.put k .nothing).rooms t ht), item_put (hM.rooms k hk), moved]
    congr 1
    rw [State.item, hb]
    rfl
  have hempty : s.item t = .nothing ↔ s.contents t = some .nothing := by
    obtain ⟨r, hr⟩ := hM.rooms t ht
    rw [State.item, contents_eq hr]
    simp
  have hmoved :=
    tally_moved_iff (f := s.item) (Finset.mem_range.mpr hk) (Finset.mem_range.mpr ht) Contents.nothing
  rw [← hitem, hempty] at hmoved
  exact hmoved

/-- What a move to the room `k` has made of the rooms, where it did not end the
game: something is taken from there, or nothing. -/
def Rearranged (s : State) (k t : ℕ) (s' : State) : Prop :=
  s'.mazesize = s.mazesize ∧ ((∃ b, s.contents k = some b ∧ Lifts s k ∧
    ∀ i, s'.contents i = ((s.put k .nothing).put t b).contents i) ∨
      ¬ Lifts s k ∧ ∀ i, s'.contents i = s.contents i)

/-- The rooms after the bats, when the player is lost. -/
theorem rearranged_lost (p : Player) {k : ℕ} (hd : (s.swept k rs).Deadly (s.landing k rs)) :
    Rearranged s k (s.spot rs) ((s.swept k rs).resigned p) := by
  refine ⟨(frame_lost s p k rs).mazesize, ?_⟩
  by_cases hb : s.contents k = some .bats
  · refine Or.inl ⟨.bats, hb, Or.inl hb, fun i => ?_⟩
    rw [contents_resigned, State.swept, if_pos hb]
    rfl
  · rw [State.swept, State.landing, if_neg hb, if_neg hb] at hd
    refine Or.inr ⟨?_, fun i => ?_⟩
    · rintro (h | ⟨hw, h⟩)
      · exact hb h
      · rcases hd with hd | hd
        · exact hw hd
        · rw [hd] at h
          simp at h
    · rw [contents_resigned, State.swept, if_neg hb]

/-- The rooms after the player has found what is there. -/
theorem rearranged_gone (hM : MazeOk s) (p : Player) {k : ℕ}
    (hd : ¬ (s.swept k rs).Deadly (s.landing k rs)) : Rearranged s k (s.spot rs)
      (((s.swept k rs).foraged p (s.landing k rs) (s.spot rs)).relocated p (s.landing k rs)) := by
  refine ⟨(frame_gone s p k rs).mazesize, ?_⟩
  simp only [contents_relocated]
  by_cases hb : s.contents k = some .bats
  · -- where the bats have flown the player finds nothing else
    obtain ⟨hswept, hland, hbats⟩ := swept_of_bats rs hM hb
    refine Or.inl ⟨.bats, hb, Or.inl hb, fun i => ?_⟩
    rw [hswept, hland, State.foraged, if_neg (by rw [hbats]; decide), if_neg (by rw [hbats]; decide)]
    rfl
  · rw [State.swept, State.landing, if_neg hb, if_neg hb] at hd ⊢
    have hw : s.wumpus ≠ k := fun h => hd (Or.inl h)
    unfold State.foraged
    by_cases ha : s.contents k = some .arrows
    · refine Or.inl ⟨.arrows, ha, Or.inr ⟨hw, Or.inl ha⟩, fun i => ?_⟩
      rw [if_pos ha]
      split <;> rfl
    · rw [if_neg ha]
      by_cases hball : s.contents k = some .crystalball
      · refine Or.inl ⟨.crystalball, hball, Or.inr ⟨hw, Or.inr hball⟩, fun i => ?_⟩
        rw [if_pos hball]
      · refine Or.inr ⟨?_, fun i => by rw [if_neg hball]⟩
        rintro (h | ⟨-, h | h⟩)
        · exact hb h
        · exact ha h
        · exact hball h

/-- After such a move as many rooms hold each thing as before, exactly if
nothing was put on top of another. -/
theorem rearranged_holding_iff (hM : MazeOk s) {k t : ℕ} (hk : k < s.mazesize) (ht : t < s.mazesize)
    (h : Rearranged s k t s') : (∀ c, c ≠ .nothing → s'.holding c = s.holding c) ↔
      ¬ (Lifts s k ∧ t ≠ k ∧ s.contents t ≠ some .nothing) := by
  obtain ⟨hsize, ⟨b, hb, hl, hc⟩ | ⟨hl, hc⟩⟩ := h
  · have hput : ∀ c, s'.holding c = ((s.put k .nothing).put t b).holding c := fun c =>
    holding_congr (s := (s.put k .nothing).put t b) hsize hc c
    simp only [hput]
    rw [holding_moved_iff hM hk ht hb]
    simp only [hl, true_and]
    tauto
  · exact iff_of_true (fun c _ => holding_congr hsize hc c) fun h => hl h.1

/-- A move that does not end the game keeps the number of rooms that hold each
thing exactly if it puts nothing on top of another. -/
theorem Turn.holding_iff (h : Turn s rs (.move u id) s' v) (hI : Inv s) (hr : s'.running = true) :
    (∀ c, c ≠ .nothing → s'.holding c = s.holding c) ↔ ¬ Tramples s rs u id := by
  cases h with
  | moveNo hno => exact iff_of_true (fun _ _ => rfl) fun ⟨p, k, h, _⟩ => hno p k h
  | @moveLost _ _ p k h hd =>
    have hM := (hI.on h.on).maze
    have hspot : s.spot rs < s.mazesize := Nat.mod_lt _ (by have := h.lt; omega)
    rw [running_settled_of_on hr, h.tramples_iff]
    exact rearranged_holding_iff hM h.lt hspot (rearranged_lost p hd)
  | @move _ _ p k h hd =>
    have hM := (hI.on h.on).maze
    have hspot : s.spot rs < s.mazesize := Nat.mod_lt _ (by have := h.lt; omega)
    rw [h.tramples_iff]
    exact rearranged_holding_iff hM h.lt hspot (rearranged_gone hM p hd)

/-! ### Every reachable state -/

section
variable {w w' : World} {draws : List ℕ} (hw : Run.Reach step init w)
  (h : step w ⟨.move u id, draws⟩ = some w')
include hw h

/-- **A move resolves what is in the room the player ends in, exactly if no bats
carry the player into a pit.** -/
theorem move_resolves_iff : Resolved w.st draws u id w'.st ↔ ¬ Cushioned w.st draws u id := by
  have hI := inv_of_reach hw
  obtain ⟨o, v, hT, -⟩ := turn_of_step hI h
  exact hT.resolved_iff hI

/-- **A move that does not end the game loses and creates nothing, exactly if it
puts nothing on top of another.** -/
theorem move_conserves_iff (hr : w'.st.running = true) :
    (∀ c, c ≠ .nothing → w'.st.holding c = w.st.holding c) ↔ ¬ Tramples w.st draws u id := by
  have hI := inv_of_reach hw
  obtain ⟨o, v, hT, -⟩ := turn_of_step hI h
  exact hT.holding_iff hI hr

end

/-- The numbers of a maze like `ring`, with bats in the room 2 and a pit in the
room 7; the players are placed in the rooms 1 and 3. -/
def caves : List ℕ :=
  (List.range 10).flatMap (fun i => [i + 1, i + 1, i + 1]) ++
    0 :: ((List.range 60).map (fun i => if i = 7 ∨ i = 12 then 0 else 1) ++ [5, 1, 3])

/-- The users 1 and 2 play in it. -/
def descent : List Event := [⟨.start 0 (some ['1', '0']), []⟩, ⟨.join 1, []⟩, ⟨.join 2, []⟩, ⟨.fire 0, caves⟩]

/-- The user 1 goes to the bats, which fly to the room `d`. -/
def ride (d : ℕ) : Event := ⟨.move 1 (some ['2']), [d]⟩

/-- Where the game stands before the user 1 goes anywhere. -/
theorem exists_descent : ∃ w, Run.exec step init descent = some w ∧
    Mover w.st 1 (some ['2']) ⟨0, 1, some 1, 10, 30, false⟩ 2 ∧ w.st.mazesize = 10 ∧
    w.st.contents 2 = some .bats ∧ w.st.contents 7 = some .pit ∧ w.st.holding .pit = 1 := by
  have hrun : (Run.exec step init descent).map (fun w => (w.st.findPlayer 1, w.st.running, w.st.room? 1)) =
      some (some ⟨0, 1, some 1, 10, 30, false⟩, true, some ⟨1, [2, 2, 2], .nothing, [0]⟩) := by decide +kernel
  have hrooms : (Run.exec step init descent).map
      (fun w => (w.st.mazesize, w.st.contents 2, w.st.contents 7, w.st.holding .pit)) =
      some (10, some .bats, some .pit, 1) := by decide +kernel
  obtain ⟨w, hw, hfacts⟩ := Option.map_eq_some_iff.mp hrun
  rw [hw, Option.map_some, Option.some.injEq] at hrooms
  simp only [Prod.mk.injEq] at hfacts hrooms
  obtain ⟨hplayer, hon, hroom⟩ := hfacts
  obtain ⟨hsize, hbats, hpit, hone⟩ := hrooms
  have hmover : Mover w.st 1 (some ['2']) ⟨0, 1, some 1, 10, 30, false⟩ 2 :=
    ⟨hplayer, hon, ⟨_, rfl, by decide⟩, ⟨1, _, rfl, hroom, 2, by decide, rfl⟩, by omega⟩
  exact ⟨w, hw, hmover, hsize, hbats, hpit, hone⟩

/-- The bats fly to an empty room, or to the pit. -/
theorem exists_ride {d : ℕ} (hd : d = 7 ∨ d = 8) {w : World} (hw : Run.exec step init descent = some w) :
    ∃ w', step w (ride d) = some w' ∧ w'.st.running = true ∧ w'.st.players.map (·.addr) = [0, 1] ∧
      (d = 7 → w'.st.holding .pit = 0) := by
  have hrun : (Run.exec step init (descent ++ [ride d])).map
      (fun w => (w.st.running, w.st.players.map (·.addr), w.st.holding .pit)) =
      some (true, [0, 1], if d = 7 then 0 else 1) := by
    rcases hd with rfl | rfl
    · decide +kernel
    · decide +kernel
  obtain ⟨w', hw', hfacts⟩ := Option.map_eq_some_iff.mp hrun
  rw [Run.exec_snoc hw] at hw'
  simp only [Prod.mk.injEq] at hfacts
  obtain ⟨hon, haddrs, hpits⟩ := hfacts
  refine ⟨w', hw', hon, haddrs, fun h7 => ?_⟩
  rw [hpits, if_pos h7]

theorem move_resolves_ride : ∃ w w', Run.Reach step init w ∧ step w (ride 8) = some w' ∧
    (Resolved w.st [8] 1 (some ['2']) w'.st ↔ ¬ Cushioned w.st [8] 1 (some ['2'])) := by
  obtain ⟨w, hw, -⟩ := exists_descent
  obtain ⟨w', hw', -⟩ := exists_ride (Or.inr rfl) hw
  exact ⟨w, w', ⟨_, hw⟩, hw', move_resolves_iff ⟨_, hw⟩ hw'⟩

/-- The bats carry the player into a pit, and the player lives. -/
theorem survives_pit : ¬ ∀ w w' u id draws, Run.Reach step init w → step w ⟨.move u id, draws⟩ = some w' →
    Resolved w.st draws u id w'.st := by
  intro h
  obtain ⟨w, hw, hmover, hsize, hbats, hpit, -⟩ := exists_descent
  obtain ⟨w', hw', -, haddrs, -⟩ := exists_ride (Or.inl rfl) hw
  have hland : w.st.landing 2 [7] = 7 := by
    rw [State.landing, if_pos hbats, State.spot, hsize]
    rfl
  have hdeadly : w.st.Deadly (w.st.landing 2 [7]) := by
    rw [hland]
    exact Or.inr hpit
  have hgone := ((h w w' 1 _ [7] ⟨_, hw⟩ hw').removed _ 2 hmover).mpr hdeadly
  have hmem : 0 ∈ w'.st.players.map (·.addr) := by
    rw [haddrs]
    exact List.mem_cons_self
  obtain ⟨q, hq, hq0⟩ := List.mem_map.mp hmem
  exact hgone q hq hq0

theorem move_conserves_ride : ∃ w w', Run.Reach step init w ∧ step w (ride 8) = some w' ∧
    ((∀ c, c ≠ .nothing → w'.st.holding c = w.st.holding c) ↔ ¬ Tramples w.st [8] 1 (some ['2'])) := by
  obtain ⟨w, hw, -⟩ := exists_descent
  obtain ⟨w', hw', hon, -⟩ := exists_ride (Or.inr rfl) hw
  exact ⟨w, w', ⟨_, hw⟩, hw', move_conserves_iff ⟨_, hw⟩ hw' hon⟩

/-- The bats fly to the room with the pit, and there is no pit any more. -/
theorem pit_is_lost : ¬ ∀ w w' u id draws, Run.Reach step init w → step w ⟨.move u id, draws⟩ = some w' →
    w'.st.running = true → ∀ c, c ≠ .nothing → w'.st.holding c = w.st.holding c := by
  intro h
  obtain ⟨w, hw, -, -, -, -, hone⟩ := exists_descent
  obtain ⟨w', hw', hon, -, hzero⟩ := exists_ride (Or.inl rfl) hw
  have hsame := h w w' 1 _ [7] ⟨_, hw⟩ hw' hon .pit (by decide)
  rw [hone, hzero rfl] at hsame
  exact absurd hsame (by decide)

end Wumpus
end AthemeContrib
