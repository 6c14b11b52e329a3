/-
# wumpus: building the maze and starting the game

`build_maze` digs the rooms one after another. While the room `i` is dug, the
rooms after it are still blank: an exit to one of them is seen with the id 0
(`seenIds`), so the check for a second exit to the same room can miss it.
What is left of the numbers when the rooms are dug (`skipRooms`) then fills
the maze (`filling`): six passes over all rooms, then the crystal ball. The
wumpus' room is spared (`spared`) if none of them puts something there. The
numbers after that place the players (`places`), wherever the wumpus is.

Key definitions: `skipRooms`, `spared`, `Lair`, `Occupied`, `places`, `Started`.
Key theorems: `wp_digMaze`, `wp_pass`, `wp_fillMaze`, `wp_buildMaze`, `wp_startGame`.
-/
import AthemeContrib.Wumpus.Rules
import Mathlib.Data.List.GetD

namespace AthemeContrib
namespace Wumpus

open Prog

variable {s : State} {o : List Output} {rs : List ℕ} {size : ℕ}

/-- The state while the maze has these rooms. -/
def State.withRooms (s : State) (size : ℕ) (rooms : List Room) : State :=
  { s with mazesize := size, rmemctx := some rooms }

/-! ### The exits -/

/-- The ids seen in the exits of the room `i` while it is dug. -/
def seenIds (i : ℕ) (exits : List ℕ) : List ℕ := exits.map fun x => if x < i then x else 0

/-- The numbers left after `n` more exits of the room `i`. -/
def skipExits (size i : ℕ) : ℕ → List ℕ → List ℕ → Option (List ℕ)
  | 0, _, rs => some rs
  | _ + 1, _, [] => none
  | n + 1, exits, r :: rs =>
    (pickExit i size (seenIds i exits) (r % size) rs).bind fun (t, rs) => skipExits size i n (exits ++ [t]) rs

/-- The numbers left after the rooms are dug. -/
def skipRooms (size : ℕ) : List ℕ → List ℕ → Option (List ℕ)
  | [], rs => some rs
  | i :: is, rs => (skipExits size i 3 [] rs).bind (skipRooms size is)

/-- The exit that is added next to the room `i`, and the numbers left. -/
def nextExit (size i : ℕ) (exits : List ℕ) : List ℕ → Option (ℕ × List ℕ)
  | [] => none
  | r :: rs => pickExit i size (seenIds i exits) (r % size) rs

/-- The exits of the room `i` after `n` more, and the numbers left. -/
def exitPlan (size i : ℕ) : ℕ → List ℕ → List ℕ → Option (List ℕ × List ℕ)
  | 0, exits, rs => some (exits, rs)
  | n + 1, exits, rs => (nextExit size i exits rs).bind fun (t, rs) => exitPlan size i n (exits ++ [t]) rs

/-- The exits of the rooms that are dug, and the numbers left. -/
def mazePlan (size : ℕ) : List ℕ → List ℕ → Option (List (List ℕ) × List ℕ)
  | [], rs => some ([], rs)
  | i :: is, rs => (exitPlan size i 3 [] rs).bind fun (ex, rs) =>
    (mazePlan size is rs).map fun (plan, rs) => (ex :: plan, rs)

theorem exitPlan_succ {i n : ℕ} {exits ex rs' : List ℕ} :
    exitPlan size i (n + 1) exits rs = some (ex, rs') ↔
      ∃ t rs₁, nextExit size i exits rs = some (t, rs₁) ∧
        exitPlan size i n (exits ++ [t]) rs₁ = some (ex, rs') := by
  rw [exitPlan, Option.bind_eq_some_iff]
  exact ⟨fun ⟨⟨t, rs₁⟩, h⟩ => ⟨t, rs₁, h⟩, fun ⟨t, rs₁, h⟩ => ⟨(t, rs₁), h⟩⟩

theorem mazePlan_cons {i : ℕ} {is : List ℕ} {plan : List (List ℕ)} {rs' : List ℕ} :
    mazePlan size (i :: is) rs = some (plan, rs') ↔
      ∃ ex rs₁ rest, exitPlan size i 3 [] rs = some (ex, rs₁) ∧ mazePlan size is rs₁ = some (rest, rs') ∧
        plan = ex :: rest := by
  rw [mazePlan, Option.bind_eq_some_iff]
  constructor
  · intro ⟨⟨ex, rs₁⟩, hex, h⟩
    obtain ⟨⟨rest, rs₂⟩, hrest, heq⟩ := Option.map_eq_some_iff.mp h
    cases heq
    exact ⟨ex, rs₁, rest, hex, hrest, rfl⟩
  · intro ⟨ex, rs₁, rest, hex, hrest, hplan⟩
    refine ⟨(ex, rs₁), hex, Option.map_eq_some_iff.mpr ⟨(rest, rs'), hrest, ?_⟩⟩
    rw [hplan]

theorem skipExits_of_plan {i : ℕ} : ∀ {n : ℕ} {exits rs ex rs' : List ℕ},
    exitPlan size i n exits rs = some (ex, rs') → skipExits size i n exits rs = some rs'
  | 0, exits, rs, ex, rs', h => by
    cases h
    rfl
  | n + 1, exits, [], ex, rs', h => by cases h
  | n + 1, exits, r :: rs, ex, rs', h => by
    obtain ⟨t, rs₁, ht, h⟩ := exitPlan_succ.mp h
    have hpick : pickExit i size (seenIds i exits) (r % size) rs = some (t, rs₁) := ht
    rw [skipExits, hpick]
    exact skipExits_of_plan h

theorem skipRooms_of_plan : ∀ {is rs : List ℕ} {plan : List (List ℕ)} {rs' : List ℕ},
    mazePlan size is rs = some (plan, rs') → skipRooms size is rs = some rs'
  | [], rs, plan, rs', h => by
    cases h
    rfl
  | i :: is, rs, plan, rs', h => by
    obtain ⟨ex, rs₁, rest, hex, hrest, -⟩ := mazePlan_cons.mp h
    rw [skipRooms, skipExits_of_plan hex]
    exact skipRooms_of_plan hrest

/-- The room a draw is bumped to is a room of the maze. -/
theorem bumped_lt {i : ℕ} (hi : i < size) : ∀ {ids : List ℕ} {t : ℕ}, t < size →
    ids.foldl (fun t rm => if rm = t then i else t) t < size
  | [], _, ht => ht
  | rm :: ids, t, ht => by
    rw [List.foldl_cons]
    apply bumped_lt hi
    split
    · exact hi
    · exact ht

/-- An exit that is picked leads to another room. -/
theorem pickExit_spec {i : ℕ} (hi : i < size) {ids : List ℕ} :
    ∀ {t : ℕ} {rs : List ℕ} {t' : ℕ} {rs' : List ℕ},
    t < size → pickExit i size ids t rs = some (t', rs') → t' < size ∧ t' ≠ i
  | t, [], t', rs', ht, h => by
    unfold pickExit at h
    split_ifs at h with hti
    cases h
    exact ⟨ht, hti⟩
  | t, r :: rs, t', rs', ht, h => by
    unfold pickExit at h
    split_ifs at h with hti
    · have hr : r % size < size := Nat.mod_lt _ (by omega)
      exact pickExit_spec hi (bumped_lt hi hr) h
    · cases h
      exact ⟨ht, hti⟩

theorem getElem?_modify_eq_some {rooms : List Room} {i j : ℕ} {f : Room → Room} {r : Room}
    (h : (rooms.modify i f)[j]? = some r) : ∃ r', rooms[j]? = some r' ∧ r = if i = j then f r' else r' := by
  rw [List.getElem?_modify, Option.map_eq_map, Option.map_eq_some_iff] at h
  obtain ⟨r', hr', rfl⟩ := h
  exact ⟨r', hr', rfl⟩

/-- The other rooms are as they were. -/
theorem getElem?_of_modify {rooms : List Room} {i j : ℕ} {f : Room → Room} {r : Room}
    (h : (rooms.modify i f)[j]? = some r) (hij : i ≠ j) : rooms[j]? = some r := by
  obtain ⟨r', hr', rfl⟩ := getElem?_modify_eq_some h
  rw [if_neg hij]
  exact hr'

theorem exists_getElem? {rooms : List Room} {i : ℕ} (h : i < rooms.length) : ∃ r, rooms[i]? = some r :=
  ⟨_, List.getElem?_eq_getElem h⟩

/-- The rooms before `i` are dug, and nothing else has been done. -/
structure Dug (size i : ℕ) (rooms : List Room) : Prop where
  length : rooms.length = size
  bare : ∀ (j : ℕ) (r : Room), rooms[j]? = some r → r.contents = .nothing ∧ r.players = []
  dug : ∀ (j : ℕ) (r : Room), rooms[j]? = some r → j < i → RoomOk size j r
  blank : ∀ (j : ℕ) (r : Room), rooms[j]? = some r → i ≤ j → r.id = 0

/-- The room `i` is being dug and has these exits. -/
structure Digging (size i : ℕ) (exits : List ℕ) (rooms : List Room) : Prop where
  length : rooms.length = size
  room : rooms[i]? = some ⟨i, exits, .nothing, []⟩
  exits : ∀ x ∈ exits, x < size ∧ x ≠ i
  bare : ∀ (j : ℕ) (r : Room), rooms[j]? = some r → r.contents = .nothing ∧ r.players = []
  dug : ∀ (j : ℕ) (r : Room), rooms[j]? = some r → j < i → RoomOk size j r
  blank : ∀ (j : ℕ) (r : Room), rooms[j]? = some r → i < j → r.id = 0

theorem Dug.start {i : ℕ} {rooms : List Room} (h : Dug size i rooms) (hi : i < size) :
    Digging size i [] (rooms.modify i fun _ => { Room.zero with id := i }) := by
  constructor
  · rw [List.length_modify]
    exact h.length
  · rw [List.getElem?_modify, List.getElem?_eq_getElem (by rw [h.length]; exact hi), Option.map_eq_map,
      Option.map_some, if_pos rfl]
    rfl
  · simp
  · intro j r hr
    obtain ⟨r', hr', rfl⟩ := getElem?_modify_eq_some hr
    split
    · exact ⟨rfl, rfl⟩
    · exact h.bare j r' hr'
  · intro j r hr hj
    exact h.dug j r (getElem?_of_modify hr (by omega)) hj
  · intro j r hr hj
    exact h.blank j r (getElem?_of_modify hr (by omega)) (by omega)

theorem Digging.add {i t : ℕ} {exits : List ℕ} {rooms : List Room} (h : Digging size i exits rooms)
    (ht : t < size) (hti : t ≠ i) :
    Digging size i (exits ++ [t]) (rooms.modify i fun r => { r with exits := r.exits ++ [t] }) := by
  constructor
  · rw [List.length_modify]
    exact h.length
  · rw [List.getElem?_modify, h.room, Option.map_eq_map, Option.map_some, if_pos rfl]
  · intro x hx
    rcases List.mem_append.mp hx with hx | hx
    · exact h.exits x hx
    · rw [List.mem_singleton.mp hx]
      exact ⟨ht, hti⟩
  · intro j r hr
    obtain ⟨r', hr', rfl⟩ := getElem?_modify_eq_some hr
    have := h.bare j r' hr'
    split
    · exact this
    · exact this
  · intro j r hr hj
    exact h.dug j r (getElem?_of_modify hr (by omega)) hj
  · intro j r hr hj
    exact h.blank j r (getElem?_of_modify hr (by omega)) hj

theorem Digging.done {i : ℕ} {exits : List ℕ} {rooms : List Room} (h : Digging size i exits rooms)
    (h3 : exits.length = 3) : Dug size (i + 1) rooms where
  length := h.length
  bare := h.bare
  dug := fun j r hr hj => by
    by_cases hji : j = i
    · subst hji
      rw [h.room, Option.some.injEq] at hr
      subst hr
      exact ⟨rfl, h3, h.exits⟩
    · exact h.dug j r hr (by omega)
  blank := fun j r hr hj => h.blank j r hr (by omega)

section
variable {Q : Unit → World → List ℕ → Prop}

theorem wp_idsOf {Q : List ℕ → World → List ℕ → Prop} {f : ℕ → ℕ} : ∀ {ns : List ℕ},
    (∀ n ∈ ns, ∃ r, s.room? n = some r ∧ r.id = f n) → Q (ns.map f) ⟨s, o⟩ rs → wp (idsOf ns) Q ⟨s, o⟩ rs
  | [], _, h => h
  | n :: ns, hns, h => by
    obtain ⟨r, hr, hid⟩ := hns n (by simp)
    simp only [idsOf, wp_bind]
    refine wp_roomPtr hr (wp_idsOf (fun m hm => hns m (by simp [hm])) ?_)
    rw [wp_pure, hid]
    exact h

theorem wp_drawExit {Q : ℕ → World → List ℕ → Prop} {i : ℕ} (hi : i < size) {ids : List ℕ} {w : World}
    (h : ∀ r rs' t rs'', rs = r :: rs' → pickExit i size ids (r % size) rs' = some (t, rs'') → t < size →
      t ≠ i → Q t w rs'') : wp (drawExit i size ids) Q w rs := by
  have hpos : 0 < size := by omega
  simp only [drawExit, wp_bind]
  refine wp_randBelow hpos fun r rs' hrs => ?_
  unfold wp pickLoop
  cases hp : pickExit i size ids (r % size) rs' with
  | none => trivial
  | some tr =>
    obtain ⟨t, rs''⟩ := tr
    obtain ⟨ht, hti⟩ := pickExit_spec hi (Nat.mod_lt _ hpos) hp
    exact h r rs' t rs'' hrs hp ht hti

theorem wp_addExit {i : ℕ} (hi : i < size) {exits : List ℕ} {rooms : List Room}
    (hd : Digging size i exits rooms) (hlt : exits.length < 3)
    (h : ∀ r rs' t rs'', rs = r :: rs' → pickExit i size (seenIds i exits) (r % size) rs' = some (t, rs'') →
      Digging size i (exits ++ [t]) (rooms.modify i fun r => { r with exits := r.exits ++ [t] }) →
      Q () ⟨s.withRooms size (rooms.modify i fun r => { r with exits := r.exits ++ [t] }), o⟩ rs'') :
    wp (addExit size i) Q ⟨s.withRooms size rooms, o⟩ rs := by
  simp only [addExit, wp_bind]
  refine wp_roomPtr hd.room (wp_when (fun _ => ?_) fun hn => absurd hlt hn)
  simp only [wp_bind]
  refine wp_idsOf (f := fun x => if x < i then x else 0) (fun x hx => ?_) ?_
  · obtain ⟨hxs, hxi⟩ := hd.exits x hx
    have hx' : x < rooms.length := by rw [hd.length]; exact hxs
    obtain ⟨r, hr⟩ := exists_getElem? hx'
    refine ⟨r, hr, ?_⟩
    by_cases hlt : x < i
    · rw [if_pos hlt]
      exact (hd.dug x _ hr hlt).id
    · rw [if_neg hlt]
      exact hd.blank x _ hr (by omega)
  · refine wp_drawExit hi fun r rs' t rs'' hrs hp ht hti => ?_
    exact wp_setRoom ⟨_, hd.room⟩ (h r rs' t rs'' hrs hp (hd.add ht hti))

/-- A room is given the exits it has. -/
theorem Digging.modify_exits {i : ℕ} {exits : List ℕ} {rooms : List Room} (h : Digging size i exits rooms) :
    (rooms.modify i fun r => { r with exits := exits }) = rooms := by
  apply List.ext_getElem?
  intro j
  rw [List.getElem?_modify]
  by_cases hij : i = j
  · rw [← hij, h.room]
    simp
  · simp [hij]

/-- The three exits of a room. -/
theorem wp_addExits {i : ℕ} (hi : i < size) : ∀ {n : ℕ} {js exits : List ℕ} {rooms : List Room} {rs : List ℕ},
    js.length = n → Digging size i exits rooms → exits.length + n = 3 →
    (∀ ex rs', exitPlan size i n exits rs = some (ex, rs') →
      Dug size (i + 1) (rooms.modify i fun r => { r with exits := ex }) →
      Q () ⟨s.withRooms size (rooms.modify i fun r => { r with exits := ex }), o⟩ rs') →
    wp (forEach (fun _ => addExit size i) js) Q ⟨s.withRooms size rooms, o⟩ rs
  | 0, js, exits, rooms, rs, hj, hd, h3, h => by
    have h := h exits rs rfl
    rw [hd.modify_exits] at h
    rw [List.length_eq_zero_iff.mp hj]
    exact h (hd.done h3)
  | n + 1, [], _, _, _, hj, _, _, _ => by simp at hj
  | n + 1, j :: js, exits, rooms, rs, hj, hd, h3, h => by
    rw [wp_forEach_cons]
    refine wp_addExit hi hd (by omega) fun r rs' t rs'' hrs hp hd' => ?_
    refine wp_addExits hi (by simpa using hj) hd'
      (by rw [List.length_append, List.length_singleton]; omega) ?_
    intro ex rs₃ hplan hdug
    rw [List.modify_modify_eq] at hdug ⊢
    refine h ex rs₃ (exitPlan_succ.mpr ⟨t, rs'', ?_, hplan⟩) hdug
    rw [hrs]
    exact hp

/-- The exits of the first `i` rooms stay, the room `i` has been given its own. -/
theorem take_exits_dug {rooms : List Room} {i : ℕ} (hi : i < rooms.length) (ex : List ℕ) :
    (((rooms.modify i fun _ => { Room.zero with id := i }).modify i fun r => { r with exits := ex }).map
      (·.exits)).take (i + 1) = (rooms.map (·.exits)).take i ++ [ex] := by
  have hlen : i < ((rooms.modify i fun _ => { Room.zero with id := i }).modify i
      fun r => { r with exits := ex }).length := by simpa using hi
  rw [← List.map_take, ← List.map_take, List.take_succ_eq_append_getElem hlen, List.map_append]
  congr 1
  · congr 1
    apply List.ext_getElem?
    intro j
    by_cases hj : j < i
    · rw [List.getElem?_take_of_lt hj, List.getElem?_take_of_lt hj]
      simp [Nat.ne_of_gt hj]
    · simp [List.getElem?_take_eq_none (Nat.le_of_not_lt hj)]
  · simp

theorem wp_digRooms : ∀ {n i : ℕ} {rooms : List Room} {rs : List ℕ}, i + n = size → Dug size i rooms →
    (∀ rooms' plan rs', mazePlan size (List.range' i n) rs = some (plan, rs') → Dug size size rooms' →
      rooms'.map (·.exits) = (rooms.map (·.exits)).take i ++ plan → Q () ⟨s.withRooms size rooms', o⟩ rs') →
    wp (forEach (digRoom size) (List.range' i n)) Q ⟨s.withRooms size rooms, o⟩ rs
  | 0, i, rooms, rs, hn, hd, h => by
    have hi : i = size := by omega
    rw [hi] at hd
    apply h rooms [] rs rfl hd
    rw [List.append_nil, List.take_of_length_le (by rw [List.length_map, hd.length, hi])]
  | n + 1, i, rooms, rs, hn, hd, h => by
    have hi : i < size := by omega
    have hlen : i < rooms.length := by rw [hd.length]; exact hi
    rw [List.range'_succ, wp_forEach_cons]
    simp only [digRoom, wp_bind]
    refine wp_setRoom (exists_getElem? hlen) (wp_addExits hi (n := 3) rfl (hd.start hi) rfl ?_)
    intro ex rs' hplan hd'
    refine wp_digRooms (by omega) hd' fun rooms'' plan rs'' hrest hd'' hexits => ?_
    refine h rooms'' (ex :: plan) rs'' (mazePlan_cons.mpr ⟨ex, rs', plan, hplan, hrest, rfl⟩) hd'' ?_
    rw [hexits, take_exits_dug hlen, List.append_assoc, List.singleton_append]

/-- The rooms are dug as their numbers say. -/
theorem wp_digMaze_plan (h : ∀ rooms plan rs', mazePlan size (List.range size) rs = some (plan, rs') →
    Dug size size rooms → rooms.map (·.exits) = plan → Q () ⟨s.withRooms size rooms, o⟩ rs') :
    wp (digMaze size) Q ⟨s, o⟩ rs := by
  rw [List.range_eq_range'] at h
  have hblank : Dug size 0 (List.replicate size Room.zero) := by
    have hz : ∀ {j : ℕ} {r : Room}, (List.replicate size Room.zero)[j]? = some r → r = Room.zero := by
      intro j r hr
      exact (List.mem_replicate.mp (List.mem_of_getElem? hr)).2
    refine ⟨List.length_replicate, ?_, ?_, ?_⟩
    · intro j r hr
      rw [hz hr]
      exact ⟨rfl, rfl⟩
    · intro j r hr hj
      omega
    · intro j r hr _
      rw [hz hr]
      rfl
  simp only [digMaze, wp_bind, List.range_eq_range']
  exact wp_digRooms (by omega) hblank fun rooms plan rs' hplan hd hexits => h rooms plan rs' hplan hd hexits

theorem wp_digMaze (h : ∀ rooms rs', skipRooms size (List.range size) rs = some rs' → Dug size size rooms →
    Q () ⟨s.withRooms size rooms, o⟩ rs') : wp (digMaze size) Q ⟨s, o⟩ rs :=
  wp_digMaze_plan fun rooms _ rs' hplan hd _ => h rooms rs' (skipRooms_of_plan hplan) hd

/-! ### The contents -/

/-- The rooms of a maze that nobody is in. -/
structure Rooms (size : ℕ) (rooms : List Room) : Prop where
  length : rooms.length = size
  room : ∀ (i : ℕ) (r : Room), rooms[i]? = some r → RoomOk size i r ∧ r.players = []

/-- The wumpus is in the room `k` if `clean` says so, and in no other. -/
def Lair (k : ℕ) (clean : Prop) (rooms : List Room) : Prop :=
  ∀ (i : ℕ) (r : Room), rooms[i]? = some r → (r.contents = .wumpus ↔ i = k ∧ clean)

/-- One room in a pass of `build_maze`: `d` is the number drawn for it. -/
def mark (m : ℕ) (c : Contents) (r : Room) (d : ℕ) : Room := if d % m = 0 then { r with contents := c } else r

theorem getElem?_marked {m : ℕ} {c : Contents} {rooms : List Room} {ds : List ℕ} {i : ℕ} {r : Room}
    (h : (List.zipWith (mark m c) rooms ds)[i]? = some r) :
    ∃ r', rooms[i]? = some r' ∧ r = mark m c r' (ds.getD i 0) := by
  rw [List.getElem?_zipWith_eq_some] at h
  obtain ⟨r', d, hr', hd, rfl⟩ := h
  refine ⟨r', hr', ?_⟩
  rw [List.getD_eq_getElem?_getD, hd]
  rfl

theorem Rooms.marked {rooms : List Room} (h : Rooms size rooms) (m : ℕ) (c : Contents) {ds : List ℕ}
    (hlen : ds.length = size) : Rooms size (List.zipWith (mark m c) rooms ds) where
  length := by
    rw [List.length_zipWith, h.length, hlen, Nat.min_self]
  room := fun i r hr => by
    obtain ⟨r', hr', rfl⟩ := getElem?_marked hr
    obtain ⟨hok, hp⟩ := h.room i r' hr'
    unfold mark
    split
    · exact ⟨⟨hok.id, hok.three, hok.exits⟩, hp⟩
    · exact ⟨hok, hp⟩

theorem Lair.marked {k : ℕ} {clean : Prop} {rooms : List Room} (h : Lair k clean rooms) {m : ℕ} {c : Contents}
    (hc : c ≠ .wumpus) (ds : List ℕ) :
    Lair k (clean ∧ ds.getD k 0 % m ≠ 0) (List.zipWith (mark m c) rooms ds) := by
  intro i r hr
  obtain ⟨r', hr', rfl⟩ := getElem?_marked hr
  have hl := h i r' hr'
  unfold mark
  by_cases hd : ds.getD i 0 % m = 0
  · rw [if_pos hd]
    apply iff_of_false hc
    rintro ⟨rfl, -, hne⟩
    exact hne hd
  · rw [if_neg hd, hl]
    apply and_congr_right
    rintro rfl
    rw [and_iff_left hd]

theorem Rooms.put {rooms : List Room} (h : Rooms size rooms) (d : ℕ) (c : Contents) :
    Rooms size (rooms.modify d fun r => { r with contents := c }) where
  length := by rw [List.length_modify, h.length]
  room := fun i r hr => by
    obtain ⟨r', hr', rfl⟩ := getElem?_modify_eq_some hr
    obtain ⟨hok, hp⟩ := h.room i r' hr'
    split
    · exact ⟨⟨hok.id, hok.three, hok.exits⟩, hp⟩
    · exact ⟨hok, hp⟩

theorem Lair.put {k : ℕ} {clean : Prop} {rooms : List Room} (h : Lair k clean rooms) {c : Contents}
    (hc : c ≠ .wumpus) (d : ℕ) :
    Lair k (clean ∧ d ≠ k) (rooms.modify d fun r => { r with contents := c }) := by
  intro i r hr
  obtain ⟨r', hr', rfl⟩ := getElem?_modify_eq_some hr
  have hl := h i r' hr'
  by_cases hd : d = i
  · rw [if_pos hd]
    apply iff_of_false hc
    rintro ⟨rfl, -, hne⟩
    exact hne hd
  · rw [if_neg hd, hl]
    apply and_congr_right
    rintro rfl
    rw [and_iff_left hd]

/-- The wumpus is put into a maze without contents. -/
theorem Dug.lair {rooms : List Room} (h : Dug size size rooms) (k : ℕ) :
    Lair k True (rooms.modify k fun r => { r with contents := .wumpus }) := by
  intro i r hr
  obtain ⟨r', hr', rfl⟩ := getElem?_modify_eq_some hr
  by_cases hk : k = i
  · rw [if_pos hk]
    exact iff_of_true rfl ⟨hk.symm, trivial⟩
  · rw [if_neg hk, (h.bare i r' hr').1]
    exact iff_of_false (by decide) fun hc => hk hc.1.symm

theorem Dug.rooms {rooms : List Room} (h : Dug size size rooms) : Rooms size rooms where
  length := h.length
  room := fun i r hr => by
    obtain ⟨hi, -⟩ := List.getElem?_eq_some_iff.mp hr
    exact ⟨h.dug i r hr (by rw [← h.length]; exact hi), (h.bare i r hr).2⟩

theorem modify_append_cons (f : Room → Room) (r : Room) (post : List Room) : ∀ pre : List Room,
    (pre ++ r :: post).modify pre.length f = pre ++ f r :: post
  | [] => rfl
  | p :: pre => congrArg (p :: ·) (modify_append_cons f r post pre)

theorem wp_marks {m : ℕ} {c : Contents} : ∀ {n : ℕ} (pre : List Room) {post : List Room} {rs : List ℕ},
    post.length = n →
    (∀ ds rs', rs = ds ++ rs' → ds.length = n →
      Q () ⟨s.withRooms size (pre ++ List.zipWith (mark m c) post ds), o⟩ rs') →
    wp (forEach (fun j => do
      let r ← rand
      when (r % m = 0) (setContents j c)) (List.range' pre.length n)) Q ⟨s.withRooms size (pre ++ post), o⟩ rs
  | 0, pre, post, rs, hn, h => by
    rw [List.length_eq_zero_iff.mp hn]
    have := h [] rs rfl rfl
    rw [List.zipWith_nil_right] at this
    exact this
  | n + 1, pre, [], rs, hn, _ => by simp at hn
  | n + 1, pre, r :: post, rs, hn, h => by
    rw [List.range'_succ, wp_forEach_cons]
    simp only [wp_bind, wp_rand]
    intro d rs' hrs
    have hnext : wp (forEach (fun j => do
        let r ← rand
        when (r % m = 0) (setContents j c)) (List.range' (pre.length + 1) n)) Q
        ⟨s.withRooms size ((pre ++ [mark m c r d]) ++ post), o⟩ rs' := by
      have hlen : pre.length + 1 = (pre ++ [mark m c r d]).length := by simp
      rw [hlen]
      refine wp_marks _ (by simpa using hn) fun ds rs'' hds hdl => ?_
      have := h (d :: ds) rs'' (by rw [hrs, hds]; rfl) (by simp [hdl])
      rwa [List.zipWith_cons_cons, List.append_cons] at this
    have hget : (pre ++ r :: post)[pre.length]? = some r := by simp
    refine wp_when (fun hd => wp_setContents ⟨r, hget⟩ ?_) fun hd => ?_
    · have hput : (s.withRooms size (pre ++ r :: post)).put pre.length c =
          s.withRooms size ((pre ++ [mark m c r d]) ++ post) := by
        unfold State.put State.updRoom State.withRooms mark
        rw [if_pos hd, Option.map_some, modify_append_cons, List.append_assoc, List.singleton_append]
      rw [hput]
      exact hnext
    · have hsame : pre ++ r :: post = (pre ++ [mark m c r d]) ++ post := by
        unfold mark
        rw [if_neg hd, List.append_assoc, List.singleton_append]
      rw [hsame]
      exact hnext

theorem wp_populate {m : ℕ} {c : Contents} {rooms : List Room} (hlen : rooms.length = size)
    (h : ∀ ds rs', rs = ds ++ rs' → ds.length = size →
      Q () ⟨s.withRooms size (List.zipWith (mark m c) rooms ds), o⟩ rs') :
    wp (populate size m c) Q ⟨s.withRooms size rooms, o⟩ rs := by
  unfold populate
  rw [List.range_eq_range']
  exact wp_marks [] hlen h

/-- No pass puts something into the room `k`, and neither does the crystal
ball land there. -/
def missed (size k : ℕ) : List ℕ → List ℕ → Prop
  | [], rs => rs.headD 0 % size ≠ k
  | m :: ms, rs => rs.getD k 0 % m ≠ 0 ∧ missed size k ms (rs.drop size)

/-- With these numbers after the rooms are dug, the wumpus stays where it is
put: pits, two passes of bats, three of arrows and the crystal ball miss it. -/
def spared (size : ℕ) (rs : List ℕ) : Prop := missed size (rs.headD 0 % size) [84, 42, 42, 42, 42, 42] rs.tail

instance decidableMissed (size k : ℕ) : ∀ ms rs : List ℕ, Decidable (missed size k ms rs)
  | [], rs => inferInstanceAs (Decidable (rs.headD 0 % size ≠ k))
  | m :: ms, rs =>
    have := decidableMissed size k ms (rs.drop size)
    inferInstanceAs (Decidable (rs.getD k 0 % m ≠ 0 ∧ missed size k ms (rs.drop size)))

instance (size : ℕ) (rs : List ℕ) : Decidable (spared size rs) := decidableMissed _ _ _ _

theorem missed_cons {k m : ℕ} {ms ds rs : List ℕ} (hk : k < size) (hlen : ds.length = size) :
    missed size k (m :: ms) (ds ++ rs) ↔ ds.getD k 0 % m ≠ 0 ∧ missed size k ms rs := by
  rw [missed, List.getD_append ds rs 0 k (by rw [hlen]; exact hk), ← hlen, List.drop_left]

/-- A pass keeps track of what has become of the wumpus' room: `clean` says
so of the passes before. -/
theorem wp_pass {k : ℕ} (hk : k < size) {m : ℕ} {c : Contents} (hc : c ≠ .wumpus) {clean : Prop}
    {rooms : List Room} (hr : Rooms size rooms) (hl : Lair k clean rooms)
    (h : ∀ clean' rooms' rs', rs' = rs.drop size → Rooms size rooms' → Lair k clean' rooms' →
      (∀ ms, clean ∧ missed size k (m :: ms) rs ↔ clean' ∧ missed size k ms rs') →
      Q () ⟨s.withRooms size rooms', o⟩ rs') :
    wp (populate size m c) Q ⟨s.withRooms size rooms, o⟩ rs := by
  refine wp_populate hr.length fun ds rs' hrs hlen => ?_
  have hdrop : rs' = rs.drop size := by
    rw [hrs, ← hlen, List.drop_left]
  refine h _ _ rs' hdrop (hr.marked m c hlen) (hl.marked hc ds) fun ms => ?_
  rw [hrs, missed_cons hk hlen, and_assoc]

/-- How many numbers are drawn to fill the maze: one for the wumpus, one for
every room in each of the six passes, one for the crystal ball. -/
def filling (size : ℕ) : ℕ := 6 * size + 2

/-- The wumpus, then the passes, then the crystal ball. -/
theorem wp_fillMaze (hpos : 0 < size) {rooms : List Room} (hd : Dug size size rooms)
    (h : ∀ rooms' rs' k, rs' = rs.drop (filling size) → k = rs.headD 0 % size → Rooms size rooms' →
      Lair k (spared size rs) rooms' →
      Q () ⟨({ s with wumpus := k } : State).withRooms size rooms', o⟩ rs') :
    wp (fillMaze size) Q ⟨s.withRooms size rooms, o⟩ rs := by
  simp only [fillMaze, wp_bind, wp_forEach_cons, wp_forEach_nil]
  refine wp_randBelow hpos fun d rs₀ hrs => ?_
  have hk : d % size < size := Nat.mod_lt _ hpos
  generalize hkd : d % size = k at hk h ⊢
  have hroom : ∀ {rooms : List Room}, Rooms size rooms → ∀ i, i < size →
      ∃ r, (({ s with wumpus := k } : State).withRooms size rooms).room? i = some r := by
    intro rooms hr i hi
    exact exists_getElem? (by rw [hr.length]; exact hi)
  apply wp_setContents (hroom hd.rooms k hk)
  refine wp_pass hk (by decide) (hd.rooms.put k .wumpus) (hd.lair k) fun _ _ _ e1 hr hl h1 => ?_
  refine wp_pass hk (by decide) hr hl fun _ _ _ e2 hr hl h2 => ?_
  refine wp_pass hk (by decide) hr hl fun _ _ _ e3 hr hl h3 => ?_
  refine wp_pass hk (by decide) hr hl fun _ _ _ e4 hr hl h4 => ?_
  refine wp_pass hk (by decide) hr hl fun _ _ _ e5 hr hl h5 => ?_
  refine wp_pass hk (by decide) hr hl fun clean _ rs₆ e6 hr hl h6 => ?_
  refine wp_randBelow hpos fun b rs₇ hrs₆ => ?_
  apply wp_setContents (hroom hr _ (Nat.mod_lt _ hpos))
  have hdrop : rs₇ = rs.drop (filling size) := by
    have hseven : rs₇ = rs₆.drop 1 := by rw [hrs₆, List.drop_one, List.tail_cons]
    have hzero : rs₀ = rs.drop 1 := by rw [hrs, List.drop_one, List.tail_cons]
    rw [hseven, e6, e5, e4, e3, e2, e1, hzero]
    simp only [List.drop_drop]
    congr 1
    unfold filling
    omega
  apply h _ rs₇ k hdrop (by rw [hrs, List.headD_cons, hkd]) (hr.put (b % size) .crystalball)
  have hspared : spared size rs ↔ clean ∧ b % size ≠ k := by
    calc spared size rs
        ↔ True ∧ missed size k [84, 42, 42, 42, 42, 42] rs₀ := by
          rw [spared, hrs, List.headD_cons, List.tail_cons, hkd, true_and]
      _ ↔ clean ∧ missed size k [] rs₆ := by rw [h1, h2, h3, h4, h5, h6]
      _ ↔ clean ∧ b % size ≠ k := by rw [missed, hrs₆, List.headD_cons]
  intro i r hir
  rw [hspared]
  exact hl.put (by decide) (b % size) i r hir

theorem wp_checkMaze {Q : Bool → World → List ℕ → Prop} : ∀ {js : List ℕ},
    (∀ j ∈ js, ∃ r, s.room? j = some r ∧ r.exits.length = 3) → Q true ⟨s, o⟩ rs →
    wp (checkMaze js) Q ⟨s, o⟩ rs
  | [], _, h => h
  | j :: js, hjs, h => by
    obtain ⟨r, hr, h3⟩ := hjs j (by simp)
    simp only [checkMaze, wp_bind]
    apply wp_roomPtr hr
    rw [if_neg (by omega)]
    exact wp_checkMaze (fun i hi => hjs i (by simp [hi])) h

/-- A maze that is large enough is built. -/
theorem wp_buildMaze {Q : Bool → World → List ℕ → Prop} (hsmall : size < 10 → Q false ⟨s, o⟩ rs)
    (hbuilt : 10 ≤ size → ∀ rest rooms rs' k, skipRooms size (List.range size) rs = some rest →
      rs' = rest.drop (filling size) → k = rest.headD 0 % size → Rooms size rooms →
      Lair k (spared size rest) rooms →
      Q true ⟨({ s with wumpus := k } : State).withRooms size rooms, o⟩ rs') :
    wp (buildMaze size) Q ⟨s, o⟩ rs := by
  unfold buildMaze
  by_cases hlt : size < 10
  · rw [if_pos hlt]
    exact hsmall hlt
  · rw [if_neg hlt]
    simp only [wp_bind]
    refine wp_digMaze fun rooms rest hskip hd => ?_
    refine wp_fillMaze (by omega) hd fun rooms' rs' k hrs' hk hr hl => ?_
    refine wp_checkMaze (fun j hj => ?_) (hbuilt (by omega) rest rooms' rs' k hskip hrs' hk hr hl)
    have hj' : j < rooms'.length := by rw [hr.length]; exact List.mem_range.mp hj
    obtain ⟨r, hrj⟩ := exists_getElem? hj'
    exact ⟨r, hrj, (hr.room j r hrj).1.three⟩

/-! ### The players are placed -/

theorem contents_relocated (p : Player) (d i : ℕ) : (s.relocated p d).contents i = s.contents i := by
  rw [State.contents, room?_relocated, Option.map_map]
  rfl

/-- `s'` is `s` after players have been placed. -/
structure Placed (s s' : State) : Prop where
  frame : Frame s s'
  players : (s'.players.map fun p => { p with location := none }) =
    s.players.map fun p => { p with location := none }
  contents : ∀ i, s'.contents i = s.contents i

theorem Placed.refl (s : State) : Placed s s := ⟨Frame.refl s, rfl, fun _ => rfl⟩

theorem Placed.trans {a b c : State} (h : Placed a b) (h' : Placed b c) : Placed a c :=
  ⟨h.frame.trans h'.frame, h'.players.trans h.players, fun i => (h'.contents i).trans (h.contents i)⟩

theorem placed_relocated (s : State) (p : Player) (d : ℕ) : Placed s (s.relocated p d) where
  frame := frame_relocated s p d
  players := by
    rw [players_relocated, List.map_map]
    refine List.map_congr_left fun q _ => ?_
    simp only [Function.comp_apply]
    split <;> rfl
  contents := contents_relocated p d

theorem Placed.length {s s' : State} (h : Placed s s') : s'.players.length = s.players.length := by
  have := congrArg List.length h.players
  simpa using this

/-- Somebody is in the room `k`. -/
def Occupied (s : State) (k : ℕ) : Prop := ∃ p ∈ s.players, p.location = some k

/-- Who was nowhere occupies one more room. -/
theorem occupied_relocated (hP : PlayersOk s) {p : Player} (hp : p ∈ s.players) (hl : p.location = none)
    (d k : ℕ) : Occupied (s.relocated p d) k ↔ Occupied s k ∨ k = d := by
  simp only [Occupied, players_relocated, List.mem_map, exists_exists_and_eq_and]
  constructor
  · intro ⟨q, hq, hk⟩
    by_cases hqp : q.addr = p.addr
    · rw [if_pos hqp, Option.some.injEq] at hk
      exact Or.inr hk.symm
    · rw [if_neg hqp] at hk
      exact Or.inl ⟨q, hq, hk⟩
  · rintro (⟨q, hq, hk⟩ | rfl)
    · have hqp : q.addr ≠ p.addr := by
        intro he
        rw [hP.eq_of_addr hq hp he, hl] at hk
        cases hk
      exact ⟨q, hq, by rwa [if_neg hqp]⟩
    · exact ⟨p, hp, by rw [if_pos rfl]⟩

theorem wp_placePlayer (hM : MazeOk s) (hP : PlayersOk s) {p : Player} (hp : p ∈ s.players)
    (hl : p.location = none)
    (h : ∀ r rs' o', rs = r :: rs' → r % s.mazesize < s.mazesize →
      Q () ⟨s.relocated p (r % s.mazesize), o'⟩ rs') :
    wp (placePlayer p.addr) Q ⟨s, o⟩ rs := by
  have hpos : 0 < s.mazesize := by have := hM.lo; omega
  simp only [placePlayer, wp_bind, wp_getState]
  refine wp_randBelow hpos fun r rs' hrs => ?_
  have hd : r % s.mazesize < s.mazesize := Nat.mod_lt _ hpos
  have hdone := fun o' => h r rs' o' hrs hd
  generalize r % s.mazesize = d at hd hdone
  have hroom := hM.rooms d hd
  refine wp_setPlayer (hP.player? hp) (wp_setRoom hroom ?_)
  have hstate : ((s.updPlayer p.addr fun p => { p with location := some d }).updRoom d fun r =>
      { r with players := r.players ++ [p.addr] }) = s.relocated p d := by
    unfold State.relocated
    rw [hl]
  rw [hstate]
  have hM' := hM.relocated p d
  have hP' := hP.relocated hp hroom
  have hp' : { p with location := some d } ∈ (s.relocated p d).players := by
    rw [players_relocated]
    exact List.mem_map.mpr ⟨p, hp, if_pos rfl⟩
  have hfind : (s.relocated p d).player? p.addr = some { p with location := some d } := hP'.player? hp'
  have hroom' := hM'.rooms d (by rwa [(frame_relocated s p d).mazesize])
  exact wp_lookPlayer hM'.linked hfind rfl hroom' hdone

/-- All players are placed, one number for each. -/
theorem wp_placeAll : ∀ {as : List ℕ} {s : State} {o : List Output} {rs : List ℕ}, MazeOk s → PlayersOk s →
    as.Nodup → (∀ a ∈ as, ∃ p ∈ s.players, p.addr = a ∧ p.location = none) →
    (∀ p ∈ s.players, p.location = none → p.addr ∈ as) →
    (∀ s' rs' o', Placed s s' → Running s' →
      (∀ k, Occupied s' k ↔ Occupied s k ∨ k ∈ (rs.take as.length).map (· % s.mazesize)) →
      Q () ⟨s', o'⟩ rs') →
    wp (forEach placePlayer as) Q ⟨s, o⟩ rs
  | [], s, o, rs, hM, hP, _, _, hnone, h => by
    refine h s rs o (Placed.refl s) ⟨hM, hP, fun p hp hl => ?_⟩ fun k => ?_
    · have := hnone p hp hl
      simp at this
    · exact (or_iff_left List.not_mem_nil).symm
  | a :: as, s, o, rs, hM, hP, hnd, hex, hnone, h => by
    obtain ⟨p, hp, rfl, hl⟩ := hex a (by simp)
    obtain ⟨hpas, hnd⟩ := List.nodup_cons.mp hnd
    rw [wp_forEach_cons]
    refine wp_placePlayer hM hP hp hl fun r rs' o' hrs hd => ?_
    generalize hrd : r % s.mazesize = d at hd
    refine wp_placeAll (hM.relocated p d) (hP.relocated hp (hM.rooms d hd)) hnd ?_ ?_ ?_
    · intro b hb
      obtain ⟨q, hq, rfl, hql⟩ := hex b (by simp [hb])
      have hqp : q.addr ≠ p.addr := by
        intro he
        rw [he] at hb
        exact hpas hb
      refine ⟨q, ?_, rfl, hql⟩
      rw [players_relocated]
      exact List.mem_map.mpr ⟨q, hq, if_neg hqp⟩
    · intro q hq hql
      rw [players_relocated] at hq
      obtain ⟨q', hq', rfl⟩ := List.mem_map.mp hq
      by_cases hqp : q'.addr = p.addr
      · rw [if_pos hqp] at hql
        cases hql
      · rw [if_neg hqp] at hql ⊢
        have := hnone q' hq' hql
        rcases List.mem_cons.mp this with he | hmem
        · exact absurd he hqp
        · exact hmem
    · intro s' rs'' o'' hpl hR hocc
      refine h s' rs'' o'' ((placed_relocated s p d).trans hpl) hR fun k => ?_
      rw [hocc, occupied_relocated hP hp hl, (frame_relocated s p d).mazesize, hrs, List.length_cons,
        List.take_succ_cons, List.map_cons, List.mem_cons, hrd, or_assoc]

/-! ### The game starts -/

/-- No game is on: there is no maze, and nobody is anywhere. -/
structure Idle (s : State) : Prop where
  maze : s.rmemctx = none
  players : PlayersOk s
  nowhere : ∀ p ∈ s.players, p.location = none

theorem Idle.endable (h : Idle s) : Endable s := fun i _ hs => by
  rw [h.maze] at hs
  cases hs

/-- The rooms of `n` players, when `rest` is what the rooms have left of the
numbers. -/
def places (size n : ℕ) (rest : List ℕ) : List ℕ := ((rest.drop (filling size)).take n).map (· % size)

/-- `s'` is `s` after a game has been started, with the numbers `rs` drawn. -/
structure Started (s s' : State) (rs : List ℕ) : Prop where
  running : Running s'
  on : s'.running = true
  starting : s'.starting = s.starting
  length : s'.players.length = s.players.length
  users : (s'.players.map fun p => { p with location := none }) =
    s.players.map fun p => { p with location := none }
  moveTimer : s'.moveTimer = some s.loop.next
  startGameTimer : s'.startGameTimer = none
  loop : s'.loop = s.loop.timerAdd .moveWumpus 60
  nick : s'.nick = s.nick
  loaded : s'.loaded = s.loaded
  faulted : s'.faulted = s.faulted
  wumpHp : s'.wumpHp = 70
  speed : s'.speed = 60
  lair : ∃ rest, skipRooms s'.mazesize (List.range s'.mazesize) rs = some rest ∧
    ∀ i c, s'.contents i = some c → (c = .wumpus ↔ s'.wumpus = i ∧ spared s'.mazesize rest)
  rooms : ∃ rest, skipRooms s'.mazesize (List.range s'.mazesize) rs = some rest ∧
    s'.wumpus = (rest.headD 0 % s'.mazesize : ℕ) ∧
    ∀ k, Occupied s' k ↔ k ∈ places s'.mazesize s.players.length rest

section
variable {rooms : List Room} (h : Rooms size rooms)
include h

theorem Rooms.of_room? {i : ℕ} {r : Room} (hir : (s.withRooms size rooms).room? i = some r) :
    i < size ∧ RoomOk size i r ∧ r.players = [] := by
  obtain ⟨hi, -⟩ := List.getElem?_eq_some_iff.mp hir
  exact ⟨by rw [← h.length]; exact hi, h.room i r hir⟩

theorem Rooms.mazeOk (hge : 10 ≤ size) (hle : size ≤ 300) {k : ℕ} (hk : k < size) :
    MazeOk (({ s with wumpus := k } : State).withRooms size rooms) where
  lo := hge
  hi := hle
  rooms := fun i hi => exists_getElem? (by rw [h.length]; exact hi)
  room := fun i r hir => ⟨(h.of_room? hir).1, (h.of_room? hir).2.1⟩
  wumpus := ⟨k, hk, rfl⟩

/-- Nobody is in a new maze. -/
theorem Rooms.playersOk (hI : Idle s) (k : ℤ) :
    PlayersOk (({ s with wumpus := k } : State).withRooms size rooms) where
  addrs := hI.players.addrs
  users := hI.players.users
  fresh := hI.players.fresh
  located := fun p hp i hi => by
    rw [hI.nowhere p hp] at hi
    cases hi
  nodup := fun i r hir => by
    rw [(h.of_room? hir).2.2]
    exact List.nodup_nil
  listed := fun i r hir a => by
    rw [(h.of_room? hir).2.2]
    apply iff_of_false List.not_mem_nil
    rintro ⟨p, hp, -, hl⟩
    rw [hI.nowhere p hp] at hl
    cases hl

end

theorem wp_initGame (hI : Idle s) (hsize : size ≤ 300) (hsmall : size < 10 → ∀ o', Q () ⟨s.ended, o'⟩ rs)
    (hgo : 10 ≤ size → ∀ s' rs' o', s'.mazesize = size → Started s s' rs → Q () ⟨s', o'⟩ rs') :
    wp (initGame size) Q ⟨s, o⟩ rs := by
  simp only [initGame, wp_bind]
  refine wp_buildMaze (fun hlt => ?_) fun hge rest rooms rs' k hskip hrs' hk hr hl => ?_
  · simp only [Bool.not_false, if_true, wp_bind]
    exact wp_msg fun o => wp_endGame hI.players hI.endable (hsmall hlt o)
  · simp only [Bool.not_true, Bool.false_eq_true, if_false, wp_bind, wp_getState]
    have hklt : k < size := by
      rw [hk]
      exact Nat.mod_lt _ (by omega)
    have hM := hr.mazeOk (s := s) hge hsize hklt
    have hP := hr.playersOk hI k
    refine wp_placeAll hM hP hI.players.addrs ?_ ?_ fun s' rs'' o hpl hR hocc => ?_
    · intro a ha
      obtain ⟨p, hp, rfl⟩ := List.mem_map.mp ha
      exact ⟨p, hp, rfl, hI.nowhere p hp⟩
    · exact fun p hp _ => List.mem_map_of_mem hp
    · refine wp_msg fun o => hgo hge _ rs'' o ?_ ?_
      · exact hpl.frame.mazesize
      · have hf := hpl.frame
        have hm : s'.mazesize = size := hf.mazesize
        refine ⟨hR.congr rfl rfl rfl rfl rfl, rfl, hf.starting, hpl.length, hpl.players, ?_, rfl, ?_, hf.nick,
          hf.loaded, hf.faulted, rfl, rfl, ⟨rest, ?_, ?_⟩, rest, ?_, ?_, ?_⟩
        · show some s'.loop.next = _
          rw [hf.loop]
          rfl
        · show s'.loop.timerAdd _ _ = _
          rw [hf.loop]
          rfl
        · show skipRooms s'.mazesize (List.range s'.mazesize) rs = some rest
          rw [hm]
          exact hskip
        · intro i c hc
          have hc' : (({ s with wumpus := k } : State).withRooms size rooms).contents i = some c :=
            (hpl.contents i).symm.trans hc
          obtain ⟨r, hir, rfl⟩ := Option.map_eq_some_iff.mp hc'
          show _ ↔ s'.wumpus = i ∧ spared s'.mazesize rest
          rw [hf.wumpus, hm, hl i r hir]
          apply and_congr_left'
          show i = k ↔ (k : ℤ) = i
          omega
        · show skipRooms s'.mazesize (List.range s'.mazesize) rs = some rest
          rw [hm]
          exact hskip
        · show s'.wumpus = _
          rw [hf.wumpus, hm, ← hk]
          rfl
        · intro i
          have hnone : ¬ Occupied (({ s with wumpus := k } : State).withRooms size rooms) i := by
            intro hocc
            obtain ⟨p, hp, hl⟩ := hocc
            rw [hI.nowhere p hp] at hl
            cases hl
          show Occupied s' i ↔ i ∈ places s'.mazesize s.players.length rest
          rw [hocc, or_iff_right hnone, hrs', hm, List.length_map]
          rfl

/-- `wantsize` as `start_game` cuts it. -/
def State.wanted (s : State) : ℕ := if 300 ≤ s.wantsize then 300 else s.wantsize

theorem wp_startGame (hI : Idle s)
    (hfew : s.players.length < 2 → ∀ o', Q () ⟨{ s with starting := false }, o'⟩ rs)
    (hsmall : 2 ≤ s.players.length → s.wanted < 10 →
      ∀ o', Q () ⟨({ s with starting := false, wantsize := s.wanted } : State).ended, o'⟩ rs)
    (hgo : 2 ≤ s.players.length → 10 ≤ s.wanted → ∀ s' rs' o', s'.mazesize = s.wanted →
      Started { s with starting := false, wantsize := s.wanted } s' rs → Q () ⟨s', o'⟩ rs') :
    wp startGame Q ⟨s, o⟩ rs := by
  simp only [startGame, wp_bind, wp_update, wp_getState]
  by_cases hlt : s.players.length < 2
  · rw [if_pos hlt]
    exact wp_msg (hfew hlt)
  · rw [if_neg hlt, wp_bind]
    have hle : s.wanted ≤ 300 := by
      unfold State.wanted
      split <;> omega
    have hI' : Idle { s with starting := false, wantsize := s.wanted } :=
      ⟨hI.maze, hI.players.congr rfl rfl rfl, hI.nowhere⟩
    exact wp_initGame hI' hle (hsmall (by omega)) (hgo (by omega))

end

end Wumpus
end AthemeContrib
