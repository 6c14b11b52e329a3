/-
# wumpus: the maze and the players

What the functions do to the state, without the pointers and the texts:
`resigned`, `ended`, `settled`, `prowl`, `feast`, `flown`, `relocated`. Two
invariants go with it. `MazeOk`: the rooms are numbered, and each has three
exits to other rooms of the maze. `PlayersOk`: a player object is listed in
the room it is located in, once, and nowhere else, and nobody else is.

Key definitions: `MazeOk`, `PlayersOk`, `State.resigned`, `State.ended`,
`State.settled`, `State.feast`, `State.relocated`.
Key theorems: `room?_updRoom`, `PlayersOk.resigned`, `PlayersOk.relocated`,
`players_feast`.
-/
import AthemeContrib.Wumpus.Model
import Mathlib.Data.List.Nodup
import Mathlib.Order.Nat

namespace AthemeContrib
namespace Wumpus

/-- The room `i` of a maze of `n` rooms. -/
structure RoomOk (n i : ℕ) (r : Room) : Prop where
  id : r.id = i
  three : r.exits.length = 3
  exits : ∀ x ∈ r.exits, x < n ∧ x ≠ i

/-- The maze that `build_maze` leaves. -/
structure MazeOk (s : State) : Prop where
  lo : 10 ≤ s.mazesize
  hi : s.mazesize ≤ 300
  rooms : ∀ i, i < s.mazesize → ∃ r, s.room? i = some r
  room : ∀ i r, s.room? i = some r → i < s.mazesize ∧ RoomOk s.mazesize i r
  wumpus : ∃ k, k < s.mazesize ∧ s.wumpus = k

/-- Players and rooms point at each other. -/
structure PlayersOk (s : State) : Prop where
  addrs : (s.players.map (·.addr)).Nodup
  users : (s.players.map (·.u)).Nodup
  fresh : ∀ p ∈ s.players, p.addr < s.fresh
  located : ∀ p ∈ s.players, ∀ i, p.location = some i → ∃ r, s.room? i = some r
  nodup : ∀ i r, s.room? i = some r → r.players.Nodup
  listed : ∀ i r, s.room? i = some r → ∀ a, a ∈ r.players ↔ ∃ p ∈ s.players, p.addr = a ∧ p.location = some i

/-- `s'` is `s` but for the players and the rooms. -/
def Frame (s s' : State) : Prop := ∃ ps rooms, s' = { s with players := ps, rmemctx := rooms }

theorem Frame.refl (s : State) : Frame s s := ⟨_, _, rfl⟩

theorem Frame.trans {a b c : State} (h : Frame a b) (h' : Frame b c) : Frame a c := by
  obtain ⟨ps, rooms, rfl⟩ := h
  obtain ⟨ps', rooms', rfl⟩ := h'
  exact ⟨ps', rooms', rfl⟩

section
variable {s s' : State} (h : Frame s s')
include h

theorem Frame.wumpus : s'.wumpus = s.wumpus := by obtain ⟨_, _, rfl⟩ := h; rfl
theorem Frame.mazesize : s'.mazesize = s.mazesize := by obtain ⟨_, _, rfl⟩ := h; rfl
theorem Frame.running : s'.running = s.running := by obtain ⟨_, _, rfl⟩ := h; rfl
theorem Frame.starting : s'.starting = s.starting := by obtain ⟨_, _, rfl⟩ := h; rfl
theorem Frame.fresh : s'.fresh = s.fresh := by obtain ⟨_, _, rfl⟩ := h; rfl
theorem Frame.wumpHp : s'.wumpHp = s.wumpHp := by obtain ⟨_, _, rfl⟩ := h; rfl
theorem Frame.speed : s'.speed = s.speed := by obtain ⟨_, _, rfl⟩ := h; rfl
theorem Frame.loop : s'.loop = s.loop := by obtain ⟨_, _, rfl⟩ := h; rfl
theorem Frame.moveTimer : s'.moveTimer = s.moveTimer := by obtain ⟨_, _, rfl⟩ := h; rfl
theorem Frame.startGameTimer : s'.startGameTimer = s.startGameTimer := by obtain ⟨_, _, rfl⟩ := h; rfl
theorem Frame.nick : s'.nick = s.nick := by obtain ⟨_, _, rfl⟩ := h; rfl
theorem Frame.loaded : s'.loaded = s.loaded := by obtain ⟨_, _, rfl⟩ := h; rfl
theorem Frame.faulted : s'.faulted = s.faulted := by obtain ⟨_, _, rfl⟩ := h; rfl

end

/-! ### What is left of the room when it is changed -/

@[simp] theorem room?_updRoom (s : State) (i j : ℕ) (f : Room → Room) :
    (s.updRoom i f).room? j = (s.room? j).map fun r => if i = j then f r else r := by
  unfold State.room? State.updRoom
  cases s.rmemctx with
  | none => rfl
  | some rooms =>
    simp only [Option.map_some, Option.bind_some, List.getElem?_modify]
    rfl

theorem room?_updRoom_eq_some {s : State} {i j : ℕ} {f : Room → Room} {r : Room}
    (h : (s.updRoom i f).room? j = some r) :
    ∃ r', s.room? j = some r' ∧ r = if i = j then f r' else r' := by
  rw [room?_updRoom, Option.map_eq_some_iff] at h
  obtain ⟨r', hr', rfl⟩ := h
  exact ⟨r', hr', rfl⟩

@[simp] theorem room?_updPlayer (s : State) (a i : ℕ) (f : Player → Player) :
    (s.updPlayer a f).room? i = s.room? i := rfl

theorem MazeOk.congr {s s' : State} (h : MazeOk s) (hm : s'.mazesize = s.mazesize)
    (hr : s'.rmemctx = s.rmemctx) (hw : s'.wumpus = s.wumpus) : MazeOk s' := by
  have hroom : ∀ i, s'.room? i = s.room? i := fun i => by rw [State.room?, hr, State.room?]
  constructor
  · rw [hm]; exact h.lo
  · rw [hm]; exact h.hi
  · simp only [hm, hroom]; exact h.rooms
  · simp only [hm, hroom]; exact h.room
  · simp only [hm, hw]; exact h.wumpus

theorem PlayersOk.congr {s s' : State} (h : PlayersOk s) (hp : s'.players = s.players)
    (hr : s'.rmemctx = s.rmemctx) (hf : s'.fresh = s.fresh) : PlayersOk s' := by
  have hroom : ∀ i, s'.room? i = s.room? i := fun i => by rw [State.room?, hr, State.room?]
  constructor
  · rw [hp]; exact h.addrs
  · rw [hp]; exact h.users
  · rw [hp, hf]; exact h.fresh
  · simp only [hp, hroom]; exact h.located
  · simp only [hroom]; exact h.nodup
  · simp only [hp, hroom]; exact h.listed

/-- A room may change but for its number and its exits. -/
theorem MazeOk.updRoom {s : State} (h : MazeOk s) (i : ℕ) {f : Room → Room} (hid : ∀ r, (f r).id = r.id)
    (hex : ∀ r, (f r).exits = r.exits) : MazeOk (s.updRoom i f) where
  lo := h.lo
  hi := h.hi
  rooms := fun j hj => by
    obtain ⟨r, hr⟩ := h.rooms j hj
    rw [room?_updRoom, hr]
    exact ⟨_, rfl⟩
  room := fun j r hr => by
    obtain ⟨r', hr', rfl⟩ := room?_updRoom_eq_some hr
    obtain ⟨hj, hok⟩ := h.room j r' hr'
    refine ⟨hj, ?_⟩
    by_cases hij : i = j
    · rw [if_pos hij]
      exact ⟨by rw [hid]; exact hok.id, by rw [hex]; exact hok.three, by rw [hex]; exact hok.exits⟩
    · rw [if_neg hij]
      exact hok
  wumpus := h.wumpus

/-- A room may change but for its players. -/
theorem PlayersOk.updRoom {s : State} (h : PlayersOk s) (i : ℕ) {f : Room → Room}
    (hp : ∀ r, (f r).players = r.players) : PlayersOk (s.updRoom i f) where
  addrs := h.addrs
  users := h.users
  fresh := h.fresh
  located := fun p hmem j hj => by
    obtain ⟨r, hr⟩ := h.located p hmem j hj
    rw [room?_updRoom, hr]
    exact ⟨_, rfl⟩
  nodup := fun j r hr => by
    obtain ⟨r', hr', rfl⟩ := room?_updRoom_eq_some hr
    have := h.nodup j r' hr'
    split
    · rwa [hp]
    · exact this
  listed := fun j r hr => by
    obtain ⟨r', hr', rfl⟩ := room?_updRoom_eq_some hr
    have := h.listed j r' hr'
    split
    · rwa [hp]
    · exact this

/-! ### Players -/

theorem PlayersOk.eq_of_addr {s : State} (h : PlayersOk s) {p q : Player} (hp : p ∈ s.players)
    (hq : q ∈ s.players) (he : p.addr = q.addr) : p = q := List.inj_on_of_nodup_map h.addrs hp hq he

theorem PlayersOk.player? {s : State} (h : PlayersOk s) {p : Player} (hp : p ∈ s.players) :
    s.player? p.addr = some p := by
  have hsome : (s.players.find? (·.addr = p.addr)).isSome := by
    rw [List.find?_isSome]
    exact ⟨p, hp, by simp⟩
  obtain ⟨q, hq⟩ := Option.isSome_iff_exists.mp hsome
  have hq' : q.addr = p.addr := by simpa using List.find?_some hq
  rw [State.player?, hq, h.eq_of_addr (List.mem_of_find?_eq_some hq) hp hq']

theorem mem_of_findPlayer {s : State} {u : ℕ} {p : Player} (h : s.findPlayer u = some p) :
    p ∈ s.players ∧ p.u = u :=
  ⟨List.mem_of_find?_eq_some h, by simpa using List.find?_some h⟩

theorem PlayersOk.exists_room {s : State} (h : PlayersOk s) {p : Player} (hp : p ∈ s.players)
    (hl : p.location ≠ none) : ∃ i r, p.location = some i ∧ s.room? i = some r := by
  obtain ⟨i, hi⟩ := Option.ne_none_iff_exists'.mp hl
  obtain ⟨r, hr⟩ := h.located p hp i hi
  exact ⟨i, r, hi, hr⟩

/-- When `p` has left its room, it is listed nowhere, and the others are where
they were. -/
theorem PlayersOk.mem_left {s : State} (h : PlayersOk s) {p : Player} (hp : p ∈ s.players) {j : ℕ} {r : Room}
    (hr : s.room? j = some r) (b : ℕ) :
    b ∈ (if p.location = some j then r.players.erase p.addr else r.players) ↔ b ≠ p.addr ∧ b ∈ r.players := by
  by_cases hj : p.location = some j
  · rw [if_pos hj, (h.nodup j r hr).mem_erase_iff]
  · rw [if_neg hj, iff_and_self]
    rintro hb rfl
    obtain ⟨q, hq, hqa, hqj⟩ := (h.listed j r hr p.addr).mp hb
    rw [h.eq_of_addr hq hp hqa] at hqj
    exact hj hqj

theorem PlayersOk.nodup_left {s : State} (h : PlayersOk s) (p : Player) {j : ℕ} {r : Room}
    (hr : s.room? j = some r) :
    (if p.location = some j then r.players.erase p.addr else r.players).Nodup := by
  have hn := h.nodup j r hr
  split
  · exact hn.erase _
  · exact hn

/-- A change of a player that keeps who and where it is. -/
theorem PlayersOk.updPlayer {s : State} (h : PlayersOk s) (a : ℕ) {f : Player → Player}
    (ha : ∀ p, (f p).addr = p.addr) (hu : ∀ p, (f p).u = p.u) (hl : ∀ p, (f p).location = p.location) :
    PlayersOk (s.updPlayer a f) := by
  have hmap : ∀ {β : Type} (g : Player → β), (∀ p, g (f p) = g p) →
      (s.updPlayer a f).players.map g = s.players.map g := by
    intro β g hg
    simp only [State.updPlayer, List.map_map]
    refine List.map_congr_left fun p _ => ?_
    simp only [Function.comp_apply]
    split
    · exact hg p
    · rfl
  have hmem : ∀ (P : Player → Prop), (∀ p, P (f p) ↔ P p) →
      ((∃ p ∈ (s.updPlayer a f).players, P p) ↔ ∃ p ∈ s.players, P p) := by
    intro P hP
    simp only [State.updPlayer, List.mem_map, exists_exists_and_eq_and]
    refine exists_congr fun p => and_congr_right fun _ => ?_
    split
    · exact hP p
    · rfl
  have hback : ∀ q ∈ (s.updPlayer a f).players,
      ∃ p ∈ s.players, p.addr = q.addr ∧ p.location = q.location := by
    intro q hq
    obtain ⟨p, hp, rfl⟩ := List.mem_map.mp hq
    refine ⟨p, hp, ?_⟩
    split
    · exact ⟨(ha p).symm, (hl p).symm⟩
    · exact ⟨rfl, rfl⟩
  constructor
  · rw [hmap _ ha]; exact h.addrs
  · rw [hmap _ hu]; exact h.users
  · intro q hq
    obtain ⟨p, hp, hpa, -⟩ := hback q hq
    rw [← hpa]
    exact h.fresh p hp
  · intro q hq i hi
    obtain ⟨p, hp, -, hpl⟩ := hback q hq
    exact h.located p hp i (hpl.trans hi)
  · exact h.nodup
  · intro i r hr b
    rw [h.listed i r hr b]
    exact (hmem (fun p => p.addr = b ∧ p.location = some i) fun p => by rw [ha, hl]).symm

/-- `resign_player`: the player leaves its room and the game. -/
def State.resigned (s : State) (p : Player) : State :=
  let t := match p.location with
    | some i => s.updRoom i fun r => { r with players := r.players.erase p.addr }
    | none => s
  { t with players := s.players.filter (·.addr ≠ p.addr) }

theorem room?_resigned (s : State) (p : Player) (j : ℕ) :
    (s.resigned p).room? j = (s.room? j).map fun r =>
      if p.location = some j then { r with players := r.players.erase p.addr } else r := by
  unfold State.resigned
  cases hl : p.location with
  | none =>
    simp only [reduceCtorEq, if_false]
    exact (Option.map_id' (x := s.room? j)).symm
  | some i =>
    refine (room?_updRoom s i j _).trans ?_
    simp only [Option.some.injEq]

theorem frame_resigned (s : State) (p : Player) : Frame s (s.resigned p) := by
  unfold State.resigned
  cases p.location with
  | none => exact ⟨_, _, rfl⟩
  | some i => exact ⟨_, _, rfl⟩

@[simp] theorem players_resigned (s : State) (p : Player) :
    (s.resigned p).players = s.players.filter (·.addr ≠ p.addr) := rfl

theorem PlayersOk.resigned {s : State} (h : PlayersOk s) {p : Player} (hp : p ∈ s.players) :
    PlayersOk (s.resigned p) := by
  have hroom : ∀ {j r}, (s.resigned p).room? j = some r → ∃ r', s.room? j = some r' ∧
      r.players = if p.location = some j then r'.players.erase p.addr else r'.players := by
    intro j r hr
    rw [room?_resigned, Option.map_eq_some_iff] at hr
    obtain ⟨r', hr', rfl⟩ := hr
    exact ⟨r', hr', apply_ite Room.players _ _ _⟩
  constructor
  · exact h.addrs.sublist (List.filter_sublist.map _)
  · exact h.users.sublist (List.filter_sublist.map _)
  · intro q hq
    rw [(frame_resigned s p).fresh]
    exact h.fresh q (List.mem_of_mem_filter hq)
  · intro q hq i hi
    obtain ⟨r, hr⟩ := h.located q (List.mem_of_mem_filter hq) i hi
    rw [room?_resigned, hr]
    exact ⟨_, rfl⟩
  · intro j r hr
    obtain ⟨r', hr', hps⟩ := hroom hr
    rw [hps]
    exact h.nodup_left p hr'
  · intro j r hr b
    obtain ⟨r', hr', hps⟩ := hroom hr
    rw [hps, h.mem_left hp hr', h.listed j r' hr' b]
    simp only [players_resigned, List.mem_filter, decide_eq_true_eq]
    constructor
    · rintro ⟨hne, q, hq, rfl, hqj⟩
      exact ⟨q, ⟨hq, hne⟩, rfl, hqj⟩
    · rintro ⟨q, ⟨hq, hne⟩, rfl, hqj⟩
      exact ⟨hne, q, hq, rfl, hqj⟩

/-- One player is gone. -/
theorem PlayersOk.length_resigned {s : State} (h : PlayersOk s) {p : Player} (hp : p ∈ s.players) :
    (s.resigned p).players.length + 1 = s.players.length := by
  have hnd : s.players.Nodup := List.Nodup.of_map _ h.addrs
  have herase : s.players.filter (·.addr ≠ p.addr) = s.players.erase p := by
    rw [hnd.erase_eq_filter]
    refine List.filter_congr fun q hq => ?_
    rw [Bool.eq_iff_iff, decide_eq_true_eq, bne_iff_ne]
    exact not_congr ⟨h.eq_of_addr hq hp, congrArg _⟩
  have hpos := List.length_pos_of_mem hp
  rw [players_resigned, herase, List.length_erase_of_mem hp]
  omega

theorem MazeOk.resigned {s : State} (h : MazeOk s) (p : Player) : MazeOk (s.resigned p) := by
  unfold State.resigned
  cases p.location with
  | none => exact h.congr rfl rfl rfl
  | some i =>
    have h1 := h.updRoom i (f := fun r => { r with players := r.players.erase p.addr }) (fun _ => rfl)
      (fun _ => rfl)
    exact h1.congr rfl rfl rfl

/-- `end_game`: nobody and nothing is left. -/
def State.ended (s : State) : State := { s with
  players := [], rmemctx := none, wumpus := -1, running := false
  loop := s.loop.timerDestroy s.moveTimer, moveTimer := none }

/-- `check_last_person_alive` -/
def State.settled (s : State) : State := if s.players.length < 2 then s.ended else s

/-- What `check_last_person_alive` sends. -/
def State.verdict (s : State) : List Output :=
  match s.players with
  | [p] => [.msg "#wumpus" (wonText (s.nick p.u))]
  | [] => [.msg "#wumpus" "Everyone lost. Sucks. :("]
  | _ => []

/-! ### Contents -/

/-- The contents of the room `i` become `c`. -/
def State.put (s : State) (i : ℕ) (c : Contents) : State := s.updRoom i fun r => { r with contents := c }

theorem MazeOk.put {s : State} (h : MazeOk s) (i : ℕ) (c : Contents) : MazeOk (s.put i c) :=
  h.updRoom i (fun _ => rfl) (fun _ => rfl)

theorem PlayersOk.put {s : State} (h : PlayersOk s) (i : ℕ) (c : Contents) : PlayersOk (s.put i c) :=
  h.updRoom i fun _ => rfl

/-- The contents of the room `i`. -/
def State.contents (s : State) (i : ℕ) : Option Contents := (s.room? i).map (·.contents)

theorem contents_put (s : State) (i j : ℕ) (c : Contents) :
    (s.put i c).contents j = (s.contents j).map fun c' => if i = j then c else c' := by
  unfold State.contents State.put
  rw [room?_updRoom, Option.map_map, Option.map_map]
  refine Option.map_congr fun r _ => ?_
  simp only [Function.comp_apply]
  split <;> rfl

theorem contents_eq {s : State} {i : ℕ} {r : Room} (hr : s.room? i = some r) :
    s.contents i = some r.contents := by
  rw [State.contents, hr, Option.map_some]

theorem contents_put_self {s : State} {i : ℕ} (c : Contents) (h : ∃ r, s.room? i = some r) :
    (s.put i c).contents i = some c := by
  obtain ⟨r, hr⟩ := h
  rw [contents_put, contents_eq hr, Option.map_some]
  exact congrArg some (if_pos rfl)

theorem contents_put_ne {s : State} {i j : ℕ} (c : Contents) (h : i ≠ j) :
    (s.put i c).contents j = s.contents j := by
  rw [contents_put]
  simp only [h, if_false]
  exact Option.map_id' (x := s.contents j)

@[simp] theorem contents_updPlayer {s : State} (a i : ℕ) (f : Player → Player) :
    (s.updPlayer a f).contents i = s.contents i := rfl

/-! ### The wumpus moves -/

/-- The wumpus leaves for the room `n`, and what was in its room appears in
the room `d`. -/
def State.prowl (s : State) (c : Contents) (d n : ℕ) : State :=
  ({ (s.put d c).put s.wumpus.toNat .nothing with wumpus := n } : State).put n .wumpus

theorem MazeOk.prowl {s : State} (h : MazeOk s) (c : Contents) (d : ℕ) {n : ℕ} (hn : n < s.mazesize) :
    MazeOk (s.prowl c d n) := by
  have h1 := (h.put d c).put s.wumpus.toNat .nothing
  have h2 : MazeOk { (s.put d c).put s.wumpus.toNat .nothing with wumpus := n } :=
    ⟨h1.lo, h1.hi, h1.rooms, h1.room, n, hn, rfl⟩
  exact h2.put n .wumpus

theorem PlayersOk.prowl {s : State} (h : PlayersOk s) (c : Contents) (d n : ℕ) :
    PlayersOk (s.prowl c d n) := by
  have h1 := (h.put d c).put s.wumpus.toNat .nothing
  have h2 : PlayersOk { (s.put d c).put s.wumpus.toNat .nothing with wumpus := n } := h1.congr rfl rfl rfl
  exact h2.put n .wumpus

/-- A player in the room of the wumpus is eaten, another may move again. -/
def State.meal (s : State) (p : Player) : State :=
  if p.location = some s.wumpus.toNat then s.resigned p
  else s.updPlayer p.addr fun p => { p with hasMoved := false }

/-- The wumpus meets the players one after another. -/
def State.feast (s : State) (ps : List Player) : State := ps.foldl State.meal s

theorem frame_meal (s : State) (p : Player) : Frame s (s.meal p) := by
  unfold State.meal
  split
  · exact frame_resigned s p
  · exact ⟨_, _, rfl⟩

theorem MazeOk.meal {s : State} (h : MazeOk s) (p : Player) : MazeOk (s.meal p) := by
  unfold State.meal
  split
  · exact h.resigned p
  · exact h.congr rfl rfl rfl

theorem PlayersOk.meal {s : State} (h : PlayersOk s) {p : Player} (hp : p ∈ s.players) :
    PlayersOk (s.meal p) := by
  unfold State.meal
  split
  · exact h.resigned hp
  · exact h.updPlayer p.addr (fun _ => rfl) (fun _ => rfl) fun _ => rfl

theorem MazeOk.feast {s : State} (h : MazeOk s) (ps : List Player) : MazeOk (s.feast ps) := by
  induction ps generalizing s with
  | nil => exact h
  | cons p ps ih => exact ih (h.meal p)

theorem frame_feast (s : State) (ps : List Player) : Frame s (s.feast ps) := by
  induction ps generalizing s with
  | nil => exact Frame.refl s
  | cons p ps ih => exact (frame_meal s p).trans (ih (s.meal p))

/-- What a meal does to the players that are met in order. -/
theorem players_meal {s : State} (h : PlayersOk s) {met : List Player} {p : Player} {ps : List Player}
    (hs : s.players = met ++ p :: ps) :
    (s.meal p).players =
      met ++ (if p.location = some s.wumpus.toNat then [] else [{ p with hasMoved := false }]) ++ ps := by
  have hn := h.addrs
  rw [hs, List.map_append, List.map_cons, List.nodup_append, List.nodup_cons] at hn
  obtain ⟨-, ⟨hps, -⟩, hmet⟩ := hn
  have hmet' : ∀ q ∈ met, q.addr ≠ p.addr := fun q hq => hmet _ (List.mem_map_of_mem hq) _ (by simp)
  have hps' : ∀ q ∈ ps, q.addr ≠ p.addr := fun q hq he => hps (he ▸ List.mem_map_of_mem hq)
  unfold State.meal
  split
  · rw [players_resigned, hs, List.filter_append, List.filter_cons_of_neg (by simp), List.append_nil,
      List.filter_eq_self.mpr (by simpa using hmet'), List.filter_eq_self.mpr (by simpa using hps')]
  · have hkeep : ∀ {qs : List Player}, (∀ q ∈ qs, q.addr ≠ p.addr) →
        qs.map (fun q => if q.addr = p.addr then { q with hasMoved := false } else q) = qs := by
      intro qs hqs
      conv_rhs => rw [← List.map_id qs]
      exact List.map_congr_left fun q hq => if_neg (hqs q hq)
    simp only [State.updPlayer, hs, List.map_append, List.map_cons, hkeep hmet', hkeep hps', if_true,
      List.append_assoc, List.singleton_append]

/-- Who is left after the wumpus has met everybody. -/
theorem players_feast {s : State} (h : PlayersOk s) : ∀ {ps met : List Player}, s.players = met ++ ps →
    PlayersOk (s.feast ps) ∧ (s.feast ps).players = met ++
      (ps.filter (·.location ≠ some s.wumpus.toNat)).map fun p => { p with hasMoved := false }
  | [], met, hs => ⟨h, by rw [List.filter_nil, List.map_nil]; exact hs⟩
  | p :: ps, met, hs => by
    have hmeal := players_meal h hs
    have hok := h.meal (p := p) (by rw [hs]; simp)
    have hw := (frame_meal s p).wumpus
    obtain ⟨hok', hp⟩ := players_feast hok hmeal
    refine ⟨hok', hp.trans ?_⟩
    rw [hw, List.append_assoc]
    congr 1
    by_cases hl : p.location = some s.wumpus.toNat
    · rw [if_pos hl, List.filter_cons_of_neg (by simpa using hl), List.nil_append]
    · rw [if_neg hl, List.filter_cons_of_pos (by simpa using hl), List.map_cons, List.singleton_append]

/-! ### A player moves -/

/-- The bats of the room `id` carry a player to the room `d`. -/
def State.flown (s : State) (id d : ℕ) : State := (s.put id .nothing).put d .bats

/-- A player gets to the room `d`, out of the room it is in, if it is in
one. -/
def State.relocated (s : State) (p : Player) (d : ℕ) : State :=
  let t := match p.location with
    | some i => s.updRoom i fun r => { r with players := r.players.erase p.addr }
    | none => s
  (t.updPlayer p.addr fun p => { p with location := some d }).updRoom d fun r =>
    { r with players := r.players ++ [p.addr] }

theorem room?_relocated (s : State) (p : Player) (d j : ℕ) :
    (s.relocated p d).room? j = (s.room? j).map fun r => { r with
      players := (if p.location = some j then r.players.erase p.addr else r.players) ++
        if d = j then [p.addr] else [] } := by
  unfold State.relocated
  refine (room?_updRoom _ d j _).trans ?_
  rw [room?_updPlayer]
  cases hl : p.location with
  | none =>
    simp only [reduceCtorEq, if_false]
    refine Option.map_congr fun r _ => ?_
    split <;> simp
  | some i =>
    simp only [room?_updRoom, Option.map_map, Option.some.injEq]
    refine Option.map_congr fun r _ => ?_
    simp only [Function.comp_apply]
    by_cases hi : i = j <;> by_cases hd : d = j <;> simp [hi, hd]

theorem players_relocated (s : State) (p : Player) (d : ℕ) :
    (s.relocated p d).players =
      s.players.map fun q => if q.addr = p.addr then { q with location := some d } else q := by
  unfold State.relocated
  cases p.location <;> rfl

theorem frame_relocated (s : State) (p : Player) (d : ℕ) : Frame s (s.relocated p d) := by
  unfold State.relocated
  cases p.location with
  | none => exact ⟨_, _, rfl⟩
  | some i => exact ⟨_, _, rfl⟩

theorem MazeOk.relocated {s : State} (h : MazeOk s) (p : Player) (d : ℕ) : MazeOk (s.relocated p d) := by
  have hmove : ∀ {t : State}, MazeOk t → MazeOk (t.updPlayer p.addr fun p => { p with location := some d }) :=
    fun ht => ht.congr rfl rfl rfl
  unfold State.relocated
  refine MazeOk.updRoom (hmove ?_) d (fun _ => rfl) (fun _ => rfl)
  cases p.location with
  | none => exact h
  | some i => exact h.updRoom i (fun _ => rfl) (fun _ => rfl)

theorem PlayersOk.relocated {s : State} (h : PlayersOk s) {p : Player} (hp : p ∈ s.players) {d : ℕ}
    (hd : ∃ r, s.room? d = some r) : PlayersOk (s.relocated p d) := by
  have hmove : ∀ q ∈ s.players,
      (if q.addr = p.addr then { q with location := some d } else q).addr = q.addr := by
    intro q _
    split <;> rfl
  constructor
  · rw [players_relocated, List.map_map]
    rw [List.map_congr_left (g := (·.addr)) hmove]
    exact h.addrs
  · rw [players_relocated, List.map_map, List.map_congr_left (g := (·.u))]
    · exact h.users
    · intro q _
      simp only [Function.comp_apply]
      split <;> rfl
  · intro q hq
    rw [players_relocated] at hq
    obtain ⟨q', hq', rfl⟩ := List.mem_map.mp hq
    rw [hmove q' hq', (frame_relocated s p d).fresh]
    exact h.fresh q' hq'
  · intro q hq i hi
    rw [room?_relocated]
    rw [players_relocated] at hq
    obtain ⟨q', hq', rfl⟩ := List.mem_map.mp hq
    have hroom : ∃ r, s.room? i = some r := by
      split at hi
      · rw [← Option.some.inj hi]
        exact hd
      · exact h.located q' hq' i hi
    obtain ⟨r, hr⟩ := hroom
    rw [hr]
    exact ⟨_, rfl⟩
  · intro j r hr
    rw [room?_relocated, Option.map_eq_some_iff] at hr
    obtain ⟨r', hr', rfl⟩ := hr
    have hn := h.nodup_left p hr'
    show ((if p.location = some j then r'.players.erase p.addr else r'.players) ++ _).Nodup
    by_cases hdj : d = j
    · rw [if_pos hdj, List.nodup_append]
      refine ⟨hn, List.nodup_singleton _, fun a ha b hb => ?_⟩
      rw [List.mem_singleton.mp hb]
      exact ((h.mem_left hp hr' a).mp ha).1
    · rw [if_neg hdj, List.append_nil]
      exact hn
  · intro j r hr b
    rw [room?_relocated, Option.map_eq_some_iff] at hr
    obtain ⟨r', hr', rfl⟩ := hr
    rw [players_relocated]
    simp only [List.mem_append, h.mem_left hp hr', List.mem_map, exists_exists_and_eq_and]
    constructor
    · rintro (⟨hne, hb⟩ | hb)
      · obtain ⟨q, hq, rfl, hqj⟩ := (h.listed j r' hr' b).mp hb
        exact ⟨q, hq, by rw [if_neg hne]; exact ⟨rfl, hqj⟩⟩
      · by_cases hdj : d = j
        · rw [if_pos hdj, List.mem_singleton] at hb
          refine ⟨p, hp, ?_⟩
          rw [if_pos rfl]
          exact ⟨hb.symm, congrArg some hdj⟩
        · rw [if_neg hdj] at hb
          cases hb
    · intro ⟨q, hq, hqa, hqj⟩
      by_cases hqp : q.addr = p.addr
      · rw [if_pos hqp] at hqa hqj
        right
        rw [if_pos (Option.some.inj hqj)]
        exact List.mem_singleton.mpr (hqa.symm.trans hqp)
      · rw [if_neg hqp] at hqa hqj
        left
        rw [← hqa]
        exact ⟨hqp, (h.listed j r' hr' q.addr).mpr ⟨q, hq, rfl, hqj⟩⟩

end Wumpus
end AthemeContrib
