/-
# wumpus: what each function does

One rule for each function of the game: under the invariants of the maze and
the players it follows no missing pointer, and where it leads to, up to the
messages sent. A rule is read backwards: to show `Q` after the function, show
it of the state the function leads to.

Key theorems: `wp_resignPlayer`, `wp_endGame`, `wp_checkLastPersonAlive`,
`wp_lookPlayer`, `wp_moveWumpus`, `wp_arrive`.
-/
import AthemeContrib.Wumpus.State

namespace AthemeContrib
namespace Wumpus

open Prog

variable {s : State} {o : List Output} {rs : List ℕ}

/-! ### Pointers and messages -/

section
variable {Q : Unit → World → List ℕ → Prop}

@[simp] theorem wp_update (f : State → State) : wp (update f) Q ⟨s, o⟩ rs ↔ Q () ⟨f s, o⟩ rs := Iff.rfl

theorem wp_getState {Q : State → World → List ℕ → Prop} : wp getState Q ⟨s, o⟩ rs ↔ Q s ⟨s, o⟩ rs := Iff.rfl

theorem wp_notice {u : ℕ} {text : String} (h : ∀ o', Q () ⟨s, o'⟩ rs) : wp (notice u text) Q ⟨s, o⟩ rs := h _

theorem wp_msg {text : String} (h : ∀ o', Q () ⟨s, o'⟩ rs) : wp (msg text) Q ⟨s, o⟩ rs := h _

theorem wp_roomPtr {Q : Room → World → List ℕ → Prop} {i : ℕ} {r : Room} (hr : s.room? i = some r)
    (h : Q r ⟨s, o⟩ rs) : wp (roomPtr i) Q ⟨s, o⟩ rs := by
  simp only [roomPtr, wp_bind, wp_getState]
  exact wp_deref hr h

theorem wp_rmemctxAt {Q : Room → World → List ℕ → Prop} {i : ℕ} {r : Room} (hr : s.room? i = some r)
    (h : Q r ⟨s, o⟩ rs) : wp (rmemctxAt i) Q ⟨s, o⟩ rs := by
  unfold rmemctxAt
  rw [if_neg (by omega)]
  exact wp_roomPtr hr h

theorem wp_setRoom {i : ℕ} {f : Room → Room} (hr : ∃ r, s.room? i = some r)
    (h : Q () ⟨s.updRoom i f, o⟩ rs) : wp (setRoom i f) Q ⟨s, o⟩ rs := by
  obtain ⟨r, hr⟩ := hr
  simp only [setRoom, wp_bind]
  exact wp_roomPtr hr h

theorem wp_setContents {i : ℕ} {c : Contents} (hr : ∃ r, s.room? i = some r) (h : Q () ⟨s.put i c, o⟩ rs) :
    wp (setContents i c) Q ⟨s, o⟩ rs := wp_setRoom hr h

theorem wp_playerPtr {Q : Player → World → List ℕ → Prop} {a : ℕ} {p : Player} (hp : s.player? a = some p)
    (h : Q p ⟨s, o⟩ rs) : wp (playerPtr a) Q ⟨s, o⟩ rs := by
  simp only [playerPtr, wp_bind, wp_getState]
  exact wp_deref hp h

theorem wp_setPlayer {a : ℕ} {p : Player} {f : Player → Player} (hp : s.player? a = some p)
    (h : Q () ⟨s.updPlayer a f, o⟩ rs) : wp (setPlayer a f) Q ⟨s, o⟩ rs := by
  simp only [setPlayer, wp_bind]
  exact wp_playerPtr hp h

theorem wp_location {Q : Room → World → List ℕ → Prop} {p : Player} {i : ℕ} {r : Room}
    (hl : p.location = some i) (hr : s.room? i = some r) (h : Q r ⟨s, o⟩ rs) :
    wp (location p) Q ⟨s, o⟩ rs := by
  simp only [location, wp_bind]
  exact wp_deref hl (wp_roomPtr hr h)

theorem wp_leaveRoom {a i : ℕ} {r : Room} (hr : s.room? i = some r) (ha : a ∈ r.players)
    (h : Q () ⟨s.updRoom i fun r => { r with players := r.players.erase a }, o⟩ rs) :
    wp (leaveRoom a i) Q ⟨s, o⟩ rs := by
  simp only [leaveRoom, wp_bind]
  apply wp_roomPtr hr
  rw [if_pos ha]
  exact h

theorem wp_when {c : Prop} [Decidable c] {m : Prog World Unit} (ht : c → wp m Q ⟨s, o⟩ rs)
    (hf : ¬ c → Q () ⟨s, o⟩ rs) : wp (when c m) Q ⟨s, o⟩ rs := by
  unfold when
  split
  · exact ht ‹_›
  · exact hf ‹_›

/-- A loop that only sends messages. -/
theorem wp_forEach_says {α : Type} {f : α → Prog World Unit} : ∀ {as : List α} {o : List Output},
    (∀ a ∈ as, ∀ o (R : Unit → World → List ℕ → Prop), (∀ o', R () ⟨s, o'⟩ rs) → wp (f a) R ⟨s, o⟩ rs) →
      (∀ o', Q () ⟨s, o'⟩ rs) → wp (forEach f as) Q ⟨s, o⟩ rs
  | [], o, _, h => h o
  | a :: as, o, hf, h => by
    rw [wp_forEach_cons]
    exact hf a (by simp) o _ fun o' => wp_forEach_says (fun b hb => hf b (by simp [hb])) h

end

/-! ### Looking around -/

/-- Exits lead to rooms of the maze. -/
def Linked (s : State) : Prop := ∀ i r, s.room? i = some r → ∀ n ∈ r.exits, ∃ r', s.room? n = some r'

theorem MazeOk.linked (h : MazeOk s) : Linked s :=
  fun i r hr n hn => h.rooms n (((h.room i r hr).2.exits n hn).1)

theorem wp_anyWumpus {Q : Bool → World → List ℕ → Prop} : ∀ {ns : List ℕ},
    (∀ n ∈ ns, ∃ r, s.room? n = some r) → (∀ b, Q b ⟨s, o⟩ rs) → wp (anyWumpus ns) Q ⟨s, o⟩ rs
  | [], _, h => h false
  | n :: ns, hns, h => by
    obtain ⟨r, hr⟩ := hns n (by simp)
    simp only [anyWumpus, wp_bind]
    apply wp_roomPtr hr
    split
    · exact h true
    · exact wp_anyWumpus (fun m hm => hns m (by simp [hm])) h

theorem wp_distanceFrom {Q : ℕ → World → List ℕ → Prop} (hs : Linked s) : ∀ {ns : List ℕ},
    (∀ n ∈ ns, ∃ r, s.room? n = some r) → (∀ d, Q d ⟨s, o⟩ rs) → wp (distanceFrom ns) Q ⟨s, o⟩ rs
  | [], _, h => h 0
  | n :: ns, hns, h => by
    obtain ⟨r, hr⟩ := hns n (by simp)
    simp only [distanceFrom, wp_bind]
    apply wp_roomPtr hr
    split
    · exact h 1
    · rw [wp_bind]
      refine wp_anyWumpus (hs n r hr) fun b => ?_
      cases b with
      | true => exact h 2
      | false => exact wp_distanceFrom hs (fun m hm => hns m (by simp [hm])) h

theorem wp_anyRoom {Q : Bool → World → List ℕ → Prop} (hid : ∀ i r, s.room? i = some r → r.id = i) {id : ℤ} :
    ∀ {ns : List ℕ}, (∀ n ∈ ns, ∃ r, s.room? n = some r) → Q (decide (∃ n ∈ ns, (n : ℤ) = id)) ⟨s, o⟩ rs →
      wp (anyRoom id ns) Q ⟨s, o⟩ rs
  | [], _, h => by
    rw [anyRoom, wp_pure]
    simpa using h
  | n :: ns, hns, h => by
    obtain ⟨r, hr⟩ := hns n (by simp)
    simp only [anyRoom, wp_bind]
    apply wp_roomPtr hr
    rw [hid n r hr]
    split
    · rename_i hn
      rw [wp_pure]
      rwa [decide_eq_true ⟨n, by simp, hn⟩] at h
    · rename_i hn
      refine wp_anyRoom hid (fun m hm => hns m (by simp [hm])) ?_
      simpa [hn] using h

/-- The room `id` can be reached from where `p` is. -/
def State.Adjacent (s : State) (p : Player) (id : ℤ) : Prop :=
  ∃ i r, p.location = some i ∧ s.room? i = some r ∧ ∃ n ∈ r.exits, (n : ℤ) = id

theorem wp_adjacentRoom {Q : Bool → World → List ℕ → Prop} (hs : Linked s)
    (hid : ∀ i r, s.room? i = some r → r.id = i) {p : Player} {i : ℕ} {r : Room} (hl : p.location = some i)
    (hr : s.room? i = some r) {id : ℤ} (h : ∀ b, (b = true ↔ s.Adjacent p id) → Q b ⟨s, o⟩ rs) :
    wp (adjacentRoom p id) Q ⟨s, o⟩ rs := by
  simp only [adjacentRoom, wp_bind]
  refine wp_location hl hr (wp_anyRoom hid (hs i r hr) (h _ ?_))
  rw [decide_eq_true_eq]
  constructor
  · intro hexit
    exact ⟨i, r, hl, hr, hexit⟩
  · intro hadj
    obtain ⟨i', r', hl', hr', hn⟩ := hadj
    rw [hl, Option.some.injEq] at hl'
    subst hl'
    rw [hr, Option.some.injEq] at hr'
    subst hr'
    exact hn

theorem wp_warn {Q : Unit → World → List ℕ → Prop} {u n : ℕ} (hr : ∃ r, s.room? n = some r)
    (h : ∀ o', Q () ⟨s, o'⟩ rs) : wp (warn u n) Q ⟨s, o⟩ rs := by
  obtain ⟨r, hr⟩ := hr
  have say : ∀ {c : Prop} [Decidable c] {text : String} {o} {R : Unit → World → List ℕ → Prop},
      (∀ o', R () ⟨s, o'⟩ rs) → wp (when c (notice u text)) R ⟨s, o⟩ rs :=
    fun hR => wp_when (fun _ => wp_notice hR) fun _ => hR _
  simp only [warn, wp_bind]
  exact wp_roomPtr hr (say fun _ => say fun _ => say fun _ => say h)

theorem wp_lookPlayer {Q : Unit → World → List ℕ → Prop} (hs : Linked s) {a i : ℕ} {p : Player}
    (hp : s.player? a = some p) (hl : p.location = some i) (hr : ∃ r, s.room? i = some r)
    (h : ∀ o', Q () ⟨s, o'⟩ rs) : wp (lookPlayer a) Q ⟨s, o⟩ rs := by
  obtain ⟨r, hr⟩ := hr
  have hex := hs i r hr
  simp only [lookPlayer, wp_bind]
  apply wp_playerPtr hp
  simp only [hl, wp_bind]
  refine wp_roomPtr hr (wp_notice fun o => ?_)
  refine wp_forEach_says (fun n hn o R hR => ?_) fun o => ?_
  · obtain ⟨r', hr'⟩ := hex n hn
    rw [wp_bind]
    exact wp_roomPtr hr' (wp_notice hR)
  · simp only [distanceToWumpus, wp_bind]
    refine wp_location hl hr (wp_distanceFrom hs hex fun d => ?_)
    have hlast : ∀ o, wp (forEach (warn p.u) r.exits) Q ⟨s, o⟩ rs := fun o =>
      wp_forEach_says (fun n hn _ _ hR => wp_warn (hex n hn) hR) h
    exact wp_when (fun _ => wp_notice hlast) fun _ => hlast o

/-! ### The end of the game -/

section
variable {Q : Unit → World → List ℕ → Prop}

theorem wp_resignPlayer (hP : PlayersOk s) {p : Player} (hp : p ∈ s.players)
    (h : Q () ⟨s.resigned p, o⟩ rs) : wp (resignPlayer p.addr) Q ⟨s, o⟩ rs := by
  simp only [resignPlayer, wp_bind]
  refine wp_playerPtr (hP.player? hp) ?_
  unfold State.resigned at h
  cases hl : p.location with
  | none =>
    rw [hl] at h
    exact h
  | some i =>
    rw [hl] at h
    obtain ⟨r, hr⟩ := hP.located p hp i hl
    simp only [wp_bind]
    refine wp_leaveRoom hr ((hP.listed i r hr p.addr).mpr ⟨p, hp, rfl, hl⟩) ?_
    exact h

/-- All players resign. -/
theorem wp_resignAll {n : ℕ} : ∀ {ps : List Player} {s : State}, PlayersOk s → s.players = ps →
    (∀ i, i < n → s.rmemctx.isSome → ∃ r, s.room? i = some r) →
    (∀ rooms, (rooms.isSome ↔ s.rmemctx.isSome) →
      (∀ i, i < n → rooms.isSome →
        ∃ r, ({ s with players := [], rmemctx := rooms } : State).room? i = some r) →
      Q () ⟨{ s with players := [], rmemctx := rooms }, o⟩ rs) →
    wp (forEach resignPlayer (ps.map (·.addr))) Q ⟨s, o⟩ rs
  | [], s, _, hs, hn, h => by
    have heq : s = { s with players := [], rmemctx := s.rmemctx } := by rw [← hs]
    rw [heq]
    exact h s.rmemctx Iff.rfl (by simpa only [← heq] using hn)
  | p :: ps, s, hP, hs, hn, h => by
    have hp : p ∈ s.players := by rw [hs]; simp
    have hrest : (s.resigned p).players = ps := by
      have hnd := hP.addrs
      rw [hs, List.map_cons, List.nodup_cons] at hnd
      rw [players_resigned, hs, List.filter_cons_of_neg (by simp), List.filter_eq_self]
      intro q hq
      have : q.addr ≠ p.addr := fun he => hnd.1 (he ▸ List.mem_map_of_mem hq)
      simpa using this
    have hsome : (s.resigned p).rmemctx.isSome ↔ s.rmemctx.isSome := by
      unfold State.resigned
      cases p.location <;> simp [State.updRoom]
    rw [List.map_cons, wp_forEach_cons]
    refine wp_resignPlayer hP hp (wp_resignAll (n := n) (hP.resigned hp) hrest ?_ ?_)
    · intro i hi his
      obtain ⟨r, hr⟩ := hn i hi (hsome.mp his)
      rw [room?_resigned, hr]
      exact ⟨_, rfl⟩
    · intro rooms hrooms hex
      obtain ⟨ps', rooms', heq⟩ := frame_resigned s p
      rw [heq] at hrooms hex ⊢
      exact h rooms (hrooms.trans (by rw [← hsome, heq])) hex

/-- The exits are cut, room by room. -/
theorem wp_cutExits : ∀ {is : List ℕ} {s : State}, (∀ i ∈ is, ∃ r, s.room? i = some r) →
    (∀ rooms, Q () ⟨{ s with rmemctx := some rooms }, o⟩ rs) → s.rmemctx.isSome →
    wp (forEach (fun i => setRoom i fun r => { r with exits := [] }) is) Q ⟨s, o⟩ rs
  | [], s, _, h, hsome => by
    obtain ⟨rooms, hrooms⟩ := Option.isSome_iff_exists.mp hsome
    have := h rooms
    rw [← hrooms] at this
    exact this
  | i :: is, s, hex, h, hsome => by
    rw [wp_forEach_cons]
    refine wp_setRoom (hex i (by simp)) (wp_cutExits (fun j hj => ?_) h ?_)
    · obtain ⟨r, hr⟩ := hex j (by simp [hj])
      rw [room?_updRoom, hr]
      exact ⟨_, rfl⟩
    · simpa [State.updRoom] using hsome

/-- What `end_game` needs of a state: a maze that is there is as large as it
says. -/
def Endable (s : State) : Prop := ∀ i, i < s.mazesize → s.rmemctx.isSome → ∃ r, s.room? i = some r

theorem MazeOk.endable (h : MazeOk s) : Endable s := fun i hi _ => h.rooms i hi

theorem wp_endGame (hP : PlayersOk s) (hE : Endable s) (h : Q () ⟨s.ended, o⟩ rs) :
    wp endGame Q ⟨s, o⟩ rs := by
  simp only [endGame, wp_bind, wp_getState]
  refine wp_resignAll hP rfl hE fun rooms hrooms hex => ?_
  cases hs : s.rmemctx with
  | none =>
    have hnone : rooms = none := by
      rw [hs] at hrooms
      simpa using hrooms
    subst hnone
    exact h
  | some rooms₀ =>
    have hsome : rooms.isSome := hrooms.mpr (by rw [hs]; rfl)
    simp only [wp_bind]
    refine wp_cutExits (fun i hi => hex i (List.mem_range.mp hi) hsome) (fun _ => ?_) hsome
    exact h

theorem wp_checkLastPersonAlive (hP : PlayersOk s) (hE : Endable s)
    (h : Q () ⟨s.settled, o ++ s.verdict⟩ rs) : wp checkLastPersonAlive Q ⟨s, o⟩ rs := by
  simp only [checkLastPersonAlive, wp_bind, wp_getState]
  unfold State.settled State.verdict at h
  rcases hp : s.players with _ | ⟨p, _ | ⟨q, ps⟩⟩
  · simp only [hp, List.length_nil, Nat.zero_lt_succ, if_true] at h
    exact wp_endGame hP hE h
  · simp only [hp, List.length_singleton, Nat.one_lt_two, if_true] at h
    exact wp_endGame hP hE h
  · have hn : ¬ (p :: q :: ps).length < 2 := by simp
    simp only [hp, hn, if_false, List.append_nil] at h
    exact h

/-! ### The wumpus moves -/

theorem wp_regenObj {c : Contents} (hM : MazeOk s)
    (h : ∀ d rs', rs = d :: rs' → Q () ⟨s.put (d % s.mazesize) c, o⟩ rs') : wp (regenObj c) Q ⟨s, o⟩ rs := by
  have hpos : 0 < s.mazesize := by have := hM.lo; omega
  simp only [regenObj, wp_bind, wp_getState]
  refine wp_randBelow hpos fun d rs' hrs => wp_setContents (hM.rooms _ (Nat.mod_lt _ hpos)) (h d rs' hrs)

theorem wp_eatPlayers {Q : ℕ → World → List ℕ → Prop} :
    ∀ {ps met : List Player} {s : State} {o : List Output},
    MazeOk s → PlayersOk s → s.players = met ++ ps → (∀ p ∈ ps, p.location ≠ none) →
    (∀ k o', Q k ⟨s.feast ps, o'⟩ rs) → wp (eatPlayers (ps.map (·.addr))) Q ⟨s, o⟩ rs
  | [], _, _, _, _, _, _, _, h => h 0 _
  | p :: ps, met, s, o, hM, hP, hs, hloc, h => by
    have hp : p ∈ s.players := by rw [hs]; simp
    obtain ⟨i, r, hi, hr⟩ := hP.exists_room hp (hloc p (by simp))
    have hid : r.id = i := (hM.room i r hr).2.id
    obtain ⟨k, -, hk⟩ := hM.wumpus
    have hM' := hM.meal p
    have hP' := hP.meal hp
    have hrest := players_meal hP hs
    have hloc' : ∀ q ∈ ps, q.location ≠ none := fun q hq => hloc q (by simp [hq])
    rw [List.map_cons]
    simp only [eatPlayers, wp_bind]
    refine wp_playerPtr (hP.player? hp) (wp_location hi hr ?_)
    rw [wp_getState]
    by_cases hw : s.wumpus = r.id
    · have hmeal : s.meal p = s.resigned p := if_pos (by rw [hi, hw, hid, Int.toNat_natCast])
      rw [if_pos hw]
      simp only [wp_bind]
      refine wp_notice fun o' => wp_resignPlayer hP hp ?_
      rw [← hmeal]
      exact wp_eatPlayers hM' hP' hrest hloc' fun k o'' => h (k + 1) o''
    · have hne : ¬ p.location = some s.wumpus.toNat := by
        rw [hi, Option.some.injEq]
        intro he
        apply hw
        rw [hid, he, hk, Int.toNat_natCast]
      have hmeal : s.meal p = s.updPlayer p.addr fun p => { p with hasMoved := false } := if_neg hne
      rw [if_neg hw, wp_bind]
      refine wp_setPlayer (hP.player? hp) ?_
      rw [← hmeal]
      exact wp_eatPlayers hM' hP' hrest hloc' h

/-- The wumpus has moved to the room `n`, and eaten those it found there. -/
def State.hunted (s : State) (c : Contents) (d n : ℕ) : State :=
  (s.prowl c d n).feast s.players

/-- Where bats, arrows, the crystal ball and the contents of the wumpus' old
room reappear: the room of the first number drawn. -/
def State.spot (s : State) (rs : List ℕ) : ℕ := rs.headD 0 % s.mazesize

/-- With the numbers `rs` the wumpus goes to the room `n`, and what was in its
room, `c`, appears in the room `d`. -/
structure Stride (s : State) (rs : List ℕ) (c : Contents) (d n : ℕ) : Prop where
  old : s.contents s.wumpus.toNat = some c
  spot : d = s.spot rs
  exit : ∃ r, s.room? s.wumpus.toNat = some r ∧ r.exits[rs.getD 1 0 % 3]? = some n
  lt : n < s.mazesize
  ne : n ≠ s.wumpus.toNat

theorem Stride.congr {s s' : State} {c : Contents} {d n : ℕ} (h : Stride s rs c d n)
    (hr : s'.rmemctx = s.rmemctx) (hm : s'.mazesize = s.mazesize) (hw : s'.wumpus = s.wumpus) :
    Stride s' rs c d n := by
  have hroom : ∀ i, s'.room? i = s.room? i := fun i => by rw [State.room?, hr, State.room?]
  constructor
  · rw [State.contents, hroom, hw]
    exact h.old
  · rw [State.spot, hm]
    exact h.spot
  · rw [hroom, hw]
    exact h.exit
  · rw [hm]
    exact h.lt
  · rw [hw]
    exact h.ne

theorem Stride.unique {c c' : Contents} {d d' n n' : ℕ} (h : Stride s rs c d n) (h' : Stride s rs c' d' n') :
    c = c' ∧ d = d' ∧ n = n' := by
  obtain ⟨r, hr, hn⟩ := h.exit
  obtain ⟨r', hr', hn'⟩ := h'.exit
  rw [hr, Option.some.injEq] at hr'
  rw [← hr', hn] at hn'
  refine ⟨Option.some.inj (h.old.symm.trans h'.old), ?_, Option.some.inj hn'⟩
  rw [h.spot, h'.spot]

theorem wp_moveWumpus (hM : MazeOk s) (hP : PlayersOk s) (hL : ∀ p ∈ s.players, p.location ≠ none)
    (h : ∀ c d n rs' o', Stride s rs c d n →
      Q () ⟨(s.hunted c d n).settled, o' ++ (s.hunted c d n).verdict⟩ rs') : wp moveWumpus Q ⟨s, o⟩ rs := by
  obtain ⟨k, hk, hw⟩ := hM.wumpus
  obtain ⟨r, hr⟩ := hM.rooms k hk
  have hok := (hM.room k r hr).2
  have hsome : ∃ rooms, s.rmemctx = some rooms := by
    cases hs : s.rmemctx with
    | some rooms => exact ⟨rooms, rfl⟩
    | none =>
      rw [State.room?, hs] at hr
      cases hr
  obtain ⟨rooms, hrooms⟩ := hsome
  simp only [moveWumpus, wp_bind, wp_getState, hrooms]
  refine wp_msg fun o => ?_
  rw [hw]
  refine wp_rmemctxAt hr (wp_regenObj hM fun d rs' hrs => ?_)
  have hM1 := hM.put (d % s.mazesize) r.contents
  rw [Int.toNat_natCast]
  refine wp_setContents (hM1.rooms k hk) (wp_randBelow (by rw [hok.three]; decide) fun e rs'' hrs' => ?_)
  have he : e % r.exits.length < r.exits.length := Nat.mod_lt _ (by rw [hok.three]; decide)
  obtain ⟨hn, hne⟩ := hok.exits _ (List.getElem_mem he)
  set n := r.exits[e % r.exits.length] with hndef
  have hget : r.exits[e % r.exits.length]? = some n := List.getElem?_eq_getElem he
  apply wp_deref hget
  obtain ⟨tr, htr⟩ := ((hM1.put k .nothing).rooms n hn)
  have htrid : tr.id = n := ((hM1.put k .nothing).room n tr htr).2.id
  apply wp_roomPtr htr
  rw [wp_update]
  refine wp_setContents ⟨tr, htr⟩ ?_
  have hprowl :
      ({ (s.put (d % s.mazesize) r.contents).put k .nothing with wumpus := tr.id } : State).put n .wumpus =
      s.prowl r.contents (d % s.mazesize) n := by
    rw [State.prowl, hw, Int.toNat_natCast, htrid]
  rw [hprowl, wp_getState]
  have hM' := hM.prowl r.contents (d % s.mazesize) hn
  have hP' := hP.prowl r.contents (d % s.mazesize) n
  have hplayers : (s.prowl r.contents (d % s.mazesize) n).players = [] ++ s.players := rfl
  rw [hplayers]
  refine wp_eatPlayers hM' hP' hplayers hL fun kills o => ?_
  have hlast : ∀ o, wp checkLastPersonAlive Q ⟨s.hunted r.contents (d % s.mazesize) n, o⟩ rs'' := by
    intro o
    apply wp_checkLastPersonAlive (players_feast hP' hplayers).1 (hM'.feast s.players).endable
    refine h r.contents (d % s.mazesize) n rs'' o ⟨?_, ?_, ⟨r, ?_, ?_⟩, hn, ?_⟩
    · rw [hw, Int.toNat_natCast, contents_eq hr]
    · rw [State.spot, hrs]
      rfl
    · rw [hw, Int.toNat_natCast]
      exact hr
    · rw [hrs, hrs', ← hok.three]
      exact hget
    · rw [hw, Int.toNat_natCast]
      exact hne
  exact wp_when (fun _ => wp_msg hlast) fun _ => hlast o

/-! ### Shots -/

/-- The shooter has an arrow less. -/
def State.aimed (s : State) (p : Player) : State :=
  s.updPlayer p.addr fun p => { p with arrows := p.arrows - 1 }

/-- What an arrow does to the player `t`. -/
def State.struck (s : State) (t : Player) (hit : ℕ) : State :=
  if hit < 2 then
    if t.hp ≤ 10 then s.resigned t else s.updPlayer t.addr fun t => { t with hp := t.hp - 10 }
  else s

/-- A wounded wumpus is angrier. -/
def State.wounded (s : State) : State := { s with wumpHp := s.wumpHp - 5, speed := s.speed - 3 }

/-- The timer of the wumpus is replaced. -/
def State.retimed (s : State) : State :=
  let l := s.loop.timerDestroy s.moveTimer
  { s with loop := l.timerAdd .moveWumpus s.speed, moveTimer := some l.next }

/-- `p` can shoot into the room `k`, which is `r`. -/
structure CanShoot (s : State) (p : Player) (id : ℤ) (k : ℕ) (r : Room) : Prop where
  arrows : p.arrows ≠ 0
  adjacent : s.Adjacent p id
  id : id = k
  room : s.room? k = some r

theorem wp_shootAtPlayer (hP : PlayersOk s) {p t : Player} (hp : p ∈ s.players) (ht : t ∈ s.players)
    (hl : p.location ≠ none) {hit : ℕ} (h : ∀ o', Q () ⟨s.struck t hit, o'⟩ rs) :
    wp (shootAtPlayer p.addr hit t.addr) Q ⟨s, o⟩ rs := by
  obtain ⟨i, r, hi, hr⟩ := hP.exists_room hp hl
  unfold State.struck at h
  simp only [shootAtPlayer, wp_bind]
  refine wp_playerPtr (hP.player? hp) (wp_playerPtr (hP.player? ht) ?_)
  rw [wp_getState]
  by_cases hkill : hit < 2 ∧ t.hp ≤ 10
  · rw [if_pos hkill, wp_bind]
    simp only [hkill.1, hkill.2, if_true] at h
    exact wp_msg fun o => wp_resignPlayer hP ht (h o)
  · rw [if_neg hkill, wp_bind]
    apply wp_location hi hr
    by_cases hhit : hit < 2
    · have hhp : ¬ t.hp ≤ 10 := fun hle => hkill ⟨hhit, hle⟩
      have hpos : 0 < t.hp := by omega
      rw [if_pos ⟨hpos, hhit⟩]
      simp only [hhit, hhp, if_true, if_false] at h
      simp only [wp_bind]
      exact wp_notice fun _ => wp_notice fun o => wp_setPlayer (hP.player? ht) (h o)
    · rw [if_neg fun hc => hhit hc.2]
      simp only [hhit, if_false] at h
      rw [wp_bind]
      exact wp_notice fun _ => wp_notice h

/-- What `move_wumpus` needs. -/
structure Running (s : State) : Prop where
  maze : MazeOk s
  players : PlayersOk s
  located : ∀ p ∈ s.players, p.location ≠ none

theorem Running.congr {s s' : State} (h : Running s) (hw : s'.wumpus = s.wumpus)
    (hm : s'.mazesize = s.mazesize) (hp : s'.players = s.players) (hr : s'.rmemctx = s.rmemctx)
    (hf : s'.fresh = s.fresh) : Running s' :=
  ⟨h.maze.congr hm hr hw, h.players.congr hp hr hf, by rw [hp]; exact h.located⟩

/-- A change of a player that keeps who and where it is. -/
theorem Running.updPlayer (h : Running s) (a : ℕ) {f : Player → Player} (ha : ∀ p, (f p).addr = p.addr)
    (hu : ∀ p, (f p).u = p.u) (hl : ∀ p, (f p).location = p.location) : Running (s.updPlayer a f) where
  maze := h.maze.congr rfl rfl rfl
  players := h.players.updPlayer a ha hu hl
  located := fun q hq => by
    obtain ⟨p, hp, rfl⟩ := List.mem_map.mp hq
    split
    · rw [hl]; exact h.located p hp
    · exact h.located p hp

theorem Running.exists_room (h : Running s) {p : Player} (hp : p ∈ s.players) :
    ∃ i r, p.location = some i ∧ s.room? i = some r := h.players.exists_room hp (h.located p hp)

theorem Running.aimed (h : Running s) (p : Player) : Running (s.aimed p) :=
  h.updPlayer p.addr (fun _ => rfl) (fun _ => rfl) fun _ => rfl

theorem Running.resigned (h : Running s) {p : Player} (hp : p ∈ s.players) : Running (s.resigned p) where
  maze := h.maze.resigned p
  players := h.players.resigned hp
  located := fun q hq => h.located q (List.mem_of_mem_filter hq)

theorem Running.put (h : Running s) (i : ℕ) (c : Contents) : Running (s.put i c) :=
  ⟨h.maze.put i c, h.players.put i c, h.located⟩

theorem wp_shootAtWumpus (hR : Running s) {p : Player} (hp : p ∈ s.players) {hit : ℕ}
    (hkill : 0 < s.wumpHp → s.wumpHp ≤ 5 → hit < 2 → ∀ o', Q () ⟨s.ended, o'⟩ rs)
    (hwound : 5 < s.wumpHp → hit < 2 → ∀ c d n rs' o', Stride s rs c d n →
      Q () ⟨(s.wounded.hunted c d n).settled.retimed, o' ++ (s.wounded.hunted c d n).verdict⟩ rs')
    (hmiss : ¬ (0 < s.wumpHp ∧ hit < 2) → ∀ c d n rs' o', Stride s rs c d n →
      Q () ⟨(s.hunted c d n).settled, o' ++ (s.hunted c d n).verdict⟩ rs') :
    wp (shootAtWumpus p.addr hit) Q ⟨s, o⟩ rs := by
  simp only [shootAtWumpus, wp_bind]
  refine wp_playerPtr (hR.players.player? hp) ?_
  rw [wp_getState]
  by_cases h1 : (0 < s.wumpHp ∧ s.wumpHp ≤ 5) ∧ hit < 2
  · rw [if_pos h1]
    simp only [wp_bind]
    refine wp_notice fun _ => wp_msg fun _ => wp_msg fun o => ?_
    exact wp_endGame hR.players hR.maze.endable (hkill h1.1.1 h1.1.2 h1.2 o)
  · rw [if_neg h1]
    by_cases h2 : 5 < s.wumpHp ∧ hit < 2
    · rw [if_pos h2]
      simp only [wp_bind]
      have hW : Running s.wounded := hR.congr rfl rfl rfl rfl rfl
      refine wp_notice fun _ => wp_moveWumpus hW.maze hW.players hW.located ?_
      exact fun c d n rs' o' hst => hwound h2.1 h2.2 c d n rs' o' (hst.congr rfl rfl rfl)
    · rw [if_neg h2, wp_bind]
      refine wp_notice fun _ => wp_moveWumpus hR.maze hR.players hR.located (hmiss ?_)
      omega

theorem CanShoot.of_adjacent (hM : MazeOk s) {p : Player} {id : ℤ} (ha : p.arrows ≠ 0)
    (hadj : s.Adjacent p id) : ∃ k r, CanShoot s p id k r := by
  obtain ⟨i, r₀, hl, hr₀, n, hn, rfl⟩ := hadj
  obtain ⟨r, hr⟩ := hM.linked i r₀ hr₀ n hn
  exact ⟨n, r, ha, ⟨i, r₀, hl, hr₀, n, hn, rfl⟩, rfl, hr⟩

/-- A room next to the player is another one. -/
theorem CanShoot.other (hM : MazeOk s) {p : Player} {id : ℤ} {k : ℕ} {r : Room} (h : CanShoot s p id k r) :
    p.location ≠ some k := by
  obtain ⟨i, r₀, hl, hr₀, n, hn, hid⟩ := h.adjacent
  have hk : n = k := by
    have := h.id
    omega
  rw [hl, Ne, Option.some.injEq]
  have := ((hM.room i r₀ hr₀).2.exits n hn).2
  omega

theorem wp_shootPlayer (hR : Running s) {p : Player} (hp : p ∈ s.players) {id : ℤ}
    (hno : ¬ (p.arrows ≠ 0 ∧ s.Adjacent p id) → ∀ rs' o', Q () ⟨s, o'⟩ rs')
    (hplayer : ∀ k r hit rs' t as o', CanShoot s p id k r → rs = hit :: rs' → r.players = t.addr :: as →
      t ∈ s.players → t.location = some k → Q () ⟨(s.aimed p).struck t (hit % 3), o'⟩ rs')
    (hwumpus : ∀ k r hit rs' o', CanShoot s p id k r → rs = hit :: rs' → r.players = [] →
      r.contents = .wumpus →
      wp (shootAtWumpus p.addr (hit % 3)) Q ⟨s.aimed p, o'⟩ rs')
    (hnothing : ∀ k r rs' o', CanShoot s p id k r → r.players = [] → r.contents ≠ .wumpus →
      Q () ⟨s.aimed p, o'⟩ rs') :
    wp (shootPlayer p.addr id) Q ⟨s, o⟩ rs := by
  obtain ⟨i, r₀, hi, hr₀⟩ := hR.exists_room hp
  have hr₀id := (hR.maze.room i r₀ hr₀).2.id
  simp only [shootPlayer, wp_bind]
  refine wp_randBelow (by decide) fun hit rs' hrs => wp_playerPtr (hR.players.player? hp) ?_
  by_cases ha : p.arrows = 0
  · rw [if_pos ha]
    exact wp_notice (hno (fun hc => hc.1 ha) rs')
  · rw [if_neg ha, wp_bind]
    refine wp_adjacentRoom hR.maze.linked (fun i r hr => (hR.maze.room i r hr).2.id) hi hr₀ fun b hb => ?_
    cases b with
    | false =>
      have hnadj : ¬ s.Adjacent p id := fun hadj => by simpa using hb.mpr hadj
      exact wp_notice (hno (fun hc => hnadj hc.2) rs')
    | true =>
      obtain ⟨k, r, hc⟩ := CanShoot.of_adjacent hR.maze ha (hb.mp rfl)
      have hother := hc.other hR.maze
      simp only [Bool.not_true, Bool.false_eq_true, if_false, wp_bind]
      apply wp_location hi hr₀
      have hne : ¬ (r₀.id : ℤ) = id := by
        rw [hi, Ne, Option.some.injEq] at hother
        have := hc.id
        omega
      rw [if_neg hne, wp_bind, hc.id]
      apply wp_rmemctxAt hc.room
      rw [wp_bind]
      refine wp_setPlayer (hR.players.player? hp) ?_
      have hA : Running (s.aimed p) := hR.aimed p
      cases hps : r.players with
      | nil =>
        by_cases hcw : r.contents = .wumpus
        · rw [if_pos hcw]
          exact hwumpus k r hit rs' o hc hrs hps hcw
        · rw [if_neg hcw]
          exact wp_notice fun o => hnothing k r rs' o hc hps hcw
      | cons a as =>
        obtain ⟨t, ht, rfl, htk⟩ := (hR.players.listed k r hc.room a).mp (by rw [hps]; simp)
        -- the target is not the shooter, so the lost arrow is not its own
        have htp : t.addr ≠ p.addr := by
          intro he
          rw [hR.players.eq_of_addr ht hp he] at htk
          exact hother htk
        have ht' : t ∈ (s.aimed p).players := by
          refine List.mem_map.mpr ⟨t, ht, ?_⟩
          rw [if_neg htp]
        have hp' : { p with arrows := p.arrows - 1 } ∈ (s.aimed p).players := by
          refine List.mem_map.mpr ⟨p, hp, ?_⟩
          rw [if_pos rfl]
        exact wp_shootAtPlayer hA.players hp' ht' (hR.located p hp) fun o =>
          hplayer k r hit rs' t as o hc hrs hps ht htk

/-! ### Moves -/

/-- The room a move to the room `k` ends in. -/
def State.landing (s : State) (k : ℕ) (rs : List ℕ) : ℕ :=
  if s.contents k = some .bats then s.spot rs else k

/-- The bats of the room `k` have flown. -/
def State.swept (s : State) (k : ℕ) (rs : List ℕ) : State :=
  if s.contents k = some .bats then s.flown k (s.spot rs) else s

/-- Who gets to the room `d` is lost. -/
def State.Deadly (s : State) (d : ℕ) : Prop := s.wumpus = d ∨ s.contents d = some .pit

instance (s : State) (d : ℕ) : Decidable (s.Deadly d) := inferInstanceAs (Decidable (_ ∨ _))

/-- The player takes or breaks the arrows of the room `d`, or looks into the
crystal ball, and they reappear in the room `t`. -/
def State.foraged (s : State) (p : Player) (d t : ℕ) : State :=
  if s.contents d = some .arrows then
    let s := if p.arrows = 0 then s.updPlayer p.addr fun p => { p with arrows := p.arrows + 5 } else s
    (s.put d .nothing).put t .arrows
  else if s.contents d = some .crystalball then (s.put d .nothing).put t .crystalball
  else s

theorem Running.foraged (h : Running s) (p : Player) (d t : ℕ) : Running (s.foraged p d t) := by
  unfold State.foraged
  split_ifs
  · exact ((h.updPlayer p.addr (f := fun p => { p with arrows := p.arrows + 5 }) (fun _ => rfl) (fun _ => rfl)
      fun _ => rfl).put d _).put t _
  · exact (h.put d _).put t _
  · exact (h.put d _).put t _
  · exact h

theorem Running.flown (h : Running s) (k d : ℕ) : Running (s.flown k d) := (h.put k _).put d _

theorem Running.swept (h : Running s) (k : ℕ) (rs : List ℕ) : Running (s.swept k rs) := by
  unfold State.swept
  split
  · exact h.flown k _
  · exact h

@[simp] theorem players_swept (k : ℕ) (rs : List ℕ) : (s.swept k rs).players = s.players := by
  unfold State.swept
  split <;> rfl

theorem landing_lt {k : ℕ} (hk : k < s.mazesize) (rs : List ℕ) : s.landing k rs < s.mazesize := by
  unfold State.landing State.spot
  split
  · exact Nat.mod_lt _ (by omega)
  · exact hk

@[simp] theorem mazesize_foraged (p : Player) (d t : ℕ) : (s.foraged p d t).mazesize = s.mazesize := by
  unfold State.foraged
  split_ifs <;> rfl

/-- `findArrows` where there are arrows. -/
theorem wp_findArrows (hR : Running s) {p : Player} (hp : p ∈ s.players) {d : ℕ} (hd : d < s.mazesize)
    (hc : s.contents d = some .arrows)
    (h : ∀ rs' o', Q () ⟨s.foraged p d (s.spot rs), o'⟩ rs') : wp (findArrows p.addr d) Q ⟨s, o⟩ rs := by
  obtain ⟨r, hr⟩ := hR.maze.rooms d hd
  have hrc : r.contents = .arrows := by
    rw [contents_eq hr, Option.some.injEq] at hc
    exact hc
  have hmove : ∀ {s' : State} {o}, Running s' → s'.mazesize = s.mazesize →
      (s'.put d .nothing).put (s.spot rs) .arrows = s.foraged p d (s.spot rs) →
      wp (do setContents d .nothing; regenObj .arrows) Q ⟨s', o⟩ rs := by
    intro s' o hR' hsize heq
    rw [wp_bind]
    refine wp_setContents (hR'.maze.rooms d (by rwa [hsize])) (wp_regenObj (hR'.maze.put d _) ?_)
    intro t rs' hrs
    have hspot : t % (s'.put d .nothing).mazesize = s.spot rs := by
      rw [hrs]
      show t % s'.mazesize = _
      rw [hsize]
      rfl
    rw [hspot, heq]
    exact h rs' o
  unfold State.foraged at hmove
  rw [if_pos hc] at hmove
  simp only [findArrows, wp_bind]
  refine wp_roomPtr hr (wp_when (fun _ => ?_) fun hne => absurd hrc hne)
  rw [wp_bind]
  refine wp_playerPtr (hR.players.player? hp) ?_
  by_cases ha : p.arrows = 0
  · rw [if_pos ha] at hmove ⊢
    rw [wp_bind]
    refine wp_notice fun o => ?_
    rw [wp_bind]
    refine wp_setPlayer (hR.players.player? hp) ?_
    exact hmove (hR.updPlayer p.addr (fun _ => rfl) (fun _ => rfl) fun _ => rfl) rfl rfl
  · rw [if_neg ha] at hmove ⊢
    rw [wp_bind]
    exact wp_notice fun o => hmove hR rfl rfl

/-- Arrows or the crystal ball are dealt with. -/
theorem wp_forage (hR : Running s) {p : Player} (hp : p ∈ s.players) {d : ℕ} (hd : d < s.mazesize)
    (h : ∀ rs' o', Q () ⟨s.foraged p d (s.spot rs), o'⟩ rs') :
    wp (findArrows p.addr d) (fun _ w rs' => wp (findBall p.addr d) Q w rs') ⟨s, o⟩ rs := by
  obtain ⟨r, hr⟩ := hR.maze.rooms d hd
  have hsc := contents_eq hr
  by_cases hc : s.contents d = some .arrows
  · refine wp_findArrows hR hp hd hc fun rs' o => ?_
    -- where the arrows were there is no crystal ball now
    have hR' := hR.foraged p d (s.spot rs)
    have hcd : (s.foraged p d (s.spot rs)).contents d ≠ some .crystalball := by
      unfold State.foraged
      rw [if_pos hc]
      split_ifs <;>
        (simp only [contents_put, contents_updPlayer, hc, Option.map_some, if_true]; split <;> simp)
    obtain ⟨r', hr'⟩ := hR'.maze.rooms d (by rwa [mazesize_foraged])
    simp only [findBall, wp_bind]
    refine wp_roomPtr hr' (wp_when (fun hball => ?_) fun _ => h rs' o)
    rw [contents_eq hr', hball] at hcd
    exact absurd rfl hcd
  · have hrc : r.contents ≠ .arrows := by
      rw [hsc, Option.some.injEq] at hc
      exact hc
    have hforaged : s.foraged p d (s.spot rs) = if s.contents d = some .crystalball then
        (s.put d .nothing).put (s.spot rs) .crystalball else s := by
      unfold State.foraged
      rw [if_neg hc]
    rw [hforaged] at h
    simp only [findArrows, wp_bind]
    refine wp_roomPtr hr (wp_when (fun h' => absurd h' hrc) fun _ => ?_)
    simp only [findBall, wp_bind]
    refine wp_roomPtr hr (wp_when (fun hball => ?_) fun hball => ?_)
    · rw [if_pos (by rw [hsc, hball])] at h
      have hpos : 0 < s.mazesize := by omega
      simp only [wp_bind]
      refine wp_playerPtr (hR.players.player? hp) ?_
      rw [wp_getState]
      refine wp_notice fun _ => wp_notice fun o => wp_setContents ⟨r, hr⟩ ?_
      refine wp_randBelow hpos fun t rs' hrs =>
        wp_setContents ((hR.maze.put d _).rooms _ (Nat.mod_lt _ hpos)) ?_
      have hspot : t % s.mazesize = s.spot rs := by rw [hrs]; rfl
      rw [hspot]
      exact h rs' o
    · rw [if_neg (by rw [hsc, Option.some.injEq]; exact hball)] at h
      exact h rs o

theorem Running.relocated (h : Running s) {p : Player} (hp : p ∈ s.players) {d : ℕ} (hd : d < s.mazesize) :
    Running (s.relocated p d) where
  maze := h.maze.relocated p d
  players := h.players.relocated hp (h.maze.rooms d hd)
  located := fun q hq => by
    rw [players_relocated] at hq
    obtain ⟨q', hq', rfl⟩ := List.mem_map.mp hq
    split
    · simp
    · exact h.located q' hq'

theorem relocated_congr {p q : Player} (ha : q.addr = p.addr) (hl : q.location = p.location) (d : ℕ) :
    s.relocated q d = s.relocated p d := by
  unfold State.relocated
  rw [ha, hl]

theorem mem_foraged {p : Player} (hp : p ∈ s.players) (d t : ℕ) :
    ∃ q ∈ (s.foraged p d t).players, q.addr = p.addr ∧ q.location = p.location := by
  unfold State.foraged
  split_ifs
  · exact ⟨{ p with arrows := p.arrows + 5 }, List.mem_map.mpr ⟨p, hp, if_pos rfl⟩, rfl, rfl⟩
  · exact ⟨p, hp, rfl, rfl⟩
  · exact ⟨p, hp, rfl, rfl⟩
  · exact ⟨p, hp, rfl, rfl⟩

theorem wp_arrive (hR : Running s) {p : Player} (hp : p ∈ s.players) {d : ℕ} (hd : d < s.mazesize)
    (h : ∀ o', Q () ⟨s.relocated p d, o'⟩ rs) : wp (arrive p.addr d) Q ⟨s, o⟩ rs := by
  obtain ⟨i, r₀, hi, hr₀⟩ := hR.exists_room hp
  have hR' := hR.relocated hp hd
  have hp' : { p with location := some d } ∈ (s.relocated p d).players := by
    rw [players_relocated]
    exact List.mem_map.mpr ⟨p, hp, if_pos rfl⟩
  have hd' : ∃ r, (s.relocated p d).room? d = some r :=
    hR'.maze.rooms d (by rwa [(frame_relocated s p d).mazesize])
  simp only [arrive, wp_bind]
  refine wp_playerPtr (hR.players.player? hp) (wp_deref hi ?_)
  refine wp_leaveRoom hr₀ ((hR.players.listed i r₀ hr₀ p.addr).mpr ⟨p, hp, rfl, hi⟩) ?_
  refine wp_setPlayer (hR.players.player? hp) (wp_setRoom ?_ ?_)
  · obtain ⟨r, hr⟩ := hR.maze.rooms d hd
    rw [room?_updPlayer, room?_updRoom, hr]
    exact ⟨_, rfl⟩
  · have hstate : State.relocated s p d =
        (((s.updRoom i fun r => { r with players := r.players.erase p.addr }).updPlayer p.addr
          fun p => { p with location := some d }).updRoom d
          fun r => { r with players := r.players ++ [p.addr] }) := by
      unfold State.relocated
      rw [hi]
    rw [← hstate]
    have hfind : (s.relocated p d).player? p.addr = some { p with location := some d } :=
      hR'.players.player? hp'
    refine wp_lookPlayer hR'.maze.linked hfind rfl hd' fun o => ?_
    obtain ⟨r, hr⟩ := hd'
    apply wp_roomPtr hr
    rw [wp_getState]
    refine wp_when (fun _ => wp_forEach_says (fun n hn o R hRR => ?_) h) fun _ => h o
    obtain ⟨t, ht, rfl, -⟩ := (hR'.players.listed d r hr n).mp hn
    refine wp_when (fun _ => ?_) fun _ => hRR o
    simp only [wp_bind]
    exact wp_playerPtr (hR'.players.player? ht) (wp_notice fun _ => wp_notice hRR)

theorem wp_meetBats {Q : ℕ → World → List ℕ → Prop} (hM : MazeOk s) {p : Player} {k : ℕ}
    (hk : k < s.mazesize) (h : ∀ rs' o', (s.contents k ≠ some .bats → rs' = rs) →
      Q (s.landing k rs) ⟨s.swept k rs, o'⟩ rs') : wp (meetBats p k) Q ⟨s, o⟩ rs := by
  obtain ⟨r, hr⟩ := hM.rooms k hk
  have hsc := contents_eq hr
  unfold State.landing State.swept at h
  simp only [meetBats, wp_bind]
  apply wp_roomPtr hr
  by_cases hb : r.contents = .bats
  · have hpos : 0 < s.mazesize := by omega
    rw [hb] at hsc
    simp only [hsc, if_true, ne_eq, not_true_eq_false, false_implies] at h
    rw [if_pos hb]
    simp only [wp_bind, wp_getState]
    refine wp_randBelow hpos fun t rs' hrs => wp_notice fun _ => wp_msg fun o => ?_
    refine wp_setContents ⟨r, hr⟩ (wp_setContents ((hM.put k _).rooms _ (Nat.mod_lt _ hpos)) ?_)
    have hspot : t % s.mazesize = s.spot rs := by rw [hrs]; rfl
    rw [hspot]
    exact h rs' o trivial
  · have hsc' : s.contents k ≠ some .bats := by
      rw [hsc, Ne, Option.some.injEq]
      exact hb
    rw [if_neg hb]
    simp only [hsc', if_false] at h
    exact h rs o fun _ => rfl

theorem wp_movePlayer (hR : Running s) {p : Player} (hp : p ∈ s.players) {id : ℤ}
    (hno : ¬ s.Adjacent p id → ∀ o', Q () ⟨s, o'⟩ rs)
    (hlost : ∀ k rs' o', id = (k : ℕ) → s.Adjacent p id → k < s.mazesize →
      (s.swept k rs).Deadly (s.landing k rs) →
      Q () ⟨((s.swept k rs).resigned p).settled, o' ++ ((s.swept k rs).resigned p).verdict⟩ rs')
    (hgo : ∀ k rs' o', id = (k : ℕ) → s.Adjacent p id → k < s.mazesize →
      ¬ (s.swept k rs).Deadly (s.landing k rs) →
      Q () ⟨((s.swept k rs).foraged p (s.landing k rs) (s.spot rs)).relocated p (s.landing k rs), o'⟩ rs') :
    wp (movePlayer p.addr id) Q ⟨s, o⟩ rs := by
  obtain ⟨i, r₀, hi, hr₀⟩ := hR.exists_room hp
  simp only [movePlayer, wp_bind]
  refine wp_playerPtr (hR.players.player? hp) ?_
  refine wp_adjacentRoom hR.maze.linked (fun i r hr => (hR.maze.room i r hr).2.id) hi hr₀ fun b hb => ?_
  cases b with
  | false => exact wp_notice (hno fun hadj => by simpa using hb.mpr hadj)
  | true =>
    have hadj := hb.mp rfl
    have hexit := hadj
    obtain ⟨i', r', hl', hr', k, hn, rfl⟩ := hexit
    have hk : k < s.mazesize := ((hR.maze.room i' r' hr').2.exits k hn).1
    obtain ⟨r, hr⟩ := hR.maze.rooms k hk
    specialize hlost k
    specialize hgo k
    simp only [Bool.not_true, Bool.false_eq_true, if_false, wp_bind]
    apply wp_rmemctxAt hr
    rw [Int.toNat_natCast]
    refine wp_meetBats hR.maze hk fun rs' o hrs => ?_
    have hRs := hR.swept k rs
    have hps : p ∈ (s.swept k rs).players := by rwa [players_swept]
    have hsize : (s.swept k rs).mazesize = s.mazesize := by
      unfold State.swept
      split <;> rfl
    have hd : s.landing k rs < (s.swept k rs).mazesize := by
      rw [hsize]
      exact landing_lt hk rs
    generalize hdef : s.landing k rs = d at *
    rw [wp_getState]
    have hresign : ∀ o, (s.swept k rs).Deadly d →
        wp (resignPlayer p.addr) (fun _ w rs => wp checkLastPersonAlive Q w rs) ⟨s.swept k rs, o⟩ rs' := by
      intro o hdeadly
      apply wp_resignPlayer hRs.players hps
      have hRr := hRs.resigned hps
      exact wp_checkLastPersonAlive hRr.players hRr.maze.endable (hlost rs' o rfl hadj hk hdeadly)
    by_cases hw : (s.swept k rs).wumpus = d
    · rw [if_pos hw]
      simp only [wp_bind]
      exact wp_notice fun _ => wp_msg fun o => hresign o (Or.inl hw)
    · rw [if_neg hw, wp_bind]
      obtain ⟨rd, hrd⟩ := hRs.maze.rooms d hd
      have hcd := contents_eq hrd
      apply wp_roomPtr hrd
      by_cases hpit : rd.contents = .pit
      · rw [if_pos hpit]
        simp only [wp_bind]
        exact wp_notice fun _ => wp_msg fun o => hresign o (Or.inr (by rw [hcd, hpit]))
      · rw [if_neg hpit]
        simp only [wp_bind]
        have hsafe : ¬ (s.swept k rs).Deadly d := by
          rintro (h1 | h2)
          · exact hw h1
          · rw [hcd, Option.some.injEq] at h2
            exact hpit h2
        refine wp_forage hRs hps hd fun rs'' o => ?_
        have hspot : (s.swept k rs).foraged p d ((s.swept k rs).spot rs') =
            (s.swept k rs).foraged p d (s.spot rs) := by
          by_cases hbats : s.contents k = some .bats
          · -- bats were put where the player lands, so neither arrows nor ball are there
            have hland : d = s.spot rs := by
              rw [← hdef]
              exact if_pos hbats
            have hc : (s.swept k rs).contents d = some .bats := by
              unfold State.swept State.flown
              rw [if_pos hbats, hland]
              exact contents_put_self _ ((hR.maze.put k _).rooms _ (Nat.mod_lt _ (by omega)))
            unfold State.foraged
            simp only [hc, Option.some.injEq, reduceCtorEq, if_false]
          · rw [hrs hbats, State.spot, State.spot, hsize]
        rw [hspot]
        have hRf := hRs.foraged p d (s.spot rs)
        obtain ⟨q, hq, hqa, hql⟩ := mem_foraged hps d (s.spot rs)
        rw [← hqa]
        refine wp_arrive hRf hq (by rwa [mazesize_foraged]) fun o => ?_
        rw [relocated_congr hqa hql]
        exact hgo rs'' o rfl hadj hk hsafe

end

end Wumpus
end AthemeContrib
