/-
# wumpus: three different ways out

A room is meant to have exits to three different rooms. The check for an exit
that is there already stands inside the loop that is entered only when the
first number drawn is the room's own, so any other first number is taken
unchecked; and inside the loop an exit to a room that is not dug yet is seen
with the id 0, so that its number passes. `Repeats` says that the numbers that
come next do one or the other, and `chosen` which of them is taken.

That the maze is finished at all is another matter: where every residue comes
again and again each of the loops is left (`settles_buildMaze`).

Key definitions: `Repeats`, `chosen`, `FreshRooms`, `ThreeWays`.
Key theorems: `chosen_eq`, `repeats_iff`, `nodup_mazePlan`, `settles_buildMaze`, `build_maze_iff`.
-/
import AthemeContrib.Lib.Stream
import AthemeContrib.Wumpus.Build
import Mathlib.Data.Finset.Card

namespace AthemeContrib
namespace Wumpus

open Prog

variable {size i : ℕ} {exits rs : List ℕ}

/-! ### Repeated exits -/

/-- The loop lets the number `r` pass: it is not the room's own, nor an id that is
seen in the exits. -/
def Passes (size i : ℕ) (exits : List ℕ) (r : ℕ) : Prop := r % size ≠ i ∧ r % size ∉ seenIds i exits

instance : DecidablePred (Passes size i exits) := fun _ => inferInstanceAs (Decidable (_ ∧ _))

/-- The first of the numbers that the loop lets pass. -/
def passed (size i : ℕ) (exits rs : List ℕ) : Option ℕ := rs.find? fun r => Passes size i exits r

/-- With the numbers that come next the room `i`, which has these exits, is given
one of them again. -/
def Repeats (size i : ℕ) (exits : List ℕ) : List ℕ → Prop
  | [] => False
  | r :: rs => if r % size = i then ∃ r' ∈ passed size i exits rs, r' % size ∈ exits else r % size ∈ exits

/-- The room that the numbers give an exit to, and the numbers behind: the first
number counts, or if that is the room's own, the first one that passes. -/
def chosen (size i : ℕ) (exits : List ℕ) : List ℕ → Option (ℕ × List ℕ)
  | [] => none
  | r :: rs =>
    if r % size = i then
      match rs.dropWhile fun r => ¬ Passes size i exits r with
      | [] => none
      | r' :: rs' => some (r' % size, rs')
    else some (r % size, rs)

/-- The numbers behind those for the next `n` exits. -/
def behind (size i : ℕ) : ℕ → List ℕ → List ℕ → Option (List ℕ)
  | 0, _, rs => some rs
  | n + 1, exits, rs => (chosen size i exits rs).bind fun (t, rs') => behind size i n (exits ++ [t]) rs'

/-- No numbers for the next `n` exits of the room `i` repeat one. -/
def FreshExits (size i : ℕ) : ℕ → List ℕ → List ℕ → Prop
  | 0, _, _ => True
  | n + 1, exits, rs => ¬ Repeats size i exits rs ∧
    ∀ t rs', chosen size i exits rs = some (t, rs') → FreshExits size i n (exits ++ [t]) rs'

/-- No numbers for the exits of the rooms repeat one. -/
def FreshRooms (size : ℕ) : List ℕ → List ℕ → Prop
  | [], _ => True
  | i :: is, rs => FreshExits size i 3 [] rs ∧ ∀ rs', behind size i 3 [] rs = some rs' → FreshRooms size is rs'

/-- A number that has been seen is replaced by the room's own. -/
theorem bumped_eq (i : ℕ) : ∀ (ids : List ℕ) (t : ℕ),
    ids.foldl (fun t rm => if rm = t then i else t) t = if t ∈ ids then i else t
  | [], t => by simp
  | rm :: ids, t => by
    rw [List.foldl_cons, bumped_eq i ids]
    by_cases hrm : rm = t
    · simp [hrm]
    · simp [hrm, Ne.symm hrm]

theorem pickExit_of_ne {ids : List ℕ} {t : ℕ} (ht : t ≠ i) (rs : List ℕ) :
    pickExit i size ids t rs = some (t, rs) := by
  cases rs with
  | nil => rw [pickExit, if_neg ht]
  | cons r rs => rw [pickExit, if_neg ht]

/-- In the loop a number passes if it is not the room's own and none that is seen. -/
theorem pickExit_self {ids : List ℕ} (r : ℕ) (rs : List ℕ) : pickExit i size ids i (r :: rs) =
    if r % size ≠ i ∧ r % size ∉ ids then some (r % size, rs) else pickExit i size ids i rs := by
  rw [pickExit, if_pos rfl, bumped_eq]
  by_cases hmem : r % size ∈ ids
  · simp [hmem]
  · rw [if_neg hmem]
    by_cases hi : r % size = i
    · simp [hi]
    · rw [pickExit_of_ne hi, if_pos ⟨hi, hmem⟩]

theorem pickExit_seen (r : ℕ) (rs : List ℕ) : pickExit i size (seenIds i exits) i (r :: rs) =
    if Passes size i exits r then some (r % size, rs) else pickExit i size (seenIds i exits) i rs :=
  pickExit_self r rs

/-- The loop takes the first number that passes. -/
theorem pickExit_dropWhile : ∀ rs : List ℕ, pickExit i size (seenIds i exits) i rs =
    match rs.dropWhile fun r => ¬ Passes size i exits r with
    | [] => none
    | r' :: rs' => some (r' % size, rs')
  | [] => by rw [pickExit, if_pos rfl, List.dropWhile_nil]
  | r :: rs => by
    rw [pickExit_seen]
    by_cases hr : Passes size i exits r
    · rw [if_pos hr, List.dropWhile_cons_of_neg (by simpa using hr)]
    · rw [if_neg hr, List.dropWhile_cons_of_pos (by simpa using hr)]
      exact pickExit_dropWhile rs

/-- **The source draws what is chosen.** -/
theorem chosen_eq (rs : List ℕ) : chosen size i exits rs = nextExit size i exits rs := by
  cases rs with
  | nil => rfl
  | cons r rs =>
    rw [chosen, nextExit]
    by_cases hr : r % size = i
    · rw [if_pos hr, hr, pickExit_dropWhile]
    · rw [if_neg hr, pickExit_of_ne hr]

theorem behind_of_plan : ∀ {n : ℕ} {exits rs ex rs' : List ℕ}, exitPlan size i n exits rs = some (ex, rs') →
    behind size i n exits rs = some rs'
  | 0, exits, rs, ex, rs', h => by
    cases h
    rfl
  | n + 1, exits, rs, ex, rs', h => by
    obtain ⟨t, rs₁, ht, h⟩ := exitPlan_succ.mp h
    rw [behind, chosen_eq, ht]
    exact behind_of_plan h

theorem pickExit_passed {t : ℕ} {rs' : List ℕ} : ∀ {rs : List ℕ},
    pickExit i size (seenIds i exits) i rs = some (t, rs') → ∃ r ∈ passed size i exits rs, r % size = t
  | [], h => by
    rw [pickExit, if_pos rfl] at h
    cases h
  | r :: rs, h => by
    rw [pickExit_seen] at h
    by_cases hr : Passes size i exits r
    · rw [if_pos hr] at h
      cases h
      exact ⟨r, List.find?_cons_of_pos (by simpa using hr), rfl⟩
    · rw [if_neg hr] at h
      obtain ⟨r', hr', ht⟩ := pickExit_passed h
      refine ⟨r', ?_, ht⟩
      rw [passed, List.find?_cons_of_neg (by simpa using hr)]
      exact hr'

/-- The numbers repeat an exit exactly if the exit they give is there already. -/
theorem repeats_iff {t : ℕ} {rs' : List ℕ} (h : nextExit size i exits rs = some (t, rs')) :
    Repeats size i exits rs ↔ t ∈ exits := by
  cases rs with
  | nil => cases h
  | cons r rs =>
    have hpick : pickExit i size (seenIds i exits) (r % size) rs = some (t, rs') := h
    by_cases hr : r % size = i
    · rw [hr] at hpick
      obtain ⟨r', hr', rfl⟩ := pickExit_passed hpick
      rw [Repeats, if_pos hr]
      constructor
      · intro ⟨r₂, hr₂, hmem⟩
        rwa [Option.mem_unique hr' hr₂]
      · exact fun hmem => ⟨r', hr', hmem⟩
    · rw [pickExit_of_ne hr] at hpick
      cases hpick
      rw [Repeats, if_neg hr]

theorem nodup_exitPlan : ∀ {n : ℕ} {exits rs ex rs' : List ℕ}, exitPlan size i n exits rs = some (ex, rs') →
    (ex.Nodup ↔ exits.Nodup ∧ FreshExits size i n exits rs)
  | 0, exits, rs, ex, rs', h => by
    cases h
    simp [FreshExits]
  | n + 1, exits, rs, ex, rs', h => by
    obtain ⟨t, rs₁, ht, h⟩ := exitPlan_succ.mp h
    have hrest : FreshExits size i (n + 1) exits rs ↔ t ∉ exits ∧ FreshExits size i n (exits ++ [t]) rs₁ := by
      rw [FreshExits, repeats_iff ht, chosen_eq, ht]
      simp
    have hsnoc : (exits ++ [t]).Nodup ↔ exits.Nodup ∧ t ∉ exits := by
      rw [← List.concat_eq_append, List.nodup_concat, and_comm]
    rw [nodup_exitPlan h, hrest, hsnoc, and_assoc]

/-- The exits of every room are different exactly if no numbers repeat one. -/
theorem nodup_mazePlan : ∀ {is rs : List ℕ} {plan : List (List ℕ)} {rs' : List ℕ},
    mazePlan size is rs = some (plan, rs') → ((∀ ex ∈ plan, ex.Nodup) ↔ FreshRooms size is rs)
  | [], rs, plan, rs', h => by
    cases h
    simp [FreshRooms]
  | i :: is, rs, plan, rs', h => by
    obtain ⟨ex, rs₁, rest, hex, hrest, rfl⟩ := mazePlan_cons.mp h
    rw [List.forall_mem_cons, nodup_exitPlan hex, nodup_mazePlan hrest, FreshRooms, behind_of_plan hex]
    simp

/-! ### The exits stay -/

/-- The exits of all rooms. -/
def State.tunnels (s : State) : Option (List (List ℕ)) := s.rmemctx.map (·.map (·.exits))

def World.tunnels (w : World) : Option (List (List ℕ)) := w.st.tunnels

theorem keeps_roomPtr (i : ℕ) : Keeps World.tunnels (roomPtr i) :=
  keeps_bind (keeps_bind keeps_get fun _ => keeps_pure _) fun _ => keeps_deref _

theorem tunnels_put (s : State) (i : ℕ) (c : Contents) : (s.put i c).tunnels = s.tunnels := by
  cases hs : s.rmemctx with
  | none => simp [State.tunnels, State.put, State.updRoom, hs]
  | some rooms =>
    simp only [State.tunnels, State.put, State.updRoom, hs, Option.map_some, Option.some.injEq]
    apply List.ext_getElem?
    intro j
    simp only [List.getElem?_map, List.getElem?_modify]
    cases rooms[j]? with
    | none => rfl
    | some r =>
      by_cases hij : i = j
      · simp [hij]
      · simp [hij]

theorem keeps_update {f : State → State} (hf : ∀ s, (f s).tunnels = s.tunnels) :
    Keeps World.tunnels (update f) :=
  keeps_modify fun w => hf w.st

theorem keeps_setContents (i : ℕ) (c : Contents) : Keeps World.tunnels (setContents i c) :=
  keeps_bind (keeps_roomPtr i) fun _ => keeps_update fun s => tunnels_put s i c

theorem keeps_populate (m : ℕ) (c : Contents) : Keeps World.tunnels (populate size m c) :=
  keeps_forEach (fun j => keeps_bind keeps_rand fun _ => keeps_when (keeps_setContents j c)) _

/-- Filling the maze leaves its exits alone. -/
theorem keeps_fillMaze : Keeps World.tunnels (fillMaze size) := by
  apply keeps_bind (keeps_randBelow size)
  intro d
  have hwumpus : Keeps World.tunnels (update fun s => { s with wumpus := d }) := keeps_update fun _ => rfl
  apply keeps_bind hwumpus
  intro _
  apply keeps_bind (keeps_setContents d .wumpus)
  intro _
  apply keeps_bind (keeps_populate _ _)
  intro _
  apply keeps_bind (keeps_forEach (fun _ => keeps_populate _ _) _)
  intro _
  apply keeps_bind (keeps_forEach (fun _ => keeps_populate _ _) _)
  intro _
  exact keeps_bind (keeps_randBelow size) fun d => keeps_setContents d .crystalball

theorem keeps_checkMaze : ∀ js : List ℕ, Keeps World.tunnels (checkMaze js)
  | [] => keeps_pure true
  | j :: js => by
    apply keeps_bind (keeps_roomPtr j)
    intro r
    split
    · exact keeps_pure false
    · exact keeps_checkMaze js

/-- Every room has three exits, to three different rooms of the maze other than
itself. -/
structure ThreeWays (size : ℕ) (s : State) : Prop where
  rooms : ∃ rooms, s.rmemctx = some rooms ∧ rooms.length = size
  three : ∀ i r, s.room? i = some r → r.exits.length = 3
  apart : ∀ i r, s.room? i = some r → r.exits.Nodup
  exits : ∀ i r, s.room? i = some r → ∀ x ∈ r.exits, x < size ∧ x ≠ i

/-- A maze that has been built has three exits in every room, and they are
different exactly if no numbers repeat one. -/
theorem threeWays_iff (hsize : 10 ≤ size) {w w' : World} {rs' : List ℕ} {b : Bool}
    (h : buildMaze size w rs = .done b w' rs') :
    b = true ∧ ThreeWays size w'.st ↔ FreshRooms size (List.range size) rs := by
  have hnot : ¬ size < 10 := by omega
  have hbuilt : wp (buildMaze size) (fun b w' _ => b = true ∧ ∃ rooms, w'.st.rmemctx = some rooms ∧
      Rooms size rooms) w rs :=
    wp_buildMaze (fun hlt => absurd hlt hnot) fun _ _ rooms _ _ _ _ _ hr _ => ⟨rfl, rooms, rfl, hr⟩
  obtain ⟨hb, rooms, hrooms, hok⟩ := wp_done hbuilt h
  -- the exits are those that were dug
  have hplan : ∃ plan rest, mazePlan size (List.range size) rs = some (plan, rest) ∧
      rooms.map (·.exits) = plan := by
    rw [buildMaze, if_neg hnot] at h
    obtain ⟨_, w₁, rs₁, hdig, h⟩ := bind_eq_done.mp h
    obtain ⟨_, w₂, rs₂, hfill, hcheck⟩ := bind_eq_done.mp h
    have hdug : wp (digMaze size) (fun _ w₁ rs₁ => ∃ plan,
        mazePlan size (List.range size) rs = some (plan, rs₁) ∧ w₁.tunnels = some plan) w rs :=
      wp_digMaze_plan fun rooms plan rs₁ hplan _ hexits => ⟨plan, hplan, congrArg some hexits⟩
    obtain ⟨plan, hplan, hw₁⟩ := wp_done hdug hdig
    have hw' : w'.tunnels = some plan := by
      rw [keeps_checkMaze _ _ _ _ _ _ hcheck, keeps_fillMaze _ _ _ _ _ hfill, hw₁]
    refine ⟨plan, rs₁, hplan, ?_⟩
    rw [World.tunnels, State.tunnels, hrooms, Option.map_some, Option.some.injEq] at hw'
    exact hw'
  obtain ⟨plan, rest, hplan, hexits⟩ := hplan
  have hroom : ∀ j, w'.st.room? j = rooms[j]? := fun j => by rw [State.room?, hrooms, Option.bind_some]
  rw [← nodup_mazePlan hplan, ← hexits, List.forall_mem_map, and_iff_right hb]
  constructor
  · intro h3 r hr
    obtain ⟨j, hj⟩ := List.mem_iff_getElem?.mp hr
    exact h3.apart j r ((hroom j).trans hj)
  · intro hnd
    refine ⟨⟨rooms, hrooms, hok.length⟩, ?_, ?_, ?_⟩
    · exact fun j r hj => (hok.room j r ((hroom j).symm.trans hj)).1.three
    · exact fun j r hj => hnd r (List.mem_of_getElem? ((hroom j).symm.trans hj))
    · exact fun j r hj => (hok.room j r ((hroom j).symm.trans hj)).1.exits

/-! ### The maze is finished -/

section
variable {g : ℕ → ℕ} {w : World} {n : ℕ}

/-- Besides the room itself and two exits there is another one. -/
theorem exists_free (hsize : 10 ≤ size) {ids : List ℕ} (hlen : ids.length ≤ 2) (i : ℕ) :
    ∃ k, k < size ∧ k ≠ i ∧ k ∉ ids := by
  have hcard : (i :: ids).toFinset.card < (Finset.range size).card := by
    calc (i :: ids).toFinset.card ≤ (i :: ids).length := List.toFinset_card_le _
      _ < size := by rw [List.length_cons]; omega
      _ = (Finset.range size).card := (Finset.card_range size).symm
  obtain ⟨k, hk, hfree⟩ := Finset.exists_mem_notMem_of_card_lt_card hcard
  rw [List.mem_toFinset, List.mem_cons, not_or] at hfree
  exact ⟨k, Finset.mem_range.mp hk, hfree.1, hfree.2⟩

/-- The loop is left when a number comes that passes, `d` numbers ahead at most. -/
theorem pickExit_stretch {ids : List ℕ} : ∀ {d n t : ℕ}, g (n + d) % size ≠ i → g (n + d) % size ∉ ids →
    ∃ k t', n ≤ k ∧ ∀ rest, pickExit i size ids t (stretch g n k ++ rest) = some (t', rest) := by
  intro d
  induction d with
  | zero =>
    intro n t hi hids
    by_cases ht : t = i
    · refine ⟨n + 1, g n % size, Nat.le_succ n, fun rest => ?_⟩
      rw [stretch_cons (Nat.lt_succ_self n), stretch_self, List.cons_append, ht, pickExit_self,
        if_pos ⟨hi, hids⟩]
      rfl
    · exact ⟨n, t, Nat.le_refl n, fun rest => by rw [pickExit_of_ne ht, stretch_self, List.nil_append]⟩
  | succ d ih =>
    intro n t hi hids
    by_cases ht : t = i
    · have hshift : n + (d + 1) = n + 1 + d := by omega
      rw [hshift] at hi hids
      obtain ⟨k, t', hk, hrun⟩ :=
        ih (t := ids.foldl (fun t rm => if rm = t then i else t) (g n % size)) hi hids
      refine ⟨k, t', by omega, fun rest => ?_⟩
      rw [stretch_cons (by omega : n < k), List.cons_append, ht, pickExit, if_pos rfl]
      exact hrun rest
    · exact ⟨n, t, Nat.le_refl n, fun rest => by rw [pickExit_of_ne ht, stretch_self, List.nil_append]⟩

theorem settles_pickLoop (hg : Recurs g size) (hsize : 10 ≤ size) {ids : List ℕ} (hlen : ids.length ≤ 2)
    (t : ℕ) : Settles g (pickLoop i size ids t) w n := by
  obtain ⟨r, hr, hi, hids⟩ := exists_free hsize hlen i
  obtain ⟨k, hk, hgk⟩ := hg r hr n
  obtain ⟨d, rfl⟩ := Nat.exists_eq_add_of_le hk
  rw [← hgk] at hi hids
  obtain ⟨l, t', hl, hrun⟩ := pickExit_stretch (t := t) hi hids
  refine ⟨l, hl, .inr ⟨t', w, fun rest => ?_⟩⟩
  rw [pickLoop, hrun]

theorem settles_getState : Settles g getState w n := settles_of_done fun _ => rfl

theorem settles_update (f : State → State) : Settles g (update f) w n := settles_of_done fun _ => rfl

theorem settles_roomPtr (j : ℕ) : Settles g (roomPtr j) w n :=
  settles_getState.bind fun _ _ _ _ => settles_deref _

theorem settles_setRoom (j : ℕ) (f : Room → Room) : Settles g (setRoom j f) w n :=
  (settles_roomPtr j).bind fun _ _ _ _ => settles_update _

theorem settles_setContents (j : ℕ) (c : Contents) : Settles g (setContents j c) w n := settles_setRoom j _

theorem settles_idsOf : ∀ {ns : List ℕ} {w : World} {n : ℕ}, Settles g (idsOf ns) w n
  | [], _, _ => settles_pure []
  | _ :: _, _, _ => (settles_roomPtr _).bind fun _ _ _ _ => settles_idsOf.bind fun _ _ _ _ => settles_pure _

theorem length_idsOf : ∀ {ns : List ℕ} {w w' : World} {rs rs' ids : List ℕ},
    idsOf ns w rs = .done ids w' rs' → ids.length = ns.length
  | [], w, w', rs, rs', ids, h => by
    cases h
    rfl
  | m :: ns, w, w', rs, rs', ids, h => by
    obtain ⟨r, w₁, rs₁, -, h⟩ := bind_eq_done.mp h
    obtain ⟨rest, w₂, rs₂, hrest, h⟩ := bind_eq_done.mp h
    cases h
    rw [List.length_cons, List.length_cons, length_idsOf hrest]

/-- While a room has not three exits, its loop sees two at most. -/
theorem settles_addExit (hg : Recurs g size) (hsize : 10 ≤ size) : Settles g (addExit size i) w n := by
  refine (settles_roomPtr i).bind fun r w₁ k _ => settles_when fun hlt => ?_
  refine settles_idsOf.bind fun ids w₂ l hids => ?_
  obtain ⟨rs, rs', hids⟩ := hids
  have hlen : ids.length ≤ 2 := by
    rw [length_idsOf hids]
    omega
  have hdraw : Settles g (drawExit r.id size ids) w₂ l :=
    (settles_randBelow size).bind fun t _ _ _ => settles_pickLoop hg hsize hlen t
  exact hdraw.bind fun t _ _ _ => settles_setRoom i _

theorem settles_digMaze (hg : Recurs g size) (hsize : 10 ≤ size) : Settles g (digMaze size) w n := by
  refine (settles_update _).bind fun _ w₁ k _ => settles_forEach (fun j w n => ?_) _ _ _
  refine (settles_setRoom j _).bind fun _ w₂ l _ => settles_forEach (fun _ w n => ?_) _ _ _
  exact settles_addExit hg hsize

theorem settles_populate (m : ℕ) (c : Contents) : Settles g (populate size m c) w n :=
  settles_forEach
    (fun j _ _ => settles_rand.bind fun _ _ _ _ => settles_when fun _ => settles_setContents j c) _ _ _

theorem settles_fillMaze : Settles g (fillMaze size) w n := by
  refine (settles_randBelow size).bind fun d _ _ _ => ?_
  refine (settles_update _).bind fun _ _ _ _ => ?_
  refine (settles_setContents d _).bind fun _ _ _ _ => ?_
  refine (settles_populate _ _).bind fun _ _ _ _ => ?_
  refine (settles_forEach (fun _ _ _ => settles_populate _ _) _ _ _).bind fun _ _ _ _ => ?_
  refine (settles_forEach (fun _ _ _ => settles_populate _ _) _ _ _).bind fun _ _ _ _ => ?_
  exact (settles_randBelow size).bind fun d _ _ _ => settles_setContents d _

theorem settles_checkMaze : ∀ {js : List ℕ} {w : World} {n : ℕ}, Settles g (checkMaze js) w n
  | [], _, _ => settles_pure true
  | j :: js, w, n => by
    refine (settles_roomPtr j).bind fun r _ _ _ => ?_
    split
    · exact settles_pure false
    · exact settles_checkMaze

/-- **Where every residue comes again and again, building the maze comes to an
end.** -/
theorem settles_buildMaze (hg : Recurs g size) (hsize : 10 ≤ size) : Settles g (buildMaze size) w n := by
  rw [buildMaze, if_neg (by omega)]
  refine (settles_digMaze hg hsize).bind fun _ _ _ _ => ?_
  exact settles_fillMaze.bind fun _ _ _ _ => settles_checkMaze

end

/-- **A maze that is built has three different ways out of every room exactly if
the numbers drawn repeat no exit; and if they take every residue again and
again, it is built.** -/
theorem build_maze_iff (hsize : 10 ≤ size) (w : World) :
    (∀ rs b w' rs', buildMaze size w rs = .done b w' rs' →
      (b = true ∧ ThreeWays size w'.st ↔ FreshRooms size (List.range size) rs)) ∧
    ∀ g, Recurs g size → ∃ k b w' rs', buildMaze size w ((List.range k).map g) = .done b w' rs' := by
  refine ⟨fun rs b w' rs' h => threeWays_iff hsize h, fun g hg => ?_⟩
  have hnot : ¬ size < 10 := by omega
  have hwp : ∀ rs, wp (buildMaze size) (fun _ _ _ => True) w rs := fun rs =>
    wp_buildMaze (fun hlt => absurd hlt hnot) fun _ _ _ _ _ _ _ _ _ _ => trivial
  exact (settles_buildMaze hg hsize).ends fun rs => wp_not_fault (hwp rs)

/-- The numbers of a maze of ten rooms: `ways i` for the exits of the room `i`,
then the wumpus in the room 0, nothing else but the crystal ball in the room 5. -/
def layout (ways : ℕ → List ℕ) : List ℕ := (List.range 10).flatMap ways ++ 0 :: (List.replicate 60 1 ++ [5])

/-- The exits of the maze that is built first. -/
def builtTunnels (size : ℕ) (rs : List ℕ) : Option (List (List ℕ)) :=
  match buildMaze size init rs with
  | .done _ w _ => w.tunnels
  | .fault => none
  | .starved => none

theorem builtTunnels_eq_some {plan : List (List ℕ)} (h : builtTunnels size rs = some plan) :
    ∃ b w rs', buildMaze size init rs = .done b w rs' ∧ w.tunnels = some plan := by
  unfold builtTunnels at h
  cases hrun : buildMaze size init rs with
  | done b w rs' =>
    rw [hrun] at h
    exact ⟨b, w, rs', rfl, h⟩
  | fault =>
    rw [hrun] at h
    cases h
  | starved =>
    rw [hrun] at h
    cases h

theorem recurs_id : Recurs id 10 := fun r hr n => ⟨10 * n + r, by omega, by rw [id_eq]; omega⟩

theorem build_maze_apart : (∃ b w rs',
    buildMaze 10 init (layout fun i => [i + 1, i + 2, i + 3]) = .done b w rs' ∧
    (b = true ∧ ThreeWays 10 w.st ↔ FreshRooms 10 (List.range 10) (layout fun i => [i + 1, i + 2, i + 3]))) ∧
    ∃ k b w rs', buildMaze 10 init ((List.range k).map id) = .done b w rs' := by
  have hbuilt : builtTunnels 10 (layout fun i => [i + 1, i + 2, i + 3]) =
      some ((List.range 10).map fun i => [(i + 1) % 10, (i + 2) % 10, (i + 3) % 10]) := by decide +kernel
  obtain ⟨b, w, rs', hrun, -⟩ := builtTunnels_eq_some hbuilt
  exact ⟨⟨b, w, rs', hrun, (build_maze_iff (by omega) init).1 _ b w rs' hrun⟩,
    (build_maze_iff (by omega) init).2 id recurs_id⟩

/-- Every room draws its next neighbour twice, and gets two exits to it. -/
theorem build_maze_repeats : ¬ ∀ size, 10 ≤ size → ∀ w rs b w' rs', buildMaze size w rs = .done b w' rs' →
    b = true ∧ ThreeWays size w'.st := by
  intro h
  have hbuilt : builtTunnels 10 (layout fun i => [i + 1, i + 1, i + 2]) =
      some ((List.range 10).map fun i => [(i + 1) % 10, (i + 1) % 10, (i + 2) % 10]) := by decide +kernel
  obtain ⟨b, w, rs', hrun, htunnels⟩ := builtTunnels_eq_some hbuilt
  have h3 := (h 10 (by omega) init _ b w rs' hrun).2
  obtain ⟨rooms, hrooms, hlen⟩ := h3.rooms
  obtain ⟨r, hr⟩ := exists_getElem? (by omega : 0 < rooms.length)
  have hexits : r.exits = [1, 1, 2] := by
    rw [World.tunnels, State.tunnels, hrooms, Option.map_some, Option.some.injEq] at htunnels
    have h0 := congrArg (·[0]?) htunnels
    simpa [hr] using h0
  have hnodup := h3.apart 0 r (by rw [State.room?, hrooms]; exact hr)
  rw [hexits] at hnodup
  exact absurd hnodup (by decide)

end Wumpus
end AthemeContrib
