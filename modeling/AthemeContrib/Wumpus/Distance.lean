/-
# wumpus: how far the wumpus is

`distance_to_wumpus` looks at the exits one after another, and behind each of
them at once: if the wumpus is one room away, but an exit before that one
leads to a room that also has an exit to the wumpus, the function returns
before it gets there (`Shadowed`), and says 2.

Key definitions: `State.exitsOf`, `State.distance`, `Shadowed`.
Key theorems: `distanceToWumpus_eq`, `distance_to_wumpus_iff`.
-/
import AthemeContrib.Wumpus.Rules

namespace AthemeContrib
namespace Wumpus

open Prog

variable {s : State} {o : List Output} {rs : List ℕ}

/-- The rooms the exits of the room `i` lead to. -/
def State.exitsOf (s : State) (i : ℕ) : List ℕ := ((s.room? i).map (·.exits)).getD []

/-- How far the room `k` is from the room `i`: one exit, two exits, or 0 if it
is farther. -/
def State.distance (s : State) (i k : ℕ) : ℕ :=
  if k ∈ s.exitsOf i then 1
  else if ∃ n ∈ s.exitsOf i, k ∈ s.exitsOf n then 2
  else 0

/-- The wumpus is in the room `k` and in no other. -/
def Lurks (s : State) (k : ℕ) : Prop :=
  (∃ r, s.room? k = some r) ∧ ∀ i r, s.room? i = some r → (r.contents = .wumpus ↔ i = k)

/-- An exit of the room `i` leads to the room `k`, but so does an exit of a room
that comes earlier among the exits of `i`. -/
def Shadowed (s : State) (i k : ℕ) : Prop :=
  k ∈ s.exitsOf i ∧ ∃ n ∈ (s.exitsOf i).takeWhile (· ≠ k), k ∈ s.exitsOf n

instance (s : State) (i k : ℕ) : Decidable (Shadowed s i k) := inferInstanceAs (Decidable (_ ∧ _))

theorem exitsOf_eq {i : ℕ} {r : Room} (hr : s.room? i = some r) : s.exitsOf i = r.exits := by
  rw [State.exitsOf, hr]
  rfl

theorem Linked.exitsOf (hs : Linked s) {i n : ℕ} (hn : n ∈ s.exitsOf i) : ∃ r, s.room? n = some r := by
  cases hi : s.room? i with
  | none =>
    rw [State.exitsOf, hi] at hn
    cases hn
  | some r =>
    rw [exitsOf_eq hi] at hn
    exact hs i r hi n hn

/-! ### What the loops return -/

theorem roomPtr_eq {i : ℕ} {r : Room} (hr : s.room? i = some r) :
    roomPtr i ⟨s, o⟩ rs = .done r ⟨s, o⟩ rs := by
  have hget : getState ⟨s, o⟩ rs = .done s ⟨s, o⟩ rs := rfl
  rw [roomPtr, bind_of_done hget, hr]
  rfl

theorem anyWumpus_eq {k : ℕ} (hk : Lurks s k) : ∀ {ns : List ℕ}, (∀ n ∈ ns, ∃ r, s.room? n = some r) →
    anyWumpus ns ⟨s, o⟩ rs = .done (decide (k ∈ ns)) ⟨s, o⟩ rs
  | [], _ => rfl
  | n :: ns, hns => by
    obtain ⟨r, hr⟩ := hns n (by simp)
    rw [anyWumpus, bind_of_done (roomPtr_eq hr)]
    by_cases hn : n = k
    · rw [if_pos ((hk.2 n r hr).mpr hn), hn, decide_eq_true List.mem_cons_self]
      rfl
    · rw [if_neg fun h => hn ((hk.2 n r hr).mp h), anyWumpus_eq hk fun m hm => hns m (by simp [hm])]
      simp [Ne.symm hn]

/-- What the outer loop returns: the first exit that says something decides. -/
def nearest (s : State) (k : ℕ) : List ℕ → ℕ
  | [] => 0
  | n :: ns => if n = k then 1 else if k ∈ s.exitsOf n then 2 else nearest s k ns

theorem distanceFrom_eq (hs : Linked s) {k : ℕ} (hk : Lurks s k) : ∀ {ns : List ℕ},
    (∀ n ∈ ns, ∃ r, s.room? n = some r) → distanceFrom ns ⟨s, o⟩ rs = .done (nearest s k ns) ⟨s, o⟩ rs
  | [], _ => rfl
  | n :: ns, hns => by
    obtain ⟨r, hr⟩ := hns n (by simp)
    rw [distanceFrom, bind_of_done (roomPtr_eq hr), nearest, exitsOf_eq hr]
    by_cases hn : n = k
    · rw [if_pos ((hk.2 n r hr).mpr hn), if_pos hn]
      rfl
    · rw [if_neg fun h => hn ((hk.2 n r hr).mp h), if_neg hn, bind_of_done (anyWumpus_eq hk (hs n r hr))]
      by_cases hx : k ∈ r.exits
      · rw [if_pos (decide_eq_true hx), if_pos hx]
        rfl
      · rw [if_neg (by simpa using hx), if_neg hx]
        exact distanceFrom_eq hs hk fun m hm => hns m (by simp [hm])

/-- `distance_to_wumpus` returns what the first telling exit says. -/
theorem distanceToWumpus_eq (hs : Linked s) {k : ℕ} (hk : Lurks s k) {p : Player} {i : ℕ}
    (hp : p.location = some i) (hi : ∃ r, s.room? i = some r) :
    distanceToWumpus p ⟨s, o⟩ rs = .done (nearest s k (s.exitsOf i)) ⟨s, o⟩ rs := by
  obtain ⟨r, hr⟩ := hi
  have hloc : location p ⟨s, o⟩ rs = .done r ⟨s, o⟩ rs := by
    rw [location, bind_of_done (m := deref p.location) (by rw [hp]; rfl)]
    exact roomPtr_eq hr
  rw [distanceToWumpus, bind_of_done hloc, exitsOf_eq hr]
  exact distanceFrom_eq hs hk (hs i r hr)

/-! ### Against the distance -/

/-- Without the wumpus among the exits the order does not matter. -/
theorem nearest_of_not_mem {k : ℕ} : ∀ {ns : List ℕ}, k ∉ ns →
    nearest s k ns = if ∃ n ∈ ns, k ∈ s.exitsOf n then 2 else 0
  | [], _ => by simp [nearest]
  | n :: ns, hk => by
    obtain ⟨hn, hns⟩ := not_or.mp (List.mem_cons.not.mp hk)
    rw [nearest, if_neg (Ne.symm hn), nearest_of_not_mem hns]
    by_cases hx : k ∈ s.exitsOf n
    · rw [if_pos hx, if_pos ⟨n, by simp, hx⟩]
    · simp [hx]

/-- With the wumpus among the exits it is those before it that matter. -/
theorem nearest_of_mem {k : ℕ} : ∀ {ns : List ℕ}, k ∈ ns →
    nearest s k ns = if ∃ n ∈ ns.takeWhile (· ≠ k), k ∈ s.exitsOf n then 2 else 1
  | n :: ns, hk => by
    rw [nearest]
    by_cases hn : n = k
    · simp [hn]
    · have hns : k ∈ ns := (List.mem_cons.mp hk).resolve_left (Ne.symm hn)
      rw [if_neg hn, nearest_of_mem hns, List.takeWhile_cons_of_pos (by simpa using hn)]
      by_cases hx : k ∈ s.exitsOf n
      · rw [if_pos hx, if_pos ⟨n, by simp, hx⟩]
      · simp [hx]

theorem nearest_exits (s : State) (i k : ℕ) :
    nearest s k (s.exitsOf i) = if Shadowed s i k then 2 else s.distance i k := by
  unfold Shadowed State.distance
  by_cases hk : k ∈ s.exitsOf i
  · rw [nearest_of_mem hk, if_pos hk]
    simp [hk]
  · rw [nearest_of_not_mem hk, if_neg hk]
    simp [hk]

theorem Shadowed.distance {i k : ℕ} (h : Shadowed s i k) : s.distance i k = 1 := if_pos h.1

/-- **The number returned is the distance exactly if no exit before the one to
the wumpus leads to a room with an exit to it.** -/
theorem distance_to_wumpus_iff (hs : Linked s) {k : ℕ} (hk : Lurks s k) {p : Player} {i : ℕ}
    (hp : p.location = some i) (hi : ∃ r, s.room? i = some r) (o : List Output) (rs : List ℕ) :
    distanceToWumpus p ⟨s, o⟩ rs = .done (s.distance i k) ⟨s, o⟩ rs ↔ ¬ Shadowed s i k := by
  rw [distanceToWumpus_eq hs hk hp hi, nearest_exits]
  by_cases h : Shadowed s i k
  · rw [if_pos h, h.distance]
    simp [h]
  · simp [h]

/-- Ten rooms in a ring, each with exits to the next three, and the wumpus in
the room 2. -/
def ringOfTen : State :=
  { init.st with
    mazesize := 10
    rmemctx := some ((List.range 10).map fun i =>
      ⟨i, [(i + 1) % 10, (i + 2) % 10, (i + 3) % 10], if i = 2 then .wumpus else .nothing, []⟩) }

theorem room?_ringOfTen {i : ℕ} {r : Room} : ringOfTen.room? i = some r ↔ i < 10 ∧
    r = ⟨i, [(i + 1) % 10, (i + 2) % 10, (i + 3) % 10], if i = 2 then .wumpus else .nothing, []⟩ := by
  rw [State.room?, ringOfTen, Option.bind_some, List.getElem?_map]
  by_cases hi : i < 10
  · rw [List.getElem?_range hi, Option.map_some, Option.some.injEq, and_iff_right hi, eq_comm]
  · rw [List.getElem?_eq_none (by simpa using hi)]
    simp [hi]

theorem linked_ringOfTen : Linked ringOfTen := by
  intro i r hr n hn
  obtain ⟨-, rfl⟩ := room?_ringOfTen.mp hr
  have hlt : n < 10 := by
    simp only [List.mem_cons, List.not_mem_nil, or_false] at hn
    omega
  exact ⟨_, room?_ringOfTen.mpr ⟨hlt, rfl⟩⟩

theorem lurks_ringOfTen : Lurks ringOfTen 2 := by
  apply And.intro ⟨_, room?_ringOfTen.mpr ⟨by omega, rfl⟩⟩
  intro i r hr
  obtain ⟨-, rfl⟩ := room?_ringOfTen.mp hr
  by_cases hi : i = 2
  · simp [hi]
  · simp [hi]

/-- A player in the room 0 of the ring. -/
def scout : Player := ⟨0, 1, some 0, 10, 30, false⟩

theorem distance_to_wumpus_scout : distanceToWumpus scout ⟨ringOfTen, []⟩ [] =
    .done (ringOfTen.distance 0 2) ⟨ringOfTen, []⟩ [] ↔ ¬ Shadowed ringOfTen 0 2 :=
  distance_to_wumpus_iff linked_ringOfTen lurks_ringOfTen rfl ⟨_, room?_ringOfTen.mpr ⟨by omega, rfl⟩⟩ [] []

/-- The wumpus is one room away, and the function says two. -/
theorem distance_to_wumpus_shadowed : ¬ ∀ (s : State) (k : ℕ) (p : Player) (i : ℕ), Linked s → Lurks s k →
    p.location = some i → (∃ r, s.room? i = some r) → ∀ o rs,
      distanceToWumpus p ⟨s, o⟩ rs = .done (s.distance i k) ⟨s, o⟩ rs := by
  intro h
  have hd := h ringOfTen 2 scout 0 linked_ringOfTen lurks_ringOfTen rfl
    ⟨_, room?_ringOfTen.mpr ⟨by omega, rfl⟩⟩ [] []
  have htwo : distanceToWumpus scout ⟨ringOfTen, []⟩ [] = .done 2 ⟨ringOfTen, []⟩ [] := rfl
  rw [htwo] at hd
  injection hd with hd
  exact absurd hd (by decide)

end Wumpus
end AthemeContrib
