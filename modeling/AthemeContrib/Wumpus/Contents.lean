/-
# wumpus: one wumpus

The game keeps the wumpus twice: as a number (`wumpus.wumpus`, which `MOVE`
asks) and as the contents of a room (which `SHOOT`, `LOOK` and the distance
ask). `OneWumpus` says that while the game is on the two agree.

They agree at first if nothing was put on top of the wumpus when the maze was
filled (`spared`). Afterwards three things part them: bats, arrows or the
crystal ball that reappear in the wumpus' room, and the wumpus itself when it
moves, since what was in its room, which is the wumpus, reappears somewhere
(`Doubles`).

Key definitions: `OneWumpus`, `Covers`, `Doubles`, `Parts`.
Key theorems: `Alone.hunted_iff`, `Turn.oneWumpus_iff`, `one_wumpus_iff`.
-/
import AthemeContrib.Wumpus.Represented

namespace AthemeContrib
namespace Wumpus

variable {s : State} {rs : List ℕ}

/-- The room of the wumpus is the one that contains it. -/
def Alone (s : State) : Prop := ∀ i c, s.contents i = some c → (c = .wumpus ↔ s.wumpus = i)

/-- While the game is on there is one wumpus. -/
def OneWumpus (s : State) : Prop := s.running = true → Alone s

theorem oneWumpus_of_off (h : s.running = false) : OneWumpus s :=
  fun hr => absurd (h.symm.trans hr) (by decide)

theorem oneWumpus_of_on (h : s.running = true) : OneWumpus s ↔ Alone s := forall_prop_of_true h

theorem Alone.congr {s' : State} (h : Alone s) (hc : ∀ i, s'.contents i = s.contents i)
    (hw : s'.wumpus = s.wumpus) : Alone s' := by
  intro i c hi
  rw [hc] at hi
  rw [hw]
  exact h i c hi

/-! ### What leaves the contents alone -/

theorem contents_resigned (s : State) (p : Player) (i : ℕ) : (s.resigned p).contents i = s.contents i := by
  rw [State.contents, room?_resigned, Option.map_map]
  refine Option.map_congr fun r _ => ?_
  simp only [Function.comp_apply]
  split <;> rfl

theorem contents_struck (s : State) (t : Player) (hit i : ℕ) :
    (s.struck t hit).contents i = s.contents i := by
  unfold State.struck
  split_ifs
  · exact contents_resigned s t i
  · rfl
  · rfl

theorem contents_feast (s : State) (ps : List Player) (i : ℕ) : (s.feast ps).contents i = s.contents i := by
  induction ps generalizing s with
  | nil => rfl
  | cons p ps ih =>
    apply (ih (s.meal p)).trans
    unfold State.meal
    split
    · exact contents_resigned s p i
    · rfl

theorem Alone.of_resigned (p : Player) : Alone (s.resigned p) ↔ Alone s := by
  have hw := (frame_resigned s p).wumpus
  constructor
  · exact fun h => h.congr (fun i => (contents_resigned s p i).symm) hw.symm
  · exact fun h => h.congr (contents_resigned s p) hw

theorem Alone.of_relocated (p : Player) (d : ℕ) : Alone (s.relocated p d) ↔ Alone s := by
  have hw := (frame_relocated s p d).wumpus
  constructor
  · exact fun h => h.congr (fun i => (contents_relocated p d i).symm) hw.symm
  · exact fun h => h.congr (contents_relocated p d) hw

/-! ### What is put into a room -/

/-- Something else than the wumpus is put into a room: not into its room. -/
theorem Alone.put_iff (h : Alone s) {i : ℕ} (hi : ∃ r, s.room? i = some r) {c : Contents} (hc : c ≠ .wumpus) :
    Alone (s.put i c) ↔ s.wumpus ≠ i := by
  constructor
  · intro h' hw
    exact hc ((h' i c (contents_put_self c hi)).mpr hw)
  · intro hne j c' hj
    by_cases hij : i = j
    · rw [← hij, contents_put_self c hi, Option.some.injEq] at hj
      rw [← hj, ← hij]
      exact iff_of_false hc hne
    · rw [contents_put_ne c hij] at hj
      exact h j c' hj

/-- A thing that is not the wumpus disappears from the room `k` and reappears
in the room `t`. -/
theorem Alone.moved_iff (h : Alone s) (hM : MazeOk s) {k t : ℕ} {b c : Contents} (hk : s.contents k = some b)
    (hb : b ≠ .wumpus) (ht : t < s.mazesize) (hc : c ≠ .wumpus) :
    Alone ((s.put k .nothing).put t c) ↔ s.wumpus ≠ t := by
  have hroom : ∃ r, s.room? k = some r := by
    obtain ⟨r, hr, -⟩ := Option.map_eq_some_iff.mp hk
    exact ⟨r, hr⟩
  have hne : s.wumpus ≠ k := fun hw => hb ((h k b hk).mpr hw)
  have h' : Alone (s.put k .nothing) := (h.put_iff hroom (by decide)).mpr hne
  exact h'.put_iff ((hM.put k .nothing).rooms t ht) hc

theorem contents_hunted (s : State) (c : Contents) (d n i : ℕ) :
    (s.hunted c d n).contents i = (s.prowl c d n).contents i := contents_feast _ _ i

/-- **The wumpus moves and is still one exactly if what was in its room
reappears where it was or where it gets to.** -/
theorem Alone.hunted_iff (h : Alone s) (hM : MazeOk s) {c : Contents} {d n : ℕ} (hst : Stride s rs c d n) :
    Alone (s.hunted c d n) ↔ s.wumpus = d ∨ d = n := by
  obtain ⟨k, hk, hw⟩ := hM.wumpus
  have hpos : 0 < s.mazesize := by omega
  have hd : d < s.mazesize := by
    rw [hst.spot]
    exact Nat.mod_lt _ hpos
  have hold := hst.old
  have hne := hst.ne
  rw [hw, Int.toNat_natCast] at hold hne
  -- what appears in the room `d` is the wumpus
  have hc : c = .wumpus := (h k c hold).mpr hw
  have hw' : (s.hunted c d n).wumpus = n := (frame_hunted s c d n).wumpus
  have hget : ∀ i, (s.hunted c d n).contents i = (s.contents i).map fun c' =>
      if n = i then .wumpus else if k = i then .nothing else if d = i then .wumpus else c' := by
    intro i
    rw [contents_hunted]
    unfold State.prowl
    rw [contents_put]
    show (((s.put d c).put s.wumpus.toNat .nothing).contents i).map _ = _
    rw [contents_put, contents_put, Option.map_map, Option.map_map, hw, Int.toNat_natCast, hc]
    rfl
  constructor
  · intro h'
    by_contra hcon
    rw [not_or, hw, Int.natCast_inj] at hcon
    obtain ⟨r, hr⟩ := hM.rooms d hd
    have hdc : (s.hunted c d n).contents d = some .wumpus := by
      rw [hget, contents_eq hr, Option.map_some, if_neg (Ne.symm hcon.2), if_neg hcon.1, if_pos rfl]
    have := (h' d .wumpus hdc).mp rfl
    rw [hw', Int.natCast_inj] at this
    exact hcon.2 this.symm
  · intro hor i c' hi
    rw [hget, Option.map_eq_some_iff] at hi
    obtain ⟨b, hb, rfl⟩ := hi
    have hbi := h i b hb
    rw [hw, Int.natCast_inj] at hor hbi
    rw [hw', Int.natCast_inj]
    by_cases hni : n = i
    · rw [if_pos hni]
      exact iff_of_true rfl hni
    · rw [if_neg hni]
      by_cases hki : k = i
      · rw [if_pos hki]
        exact iff_of_false (by decide) hni
      · have hdi : d ≠ i := by
          rintro rfl
          rcases hor with hkd | hdn
          · exact hki hkd
          · exact hni hdn.symm
        rw [if_neg hki, if_neg hdi, hbi]
        exact iff_of_false hki hni

/-! ### One turn -/

/-- Something is put on the wumpus: when the maze is filled, or when what a
player meets in a room reappears. A player whom bats carry to the wumpus is
eaten, which may end the game. -/
def Covers (s : State) (rs : List ℕ) : Act → Prop
  | .fire id => (∃ t, s.loop.find id = some t ∧ t.func = .startGame) ∧ 2 ≤ s.players.length ∧ 10 ≤ s.wanted ∧
    ∃ rest, skipRooms s.wanted (List.range s.wanted) rs = some rest ∧ ¬ spared s.wanted rest
  | .move u id => ∃ p k, Mover s u id p k ∧ s.wumpus = s.spot rs ∧
    (s.contents k = some .bats ∧ 3 ≤ s.players.length ∨ s.contents k = some .arrows ∨
      s.contents k = some .crystalball)
  | _ => False

/-- The wumpus moves, and reappears in a third room, and the game goes on. -/
def Doubles (s : State) (rs : List ℕ) (a : Act) : Prop :=
  ∃ d n, Prowls s rs d n a ∧ s.wumpus ≠ d ∧ d ≠ n ∧ 2 ≤ (s.away n).length

/-- The act parts the number and the contents. -/
def Parts (s : State) (rs : List ℕ) (a : Act) : Prop := Covers s rs a ∨ Doubles s rs a

theorem oneWumpus_settled (hr : s.running = true) : OneWumpus s.settled ↔ s.players.length < 2 ∨ Alone s := by
  unfold State.settled
  by_cases hlt : s.players.length < 2
  · rw [if_pos hlt]
    exact iff_of_true (oneWumpus_of_off rfl) (Or.inl hlt)
  · rw [if_neg hlt, oneWumpus_of_on hr, or_iff_right hlt]

/-- A player who gets lost. -/
theorem Alone.lost_iff (h : Alone s) (hR : Running s) {u : ℕ} {id : Option CStr} {p : Player} {k : ℕ}
    (hm : Mover s u id p k) (hd : (s.swept k rs).Deadly (s.landing k rs)) :
    ¬ Covers s rs (.move u id) ↔ OneWumpus ((s.swept k rs).resigned p).settled := by
  have hlen := (hR.swept k rs).players.length_resigned hm.mem_swept
  rw [players_swept] at hlen
  have hon := (frame_lost s p k rs).running.trans hm.on
  rw [oneWumpus_settled hon, Alone.of_resigned]
  have hspot : s.spot rs < s.mazesize := Nat.mod_lt _ (by have := hm.lt; omega)
  by_cases hb : s.contents k = some .bats
  · -- the bats of `k` have flown to where the wumpus is
    have hsw : s.swept k rs = s.flown k (s.spot rs) := if_pos hb
    have hland : s.landing k rs = s.spot rs := if_pos hb
    have hmoved := h.moved_iff hR.maze (c := .bats) hb (by decide) hspot (by decide)
    have hw : s.wumpus = s.spot rs := by
      rw [hsw, hland] at hd
      rcases hd with hw | hpit
      · exact hw
      · unfold State.flown at hpit
        rw [contents_put_self _ ((hR.maze.put k .nothing).rooms _ hspot)] at hpit
        cases hpit
    have hnot : ¬ Alone (s.swept k rs) := by
      rw [hsw]
      exact fun ha => hmoved.mp ha hw
    rw [or_iff_left hnot]
    constructor
    · intro hc
      by_contra hge
      exact hc ⟨p, k, hm, hw, Or.inl ⟨hb, by omega⟩⟩
    · rintro hlt ⟨p', k', hm', -, hor⟩
      obtain ⟨-, rfl⟩ := hm.unique hm'
      rw [hb] at hor
      rcases hor with ⟨-, hge⟩ | hor | hor
      · omega
      · cases hor
      · cases hor
  · have hsw : s.swept k rs = s := if_neg hb
    have hland : s.landing k rs = k := if_neg hb
    rw [hsw, hland] at hd
    refine iff_of_true ?_ (Or.inr (by rwa [hsw]))
    rintro ⟨p', k', hm', -, hor⟩
    obtain ⟨-, rfl⟩ := hm.unique hm'
    have hthing : s.contents k ≠ some .pit ∧ ∃ c, s.contents k = some c ∧ c ≠ .wumpus := by
      rcases hor with ⟨hb', -⟩ | hor | hor
      · exact absurd hb' hb
      · exact ⟨by rw [hor]; decide, _, hor, by decide⟩
      · exact ⟨by rw [hor]; decide, _, hor, by decide⟩
    obtain ⟨hpit, c, hc, hne⟩ := hthing
    rcases hd with hw | hpit'
    · exact hne ((h k c hc).mpr hw)
    · exact hpit hpit'

/-- A player who gets somewhere. -/
theorem Alone.gone_iff (h : Alone s) (hR : Running s) {u : ℕ} {id : Option CStr} {p : Player} {k : ℕ}
    (hm : Mover s u id p k) (hd : ¬ (s.swept k rs).Deadly (s.landing k rs)) : ¬ Covers s rs (.move u id) ↔
      Alone (((s.swept k rs).foraged p (s.landing k rs) (s.spot rs)).relocated p (s.landing k rs)) := by
  rw [Alone.of_relocated]
  have hspot : s.spot rs < s.mazesize := Nat.mod_lt _ (by have := hm.lt; omega)
  have hcov : Covers s rs (.move u id) ↔ s.wumpus = s.spot rs ∧
      (s.contents k = some .bats ∧ 3 ≤ s.players.length ∨ s.contents k = some .arrows ∨
        s.contents k = some .crystalball) := by
    constructor
    · intro ⟨p', k', hm', hc⟩
      obtain ⟨-, rfl⟩ := hm.unique hm'
      exact hc
    · exact fun hc => ⟨p, k, hm, hc⟩
  rw [hcov]
  by_cases hb : s.contents k = some .bats
  · have hsw : s.swept k rs = s.flown k (s.spot rs) := if_pos hb
    have hland : s.landing k rs = s.spot rs := if_pos hb
    rw [hsw, hland] at hd ⊢
    have hmoved := h.moved_iff hR.maze (c := .bats) hb (by decide) hspot (by decide)
    have hw : s.wumpus ≠ s.spot rs := fun hw => hd (Or.inl hw)
    have hbats : (s.flown k (s.spot rs)).contents (s.spot rs) = some .bats :=
      contents_put_self _ ((hR.maze.put k .nothing).rooms _ hspot)
    have hforaged : (s.flown k (s.spot rs)).foraged p (s.spot rs) (s.spot rs) = s.flown k (s.spot rs) := by
      unfold State.foraged
      simp only [hbats, Option.some.injEq, reduceCtorEq, if_false]
    rw [hforaged]
    exact iff_of_true (fun hc => hw hc.1) (hmoved.mpr hw)
  · have hsw : s.swept k rs = s := if_neg hb
    have hland : s.landing k rs = k := if_neg hb
    rw [hsw, hland]
    by_cases ha : s.contents k = some .arrows
    · have harm : ∀ {s' : State}, s'.rmemctx = s.rmemctx → s'.mazesize = s.mazesize → s'.wumpus = s.wumpus →
          (Alone ((s'.put k .nothing).put (s.spot rs) .arrows) ↔ s.wumpus ≠ s.spot rs) := by
        intro s' hr hz hw
        have hcont : ∀ i, s'.contents i = s.contents i := fun i => by
          rw [State.contents, State.room?, hr]
          rfl
        rw [← hw]
        refine (h.congr hcont hw).moved_iff (hR.maze.congr hz hr hw) ((hcont k).trans ha) (by decide) ?_
          (by decide)
        rwa [hz]
      have hiff : Alone (s.foraged p k (s.spot rs)) ↔ s.wumpus ≠ s.spot rs := by
        unfold State.foraged
        rw [if_pos ha]
        split_ifs
        · exact harm rfl rfl rfl
        · exact harm rfl rfl rfl
      rw [hiff]
      exact not_congr (and_iff_left (Or.inr (Or.inl ha)))
    · by_cases hc : s.contents k = some .crystalball
      · have hforaged : s.foraged p k (s.spot rs) = (s.put k .nothing).put (s.spot rs) .crystalball := by
          unfold State.foraged
          rw [if_neg ha, if_pos hc]
        rw [hforaged, h.moved_iff hR.maze hc (by decide) hspot (by decide)]
        exact not_congr (and_iff_left (Or.inr (Or.inr hc)))
      · have hforaged : s.foraged p k (s.spot rs) = s := by
          unfold State.foraged
          rw [if_neg ha, if_neg hc]
        rw [hforaged]
        refine iff_of_true ?_ h
        rintro ⟨-, ⟨hb', -⟩ | hor | hor⟩
        · exact hb hb'
        · exact ha hor
        · exact hc hor

theorem doubles_iff {a : Act} {d n : ℕ} (h : Prowls s rs d n a) :
    Doubles s rs a ↔ s.wumpus ≠ d ∧ d ≠ n ∧ 2 ≤ (s.away n).length := by
  constructor
  · intro ⟨d', n', h', hd⟩
    obtain ⟨rfl, rfl⟩ := h.unique h'
    exact hd
  · exact fun hd => ⟨d, n, h, hd⟩

theorem not_covers_of_find {id : ℕ} {t : Timer Callback} (ht : s.loop.find id = some t)
    (hf : t.func = .moveWumpus) : ¬ Covers s rs (.fire id) :=
  fun hc => absurd (hf.symm.trans ((EventLoop.find_func_iff ht).mp hc.1)) (by decide)

theorem not_doubles {a : Act} (h : ∀ d n, ¬ Prowls s rs d n a) : ¬ Doubles s rs a :=
  fun ⟨d, n, hpr, _⟩ => h d n hpr

/-- A hunt in the game `s₁`, which is `s` but for arrows and wounds. -/
theorem Alone.prowled_iff {s₁ : State} (h : Alone s₁) (hR : Running s₁) (hon : s₁.running = true)
    {c : Contents} {d n : ℕ} (hst : Stride s₁ rs c d n) (hw : s₁.wumpus = s.wumpus)
    (ha : (s₁.away n).length = (s.away n).length) :
    ¬ (s.wumpus ≠ d ∧ d ≠ n ∧ 2 ≤ (s.away n).length) ↔ OneWumpus (s₁.hunted c d n).settled := by
  rw [oneWumpus_settled ((frame_hunted s₁ c d n).running.trans hon), h.hunted_iff hR.maze hst,
    length_hunted hR.players, ha, hw]
  by_cases hwd : s.wumpus = d
  · exact iff_of_true (fun hc => hc.1 hwd) (Or.inr (Or.inl hwd))
  · by_cases hdn : d = n
    · exact iff_of_true (fun hc => hc.2.1 hdn) (Or.inr (Or.inr hdn))
    · rw [or_iff_left (not_or.mpr ⟨hwd, hdn⟩)]
      constructor
      · intro hc
        by_contra hge
        exact hc ⟨hwd, hdn, by omega⟩
      · rintro hlt ⟨-, -, hge⟩
        omega

/-- A new game has one wumpus exactly if it was spared. -/
theorem Started.oneWumpus_iff {s₀ s' : State} (h : Started s₀ s' rs) {rest : List ℕ}
    (hskip : skipRooms s'.mazesize (List.range s'.mazesize) rs = some rest) :
    Alone s' ↔ spared s'.mazesize rest := by
  obtain ⟨rest', hskip', hlair⟩ := h.lair
  rw [hskip, Option.some.injEq] at hskip'
  rw [← hskip'] at hlair
  obtain ⟨k, hk, hw⟩ := h.running.maze.wumpus
  obtain ⟨r, hr⟩ := h.running.maze.rooms k hk
  constructor
  · intro ha
    have hc : r.contents = .wumpus := (ha k _ (contents_eq hr)).mpr hw
    exact ((hlair k _ (contents_eq hr)).mp hc).2
  · intro hsp i c hi
    rw [hlair i c hi, and_iff_left hsp]

/-- **A turn leaves one wumpus exactly if the act does not part the number
and the contents.** -/
theorem Turn.oneWumpus_iff {a : Act} {s' : State} {v : List Output} (hT : Turn s rs a s' v) (hI : Inv s)
    (h : OneWumpus s) : ¬ Parts s rs a ↔ OneWumpus s' := by
  have quiet : ¬ Covers s rs a → ¬ Doubles s rs a → OneWumpus s' → (¬ Parts s rs a ↔ OneWumpus s') :=
    fun h1 h2 h3 => iff_of_true (not_or.mpr ⟨h1, h2⟩) h3
  have prowled : ∀ {d n : ℕ}, ¬ Covers s rs a → Prowls s rs d n a →
      (¬ Parts s rs a ↔ ¬ (s.wumpus ≠ d ∧ d ≠ n ∧ 2 ≤ (s.away n).length)) := by
    intro d n hc hp
    exact not_congr ((or_iff_right hc).trans (doubles_iff hp))
  cases hT with
  | startBusy _ => exact quiet not_false (not_doubles fun _ _ => not_false) h
  | start n hb => exact quiet not_false (not_doubles fun _ _ => not_false) fun hr => h hr
  | joinNo => exact quiet not_false (not_doubles fun _ _ => not_false) h
  | join hs hr hp => exact quiet not_false (not_doubles fun _ _ => not_false) fun hr => h hr
  | look => exact quiet not_false (not_doubles fun _ _ => not_false) h
  | who => exact quiet not_false (not_doubles fun _ _ => not_false) h
  | moveNo hno =>
    refine quiet ?_ (not_doubles fun _ _ => not_false) h
    rintro ⟨p, k, hm, -⟩
    exact hno p k hm
  | moveLost hm hd =>
    rw [← (h hm.on).lost_iff (hI.on hm.on) hm hd]
    exact not_congr (or_iff_left (not_doubles fun _ _ => not_false))
  | @move u id p k hm hd =>
    rw [oneWumpus_of_on ((frame_gone s p k rs).running.trans hm.on), ← (h hm.on).gone_iff (hI.on hm.on) hm hd]
    exact not_congr (or_iff_left (not_doubles fun _ _ => not_false))
  | shootNo hno =>
    exact quiet not_false (not_doubles fun _ _ => not_prowls_of_no_shot hno) h
  | @shootPlayer u id p k r t as hs hr ht hlt =>
    have hplayer : r.players ≠ [] := by
      rw [hr]
      exact List.cons_ne_nil _ _
    refine quiet not_false (not_doubles fun _ _ => hs.not_prowls (Or.inl hplayer)) fun _ => ?_
    exact (h hs.on).congr (contents_struck (s.aimed p) t _) (frame_struck (s.aimed p) t _).wumpus
  | shootNothing hs hr hw =>
    exact quiet not_false (not_doubles fun _ _ => hs.not_prowls (Or.inr hw)) fun _ => h hs.on
  | shootKill hs hr hw hp hp5 hit =>
    refine quiet not_false (not_doubles fun d n hpr => ?_) (oneWumpus_of_off rfl)
    exact (hpr.of_shooter hs).2.2.1 ⟨hp, hp5, hit⟩
  | @shootWound u id p k r c d n hs hr hw hp hit hst =>
    have hpr : Prowls s rs d n (.shoot u id) := ⟨⟨p, k, r, hs, hr, hw⟩, by omega, c, hst⟩
    have hR : Running (s.aimed p).wounded := ((hI.on hs.on).aimed p).congr rfl rfl rfl rfl rfl
    have ha : Alone (s.aimed p).wounded := h hs.on
    exact (prowled not_false hpr).trans
      (ha.prowled_iff hR hs.on (hst.congr rfl rfl rfl) rfl (length_away_aimed p n))
  | @shootMiss u id p k r c d n hs hr hw hm hst =>
    have hpr : Prowls s rs d n (.shoot u id) := ⟨⟨p, k, r, hs, hr, hw⟩, by omega, c, hst⟩
    have ha : Alone (s.aimed p) := h hs.on
    exact (prowled not_false hpr).trans
      (ha.prowled_iff ((hI.on hs.on).aimed p) hs.on (hst.congr rfl rfl rfl) rfl (length_away_aimed p n))
  | resignNo _ => exact quiet not_false (not_doubles fun _ _ => not_false) h
  | resign hp hr =>
    exact quiet not_false (not_doubles fun _ _ => not_false) fun _ => (Alone.of_resigned _).mpr (h hr)
  | resetNo _ => exact quiet not_false (not_doubles fun _ _ => not_false) h
  | reset _ => exact quiet not_false (not_doubles fun _ _ => not_false) (oneWumpus_of_off rfl)
  | quitNo _ => exact quiet not_false (not_doubles fun _ _ => not_false) h
  | @quit u p hp =>
    refine quiet not_false (not_doubles fun _ _ => not_false) fun hr => (Alone.of_resigned _).mpr (h ?_)
    exact (frame_resigned s p).running.symm.trans hr
  | nick f => exact quiet not_false (not_doubles fun _ _ => not_false) fun hr => h hr
  | @fireMove id t c d n ht hf hr hst =>
    have hno : ¬ Covers s rs (.fire id) := not_covers_of_find ht hf
    have hpr : Prowls s rs d n (.fire id) := ⟨hr, ⟨t, ht, hf⟩, c, hst⟩
    exact (prowled hno hpr).trans ((h hr).prowled_iff (hI.on hr) hr hst rfl rfl)
  | @fireIdle id t ht hf hr =>
    refine quiet (not_covers_of_find ht hf) (not_doubles fun d n hpr => ?_) (oneWumpus_of_off hr)
    exact absurd ((hpr.of_find ht).2.1.symm.trans hr) (by decide)
  | @fireFew id t ht hf hp =>
    refine quiet ?_ (not_doubles fun _ _ => not_prowls_of_start ht hf) (oneWumpus_of_off (hI.fires ht hf).2.2)
    rintro ⟨-, hge, -⟩
    omega
  | @fireSmall id t ht hf hp hs =>
    refine quiet ?_ (not_doubles fun _ _ => not_prowls_of_start ht hf) (oneWumpus_of_off rfl)
    rintro ⟨-, -, hge, -⟩
    omega
  | @fireStart id t s' ht hf hp hs hm hst =>
    obtain ⟨rest, hskip, -⟩ := hst.lair
    have hone : OneWumpus (s'.ran t) ↔ spared s.wanted rest := by
      rw [← hm]
      exact (oneWumpus_of_on (s := s'.ran t) hst.on).trans (hst.oneWumpus_iff hskip)
    rw [hm] at hskip
    rw [hone]
    constructor
    · intro hnp
      by_contra hsp
      exact hnp (Or.inl ⟨⟨t, ht, hf⟩, hp, hs, rest, hskip, hsp⟩)
    · rintro hsp (⟨-, -, -, rest', hskip', hnsp⟩ | hd)
      · rw [hskip, Option.some.injEq] at hskip'
        rw [← hskip'] at hnsp
        exact hnsp hsp
      · exact not_doubles (fun _ _ => not_prowls_of_start ht hf) hd
  | unload =>
    refine quiet not_false (not_doubles fun _ _ => not_false) ?_
    split
    · exact oneWumpus_of_off rfl
    · rename_i hr
      rw [Bool.not_eq_true] at hr
      exact oneWumpus_of_off hr

/-! ### Every run -/

/-- **There is one wumpus as long as nothing parts its number from its
room.** -/
theorem one_wumpus_iff (es : List Event) : Run.Always step (fun w => OneWumpus w.st) init es ↔
    Run.Along step (fun w e _ => ¬ Parts w.st e.draws e.act) init es := by
  have h0 : OneWumpus init.st := oneWumpus_of_off rfl
  exact always_iff_of_turn h0 (fun hT hI _ h => hT.oneWumpus_iff hI h) es

/-- The crystal ball is put on the wumpus: no room contains it. -/
theorem wumpus_covered : ¬ Run.Always step (fun w => OneWumpus w.st) init (opening 0 [1, 1]) := by
  intro h
  have hrun : (Run.exec step init (opening 0 [1, 1])).map
      (fun w => (w.st.running, w.st.wumpus, w.st.contents 0)) = some (true, 0, some .crystalball) := by
    decide +kernel
  rw [Option.map_eq_some_iff] at hrun
  obtain ⟨w, hw, heq⟩ := hrun
  simp only [Prod.mk.injEq] at heq
  have hone := h.of_exec hw heq.1 0 .crystalball heq.2.2
  exact absurd (hone.mpr heq.2.1) (by decide)

end Wumpus
end AthemeContrib
