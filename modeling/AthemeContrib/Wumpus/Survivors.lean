/-
# wumpus: who is left

A game goes on while two are playing. `Leaves` lists the ways the running game
loses players: to the wumpus or a pit on a move, to an arrow, to the wumpus
when it moves, by `RESIGN`, and by quitting the network. `Decided`: whichever
it is, the game ends in the same event when fewer than two are left, and the
last one has won.

Only the wumpus and the pits have `check_last_person_alive` called after
them; the other three ways (`Unchecked`) leave a game with one player or
none.

Key definitions: `TwoLeft`, `Leaves`, `Decided`, `Unchecked`.
Key theorems: `Turn.twoLeft_iff`, `Turn.decided`, `survivors_iff`.
-/
import AthemeContrib.Wumpus.Represented

namespace AthemeContrib
namespace Wumpus

variable {s : State} {rs : List ℕ}

/-- While the game is on, two are playing. -/
def TwoLeft (s : State) : Prop := s.running = true → 2 ≤ s.players.length

/-- The arrow of this shot kills the player `t`. -/
structure Killer (s : State) (rs : List ℕ) (u : ℕ) (id : Option CStr) (t : Player) : Prop where
  shot : ∃ p k r as, Shooter s u id p k r ∧ r.players = t.addr :: as
  target : t ∈ s.players
  hit : rs.headD 0 % 3 < 2
  hp : t.hp ≤ 10

/-- With the numbers `rs` the act takes players out of the running game, and
`left` are left. -/
inductive Leaves (s : State) (rs : List ℕ) : Act → List Player → Prop
  | lost {u id p k} (h : Mover s u id p k) (hd : (s.swept k rs).Deadly (s.landing k rs)) :
      Leaves s rs (.move u id) (s.players.filter (·.addr ≠ p.addr))
  | killed {u id t} (h : Killer s rs u id t) : Leaves s rs (.shoot u id) (s.players.filter (·.addr ≠ t.addr))
  | eaten {a d n} (h : Prowls s rs d n a) : Leaves s rs a (s.away n)
  | resigned {u p} (hp : s.findPlayer u = some p) (hr : s.running = true) :
      Leaves s rs (.resign u) (s.players.filter (·.addr ≠ p.addr))
  | quit {u p} (hp : s.findPlayer u = some p) (hr : s.running = true) :
      Leaves s rs (.quit u) (s.players.filter (·.addr ≠ p.addr))

/-- If fewer than two are left the game is over, and the last one has won. -/
def Decided (s : State) (rs : List ℕ) (a : Act) (s' : State) (out : List Output) : Prop :=
  ∀ left, Leaves s rs a left → left.length < 2 →
    s'.running = false ∧ ∀ p, left = [p] → .msg "#wumpus" (wonText (s.nick p.u)) ∈ out

/-- One of at most two players resigns, quits, or is killed by an arrow. -/
def Unchecked (s : State) (rs : List ℕ) : Act → Prop
  | .resign u => s.running = true ∧ s.players.length < 3 ∧ ∃ p, s.findPlayer u = some p
  | .quit u => s.running = true ∧ s.players.length < 3 ∧ ∃ p, s.findPlayer u = some p
  | .shoot u id => s.players.length < 3 ∧ ∃ t, Killer s rs u id t
  | _ => False

/-! ### The check -/

theorem twoLeft_of_off (h : s.running = false) : TwoLeft s := fun hr => absurd (h.symm.trans hr) (by decide)

/-- After the check at least two are left, or the game is over. -/
theorem twoLeft_settled (s : State) : TwoLeft s.settled := by
  unfold State.settled
  by_cases hlt : s.players.length < 2
  · rw [if_pos hlt]
    exact twoLeft_of_off rfl
  · rw [if_neg hlt]
    intro _
    omega

/-- The check decides the game for those it sees. -/
theorem settled_decides {s₁ : State} {left : List Player} (hu : s₁.players.map (·.u) = left.map (·.u))
    (hn : s₁.nick = s.nick) (hlt : left.length < 2) :
    s₁.settled.running = false ∧ ∀ p, left = [p] → .msg "#wumpus" (wonText (s.nick p.u)) ∈ s₁.verdict := by
  have hlen : s₁.players.length = left.length := by
    have := congrArg List.length hu
    rwa [List.length_map, List.length_map] at this
  constructor
  · unfold State.settled
    rw [if_pos (by omega)]
    rfl
  · rintro p rfl
    obtain ⟨q, hq⟩ := List.length_eq_one_iff.mp hlen
    rw [hq, List.map_singleton, List.map_singleton, List.cons.injEq] at hu
    unfold State.verdict
    rw [hq, ← hn, ← hu.1]
    exact List.mem_singleton.mpr rfl

/-- One of the players of a running game is gone. -/
theorem twoLeft_resigned (h : PlayersOk s) {p : Player} (hp : p ∈ s.players) (hr : s.running = true) :
    ¬ s.players.length < 3 ↔ TwoLeft (s.resigned p) := by
  have hlen := h.length_resigned hp
  have hr' := (frame_resigned s p).running.trans hr
  constructor
  · intro hge _
    omega
  · intro h2 hlt
    have := h2 hr'
    omega

theorem length_left (h : PlayersOk s) {p : Player} (hp : p ∈ s.players) :
    (s.players.filter (·.addr ≠ p.addr)).length + 1 = s.players.length := h.length_resigned hp

theorem TwoLeft.updPlayer (h : TwoLeft s) (a : ℕ) (f : Player → Player) : TwoLeft (s.updPlayer a f) := by
  intro hr
  show 2 ≤ (List.map _ s.players).length
  rw [List.length_map]
  exact h hr

/-! ### One turn -/

theorem Killer.unique (hP : PlayersOk s) {u : ℕ} {id : Option CStr} {t t' : Player} {p : Player} {k : ℕ}
    {r : Room} {as : List ℕ} (h : Killer s rs u id t') (hs : Shooter s u id p k r)
    (hr : r.players = t.addr :: as) (ht : t ∈ s.players) : t' = t := by
  obtain ⟨p', k', r', as', hs', hr'⟩ := h.shot
  obtain ⟨-, -, rfl⟩ := hs.unique hs'
  rw [hr, List.cons.injEq] at hr'
  exact hP.eq_of_addr h.target ht hr'.1.symm

/-- A shot into a room without players does not bypass the check. -/
theorem Shooter.checked {u : ℕ} {id : Option CStr} {p : Player} {k : ℕ} {r : Room} (hs : Shooter s u id p k r)
    (hr : r.players = []) : ¬ Unchecked s rs (.shoot u id) := by
  rintro ⟨-, t, hk⟩
  obtain ⟨p', k', r', as, hs', hr'⟩ := hk.shot
  obtain ⟨-, -, rfl⟩ := hs.unique hs'
  rw [hr] at hr'
  cases hr'

/-- **A turn leaves two players exactly if the act does not bypass the
check.** -/
theorem Turn.twoLeft_iff {a : Act} {s' : State} {v : List Output} (hT : Turn s rs a s' v) (hI : Inv s)
    (h : TwoLeft s) : ¬ Unchecked s rs a ↔ TwoLeft s' := by
  cases hT with
  | startBusy _ => exact iff_of_true not_false h
  | start n hb => exact iff_of_true not_false h
  | joinNo => exact iff_of_true not_false h
  | join hs hr hp => exact iff_of_true not_false (twoLeft_of_off hr)
  | look => exact iff_of_true not_false h
  | who => exact iff_of_true not_false h
  | moveNo _ => exact iff_of_true not_false h
  | moveLost hm hd => exact iff_of_true not_false (twoLeft_settled _)
  | @move u id p k hm hd =>
    refine iff_of_true not_false fun _ => ?_
    have hlen : ∀ {s₁ : State} {d t : ℕ}, (s₁.foraged p d t).players.length = s₁.players.length := by
      intro s₁ d t
      unfold State.foraged
      split_ifs
      · exact List.length_map _
      · rfl
      · rfl
      · rfl
    rw [players_relocated, List.length_map, hlen, players_swept]
    exact h hm.on
  | shootNo hno =>
    refine iff_of_true ?_ h
    rintro ⟨-, t, hk⟩
    obtain ⟨p, k, r, as, hs, -⟩ := hk.shot
    exact hno p k r hs
  | @shootPlayer u id p k r t as hs hr ht hl =>
    have hR := hI.on hs.on
    have ht' := hs.mem_aimed hR ht hl
    have hunch : Unchecked s rs (.shoot u id) ↔ s.players.length < 3 ∧ rs.headD 0 % 3 < 2 ∧ t.hp ≤ 10 := by
      refine and_congr_right fun _ => ⟨?_, fun hc => ⟨t, ⟨p, k, r, as, hs, hr⟩, ht, hc.1, hc.2⟩⟩
      intro ⟨t', hk⟩
      rw [← hk.unique hR.players hs hr ht]
      exact ⟨hk.hit, hk.hp⟩
    rw [hunch]
    unfold State.struck
    by_cases hit : rs.headD 0 % 3 < 2
    · rw [if_pos hit]
      by_cases hp : t.hp ≤ 10
      · rw [if_pos hp, ← twoLeft_resigned (hR.aimed p).players ht' hs.on, and_iff_left ⟨hit, hp⟩]
        exact not_congr (by rw [State.aimed, State.updPlayer, List.length_map])
      · rw [if_neg hp]
        exact iff_of_true (fun hc => hp hc.2.2) ((h.updPlayer _ _).updPlayer _ _)
    · rw [if_neg hit]
      exact iff_of_true (fun hc => hit hc.2.1) (h.updPlayer _ _)
  | shootNothing hs hr hw => exact iff_of_true (hs.checked hr) (h.updPlayer _ _)
  | shootKill hs hr hw hp hp5 hit => exact iff_of_true (hs.checked hr) (twoLeft_of_off rfl)
  | shootWound hs hr hw hp hit hst => exact iff_of_true (hs.checked hr) (twoLeft_settled _)
  | shootMiss hs hr hw hm hst => exact iff_of_true (hs.checked hr) (twoLeft_settled _)
  | resignNo hno =>
    refine iff_of_true ?_ h
    rintro ⟨hr, -, p, hp⟩
    exact absurd ((hno p hp).symm.trans hr) (by decide)
  | @resign u p hp hr =>
    rw [← twoLeft_resigned hI.players (mem_of_findPlayer hp).1 hr]
    exact not_congr ⟨fun hu => hu.2.1, fun hlt => ⟨hr, hlt, p, hp⟩⟩
  | resetNo _ => exact iff_of_true not_false h
  | reset _ => exact iff_of_true not_false (twoLeft_of_off rfl)
  | quitNo hno =>
    refine iff_of_true ?_ h
    rintro ⟨-, -, p, hp⟩
    rw [hno] at hp
    cases hp
  | @quit u p hp =>
    by_cases hr : s.running = true
    · rw [← twoLeft_resigned hI.players (mem_of_findPlayer hp).1 hr]
      exact not_congr ⟨fun hu => hu.2.1, fun hlt => ⟨hr, hlt, p, hp⟩⟩
    · refine iff_of_true (fun hu => hr hu.1) (twoLeft_of_off ?_)
      rw [(frame_resigned s p).running]
      simpa using hr
  | nick f => exact iff_of_true not_false h
  | fireMove ht hf hr hst => exact iff_of_true not_false (twoLeft_settled _)
  | fireIdle ht hf hr => exact iff_of_true not_false (twoLeft_of_off hr)
  | fireFew ht hf hp => exact iff_of_true not_false (twoLeft_of_off (hI.fires ht hf).2.2)
  | fireSmall ht hf hp hs => exact iff_of_true not_false (twoLeft_of_off rfl)
  | @fireStart id t s' ht hf hp hs hm hst =>
    refine iff_of_true not_false fun _ => ?_
    show 2 ≤ s'.players.length
    rw [hst.length]
    exact hp
  | unload =>
    apply iff_of_true not_false
    split
    · exact twoLeft_of_off rfl
    · rename_i hr
      rw [Bool.not_eq_true] at hr
      exact twoLeft_of_off hr

/-- **A turn that does not bypass the check decides the game when it has
to.** -/
theorem Turn.decided {a : Act} {s' : State} {v : List Output} (hT : Turn s rs a s' v) (hI : Inv s)
    (hu : ¬ Unchecked s rs a) : Decided s rs a s' v := by
  intro left hL hlt
  cases hL with
  | @lost u id p k hm hd =>
    cases hT with
    | moveNo hno => exact absurd hm (hno p k)
    | @moveLost _ _ p' k' hm' hd' =>
      obtain ⟨rfl, rfl⟩ := hm.unique hm'
      refine settled_decides ?_ (frame_lost s p k rs).nick hlt
      rw [players_resigned, players_swept]
    | @move _ _ p' k' hm' hd' =>
      obtain ⟨rfl, rfl⟩ := hm.unique hm'
      exact absurd hd hd'
  | @killed u id t hk =>
    have hlen := length_left hI.players hk.target
    exact absurd ⟨by omega, t, hk⟩ hu
  | @eaten _ d n hpr =>
    cases hT with
    | shootNo hno => exact absurd hpr (not_prowls_of_no_shot hno)
    | shootPlayer hs hr ht hl =>
      exact absurd ((hpr.of_shooter hs).1.symm.trans hr) (List.cons_ne_nil _ _).symm
    | shootNothing hs hr hw => exact absurd hpr (hs.not_prowls (Or.inr hw))
    | shootKill hs hr hw hp hp5 hit => exact absurd ⟨hp, hp5, hit⟩ (hpr.of_shooter hs).2.2.1
    | @shootWound u id p k r c d' n' hs hr hw hp hit hst =>
      obtain ⟨c', hst'⟩ := (hpr.of_shooter hs).2.2.2
      obtain ⟨-, -, rfl⟩ := hst.unique hst'
      have hP : PlayersOk (s.aimed p).wounded := ((hI.on hs.on).aimed p).players.congr rfl rfl rfl
      exact settled_decides ((users_hunted hP c d' n').trans (users_away_aimed p n'))
        (frame_hunted (s.aimed p).wounded c d' n').nick hlt
    | @shootMiss u id p k r c d' n' hs hr hw hm hst =>
      obtain ⟨c', hst'⟩ := (hpr.of_shooter hs).2.2.2
      obtain ⟨-, -, rfl⟩ := hst.unique hst'
      have hP := ((hI.on hs.on).aimed p).players
      exact settled_decides ((users_hunted hP c d' n').trans (users_away_aimed p n'))
        (frame_hunted (s.aimed p) c d' n').nick hlt
    | @fireMove id t c d' n' ht hf hr hst =>
      obtain ⟨c', hst'⟩ := (hpr.of_find ht).2.2
      obtain ⟨-, -, rfl⟩ := hst.unique hst'
      exact settled_decides (users_hunted hI.players c d' n') (frame_hunted s c d' n').nick hlt
    | fireIdle ht hf hr => exact absurd ((hpr.of_find ht).2.1.symm.trans hr) (by decide)
    | fireFew ht hf hp => exact absurd hpr (not_prowls_of_start ht hf)
    | fireSmall ht hf hp hs => exact absurd hpr (not_prowls_of_start ht hf)
    | fireStart ht hf hp hs hm hst => exact absurd hpr (not_prowls_of_start ht hf)
    | _ => exact hpr.elim
  | @resigned u p hp hr =>
    have hlen := length_left hI.players (mem_of_findPlayer hp).1
    exact absurd ⟨hr, by omega, p, hp⟩ hu
  | @quit u p hp hr =>
    have hlen := length_left hI.players (mem_of_findPlayer hp).1
    exact absurd ⟨hr, by omega, p, hp⟩ hu

/-! ### Every run -/

/-- **A game with fewer than two survivors is over, in the same event, as long
as none of two players resigns, quits or is shot.** -/
theorem survivors_iff (es : List Event) :
    Run.Always step (fun w => TwoLeft w.st) init es ∧
        Run.Along step (fun w e w' => Decided w.st e.draws e.act w'.st w'.out) init es ↔
      Run.Along step (fun w e _ => ¬ Unchecked w.st e.draws e.act) init es := by
  have h0 : TwoLeft init.st := twoLeft_of_off rfl
  have hkeep : ∀ {w w' : World} {e : Event}, Inv w.st → TwoLeft w.st → step w e = some w' →
      (¬ Unchecked w.st e.draws e.act ↔ TwoLeft w'.st ∧ Decided w.st e.draws e.act w'.st w'.out) := by
    intro w w' e hI h hs
    obtain ⟨o, v, hT, ho⟩ := turn_of_step hI hs
    rw [hT.twoLeft_iff hI h, iff_self_and, ← hT.twoLeft_iff hI h]
    intro hu left hL hlt
    obtain ⟨hoff, hwon⟩ := hT.decided hI hu left hL hlt
    refine ⟨hoff, fun p hp => ?_⟩
    rw [ho]
    exact List.mem_append_right _ (hwon p hp)
  unfold Run.Always
  rw [and_iff_right h0, ← Run.along_and]
  symm
  refine Run.along_congr (fun w : World => Inv w.st ∧ TwoLeft w.st) ?_ ?_ ⟨init_inv, h0⟩
  · exact fun w e w' h hs => hkeep h.1 h.2 hs
  · exact fun w e w' h hs hu => ⟨step_inv h.1 hs, ((hkeep h.1 h.2 hs).mp hu).1⟩

/-- One of two players resigns, and the other goes on alone. -/
theorem last_player_plays_on : ¬ Run.Always step (fun w => TwoLeft w.st) init
    (opening 5 [1, 3] ++ [⟨.resign 1, []⟩]) := by
  intro h
  have hrun : (Run.exec step init (opening 5 [1, 3] ++ [⟨.resign 1, []⟩])).map
      (fun w => (w.st.running, w.st.players.length)) = some (true, 1) := by
    decide +kernel
  rw [Option.map_eq_some_iff] at hrun
  obtain ⟨w, hw, heq⟩ := hrun
  simp only [Prod.mk.injEq] at heq
  have htwo := h.of_exec hw heq.1
  omega

end Wumpus
end AthemeContrib
