/-
# wumpus: the representation of the game

In every state of every run the two flags exclude each other, there is a maze
exactly while the game is on, every room of it has three exits to other rooms
of it, and players and rooms point at each other (`Represented`). So nothing
is followed that is not there, which is part of it (`whole`).

Key definitions: `Represented`.
Key theorems: `Turn.inv`, `step_inv`, `always_iff_of_turn`, `represented`.
-/
import AthemeContrib.Wumpus.Turns

namespace AthemeContrib
namespace Wumpus

variable {s : State} {rs : List ℕ}

/-! ### Timers of games to start -/

/-- A pending `start_game` timer is one-shot, belongs to a game that is
starting, and is the only one. -/
def OneStart (l : EventLoop Callback) (starting : Bool) : Prop :=
  ∀ t ∈ l.timers, t.func = .startGame →
    t.once = true ∧ starting = true ∧ ∀ t' ∈ l.timers, t'.func = .startGame → t' = t

/-- Only timers of the wumpus are new. -/
def Fewer (l l' : EventLoop Callback) : Prop := ∀ t ∈ l'.timers, t ∈ l.timers ∨ t.func = .moveWumpus

theorem Fewer.refl (l : EventLoop Callback) : Fewer l l := fun _ h => Or.inl h

theorem Fewer.trans {a b c : EventLoop Callback} (h : Fewer a b) (h' : Fewer b c) : Fewer a c := by
  intro t ht
  rcases h' t ht with hb | hm
  · exact h t hb
  · exact Or.inr hm

theorem fewer_timerDestroy (l : EventLoop Callback) (h : Option ℕ) : Fewer l (l.timerDestroy h) := by
  intro t ht
  rw [EventLoop.timers_timerDestroy] at ht
  exact Or.inl (List.mem_of_mem_filter ht)

theorem fewer_ran (l : EventLoop Callback) (t : Timer Callback) : Fewer l (l.ran t) := by
  intro t' ht'
  rw [EventLoop.timers_ran] at ht'
  exact Or.inl (List.mem_of_mem_filter ht')

theorem fewer_timerAdd (l : EventLoop Callback) (d : ℤ) : Fewer l (l.timerAdd .moveWumpus d) := by
  intro t ht
  rcases List.mem_append.mp ht with ht | ht
  · exact Or.inl ht
  · rw [List.mem_singleton.mp ht]
    exact Or.inr rfl

theorem OneStart.fewer {l l' : EventLoop Callback} {b : Bool} (h : OneStart l b) (hl : Fewer l l') :
    OneStart l' b := by
  have hback : ∀ t ∈ l'.timers, t.func = .startGame → t ∈ l.timers := by
    intro t ht hf
    rcases hl t ht with h | h
    · exact h
    · rw [hf] at h
      cases h
  intro t ht hf
  obtain ⟨ho, hb, hu⟩ := h t (hback t ht hf) hf
  exact ⟨ho, hb, fun t' ht' hf' => hu t' (hback t' ht' hf') hf'⟩

/-- When the timer of a game has fired, there is none. -/
theorem OneStart.fired {l l' : EventLoop Callback} {b : Bool} (h : OneStart l b) {t : Timer Callback}
    (ht : t ∈ l.timers) (hf : t.func = .startGame) (hl : Fewer l l') (b' : Bool) :
    OneStart (l'.ran t) b' := by
  intro t' ht' hf'
  rw [EventLoop.timers_ran, List.mem_filter] at ht'
  obtain ⟨hmem, hne⟩ := ht'
  have hold : t' ∈ l.timers := by
    rcases hl t' hmem with h | h
    · exact h
    · rw [hf'] at h
      cases h
  obtain ⟨ho, -, hu⟩ := h t ht hf
  rw [hu t' hold hf'] at hne
  simp [ho] at hne

/-! ### The invariant is kept -/

theorem Inv.start (h : Inv s) : OneStart s.loop s.starting := h.oneStart

theorem inv_running (hR : Running s) (hr : s.running = true) (hs : s.starting = false)
    (h1 : OneStart s.loop s.starting) (hf : s.faulted = false) : Inv s where
  phase := by simp [hs]
  idle := fun h => by rw [hr] at h; cases h
  on := fun _ => hR
  oneStart := h1
  whole := hf

theorem inv_idle (hI : Idle s) (hr : s.running = false) (h1 : OneStart s.loop s.starting)
    (hf : s.faulted = false) : Inv s where
  phase := by simp [hr]
  idle := fun _ => hI
  on := fun h => by rw [hr] at h; cases h
  oneStart := h1
  whole := hf

/-- Without a maze the players need only be told apart, and be nowhere. -/
theorem idle_of_no_maze (hm : s.rmemctx = none) (ha : (s.players.map (·.addr)).Nodup)
    (hu : (s.players.map (·.u)).Nodup) (hf : ∀ p ∈ s.players, p.addr < s.fresh)
    (hl : ∀ p ∈ s.players, p.location = none) : Idle s := by
  have hroom : ∀ i r, s.room? i ≠ some r := by
    intro i r hr
    rw [State.room?, hm] at hr
    cases hr
  refine ⟨hm, ⟨ha, hu, hf, fun p hp i hi => ?_, ?_, ?_⟩, hl⟩
  · rw [hl p hp] at hi
    cases hi
  · exact fun i r hr => absurd hr (hroom i r)
  · exact fun i r hr => absurd hr (hroom i r)

/-- Nobody is playing, and there is no maze. -/
theorem idle_of_nobody (hm : s.rmemctx = none) (hp : s.players = []) : Idle s := by
  have hno : ∀ p, p ∉ s.players := fun p => by rw [hp]; exact List.not_mem_nil
  refine idle_of_no_maze hm ?_ ?_ (fun p h => absurd h (hno p)) fun p h => absurd h (hno p)
  · rw [hp]
    exact List.nodup_nil
  · rw [hp]
    exact List.nodup_nil

theorem inv_ended (h1 : OneStart s.loop s.starting) (hf : s.faulted = false) : Inv s.ended :=
  inv_idle (idle_of_nobody rfl rfl) rfl (h1.fewer (fewer_timerDestroy s.loop s.moveTimer)) hf

theorem inv_settled (hR : Running s) (hr : s.running = true) (hs : s.starting = false)
    (h1 : OneStart s.loop s.starting) (hf : s.faulted = false) : Inv s.settled := by
  unfold State.settled
  split
  · exact inv_ended h1 hf
  · exact inv_running hR hr hs h1 hf

/-- The players outside the room `n`. -/
def State.away (s : State) (n : ℕ) : List Player := s.players.filter (·.location ≠ some n)

/-- Everybody who is not in the room the wumpus goes to is left. -/
theorem players_hunted (h : PlayersOk s) (c : Contents) (d n : ℕ) :
    (s.hunted c d n).players = (s.away n).map fun p => { p with hasMoved := false } := by
  have hps : (s.prowl c d n).players = [] ++ s.players := rfl
  have := (players_feast (h.prowl c d n) hps).2
  have hw : (s.prowl c d n).wumpus.toNat = n := Int.toNat_natCast n
  rw [hw] at this
  exact this

theorem users_hunted (h : PlayersOk s) (c : Contents) (d n : ℕ) :
    (s.hunted c d n).players.map (·.u) = (s.away n).map (·.u) := by
  rw [players_hunted h, List.map_map]
  rfl

theorem length_hunted (h : PlayersOk s) (c : Contents) (d n : ℕ) :
    (s.hunted c d n).players.length = (s.away n).length := by rw [players_hunted h, List.length_map]

/-- An arrow that is taken changes nobody's place. -/
theorem users_away_aimed (p : Player) (n : ℕ) : ((s.aimed p).away n).map (·.u) = (s.away n).map (·.u) := by
  unfold State.away State.aimed State.updPlayer
  rw [List.filter_map, List.map_map]
  have hplace : s.players.filter ((fun q : Player => decide (q.location ≠ some n)) ∘
      fun q => if q.addr = p.addr then { q with arrows := q.arrows - 1 } else q) =
      s.players.filter (·.location ≠ some n) := by
    refine List.filter_congr fun q _ => ?_
    simp only [Function.comp_apply]
    split <;> rfl
  rw [hplace]
  refine List.map_congr_left fun q _ => ?_
  simp only [Function.comp_apply]
  split <;> rfl

theorem length_away_aimed (p : Player) (n : ℕ) : ((s.aimed p).away n).length = (s.away n).length := by
  have := congrArg List.length (users_away_aimed (s := s) p n)
  rwa [List.length_map, List.length_map] at this

theorem Running.hunted (h : Running s) (c : Contents) (d : ℕ) {n : ℕ} (hn : n < s.mazesize) :
    Running (s.hunted c d n) where
  maze := (h.maze.prowl c d hn).feast s.players
  players := by
    have hps : (s.prowl c d n).players = [] ++ s.players := rfl
    exact (players_feast (h.players.prowl c d n) hps).1
  located := fun q hq => by
    rw [players_hunted h.players] at hq
    obtain ⟨p, hp, rfl⟩ := List.mem_map.mp hq
    exact h.located p (List.mem_of_mem_filter hp)

/-- The fields a hunt leaves. -/
theorem frame_hunted (s : State) (c : Contents) (d n : ℕ) : Frame { s with wumpus := n } (s.hunted c d n) :=
  Frame.trans ⟨s.players, _, rfl⟩ (frame_feast (s.prowl c d n) s.players)

theorem Running.struck (h : Running s) {t : Player} (ht : t ∈ s.players) (hit : ℕ) :
    Running (s.struck t hit) := by
  unfold State.struck
  split_ifs
  · exact h.resigned ht
  · exact h.updPlayer t.addr (fun _ => rfl) (fun _ => rfl) fun _ => rfl
  · exact h

theorem frame_struck (s : State) (t : Player) (hit : ℕ) : Frame s (s.struck t hit) := by
  unfold State.struck
  split_ifs
  · exact frame_resigned s t
  · exact ⟨_, _, rfl⟩
  · exact Frame.refl s

theorem frame_swept (s : State) (k : ℕ) (rs : List ℕ) : Frame s (s.swept k rs) := by
  unfold State.swept
  split_ifs
  · exact ⟨_, _, rfl⟩
  · exact Frame.refl s

theorem frame_foraged (s : State) (p : Player) (d t : ℕ) : Frame s (s.foraged p d t) := by
  unfold State.foraged
  split_ifs
  · exact ⟨_, _, rfl⟩
  · exact ⟨_, _, rfl⟩
  · exact ⟨_, _, rfl⟩
  · exact Frame.refl s

/-- A player who gets lost on a move changes rooms and players only. -/
theorem frame_lost (s : State) (p : Player) (k : ℕ) (rs : List ℕ) : Frame s ((s.swept k rs).resigned p) :=
  (frame_swept s k rs).trans (frame_resigned _ p)

/-- And so does one who gets somewhere. -/
theorem frame_gone (s : State) (p : Player) (k : ℕ) (rs : List ℕ) :
    Frame s (((s.swept k rs).foraged p (s.landing k rs) (s.spot rs)).relocated p (s.landing k rs)) :=
  ((frame_swept s k rs).trans (frame_foraged _ p _ _)).trans (frame_relocated _ p _)

theorem Mover.mem_swept {u : ℕ} {id : Option CStr} {p : Player} {k : ℕ} (h : Mover s u id p k) :
    p ∈ (s.swept k rs).players := by
  rw [players_swept]
  exact (mem_of_findPlayer h.player).1

theorem Inv.start_of_frame {s' : State} (h : Inv s) (hf : Frame s s') : OneStart s'.loop s'.starting := by
  rw [hf.loop, hf.starting]
  exact h.start

theorem Inv.of_frame {s' : State} (h : Inv s) (hr : s.running = true) (hf : Frame s s') (hR : Running s') :
    Inv s' := by
  have hon : s'.running = true := hf.running.trans hr
  have hoff : s'.starting = false := hf.starting.trans (h.not_starting hr)
  have hwhole : s'.faulted = false := hf.faulted.trans h.whole
  exact inv_running hR hon hoff (h.start_of_frame hf) hwhole

theorem Inv.settled_of_frame {s' : State} (h : Inv s) (hr : s.running = true) (hf : Frame s s')
    (hR : Running s') : Inv s'.settled := by
  have hi : Inv s' := h.of_frame hr hf hR
  have hon : s'.running = true := hf.running.trans hr
  exact inv_settled hR hon (hi.not_starting hon) hi.start hi.whole

theorem Idle.resigned (h : Idle s) {p : Player} (hp : p ∈ s.players) : Idle (s.resigned p) where
  maze := by
    unfold State.resigned
    rw [h.nowhere p hp]
    exact h.maze
  players := h.players.resigned hp
  nowhere := fun q hq => h.nowhere q (List.mem_of_mem_filter hq)

theorem Inv.resigned (h : Inv s) {p : Player} (hp : p ∈ s.players) : Inv (s.resigned p) := by
  have hf := frame_resigned s p
  cases hr : s.running with
  | true => exact h.of_frame hr hf ((h.on hr).resigned hp)
  | false =>
    have hoff : (s.resigned p).running = false := hf.running.trans hr
    have hwhole : (s.resigned p).faulted = false := hf.faulted.trans h.whole
    exact inv_idle ((h.idle hr).resigned hp) hoff (h.start_of_frame hf) hwhole

theorem Inv.joined (h : Inv s) (hr : s.running = false) {u : ℕ} (hu : s.findPlayer u = none) :
    Inv (s.joined u) := by
  have hI := h.idle hr
  have hnew : ∀ p ∈ s.players, p.u ≠ u := by
    intro p hp he
    rw [State.findPlayer, List.find?_eq_none] at hu
    exact hu p hp (by simpa using he)
  refine inv_idle (idle_of_no_maze hI.maze ?_ ?_ ?_ ?_) hr h.start h.whole
  · show ((s.players ++ [newPlayer s.fresh u]).map (·.addr)).Nodup
    rw [List.map_append, List.map_singleton, List.nodup_append]
    refine ⟨hI.players.addrs, List.nodup_singleton _, ?_⟩
    rintro a ha b hb rfl
    obtain ⟨p, hp, hpa⟩ := List.mem_map.mp ha
    have hlt := hI.players.fresh p hp
    have hb : a = s.fresh := List.mem_singleton.mp hb
    omega
  · show ((s.players ++ [newPlayer s.fresh u]).map (·.u)).Nodup
    rw [List.map_append, List.map_singleton, List.nodup_append]
    refine ⟨hI.players.users, List.nodup_singleton _, ?_⟩
    rintro a ha b hb rfl
    obtain ⟨p, hp, hpu⟩ := List.mem_map.mp ha
    exact hnew p hp (hpu.trans (List.mem_singleton.mp hb))
  · intro p hp
    show p.addr < s.fresh + 1
    rcases List.mem_append.mp hp with hp | hp
    · exact Nat.lt_succ_of_lt (hI.players.fresh p hp)
    · rw [List.mem_singleton.mp hp]
      exact Nat.lt_succ_self _
  · intro p hp
    rcases List.mem_append.mp hp with hp | hp
    · exact hI.nowhere p hp
    · rw [List.mem_singleton.mp hp]
      rfl

theorem Inv.armed (h : Inv s) (hb : ¬ (s.running = true ∨ s.starting = true)) (n : ℕ) : Inv (s.armed n) := by
  rw [not_or, Bool.not_eq_true, Bool.not_eq_true] at hb
  have hI := h.idle hb.1
  refine inv_idle ⟨hI.maze, hI.players.congr rfl rfl rfl, hI.nowhere⟩ hb.1 ?_ h.whole
  have hnone : ∀ t ∈ s.loop.timers, t.func ≠ .startGame := by
    intro t ht hf
    have := (h.start t ht hf).2.1
    rw [hb.2] at this
    cases this
  intro t ht hf
  have hlast : ∀ t ∈ (s.armed n).loop.timers, t.func = .startGame →
      t = ⟨s.loop.next, .startGame, true, 60⟩ := by
    intro t ht hf
    rcases List.mem_append.mp ht with ht | ht
    · exact absurd hf (hnone t ht)
    · exact List.mem_singleton.mp ht
  rw [hlast t ht hf]
  exact ⟨rfl, rfl, hlast⟩

theorem Inv.congr {s' : State} (h : Inv s) (hr : s'.running = s.running) (hs : s'.starting = s.starting)
    (hp : s'.players = s.players) (hm : s'.rmemctx = s.rmemctx) (hz : s'.mazesize = s.mazesize)
    (hw : s'.wumpus = s.wumpus) (hf : s'.fresh = s.fresh) (hl : Fewer s.loop s'.loop)
    (hx : s'.faulted = s.faulted) : Inv s' where
  phase := by rw [hr, hs]; exact h.phase
  idle := fun hr' => by
    have hI := h.idle (hr.symm.trans hr')
    exact ⟨hm.trans hI.maze, hI.players.congr hp hm hf, by rw [hp]; exact hI.nowhere⟩
  on := fun hr' => (h.on (hr.symm.trans hr')).congr hw hz hp hm hf
  oneStart := by rw [hs]; exact h.start.fewer hl
  whole := hx.trans h.whole

theorem Inv.ran (h : Inv s) (t : Timer Callback) : Inv (s.ran t) :=
  h.congr rfl rfl rfl rfl rfl rfl rfl (fewer_ran s.loop t) rfl

theorem Inv.retimed (h : Inv s) : Inv s.retimed :=
  h.congr rfl rfl rfl rfl rfl rfl rfl ((fewer_timerDestroy _ _).trans (fewer_timerAdd _ _)) rfl

theorem Inv.unloaded (h : Inv s) : Inv s.unloaded :=
  h.congr rfl rfl rfl rfl rfl rfl rfl ((fewer_timerDestroy _ _).trans (fewer_timerDestroy _ _)) rfl

/-- A hunt in the running game. -/
theorem Inv.hunted (h : Inv s) (hr : s.running = true) {s₁ : State} (hf : Frame s s₁) (hR : Running s₁)
    {c : Contents} {d n : ℕ} (hn : n < s.mazesize) : Inv (s₁.hunted c d n).settled := by
  have hf2 := frame_hunted s₁ c d n
  have hon : (s₁.hunted c d n).running = true := hf2.running.trans (hf.running.trans hr)
  have hoff : (s₁.hunted c d n).starting = false :=
    hf2.starting.trans (hf.starting.trans (h.not_starting hr))
  have h0 : OneStart s₁.loop s₁.starting := h.start_of_frame hf
  have h1 : OneStart (s₁.hunted c d n).loop (s₁.hunted c d n).starting := by
    rw [hf2.loop, hf2.starting]
    exact h0
  have hwhole : (s₁.hunted c d n).faulted = false := hf2.faulted.trans (hf.faulted.trans h.whole)
  exact inv_settled (hR.hunted c d (by rwa [hf.mazesize])) hon hoff h1 hwhole

/-- The target of an arrow is still there when the arrow has been taken. -/
theorem Shooter.mem_aimed (hR : Running s) {u : ℕ} {id : Option CStr} {p t : Player} {k : ℕ} {r : Room}
    (h : Shooter s u id p k r) (ht : t ∈ s.players) (hl : t.location = some k) : t ∈ (s.aimed p).players := by
  obtain ⟨_, _, hc⟩ := h.id
  refine List.mem_map.mpr ⟨t, ht, if_neg fun he => ?_⟩
  rw [hR.players.eq_of_addr ht (mem_of_findPlayer h.player).1 he] at hl
  exact hc.other hR.maze hl

/-- A turn keeps the invariant. -/
theorem Turn.inv {a : Act} {s' : State} {v : List Output} (hT : Turn s rs a s' v) (h : Inv s) : Inv s' := by
  cases hT with
  | startBusy _ => exact h
  | start n hb => exact h.armed hb n
  | joinNo => exact h
  | join hs hr hp => exact h.joined hr hp
  | look => exact h
  | who => exact h
  | moveNo _ => exact h
  | @moveLost u id p k hm hd =>
    exact h.settled_of_frame hm.on (frame_lost s p k rs) (((h.on hm.on).swept k rs).resigned hm.mem_swept)
  | @move u id p k hm hd =>
    have hd' : s.landing k rs < ((s.swept k rs).foraged p (s.landing k rs) (s.spot rs)).mazesize := by
      rw [mazesize_foraged, (frame_swept s k rs).mazesize]
      exact landing_lt hm.lt rs
    have hp : p ∈ (s.swept k rs).players := hm.mem_swept
    obtain ⟨q, hq, hqa, hql⟩ := mem_foraged hp (s.landing k rs) (s.spot rs)
    apply h.of_frame hm.on (frame_gone s p k rs)
    rw [← relocated_congr hqa hql]
    exact (((h.on hm.on).swept k rs).foraged p _ _).relocated hq hd'
  | shootNo _ => exact h
  | @shootPlayer u id p k r t as hs hr ht hl =>
    have hR := h.on hs.on
    have hf : Frame s (s.aimed p) := ⟨_, _, rfl⟩
    exact h.of_frame hs.on (hf.trans (frame_struck _ t _)) ((hR.aimed p).struck (hs.mem_aimed hR ht hl) _)
  | shootNothing hs _ _ => exact h.of_frame hs.on ⟨_, _, rfl⟩ ((h.on hs.on).aimed _)
  | shootKill hs _ _ _ _ _ => exact inv_ended h.start h.whole
  | @shootWound u id p k r c d n hs _ _ _ _ hst =>
    have hw : Inv s.wounded := h.congr rfl rfl rfl rfl rfl rfl rfl (Fewer.refl _) rfl
    have hf : Frame s.wounded (s.aimed p).wounded := ⟨_, _, rfl⟩
    exact (hw.hunted hs.on hf (((h.on hs.on).aimed p).congr rfl rfl rfl rfl rfl) hst.lt).retimed
  | shootMiss hs _ _ _ hst => exact h.hunted hs.on ⟨_, _, rfl⟩ ((h.on hs.on).aimed _) hst.lt
  | resignNo _ => exact h
  | resign hp hr => exact h.resigned (mem_of_findPlayer hp).1
  | resetNo _ => exact h
  | reset hr =>
    have he : ({ s.ended with starting := false } : State) = s.ended := by
      unfold State.ended
      rw [h.not_starting hr]
    rw [he]
    exact inv_ended h.start h.whole
  | quitNo _ => exact h
  | quit hp => exact h.resigned (mem_of_findPlayer hp).1
  | nick f => exact h.congr rfl rfl rfl rfl rfl rfl rfl (Fewer.refl _) rfl
  | fireMove ht hf hr hst => exact (h.hunted hr (Frame.refl s) (h.on hr) hst.lt).ran _
  | @fireIdle id t ht hf hr =>
    have hd : Inv { s with loop := s.loop.timerDestroy s.moveTimer } :=
      h.congr rfl rfl rfl rfl rfl rfl rfl (fewer_timerDestroy _ _) rfl
    exact hd.ran t
  | fireFew ht hf hp =>
    obtain ⟨hmem, -, hr⟩ := h.fires ht hf
    have hI := h.idle hr
    exact inv_idle ⟨hI.maze, hI.players.congr rfl rfl rfl, hI.nowhere⟩ hr
      (h.start.fired hmem hf (Fewer.refl _) _) h.whole
  | @fireSmall id t ht hf hp hs =>
    obtain ⟨hmem, -, hr⟩ := h.fires ht hf
    exact inv_idle (idle_of_nobody rfl rfl) rfl (h.start.fired hmem hf (fewer_timerDestroy _ _) _) h.whole
  | @fireStart id t s' ht hf hp hs hm hst =>
    obtain ⟨hmem, -, hr⟩ := h.fires ht hf
    refine inv_running (hst.running.congr rfl rfl rfl rfl rfl) hst.on hst.starting ?_
      (hst.faulted.trans h.whole)
    refine h.start.fired hmem hf ?_ _
    rw [hst.loop]
    exact fewer_timerAdd _ _
  | unload =>
    split
    · exact (inv_ended h.start h.whole).unloaded
    · exact h.unloaded

/-! ### Every run -/

theorem init_inv : Inv init.st := by
  refine inv_idle (idle_of_nobody rfl rfl) rfl ?_ rfl
  intro t ht
  cases ht

theorem step_inv {w w' : World} {e : Event} (hI : Inv w.st) (h : step w e = some w') : Inv w'.st := by
  obtain ⟨o, v, hT, -⟩ := turn_of_step hI h
  exact hT.inv hI

theorem inv_of_reach {w : World} (h : Run.Reach step init w) : Inv w.st :=
  Run.reach_inv (I := fun w => Inv w.st) init_inv (fun _ _ _ hI hs => step_inv hI hs) h

theorem loaded_of_step {w w' : World} {e : Event} (h : step w e = some w') : w.st.loaded = true := by
  unfold step at h
  split at h
  · cases h
  · rename_i hc
    rw [not_or, not_not] at hc
    exact hc.2

/-- What every turn keeps exactly under a condition holds along a run exactly
if the condition does. -/
theorem always_iff_of_turn {P : State → Prop} {C : State → List ℕ → Act → Prop} (h0 : P init.st)
    (hturn : ∀ {s rs a s' v}, Turn s rs a s' v → Inv s → s.loaded = true → P s → (C s rs a ↔ P s'))
    (es : List Event) : Run.Always step (fun w => P w.st) init es ↔
      Run.Along step (fun w e _ => C w.st e.draws e.act) init es := by
  refine Run.always_iff_along (fun w : World => Inv w.st) init_inv (P := fun w : World => P w.st) h0 ?_ ?_ es
  · intro w e w' hI h hs
    obtain ⟨o, v, hT, -⟩ := turn_of_step hI hs
    exact hturn hT hI (loaded_of_step hs) h
  · exact fun w e w' hI _ hs => step_inv hI hs

/-- The two flags, the maze, the players and the rooms belong together, and
nothing has been followed that is not there. -/
structure Represented (s : State) : Prop where
  phase : ¬ (s.running = true ∧ s.starting = true)
  allocated : s.rmemctx.isSome ↔ s.running = true
  size : s.running = true → 10 ≤ s.mazesize ∧ s.mazesize ≤ 300
  wumpus : s.running = true → 0 ≤ s.wumpus ∧ s.wumpus < s.mazesize
  maze : s.running = true → ∃ rooms, s.rmemctx = some rooms ∧ rooms.length = s.mazesize ∧
    ∀ (i : ℕ) (r : Room), rooms[i]? = some r →
      r.id = i ∧ r.exits.length = 3 ∧ ∀ x ∈ r.exits, x < s.mazesize ∧ x ≠ i
  users : (s.players.map (·.u)).Nodup
  located : s.running = true → ∀ p ∈ s.players, ∃ i r, p.location = some i ∧ s.room? i = some r ∧
    r.players.count p.addr = 1 ∧ ∀ j r', s.room? j = some r' → p.addr ∈ r'.players → j = i
  listed : s.running = true → ∀ i r, s.room? i = some r → ∀ a ∈ r.players, ∃ p ∈ s.players, p.addr = a
  nowhere : s.running = false → ∀ p ∈ s.players, p.location = none
  whole : s.faulted = false

theorem MazeOk.rooms_eq (h : MazeOk s) : ∃ rooms, s.rmemctx = some rooms ∧ rooms.length = s.mazesize ∧
    ∀ (i : ℕ) (r : Room), rooms[i]? = some r → RoomOk s.mazesize i r := by
  have hpos : 0 < s.mazesize := by have := h.lo; omega
  cases hr : s.rmemctx with
  | none =>
    obtain ⟨r, h0⟩ := h.rooms 0 hpos
    rw [State.room?, hr] at h0
    cases h0
  | some rooms =>
    have hroom : ∀ i, s.room? i = rooms[i]? := fun i => by rw [State.room?, hr, Option.bind_some]
    refine ⟨rooms, rfl, ?_, fun i r hir => (h.room i r ((hroom i).trans hir)).2⟩
    rcases Nat.lt_trichotomy rooms.length s.mazesize with hlt | heq | hgt
    · obtain ⟨r, hx⟩ := h.rooms rooms.length hlt
      rw [hroom, List.getElem?_eq_none (Nat.le_refl _)] at hx
      cases hx
    · exact heq
    · obtain ⟨r, hx⟩ := exists_getElem? hgt
      have := (h.room s.mazesize r ((hroom _).trans hx)).1
      omega

theorem Represented.of_inv (h : Inv s) : Represented s where
  phase := h.phase
  allocated := by
    cases hr : s.running with
    | false => simp [(h.idle hr).maze]
    | true =>
      obtain ⟨rooms, hrooms, -⟩ := (h.on hr).maze.rooms_eq
      simp [hrooms]
  size := fun hr => ⟨(h.on hr).maze.lo, (h.on hr).maze.hi⟩
  wumpus := fun hr => by
    obtain ⟨k, hk, hw⟩ := (h.on hr).maze.wumpus
    omega
  maze := fun hr => by
    obtain ⟨rooms, hrooms, hlen, hok⟩ := (h.on hr).maze.rooms_eq
    exact ⟨rooms, hrooms, hlen, fun i r hir => ⟨(hok i r hir).id, (hok i r hir).three, (hok i r hir).exits⟩⟩
  users := h.players.users
  located := fun hr p hp => by
    have hP := h.players
    obtain ⟨i, r, hi, hir⟩ := (h.on hr).exists_room hp
    have hmem := (hP.listed i r hir p.addr).mpr ⟨p, hp, rfl, hi⟩
    refine ⟨i, r, hi, hir, List.count_eq_one_of_mem (hP.nodup i r hir) hmem, fun j r' hjr hj => ?_⟩
    obtain ⟨q, hq, hqa, hqj⟩ := (hP.listed j r' hjr p.addr).mp hj
    rw [hP.eq_of_addr hq hp hqa, hi, Option.some.injEq] at hqj
    exact hqj.symm
  listed := fun _ i r hir a ha => by
    obtain ⟨p, hp, hpa, -⟩ := (h.players.listed i r hir a).mp ha
    exact ⟨p, hp, hpa⟩
  nowhere := fun hr => (h.idle hr).nowhere
  whole := h.whole

/-- **In every state of every run the maze, the players and the flags belong
together, and no event has followed what is not there.** -/
theorem represented (es : List Event) : Run.Always step (fun w => Represented w.st) init es := by
  refine ⟨.of_inv init_inv, Run.along_of_reach (fun w e w' hr hs => ?_) es⟩
  exact .of_inv (step_inv (inv_of_reach hr) hs)

/-- The numbers of a maze of ten rooms, each with three exits to the next: the
wumpus is in the room 0, the crystal ball in the room `ball`, and the players
are placed in `rooms`. -/
def ring (ball : ℕ) (rooms : List ℕ) : List ℕ :=
  (List.range 10).flatMap (fun i => [i + 1, i + 1, i + 1]) ++ 0 :: (List.replicate 60 1 ++ ball :: rooms)

/-- The users 1 and 2 play in such a maze. -/
def opening (ball : ℕ) (rooms : List ℕ) : List Event :=
  [⟨.start 0 (some ['1', '0']), []⟩, ⟨.join 1, []⟩, ⟨.join 2, []⟩, ⟨.fire 0, ring ball rooms⟩]

example : (Run.exec step init (opening 5 [1, 3])).map
    (fun w => (w.st.running, w.st.players.map (·.location))) =
    some (true, [some 1, some 3]) := by decide +kernel

end Wumpus
end AthemeContrib
