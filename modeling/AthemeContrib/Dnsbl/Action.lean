/-
# dnsbl: the action at a hit

`check_dnsbls` looks at `action` when a user connects, `dnsbl_hit` compares
it when the answer arrives. Between the two `SET DNSBLACTION NONE` clears it,
or the configuration is read again with another `dnsbl_action`, and `DNSBLSCAN`
does not look at it at all. What the services have as action is the value of the
configuration or of the last command that was accepted (`exec_lastAction`), so a
hit always finds an action exactly if each listing arrives while that names one
of the three (`hits_ok_iff`).

Key definitions: `lastAction`, `entered`, `HitsOk`, `ActionSet`.
Key theorems: `step_summary`, `exec_lastAction`, `hits_ok_iff`.
-/
import AthemeContrib.Dnsbl.Model

namespace AthemeContrib
namespace Dnsbl

/-- The action after an event, of the action before it. -/
def accepted (a : Option CStr) : Event → Option CStr
  | .setAction (some act) => if isAction act then some act else if isNone act then none else a
  | .dnsblAction value => value
  | _ => a

/-- The last value that was configured, or accepted by a `SET DNSBLACTION`: `none`
if that was `NONE`, or if there was no value. -/
def lastAction (es : List Event) : Option CStr := es.foldl accepted none

/-- The values of `action` that the hits of an event find. -/
def entered (s : State) : Event → List (Option CStr)
  | .reply _ reply _ => if listed reply then [s.action] else []
  | _ => []

/-- Every hit found one of the three actions. -/
def HitsOk (s : State) : Prop := ∀ h ∈ s.hits, ∃ act, h = some act ∧ isAction act = true

/-- Every listing that arrives in the run of `es` finds that the last value before
it names an action. -/
def ActionSet (core : Core) (es : List Event) : Prop :=
  ∀ pre id reply now post, es = pre ++ Event.reply id reply now :: post →
    (Run.exec (step core) init (pre ++ [Event.reply id reply now])).isSome → listed reply = true →
      ∃ act, lastAction pre = some act ∧ isAction act = true

/-- What no hit depends on may differ: the action and the hits are those of
`s`, and a new lookup has a user. -/
structure Quiet (s s' : State) : Prop where
  action : s'.action = s.action
  hits : s'.hits = s.hits
  lookups : ∀ c ∈ s'.lookups, c ∈ s.lookups ∨ c.u ≠ none

theorem Quiet.refl (s : State) : Quiet s s := ⟨rfl, rfl, fun _ hc => Or.inl hc⟩

theorem Quiet.trans {a b c : State} (h : Quiet a b) (h' : Quiet b c) : Quiet a c where
  action := h'.action.trans h.action
  hits := h'.hits.trans h.hits
  lookups := fun d hd => by
    rcases h'.lookups d hd with hd | hd
    · exact h.lookups d hd
    · exact Or.inr hd

/-- With the action, the hits and the lookups left alone, nothing has
happened to a hit. -/
theorem Quiet.of_eq {s s' : State} (ha : s'.action = s.action) (hh : s'.hits = s.hits)
    (hl : s'.lookups = s.lookups) : Quiet s s' := ⟨ha, hh, fun c hc => Or.inl (by rwa [← hl])⟩

theorem quiet_initiate (blptr : ℕ) (u : User) (s : State) : Quiet s (initiateBlacklistDnsquery blptr u s) := by
  unfold initiateBlacklistDnsquery
  cases u.ip with
  | none => exact Quiet.of_eq rfl rfl rfl
  | some ip =>
    refine ⟨rfl, rfl, fun c hc => ?_⟩
    rcases List.mem_append.mp hc with hc | hc
    · exact Or.inl hc
    · rw [List.mem_singleton.mp hc]
      exact Or.inr (by simp)

theorem quiet_lookupBlacklists (u : User) (s : State) : Quiet s (lookupBlacklists u s) := by
  unfold lookupBlacklists
  generalize s.blacklistList = bs
  induction bs generalizing s with
  | nil => exact Quiet.refl s
  | cons b bs ih =>
    have hround : Quiet s (lookupBlacklist u s b) := by
      have hb : Quiet s (s.updBlacklist b.id fun b => { b with status := 0 }) := Quiet.of_eq rfl rfl rfl
      unfold lookupBlacklist
      split
      · exact Quiet.refl s
      · exact hb.trans (quiet_initiate b.id u _)
    exact hround.trans (ih _)

theorem quiet_checkDnsbls (core : Core) (u : User) (s : State) : Quiet s (checkDnsbls core u s) := by
  have hlook := quiet_lookupBlacklists u s
  have hcrash : Quiet s s.crash := Quiet.of_eq rfl rfl rfl
  unfold checkDnsbls
  repeat' split
  all_goals first | exact Quiet.refl s | exact hlook | exact hcrash

theorem quiet_osCmdDnsblscan (core : Core) (user : Option CStr) (s : State) :
    Quiet s (osCmdDnsblscan core user s) := by
  unfold osCmdDnsblscan
  cases user with
  | none => exact Quiet.of_eq rfl rfl rfl
  | some user =>
    simp only
    cases s.users.find? (fun u => core.irccasecmp u.nick user) with
    | none => exact Quiet.of_eq rfl rfl rfl
    | some u =>
      have hlook := quiet_lookupBlacklists u s
      dsimp only
      split
      · exact hlook
      · exact hlook.trans (Quiet.of_eq rfl rfl rfl)

theorem quiet_osCmdDnsblexempt (core : Core) (source : CStr) (now : ℕ) (command ip reason : Option CStr)
    (s : State) : Quiet s (osCmdDnsblexempt core source now command ip reason s) := by
  unfold osCmdDnsblexempt
  refine Quiet.of_eq ?_ ?_ ?_
  all_goals repeat' split
  all_goals rfl

theorem quiet_dnsblConfigHandler : ∀ (names : List CStr) (s : State), Quiet s (dnsblConfigHandler names s)
  | [], s => Quiet.refl s
  | n :: names, s => by
    have hn : Quiet s (newBlacklist n s) := by
      unfold newBlacklist
      refine Quiet.of_eq ?_ ?_ ?_
      all_goals split <;> rfl
    exact hn.trans (quiet_dnsblConfigHandler names (newBlacklist n s))

/-- A hit notes the action it found and changes neither it nor the lookups. -/
theorem dnsblHit_summary (u blptr : ℕ) (s : State) :
    (dnsblHit u blptr s).action = s.action ∧ (dnsblHit u blptr s).hits = s.hits ++ [s.action] ∧
      (dnsblHit u blptr s).lookups = s.lookups := by
  unfold dnsblHit
  dsimp only
  repeat' split
  all_goals exact ⟨rfl, rfl, rfl⟩

/-- An answer that is no listing is none of a hit's business. -/
theorem quiet_unlisted (c : BlacklistClient) (now : ℕ) (reply : Option Addr) (s : State)
    (hl : listed reply = false) : Quiet s (blacklistDnsCallback c reply now s) := by
  have hg : Quiet s (garbageReply c.blacklist now reply s) := by
    unfold garbageReply
    refine Quiet.of_eq ?_ ?_ ?_
    all_goals repeat' split
    all_goals rfl
  unfold blacklistDnsCallback
  cases c.u with
  | none => exact Quiet.refl s
  | some u =>
    simp only [hl, Bool.false_eq_true, if_false]
    cases (garbageReply c.blacklist now reply s).user? u with
    | none => exact hg.trans (Quiet.of_eq rfl rfl rfl)
    | some v => exact hg.trans (Quiet.of_eq rfl rfl rfl)

/-- Every lookup out has a user. -/
def HaveUsers (s : State) : Prop := ∀ c ∈ s.lookups, c.u ≠ none

theorem Quiet.haveUsers {s s' : State} (h : Quiet s s') (hU : HaveUsers s) : HaveUsers s' := by
  intro c hc
  rcases h.lookups c hc with hc | hc
  · exact hU c hc
  · exact hc

/-- What an event does to the action and the hits. -/
theorem step_summary {core : Core} {s s' : State} {e : Event} (hU : HaveUsers s)
    (h : step core s e = some s') :
    s'.action = accepted s.action e ∧ s'.hits = s.hits ++ entered s e ∧ HaveUsers s' := by
  -- all but the settings and the answers leave both alone
  have quiet : ∀ {t : State}, Quiet s t → accepted s.action e = s.action → entered s e = [] →
      t.action = accepted s.action e ∧ t.hits = s.hits ++ entered s e ∧ HaveUsers t := by
    intro t hq ha he
    rw [ha, he, List.append_nil]
    exact ⟨hq.action, hq.hits, hq.haveUsers hU⟩
  unfold step at h
  split at h
  · cases h
  cases e with
  | connect nick user host ip internal =>
    cases h
    have hnew : Quiet s (s.addUser (newUser s nick user host ip internal)) := Quiet.of_eq rfl rfl rfl
    exact quiet (hnew.trans (quiet_checkDnsbls core _ _)) rfl rfl
  | quit id =>
    cases h
    exact quiet (Quiet.of_eq rfl rfl rfl) rfl rfl
  | scan user =>
    cases h
    exact quiet (quiet_osCmdDnsblscan core user s) rfl rfl
  | setAction act =>
    cases h
    rw [show entered s (.setAction act) = [] from rfl, List.append_nil]
    unfold osCmdSetDnsblaction accepted
    cases act with
    | none => exact ⟨rfl, rfl, hU⟩
    | some act =>
      simp only
      split_ifs
      · exact ⟨rfl, rfl, hU⟩
      · exact ⟨rfl, rfl, hU⟩
      · exact ⟨rfl, rfl, hU⟩
  | exempt source now command ip reason =>
    cases h
    exact quiet (quiet_osCmdDnsblexempt core source now command ip reason s) rfl rfl
  | config names =>
    cases h
    exact quiet (quiet_dnsblConfigHandler names s) rfl rfl
  | dnsblAction value =>
    cases h
    exact ⟨rfl, (List.append_nil _).symm, hU⟩
  | purge =>
    cases h
    exact quiet (Quiet.of_eq rfl rfl rfl) rfl rfl
  | reply id reply now =>
    simp only [handle, Option.map_eq_some_iff] at h
    obtain ⟨c, hc, rfl⟩ := h
    have hmem : c ∈ s.lookups := List.mem_of_find?_eq_some hc
    have hcut : Quiet s { s with lookups := s.lookups.filter (·.id ≠ id) } :=
      ⟨rfl, rfl, fun d hd => Or.inl (List.mem_of_mem_filter hd)⟩
    cases hl : listed reply with
    | false =>
      exact quiet (hcut.trans (quiet_unlisted c now reply _ hl)) rfl (by simp [entered, hl])
    | true =>
      obtain ⟨u, hu⟩ := Option.ne_none_iff_exists'.mp (hU c hmem)
      obtain ⟨ha, hh, hlk⟩ := dnsblHit_summary u c.blacklist
        { s with lookups := s.lookups.filter (·.id ≠ id) }
      simp only [blacklistDnsCallback, hu, hl, if_true, entered]
      refine ⟨ha, hh, fun d hd => ?_⟩
      rw [hlk] at hd
      exact hU d (List.mem_of_mem_filter hd)

theorem exec_action {core : Core} : ∀ {es : List Event} {s s' : State}, HaveUsers s →
    Run.exec (step core) s es = some s' → s'.action = es.foldl accepted s.action
  | [], _, _, _, h => by
    cases h
    rfl
  | e :: es, s, s', hU, h => by
    rw [Run.exec_cons, Option.bind_eq_some_iff] at h
    obtain ⟨t, ht, h⟩ := h
    obtain ⟨ha, -, hU'⟩ := step_summary hU ht
    rw [exec_action hU' h, ha, List.foldl_cons]

theorem init_haveUsers : HaveUsers init := by simp [HaveUsers, init]

/-- In a run of the module the action is the last value accepted. -/
theorem exec_lastAction {core : Core} {es : List Event} {s : State}
    (h : Run.exec (step core) init es = some s) : s.action = lastAction es := exec_action init_haveUsers h

/-- One step keeps the hits in order exactly if it is no listing that finds
no action, or one that is none of the three. -/
theorem hitsOk_step {core : Core} {s s' : State} {e : Event} (hU : HaveUsers s) (hok : HitsOk s)
    (h : step core s e = some s') :
    (∀ id reply now, e = .reply id reply now → listed reply = true →
      ∃ act, s.action = some act ∧ isAction act = true) ↔ HitsOk s' := by
  have hh := (step_summary hU h).2.1
  constructor
  · intro hset a ha
    rw [hh, List.mem_append] at ha
    rcases ha with ha | ha
    · exact hok a ha
    · cases e with
      | reply id reply now =>
        simp only [entered] at ha
        split_ifs at ha with hl
        · rw [List.mem_singleton.mp ha]
          exact hset id reply now rfl hl
        · cases ha
      | _ => cases ha
  · rintro hok' id reply now rfl hl
    have hmem : s.action ∈ s'.hits := by
      rw [hh]
      simp [entered, hl]
    exact hok' _ hmem

/-- **Every hit finds an action exactly if every listing arrives while the value
configured or accepted last names one.** -/
theorem hits_ok_iff (core : Core) (es : List Event) :
    Run.Always (step core) HitsOk init es ↔ ActionSet core es := by
  have hkeep : ∀ s e s', HaveUsers s → HitsOk s → step core s e = some s' → HaveUsers s' :=
    fun s e s' hU _ h => (step_summary hU h).2.2
  rw [Run.always_iff_along HaveUsers init_haveUsers (by simp [HitsOk, init])
    (fun s e s' => hitsOk_step) hkeep es, Run.along_iff_split]
  constructor
  · intro h pre id reply now post heq hsome hl
    obtain ⟨t', ht'⟩ := Option.isSome_iff_exists.mp hsome
    rw [Run.exec_append, Option.bind_eq_some_iff] at ht'
    obtain ⟨t, ht, hstep⟩ := ht'
    rw [← exec_lastAction ht]
    exact h pre _ post heq t t' ht (by simpa [Run.exec_cons] using hstep) id reply now rfl hl
  · rintro h pre _ post heq t t' ht hstep id reply now rfl hl
    rw [exec_lastAction ht]
    refine h pre id reply now post heq ?_ hl
    rw [Run.exec_snoc ht, hstep]
    rfl

/-- A scan while no action is set: its listing finds none. -/
theorem hit_without_action :
    ∃ s, Run.exec (step ⟨Char.toLower, fun _ => ""⟩) init
      [.config ["rbl.efnetrbl.org".toList],
        .connect "eve".toList "eve".toList "example.net".toList (some "192.0.2.7".toList) false,
        .scan (some "eve".toList), .reply 2 (some ⟨true, 127⟩) 0] = some s ∧ none ∈ s.hits ∧ ¬ HitsOk s := by
  refine ⟨_, rfl, by decide, fun h => ?_⟩
  obtain ⟨act, hact, -⟩ := h none (by decide)
  cases hact

end Dnsbl
end AthemeContrib
