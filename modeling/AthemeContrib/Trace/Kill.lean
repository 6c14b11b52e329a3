/-
# os_trace: TRACE KILL and what is left to read

The criteria are evaluated on what the network is when the user's turn comes,
and a killed user is read once more, for the message that it has been killed.
So the first user that is killed is the last: `TRACE KILL` does what it should
exactly if there is no user for it to kill (`trace_kill_iff`).

Key definitions: `killable`, `KillsExactly`.
Key theorems: `compile_live`, `runUsers_kill`, `trace_kill_iff`.
-/
import AthemeContrib.Trace.Meaning

namespace AthemeContrib
namespace Trace

open CStr

variable {sv : Services} {s : State} {saved : CStr}

/-! ### Criteria that have been parsed -/

/-- A criterion that has just been prepared follows no stale pointer. -/
theorem prepare_live {cons : QueryConstructor} {a : CStr} {q : Query} {args : Option CStr} {saved' : CStr}
    (h : cons.prepare sv s a saved = .made q args saved') : Live s q := by
  intro ch hq
  rw [hq] at h
  cases cons with
  | channel =>
    simp only [QueryConstructor.prepare, traceChannelPrepare, Prepared.made.injEq, Query.channel.injEq] at h
    obtain ⟨name, -, hfind⟩ := Option.bind_eq_some_iff.mp h.1
    exact channelFind_live hfind
  | regexp =>
    simp only [QueryConstructor.prepare, traceRegexpPrepare] at h
    split at h <;> cases h
  | server => simp [QueryConstructor.prepare, traceServerPrepare] at h
  | glob => simp [QueryConstructor.prepare, traceGlobPrepare] at h
  | nickage =>
    simp only [QueryConstructor.prepare, traceNickagePrepare] at h
    split at h <;> cases h
  | numchan =>
    simp only [QueryConstructor.prepare, traceNumchanPrepare] at h
    split at h <;> cases h
  | identified =>
    simp only [QueryConstructor.prepare, traceIdentifiedPrepare] at h
    split at h
    · cases h
    · split_ifs at h <;> cases h

theorem compile_live : ∀ {n : ℕ} {args : Option CStr} {saved : CStr} {crit : List Query},
    (∀ q ∈ crit, Live s q) → ∀ q ∈ (compile sv s n args saved crit).crit, Live s q
  | 0, _, _, _, h => h
  | n + 1, args, saved, crit, h => by
    unfold compile
    split
    · exact h
    · split
      · exact h
      · split
        · exact h
        · split
          · exact h
          · exact h
          · rename_i hmade
            refine compile_live fun q hq => ?_
            rcases List.mem_append.mp hq with hq | hq
            · exact h q hq
            · rw [List.mem_singleton.mp hq]
              exact prepare_live hmade

/-! ### The users -/

/-- No internal client, IRC operator or services operator. -/
def killable (u : User) : Bool := !u.internal && !u.ircop && !(u.identified && u.soper)

theorem traceKillExec_spared {reason : CStr} {u : User} (h : killable u = false) (s : State) :
    traceKillExec sv reason u s = s := by
  unfold traceKillExec
  unfold killable at h
  cases hi : u.internal with
  | true => rw [if_pos rfl]
  | false =>
    cases ho : u.ircop with
    | true => rw [if_neg (by simp), if_pos rfl]
    | false =>
      have hsoper : (u.identified && u.soper) = true := by simpa [hi, ho] using h
      rw [if_neg (by simp), if_neg (by simp), if_pos hsoper]

theorem traceKillExec_killed (hop : sv.operserv = true) {reason : CStr} {u : User} (h : killable u = true)
    (s : State) : (traceKillExec sv reason u s).crashed = true := by
  simp only [killable, Bool.and_eq_true, Bool.not_eq_true'] at h
  obtain ⟨⟨hi, ho⟩, hsoper⟩ := h
  have hgone : (({ s with matched := true } : State).killUser u.id reason).user? u.id = none := by
    rw [State.user?, List.find?_eq_none]
    intro v hv
    simpa [State.killUser] using (List.mem_filter.mp hv).2
  unfold traceKillExec
  rw [if_neg (by simp [hi]), if_neg (by simp [ho]), if_neg (by simp [hsoper]), if_neg (by simp [hop])]
  simp only [hgone]
  rfl

/-- Once a stale pointer has been followed nothing happens any more. -/
theorem runUsers_crashed (act : Action) (us : List User) (h : s.crashed = true) :
    runUsers sv act us s = s := by
  cases us with
  | nil => rfl
  | cons u us => rw [runUsers, if_pos h]

/-- One of the users meets the criteria and may be killed. -/
def HasVictim (sv : Services) (s : State) (crit : List Query) (us : List User) : Prop :=
  ∃ u ∈ us, killable u = true ∧ meets sv s crit u = true

theorem hasVictim_cons {crit : List Query} {u : User} {us : List User} : HasVictim sv s crit (u :: us) ↔
    (killable u = true ∧ meets sv s crit u = true) ∨ HasVictim sv s crit us := by
  simp [HasVictim]

theorem runUsers_round (act : Action) {u : User} (us : List User) (hc : s.crashed = false)
    (hlive : ∀ q ∈ s.crit, Live s q) : runUsers sv act (u :: us) s =
      if meets sv s s.crit u = true then runUsers sv act us (touch sv act s u) else runUsers sv act us s := by
  rw [runUsers, if_neg (by simp [hc]), satisfies_meets hlive u]
  cases meets sv s s.crit u <;> rfl

/-- **The loop over the users.** It follows a stale pointer if one of the users
that meet the criteria may be killed, and kills nobody if none may. -/
theorem runUsers_kill (hop : sv.operserv = true) (reason : CStr) : ∀ {us : List User} {s : State},
    s.crashed = false → (∀ q ∈ s.crit, Live s q) →
    (HasVictim sv s s.crit us → (runUsers sv (.kill reason) us s).crashed = true) ∧
    (¬ HasVictim sv s s.crit us → (runUsers sv (.kill reason) us s).crashed = false ∧
      (runUsers sv (.kill reason) us s).kills = s.kills)
  | [], s, hc, _ => by
    refine ⟨?_, fun _ => ⟨hc, rfl⟩⟩
    rintro ⟨u, hu, -⟩
    cases hu
  | u :: us, s, hc, hlive => by
    rw [runUsers_round _ us hc hlive, hasVictim_cons]
    have ih : (HasVictim sv s s.crit us → (runUsers sv (.kill reason) us s).crashed = true) ∧ _ :=
      runUsers_kill hop reason hc hlive
    cases hm : meets sv s s.crit u with
    | false =>
      rw [if_neg (by simp), or_iff_right (by simp)]
      exact ih
    | true =>
      rw [if_pos rfl]
      cases hk : killable u with
      | true =>
        have hdead : (touch sv (.kill reason) s u).crashed = true := traceKillExec_killed hop hk _
        refine ⟨fun _ => ?_, fun h => absurd (Or.inl ⟨rfl, rfl⟩) h⟩
        rw [runUsers_crashed _ _ hdead]
        exact hdead
      | false =>
        have hsame : touch sv (.kill reason) s u = { s with touched := s.touched ++ [u.id] } :=
          traceKillExec_spared hk _
        have hmeets : meets sv { s with touched := s.touched ++ [u.id] } s.crit = meets sv s s.crit :=
          Looks.meets (s := s) ⟨rfl, rfl, rfl, rfl⟩
        have hvictim : HasVictim sv { s with touched := s.touched ++ [u.id] } s.crit us ↔
            HasVictim sv s s.crit us := by rw [HasVictim, hmeets]; rfl
        have ih' : (HasVictim sv { s with touched := s.touched ++ [u.id] } s.crit us →
            (runUsers sv (.kill reason) us { s with touched := s.touched ++ [u.id] }).crashed = true) ∧ _ :=
          runUsers_kill hop reason hc hlive
        rw [hsame, or_iff_right (by simp), ← hvictim]
        exact ih'

/-! ### The command -/

/-- All users that met the criteria when the command was issued and may be
killed have been killed, each once, and no stale pointer has been followed. -/
structure KillsExactly (sv : Services) (s : State) (crit : List Query) (reason : CStr) (run : State) :
    Prop where
  safe : run.crashed = false
  kills : run.kills = (s.users.filter fun u => meets sv s crit u && killable u).map fun u => (u.id, reason)

/-- **TRACE KILL kills whom it should, and reads nothing that is gone**,
exactly if there is nobody to kill. -/
theorem trace_kill_iff {sv : Services} (hop : sv.operserv = true) (users : List User)
    (channels : List Channel) (klines : List Kline) (reason args saved : CStr) {crit : List Query}
    (hparsed : compile sv (.begin users channels klines) (args.length + 1) (some args) saved [] = .all crit) :
    KillsExactly sv (.begin users channels klines) crit reason
        (osCmdTraceRun sv (.kill reason) (some args) saved (.begin users channels klines)).1 ↔
      ∀ u ∈ users, meets sv (.begin users channels klines) crit u = true → killable u = false := by
  generalize hs : State.begin users channels klines = s at hparsed ⊢
  have hlive : ∀ q ∈ crit, Live s q := by
    have h : ∀ q ∈ (compile sv s (args.length + 1) (some args) saved []).crit, Live s q :=
      compile_live fun q hq => by cases hq
    rwa [hparsed] at h
  have hc : s.crashed = false := hs ▸ rfl
  have hkills : s.kills = [] := hs ▸ rfl
  have husers : s.users = users := hs ▸ rfl
  have hrun : (osCmdTraceRun sv (.kill reason) (some args) saved s).1 =
      runUsers sv (.kill reason) s.users { s with crit := crit } := by
    simp only [osCmdTraceRun, hparsed, runCompiled]
  obtain ⟨hdead, hspared⟩ : (HasVictim sv { s with crit := crit } crit s.users → _ = true) ∧ _ :=
    runUsers_kill hop reason (s := { s with crit := crit }) hc hlive
  rw [hrun, ← husers]
  rw [HasVictim, meets_crit] at hdead hspared
  constructor
  · rintro ⟨hsafe, -⟩ u hu hm
    by_contra hk
    rw [hdead ⟨u, hu, by simpa using hk, hm⟩] at hsafe
    cases hsafe
  · intro h
    have hno : ¬ ∃ u ∈ s.users, killable u = true ∧ meets sv s crit u = true := by
      intro hvictim
      obtain ⟨u, hu, hk, hm⟩ := hvictim
      rw [h u hu hm] at hk
      cases hk
    obtain ⟨hsafe, hnone⟩ := hspared hno
    have hnobody : s.users.filter (fun u => meets sv s crit u && killable u) = [] := by
      rw [List.filter_eq_nil_iff]
      intro u hu hboth
      rw [Bool.and_eq_true] at hboth
      exact hno ⟨u, hu, hboth.2, hboth.1⟩
    exact ⟨hsafe, by rw [hnone, hnobody, List.map_nil]; exact hkills⟩

theorem trace_kill_oper : compile onlyOperserv (.begin [{ stranger 1 with ircop := true }] [] []) 10
      (some "NUMCHAN 0".toList) [] [] = .all [.numchan 0 .eq] ∧
    (KillsExactly onlyOperserv (.begin [{ stranger 1 with ircop := true }] [] []) [.numchan 0 .eq]
        "spam".toList
        (osCmdTraceRun onlyOperserv (.kill "spam".toList) (some "NUMCHAN 0".toList) []
          (.begin [{ stranger 1 with ircop := true }] [] [])).1 ↔
      ∀ u ∈ [{ stranger 1 with ircop := true }],
        meets onlyOperserv (.begin [{ stranger 1 with ircop := true }] [] []) [.numchan 0 .eq] u = true →
          killable u = false) :=
  ⟨by decide, trace_kill_iff rfl _ _ _ _ _ _ (by decide)⟩

/-- `TRACE KILL spam NUMCHAN 0`, and a user in no channel: it is killed, and
its nick is read after that. -/
theorem killed_user_read : ∃ run,
    (osCmdTraceRun onlyOperserv (.kill "spam".toList) (some "NUMCHAN 0".toList) []
      (.begin [stranger 1] [] [])).1 = run ∧
    compile onlyOperserv (.begin [stranger 1] [] []) 10 (some "NUMCHAN 0".toList) [] [] =
      .all [.numchan 0 .eq] ∧
    run.kills = [(1, "spam".toList)] ∧ run.users = [] ∧ run.crashed = true ∧
    ¬ KillsExactly onlyOperserv (.begin [stranger 1] [] []) [.numchan 0 .eq] "spam".toList run :=
  ⟨_, rfl, by decide, by decide, by decide, by decide, fun h => absurd h.safe (by decide)⟩

end Trace
end AthemeContrib
