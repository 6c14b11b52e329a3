/-
# os_trace: no action without a criterion

`TRACE` is to act on users only after at least one criterion has been
prepared, and to report a failure when there is none (`Guarded`). It looks for
a missing argument string only, and takes a word after a criterion's name to
be there if any character is. So a string of blanks has no criterion and no
failure, and the action is executed on every user; and a value of blanks is a
null token for the three criteria that read it at once (`Bare`).

Key definitions: `Guarded`, `BlankOperand`, `Bare`.
Key theorems: `compile_ends`, `compile_first`, `trace_guarded_iff`.
-/
import AthemeContrib.Trace.Params

namespace AthemeContrib
namespace Trace

open CStr

variable {sv : Services} {s : State} {saved : CStr}

/-- No user is touched without a criterion, and then a failure is reported. -/
structure Guarded (s : State) : Prop where
  armed : s.touched ≠ [] → s.crit ≠ []
  reported : s.crit = [] → (∃ code text, .fail code text ∈ s.out) ∧ s.touched = []

/-- The criteria that read their value without looking whether it is there. -/
def takesOperand : QueryConstructor → Bool
  | .nickage => true
  | .numchan => true
  | .identified => true
  | _ => false

/-- The first criterion is one of them, and only blanks follow the blank after
its name. -/
def BlankOperand (rest : CStr) : Prop :=
  ∃ b w b' cons, rest = b ++ w ++ ' ' :: b' ∧ Blank b ∧ w ≠ [] ∧ ' ' ∉ w ∧
    retrieve traceCmdtree w = some cons ∧ takesOperand cons = true ∧ Blank b' ∧ b' ≠ []

/-- The string is no criterion, and `TRACE` does not see it. -/
def Bare (rest : CStr) : Prop := Blank rest ∨ BlankOperand rest

/-! ### The criteria -/

/-- The criteria that have been added when the loop ends. -/
def Compiled.crit : Compiled → List Query
  | .all crit => crit
  | .invalid crit => crit
  | .crash crit => crit
  | .endless crit => crit

/-- Criteria are only added. -/
theorem compile_prefix : ∀ {n : ℕ} {args : Option CStr} {saved : CStr} {crit : List Query},
    crit <+: (compile sv s n args saved crit).crit
  | 0, _, _, crit => List.prefix_refl crit
  | n + 1, args, saved, crit => by
    unfold compile
    split
    · exact List.prefix_refl crit
    · split
      · exact List.prefix_refl crit
      · split
        · exact List.prefix_refl crit
        · split
          · exact List.prefix_refl crit
          · exact List.prefix_refl crit
          · exact (List.prefix_append crit _).trans compile_prefix

/-- A criterion leaves no more than it was given. -/
theorem prepare_made_le {cons : QueryConstructor} {a : CStr} {q : Query} {args : Option CStr} {saved' : CStr}
    (h : cons.prepare sv s a saved = .made q args saved') : (args.getD saved').length ≤ a.length := by
  rcases hx : strtok none [' '] a with ⟨w, t⟩
  rcases hy : strtok none [] t with ⟨args', t'⟩
  have hle : t.length ≤ a.length := by
    have := strtok_snd_le [' '] a
    rwa [hx] at this
  have hrest : args'.getD t' = t := by
    have := strtok_rest_getD t
    rwa [hy] at this
  cases cons with
  | regexp =>
    simp only [QueryConstructor.prepare, traceRegexpPrepare] at h
    split at h
    · cases h
      exact Nat.le_refl _
    · cases h
      show (a.drop _).length ≤ a.length
      rw [List.length_drop]
      omega
  | server =>
    simp only [QueryConstructor.prepare, traceServerPrepare, strtok_some, hx, hy] at h
    cases h
    rwa [hrest]
  | glob =>
    simp only [QueryConstructor.prepare, traceGlobPrepare, strtok_some, hx, hy] at h
    cases h
    rwa [hrest]
  | channel =>
    simp only [QueryConstructor.prepare, traceChannelPrepare, strtok_some, hx, hy] at h
    cases h
    rwa [hrest]
  | nickage =>
    simp only [QueryConstructor.prepare, traceNickagePrepare, strtok_some, hx] at h
    rcases w with _ | w
    · cases h
    · simp only [hy] at h
      cases h
      rwa [hrest]
  | numchan =>
    simp only [QueryConstructor.prepare, traceNumchanPrepare, strtok_some, hx] at h
    rcases w with _ | w
    · cases h
    · simp only [hy] at h
      cases h
      rwa [hrest]
  | identified =>
    simp only [QueryConstructor.prepare, traceIdentifiedPrepare, strtok_some, hx] at h
    rcases w with _ | w
    · cases h
    · simp only [hy] at h
      split_ifs at h
      · cases h
        rwa [hrest]
      · cases h
        rwa [hrest]

/-- **The loop over the criteria ends**, within as many passes as there are
characters left, and one. -/
theorem compile_ends : ∀ {n : ℕ} {args : Option CStr} {saved : CStr} {crit : List Query},
    (args.getD saved).length < n → ∀ crit', compile sv s n args saved crit ≠ .endless crit'
  | 0, _, _, _, h => absurd h (Nat.not_lt_zero _)
  | n + 1, args, saved, crit, h => by
    intro crit'
    unfold compile
    rw [strtok_getD]
    rcases hw : strtok none [' '] (args.getD saved) with ⟨_ | w, t⟩
    · simp
    · simp only
      have hlt := strtok_lt hw
      split
      · simp
      · rename_i cons _
        by_cases ht : t = []
        · rw [ht]
          simp
        · rw [strtok_rest ht]
          simp only
          split
          · simp
          · simp
          · rename_i q args' saved' hp
            have hle := prepare_made_le hp
            exact compile_ends (by omega) crit'

/-- A criterion follows a null token exactly if it reads its value and there
is none. -/
theorem prepare_crash_iff {cons : QueryConstructor} {a : CStr} :
    cons.prepare sv s a saved = .crash ↔ takesOperand cons = true ∧ Blank a := by
  rcases hx : strtok none [' '] a with ⟨w, t⟩
  have hblank : w = none ↔ Blank a := by
    rw [← strtok_fst_eq_none, hx]
  rw [← hblank]
  cases cons with
  | regexp =>
    simp only [QueryConstructor.prepare, traceRegexpPrepare]
    split <;> simp [takesOperand]
  | server => simp [QueryConstructor.prepare, traceServerPrepare, takesOperand]
  | glob => simp [QueryConstructor.prepare, traceGlobPrepare, takesOperand]
  | channel => simp [QueryConstructor.prepare, traceChannelPrepare, takesOperand]
  | nickage =>
    simp only [QueryConstructor.prepare, traceNickagePrepare, strtok_some, hx, takesOperand, true_and]
    rcases w with _ | w <;> simp
  | numchan =>
    simp only [QueryConstructor.prepare, traceNumchanPrepare, strtok_some, hx, takesOperand, true_and]
    rcases w with _ | w <;> simp
  | identified =>
    simp only [QueryConstructor.prepare, traceIdentifiedPrepare, strtok_some, hx, takesOperand, true_and]
    rcases w with _ | w
    · simp
    · simp only [reduceCtorEq, iff_false]
      split_ifs <;> simp

theorem compile_blank {rest : CStr} (h : Blank rest) (n : ℕ) :
    compile sv s (n + 1) (some rest) saved [] = .all [] := by
  rw [compile, strtok_some, strtok_blank h]

theorem compile_operand {rest : CStr} (h : BlankOperand rest) (n : ℕ) :
    compile sv s (n + 1) (some rest) saved [] = .crash [] := by
  obtain ⟨b, w, b', cons, rfl, hb, h0, hw, hcons, hop, hb', h0'⟩ := h
  rw [compile, strtok_some, strtok_first hb h0 hw]
  simp only [hcons, strtok_rest h0', prepare_crash_iff.mpr ⟨hop, hb'⟩]

/-- A string that is not bare fails at once, or has a first criterion. -/
theorem compile_first {rest : CStr} (h : ¬ Bare rest) (n : ℕ) :
    compile sv s (n + 1) (some rest) saved [] = .invalid [] ∨
      (compile sv s (n + 1) (some rest) saved []).crit ≠ [] := by
  rcases exists_word rest with hb | ⟨b, w, hb, h0, hw, hs⟩
  · exact absurd (Or.inl hb) h
  · rw [compile, strtok_some]
    rcases hs with rfl | ⟨t, rfl⟩
    · rw [strtok_only hb h0 hw]
      simp only [strtok_nil]
      split <;> exact Or.inl rfl
    · rw [strtok_first hb h0 hw]
      simp only
      split
      · exact Or.inl rfl
      · rename_i cons hcons
        by_cases ht : t = []
        · rw [ht]
          exact Or.inl rfl
        · rw [strtok_rest ht]
          simp only
          split
          · rename_i hcrash
            obtain ⟨hop, hbt⟩ := prepare_crash_iff.mp hcrash
            exact absurd (Or.inr ⟨b, w, t, cons, rfl, hb, h0, hw, hcons, hop, hbt, ht⟩) h
          · exact Or.inl rfl
          · right
            rename_i q args' saved' _
            have hpre : [q] <+: (compile sv s n args' saved' ([] ++ [q])).crit := compile_prefix
            intro h0
            rw [h0] at hpre
            exact absurd (List.prefix_nil.mp hpre) (List.cons_ne_nil q [])

/-! ### The users -/

/-- Only successes have been sent. -/
def Praised (s : State) : Prop := ∀ o ∈ s.out, ∃ text, o = .success text

theorem Praised.send (h : Praised s) (text : String) : Praised (s.send [.success text]) := by
  intro o ho
  rcases List.mem_append.mp ho with ho | ho
  · exact h o ho
  · exact ⟨text, List.mem_singleton.mp ho⟩

/-- From `s` to `s'` no failure is sent, and the criteria stay, those that are cleaned up
too. -/
structure Keeps (s s' : State) : Prop where
  praised : Praised s → Praised s'
  crit : s'.crit = s.crit
  cleaned : s'.cleaned = s.cleaned

theorem Keeps.refl (s : State) : Keeps s s := ⟨id, rfl, rfl⟩

theorem Keeps.trans {a b c : State} (h : Keeps a b) (h' : Keeps b c) : Keeps a c :=
  ⟨fun hp => h'.praised (h.praised hp), h'.crit.trans h.crit, h'.cleaned.trans h.cleaned⟩

theorem keeps_of_eq {s' : State} (ho : s'.out = s.out) (hc : s'.crit = s.crit) (hd : s'.cleaned = s.cleaned) :
    Keeps s s' := ⟨fun hp => by rwa [Praised, ho], hc, hd⟩

theorem Keeps.send {s' : State} (h : Keeps s s') (text : String) : Keeps s (s'.send [.success text]) :=
  h.trans ⟨fun hp => hp.send text, rfl, rfl⟩

theorem keeps_exec (act : Action) (u : User) : Keeps s (act.exec sv u s) := by
  cases act with
  | print =>
    simp only [Action.exec, tracePrintExec]
    split
    · exact .refl s
    · refine Keeps.send ?_ _
      exact keeps_of_eq rfl rfl rfl
  | kill reason =>
    simp only [Action.exec, traceKillExec]
    split_ifs
    · exact .refl s
    · exact .refl s
    · exact .refl s
    · exact .refl s
    · split
      · exact keeps_of_eq rfl rfl rfl
      · refine Keeps.send ?_ _
        exact keeps_of_eq rfl rfl rfl
  | akill duration reason =>
    simp only [Action.exec, traceAkillExec]
    split_ifs
    · exact .refl s
    · exact .refl s
    · exact .refl s
    · exact .refl s
    · exact .refl s
    · exact .refl s
    · refine Keeps.send ?_ _
      exact keeps_of_eq rfl rfl rfl
  | count =>
    simp only [Action.exec, traceCountExec]
    split
    · exact .refl s
    · exact keeps_of_eq rfl rfl rfl

theorem keeps_runUsers (act : Action) : ∀ {us : List User} {s : State}, Keeps s (runUsers sv act us s)
  | [], s => .refl s
  | u :: us, s => by
    unfold runUsers
    split
    · exact .refl s
    · split
      · exact keeps_of_eq rfl rfl rfl
      · exact keeps_runUsers act
      · have htouch : Keeps s { s with touched := s.touched ++ [u.id] } := keeps_of_eq rfl rfl rfl
        exact (htouch.trans (keeps_exec act u)).trans (keeps_runUsers act)

theorem cleanup_foldl : ∀ (crit : List Query) (s : State),
    crit.foldl (fun s q => q.cleanup s) s = { s with cleaned := s.cleaned ++ crit }
  | [], s => by simp
  | q :: crit, s => by
    rw [List.foldl_cons, cleanup_foldl crit]
    simp [Query.cleanup]

/-- All the criteria are cleaned up. -/
theorem finish_eq (act : Action) (run : State × Bool) : finish act run =
    if run.1.crashed then run.1
    else act.cleanup run.2 { run.1 with cleaned := run.1.cleaned ++ run.1.crit } := by
  rw [finish, cleanup_foldl]

theorem keeps_cleanup (act : Action) (succeeded : Bool) : Keeps s (act.cleanup succeeded s) := by
  have hno : Keeps s (noMatches succeeded s) := by
    unfold noMatches
    split
    · exact (Keeps.refl s).send _
    · exact .refl s
  cases act with
  | count =>
    simp only [Action.cleanup]
    split
    · exact (Keeps.refl s).send _
    · exact .refl s
  | _ => exact hno

theorem Praised.finish {act : Action} {run : State × Bool} (h : Praised run.1) : Praised (finish act run) := by
  rw [finish_eq]
  split
  · exact h
  · have hclean : Praised { run.1 with cleaned := run.1.cleaned ++ run.1.crit } := h
    exact (keeps_cleanup act run.2).praised hclean

theorem finish_crit (act : Action) (run : State × Bool) : (finish act run).crit = run.1.crit := by
  rw [finish_eq]
  split
  · rfl
  · exact (keeps_cleanup act run.2).crit

/-- What has been prepared is cleaned up, once, unless the command crashes. -/
theorem finish_cleaned {act : Action} {run : State × Bool} (h : (finish act run).crashed = false)
    (h0 : run.1.cleaned = []) : (finish act run).cleaned = (finish act run).crit := by
  rw [finish_eq] at h ⊢
  split at h
  · rename_i hc
    rw [hc] at h
    cases h
  · rename_i hc
    rw [if_neg hc, (keeps_cleanup act run.2).cleaned, (keeps_cleanup act run.2).crit, h0, List.nil_append]

/-! ### The command -/

theorem guarded_of_fail {code : Fault} {text : String} (ht : s.touched = []) (h : .fail code text ∈ s.out) :
    Guarded s := ⟨fun h' => absurd ht h', fun _ => ⟨⟨code, text, h⟩, ht⟩⟩

/-- After a failure nothing is sent. -/
theorem guarded_finish (act : Action) {code : Fault} {text : String} (hc : s.crashed = false)
    (ht : s.touched = []) (h : .fail code text ∈ s.out) : Guarded (finish act (s, false)) := by
  have hfin : finish act (s, false) = { s with cleaned := s.cleaned ++ s.crit } := by
    rw [finish_eq, if_neg (by simp [hc])]
    cases act <;> simp [Action.cleanup, noMatches]
  rw [hfin]
  exact guarded_of_fail ht h

theorem guarded_of_crit (h : s.crit ≠ []) : Guarded s := ⟨fun _ => h, fun h' => absurd h' h⟩

theorem Praised.not_guarded (h : Praised s) (hc : s.crit = []) : ¬ Guarded s := by
  intro hg
  obtain ⟨⟨code, text, hmem⟩, -⟩ := hg.reported hc
  obtain ⟨text', he⟩ := h _ hmem
  cases he

theorem cleaned_run (act : Action) (c : Compiled) : (runCompiled sv act s c).1.cleaned = s.cleaned := by
  cases c with
  | all crit => exact (keeps_runUsers act).cleaned
  | _ => rfl

theorem crit_run (act : Action) (c : Compiled) : (finish act (runCompiled sv act s c)).crit = c.crit := by
  rw [finish_crit]
  cases c with
  | all crit => exact (keeps_runUsers act).crit
  | _ => rfl

/-- `TRACE` after the action has been compiled. -/
theorem run_guarded_iff (act : Action) {rest : CStr} (ht : s.touched = []) (hp : Praised s)
    (hc : s.crashed = false) :
    Guarded (finish act (osCmdTraceRun sv act (some rest) saved s)) ↔ ¬ Bare rest := by
  simp only [osCmdTraceRun]
  by_cases hbare : Bare rest
  · refine iff_of_false ?_ (not_not_intro hbare)
    refine Praised.not_guarded (Praised.finish ?_) ?_
    · rcases hbare with hb | ho
      · rw [compile_blank hb]
        have hcrit : Praised { s with crit := [] } := hp
        exact (keeps_runUsers act).praised hcrit
      · rw [compile_operand ho]
        exact hp
    · rw [crit_run]
      rcases hbare with hb | ho
      · rw [compile_blank hb]
        rfl
      · rw [compile_operand ho]
        rfl
  · refine iff_of_true ?_ hbare
    have hfirst : compile sv s (rest.length + 1) (some rest) saved [] = .invalid [] ∨
        (compile sv s (rest.length + 1) (some rest) saved []).crit ≠ [] := compile_first hbare rest.length
    rcases hfirst with hinv | hcrit
    · rw [hinv]
      exact guarded_finish act hc ht (List.mem_append_right _ (List.mem_singleton.mpr rfl))
    · apply guarded_of_crit
      rw [crit_run]
      exact hcrit

/-- No action follows a null token. -/
theorem prepareAction_ne_crash {cons : ActionConstructor} {args : Option CStr} :
    cons.prepare sv args saved ≠ .crash := by
  have hreason : ∀ {d : ℤ} {a saved : CStr}, akillReason d a saved ≠ .crash := by
    intro d a saved
    unfold akillReason
    split <;> simp
  have htimed : ∀ {a : CStr}, akillTimed a saved ≠ .crash := by
    intro a
    unfold akillTimed
    rw [strtok_some]
    rcases hst : strtok none [' '] a with ⟨_ | d, u⟩
    · rw [strtok_none hst]
      simp
    · simp only
      split
      · simp
      · split_ifs
        · simp
        · exact hreason
  cases cons with
  | print => simp [ActionConstructor.prepare]
  | count => simp [ActionConstructor.prepare]
  | kill =>
    simp only [ActionConstructor.prepare, traceKillPrepare]
    split
    · simp
    · split <;> simp
  | akill =>
    simp only [ActionConstructor.prepare, traceAkillPrepare]
    split
    · simp
    · split
      · exact htimed
      · exact hreason
      · exact hreason

/-- **TRACE acts only on a criterion, and fails without one, exactly if what
the action leaves of the argument string is not bare.** -/
theorem trace_guarded_iff (sv : Services) (users : List User) (channels : List Channel) (klines : List Kline)
    (action args : Option CStr) (saved : CStr) :
    Guarded (osCmdTrace sv action args saved (.begin users channels klines)) ↔
      ¬ ∃ cons str rest, action.bind (retrieve traceActtree) = some cons ∧ args = some str ∧
        OwnParams cons str rest ∧ Bare rest := by
  have hpraised : Praised (.begin users channels klines) := fun o ho => by cases ho
  unfold osCmdTrace
  cases hact : action.bind (retrieve traceActtree) with
  | none =>
    apply iff_of_true (guarded_of_fail rfl (List.mem_append_right _ (List.mem_cons_self ..)))
    rintro ⟨cons, str, rest, he, -⟩
    cases he
  | some cons =>
    simp only
    have hbare : (∃ cons' str rest, some cons = some cons' ∧ args = some str ∧
        OwnParams cons' str rest ∧ Bare rest) ↔
        ∃ rest, Leaves (cons.prepare sv args saved) rest ∧ Bare rest := by
      constructor
      · rintro ⟨cons', str, rest, he, rfl, hown, hb⟩
        cases he
        exact ⟨rest, prepare_iff.mpr hown, hb⟩
      · intro ⟨rest, hl, hb⟩
        cases args with
        | none =>
          obtain ⟨act, saved', h⟩ := hl
          cases cons <;> cases h
        | some str => exact ⟨cons, str, rest, rfl, rfl, prepare_iff.mp hl, hb⟩
    rw [hbare]
    have hone : ∀ {p : Prepared Action} {rest : CStr}, Leaves p rest →
        ∃ act saved', p = .made act (some rest) saved' := id
    rcases hp : cons.prepare sv args saved with _ | _ | ⟨act, _ | rest, saved'⟩
    · exact absurd hp prepareAction_ne_crash
    · apply iff_of_true (guarded_of_fail rfl (List.mem_append_right _ (List.mem_singleton.mpr rfl)))
      rintro ⟨rest, hl, -⟩
      obtain ⟨act, saved', h⟩ := hone hl
      cases h
    · apply iff_of_true (guarded_finish act rfl rfl (List.mem_append_right _ (List.mem_cons_self ..)))
      rintro ⟨rest, hl, -⟩
      obtain ⟨act, saved', h⟩ := hone hl
      cases h
    · refine (run_guarded_iff act rfl hpraised rfl).trans (not_congr ?_)
      constructor
      · exact fun hb => ⟨rest, ⟨act, saved', rfl⟩, hb⟩
      · intro ⟨rest', hl, hb⟩
        obtain ⟨act', saved'', h⟩ := hone hl
        cases h
        exact hb

/-- A core that knows OperServ and nothing else. -/
def onlyOperserv : Services where
  lower := Char.toLower
  strftime := fun _ => ""
  serverFind := fun _ => none
  serverName := fun _ => []
  matchMask := fun _ _ => false
  matchIps := fun _ _ => false
  regexExtract := fun _ => none
  regexCreate := fun _ _ => none
  klineFind := fun _ _ _ => false
  klineTime := 3600
  vhost := none
  operserv := true
  storageOperName := []
  now := 0

/-- `TRACE KILL spam` with two blanks behind it: the user is killed. -/
theorem trace_kills_everybody : ∃ s,
    osCmdTrace onlyOperserv (some "KILL".toList) (some "spam  ".toList) []
      (.begin [⟨1, ['a'], ['b'], ['c'], [], 0, 0, false, false, false, false⟩] [] []) = s ∧
    s.kills = [(1, "spam".toList)] ∧ s.users = [] ∧ s.crit = [] ∧ ¬ Guarded s :=
  ⟨_, rfl, by decide, by decide, by decide, fun h => h.armed (by decide) (by decide)⟩

end Trace
end AthemeContrib
