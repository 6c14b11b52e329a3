/-
# os_trace: where the parsing follows a null token

The loop over the criteria ends, whatever the string is. It takes a criterion's
name and looks whether anything is left after the blank behind it; that this
is a value is taken for granted. So a name that is followed by more blanks and
nothing else (`BlankValue`) goes wrong, wherever in the string the loop gets to
it (`Gets`): three criteria follow a null token, and the others are prepared
without a value and without a failure (`trace_total_iff`).

Key definitions: `FirstWord`, `Value`, `Gets`, `BlankValue`, `NoValue`,
`ParsesSafely`.
Key theorems: `prepare_value`, `compile_gets`, `compile_blankValue`,
`compile_crash`, `trace_total_iff`.
-/
import AthemeContrib.Trace.Meaning

namespace AthemeContrib
namespace Trace

open CStr

variable {sv : Services} {s : State} {saved : CStr}

/-! ### The grammar -/

/-- `v` is the first word of `a`, and `rest` comes after the blank behind it. -/
def FirstWord (a v rest : CStr) : Prop :=
  ∃ b t, a = b ++ (v ++ t) ∧ Blank b ∧ v ≠ [] ∧ ' ' ∉ v ∧ (t = [] ∧ rest = [] ∨ t = ' ' :: rest)

/-- `a` starts with a value that the criterion accepts, and `rest` is left. A
regular expression is as long as `regex_extract` says; what it does not
recognise is left as it is. -/
def Value (sv : Services) (cons : QueryConstructor) (a rest : CStr) : Prop :=
  match cons with
  | .regexp => ¬ Blank a ∧ rest = match sv.regexExtract a with
    | none => a
    | some (_, _, n) => a.drop n
  | .identified => ∃ v, FirstWord a v rest ∧
      (strcasecmp v "yes".toList = true ∨ strcasecmp v "no".toList = true)
  | _ => ∃ v, FirstWord a v rest

/-- After some criteria, names and values, `rest` is left of the string. -/
inductive Gets (sv : Services) : CStr → CStr → Prop
  | here {str : CStr} : Gets sv str str
  | pair {b w a rest rest' : CStr} {cons : QueryConstructor} (hb : Blank b) (h0 : w ≠ []) (hw : ' ' ∉ w)
      (hcons : retrieve traceCmdtree w = some cons) (hv : Value sv cons a rest) (h : Gets sv rest rest') :
      Gets sv (b ++ w ++ ' ' :: a) rest'

/-- The name of a criterion, a blank, and nothing but blanks, at least one,
after it. -/
def BlankValue (rest : CStr) : Prop :=
  ∃ b w b' cons, rest = b ++ w ++ ' ' :: b' ∧ Blank b ∧ w ≠ [] ∧ ' ' ∉ w ∧
    retrieve traceCmdtree w = some cons ∧ Blank b' ∧ b' ≠ []

/-- The name of a criterion, and no value: nothing follows it, or only
blanks. -/
def NoValue (rest : CStr) : Prop :=
  ∃ b w e cons, rest = b ++ w ++ e ∧ Blank b ∧ w ≠ [] ∧ ' ' ∉ w ∧
    retrieve traceCmdtree w = some cons ∧ Blank e

theorem firstWord_iff {a v rest : CStr} : FirstWord a v rest ↔ strtok none [' '] a = (some v, rest) := by
  constructor
  · rintro ⟨b, t, rfl, hb, h0, hv, ⟨rfl, rfl⟩ | rfl⟩
    · rw [List.append_nil]
      exact strtok_only hb h0 hv
    · rw [← List.append_assoc]
      exact strtok_first hb h0 hv rest
  · intro h
    rcases exists_word a with hb | ⟨b, w, hb, h0, hw, rfl | ⟨t, rfl⟩⟩
    · rw [strtok_blank hb] at h
      cases h
    · rw [strtok_only hb h0 hw] at h
      cases h
      exact ⟨b, [], by rw [List.append_nil], hb, h0, hw, Or.inl ⟨rfl, rfl⟩⟩
    · rw [strtok_first hb h0 hw] at h
      cases h
      exact ⟨b, ' ' :: rest, by rw [List.append_assoc], hb, h0, hw, Or.inr rfl⟩

theorem exists_firstWord {a : CStr} (h : ¬ Blank a) : ∃ v rest, FirstWord a v rest := by
  rcases hx : strtok none [' '] a with ⟨_ | v, rest⟩
  · exact absurd (strtok_fst_eq_none.mp (by rw [hx])) h
  · exact ⟨v, rest, firstWord_iff.mpr hx⟩

theorem FirstWord.not_blank {a v rest : CStr} (h : FirstWord a v rest) : ¬ Blank a := by
  intro hb
  have hword := firstWord_iff.mp h
  rw [strtok_blank hb] at hword
  cases hword

theorem Value.not_blank {cons : QueryConstructor} {a rest : CStr} (h : Value sv cons a rest) : ¬ Blank a := by
  cases cons with
  | regexp => exact h.1
  | identified =>
    obtain ⟨v, hv, -⟩ := h
    exact hv.not_blank
  | _ =>
    obtain ⟨v, hv⟩ := h
    exact hv.not_blank

/-! ### One criterion -/

theorem value_unique {cons : QueryConstructor} {a rest rest' : CStr} (h : Value sv cons a rest)
    (h' : Value sv cons a rest') : rest = rest' := by
  have hword : ∀ {v v' : CStr}, FirstWord a v rest → FirstWord a v' rest' → rest = rest' := by
    intro v v' hv hv'
    rw [firstWord_iff] at hv hv'
    rw [hv, Prod.mk.injEq] at hv'
    exact hv'.2
  cases cons with
  | regexp => exact h.2.trans h'.2.symm
  | identified =>
    obtain ⟨v, hv, -⟩ := h
    obtain ⟨v', hv', -⟩ := h'
    exact hword hv hv'
  | _ =>
    obtain ⟨v, hv⟩ := h
    obtain ⟨v', hv'⟩ := h'
    exact hword hv hv'

/-- **What `prepare` makes of a string that is not blank**: it takes a value
off it if one is there, and returns null if none is. -/
theorem prepare_value {cons : QueryConstructor} {a : CStr} (ha : ¬ Blank a) :
    (∃ q args saved', cons.prepare sv s a saved = .made q args saved' ∧ Value sv cons a (args.getD saved')) ∨
    (cons.prepare sv s a saved = .null ∧ ∀ rest, ¬ Value sv cons a rest) := by
  obtain ⟨v, rest, hv⟩ := exists_firstWord ha
  have hx := firstWord_iff.mp hv
  rcases hy : strtok none [] rest with ⟨args, saved'⟩
  have hrest : args.getD saved' = rest := by
    have := strtok_rest_getD rest
    rwa [hy] at this
  cases cons with
  | regexp =>
    left
    simp only [QueryConstructor.prepare, traceRegexpPrepare]
    cases hre : sv.regexExtract a with
    | none => exact ⟨_, _, _, rfl, ha, by simp only [hre, Option.getD_some]⟩
    | some r => exact ⟨_, _, _, rfl, ha, by simp only [hre, Option.getD_some]⟩
  | server =>
    left
    simp only [QueryConstructor.prepare, traceServerPrepare, strtok_some, hx, hy]
    exact ⟨_, _, _, rfl, v, by rwa [hrest]⟩
  | glob =>
    left
    simp only [QueryConstructor.prepare, traceGlobPrepare, strtok_some, hx, hy]
    exact ⟨_, _, _, rfl, v, by rwa [hrest]⟩
  | channel =>
    left
    simp only [QueryConstructor.prepare, traceChannelPrepare, strtok_some, hx, hy]
    exact ⟨_, _, _, rfl, v, by rwa [hrest]⟩
  | nickage =>
    left
    simp only [QueryConstructor.prepare, traceNickagePrepare, strtok_some, hx, hy]
    exact ⟨_, _, _, rfl, v, by rwa [hrest]⟩
  | numchan =>
    left
    simp only [QueryConstructor.prepare, traceNumchanPrepare, strtok_some, hx, hy]
    exact ⟨_, _, _, rfl, v, by rwa [hrest]⟩
  | identified =>
    simp only [QueryConstructor.prepare, traceIdentifiedPrepare, strtok_some, hx, hy]
    by_cases hyes : strcasecmp v "yes".toList = true
    · left
      rw [if_pos hyes]
      exact ⟨_, _, _, rfl, v, by rwa [hrest], Or.inl hyes⟩
    · rw [if_neg hyes]
      by_cases hno : strcasecmp v "no".toList = true
      · left
        rw [if_pos hno]
        exact ⟨_, _, _, rfl, v, by rwa [hrest], Or.inr hno⟩
      · right
        rw [if_neg hno]
        refine ⟨rfl, ?_⟩
        intro rest' hvalue
        obtain ⟨v', hv', hyesno⟩ := hvalue
        rw [firstWord_iff, hx, Prod.mk.injEq, Option.some.injEq] at hv'
        rw [← hv'.1] at hyesno
        exact hyesno.elim hyes hno

/-- The others are prepared without a value, and only blanks are left. -/
theorem prepare_blank {cons : QueryConstructor} {a : CStr} (ha : Blank a)
    (hcons : takesOperand cons = false) :
    ∃ q args saved', cons.prepare sv s a saved = .made q args saved' ∧ Blank (args.getD saved') := by
  have hx : strtok none [' '] a = (none, []) := strtok_blank ha
  have hy : strtok none [] [] = (none, []) := strtok_nil _
  cases cons with
  | regexp =>
    simp only [QueryConstructor.prepare, traceRegexpPrepare]
    cases sv.regexExtract a with
    | none => exact ⟨_, _, _, rfl, ha⟩
    | some r => exact ⟨_, _, _, rfl, fun c hc => ha c (List.mem_of_mem_drop hc)⟩
  | server =>
    simp only [QueryConstructor.prepare, traceServerPrepare, strtok_some, hx, hy]
    exact ⟨_, _, _, rfl, blank_nil⟩
  | glob =>
    simp only [QueryConstructor.prepare, traceGlobPrepare, strtok_some, hx, hy]
    exact ⟨_, _, _, rfl, blank_nil⟩
  | channel =>
    simp only [QueryConstructor.prepare, traceChannelPrepare, strtok_some, hx, hy]
    exact ⟨_, _, _, rfl, blank_nil⟩
  | nickage => cases hcons
  | numchan => cases hcons
  | identified => cases hcons

/-! ### The loop -/

/-- The loop at a criterion's name with something after it. -/
theorem compile_name {b w a : CStr} {cons : QueryConstructor} (hb : Blank b) (h0 : w ≠ []) (hw : ' ' ∉ w)
    (hcons : retrieve traceCmdtree w = some cons) (ha : a ≠ []) {args : Option CStr} {saved : CStr}
    (hstr : args.getD saved = b ++ w ++ ' ' :: a) (n : ℕ) (crit : List Query) :
    compile sv s (n + 1) args saved crit =
      match cons.prepare sv s a [] with
      | .crash => .crash crit
      | .null => .invalid crit
      | .made q args saved => compile sv s n args saved (crit ++ [q]) := by
  rw [compile, strtok_getD, hstr, strtok_first hb h0 hw]
  cases hprep : cons.prepare sv s a [] <;> simp only [hcons, strtok_rest ha, hprep]

/-- **The loop gets over the pairs** in front of `rest`. -/
theorem compile_gets {str rest : CStr} (h : Gets sv str rest) :
    ∀ {n : ℕ} {args : Option CStr} {saved : CStr} {crit : List Query}, args.getD saved = str →
      str.length < n → ∃ m args' saved' crit', args'.getD saved' = rest ∧ rest.length < m ∧
        compile sv s n args saved crit = compile sv s m args' saved' crit' := by
  induction h with
  | here => exact fun hstr hn => ⟨_, _, _, _, hstr, hn, rfl⟩
  | @pair b w a rest rest' cons hb h0 hw hcons hv _ ih =>
    intro n args saved crit hstr hn
    obtain ⟨m, rfl⟩ : ∃ m, n = m + 1 := ⟨n - 1, by omega⟩
    have ha : a ≠ [] := fun h => hv.not_blank (h ▸ blank_nil)
    have hprep : (∃ q args saved', cons.prepare sv s a [] = .made q args saved' ∧
        Value sv cons a (args.getD saved')) ∨ _ := prepare_value hv.not_blank
    rcases hprep with ⟨q, args', saved', hmade, hv'⟩ | ⟨-, hno⟩
    · have hleft : args'.getD saved' = rest := value_unique hv' hv
      have hle := prepare_made_le hmade
      rw [hleft] at hle
      simp only [List.length_append, List.length_cons] at hn
      have hloop : ∃ m' args'' saved'' crit'', _ ∧ _ ∧
          compile sv s m args' saved' (crit ++ [q]) = compile sv s m' args'' saved'' crit'' :=
        ih hleft (by omega : rest.length < m)
      obtain ⟨m', args'', saved'', crit'', hrest, hm', hrun⟩ := hloop
      refine ⟨m', args'', saved'', crit'', hrest, hm', ?_⟩
      rw [compile_name hb h0 hw hcons ha hstr]
      simp only [hmade]
      exact hrun
    · exact absurd hv (hno rest)

/-- At a name with blanks behind it the loop follows a null token, or it ends
as if nothing were wrong. -/
theorem compile_blankValue {rest : CStr} (h : BlankValue rest) {n : ℕ} {args : Option CStr} {saved : CStr}
    (hstr : args.getD saved = rest) (hn : rest.length < n) (crit : List Query) :
    ∃ crit', compile sv s n args saved crit = .crash crit' ∨ compile sv s n args saved crit = .all crit' := by
  obtain ⟨b, w, b', cons, rfl, hb, h0, hw, hcons, hb', h0'⟩ := h
  obtain ⟨m, rfl⟩ : ∃ m, n = m + 1 := ⟨n - 1, by omega⟩
  rw [compile_name hb h0 hw hcons h0' hstr]
  cases hop : takesOperand cons with
  | true =>
    simp only [prepare_crash_iff.mpr ⟨hop, hb'⟩]
    exact ⟨crit, Or.inl rfl⟩
  | false =>
    obtain ⟨q, args', saved', hmade, hleft⟩ :
        ∃ q args saved', cons.prepare sv s b' [] = .made q args saved' ∧ Blank (args.getD saved') :=
      prepare_blank hb' hop
    have hb0 : 0 < b'.length := List.length_pos_iff.mpr h0'
    simp only [List.length_append, List.length_cons] at hn
    obtain ⟨k, rfl⟩ : ∃ k, m = k + 1 := ⟨m - 1, by omega⟩
    simp only [hmade]
    rw [compile, strtok_getD, strtok_blank hleft]
    exact ⟨crit ++ [q], Or.inr rfl⟩

/-- At a name with nothing behind it but perhaps one blank it fails. -/
theorem compile_noValue {rest : CStr} (h : NoValue rest) (hblank : ¬ BlankValue rest) {n : ℕ}
    {args : Option CStr} {saved : CStr} (hstr : args.getD saved = rest) (hn : rest.length < n)
    (crit : List Query) : compile sv s n args saved crit = .invalid crit := by
  obtain ⟨b, w, e, cons, rfl, hb, h0, hw, hcons, he⟩ := h
  obtain ⟨m, rfl⟩ : ∃ m, n = m + 1 := ⟨n - 1, by omega⟩
  have hword : strtok none [' '] (b ++ w ++ e) = (some w, []) := by
    cases e with
    | nil =>
      rw [List.append_nil]
      exact strtok_only hb h0 hw
    | cons c e =>
      obtain rfl : c = ' ' := he c (by simp)
      cases e with
      | nil => exact strtok_first hb h0 hw []
      | cons d e =>
        refine absurd ⟨b, w, d :: e, cons, rfl, hb, h0, hw, hcons, fun c hc => ?_, by simp⟩ hblank
        exact he c (List.mem_cons_of_mem _ hc)
  rw [compile, strtok_getD, hstr, hword]
  simp only [hcons, strtok_nil]

/-- **A null token is followed only there.** -/
theorem compile_crash : ∀ {n : ℕ} {args : Option CStr} {saved : CStr} {crit crit' : List Query},
    compile sv s n args saved crit = .crash crit' →
    ∃ rest, Gets sv (args.getD saved) rest ∧ BlankValue rest
  | 0, _, _, _, _, h => by cases h
  | n + 1, args, saved, crit, crit', h => by
    rcases exists_word (args.getD saved) with hb | ⟨b, w, hb, h0, hw, hs | ⟨a, hs⟩⟩
    · rw [compile, strtok_getD, strtok_blank hb] at h
      cases h
    · rw [compile, strtok_getD, hs, strtok_only hb h0 hw] at h
      simp only [strtok_nil] at h
      split at h <;> cases h
    · by_cases ha : a = []
      · rw [compile, strtok_getD, hs, strtok_first hb h0 hw, ha] at h
        simp only [strtok_nil] at h
        split at h <;> cases h
      · cases hcons : retrieve traceCmdtree w with
        | none =>
          rw [compile, strtok_getD, hs, strtok_first hb h0 hw] at h
          simp only [hcons] at h
          cases h
        | some cons =>
          rw [compile_name hb h0 hw hcons ha hs] at h
          by_cases hblank : Blank a
          · exact ⟨_, .here, b, w, a, cons, hs, hb, h0, hw, hcons, hblank, ha⟩
          · have hprep : (∃ q args saved', cons.prepare sv s a [] = .made q args saved' ∧
                Value sv cons a (args.getD saved')) ∨ _ := prepare_value hblank
            rcases hprep with ⟨q, args', saved', hmade, hv⟩ | ⟨hnull, -⟩
            · simp only [hmade] at h
              obtain ⟨rest, hgets, hbv⟩ := compile_crash h
              rw [hs]
              exact ⟨rest, .pair hb h0 hw hcons hv hgets, hbv⟩
            · simp only [hnull] at h
              cases h

/-! ### The command -/

theorem BlankValue.noValue {rest : CStr} (h : BlankValue rest) : NoValue rest := by
  obtain ⟨b, w, b', cons, rfl, hb, h0, hw, hcons, hb', -⟩ := h
  refine ⟨b, w, ' ' :: b', cons, rfl, hb, h0, hw, hcons, fun c hc => ?_⟩
  rcases List.mem_cons.mp hc with rfl | hc
  · rfl
  · exact hb' c hc

/-- The action `cons` is prepared, and leaves `str` for the criteria. -/
def Compiles (sv : Services) (action args : Option CStr) (saved : CStr) (str saved' : CStr) : Prop :=
  ∃ cons act, action.bind (retrieve traceActtree) = some cons ∧
    cons.prepare sv args saved = .made act (some str) saved'

/-- The parsing ends without following a null token, and a criterion without
its value is reported. -/
structure ParsesSafely (sv : Services) (s : State) (action args : Option CStr) (saved : CStr) : Prop where
  prepared : ∀ cons, action.bind (retrieve traceActtree) = some cons → cons.prepare sv args saved ≠ .crash
  ends : ∀ str saved', Compiles sv action args saved str saved' → ∀ crit,
    compile sv s (str.length + 1) (some str) saved' [] ≠ .endless crit
  tokens : ∀ str saved', Compiles sv action args saved str saved' → ∀ crit,
    compile sv s (str.length + 1) (some str) saved' [] ≠ .crash crit
  reported : ∀ str saved', Compiles sv action args saved str saved' →
    (∃ rest, Gets sv str rest ∧ NoValue rest) →
    ∃ code text, .fail code text ∈ (osCmdTrace sv action args saved s).out

/-- What is left for the criteria is what the action's own grammar leaves. -/
theorem compiles_iff {action args : Option CStr} {str : CStr} :
    (∃ saved', Compiles sv action args saved str saved') ↔ ∃ cons params,
      action.bind (retrieve traceActtree) = some cons ∧ args = some params ∧ OwnParams cons params str := by
  constructor
  · intro ⟨saved', cons, act, hact, hmade⟩
    cases args with
    | none => cases cons <;> cases hmade
    | some params => exact ⟨cons, params, hact, rfl, prepare_iff.mp ⟨act, saved', hmade⟩⟩
  · rintro ⟨cons, params, hact, rfl, hown⟩
    obtain ⟨act, saved', hmade⟩ : Leaves (cons.prepare sv (some params) saved) str := prepare_iff.mpr hown
    exact ⟨saved', cons, act, hact, hmade⟩

/-- The command after the action has been prepared. -/
theorem osCmdTrace_compiles {action args : Option CStr} {str saved' : CStr}
    (h : Compiles sv action args saved str saved') : ∃ act, osCmdTrace sv action args saved s =
      finish act (runCompiled sv act s (compile sv s (str.length + 1) (some str) saved' [])) := by
  obtain ⟨cons, act, hact, hmade⟩ := h
  refine ⟨act, ?_⟩
  unfold osCmdTrace
  rw [hact]
  simp only [hmade]
  rfl

/-- **The parsing of TRACE is total, follows no null token and reports every
missing value** exactly if it gets to no criterion's name that is followed by
two or more blanks and nothing else. -/
theorem trace_total_iff (sv : Services) (users : List User) (channels : List Channel) (klines : List Kline)
    (action args : Option CStr) (saved : CStr) :
    ParsesSafely sv (.begin users channels klines) action args saved ↔
      ¬ ∃ cons params str rest, action.bind (retrieve traceActtree) = some cons ∧ args = some params ∧
        OwnParams cons params str ∧ Gets sv str rest ∧ BlankValue rest := by
  have hpraised : Praised (.begin users channels klines) := fun o ho => by cases ho
  have hc : (State.begin users channels klines).crashed = false := rfl
  generalize State.begin users channels klines = s at hpraised hc ⊢
  constructor
  · intro hsafe ⟨cons, params, str, rest, hact, hargs, hown, hgets, hblank⟩
    obtain ⟨saved', hcomp⟩ : ∃ saved', Compiles sv action args saved str saved' :=
      compiles_iff.mpr ⟨cons, params, hact, hargs, hown⟩
    obtain ⟨m, args', saved'', crit', hrest, hm, hloop⟩ : ∃ m args' saved'' crit', _ ∧ _ ∧
        compile sv s (str.length + 1) (some str) saved' [] = compile sv s m args' saved'' crit' :=
      compile_gets hgets rfl (Nat.lt_succ_self _)
    have hend : ∃ crit, compile sv s m args' saved'' crit' = .crash crit ∨ _ :=
      compile_blankValue hblank hrest hm crit'
    obtain ⟨crit, hcrash | hall⟩ := hend
    · exact hsafe.tokens str saved' hcomp crit (hloop.trans hcrash)
    · obtain ⟨code, text, hfail⟩ := hsafe.reported str saved' hcomp ⟨rest, hgets, hblank.noValue⟩
      obtain ⟨act, hrun⟩ : ∃ act, osCmdTrace sv action args saved s = _ := osCmdTrace_compiles hcomp
      rw [hrun, hloop, hall] at hfail
      have hstart : Praised { s with crit := crit } := hpraised
      have hend : Praised (runCompiled sv act s (.all crit)).1 := (keeps_runUsers act).praised hstart
      obtain ⟨text', he⟩ := Praised.finish hend _ hfail
      cases he
  · intro hno
    have hnot : ∀ str saved', Compiles sv action args saved str saved' →
        ∀ rest, Gets sv str rest → ¬ BlankValue rest := by
      intro str saved' hcomp rest hgets hblank
      obtain ⟨cons, params, hact, hargs, hown⟩ := compiles_iff.mp ⟨saved', hcomp⟩
      exact hno ⟨cons, params, str, rest, hact, hargs, hown, hgets, hblank⟩
    refine ⟨fun cons _ => prepareAction_ne_crash, ?_, ?_, ?_⟩
    · intro str saved' _
      exact compile_ends (Nat.lt_succ_self _)
    · intro str saved' hcomp crit hcrash
      obtain ⟨rest, hgets, hblank⟩ := compile_crash hcrash
      exact hnot str saved' hcomp rest hgets hblank
    · intro str saved' hcomp ⟨rest, hgets, hnone⟩
      obtain ⟨m, args', saved'', crit', hrest, hm, hloop⟩ : ∃ m args' saved'' crit', _ ∧ _ ∧
          compile sv s (str.length + 1) (some str) saved' [] = compile sv s m args' saved'' crit' :=
        compile_gets hgets rfl (Nat.lt_succ_self _)
      have hinvalid : compile sv s m args' saved'' crit' = .invalid crit' :=
        compile_noValue hnone (hnot str saved' hcomp rest hgets) hrest hm crit'
      obtain ⟨act, hrun⟩ : ∃ act, osCmdTrace sv action args saved s = _ := osCmdTrace_compiles hcomp
      rw [hrun, hloop, hinvalid, finish_invalid act hc]
      exact ⟨.nosuch_target, _, List.mem_append_right _ (List.mem_singleton.mpr rfl)⟩

/-- `TRACE PRINT NICKAGE` with two blanks behind it: the comparison is read
off a null token. With `SERVER` there is no failure. -/
theorem blank_value_followed :
    (osCmdTrace onlyOperserv (some "PRINT".toList) (some "NICKAGE  ".toList) [] (.begin [] [] [])).crashed =
      true ∧
    ¬ ParsesSafely onlyOperserv (.begin [] [] []) (some "PRINT".toList) (some "NICKAGE  ".toList) [] ∧
    (osCmdTrace onlyOperserv (some "PRINT".toList) (some "SERVER  ".toList) [] (.begin [] [] [])).out =
      [.success "No matches."] := by
  refine ⟨by decide, fun h => ?_, by decide⟩
  exact h.tokens "NICKAGE  ".toList [] ⟨.print, .print, rfl, rfl⟩ [] (by decide)

end Trace
end AthemeContrib
