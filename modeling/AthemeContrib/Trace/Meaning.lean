/-
# os_trace: what a list of criteria means

The criteria are pairs of a name and a value, with blanks between them; the
value of the last one may be missing (`Spells`). A regular expression is as
long as `regex_extract` says, any other value is a word. A pair denotes a
criterion, or none: its name may be unknown, or `prepare` may reject its value
(`pairMeaning`).

The string is parsed into the criteria it denotes, or `TRACE` fails and
touches nobody, wherever in the string it goes wrong (`compile_spells`).
`PRINT` and `COUNT` are executed on the users that meet the criteria; the
number `COUNT` replies is an unsigned int, and is otherwise how many lines
`PRINT` prints.

Key definitions: `Spells`, `pairMeaning`, `criteria`, `meets`, `Means`.
Key theorems: `compile_spells`, `runUsers_meets`, `trace_means`,
`count_wraps`.
-/
import AthemeContrib.Trace.Guard

namespace AthemeContrib
namespace Trace

open CStr

variable {sv : Services} {s : State} {saved : CStr}

/-! ### The grammar -/

/-- `v` is the value of the criterion `name`, after the blanks `b` and before
`rest`. -/
def Operand (sv : Services) (name b v rest : CStr) : Prop :=
  ¬ Blank v ∧
    if retrieve traceCmdtree name = some .regexp then
      ∃ pattern flags, sv.regexExtract v = some (pattern, flags, v.length) ∧
        sv.regexExtract (b ++ v ++ rest) = some (pattern, flags, (b ++ v).length)
    else ' ' ∉ v

/-- The string spells the pairs, and the name `last` without a value after
them. -/
inductive Spells (sv : Services) : CStr → List (CStr × CStr) → Option CStr → Prop
  | done {b : CStr} (hb : Blank b) : Spells sv b [] none
  | missing {b w e : CStr} (hb : Blank b) (h0 : w ≠ []) (hw : ' ' ∉ w) (he : e = [] ∨ e = [' ']) :
      Spells sv (b ++ w ++ e) [] (some w)
  | pair {b w b' v rest : CStr} {ps : List (CStr × CStr)} {last : Option CStr} (hb : Blank b) (h0 : w ≠ [])
      (hw : ' ' ∉ w) (hb' : Blank b') (hv : Operand sv w b' v rest)
      (hend : rest = [] ∨ rest.head? = some ' ') (h : Spells sv rest ps last) :
      Spells sv (b ++ w ++ ' ' :: (b' ++ v ++ rest)) ((w, v) :: ps) last

/-! ### The meaning -/

/-- The criterion that a value denotes; none if `prepare` rejects it. -/
def QueryConstructor.meaning (sv : Services) (s : State) (v : CStr) : QueryConstructor → Option Query
  | .regexp => some (.regexp ((sv.regexExtract v).map fun r => (r.1, r.2.1)))
  | .server => some (.server (sv.serverFind v))
  | .glob => some (.glob (some v))
  | .channel => some (.channel (channelFind sv s v))
  | .nickage =>
    let (n, comparison) := readComparisonOperator v .le
    some (.nickage (atoi n) comparison)
  | .numchan =>
    let (n, comparison) := readComparisonOperator v .eq
    some (.numchan (atoi n % 2 ^ 32).toNat comparison)
  | .identified =>
    if strcasecmp v "yes".toList then some (.identified true)
    else if strcasecmp v "no".toList then some (.identified false)
    else none

/-- The criterion that a pair denotes, if its name is known and its value is
not rejected. -/
def pairMeaning (sv : Services) (s : State) (p : CStr × CStr) : Option Query :=
  (retrieve traceCmdtree p.1).bind (QueryConstructor.meaning sv s p.2)

/-- The criteria that the pairs denote, up to the first one that denotes
none. -/
def criteria (sv : Services) (s : State) : List (CStr × CStr) → List Query
  | [] => []
  | p :: ps =>
    match pairMeaning sv s p with
    | none => []
    | some q => q :: criteria sv s ps

/-- Every pair denotes a criterion, and no value is missing. -/
def Meaningful (sv : Services) (s : State) (ps : List (CStr × CStr)) (last : Option CStr) : Prop :=
  last = none ∧ ∀ p ∈ ps, (pairMeaning sv s p).isSome

theorem map_criteria : ∀ (sv : Services) (s : State) {ps : List (CStr × CStr)},
    (∀ p ∈ ps, (pairMeaning sv s p).isSome) → (criteria sv s ps).map some = ps.map (pairMeaning sv s)
  | _, _, [], _ => rfl
  | sv, s, p :: ps, h => by
    obtain ⟨q, hq⟩ := Option.isSome_iff_exists.mp (h p (by simp))
    have ih := map_criteria sv s fun p' hp => h p' (List.mem_cons_of_mem p hp)
    simp only [criteria, hq, List.map_cons, ih]

/-! ### Parsing -/

/-- A value that is a word is taken off, with the blank after it. -/
theorem strtok_operand {b v rest : CStr} (hb : Blank b) (h0 : v ≠ []) (hv : ' ' ∉ v)
    (hend : rest = [] ∨ rest.head? = some ' ') :
    ∃ t, strtok none [' '] (b ++ v ++ rest) = (some v, t) ∧ (rest = t ∨ rest = ' ' :: t) := by
  rcases hend with rfl | hend
  · rw [List.append_nil]
    exact ⟨[], strtok_only hb h0 hv, Or.inl rfl⟩
  · obtain ⟨t, rfl⟩ := List.head?_eq_some_iff.mp hend
    exact ⟨t, strtok_first hb h0 hv t, Or.inr rfl⟩

/-- A value that denotes a criterion is taken off, and the rest is left, up to
a blank; any other is rejected. -/
theorem prepare_operand (saved : CStr) {cons : QueryConstructor} {name b v rest : CStr}
    (hname : retrieve traceCmdtree name = some cons) (hb : Blank b) (hv : Operand sv name b v rest)
    (hend : rest = [] ∨ rest.head? = some ' ') :
    (cons.meaning sv s v = none ∧ cons.prepare sv s (b ++ v ++ rest) saved = .null) ∨
    ∃ q args saved', cons.meaning sv s v = some q ∧
      cons.prepare sv s (b ++ v ++ rest) saved = .made q args saved' ∧
      (rest = args.getD saved' ∨ rest = ' ' :: args.getD saved') := by
  obtain ⟨hv0, hv⟩ := hv
  rw [hname] at hv
  by_cases hre : cons = .regexp
  · rw [hre] at hv ⊢
    rw [if_pos rfl] at hv
    obtain ⟨pattern, flags, hmean, hfound⟩ := hv
    right
    refine ⟨.regexp (some (pattern, flags)), some rest, saved, ?_, ?_, Or.inl rfl⟩
    · simp only [QueryConstructor.meaning, hmean, Option.map_some]
    · simp only [QueryConstructor.prepare, traceRegexpPrepare, hfound, List.drop_left]
  · rw [if_neg (by simpa using hre)] at hv
    have h0 : v ≠ [] := fun h => hv0 (h ▸ blank_nil)
    obtain ⟨t, hword, ht⟩ := strtok_operand hb h0 hv hend
    rcases hy : strtok none [] t with ⟨args, saved'⟩
    have hleft : args.getD saved' = t := by
      have := strtok_rest_getD t
      rwa [hy] at this
    have hrest : rest = args.getD saved' ∨ rest = ' ' :: args.getD saved' := by
      rw [hleft]
      exact ht
    cases cons with
    | regexp => exact absurd rfl hre
    | server =>
      refine Or.inr ⟨_, args, saved', rfl, ?_, hrest⟩
      simp only [QueryConstructor.prepare, traceServerPrepare, strtok_some, hword, hy, Option.bind_some]
    | glob =>
      refine Or.inr ⟨_, args, saved', rfl, ?_, hrest⟩
      simp only [QueryConstructor.prepare, traceGlobPrepare, strtok_some, hword, hy]
    | channel =>
      refine Or.inr ⟨_, args, saved', rfl, ?_, hrest⟩
      simp only [QueryConstructor.prepare, traceChannelPrepare, strtok_some, hword, hy, Option.bind_some]
    | nickage =>
      refine Or.inr ⟨.nickage (atoi (readComparisonOperator v .le).1) (readComparisonOperator v .le).2,
        args, saved', rfl, ?_, hrest⟩
      simp only [QueryConstructor.prepare, traceNickagePrepare, strtok_some, hword, hy]
    | numchan =>
      refine Or.inr ⟨.numchan (atoi (readComparisonOperator v .eq).1 % 2 ^ 32).toNat
        (readComparisonOperator v .eq).2, args, saved', rfl, ?_, hrest⟩
      simp only [QueryConstructor.prepare, traceNumchanPrepare, strtok_some, hword, hy]
    | identified =>
      simp only [QueryConstructor.prepare, traceIdentifiedPrepare, strtok_some, hword, hy,
        QueryConstructor.meaning]
      by_cases hyes : strcasecmp v "yes".toList
      · right
        simp only [if_pos hyes]
        exact ⟨_, args, saved', rfl, rfl, hrest⟩
      · simp only [if_neg hyes]
        by_cases hno : strcasecmp v "no".toList
        · right
          simp only [if_pos hno]
          exact ⟨_, args, saved', rfl, rfl, hrest⟩
        · left
          simp only [if_neg hno, and_self]

instance (ps : List (CStr × CStr)) (last : Option CStr) : Decidable (Meaningful sv s ps last) :=
  inferInstanceAs (Decidable (last = none ∧ ∀ p ∈ ps, (pairMeaning sv s p).isSome))

/-- **The string is parsed into the criteria it denotes, or not at all.** The
loop stops at the first pair that denotes none, or whose value is missing,
with the criteria before it. -/
theorem compile_spells {str : CStr} {ps : List (CStr × CStr)} {last : Option CStr}
    (h : Spells sv str ps last) :
    ∀ {n : ℕ} {args : Option CStr} {saved : CStr} {crit : List Query},
      (str = args.getD saved ∨ str = ' ' :: args.getD saved) → str.length < n →
      compile sv s n args saved crit =
        if Meaningful sv s ps last then .all (crit ++ criteria sv s ps)
        else .invalid (crit ++ criteria sv s ps) := by
  have hread : ∀ {str : CStr} {args : Option CStr} {saved : CStr},
      (str = args.getD saved ∨ str = ' ' :: args.getD saved) →
      strtok args [' '] saved = strtok none [' '] str := by
    intro str args saved hstr
    rw [strtok_getD]
    rcases hstr with rfl | rfl
    · rfl
    · exact (strtok_skip (b := [' ']) (by simp) _).symm
  induction h with
  | done hb =>
    intro n args saved crit hstr hn
    obtain ⟨m, rfl⟩ : ∃ m, n = m + 1 := ⟨n - 1, by omega⟩
    have hm : Meaningful sv s [] none := ⟨rfl, by simp⟩
    rw [compile, hread hstr, strtok_blank hb, if_pos hm, criteria, List.append_nil]
  | @missing b w e hb h0 hw he =>
    intro n args saved crit hstr hn
    obtain ⟨m, rfl⟩ : ∃ m, n = m + 1 := ⟨n - 1, by omega⟩
    have hm : ¬ Meaningful sv s [] (some w) := fun hm => Option.some_ne_none w hm.1
    have hword : strtok none [' '] (b ++ w ++ e) = (some w, []) := by
      rcases he with rfl | rfl
      · rw [List.append_nil]
        exact strtok_only hb h0 hw
      · exact strtok_first hb h0 hw []
    rw [compile, hread hstr, hword, if_neg hm, criteria, List.append_nil]
    simp only [strtok_nil]
    split <;> rfl
  | @pair b w b' v rest ps last hb h0 hw hb' hv hend h ih =>
    intro n args saved crit hstr hn
    obtain ⟨m, rfl⟩ : ∃ m, n = m + 1 := ⟨n - 1, by omega⟩
    have hne : b' ++ v ++ rest ≠ [] := by
      intro h'
      simp only [List.append_eq_nil_iff] at h'
      exact hv.1 (h'.1.2 ▸ blank_nil)
    have hlt : rest.length < m := by
      simp only [List.length_append, List.length_cons] at hn
      omega
    -- a pair that denotes none ends the loop
    have hbad : pairMeaning sv s (w, v) = none →
        criteria sv s ((w, v) :: ps) = [] ∧ ¬ Meaningful sv s ((w, v) :: ps) last := by
      intro hp
      refine ⟨by simp only [criteria, hp], fun hm => ?_⟩
      have := hm.2 (w, v) (by simp)
      rw [hp] at this
      cases this
    rw [compile, hread hstr, strtok_first hb h0 hw]
    cases hcons : retrieve traceCmdtree w with
    | none =>
      obtain ⟨hcrit, hm⟩ := hbad (by simp only [pairMeaning, hcons, Option.bind_none])
      simp only [hcons, hcrit, if_neg hm, List.append_nil]
    | some cons =>
      have hpair : pairMeaning sv s (w, v) = cons.meaning sv s v := by
        simp only [pairMeaning, hcons, Option.bind_some]
      simp only [hcons, strtok_rest hne]
      rcases prepare_operand (s := s) [] hcons hb' hv hend with
        ⟨hno, hnull⟩ | ⟨q, args', saved', hq, hmade, hrest⟩
      · obtain ⟨hcrit, hm⟩ := hbad (hpair.trans hno)
        simp only [hnull, hcrit, if_neg hm, List.append_nil]
      · have hcrit : criteria sv s ((w, v) :: ps) = q :: criteria sv s ps := by
          simp only [criteria, hpair, hq]
        have hm : Meaningful sv s ((w, v) :: ps) last ↔ Meaningful sv s ps last := by
          simp [Meaningful, hpair, hq]
        have hloop : compile sv s m args' saved' (crit ++ [q]) = _ := ih hrest hlt
        simp only [hmade, hloop, hcrit, hm]
        rw [List.append_assoc]
        rfl

/-! ### The users -/

/-- Does every criterion hold of the user? -/
def meets (sv : Services) (s : State) (crit : List Query) (u : User) : Bool :=
  crit.all fun q => q.exec sv s u = some true

/-- The criterion follows no pointer to a channel that is gone. -/
def Live (s : State) (q : Query) : Prop := ∀ ch, q = .channel (some ch) → (s.channel? ch).isSome

theorem exec_isSome (sv : Services) {q : Query} (h : Live s q) (u : User) : (q.exec sv s u).isSome := by
  cases q with
  | regexp pattern => cases pattern <;> rfl
  | glob pattern => cases pattern <;> rfl
  | channel channel =>
    cases channel with
    | none => rfl
    | some ch =>
      simp only [Query.exec, Option.isSome_map]
      exact h ch rfl
  | _ => rfl

theorem channelFind_live {name : CStr} {ch : ℕ} (h : channelFind sv s name = some ch) :
    (s.channel? ch).isSome := by
  obtain ⟨c, hc, rfl⟩ := Option.map_eq_some_iff.mp h
  exact List.find?_isSome.mpr ⟨c, List.mem_of_find?_eq_some hc, by simp⟩

/-- The channels that criteria name are there. -/
theorem criteria_live : ∀ (sv : Services) (s : State) {ps : List (CStr × CStr)},
    ∀ q ∈ criteria sv s ps, Live s q
  | _, _, [] => fun q hq => by cases hq
  | sv, s, p :: ps => by
    intro q hq ch he
    unfold criteria at hq
    split at hq
    · cases hq
    · rename_i q' hp
      rcases List.mem_cons.mp hq with rfl | hq
      · rw [he] at hp
        obtain ⟨cons, -, hmean⟩ := Option.bind_eq_some_iff.mp hp
        cases cons with
        | channel =>
          simp only [QueryConstructor.meaning, Option.some.injEq, Query.channel.injEq] at hmean
          exact channelFind_live hmean
        | identified =>
          simp only [QueryConstructor.meaning] at hmean
          split_ifs at hmean <;> cases hmean
        | _ => simp [QueryConstructor.meaning] at hmean
      · exact criteria_live sv s q hq ch he

theorem satisfies_meets {crit : List Query} (h : ∀ q ∈ crit, Live s q) (u : User) :
    satisfies sv s u crit = some (meets sv s crit u) := by
  induction crit with
  | nil => rfl
  | cons q crit ih =>
    obtain ⟨b, hb⟩ := Option.isSome_iff_exists.mp (exec_isSome sv (h q (by simp)) u)
    have ih := ih fun q' hq' => h q' (List.mem_cons_of_mem q hq')
    cases b with
    | false => simp [satisfies, meets, hb]
    | true => simpa [satisfies, meets, hb] using ih

theorem exec_congr {s' : State} (h : s'.channels = s.channels) (q : Query) (u : User) :
    q.exec sv s' u = q.exec sv s u := by
  cases q with
  | regexp pattern => cases pattern <;> rfl
  | glob pattern => cases pattern <;> rfl
  | channel channel => cases channel <;> simp only [Query.exec, State.channel?, h]
  | numchan n comparison => simp only [Query.exec, h]
  | _ => rfl

/-- The criteria and what they are about stay. -/
structure Looks (s s' : State) : Prop where
  channels : s'.channels = s.channels
  crit : s'.crit = s.crit
  crashed : s'.crashed = s.crashed
  cleaned : s'.cleaned = s.cleaned

theorem Looks.meets {s' : State} (h : Looks s s') : meets sv s' s'.crit = meets sv s s.crit := by
  funext u
  simp only [Trace.meets, h.crit, exec_congr h.channels]

/-- The actions that only look. -/
def Watching (act : Action) : Prop := act = .print ∨ act = .count

/-- One user is touched. -/
def touch (sv : Services) (act : Action) (s : State) (u : User) : State :=
  act.exec sv u { s with touched := s.touched ++ [u.id] }

theorem looks_touch {act : Action} (h : Watching act) (u : User) : Looks s (touch sv act s u) := by
  rcases h with rfl | rfl
  · simp only [touch, Action.exec, tracePrintExec]
    split <;> exact ⟨rfl, rfl, rfl, rfl⟩
  · simp only [touch, Action.exec, traceCountExec]
    split <;> exact ⟨rfl, rfl, rfl, rfl⟩

/-- **`PRINT` and `COUNT` are executed on exactly the users that meet the
criteria**, in the order of the list. -/
theorem runUsers_meets {act : Action} (hact : Watching act) : ∀ {us : List User} {s : State},
    s.crashed = false → (∀ q ∈ s.crit, Live s q) →
    runUsers sv act us s = (us.filter (meets sv s s.crit)).foldl (touch sv act) s
  | [], _, _, _ => rfl
  | u :: us, s, hc, hlive => by
    rw [runUsers, if_neg (by simp [hc]), satisfies_meets hlive u]
    cases hu : meets sv s s.crit u with
    | false =>
      rw [List.filter_cons_of_neg (by simp [hu])]
      exact runUsers_meets hact hc hlive
    | true =>
      have hl : Looks s (touch sv act s u) := looks_touch hact u
      have hlive' : ∀ q ∈ (touch sv act s u).crit, Live (touch sv act s u) q := by
        intro q hq ch he
        rw [hl.crit] at hq
        rw [State.channel?, hl.channels]
        exact hlive q hq ch he
      have ih : runUsers sv act us (touch sv act s u) = _ := runUsers_meets hact (hl.crashed.trans hc) hlive'
      rw [List.filter_cons_of_pos hu, List.foldl_cons, ← hl.meets]
      exact ih

/-- The users that `PRINT` shows and `COUNT` counts. -/
def seen (us : List User) : List User := us.filter fun u => !u.internal

theorem seen_cons (u : User) (us : List User) :
    seen (u :: us) = if u.internal then seen us else u :: seen us := by
  cases h : u.internal <;> simp [seen, h]

theorem looks_foldl {act : Action} (hact : Watching act) : ∀ {us : List User} {s : State},
    Looks s (us.foldl (touch sv act) s)
  | [], s => ⟨rfl, rfl, rfl, rfl⟩
  | u :: us, s => by
    have h : Looks s (touch sv act s u) := looks_touch hact u
    have h' : Looks (touch sv act s u) (us.foldl (touch sv act) (touch sv act s u)) := looks_foldl hact
    exact ⟨h'.channels.trans h.channels, h'.crit.trans h.crit, h'.crashed.trans h.crashed,
      h'.cleaned.trans h.cleaned⟩

theorem touched_foldl {act : Action} (hact : Watching act) : ∀ {us : List User} {s : State},
    (us.foldl (touch sv act) s).touched = s.touched ++ us.map (·.id)
  | [], s => by simp
  | u :: us, s => by
    have h : (touch sv act s u).touched = s.touched ++ [u.id] := by
      rcases hact with rfl | rfl
      · simp only [touch, Action.exec, tracePrintExec]
        split <;> rfl
      · simp only [touch, Action.exec, traceCountExec]
        split <;> rfl
    rw [List.foldl_cons, touched_foldl hact, h, List.append_assoc]
    rfl

/-- `PRINT` sends a line for each user it shows. -/
theorem print_foldl : ∀ {us : List User} {s : State}, (us.foldl (touch sv .print) s).out =
      s.out ++ (seen us).map (fun u => .success (matchText sv u)) ∧
    (us.foldl (touch sv .print) s).matched = (s.matched || !(seen us).isEmpty)
  | [], s => by simp [seen]
  | u :: us, s => by
    have ih : (us.foldl (touch sv .print) (touch sv .print s u)).out = _ ∧ _ := print_foldl
    rw [List.foldl_cons, ih.1, ih.2, seen_cons]
    cases h : u.internal with
    | true => simp [touch, Action.exec, tracePrintExec, h]
    | false => simp [touch, Action.exec, tracePrintExec, State.send, h]

/-- `COUNT` counts each user that `PRINT` shows, and sends nothing. -/
theorem count_foldl : ∀ {us : List User} {s : State}, s.found < 2 ^ 32 →
    (us.foldl (touch sv .count) s).out = s.out ∧
      (us.foldl (touch sv .count) s).found = (s.found + (seen us).length) % 2 ^ 32
  | [], s, hf => ⟨rfl, (Nat.mod_eq_of_lt hf).symm⟩
  | u :: us, s, hf => by
    have hstep : (touch sv .count s u).out = s.out ∧
        (touch sv .count s u).found = if u.internal then s.found else (s.found + 1) % 2 ^ 32 := by
      simp only [touch, Action.exec, traceCountExec]
      split <;> exact ⟨rfl, rfl⟩
    have hf' : (touch sv .count s u).found < 2 ^ 32 := by
      rw [hstep.2]
      split <;> omega
    have ih : (us.foldl (touch sv .count) (touch sv .count s u)).out = _ ∧ _ := count_foldl hf'
    rw [List.foldl_cons, ih.1, ih.2, hstep.1, hstep.2, seen_cons]
    refine ⟨rfl, ?_⟩
    split
    · rfl
    · rw [List.length_cons]
      omega

/-! ### The command -/

/-- A line of `PRINT`. -/
def isMatchLine : Output → Bool
  | .success text => "\x02Match:\x02".toList.isPrefixOf text.toList
  | _ => false

/-- How many lines `PRINT` printed. -/
def matchLines (out : List Output) : ℕ := out.countP isMatchLine

/-- What `COUNT` replies. -/
def countText (n : ℕ) : String := s!"\x02{n}\x02 matches"

theorem prefix_append {w : CStr} {a : String} (h : w <+: a.toList) (b : String) : w <+: (a ++ b).toList := by
  rw [String.toList_append]
  exact h.trans (List.prefix_append _ _)

theorem isMatchLine_matchText (u : User) : isMatchLine (.success (matchText sv u)) = true := by
  have hlead : "\x02Match:\x02".toList <+: "\x02Match:\x02  ".toList := by decide
  apply List.isPrefixOf_iff_prefix.mpr
  unfold matchText
  iterate 7 apply prefix_append
  exact hlead

/-- The users that meet the criteria. -/
def hits (sv : Services) (s : State) (crit : List Query) : List User := s.users.filter (meets sv s crit)

/-- The action has been executed on the users that meet the criteria. -/
def watched (sv : Services) (act : Action) (s : State) (crit : List Query) : State :=
  (hits sv s crit).foldl (touch sv act) { s with crit := crit }

theorem looks_watched {act : Action} (hact : Watching act) (crit : List Query) :
    Looks { s with crit := crit } (watched sv act s crit) := looks_foldl hact

/-- The criteria that are being parsed have no part in what is met. -/
theorem meets_crit (s : State) (crit crit' : List Query) :
    meets sv { s with crit := crit' } crit = meets sv s crit := by
  funext u
  have hexec : ∀ q : Query, q.exec sv { s with crit := crit' } u = q.exec sv s u :=
    fun q => exec_congr rfl q u
  simp only [meets, hexec]

/-- `PRINT` and `COUNT` when the criteria have been parsed. -/
theorem finish_all {act : Action} (hact : Watching act) {crit : List Query} (hc : s.crashed = false)
    (hlive : ∀ q ∈ crit, Live s q) :
    finish act (runCompiled sv act s (.all crit)) =
      act.cleanup true { watched sv act s crit with cleaned := s.cleaned ++ crit } := by
  have hrun : runUsers sv act s.users { s with crit := crit } =
      (s.users.filter (meets sv { s with crit := crit } crit)).foldl (touch sv act) { s with crit := crit } :=
    runUsers_meets hact hc hlive
  rw [meets_crit] at hrun
  have hall : runCompiled sv act s (.all crit) = (watched sv act s crit, true) := by
    rw [runCompiled, hrun]
    rfl
  have hl : Looks { s with crit := crit } (watched sv act s crit) := looks_watched hact crit
  rw [finish_eq, hall, if_neg (by simp [hl.crashed, hc]), hl.crit, hl.cleaned]

/-- `PRINT` prints a line for each user it shows. -/
theorem print_all {crit : List Query} (hc : s.crashed = false)
    (hlive : ∀ q ∈ crit, Live s q) :
    matchLines (finish .print (runCompiled sv .print s (.all crit))).out =
      matchLines s.out + (seen (hits sv s crit)).length := by
  obtain ⟨hout, hmatched⟩ : (watched sv .print s crit).out = _ ∧ _ := print_foldl
  have hlines : matchLines (watched sv .print s crit).out =
      matchLines s.out + (seen (hits sv s crit)).length := by
    rw [hout, matchLines, List.countP_append, List.countP_map]
    congr 1
    rw [List.countP_eq_length]
    intro u _
    rw [Function.comp_apply]
    exact isMatchLine_matchText u
  rw [finish_all (Or.inl rfl) hc hlive]
  simp only [Action.cleanup, noMatches]
  split
  · simp only [State.send, matchLines, List.countP_append]
    exact hlines
  · exact hlines

/-- `COUNT` replies how many users `PRINT` shows, as an unsigned int. -/
theorem count_all {crit : List Query} (hc : s.crashed = false) (hf : s.found = 0)
    (hlive : ∀ q ∈ crit, Live s q) :
    (finish .count (runCompiled sv .count s (.all crit))).out =
      s.out ++ [.success (countText ((seen (hits sv s crit)).length % 2 ^ 32))] := by
  have hf' : ({ s with crit := crit } : State).found < 2 ^ 32 := by
    show s.found < _
    omega
  have hout : (watched sv .count s crit).out = s.out := (count_foldl hf').1
  have hfound : (watched sv .count s crit).found = (seen (hits sv s crit)).length % 2 ^ 32 := by
    have h : (watched sv .count s crit).found = (s.found + _) % 2 ^ 32 := (count_foldl hf').2
    rw [h, hf, Nat.zero_add]
  rw [finish_all (Or.inr rfl) hc hlive]
  simp only [Action.cleanup, if_true, State.send, hout, hfound]
  rfl

/-- What `TRACE` is to do with pairs that the string spells. -/
structure Means (sv : Services) (s : State) (cons : ActionConstructor) (ps : List (CStr × CStr))
    (last : Option CStr) (run : State) : Prop where
  crit : run.crit = criteria sv s ps
  cleaned : run.crashed = false → run.cleaned = run.crit
  parsed : Meaningful sv s ps last → run.crit.map some = ps.map (pairMeaning sv s)
  executed : Meaningful sv s ps last → cons = .print ∨ cons = .count →
    run.crashed = false ∧ run.touched = (s.users.filter (meets sv s run.crit)).map (·.id)
  failed : ¬ Meaningful sv s ps last → run = { s with
    crit := criteria sv s ps
    cleaned := criteria sv s ps
    out := s.out ++ [.fail .nosuch_target "Invalid criteria specified."] }

theorem cleanup_frame (act : Action) (succeeded : Bool) (s : State) :
    (act.cleanup succeeded s).crashed = s.crashed ∧ (act.cleanup succeeded s).touched = s.touched := by
  cases act <;> simp only [Action.cleanup, noMatches] <;> split <;> exact ⟨rfl, rfl⟩

theorem finish_invalid (act : Action) {crit : List Query} (hc : s.crashed = false) :
    finish act (runCompiled sv act s (.invalid crit)) = { s with
      crit := crit
      cleaned := s.cleaned ++ crit
      out := s.out ++ [.fail .nosuch_target "Invalid criteria specified."] } := by
  rw [finish_eq, runCompiled, if_neg (by simp [State.send, hc])]
  cases act <;> simp [Action.cleanup, noMatches, State.send]

/-- `TRACE` after its action has been prepared. -/
theorem osCmdTrace_spells {action params str : CStr} {cons : ActionConstructor} {ps : List (CStr × CStr)}
    {last : Option CStr} (saved : CStr) (hact : retrieve traceActtree action = some cons)
    (hown : OwnParams cons params str) (hs : Spells sv str ps last) :
    ∃ act, (cons = .print → act = .print) ∧ (cons = .count → act = .count) ∧
      osCmdTrace sv (some action) (some params) saved s = finish act (runCompiled sv act s
        (if Meaningful sv s ps last then .all (criteria sv s ps) else .invalid (criteria sv s ps))) := by
  obtain ⟨act, saved', hmade⟩ : Leaves (cons.prepare sv (some params) saved) str := prepare_iff.mpr hown
  have hloop : compile sv s (str.length + 1) (some str) saved' [] = _ :=
    compile_spells hs (Or.inl rfl) (Nat.lt_succ_self _)
  refine ⟨act, ?_, ?_, ?_⟩
  · rintro rfl
    cases hmade
    rfl
  · rintro rfl
    cases hmade
    rfl
  · simp only [osCmdTrace, Option.bind_some, hact, hmade, osCmdTraceRun, hloop, List.nil_append]

/-- **TRACE parses all of the criteria or none**: it executes `PRINT` and
`COUNT` on exactly the users that meet them, or fails with nobody touched, and
cleans up what it prepared. `COUNT` replies the number of lines of `PRINT`, as
an unsigned int. -/
theorem trace_means (sv : Services) (users : List User) (channels : List Channel) (klines : List Kline)
    {action params str : CStr} (saved : CStr) {cons : ActionConstructor} {ps : List (CStr × CStr)}
    {last : Option CStr} (hact : retrieve traceActtree action = some cons) (hown : OwnParams cons params str)
    (hs : Spells sv str ps last) :
    Means sv (.begin users channels klines) cons ps last
        (osCmdTrace sv (some action) (some params) saved (.begin users channels klines)) ∧
      (cons = .count → Meaningful sv (.begin users channels klines) ps last → ∀ saved',
        (osCmdTrace sv (some action) (some params) saved (.begin users channels klines)).out =
          [.success (countText (matchLines (osCmdTrace sv (some "PRINT".toList) (some str) saved'
            (.begin users channels klines)).out % 2 ^ 32))]) := by
  generalize hst : State.begin users channels klines = s
  have hc : s.crashed = false := hst ▸ rfl
  have hlive : ∀ q ∈ criteria sv s ps, Live s q := criteria_live sv s
  obtain ⟨act, hprint, hcount, hrun⟩ := osCmdTrace_spells (s := s) saved hact hown hs
  rw [hrun]
  have hclean : s.cleaned = [] := hst ▸ rfl
  refine ⟨⟨?_, fun h => finish_cleaned h ((cleaned_run act _).trans hclean), ?_, ?_, ?_⟩, ?_⟩
  · rw [crit_run]
    split <;> rfl
  · intro hm
    rw [crit_run, if_pos hm]
    exact map_criteria sv s hm.2
  · intro hm hcons
    have hwatch : Watching act := hcons.imp hprint hcount
    have hdone := cleanup_frame act true
      { watched sv act s (criteria sv s ps) with cleaned := s.cleaned ++ criteria sv s ps }
    rw [crit_run, if_pos hm, finish_all hwatch hc hlive, hdone.1, hdone.2]
    refine ⟨(looks_watched hwatch _).crashed.trans hc, ?_⟩
    have ht : (watched sv act s (criteria sv s ps)).touched = s.touched ++ _ := touched_foldl hwatch
    have ht0 : s.touched = [] := hst ▸ rfl
    rw [ht, ht0]
    rfl
  · intro hm
    rw [if_neg hm, finish_invalid act hc, hclean, List.nil_append]
  · rintro rfl hm saved'
    obtain ⟨act', hprint', -, hrun'⟩ :=
      osCmdTrace_spells (s := s) saved' (by decide : retrieve traceActtree "PRINT".toList = some .print)
        .print hs
    have hout : s.out = [] := hst ▸ rfl
    have hlines : matchLines s.out = 0 := by
      rw [hout]
      rfl
    rw [hrun', hprint' rfl, hcount rfl, if_pos hm, print_all hc hlive, count_all hc (hst ▸ rfl) hlive, hlines,
      hout, Nat.zero_add]
    rfl

/-- `NUMCHAN 0`. -/
theorem spells_numchan : Spells onlyOperserv "NUMCHAN 0".toList [("NUMCHAN".toList, ['0'])] none :=
  @Spells.pair onlyOperserv [] "NUMCHAN".toList [] ['0'] [] [] none (by decide) (by decide) (by decide)
    (by decide) ⟨by decide, by rw [if_neg (by decide)]; decide⟩ (Or.inl rfl) (.done (by decide))

/-- A user in no channel. -/
def stranger (id : ℕ) : User :=
  ⟨id, 'a' :: Nat.toDigits 10 id, ['b'], ['c'], [], 0, 0, false, false, false, false⟩

theorem trace_means_numchan : Means onlyOperserv (.begin [stranger 1] [] []) .count
    [("NUMCHAN".toList, ['0'])] none
    (osCmdTrace onlyOperserv (some "COUNT".toList) (some "NUMCHAN 0".toList) [] (.begin [stranger 1] [] [])) :=
  (trace_means onlyOperserv [stranger 1] [] [] [] (by decide) .count spells_numchan).1

/-- Users in no channel all meet `NUMCHAN 0`. -/
theorem numchan_all (ids : List ℕ) :
    (osCmdTrace onlyOperserv (some "COUNT".toList) (some "NUMCHAN 0".toList) []
        (.begin (ids.map stranger) [] [])).out = [.success (countText (ids.length % 2 ^ 32))] ∧
      matchLines (osCmdTrace onlyOperserv (some "PRINT".toList) (some "NUMCHAN 0".toList) []
        (.begin (ids.map stranger) [] [])).out = ids.length := by
  generalize hst : State.begin (ids.map stranger) [] [] = s
  have hcrit : criteria onlyOperserv s [("NUMCHAN".toList, ['0'])] = [.numchan 0 .eq] := rfl
  have hm : Meaningful onlyOperserv s [("NUMCHAN".toList, ['0'])] none :=
    ⟨rfl, fun p hp => by rw [List.mem_singleton.mp hp]; rfl⟩
  have hlive : ∀ q ∈ [Query.numchan 0 .eq], Live s q := hcrit ▸ criteria_live onlyOperserv s
  have hhits : seen (hits onlyOperserv s [.numchan 0 .eq]) = ids.map stranger := by
    have hmeets : ∀ u, meets onlyOperserv s [.numchan 0 .eq] u = true := by
      intro u
      rw [← hst]
      rfl
    have hshown : ∀ u ∈ ids.map stranger, (!u.internal) = true := by
      intro u hu
      obtain ⟨id, -, rfl⟩ := List.mem_map.mp hu
      rfl
    have husers : s.users = ids.map stranger := hst ▸ rfl
    rw [hits, List.filter_eq_self.mpr fun u _ => hmeets u, husers]
    exact List.filter_eq_self.mpr hshown
  have hout : s.out = [] := hst ▸ rfl
  constructor
  · obtain ⟨act, -, hact, hrun⟩ := osCmdTrace_spells (s := s) []
      (by decide : retrieve traceActtree "COUNT".toList = some .count) .count spells_numchan
    rw [hrun, hact rfl, if_pos hm, hcrit, count_all (hst ▸ rfl) (hst ▸ rfl) hlive, hhits, hout,
      List.length_map]
    rfl
  · obtain ⟨act, hact, -, hrun⟩ := osCmdTrace_spells (s := s) []
      (by decide : retrieve traceActtree "PRINT".toList = some .print) .print spells_numchan
    rw [hrun, hact rfl, if_pos hm, hcrit, print_all (hst ▸ rfl) hlive, hhits, hout, List.length_map]
    exact Nat.zero_add _

/-- With as many users as there are unsigned ints `COUNT` replies that there
are none. -/
theorem count_wraps :
    (osCmdTrace onlyOperserv (some "COUNT".toList) (some "NUMCHAN 0".toList) []
        (.begin ((List.range (2 ^ 32)).map stranger) [] [])).out = [.success (countText 0)] ∧
      matchLines (osCmdTrace onlyOperserv (some "PRINT".toList) (some "NUMCHAN 0".toList) []
        (.begin ((List.range (2 ^ 32)).map stranger) [] [])).out = 2 ^ 32 := by
  have h := numchan_all (List.range (2 ^ 32))
  rw [List.length_range, Nat.mod_self] at h
  exact h

end Trace
end AthemeContrib
