/-
# os_savechanmodes: which channel a line is for

A topic or a ban goes to the channel of the `chan` line before it. The loop
keeps that channel in a variable which only a complete `chan` line sets: one
without modes is passed over, and the lines that follow it go to the channel
of an earlier line. That is the only way to the wrong channel, whatever the
file holds (`right_channel_iff`).

What the loop has found by a line is read off the lines before it: the current
channel is that of the last complete `chan` line, if it was there or could be
joined, and it has a topic if it had one or a topic line was for it
(`tracks_loaded`).

Key definitions: `Line`, `readLine`, `nearest`, `lastChan`, `Found`,
`HasTopic`, `RightChannel`, `NoStray`.
Key theorems: `loadLine_eq`, `tracks_loaded`, `right_channel_iff`.
-/
import AthemeContrib.Savechanmodes.Model
import Mathlib.Data.List.Induction

namespace AthemeContrib
namespace Savechanmodes

open CStr

/-! ### What a line says -/

/-- A line of the file: a `chan` line is complete or not; of the others only a
complete topic and a complete ban say something. -/
inductive Line
  | chan (name modes : CStr)
  | badChan
  | topic (setter : CStr) (ts : ℕ) (topic : CStr)
  | ban (type : Char) (mask : CStr)
  | other
deriving DecidableEq, Repr

/-- The words behind `chan`. -/
def readChan (saved : CStr) : Line :=
  let (name, saved) := strtok none [' '] saved
  match name, (strtok none ['\n'] saved).1 with
  | some name, some modes => .chan name modes
  | _, _ => .badChan

/-- The words behind `topic`. -/
def readTopic (saved : CStr) : Line :=
  let (setter, saved) := strtok none [' '] saved
  let (tsstr, saved) := strtok none [' '] saved
  match setter, tsstr, (strtok none ['\n'] saved).1 with
  | some setter, some tsstr, some topic => .topic setter (strtoul tsstr) topic
  | _, _, _ => .other

/-- The words behind `ban`. -/
def readBan (saved : CStr) : Line :=
  let (type, saved) := strtok none [' '] saved
  match type, (strtok none ['\n'] saved).1 with
  | some type, some mask => .ban (type.headD '\x00') mask
  | _, _ => .other

variable {σ χ : Type}

/-- What a line of the file says; its first word tells. -/
def readLine (sv : Services σ χ) (line : CStr) : Line :=
  match strtok (some (cstr line)) [' '] [] with
  | (none, _) => .other
  | (some item, saved) =>
    if sv.strip item = "chan".toList then readChan saved
    else if sv.strip item = "topic".toList then readTopic saved
    else if sv.strip item = "ban".toList then readBan saved
    else .other

/-- The line starts with the word `chan`. -/
def Line.isChan : Line → Bool
  | .chan _ _ | .badChan => true
  | _ => false

/-- The channel a complete `chan` line names. -/
def Line.name? : Line → Option CStr
  | .chan name _ => some name
  | _ => none

def Line.isTopic : Line → Bool
  | .topic _ _ _ => true
  | _ => false

def Line.isBan : Line → Bool
  | .ban _ _ => true
  | _ => false

/-- What is done for a line. -/
def Line.apply (sv : Services σ χ) (s : Load σ χ) : Line → Load σ χ
  | .chan name modes => restoreChannel sv name modes s
  | .topic setter ts text =>
    match s.c with
    | none => s
    | some c =>
      if (sv.contents s.net c).topic.isSome then s
      else s.call sv [.handleTopic c setter ts text,
        .topicSts c sv.chansvs setter ts (sv.contents s.net c).topicts text]
  | .ban type mask =>
    match s.c with
    | none => s
    | some c => s.call sv [.modestackModeParam sv.chansvs c type mask, .chanbanAdd c mask type]
  | .badChan | .other => s

variable {sv : Services σ χ}

theorem loadChan_eq (saved : CStr) (s : Load σ χ) : loadChan sv saved s = (readChan saved).apply sv s := by
  unfold loadChan readChan
  obtain ⟨name, saved⟩ := strtok none [' '] saved
  dsimp only
  obtain ⟨modes, rest⟩ := strtok none ['\n'] saved
  cases name with
  | none => rfl
  | some name => cases modes <;> rfl

/-- What says nothing does nothing, whether there is a current channel or not. -/
theorem same_of_other (s : Load σ χ) : (match s.c with
    | none => s
    | some _ => s) = s := by split <;> rfl

theorem loadTopic_eq (saved : CStr) (s : Load σ χ) : loadTopic sv saved s = (readTopic saved).apply sv s := by
  unfold loadTopic readTopic
  obtain ⟨setter, saved⟩ := strtok none [' '] saved
  dsimp only
  obtain ⟨tsstr, saved⟩ := strtok none [' '] saved
  dsimp only
  obtain ⟨topic, rest⟩ := strtok none ['\n'] saved
  cases setter with
  | none => exact same_of_other s
  | some setter =>
    cases tsstr with
    | none => exact same_of_other s
    | some tsstr =>
      cases topic with
      | none => exact same_of_other s
      | some topic => rfl

theorem loadBan_eq (saved : CStr) (s : Load σ χ) : loadBan sv saved s = (readBan saved).apply sv s := by
  unfold loadBan readBan
  obtain ⟨type, saved⟩ := strtok none [' '] saved
  dsimp only
  obtain ⟨mask, rest⟩ := strtok none ['\n'] saved
  cases type with
  | none => exact same_of_other s
  | some type =>
    cases mask with
    | none => exact same_of_other s
    | some mask => rfl

/-- **A line does what it says.** -/
theorem loadLine_eq (line : CStr) (s : Load σ χ) : loadLine sv (cstr line) s = (readLine sv line).apply sv s := by
  unfold loadLine readLine
  cases strtok (some (cstr line)) [' '] [] with
  | mk item saved =>
    cases item with
    | none => rfl
    | some item =>
      dsimp only
      by_cases hhash : (sv.strip item).head? = some '#'
      · have hword : ∀ w : CStr, w.head? ≠ some '#' → sv.strip item ≠ w := fun w hw he => hw (he ▸ hhash)
        rw [if_pos hhash, if_neg (hword _ (by decide)), if_neg (hword _ (by decide)),
          if_neg (hword _ (by decide))]
        rfl
      · rw [if_neg hhash]
        split
        · exact loadChan_eq saved s
        · split
          · exact loadTopic_eq saved s
          · split
            · exact loadBan_eq saved s
            · rfl

/-! ### The statement -/

/-- What has been loaded after these lines. -/
def loaded (sv : Services σ χ) (net : σ) (lines : List CStr) : Load σ χ :=
  lines.foldl (fun s line => loadLine sv (cstr line) s) (.start net)

/-- The nearest line that starts with the word `chan`, from the end. -/
def nearest (sv : Services σ χ) (lines : List CStr) : Option Line :=
  ((lines.map (readLine sv)).filter Line.isChan).getLast?

/-- The channel of the last complete `chan` line. -/
def lastChan (sv : Services σ χ) (lines : List CStr) : Option CStr :=
  ((lines.map (readLine sv)).filterMap Line.name?).getLast?

/-- Something has been called about the channel `c`, and nothing about any
other; no other channel has changed. -/
structure AppliedTo (sv : Services σ χ) (c : χ) (s s' : Load σ χ) : Prop where
  calls : ∃ xs, xs ≠ [] ∧ s'.calls = s.calls ++ xs ∧ ∀ x ∈ xs, x.chan = some c
  find : ∀ name, sv.channelFind s'.net name = sv.channelFind s.net name
  others : ∀ c', c' ≠ c → sv.contents s'.net c' = sv.contents s.net c'
  current : s'.c = s.c

/-- What is no `chan` line does something only to the channel that the nearest
`chan` line before it names, and nothing if there is no such line, if it is not
complete, or if its channel cannot be found. -/
def RightLine (sv : Services σ χ) (net : σ) (pre : List CStr) (line : CStr) : Prop :=
  let s := loaded sv net pre
  let s' := loadLine sv (cstr line) s
  (readLine sv line).isChan = false → s' = s ∨ ∃ name modes c, nearest sv pre = some (.chan name modes) ∧
    sv.channelFind s.net name = some c ∧ AppliedTo sv c s s'

/-- **No line of the file goes to the wrong channel.** -/
def RightChannel (sv : Services σ χ) (net : σ) (file : CStr) : Prop :=
  ∀ pre line post, fileLines file = pre ++ line :: post → RightLine sv net pre line

/-- A channel of the name is there when the lines have been loaded: it was
there before, or one of them is a `chan` line that it can be joined by. -/
def Found (sv : Services σ χ) (net : σ) (lines : List CStr) (name : CStr) : Prop :=
  (sv.channelFind net name).isSome ∨ ∃ line ∈ lines, ∃ n, (readLine sv line).name? = some n ∧
    sv.joinable n = true ∧ sv.irccasecmp n name = true

/-- The channel of the name has a topic when the lines have been loaded: it had
one before, or one of them is a topic line behind its `chan` line. -/
def HasTopic (sv : Services σ χ) (net : σ) (lines : List CStr) (name : CStr) : Prop :=
  (∃ c, sv.channelFind net name = some c ∧ (sv.contents net c).topic.isSome) ∨
    ∃ pre line post, lines = pre ++ line :: post ∧ (readLine sv line).isTopic = true ∧
      ∃ n, lastChan sv pre = some n ∧ Found sv net pre n ∧ sv.irccasecmp n name = true

/-- The line does something to the channel of the name, if that is the current
one: it is a ban, or a topic for a channel without one. -/
def Acts (sv : Services σ χ) (net : σ) (pre : List CStr) (line name : CStr) : Prop :=
  (readLine sv line).isBan = true ∨ (readLine sv line).isTopic = true ∧ ¬ HasTopic sv net pre name

/-- The line follows an incomplete `chan` line, and does something to the
channel of an earlier one. -/
def Stray (sv : Services σ χ) (net : σ) (pre : List CStr) (line : CStr) : Prop :=
  nearest sv pre = some .badChan ∧
    ∃ name, lastChan sv pre = some name ∧ Found sv net pre name ∧ Acts sv net pre line name

def NoStray (sv : Services σ χ) (net : σ) (file : CStr) : Prop :=
  ∀ pre line post, fileLines file = pre ++ line :: post → ¬ Stray sv net pre line

/-! ### One more line -/

variable {net : σ} {lines : List CStr} {line : CStr}

theorem loaded_snoc : loaded sv net (lines ++ [line]) = (readLine sv line).apply sv (loaded sv net lines) := by
  rw [loaded, List.foldl_append, List.foldl_cons, List.foldl_nil, loadLine_eq]
  rfl

theorem nearest_snoc : nearest sv (lines ++ [line]) =
    if (readLine sv line).isChan then some (readLine sv line) else nearest sv lines := by
  unfold nearest
  rw [List.map_append, List.filter_append, List.map_singleton]
  cases h : (readLine sv line).isChan with
  | true => rw [List.filter_singleton, h]; simp
  | false => rw [List.filter_singleton, h]; simp

theorem lastChan_snoc : lastChan sv (lines ++ [line]) = (readLine sv line).name?.or (lastChan sv lines) := by
  unfold lastChan
  rw [List.map_append, List.filterMap_append, List.map_singleton]
  cases h : (readLine sv line).name? with
  | none => simp [h]
  | some name => simp [h]

theorem found_snoc {name : CStr} : Found sv net (lines ++ [line]) name ↔ Found sv net lines name ∨
    ∃ n, (readLine sv line).name? = some n ∧ sv.joinable n = true ∧ sv.irccasecmp n name = true := by
  unfold Found
  rw [or_assoc]
  apply or_congr_right
  constructor
  · intro ⟨l, hl, hn⟩
    rcases List.mem_append.mp hl with hl | hl
    · exact Or.inl ⟨l, hl, hn⟩
    · rw [List.mem_singleton.mp hl] at hn
      exact Or.inr hn
  · intro h
    rcases h with ⟨l, hl, hn⟩ | hn
    · exact ⟨l, List.mem_append_left _ hl, hn⟩
    · exact ⟨line, List.mem_append_right _ (List.mem_singleton.mpr rfl), hn⟩

theorem hasTopic_snoc {name : CStr} : HasTopic sv net (lines ++ [line]) name ↔
    HasTopic sv net lines name ∨ ((readLine sv line).isTopic = true ∧
      ∃ n, lastChan sv lines = some n ∧ Found sv net lines n ∧ sv.irccasecmp n name = true) := by
  unfold HasTopic
  rw [or_assoc]
  apply or_congr_right
  constructor
  · intro ⟨pre, l, post, heq, hl⟩
    rcases List.eq_nil_or_concat post with rfl | ⟨post', x, rfl⟩
    · obtain ⟨rfl, hlast⟩ := List.append_inj' heq rfl
      obtain rfl := List.singleton_inj.mp hlast
      exact Or.inr hl
    · left
      have hsplit : lines ++ [line] = (pre ++ l :: post') ++ [x] := by simpa using heq
      obtain ⟨hlines, -⟩ := List.append_inj' hsplit rfl
      exact ⟨pre, l, post', hlines, hl⟩
  · intro h
    rcases h with ⟨pre, l, post, rfl, hl⟩ | hl
    · exact ⟨pre, l, post ++ [line], by simp, hl⟩
    · exact ⟨lines, line, [], rfl, hl⟩

/-! ### What the loop has found by a line -/

/-- The state in terms of the lines that have been loaded. -/
structure Tracks (sv : Services σ χ) (net : σ) (lines : List CStr) (s : Load σ χ) : Prop where
  current : s.c = (lastChan sv lines).bind (sv.channelFind s.net)
  found : ∀ name, (sv.channelFind s.net name).isSome ↔ Found sv net lines name
  topics : ∀ name, (∃ c, sv.channelFind s.net name = some c ∧ (sv.contents s.net c).topic.isSome) ↔
    HasTopic sv net lines name

/-- A line that changes nothing: it names no channel, and would do nothing to
the current one. -/
theorem Tracks.silent (hL : Lawful sv) {s : Load σ χ} (h : Tracks sv net lines s)
    (hname : (readLine sv line).name? = none)
    (hacts : ∀ n, lastChan sv lines = some n → Found sv net lines n → ¬ Acts sv net lines line n) :
    Tracks sv net (lines ++ [line]) s := by
  constructor
  · rw [lastChan_snoc, hname, Option.none_or]
    exact h.current
  · intro name
    rw [h.found, found_snoc, hname]
    simp
  · intro name
    rw [hasTopic_snoc, ← h.topics]
    refine (or_iff_left_of_imp ?_).symm
    intro ⟨ht, n, hn, hfound, heq⟩
    -- a topic that does nothing is for a channel that has one
    have htopic : HasTopic sv net lines n := by
      by_contra hno
      exact hacts n hn hfound (Or.inr ⟨ht, hno⟩)
    rw [← h.topics, hL.congr s.net heq] at htopic
    exact htopic

/-- Something is called about the current channel. -/
theorem Tracks.called (hL : Lawful sv) {s : Load σ χ} (h : Tracks sv net lines s)
    (hname : (readLine sv line).name? = none) {n : CStr} {c : χ} (hn : lastChan sv lines = some n)
    (hc : sv.channelFind s.net n = some c) {xs : List (Call χ)} (hxs : ∀ x ∈ xs, x.chan = some c)
    (ht : (sv.contents (sv.run xs s.net) c).topic.isSome =
      ((readLine sv line).isTopic || (sv.contents s.net c).topic.isSome)) :
    Tracks sv net (lines ++ [line]) (s.call sv xs) := by
  have hfind : ∀ name, sv.channelFind (s.call sv xs).net name = sv.channelFind s.net name :=
    fun name => run_find hL name hxs
  constructor
  · rw [lastChan_snoc, hname, Option.none_or, hn, Option.bind_some, hfind]
    have hcur := h.current
    rw [hn, Option.bind_some] at hcur
    exact hcur
  · intro name
    rw [found_snoc, hname, ← h.found, hfind]
    simp
  · intro name
    rw [hasTopic_snoc, ← h.topics, hfind]
    have hfound : Found sv net lines n := (h.found n).mp (by rw [hc]; rfl)
    by_cases heq : sv.irccasecmp n name = true
    · rw [← hL.congr s.net heq, hc]
      constructor
      · intro ⟨c', hc', hset⟩
        obtain rfl := Option.some.inj hc'
        have hor := ht.symm.trans hset
        rw [Bool.or_eq_true] at hor
        exact hor.symm.imp (fun hset => ⟨c, rfl, hset⟩) fun htop => ⟨htop, n, hn, hfound, heq⟩
      · intro hset
        refine ⟨c, rfl, ht.trans ?_⟩
        rw [Bool.or_eq_true]
        rcases hset with ⟨c', hc', hset⟩ | ⟨htop, -⟩
        · exact Or.inr (Option.some.inj hc' ▸ hset)
        · exact Or.inl htop
    · have hother : ∀ c', sv.channelFind s.net name = some c' →
          sv.contents (s.call sv xs).net c' = sv.contents s.net c' := by
        intro c' hc'
        refine run_others hL ?_ hxs
        rintro rfl
        exact heq ((hL.same hc).mp hc')
      have hline : ¬ ((readLine sv line).isTopic = true ∧
          ∃ n, lastChan sv lines = some n ∧ Found sv net lines n ∧ sv.irccasecmp n name = true) := by
        intro ⟨_, n', hn', _, heq'⟩
        rw [hn, Option.some.injEq] at hn'
        exact heq (hn' ▸ heq')
      rw [or_iff_left hline]
      exact exists_congr fun c' => and_congr_right fun hc' => by rw [hother c' hc']

/-- The channels that are there when one has been joined. -/
theorem join_isSome (hL : Lawful sv) (net : σ) (name : CStr) (nick : String) (n : CStr) :
    (sv.channelFind (sv.exec (.join name nick) net) n).isSome = true ↔
      (sv.channelFind net n).isSome = true ∨ sv.joinable name = true ∧ sv.irccasecmp name n = true := by
  cases hfind : sv.channelFind net n with
  | some c => simp [(hL.join_there hfind name nick).1]
  | none => simp [hL.join_new hfind]

/-- A channel that is joined has a topic if it had one. -/
theorem join_topic (hL : Lawful sv) (net : σ) (name : CStr) (nick : String) (n : CStr) :
    (∃ c, sv.channelFind (sv.exec (.join name nick) net) n = some c ∧
        (sv.contents (sv.exec (.join name nick) net) c).topic.isSome) ↔
      ∃ c, sv.channelFind net n = some c ∧ (sv.contents net c).topic.isSome := by
  cases hfind : sv.channelFind net n with
  | some c =>
    obtain ⟨hfound, hsame⟩ := hL.join_there hfind name nick
    simp [hfound, hsame]
  | none =>
    constructor
    · intro ⟨c, hc, hset⟩
      rw [(hL.join_created hfind hc).1] at hset
      exact Bool.noConfusion hset
    · rintro ⟨c, hc, -⟩
      cases hc

/-- The network, and the current channel, behind a complete `chan` line. -/
theorem restoreChannel_spec (hL : Lawful sv) (name modes : CStr) (s : Load σ χ) :
    let net := sv.exec (.join name sv.chansvs) s.net
    let s' := restoreChannel sv name modes s
    s'.c = sv.channelFind net name ∧ (∀ n, sv.channelFind s'.net n = sv.channelFind net n) ∧
      ∀ c, (sv.contents s'.net c).topic = (sv.contents net c).topic := by
  have hnet : (s.call sv [.join name sv.chansvs]).net = sv.exec (.join name sv.chansvs) s.net := rfl
  unfold restoreChannel
  dsimp only
  rw [hnet]
  cases hfind : sv.channelFind (sv.exec (.join name sv.chansvs) s.net) name with
  | none => exact ⟨rfl, fun _ => rfl, fun _ => rfl⟩
  | some c =>
    refine ⟨rfl, fun n => hL.exec_find rfl _ n, fun c' => ?_⟩
    by_cases hc : c' = c
    · rw [hc]
      exact (hL.channelMode _ _ c _).1
    · exact congrArg Contents.topic (hL.exec_others (x := .channelMode sv.svs c (sv.sjtoken modes ' ')) rfl hc _)

theorem Tracks.restored (hL : Lawful sv) {s : Load σ χ} (h : Tracks sv net lines s) {name modes : CStr}
    (hline : readLine sv line = .chan name modes) :
    Tracks sv net (lines ++ [line]) (restoreChannel sv name modes s) := by
  have hname : (readLine sv line).name? = some name := by rw [hline]; rfl
  have htopic : (readLine sv line).isTopic = false := by rw [hline]; rfl
  obtain ⟨hc, hfind, hsame⟩ := restoreChannel_spec hL name modes s
  constructor
  · rw [lastChan_snoc, hname, Option.some_or, Option.bind_some, hfind]
    exact hc
  · intro n
    rw [hfind, join_isSome hL, h.found, found_snoc, hname]
    simp
  · intro n
    rw [hasTopic_snoc, htopic, ← h.topics, ← join_topic hL s.net name sv.chansvs]
    simp only [hfind, hsame]
    simp

/-- What a line does that is no `chan` line: nothing, or some calls about the
channel of the last complete one. -/
theorem apply_cases (hL : Lawful sv) {s : Load σ χ} (h : Tracks sv net lines s)
    (hchan : (readLine sv line).isChan = false) :
    ((readLine sv line).apply sv s = s ∧ ∀ name, lastChan sv lines = some name → Found sv net lines name →
      ¬ Acts sv net lines line name) ∨
    ∃ name c, ∃ xs : List (Call χ), lastChan sv lines = some name ∧ sv.channelFind s.net name = some c ∧
      Acts sv net lines line name ∧ xs ≠ [] ∧ (∀ x ∈ xs, x.chan = some c) ∧
      (sv.contents (sv.run xs s.net) c).topic.isSome =
        ((readLine sv line).isTopic || (sv.contents s.net c).topic.isSome) ∧
      (readLine sv line).apply sv s = s.call sv xs := by
  have hcur : ∀ name, lastChan sv lines = some name → Found sv net lines name →
      ∃ c, sv.channelFind s.net name = some c ∧ s.c = some c := by
    intro name hname hfound
    obtain ⟨c, hc⟩ := Option.isSome_iff_exists.mp ((h.found name).mpr hfound)
    exact ⟨c, hc, by rw [h.current, hname, Option.bind_some, hc]⟩
  have hlast : ∀ c, s.c = some c → ∃ name, lastChan sv lines = some name ∧ sv.channelFind s.net name = some c :=
    fun c hc => Option.bind_eq_some_iff.mp (h.current.symm.trans hc)
  have hidle : s.c = none → ∀ name, lastChan sv lines = some name → ¬ Found sv net lines name := by
    intro hc name hname hfound
    obtain ⟨c, -, hsome⟩ := hcur name hname hfound
    rw [hc] at hsome
    cases hsome
  unfold Acts
  cases hline : readLine sv line with
  | chan name modes => rw [hline] at hchan; exact Bool.noConfusion hchan
  | badChan => rw [hline] at hchan; exact Bool.noConfusion hchan
  | other => exact Or.inl ⟨rfl, fun _ _ _ hacts => by simp [Line.isBan, Line.isTopic] at hacts⟩
  | topic setter ts text =>
    cases hc : s.c with
    | none => exact Or.inl ⟨by simp only [Line.apply, hc], fun name hname hfound => (hidle hc name hname hfound).elim⟩
    | some c =>
      obtain ⟨name, hname, hfind⟩ := hlast c hc
      cases hset : (sv.contents s.net c).topic with
      | some t =>
        refine Or.inl ⟨by simp [Line.apply, hc, hset], fun name' hname' _ => ?_⟩
        obtain rfl := Option.some.inj (hname.symm.trans hname')
        have htopic : HasTopic sv net lines name := (h.topics name).mp ⟨c, hfind, by rw [hset]; rfl⟩
        simp [Line.isBan, htopic]
      | none =>
        have hno : ¬ HasTopic sv net lines name := by
          rw [← h.topics name]
          intro ⟨c', hc', hset'⟩
          obtain rfl := Option.some.inj (hfind.symm.trans hc')
          rw [hset] at hset'
          exact Bool.noConfusion hset'
        refine Or.inr ⟨name, c, [.handleTopic c setter ts text,
          .topicSts c sv.chansvs setter ts (sv.contents s.net c).topicts text], hname, hfind, Or.inr ⟨rfl, hno⟩,
          List.cons_ne_nil _ _, ?_, ?_, by simp [Line.apply, hc, hset]⟩
        · intro x hx
          rcases List.mem_pair.mp hx with rfl | rfl <;> rfl
        · rw [run_cons, run_cons, run_nil, hL.topicSts, hL.handleTopic hset]
          rfl
  | ban type mask =>
    cases hc : s.c with
    | none => exact Or.inl ⟨by simp only [Line.apply, hc], fun name hname hfound => (hidle hc name hname hfound).elim⟩
    | some c =>
      obtain ⟨name, hname, hfind⟩ := hlast c hc
      refine Or.inr ⟨name, c, [.modestackModeParam sv.chansvs c type mask, .chanbanAdd c mask type], hname, hfind,
        Or.inl rfl, List.cons_ne_nil _ _, ?_, ?_, by simp only [Line.apply, hc]⟩
      · intro x hx
        rcases List.mem_pair.mp hx with rfl | rfl <;> rfl
      · rw [run_cons, run_cons, run_nil, (hL.chanbanAdd _ c mask type).1, hL.modestackModeParam]
        rfl

/-- One line after another is kept track of. -/
theorem Tracks.step (hL : Lawful sv) {s : Load σ χ} (h : Tracks sv net lines s) (line : CStr) :
    Tracks sv net (lines ++ [line]) ((readLine sv line).apply sv s) := by
  cases hchan : (readLine sv line).isChan with
  | false =>
    have hname : (readLine sv line).name? = none := by
      cases hline : readLine sv line with
      | chan name modes => rw [hline] at hchan; exact Bool.noConfusion hchan
      | _ => rfl
    rcases apply_cases hL h hchan with ⟨hsame, hacts⟩ | ⟨name, c, xs, hlast, hfind, -, -, hxs, ht, happly⟩
    · rw [hsame]
      exact h.silent hL hname hacts
    · rw [happly]
      exact h.called hL hname hlast hfind hxs ht
  | true =>
    cases hline : readLine sv line with
    | chan name modes => exact h.restored hL hline
    | badChan =>
      apply h.silent hL (by rw [hline]; rfl)
      intro n _ _ hacts
      simp [Acts, hline, Line.isBan, Line.isTopic] at hacts
    | topic setter ts text => rw [hline] at hchan; exact Bool.noConfusion hchan
    | ban type mask => rw [hline] at hchan; exact Bool.noConfusion hchan
    | other => rw [hline] at hchan; exact Bool.noConfusion hchan

/-- **The loop keeps track of the lines.** -/
theorem tracks_loaded (hL : Lawful sv) (net : σ) (lines : List CStr) :
    Tracks sv net lines (loaded sv net lines) := by
  induction lines using List.reverseRecOn with
  | nil => exact ⟨rfl, fun _ => by simp [loaded, Load.start, Found],
      fun _ => by simp [loaded, Load.start, HasTopic]⟩
  | append_singleton lines line ih =>
    rw [loaded_snoc]
    exact ih.step hL line

/-! ### The nearest `chan` line -/

theorem isChan_of_nearest {l : Line} (h : nearest sv lines = some l) : l.isChan = true :=
  (List.mem_filter.mp (List.mem_of_getLast? h)).2

/-- Without a `chan` line there is no complete one, and the nearest one is the
last complete one if it is complete. -/
theorem lastChan_of_nearest (lines : List CStr) : (nearest sv lines = none → lastChan sv lines = none) ∧
    ∀ name modes, nearest sv lines = some (.chan name modes) → lastChan sv lines = some name := by
  induction lines using List.reverseRecOn with
  | nil => exact ⟨fun _ => rfl, fun _ _ h => by simp [nearest] at h⟩
  | append_singleton lines line ih =>
    rw [nearest_snoc, lastChan_snoc]
    cases hline : readLine sv line with
    | chan name modes => simp [Line.isChan, Line.name?]
    | badChan => simp [Line.isChan]
    | topic setter ts text => exact ih
    | ban type mask => exact ih
    | other => exact ih

/-- Calls about a channel are applied to it. -/
theorem AppliedTo.called (hL : Lawful sv) {s : Load σ χ} {c : χ} {xs : List (Call χ)} (hne : xs ≠ [])
    (hxs : ∀ x ∈ xs, x.chan = some c) : AppliedTo sv c s (s.call sv xs) :=
  ⟨⟨xs, hne, rfl, hxs⟩, fun name => run_find hL name hxs, fun _ hc' => run_others hL hc' hxs, rfl⟩

theorem AppliedTo.ne {s s' : Load σ χ} {c : χ} (h : AppliedTo sv c s s') : s' ≠ s := by
  intro he
  obtain ⟨xs, hne, hcalls, -⟩ := h.calls
  rw [he] at hcalls
  exact hne (List.self_eq_append_right.mp hcalls)

theorem Acts.not_chan {name : CStr} (h : Acts sv net lines line name) : (readLine sv line).isChan = false := by
  unfold Acts at h
  cases hline : readLine sv line <;> simp [hline, Line.isBan, Line.isTopic] at h <;> rfl

/-- A line goes to the wrong channel exactly if it is a stray one. -/
theorem rightLine_iff (hL : Lawful sv) (net : σ) (pre : List CStr) (line : CStr) :
    RightLine sv net pre line ↔ ¬ Stray sv net pre line := by
  have htracks := tracks_loaded hL net pre
  unfold RightLine
  dsimp only
  rw [loadLine_eq]
  constructor
  · intro hright ⟨hbad, name, hname, hfound, hacts⟩
    have hchan := hacts.not_chan
    rcases apply_cases hL htracks hchan with ⟨-, hnot⟩ | ⟨_, c, xs, -, -, -, hne, hxs, -, happly⟩
    · exact hnot name hname hfound hacts
    · have happlied : AppliedTo sv c (loaded sv net pre) _ := .called hL hne hxs
      rw [← happly] at happlied
      rcases hright hchan with hsame | ⟨name', modes, c', hnear, -⟩
      · exact happlied.ne hsame
      · rw [hbad] at hnear
        simp at hnear
  · intro hstray hchan
    rcases apply_cases hL htracks hchan with ⟨hsame, -⟩ | ⟨name, c, xs, hname, hfind, hacts, hne, hxs, -, happly⟩
    · exact Or.inl hsame
    · right
      have happlied : AppliedTo sv c (loaded sv net pre) _ := .called hL hne hxs
      rw [← happly] at happlied
      cases hnear : nearest sv pre with
      | none =>
        have hnone := (lastChan_of_nearest pre).1 hnear
        rw [hname] at hnone
        simp at hnone
      | some l =>
        have hisChan := isChan_of_nearest hnear
        cases l with
        | chan name' modes =>
          have hlast := (lastChan_of_nearest pre).2 name' modes hnear
          rw [hname, Option.some.injEq] at hlast
          exact ⟨name', modes, c, rfl, hlast ▸ hfind, happlied⟩
        | badChan =>
          have hfound : Found sv net pre name := (htracks.found name).mp (by rw [hfind]; rfl)
          exact absurd ⟨hnear, name, hname, hfound, hacts⟩ hstray
        | topic setter ts text => exact Bool.noConfusion hisChan
        | ban type mask => exact Bool.noConfusion hisChan
        | other => exact Bool.noConfusion hisChan

/-- **`LOADCHANMODES` applies every line to the right channel exactly if there
is no stray line**: it loads the lines of the file one by one, and the only
lines that go wrong are those that follow an incomplete `chan` line and do
something to the channel of an earlier one. -/
theorem right_channel_iff {sv : Services σ χ} (hL : Lawful sv) (net : σ) {file : CStr}
    (h : ∀ line ∈ fileLines file, line.length ≤ 2047) :
    (osCmdLoadchanmodes sv (.ok file) net).1 = loaded sv net (fileLines file) ∧
      (RightChannel sv net file ↔ NoStray sv net file) := by
  refine ⟨load_file h _, ?_⟩
  unfold RightChannel NoStray
  exact forall_congr' fun pre => forall_congr' fun line => forall_congr' fun _ => imp_congr_right fun _ =>
    rightLine_iff hL net pre line

/-- The line of `#b` has no modes. -/
def noModes : CStr := "chan #a +nt\nchan #b\nban b *!*@host\n".toList

theorem right_channel_no_modes :
    (osCmdLoadchanmodes anyChannel (.ok noModes) noChannels).1 =
        loaded anyChannel noChannels (fileLines noModes) ∧
      (RightChannel anyChannel noChannels noModes ↔ NoStray anyChannel noChannels noModes) :=
  right_channel_iff anyChannel_lawful noChannels (by decide)

/-- `#a` gets the ban of `#b`. -/
theorem ban_astray :
    ((osCmdLoadchanmodes anyChannel (.ok noModes) noChannels).1.net.contents "#a".toList).bans =
      [⟨'b', "*!*@host".toList⟩] ∧
    ¬ RightChannel anyChannel noChannels noModes := by
  refine ⟨by decide, fun hright => ?_⟩
  have hline : RightLine anyChannel noChannels ["chan #a +nt\n".toList, "chan #b\n".toList]
      "ban b *!*@host\n".toList := hright _ _ [] (by decide)
  rw [rightLine_iff anyChannel_lawful] at hline
  have hfound : Found anyChannel noChannels ["chan #a +nt\n".toList, "chan #b\n".toList] "#a".toList :=
    Or.inr ⟨"chan #a +nt\n".toList, by simp, "#a".toList, by decide, rfl, irccasecmp_self _ _⟩
  exact hline ⟨by decide, "#a".toList, by decide, hfound, Or.inl (by decide)⟩

end Savechanmodes
end AthemeContrib
