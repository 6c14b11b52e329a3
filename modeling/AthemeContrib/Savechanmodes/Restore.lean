/-
# os_savechanmodes: what is restored

`LOADCHANMODES` undoes `SAVECHANMODES`: for each channel that was written the
core is called with its modes, its topic and its bans, in their order, and
nothing else is called (`chanmodes_restored`). Only a ban with an empty mask is
lost, and more than 256 mode words do not fit (`empty_mask_lost`).

First the lines are read back, which gives the calls (`load_dump`); then the
laws of the core say what the calls come to (`setCalls_contents`).

Key definitions: `dumpLines`, `Writable`, `Channel.calls`, `Kept`, `Placed`,
`Restored`.
Key theorems: `load_dump`, `setCalls_contents`, `load_channel`,
`chanmodes_restored`, `empty_mask_lost`.
-/
import AthemeContrib.Savechanmodes.Model

namespace AthemeContrib
namespace Savechanmodes

open CStr

variable {σ χ : Type} {sv : Services σ χ}

/-! ### What was written -/

/-- The lines that are written of a channel, without their newlines. -/
def dumpLines (c : Channel) : List CStr :=
  ("chan ".toList ++ c.name ++ ' ' :: c.modes) ::
    ((c.topic.map fun t =>
      "topic ".toList ++ t.setter ++ ' ' :: Nat.toDigits 10 c.topicts ++ ' ' :: t.topic).toList ++
      c.bans.map fun cb => "ban ".toList ++ cb.type :: ' ' :: cb.mask)

/-- The file of the lines. -/
def fileOf (lines : List CStr) : CStr := lines.flatMap fun line => line ++ ['\n']

theorem fileOf_cons (line : CStr) (lines : List CStr) :
    fileOf (line :: lines) = line ++ '\n' :: fileOf lines := by simp [fileOf]

theorem dumpChannel_eq (c : Channel) : dumpChannel c = fileOf (dumpLines c) := by
  have hban : dumpBan = fun cb => ("ban ".toList ++ cb.type :: ' ' :: cb.mask) ++ ['\n'] := by
    funext cb
    rfl
  unfold dumpChannel dumpLines dumpTopic fileOf
  rw [hban]
  cases c.topic with
  | none => simp [List.flatMap_map]
  | some t => simp [List.flatMap_map]

/-- A line that `fgets` reads whole. -/
def Fits (line : CStr) : Prop := '\n' ∉ line ∧ '\x00' ∉ line ∧ line.length < 2047

/-- A channel whose lines can be read back: the words have no blanks, no field
is empty, every line is one line that fits, and the mode words fit. -/
structure Writable (d : Channel) : Prop where
  name : d.name ≠ [] ∧ ' ' ∉ d.name
  modes : d.modes ≠ []
  words : (tokens [' '] d.modes).length ≤ modeparvSize
  topic : ∀ t, d.topic = some t → t.setter ≠ [] ∧ ' ' ∉ t.setter ∧ t.topic ≠ []
  topicts : d.topicts < 2 ^ 64
  bans : ∀ cb ∈ d.bans, cb.type ≠ ' ' ∧ cb.mask ≠ []
  fits : ∀ line ∈ dumpLines d, Fits line

theorem fileLines_fileOf : ∀ {lines : List CStr}, (∀ line ∈ lines, '\n' ∉ line) →
    fileLines (fileOf lines) = lines.map (· ++ ['\n'])
  | [], _ => rfl
  | line :: lines, h => by
    rw [fileOf_cons, fileLines_line (h line (by simp)), List.map_cons,
      fileLines_fileOf fun l hl => h l (List.mem_cons_of_mem line hl)]

/-- Lines that are written are read back. -/
theorem load_lines {lines : List CStr} {s : Load σ χ} (h : ∀ line ∈ lines, Fits line) :
    loadFile sv (fileOf lines) s = lines.foldl (fun s line => loadLine sv (line ++ ['\n']) s) s := by
  have hfile : fileLines (fileOf lines) = lines.map (· ++ ['\n']) := fileLines_fileOf fun l hl => (h l hl).1
  rw [load_file, hfile, List.foldl_map]
  · refine List.foldl_ext _ _ _ fun s line hline => ?_
    rw [cstr_eq_self]
    simpa using (h line hline).2.1
  · rw [hfile]
    intro line hline
    obtain ⟨l, hl, rfl⟩ := List.mem_map.mp hline
    have hlen := (h l hl).2.2
    rw [List.length_append, List.length_singleton]
    omega

/-- The rest of a line is one field. -/
theorem strtok_line {t : CStr} (h0 : t ≠ []) (hnl : '\n' ∉ t) :
    strtok none ['\n'] (t ++ ['\n']) = (some t, []) := by
  refine strtok_word h0 (fun c hc hmem => ?_) (by simp) []
  rw [List.mem_singleton.mp hmem] at hc
  exact hnl hc

theorem strtok_field {w : CStr} (h0 : w ≠ []) (hw : ' ' ∉ w) (t : CStr) :
    strtok none [' '] (w ++ ' ' :: t) = (some w, t) := strtok_word h0 (not_mem_blank hw) (by simp) t

theorem load_chan (hS : Splits sv) {name modes : CStr} (h0 : name ≠ []) (hn : ' ' ∉ name) (hm0 : modes ≠ [])
    (hm : '\n' ∉ modes) (s : Load σ χ) :
    loadLine sv ("chan ".toList ++ name ++ ' ' :: modes ++ ['\n']) s = restoreChannel sv name modes s := by
  have hline : "chan ".toList ++ name ++ ' ' :: modes ++ ['\n'] =
      "chan".toList ++ ' ' :: (name ++ ' ' :: (modes ++ ['\n'])) := by simp
  have hitem := strtok_field (w := "chan".toList) (by decide) (by decide) (name ++ ' ' :: (modes ++ ['\n']))
  have hstrip : sv.strip "chan".toList = "chan".toList := hS.strip (by simp)
  rw [loadLine, strtok_some, hline, hitem]
  simp only [hstrip, loadChan, strtok_field h0 hn, strtok_line hm0 hm]
  rfl

/-- The calls that set the topic `t` of the time `ts` on the channel `c`, whose
topic was of the time `prevts`. -/
def topicCalls (sv : Services σ χ) (c : χ) (ts prevts : ℕ) (t : Topic) : List (Call χ) :=
  [.handleTopic c t.setter ts t.topic, .topicSts c sv.chansvs t.setter ts prevts t.topic]

/-- The calls that set the ban `cb` on the channel `c`. -/
def banCalls (sv : Services σ χ) (c : χ) (cb : Chanban) : List (Call χ) :=
  [.modestackModeParam sv.chansvs c cb.type cb.mask, .chanbanAdd c cb.mask cb.type]

theorem load_topic (hS : Splits sv) {t : Topic} {ts : ℕ} (h0 : t.setter ≠ []) (hs : ' ' ∉ t.setter)
    (hts : ts < 2 ^ 64) (ht0 : t.topic ≠ []) (ht : '\n' ∉ t.topic) {s : Load σ χ} {c : χ} (hc : s.c = some c)
    (hno : (sv.contents s.net c).topic = none) :
    loadLine sv ("topic ".toList ++ t.setter ++ ' ' :: Nat.toDigits 10 ts ++ ' ' :: t.topic ++ ['\n']) s =
      s.call sv (topicCalls sv c ts (sv.contents s.net c).topicts t) := by
  obtain ⟨hd0, hd⟩ := toDigits_word ts
  have hline : "topic ".toList ++ t.setter ++ ' ' :: Nat.toDigits 10 ts ++ ' ' :: t.topic ++ ['\n'] =
      "topic".toList ++ ' ' :: (t.setter ++ ' ' :: (Nat.toDigits 10 ts ++ ' ' :: (t.topic ++ ['\n']))) := by simp
  have hitem := strtok_field (w := "topic".toList) (by decide) (by decide)
    (t.setter ++ ' ' :: (Nat.toDigits 10 ts ++ ' ' :: (t.topic ++ ['\n'])))
  have hstrip : sv.strip "topic".toList = "topic".toList := hS.strip (by simp)
  have hload : loadLine sv
      ("topic ".toList ++ t.setter ++ ' ' :: Nat.toDigits 10 ts ++ ' ' :: t.topic ++ ['\n']) s =
      loadTopic sv (t.setter ++ ' ' :: (Nat.toDigits 10 ts ++ ' ' :: (t.topic ++ ['\n']))) s := by
    rw [loadLine, strtok_some, hline, hitem]
    simp only [hstrip]
    rfl
  rw [hload, loadTopic, hc]
  simp only [strtok_field h0 hs, strtok_field hd0 hd, strtok_line ht0 ht, strtoul_toDigits hts, hno]
  rfl

theorem load_ban (hS : Splits sv) {cb : Chanban} (ht : cb.type ≠ ' ') (hm0 : cb.mask ≠ []) (hm : '\n' ∉ cb.mask)
    {s : Load σ χ} {c : χ} (hc : s.c = some c) :
    loadLine sv ("ban ".toList ++ cb.type :: ' ' :: cb.mask ++ ['\n']) s = s.call sv (banCalls sv c cb) := by
  have hline : "ban ".toList ++ cb.type :: ' ' :: cb.mask ++ ['\n'] =
      "ban".toList ++ ' ' :: ([cb.type] ++ ' ' :: (cb.mask ++ ['\n'])) := by simp
  have hitem := strtok_field (w := "ban".toList) (by decide) (by decide)
    ([cb.type] ++ ' ' :: (cb.mask ++ ['\n']))
  have htype := strtok_field (w := [cb.type]) (by simp) (by simpa using ht.symm) (cb.mask ++ ['\n'])
  have hstrip : sv.strip "ban".toList = "ban".toList := hS.strip (by simp)
  have hload : loadLine sv ("ban ".toList ++ cb.type :: ' ' :: cb.mask ++ ['\n']) s =
      loadBan sv ([cb.type] ++ ' ' :: (cb.mask ++ ['\n'])) s := by
    rw [loadLine, strtok_some, hline, hitem]
    simp only [hstrip]
    rfl
  rw [hload, loadBan, hc]
  simp only [htype, strtok_line hm0 hm]
  rfl

/-- The calls about the channel `c` that set what `d` has; its topic was of the
time `prevts`. -/
def Channel.setCalls (sv : Services σ χ) (d : Channel) (c : χ) (prevts : ℕ) : List (Call χ) :=
  .channelMode sv.svs c (tokens [' '] d.modes) ::
    (d.topic.toList.flatMap (topicCalls sv c d.topicts prevts) ++ d.bans.flatMap (banCalls sv c))

/-- The calls for `d`: its channel is joined, and gets what `d` has. -/
def Channel.calls (sv : Services σ χ) (d : Channel) (c : χ) (prevts : ℕ) : List (Call χ) :=
  .join d.name sv.chansvs :: d.setCalls sv c prevts

theorem topicCalls_chan {c : χ} {ts prevts : ℕ} {t : Topic} :
    ∀ x ∈ topicCalls sv c ts prevts t, x.chan = some c := by
  intro x hx
  rcases List.mem_pair.mp hx with rfl | rfl <;> rfl

theorem banCalls_chan {c : χ} {cb : Chanban} : ∀ x ∈ banCalls sv c cb, x.chan = some c := by
  intro x hx
  rcases List.mem_pair.mp hx with rfl | rfl <;> rfl

theorem setCalls_chan {d : Channel} {c : χ} {prevts : ℕ} : ∀ x ∈ d.setCalls sv c prevts, x.chan = some c := by
  intro x hx
  rcases List.mem_cons.mp hx with rfl | hx
  · rfl
  · rcases List.mem_append.mp hx with hx | hx
    · obtain ⟨t, -, hx⟩ := List.mem_flatMap.mp hx
      exact topicCalls_chan x hx
    · obtain ⟨cb, -, hx⟩ := List.mem_flatMap.mp hx
      exact banCalls_chan x hx

/-- The bans are read one by one. -/
theorem load_bans (hS : Splits sv) {c : χ} : ∀ (bans : List Chanban) (s : Load σ χ),
    (∀ cb ∈ bans, cb.type ≠ ' ' ∧ cb.mask ≠ [] ∧ '\n' ∉ cb.mask) → s.c = some c →
    (bans.map fun cb => "ban ".toList ++ cb.type :: ' ' :: cb.mask).foldl
        (fun s line => loadLine sv (line ++ ['\n']) s) s =
      s.call sv (bans.flatMap (banCalls sv c))
  | [], s, _, _ => by simp [Load.call]
  | cb :: bans, s, hb, hc => by
    obtain ⟨ht, hm0, hm⟩ := hb cb (by simp)
    have hline : loadLine sv ("ban ".toList ++ cb.type :: ' ' :: cb.mask ++ ['\n']) s = _ :=
      load_ban hS ht hm0 hm hc
    have hrest := load_bans hS bans (s.call sv (banCalls sv c cb))
      (fun cb' hcb => hb cb' (List.mem_cons_of_mem cb hcb)) hc
    simp only [List.map_cons, List.foldl_cons, List.flatMap_cons]
    rw [hline, hrest, Load.call_call]

/-- The channel that is found becomes the current one, and its modes are set. -/
theorem restoreChannel_eq (hS : Splits sv) {name modes : CStr}
    (hwords : (tokens [' '] modes).length ≤ modeparvSize) {s : Load σ χ} {c : χ}
    (hfind : sv.channelFind (sv.exec (.join name sv.chansvs) s.net) name = some c) :
    restoreChannel sv name modes s =
      { s.call sv [.join name sv.chansvs, .channelMode sv.svs c (tokens [' '] modes)] with c := some c } := by
  have hroom : decide (modeparvSize < (tokens [' '] modes).length) = false := by
    rw [decide_eq_false_iff_not]
    omega
  unfold restoreChannel
  simp only [Load.call, run_cons, run_nil, hfind, hS.sjtoken hwords, hroom, Bool.or_false, List.append_assoc]
  rfl

/-- **The lines of a channel make its calls**, if it is found and has no
topic. -/
theorem load_dump (hL : Lawful sv) (hS : Splits sv) {d : Channel} (hw : Writable d) {s : Load σ χ} {c : χ}
    (hfind : sv.channelFind (sv.exec (.join d.name sv.chansvs) s.net) d.name = some c)
    (hno : (sv.contents (sv.exec (.join d.name sv.chansvs) s.net) c).topic = none) :
    (dumpLines d).foldl (fun s line => loadLine sv (line ++ ['\n']) s) s =
      { s.call sv (d.calls sv c (sv.contents (sv.exec (.join d.name sv.chansvs) s.net) c).topicts) with
        c := some c } := by
  have hfit : Fits ("chan ".toList ++ d.name ++ ' ' :: d.modes) := hw.fits _ (by simp [dumpLines])
  have hnl : '\n' ∉ d.modes := fun hmem => hfit.1 (by simp [hmem])
  have hbans : ∀ cb ∈ d.bans, cb.type ≠ ' ' ∧ cb.mask ≠ [] ∧ '\n' ∉ cb.mask := by
    intro cb hcb
    have hmem : "ban ".toList ++ cb.type :: ' ' :: cb.mask ∈ dumpLines d :=
      List.mem_cons_of_mem _ (List.mem_append_right _ (List.mem_map.mpr ⟨cb, hcb, rfl⟩))
    exact ⟨(hw.bans cb hcb).1, (hw.bans cb hcb).2, fun hc => (hw.fits _ hmem).1 (by simp [hc])⟩
  have hchan : loadLine sv ("chan ".toList ++ d.name ++ ' ' :: d.modes ++ ['\n']) s = _ :=
    (load_chan hS hw.name.1 hw.name.2 hw.modes hnl s).trans (restoreChannel_eq hS hw.words hfind)
  simp only [dumpLines, List.foldl_cons, List.foldl_append, hchan]
  cases ht : d.topic with
  | none =>
    simp only [Option.map_none, Option.toList_none, List.foldl_nil]
    rw [load_bans hS d.bans _ hbans rfl]
    simp [Channel.calls, Channel.setCalls, ht, Load.call]
  | some t =>
    obtain ⟨h0, hblank, ht0⟩ := hw.topic t ht
    have hfit : Fits ("topic ".toList ++ t.setter ++ ' ' :: Nat.toDigits 10 d.topicts ++ ' ' :: t.topic) :=
      hw.fits _ (by simp [dumpLines, ht])
    have hnl : '\n' ∉ t.topic := fun hmem => hfit.1 (by simp [hmem])
    -- setting the modes left the channel without a topic
    obtain ⟨htopic, hts, -⟩ := hL.channelMode (sv.exec (.join d.name sv.chansvs) s.net) sv.svs c
      (tokens [' '] d.modes)
    simp only [Option.map_some, Option.toList_some, List.foldl_cons, List.foldl_nil]
    rw [load_topic hS h0 hblank hw.topicts ht0 hnl rfl (htopic.trans hno), load_bans hS d.bans _ hbans rfl]
    simp [Channel.calls, Channel.setCalls, ht, Load.call, run_append, hts]

/-! ### What the calls come to -/

/-- A channel as the core keeps it: none of its mode words is for a list, its
setter has been kept before, and no ban is there twice. -/
structure Kept (sv : Services σ χ) (d : Channel) : Prop where
  modes : ∀ x ∈ (tokens [' '] d.modes).headD [], x ∉ sv.banLikeModes
  setter : ∀ t, d.topic = some t → sv.newsetter t.setter = t.setter
  bans : d.bans.Pairwise fun cb cb' => cb.type = cb'.type → sv.irccasecmp cb.mask cb'.mask = false

theorem topicCalls_contents (hL : Lawful sv) {net : σ} {c : χ} (hno : (sv.contents net c).topic = none)
    (ts prevts : ℕ) (t : Topic) : sv.contents (sv.run (topicCalls sv c ts prevts t) net) c =
      { sv.contents net c with topic := some ⟨t.topic, sv.newsetter t.setter⟩, topicts := ts } := by
  rw [topicCalls, run_cons, run_cons, run_nil, hL.topicSts, hL.handleTopic hno]

/-- The topic stays, and bans that are all different are added in their order. -/
theorem banCalls_contents (hL : Lawful sv) (c : χ) : ∀ (bans : List Chanban) (net : σ),
    let k := sv.contents (sv.run (bans.flatMap (banCalls sv c)) net) c
    k.topic = (sv.contents net c).topic ∧ k.topicts = (sv.contents net c).topicts ∧
      (((sv.contents net c).bans ++ bans).Pairwise (fun cb cb' =>
          cb.type = cb'.type → sv.irccasecmp cb.mask cb'.mask = false) →
        k.bans = (sv.contents net c).bans ++ bans)
  | [], net => ⟨rfl, rfl, fun _ => (List.append_nil _).symm⟩
  | cb :: bans, net => by
    have hrun : sv.run ((cb :: bans).flatMap (banCalls sv c)) net = sv.run (bans.flatMap (banCalls sv c))
        (sv.exec (.chanbanAdd c cb.mask cb.type)
          (sv.exec (.modestackModeParam sv.chansvs c cb.type cb.mask) net)) := rfl
    obtain ⟨htopic, hts, hban⟩ :=
      hL.chanbanAdd (sv.exec (.modestackModeParam sv.chansvs c cb.type cb.mask) net) c cb.mask cb.type
    rw [hL.modestackModeParam] at htopic hts hban
    obtain ⟨htopic', hts', hbans'⟩ := banCalls_contents hL c bans (sv.exec (.chanbanAdd c cb.mask
      cb.type) (sv.exec (.modestackModeParam sv.chansvs c cb.type cb.mask) net))
    rw [hrun]
    refine ⟨htopic'.trans htopic, hts'.trans hts, fun hne => ?_⟩
    have hnew := hban fun cb' hcb' => (List.pairwise_append.mp hne).2.2 cb' hcb' cb (by simp)
    rw [hnew, List.append_assoc] at hbans'
    exact hbans' hne

/-- **The calls set what `d` has** on a channel without a topic and bans. -/
theorem setCalls_contents (hL : Lawful sv) {d : Channel} (hK : Kept sv d) {net : σ} {c : χ}
    (hno : (sv.contents net c).topic = none ∧ (sv.contents net c).bans = []) (prevts : ℕ) :
    let k := sv.contents (sv.run (d.setCalls sv c prevts) net) c
    k.topic = d.topic ∧ (d.topic.isSome → k.topicts = d.topicts) ∧ k.bans = d.bans := by
  obtain ⟨htopic, -, hlist⟩ := hL.channelMode net sv.svs c (tokens [' '] d.modes)
  have hbans0 := (hlist hK.modes).trans hno.2
  have htopic0 := htopic.trans hno.1
  rw [Channel.setCalls, run_cons, run_append]
  generalize sv.exec (.channelMode sv.svs c (tokens [' '] d.modes)) net = net' at hbans0 htopic0
  cases ht : d.topic with
  | none =>
    obtain ⟨htopic', -, hbans'⟩ := banCalls_contents hL c d.bans net'
    rw [hbans0] at hbans'
    exact ⟨htopic'.trans htopic0, fun hsome => Bool.noConfusion hsome, hbans' hK.bans⟩
  | some t =>
    have hset := topicCalls_contents hL htopic0 d.topicts prevts t
    rw [hK.setter t ht] at hset
    simp only [Option.toList_some, List.flatMap_singleton]
    obtain ⟨htopic', hts', hbans'⟩ := banCalls_contents hL c d.bans
      (sv.run (topicCalls sv c d.topicts prevts t) net')
    rw [hset] at htopic' hts' hbans'
    rw [hbans0] at hbans'
    exact ⟨htopic', fun _ => hts', hbans' hK.bans⟩

/-! ### The round trip -/

/-- From `s` to `s'` the channel `c`, whose topic was of the time `prevts`, has
got what `d` has: it is found by the name of `d`, and is the channel that was
there if there was one. -/
structure Placed (sv : Services σ χ) (s s' : Load σ χ) (d : Channel) (c : χ) (prevts : ℕ) : Prop where
  found : sv.channelFind s'.net d.name = some c
  there : ∀ c', sv.channelFind s.net d.name = some c' → c' = c ∧ prevts = (sv.contents s.net c).topicts
  contents : Kept sv d → (sv.contents s'.net c).topic = d.topic ∧
    (d.topic.isSome → (sv.contents s'.net c).topicts = d.topicts) ∧ (sv.contents s'.net c).bans = d.bans

/-- From `s` to `s'` each of the channels has been restored, and nothing else
has been done: the calls are those for one channel after the other, `modeparv`
has room for all mode words, and the channels of other names are as before. -/
structure Restored (sv : Services σ χ) (saved : List Channel) (s s' : Load σ χ) : Prop where
  calls : ∃ parts, s'.calls = s.calls ++ parts.flatten ∧
    List.Forall₂ (fun d part => ∃ c prevts, part = d.calls sv c prevts ∧ Placed sv s s' d c prevts) saved parts
  room : s'.overrun = s.overrun
  found : ∀ name, (∀ d ∈ saved, sv.irccasecmp d.name name = false) →
    sv.channelFind s'.net name = sv.channelFind s.net name
  others : ∀ name c, (∀ d ∈ saved, sv.irccasecmp d.name name = false) → sv.channelFind s.net name = some c →
    sv.contents s'.net c = sv.contents s.net c

/-- The channels that are joined have neither topic nor bans, if they are
there. -/
def Fresh (sv : Services σ χ) (net : σ) (d : Channel) : Prop :=
  ∀ c, sv.channelFind net d.name = some c → (sv.contents net c).topic = none ∧ (sv.contents net c).bans = []

/-- A channel that is joined is found, and is fresh if it was. -/
theorem join_fresh (hL : Lawful sv) {d : Channel} (hj : sv.joinable d.name = true) {net : σ}
    (hno : Fresh sv net d) (nick : String) :
    ∃ c, sv.channelFind (sv.exec (.join d.name nick) net) d.name = some c ∧
      ((sv.contents (sv.exec (.join d.name nick) net) c).topic = none ∧
        (sv.contents (sv.exec (.join d.name nick) net) c).bans = []) ∧
      ∀ c', sv.channelFind net d.name = some c' →
        c' = c ∧ sv.contents (sv.exec (.join d.name nick) net) c = sv.contents net c := by
  cases hfind : sv.channelFind net d.name with
  | some c =>
    obtain ⟨hfound, hsame⟩ := hL.join_there hfind d.name nick
    refine ⟨c, hfound, ?_, fun c' hc' => ?_⟩
    · rw [hsame]
      exact hno c hfind
    · obtain rfl := Option.some.inj hc'
      exact ⟨rfl, hsame⟩
  | none =>
    have hsome := hL.join_new hfind d.name nick
    rw [hj, irccasecmp_self, Bool.and_self] at hsome
    obtain ⟨c, hc⟩ := Option.isSome_iff_exists.mp hsome
    exact ⟨c, hc, hL.join_created hfind hc, fun c' hc' => by cases hc'⟩

/-- **A channel is restored from its lines.** -/
theorem load_channel (hL : Lawful sv) (hS : Splits sv) {d : Channel} (hw : Writable d)
    (hj : sv.joinable d.name = true) {s : Load σ χ} (hno : Fresh sv s.net d) :
    Restored sv [d] s ((dumpLines d).foldl (fun s line => loadLine sv (line ++ ['\n']) s) s) := by
  obtain ⟨c, hfind, hfresh, hthere⟩ := join_fresh hL hj hno sv.chansvs
  rw [load_dump hL hS hw hfind hfresh.1]
  generalize hp : (sv.contents (sv.exec (.join d.name sv.chansvs) s.net) c).topicts = prevts
  have hset : ∀ x ∈ d.setCalls sv c prevts, x.chan = some c := setCalls_chan
  -- another channel is not created by joining this one, and is not the one of the other calls
  have hjoin : ∀ name, sv.irccasecmp d.name name = false →
      sv.channelFind (sv.exec (.join d.name sv.chansvs) s.net) name = sv.channelFind s.net name := by
    intro name hname
    cases hname' : sv.channelFind s.net name with
    | some c' => exact (hL.join_there hname' d.name sv.chansvs).1
    | none =>
      have hnone := hL.join_new hname' d.name sv.chansvs
      rw [hname, Bool.and_false] at hnone
      exact Option.not_isSome_iff_eq_none.mp (by rw [hnone]; exact Bool.false_ne_true)
  refine ⟨⟨[d.calls sv c prevts], by simp [Load.call], .cons ⟨c, prevts, rfl, ?_, ?_, ?_⟩ .nil⟩, rfl,
    fun name hname => ?_, fun name c' hname hc' => ?_⟩
  · exact (run_find hL d.name hset).trans hfind
  · intro c' hc'
    obtain ⟨rfl, hsame⟩ := hthere c' hc'
    exact ⟨rfl, by rw [← hp, hsame]⟩
  · exact fun hK => setCalls_contents hL hK hfresh prevts
  · exact (run_find hL name hset).trans (hjoin name (hname d (by simp)))
  · obtain ⟨hfound', hsame⟩ := hL.join_there hc' d.name sv.chansvs
    have hne : c' ≠ c := by
      rintro rfl
      have heq := (hL.same hfind).mp hfound'
      rw [hname d (by simp)] at heq
      exact Bool.noConfusion heq
    exact (run_others hL hne hset).trans hsame

/-- First one channel is restored, then the others. -/
theorem Restored.cons {d : Channel} {saved : List Channel} {s s' s'' : Load σ χ} (h : Restored sv [d] s s')
    (h' : Restored sv saved s' s'') (hne : ∀ d' ∈ saved, sv.irccasecmp d.name d'.name = false) :
    Restored sv (d :: saved) s s'' := by
  obtain ⟨parts, hcalls, hparts⟩ := h.calls
  obtain ⟨part, rest, ⟨c, prevts, hpart, hplaced⟩, hrest, rfl⟩ := List.forall₂_cons_left_iff.mp hparts
  obtain rfl := List.forall₂_nil_left_iff.mp hrest
  obtain ⟨parts', hcalls', hparts'⟩ := h'.calls
  have hrev : ∀ d' ∈ saved, sv.irccasecmp d'.name d.name = false := by
    intro d' hd'
    rw [irccasecmp_comm]
    exact hne d' hd'
  refine ⟨⟨part :: parts', ?_, .cons ⟨c, prevts, hpart, ?_, hplaced.there, fun hK => ?_⟩ ?_⟩,
    h'.room.trans h.room, fun name hname => ?_, fun name c' hname hc' => ?_⟩
  · rw [hcalls', hcalls, List.flatten_cons, List.flatten_cons, List.flatten_nil, List.append_nil,
      List.append_assoc]
  · rw [h'.found d.name hrev]
    exact hplaced.found
  · rw [h'.others d.name c hrev hplaced.found]
    exact hplaced.contents hK
  · have hd : ∀ d' ∈ saved, sv.channelFind s'.net d'.name = sv.channelFind s.net d'.name ∧
        ∀ c', sv.channelFind s.net d'.name = some c' → sv.contents s'.net c' = sv.contents s.net c' := by
      intro d' hd'
      have hname : ∀ x ∈ [d], sv.irccasecmp x.name d'.name = false := by
        intro x hx
        rw [List.mem_singleton.mp hx]
        exact hne d' hd'
      exact ⟨h.found d'.name hname, fun c' hc' => h.others d'.name c' hname hc'⟩
    refine ((List.forall₂_and_left saved parts').mpr ⟨fun d' hd' => hd', hparts'⟩).imp ?_
    intro d' part' ⟨hd', c', prevts', hpart', hplaced'⟩
    refine ⟨c', prevts', hpart', hplaced'.found, fun c'' hc'' => ?_, hplaced'.contents⟩
    obtain ⟨hfind, hsame⟩ := hd d' hd'
    obtain ⟨rfl, hts⟩ := hplaced'.there c'' (hfind.trans hc'')
    exact ⟨rfl, by rw [hts, hsame c'' hc'']⟩
  · rw [h'.found name fun d' hd' => hname d' (List.mem_cons_of_mem d hd'),
      h.found name fun x hx => hname x (by rw [List.mem_singleton.mp hx]; simp)]
  · have hd : ∀ x ∈ [d], sv.irccasecmp x.name name = false :=
      fun x hx => hname x (by rw [List.mem_singleton.mp hx]; simp)
    rw [h'.others name c' (fun d' hd' => hname d' (List.mem_cons_of_mem d hd')) ((h.found name hd).trans hc'),
      h.others name c' hd hc']

/-- The channels are restored one after another. -/
theorem load_channels (hL : Lawful sv) (hS : Splits sv) : ∀ {saved : List Channel} {s : Load σ χ},
    (∀ d ∈ saved, Writable d ∧ sv.joinable d.name = true) →
    saved.Pairwise (fun d d' => sv.irccasecmp d.name d'.name = false) → (∀ d ∈ saved, Fresh sv s.net d) →
    Restored sv saved s ((saved.flatMap dumpLines).foldl (fun s line => loadLine sv (line ++ ['\n']) s) s)
  | [], s, _, _, _ => ⟨⟨[], (List.append_nil _).symm, .nil⟩, rfl, fun _ _ => rfl, fun _ _ _ _ => rfl⟩
  | d :: saved, s, hw, hne, hno => by
    rw [List.pairwise_cons] at hne
    have hd := load_channel hL hS (hw d (by simp)).1 (hw d (by simp)).2 (hno d (by simp))
    rw [List.flatMap_cons, List.foldl_append]
    refine hd.cons (load_channels hL hS (fun d' hd' => hw d' (List.mem_cons_of_mem d hd')) hne.2 ?_) hne.1
    intro d' hd' c hc
    have hname : ∀ x ∈ [d], sv.irccasecmp x.name d'.name = false := by
      intro x hx
      rw [List.mem_singleton.mp hx]
      exact hne.1 d' hd'
    rw [hd.found d'.name hname] at hc
    rw [hd.others d'.name c hname hc]
    exact hno d' (List.mem_cons_of_mem d hd') c hc

/-- **`LOADCHANMODES` undoes `SAVECHANMODES`**: each channel that was written
gets its modes, its topic and its bans, in their order, and nothing else is
called. -/
theorem chanmodes_restored {sv : Services σ χ} (hL : Lawful sv) (hS : Splits sv) (file : Option CStr)
    {saved : List Channel} {net : σ} (hw : ∀ d ∈ saved, Writable d)
    (hj : ∀ d ∈ saved, sv.joinable d.name = true)
    (hne : saved.Pairwise fun d d' => sv.irccasecmp d.name d'.name = false)
    (hno : ∀ d ∈ saved, Fresh sv net d) :
    ∃ text, (osCmdSavechanmodes sv none saved file).1 = some text ∧
      Restored sv saved (.start net) (osCmdLoadchanmodes sv (.ok text) net).1 := by
  have htext : saved.flatMap dumpChannel = fileOf (saved.flatMap dumpLines) := by
    have hdump : dumpChannel = fun d => fileOf (dumpLines d) := funext dumpChannel_eq
    unfold fileOf at hdump ⊢
    rw [hdump, List.flatMap_assoc]
  have hfits : ∀ line ∈ saved.flatMap dumpLines, Fits line := by
    intro line hline
    obtain ⟨d, hd, hmem⟩ := List.mem_flatMap.mp hline
    exact (hw d hd).fits line hmem
  have hload : (osCmdLoadchanmodes sv (.ok (saved.flatMap dumpChannel)) net).1 =
      (saved.flatMap dumpLines).foldl (fun s line => loadLine sv (line ++ ['\n']) s) (.start net) := by
    rw [htext]
    exact load_lines hfits
  refine ⟨saved.flatMap dumpChannel, rfl, ?_⟩
  rw [hload]
  exact load_channels hL hS (fun d hd => ⟨hw d hd, hj d hd⟩) hne hno

/-- A channel with a topic and a ban whose mask is `mask`. -/
def banned (mask : CStr) : Channel where
  name := "#a".toList
  modes := "+ntl 5".toList
  topic := some ⟨" two  words".toList, "oper".toList⟩
  topicts := 1200000000
  bans := [⟨'b', mask⟩]

/-- `#a`, with its modes, its topic and a ban. -/
theorem chanmodes_restored_ban : ∃ text,
    (osCmdSavechanmodes anyChannel none [banned "*!*@host".toList] none).1 = some text ∧
      Restored anyChannel [banned "*!*@host".toList] (.start noChannels)
        (osCmdLoadchanmodes anyChannel (.ok text) noChannels).1 :=
  chanmodes_restored anyChannel_lawful anyChannel_splits none
    (by
      intro d hd
      rw [List.mem_singleton.mp hd]
      exact ⟨by decide, by decide, by decide, by decide, by decide, by decide, by unfold Fits; decide⟩)
    (fun _ _ => rfl) (List.pairwise_singleton _ _) (fun d _ ch hch => by cases hch)

/-- A channel with 257 mode words. -/
def wordy : Channel where
  name := "#a".toList
  modes := '+' :: (List.replicate 256 " a".toList).flatten
  topic := none
  topicts := 0
  bans := []

/-- A ban with an empty mask is not read back, and the mode words that are one
too many are written behind `modeparv`. -/
theorem empty_mask_lost :
    (∃ text, (osCmdSavechanmodes anyChannel none [banned []] none).1 = some text ∧
      ((osCmdLoadchanmodes anyChannel (.ok text) noChannels).1.net.contents "#a".toList).bans = [] ∧
      ¬ Restored anyChannel [banned []] (.start noChannels)
        (osCmdLoadchanmodes anyChannel (.ok text) noChannels).1) ∧
    ∃ text, (osCmdSavechanmodes anyChannel none [wordy] none).1 = some text ∧
      (osCmdLoadchanmodes anyChannel (.ok text) noChannels).1.overrun = true := by
  refine ⟨⟨_, rfl, by decide, fun h => ?_⟩, _, rfl, by decide +kernel⟩
  obtain ⟨parts, hcalls, hparts⟩ := h.calls
  obtain ⟨part, rest, ⟨c, prevts, hpart, -⟩, hrest, rfl⟩ := List.forall₂_cons_left_iff.mp hparts
  obtain rfl := List.forall₂_nil_left_iff.mp hrest
  -- the loader makes four calls, and the ban needs two more
  have hfour : (osCmdLoadchanmodes anyChannel (.ok ([banned []].flatMap dumpChannel))
      noChannels).1.calls.length = 4 := by decide
  have hsix : ([part].flatten : List (Call CStr)).length = 6 := by
    rw [hpart]
    rfl
  rw [hcalls, Load.start, List.nil_append, hsix] at hfour
  omega

end Savechanmodes
end AthemeContrib
