/-
# cs_badwords: what decides about a message

Whether a channel blocks bad words, whether its operators may say them and which words
these are is set by commands, each of which is refused unless its source may set it.
After any commands a message is punished exactly if the last `SET BLOCKBADWORDS` that
was accepted for its channel is an `ON`, the last `ADD` or `DEL` that was accepted of
some pattern that it matches is an `ADD`, and who says it is in the channel and is no
operator of it, or the last `SET BLOCKBADWORDSOPS` is no `ON` (`punished_iff`). What is
done then is one of the five sanctions: the commands let no other action into the
lists.

Key definitions: `Setting`, `setBlock`, `Change`, `apply`, `flagOps`, `wordOps`, `patterns`.
Key theorems: `setBlock_get`, `applyAll_follows`, `punished_iff`.
-/
import AthemeContrib.Badwords.Enforce
import AthemeContrib.Lib.Standing

namespace AthemeContrib
namespace Badwords

open CStr

/-! ### The settings -/

/-- The two metadata that are set. -/
inductive Setting
  | blockbadwords
  | blockbadwordsops
deriving DecidableEq, Repr

/-- The name of the setting, in the commands and in what they reply. -/
def Setting.name : Setting → String
  | .blockbadwords => "BLOCKBADWORDS"
  | .blockbadwordsops => "BLOCKBADWORDSOPS"

def Setting.get (flags : Flags) : Setting → Bool
  | .blockbadwords => flags.blockbadwords
  | .blockbadwordsops => flags.blockbadwordsops

def Setting.put (flags : Flags) (b : Bool) : Setting → Flags
  | .blockbadwords => { flags with blockbadwords := b }
  | .blockbadwordsops => { flags with blockbadwordsops := b }

/-- A reply; `fault_nochange` is reported by these commands only. -/
inductive Reply
  | irc (o : Output)
  | nochange (text : String)
deriving DecidableEq, Repr

/-- The metadata of the channel `name` are changed. -/
def setFlags (metadata : CStr → Flags) (name : CStr) (flags : Flags) : CStr → Flags :=
  fun name' => if name' = name then flags else metadata name'

/-- `SET name <setting> [param]`, where `caSet` is whether the source has `CA_SET`: the
metadata afterwards, and the reply. -/
def setBlock (core : Core) (setting : Setting) (caSet : Bool) (name : CStr) (param : Option CStr)
    (mclist : List Channel) (metadata : CStr → Flags) : (CStr → Flags) × Reply :=
  match mychanFind core mclist name with
  | none => (metadata, .irc (.fail .nosuch_target (STR_IS_NOT_REGISTERED name)))
  | some mc =>
    match param with
    | none => (metadata, .irc (.fail .needmoreparams (STR_INSUFFICIENT_PARAMS s!"SET {setting.name}")))
    | some param =>
      let flags := metadata mc.name
      let chan := String.ofList mc.name
      if !caSet then (metadata, .irc (.fail .noprivs STR_NOT_AUTHORIZED))
      else if strcasecmp "ON".toList param then
        if setting.get flags then
          (metadata, .nochange s!"The \x02{setting.name}\x02 flag is already set for channel \x02{chan}\x02.")
        else
          (setFlags metadata mc.name (setting.put flags true),
            .irc (.success s!"The \x02{setting.name}\x02 flag has been set for channel \x02{chan}\x02."))
      else if strcasecmp "OFF".toList param then
        if setting.get flags then
          (setFlags metadata mc.name (setting.put flags false),
            .irc (.success s!"The \x02{setting.name}\x02 flag has been removed for channel \x02{chan}\x02."))
        else
          (metadata, .nochange s!"The \x02{setting.name}\x02 flag is not set for channel \x02{chan}\x02.")
      else (metadata, .irc (.fail .badparams (STR_INVALID_PARAMS setting.name)))

/-- `cs_set_cmd_blockbadwords` -/
def csSetCmdBlockbadwords (core : Core) := setBlock core .blockbadwords

/-- `cs_set_cmd_blockbadwordsops` -/
def csSetCmdBlockbadwordsops (core : Core) := setBlock core .blockbadwordsops

/-- The lists and the metadata of the channels. -/
structure Setup where
  mclist : List Channel
  metadata : CStr → Flags

/-- The channels `chans` are registered, with no bad words and nothing set. -/
def blank (chans : List CStr) : Setup := ⟨chans.map (⟨·, []⟩), fun _ => ⟨false, false⟩⟩

/-- A command. -/
inductive Change
  | badwords (c : Cmd)
  | set (setting : Setting) (caSet : Bool) (name : CStr) (param : Option CStr)

def Setting.cmd (core : Core) : Setting → Bool → CStr → Option CStr → List Channel → (CStr → Flags) →
    (CStr → Flags) × Reply
  | .blockbadwords => csSetCmdBlockbadwords core
  | .blockbadwordsops => csSetCmdBlockbadwordsops core

def apply (core : Core) (s : Setup) : Change → Setup
  | .badwords c => { s with mclist := c.run core s.mclist }
  | .set setting caSet name param =>
    { s with metadata := (setting.cmd core caSet name param s.mclist s.metadata).1 }

/-- The setup after the commands. -/
def applyAll (core : Core) (chans : List CStr) (es : List Change) : Setup :=
  es.foldl (apply core) (blank chans)

/-! ### The history -/

/-- What an accepted `SET` asks for. -/
def asked (caSet : Bool) : Option CStr → Option Bool
  | none => none
  | some param =>
    if !caSet then none
    else if strcasecmp "ON".toList param then some true
    else if strcasecmp "OFF".toList param then some false
    else none

/-- The set of the channels that have a setting gets the channel `name`, or loses it. -/
def settingOp (name : CStr) : Option Bool → Keyed.Op CStr CStr
  | some true => .add name
  | some false => .del name
  | none => .look

/-- What the command does to the set of the channels that have the setting. -/
def Change.flagOp (setting : Setting) : Change → Keyed.Op CStr CStr
  | .badwords _ => .look
  | .set setting' caSet name param => if setting' = setting then settingOp name (asked caSet param) else .look

/-- What it does to the patterns of the channel `name`. -/
def Change.wordOp (core : Core) (name : CStr) : Change → Keyed.Op CStr CStr
  | .badwords c => if c.Names core name then (c.op ⟨name, []⟩).onKey Badword.badword else .look
  | .set .. => .look

def flagOps (setting : Setting) (es : List Change) : List (Keyed.Op CStr CStr) :=
  es.map (Change.flagOp setting)

def wordOps (core : Core) (name : CStr) (es : List Change) : List (Keyed.Op CStr CStr) :=
  es.map (Change.wordOp core name)

/-- The patterns of the channel `name`. -/
def patterns (core : Core) (name : CStr) (es : List Change) : List CStr :=
  Keyed.keys core.irccasecmp (wordOps core name es)

/-- The last accepted `SET` of the channel `name` is an `ON`. -/
def IsOn (core : Core) (setting : Setting) (es : List Change) (name : CStr) : Prop :=
  Keyed.Stands core.irccasecmp (flagOps setting es) name

instance (core : Core) (setting : Setting) (es : List Change) (name : CStr) :
    Decidable (IsOn core setting es name) :=
  inferInstanceAs (Decidable (Keyed.Stands _ _ _))

variable {core : Core} {chans : List CStr} {es : List Change} {name : CStr} {mc : Channel}

theorem setting_cmd (core : Core) (setting : Setting) : setting.cmd core = setBlock core setting := by
  cases setting <;> rfl

theorem get_put (flags : Flags) (b : Bool) (setting setting' : Setting) :
    setting'.get (setting.put flags b) = if setting = setting' then b else setting'.get flags := by
  cases setting <;> cases setting' <;> rfl

theorem put_get (flags : Flags) (setting : Setting) : setting.put flags (setting.get flags) = flags := by
  cases setting <;> rfl

theorem setFlags_self (metadata : CStr → Flags) (name : CStr) :
    setFlags metadata name (metadata name) = metadata := by
  funext name'
  unfold setFlags
  split
  · rename_i h
    rw [h]
  · rfl

theorem tells_settingOp (name k : CStr) (o : Option Bool) :
    (settingOp name o).tells core.irccasecmp k = if core.irccasecmp name k then o else none := by
  cases o with
  | none => simp [settingOp, Keyed.Op.tells]
  | some b => cases b <;> simp [settingOp, Keyed.Op.tells]

/-- A `SET` that is accepted puts the setting to what it asks for, also where it is
that already. -/
theorem setBlock_fst {mclist : List Channel} (hmc : mychanFind core mclist name = some mc) (setting : Setting)
    (caSet : Bool) (param : Option CStr) (metadata : CStr → Flags) :
    (setBlock core setting caSet name param mclist metadata).1 =
      setFlags metadata mc.name
        (setting.put (metadata mc.name) ((asked caSet param).getD (setting.get (metadata mc.name)))) := by
  have hsame : ∀ b, setting.get (metadata mc.name) = b →
      metadata = setFlags metadata mc.name (setting.put (metadata mc.name) b) := by
    rintro b rfl
    rw [put_get, setFlags_self]
  simp only [setBlock, hmc]
  cases param with
  | none => exact hsame _ rfl
  | some param =>
    simp only [asked]
    split
    · exact hsame _ rfl
    · split
      · split
        · exact hsame _ ‹_›
        · rfl
      · split
        · split
          · rfl
          · exact hsame _ (eq_false_of_ne_true ‹_›)
        · exact hsame _ rfl

/-- **One `SET`**: a setting of a channel is what an accepted command for it says, and
as it was after any other. -/
theorem setBlock_get (core : Core) (setting setting' : Setting) (caSet : Bool) (name name' : CStr)
    (param : Option CStr) (mclist : List Channel) (metadata : CStr → Flags) {mc' : Channel}
    (hmc' : mychanFind core mclist name' = some mc') :
    setting'.get ((setBlock core setting caSet name param mclist metadata).1 mc'.name) =
      (((Change.set setting caSet name param).flagOp setting').tells core.irccasecmp name').getD
        (setting'.get (metadata mc'.name)) := by
  have htells : ((Change.set setting caSet name param).flagOp setting').tells core.irccasecmp name' =
      if setting = setting' ∧ core.irccasecmp name name' = true then asked caSet param else none := by
    rw [Change.flagOp]
    by_cases hset : setting = setting'
    · rw [if_pos hset, tells_settingOp]
      simp [hset]
    · rw [if_neg hset, if_neg fun h => hset h.1]
      rfl
  rw [htells]
  cases hmc : mychanFind core mclist name with
  | none =>
    have hn : ¬ core.irccasecmp name name' = true := by
      intro hn
      rw [mychanFind_congr hn, hmc'] at hmc
      cases hmc
    rw [if_neg fun h => hn h.2]
    simp [setBlock, hmc]
  | some mc =>
    rw [setBlock_fst hmc]
    unfold setFlags
    by_cases hn : core.irccasecmp name name' = true
    · rw [mychanFind_congr hn, hmc'] at hmc
      cases hmc
      rw [if_pos rfl, get_put]
      by_cases hset : setting = setting'
      · rw [if_pos hset, if_pos ⟨hset, hn⟩, hset]
      · rw [if_neg hset, if_neg fun h => hset h.1]
        rfl
    · -- the channel is not the one that the command names
      have hother : mc'.name ≠ mc.name := by
        intro heq
        have hmcname : core.irccasecmp mc.name name = true := by simpa using List.find?_some hmc
        have hmcname' : core.irccasecmp mc'.name name' = true := by simpa using List.find?_some hmc'
        rw [heq, irccasecmp_congr hmcname] at hmcname'
        exact hn hmcname'
      rw [if_neg hother, if_neg fun h => hn h.2]
      rfl

/-! ### Every history -/

/-- The settings and the patterns are what the history says, and every action is one
of the five. -/
structure Follows (core : Core) (es : List Change) (s : Setup) : Prop where
  flags : ∀ setting name mc, mychanFind core s.mclist name = some mc →
    (Setting.get (s.metadata mc.name) setting = true ↔ IsOn core setting es name)
  words : ∀ name mc, mychanFind core s.mclist name = some mc →
    mc.badwords.map Badword.badword = patterns core name es
  known : ∀ mc ∈ s.mclist, ∀ bw ∈ mc.badwords,
    ∃ sanction : Sanction, strcasecmp sanction.name bw.action = true

theorem blank_follows (core : Core) (chans : List CStr) : Follows core [] (blank chans) := by
  have hnone : ∀ mc ∈ (blank chans).mclist, mc.badwords = [] := by
    intro mc hmc
    obtain ⟨name, -, rfl⟩ := List.mem_map.mp hmc
    rfl
  refine ⟨fun setting name mc _ => ?_, fun name mc hmc => ?_, fun mc hmc bw hbw => ?_⟩
  · have hoff : Setting.get ((blank chans).metadata mc.name) setting = false := by cases setting <;> rfl
    rw [hoff]
    exact ⟨fun h => (by cases h), fun h => absurd h (Keyed.stands_nil name)⟩
  · rw [hnone mc (List.mem_of_find?_eq_some hmc)]
    rfl
  · rw [hnone mc hmc] at hbw
    cases hbw

/-- An action that `ADD` takes is one of the five. -/
theorem sanction_of_isAction {banLikeModes : Option CStr} {action : CStr}
    (h : isAction banLikeModes action = true) :
    ∃ sanction : Sanction, strcasecmp sanction.name action = true := by
  simp only [isAction, Bool.or_eq_true, Bool.and_eq_true] at h
  rcases h with (((h | h) | h) | h) | ⟨h, -⟩
  · exact ⟨.kick, h⟩
  · exact ⟨.kickban, h⟩
  · exact ⟨.warn, h⟩
  · exact ⟨.ban, h⟩
  · exact ⟨.quiet, h⟩

/-- The word of an entry does not depend on the channel it is added to. -/
theorem onKey_op (c : Cmd) (mc mc' : Channel) :
    (c.op mc).onKey Badword.badword = (c.op mc').onKey Badword.badword := by
  unfold Cmd.op Cmd.addOp
  split
  · split
    · split
      · split <;> rfl
      · rfl
    · rfl
  · rfl

theorem isOn_concat (setting : Setting) (es : List Change) (e : Change) (name : CStr) :
    IsOn core setting (es ++ [e]) name ↔
      ((e.flagOp setting).tells core.irccasecmp name).getD (decide (IsOn core setting es name)) = true := by
  rw [IsOn, flagOps, List.map_append]
  exact Keyed.stands_concat _ _ _

theorem badwords_follows {s : Setup} (h : Follows core es s) (c : Cmd) :
    Follows core (es ++ [.badwords c]) (apply core s (.badwords c)) := by
  have hfind := fun name mc (hmc : mychanFind core (c.run core s.mclist) name = some mc) =>
    (mychanFind_run core c s.mclist name).symm.trans hmc
  refine ⟨fun setting name mc hmc => ?_, fun name mc hmc => ?_, ?_⟩
  · rw [isOn_concat]
    show _ ↔ decide (IsOn core setting es name) = true
    rw [decide_eq_true_iff]
    obtain ⟨mc0, hmc0, rfl⟩ := Option.map_eq_some_iff.mp (hfind name mc hmc)
    rw [← h.flags setting name mc0 hmc0]
    show Setting.get (s.metadata _) setting = true ↔ _
    split <;> rfl
  · obtain ⟨mc0, hmc0, rfl⟩ := Option.map_eq_some_iff.mp (hfind name mc hmc)
    have hconcat : patterns core name (es ++ [.badwords c]) =
        ((Change.badwords c).wordOp core name).run core.irccasecmp id (patterns core name es) := by
      rw [patterns, wordOps, List.map_append]
      exact Keyed.keys_concat _ _
    rw [hconcat, ← h.words name mc0 hmc0, Change.wordOp]
    by_cases hn : c.Names core name
    · rw [if_pos hn, if_pos hn, onKey_op c ⟨name, []⟩ mc0]
      exact Keyed.map_run _ _ _ _
    · rw [if_neg hn, if_neg hn]
      rfl
  · rcases csCmdBadwords_edited core c.banLikeModes c.si c.access c.now c.parv s.mclist with
      hsame | ⟨mc, hmc, l, hset, hedit⟩
    · show ∀ mc ∈ (csCmdBadwords _ _ _ _ _ _ _).1, _
      rw [hsame]
      exact h.known
    · show ∀ mc ∈ (csCmdBadwords _ _ _ _ _ _ _).1, _
      rw [hset]
      intro d' hd'
      obtain ⟨d, hd, rfl⟩ := List.mem_map.mp hd'
      split
      · exact hedit.forall (h.known mc hmc) fun bw hbw => sanction_of_isAction hbw.2.2.2.2.2
      · exact h.known d hd

theorem set_follows {s : Setup} (h : Follows core es s) (setting : Setting) (caSet : Bool) (name : CStr)
    (param : Option CStr) : Follows core (es ++ [.set setting caSet name param])
      (apply core s (.set setting caSet name param)) := by
  refine ⟨fun setting' name' mc hmc => ?_, fun name' mc hmc => ?_, h.known⟩
  · have hbefore : decide (IsOn core setting' es name') = Setting.get (s.metadata mc.name) setting' := by
      rw [Bool.eq_iff_iff, decide_eq_true_iff, h.flags setting' name' mc hmc]
    rw [isOn_concat, hbefore,
      ← setBlock_get core setting setting' caSet name name' param s.mclist s.metadata hmc, apply, setting_cmd]
  · have hconcat : patterns core name' (es ++ [.set setting caSet name param]) = patterns core name' es := by
      rw [patterns, wordOps, List.map_append]
      exact Keyed.keys_concat _ _
    rw [hconcat]
    exact h.words name' mc hmc

theorem applyAll_follows (core : Core) (chans : List CStr) (es : List Change) :
    Follows core es (applyAll core chans es) := by
  induction es using List.reverseRecOn with
  | nil => exact blank_follows core chans
  | append_singleton es e ih =>
    rw [applyAll, List.foldl_append]
    cases e with
    | badwords c => exact badwords_follows ih c
    | set setting caSet name param => exact set_follows ih setting caSet name param

theorem map_name_applyAll (core : Core) (chans : List CStr) (es : List Change) :
    (applyAll core chans es).mclist.map Channel.name = chans := by
  induction es using List.reverseRecOn with
  | nil => simp [applyAll, blank, Function.comp_def]
  | append_singleton es e ih =>
    rw [applyAll, List.foldl_append]
    cases e with
    | badwords c => exact (map_name_csCmdBadwords core _ _ _ _ _ _).trans ih
    | set setting caSet name param => exact ih

/-- The channel of a message is registered. -/
theorem registered_iff (core : Core) {mclist : List Channel} (h : mclist.map Channel.name = chans)
    (name : CStr) :
    (∃ mc, mychanFind core mclist name = some mc) ↔ ∃ chan ∈ chans, core.irccasecmp chan name = true := by
  rw [← Option.isSome_iff_exists, mychanFind, List.find?_isSome, ← h]
  simp

theorem not_exempt_iff {flags : Flags} {data : CmessageData} : ¬ Exempt flags data ↔
    ∃ cu, chanuserFind data.c data.u = some cu ∧ ¬ (cu.isOp = true ∧ flags.blockbadwordsops = true) := by
  cases hcu : chanuserFind data.c data.u with
  | none => simp [Exempt, hcu]
  | some cu => simp [Exempt, hcu, and_comm]

/-- What an entry does about a message that it matches. -/
theorem entryEffects_eq_some {cfg : Config} {data : CmessageData} {msg : CStr} {bw : Badword}
    {effects : List Effect} (h : entryEffects cfg data msg bw = some effects) :
    cfg.matchMask bw.badword msg = true ∧ ∃ sanction : Sanction, effects = sanction.effects cfg data := by
  rw [entryEffects] at h
  split at h
  · rename_i hmatch
    obtain ⟨sanction, -, heq⟩ := punish_eq_some_iff.mp h
    exact ⟨hmatch, sanction, heq⟩
  · cases h

/-- A message to a channel whose entries all have actions that are known is punished
exactly if its sender is not exempt and an entry matches. -/
theorem punished_known {cfg : Config} {mclist : List Channel} {data : CmessageData} {mc : Channel}
    {msg : CStr}
    (hmc : mychanFind cfg.toCore mclist data.c.name = some mc)
    (hon : (cfg.metadata mc.name).blockbadwords = true) (hmsg : data.msg = some msg)
    (hknown : ∀ bw ∈ mc.badwords, ∃ sanction : Sanction, strcasecmp sanction.name bw.action = true) :
    (onChannelMessage cfg mclist data ≠ [] ↔ ¬ Exempt (cfg.metadata mc.name) data ∧
      ∃ word ∈ mc.badwords.map Badword.badword, cfg.matchMask word msg = true) ∧
    (onChannelMessage cfg mclist data ≠ [] →
      ∃ sanction : Sanction, onChannelMessage cfg mclist data = sanction.effects cfg data) := by
  rw [onChannelMessage_eq hmc hon hmsg]
  by_cases hex : Exempt (cfg.metadata mc.name) data
  · rw [if_pos hex]
    exact ⟨⟨fun h => absurd rfl h, fun h => absurd hex h.1⟩, fun h => absurd rfl h⟩
  · rw [if_neg hex]
    cases hfind : mc.badwords.findSome? (entryEffects cfg data msg) with
    | none =>
      refine ⟨⟨fun h => absurd rfl h, fun h => ?_⟩, fun h => absurd rfl h⟩
      obtain ⟨-, word, hword, hmatch⟩ := h
      obtain ⟨bw, hbw, rfl⟩ := List.mem_map.mp hword
      obtain ⟨sanction, hs⟩ := hknown bw hbw
      have hnone := List.findSome?_eq_none_iff.mp hfind bw hbw
      rw [entryEffects, if_pos hmatch, punish_of_name hs] at hnone
      cases hnone
    | some effects =>
      obtain ⟨bw, hbw, hentry⟩ := List.exists_of_findSome?_eq_some hfind
      obtain ⟨hmatch, sanction, rfl⟩ := entryEffects_eq_some hentry
      exact ⟨⟨fun _ => ⟨hex, bw.badword, List.mem_map_of_mem hbw, hmatch⟩, fun _ => sanction.effects_ne_nil⟩,
        fun _ => ⟨sanction, rfl⟩⟩

/-- **What decides about a message**: it is punished exactly if its channel is
registered and blocks bad words, who says it is in the channel and not exempt as an
operator, and it matches one of the patterns; then by one of the five sanctions. A
pattern is one exactly if the last `ADD` or `DEL` of it that was accepted is an `ADD`. -/
theorem punished_iff (cfg : Config) (chans : List CStr) (es : List Change) (data : CmessageData) :
    let s := applyAll cfg.toCore chans es
    let done := onChannelMessage { cfg with metadata := s.metadata } s.mclist data
    (done ≠ [] ↔ (∃ chan ∈ chans, cfg.irccasecmp chan data.c.name = true) ∧
      IsOn cfg.toCore .blockbadwords es data.c.name ∧
      (∃ cu, chanuserFind data.c data.u = some cu ∧
        ¬ (cu.isOp = true ∧ IsOn cfg.toCore .blockbadwordsops es data.c.name)) ∧
      ∃ msg, data.msg = some msg ∧
        ∃ word ∈ patterns cfg.toCore data.c.name es, cfg.matchMask word msg = true) ∧
    (done ≠ [] → ∃ sanction : Sanction, done = sanction.effects cfg data) ∧
    ∀ word, (∃ word' ∈ patterns cfg.toCore data.c.name es, cfg.irccasecmp word' word = true) ↔
      Keyed.Stands cfg.irccasecmp (wordOps cfg.toCore data.c.name es) word := by
  intro s done
  have hf := applyAll_follows cfg.toCore chans es
  have hreg := registered_iff cfg.toCore (map_name_applyAll cfg.toCore chans es) data.c.name
  refine ⟨⟨fun hdone => ?_, fun h => ?_⟩, ?_,
    fun word => (Keyed.stands_iff (irccasecmp_same cfg.toCore) _ word).symm⟩
  · obtain ⟨mc, msg, hmc, hon, hmsg⟩ := enforced_of_ne_nil hdone
    obtain ⟨hex, hword⟩ :=
      (punished_known hmc hon hmsg (hf.known mc (List.mem_of_find?_eq_some hmc))).1.mp hdone
    rw [hf.words _ mc hmc] at hword
    obtain ⟨cu, hcu, hnop⟩ := not_exempt_iff.mp hex
    have hops := hf.flags .blockbadwordsops _ mc hmc
    exact ⟨hreg.mp ⟨mc, hmc⟩, (hf.flags .blockbadwords _ mc hmc).mp hon,
      ⟨cu, hcu, fun hh => hnop ⟨hh.1, hops.mpr hh.2⟩⟩, msg, hmsg, hword⟩
  · obtain ⟨hchan, hison, ⟨cu, hcu, hnop⟩, msg, hmsg, hword⟩ := h
    obtain ⟨mc, hmc⟩ := hreg.mpr hchan
    have hops := hf.flags .blockbadwordsops _ mc hmc
    have hex : ¬ Exempt (s.metadata mc.name) data :=
      not_exempt_iff.mpr ⟨cu, hcu, fun hh => hnop ⟨hh.1, hops.mp hh.2⟩⟩
    have hon : (s.metadata mc.name).blockbadwords = true := (hf.flags .blockbadwords _ mc hmc).mpr hison
    have hpunished := @punished_known { cfg with metadata := s.metadata } s.mclist data mc msg hmc hon hmsg
      (hf.known mc (List.mem_of_find?_eq_some hmc))
    rw [← hf.words _ mc hmc] at hword
    exact hpunished.1.mpr ⟨hex, hword⟩
  · intro hdone
    obtain ⟨mc, msg, hmc, hon, hmsg⟩ := enforced_of_ne_nil hdone
    exact (punished_known hmc hon hmsg (hf.known mc (List.mem_of_find?_eq_some hmc))).2 hdone

end Badwords
end AthemeContrib
