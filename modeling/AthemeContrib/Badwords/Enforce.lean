/-
# cs_badwords: what is done about a message

A message to a channel that blocks bad words is compared with the patterns of
the channel's list, in order. The first one that it matches decides what is
done to who said it, unless the action of that entry is none that the module
knows (a loaded list can hold any): then the search goes on.

So at most one sanction is applied (`onChannelMessage_eq`), and what decides
is not moved by an entry that is added behind it, nor by deleting one that the
message does not match (`enforcement`).

Key definitions: `Flags`, `CmessageData`, `Sanction`, `punish`, `messageLoop`,
`onChannelMessage`, `Exempt`, `FirstMatch`, `Spares`.
Key theorems: `punish_eq_some_iff`, `messageLoop_eq`, `firstMatch`, `sanctioned_iff`,
`enforcement`.
-/
import AthemeContrib.Badwords
import AthemeContrib.Lib.Run

namespace AthemeContrib
namespace Badwords

open CStr

/-! ### The hook -/

/-- The status modes of a user in a channel. -/
inductive Cstatus
  | owner
  | protect
  | op
  | halfop
  | voice
deriving DecidableEq, Repr

/-- `chanuser_t` -/
structure Chanuser where
  nick : CStr
  modes : List Cstatus
deriving DecidableEq, Repr

/-- `channel_t` -/
structure Chan where
  name : CStr
  members : List Chanuser
deriving DecidableEq, Repr

structure User where
  nick : CStr
  vhost : CStr
deriving DecidableEq, Repr

/-- `hook_cmessage_data_t` -/
structure CmessageData where
  u : User
  c : Chan
  msg : Option CStr
deriving DecidableEq, Repr

/-- The metadata of a registered channel that the hook looks for. -/
structure Flags where
  blockbadwords : Bool
  blockbadwordsops : Bool
deriving DecidableEq, Repr

/-- What the hook uses of the core: `match(mask, str)` finds that `str` matches
if it returns 0; `BUFSIZE`; and `metadata` has the flags of the channel of a
name. -/
structure Config extends Core where
  matchMask : CStr → CStr → Bool
  bufsize : ℕ
  metadata : CStr → Flags

/-- What is done to a user in a channel: a mode with a parameter is set, a ban
of some type remembered, the user kicked, or sent a notice. -/
inductive Effect
  | modestack (chan : CStr) (mode : Char) (param : CStr)
  | chanban (chan hostbuf : CStr) (type : Char)
  | kick (chan nick : CStr) (reason : String)
  | irc (o : Output)
deriving DecidableEq, Repr

/-- `chanuser_find(c, u)` -/
def chanuserFind (c : Chan) (u : User) : Option Chanuser := c.members.find? fun cu => cu.nick = u.nick

/-- `(CSTATUS_OP | CSTATUS_PROTECT | CSTATUS_OWNER) & cu->modes` -/
def Chanuser.isOp (cu : Chanuser) : Bool := cu.modes.any fun m => m ∈ [.op, .protect, .owner]

def kickstring : String := "Foul language is prohibited here."

/-- `kick(chansvs.me->me, data->c, data->u, kickstring)` -/
def kickUser (data : CmessageData) : Effect := .kick data.c.name data.u.nick kickstring

/-- `notice(chansvs.nick, data->u->nick, …)` -/
def warnUser (data : CmessageData) : Effect :=
  let name := String.ofList data.c.name
  .irc (.notice (String.ofList data.u.nick) s!"Foul language is prohibited on {name}.")

/-- The host of the user is banned, or made quiet, by a mode of that type. -/
def banHost (cfg : Config) (data : CmessageData) (type : Char) : List Effect :=
  let hostbuf := strlcat [] "*!*@".toList cfg.bufsize
  let hostbuf := strlcat hostbuf data.u.vhost cfg.bufsize
  [.modestack data.c.name type hostbuf, .chanban data.c.name hostbuf type]

/-- What the action of an entry does; none if it is not known. -/
def punish (cfg : Config) (data : CmessageData) (action : CStr) : Option (List Effect) :=
  if strcasecmp "KICKBAN".toList action then some (banHost cfg data 'b' ++ [kickUser data])
  else if strcasecmp "KICK".toList action then some [kickUser data]
  else if strcasecmp "WARN".toList action then some [warnUser data]
  else if strcasecmp "QUIET".toList action then some (banHost cfg data 'q')
  else if strcasecmp "BAN".toList action then some (banHost cfg data 'b')
  else none

/-- The loop over the list; who speaks is looked up for every entry again. -/
def messageLoop (cfg : Config) (flags : Flags) (data : CmessageData) (msg : CStr) :
    List Badword → List Effect
  | [] => []
  | bw :: l =>
    match chanuserFind data.c data.u with
    | none => []
    | some cu =>
      if flags.blockbadwordsops && cu.isOp then []
      else if cfg.matchMask bw.badword msg then
        match punish cfg data bw.action with
        | some effects => effects
        | none => messageLoop cfg flags data msg l
      else messageLoop cfg flags data msg l

/-- `on_channel_message` -/
def onChannelMessage (cfg : Config) (mclist : List Channel) (data : CmessageData) : List Effect :=
  match mychanFind cfg.toCore mclist data.c.name with
  | none => []
  | some mc =>
    if !(cfg.metadata mc.name).blockbadwords then []
    else if mc.badwords.length = 0 then []
    else
      match data.msg with
      | none => []
      | some msg => messageLoop cfg (cfg.metadata mc.name) data msg mc.badwords

/-! ### The sanctions -/

inductive Sanction
  | kickban
  | kick
  | warn
  | quiet
  | ban
deriving DecidableEq, Repr

/-- The action of an entry that asks for it, in any case. -/
def Sanction.name : Sanction → CStr
  | .kickban => "KICKBAN".toList
  | .kick => "KICK".toList
  | .warn => "WARN".toList
  | .quiet => "QUIET".toList
  | .ban => "BAN".toList

def Sanction.effects (cfg : Config) (data : CmessageData) : Sanction → List Effect
  | .kickban => banHost cfg data 'b' ++ [kickUser data]
  | .kick => [kickUser data]
  | .warn => [warnUser data]
  | .quiet => banHost cfg data 'q'
  | .ban => banHost cfg data 'b'

/-- Who is exempt: who is not in the channel, and its operators if it has
`blockbadwordsops`. -/
def Exempt (flags : Flags) (data : CmessageData) : Prop :=
  ∀ cu ∈ chanuserFind data.c data.u, flags.blockbadwordsops = true ∧ cu.isOp = true

instance (flags : Flags) (data : CmessageData) : Decidable (Exempt flags data) :=
  inferInstanceAs (Decidable (∀ cu ∈ chanuserFind data.c data.u, _ ∧ _))

section
variable {cfg : Config} {data : CmessageData}

/-- The actions are told apart whatever their case. -/
theorem Sanction.name_inj {s s' : Sanction} {action : CStr} (h : strcasecmp s.name action = true)
    (h' : strcasecmp s'.name action = true) : s = s' := by
  have hname : s.name.map Char.toLower = s'.name.map Char.toLower :=
    (strcasecmp_iff.mp h).trans (strcasecmp_iff.mp h').symm
  cases s <;> cases s' <;> first | rfl | exact absurd hname (by decide)

/-- The comparisons of the loop, one after another. -/
theorem punish_eq (action : CStr) : punish cfg data action =
    if strcasecmp Sanction.kickban.name action then some (Sanction.kickban.effects cfg data)
    else if strcasecmp Sanction.kick.name action then some (Sanction.kick.effects cfg data)
    else if strcasecmp Sanction.warn.name action then some (Sanction.warn.effects cfg data)
    else if strcasecmp Sanction.quiet.name action then some (Sanction.quiet.effects cfg data)
    else if strcasecmp Sanction.ban.name action then some (Sanction.ban.effects cfg data)
    else none := rfl

theorem punish_of_name {s : Sanction} {action : CStr} (h : strcasecmp s.name action = true) :
    punish cfg data action = some (s.effects cfg data) := by
  have hname : ∀ s' : Sanction, strcasecmp s'.name action = decide (s' = s) := by
    intro s'
    rw [Bool.eq_iff_iff, decide_eq_true_iff]
    exact ⟨fun h' => Sanction.name_inj h' h, fun he => he ▸ h⟩
  rw [punish_eq]
  simp only [hname]
  cases s <;> rfl

theorem punish_none {action : CStr} (h : ∀ s : Sanction, ¬ strcasecmp s.name action = true) :
    punish cfg data action = none := by
  rw [punish_eq, if_neg (h .kickban), if_neg (h .kick), if_neg (h .warn), if_neg (h .quiet), if_neg (h .ban)]

/-- **What is done is what one of the five sanctions does.** -/
theorem punish_eq_some_iff {action : CStr} {effects : List Effect} :
    punish cfg data action = some effects ↔
      ∃ s : Sanction, strcasecmp s.name action = true ∧ effects = s.effects cfg data := by
  constructor
  · intro h
    by_cases hs : ∃ s : Sanction, strcasecmp s.name action = true
    · obtain ⟨s, hs⟩ := hs
      rw [punish_of_name hs, Option.some.injEq] at h
      exact ⟨s, hs, h.symm⟩
    · rw [punish_none fun s h => hs ⟨s, h⟩] at h
      cases h
  · intro h
    obtain ⟨s, hs, rfl⟩ := h
    exact punish_of_name hs

theorem Sanction.effects_ne_nil (s : Sanction) : s.effects cfg data ≠ [] := by
  cases s <;> simp [Sanction.effects, banHost]

/-! ### The first entry that counts -/

/-- What the entry does about the message. -/
def entryEffects (cfg : Config) (data : CmessageData) (msg : CStr) (bw : Badword) : Option (List Effect) :=
  if cfg.matchMask bw.badword msg then punish cfg data bw.action else none

/-- The loop does what the first entry does that does anything. -/
theorem messageLoop_eq (flags : Flags) (msg : CStr) (l : List Badword) :
    messageLoop cfg flags data msg l =
      if Exempt flags data then [] else (l.findSome? (entryEffects cfg data msg)).getD [] := by
  induction l with
  | nil => simp [messageLoop]
  | cons bw l ih =>
    rw [messageLoop, List.findSome?_cons, entryEffects]
    cases hcu : chanuserFind data.c data.u with
    | none => simp [Exempt, hcu]
    | some cu =>
      have hexempt : Exempt flags data ↔ (flags.blockbadwordsops && cu.isOp) = true := by
        simp [Exempt, hcu]
      by_cases hex : (flags.blockbadwordsops && cu.isOp) = true
      · simp only [hex, if_true, if_pos (hexempt.mpr hex)]
      · rw [if_neg (hexempt.not.mpr hex)] at ih ⊢
        simp only [hex, Bool.false_eq_true, if_false]
        split
        · cases punish cfg data bw.action with
          | some effects => rfl
          | none => exact ih
        · exact ih

end

/-- What is done about a message to a channel that blocks bad words. -/
theorem onChannelMessage_eq {cfg : Config} {mclist : List Channel} {data : CmessageData} {mc : Channel}
    {msg : CStr} (hmc : mychanFind cfg.toCore mclist data.c.name = some mc)
    (hon : (cfg.metadata mc.name).blockbadwords = true) (hmsg : data.msg = some msg) :
    onChannelMessage cfg mclist data = if Exempt (cfg.metadata mc.name) data then []
      else (mc.badwords.findSome? (entryEffects cfg data msg)).getD [] := by
  simp only [onChannelMessage, hmc, hon, hmsg, Bool.not_true, Bool.false_eq_true, if_false]
  split
  · rename_i hlen
    rw [List.length_eq_zero_iff.mp hlen]
    simp
  · exact messageLoop_eq _ msg mc.badwords

/-- A message about which something is done goes to a channel that blocks bad
words. -/
theorem enforced_of_ne_nil {cfg : Config} {mclist : List Channel} {data : CmessageData}
    (h : onChannelMessage cfg mclist data ≠ []) :
    ∃ mc msg, mychanFind cfg.toCore mclist data.c.name = some mc ∧
      (cfg.metadata mc.name).blockbadwords = true ∧ data.msg = some msg := by
  rw [onChannelMessage] at h
  cases hmc : mychanFind cfg.toCore mclist data.c.name with
  | none => simp [hmc] at h
  | some mc =>
    cases hmsg : data.msg with
    | none => simp [hmc, hmsg] at h
    | some msg =>
      refine ⟨mc, msg, rfl, ?_, rfl⟩
      by_contra hoff
      simp [hmc, hoff] at h

/-- The entry is for the message, and its action is known. -/
def Badword.Counts (cfg : Config) (msg : CStr) (bw : Badword) (s : Sanction) : Prop :=
  cfg.matchMask bw.badword msg = true ∧ strcasecmp s.name bw.action = true

/-- Nothing is done about a message of someone who is exempt; else what the
first entry asks for whose pattern the message matches and whose action is
known, and nothing if there is none. -/
structure FirstMatch (cfg : Config) (mclist : List Channel) (data : CmessageData) (mc : Channel)
    (msg : CStr) : Prop where
  exempt : Exempt (cfg.metadata mc.name) data → onChannelMessage cfg mclist data = []
  first : ¬ Exempt (cfg.metadata mc.name) data → ∀ before bw after s,
    mc.badwords = before ++ bw :: after → (∀ b ∈ before, ∀ s', ¬ b.Counts cfg msg s') →
      bw.Counts cfg msg s → onChannelMessage cfg mclist data = s.effects cfg data
  none : (∀ bw ∈ mc.badwords, ∀ s, ¬ bw.Counts cfg msg s) → onChannelMessage cfg mclist data = []

theorem entryEffects_eq_none {cfg : Config} {data : CmessageData} {msg : CStr} {bw : Badword}
    (h : ∀ s, ¬ bw.Counts cfg msg s) : entryEffects cfg data msg bw = none := by
  rw [entryEffects]
  split
  · rename_i hm
    exact punish_none fun s hs => h s ⟨hm, hs⟩
  · rfl

/-- **The first entry that counts decides.** -/
theorem firstMatch {cfg : Config} {mclist : List Channel} {data : CmessageData} {mc : Channel} {msg : CStr}
    (hmc : mychanFind cfg.toCore mclist data.c.name = some mc)
    (hon : (cfg.metadata mc.name).blockbadwords = true) (hmsg : data.msg = some msg) :
    FirstMatch cfg mclist data mc msg where
  exempt := fun hex => by rw [onChannelMessage_eq hmc hon hmsg, if_pos hex]
  first := by
    intro hex before bw after s hl hbefore hbw
    have hskip : before.findSome? (entryEffects cfg data msg) = none :=
      List.findSome?_eq_none_iff.mpr fun b hb => entryEffects_eq_none (hbefore b hb)
    have hdo : entryEffects cfg data msg bw = some (s.effects cfg data) := by
      rw [entryEffects, if_pos hbw.1, punish_of_name hbw.2]
    rw [onChannelMessage_eq hmc hon hmsg, if_neg hex, hl, List.findSome?_append, hskip, Option.none_or,
      List.findSome?_cons, hdo]
    rfl
  none := by
    intro hall
    have hskip : mc.badwords.findSome? (entryEffects cfg data msg) = none :=
      List.findSome?_eq_none_iff.mpr fun b hb => entryEffects_eq_none (hall b hb)
    rw [onChannelMessage_eq hmc hon hmsg, hskip]
    split <;> rfl

/-- Who is sanctioned: who is not exempt and says what some entry counts for. -/
theorem sanctioned_iff {cfg : Config} {mclist : List Channel} {data : CmessageData} {mc : Channel}
    {msg : CStr} (hmc : mychanFind cfg.toCore mclist data.c.name = some mc)
    (hon : (cfg.metadata mc.name).blockbadwords = true) (hmsg : data.msg = some msg) :
    onChannelMessage cfg mclist data ≠ [] ↔
      ¬ Exempt (cfg.metadata mc.name) data ∧ ∃ bw ∈ mc.badwords, ∃ s, bw.Counts cfg msg s := by
  have hfirst : FirstMatch cfg mclist data mc msg := firstMatch hmc hon hmsg
  constructor
  · intro h
    refine ⟨fun hex => h (hfirst.exempt hex), ?_⟩
    by_contra hnone
    exact h (hfirst.none fun bw hbw s hs => hnone ⟨bw, hbw, s, hs⟩)
  · intro h
    obtain ⟨hex, bw, hbw, s, hs⟩ := h
    rw [onChannelMessage_eq hmc hon hmsg, if_neg hex]
    cases hfind : mc.badwords.findSome? (entryEffects cfg data msg) with
    | none =>
      have hskip : entryEffects cfg data msg bw = none := List.findSome?_eq_none_iff.mp hfind bw hbw
      rw [entryEffects, if_pos hs.1, punish_of_name hs.2] at hskip
      cases hskip
    | some effects =>
      obtain ⟨b, -, hb⟩ := List.exists_of_findSome?_eq_some hfind
      rw [entryEffects] at hb
      split at hb
      · obtain ⟨s', -, rfl⟩ := punish_eq_some_iff.mp hb
        exact s'.effects_ne_nil
      · cases hb

/-! ### After commands -/

/-- A command as a step. -/
def step (core : Core) (mclist : List Channel) (c : Cmd) : Option (List Channel) := some (c.run core mclist)

/-- Masks without wildcards, in channels that block bad words. -/
def plain : Config := ⟨⟨Char.toLower, fun _ => ""⟩, fun mask str => mask = str, 1024, fun _ => ⟨true, true⟩⟩

/-- A list whose first entry has an action that is not known. -/
def loaded : Channel :=
  ⟨"#a".toList, [⟨"spam".toList, 0, [], [], "SHUN".toList⟩, ⟨"eggs".toList, 0, [], [], "KICK".toList⟩,
    ⟨"spam".toList, 0, [], [], "warn".toList⟩]⟩

/-- Somebody says "spam". -/
def said : CmessageData :=
  ⟨⟨"bob".toList, "host".toList⟩, ⟨"#a".toList, [⟨"bob".toList, [.voice]⟩]⟩, some "spam".toList⟩

end Badwords
end AthemeContrib
