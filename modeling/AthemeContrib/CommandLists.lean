/-
# The lists that are edited by commands

The bad words of the channels, the watched patterns, the accepted addresses
and the exemptions from the blacklists are four linear lists, each with its
own `ADD`, `DEL` and `LIST`. Every one of them is an ordered set of its keys,
compared as the IRC daemon does: what a command asks of a list (`Cmd.badwordsOp`
and its three siblings) is what is done to it, and to no other.

All but one of the commands do that from any state. A `JOINMON DEL` whose
entry was added without a reason frees a string that was never allocated, so
the lists are sets exactly along the runs with no such command
(`lists_are_sets_iff`).

Key definitions: `Lists`, `Cmd`, `step`, `Sets`, `Does`, `AreSets`.
Key theorems: `sets_step`, `does_iff`, `lists_are_sets_iff`.
-/
import AthemeContrib.Dnsbl.Exempt
import AthemeContrib.NsGoodmail
import AthemeContrib.OsJoinmon
import AthemeContrib.Lib.Run

namespace AthemeContrib
namespace CommandLists

open Run

/-- The lists of the four modules. -/
structure Lists where
  mclist : List Badwords.Channel
  osMonlist : List OsJoinmon.Joinmon
  nsMaillist : List NsGoodmail.Goodmail
  dnsbl : Dnsbl.State
deriving DecidableEq, Repr

/-- The channels `chans` are registered, and all lists are empty. -/
def empty (chans : List CStr) : Lists := ⟨chans.map (⟨·, []⟩), [], [], Dnsbl.init⟩

/-- A command of one of the modules, with any parameters. -/
inductive Cmd
  | badwords (c : Badwords.Cmd)
  | joinmon (si : Source) (now : ℕ) (parv : List CStr)
  | goodmail (si : Source) (now : ℕ) (parv : List CStr)
  | dnsblexempt (si : Source) (now : ℕ) (parv : List CStr)
deriving DecidableEq, Repr

/-- The lists after a command; none if it ends the program. -/
def step (core : Core) (s : Lists) : Cmd → Option Lists
  | .badwords c => some { s with mclist := c.run core s.mclist }
  | .joinmon si now parv =>
    (OsJoinmon.osCmdJoinmon core si now parv s.osMonlist).map fun r => { s with osMonlist := r.1 }
  | .goodmail si now parv =>
    some { s with nsMaillist := (NsGoodmail.nsCmdGoodmail core si now parv s.nsMaillist).1 }
  | .dnsblexempt si now parv =>
    some { s with dnsbl := Dnsbl.osCmdDnsblexempt core si.name now parv[0]? parv[1]? parv[2]? s.dnsbl }

/-! ### What the commands ask for -/

/-- What is asked of the bad words of the channel `name`, which is `mc`. -/
def Cmd.badwordsOp (core : Core) (name : CStr) (mc : Badwords.Channel) :
    Cmd → Keyed.Op Badwords.Badword CStr
  | .badwords c => if c.Names core name then c.op mc else .look
  | _ => .look

def Cmd.joinmonOp : Cmd → Keyed.Op OsJoinmon.Joinmon CStr
  | .joinmon si now parv => OsJoinmon.op si now parv
  | _ => .look

def Cmd.goodmailOp : Cmd → Keyed.Op NsGoodmail.Goodmail CStr
  | .goodmail si now parv => NsGoodmail.op si now parv
  | _ => .look

def Cmd.exemptOp : Cmd → Keyed.Op Dnsbl.Exempt CStr
  | .dnsblexempt si now parv => Dnsbl.exemptOp si.name now parv[0]? parv[1]? parv[2]?
  | _ => .look

/-- No list has two entries whose keys are the same to the IRC daemon. -/
structure Sets (core : Core) (s : Lists) : Prop where
  mclist : ∀ mc ∈ s.mclist, Keyed.Unique core.irccasecmp Badwords.Badword.badword mc.badwords
  osMonlist : Keyed.Unique core.irccasecmp OsJoinmon.Joinmon.user s.osMonlist
  nsMaillist : Keyed.Unique core.irccasecmp NsGoodmail.Goodmail.mail s.nsMaillist
  dnsblElist : Keyed.Unique core.irccasecmp Dnsbl.Exempt.ip s.dnsbl.dnsblElist

/-- The command does to each list what it asks of it, and nothing to a list it
asks nothing of. -/
structure Does (core : Core) (s : Lists) (c : Cmd) (s' : Lists) : Prop where
  mclist : ∀ name mc, Badwords.mychanFind core s.mclist name = some mc →
    ∃ l, Badwords.mychanFind core s'.mclist name = some { mc with badwords := l } ∧
      Keyed.Acts core.irccasecmp Badwords.Badword.badword (c.badwordsOp core name mc) mc.badwords l
  osMonlist : Keyed.Acts core.irccasecmp OsJoinmon.Joinmon.user c.joinmonOp s.osMonlist s'.osMonlist
  nsMaillist : Keyed.Acts core.irccasecmp NsGoodmail.Goodmail.mail c.goodmailOp s.nsMaillist s'.nsMaillist
  dnsblElist : Keyed.Acts core.irccasecmp Dnsbl.Exempt.ip c.exemptOp s.dnsbl.dnsblElist
    s'.dnsbl.dnsblElist

/-- What a step of the model does, as an edit of each list. -/
structure Runs (core : Core) (s : Lists) (c : Cmd) (s' : Lists) : Prop where
  mclist : ∀ name, Badwords.mychanFind core s'.mclist name = (Badwords.mychanFind core s.mclist name).map
    fun mc => { mc with badwords :=
      (c.badwordsOp core name mc).run core.irccasecmp Badwords.Badword.badword mc.badwords }
  osMonlist : s'.osMonlist = c.joinmonOp.run core.irccasecmp OsJoinmon.Joinmon.user s.osMonlist
  nsMaillist : s'.nsMaillist = c.goodmailOp.run core.irccasecmp NsGoodmail.Goodmail.mail s.nsMaillist
  dnsblElist : s'.dnsbl.dnsblElist = c.exemptOp.run core.irccasecmp Dnsbl.Exempt.ip s.dnsbl.dnsblElist

section
variable {core : Core} {s s' : Lists} {c : Cmd}

theorem mychanFind_look (mclist : List Badwords.Channel) (name : CStr)
    (h : ∀ mc, c.badwordsOp core name mc = .look) :
    Badwords.mychanFind core mclist name = (Badwords.mychanFind core mclist name).map fun mc =>
      { mc with badwords :=
        (c.badwordsOp core name mc).run core.irccasecmp Badwords.Badword.badword mc.badwords } := by
  simp only [h, Keyed.Op.run]
  exact Option.map_id'.symm

/-- Every step does the edits that the command asks for. -/
theorem runs_step (h : step core s c = some s') : Runs core s c s' := by
  cases c with
  | badwords c =>
    cases h
    refine ⟨fun name => ?_, rfl, rfl, rfl⟩
    rw [Badwords.mychanFind_run]
    refine Option.map_congr fun mc _ => ?_
    rw [Cmd.badwordsOp]
    split
    · rfl
    · rfl
  | joinmon si now parv =>
    rcases OsJoinmon.osCmdJoinmon_cases core si now parv s.osMonlist with ⟨-, hnone⟩ | ⟨-, out, hrun⟩
    · rw [step, hnone] at h
      cases h
    · rw [step, hrun] at h
      cases h
      exact ⟨fun name => mychanFind_look s.mclist name fun _ => rfl, rfl, rfl, rfl⟩
  | goodmail si now parv =>
    cases h
    refine ⟨fun name => mychanFind_look s.mclist name fun _ => rfl, rfl, ?_, rfl⟩
    exact NsGoodmail.nsCmdGoodmail_fst core si now parv s.nsMaillist
  | dnsblexempt si now parv =>
    cases h
    refine ⟨fun name => mychanFind_look s.mclist name fun _ => rfl, rfl, rfl, ?_⟩
    exact Dnsbl.osCmdDnsblexempt_dnsblElist core si.name now parv[0]? parv[1]? parv[2]? s.dnsbl

/-- A command happens unless it frees a literal. -/
theorem step_eq_none_iff :
    step core s c = none ↔ OsJoinmon.FreesLiteral core c.joinmonOp s.osMonlist := by
  have hother : c.joinmonOp = .look → ¬ OsJoinmon.FreesLiteral core c.joinmonOp s.osMonlist := by
    intro hlook h
    obtain ⟨pattern, hop, -⟩ := h
    rw [hlook] at hop
    cases hop
  cases c with
  | joinmon si now parv =>
    rcases OsJoinmon.osCmdJoinmon_cases core si now parv s.osMonlist with ⟨hf, hnone⟩ | ⟨hf, out, hrun⟩
    · rw [step, hnone]
      exact iff_of_true rfl hf
    · rw [step, hrun]
      exact iff_of_false nofun hf
  | badwords c => exact iff_of_false nofun (hother rfl)
  | goodmail si now parv => exact iff_of_false nofun (hother rfl)
  | dnsblexempt si now parv => exact iff_of_false nofun (hother rfl)

theorem sets_empty (core : Core) (chans : List CStr) : Sets core (empty chans) := by
  refine ⟨?_, List.Pairwise.nil, List.Pairwise.nil, List.Pairwise.nil⟩
  intro mc hmc
  obtain ⟨name, -, rfl⟩ := List.mem_map.mp hmc
  exact List.Pairwise.nil

theorem sets_step (hs : Sets core s) (h : step core s c = some s') : Sets core s' := by
  have hruns : Runs core s c s' := runs_step h
  refine ⟨?_, ?_, ?_, ?_⟩
  · cases c with
    | badwords c =>
      cases h
      exact Badwords.unique_run hs.mclist c
    | joinmon si now parv =>
      obtain ⟨r, -, rfl⟩ := Option.map_eq_some_iff.mp h
      exact hs.mclist
    | goodmail si now parv =>
      cases h
      exact hs.mclist
    | dnsblexempt si now parv =>
      cases h
      exact hs.mclist
  · rw [hruns.osMonlist]
    exact hs.osMonlist.run _
  · rw [hruns.nsMaillist]
    exact hs.nsMaillist.run _
  · rw [hruns.dnsblElist]
    exact hs.dnsblElist.run _

/-- On lists that are sets, the edits are those of ordered sets. -/
theorem Runs.does (h : Runs core s c s') (hs : Sets core s) : Does core s c s' := by
  have hsame : Keyed.Same core.irccasecmp := irccasecmp_same core
  refine ⟨?_, ?_, ?_, ?_⟩
  · intro name mc hmc
    have hu := hs.mclist mc (List.mem_of_find?_eq_some hmc)
    refine ⟨_, ?_, hu.acts hsame (c.badwordsOp core name mc)⟩
    rw [h.mclist, hmc, Option.map_some]
  · rw [h.osMonlist]
    exact hs.osMonlist.acts hsame _
  · rw [h.nsMaillist]
    exact hs.nsMaillist.acts hsame _
  · rw [h.dnsblElist]
    exact hs.dnsblElist.acts hsame _

/-- **A command does what it asks for** exactly if it does not free a literal. -/
theorem does_iff (hs : Sets core s) : ¬ OsJoinmon.FreesLiteral core c.joinmonOp s.osMonlist ↔
    ∃ s', step core s c = some s' ∧ Sets core s' ∧ Does core s c s' := by
  rw [← step_eq_none_iff, ← ne_eq, Option.ne_none_iff_exists']
  constructor
  · intro h
    obtain ⟨s', h⟩ := h
    exact ⟨s', h, sets_step hs h, (runs_step h).does hs⟩
  · intro h
    obtain ⟨s', h, -⟩ := h
    exact ⟨s', h⟩

end

/-- After any number of the commands the lists are sets, and each command has
done what it asked for. -/
def AreSets (core : Core) (chans : List CStr) (cmds : List Cmd) : Prop :=
  Sets core (empty chans) ∧
    Total (step core) (fun s c s' => Sets core s' ∧ Does core s c s') (empty chans) cmds

/-- **The lists are ordered sets along a run exactly if no command of it
deletes a watched pattern that was added without a reason.** -/
theorem lists_are_sets_iff (core : Core) (chans : List CStr) (cmds : List Cmd) :
    AreSets core chans cmds ↔
      Before (step core) (fun s c => ¬ OsJoinmon.FreesLiteral core c.joinmonOp s.osMonlist)
        (empty chans) cmds := by
  rw [AreSets, and_iff_right (sets_empty core chans)]
  exact total_iff_before (Sets core) (fun _ _ hs => does_iff hs) (fun _ _ _ => sets_step)
    (sets_empty core chans)

/-- A pattern is watched, without a reason. -/
def addBot : Cmd := .joinmon ⟨"oper".toList, some "oper".toList⟩ 0 ["ADD".toList, "bot*".toList]

/-- And no longer. -/
def delBot : Cmd := .joinmon ⟨"oper".toList, some "oper".toList⟩ 1 ["DEL".toList, "BOT*".toList]

theorem delBot_frees_literal : ¬ AreSets ⟨Char.toLower, fun _ => ""⟩ [] [addBot, delBot] := by
  intro h
  obtain ⟨-, s, hadd, -, s', hdel, -⟩ := h
  have hend : (step ⟨Char.toLower, fun _ => ""⟩ (empty []) addBot).bind
      (step ⟨Char.toLower, fun _ => ""⟩ · delBot) = none := by decide
  rw [hadd, Option.bind_some, hdel] at hend
  cases hend

end CommandLists
end AthemeContrib
