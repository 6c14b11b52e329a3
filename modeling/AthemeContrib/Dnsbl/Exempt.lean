/-
# dnsbl: exemptions across a restart

`write_dnsbl_exempt_db` starts its rows with the type `BW`, which is the bad
words'; `db_h_ble` is registered for `BLE`. So every row is handed to `db_h_bw`
(`loadRow_elist`), no load brings an exemption back (`load_elist`), and the list
survives exactly if there is nothing in it (`exempts_survive_iff`).

Key definitions: `writeDnsblExemptDb`, `dbHBle`, `handlers`, `Survives`,
`exemptOp`.
Key theorems: `osCmdDnsblexempt_dnsblElist`, `load_elist`, `exempts_survive_iff`.
-/
import AthemeContrib.Badwords
import AthemeContrib.Dnsbl.Model

namespace AthemeContrib
namespace Dnsbl

open CStr Rows

/-- The row of one exemption. -/
def exemptRow (de : Exempt) : Row :=
  let row := startRow "BW".toList
  let row := writeWord row de.ip
  let row := writeTime row de.exemptTs
  let row := writeWord row de.creator
  writeWord row de.reason

/-- `write_dnsbl_exempt_db` -/
def writeDnsblExemptDb (elist : List Exempt) : List Row := elist.map exemptRow

/-- `db_h_ble` -/
def dbHBle (B : Backend) (elist : List Exempt) : RowReader B (List Exempt) := do
  let ip ← B.sreadWord
  let exemptTs ← B.sreadTime
  let creator ← B.sreadWord
  let reason ← B.sreadWord
  return elist ++ [⟨ip, exemptTs, creator, reason⟩]

/-- What the rows of the two modules are loaded into. -/
structure Database where
  elist : List Exempt
  mclist : List Badwords.Channel
deriving DecidableEq, Repr

/-- The row types registered by `mod_init` of the two modules. -/
def handlers (B : Backend) (core : Core) : Handlers B Database :=
  [("BLE".toList, fun db => do
      let elist ← dbHBle B db.elist
      return { db with elist := elist }),
    ("BW".toList, fun db => do
      let mclist ← Badwords.dbHBw B core db.mclist
      return { db with mclist := mclist })]

/-- Before the load there is no exemption, and each registered channel has an
empty list. -/
def emptyDb (chans : List CStr) : Database := ⟨[], chans.map (⟨·, []⟩)⟩

/-- Written and loaded, the list is the same, and `db_h_ble` was handed each
of its rows. -/
def Survives (B : Backend) (core : Core) (chans : List CStr) (elist : List Exempt) : Prop :=
  (∀ row ∈ writeDnsblExemptDb elist, row.type = "BLE".toList) ∧
    (load (handlers B core) (emptyDb chans) (writeDnsblExemptDb elist)).map (·.elist) = some elist

/-- A `DNSBLEXEMPT` command: who gives it, when, and its parameters. -/
structure ExemptCmd where
  source : CStr
  now : ℕ
  command : Option CStr
  ip : Option CStr
  reason : Option CStr
deriving DecidableEq, Repr

/-- The exemptions after a sequence of commands. -/
def exemptsOf (core : Core) (cmds : List ExemptCmd) : List Exempt :=
  (cmds.foldl (fun s c => osCmdDnsblexempt core c.source c.now c.command c.ip c.reason s) init).dnsblElist

/-- What a command asks of the exemptions. -/
def exemptOp (source : CStr) (now : ℕ) (command ip reason : Option CStr) : Keyed.Op Exempt CStr :=
  match command with
  | none => .look
  | some command =>
    if strcasecmp "ADD".toList command then
      match ip, reason with
      | some ip, some reason => .add ⟨ip, now, source, reason⟩
      | _, _ => .look
    else if strcasecmp "DEL".toList command then
      match ip with
      | some ip => .del ip
      | none => .look
    else .look

/-- **The exemptions are an ordered set of the addresses.** -/
theorem osCmdDnsblexempt_dnsblElist (core : Core) (source : CStr) (now : ℕ)
    (command ip reason : Option CStr) (s : State) :
    (osCmdDnsblexempt core source now command ip reason s).dnsblElist =
      (exemptOp source now command ip reason).run core.irccasecmp Exempt.ip s.dnsblElist := by
  cases command with
  | none => rfl
  | some command =>
    simp only [osCmdDnsblexempt, exemptOp]
    by_cases hadd : strcasecmp "ADD".toList command = true
    · rw [if_pos hadd, if_pos hadd]
      cases ip with
      | none => rfl
      | some ip =>
        cases reason with
        | none => rfl
        | some reason =>
          simp only [Keyed.Op.run]
          split
          · rfl
          · rfl
    · rw [if_neg hadd, if_neg hadd]
      by_cases hdel : strcasecmp "DEL".toList command = true
      · rw [if_pos hdel, if_pos hdel]
        cases ip with
        | none => rfl
        | some ip =>
          simp only [Keyed.Op.run]
          split
          · rename_i de hfind
            exact Keyed.erase_of_find hfind
          · rename_i hnone
            exact (Keyed.erase_of_none hnone).symm
      · rw [if_neg hdel, if_neg hdel]
        split
        · rfl
        · rfl

/-- A row of the exemptions is handed to `db_h_bw`, and adds no exemption. -/
theorem loadRow_elist {B : Backend} {core : Core} {elist : List Exempt} {row : Row}
    (h : row ∈ writeDnsblExemptDb elist) {db db' : Database} (hload : loadRow (handlers B core) db row = some db') :
    db'.elist = db.elist := by
  obtain ⟨de, -, rfl⟩ := List.mem_map.mp h
  have htype : (handlers B core).lookup (exemptRow de).type = some _ := rfl
  rw [loadRow_of_type htype, Option.map_eq_some_iff] at hload
  obtain ⟨⟨d, rest⟩, hd, rfl⟩ := hload
  obtain ⟨⟨mclist, rest'⟩, -, hd⟩ := Option.bind_eq_some_iff.mp hd
  cases hd
  rfl

theorem load_elist {B : Backend} {core : Core} {chans : List CStr} {elist : List Exempt} {db : Database}
    (h : load (handlers B core) (emptyDb chans) (writeDnsblExemptDb elist) = some db) : db.elist = [] :=
  load_inv (I := fun d => d.elist = [])
    (fun _ hrow _ _ hI hload => (loadRow_elist hrow hload).trans hI) rfl h

/-- **The exemptions that a sequence of commands leaves survive a save and a
reload exactly if it leaves none.** -/
theorem exempts_survive_iff (B : Backend) (core : Core) (chans : List CStr) (cmds : List ExemptCmd) :
    Survives B core chans (exemptsOf core cmds) ↔ exemptsOf core cmds = [] := by
  generalize exemptsOf core cmds = elist
  constructor
  · rintro ⟨-, h⟩
    rw [Option.map_eq_some_iff] at h
    obtain ⟨db, hdb, rfl⟩ := h
    exact load_elist hdb
  · rintro rfl
    exact ⟨by simp [writeDnsblExemptDb], rfl⟩

/-- One exemption, with a reason of two words, does not survive. -/
theorem exempt_lost :
    ¬ Survives plain ⟨Char.toLower, fun _ => ""⟩ []
      (exemptsOf ⟨Char.toLower, fun _ => ""⟩
        [⟨"admin".toList, 1500000000, some "ADD".toList, some "192.0.2.7".toList,
          some "shared host".toList⟩]) := by
  rintro ⟨-, h⟩
  exact absurd h (by decide)

end Dnsbl
end AthemeContrib
