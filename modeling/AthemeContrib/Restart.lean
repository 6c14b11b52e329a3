/-
# The lists of four modules across a restart

The bad words, the watched patterns, the accepted addresses and the requests
for announcements are written as rows of four types, one module after
another, and each row is loaded by the module its type is registered for, by way of
any backend that reads back the fields that were written. Any
sequence of their commands leaves lists whose fields can be written
(`step_writable`), loading the rows of one module adds its entries and touches
nothing else (`load_write`), so the modules may write in any order, and all the
lists are back as they were (`lists_restored`).

Key definitions: `Lists`, `Cmd`, `step`, `Table`, `handlers`, `SameLists`.
Key theorems: `step_writable`, `load_write`, `lists_restored`.
-/
import AthemeContrib.Badwords
import AthemeContrib.OsJoinmon
import AthemeContrib.NsGoodmail
import AthemeContrib.Announceserv.Model
import AthemeContrib.Lib.Run

namespace AthemeContrib
namespace Restart

open CStr Rows Run

/-- The lists of the four modules. -/
structure Lists where
  mclist : List Badwords.Channel
  osMonlist : List OsJoinmon.Joinmon
  nsMaillist : List NsGoodmail.Goodmail
  announce : Announceserv.State
deriving DecidableEq, Repr

/-- The channels `chans` are registered, and all lists are empty. -/
def empty (chans : List CStr) : Lists := ⟨chans.map (⟨·, []⟩), [], [], ⟨[], 0⟩⟩

/-- A command of one of the modules. -/
inductive Cmd
  | badwords (banLikeModes : Option CStr) (si : Source) (access : Badwords.Access) (now : ℕ)
    (parv : List CStr)
  | joinmon (si : Source) (now : ℕ) (parv : List CStr)
  | goodmail (si : Source) (now : ℕ) (parv : List CStr)
  | announce (op : Announceserv.Op)

/-- The lists after a command; none if it ends the program. -/
def step (core : Core) (s : Lists) : Cmd → Option Lists
  | .badwords banLikeModes si access now parv =>
    some { s with mclist := (Badwords.csCmdBadwords core banLikeModes si access now parv s.mclist).1 }
  | .joinmon si now parv =>
    (OsJoinmon.osCmdJoinmon core si now parv s.osMonlist).map fun r => { s with osMonlist := r.1 }
  | .goodmail si now parv =>
    some { s with nsMaillist := (NsGoodmail.nsCmdGoodmail core si now parv s.nsMaillist).1 }
  | .announce op => some { s with announce := (Announceserv.step core s.announce op).1 }

/-- A command as it comes from IRC: names of users and accounts are words. -/
def Cmd.Issued : Cmd → Prop
  | .badwords _ si _ _ parv => Word si.name ∧ Params 4 parv
  | .joinmon si _ parv => Word si.name ∧ Params 3 parv
  | .goodmail si _ parv => Word si.name ∧ Params 3 parv
  | .announce op => op.Issued

/-! ### Writing and loading -/

/-- The modules that write rows. -/
inductive Table
  | bw | jm | ge | ar
deriving DecidableEq, Repr

/-- The rows a module writes, at its `db_write` hook. -/
def Table.write (s : Lists) : Table → List Row
  | .bw => Badwords.writeBadwordDb s.mclist
  | .jm => OsJoinmon.writeJmdb s.osMonlist
  | .ge => NsGoodmail.writeGedb s.nsMaillist
  | .ar => Announceserv.writeAsreqdb s.announce

/-- The row types the modules register. -/
def handlers (B : Backend) (core : Core) : Handlers B Lists :=
  [("BW".toList, fun s => do
      let mclist ← Badwords.dbHBw B core s.mclist
      return { s with mclist := mclist }),
    ("JM".toList, fun s => do
      let osMonlist ← OsJoinmon.dbHJm B s.osMonlist
      return { s with osMonlist := osMonlist }),
    ("GE".toList, fun s => do
      let nsMaillist ← NsGoodmail.dbHGe B s.nsMaillist
      return { s with nsMaillist := nsMaillist }),
    ("AR".toList, fun s => do
      let announce ← Announceserv.dbHAr B s.announce
      return { s with announce := announce })]

/-- The lists have the same entries in the same order; where `s` has a
literal, `s'` has a copy of it, and the nodes of its list are others. -/
structure SameLists (s s' : Lists) : Prop where
  mclist : s'.mclist = s.mclist
  osMonlist : s'.osMonlist = s.osMonlist.map OsJoinmon.Joinmon.dup
  nsMaillist : s'.nsMaillist = s.nsMaillist
  announce : s'.announce.asReqlist.map (·.data) = s.announce.asReqlist.map (·.data)

/-! ### What can be written -/

/-- Every entry of every list can be written. -/
structure Writable (s : Lists) : Prop where
  mclist : ∀ mc ∈ s.mclist, mc.Writable
  osMonlist : ∀ l ∈ s.osMonlist, l.Writable
  nsMaillist : ∀ l ∈ s.nsMaillist, l.Writable
  announce : ∀ n ∈ s.announce.asReqlist, n.data.Writable

/-- The lists of the channels `chans`, all of which can be written. -/
structure Inv (chans : List CStr) (s : Lists) : Prop extends Writable s where
  names : s.mclist.map (·.name) = chans

/-- A command leaves what can be written. -/
theorem step_writable {core : Core} {chans : List CStr} (hchans : ∀ c ∈ chans, Word c) {s s' : Lists}
    {c : Cmd} (hc : c.Issued) (h : Inv chans s) (hstep : step core s c = some s') : Inv chans s' := by
  cases c with
  | badwords banLikeModes si access now parv =>
    cases hstep
    have hname : ∀ mc ∈ s.mclist, Word mc.name := by
      intro mc hmc
      have hmem : mc.name ∈ s.mclist.map (·.name) := List.mem_map_of_mem hmc
      rw [h.names] at hmem
      exact hchans _ hmem
    refine { h with mclist := Badwords.csCmdBadwords_writable hc.1 hc.2 hname h.mclist, names := ?_ }
    exact (Badwords.map_name_csCmdBadwords core banLikeModes si access now parv s.mclist).trans h.names
  | joinmon si now parv =>
    obtain ⟨⟨osMonlist, out⟩, hrun, rfl⟩ := Option.map_eq_some_iff.mp hstep
    exact { h with osMonlist := OsJoinmon.osCmdJoinmon_writable hc.1 hc.2 h.osMonlist hrun }
  | goodmail si now parv =>
    cases hstep
    exact { h with nsMaillist := NsGoodmail.nsCmdGoodmail_writable hc.1 hc.2 h.nsMaillist }
  | announce op =>
    cases hstep
    exact { h with announce := Announceserv.step_writable hc h.announce }

theorem exec_writable {core : Core} {chans : List CStr} (hchans : ∀ c ∈ chans, Word c) :
    ∀ {cmds : List Cmd} {s s' : Lists}, (∀ c ∈ cmds, c.Issued) → Inv chans s →
      exec (step core) s cmds = some s' → Inv chans s'
  | [], _, _, _, h, hrun => by
    cases hrun
    exact h
  | c :: cmds, s, s', hcmds, h, hrun => by
    rw [exec_cons, Option.bind_eq_some_iff] at hrun
    obtain ⟨t, ht, hrun⟩ := hrun
    have hInv : Inv chans t := step_writable hchans (hcmds c (by simp)) h ht
    exact exec_writable hchans (fun d hd => hcmds d (List.mem_cons_of_mem c hd)) hInv hrun

/-! ### Loading the rows of one module -/

/-- What `d` becomes when the rows that `t` writes of `s` are loaded. -/
def Table.restore (core : Core) (s d : Lists) : Table → Lists
  | .bw => { d with
      mclist := (s.mclist.flatMap Badwords.Channel.badwords).foldl (Badwords.addBadword core) d.mclist }
  | .jm => { d with osMonlist := s.osMonlist.foldl (fun l a => l ++ [a.dup]) d.osMonlist }
  | .ge => { d with nsMaillist := s.nsMaillist.foldl (fun l a => l ++ [a]) d.nsMaillist }
  | .ar => { d with announce := s.announce.asReqlist.foldl (fun a n => a.add n.data) d.announce }

/-- One of the lists. -/
structure Part (τ : Type) where
  get : Lists → τ
  put : Lists → τ → Lists
  get_put : ∀ s x, get (put s x) = x
  put_put : ∀ s x y, put (put s x) y = put s y
  put_get : ∀ s, put s (get s) = s

/-- Changes to one list, one after another, are one change to it. -/
theorem foldl_put {α τ : Type} (part : Part τ) (add : τ → α → τ) : ∀ (l : List α) (s : Lists),
    l.foldl (fun s a => part.put s (add (part.get s) a)) s = part.put s (l.foldl add (part.get s))
  | [], s => (part.put_get s).symm
  | a :: l, s => by
    rw [List.foldl_cons, foldl_put part add l, part.get_put, part.put_put, List.foldl_cons]

/-- The rows of one type are loaded into one of the lists. -/
theorem load_part {B : Backend} {core : Core} {α τ : Type} (part : Part τ) {add : τ → α → τ}
    {read : τ → RowReader B τ} {row : α → Row}
    {l : List α} (hlookup : ∀ a ∈ l, (handlers B core).lookup (row a).type = some fun s => do
      let x ← read (part.get s)
      return part.put s x)
    (hrow : ∀ a ∈ l, ∀ x, read x (B.text (row a).fields) = some (add x a, B.text [])) (d : Lists) :
    load (handlers B core) d (l.map row) = some (part.put d (l.foldl add (part.get d))) := by
  have hload : ∀ a ∈ l, ∀ s : Lists,
      loadRow (handlers B core) s (row a) = some (part.put s (add (part.get s) a)) := by
    intro a ha s
    rw [loadRow_of_type (hlookup a ha), bind_of_read (hrow a ha (part.get s))]
    rfl
  rw [load_map hload, foldl_put]

/-- The rows of one module are loaded into its own list. -/
theorem load_write {B : Backend} {core : Core} {s : Lists} (h : Writable s) (d : Lists) (t : Table) :
    load (handlers B core) d (t.write s) = some (t.restore core s d) := by
  cases t with
  | bw =>
    have hwrite : Table.bw.write s = (s.mclist.flatMap Badwords.Channel.badwords).map Badwords.badwordRow :=
      (List.map_flatMap ..).symm
    rw [hwrite]
    refine load_part ⟨Lists.mclist, fun s x => { s with mclist := x }, fun _ _ => rfl, fun _ _ _ => rfl,
      fun _ => rfl⟩ (fun _ _ => rfl) (fun bw hbw => ?_) d
    obtain ⟨mc, hmc, hbw⟩ := List.mem_flatMap.mp hbw
    exact Badwords.dbHBw_row (h.mclist mc hmc bw hbw).1
  | jm =>
    exact load_part ⟨Lists.osMonlist, fun s x => { s with osMonlist := x }, fun _ _ => rfl, fun _ _ _ => rfl,
      fun _ => rfl⟩ (fun _ _ => rfl) (fun l hl => OsJoinmon.dbHJm_row (h.osMonlist l hl)) d
  | ge =>
    exact load_part ⟨Lists.nsMaillist, fun s x => { s with nsMaillist := x }, fun _ _ => rfl,
      fun _ _ _ => rfl, fun _ => rfl⟩ (fun _ _ => rfl) (fun l hl => NsGoodmail.dbHGe_row (h.nsMaillist l hl)) d
  | ar =>
    exact load_part ⟨Lists.announce, fun s x => { s with announce := x }, fun _ _ => rfl, fun _ _ _ => rfl,
      fun _ => rfl⟩ (fun _ _ => rfl) (fun n hn => Announceserv.dbHAr_row (h.announce n hn)) d

/-- The modules do not get in each other's way. -/
theorem restore_comm (core : Core) (s d : Lists) (t t' : Table) :
    t'.restore core s (t.restore core s d) = t.restore core s (t'.restore core s d) := by
  cases t <;> cases t' <;> rfl

theorem load_writes {B : Backend} {core : Core} {s : Lists} (h : Writable s) : ∀ (order : List Table) (d : Lists),
    load (handlers B core) d (order.flatMap (·.write s)) = some (order.foldl (fun d t => t.restore core s d) d)
  | [], _ => rfl
  | t :: order, d => by
    rw [List.flatMap_cons, load_append, load_write h, Option.bind_some, List.foldl_cons]
    exact load_writes h order _

/-! ### The round trip -/

/-- **Every list is as it was** when what the modules have written, in any
order, is loaded again, after any commands. -/
theorem lists_restored (B : Backend) (core : Core) {chans : List CStr} (hchans : ∀ c ∈ chans, Word c)
    (hne : chans.Pairwise fun a b => core.irccasecmp a b = false) {cmds : List Cmd}
    (hcmds : ∀ c ∈ cmds, c.Issued)
    {s : Lists} (hrun : exec (step core) (empty chans) cmds = some s) {order : List Table}
    (horder : order.Perm [.bw, .jm, .ge, .ar]) :
    ∃ s', load (handlers B core) (empty chans) (order.flatMap (·.write s)) = some s' ∧ SameLists s s' := by
  have hstart : Inv chans (empty chans) := by
    refine ⟨⟨?_, by simp [empty], by simp [empty], by simp [empty]⟩, ?_⟩
    · intro mc hmc bw hbw
      obtain ⟨c, -, rfl⟩ := List.mem_map.mp hmc
      cases hbw
    · rw [empty, List.map_map]
      exact List.map_id chans
  have hInv : Inv chans s := exec_writable hchans hcmds hstart hrun
  have hsame : order.foldl (fun d t => t.restore core s d) (empty chans) =
      [Table.bw, .jm, .ge, .ar].foldl (fun d t => t.restore core s d) (empty chans) :=
    horder.foldl_eq' (fun t _ t' _ d => restore_comm core s d t t') _
  refine ⟨_, load_writes hInv.toWritable order (empty chans), ?_⟩
  rw [hsame]
  refine ⟨?_, ?_, ?_, ?_⟩
  · show (s.mclist.flatMap Badwords.Channel.badwords).foldl (Badwords.addBadword core) (chans.map (⟨·, []⟩)) =
      s.mclist
    have hunique : Keyed.Unique core.irccasecmp Badwords.Channel.name s.mclist := by
      rw [← hInv.names, List.pairwise_map] at hne
      exact hne
    rw [← hInv.names]
    exact Badwords.regroup hunique hInv.mclist
  · show s.osMonlist.foldl (fun l a => l ++ [a.dup]) [] = s.osMonlist.map OsJoinmon.Joinmon.dup
    rw [List.foldl_append_eq_append, List.nil_append]
    exact (List.map_eq_flatMap ..).symm
  · show s.nsMaillist.foldl (fun l a => l ++ [a]) [] = s.nsMaillist
    rw [List.foldl_append_eq_append, List.nil_append]
    exact List.flatMap_singleton' s.nsMaillist
  · show (s.announce.asReqlist.foldl (fun a n => a.add n.data)
        (⟨[], 0⟩ : Announceserv.State)).asReqlist.map (·.data) = _
    exact Announceserv.map_data_foldl_add s.announce.asReqlist _

/-- A core that compares as ASCII does. -/
def ascii : Core := ⟨Char.toLower, fun _ => ""⟩

/-- The source of the commands, logged in. -/
def oper : Source := ⟨"oper".toList, some "oper".toList⟩

/-- A bad word, a watched pattern and a request, on a network with a channel. -/
def added : List Cmd :=
  [.badwords none oper ⟨true, true⟩ 1700000000 ["#a".toList, "ADD".toList, "*spam*".toList, "kick".toList],
    .joinmon oper 1700000000 ["ADD".toList, "bot*".toList],
    .announce (.request "alice".toList false 1700000000 ["My_party".toList, "Tonight, at  eight".toList])]

theorem lists_restored_added : ∃ s s', exec (step ascii) (empty ["#A".toList]) added = some s ∧
    load (handlers plain ascii) (empty ["#A".toList]) ([Table.ar, .bw, .ge, .jm].flatMap (·.write s)) = some s' ∧
      SameLists s s' := by
  have hcmds : ∀ c ∈ added, c.Issued := by
    simp only [added, List.forall_mem_cons, Cmd.Issued, Announceserv.Op.Issued]
    exact ⟨⟨by decide, by decide, by decide, by decide⟩, ⟨by decide, by decide, by decide, by decide⟩,
      ⟨by decide, by decide, by decide, by decide⟩, fun _ h => (List.not_mem_nil h).elim⟩
  have hchans : ∀ c ∈ ["#A".toList], Word c := by decide
  have horder : [Table.ar, .bw, .ge, .jm].Perm [.bw, .jm, .ge, .ar] := by decide
  obtain ⟨s', hload, hsame⟩ := lists_restored plain ascii hchans (List.pairwise_singleton _ _) hcmds rfl horder
  exact ⟨_, s', rfl, hload, hsame⟩

end Restart
end AthemeContrib
