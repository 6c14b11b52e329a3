/-
# A heap with a ledger

A heap gives out objects under handles and takes them back. No handle is given
out twice, so the handles given out so far are those below `next`, and `parted`
says that each of them is either live or was freed, once. Whatever is done with
a handle that is not live is a misuse: the heap records it and is otherwise left
alone.

Key definitions: `Heap`, `alloc`, `free`, `misuse`, `find`.
Key theorems: `count_freed`, `find_eq_some_iff`, `perm_free`, `free_alloc`.
-/
import Mathlib.Data.List.Nodup
import Mathlib.Data.List.Range

namespace AthemeContrib

/-- The objects that are live, with their handles, and the handles of those that
were freed; `misused` are the handles used while they were not live. -/
structure Heap (α : Type*) where
  live : List (ℕ × α)
  freed : List ℕ
  next : ℕ
  misused : List ℕ
  parted : (live.map Prod.fst ++ freed).Perm (List.range next)

namespace Heap

variable {α : Type*}

/-- The heap before anything is taken from it. -/
def init : Heap α := ⟨[], [], 0, [], .nil⟩

/-- A new object, under the handle `h.next`. -/
def alloc (h : Heap α) (a : α) : Heap α where
  live := h.live ++ [(h.next, a)]
  freed := h.freed
  next := h.next + 1
  misused := h.misused
  parted := by
    rw [List.range_succ, List.map_append, List.append_assoc]
    have hswap : (h.live.map Prod.fst ++ ([h.next] ++ h.freed)).Perm
        (h.live.map Prod.fst ++ (h.freed ++ [h.next])) := List.perm_append_comm.append_left _
    apply hswap.trans
    rw [← List.append_assoc]
    exact h.parted.append_right _

/-- Something is done with an object that is not there. -/
def misuse (h : Heap α) (id : ℕ) : Heap α := { h with misused := h.misused ++ [id] }

theorem nodup (h : Heap α) : (h.live.map Prod.fst ++ h.freed).Nodup :=
  h.parted.nodup_iff.mpr List.nodup_range

theorem nodup_live (h : Heap α) : (h.live.map Prod.fst).Nodup := (List.nodup_append.mp h.nodup).1

/-- Dropping a live object, whose handle is noted. -/
theorem parted_drop (h : Heap α) {id : ℕ} (hid : id ∈ h.live.map Prod.fst) :
    ((h.live.filter (·.1 ≠ id)).map Prod.fst ++ (h.freed ++ [id])).Perm (List.range h.next) := by
  have hfilter : (h.live.filter (·.1 ≠ id)).map Prod.fst = (h.live.map Prod.fst).erase id := by
    rw [h.nodup_live.erase_eq_filter, List.filter_map]
    congr 1
    apply List.filter_congr
    intro p _
    exact Bool.eq_iff_iff.mpr (by simp)
  have hback : ((h.live.map Prod.fst).erase id ++ [id]).Perm (h.live.map Prod.fst) :=
    List.perm_append_comm.trans (List.perm_cons_erase hid).symm
  have hswap : (h.freed ++ [id]).Perm ([id] ++ h.freed) := List.perm_append_comm
  rw [hfilter]
  apply (hswap.append_left _).trans
  rw [← List.append_assoc]
  exact (hback.append_right _).trans h.parted

/-- An object is given back. -/
def free (h : Heap α) (id : ℕ) : Heap α :=
  if hid : id ∈ h.live.map Prod.fst then
    { live := h.live.filter (·.1 ≠ id)
      freed := h.freed ++ [id]
      next := h.next
      misused := h.misused
      parted := h.parted_drop hid }
  else h.misuse id

/-- The live object under a handle. -/
def find (h : Heap α) (id : ℕ) : Option α := (h.live.find? (·.1 = id)).map Prod.snd

/-! ### What the ledger says -/

variable {h : Heap α} {id : ℕ} {p : ℕ × α}

theorem lt_next_iff : id < h.next ↔ id ∈ h.live.map Prod.fst ∨ id ∈ h.freed := by
  rw [← List.mem_range, ← h.parted.mem_iff, List.mem_append]

theorem lt_next_of_live (hp : p ∈ h.live) : p.1 < h.next :=
  lt_next_iff.mpr (Or.inl (List.mem_map_of_mem hp))

/-- What is live was not freed. -/
theorem count_freed_live (hp : p ∈ h.live) : h.freed.count p.1 = 0 :=
  List.count_eq_zero.mpr (List.disjoint_of_nodup_append h.nodup (List.mem_map_of_mem hp))

/-- **What was given out and is not live was freed once.** -/
theorem count_freed (hid : id < h.next) (hlive : id ∉ h.live.map Prod.fst) : h.freed.count id = 1 := by
  apply List.count_eq_one_of_mem (List.nodup_append.mp h.nodup).2.1
  exact (lt_next_iff.mp hid).resolve_left hlive

/-- What was not given out was not freed. -/
theorem count_freed_next (hid : h.next ≤ id) : h.freed.count id = 0 := by
  apply List.count_eq_zero.mpr
  intro hmem
  have hlt : id < h.next := lt_next_iff.mpr (Or.inr hmem)
  omega

/-- A handle has one object. -/
theorem eq_of_live {a b : α} (ha : (id, a) ∈ h.live) (hb : (id, b) ∈ h.live) : a = b :=
  (Prod.mk.inj (List.inj_on_of_nodup_map h.nodup_live ha hb rfl)).2

theorem find_eq_some_iff {a : α} : h.find id = some a ↔ (id, a) ∈ h.live := by
  unfold find
  rw [Option.map_eq_some_iff]
  constructor
  · intro ⟨q, hq, ha⟩
    have hid : q.1 = id := by simpa using List.find?_some hq
    rw [← hid, ← ha]
    exact List.mem_of_find?_eq_some hq
  · intro hmem
    have hsome : (h.live.find? (·.1 = id)).isSome :=
      List.find?_isSome.mpr ⟨(id, a), hmem, decide_eq_true rfl⟩
    obtain ⟨q, hq⟩ := Option.isSome_iff_exists.mp hsome
    refine ⟨q, hq, ?_⟩
    have hid : q.1 = id := by simpa using List.find?_some hq
    have hlive : (id, q.2) ∈ h.live := hid ▸ List.mem_of_find?_eq_some hq
    exact eq_of_live hlive hmem

/-! ### What the operations do -/

theorem mem_live_alloc (a : α) : p ∈ (h.alloc a).live ↔ p ∈ h.live ∨ p = (h.next, a) := by
  simp [alloc]

/-- Freeing a live object. -/
theorem free_of_live (hp : p ∈ h.live) : (h.free p.1).live = h.live.filter (·.1 ≠ p.1) ∧
    (h.free p.1).freed = h.freed ++ [p.1] ∧ (h.free p.1).next = h.next ∧ (h.free p.1).misused = h.misused := by
  unfold free
  rw [dif_pos (List.mem_map_of_mem hp)]
  exact ⟨rfl, rfl, rfl, rfl⟩

/-- An object that is given back is one object less. -/
theorem perm_free (hp : p ∈ h.live) : h.live.Perm (p :: (h.free p.1).live) := by
  rw [(free_of_live hp).1]
  have hnodup : h.live.Nodup := h.nodup_live.of_map
  have hrest : (p :: h.live.filter (·.1 ≠ p.1)).Nodup :=
    List.nodup_cons.mpr ⟨by simp, hnodup.filter _⟩
  apply (List.perm_ext_iff_of_nodup hnodup hrest).mpr
  intro q
  rw [List.mem_cons, List.mem_filter, decide_eq_true_iff]
  constructor
  · intro hq
    by_cases hid : q.1 = p.1
    · exact Or.inl (List.inj_on_of_nodup_map h.nodup_live hq hp hid)
    · exact Or.inr ⟨hq, hid⟩
  · intro hq
    rcases hq with rfl | hq
    · exact hp
    · exact hq.1

/-- An object that is given back at once. -/
theorem free_alloc (h : Heap α) (a : α) : ((h.alloc a).free h.next).live = h.live ∧
    ((h.alloc a).free h.next).freed = h.freed ++ [h.next] ∧ ((h.alloc a).free h.next).next = h.next + 1 ∧
    ((h.alloc a).free h.next).misused = h.misused := by
  have hmem : (h.next, a) ∈ (h.alloc a).live := (mem_live_alloc a).mpr (Or.inr rfl)
  obtain ⟨hlive, hfreed, hnext, hmisused⟩ := free_of_live hmem
  refine ⟨?_, hfreed, hnext, hmisused⟩
  have hkeep : h.live.filter (·.1 ≠ h.next) = h.live := by
    apply List.filter_eq_self.mpr
    intro q hq
    exact decide_eq_true (Nat.ne_of_lt (lt_next_of_live hq))
  rw [hlive]
  simp only [alloc, List.filter_append, hkeep]
  simp

end Heap
end AthemeContrib
