/-
# What a history leaves in a list with one entry a key

The keys of such a list are what the edits of it make of the keys, and a key is there
exactly if the last edit that is about it adds it, whatever came before (`stands_iff`).
Edits that were lost are left out of the history.

Key definitions: `Op.onKey`, `keys`, `Op.tells`, `Stands`.
Key theorems: `map_run`, `keys_unique`, `stands_concat`, `stands_iff`.
-/
import AthemeContrib.Lib.Keyed
import Mathlib.Data.List.Induction

namespace AthemeContrib
namespace Keyed

variable {α κ : Type*} {same : κ → κ → Bool}

/-- What the edit is to the keys. -/
def Op.onKey (key : α → κ) : Op α κ → Op κ κ
  | .add a => .add (key a)
  | .del k => .del k
  | .look => .look

/-- The keys are edited alike. -/
theorem map_run (same : κ → κ → Bool) (key : α → κ) (op : Op α κ) (l : List α) :
    (op.run same key l).map key = (op.onKey key).run same id (l.map key) := by
  cases op with
  | add a =>
    rw [Op.onKey, Op.run, Op.run, List.any_map]
    show List.map key (if (l.any fun b => same (key b) (key a)) = true then l else l ++ [a]) =
      if (l.any fun b => same (key b) (key a)) = true then l.map key else l.map key ++ [key a]
    split
    · rfl
    · exact List.map_append
  | del k =>
    show (l.eraseP fun b => same (key b) k).map key = (l.map key).eraseP fun b => same b k
    rw [List.eraseP_map]
    rfl
  | look => rfl

/-- The keys after all edits, in order. -/
def keys (same : κ → κ → Bool) (ops : List (Op κ κ)) : List κ := ops.foldl (fun l op => op.run same id l) []

theorem keys_concat (ops : List (Op κ κ)) (op : Op κ κ) :
    keys same (ops ++ [op]) = op.run same id (keys same ops) := by
  rw [keys, List.foldl_append]
  rfl

theorem keys_unique (ops : List (Op κ κ)) : Unique same id (keys same ops) := by
  induction ops using List.reverseRecOn with
  | nil => exact List.Pairwise.nil
  | append_singleton ops op ih =>
    rw [keys_concat]
    exact ih.run op

/-- What the edit says of the key `k`, if it is about it: that it is there or not. -/
def Op.tells (same : κ → κ → Bool) (k : κ) : Op κ κ → Option Bool
  | .add a => if same a k then some true else none
  | .del k' => if same k' k then some false else none
  | .look => none

/-- The last edit that is about `k` adds it. -/
def Stands (same : κ → κ → Bool) (ops : List (Op κ κ)) (k : κ) : Prop :=
  (ops.filterMap (Op.tells same k)).getLast? = some true

instance (same : κ → κ → Bool) (ops : List (Op κ κ)) (k : κ) : Decidable (Stands same ops k) :=
  inferInstanceAs (Decidable (_ = _))

/-- **One edit**: the key is there if the edit says so, and stays as it is if the edit
is not about it. -/
theorem any_run (hs : Same same) {l : List κ} (hl : Unique same id l) (op : Op κ κ) (k : κ) :
    ((op.run same id l).any fun a => same a k) = (op.tells same k).getD (l.any fun a => same a k) := by
  cases op with
  | add a =>
    rw [Op.run, Op.tells]
    by_cases hak : same a k = true
    · rw [if_pos hak, Option.getD_some]
      split
      · rename_i hany
        obtain ⟨b, hb, hba⟩ := List.any_eq_true.mp hany
        exact List.any_eq_true.mpr ⟨b, hb, (hs.congr _ _ hba k).trans hak⟩
      · rw [List.any_append, List.any_cons, hak, Bool.true_or, Bool.or_true]
    · rw [if_neg hak, Option.getD_none]
      split
      · rfl
      · rw [List.any_append, List.any_cons, eq_false_of_ne_true hak]
        simp
  | del k' =>
    rw [Op.run, Op.tells]
    by_cases hkk : same k' k = true
    · rw [if_pos hkk, Option.getD_some, List.any_eq_false]
      -- the one entry of the key is unlinked
      have hsame : (fun b => same (id b) k') = fun b => same b k := by
        funext b
        rw [id, hs.comm b k', hs.congr _ _ hkk b, hs.comm]
      rw [hsame]
      intro b hb hbk
      rcases find_or_not (fun b => same b k) l with ⟨-, hall⟩ | ⟨before, a, after, rfl, -, ha, -, herase⟩
      · rw [hall b (List.mem_of_mem_eraseP hb)] at hbk
        cases hbk
      · rw [herase] at hb
        rw [Unique, List.pairwise_append, List.pairwise_cons] at hl
        have hba : same b a = true := by rw [hs.congr _ _ hbk a, hs.comm, ha]
        rcases List.mem_append.mp hb with hb | hb
        · have hne := hl.2.2 b hb a List.mem_cons_self
          rw [id, id, hba] at hne
          cases hne
        · have hne := hl.2.1.1 b hb
          rw [id, id, hs.comm, hba] at hne
          cases hne
    · rw [if_neg hkk, Option.getD_none]
      rcases find_or_not (fun b => same (id b) k') l with
        ⟨hnone, -⟩ | ⟨before, a, after, rfl, -, ha, -, herase⟩
      · rw [erase_of_none hnone]
      · have hak : same a k = false := (hs.congr _ _ ha k).trans (eq_false_of_ne_true hkk)
        rw [herase, List.any_append, List.any_append, List.any_cons, hak, Bool.false_or]
  | look => rfl

/-- One more edit decides, if it is about the key. -/
theorem stands_concat (ops : List (Op κ κ)) (op : Op κ κ) (k : κ) :
    Stands same (ops ++ [op]) k ↔ (op.tells same k).getD (decide (Stands same ops k)) = true := by
  rw [Stands, List.filterMap_append]
  cases htells : op.tells same k with
  | none => simp [htells, Stands]
  | some b => simp [htells]

theorem stands_nil (k : κ) : ¬ Stands same ([] : List (Op κ κ)) k := by simp [Stands]

/-- **A key is there exactly if the last edit about it added it.** -/
theorem stands_iff (hs : Same same) (ops : List (Op κ κ)) (k : κ) :
    Stands same ops k ↔ ∃ a ∈ keys same ops, same a k = true := by
  rw [← List.any_eq_true]
  induction ops using List.reverseRecOn with
  | nil => exact ⟨fun h => absurd h (stands_nil k), fun h => by cases h⟩
  | append_singleton ops op ih =>
    have hbefore : decide (Stands same ops k) = (keys same ops).any fun a => same a k := by
      rw [Bool.eq_iff_iff, decide_eq_true_iff, ih]
    rw [stands_concat, keys_concat, any_run hs (keys_unique ops), hbefore]

end Keyed
end AthemeContrib
