/-
# Programs on an endless supply of random numbers

A run takes its numbers off a list. Of an endless sequence `g` it is given a
stretch; `Settles g m s n` says that from the place `n` on some stretch is long
enough, so that `m` stops, and does not look at what comes after it. A program
whose loops all settle settles.

Key definitions: `stretch`, `Settles`, `Recurs`.
Key theorems: `Settles.bind`, `settles_forEach`, `Settles.ends`.
-/
import AthemeContrib.Lib.Prog
import Mathlib.Data.List.Basic

namespace AthemeContrib
namespace Prog

variable {σ α β : Type} {g : ℕ → ℕ}

/-- The numbers of the sequence from the place `n` up to the place `k`. -/
def stretch (g : ℕ → ℕ) (n k : ℕ) : List ℕ := (List.range' n (k - n)).map g

@[simp] theorem stretch_self (g : ℕ → ℕ) (n : ℕ) : stretch g n n = [] := by simp [stretch]

theorem stretch_zero (g : ℕ → ℕ) (k : ℕ) : stretch g 0 k = (List.range k).map g := by
  rw [stretch, Nat.sub_zero, List.range_eq_range']

theorem stretch_cons {n k : ℕ} (h : n < k) : stretch g n k = g n :: stretch g (n + 1) k := by
  obtain ⟨d, rfl⟩ := Nat.exists_eq_add_of_lt h
  have hlen : n + d + 1 - n = d + 1 := by omega
  have htail : n + d + 1 - (n + 1) = d := by omega
  rw [stretch, stretch, hlen, htail, List.range'_succ, List.map_cons]

theorem stretch_append {n k l : ℕ} (h : n ≤ k) (h' : k ≤ l) :
    stretch g n k ++ stretch g k l = stretch g n l := by
  obtain ⟨a, rfl⟩ := Nat.exists_eq_add_of_le h
  obtain ⟨b, rfl⟩ := Nat.exists_eq_add_of_le h'
  have ha : n + a - n = a := by omega
  have hb : n + a + b - (n + a) = b := by omega
  have hab : n + a + b - n = a + b := by omega
  rw [stretch, stretch, stretch, ha, hb, hab, ← List.map_append, List.range'_append_1]

/-- From the place `n` of the sequence on, `m` stops, and looks at no number
after the stretch it needs. -/
def Settles (g : ℕ → ℕ) (m : Prog σ α) (s : σ) (n : ℕ) : Prop :=
  ∃ k, n ≤ k ∧ ((∀ rest, m s (stretch g n k ++ rest) = .fault) ∨
    ∃ a s', ∀ rest, m s (stretch g n k ++ rest) = .done a s' rest)

/-- A program that settles, and does not fault, is done on a stretch from the
start. -/
theorem Settles.ends {m : Prog σ α} {s : σ} (h : Settles g m s 0) (hm : ∀ rs, m s rs ≠ .fault) :
    ∃ k a s' rs', m s ((List.range k).map g) = .done a s' rs' := by
  obtain ⟨k, -, hf | ⟨a, s', hd⟩⟩ := h
  · exact absurd (hf []) (hm _)
  · refine ⟨k, a, s', [], ?_⟩
    have := hd []
    rwa [List.append_nil, stretch_zero] at this

section
variable {s : σ} {n : ℕ}

/-- A program that draws nothing. -/
theorem settles_of_done {m : Prog σ α} {a : α} {s' : σ} (h : ∀ rs, m s rs = .done a s' rs) :
    Settles g m s n :=
  ⟨n, Nat.le_refl n, .inr ⟨a, s', fun rest => by rw [stretch_self]; exact h rest⟩⟩

theorem settles_fault : Settles g (fault : Prog σ α) s n := ⟨n, Nat.le_refl n, .inl fun _ => rfl⟩

theorem settles_pure (a : α) : Settles g (pure a) s n := settles_of_done fun _ => rfl

theorem settles_deref (p : Option α) : Settles g (deref p) s n := by
  cases p with
  | none => exact settles_fault
  | some a => exact settles_pure a

theorem settles_rand : Settles g rand s n :=
  ⟨n + 1, Nat.le_succ n, .inr ⟨g n, s, fun rest => by
    rw [stretch_cons (Nat.lt_succ_self n), stretch_self]
    rfl⟩⟩

/-- Where the first program stops, the second goes on; it may use what a run of
the first that is done has returned. -/
theorem Settles.bind {m : Prog σ β} {f : β → Prog σ α} (hm : Settles g m s n)
    (hf : ∀ b s' k, (∃ rs rs', m s rs = .done b s' rs') → Settles g (f b) s' k) :
    Settles g (m >>= f) s n := by
  obtain ⟨k, hnk, hfault | ⟨b, s', hdone⟩⟩ := hm
  · refine ⟨k, hnk, .inl fun rest => ?_⟩
    show Prog.bind m f s _ = _
    rw [Prog.bind, hfault]
  · obtain ⟨l, hkl, hl⟩ := hf b s' k ⟨_, _, hdone []⟩
    have hrun : ∀ rest, (m >>= f) s (stretch g n l ++ rest) = f b s' (stretch g k l ++ rest) := by
      intro rest
      rw [← stretch_append hnk hkl, List.append_assoc]
      exact bind_of_done (hdone _) f
    simp only [← hrun] at hl
    exact ⟨l, Nat.le_trans hnk hkl, hl⟩

theorem settles_randBelow (m : ℕ) : Settles g (randBelow m) s n := by
  refine settles_rand.bind fun r s' k _ => ?_
  split
  · exact settles_fault
  · exact settles_pure _

theorem settles_when {c : Prop} [Decidable c] {m : Prog σ Unit} (hm : c → Settles g m s n) :
    Settles g (when c m) s n := by
  unfold when
  split
  · exact hm ‹c›
  · exact settles_pure ()

theorem settles_forEach {f : β → Prog σ Unit} (hf : ∀ b s n, Settles g (f b) s n) :
    ∀ (bs : List β) (s : σ) (n : ℕ), Settles g (forEach f bs) s n
  | [], _, _ => settles_pure ()
  | b :: bs, s, n => (hf b s n).bind fun _ s' k _ => settles_forEach hf bs s' k

end

/-- The sequence takes every residue modulo `m` again and again. -/
def Recurs (g : ℕ → ℕ) (m : ℕ) : Prop := ∀ r, r < m → ∀ n, ∃ k, n ≤ k ∧ g k % m = r

end Prog
end AthemeContrib
