/-
# Pursuit in a maze

A pursuit is a maze of one-way tunnels with a beast in it, and hunters in some
of its rooms. A hunter goes through a tunnel, or is carried off on the way to
any room, but never to the beast; or it is lost. The beast goes through a
tunnel, and takes the hunters it meets. Whatever happens, the maze stays, nobody
joins, and the beast has walked where it gets to (`Later`).

Around it there is a lobby: those who wait there begin the next pursuit.

Key definitions: `Pursuit`, `Pursuit.Move`, `Pursuit.Later`, `Stage`, `Stage.Step`.
Key theorems: `Pursuit.Move.later`, `Pursuit.later_of_moves`, `Stage.Step.hunt`.
-/
import Mathlib.Data.Set.Insert
import Mathlib.Data.Set.Subsingleton
import Mathlib.Logic.Function.Basic
import Mathlib.Logic.Relation

namespace AthemeContrib

open Relation

variable {ρ ι : Type*}

/-- Rooms with tunnels, where the hunters are, and the beast. -/
structure Pursuit (ρ ι : Type*) where
  tunnel : ρ → ρ → Prop
  place : ι → Option ρ
  beast : ρ

namespace Pursuit

variable {g g' g'' : Pursuit ρ ι}

def hunters (g : Pursuit ρ ι) : Set ι := {u | g.place u ≠ none}

/-- A place of the maze: a tunnel leads away from it. -/
def Room (g : Pursuit ρ ι) (i : ρ) : Prop := ∃ k, g.tunnel i k

/-- No tunnel is a dead end or a loop, and everybody is in the maze. -/
structure Sound (g : Pursuit ρ ι) : Prop where
  deeper : ∀ i k, g.tunnel i k → g.Room k
  noLoop : ∀ i, ¬ g.tunnel i i
  beast : g.Room g.beast
  place : ∀ u i, g.place u = some i → g.Room i

/-- No hunter is with the beast. -/
def Apart (g : Pursuit ρ ι) : Prop := ∀ u, g.place u ≠ some g.beast

/-- What can happen in a pursuit. -/
inductive Move [DecidableEq ρ] [DecidableEq ι] (g : Pursuit ρ ι) : Pursuit ρ ι → Prop
  | rest : Move g g
  | walk {u i k} (hu : g.place u = some i) (ht : g.tunnel i k) (hb : k ≠ g.beast) :
      Move g { g with place := Function.update g.place u (some k) }
  | carried {u i k d} (hu : g.place u = some i) (ht : g.tunnel i k) (hd : g.Room d) (hb : d ≠ g.beast) :
      Move g { g with place := Function.update g.place u (some d) }
  | lost {u i} (hu : g.place u = some i) : Move g { g with place := Function.update g.place u none }
  | prowl {n} (ht : g.tunnel g.beast n) :
      Move g { g with place := fun u => if g.place u = some n then none else g.place u, beast := n }

/-- What a pursuit has kept, a while later. -/
structure Later (g g' : Pursuit ρ ι) : Prop where
  tunnel : g'.tunnel = g.tunnel
  hunters : g'.hunters ⊆ g.hunters
  beast : ReflTransGen g.tunnel g.beast g'.beast
  apart : g.Apart → g'.Apart

theorem Later.refl (g : Pursuit ρ ι) : Later g g := ⟨rfl, Set.Subset.rfl, .refl, id⟩

theorem Later.trans (h : Later g g') (h' : Later g' g'') : Later g g'' where
  tunnel := h'.tunnel.trans h.tunnel
  hunters := h'.hunters.trans h.hunters
  beast := by
    have hwalk := h'.beast
    rw [h.tunnel] at hwalk
    exact h.beast.trans hwalk
  apart := h'.apart ∘ h.apart

section
variable [DecidableEq ι]

/-- Who is set down somewhere else was a hunter before. -/
theorem hunters_update_subset {u : ι} {i : ρ} (hu : g.place u = some i) (x : Option ρ) :
    ({ g with place := Function.update g.place u x } : Pursuit ρ ι).hunters ⊆ g.hunters := by
  intro v hv
  by_cases hvu : v = u
  · rw [hvu]
    exact fun hnone => by rw [hu] at hnone; cases hnone
  · have hsame : Function.update g.place u x v = g.place v := Function.update_of_ne hvu x g.place
    exact fun hnone => hv (hsame.trans hnone)

theorem later_update {u : ι} {i : ρ} (hu : g.place u = some i) {x : Option ρ} (hx : x ≠ some g.beast) :
    Later g { g with place := Function.update g.place u x } where
  tunnel := rfl
  hunters := hunters_update_subset hu x
  beast := .refl
  apart := by
    intro h v
    by_cases hvu : v = u
    · simpa [hvu] using hx
    · simpa [Function.update_of_ne hvu] using h v

end

/-- The beast has gone through a tunnel, and those it met are no hunters any more. -/
theorem later_prowl [DecidableEq ρ] {n : ρ} (ht : g.tunnel g.beast n) :
    Later g { g with place := fun u => if g.place u = some n then none else g.place u, beast := n } where
  tunnel := rfl
  hunters := by
    intro u hu hnone
    exact hu (by simp [hnone])
  beast := .single ht
  apart := by
    intro _ u
    show (if g.place u = some n then none else g.place u) ≠ some n
    split
    · exact Option.some_ne_none n |>.symm
    · assumption

section
variable [DecidableEq ρ] [DecidableEq ι]

theorem Move.later (h : Move g g') : Later g g' := by
  cases h with
  | rest => exact .refl g
  | walk hu ht hb => exact later_update hu (by simpa using hb)
  | carried hu ht hd hb => exact later_update hu (by simpa using hb)
  | lost hu => exact later_update hu (by simp)
  | prowl ht => exact later_prowl ht

/-- **Over any number of moves** the maze stays, nobody joins, the beast walks, and
hunters that were apart from it are. -/
theorem later_of_moves (h : ReflTransGen Move g g') : Later g g' := by
  induction h with
  | refl => exact .refl g
  | tail _ hm ih => exact ih.trans hm.later

end

end Pursuit

/-- Some wait in the lobby, or a pursuit is on. -/
inductive Stage (ρ ι : Type*)
  | lobby (waiting : Set ι)
  | hunt (g : Pursuit ρ ι)

namespace Stage

open Pursuit

/-- What can happen next. Two begin a pursuit at least, and when it is over nobody
waits. -/
inductive Step [DecidableEq ρ] [DecidableEq ι] : Stage ρ ι → Stage ρ ι → Prop
  | stay {t} : Step t t
  | join {w u} (hu : u ∉ w) : Step (.lobby w) (.lobby (insert u w))
  | leave {w u} (hu : u ∈ w) : Step (.lobby w) (.lobby (w \ {u}))
  | scatter {w} : Step (.lobby w) (.lobby ∅)
  | start {w : Set ι} {g : Pursuit ρ ι} (hw : w.Nontrivial) (hh : g.hunters = w) (hs : g.Sound) :
      Step (.lobby w) (.hunt g)
  | move {g g'} (hm : Move g g') : Step (.hunt g) (.hunt g')
  | finish {g} : Step (.hunt g) (.lobby ∅)

variable [DecidableEq ρ] [DecidableEq ι]

/-- A step from one pursuit to another is a move of it. -/
theorem Step.hunt {g g' : Pursuit ρ ι} (h : Step (.hunt g) (.hunt g')) : Move g g' := by
  cases h with
  | stay => exact .rest
  | move hm => exact hm

end Stage
end AthemeContrib
