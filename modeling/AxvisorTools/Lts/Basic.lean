import Mathlib.Logic.Relation

/-!
# Runs of a transition system

`Stuck`: no step is possible. Two rules for what every run comes to: `exists_stuck` and
`not_forever` for systems whose steps use up a rank, and `preserved` for a forecast that no step
changes. A forecast that agrees with the states in which nothing can happen any more tells how every
run ends, whatever the order of its steps.
-/

namespace Lts

open Relation

variable {σ ρ : Type*} {step : σ → σ → Prop} {s s' : σ}

def Stuck (step : σ → σ → Prop) (s : σ) : Prop := ∀ s', ¬ step s s'

/-- What every step keeps holds after every run. -/
theorem invariant {I : σ → Prop} (hstep : ∀ {s s'}, I s → step s s' → I s') (hs : I s)
    (h : ReflTransGen step s s') : I s' := by
  induction h with
  | refl => exact hs
  | tail _ h ih => exact hstep ih h

/-- A forecast that no step changes is the same after every run. -/
theorem preserved {I : σ → Prop} (f : σ → ρ) (hI : ∀ {s s'}, I s → step s s' → I s')
    (hf : ∀ {s s'}, I s → step s s' → f s' = f s) (hs : I s) (h : ReflTransGen step s s') :
    f s' = f s := by
  induction h with
  | refl => rfl
  | tail hrun h ih => rw [hf (invariant hI hs hrun) h, ih]

section Rank

variable (rank : σ → Nat) (hrank : ∀ {s s'}, step s s' → rank s' < rank s)
include hrank

/-- Every run can be continued to a state in which nothing can happen any more. -/
theorem exists_stuck (s : σ) : ∃ s', ReflTransGen step s s' ∧ Stuck step s' := by
  by_cases h : Stuck step s
  · exact ⟨s, .refl, h⟩
  · obtain ⟨t, ht⟩ : ∃ t, step s t := by simpa [Stuck] using h
    have hlt := hrank ht
    obtain ⟨s', hrun, hstuck⟩ := exists_stuck t
    exact ⟨s', .head ht hrun, hstuck⟩
termination_by rank s

/-- No run goes on for ever. -/
theorem not_forever (run : Nat → σ) : ¬ ∀ n, step (run n) (run (n + 1)) := by
  intro h
  have hle : ∀ n, rank (run n) + n ≤ rank (run 0) := by
    intro n
    induction n with
    | zero => simp
    | succ n ih =>
      have hlt := hrank (h n)
      omega
  have hend := hle (rank (run 0) + 1)
  omega

end Rank

end Lts
