import Mathlib.Data.List.Basic

/-!
# Processes that poll

A process reads its surroundings one check at a time while they change. `run step env s₀ n` is the
process before its `n`-th check, when the `n`-th check sees `env n`: every interleaving of the checks
with the changes is such an `env`. `run_inv` is the rule for what holds at every check, and
`exists_returns` the rule for coming to an end.
-/

namespace Poll

variable {σ ε ρ : Type}

/-- The process before its `n`-th check: at a state, or ended with a result. -/
def run (step : σ → ε → σ ⊕ ρ) (env : Nat → ε) (s₀ : σ) : Nat → σ ⊕ ρ
  | 0 => .inl s₀
  | n + 1 =>
    match run step env s₀ n with
    | .inl s => step s (env n)
    | .inr r => .inr r

/-- The `n`-th check ends the process with `r`. -/
def ReturnsAt (step : σ → ε → σ ⊕ ρ) (env : Nat → ε) (s₀ : σ) (n : Nat) (r : ρ) : Prop :=
  ∃ s, run step env s₀ n = .inl s ∧ step s (env n) = .inr r

def Returns (step : σ → ε → σ ⊕ ρ) (env : Nat → ε) (s₀ : σ) (r : ρ) : Prop :=
  ∃ n, ReturnsAt step env s₀ n r

variable {step : σ → ε → σ ⊕ ρ} {env : Nat → ε} {s₀ : σ}

theorem run_succ {n : Nat} {s : σ} (h : run step env s₀ n = .inl s) :
    run step env s₀ (n + 1) = step s (env n) := by
  rw [run, h]

/-- What the checks and the changes both keep holds at every check. -/
theorem run_inv (I : ε → σ → Prop) (h₀ : I (env 0) s₀)
    (hstep : ∀ {e s s'}, I e s → step s e = .inl s' → I e s')
    (henv : ∀ {n s}, I (env n) s → I (env (n + 1)) s) :
    ∀ {n s}, run step env s₀ n = .inl s → I (env n) s := by
  intro n
  induction n with
  | zero =>
    intro s h
    cases h
    exact h₀
  | succ n ih =>
    intro s h
    cases hr : run step env s₀ n with
    | inl t =>
      rw [run_succ hr] at h
      exact henv (hstep (ih hr) h)
    | inr r =>
      rw [run, hr] at h
      cases h

/-! ## Results -/

theorem ReturnsAt.run_eq {n : Nat} {r : ρ} (h : ReturnsAt step env s₀ n r) :
    ∀ {m}, n < m → run step env s₀ m = .inr r := by
  obtain ⟨s, hs, hr⟩ := h
  intro m hm
  induction hm with
  | refl => rw [run_succ hs, hr]
  | step _ ih => rw [run, ih]

theorem Returns.unique {r r' : ρ} (h : Returns step env s₀ r) (h' : Returns step env s₀ r') :
    r = r' := by
  obtain ⟨n, hn⟩ := h
  obtain ⟨m, hm⟩ := h'
  have hr := hn.run_eq (Nat.lt_succ_of_le (Nat.le_max_left n m))
  rw [hm.run_eq (Nat.lt_succ_of_le (Nat.le_max_right n m))] at hr
  exact (Sum.inr.inj hr).symm

/-- Before any check the process still runs, or an earlier one has ended it. -/
theorem running_or_returned (n : Nat) :
    (∃ s, run step env s₀ n = .inl s) ∨ ∃ r, Returns step env s₀ r := by
  induction n with
  | zero => exact .inl ⟨s₀, rfl⟩
  | succ n ih =>
    obtain ⟨s, hs⟩ | h := ih
    · cases hstep : step s (env n) with
      | inl s' => exact .inl ⟨s', (run_succ hs).trans hstep⟩
      | inr r => exact .inr ⟨r, n, s, hs, hstep⟩
    · exact .inr h

/-- A process whose rank falls at every check from some time on comes to an end. -/
theorem exists_returns (rank : σ → Nat) (N : Nat)
    (hrank : ∀ {n s s'}, N ≤ n → step s (env n) = .inl s' → rank s' < rank s) :
    ∃ r, Returns step env s₀ r := by
  have hend : ∀ k n s, N ≤ n → rank s ≤ k → run step env s₀ n = .inl s →
      ∃ r, Returns step env s₀ r := by
    intro k
    induction k with
    | zero =>
      intro n s hn hk hs
      cases hstep : step s (env n) with
      | inl s' => exact absurd (hrank hn hstep) (by omega)
      | inr r => exact ⟨r, n, s, hs, hstep⟩
    | succ k ih =>
      intro n s hn hk hs
      cases hstep : step s (env n) with
      | inl s' =>
        have hlt := hrank hn hstep
        exact ih (n + 1) s' (by omega) (by omega) ((run_succ hs).trans hstep)
      | inr r => exact ⟨r, n, s, hs, hstep⟩
  obtain ⟨s, hs⟩ | h : (∃ s, run step env s₀ N = .inl s) ∨ ∃ r, Returns step env s₀ r :=
    running_or_returned N
  · exact hend (rank s) N s (Nat.le_refl N) (Nat.le_refl _) hs
  · exact h

theorem run_congr {env' : Nat → ε} {n : Nat} (h : ∀ m < n, env m = env' m) :
    run step env s₀ n = run step env' s₀ n := by
  induction n with
  | zero => rfl
  | succ n ih => rw [run, run, ih fun m hm => h m (Nat.lt_succ_of_lt hm), h n (Nat.lt_succ_self n)]

theorem ReturnsAt.congr {env' : Nat → ε} {n : Nat} {r : ρ} (hr : ReturnsAt step env s₀ n r)
    (h : ∀ m ≤ n, env m = env' m) : ReturnsAt step env' s₀ n r := by
  obtain ⟨s, hs, hr⟩ := hr
  refine ⟨s, ?_, h n (Nat.le_refl n) ▸ hr⟩
  rw [← run_congr fun m hm => h m (Nat.le_of_lt hm), hs]

end Poll
