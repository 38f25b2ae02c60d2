import AxvisorTools.Text.Basic

/-!
# Programs that check what they are told

A program makes one call after another and looks at each reply. It stops at the first reply it has a
complaint about, with the status 1. As long as it runs, its next call is the same whatever the
replies were, so the surroundings are a reply for each of its calls: `replies k` to the call `k`.
-/

namespace Checks

/-- How a program ends. -/
structure Exit where
  status : Nat
  stdout : Text
  stderr : Text
  deriving DecidableEq, Repr

/-- A call: the complaint about its reply, if there is one, and what is printed otherwise. -/
structure Check (ρ : Type) where
  complaint : ρ → Option Text
  line : Text

/-- The calls, and what is printed at the end. -/
structure Program (ρ : Type) where
  checks : List (Check ρ)
  report : (Nat → ρ) → Text

variable {ρ : Type}

/-- The first complaint, with the lines printed before it; or all lines. -/
def runChecks : List (Check ρ) → (Nat → ρ) → Text → Except Exit Text
  | [], _, out => .ok out
  | c :: cs, replies, out =>
    match c.complaint (replies 0) with
    | some t => .error ⟨1, out, t⟩
    | none => runChecks cs (fun k => replies (k + 1)) (out ++ c.line)

def Program.run (p : Program ρ) (replies : Nat → ρ) : Exit :=
  match runChecks p.checks replies [] with
  | .ok out => ⟨0, out ++ p.report replies, []⟩
  | .error e => e

/-- No complaint about any reply. -/
def Satisfied (cs : List (Check ρ)) (replies : Nat → ρ) : Prop :=
  ∀ (k : Nat) (c : Check ρ), cs[k]? = some c → c.complaint (replies k) = none

variable {c : Check ρ} {cs : List (Check ρ)} {replies : Nat → ρ} {out : Text}

theorem satisfied_cons : Satisfied (c :: cs) replies ↔
    c.complaint (replies 0) = none ∧ Satisfied cs fun k => replies (k + 1) := by
  constructor
  · intro h
    exact ⟨h 0 c rfl, fun k d hd => h (k + 1) d hd⟩
  · rintro ⟨h₀, h⟩ k d hd
    cases k with
    | zero =>
      obtain rfl : c = d := by simpa using hd
      exact h₀
    | succ k => exact h k d hd

theorem runChecks_satisfied (h : Satisfied cs replies) :
    runChecks cs replies out = .ok (out ++ (cs.map (·.line)).flatten) := by
  induction cs generalizing replies out with
  | nil => simp [runChecks]
  | cons c cs ih =>
    obtain ⟨hc, hcs⟩ := satisfied_cons.1 h
    simp [runChecks, hc, ih hcs]

/-- Otherwise the program stops at a complaint, with the lines of the calls before it. -/
theorem runChecks_complaint (out : Text) (h : ¬ Satisfied cs replies) : ∃ done c rest t,
    cs = done ++ c :: rest ∧ Satisfied done replies ∧ c.complaint (replies done.length) = some t ∧
      runChecks cs replies out = .error ⟨1, out ++ (done.map (·.line)).flatten, t⟩ := by
  induction cs generalizing replies out with
  | nil => exact absurd (fun k d hd => by simp at hd) h
  | cons c cs ih =>
    cases hc : c.complaint (replies 0) with
    | some t =>
      refine ⟨[], c, cs, t, rfl, fun k d hd => by simp at hd, hc, ?_⟩
      simp [runChecks, hc]
    | none =>
      have hcs : ¬ Satisfied cs fun k => replies (k + 1) := fun hcs =>
        h (satisfied_cons.2 ⟨hc, hcs⟩)
      obtain ⟨done, d, rest, t, rfl, hdone, ht, hrun⟩ := ih (out ++ c.line) hcs
      refine ⟨c :: done, d, rest, t, rfl, satisfied_cons.2 ⟨hc, hdone⟩, ht, ?_⟩
      simp [runChecks, hc, hrun]

theorem not_satisfied_of_error {e : Exit} (h : runChecks cs replies out = .error e) :
    ¬ Satisfied cs replies := by
  intro hs
  rw [runChecks_satisfied hs] at h
  cases h

/-! ## Programs -/

variable {p : Program ρ}

theorem run_satisfied (h : Satisfied p.checks replies) :
    p.run replies = ⟨0, (p.checks.map (·.line)).flatten ++ p.report replies, []⟩ := by
  simp [Program.run, runChecks_satisfied h]

theorem run_complaint (h : ¬ Satisfied p.checks replies) : ∃ done c rest t,
    p.checks = done ++ c :: rest ∧ Satisfied done replies ∧
      c.complaint (replies done.length) = some t ∧
      p.run replies = ⟨1, (done.map (·.line)).flatten, t⟩ := by
  obtain ⟨done, c, rest, t, hcs, hdone, ht, hrun⟩ := runChecks_complaint [] h
  exact ⟨done, c, rest, t, hcs, hdone, ht, by simp [Program.run, hrun]⟩

theorem run_status_eq_zero_iff : (p.run replies).status = 0 ↔ Satisfied p.checks replies := by
  constructor
  · intro h
    by_contra hno
    obtain ⟨done, c, rest, t, -, -, -, hrun⟩ := run_complaint hno
    simp [hrun] at h
  · intro h
    rw [run_satisfied h]

end Checks
