import AxvisorTools.Harness.Functional
import AxvisorTools.Harness.Proof.Summary

/-!
# What the functional harness leaves behind

`functional_run`: on both of its paths the harness records its three checks over the same files, and
finishes.
-/

namespace Harness

open Shell Py Json

/-- The tree with the copied files, when the harness started from `fs`. -/
def functionalTree (env : FunctionalEnv) (fs : Files) : Files :=
  (keepAll functionalId (functionalKept env.run) (inner functionalId env.run ⟨fs, .pass⟩)).out

/-- What is recorded. -/
def functionalRecords (env : FunctionalEnv) (fs : Files) : List Record :=
  checks.map fun c => c.record env.run.status (functionalTree env fs)

theorem Check.record_congr (c : Check) (rc : Nat) {fs fs' : Files}
    (h : Agree functionalId fs fs') : c.record rc fs = c.record rc fs' := by
  have hp : c.passes fs = c.passes fs' := by
    rw [Check.passes, h _ (below_caseFile _ _), h _ (below_caseFile _ _), ← Check.passes]
  rw [Check.record, hp, ← Check.record]

/-- A loop over checks: the records change no file that a later check reads. -/
theorem recordCheck_run (env : FunctionalEnv) (fs : Files) : ∀ (cs : List Check) {rs : List Record}
    {s : State}, Logged rs s → Agree functionalId s.out (functionalTree env fs) →
    ∃ s', Sh.each (recordCheck env) cs s = (.ok (), s') ∧
      Logged (rs ++ cs.map fun c => c.record env.run.status (functionalTree env fs)) s' ∧
      Agree functionalId s'.out (functionalTree env fs)
  | [], rs, s, h, ha => ⟨s, rfl, by simpa using h, ha⟩
  | c :: cs, rs, s, h, ha => by
    have h₁ : Logged (rs ++ [c.record env.run.status s.out])
        (recordCase (c.record env.run.status s.out) s) := h.recordCase (verdict_ne_skip _)
    have ha₁ := (agree_recordCase functionalId (c.record env.run.status s.out) s).trans ha
    obtain ⟨s', hs', hl, ha'⟩ := recordCheck_run env fs cs h₁ ha₁
    rw [c.record_congr _ ha, List.append_assoc] at hl
    exact ⟨s', hs', hl, ha'⟩

theorem decodeLines_ledger (rs : List Record) :
    decodeLines (some (ledger false rs)) = some (rs.map (Record.json false)) := by
  have hp : ∀ l ∈ rs.map (fun r => render ledgerLayout 0 (r.json false)), Printable l := by
    intro l hl
    obtain ⟨r, -, rfl⟩ := List.mem_map.1 hl
    exact printable_render ledgerLayout_inline _ 0
  have hu : Unbroken (rs.map fun r => render ledgerLayout 0 (r.json false)) :=
    fun l hl hm => absurd (hp l hl _ hm) (by decide)
  have hsame : decodeLines (some (ledger false rs)) = decodeTests (some (ledger false rs)) := by
    rw [decodeLines, decodeTests, ledger_eq, Option.bind_some]
    simp only [universalNewlines_above hp, splitlines_above hp, fileLines_above hu]
  rw [hsame, decodeTests_ledger]

/-- What follows the cases in `summary.txt`. -/
def functionalTail (env : FunctionalEnv) (fs : Files) : Text :=
  if env.run.status = 0 then echo ("FUNCTIONAL_STATUS=".toList ++
    (if (functionalRecords env fs).all (·.status = .pass) then "pass".toList else "fail".toList))
  else []

/-- The state after the three checks. -/
structure Checked (env : FunctionalEnv) (fs : Files) (s : State) : Prop where
  ledger : s.out.lookup testsJsonl = some (ledger false (functionalRecords env fs))
  summary : s.out.lookup summaryTxt =
    some ((functionalRecords env fs).flatMap caseBlock ++ functionalTail env fs)
  tree : Agree functionalId s.out (functionalTree env fs)

theorem functionalCases_run (env : FunctionalEnv) (fs : Files) :
    ∃ s, functionalCases env ⟨fs, .pass⟩ = (.ok (), s) ∧ Checked env fs s := by
  obtain ⟨s₀, hs₀, hl₀, ha₀⟩ := logged_startCases fs
  have hl : Logged [] (keepAll functionalId (functionalKept env.run)
      (inner functionalId env.run s₀)) := by
    refine hl₀.congr (fun p hp => ?_) (status_keepAll _ _ _)
    rw [lookup_keepAll (not_below_of_slash hp), lookup_inner (not_below_of_slash hp)]
  have ha : Agree functionalId (keepAll functionalId (functionalKept env.run)
      (inner functionalId env.run s₀)).out (functionalTree env fs) :=
    agree_keepAll _ fun p hp =>
      Files.lookup_graft_congr (Files.lookup_write_congr (ha₀ functionalId p hp) _ _) _ _
  obtain ⟨s, hs, hlog, hag⟩ := recordCheck_run env fs checks hl ha
  rw [List.nil_append] at hlog
  rw [functionalCases, Sh.bind_ok hs₀, Sh.bind_ok (Sh.modify_apply _ _),
    Sh.bind_ok (Sh.modify_apply _ _), Sh.bind_ok hs]
  by_cases hrc : env.run.status = 0
  · refine ⟨_, by rw [decide_eq_true hrc]; rfl, ?_, ?_, ?_⟩
    · exact (Files.lookup_append_ne (by decide) _).trans hlog.ledger
    · have hst : (if s.status = .pass then "pass".toList else "fail".toList) =
          if (functionalRecords env fs).all (·.status = .pass) then "pass".toList
          else "fail".toList := by
        have hstatus : s.status = if (functionalRecords env fs).all (·.status = .pass) then .pass
          else .fail := hlog.status
        rw [hstatus]
        by_cases hall : (functionalRecords env fs).all (·.status = .pass) = true
        · simp only [hall, if_true]
        · simp only [hall, if_false, reduceCtorEq]
      rw [functionalTail, if_pos hrc, ← hst]
      exact (Files.lookup_append_self _ _ _).trans (by rw [hlog.summary]; rfl)
    · refine Agree.trans (fun p hp => Files.lookup_append_ne ?_ _) hag
      rintro rfl
      exact absurd (slash_of_below hp) (by decide)
  · refine ⟨s, by rw [decide_eq_false hrc]; rfl, hlog.ledger, ?_, hag⟩
    rw [hlog.summary, functionalTail, if_neg hrc, List.append_nil]
    rfl

/-- **The directory the functional harness leaves behind**, on both of its paths. -/
theorem functional_run (d : Digest) (env : FunctionalEnv) (fs : Files) :
    ∃ r readme doc s, functionalCases env ⟨fs, .pass⟩ = (.ok (), s) ∧ Checked env fs s ∧
      functional d env ⟨fs, .pass⟩ = (r, published d readme doc s) ∧
      ∀ n, r ≠ .error (.errexit n) := by
  obtain ⟨s, hs, hc⟩ := functionalCases_run env fs
  have hk : Exits (if env.run.status = 0 then exitUnlessPass else Sh.exit 1) := by
    split
    · exact exits_exitUnlessPass
    · exact exits_exit 1
  obtain ⟨r, readme, hr, hn⟩ := harness_run hs hc.ledger (decodeLines_ledger _) d
    "# x86 AxVisor Layer1 Timer/IRQ/MMIO Evidence" env.runId functionalReadme functionalDocument hk
  exact ⟨r, readme, _, s, hs, hc, hr, hn⟩

end Harness
