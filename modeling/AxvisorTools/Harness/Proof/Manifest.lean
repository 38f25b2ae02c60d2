import AxvisorTools.Harness.ArchStatic
import AxvisorTools.Harness.Functional
import AxvisorTools.Harness.Matrix
import AxvisorTools.Harness.MemSizes
import AxvisorTools.Harness.Poweroff
import AxvisorTools.Harness.Proof.Nested
import AxvisorTools.Harness.Smp

/-!
# The manifests of the harnesses

Six of the seven harnesses write nothing after `SHA256SUMS`, so that their manifest is exact if and
only if no nested file has its name (`seals_smp`, …). The poweroff harness still appends to
`summary.txt`, and its manifest has the digest of the shorter text (`poweroff_exact_iff`).
-/

namespace Harness

open Shell Py

variable (d : Digest)

theorem seals_harness {m k : Sh State Unit} {c : Prop} (hm : Nests m c) (hk : Exits k)
    (title : String) (runId body : Text) (decode : Option Text → Option (List Json))
    (document : Overall → List Json → Json) :
    Seals d (do m; writeReadme title runId body; finalizeSummary decode document
                finalizeChecksums d; k) c :=
  hm.seals fun _ => (nests_writeReadme title runId body).seals fun _ =>
    (nests_finalizeSummary decode document).seals fun _ => seals_finalizeChecksums d hk

/-! ## SMP -/

theorem nests_smpCases (env : SmpEnv) :
    Nests (smpCases env) (env.bootRun.leavesSums = true ∨ env.rootfsRun.leavesSums = true) := by
  have hboot : (runSmpBootCase env).Clean :=
    (by decide : ∀ name ∈ ["qemu.log", vmConfig], basename name.toList ≠ sumsPath)
  have hrootfs : (runSmpRootfsCase env).Clean :=
    (by decide : ∀ name ∈ ["qemu.log", "result.txt", vmConfig, "guest-rootfs.img"],
      basename name.toList ≠ sumsPath)
  exact nests_startCases.after fun _ => (Case.nests_run hboot _).bind fun _ =>
    Case.nests_run hrootfs _

theorem seals_smp (env : SmpEnv) :
    Seals d (smp d env) (env.bootRun.leavesSums = true ∨ env.rootfsRun.leavesSums = true) :=
  seals_harness d (nests_smpCases env) exits_exitStatus _ _ _ _ _

theorem nests_smpScaleCases (env : SmpScaleEnv) :
    Nests (smpScaleCases env) (∃ c ∈ env.cases, c.2.leavesSums = true) := by
  have hclean : ∀ n, (runScaleCase n).Clean := fun _ =>
    (by decide : ∀ name ∈ ["qemu.log", "result.txt", vmConfig], basename name.toList ≠ sumsPath)
  exact nests_startCases.after fun _ =>
    .each fun c _ => Case.nests_run (hclean c.1) c.2

theorem seals_smpScale (env : SmpScaleEnv) :
    Seals d (smpScale d env) (∃ c ∈ env.cases, c.2.leavesSums = true) :=
  seals_harness d (nests_smpScaleCases env) exits_exitStatus _ _ _ _ _

/-! ## Timer, interrupts and MMIO -/

theorem nests_functionalCases (env : FunctionalEnv) :
    Nests (functionalCases env) (env.run.leavesSums = true) := by
  have hkept : ∀ name ∈ functionalKept env.run, basename name.toList ≠ sumsPath := by
    unfold functionalKept
    split <;> decide
  have hrecord : ∀ c, Nests (recordCheck env c) False := fun c =>
    .modify_false fun s => nestedSums_recordCase _ s
  have hstatus : Nests appendFunctionalStatus False := nests_append (not_nested_top (by decide)) _
  unfold functionalCases
  refine nests_startCases.after fun _ => ?_
  refine (Nests.modify (nestedSums_inner functionalId env.run)).before fun _ => ?_
  refine (Nests.modify_false (nestedSums_keepAll hkept functionalId)).after fun _ => ?_
  exact (Nests.each_false fun c _ => hrecord c).after fun _ => hstatus.when

theorem seals_functional (env : FunctionalEnv) :
    Seals d (functional d env) (env.run.leavesSums = true) := by
  refine seals_harness d (nests_functionalCases env) ?_ _ _ _ _ _
  split
  · exact exits_exitUnlessPass
  · exact exits_exit 1

/-! ## Memory sizes -/

theorem nests_runSizeCase (special : Char → Text) (c : Text × Outcome) :
    Nests (runSizeCase special c) (c.2.leavesSums = true) := by
  have hclean : ∀ expectedHex, (sizeCase c.1 expectedHex).Clean := fun _ =>
    (by decide : ∀ name ∈ ["qemu.log", "result.txt", vmConfig, "guest-rootfs.img"],
      basename name.toList ≠ sumsPath)
  unfold runSizeCase
  split
  · exact Case.nests_run (hclean _) _
  · exact .fail (by decide)

theorem nests_memSizesCases (env : MemSizesEnv) :
    Nests (memSizesCases env) (∃ c ∈ env.allSizes, c.2.leavesSums = true) :=
  nests_startCases.after fun _ => (nests_append (not_nested_top (by decide)) _).after fun _ =>
    (Nests.each fun c _ => nests_runSizeCase env.special c).before fun _ =>
      nests_append (not_nested_top (by decide)) _

theorem seals_memSizes (env : MemSizesEnv) :
    Seals d (memSizes d env) (∃ c ∈ env.allSizes, c.2.leavesSums = true) :=
  seals_harness d (nests_memSizesCases env) exits_exitUnlessPass _ _ _ _ _

/-! ## Architecture -/

theorem nests_recordArch (id : Text) (status : Verdict) (reason : Text) (artifacts : List String) :
    Nests (recordArch id status reason artifacts) False := .modify_false (nestedSums_recordTest _ _)

theorem nestedSums_scanWrite (scan : Scan) (root : Text) (s : State) :
    NestedSums (scan.write root s).out ↔ NestedSums s.out :=
  (nestedSums_writeTop (by decide) _ _).trans <| (nestedSums_writeTop (by decide) _ _).trans <|
    (nestedSums_writeTop (by decide) _ _).trans <| (nestedSums_writeTop (by decide) _ _).trans <|
    (nestedSums_writeTop (by decide) _ _).trans <| nestedSums_writeTop (by decide) _ _

theorem nests_archRecords (env : ArchEnv) : Nests (archRecords env) False := by
  have hscan : Nests (recordScan env.scan) False := by
    unfold recordScan
    split <;> exact nests_recordArch _ _ _ _
  exact (nests_write (not_nested_top (by decide)) _).after fun _ =>
    (nests_write (not_nested_top (by decide)) _).after fun _ =>
    (Nests.modify_false (nestedSums_scanWrite env.scan env.rootDir)).after fun _ =>
    (Nests.each_false fun c _ => nests_recordArch _ _ _ _).after fun _ => hscan

theorem seals_archStatic (env : ArchEnv) : Seals d (archStatic d env) False :=
  seals_harness d (nests_archRecords env) exits_exitStatus _ _ _ _ _

/-! ## The test matrix -/

theorem nests_recordLine (line : Text) : Nests (recordLine line) False :=
  nests_append (not_nested_top (by decide)) _

theorem nests_runMatrixCase (env : MatrixEnv) (c : MatrixCase) (o : Outcome) :
    Nests (runMatrixCase env c o) (o.leavesSums = true) := by
  have hmark : Nests (Sh.modify fun s : State => { s with status := .fail }) False :=
    .modify_false fun _ => Iff.rfl
  unfold runMatrixCase
  refine (nests_recordLine _).after fun _ => (nests_recordLine _).after fun _ =>
    (nests_recordLine _).after fun _ => ?_
  refine (Nests.modify (nestedSums_inner c.id o)).before fun _ => .ite (fun _ => ?_) fun _ => ?_
  · exact (nests_recordLine _).after fun _ => (nests_recordLine _).after fun _ => .pure 0
  · exact (nests_recordLine _).after fun _ => (nests_recordLine _).after fun _ =>
      hmark.after fun _ => .pure _

theorem nests_matrixStep (env : MatrixEnv) {c : MatrixCase} (hc : c ∈ matrixCases) (o : Outcome) :
    Nests (matrixStep env (c, o)) (o.leavesSums = true) := by
  have hclean : ∀ c ∈ matrixCases, ∀ name ∈ c.kept, basename name.toList ≠ sumsPath := by
    decide +kernel
  exact (nests_runMatrixCase env c o).before fun _ => (Nests.plain _).after fun _ =>
    .modify_false (nestedSums_keepAll (hclean c hc) _)

theorem nests_matrixRun (env : MatrixEnv) (outcomes : MatrixCase → Outcome) :
    Nests (matrixRun env outcomes) (∃ c ∈ matrixCases, (outcomes c).leavesSums = true) := by
  have hsteps : Nests (Sh.each (matrixStep env) (matrixCases.map fun c => (c, outcomes c)))
      (∃ c ∈ matrixCases.map fun c => (c, outcomes c), c.2.leavesSums = true) := by
    refine .each fun x hx => ?_
    obtain ⟨c, hc, rfl⟩ := List.mem_map.1 hx
    exact nests_matrixStep env hc _
  refine (nests_write (not_nested_top (by decide)) _).after fun _ =>
    (Nests.each_false fun line _ => nests_recordLine line).after fun _ =>
    Nests.before (hsteps.congr ?_) fun _ => Nests.get.after fun _ => nests_recordLine _
  simp only [List.mem_map, exists_exists_and_eq_and]

theorem seals_testMatrix (env : MatrixEnv) (outcomes : MatrixCase → Outcome) :
    Seals d (testMatrix d env outcomes) (∃ c ∈ matrixCases, (outcomes c).leavesSums = true) :=
  (nests_matrixRun env outcomes).seals fun _ =>
    (nests_write (not_nested_top (by decide)) _).seals fun _ =>
      seals_writeChecksums d fun s => (exits_exitUnlessPass s).2

/-! ## Poweroff -/

/-- `summary.txt` when the manifest is taken. -/
def poweroffText (env : PoweroffEnv) (fs : Files) : Text :=
  caseBlock (poweroffCase.verdictOn env.run fs)

/-- `STATUS` at the end. -/
def poweroffStatus (env : PoweroffEnv) (fs : Files) : Overall :=
  if poweroffCase.passesOn env.run fs then .pass else .fail

/-- The digest does not notice the lines that are appended to `summary.txt`. -/
def PoweroffCollides (env : PoweroffEnv) (fs : Files) : Prop :=
  d.digest (poweroffText env fs ++ poweroffTail env (poweroffStatus env fs)) =
    d.digest (poweroffText env fs)

instance (env : PoweroffEnv) (fs : Files) : Decidable (PoweroffCollides d env fs) :=
  inferInstanceAs (Decidable (_ = _))

theorem nests_poweroffCases (env : PoweroffEnv) :
    Nests (poweroffCases env) (env.run.leavesSums = true) := by
  have hclean : poweroffCase.Clean :=
    (by decide : ∀ name ∈ ["qemu.log", "result.txt", vmConfig], basename name.toList ≠ sumsPath)
  exact nests_startCases.after fun _ => Case.nests_run hclean _

theorem poweroffCases_run (env : PoweroffEnv) (fs : Files) :
    ∃ s, poweroffCases env ⟨fs, .pass⟩ = (.ok (), s) ∧ Ran [(poweroffCase, env.run)] fs s := by
  have ha : Apart ([] ++ [(poweroffCase, env.run)]) :=
    ⟨by simpa using (by decide : '/' ∉ poweroffCase.id), List.nodup_singleton _⟩
  obtain ⟨s₀, hs₀, h₀⟩ := ran_startCases fs
  obtain ⟨s, hs, hr⟩ := h₀.step ha
  exact ⟨s, by rw [poweroffCases, Sh.bind_ok hs₀, hs], hr⟩

theorem status_poweroff {env : PoweroffEnv} {fs : Files} {s : State}
    (h : Ran [(poweroffCase, env.run)] fs s) : s.status = poweroffStatus env fs := by
  have hst : (poweroffCase.verdictOn env.run fs).status =
      verdict (poweroffCase.passesOn env.run fs) := rfl
  rw [h.logged.status, poweroffStatus, records, List.map_singleton, List.all_cons, hst]
  cases poweroffCase.passesOn env.run fs <;> rfl

/-- **The poweroff harness** leaves an exact manifest only if the digest does not notice the two lines
that it appends to `summary.txt`. -/
theorem poweroff_exact_iff (env : PoweroffEnv) (fs : Files) :
    RunsToEnd (poweroff d env ⟨fs, .pass⟩) ∧ (Exact d (poweroff d env ⟨fs, .pass⟩).2.out ↔
      (¬NestedSums fs ∧ ¬env.run.leavesSums = true) ∧ PoweroffCollides d env fs) := by
  obtain ⟨s, hs, hr⟩ := poweroffCases_run env fs
  have hnest : NestedSums s.out ↔ NestedSums fs ∨ env.run.leavesSums = true := by
    have h := (nests_poweroffCases env).triple (NestedSums fs) ⟨fs, .pass⟩ Iff.rfl
    rwa [hs] at h
  obtain ⟨readme, hp⟩ := publish hr.logged.ledger (decodeTests_ledger _ _) d
    "# x86 AxVisor L1 Poweroff Evidence" env.runId poweroffReadme poweroffDocument
  let json := Json.dumpsIndent (poweroffDocument s.status
    ((records [(poweroffCase, env.run)] fs).map (Record.json false))) ++ ['\n']
  -- the state that the manifest is taken of, and what is left in the end
  let sealed := (s.write readmeMd readme).write summaryJson json
  let left := (writeChecksums d sealed).append summaryTxt (poweroffTail env s.status)
  have hrun : poweroff d env ⟨fs, .pass⟩ = exitUnlessPass left := by
    rw [poweroff, Sh.bind_ok hs]
    exact hp _
  have htext : sealed.out.lookup summaryTxt = some (poweroffText env fs) := by
    refine (Files.lookup_write_ne (by decide) _).trans ((Files.lookup_write_ne (by decide) _).trans
      (hr.logged.summary.trans ?_))
    rw [records, List.map_singleton, List.flatMap_singleton]
    rfl
  have hsealed : NestedSums sealed.out ↔ NestedSums fs ∨ env.run.leavesSums = true :=
    (nestedSums_writeTop (by decide) _ _).trans
      ((nestedSums_writeTop (by decide) _ _).trans hnest)
  rw [hrun, (exits_exitUnlessPass left).2]
  refine ⟨(exits_exitUnlessPass left).1, ?_⟩
  rw [PoweroffCollides, ← status_poweroff hr, ← not_or, ← hsealed]
  exact exact_append_iff d (by decide) htext

end Harness
