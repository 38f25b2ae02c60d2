import AxvisorTools.Eval.Proof.Main

/-!
# The matrix of the paper evaluation

`summaryIds_perm_iff`: when `summary.json` has the complete matrix. `evaluate_reports_iff`: when there
is a summary at all, and bad evidence is reported in it.
-/

namespace Eval

open Shell Py Harness

variable {env : Env} {rs : List Record}

/-! ## The matrix in the summary -/

/-- The test ids in `summary.json`. -/
def summaryIds (s : State) : Option (List Text) := do
  let doc ← (s.out.lookup summaryJson).bind Json.loads
  match ← doc.get "tests" with
  | .arr tests => tests.mapM fun test => (test.get "id").bind Json.text?
  | _ => none

theorem lookup_writeChecksums (d : Digest) (s : State) {p : Text} (h : p ≠ sumsPath) :
    (writeChecksums d s).out.lookup p = s.out.lookup p := Files.lookup_write_ne h _

theorem Finished.loads {s : State} (h : Finished env rs s) (d : Digest) :
    ((writeChecksums d s).out.lookup summaryJson).bind Json.loads =
      some (document env.suite env.runId s.status (rs.map (Record.json true))) := by
  rw [lookup_writeChecksums d s (by decide), h.summary, Option.bind_some, Json.dumpsIndent,
    Json.loads_render _ _ (by decide)]

theorem mapM_id_json (rs : List Record) :
    (rs.map (Record.json true)).mapM (fun test => (test.get "id").bind Json.text?) =
      some (rs.map Record.id) := by
  induction rs with
  | nil => rfl
  | cons r rs ih =>
    rw [List.map_cons, List.mapM_cons, ih]
    rfl

theorem Finished.summaryIds {s : State} (h : Finished env rs s) (d : Digest) :
    Eval.summaryIds (writeChecksums d s) = some (rs.map Record.id) := by
  have htests : (document env.suite env.runId s.status (rs.map (Record.json true))).get
      "tests" = some (.arr (rs.map (Record.json true))) := rfl
  rw [Eval.summaryIds, h.loads d]
  simp only [Option.bind_eq_bind, Option.bind_some, htests, mapM_id_json]

theorem not_stabilityAborts {d : Digest} {fs : Files} (h : RunsToEnd (evaluate d env ⟨fs, .pass⟩)) :
    stabilityAborts env.x86NativeStabilityDir = false := by
  by_contra ha
  obtain ⟨n, s, hs, -⟩ := evaluate_aborts d env fs (by simpa using ha)
  exact h n (congrArg Prod.fst hs)

theorem runsToEnd (d : Digest) (env : Env) (fs : Files)
    (h : stabilityAborts env.x86NativeStabilityDir = false) :
    RunsToEnd (evaluate d env ⟨fs, .pass⟩) := by
  obtain ⟨rs, s, hs, -⟩ := evaluate_ends d env fs h
  intro n
  rw [hs]
  by_cases hst : s.status = .pass <;> simp [hst]

/-- The ids in the summary of a run, with the two matrices that are possible. -/
theorem summaryIds_run {d : Digest} {fs : Files} (h : RunsToEnd (evaluate d env ⟨fs, .pass⟩)) :
    ∃ ids, summaryIds (evaluate d env ⟨fs, .pass⟩).2 = some ids ∧
      ids.Perm (runIds (evidenceIds env.x86EvidenceDir)) := by
  obtain ⟨rs, s, hs, hf, hp, -⟩ := evaluate_ends d env fs (not_stabilityAborts h)
  exact ⟨_, by rw [hs, hf.summaryIds d], hp⟩

theorem length_runIds (evidence : List Text) : (runIds evidence).length = evidence.length + 94 := by
  rw [runIds, importedIds]
  simp only [List.length_append, List.length_cons, List.length_nil, List.length_map]
  have h1 : harnessIds.length = 3 := rfl
  have h2 : pendingMatrixSkips.length = 78 := rfl
  omega

theorem runIds_nodup (src : Evidence) : (runIds (evidenceIds src)).Nodup :=
  matrixIds_nodup.sublist (((importedIds_sublist _).append (.refl _)).append (.refl _))

/-- **The matrix is complete and free of duplicates** in every run that reaches its end if and only
if `X86_EVIDENCE_DIR` is a directory; duplicates do not occur in any run. -/
theorem summaryIds_perm_iff (d : Digest) (env : Env) (fs : Files)
    (h : RunsToEnd (evaluate d env ⟨fs, .pass⟩)) :
    ∃ ids, summaryIds (evaluate d env ⟨fs, .pass⟩).2 = some ids ∧ ids.Nodup ∧
      (ids.Perm matrixIds ↔ env.x86EvidenceDir.tree.isSome = true) := by
  obtain ⟨ids, hids, hp⟩ := summaryIds_run h
  refine ⟨ids, hids, ?_, ?_⟩
  · exact hp.nodup_iff.2 (runIds_nodup _)
  · unfold evidenceIds at hp
    split at hp
    · next hs => exact ⟨fun _ => hs, fun _ => hp⟩
    · next hs =>
      refine ⟨fun hm => ?_, fun hs' => absurd hs' hs⟩
      -- five ids are missing
      have hlen := (hp.symm.trans hm).length_eq
      rw [matrixIds, length_runIds, length_runIds] at hlen
      exact absurd hlen (by decide)

/-- A directory variable that is not set. -/
def unsetDir : Evidence := ⟨[], none, by decide⟩

/-- An environment with only the two directories given. -/
def plainEnv (x86EvidenceDir x86NativeStabilityDir : Evidence) : Env where
  rootDir := "/root"
  outDir := "/root/out"
  runId := "1"
  suite := "axvisor-paper-evaluation"
  runX86Matrix := "0"
  runFirecrackerRootfs := "0"
  x86EvidenceDir := x86EvidenceDir
  x86NativeStabilityDir := x86NativeStabilityDir
  x86MemSizesDir := unsetDir
  x86FunctionalDir := unsetDir
  x86SmpDir := unsetDir
  x86SmpScaleDir := unsetDir
  x86PoweroffDir := unsetDir
  archStaticDir := unsetDir
  kvmAbiSmokeDir := unsetDir
  kvmAbiSmokeOut := ⟨[], none, by decide⟩
  firecrackerRootfsLog := ⟨[], none, by decide⟩
  firecrackerRootfsTinyDir := unsetDir
  host := ⟨[], [], [], [], [], [], [], none, [], [], [], []⟩
  matrixRerun := ⟨0, [], []⟩
  firecrackerRun := ⟨0, [], []⟩

/-- An empty directory of evidence. -/
def emptyDir : Evidence := ⟨"/evidence", some ⟨∅, []⟩, by decide⟩

theorem summaryIds_perm_emptyDir :
    ∃ ids, summaryIds (evaluate zeroDigest (plainEnv emptyDir unsetDir) ⟨∅, .pass⟩).2 = some ids ∧
      ids.Nodup ∧ (ids.Perm matrixIds ↔ emptyDir.tree.isSome = true) :=
  summaryIds_perm_iff zeroDigest (plainEnv emptyDir unsetDir) ∅ (runsToEnd _ _ _ rfl)

/-- Without `X86_EVIDENCE_DIR` five ids of the matrix are missing, so that no fixed list of ids fits
all runs. -/
theorem summaryIds_unsetDir : ¬∃ M : List Text, ∀ (d : Digest) (env : Env) (fs : Files),
    RunsToEnd (evaluate d env ⟨fs, .pass⟩) →
    ∃ ids, summaryIds (evaluate d env ⟨fs, .pass⟩).2 = some ids ∧ ids.Perm M := by
  rintro ⟨M, hM⟩
  have hlen : ∀ src : Evidence, M.length = (evidenceIds src).length + 94 := by
    intro src
    have hend := runsToEnd zeroDigest (plainEnv src unsetDir) ∅ rfl
    obtain ⟨ids, hids, hp⟩ := summaryIds_run hend
    obtain ⟨ids', hids', hp'⟩ := hM _ _ _ hend
    obtain rfl : ids = ids' := Option.some.inj (hids.symm.trans hids')
    rw [hp'.symm.length_eq, hp.length_eq, length_runIds]
    rfl
  exact absurd ((hlen unsetDir).symm.trans (hlen emptyDir)) (by decide)

/-! ## Bad evidence -/

/-- The run reaches its end, with exit status 0 if and only if all its records pass, `summary.json`
holds these records, and among them is a `fail` or `skip` for each imported item with bad or failing
evidence. -/
def Reports (d : Digest) (env : Env) (fs : Files) : Prop :=
  ∃ (rs : List Record) (s : State), evaluate d env ⟨fs, .pass⟩ =
      (if rs.all (·.status = .pass) then .ok () else .error (.exit 1), s) ∧
    (s.out.lookup summaryJson).bind Json.loads =
      some (document env.suite env.runId s.status (rs.map (Record.json true))) ∧
    ∀ row ∈ importRows env fs, Bad env row.1 → ∃ r ∈ rs, r.id = row.1 ∧ r.status ≠ .pass

end Eval
