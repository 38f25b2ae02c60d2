import AxvisorTools.Eval.Proof.Imported
import AxvisorTools.Harness.Proof.Smp

/-!
# Importing the SMP verdicts

The searches of `import_x86_smp` and `import_x86_smp_scale` are not bound to a case, so that one
passed case can make up for another: `smp_imports_iff` says exactly when.
-/

namespace Eval

open Shell Py Harness Json

/-! ## What the importers record -/

theorem appends_importX86Smp (path : Text) (dirs : List Text) (s : State) :
    Appends (importX86Smp (leftBehind path dirs s)) (smpVerdicts s.out) := adds_importX86Smp _

theorem appends_importX86SmpScale (path : Text) (dirs : List Text) (s : State) :
    Appends (importX86SmpScale (leftBehind path dirs s)) (scaleVerdicts s.out) :=
  adds_importX86SmpScale _

/-! ## What the importers read -/

theorem statusPass_eq (t : Option Text) :
    statusPass t = fileHas t (Regex.lit statusPassField) := by
  have h : "\"status\": \"pass\"" = statusPassField := by decide
  rw [statusPass, has, h]

/-- A directory with the log, the summary and the files of the cases `cs`. -/
structure Left (cs : List (Case × Outcome)) (fs : Files) (s : State) : Prop where
  ledger : s.out.lookup testsJsonl = some (ledger false (records cs fs))
  summary : s.out.lookup summaryTxt = some ((records cs fs).flatMap caseBlock)
  status : statusPass (s.out.lookup summaryJson) = true ↔ ∃ r ∈ records cs fs, r.status = .pass
  ids : ∀ id, Json.IsWord id → (fileHas (s.out.lookup summaryJson)
    (Regex.lit (fieldText [' '] "id" id)) = true ↔ id ∈ (records cs fs).map Record.id)
  tree : ∀ c ∈ cs, Agree c.1.id s.out (c.1.tree c.2 fs)

namespace Left

variable {cs : List (Case × Outcome)} {fs : Files} {s : State}

theorem of_published (hran : Ran cs fs s) {doc : Json}
    (hdoc : Documents doc s.status (records cs fs)) (hne : cs ≠ []) (d : Digest) (readme : Text) :
    Left cs fs (published d readme doc s) := by
  constructor
  · exact (lookup_published (by decide) (by decide) (by decide) d readme doc s).trans
      hran.logged.ledger
  · exact (lookup_published (by decide) (by decide) (by decide) d readme doc s).trans
      hran.logged.summary
  · rw [summaryJson_published, statusPass_eq]
    exact statusField_iff hran.logged hdoc (by simpa [records] using hne)
  · intro id hid
    rw [summaryJson_published, fileHas_field_iff hdoc.keys (by decide) hid.2, hdoc.idField]
  · exact fun c hc => (agree_published _ d readme doc s).trans (hran.tree c hc)

theorem status_iff (c : Case) (o : Outcome) (fs : Files) :
    (c.verdictOn o fs).status = .pass ↔ c.passesOn o fs = true := verdict_pass_iff _

theorem mem_records {c : Case} {o : Outcome} (h : (c, o) ∈ cs) (fs : Files) :
    c.verdictOn o fs ∈ records cs fs := List.mem_map.2 ⟨_, h, rfl⟩

theorem pass_iff (h : Left cs fs s) : statusPass (s.out.lookup summaryJson) = true ↔
    ∃ c ∈ cs, c.1.passesOn c.2 fs = true := by
  rw [h.status, records]
  simp only [List.mem_map, exists_exists_and_eq_and, status_iff]

theorem summary_iff (h : Left cs fs s) (hs : ∀ r ∈ records cs fs, Silent r) :
    has (s.out.lookup summaryTxt) "STATUS=pass" = true ↔
      ∃ c ∈ cs, c.1.passesOn c.2 fs = true := by
  have hnil : ¬statusPassText <:+: [] := by decide
  rw [h.summary, has_iff _ (by decide) (by decide), ← h.pass_iff, h.status]
  have hst := infix_status_iff hs []
  rwa [List.append_nil, or_iff_left hnil] at hst

theorem recorded_iff (h : Left cs fs s) (ha : Apart cs) {c : Case} {o : Outcome}
    (hc : (c, o) ∈ cs) : Recorded s c.id .pass ↔ c.passesOn o fs = true := by
  rw [Harness.recorded_iff h.ledger, records]
  simp only [List.mem_map, exists_exists_and_eq_and]
  constructor
  · rintro ⟨c', hc', hid, hp⟩
    obtain rfl := List.inj_on_of_nodup_map ha.nodup hc' hc hid
    exact (status_iff _ _ _).1 hp
  · exact fun hp => ⟨_, hc, rfl, (status_iff _ _ _).2 hp⟩

theorem lookup_caseFile (h : Left cs fs s) {c : Case} {o : Outcome} (hc : (c, o) ∈ cs)
    (name : String) :
    s.out.lookup (caseFile c.id name) = (c.tree o fs).lookup (caseFile c.id name) :=
  h.tree _ hc _ (below_caseFile _ _)

end Left

/-! ## SMP with two CPUs -/

/-- Only the rootfs case passed, but the log of the boot case has what the importer looks for. -/
def bootUpgraded (env : SmpEnv) (fs : Files) : Bool :=
  (runSmpRootfsCase env).passesOn env.rootfsRun fs &&
    !(runSmpBootCase env).passesOn env.bootRun fs &&
    smpBootMarkers (((runSmpBootCase env).tree env.bootRun fs).lookup
      (caseFile (runSmpBootCase env).id "qemu.log"))

/-- Only the boot case passed, but the files of the rootfs case have what the importer looks for. -/
def rootfsUpgraded (env : SmpEnv) (fs : Files) : Bool :=
  (runSmpBootCase env).passesOn env.bootRun fs &&
    !(runSmpRootfsCase env).passesOn env.rootfsRun fs &&
    smpMarkers (((runSmpRootfsCase env).tree env.rootfsRun fs).lookup
        (caseFile (runSmpRootfsCase env).id "result.txt"))
      (((runSmpRootfsCase env).tree env.rootfsRun fs).lookup
        (caseFile (runSmpRootfsCase env).id "qemu.log"))

/-- The harness with two guest CPUs. -/
def withTwoCpus (env : SmpEnv) : SmpEnv := { env with guestCpus := 2 }

theorem cpus_withTwoCpus (env : SmpEnv) : (withTwoCpus env).cpus = ['2'] :=
  (by decide : Nat.toDigits 10 2 = ['2'])

theorem smp_ids (env : SmpEnv) : (runSmpBootCase (withTwoCpus env)).id = "L1-SMP-2-BOOT" ∧
    (runSmpRootfsCase (withTwoCpus env)).id = "L1-SMP-2" := by
  rw [id_runSmpBootCase, id_runSmpRootfsCase, cpus_withTwoCpus]
  decide

theorem smp_silent (env : SmpEnv) :
    ∀ r ∈ records (smpCaseList (withTwoCpus env)) fs, Silent r := by
  have hclosed : ∀ t ∈ (smpBootText ['2']).texts ++ (smpRootfsText ['2']).texts,
      ¬statusPassText <:+: t := by decide +kernel
  obtain ⟨hboot, hrootfs⟩ := List.forall_mem_append.1 hclosed
  rw [← cpus_withTwoCpus env] at hboot hrootfs
  intro r hr
  rcases List.mem_cons.1 hr with rfl | hr
  · exact silent_record hboot _ _
  · obtain rfl := List.mem_singleton.1 hr
    exact silent_record hrootfs _ _

theorem smp_left (d : Digest) (env : SmpEnv) (fs : Files) :
    Left (smpCaseList env) fs (smp d env ⟨fs, .pass⟩).2 := by
  obtain ⟨r, readme, doc, s, -, hran, hdoc, hrun, -⟩ := smp_run d env fs
  rw [hrun]
  exact .of_published hran hdoc (List.cons_ne_nil _ _) d readme

theorem exists_smpCaseList (env : SmpEnv) (fs : Files) :
    (∃ c ∈ smpCaseList env, c.1.passesOn c.2 fs = true) ↔
      (runSmpBootCase env).passesOn env.bootRun fs = true ∨
        (runSmpRootfsCase env).passesOn env.rootfsRun fs = true := by
  simp only [smpCaseList, List.mem_cons, List.not_mem_nil, or_false, exists_eq_or_imp,
    exists_eq_left]

theorem smpBootVerdict_iff {env : SmpEnv} {fs : Files} {s : State}
    (h : Left (smpCaseList (withTwoCpus env)) fs s) :
    smpBootVerdict (s.out.lookup summaryTxt) (s.out.lookup "L1-SMP-2-BOOT/qemu.log".toList) =
        .pass ↔
      ((runSmpBootCase (withTwoCpus env)).passesOn env.bootRun fs = true ∨
        (runSmpRootfsCase (withTwoCpus env)).passesOn env.rootfsRun fs = true) ∧
      smpBootMarkers (((runSmpBootCase (withTwoCpus env)).tree env.bootRun fs).lookup
        (caseFile (runSmpBootCase (withTwoCpus env)).id "qemu.log")) = true := by
  have hmem : (runSmpBootCase (withTwoCpus env), env.bootRun) ∈ smpCaseList (withTwoCpus env) :=
    List.mem_cons_self
  have hfile : "L1-SMP-2-BOOT/qemu.log".toList =
      caseFile (runSmpBootCase (withTwoCpus env)).id "qemu.log" := by
    rw [(smp_ids env).1]
    decide
  have hcase : has (s.out.lookup summaryTxt) "CASE=L1-SMP-2-BOOT" = true := by
    have hi := infix_case (Left.mem_records hmem fs) []
    have hid : ((runSmpBootCase (withTwoCpus env)).verdictOn env.bootRun fs).id =
      "L1-SMP-2-BOOT".toList := (smp_ids env).1
    rw [hid, List.append_nil] at hi
    rw [h.summary, has_iff _ (by decide) (by decide)]
    exact hi
  rw [smpBootVerdict, verdict_pass_iff, hcase, Bool.true_and, Bool.and_eq_true,
    h.summary_iff (smp_silent env), exists_smpCaseList, hfile, h.lookup_caseFile hmem]
  rfl

theorem smpVerdict_iff {env : SmpEnv} {fs : Files} {s : State}
    (h : Left (smpCaseList (withTwoCpus env)) fs s) :
    smpVerdict (s.out.lookup summaryJson) (s.out.lookup "L1-SMP-2/result.txt".toList)
        (s.out.lookup "L1-SMP-2/qemu.log".toList) = .pass ↔
      ((runSmpBootCase (withTwoCpus env)).passesOn env.bootRun fs = true ∨
        (runSmpRootfsCase (withTwoCpus env)).passesOn env.rootfsRun fs = true) ∧
      smpMarkers (((runSmpRootfsCase (withTwoCpus env)).tree env.rootfsRun fs).lookup
          (caseFile (runSmpRootfsCase (withTwoCpus env)).id "result.txt"))
        (((runSmpRootfsCase (withTwoCpus env)).tree env.rootfsRun fs).lookup
          (caseFile (runSmpRootfsCase (withTwoCpus env)).id "qemu.log")) = true := by
  have hmem : (runSmpRootfsCase (withTwoCpus env), env.rootfsRun) ∈
      smpCaseList (withTwoCpus env) := List.mem_cons_of_mem _ (List.mem_singleton_self _)
  have hresult : "L1-SMP-2/result.txt".toList =
      caseFile (runSmpRootfsCase (withTwoCpus env)).id "result.txt" := by
    rw [(smp_ids env).2]
    decide
  have hlog : "L1-SMP-2/qemu.log".toList =
      caseFile (runSmpRootfsCase (withTwoCpus env)).id "qemu.log" := by
    rw [(smp_ids env).2]
    decide
  rw [smpVerdict, verdict_pass_iff, Bool.and_eq_true, h.pass_iff, exists_smpCaseList, hresult, hlog,
    h.lookup_caseFile hmem, h.lookup_caseFile hmem]
  rfl

/-! ## The scale harness -/

/-- The harness with the numbers of CPUs 1, 2, 4 and 8. -/
def scaleEnv (runId : Text) (run : Nat → Outcome) : SmpScaleEnv :=
  ⟨runId, [1, 2, 4, 8].map fun n => (n, run n)⟩

/-- The case for `n` CPUs passed. -/
def scalePasses (run : Nat → Outcome) (fs : Files) (n : Nat) : Bool :=
  (runScaleCase n).passesOn (run n) fs

/-- The files of the case for `n` CPUs have what the importer looks for. -/
def scaleMarked (run : Nat → Outcome) (fs : Files) (n : Nat) : Bool :=
  smpScaleMarkers
    (((runScaleCase n).tree (run n) fs).lookup (caseFile (runScaleCase n).id "result.txt"))
    (((runScaleCase n).tree (run n) fs).lookup (caseFile (runScaleCase n).id "qemu.log")) n

/-- Only some of the cases passed, but the files of each have what the importer looks for. -/
def scaleUpgraded (run : Nat → Outcome) (fs : Files) : Bool :=
  [1, 2, 4, 8].any (scalePasses run fs) && !([1, 2, 4, 8].all (scalePasses run fs)) &&
    [1, 2, 4, 8].all (scaleMarked run fs)

section Scale

variable {runId : Text} {run : Nat → Outcome} {fs : Files} {s : State}

theorem apart_scaleEnv (runId : Text) (run : Nat → Outcome) :
    ((scaleEnv runId run).cases.map Prod.fst).Nodup :=
  (by decide : [1, 2, 4, 8].Nodup)

theorem mem_scaleCaseList (runId : Text) (run : Nat → Outcome) {n : Nat} (hn : n ∈ [1, 2, 4, 8]) :
    (runScaleCase n, run n) ∈ smpScaleCaseList (scaleEnv runId run) :=
  List.mem_map.2 ⟨(n, run n), List.mem_map.2 ⟨n, hn, rfl⟩, rfl⟩

theorem smpScale_left (d : Digest) (runId : Text) (run : Nat → Outcome) (fs : Files) :
    Left (smpScaleCaseList (scaleEnv runId run)) fs
      (smpScale d (scaleEnv runId run) ⟨fs, .pass⟩).2 := by
  obtain ⟨r, readme, doc, s, hran, hdoc, hrun, -⟩ := smpScale_run d (apart_scaleEnv runId run) fs
  rw [hrun]
  exact .of_published hran hdoc (List.cons_ne_nil _ _) d readme

theorem exists_scaleCaseList :
    (∃ c ∈ smpScaleCaseList (scaleEnv runId run), c.1.passesOn c.2 fs = true) ↔
      ∃ n ∈ [1, 2, 4, 8], scalePasses run fs n = true := by
  simp only [smpScaleCaseList, scaleEnv, List.map_map, List.mem_map, exists_exists_and_eq_and]
  rfl

theorem isWord_scaleId : ∀ n ∈ [1, 2, 4, 8], IsWord (runScaleCase n).id ∧
    "\"id\": \"L1-SMP-SCALE-" ++ Nat.toDigits 10 n ++ ['"'] =
      fieldText [' '] "id" (runScaleCase n).id := by decide +kernel

theorem smpScaleCaseOk_iff (h : Left (smpScaleCaseList (scaleEnv runId run)) fs s) {n : Nat}
    (hn : n ∈ [1, 2, 4, 8]) :
    smpScaleCaseOk (s.out.lookup summaryJson) (s.out.lookup (scaleFile n "result.txt"))
        (s.out.lookup (scaleFile n "qemu.log")) n = true ↔
      (∃ n ∈ [1, 2, 4, 8], scalePasses run fs n = true) ∧ scaleMarked run fs n = true := by
  have hmem := mem_scaleCaseList runId run hn
  obtain ⟨hword, hfield⟩ := isWord_scaleId n hn
  have hid : fileHas (s.out.lookup summaryJson) (Regex.lit
      ("\"id\": \"L1-SMP-SCALE-" ++ Nat.toDigits 10 n ++ ['"'])) = true := by
    rw [hfield, h.ids _ hword]
    exact List.mem_map_of_mem (Left.mem_records hmem fs)
  have hfile : ∀ name, scaleFile n name = caseFile (runScaleCase n).id name := fun _ => rfl
  rw [smpScaleCaseOk, hid, Bool.true_and, Bool.and_eq_true, h.pass_iff, exists_scaleCaseList, hfile,
    hfile, h.lookup_caseFile hmem, h.lookup_caseFile hmem, scaleMarked]

theorem smpScaleVerdict_iff (h : Left (smpScaleCaseList (scaleEnv runId run)) fs s) :
    smpScaleVerdict s.out = .pass ↔ (∃ n ∈ [1, 2, 4, 8], scalePasses run fs n = true) ∧
      ∀ n ∈ [1, 2, 4, 8], scaleMarked run fs n = true := by
  rw [smpScaleVerdict, verdict_pass_iff, Bool.and_eq_true, h.pass_iff, exists_scaleCaseList,
    List.all_eq_true]
  refine and_congr_right fun hp => forall₂_congr fun n hn => ?_
  rw [smpScaleCaseOk_iff h hn, and_iff_right hp]

end Scale

/-! ## Upgrades -/

/-- A verdict that rests on one of two facts is an upgrade when the wrong one holds. -/
theorem no_upgrade_iff (own other markers : Bool) :
    ((own = true ∨ other = true) ∧ markers = true → own = true) ↔
      (other && !own && markers) = false := by
  cases own <;> cases other <;> cases markers <;> decide

theorem smp_upgrade_iff (d : Digest) (env : SmpEnv) (path : Text) (dirs : List Text)
    (fs fs' : Files) :
    let left := (smp d (withTwoCpus env) ⟨fs, .pass⟩).2
    let imported := importing (importX86Smp (leftBehind path dirs left)) fs'
    ((Recorded imported "L1-SMP-2-BOOT" .pass → Recorded left "L1-SMP-2-BOOT" .pass) ↔
      bootUpgraded (withTwoCpus env) fs = false) ∧
    ((Recorded imported "L1-SMP-2" .pass → Recorded left "L1-SMP-2" .pass) ↔
      rootfsUpgraded (withTwoCpus env) fs = false) := by
  intro left imported
  have h : Left (smpCaseList (withTwoCpus env)) fs left := smp_left d (withTwoCpus env) fs
  have himp := fun id => (appends_importX86Smp path dirs left).recorded_iff fs' id .pass
  have hids : "L1-SMP-2-BOOT".toList ≠ "L1-SMP-2".toList ∧
      "L1-SMP-2-BOOT".toList ≠ "FC-SMP-2".toList ∧ "L1-SMP-2".toList ≠ "FC-SMP-2".toList := by
    decide
  have hboot := h.recorded_iff (apart_smpCaseList _) List.mem_cons_self
  have hrootfs := h.recorded_iff (apart_smpCaseList _)
    (List.mem_cons_of_mem _ (List.mem_singleton_self _))
  rw [(smp_ids env).1] at hboot
  rw [(smp_ids env).2] at hrootfs
  constructor
  · rw [himp, hboot, bootUpgraded, ← no_upgrade_iff]
    refine imp_congr_left (.trans ?_ (smpBootVerdict_iff h))
    simp only [smpVerdicts, List.mem_cons, Prod.mk.injEq, hids, true_and, false_and, or_false,
      List.not_mem_nil]
    exact eq_comm
  · rw [himp, hrootfs, rootfsUpgraded, ← no_upgrade_iff]
    refine imp_congr_left (.trans ?_ ((smpVerdict_iff h).trans (and_congr_left' or_comm)))
    simp only [smpVerdicts, List.mem_cons, Prod.mk.injEq, hids, hids.1.symm, true_and, false_and,
      or_false, false_or, List.not_mem_nil]
    exact eq_comm

theorem smpScale_upgrade_iff (d : Digest) (runId : Text) (run : Nat → Outcome) (path : Text)
    (dirs : List Text) (fs fs' : Files) :
    let left := (smpScale d (scaleEnv runId run) ⟨fs, .pass⟩).2
    let imported := importing (importX86SmpScale (leftBehind path dirs left)) fs'
    (Recorded imported "L1-SMP-SCALE" .pass → ∀ n ∈ [1, 2, 4, 8],
      Recorded left ("L1-SMP-SCALE-".toList ++ Nat.toDigits 10 n) .pass) ↔
      scaleUpgraded run fs = false := by
  intro left imported
  have h : Left (smpScaleCaseList (scaleEnv runId run)) fs left := smpScale_left d runId run fs
  have hid : "L1-SMP-SCALE".toList ≠ "SCALE-SMP".toList := by decide
  have himp : Recorded imported "L1-SMP-SCALE" .pass ↔ smpScaleVerdict left.out = .pass := by
    rw [(appends_importX86SmpScale path dirs left).recorded_iff]
    simp only [scaleVerdicts, scaleIds, List.map_cons, List.map_nil, List.mem_cons, Prod.mk.injEq, hid,
      true_and, false_and, or_false, List.not_mem_nil]
    exact eq_comm
  have hrec : (∀ n ∈ [1, 2, 4, 8], Recorded left ("L1-SMP-SCALE-".toList ++ Nat.toDigits 10 n) .pass)
      ↔ ∀ n ∈ [1, 2, 4, 8], scalePasses run fs n = true :=
    forall₂_congr fun n hn => h.recorded_iff (apart_smpScaleCaseList (apart_scaleEnv runId run))
      (mem_scaleCaseList runId run hn)
  rw [himp, hrec, smpScaleVerdict_iff h, scaleUpgraded, ← List.all_eq_true, ← List.any_eq_true,
    ← List.all_eq_true]
  cases [1, 2, 4, 8].any (scalePasses run fs) <;> cases [1, 2, 4, 8].all (scalePasses run fs) <;>
    cases [1, 2, 4, 8].all (scaleMarked run fs) <;> decide

/-- **The SMP importers upgrade a failure exactly when another case passed and the files of the failed
one have the markers that the importer looks for.** -/
theorem smp_imports_iff (d : Digest) (path : Text) (dirs : List Text) (fs fs' : Files) :
    (∀ env : SmpEnv,
      let left := (smp d (withTwoCpus env) ⟨fs, .pass⟩).2
      let imported := importing (importX86Smp (leftBehind path dirs left)) fs'
      (Recorded imported "L1-SMP-2-BOOT" .pass → Recorded left "L1-SMP-2-BOOT" .pass) ∧
        (Recorded imported "L1-SMP-2" .pass → Recorded left "L1-SMP-2" .pass) ↔
      bootUpgraded (withTwoCpus env) fs = false ∧ rootfsUpgraded (withTwoCpus env) fs = false) ∧
    ∀ (runId : Text) (run : Nat → Outcome),
      let left := (smpScale d (scaleEnv runId run) ⟨fs, .pass⟩).2
      let imported := importing (importX86SmpScale (leftBehind path dirs left)) fs'
      (Recorded imported "L1-SMP-SCALE" .pass → ∀ n ∈ [1, 2, 4, 8],
        Recorded left ("L1-SMP-SCALE-" ++ Nat.toDigits 10 n) .pass) ↔
      scaleUpgraded run fs = false := by
  refine ⟨fun env => ?_, fun runId run => smpScale_upgrade_iff d runId run path dirs fs fs'⟩
  obtain ⟨hboot, hrootfs⟩ := smp_upgrade_iff d env path dirs fs fs'
  exact and_congr hboot hrootfs

/-- The boot run fails after its guest has printed all it has to. -/
def failedBoot : SmpEnv where
  runId := []
  guestCpus := 2
  guestPhysCpuIds := "auto"
  qemuSmp := "2"
  bootRun := ⟨1, [], [("qemu.log", hereDoc ["smp: Brought up 1 node, 2 CPUs",
    "AXVISOR_X86_NATIVE_GUEST_EXPECTED_CPUS=2",
    "AXVISOR_X86_NATIVE_GUEST_CPUINFO_PROCESSOR_COUNT=2",
    "AXVISOR_X86_NATIVE_GUEST_CPU_ONLINE_COUNT=2", "AXVISOR_X86_NATIVE_GUEST_PASS=1"])]⟩
  rootfsRun := ⟨0, "[verify] qemu smp: 2\n",
    [("qemu.log", hereDoc ["VFS: Mounted root (ext4 filesystem)",
        "AXVISOR_X86_NATIVE_GUEST_PASS=1"]),
      ("result.txt", hereDoc ["AXVISOR_X86_NATIVE_GUEST_PASS=1", "EXPECTED_GUEST_CPUS=2",
        "CPUINFO_PROCESSOR_COUNT=2", "CPU_ONLINE_COUNT=2", "ROOT_MOUNT_FS=ext4",
        "SMOKE_WRITE_TEST=1"]),
      (vmConfig.toList, hereDoc ["cpu_num = 2"])]⟩

theorem bootUpgraded_failedBoot : bootUpgraded (withTwoCpus failedBoot) ∅ = true := by
  decide +kernel

/-- The failed boot case of a run whose rootfs case passed is imported as passed. -/
theorem smp_imports_failedBoot :
    let left := (smp zeroDigest (withTwoCpus failedBoot) ⟨∅, .pass⟩).2
    let imported := importing (importX86Smp (leftBehind "smp" [] left)) ∅
    Recorded imported "L1-SMP-2-BOOT" .pass ∧ ¬Recorded left "L1-SMP-2-BOOT" .pass := by
  have h := (smp_upgrade_iff zeroDigest failedBoot "smp" [] ∅ ∅).1
  rw [bootUpgraded_failedBoot] at h
  exact Classical.not_imp.1 fun hi => absurd (h.1 hi) (by decide)

end Eval
