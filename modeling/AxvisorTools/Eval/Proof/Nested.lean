import AxvisorTools.Eval.Main
import AxvisorTools.Harness.Proof.Nested

/-!
# Manifests that the paper evaluation imports

The importers copy the `SHA256SUMS` of the evidence below `OUT_DIR`. One lemma for each importer says
when it does (`Nests`), and `nests_collectEvidence` puts them together.
-/

namespace Eval

open Shell Py Harness

variable {src : Evidence} {path : List Char}

/-- The evidence has a manifest of its own. -/
def holdsSums (src : Evidence) : Bool := src.tree.any fun t => t.files.has sumsPath

theorem nests_absent (h : src.tree = none) {m : Sh State Unit} (hm : Nests m False) :
    Nests m (holdsSums src = true) := by
  refine hm.congr (iff_of_false id ?_)
  rw [holdsSums, h]
  decide

theorem holdsSums_some {t : Tree} (h : src.tree = some t) :
    t.files.has sumsPath = true ↔ holdsSums src = true := by
  rw [holdsSums, h, Option.any_some]

/-! ## Commands -/

theorem nests_record {id : String} {v : Verdict} {reason : Text} {artifacts : List String} :
    Nests (record id v reason artifacts) False := .modify_false (nestedSums_recordTest _ _)

theorem nests_writeFile (h : path.getLast? ≠ some 'S') {c : Text} :
    Nests (writeFile (String.ofList path) c) False :=
  nests_write (not_nested_of_basename (basename_ne h)) _

theorem nests_appendFile (h : path.getLast? ≠ some 'S') {c : Text} :
    Nests (appendFile (String.ofList path) c) False :=
  nests_append (not_nested_of_basename (basename_ne h)) _

theorem nests_copy {p : Text} (h : basename p ≠ sumsPath) (c : State → Option Text) :
    Nests (Sh.modify fun s => s.copy (c s) p) False :=
  .modify_false fun _ => (nestedSums_copy _ _ _).trans
    (or_iff_left fun hc => not_nested_of_basename h hc.2)

theorem nests_graft (dir : Text) (o : Outcome) :
    Nests (Sh.modify (State.graft (dir ++ ['/']) o.files)) (o.leavesSums = true) :=
  .modify fun _ => (nestedSums_graft _ _ _).trans (or_congr_right (leavesSums_iff o).symm)

theorem nests_copyPlain {c : Option Text} (h : path.getLast? ≠ some 'S') :
    Nests (copyPlain c (String.ofList path)) False := by
  unfold copyPlain
  split
  · exact nests_writeFile h
  · exact .plain 1

theorem nests_capture (statuses : List Nat) (output : Text) :
    Nests (capture statuses output) False := (Nests.plain _).after fun _ => .pure _

/-- Files that are copied one by one: only a manifest among them counts. -/
theorem nests_copyEach (t : Tree) (dst : String) (names : List String) :
    Nests (copyEach t dst names)
      (∃ n ∈ names, (t.files.lookup n.toList).isSome ∧ basename n.toList = sumsPath) := by
  refine .each fun name _ => .modify fun s => ?_
  rw [← nested_append_slash dst.toList]
  exact nestedSums_copy _ _ _

theorem nests_copyEach_false (t : Tree) (dst : String) {names : List String}
    (h : OnlySums names) (hmem : "SHA256SUMS" ∉ names) : Nests (copyEach t dst names) False := by
  refine (nests_copyEach t dst names).congr (iff_false_intro ?_)
  rintro ⟨n, hn, -, hb⟩
  exact hmem (h n hn hb ▸ hn)

theorem nests_copyEach_sums {t : Tree} (ht : src.tree = some t) (dst : String) {names : List String}
    (h : OnlySums names) (hmem : "SHA256SUMS" ∈ names) :
    Nests (copyEach t dst names) (holdsSums src = true) := by
  refine (nests_copyEach t dst names).congr (Iff.trans ?_ (holdsSums_some ht))
  constructor
  · rintro ⟨n, hn, hs, hb⟩
    rwa [h n hn hb] at hs
  · exact fun hs => ⟨_, hmem, hs, by decide⟩

theorem onlySums_topFiles : OnlySums topFiles := by
  repeat first | exact .nil | refine .self ?_ | refine .cons (by decide) ?_

theorem onlySums_x86EvidenceFiles : OnlySums x86EvidenceFiles := by
  repeat first | exact .nil | refine .self ?_ | refine .cons (by decide) ?_

/-! ## The x86 test matrix and Firecracker -/

theorem nests_runX86Matrix (env : Env) : Nests (runX86Matrix env)
    (env.runX86Matrix = "1" ∧ env.matrixRerun.leavesSums = true) := by
  unfold runX86Matrix
  split
  · next h => exact nests_record.congr (iff_of_false id fun hc => h hc.1)
  · next h =>
    rw [not_not] at h
    rw [and_iff_right h]
    refine (nests_graft "functional/x86-matrix-rerun" env.matrixRerun).before fun _ => ?_
    split <;> exact nests_record

theorem nests_decodeFirecrackerSerial (dst log : String) {out : String}
    (h : basename out.toList ≠ sumsPath) : Nests (decodeFirecrackerSerial dst log out) False :=
  nests_copy (by rwa [basename_append_slash]) _

theorem nests_importX86Evidence (src : Evidence) :
    Nests (importX86Evidence src) (holdsSums src = true) := by
  unfold importX86Evidence
  split
  · next h => exact nests_absent h nests_record
  · next t h =>
    refine (nests_copyEach_sums h _ onlySums_x86EvidenceFiles (by decide)).before fun _ => ?_
    refine (nests_decodeFirecrackerSerial _ _ (basename_ne (by decide))).after fun _ =>
      (nests_decodeFirecrackerSerial _ _ (basename_ne (by decide))).after fun _ => ?_
    exact nests_record.after fun _ => Nests.get.after fun _ => nests_record.after fun _ =>
      nests_record.after fun _ => nests_record.after fun _ => nests_record.after fun _ =>
      nests_record

theorem nests_recordFirecrackerRootfsStatus (env : Env) :
    Nests (recordFirecrackerRootfsStatus env)
      (env.runFirecrackerRootfs = "1" ∧ env.firecrackerRun.leavesSums = true) := by
  unfold recordFirecrackerRootfsStatus
  split
  · next h =>
    rw [and_iff_right h]
    refine (nests_writeFile (by decide)).after fun _ => ?_
    refine (nests_graft "functional/firecracker-rootfs/run" env.firecrackerRun).before
      fun _ => ?_
    split <;> exact nests_record
  · next h =>
    refine Nests.congr (c := False) ?_ (iff_of_false id fun hc => h hc.1)
    split
    · refine (nests_copyPlain (by decide)).after fun _ => ?_
      split <;> exact nests_record
    · exact nests_record

theorem nests_recordFirecrackerRootfsTinyStatus (src : Evidence) :
    Nests (recordFirecrackerRootfsTinyStatus src) (holdsSums src = true) := by
  unfold recordFirecrackerRootfsTinyStatus
  split
  · next h => exact nests_absent (src.tree_eq_none h) nests_record
  split
  · next h => exact nests_absent h nests_record
  · next t h =>
    refine (nests_copyEach_sums h _ ?_ (by decide)).before fun _ => ?_
    · repeat first | exact .nil | refine .self ?_ | refine .cons (by decide) ?_
    · exact Nests.get.after fun _ => nests_record

/-! ## KVM, stability and memory sizes -/

theorem nests_recordKvmNegatives (qemuLog : Option Text) :
    Nests (recordKvmNegatives qemuLog) False :=
  nests_record.when.after fun _ => nests_record.when.after fun _ =>
    nests_record.when.after fun _ => nests_record.when.after fun _ =>
    nests_record.when.after fun _ => nests_record.when

theorem nests_recordKvmAbiSmokeStatus (dir : Evidence) (out : LogFile) :
    Nests (recordKvmAbiSmokeStatus dir out) False := by
  have hcopy : Nests (copyEachFrom dir "abi/kvm-abi-smoke" ["qemu.log", "run.out"]) False := by
    unfold copyEachFrom
    split
    · exact nests_copyEach_false _ _ (.cons (by decide) (.cons (by decide) .nil)) (by decide)
    · exact .pure ()
  exact hcopy.after fun _ => Nests.get.after fun _ =>
    (nests_copyPlain (by decide)).when.after fun _ =>
    nests_record.after fun _ => (nests_recordKvmNegatives _).when

theorem nests_rootfsCounts (src : Text) (t : Tree) : Nests (rootfsCounts src t) False := by
  unfold rootfsCounts
  split
  · exact (nests_capture _ _).after fun _ => (nests_capture _ _).after fun _ => .pure _
  · exact .pure _

theorem nests_importX86NativeStability (src : Evidence) :
    Nests (importX86NativeStability src) (holdsSums src = true) := by
  unfold importX86NativeStability
  split
  · next h => exact nests_absent h (nests_record.after fun _ => nests_record)
  · next t h =>
    refine (nests_copyEach_sums h _ ?_ (by decide)).before fun _ => ?_
    · repeat first | exact .nil | refine .self ?_ | refine .cons (by decide) ?_
    · refine (nests_copy (basename_ne (by decide)) _).after fun _ =>
        (nests_copy (basename_ne (by decide)) _).after fun _ =>
        (nests_copy (basename_ne (by decide)) _).after fun _ => ?_
      exact (nests_rootfsCounts _ _).after fun _ => (nests_writeFile (by decide)).after
        fun _ => nests_record.after fun _ => nests_record

theorem nests_importMemCase (t : Tree) (name : Text) : Nests (importMemCase t name) False := by
  refine (Nests.each_false fun file hfile => nests_copy ?_ _).after fun _ =>
    (nests_appendFile (by decide)).after fun _ => .pure _
  have hfiles : ∀ file ∈ ["result.txt".toList, "qemu.log".toList, "run.out".toList,
      "x86_64-linux-host-vm.generated.toml".toList], basename file ≠ sumsPath := by
    simp only [List.forall_mem_cons]
    exact ⟨basename_ne (by decide), basename_ne (by decide), basename_ne (by decide),
      basename_ne (by decide), fun _ h => absurd h List.not_mem_nil⟩
  rw [basename_append_slash]
  exact hfiles file hfile

theorem nests_importMemCases (t : Tree) :
    ∀ (names : List Text) (passCount : Nat), Nests (importMemCases t names passCount) False
  | [], _ => .pure _
  | name :: names, _ =>
    (nests_importMemCase t name).after fun _ => nests_importMemCases t names _

theorem nests_importX86MemSizes (src : Evidence) :
    Nests (importX86MemSizes src) (holdsSums src = true) := by
  unfold importX86MemSizes
  split
  · next h => exact nests_absent (src.tree_eq_none h) nests_record
  split
  · next h => exact nests_absent h nests_record
  · next t h =>
    refine (nests_copyEach_sums h _ onlySums_topFiles (by decide)).before fun _ => ?_
    refine (Nests.each_false fun cpus hc => nests_copyEach_false _ _
      (by repeat first | exact .nil | refine .consAppend _ (by decide) (by decide) ?_)
      (by revert cpus; decide)).after fun _ => ?_
    exact (nests_capture _ _).after fun _ => (nests_writeFile (by decide)).after fun _ =>
      (nests_importMemCases _ _ _).after fun _ => (nests_appendFile (by decide)).after fun _ =>
      nests_record

/-! ## Output of other harnesses -/

theorem nests_importX86Functional (src : Evidence) :
    Nests (importX86Functional src) (holdsSums src = true) := by
  unfold importX86Functional
  split
  · next h => exact nests_absent (src.tree_eq_none h) (.pure ())
  split
  · next h =>
    exact nests_absent h (nests_record.after fun _ => nests_record.after fun _ => nests_record)
  · next t h =>
    refine (nests_copyEach_sums h _ (onlySums_topFiles.append ?_) (by decide)).before fun _ => ?_
    · repeat first | exact .nil | refine .cons (by decide) ?_
    · exact (nests_writeFile (by decide)).after fun _ => nests_record.after fun _ =>
        nests_record.after fun _ => nests_record

theorem nests_skipSmp (reason : Text) : Nests (skipSmp reason) False :=
  nests_record.after fun _ => nests_record.after fun _ => nests_record

theorem nests_importX86Smp (src : Evidence) :
    Nests (importX86Smp src) (holdsSums src = true) := by
  unfold importX86Smp
  split
  · next h => exact nests_absent (src.tree_eq_none h) (nests_skipSmp _)
  split
  · next h => exact nests_absent h (nests_skipSmp _)
  · next t h =>
    refine (nests_copyEach_sums h _ (onlySums_topFiles.append ?_) (by decide)).before fun _ => ?_
    · repeat first | exact .nil | refine .cons (by decide) ?_
    · exact (nests_writeFile (by decide)).after fun _ => nests_record.after fun _ =>
        nests_record.after fun _ => nests_record

theorem nests_importX86SmpScale (src : Evidence) :
    Nests (importX86SmpScale src) (holdsSums src = true) := by
  unfold importX86SmpScale
  split
  · next h => exact nests_absent (src.tree_eq_none h) (.pure ())
  split
  · next h => exact nests_absent h (nests_record.after fun _ => nests_record)
  · next t h =>
    refine (nests_copyEach_sums h _ onlySums_topFiles (by decide)).before fun _ => ?_
    exact (nests_writeFile (by decide)).after fun _ => nests_record.after fun _ => nests_record

theorem nests_importX86Poweroff (src : Evidence) :
    Nests (importX86Poweroff src) (holdsSums src = true) := by
  unfold importX86Poweroff
  split
  · next h => exact nests_absent (src.tree_eq_none h) (.pure ())
  split
  · next h => exact nests_absent h nests_record
  · next t h =>
    refine (nests_copyEach_sums h _ (onlySums_topFiles.append ?_) (by decide)).before fun _ => ?_
    · repeat first | exact .nil | refine .cons (by decide) ?_
    · exact (nests_writeFile (by decide)).after fun _ => nests_record

/-- The architecture evidence is imported without its manifest. -/
theorem nests_importArchitectureStatic (src : Evidence) :
    Nests (importArchitectureStatic src) False := by
  unfold importArchitectureStatic
  split
  · exact (nests_writeFile (by decide)).after fun _ =>
      (nests_writeFile (by decide)).after fun _ => nests_record
  split
  · exact nests_record
  · refine (nests_copyEach_false _ _ ?_ (by decide)).after fun _ => nests_record
    repeat first | exact .nil | refine .cons (by decide) ?_

/-! ## The whole run -/

/-- Something that the run imports has a manifest of its own. -/
def ImportsSums (env : Env) : Prop :=
  (env.runX86Matrix = "1" ∧ env.matrixRerun.leavesSums = true) ∨
    holdsSums env.x86EvidenceDir = true ∨
    (env.runFirecrackerRootfs = "1" ∧ env.firecrackerRun.leavesSums = true) ∨
    holdsSums env.firecrackerRootfsTinyDir = true ∨ holdsSums env.x86NativeStabilityDir = true ∨
    holdsSums env.x86MemSizesDir = true ∨ holdsSums env.x86FunctionalDir = true ∨
    holdsSums env.x86SmpDir = true ∨ holdsSums env.x86SmpScaleDir = true ∨
    holdsSums env.x86PoweroffDir = true

theorem nests_importEvidence (env : Env) : Nests (importEvidence env) (ImportsSums env) := by
  have hcoverage : Nests writeAbiCoverage False :=
    (nests_writeFile (by decide)).after fun _ => nests_record
  exact (nests_runX86Matrix env).bind fun _ => (nests_importX86Evidence _).bind fun _ =>
    (nests_recordFirecrackerRootfsStatus env).bind fun _ =>
    (nests_recordFirecrackerRootfsTinyStatus _).bind fun _ =>
    (nests_recordKvmAbiSmokeStatus _ _).after fun _ =>
    (nests_importX86NativeStability _).bind fun _ => (nests_importX86MemSizes _).bind fun _ =>
    (nests_importX86Functional _).bind fun _ => (nests_importX86Smp _).bind fun _ =>
    (nests_importX86SmpScale _).bind fun _ => (nests_importX86Poweroff _).before fun _ =>
    hcoverage.after fun _ => nests_importArchitectureStatic _

theorem nests_writePlaceholderOutputs : Nests writePlaceholderOutputs False :=
  (nests_writeFile (by decide)).after fun _ =>
    (nests_writeFile (by decide)).after fun _ =>
    (nests_writeFile (by decide)).after fun _ =>
    (nests_writeFile (by decide)).after fun _ =>
    (nests_writeFile (by decide)).after fun _ => nests_copy (basename_ne (by decide)) _

theorem nests_captureEnvironment (env : Env) : Nests (captureEnvironment env) False :=
  (nests_writeFile (by decide)).after fun _ =>
    (nests_writeFile (by decide)).after fun _ =>
    (nests_writeFile (by decide)).after fun _ =>
    (nests_writeFile (by decide)).after fun _ =>
    (nests_writeFile (by decide)).after fun _ =>
    (nests_writeFile (by decide)).after fun _ =>
    (nests_writeFile (by decide)).after fun _ =>
    (nests_copy (basename_ne (by decide)) _).after fun _ => nests_writeFile (by decide)

theorem nests_collectEvidence (env : Env) : Nests (collectEvidence env) (ImportsSums env) :=
  nests_writePlaceholderOutputs.after fun _ => (nests_captureEnvironment env).after fun _ =>
    Nests.after (nests_record.after fun _ => nests_record.after fun _ =>
      nests_record) fun _ => nests_importEvidence env

theorem nests_recordPending (p : Pending) : Nests (recordPending p) False := by
  have hrecord : Nests (recordTest p.toRecord) False := .modify_false (nestedSums_recordTest _ _)
  unfold recordPending
  split
  · refine Nests.get.after fun s => ?_
    split
    · exact .pure ()
    · exact hrecord
  · exact hrecord

theorem exits_status :
    Exits (do let s ← Sh.get; if s.status ≠ .pass then Sh.exit 1 else pure ()) := by
  intro s
  rw [Sh.bind_ok (Sh.get_apply s)]
  split
  · exact exits_exit 1 s
  · exact ⟨fun m h => (by cases h), rfl⟩

theorem nests_writeReadme (suite runId : Text) : Nests (writeReadme suite runId) False :=
  Nests.get.after fun _ => nests_writeFile (by decide)

theorem nests_finalizeSummary (suite runId : Text) :
    Nests (finalizeSummary suite runId) False := Harness.nests_finalizeSummary _ _

theorem nests_startLedger : Nests startLedger False :=
  (nests_write (not_nested_top (by decide)) _).after fun _ =>
    nests_write (not_nested_top (by decide)) _

/-- The last manifest of a run is the second one that `finish` writes. -/
theorem seals_finish (d : Digest) (env : Env) : Seals d (finish d env) False := by
  unfold finish
  refine (nests_writeReadme env.suite env.runId).seals fun _ => ?_
  refine (nests_finalizeSummary env.suite env.runId).seals fun _ => ?_
  refine (nests_finalizeChecksums d).seals fun _ => nests_record.seals fun _ => ?_
  exact (nests_finalizeSummary env.suite env.runId).seals fun _ =>
    seals_finalizeChecksums d exits_status

theorem nests_recordPendingMatrixSkips : Nests recordPendingMatrixSkips False :=
  .each_false fun p _ => nests_recordPending p

theorem seals_evaluate (d : Digest) (env : Env) : Seals d (evaluate d env) (ImportsSums env) :=
  nests_startLedger.afterSeals fun _ => (nests_collectEvidence env).seals fun _ =>
    nests_recordPendingMatrixSkips.seals fun _ => seals_finish d env

end Eval
