import AxvisorTools.Eval.ImportHarness
import AxvisorTools.Eval.Tables

/-!
# The paper evaluation

The main sequence of `run-axvisor-paper-evaluation.sh`, with all its commands present and a
writable `OUT_DIR`. The tree it starts from is what `OUT_DIR` held before.
-/

namespace Eval

open Shell Py Harness

/-- The lines of `environment/environment.txt`. -/
def environmentLines (env : Env) : List Text :=
  ["ROOT_DIR=" ++ env.rootDir, "RUN_ID=" ++ env.runId,
    "DATE_UTC=" ++ env.host.dateUtc, "DATE_LOCAL=" ++ env.host.dateLocal,
    "RUN_X86_MATRIX=" ++ env.runX86Matrix,
    "RUN_FIRECRACKER_ROOTFS=" ++ env.runFirecrackerRootfs,
    "X86_EVIDENCE_DIR=" ++ env.x86EvidenceDir.path,
    "X86_NATIVE_STABILITY_DIR=" ++ env.x86NativeStabilityDir.path,
    "X86_MEM_SIZES_DIR=" ++ env.x86MemSizesDir.path,
    "X86_FUNCTIONAL_DIR=" ++ env.x86FunctionalDir.path,
    "X86_SMP_DIR=" ++ env.x86SmpDir.path,
    "X86_SMP_SCALE_DIR=" ++ env.x86SmpScaleDir.path,
    "X86_POWEROFF_DIR=" ++ env.x86PoweroffDir.path,
    "ARCH_STATIC_DIR=" ++ env.archStaticDir.path,
    "KVM_ABI_SMOKE_DIR=" ++ env.kvmAbiSmokeDir.path,
    "KVM_ABI_SMOKE_OUT=" ++ env.kvmAbiSmokeOut.path,
    "FIRECRACKER_ROOTFS_LOG=" ++ env.firecrackerRootfsLog.path,
    "FIRECRACKER_ROOTFS_TINY_DIR=" ++ env.firecrackerRootfsTinyDir.path]

/-- `environment/environment.json`. -/
def environmentJson (env : Env) : Json :=
  .obj [("suite", .str "axvisor-paper-evaluation"), ("run_id", .str env.runId),
    ("root_dir", .str env.rootDir),
    ("x86_evidence_dir", .str env.x86EvidenceDir.path),
    ("x86_native_stability_dir", .str env.x86NativeStabilityDir.path),
    ("x86_mem_sizes_dir", .str env.x86MemSizesDir.path),
    ("x86_smp_scale_dir", .str env.x86SmpScaleDir.path),
    ("platform", .str env.host.platform), ("machine", .str env.host.machine),
    ("python", .str env.host.python), ("git_head", .str env.host.gitHead)]

/-- `capture_environment`. -/
def captureEnvironment (env : Env) : Sh State Unit := do
  writeFile "environment/uname.txt" env.host.uname
  writeFile "environment/kernel.txt" env.host.kernel
  writeFile "environment/lscpu.txt" env.host.lscpu
  writeFile "environment/cpu.txt" env.host.lscpu
  writeFile "environment/memory.txt" env.host.memory
  writeFile "environment/environment.txt" (echoes (environmentLines env))
  writeFile "environment/git-revisions.txt" env.host.gitRevisions
  Sh.modify (State.copy env.host.matrixDoc "environment/configs/x86-axvisor-test-matrix.md")
  writeFile "environment/environment.json" (Json.dumpsIndent (environmentJson env) ++ ['\n'])

/-- The records of the harness itself, before any import. -/
def recordHarness (env : Env) : Sh State Unit := do
  record "HARNESS-ENV" .pass "captured environment metadata"
    ["environment/environment.json", "environment/uname.txt", "environment/lscpu.txt",
      "environment/cpu.txt", "environment/git-revisions.txt"]
  record "HARNESS-RUN-ID" .pass ("created unique output directory " ++ env.outDir)
    ["README.md"]
  record "HARNESS-RAW" .pass "preserved imported raw logs where available"
    ["functional/x86-imported"]

/-- The importers, in their order. -/
def importEvidence (env : Env) : Sh State Unit := do
  runX86Matrix env
  importX86Evidence env.x86EvidenceDir
  recordFirecrackerRootfsStatus env
  recordFirecrackerRootfsTinyStatus env.firecrackerRootfsTinyDir
  recordKvmAbiSmokeStatus env.kvmAbiSmokeDir env.kvmAbiSmokeOut
  importX86NativeStability env.x86NativeStabilityDir
  importX86MemSizes env.x86MemSizesDir
  importX86Functional env.x86FunctionalDir
  importX86Smp env.x86SmpDir
  importX86SmpScale env.x86SmpScaleDir
  importX86Poweroff env.x86PoweroffDir
  writeAbiCoverage
  importArchitectureStatic env.archStaticDir

/-- The sequence up to the pending items. -/
def collectEvidence (env : Env) : Sh State Unit := do
  writePlaceholderOutputs
  captureEnvironment env
  recordHarness env
  importEvidence env

/-- The summary and the checksums are written twice, the second time with the record that says that
they were written. -/
def finish (d : Digest) (env : Env) : Sh State Unit := do
  writeReadme env.suite env.runId
  finalizeSummary env.suite env.runId
  finalizeChecksums d
  record "HARNESS-HASH" .pass "generated and verified SHA256SUMS" ["SHA256SUMS"]
  finalizeSummary env.suite env.runId
  finalizeChecksums d
  let s ← Sh.get
  if s.status ≠ .pass then Sh.exit 1 else pure ()

/-- `run-axvisor-paper-evaluation.sh`. -/
def evaluate (d : Digest) (env : Env) : Sh State Unit := do
  startLedger
  collectEvidence env
  recordPendingMatrixSkips
  finish d env

end Eval
