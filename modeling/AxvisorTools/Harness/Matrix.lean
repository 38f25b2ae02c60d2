import AxvisorTools.Harness.Case

/-!
# The x86 test matrix

`run-x86-axvisor-test-matrix.sh` runs five cases in order. `run_case` returns the status of a failed
case, and under `set -e` that ends the script.
-/

namespace Harness

open Shell

/-- The variables that the script records, each on a line of its own. -/
structure MatrixEnv where
  matrixId : Text
  outDir : Text
  buildDir : Text
  kvmBuildDir : Text
  qemuAccel : Text
  qemuCpu : Text
  firecrackerBin : Text
  nativeSkipBuild : Text
  kvmInitSkipBuild : Text
  firecrackerSkipBuild : Text
  unbroken : Unbroken [matrixId, outDir, buildDir, kvmBuildDir, qemuAccel, qemuCpu, firecrackerBin,
    nativeSkipBuild, kvmInitSkipBuild, firecrackerSkipBuild]

/-- `record`. -/
def recordLine (line : Text) : Sh State Unit := Sh.modify (State.append summaryTxt (echo line))

/-- A case: its id, its description, and the files that are copied up after it. -/
structure MatrixCase where
  id : Text
  description : Text
  kept : List String

/-- `run_case`; the status of a failed case is returned. -/
def runMatrixCase (env : MatrixEnv) (c : MatrixCase) (o : Outcome) : Sh State Nat := do
  recordLine ("CASE=" ++ c.id)
  recordLine ("DESCRIPTION=" ++ c.description)
  recordLine ("LOG=" ++ env.outDir ++ '/' :: caseFile c.id "run.out")
  Sh.modify (inner c.id o)
  if o.status = 0 then do
    recordLine "STATUS=pass"
    recordLine []
    pure 0
  else do
    recordLine "STATUS=fail"
    recordLine ("RC=" ++ Nat.toDigits 10 o.status)
    Sh.modify fun s => { s with status := .fail }
    pure o.status

/-- A case of the main sequence: a plain command, and the copies. -/
def matrixStep (env : MatrixEnv) (c : MatrixCase × Outcome) : Sh State Unit := do
  let rc ← runMatrixCase env c.1 c.2
  Sh.plain rc
  Sh.modify (keepAll c.1.id c.1.kept)

/-- The cases, in order. -/
def matrixCases : List MatrixCase :=
  [⟨"X86-L1-ROOTFS", "Layer1 x86 Linux guest boots from ext4 rootfs", ["qemu.log", "result.txt"]⟩,
    ⟨"X86-L1-INITRAMFS", "Layer1 x86 Linux guest boots from initramfs", ["qemu.log"]⟩,
    ⟨"X86-L2-KVM-INIT", "Layer2 Firecracker-required KVM init ABI smoke", ["qemu.log"]⟩,
    ⟨"X86-L2-FC-RUN",
      "Layer2 unmodified Firecracker boots an x86 Linux initramfs guest through AxVisor /dev/kvm",
      ["qemu.log", "firecracker-serial-decoded.log", "firecracker-result.txt"]⟩,
    ⟨"X86-L2-FC-ROOTFS-TINY",
      "Layer2 unmodified Firecracker boots an x86 rootfs guest and reaches static tiny init through AxVisor /dev/kvm",
      ["qemu.log", "firecracker-serial-decoded.log", "firecracker-result.txt"]⟩]

/-- The head of `summary.txt`. -/
def matrixHead (env : MatrixEnv) : List Text :=
  ["MATRIX_ID=".toList ++ env.matrixId, "OUT_DIR=".toList ++ env.outDir,
    "BUILD_DIR=".toList ++ env.buildDir, "KVM_BUILD_DIR=".toList ++ env.kvmBuildDir,
    "QEMU_ACCEL=".toList ++ env.qemuAccel,
    "QEMU_CPU=".toList ++ (if env.qemuCpu = [] then "auto".toList else env.qemuCpu),
    "FIRECRACKER_BIN=".toList ++ env.firecrackerBin,
    "NATIVE_SKIP_BUILD=".toList ++ env.nativeSkipBuild,
    "KVM_INIT_SKIP_BUILD=".toList ++ env.kvmInitSkipBuild,
    "FIRECRACKER_SKIP_BUILD=".toList ++ env.firecrackerSkipBuild, []]

/-- The text of `README.md`. -/
def matrixReadme (env : MatrixEnv) (status : Overall) : Text :=
  hereDoc ["# x86 AxVisor Test Matrix Evidence", ""] ++
  echoes ["Matrix ID: `" ++ env.matrixId ++ "`", [],
    "Result: `" ++ status.text ++ "`"] ++
  hereDoc ["", "This directory records an x86-only AxVisor validation run.", "",
    "Validated layers:", "",
    "- Layer1: x86 Linux host -> AxVisor Linux-host adapter -> x86 Linux guest.",
    "- Layer2: unmodified x86 Firecracker -> `/dev/kvm` from `axvisor_kvm.ko` -> AxVisor backend -> x86 Linux guest.", "", "Primary files:", "",
    "- `summary.txt`: case-level pass/fail summary.",
    "- `X86-L1-ROOTFS/`: ext4 rootfs guest evidence.",
    "- `X86-L1-INITRAMFS/`: initramfs guest evidence.",
    "- `X86-L2-KVM-INIT/`: Firecracker-required KVM init ABI smoke evidence.",
    "- `X86-L2-FC-RUN/`: unmodified Firecracker boot evidence.",
    "- `X86-L2-FC-ROOTFS-TINY/`: unmodified Firecracker rootfs boot with a",
    "  static tiny init that proves ext4 root mount and first userspace execution.",
    "- `SHA256SUMS`: checksums for preserved evidence.", "", "Scope boundary:", "",
    "- This confirms the tested x86 single-vCPU boot paths.",
    "- The tiny rootfs case does not replace the full BusyBox/shell rootfs test.",
    "- It does not claim virtio-net Firecracker, multi-vCPU, snapshot, migration, jailer, or full KVM parity."]

/-- `MATRIX_STATUS=…`. -/
def recordMatrixStatus : Sh State Unit := do
  let s ← Sh.get
  recordLine (if s.status = .pass then "MATRIX_STATUS=pass" else "MATRIX_STATUS=fail")

def matrixRun (env : MatrixEnv) (outcomes : MatrixCase → Outcome) : Sh State Unit := do
  Sh.modify (State.write summaryTxt [])
  Sh.each recordLine (matrixHead env)
  Sh.each (matrixStep env) (matrixCases.map fun c => (c, outcomes c))
  recordMatrixStatus

/-- `run-x86-axvisor-test-matrix.sh`, with one outcome for each case. -/
def testMatrix (d : Digest) (env : MatrixEnv) (outcomes : MatrixCase → Outcome) :
    Sh State Unit := do
  matrixRun env outcomes
  Sh.modify fun s => s.write readmeMd (matrixReadme env s.status)
  Sh.modify (writeChecksums d)
  exitUnlessPass

end Harness
