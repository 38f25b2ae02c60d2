import AxvisorTools.Harness.Case

/-!
# The SMP harnesses

`verify-x86-linux-host-linux-smp.sh` boots a guest with several CPUs from an initramfs and from a
rootfs; `verify-x86-linux-host-linux-smp-scale.sh` boots rootfs guests with each number of CPUs in
a set.
-/

namespace Harness

open Shell Py Regex

/-! ## SMP -/

/-- The variables of the script, and the outcomes of its two runs. -/
structure SmpEnv where
  runId : Text
  guestCpus : Nat
  guestPhysCpuIds : Text
  qemuSmp : Text
  bootRun : Outcome
  rootfsRun : Outcome

/-- `$X86_GUEST_CPU_NUM`. -/
def SmpEnv.cpus (env : SmpEnv) : Text := Nat.toDigits 10 env.guestCpus

/-- `grep -Fq "[verify] qemu smp: …" run.out`. -/
def qemuSmpLine (runOut : Option Text) (qemuSmp : Text) : Bool :=
  fileHas runOut (lit ("[verify] qemu smp: " ++ qemuSmp))

/-- What both harnesses check of a rootfs guest with `cpus` CPUs; they differ in the crash markers. -/
def rootfsGuestOk (crash : Re) (cpus : Nat) (qemuSmp : Text) (file : String → Option Text) : Bool :=
  hasLine (file vmConfig) ("cpu_num = " ++ Nat.toDigits 10 cpus) &&
    hasLine (file "result.txt") "AXVISOR_X86_NATIVE_GUEST_PASS=1" &&
    hasLine (file "result.txt") (assign "EXPECTED_GUEST_CPUS" cpus) &&
    hasLine (file "result.txt") (assign "CPUINFO_PROCESSOR_COUNT" cpus) &&
    hasLine (file "result.txt") (assign "CPU_ONLINE_COUNT" cpus) &&
    hasLine (file "result.txt") "ROOT_MOUNT_FS=ext4" &&
    hasLine (file "result.txt") "SMOKE_WRITE_TEST=1" &&
    has (file "qemu.log") "VFS: Mounted root (ext4 filesystem)" &&
    has (file "qemu.log") "AXVISOR_X86_NATIVE_GUEST_PASS=1" &&
    fileLacks (file "qemu.log") crash && qemuSmpLine (file "run.out") qemuSmp

/-- `validate_smp_case`. -/
def validateSmpCase (cpus : Nat) (qemuSmp : Text) : (String → Option Text) → Bool :=
  rootfsGuestOk crashMarkers cpus qemuSmp

/-- `validate_smp_boot_case`. -/
def validateSmpBootCase (cpus : Nat) (qemuSmp : Text) (file : String → Option Text) : Bool :=
  hasLine (file vmConfig) ("cpu_num = " ++ Nat.toDigits 10 cpus) &&
    fileHas (file "qemu.log")
      (lit ("smp: Brought up 1 node, " ++ Nat.toDigits 10 cpus ++ " CPUs")) &&
    fileHas (file "qemu.log") (lit (assign "AXVISOR_X86_NATIVE_GUEST_EXPECTED_CPUS" cpus)) &&
    fileHas (file "qemu.log")
      (lit (assign "AXVISOR_X86_NATIVE_GUEST_CPUINFO_PROCESSOR_COUNT" cpus)) &&
    fileHas (file "qemu.log") (lit (assign "AXVISOR_X86_NATIVE_GUEST_CPU_ONLINE_COUNT" cpus)) &&
    has (file "qemu.log") "AXVISOR_X86_NATIVE_GUEST_PASS=1" &&
    fileLacks (file "qemu.log") crashMarkers && qemuSmpLine (file "run.out") qemuSmp

/-- What `run_smp_boot_case` records. -/
def smpBootText (cpus : Text) : CaseText where
  id := "L1-SMP-" ++ cpus ++ "-BOOT"
  passReason := "x86 native Linux initramfs guest booted and reported exactly " ++ cpus ++
    " online CPUs"
  failReason := "initramfs smoke exited successfully but SMP boot validation failed"
  rcReason := "x86 native Linux guest SMP initramfs smoke failed rc="
  passArtifacts := ["run.out", "qemu.log", vmConfig]
  failArtifacts := ["run.out", "qemu.log", vmConfig]

/-- `run_smp_boot_case`. -/
def runSmpBootCase (env : SmpEnv) : Case where
  toCaseText := smpBootText env.cpus
  kept := ["qemu.log", vmConfig]
  keptOnSuccess := []
  validate := validateSmpBootCase env.guestCpus env.qemuSmp

/-- What `run_smp_rootfs_case` records. -/
def smpRootfsText (cpus : Text) : CaseText where
  id := "L1-SMP-" ++ cpus
  passReason := "x86 native Linux rootfs guest exposed and online exactly " ++ cpus ++
    " CPUs"
  failReason := "rootfs smoke exited successfully but SMP semantic validation failed"
  rcReason := "x86 native Linux guest SMP rootfs smoke failed rc="
  passArtifacts := ["run.out", "qemu.log", "result.txt", vmConfig]
  failArtifacts := ["run.out", "qemu.log", vmConfig]

/-- `run_smp_rootfs_case`. -/
def runSmpRootfsCase (env : SmpEnv) : Case where
  toCaseText := smpRootfsText env.cpus
  kept := ["qemu.log", "result.txt", vmConfig]
  keptOnSuccess := ["guest-rootfs.img"]
  validate := validateSmpCase env.guestCpus env.qemuSmp

/-- The text of `README.md`. -/
def smpReadme (env : SmpEnv) : Text :=
  hereDoc ["This harness validates native x86 Linux-host AxVisor guest SMP behavior in two",
    "layers:", ""] ++
  echoes ["- `L1-SMP-" ++ env.cpus ++
      "-BOOT`: initramfs guest reaches userspace and",
    "  reports exactly `" ++ env.cpus ++ "` processors in `/proc/cpuinfo` and",
    "  exactly `" ++ env.cpus ++ "` online CPUs from",
    "  `/sys/devices/system/cpu/online`.",
    "- `L1-SMP-" ++ env.cpus ++
      "`: rootfs guest additionally proves virtio-blk",
    "  rootfs I/O, ext4 mount, and write-test completion under SMP.",
    [],
    "The suite status is `pass` only if both layers pass.",
    [],
    "Configuration:",
    [],
    "- guest CPUs: `" ++ env.cpus ++ "`",
    "- guest phys CPU IDs: `" ++ env.guestPhysCpuIds ++ "`",
    "- QEMU host SMP: `" ++ env.qemuSmp ++ "`"] ++
  hereDoc ["", "Primary files:", "", "- `summary.txt`", "- `summary.csv`", "- `summary.json`",
    "- per-case `run.out`, `qemu.log`, `result.txt`, and generated TOML", "- `SHA256SUMS`"]

def smpCases (env : SmpEnv) : Sh State Unit := do
  startCases
  (runSmpBootCase env).run env.bootRun
  (runSmpRootfsCase env).run env.rootfsRun

/-- `verify-x86-linux-host-linux-smp.sh`. -/
def smp (d : Digest) (env : SmpEnv) : Sh State Unit := do
  smpCases env
  writeReadme "# x86 AxVisor Layer1 SMP Evidence" env.runId (smpReadme env)
  finalizeSummary decodeTests (summaryDocument "axvisor-x86-l1-smp" env.runId)
  finalizeChecksums d
  exitStatus

/-! ## SMP scale -/

/-- The run id, and the numbers in `SMP_SCALE_CPUS` with the outcomes of their runs. -/
structure SmpScaleEnv where
  runId : Text
  cases : List (Nat × Outcome)

/-- The numbers of CPUs, as words. -/
def SmpScaleEnv.cpuSet (env : SmpScaleEnv) : List Text :=
  env.cases.map fun c => Nat.toDigits 10 c.1

/-- `validate_rootfs_scale_case`; the historical 1-vCPU configuration binds to host CPU 1, so that
QEMU always gets two CPUs at least. -/
def validateRootfsScaleCase (cpus : Nat) : (String → Option Text) → Bool :=
  rootfsGuestOk crashMarkersFull cpus (Nat.toDigits 10 (if cpus < 2 then 2 else cpus))

/-- What `run_scale_case` records. -/
def scaleText (cpus : Text) : CaseText where
  id := "L1-SMP-SCALE-" ++ cpus
  passReason := "x86 native Linux rootfs guest exposed " ++ cpus ++
    " online vCPU(s), mounted ext4, and completed write-test"
  failReason :=
    "rootfs smoke exited successfully but SMP scale semantic validation failed for " ++
      cpus ++ " vCPU(s)"
  rcReason := "x86 native Linux guest SMP scale case failed for " ++ cpus ++
    " vCPU(s), rc="
  passArtifacts := ["run.out", "qemu.log", "result.txt", vmConfig]
  failArtifacts := ["run.out", "qemu.log", "result.txt", vmConfig]

/-- `run_scale_case`. -/
def runScaleCase (cpus : Nat) : Case where
  toCaseText := scaleText (Nat.toDigits 10 cpus)
  kept := ["qemu.log", "result.txt", vmConfig]
  keptOnSuccess := []
  validate := validateRootfsScaleCase cpus

/-- The text of `README.md`. -/
def smpScaleReadme (env : SmpScaleEnv) : Text :=
  hereDoc ["This harness runs the x86 native rootfs verifier across:", ""] ++
  echo ("`" ++ [' '].intercalate env.cpuSet ++ "`") ++
  hereDoc ["", "Each case validates guest CPU enumeration plus rootfs virtio-blk/ext4/write-test",
    "completion with the requested guest vCPU count.", "", "Primary files:", "",
    "- `summary.json`", "- `summary.txt`", "- `summary.csv`",
    "- per-case `run.out`, `qemu.log`, `result.txt`, and generated TOML", "- `SHA256SUMS`"]

/-- The value `finalize_summary` writes. -/
def smpScaleDocument (env : SmpScaleEnv) (status : Overall) (tests : List Json) : Json :=
  .obj [("suite", .str "axvisor-x86-l1-smp-scale"), ("run_id", .str env.runId),
    ("status", .str status.text), ("cpu_set", .arr (env.cpuSet.map .str)),
    ("counts", countsJson tests), ("tests", .arr tests)]

def smpScaleCases (env : SmpScaleEnv) : Sh State Unit := do
  startCases
  Sh.each (fun c => (runScaleCase c.1).run c.2) env.cases

/-- `verify-x86-linux-host-linux-smp-scale.sh`. -/
def smpScale (d : Digest) (env : SmpScaleEnv) : Sh State Unit := do
  smpScaleCases env
  writeReadme "# x86 AxVisor Layer1 SMP Scale Evidence" env.runId (smpScaleReadme env)
  finalizeSummary decodeTests (smpScaleDocument env)
  finalizeChecksums d
  exitStatus

end Harness
