import AxvisorTools.Eval.ImportX86

/-!
# Importing the output of other harnesses

The importers of `run-axvisor-paper-evaluation.sh` for the directories that the functional, SMP,
SMP scale, poweroff and architecture harnesses leave behind. They derive their verdicts from
searches over these directories; each verdict is a definition of its own (`smpVerdict`, …).
-/

namespace Eval

open Shell Harness Regex

/-- `report.txt` of an import: the id, the source and the matching lines of `summary.txt`, which fits
in one buffer of `grep`. -/
def importReport (id : String) (src : Text) (t : Tree) (r : Regex.Re) : Text :=
  echoes ["TEST_ID=" ++ id.toList, "SOURCE=" ++ src] ++
    ((t.files.lookup summaryTxt).map (grepLines .oneBuffer r)).getD []

def caseMark : Regex.Re := lit "CASE="
def statusMark : Regex.Re := lit "STATUS="
def reasonMark : Regex.Re := lit "REASON="

/-- The files at the top of every harness output. -/
def topFiles : List String :=
  ["README.md", "summary.txt", "summary.csv", "summary.json", "SHA256SUMS"]

/-! ## Timer, interrupts and MMIO -/

/-- What `timer_status` asks of `result.txt` and `qemu.log`. -/
def timerMarkers (result qemuLog : Option Text) : Bool :=
  hasLine result "TIMER_CHECK=1" && hasLine result "TIMER_MONOTONIC_OK=1" &&
    hasLine result "TIMER_SLEEP_WAKE_OK=1" && fileHas qemuLog pitDue && fileHas qemuLog pitInject &&
    fileLacks qemuLog crashMarkersFull

/-- What `irq_status` asks of them. -/
def irqMarkers (result qemuLog : Option Text) : Bool :=
  hasLine result "IRQ_CHECK=1" && hasLine result "IRQ_VIRTIO_DELTA_POSITIVE=1" &&
    fileHasAny qemuLog [irqPoll, irqPending] && fileHasAny qemuLog [intxPending, irqEoi] &&
    fileLacks qemuLog crashMarkersFull

/-- What `mmio_status` asks of them. -/
def mmioMarkers (result qemuLog : Option Text) : Bool :=
  hasLine result "MMIO_CHECK=1" && hasLine result "MMIO_VIRTIO_RW_ITERATIONS=8" &&
    hasLine result "MMIO_VIRTIO_RW_OK=1" && fileHas qemuLog virtioVda &&
    fileLacks qemuLog crashMarkersFull

/-- `timer_status`, `irq_status` and `mmio_status`: the id and some passed case in `summary.txt`, and
the markers. -/
def functionalVerdict (summary : Option Text) (caseLine : String) (markers : Bool) : Verdict :=
  verdict (has summary caseLine && has summary "STATUS=pass" && markers)

/-- `import_x86_functional`. -/
def importX86Functional (src : Evidence) : Sh State Unit :=
  if src.path = [] then pure ()
  else
    match src.tree with
    | none => do
      record "L1-TIMER" .skip
        ("x86 timer/irq/mmio evidence directory not found: ".toList ++ src.path) []
      record "L1-IRQ" .skip
        ("x86 timer/irq/mmio evidence directory not found: ".toList ++ src.path) []
      record "L1-MMIO" .skip
        ("x86 timer/irq/mmio evidence directory not found: ".toList ++ src.path) []
    | some t => do
      copyEach t "functional/x86-functional" (topFiles ++ ["L1-FUNCTIONAL/run.out",
        "L1-FUNCTIONAL/qemu.log", "L1-FUNCTIONAL/result.txt",
        "L1-FUNCTIONAL/x86_64-linux-host-vm.generated.toml"])
      writeFile "functional/x86-functional/report.txt" (importReport "L1-TIMER,L1-IRQ,L1-MMIO"
        src.path t (alts (lit "FUNCTIONAL_STATUS=".toList) [caseMark, statusMark, reasonMark]))
      let summary := t.files.lookup summaryTxt
      let result := t.files.lookup "L1-FUNCTIONAL/result.txt".toList
      let qemuLog := t.files.lookup "L1-FUNCTIONAL/qemu.log".toList
      let artifacts := ["functional/x86-functional/report.txt",
        "functional/x86-functional/L1-FUNCTIONAL/qemu.log",
        "functional/x86-functional/L1-FUNCTIONAL/result.txt"]
      record "L1-TIMER" (functionalVerdict summary "CASE=L1-TIMER" (timerMarkers result qemuLog))
        "imported x86 native guest timer monotonic/sleep and PIT injection evidence" artifacts
      record "L1-IRQ" (functionalVerdict summary "CASE=L1-IRQ" (irqMarkers result qemuLog))
        "imported x86 native virtio-blk interrupt delivery evidence" artifacts
      record "L1-MMIO" (functionalVerdict summary "CASE=L1-MMIO" (mmioMarkers result qemuLog))
        "imported x86 native repeated virtio-blk I/O evidence without unhandled MMIO/device faults"
        artifacts

/-! ## SMP -/

/-- What `boot_status` of `import_x86_smp` asks of the log of the boot case. -/
def smpBootMarkers (qemuLog : Option Text) : Bool :=
  has qemuLog "smp: Brought up 1 node, 2 CPUs" &&
    has qemuLog "AXVISOR_X86_NATIVE_GUEST_EXPECTED_CPUS=2" &&
    has qemuLog "AXVISOR_X86_NATIVE_GUEST_CPUINFO_PROCESSOR_COUNT=2" &&
    has qemuLog "AXVISOR_X86_NATIVE_GUEST_CPU_ONLINE_COUNT=2" &&
    has qemuLog "AXVISOR_X86_NATIVE_GUEST_PASS=1" && fileLacks qemuLog crashMarkersFull

/-- `boot_status`, with `summary.txt`. -/
def smpBootVerdict (summary qemuLog : Option Text) : Verdict :=
  verdict (has summary "CASE=L1-SMP-2-BOOT" && has summary "STATUS=pass" && smpBootMarkers qemuLog)

/-- What `status` of `import_x86_smp` asks of the files of the rootfs case. -/
def smpMarkers (result qemuLog : Option Text) : Bool :=
  hasLine result guestPassLine && hasLine result "EXPECTED_GUEST_CPUS=2" &&
    hasLine result "CPUINFO_PROCESSOR_COUNT=2" && hasLine result "CPU_ONLINE_COUNT=2" &&
    has qemuLog "VFS: Mounted root (ext4 filesystem)" && fileLacks qemuLog crashMarkersFull

/-- A field `status` of a test or of the whole suite. -/
def statusPass (summary : Option Text) : Bool := has summary "\"status\": \"pass\""

/-- `status`, with `summary.json`. -/
def smpVerdict (summary result qemuLog : Option Text) : Verdict :=
  verdict (statusPass summary && smpMarkers result qemuLog)

def fcSmpReason : Text := "not implemented in current Firecracker AxVisor KVM frontend test"

/-- The records of `import_x86_smp` without evidence. -/
def skipSmp (reason : Text) : Sh State Unit := do
  record "L1-SMP-2-BOOT" .skip reason []
  record "L1-SMP-2" .skip reason []
  record "FC-SMP-2" .skip fcSmpReason []

/-- `import_x86_smp`. -/
def importX86Smp (src : Evidence) : Sh State Unit :=
  if src.path = [] then skipSmp "X86_SMP_DIR not provided"
  else
    match src.tree with
    | none => skipSmp ("x86 SMP evidence directory not found: ".toList ++ src.path)
    | some t => do
      copyEach t "functional/x86-smp" (topFiles ++ ["L1-SMP-2-BOOT/qemu.log",
        "L1-SMP-2-BOOT/run.out", "L1-SMP-2-BOOT/x86_64-linux-host-vm.generated.toml",
        "L1-SMP-2/result.txt", "L1-SMP-2/qemu.log", "L1-SMP-2/run.out",
        "L1-SMP-2/x86_64-linux-host-vm.generated.toml"])
      writeFile "functional/x86-smp/report.txt" (importReport "L1-SMP-2" src.path t
        (alts (lit "SMP_STATUS=".toList) [caseMark, statusMark, reasonMark]))
      record "L1-SMP-2-BOOT" (smpBootVerdict (t.files.lookup summaryTxt)
          (t.files.lookup "L1-SMP-2-BOOT/qemu.log".toList))
        "imported x86 native 2-vCPU initramfs guest boot evidence"
        ["functional/x86-smp/report.txt", "functional/x86-smp/summary.json",
          "functional/x86-smp/L1-SMP-2-BOOT/qemu.log",
          "functional/x86-smp/L1-SMP-2-BOOT/x86_64-linux-host-vm.generated.toml"]
      record "L1-SMP-2" (smpVerdict (t.files.lookup summaryJson)
          (t.files.lookup "L1-SMP-2/result.txt".toList) (t.files.lookup "L1-SMP-2/qemu.log".toList))
        "imported x86 native 2-vCPU SMP Linux guest evidence"
        ["functional/x86-smp/report.txt", "functional/x86-smp/summary.json",
          "functional/x86-smp/L1-SMP-2/qemu.log",
          "functional/x86-smp/L1-SMP-2/x86_64-linux-host-vm.generated.toml"]
      record "FC-SMP-2" .skip fcSmpReason []

/-- What `import_x86_smp_scale` asks of the files of a case. -/
def smpScaleMarkers (result qemuLog : Option Text) (cpus : Nat) : Bool :=
  hasLine result (assign "EXPECTED_GUEST_CPUS" cpus) &&
    hasLine result (assign "CPUINFO_PROCESSOR_COUNT" cpus) &&
    hasLine result (assign "CPU_ONLINE_COUNT" cpus) && hasLine result "ROOT_MOUNT_FS=ext4" &&
    hasLine result "SMOKE_WRITE_TEST=1" && fileLacks qemuLog crashMarkersFull

/-- The checks of `import_x86_smp_scale` for one number of CPUs. -/
def smpScaleCaseOk (summary result qemuLog : Option Text) (cpus : Nat) : Bool :=
  fileHas summary (lit ("\"id\": \"L1-SMP-SCALE-" ++ Nat.toDigits 10 cpus ++ ['"'])) &&
    statusPass summary && smpScaleMarkers result qemuLog cpus

/-- A file of the case for `cpus` CPUs. -/
def scaleFile (cpus : Nat) (file : String) : Text :=
  "L1-SMP-SCALE-" ++ Nat.toDigits 10 cpus ++ '/' :: file.toList

/-- `status` of `import_x86_smp_scale`. -/
def smpScaleVerdict (files : Files) : Verdict :=
  let summary := files.lookup summaryJson
  verdict (statusPass summary && [1, 2, 4, 8].all fun cpus =>
    smpScaleCaseOk summary (files.lookup (scaleFile cpus "result.txt"))
      (files.lookup (scaleFile cpus "qemu.log")) cpus)

/-- `import_x86_smp_scale`. -/
def importX86SmpScale (src : Evidence) : Sh State Unit :=
  if src.path = [] then pure ()
  else
    match src.tree with
    | none => do
      record "L1-SMP-SCALE" .skip
        ("x86 SMP scale evidence directory not found: " ++ src.path) []
      record "SCALE-SMP" .skip
        ("x86 SMP scale evidence directory not found: " ++ src.path) []
    | some t => do
      copyEach t "functional/x86-smp-scale" topFiles
      writeFile "functional/x86-smp-scale/report.txt" (importReport "L1-SMP-SCALE" src.path t
        (alts caseMark [statusMark, reasonMark, lit "SMP_SCALE_STATUS="]))
      let artifacts := ["functional/x86-smp-scale/report.txt",
        "functional/x86-smp-scale/summary.json"]
      record "L1-SMP-SCALE" (smpScaleVerdict t.files)
        "imported x86 native 1/2/4/8-vCPU Linux guest scale evidence" artifacts
      record "SCALE-SMP" (smpScaleVerdict t.files)
        "imported x86 native 1/2/4/8-vCPU scale evidence as SMP scalability datapoint" artifacts

/-! ## Poweroff -/

/-- `status` of `import_x86_poweroff`. -/
def poweroffVerdict (summary result qemuLog : Option Text) : Verdict :=
  verdict (has summary "POWEROFF_STATUS=pass" && hasLine result guestPassLine &&
    hasLine result "ROOT_MOUNT_FS=ext4" && hasLine result "SMOKE_WRITE_TEST=1" &&
    has qemuLog "AXVISOR_X86_NATIVE_GUEST_STAGE=after-sync" &&
    has qemuLog "AXVISOR_X86_NATIVE_GUEST_STAGE=before-exit-port" &&
    has qemuLog "AXVISOR_X86_NATIVE_GUEST_PASS=1" && has qemuLog "vcpus::exit_reason system_down" &&
    has qemuLog "kthread main entry returned" && fileLacks qemuLog crashMarkersFull)

/-- `import_x86_poweroff`. -/
def importX86Poweroff (src : Evidence) : Sh State Unit :=
  if src.path = [] then pure ()
  else
    match src.tree with
    | none =>
      record "L1-POWEROFF" .skip
        ("x86 poweroff evidence directory not found: ".toList ++ src.path) []
    | some t => do
      copyEach t "functional/x86-poweroff" (topFiles ++ ["L1-POWEROFF/qemu.log",
        "L1-POWEROFF/run.out", "L1-POWEROFF/result.txt",
        "L1-POWEROFF/x86_64-linux-host-vm.generated.toml"])
      writeFile "functional/x86-poweroff/report.txt" (importReport "L1-POWEROFF" src.path t
        (alts (lit "POWEROFF_STATUS=".toList) [caseMark, statusMark, reasonMark]))
      record "L1-POWEROFF" (poweroffVerdict (t.files.lookup summaryTxt)
          (t.files.lookup "L1-POWEROFF/result.txt".toList)
          (t.files.lookup "L1-POWEROFF/qemu.log".toList))
        "imported x86 native guest-triggered poweroff evidence"
        ["functional/x86-poweroff/report.txt", "functional/x86-poweroff/summary.json",
          "functional/x86-poweroff/L1-POWEROFF/qemu.log",
          "functional/x86-poweroff/L1-POWEROFF/result.txt"]

/-! ## Architecture -/

/-- `status` of `import_architecture_static`. -/
def archVerdict (summary report : Option Text) : Verdict :=
  verdict (statusPass summary && has report "ARCH-NO-HOST-IMPORTS: pass" &&
    has report "ARCH-NO-HOST-TYPES: pass" && has report "ARCH-NO-KVM-IN-CORE: pass" &&
    has report "ARCH-BACKEND-BOUNDARY: pass" && has report "ARCH-UNUSED-HOSTIF: pass")

/-- `import_architecture_static`. -/
def importArchitectureStatic (src : Evidence) : Sh State Unit :=
  if src.path = [] then do
    writeFile "architecture/dependency-report.txt" (echoes ["ARCH-NO-HOST-IMPORTS: not run",
      "ARCH-NO-HOST-TYPES: not run", "ARCH-NO-KVM-IN-CORE: not run",
      "ARCH-BACKEND-BOUNDARY: not run", "ARCH-UNUSED-HOSTIF: not run"])
    writeFile "architecture/loc-report.csv" (echoes ["component,total_loc,new_loc,modified_core_loc,backend_loc,arch_loc,frontend_loc,number_of_hostif_methods,number_of_new_core_dependencies", "not-measured,0,0,0,0,0,0,0,0"])
    record "ARCH-STATIC-CHECKS" .skip "ARCH_STATIC_DIR not provided"
      ["architecture/dependency-report.txt", "architecture/loc-report.csv"]
  else
    match src.tree with
    | none =>
      record "ARCH-STATIC-CHECKS" .skip
        ("architecture static evidence directory not found: ".toList ++ src.path) []
    | some t => do
      copyEach t "architecture" ["dependency-report.txt", "dependency-report.json",
        "forbidden-findings.csv", "host-api-calls.csv", "hostif-methods.csv", "loc-report.csv",
        "summary.json"]
      record "ARCH-STATIC-CHECKS" (archVerdict (t.files.lookup summaryJson)
          (t.files.lookup "dependency-report.txt".toList))
        "imported source-level architecture boundary and LOC evidence"
        ["architecture/dependency-report.txt", "architecture/dependency-report.json",
          "architecture/forbidden-findings.csv", "architecture/host-api-calls.csv",
          "architecture/hostif-methods.csv", "architecture/loc-report.csv"]

end Eval
