import AxvisorTools.Eval.Import

/-!
# Importing x86 test evidence

The importers of `run-axvisor-paper-evaluation.sh` for the KVM ABI smoke test, the stability runs,
the memory sizes and the output of the functional, SMP and poweroff harnesses.
-/

namespace Eval

open Shell Harness Regex

/-! ## The KVM ABI smoke test -/

/-- The markers of a passed smoke test. -/
def kvmAbiSmokeOk (qemuLog : Option Text) : Bool :=
  has qemuLog "AXVISOR_KVM_API_SMOKE_PASS=1" && has qemuLog "AXVISOR_KVM_MEM_VCPU_SMOKE_PASS=1" &&
    has qemuLog "AXVISOR_KVM_NEGATIVE_SMOKE_PASS=1" && has qemuLog "KVM_X86_INIT_IOCTL_SMOKE=1" &&
    has qemuLog "AXVISOR_KVM_ABI_SMOKE_QEMU_PASS=1" && fileLacks qemuLog crashMarkersFull

/-- The negative tests that a passed smoke test reports one by one. -/
def recordKvmNegatives (qemuLog : Option Text) : Sh State Unit := do
  Sh.when (has qemuLog "NEG_UNKNOWN_IOCTL_ENOTTY=1")
    (record "NEG-UNKNOWN-IOCTL" .pass "unknown KVM ioctl on /dev/kvm failed with ENOTTY"
      ["abi/kvm-abi-smoke/qemu.log"])
  Sh.when (has qemuLog "NEG_WRONG_FD_CLASS_KVM_CREATE_VCPU=1" &&
      has qemuLog "NEG_WRONG_FD_CLASS_VM_GET_API_VERSION=1")
    (record "NEG-WRONG-FD-CLASS" .pass "KVM ioctl on wrong fd class failed with ENOTTY"
      ["abi/kvm-abi-smoke/qemu.log"])
  Sh.when (has qemuLog "NEG_BAD_MEMSLOT_EINVAL=1")
    (record "NEG-BAD-MEMSLOT" .pass "unaligned KVM_SET_USER_MEMORY_REGION failed with EINVAL"
      ["abi/kvm-abi-smoke/qemu.log"])
  Sh.when (has qemuLog "NEG_DUP_VCPU_EEXIST=1")
    (record "NEG-DUP-VCPU" .pass "duplicate KVM_CREATE_VCPU id failed with EEXIST"
      ["abi/kvm-abi-smoke/qemu.log"])
  Sh.when (has qemuLog "NEG_BAD_REGS_XCR0_EINVAL=1")
    (record "NEG-BAD-REGS" .pass "invalid x86 XCR0 state failed with EINVAL"
      ["abi/kvm-abi-smoke/qemu.log"])
  Sh.when (has qemuLog "KVM_FD_LIFETIME_VCPU_AFTER_VM_CLOSE=1")
    (record "NEG-CLOSE-RACE" .pass "vCPU fd remained valid after closing its parent VM fd"
      ["abi/kvm-abi-smoke/qemu.log"])

/-- `copyEach` for a directory that may be missing. -/
def copyEachFrom (src : Evidence) (dst : String) (names : List String) : Sh State Unit :=
  match src.tree with
  | some t => copyEach t dst names
  | none => pure ()

/-- `record_kvm_abi_smoke_status`. -/
def recordKvmAbiSmokeStatus (dir : Evidence) (out : LogFile) : Sh State Unit := do
  copyEachFrom dir "abi/kvm-abi-smoke" ["qemu.log", "run.out"]
  let s ← Sh.get
  -- `out_log` is set by a copied `run.out` or by `KVM_ABI_SMOKE_OUT`
  let outLog := (dir.tree.isSome && (imported "abi/kvm-abi-smoke" s "run.out").isSome) ||
    out.content.isSome
  Sh.when out.content.isSome (copyPlain out.content "abi/kvm-abi-smoke/run.out")
  let qemuLog := imported "abi/kvm-abi-smoke" s "qemu.log"
  let ok := dir.tree.isSome && kvmAbiSmokeOk qemuLog
  record "KVM-ABI-SMOKE" (if dir.tree.isSome then verdict ok else .skip)
    (if ok then
      "verified standalone KVM ABI smoke markers for API/capability, memslot, vCPU, eventfd/irqfd, negative errno semantics, and KVM_RUN"
    else if dir.tree.isSome then "imported KVM ABI smoke log does not contain all pass markers"
    else "not run in this harness invocation")
    (if outLog then ["abi/kvm-abi-smoke/qemu.log", "abi/kvm-abi-smoke/run.out"]
    else ["abi/kvm-abi-smoke/qemu.log"])
  Sh.when ok (recordKvmNegatives qemuLog)

/-! ## Stability -/

/-- The paths of the pattern `cases/rootfs-*/result.txt`. -/
def isRootfsResult (path : Text) : Bool :=
  match path.splitOn '/' with
  | [cases, dir, file] =>
    cases = "cases" ∧ "rootfs-" <+: dir ∧ file = "result.txt"
  | _ => false

def guestPassLine : Text := "AXVISOR_X86_NATIVE_GUEST_PASS=1"

/-- The search of `"$src"/cases/rootfs-*/result.txt`, each a file or a directory. -/
def rootfsPassed (t : Tree) : Nat × List Text :=
  grepRecursive (whole guestPassLine) t ((t.files.keys ++ t.dirs).filter isRootfsResult)

/-- What `find` and `grep` print there, counted by `wc -l`. -/
def rootfsOutputs (src : Text) (t : Tree) : Text × Text :=
  (echo (wcLines (above ((t.children "cases/" "rootfs-").map fun n => src ++ "/cases/" ++ n))),
    echo (wcLines (above ((rootfsPassed t).2.map fun p => src ++ '/' :: p))))

/-- `rootfs_total` and `rootfs_pass_count`. Without a match `grep` fails, and with it the pipeline
and the assignment. -/
def rootfsCounts (src : Text) (t : Tree) : Sh State (Text × Text) :=
  if t.isDir "cases" then do
    let total ← capture [0, 0] (rootfsOutputs src t).1
    let passCount ← capture [(rootfsPassed t).1, 0] (rootfsOutputs src t).2
    pure (total, passCount)
  else pure ("0", "0")

/-- The last cycle, from an initramfs, has passed. -/
def initramfsPass (t : Tree) : Bool :=
  has (t.files.lookup "cases/initramfs/qemu.log".toList) "AXVISOR_X86_NATIVE_GUEST_PASS=1"

/-- `status` of `import_x86_native_stability`. -/
def stabilityVerdict (t : Tree) (total passCount : Text) : Verdict :=
  verdict (total = "20" && passCount = "20" && initramfsPass t &&
    has (t.files.lookup "ERROR_SCAN.txt".toList) "NO_MATCHES")

/-- `import_x86_native_stability`. -/
def importX86NativeStability (src : Evidence) : Sh State Unit :=
  match src.tree with
  | none => do
    record "STAB-NATIVE-CYCLE-20" .skip
      ("existing x86 native stability evidence directory not found: ".toList ++ src.path) []
    record "STAB-NATIVE-CYCLE-1000" .skip
      "not run; only STAB-NATIVE-CYCLE-20 evidence is currently imported" []
  | some t => do
    copyEach t "stability/native-cycle-20" ["README.md", "RUN_INFO.txt", "summary.txt",
      "ERROR_SCAN.txt", "CHECKS.md", "SHA256SUMS"]
    copyNamed t "cases/rootfs-1/result.txt" "stability/native-cycle-20/rootfs-1-result.txt"
    copyNamed t "cases/rootfs-20/result.txt" "stability/native-cycle-20/rootfs-20-result.txt"
    copyNamed t "cases/initramfs/qemu.log" "stability/native-cycle-20/initramfs-qemu.log"
    let (total, passCount) ← rootfsCounts src.path t
    writeFile "stability/native-cycle-20/report.txt" (echoes [
      "TEST_ID=STAB-NATIVE-CYCLE-20", "SOURCE=".toList ++ src.path,
      "ROOTFS_TOTAL=".toList ++ total, "ROOTFS_PASS_COUNT=".toList ++ passCount,
      "ERROR_SCAN=" ++ ((t.files.lookup "ERROR_SCAN.txt".toList).map substitute).getD "missing",
      if initramfsPass t then "INITRAMFS_PASS=1" else "INITRAMFS_PASS=0"])
    record "STAB-NATIVE-CYCLE-20" (stabilityVerdict t total passCount)
      "imported 20 rootfs cycles plus 1 initramfs x86 native stability evidence"
      ["stability/native-cycle-20/report.txt", "stability/native-cycle-20/summary.txt",
        "stability/native-cycle-20/ERROR_SCAN.txt"]
    record "STAB-NATIVE-CYCLE-1000" .skip
      "not run; current imported native stability evidence covers 20 rootfs cycles plus 1 initramfs cycle" []

/-! ## Memory sizes -/

/-- `$(find "$src" -maxdepth 1 -type d -name 'L1-MEM-*' -printf '%f\n' | sort | tr '\n' ' ')`; the
top directory itself is printed when its own name matches. -/
def memCaseNames (src : Text) (t : Tree) : Text :=
  let top := basename (src.rdropWhile (· == '/'))
  let names := (if "L1-MEM-" <+: top then [top] else []) ++ t.children [] "L1-MEM-"
  tr '\n' ' ' (sort (above names))

/-- The markers of a passed memory-size case. -/
def memCaseOk (result qemuLog : Option Text) : Bool :=
  hasLine result guestPassLine && hasLine result "ROOT_MOUNT_FS=ext4" &&
    hasLine result "SMOKE_WRITE_TEST=1" && has qemuLog "VFS: Mounted root (ext4 filesystem)" &&
    fileLacks qemuLog crashMarkersFull

/-- The body of the loop over `"$src"/L1-MEM-*`: `true` if the case counts as passed. -/
def importMemCase (t : Tree) (name : Text) : Sh State Bool := do
  let caseId := substitute (echo name)
  Sh.each (fun file => copyNamed t (name ++ '/' :: file)
      ("functional/x86-mem-sizes/" ++ caseId ++ '/' :: file))
    ["result.txt", "qemu.log", "run.out",
      "x86_64-linux-host-vm.generated.toml"]
  let ok := memCaseOk (t.files.lookup (name ++ "/result.txt"))
    (t.files.lookup (name ++ "/qemu.log"))
  appendFile "functional/x86-mem-sizes/report.txt"
    (echo (caseId ++ (if ok then "=pass" else "=fail")))
  pure ok

/-- The loop, with `pass_count` so far. -/
def importMemCases (t : Tree) : List Text → Nat → Sh State Nat
  | [], passCount => pure passCount
  | name :: names, passCount => do
    let ok ← importMemCase t name
    importMemCases t names (if ok then passCount + 1 else passCount)

/-- `import_x86_mem_sizes`. It also copies the SMP scale cases, should there be any. -/
def importX86MemSizes (src : Evidence) : Sh State Unit :=
  if src.path = [] then record "L1-MEM-SIZES" .skip "X86_MEM_SIZES_DIR not provided" []
  else
    match src.tree with
    | none =>
      record "L1-MEM-SIZES" .skip
        ("x86 memory-size evidence directory not found: " ++ src.path) []
    | some t => do
      copyEach t "functional/x86-mem-sizes" ["README.md", "summary.txt", "summary.csv",
        "summary.json", "SHA256SUMS"]
      Sh.each (fun cpus => copyEach t "functional/x86-mem-sizes"
        ["L1-SMP-SCALE-" ++ cpus ++ "/result.txt", "L1-SMP-SCALE-" ++ cpus ++ "/qemu.log",
          "L1-SMP-SCALE-" ++ cpus ++ "/run.out",
          "L1-SMP-SCALE-" ++ cpus ++ "/x86_64-linux-host-vm.generated.toml"]) ["1", "2", "4", "8"]
      let passCases ← capture [0, 0, 0] (memCaseNames src.path t)
      writeFile "functional/x86-mem-sizes/report.txt" (echoes ["TEST_ID=L1-MEM-SIZES",
        "SOURCE=" ++ src.path, "CASES=" ++ passCases])
      let passCount ← importMemCases t (sortNames (t.children [] "L1-MEM-")) 0
      appendFile "functional/x86-mem-sizes/report.txt"
        (echo ("PASS_COUNT=" ++ Nat.toDigits 10 passCount))
      record "L1-MEM-SIZES"
        (verdict (has (t.files.lookup summaryTxt) "MEM_SIZES_STATUS=pass" && passCount > 0))
        ("imported x86 native memory-size evidence for: " ++ passCases)
        ["functional/x86-mem-sizes/report.txt", "functional/x86-mem-sizes/summary.txt",
          "functional/x86-mem-sizes/summary.json"]

end Eval
