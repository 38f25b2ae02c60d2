import AxvisorTools.Eval.Env
import AxvisorTools.Harness.Markers

/-!
# Importing boot evidence

The importers of `run-axvisor-paper-evaluation.sh` for the x86 test matrix, Firecracker, the KVM
ABI smoke test and the stability runs. An assignment from a pipeline and a plain `cp` are commands
that end the script when they fail (`capture`, `copyPlain`); the other copies are followed by
`|| true`.
-/

namespace Eval

open Shell Py Harness Regex

/-- A file below `OUT_DIR`. -/
def outFile (s : State) (path : String) : Option Text := s.out.lookup path.toList

/-- A file that an importer has copied below `dst` and reads there. -/
def imported (dst : String) (s : State) (name : String) : Option Text :=
  s.out.lookup (dst.toList ++ '/' :: name.toList)

/-- `cp -a src "$OUT_DIR/path"`. -/
def copyPlain (content : Option Text) (path : String) : Sh State Unit :=
  match content with
  | some c => writeFile path c
  | none => Sh.plain 1

/-- `var="$(a | b | …)"`: the statuses of the commands and the output of the last one. -/
def capture (statuses : List Nat) (output : Text) : Sh State Text := do
  Sh.plain (pipefail statuses)
  pure (substitute output)

/-! ## Serial output -/

/-- `IoWrite \{ port: Port\(1016\), width: Byte, data: (\d+) \}`. -/
def ioWrite : Regex.Re :=
  let digit : Regex.Re := .one fun c => (decimal? c).isSome
  .seq (lit "IoWrite \x7b port: Port(1016), width: Byte, data: ")
    (.seq (.group 1 (.seq digit (.star true digit))) (lit " \x7d"))

/-- The byte that a line of the log reports, or none; an exception for an oversized number. -/
def serialByte (line : Text) : Option (List Char) :=
  match search ioWrite line with
  | none => some []
  | some (start, e) => (intOfDigits (Re.groupText start e 1)).map fun n => [Char.ofNat (n % 256)]

/-- The embedded Python of `decode_firecracker_serial_from_qemu_log`. -/
def decodeSerial (log : Text) : Option Text :=
  ((fileLines (universalNewlines log)).mapM serialByte).map List.flatten

/-- The file `out` is decoded from `qemuLog`, when it is missing. -/
def decoded (dst qemuLog out : String) (s : State) : State :=
  s.copy (if (imported dst s out).isSome then none else (imported dst s qemuLog).bind decodeSerial)
    (dst.toList ++ '/' :: out.toList)

/-- `decode_firecracker_serial_from_qemu_log "$dst/qemuLog" "$dst/out" || true`. -/
def decodeFirecrackerSerial (dst qemuLog out : String) : Sh State Unit :=
  Sh.modify (decoded dst qemuLog out)

/-! ## The x86 test matrix -/

/-- The markers of a tiny-init rootfs run. -/
def tinyInitOk (result serialLog qemuLog : Option Text) : Bool :=
  has result "FIRECRACKER_GUEST_BOOT_MODE=rootfs" &&
    has result "FIRECRACKER_ROOTFS_INIT_KIND=tiny" && has result "TINY_PASS=1" &&
    has serialLog "VFS: Mounted root" && has serialLog "Run /init" &&
    fileLacks qemuLog crashMarkersFull

/-- The files that `import_x86_evidence` copies. -/
def x86EvidenceFiles : List String :=
  ["README.md", "summary.txt", "SHA256SUMS", "X86-L1-ROOTFS/result.txt", "X86-L1-ROOTFS/qemu.log",
    "X86-L1-ROOTFS/run.out", "X86-L1-INITRAMFS/qemu.log", "X86-L1-INITRAMFS/run.out",
    "X86-L2-KVM-INIT/qemu.log", "X86-L2-KVM-INIT/run.out", "X86-L2-FC-RUN/qemu.log",
    "X86-L2-FC-RUN/run.out", "X86-L2-FC-RUN/firecracker-serial-decoded.log",
    "X86-L2-FC-RUN/firecracker-result.txt", "X86-L2-FC-ROOTFS-TINY/qemu.log",
    "X86-L2-FC-ROOTFS-TINY/run.out", "X86-L2-FC-ROOTFS-TINY/firecracker-serial-decoded.log",
    "X86-L2-FC-ROOTFS-TINY/firecracker-result.txt"]

/-- The status and the reason of `FC-ROOTFS-TINY`. -/
def fcRootfsTiny (result serialLog qemuLog : Option Text) : Verdict × Text :=
  if result.isSome || serialLog.isSome || qemuLog.isSome then
    if tinyInitOk result serialLog qemuLog then
      (.pass, "verified unmodified Firecracker rootfs boot reaches static tiny init through AxVisor /dev/kvm")
    else
      (.fail, "imported Firecracker rootfs tiny-init evidence exists but semantic validation failed")
  else (.skip, "Firecracker rootfs tiny-init evidence not present in imported x86 matrix")

/-- The status of `L1-ROOTFS-BLK`. -/
def rootfsBlkVerdict (result qemuLog : Option Text) : Verdict :=
  verdict (has result "AXVISOR_X86_NATIVE_GUEST_PASS=1" && has result "ROOT_MOUNT_FS=ext4" &&
    has result "SMOKE_WRITE_TEST=1" && has qemuLog "VFS: Mounted root" &&
    fileLacks qemuLog crashMarkersFull)

/-- The status of `L1-INITRAMFS`. -/
def initramfsVerdict (qemuLog : Option Text) : Verdict :=
  verdict (has qemuLog "AXVISOR_X86_NATIVE_GUEST_PASS=1" && fileLacks qemuLog crashMarkersFull)

/-- The status of `FC-INIT`. -/
def fcInitVerdict (qemuLog : Option Text) : Verdict :=
  verdict (has qemuLog "AXVISOR_KVM_FIRECRACKER_INIT_SMOKE_PASS=1" &&
    has qemuLog "KVM_FIRECRACKER_X86_INIT_ABI=1" &&
    has qemuLog "AXVISOR_KVM_X86_FIRECRACKER_INIT_QEMU_PASS=1" &&
    fileLacks qemuLog crashMarkersFull)

/-- The status of `FC-INITRAMFS`. -/
def fcInitramfsVerdict (result serialLog qemuLog : Option Text) : Verdict :=
  verdict ((has result "AXVISOR_FIRECRACKER_GUEST_PASS=1" ||
    has serialLog "AXVISOR_FIRECRACKER_GUEST_PASS=1" || has serialLog "FC_PASS=1") &&
    fileLacks qemuLog crashMarkersFull)

/-- `import_x86_evidence`. -/
def importX86Evidence (src : Evidence) : Sh State Unit :=
  match src.tree with
  | none =>
    record "HARNESS-X86-IMPORT" .skip
      ("existing x86 evidence directory not found: " ++ src.path) []
  | some t => do
    copyEach t "functional/x86-imported" x86EvidenceFiles
    decodeFirecrackerSerial "functional/x86-imported" "X86-L2-FC-RUN/qemu.log"
      "X86-L2-FC-RUN/firecracker-serial-decoded.log"
    decodeFirecrackerSerial "functional/x86-imported" "X86-L2-FC-ROOTFS-TINY/qemu.log"
      "X86-L2-FC-ROOTFS-TINY/firecracker-serial-decoded.log"
    let matrixPass := has (t.files.lookup summaryTxt) "MATRIX_STATUS=pass"
    record "HARNESS-X86-IMPORT" (verdict matrixPass)
      (if matrixPass then "imported existing x86 matrix evidence summary"
      else "x86 matrix evidence imported but summary does not report pass")
      ["functional/x86-imported/summary.txt"]
    let s ← Sh.get
    let file := imported "functional/x86-imported" s
    record "L1-ROOTFS-BLK"
      (rootfsBlkVerdict (file "X86-L1-ROOTFS/result.txt") (file "X86-L1-ROOTFS/qemu.log"))
      "verified native x86 Linux guest ext4 rootfs mount and write marker"
      ["functional/x86-imported/X86-L1-ROOTFS/result.txt",
        "functional/x86-imported/X86-L1-ROOTFS/qemu.log"]
    record "L1-INITRAMFS" (initramfsVerdict (file "X86-L1-INITRAMFS/qemu.log"))
      "verified native x86 Linux guest initramfs pass marker"
      ["functional/x86-imported/X86-L1-INITRAMFS/qemu.log"]
    record "FC-INIT" (fcInitVerdict (file "X86-L2-KVM-INIT/qemu.log"))
      "verified Firecracker-required KVM init ABI markers through AxVisor /dev/kvm"
      ["functional/x86-imported/X86-L2-KVM-INIT/qemu.log"]
    record "FC-INITRAMFS" (fcInitramfsVerdict (file "X86-L2-FC-RUN/firecracker-result.txt")
        (file "X86-L2-FC-RUN/firecracker-serial-decoded.log") (file "X86-L2-FC-RUN/qemu.log"))
      "verified unmodified Firecracker initramfs Linux guest pass marker decoded from AxVisor serial exits"
      ["functional/x86-imported/X86-L2-FC-RUN/qemu.log",
        "functional/x86-imported/X86-L2-FC-RUN/firecracker-serial-decoded.log",
        "functional/x86-imported/X86-L2-FC-RUN/firecracker-result.txt"]
    let tiny := fcRootfsTiny (file "X86-L2-FC-ROOTFS-TINY/firecracker-result.txt")
      (file "X86-L2-FC-ROOTFS-TINY/firecracker-serial-decoded.log")
      (file "X86-L2-FC-ROOTFS-TINY/qemu.log")
    record "FC-ROOTFS-TINY" tiny.1 tiny.2
      ["functional/x86-imported/X86-L2-FC-ROOTFS-TINY/qemu.log",
        "functional/x86-imported/X86-L2-FC-ROOTFS-TINY/firecracker-serial-decoded.log",
        "functional/x86-imported/X86-L2-FC-ROOTFS-TINY/firecracker-result.txt"]

/-- `run_x86_matrix`. -/
def runX86Matrix (env : Env) : Sh State Unit :=
  if env.runX86Matrix ≠ "1" then
    record "HARNESS-X86-RERUN" .skip "RUN_X86_MATRIX=0; imported existing evidence instead" []
  else do
    Sh.modify (State.graft "functional/x86-matrix-rerun/" env.matrixRerun.files)
    if env.matrixRerun.status = 0 then
      record "HARNESS-X86-RERUN" .pass "reran x86 matrix successfully"
        ["functional/x86-matrix-rerun/summary.txt"]
    else
      record "HARNESS-X86-RERUN" .fail "x86 matrix rerun failed"
        ["functional/x86-matrix-rerun/summary.txt"]

/-! ## Firecracker -/

/-- `record_firecracker_rootfs_status`. -/
def recordFirecrackerRootfsStatus (env : Env) : Sh State Unit :=
  if env.runFirecrackerRootfs = "1" then do
    writeFile "functional/firecracker-rootfs/run.out" env.firecrackerRun.output
    Sh.modify (State.graft "functional/firecracker-rootfs/run/" env.firecrackerRun.files)
    if env.firecrackerRun.status = 0 then
      record "FC-ROOTFS-BLK" .pass "Firecracker virtio-blk rootfs passed"
        ["functional/firecracker-rootfs/run.out", "functional/firecracker-rootfs/run/qemu.log"]
    else
      record "FC-ROOTFS-BLK" .fail "Firecracker virtio-blk rootfs did not pass"
        ["functional/firecracker-rootfs/run.out", "functional/firecracker-rootfs/run/qemu.log"]
  else if env.firecrackerRootfsLog.content.isSome then do
    copyPlain env.firecrackerRootfsLog.content "functional/firecracker-rootfs/qemu.log"
    if has env.firecrackerRootfsLog.content "AXVISOR_FIRECRACKER_GUEST_PASS=1" then
      record "FC-ROOTFS-BLK" .pass "imported Firecracker rootfs pass log"
        ["functional/firecracker-rootfs/qemu.log"]
    else
      record "FC-ROOTFS-BLK" .fail "imported Firecracker rootfs log does not contain pass marker"
        ["functional/firecracker-rootfs/qemu.log"]
  else
    record "FC-ROOTFS-BLK" .skip
      "not run in this harness invocation; current known gap is virtio-blk request completion past /dev/vda probe"
      []

/-- `record_firecracker_rootfs_tiny_status`. -/
def recordFirecrackerRootfsTinyStatus (src : Evidence) : Sh State Unit :=
  if src.path = [] then
    record "FC-ROOTFS-TINY-STANDALONE" .skip
      "FIRECRACKER_ROOTFS_TINY_DIR not provided; no standalone tiny-init rootfs evidence imported" []
  else
    match src.tree with
    | none =>
      record "FC-ROOTFS-TINY-STANDALONE" .skip
        ("Firecracker rootfs tiny evidence directory not found: " ++ src.path) []
    | some t => do
      copyEach t "functional/firecracker-rootfs-tiny" ["qemu.log",
        "firecracker-serial-decoded.log", "firecracker-result.txt", "run.out", "README.md",
        "SHA256SUMS"]
      let s ← Sh.get
      let file := imported "functional/firecracker-rootfs-tiny" s
      let ok := tinyInitOk (file "firecracker-result.txt") (file "firecracker-serial-decoded.log")
        (file "qemu.log")
      record "FC-ROOTFS-TINY-STANDALONE" (verdict ok)
        (if ok then
          "verified standalone unmodified Firecracker rootfs tiny-init evidence through AxVisor /dev/kvm"
        else
          "imported standalone Firecracker rootfs tiny-init evidence exists but semantic validation failed")
        ["functional/firecracker-rootfs-tiny/qemu.log",
          "functional/firecracker-rootfs-tiny/firecracker-serial-decoded.log",
          "functional/firecracker-rootfs-tiny/firecracker-result.txt"]

end Eval
