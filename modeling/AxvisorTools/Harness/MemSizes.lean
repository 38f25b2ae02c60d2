import AxvisorTools.Harness.Case

/-!
# The memory-size harness

`verify-x86-linux-host-linux-mem-sizes.sh` boots a rootfs guest once for each size in `MEM_SIZES`. A
size that Python cannot read as a number ends the script.
-/

namespace Harness

open Shell Py Regex

/-- The variables of the script, and the sizes with the outcomes of their runs; `special` is
`str.upper` for the characters that are not ASCII. -/
structure MemSizesEnv where
  special : Char → Text
  runId : Text
  outDir : Text
  buildDir : Text
  timeoutSecs : Text
  qemuAccel : Text
  qemuCpu : Text
  qemuMem : Text
  memSizes : List (Text × Outcome)
  maxPracticalSize : List (Text × Outcome)

/-! ## Sizes -/

/-- The suffixes of a size, in the order in which they are tried. -/
def multipliers : List (Text × Nat) :=
  [("KB", 1024), ("MB", 1024 * 1024), ("GB", 1024 * 1024 * 1024),
    ("K", 1024), ("M", 1024 * 1024), ("G", 1024 * 1024 * 1024)]

/-- The number of bytes of a size. -/
def sizeBytes (special : Char → Text) (size : Text) : Option Int :=
  let value := (strip size).filter (· ≠ '_')
  let up := upper special value
  match multipliers.find? fun m => m.1 <:+ up with
  | some m => (intStr 0 (up.take (up.length - m.1.length))).map (· * m.2)
  | none => intStr 0 value

/-- `f"{n:08x}"`. -/
def hex08 (n : Int) : Text :=
  let digits := Nat.toDigits 16 n.natAbs
  if n < 0 then '-' :: digits.leftpad 7 '0' else digits.leftpad 8 '0'

/-- `size_to_hex`. -/
def sizeToHex (special : Char → Text) (size : Text) : Option Text :=
  (sizeBytes special size).map fun n => "0x" ++ hex08 n

/-- `case_name_for_size`: every run of other characters becomes a dash, and none is left at the
ends. -/
def caseNameForSize (size : Text) : Text :=
  let lower := size.map Char.toLower
  ['-'].intercalate ((lower.splitOnP fun c => !(c.isLower || c.isDigit)).filter (· ≠ []))

/-! ## Cases -/

/-- `validate_case`. -/
def validateMemCase (size expectedHex : Text) (file : String → Option Text) : Bool :=
  fileHas (file vmConfig) (lit expectedHex) &&
    hasLine (file "result.txt") "AXVISOR_X86_NATIVE_GUEST_PASS=1" &&
    hasLine (file "result.txt") "ROOT_MOUNT_FS=ext4" &&
    hasLine (file "result.txt") "SMOKE_WRITE_TEST=1" &&
    has (file "qemu.log") "VFS: Mounted root (ext4 filesystem)" &&
    has (file "qemu.log") "AXVISOR_X86_NATIVE_GUEST_PASS=1" &&
    fileLacks (file "qemu.log") crashMarkersTrace &&
    fileHas (file "run.out") (fixed ("memmap=" ++ size ++ "$0x40000000"))

/-- `run_size_case`, for a size with hexadecimal value `expectedHex`. -/
def sizeCase (size expectedHex : Text) : Case where
  id := "L1-MEM-" ++ caseNameForSize size
  kept := ["qemu.log", "result.txt", vmConfig]
  keptOnSuccess := ["guest-rootfs.img"]
  validate := validateMemCase size expectedHex
  passReason := "x86 native Linux guest passed with identity guest RAM size " ++ size
  failReason :=
    "smoke script exited successfully but preserved artifacts failed semantic validation"
  rcReason := "x86 native Linux guest memory-size smoke failed rc="
  passArtifacts := ["run.out", "qemu.log", "result.txt", vmConfig]
  failArtifacts := ["run.out", "qemu.log", "result.txt", vmConfig]

def runSizeCase (special : Char → Text) (c : Text × Outcome) : Sh State Unit :=
  match sizeToHex special c.1 with
  | some expectedHex => (sizeCase c.1 expectedHex).run c.2
  | none => Sh.plain 1

/-! ## The script -/

/-- A list of words, separated by single blanks. -/
def sizeWords (sizes : List (Text × Outcome)) : Text := [' '].intercalate (sizes.map (·.1))

/-- `$ALL_SIZES`. -/
def MemSizesEnv.allSizes (env : MemSizesEnv) : List (Text × Outcome) :=
  env.memSizes ++ env.maxPracticalSize

/-- The head of `summary.txt`. -/
def memSizesHead (env : MemSizesEnv) : Text :=
  echoes ["RUN_ID=".toList ++ env.runId, "OUT_DIR=".toList ++ env.outDir,
    "BUILD_DIR=".toList ++ env.buildDir, "MEM_SIZES=".toList ++ sizeWords env.memSizes,
    "MAX_PRACTICAL_SIZE=".toList ++ sizeWords env.maxPracticalSize, "TIMEOUT_SECS=".toList ++ env.timeoutSecs,
    "QEMU_ACCEL=".toList ++ env.qemuAccel,
    "QEMU_CPU=".toList ++ (if env.qemuCpu = [] then "auto".toList else env.qemuCpu),
    "QEMU_MEM=".toList ++ env.qemuMem, []]

/-- The text of `README.md`. -/
def memSizesReadme (env : MemSizesEnv) : Text :=
  hereDoc ["This harness validates that the Linux-host AxVisor adapter can boot an x86",
    "Linux rootfs guest with multiple identity-mapped guest RAM sizes.", "",
    "Each case forces `SKIP_BUILD=0` because the generated VM TOML is embedded in",
    "`axvisor_adapter.ko`. Reusing a module built for a different memory size would",
    "produce invalid evidence.", "", "Validated condition per size:", "",
    "- generated TOML contains the expected identity memory-region size.",
    "- host kernel command line reserves the same range with `memmap=SIZE$0x40000000`.",
    "- guest reaches `AXVISOR_X86_NATIVE_GUEST_PASS=1`.",
    "- guest mounts ext4 rootfs and passes the write test.",
    "- qemu log has no panic/Oops/BUG/failure marker.", ""] ++
  echo ("Configured sizes: `" ++ sizeWords env.memSizes ++
    (if sizeWords env.maxPracticalSize = [] then [] else ' ' :: sizeWords env.maxPracticalSize) ++
    "`") ++
  hereDoc ["", "Primary files:", "", "- `summary.txt`", "- `summary.csv`", "- `summary.json`",
    "- per-case `run.out`, `qemu.log`, `result.txt`, and generated TOML", "- `SHA256SUMS`"]

def appendMemSizesStatus : Sh State Unit :=
  Sh.modify fun s => s.append summaryTxt (echo ("MEM_SIZES_STATUS=".toList ++
    (if s.status = .pass then "pass".toList else "fail".toList)))

def memSizesCases (env : MemSizesEnv) : Sh State Unit := do
  startCases
  Sh.modify (State.append summaryTxt (memSizesHead env))
  Sh.each (runSizeCase env.special) env.allSizes
  appendMemSizesStatus

/-- `verify-x86-linux-host-linux-mem-sizes.sh`. -/
def memSizes (d : Digest) (env : MemSizesEnv) : Sh State Unit := do
  memSizesCases env
  writeReadme "# x86 AxVisor Layer1 Memory Size Evidence" env.runId (memSizesReadme env)
  finalizeSummary decodeTests (summaryDocument "axvisor-x86-l1-mem-sizes" env.runId)
  finalizeChecksums d
  exitUnlessPass

end Harness
