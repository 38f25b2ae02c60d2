import AxvisorTools.Eval.Main

/-!
# What the importers ask for

`importRows env out`: the items that the importers record, with the verdict on each, as a function of
the evidence and of what `OUT_DIR` held before. Three importers copy their files into `OUT_DIR` and
read the copies, so that a file left there by an earlier run takes the place of one that the evidence
lacks (`copied`). `Bad env id`: something in the evidence speaks against item `id`, whether its
importer looks at it or not.
-/

namespace Eval

open Shell Py Harness

/-- An item of the matrix and the verdict on it. -/
abbrev Row := Text × Verdict

/-- The items are skipped when the evidence is no directory. -/
def rowsOf (src : Evidence) (items : List Text) (rows : Tree → List Row) : List Row :=
  match src.tree with
  | none => items.map fun id => (id, .skip)
  | some t => rows t

/-- The importer does nothing when its variable is not set. -/
def optionalRows (src : Evidence) (items : List Text) (rows : Tree → List Row) : List Row :=
  if src.path = [] then [] else rowsOf src items rows

/-- A file below `dst` after the import: that of the evidence, or else what was there. -/
def copied (t : Tree) (out : Files) (dst name : String) : Option Text :=
  (t.files.lookup name.toList).or (out.lookup (dst.toList ++ '/' :: name.toList))

/-! ## Boot evidence -/

/-- The items of `import_x86_evidence` that depend on the copied files, with the two serial logs. -/
def x86Rows (file : String → Option Text) (fcSerial tinySerial : Option Text) : List Row :=
  [("L1-ROOTFS-BLK",
      rootfsBlkVerdict (file "X86-L1-ROOTFS/result.txt") (file "X86-L1-ROOTFS/qemu.log")),
    ("L1-INITRAMFS", initramfsVerdict (file "X86-L1-INITRAMFS/qemu.log")),
    ("FC-INIT", fcInitVerdict (file "X86-L2-KVM-INIT/qemu.log")),
    ("FC-INITRAMFS", fcInitramfsVerdict (file "X86-L2-FC-RUN/firecracker-result.txt") fcSerial
      (file "X86-L2-FC-RUN/qemu.log")),
    ("FC-ROOTFS-TINY", (fcRootfsTiny (file "X86-L2-FC-ROOTFS-TINY/firecracker-result.txt")
      tinySerial (file "X86-L2-FC-ROOTFS-TINY/qemu.log")).1)]

/-- A serial log, decoded from the log of QEMU when it is missing. -/
def serialOr (serialLog qemuLog : Option Text) : Option Text :=
  serialLog.or (qemuLog.bind decodeSerial)

def evidenceRows (src : Evidence) (out : Files) : List Row :=
  rowsOf src ["HARNESS-X86-IMPORT"] fun t =>
    let file := copied t out "functional/x86-imported"
    ("HARNESS-X86-IMPORT", verdict (has (t.files.lookup summaryTxt) "MATRIX_STATUS=pass")) ::
      x86Rows file
        (serialOr (file "X86-L2-FC-RUN/firecracker-serial-decoded.log")
          (file "X86-L2-FC-RUN/qemu.log"))
        (serialOr (file "X86-L2-FC-ROOTFS-TINY/firecracker-serial-decoded.log")
          (file "X86-L2-FC-ROOTFS-TINY/qemu.log"))

def rerunVerdict (env : Env) : Verdict :=
  if env.runX86Matrix ≠ "1" then .skip else verdict (env.matrixRerun.status = 0)

def fcRootfsVerdict (env : Env) : Verdict :=
  if env.runFirecrackerRootfs = "1" then verdict (env.firecrackerRun.status = 0)
  else if env.firecrackerRootfsLog.content.isSome then
    verdict (has env.firecrackerRootfsLog.content "AXVISOR_FIRECRACKER_GUEST_PASS=1")
  else .skip

def tinyRows (src : Evidence) (out : Files) : List Row :=
  rowsOf src ["FC-ROOTFS-TINY-STANDALONE"] fun t =>
    let file := copied t out "functional/firecracker-rootfs-tiny"
    [("FC-ROOTFS-TINY-STANDALONE", verdict (tinyInitOk (file "firecracker-result.txt")
      (file "firecracker-serial-decoded.log") (file "qemu.log")))]

/-! ## The KVM ABI smoke test -/

/-- The negative tests, and whether the log reports them. -/
def kvmNegatives (qemuLog : Option Text) : List (Bool × Text) :=
  [(has qemuLog "NEG_UNKNOWN_IOCTL_ENOTTY=1", "NEG-UNKNOWN-IOCTL"),
    (has qemuLog "NEG_WRONG_FD_CLASS_KVM_CREATE_VCPU=1" &&
      has qemuLog "NEG_WRONG_FD_CLASS_VM_GET_API_VERSION=1", "NEG-WRONG-FD-CLASS"),
    (has qemuLog "NEG_BAD_MEMSLOT_EINVAL=1", "NEG-BAD-MEMSLOT"),
    (has qemuLog "NEG_DUP_VCPU_EEXIST=1", "NEG-DUP-VCPU"),
    (has qemuLog "NEG_BAD_REGS_XCR0_EINVAL=1", "NEG-BAD-REGS"),
    (has qemuLog "KVM_FD_LIFETIME_VCPU_AFTER_VM_CLOSE=1", "NEG-CLOSE-RACE")]

/-- The negative tests of the KVM ABI. -/
def kvmNegativeIds : List Text :=
  ["NEG-UNKNOWN-IOCTL", "NEG-WRONG-FD-CLASS", "NEG-BAD-MEMSLOT",
    "NEG-DUP-VCPU", "NEG-BAD-REGS", "NEG-CLOSE-RACE"]

/-- Only what is reported is recorded. -/
def reported (tests : List (Bool × Text)) : List Row :=
  tests.flatMap fun test => if test.1 then [(test.2, .pass)] else []

def kvmRows (dir : Evidence) (out : Files) : List Row :=
  rowsOf dir ["KVM-ABI-SMOKE"] fun t =>
    let qemuLog := copied t out "abi/kvm-abi-smoke" "qemu.log"
    ("KVM-ABI-SMOKE", verdict (kvmAbiSmokeOk qemuLog)) ::
      if kvmAbiSmokeOk qemuLog then reported (kvmNegatives qemuLog) else []

/-! ## Stability and memory sizes -/

/-- No file that is a `cases/rootfs-*/result.txt` of the evidence, or lies below a directory of that
name, has the pass line, though there is a directory `cases`. -/
def stabilityAborts (src : Evidence) : Bool :=
  src.tree.any fun t => t.isDir "cases" && t.files.entries.all fun f =>
    !(((t.files.keys ++ t.dirs).any fun p =>
      isRootfsResult p && (f.1 = p ∨ (p ++ ['/']) <+: f.1)) && grep (Regex.whole guestPassLine) f.2)

def stabilityRows (src : Evidence) : List Row :=
  rowsOf src ["STAB-NATIVE-CYCLE-20", "STAB-NATIVE-CYCLE-1000"] fun t =>
    let counts : Text × Text := if t.isDir "cases" then
        (substitute (rootfsOutputs src.path t).1, substitute (rootfsOutputs src.path t).2)
      else ("0", "0")
    [("STAB-NATIVE-CYCLE-20", stabilityVerdict t counts.1 counts.2),
      ("STAB-NATIVE-CYCLE-1000", .skip)]

/-- The validation of one case directory. -/
def memCasePasses (t : Tree) (name : Text) : Bool :=
  memCaseOk (t.files.lookup (name ++ "/result.txt"))
    (t.files.lookup (name ++ "/qemu.log"))

/-- The case directories, in the order of the loop. -/
def memCases (t : Tree) : List Text := sortNames (t.children [] "L1-MEM-")

/-- The verdict of `import_x86_mem_sizes`. -/
def memSizesVerdict (t : Tree) : Verdict :=
  verdict (has (t.files.lookup summaryTxt) "MEM_SIZES_STATUS=pass" &&
    (memCases t).countP (memCasePasses t) > 0)

def memSizesRows (src : Evidence) : List Row :=
  rowsOf src ["L1-MEM-SIZES"] fun t => [("L1-MEM-SIZES", memSizesVerdict t)]

/-! ## Output of other harnesses -/

/-- The verdicts of `import_x86_functional` on a tree. -/
def functionalVerdicts (fs : Files) : List Row :=
  let verdictOf (caseLine : String) (markers : Option Text → Option Text → Bool) :=
    functionalVerdict (fs.lookup summaryTxt) caseLine
      (markers (fs.lookup "L1-FUNCTIONAL/result.txt".toList)
        (fs.lookup "L1-FUNCTIONAL/qemu.log".toList))
  [("L1-TIMER", verdictOf "CASE=L1-TIMER" timerMarkers),
    ("L1-IRQ", verdictOf "CASE=L1-IRQ" irqMarkers),
    ("L1-MMIO", verdictOf "CASE=L1-MMIO" mmioMarkers)]

def functionalIds : List Text := ["L1-TIMER", "L1-IRQ", "L1-MMIO"]

def smpVerdicts (fs : Files) : List Row :=
  [("L1-SMP-2-BOOT", smpBootVerdict (fs.lookup summaryTxt)
      (fs.lookup "L1-SMP-2-BOOT/qemu.log".toList)),
    ("L1-SMP-2", smpVerdict (fs.lookup summaryJson) (fs.lookup "L1-SMP-2/result.txt".toList)
      (fs.lookup "L1-SMP-2/qemu.log".toList)),
    ("FC-SMP-2", .skip)]

def smpIds : List Text := ["L1-SMP-2-BOOT", "L1-SMP-2", "FC-SMP-2"]

def scaleIds : List Text := ["L1-SMP-SCALE", "SCALE-SMP"]

def scaleVerdicts (fs : Files) : List Row := scaleIds.map fun id => (id, smpScaleVerdict fs)

def poweroffRows (src : Evidence) : List Row :=
  optionalRows src ["L1-POWEROFF"] fun t =>
    [("L1-POWEROFF", poweroffVerdict (t.files.lookup summaryTxt)
      (t.files.lookup "L1-POWEROFF/result.txt".toList)
      (t.files.lookup "L1-POWEROFF/qemu.log".toList))]

def archRows (src : Evidence) : List Row :=
  rowsOf src ["ARCH-STATIC-CHECKS"] fun t =>
    [("ARCH-STATIC-CHECKS", archVerdict (t.files.lookup summaryJson)
      (t.files.lookup "dependency-report.txt".toList))]

/-! ## All importers -/

/-- The items of the importers that read their evidence where it is, after those of Firecracker and
the KVM ABI. -/
def laterRows (env : Env) : List Row :=
  stabilityRows env.x86NativeStabilityDir ++ (memSizesRows env.x86MemSizesDir ++
    (optionalRows env.x86FunctionalDir functionalIds (functionalVerdicts ·.files) ++
    (rowsOf env.x86SmpDir smpIds (smpVerdicts ·.files) ++
    (optionalRows env.x86SmpScaleDir scaleIds (scaleVerdicts ·.files) ++
    (poweroffRows env.x86PoweroffDir ++ (("KVM-ABI-COVERAGE".toList, .pass) ::
    archRows env.archStaticDir))))))

/-- What the importers record, in their order. -/
def importRows (env : Env) (out : Files) : List Row :=
  ("HARNESS-X86-RERUN".toList, rerunVerdict env) :: (evidenceRows env.x86EvidenceDir out ++
    (("FC-ROOTFS-BLK".toList, fcRootfsVerdict env) :: (tinyRows env.firecrackerRootfsTinyDir out ++
    (kvmRows env.kvmAbiSmokeDir out ++ laterRows env))))

/-! ## Evidence that speaks against an item -/

/-- The harness outputs with the items they are evidence for, and the tests of their `summary.json`
on which an item rests: the one with its id, or all whose ids start in this way. -/
def harnessTests (env : Env) : List (Evidence × Text × (Text → Prop)) :=
  [(env.x86FunctionalDir, "L1-TIMER", (· = "L1-TIMER")),
    (env.x86FunctionalDir, "L1-IRQ", (· = "L1-IRQ")),
    (env.x86FunctionalDir, "L1-MMIO", (· = "L1-MMIO")),
    (env.x86SmpDir, "L1-SMP-2-BOOT", (· = "L1-SMP-2-BOOT")),
    (env.x86SmpDir, "L1-SMP-2", (· = "L1-SMP-2")),
    (env.x86SmpScaleDir, "L1-SMP-SCALE", ("L1-SMP-SCALE-" <+: ·)),
    (env.x86SmpScaleDir, "SCALE-SMP", ("L1-SMP-SCALE-" <+: ·)),
    (env.x86PoweroffDir, "L1-POWEROFF", (· = "L1-POWEROFF")),
    (env.x86MemSizesDir, "L1-MEM-SIZES", ("L1-MEM-" <+: ·)),
    (env.archStaticDir, "ARCH-STATIC-CHECKS", ("ARCH-" <+: ·))]

/-- The `summary.json` of the evidence gives a test with such an id a status other than `pass`. -/
def Denies (src : Evidence) (ids : Text → Prop) : Prop :=
  ∃ t doc tests test id status, src.tree = some t ∧
    (t.files.lookup summaryJson).bind Json.loads = some doc ∧ doc.get "tests" = some (.arr tests) ∧
    test ∈ tests ∧ test.get "id" = some (.str id) ∧ ids id ∧
    test.get "status" = some (.str status) ∧ status ≠ "pass"

/-- There is bad or failing evidence for the item. -/
inductive Bad (env : Env) : Text → Prop
  /-- The evidence alone does not meet what the importer asks for. -/
  | unmet {id : Text} : (id, .pass) ∉ importRows env ∅ → Bad env id
  | memCase {t : Tree} {name : Text} : env.x86MemSizesDir.tree = some t →
      name ∈ t.children [] "L1-MEM-" → memCasePasses t name = false → Bad env "L1-MEM-SIZES"
  | cycle {t : Tree} {name : Text} : env.x86NativeStabilityDir.tree = some t →
      name ∈ t.children "cases/" "rootfs-" →
      hasLine (t.files.lookup ("cases/" ++ name ++ "/result.txt")) guestPassLine = false →
      Bad env "STAB-NATIVE-CYCLE-20"
  | crashed : env.runFirecrackerRootfs ≠ "1" →
      fileHas env.firecrackerRootfsLog.content crashMarkersFull = true → Bad env "FC-ROOTFS-BLK"
  | denied {src : Evidence} {id : Text} {ids : Text → Prop} : (src, id, ids) ∈ harnessTests env →
      Denies src ids → Bad env id

end Eval
