import AxvisorTools.Eval.Ledger
import AxvisorTools.Shell.Tree

/-!
# The environment of the paper evaluation

The variables of `run-axvisor-paper-evaluation.sh`, the evidence they name, and the outcomes of the
programs it may run. Evidence lies outside `OUT_DIR`, and the logs and results it consists of are
regular files or missing.
-/

namespace Eval

open Shell Harness

/-- What `capture_environment` finds out about the machine. -/
structure Host where
  uname : Text
  kernel : Text
  lscpu : Text
  memory : Text
  dateUtc : Text
  dateLocal : Text
  gitRevisions : Text
  /-- `docs/x86-axvisor-test-matrix.md`. -/
  matrixDoc : Option Text
  platform : Text
  machine : Text
  python : Text
  gitHead : Text

structure Env where
  rootDir : Text
  outDir : Text
  runId : Text
  suite : Text
  runX86Matrix : Text
  runFirecrackerRootfs : Text
  x86EvidenceDir : Evidence
  x86NativeStabilityDir : Evidence
  x86MemSizesDir : Evidence
  x86FunctionalDir : Evidence
  x86SmpDir : Evidence
  x86SmpScaleDir : Evidence
  x86PoweroffDir : Evidence
  archStaticDir : Evidence
  kvmAbiSmokeDir : Evidence
  kvmAbiSmokeOut : LogFile
  firecrackerRootfsLog : LogFile
  firecrackerRootfsTinyDir : Evidence
  host : Host
  /-- The rerun of the test matrix, if `RUN_X86_MATRIX=1`. -/
  matrixRerun : Outcome
  /-- The Firecracker rootfs run, if `RUN_FIRECRACKER_ROOTFS=1`. -/
  firecrackerRun : Outcome

/-- `record_test` with the texts of the script. -/
def record (id : String) (status : Verdict) (reason : Text) (artifacts : List String) :
    Sh State Unit :=
  recordTest ⟨id.toList, status, reason, artifacts.map String.toList⟩

def writeFile (path : String) (content : Text) : Sh State Unit :=
  Sh.modify (State.write path.toList content)

def appendFile (path : String) (content : Text) : Sh State Unit :=
  Sh.modify (State.append path.toList content)

/-- `cp -a "$src/name" "$dst/name" 2>/dev/null || true`, or `copy_if_exists … || true`. -/
def copyNamed (t : Tree) (src dst : Text) : Sh State Unit :=
  Sh.modify (State.copy (t.files.lookup src) dst)

/-- Files that are copied below `dst` under the names they have in the evidence. -/
def copyEach (t : Tree) (dst : String) (names : List String) : Sh State Unit :=
  Sh.each (fun name => copyNamed t name.toList (dst.toList ++ '/' :: name.toList)) names

end Eval
