import AxvisorTools.Harness.Case

/-!
# The functional harness

`verify-x86-linux-host-linux-functional.sh`: one run of a rootfs guest, from which three verdicts are
derived. When the run itself fails, all three are recorded as failed and the script finishes early.
-/

namespace Harness

open Shell Py Regex

/-- The run id and the outcome of the smoke script. -/
structure FunctionalEnv where
  runId : Text
  run : Outcome

def functionalId : Text := "L1-FUNCTIONAL"

def guestPass (result : Option Text) : Bool := hasLine result "AXVISOR_X86_NATIVE_GUEST_PASS=1"

/-- `validate_timer`. -/
def validateTimer (result qemuLog : Option Text) : Bool :=
  guestPass result && hasLine result "TIMER_CHECK=1" && hasLine result "TIMER_MONOTONIC_OK=1" &&
    hasLine result "TIMER_SLEEP_WAKE_OK=1" && fileHas qemuLog pitDue && fileHas qemuLog pitInject &&
    fileLacks qemuLog crashMarkersFull

/-- `validate_irq`. -/
def validateIrq (result qemuLog : Option Text) : Bool :=
  guestPass result && hasLine result "IRQ_CHECK=1" &&
    hasLine result "IRQ_VIRTIO_DELTA_POSITIVE=1" && fileHasAny qemuLog [irqPoll, irqPending] &&
    fileHasAny qemuLog [intxPending, irqEoi] && fileLacks qemuLog crashMarkersFull

/-- `validate_mmio`. -/
def validateMmio (result qemuLog : Option Text) : Bool :=
  guestPass result && hasLine result "MMIO_CHECK=1" &&
    hasLine result "MMIO_VIRTIO_RW_ITERATIONS=8" && hasLine result "MMIO_VIRTIO_RW_OK=1" &&
    fileHas qemuLog virtioVda && fileLacks qemuLog crashMarkersFull

/-- What the three verdicts differ in. -/
structure Check where
  id : Text
  validate : Option Text → Option Text → Bool
  passReason : Text
  failReason : Text
  /-- The reason after a failed run, up to its status. -/
  rcReason : Text

def checkTimer : Check where
  id := "L1-TIMER"
  validate := validateTimer
  passReason := "guest monotonic sleep/wakeup and repeated AxVisor PIT injection validated"
  failReason := "timer semantic validation failed"
  rcReason := "functional smoke failed before timer validation rc="

def checkIrq : Check where
  id := "L1-IRQ"
  validate := validateIrq
  passReason := "virtio-blk interrupt count increased and INTx pending delivery was observed"
  failReason := "interrupt semantic validation failed"
  rcReason := "functional smoke failed before irq validation rc="

def checkMmio : Check where
  id := "L1-MMIO"
  validate := validateMmio
  passReason := "repeated virtio-blk I/O completed without unhandled MMIO/device fault"
  failReason := "MMIO/virtio I/O semantic validation failed"
  rcReason := "functional smoke failed before mmio validation rc="

def checks : List Check := [checkTimer, checkIrq, checkMmio]

/-- The check holds of the files of the case, in a tree with the copies. -/
def Check.passes (c : Check) (fs : Files) : Bool :=
  c.validate (fs.lookup (caseFile functionalId "result.txt"))
    (fs.lookup (caseFile functionalId "qemu.log"))

/-- What is recorded for a check after a run with status `rc`. -/
def Check.record (c : Check) (rc : Nat) (fs : Files) : Record where
  id := c.id
  status := verdict (rc = 0 && c.passes fs)
  reason :=
    if rc ≠ 0 then c.rcReason ++ Nat.toDigits 10 rc
    else if c.passes fs then c.passReason else c.failReason
  artifacts := ["run.out", "qemu.log", "result.txt"].map (caseFile functionalId)

/-- The text of `README.md`. -/
def functionalReadme : Text := hereDoc [
  "This harness validates three native x86 Linux-host AxVisor functional paths",
  "using one rootfs Linux guest run:", "",
  "- `L1-TIMER`: guest uptime is monotonic across sleep/wakeup and AxVisor logs",
  "  repeated PIT injections.",
  "- `L1-IRQ`: guest virtio interrupt count increases while AxVisor/Linux glue",
  "  observes pending virtio-blk INTx delivery.",
  "- `L1-MMIO`: repeated virtio-blk I/O completes without unhandled MMIO/device",
  "  faults.", "", "Primary files:", "", "- `summary.json`", "- `summary.txt`",
  "- `L1-FUNCTIONAL/run.out`", "- `L1-FUNCTIONAL/qemu.log`", "- `L1-FUNCTIONAL/result.txt`",
  "- `L1-FUNCTIONAL/x86_64-linux-host-vm.generated.toml`"]

/-- The tests of the ledger, as `for line in open(…)` reads it; a missing file is an exception. -/
def decodeLines (ledger : Option Text) : Option (List Json) :=
  ledger.bind fun t =>
    ((fileLines (universalNewlines t)).filter fun l => !isBlank l).mapM Json.loads

/-- The value `write_summary_json` writes. -/
def functionalDocument (status : Overall) (tests : List Json) : Json :=
  .obj [("suite", .str "axvisor-x86-l1-functional"), ("status", .str status.text),
    ("counts", countsJson tests), ("tests", .arr tests)]

def recordCheck (env : FunctionalEnv) (c : Check) : Sh State Unit :=
  Sh.modify fun s => recordCase (c.record env.run.status s.out) s

/-- `FUNCTIONAL_STATUS=…`; there is no third status in this harness. -/
def appendFunctionalStatus : Sh State Unit :=
  Sh.modify fun s => s.append summaryTxt (echo ("FUNCTIONAL_STATUS=".toList ++
    (if s.status = .pass then "pass".toList else "fail".toList)))

/-- The files of the case that are copied up. -/
def functionalKept (o : Outcome) : List String :=
  ["qemu.log", "result.txt", vmConfig] ++ if o.status = 0 then ["guest-rootfs.img"] else []

/-- The run and its verdicts; after a failed run the script does not get to the status line. -/
def functionalCases (env : FunctionalEnv) : Sh State Unit := do
  startCases
  Sh.modify (inner functionalId env.run)
  Sh.modify (keepAll functionalId (functionalKept env.run))
  Sh.each (recordCheck env) checks
  Sh.when (env.run.status = 0) appendFunctionalStatus

/-- `verify-x86-linux-host-linux-functional.sh`. -/
def functional (d : Digest) (env : FunctionalEnv) : Sh State Unit := do
  functionalCases env
  writeReadme "# x86 AxVisor Layer1 Timer/IRQ/MMIO Evidence" env.runId functionalReadme
  finalizeSummary decodeLines functionalDocument
  finalizeChecksums d
  if env.run.status = 0 then exitUnlessPass else Sh.exit 1

end Harness
