import AxvisorTools.Kvm.Verdict

/-!
# A rootfs run of the Firecracker verifier

Three programs of `verify-axvisor-kvm-x86-firecracker-run.sh` hand the verdict on. The guest's init
tests a write to its root file system, prints what it finds and leaves a result file. The host's init
polls the file and the guest's serial log, and copies them to its console. The verifier searches that
console. `Run` is any run of the three, with any other text on either console.
-/

namespace Kvm

open Regex Py
open Shell (echo)

/-! ## The guest's init -/

/-- How the file operations of `guest-rootfs-init.sh` come out. -/
structure GuestOps where
  /-- `[ -e /dev/vda ]`. -/
  devVda : Bool
  /-- `echo "$EXPECTED" > "$WRITE_TEST"`. -/
  writeTest : Bool
  /-- `$(cat "$WRITE_TEST" 2>/dev/null || true)`. -/
  readTest : Text
  /-- The redirection to `$RESULT`. -/
  openResult : Bool
  /-- The writes to `$RESULT`, by their lines. -/
  writeLine : Text → Bool
  /-- What `grep` reads from `$RESULT`, if anything. -/
  readResult : Option Text

/-- `EXPECTED`. -/
def expected : Text := "axvisor-firecracker-rootfs-write-test"

/-- The condition of the write test. -/
def GuestOps.writeTestOk (o : GuestOps) : Bool := o.writeTest && o.readTest == expected

def guestStage (name : String) : Text := "AXVISOR_FIRECRACKER_GUEST_STAGE=" ++ name.toList

def guestPass : Text := "AXVISOR_FIRECRACKER_GUEST_PASS=1"

def noDevVda : Text := "AXVISOR_FIRECRACKER_GUEST_HAS_DEV_VDA=0"

def writeTestFail : Text := "AXVISOR_FIRECRACKER_GUEST_WRITE_TEST=0"

def readbackFail : Text := "BUSYBOX_READBACK_FAIL"

/-- The block that is redirected to `$RESULT`; its last line does not depend on the write test. -/
def resultBlock : List Text :=
  [fcRootfsPass, guestStage "busybox-rootfs-entry", guestPass, writeTestPass]

/-- The contents that `$RESULT` goes through, if it is created. -/
def GuestOps.resultStates (o : GuestOps) : List Text :=
  if o.openResult then (resultBlock.filter o.writeLine).inits.map above else []

/-- `grep -q "FC_ROOTFS_PASS=1" file`. -/
def hasRootfsPass (file : Option Text) : Bool :=
  match file with
  | some t => grep (lit fcRootfsPass) t
  | none => false

/-- The lines that the init prints, by the outcome of its three tests. -/
def guestEchoes (devVda writeTestOk readback : Bool) : List Text :=
  [guestStage "init-entry", if devVda then hasDevVda else noDevVda, guestStage "before-write-test",
    if writeTestOk then writeTestPass else writeTestFail, guestStage "after-write-test"] ++
  (if readback then [fcRootfsPass, readbackOk] else [readbackFail]) ++
  [guestPass, guestStage "before-sync", guestStage "after-sync"]

def GuestOps.echoes (o : GuestOps) : List Text :=
  guestEchoes o.devVda o.writeTestOk (hasRootfsPass o.readResult)

/-! ## The host's init -/

/-- The logs that `dump_context` copies. -/
structure Context where
  stderr : Text
  serial : Text
  dmesg : Text

def dumpContext (c : Context) : Text :=
  echo "[guest-host] firecracker stderr" ++ (c.stderr ++
    (echo "[guest-host] firecracker serial" ++ (c.serial ++
      (echo "[guest-host] dmesg tail" ++ c.dmesg))))

/-- `fail`. -/
def failWith (reason : String) (c : Context) : Text :=
  echo (firecrackerFail ++ reason.toList) ++ dumpContext c

/-- `tail -n`. -/
def tailLines (n : Nat) (t : Text) : Text :=
  ((iterLines t).drop ((iterLines t).length - n)).flatMap fun p => p.1 ++ p.2

/-- `smpboot|Brought up|CPU[0-9]+|GUEST_CPU_ONLINE|CPUINFO|GUEST_STAGE`. -/
def progressRe : Re :=
  alts (lit "smpboot") [lit "Brought up",
    .seq (lit "CPU") (.seq (.one Char.isDigit) (.star true (.one Char.isDigit))),
    lit "GUEST_CPU_ONLINE", lit "CPUINFO", lit "GUEST_STAGE"]

def progressLine (i : Nat) : Text :=
  "[guest-host] progress i=" ++ Nat.toDigits 10 i ++ " serial tail:"

/-- The report that is due every 20 rounds. -/
def progressText (i : Nat) (serial : Text) : Text :=
  if i % 20 = 0 then
    echo (progressLine i) ++
      (tailLines 8 serial ++
        (echo "[guest-host] guest smpboot/online so far:" ++
          tailLines 6 (above ((fileLines serial).filter (found progressRe)))))
  else []

/-- What a round of the loop finds. The image is there in a rootfs run. -/
structure Round where
  /-- What `debugfs` reads from the result file. -/
  result : Option Text
  serial : Text
  /-- `kill -0 "$fc_pid"`. -/
  alive : Bool
  resultAfterExit : Option Text
  /-- The serial log at the progress report. -/
  progress : Text
  context : Context

def reportResult (result : Option Text) (c : Context) : Text :=
  echo firecrackerPass ++ (echo "[guest-host] firecracker rootfs result" ++
    (result.getD [] ++ dumpContext c))

/-- The polling loop from round `i` on, with `n` rounds left. -/
def hostLoop (rounds : Nat → Round) : Nat → Nat → Text
  | 0, i => failWith "timeout" (rounds i).context
  | n + 1, i =>
    let r := rounds i
    if hasRootfsPass r.result then reportResult r.result r.context
    else if hasRootfsPass (some r.serial) then
      echo firecrackerPass ++
        (echo "[guest-host] firecracker rootfs readback result" ++ dumpContext r.context)
    else if r.alive then progressText (i + 1) r.progress ++ hostLoop rounds n (i + 1)
    else if hasRootfsPass r.resultAfterExit then reportResult r.resultAfterExit r.context
    else failWith "firecracker-exited-before-pass" r.context

/-- What the loop prints. -/
def hostOutput (rounds : Nat → Round) : Text := hostLoop rounds 180 0

/-! ## Runs -/

/-- The lines of a console: those of the init on the left, any others on the right. -/
abbrev Console := List (Text ⊕ Text)

def Console.text (c : Console) : Text := above (c.map (Sum.elim id id))

def Console.own (c : Console) : List Text := c.filterMap Sum.getLeft?

def Console.others (c : Console) : List Text := c.filterMap Sum.getRight?

/-- A round reads states that the guest's output and its result file go through. -/
structure Round.Reads (o : GuestOps) (console : Text) (r : Round) : Prop where
  result : ∀ t, r.result = some t → t ∈ o.resultStates
  resultAfterExit : ∀ t, r.resultAfterExit = some t → t ∈ o.resultStates
  serial : r.serial <+: console
  progress : r.progress <+: console
  context : r.context.serial <+: console

/-- A run of the guest, the host and QEMU, each of which may stop at any time. -/
structure Run (o : GuestOps) where
  guestConsole : Console
  guest : guestConsole.own <+: o.echoes
  rounds : Nat → Round
  reads : ∀ i, (rounds i).Reads o guestConsole.text
  qemuConsole : Console
  host : qemuConsole.own <+: fileLines (hostOutput rounds)
  /-- The QEMU log when it is validated. -/
  log : Text
  logged : log <+: qemuConsole.text

/-- The marker is in no text but that of the two inits: not in other lines of the consoles, not in
the logs of Firecracker and of the kernel, and the serial records only spell it if the guest's
console has it. -/
structure Run.Silent {o : GuestOps} (run : Run o) (n : Text) : Prop where
  guest : ∀ l ∈ run.guestConsole.others, ¬ n <:+: l
  stderr : ∀ i, ¬ n <:+: (run.rounds i).context.stderr
  dmesg : ∀ i, ¬ n <:+: (run.rounds i).context.dmesg
  qemu : ∀ l ∈ run.qemuConsole.others, ¬ n <:+: l
  serial : ∀ bytes, guestSerialText run.log = some bytes → encode n <:+: bytes →
    n <:+: run.guestConsole.text

/-- The markers that the verdict looks for. -/
def verdictMarkers : List Text := [hasDevVda, writeTestPass, readbackOk]

/-- Only the two inits write the markers of the verdict. -/
def Run.Quiet {o : GuestOps} (run : Run o) : Prop := ∀ n ∈ verdictMarkers, run.Silent n

/-- The result file gets the marker of the write test and everything else succeeds. -/
def GuestOps.marksResult (o : GuestOps) : Bool :=
  o.openResult && o.writeLine fcRootfsPass && o.writeLine writeTestPass && o.devVda &&
    hasRootfsPass o.readResult

/-- `wait_for_result` passes on the log as it was at some poll, and the checks pass on it in the end. -/
structure Accepted (vcpuCount : Nat) (log : Text) : Prop where
  waited : ∃ seen alive, seen <+: log ∧ firecrackerDecision .rootfs vcpuCount alive seen = .pass
  valid : validateFirecrackerGuestResult .rootfs .sh vcpuCount log = true

end Kvm
