import AxvisorTools.Smoke.CpuOnline
import AxvisorTools.Smoke.Validate
import AxvisorTools.Smoke.Wait

/-!
# The guest of the x86 smoke test

The init that `prepare_guest_rootfs` of `verify-x86-linux-host-linux-smoke.sh` puts into the guest's
image, as the list of what it does to the console and to its disk. `Machine` is what its commands come
across; the number of CPUs and the extra checks have been filled in by `sed`. While the init runs, the
kernels write to the same log, and what it writes to its file reaches the image at some time, at the
latest with a `sync`. The script waits for the pass marker, stops QEMU and looks at log and image.
-/

namespace Smoke.GuestInit

open Awk Regex

variable {Num : Type}

/-! ## What the commands print -/

/-- A line of output. -/
abbrev Line := { l : Text // '\n' ∉ l }

/-- `[ … ] && echo 1 || echo 0`. -/
def flag (b : Bool) : Text := if b then ['1'] else ['0']

/-- `${t:-default}`. -/
def orElse (t : Text) (default : String) : Text := if t = [] then default.toList else t

/-- `awk '$2 == "/" { print $i; exit }' /proc/mounts`. -/
def rootMount (i : Nat) (mounts : List Line) : Text :=
  match mounts.find? fun l => field l.1 2 == ['/'] with
  | some l => field l.1 i
  | none => []

/-- `/^processor[ \t]*:/`. -/
def processorPattern : Re :=
  .seq (.look fun prev _ => prev.isNone) (.seq (lit "processor")
    (.seq (.star true (.one fun c => c == ' ' || c == '\t')) (.one (· == ':'))))

/-- `CPUINFO_PROCESSOR_COUNT`; without the file awk ends before it prints. -/
def cpuinfoProcessorCount (awk : Ordered Num) (cpuinfo : Option Text) : Text :=
  match cpuinfo with
  | none => ['0']
  | some t =>
    let c := (fileLines t).foldl
      (fun c l => if found processorPattern l then awk.add c (awk.ofNat 1) else c)
      (awk.ofNat 0)
    awk.text (awk.add c (awk.ofNat 0))

/-- The numbers of a line of `/proc/interrupts`, added to `total`. -/
def addCounts (awk : Ordered Num) (total : Num) (l : Text) : Num :=
  ((fields l).drop 1).foldl
    (fun total f =>
      if found CpuOnline.numberPattern f then awk.add total (awk.number f) else total) total

/-- `irq_virtio_count`. -/
def irqVirtioCount (awk : Ordered Num) (interrupts : Option Text) : Text :=
  match interrupts with
  | none => ['0']
  | some t =>
    let total := ((fileLines t).filter (found (lit "virtio"))).foldl (addCounts awk)
      (awk.ofNat 0)
    awk.text (awk.add total (awk.ofNat 0))

/-! ## The machine -/

/-- What the init finds of its disk: it looks twice, for the console and for the result file. -/
structure Probe where
  devVda : Bool
  sysBlockVda : Bool
  writeTest : Bool
  deriving DecidableEq, Repr

/-- What the commands of the init come across. The decisions of awk about the uptime are taken as they
are. -/
structure Machine where
  /-- `__X86_GUEST_CPU_NUM__` and `__X86_GUEST_EXTRA_CHECKS__`. -/
  expectedCpus : Line
  extraChecks : Line
  procRc : Nat
  sysRc : Nat
  devRc : Nat
  /-- What `uname -a`, `date -Iseconds` and `cat /proc/cmdline` print, if anything. -/
  uname : Option Line
  date : Option Line
  cmdline : Option Line
  early : Probe
  late : Probe
  /-- `/proc/mounts`, six fields to a line. -/
  mounts : List Line
  blank_mem_mounts : ∀ l ∈ mounts, ' ' ∈ l.1
  cpuinfo : Option Text
  cpuOnline : Option Line
  uptimeBefore : Line
  uptimeAfter : Line
  timerDeltaMs : Line
  timerMonotonicOk : Bool
  timerSleepWakeOk : Bool
  interruptsBefore : Option Text
  interruptsAfter : Option Text
  /-- The eight rounds of the MMIO check: `dd`, `cat`, `echo` and `sync`. -/
  ddOk : Nat → Bool
  sizeOk : Nat → Bool
  appendOk : Nat → Bool
  syncOk : Nat → Bool
  /-- The exit status of `/bin/axvisor-exit-port`, if it is there and returns. -/
  exitPort : Option Nat

namespace Machine

variable (awk : Ordered Num) (g : Machine)

/-- `has_extra_check`. -/
def hasExtraCheck (check : String) : Bool :=
  decide (',' :: check.toList ++ [','] <:+: ',' :: g.extraChecks ++ [','])

def cpuOnlineList : Text := g.cpuOnline.elim "unknown" (·.1)

def cpuOnlineCount : Text := CpuOnline.Init.rootfs.cpuOnlineCount awk.toArith g.cpuOnlineList

def irqVirtioDelta : Text :=
  awk.text (awk.sub (awk.number (irqVirtioCount awk g.interruptsAfter))
    (awk.number (irqVirtioCount awk g.interruptsBefore)))

def irqVirtioDeltaPositive : Bool := awk.positive (awk.number (g.irqVirtioDelta awk))

/-- `MMIO_VIRTIO_RW_OK` after the rounds: each command that fails sets it to 0. -/
def mmioVirtioRwOk : Bool :=
  (List.range 8).foldl (fun ok i =>
    let ok := if g.ddOk i then ok else false
    let ok := if g.sizeOk i then ok else false
    let ok := if g.appendOk i then ok else false
    if g.syncOk i then ok else false) true

/-- A variable of one of the extra checks: 0 unless the check is made. -/
def ifChecked (check : String) (value : Text) : Text :=
  if g.hasExtraCheck check then value else ['0']

end Machine

/-! ## The init -/

/-- What the init does: it emits messages, prints lines on the console, writes its result file. -/
inductive Command
  | emit (name : String) (value : Text)
  | print (l : Line)
  | truncate
  | write (t : Text)
  | sync

def stage (s : String) : Command := .emit "STAGE" s.toList

/-- `printf` of a part of a line, and `echo "name=value"`. -/
def assign (name : String) (value : Text) : Text := name.toList ++ '=' :: value ++ ['\n']

/-- The output of a command that prints a line or fails. -/
def printed (l : Option Line) : Text := l.elim [] fun l => l.1 ++ ['\n']

namespace Machine

variable (awk : Ordered Num) (g : Machine)

/-- Up to the write test. -/
def boot : List Command :=
  [stage "init-enter", .emit "STAGE" ("proc-mounted rc=" ++ Nat.toDigits 10 g.procRc),
    .emit "STAGE" ("sys-mounted rc=" ++ Nat.toDigits 10 g.sysRc),
    .emit "STAGE" ("dev-mounted rc=" ++ Nat.toDigits 10 g.devRc), stage "rootfs-boot"] ++
  (g.uname.map .print).toList ++ (g.cmdline.map .print).toList ++
  [.emit "HAS_DEV_VDA" (flag g.early.devVda), .emit "HAS_SYS_BLOCK_VDA" (flag g.early.sysBlockVda),
    .emit "ROOT_MOUNT_DEV" (orElse (rootMount 1 g.mounts) "unknown"),
    .emit "ROOT_MOUNT_FS" (orElse (rootMount 3 g.mounts) "unknown"),
    .emit "CPUINFO_PROCESSOR_COUNT" (orElse (cpuinfoProcessorCount awk g.cpuinfo) "0"),
    .emit "CPU_ONLINE_LIST" (orElse g.cpuOnlineList "unknown"),
    .emit "CPU_ONLINE_COUNT" (orElse (g.cpuOnlineCount awk) "0"),
    .emit "WRITE_TEST" (flag g.early.writeTest)]

def timerCheck : List Command :=
  if g.hasExtraCheck "timer" then
    [stage "timer-check-begin", .emit "TIMER_UPTIME_BEFORE" g.uptimeBefore,
      .emit "TIMER_UPTIME_AFTER" g.uptimeAfter, .emit "TIMER_DELTA_MS" g.timerDeltaMs,
      .emit "TIMER_MONOTONIC_OK" (flag g.timerMonotonicOk),
      .emit "TIMER_SLEEP_WAKE_OK" (flag g.timerSleepWakeOk), stage "timer-check-end"]
  else []

def irqCheck : List Command :=
  if g.hasExtraCheck "irq" then
    [stage "irq-check-begin", .emit "IRQ_VIRTIO_BEFORE" (irqVirtioCount awk g.interruptsBefore),
      .emit "IRQ_VIRTIO_AFTER" (irqVirtioCount awk g.interruptsAfter),
      .emit "IRQ_VIRTIO_DELTA" (g.irqVirtioDelta awk),
      .emit "IRQ_VIRTIO_DELTA_POSITIVE" (flag (g.irqVirtioDeltaPositive awk)),
      stage "irq-check-end"]
  else []

def mmioCheck : List Command :=
  if g.hasExtraCheck "mmio" then
    [stage "mmio-check-begin", .emit "MMIO_VIRTIO_RW_ITERATIONS" ['8'],
      .emit "MMIO_VIRTIO_RW_OK" (flag g.mmioVirtioRwOk), stage "mmio-check-end"]
  else []

/-- The lines of the result file from `HAS_DEV_VDA` to the mounts. -/
def entries : List (String × Text) :=
  [("HAS_DEV_VDA", flag g.late.devVda), ("HAS_SYS_BLOCK_VDA", flag g.late.sysBlockVda),
    ("ROOT_MOUNT_DEV", orElse (rootMount 1 g.mounts) "unknown"),
    ("ROOT_MOUNT_FS", orElse (rootMount 3 g.mounts) "unknown"),
    ("EXPECTED_GUEST_CPUS", g.expectedCpus),
    ("CPUINFO_PROCESSOR_COUNT", orElse (cpuinfoProcessorCount awk g.cpuinfo) "0"),
    ("CPU_ONLINE_LIST", orElse g.cpuOnlineList "unknown"),
    ("CPU_ONLINE_COUNT", orElse (g.cpuOnlineCount awk) "0"),
    ("SMOKE_WRITE_TEST", flag g.late.writeTest), ("EXTRA_CHECKS", g.extraChecks),
    ("TIMER_CHECK", g.ifChecked "timer" ['1']),
    ("TIMER_UPTIME_BEFORE", g.ifChecked "timer" g.uptimeBefore),
    ("TIMER_UPTIME_AFTER", g.ifChecked "timer" g.uptimeAfter),
    ("TIMER_DELTA_MS", g.ifChecked "timer" g.timerDeltaMs),
    ("TIMER_MONOTONIC_OK", g.ifChecked "timer" (flag g.timerMonotonicOk)),
    ("TIMER_SLEEP_WAKE_OK", g.ifChecked "timer" (flag g.timerSleepWakeOk)),
    ("IRQ_CHECK", g.ifChecked "irq" ['1']),
    ("IRQ_VIRTIO_BEFORE", g.ifChecked "irq" (irqVirtioCount awk g.interruptsBefore)),
    ("IRQ_VIRTIO_AFTER", g.ifChecked "irq" (irqVirtioCount awk g.interruptsAfter)),
    ("IRQ_VIRTIO_DELTA", g.ifChecked "irq" (g.irqVirtioDelta awk)),
    ("IRQ_VIRTIO_DELTA_POSITIVE", g.ifChecked "irq" (flag (g.irqVirtioDeltaPositive awk))),
    ("MMIO_CHECK", g.ifChecked "mmio" ['1']),
    ("MMIO_VIRTIO_RW_ITERATIONS", g.ifChecked "mmio" ['8']),
    ("MMIO_VIRTIO_RW_OK", g.ifChecked "mmio" (flag g.mmioVirtioRwOk))]

/-- The writes of the block that fills `/axvisor-x86-smoke-result.txt`. -/
def writes : List Text :=
  [assign "AXVISOR_X86_NATIVE_GUEST_PASS" ['1'], "DATE=".toList, printed g.date, "UNAME=".toList,
    printed g.uname, "CMDLINE=".toList, printed g.cmdline] ++
  (g.entries awk).map (fun e => assign e.1 e.2) ++
  ["PROC_MOUNTS_BEGIN\n".toList, above (g.mounts.map (·.1)), "PROC_MOUNTS_END\n".toList]

def result : Text := (g.writes awk).flatten

/-- After the pass marker: the exit port, when there is one that does not end the machine. -/
def leave : List Command :=
  match g.exitPort with
  | none => []
  | some 0 => [stage "before-exit-port", stage "after-exit-port"]
  | some (rc + 1) => [stage "before-exit-port", .emit "EXIT_PORT_RC" (Nat.toDigits 10 (rc + 1)),
      stage "after-exit-port"]

/-- What the init does before it emits the pass marker. -/
def work : List Command :=
  g.boot awk ++ g.timerCheck ++ g.irqCheck awk ++ g.mmioCheck ++ [stage "before-result"] ++
    .truncate :: (g.writes awk).map .write ++
    [stage "after-result", stage "before-sync", .sync, stage "after-sync"]

def script : List Command := g.work awk ++ .emit "PASS" ['1'] :: g.leave

end Machine

/-- What the result file is meant to tell. -/
structure Machine.Sound (awk : Ordered Num) (env : ValidateEnv) (g : Machine) : Prop where
  cmdline : g.cmdline.isSome = true
  devVda : g.late.devVda = true
  sysBlockVda : g.late.sysBlockVda = true
  rootMountFs : rootMount 3 g.mounts = "ext4"
  expectedCpus : g.expectedCpus.1 = env.cpuNum
  cpuinfo : orElse (cpuinfoProcessorCount awk g.cpuinfo) "0" = env.cpuNum
  online : orElse (g.cpuOnlineCount awk) "0" = env.cpuNum
  writeTest : g.late.writeTest = true
  timer : g.hasExtraCheck "timer" = true → g.timerMonotonicOk = true ∧ g.timerSleepWakeOk = true
  irq : g.hasExtraCheck "irq" = true → g.irqVirtioDeltaPositive awk = true
  mmio : g.hasExtraCheck "mmio" = true → g.mmioVirtioRwOk = true

/-! ## The run -/

/-- A step of the run. A message is on the console as it is, and with the given starts on lines of its
own: the kernel's copy has a time stamp. -/
inductive Step
  | guest (c : Command) (starts : List Text)
  /-- A line of a kernel, of the hypervisor or of the host's init. -/
  | kernel (l : Line)
  /-- The guest's file reaches the image. -/
  | writeback

/-- What all messages begin with. -/
def nativeGuest : Text := "AXVISOR_X86_NATIVE_GUEST_"

/-- The text of a message. -/
def message (name : String) (value : Text) : Text := nativeGuest ++ name.toList ++ '=' :: value

/-- What a console may have before the newline. -/
def lineEnd (crlf : Bool) : Text := if crlf then ['\r'] else []

/-- What a step puts on the log. -/
def Step.lines (crlf : Bool) : Step → List Text
  | .guest (.emit name value) starts =>
    ([] :: starts).map fun start => start ++ message name value ++ lineEnd crlf
  | .guest (.print l) _ => [l.1 ++ lineEnd crlf]
  | .kernel l => [l.1]
  | _ => []

/-- The result file: in the guest, and in the image. -/
structure Disk where
  file : Option Text
  image : Option Text

def Step.disk (d : Disk) : Step → Disk
  | .guest .truncate _ => { d with file := some [] }
  | .guest (.write t) _ => { d with file := d.file.map (· ++ t) }
  | .guest .sync _ => { d with image := d.file }
  | .writeback => { d with image := d.file }
  | _ => d

/-- The part of the guest's init. -/
def Step.command : Step → Option Command
  | .guest c _ => some c
  | _ => none

/-- What QEMU appends to its log. -/
def appends (crlf : Bool) (steps : List Step) : List Text := steps.map fun s => above (s.lines crlf)

/-- The log and the disk after `k` steps. -/
def logAfter (crlf : Bool) (steps : List Step) (k : Nat) : Text :=
  ((appends crlf steps).take k).flatten

def diskAfter (steps : List Step) (k : Nat) : Disk := (steps.take k).foldl Step.disk ⟨none, none⟩

/-! ## The script -/

/-- The rest of the script, when `wait_for_result` has returned `status` and QEMU has come to its end
after `k` steps. `debugfs` prints nothing for a file that is not there. -/
def finish (rule : BinaryRule) (env : ValidateEnv) (crlf : Bool) (steps : List Step)
    (k status : Nat) : Nat :=
  if status ≠ 0 then status
  else match validateSmokeResult rule env (logAfter crlf steps k)
      (some ((diskAfter steps k).image.getD [])) with
    | .ok _ => 0
    | .error _ => 1

/-- The exit status of the script in an interleaving of its checks with the steps of the run; QEMU gets
to step `k` before it has ended. -/
def Exits (rule : BinaryRule) (env : ValidateEnv) (flags : WaitFlags) (crlf : Bool)
    (steps : List Step) (s : Schedule (appends crlf steps)) (k status : Nat) : Prop :=
  ∃ n r, Poll.ReturnsAt (waitStep flags) s.env ⟨.deadline, false⟩ n r ∧ s.seen n ≤ k ∧
    status = finish rule env crlf steps k r

end Smoke.GuestInit
