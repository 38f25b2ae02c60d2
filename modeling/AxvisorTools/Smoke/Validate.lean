import AxvisorTools.Harness.Markers

/-!
# The verdict of the x86 smoke test

`validate_smoke_result` of `verify-x86-linux-host-linux-smoke.sh`, run under `set -e` once the
guest has reported success: the first check that fails ends the script, with its message on the
standard error. The logs it prints after a message are left out.
-/

namespace Smoke

open Regex Harness

/-- `X86_GUEST_BOOT_MODE`. -/
inductive BootMode
  | initramfs
  | rootfs
  deriving DecidableEq, Repr

/-- What the checks depend on: the boot mode, `X86_GUEST_EXTRA_CHECKS` and `X86_GUEST_CPU_NUM`, a
number. -/
structure ValidateEnv where
  bootMode : BootMode
  extraChecks : Text
  cpuNum : Text

/-! ## The checks -/

/-- `require_qemu_log` and `require_qemu_log_any`: one of the patterns is in the log. -/
def requireQemuLogAny (log : Text) (description : String) (patterns : List Re) : Except Text Unit :=
  if patterns.any (grep · log) then .ok ()
  else .error ("[verify] missing required marker: " ++ description.toList)

/-- `require_qemu_log`. -/
def requireQemuLog (log : Text) (pattern : Re) (description : String) : Except Text Unit :=
  requireQemuLogAny log description [pattern]

/-- `reject_qemu_log`. -/
def rejectQemuLog (log : Text) (pattern : Re) (description : String) : Except Text Unit :=
  if grep pattern log then .error ("[verify] rejected marker found: " ++ description.toList)
  else .ok ()

/-- `require_guest_result "^line$"`. -/
def requireGuestResult (result line : Text) (description : String) : Except Text Unit :=
  if grep (whole line) result then .ok ()
  else .error ("[verify] missing guest result marker: " ++ description.toList)

def activateGsi : Text := "x86_irq::activate_gsi gsi="

/-- `x86_irq::activate_gsi gsi=19([^0-9]|$)`. -/
def activateGsi19 : Re :=
  .seq (lit (activateGsi ++ ['1', '9'])) (.alt (.one fun c => !c.isDigit) eol)

/-- `reject_unexpected_x86_gsi_activation`. -/
def rejectUnexpectedX86GsiActivation (rule : BinaryRule) (log : Text) : Except Text Unit :=
  let unexpected :=
    Shell.substitute (grepOtherLines activateGsi19 (grepLines rule (lit activateGsi) log))
  if unexpected ≠ [] then .error "[verify] unexpected x86 passthrough GSI activation"
  else .ok ()

/-- The requirement of `validate_smoke_result` for the activation of GSI 19. -/
def requireGsi19 (log : Text) : Except Text Unit :=
  requireQemuLog log (lit (activateGsi ++ ['1', '9']))
    "AxVisor activates passthrough guest GSI 19 after guest IOAPIC route is ready"

/-- `extra_check_enabled`. -/
def extraCheckEnabled (env : ValidateEnv) (check : String) : Bool :=
  decide (',' :: check.toList ++ [','] <:+: ',' :: env.extraChecks ++ [','])

/-! ## The whole verdict -/

/-- The patterns of a fatal failure. -/
def fatalFailure : Re :=
  alts kernelPanic [lit "panic:", lit "panicked at",
    lit "VM entry with invalid control", kernelBug, oops, lit "I/O error",
    lit "EXT4-fs error", Harness.runFail]

/-- `requested x86 qemu blk INTx .*guest_gsi=19`. -/
def intxRequested : Re :=
  .seq (lit "requested x86 qemu blk INTx ") (.seq gap (lit "guest_gsi=19"))

/-- `request-success-disabled.*guest_gsi=19.*intx_disabled=1`. -/
def intxDisabled : Re :=
  .seq (lit "request-success-disabled") (.seq gap (.seq (lit "guest_gsi=19")
    (.seq gap (lit "intx_disabled=1"))))

/-- `x86 passthrough irq unmask irq=19 .*unmasked=1`. -/
def irqUnmask : Re :=
  .seq (lit "x86 passthrough irq unmask irq=19 ") (.seq gap (lit "unmasked=1"))

/-- The checks of the log in a rootfs run. -/
def validateRootfsLog (rule : BinaryRule) (log : Text) : Except Text Unit := do
  rejectUnexpectedX86GsiActivation rule log
  requireQemuLog log (lit "VFS: Mounted root (ext4 filesystem)") "guest ext4 rootfs mounted"
  requireQemuLog log (lit "AXVISOR_X86_NATIVE_GUEST_HAS_DEV_VDA=1") "guest /dev/vda present"
  requireQemuLog log (lit "AXVISOR_X86_NATIVE_GUEST_HAS_SYS_BLOCK_VDA=1")
    "guest /sys/block/vda present"
  requireQemuLog log (lit "AXVISOR_X86_NATIVE_GUEST_ROOT_MOUNT_FS=ext4")
    "guest rootfs type ext4"
  requireQemuLog log (lit "AXVISOR_X86_NATIVE_GUEST_WRITE_TEST=1") "guest rootfs write test"
  requireQemuLog log intxRequested
    "Linux glue registered the passthrough QEMU virtio-blk INTx line"
  requireQemuLog log intxDisabled
    "Linux glue keeps passthrough INTx disabled before guest route is ready"
  requireGsi19 log
  requireQemuLog log irqUnmask "Linux glue unmasks the real passthrough INTx line"
  requireQemuLogAny log "Linux/AxVisor observes a pending virtio-blk INTx" [irqPoll, irqPending]
  requireQemuLogAny log
    "AxVisor delivers the pending virtio-blk interrupt and receives guest EOI" [intxPending, irqEoi]

/-- The checks of the guest's result file in a rootfs run. -/
def validateRootfsResult (env : ValidateEnv) (log result : Text) : Except Text Unit := do
  requireGuestResult result "AXVISOR_X86_NATIVE_GUEST_PASS=1" "guest result pass"
  requireGuestResult result "HAS_DEV_VDA=1" "guest result /dev/vda"
  requireGuestResult result "HAS_SYS_BLOCK_VDA=1" "guest result /sys/block/vda"
  requireGuestResult result "ROOT_MOUNT_FS=ext4" "guest result ext4 rootfs"
  requireGuestResult result ("EXPECTED_GUEST_CPUS=" ++ env.cpuNum)
    "guest result expected CPU count"
  requireGuestResult result ("CPUINFO_PROCESSOR_COUNT=" ++ env.cpuNum)
    "guest result /proc/cpuinfo CPU count"
  requireGuestResult result ("CPU_ONLINE_COUNT=" ++ env.cpuNum)
    "guest result online CPU count"
  requireGuestResult result "SMOKE_WRITE_TEST=1" "guest result write test"
  if extraCheckEnabled env "timer" then
    requireQemuLog log pitDue "AxVisor delivered repeated virtual PIT timer interrupts"
    requireQemuLog log pitInject "AxVisor injected guest timer interrupt vector"
    requireGuestResult result "TIMER_CHECK=1" "timer check enabled"
    requireGuestResult result "TIMER_MONOTONIC_OK=1" "guest monotonic uptime"
    requireGuestResult result "TIMER_SLEEP_WAKE_OK=1"
      "guest sleep/wakeup completed within threshold"
  if extraCheckEnabled env "irq" then
    requireQemuLogAny log "Linux/AxVisor observed pending virtio-blk INTx" [irqPoll, irqPending]
    requireQemuLogAny log
      "AxVisor delivered pending virtio-blk interrupt and received guest EOI" [intxPending, irqEoi]
    requireGuestResult result "IRQ_CHECK=1" "irq check enabled"
    requireGuestResult result "IRQ_VIRTIO_DELTA_POSITIVE=1"
      "guest virtio interrupt count increased"
  if extraCheckEnabled env "mmio" then
    rejectQemuLog log (.alt mmioUnhandled emuDeviceFailed) "unhandled MMIO/device access"
    requireGuestResult result "MMIO_CHECK=1" "mmio check enabled"
    requireGuestResult result "MMIO_VIRTIO_RW_ITERATIONS=8"
      "repeated virtio-blk I/O iterations"
    requireGuestResult result "MMIO_VIRTIO_RW_OK=1" "repeated virtio-blk I/O completed"

/-- `validate_smoke_result`; `result` is what `debugfs` extracts from the guest's image, or nothing
when it fails. -/
def validateSmokeResult (rule : BinaryRule) (env : ValidateEnv) (log : Text)
    (result : Option Text) : Except Text Unit := do
  rejectQemuLog log fatalFailure "fatal guest/host failure"
  requireQemuLog log (lit "Run /init as init process".toList) "guest executed /init"
  requireQemuLog log (lit "AXVISOR_X86_NATIVE_GUEST_PASS=1".toList) "guest pass marker"
  if env.bootMode = .rootfs then
    validateRootfsLog rule log
    match result with
    | none =>
      throw "[verify] failed to extract guest smoke result: /axvisor-x86-smoke-result.txt".toList
    | some result => validateRootfsResult env log result

end Smoke
