import AxvisorTools.Kvm.Serial

/-!
# The verdicts of the KVM verifiers

`wait_for_result` of `verify-axvisor-kvm-x86-gvisor-run.sh` and of
`verify-axvisor-kvm-x86-firecracker-run.sh` polls the QEMU log; `gvisorDecision` and
`firecrackerDecision` are what one round decides on the log it sees. The Firecracker verifier checks
the final log once more in `validateFirecrackerGuestResult`.
-/

namespace Kvm

open Regex

/-- `FIRECRACKER_GUEST_BOOT_MODE`. -/
inductive BootMode
  | initramfs
  | rootfs
  deriving DecidableEq, Repr

/-- `FIRECRACKER_ROOTFS_INIT_KIND`. -/
inductive InitKind
  | sh
  | tiny
  deriving DecidableEq, Repr

/-- What one round of a polling loop does. -/
inductive Decision
  | pass
  | fail
  | wait
  deriving DecidableEq, Repr

/-- One round: the tests for success and failure, and the same test for success once QEMU has
exited. -/
def pollOnce (accepts : Text → Bool) (failMarker : Text) (alive : Bool) (log : Text) : Decision :=
  if accepts log then .pass
  else if grep (lit failMarker) log then .fail
  else if alive then .wait
  else if accepts log then .pass
  else .fail

/-! ## gVisor -/

def gvisorPass : Text := "AXVISOR_KVM_GVISOR_RUN_QEMU_PASS=1"

def gvisorFail : Text := "AXVISOR_KVM_GVISOR_RUN_FAIL="

/-- One round of `wait_for_result` of the gVisor verifier. -/
def gvisorDecision : Bool → Text → Decision := pollOnce (grep (whole gvisorPass)) gvisorFail

/-! ## Firecracker -/

def firecrackerPass : Text := "AXVISOR_KVM_FIRECRACKER_RUN_QEMU_PASS=1"

def firecrackerFail : Text := "AXVISOR_KVM_FIRECRACKER_RUN_FAIL="

def fcRootfsPass : Text := "FC_ROOTFS_PASS=1"

def hasDevVda : Text := "AXVISOR_FIRECRACKER_GUEST_HAS_DEV_VDA=1"

def writeTestPass : Text := "AXVISOR_FIRECRACKER_GUEST_WRITE_TEST=1"

def readbackOk : Text := "BUSYBOX_READBACK_OK"

/-- `qemu_log_has_firecracker_guest_serial_pass`. -/
def qemuLogHasFirecrackerGuestSerialPass (log : Text) : Bool :=
  qemuLogHasFirecrackerGuestSerialText "FC_PASS=1" log ||
    qemuLogHasFirecrackerGuestSerialText "AXVISOR_FIRECRACKER_GUEST_PASS=1" log ||
    qemuLogHasFirecrackerGuestSerialText "TINY_PASS=1" log

/-- The three texts that tell the number of vCPUs; they are only looked for when it exceeds 1. Bash
counts in 64 bits, so `vcpuCount` is the number of the script below `2 ^ 63`. -/
def smpTexts (vcpuCount : Nat) : List Text :=
  ["AXVISOR_FIRECRACKER_GUEST_CPU_ONLINE=0-" ++ Nat.toDigits 10 (vcpuCount - 1),
    "AXVISOR_FIRECRACKER_GUEST_CPUINFO_COUNT=" ++ Nat.toDigits 10 vcpuCount,
    "smp: Brought up 1 node, " ++ Nat.toDigits 10 vcpuCount ++ " CPUs"]

/-- `qemu_log_has_firecracker_guest_smp_pass`. -/
def qemuLogHasFirecrackerGuestSmpPass (vcpuCount : Nat) (log : Text) : Bool :=
  (smpTexts vcpuCount).any (qemuLogHasFirecrackerGuestSerialText · log)

/-- The tests of a round that read the guest's serial output. -/
def serialAccepts (mode : BootMode) (vcpuCount : Nat) (log : Text) : Bool :=
  match mode with
  | .initramfs => qemuLogHasFirecrackerGuestSerialPass log &&
      (vcpuCount ≤ 1 || qemuLogHasFirecrackerGuestSmpPass vcpuCount log)
  | .rootfs => qemuLogHasFirecrackerGuestSerialText fcRootfsPass log

/-- One round of `wait_for_result` of the Firecracker verifier. -/
def firecrackerDecision (mode : BootMode) (vcpuCount : Nat) : Bool → Text → Decision :=
  pollOnce (fun log => grep (whole firecrackerPass) log || serialAccepts mode vcpuCount log)
    firecrackerFail

/-- The checks of a rootfs run: all three markers in the log, or each in the log or the serial
output. -/
def validateRootfs (kind : InitKind) (log : Text) : Bool :=
  match kind with
  | .tiny => qemuLogHasFirecrackerGuestSerialText fcRootfsPass log &&
      qemuLogHasFirecrackerGuestSerialText "TINY_READBACK_OK" log
  | .sh =>
    (grep (lit hasDevVda) log && grep (lit writeTestPass) log && grep (lit readbackOk) log) ||
      (qemuLogHasFirecrackerGuestSerialText hasDevVda log &&
        qemuLogHasFirecrackerGuestSerialText writeTestPass log &&
        qemuLogHasFirecrackerGuestSerialText readbackOk log)

/-- `validate_firecracker_guest_result`. -/
def validateFirecrackerGuestResult (mode : BootMode) (kind : InitKind) (vcpuCount : Nat)
    (log : Text) : Bool :=
  (vcpuCount ≤ 1 || qemuLogHasFirecrackerGuestSmpPass vcpuCount log) &&
    match mode with
    | .initramfs => true
    | .rootfs => validateRootfs kind log

end Kvm
