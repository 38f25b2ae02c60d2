import AxvisorTools.Kvm.AbiSmoke
import AxvisorTools.Kvm.Verdict
import AxvisorTools.Watch.Basic

/-!
# Waiting for the KVM verifiers

`wait_for_result` of the four scripts that boot a Linux host with `/dev/kvm` in QEMU:
`verify-axvisor-kvm-x86-abi-smoke.sh`, `verify-axvisor-kvm-x86-firecracker-init-smoke.sh`,
`verify-axvisor-kvm-x86-gvisor-run.sh` and `verify-axvisor-kvm-x86-firecracker-run.sh`. All are the
same watcher of the QEMU log; they differ in what they look for, and in the `sleep 1` that the first
one makes when QEMU is gone.
-/

namespace Kvm

open Regex Py Watch

/-! ## The Firecracker tests -/

/-- The embedded Python of `qemu_log_has_firecracker_guest_serial_text`. -/
def serialHas (target log : Text) : Bool :=
  (guestSerialText log).any fun serial => decide (encode target <:+: serial)

/-- `qemu_log_has_firecracker_guest_serial_text` reads the log once or twice. -/
def serialTextCond (target : Text) : Cond Text :=
  .or (.read (grep (lit target))) (.read (serialHas target))

/-- `qemu_log_has_firecracker_guest_serial_pass`. -/
def serialPassCond : Cond Text :=
  .or (.or (serialTextCond "FC_PASS=1") (serialTextCond "AXVISOR_FIRECRACKER_GUEST_PASS=1"))
    (serialTextCond "TINY_PASS=1")

/-- `qemu_log_has_firecracker_guest_smp_pass`. -/
def smpPassCond (vcpuCount : Nat) : Cond Text := .any ((smpTexts vcpuCount).map serialTextCond)

/-- The tests of the serial output. -/
def serialCond (mode : BootMode) (vcpuCount : Nat) : Cond Text :=
  match mode with
  | .initramfs =>
    if vcpuCount ≤ 1 then serialPassCond else .and serialPassCond (smpPassCond vcpuCount)
  | .rootfs => serialTextCond fcRootfsPass

/-! ## The verifiers -/

inductive Verifier
  | abiSmoke
  | initSmoke
  | gvisor
  | firecracker (mode : BootMode) (vcpuCount : Nat)
  deriving DecidableEq, Repr

def initPass : Text := "AXVISOR_KVM_X86_FIRECRACKER_INIT_QEMU_PASS=1"

def initFail : Text := "AXVISOR_KVM_FIRECRACKER_INIT_SMOKE_FAIL="

namespace Verifier

def accepts : Verifier → Cond Text
  | .abiSmoke => .read (grep (lit AbiSmoke.passMarker))
  | .initSmoke => .read (grep (lit initPass))
  | .gvisor => .read (grep (whole gvisorPass))
  | .firecracker mode vcpuCount =>
    .or (.read (grep (whole firecrackerPass))) (serialCond mode vcpuCount)

def failMarker : Verifier → Text
  | .abiSmoke => AbiSmoke.failMarker
  | .initSmoke => initFail
  | .gvisor => gvisorFail
  | .firecracker _ _ => firecrackerFail

/-- `wait_for_result`. -/
def loop (v : Verifier) : Loop Text where
  accepts := v.accepts
  failed := grep (lit v.failMarker)
  settle := decide (v = .abiSmoke)

end Verifier

/-! ## Schedules -/

/-- An interleaving of QEMU's writes and its exit with the checks, before the time limit: how many of the writes are
in the log at each check, and whether QEMU has exited. Some writes may be in flight when it has. -/
structure Schedule (appends : List Text) where
  seen : Nat → Nat
  mono : ∀ n, seen n ≤ seen (n + 1)
  delivered : ∃ n, appends.length ≤ seen n
  exited : Nat → Bool
  stays : ∀ n, exited n = true → exited (n + 1) = true
  exits : ∃ n, exited n = true

namespace Schedule

variable {appends : List Text}

def env (s : Schedule appends) (n : Nat) : Sight Text where
  content := (appends.take (s.seen n)).flatten
  alive := !s.exited n
  expired := false

/-- Nothing is in flight when QEMU has exited. -/
def Orderly (s : Schedule appends) : Prop :=
  ∀ n, s.exited n = true → appends.length ≤ s.seen n

/-- Times for the checks, in milliseconds: QEMU exits at some time, what is in flight then is in the log
within a second, and a verifier that sleeps does so for a second. -/
structure Clock (v : Verifier) (s : Schedule appends) where
  time : Nat → Nat
  mono : ∀ n, time n ≤ time (n + 1)
  exit : Nat
  exited_iff : ∀ n, s.exited n = true ↔ exit ≤ time n
  arrives : ∀ n, exit + 1000 ≤ time n → appends.length ≤ s.seen n
  sleeps : ∀ n, Poll.run (step v.loop) s.env .deadline n = .inl .settle →
    time n + 1000 ≤ time (n + 1)

/-- Every write is in the log within a second of QEMU's exit. -/
def InASecond (v : Verifier) (s : Schedule appends) : Prop := Nonempty (s.Clock v)

end Schedule

end Kvm
