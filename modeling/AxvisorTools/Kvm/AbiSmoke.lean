import AxvisorTools.Kvm.ConcurrentRun
import AxvisorTools.Shell.Script
import AxvisorTools.Text.Grep

/-!
# The KVM ABI smoke test

The programs `axvisor-kvm-api-smoke.c`, `axvisor-kvm-mem-vcpu-smoke.c` and
`axvisor-kvm-negative-smoke.c` as built for x86, and the init script that
`verify-axvisor-kvm-x86-abi-smoke.sh` puts into the guest: it loads the module, runs these programs
and the concurrent one, and reports on the console. `finish` powers the guest off and does not return.
-/

namespace Kvm.AbiSmoke

open Checks Shell

section Programs

variable (strerror : Nat → Text) (kvmRunSize : Nat) (kvmDev : Text)

def mmapSizeCheck : Check Reply :=
  mustHold (fun r => (kvmRunSize : Int) ≤ r.ret) "KVM_GET_VCPU_MMAP_SIZE is too small"

/-! ## `axvisor-kvm-api-smoke.c` -/

/-- `if (ioctl(kvm_fd, KVM_CHECK_EXTENSION, …) <= 0) die_msg(what);`. -/
def capCheck (what : String) : Check Reply := mustHold (fun r => 0 < r.ret) what

def apiChecks : List (Check Reply) :=
  [mustSucceed strerror "open KVM device",
    mustYield strerror "KVM_GET_API_VERSION" (fun r => r.ret = 12) "unexpected KVM API version",
    capCheck "KVM_CAP_USER_MEMORY is not available",
    capCheck "KVM_CAP_NR_MEMSLOTS is not available", capCheck "KVM_CAP_IRQCHIP is not available",
    capCheck "KVM_CAP_IOEVENTFD is not available", capCheck "KVM_CAP_IRQFD is not available",
    capCheck "KVM_CAP_EXT_CPUID is not available",
    mustYield strerror "KVM_GET_SUPPORTED_CPUID" (fun r => r.field 0 ≠ 0)
      "KVM_GET_SUPPORTED_CPUID returned no entries",
    mustYield strerror "KVM_GET_MSR_INDEX_LIST" (fun r => r.field 0 ≠ 0)
      "KVM_GET_MSR_INDEX_LIST returned no entries",
    mmapSizeCheck kvmRunSize, mustSucceed strerror "KVM_CREATE_VM"]

def apiSmoke : Program Reply where
  checks := apiChecks strerror kvmRunSize
  report replies :=
    printLine "AXVISOR_KVM_API_SMOKE_PASS=1" ++ textLine "KVM_DEV" kvmDev ++
      intLine "KVM_API_VERSION" (replies 1).ret ++ intLine "KVM_CAP_USER_MEMORY" (replies 2).ret ++
      intLine "KVM_CAP_NR_MEMSLOTS" (replies 3).ret ++
      intLine "KVM_VCPU_MMAP_SIZE" (replies 10).ret ++
      natLine "KVM_SUPPORTED_CPUID_NENT" ((replies 8).field 0) ++
      natLine "KVM_MSR_INDEX_COUNT" ((replies 9).field 0)

/-! ## `axvisor-kvm-mem-vcpu-smoke.c` -/

/-- `exercise_x86_vm_ioctls`. -/
def exerciseX86VmIoctls : List (Check Reply) :=
  ["KVM_SET_TSS_ADDR", "KVM_SET_IDENTITY_MAP_ADDR", "KVM_CREATE_IRQCHIP", "KVM_CREATE_PIT2",
    "KVM_GET_CLOCK", "KVM_SET_CLOCK", "KVM_GET_IRQCHIP", "KVM_SET_IRQCHIP", "KVM_GET_PIT2",
    "KVM_SET_PIT2", "eventfd", "KVM_IOEVENTFD assign"].map (mustSucceed strerror) ++
  [mustHold (failsWith EEXIST) "KVM_IOEVENTFD duplicate assign did not fail with EEXIST",
    mustSucceed strerror "KVM_IOEVENTFD deassign", mustSucceed strerror "KVM_IRQFD assign",
    mustReturn strerror 8 "signal KVM_IRQFD eventfd",
    mustHold (failsWith EBUSY) "KVM_IRQFD duplicate assign did not fail with EBUSY",
    mustHold (failsWith EOPNOTSUPP) "KVM_IRQFD resample did not fail with EOPNOTSUPP",
    mustSucceed strerror "KVM_IRQFD deassign"]

/-- `if (… <= 0) die_errno(what);`. -/
def mustBePositive (what : String) : Check Reply where
  complaint r := if r.ret ≤ 0 then some (dieErrno strerror what.toList r.errno) else none
  line := []

/-- `if (… != value) die_errno(call);` and then `if (!test) die_msg(what);`. -/
def mustReturnAnd (value : Int) (call : String) (test : Reply → Bool) (what : String) :
    Check Reply where
  complaint r :=
    if r.ret ≠ value then some (dieErrno strerror call.toList r.errno)
    else if test r then none else some (dieMsg what.toList)
  line := []

/-- `exercise_x86_vcpu_ioctls`. -/
def exerciseX86VcpuIoctls : List (Check Reply) :=
  [mustSucceed strerror "KVM_SET_REGS",
    mustYield strerror "KVM_GET_REGS" (fun r => r.field 0 = 0x100000)
      "KVM_GET_REGS did not preserve RIP"] ++
  ["KVM_SET_SREGS", "KVM_GET_SREGS", "KVM_SET_FPU", "KVM_GET_FPU", "KVM_SET_LAPIC",
    "KVM_GET_LAPIC", "KVM_SET_MP_STATE", "KVM_GET_MP_STATE", "KVM_SET_DEBUGREGS",
    "KVM_GET_DEBUGREGS", "KVM_SET_XSAVE", "KVM_GET_XSAVE", "KVM_SET_XCRS", "KVM_GET_XCRS",
    "KVM_SET_VCPU_EVENTS", "KVM_GET_VCPU_EVENTS", "KVM_SET_TSC_KHZ"].map (mustSucceed strerror) ++
  [mustBePositive strerror "KVM_GET_TSC_KHZ", mustSucceed strerror "KVM_SET_CPUID2",
    mustYield strerror "KVM_GET_CPUID2" (fun r => r.field 0 = 1 ∧ r.field 1 = 1)
      "KVM_GET_CPUID2 did not preserve CPUID",
    mustReturn strerror 1 "KVM_SET_MSRS",
    mustReturnAnd strerror 1 "KVM_GET_MSRS" (fun r => r.field 0 = 1234)
      "KVM_GET_MSRS did not preserve MSR value"]

/-- `KVM_RUN` with `immediate_exit` set. -/
def immediateExit : Check Reply where
  complaint r :=
    if failsWith EINTR r then
      if r.field 0 = 1 then none else some (dieMsg "KVM_RUN did not preserve immediate_exit")
    else some (dieMsg "KVM_RUN immediate_exit did not return EINTR")
  line := []

def memVcpuChecks : List (Check Reply) :=
  [mustSucceed strerror "open KVM device", mmapSizeCheck kvmRunSize,
    mustSucceed strerror "KVM_CREATE_VM", mustSucceed strerror "mmap guest memory",
    mustSucceed strerror "KVM_SET_USER_MEMORY_REGION"] ++
  exerciseX86VmIoctls strerror ++ [mustSucceed strerror "KVM_CREATE_VCPU"] ++
  exerciseX86VcpuIoctls strerror ++
  [mustSucceed strerror "mmap kvm_run", immediateExit,
    mustYield strerror "KVM_RUN" (fun r => r.field 0 = 9)
      "unexpected KVM_RUN exit reason for skeleton provider"]

/-- The last call is `KVM_RUN`; the program then prints `exit_reason` and `fail_entry.cpu`. -/
def memVcpuSmoke : Program Reply where
  checks := memVcpuChecks strerror kvmRunSize
  report replies :=
    let last := replies ((memVcpuChecks strerror kvmRunSize).length - 1)
    printLine "AXVISOR_KVM_MEM_VCPU_SMOKE_PASS=1" ++ textLine "KVM_DEV" kvmDev ++
      intLine "KVM_VCPU_MMAP_SIZE" (replies 1).ret ++
      natLine "KVM_RUN_EXIT_REASON" (last.field 0) ++
      natLine "KVM_FAIL_ENTRY_CPU" (last.field 1) ++ printLine "KVM_X86_INIT_IOCTL_SMOKE=1"

/-! ## `axvisor-kvm-negative-smoke.c` -/

/-- `expect_errno`, and the line that is printed after it. -/
def expectErrno (name : String) (expected : Nat) (line : String) : Check Reply where
  complaint r :=
    if r.ret ≠ -1 then
      some (name.toList ++ " unexpectedly succeeded: ret=" ++ decimal r.ret ++ ['\n'])
    else if r.errno ≠ expected then
      some (name.toList ++ " returned errno=" ++ Nat.toDigits 10 r.errno ++ " (" ++
        strerror r.errno ++ "), expected errno=" ++ Nat.toDigits 10 expected ++
        " (" ++ strerror expected ++ ")\n")
    else none
  line := printLine line

def negativeChecks : List (Check Reply) :=
  [mustSucceed strerror "open KVM device",
    expectErrno strerror "unknown KVM ioctl on kvm fd" ENOTTY "NEG_UNKNOWN_IOCTL_ENOTTY=1",
    expectErrno strerror "KVM_CREATE_VCPU on kvm fd" ENOTTY "NEG_WRONG_FD_CLASS_KVM_CREATE_VCPU=1",
    mustSucceed strerror "KVM_CREATE_VM",
    expectErrno strerror "KVM_GET_API_VERSION on vm fd" ENOTTY
      "NEG_WRONG_FD_CLASS_VM_GET_API_VERSION=1",
    mustSucceed strerror "mmap guest memory",
    expectErrno strerror "unaligned KVM_SET_USER_MEMORY_REGION" EINVAL "NEG_BAD_MEMSLOT_EINVAL=1",
    mustSucceed strerror "KVM_CREATE_VCPU first",
    expectErrno strerror "duplicate KVM_CREATE_VCPU" EEXIST "NEG_DUP_VCPU_EEXIST=1",
    expectErrno strerror "invalid KVM_SET_XCRS" EINVAL "NEG_BAD_REGS_XCR0_EINVAL=1",
    printing (mustSucceed strerror "KVM_GET_REGS after closing vm fd")
      "KVM_FD_LIFETIME_VCPU_AFTER_VM_CLOSE=1"]

def negativeSmoke : Program Reply where
  checks := negativeChecks strerror
  report _ := printLine "AXVISOR_KVM_NEGATIVE_SMOKE_PASS=1" ++ textLine "KVM_DEV" kvmDev

end Programs

/-! ## The guest -/

/-- A guest: `AXVISOR_KVM_DEV_NAME`, how the commands of its init script end, and what its kernel
answers to the four programs. -/
structure Guest where
  strerror : Nat → Text
  kvmRunSize : Nat
  devName : Text
  mkdir : Bool
  uname : Bool
  insmod : Bool
  /-- `[ -e "$AXVISOR_KVM_DEV" ]`. -/
  device : Bool
  api : Nat → Reply
  memVcpu : Nat → Reply
  concurrent : Nat → Reply
  createErrno : Fin 2 → Option Nat
  joinErrno : Fin 2 → Option Nat
  mapErrno : Fin 2 → Option Nat
  vcpuRun : Fin 2 → Option Reply
  negative : Nat → Reply

namespace Guest

variable (g : Guest)

/-- `AXVISOR_KVM_DEV`. -/
def dev : Text := "/dev/" ++ g.devName

def world : ConcurrentRun.World ConcurrentRun.vcpuCount where
  strerror := g.strerror
  kvmDev := g.dev
  kvmRunSize := g.kvmRunSize
  setup := g.concurrent
  createErrno := g.createErrno
  joinErrno := g.joinErrno
  mapErrno := g.mapErrno
  vcpuRun := g.vcpuRun

end Guest

/-- A test of the script: what it announces, the argument of `fail`, and how the program ends, if it
does. -/
structure Test where
  title : Text
  label : Text
  outcome : Option Exit

def Guest.tests (g : Guest) : List Test :=
  [⟨"[guest] run KVM API smoke", "api-smoke",
      some ((apiSmoke g.strerror g.kvmRunSize g.dev).run g.api)⟩,
    ⟨"[guest] run KVM mem/vcpu smoke", "mem-vcpu-smoke",
      some ((memVcpuSmoke g.strerror g.kvmRunSize g.dev).run g.memVcpu)⟩,
    ⟨"[guest] run KVM concurrent KVM_RUN smoke", "concurrent-run-smoke", g.world.result⟩,
    ⟨"[guest] run KVM negative smoke", "negative-smoke",
      some ((negativeSmoke g.strerror g.dev).run g.negative)⟩]

def passMarker : Text := "AXVISOR_KVM_ABI_SMOKE_QEMU_PASS=1"

def failMarker : Text := "AXVISOR_KVM_ABI_SMOKE_FAIL="

/-- The line that `fail` prints. -/
def failLine (label : Text) : Text := failMarker ++ label

/-- The lines on the console from the tests on. A program writes its results first and then the
complaint it dies with. -/
def runTests : List Test → List Text
  | [] => [passMarker]
  | t :: ts =>
    t.title ::
      match t.outcome with
      | none => []
      | some e => fileLines (e.stdout ++ e.stderr) ++
          if e.status = 0 then runTests ts else [failLine t.label]

/-- What the script and the programs write to the console. -/
def Guest.lines (g : Guest) : List Text :=
  if !g.mkdir then []
  else "[guest] uname -a" ::
    if !g.uname then []
    else ("[guest] insmod axvisor_kvm.ko dev_name=" ++ g.devName) ::
      if !g.insmod then [failLine "insmod"]
      else if !g.device then [failLine "missing-dev-kvm"]
      else runTests g.tests

/-- Everything the guest is tested for is as it should be. -/
def Guest.Sound (g : Guest) : Prop :=
  g.mkdir = true ∧ g.uname = true ∧ g.insmod = true ∧ g.device = true ∧
    ∀ t ∈ g.tests, ∃ e, t.outcome = some e ∧ e.status = 0

end Kvm.AbiSmoke
