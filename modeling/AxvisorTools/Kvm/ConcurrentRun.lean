import AxvisorTools.Kvm.Client
import Mathlib.Data.Fin.Basic
import Mathlib.Data.List.FinRange
import Mathlib.Logic.Function.Basic

/-!
# Two vCPU threads and a barrier

`axvisor-kvm-concurrent-run-smoke.c` starts a thread for each vCPU. A thread maps the shared page of
its vCPU, waits at a barrier for the others and calls `KVM_RUN`; `main` joins the threads in their
order and looks at what each of them has left. A thread that cannot map the page returns without
going to the barrier. The number `n` of threads is `VCPU_COUNT`.

The scheduler is free: `Step` lets `main` or any thread take its next step, until `main` ends the
process. What the kernel answers is fixed in a `World` before the run; as this is any world, it may be
the one in which the kernel gives the answers that it gives in a run.
-/

namespace Kvm.ConcurrentRun

open Checks

/-- `VCPU_COUNT`. -/
def vcpuCount : Nat := 2

section

variable (strerror : Nat → Text)

/-- `setup_x86_vcpu`. -/
def setupX86Vcpu : List (Check Reply) :=
  ["KVM_SET_REGS", "KVM_SET_SREGS", "KVM_SET_FPU", "KVM_SET_LAPIC", "KVM_SET_MP_STATE",
    "KVM_SET_CPUID2"].map (mustSucceed strerror)

/-- `main` up to the threads; `size` is `sizeof(struct kvm_run)`. -/
def setupCalls (size : Nat) (n : Nat) : List (Check Reply) :=
  [mustSucceed strerror "open KVM device",
    mustHold (fun r => (size : Int) ≤ r.ret) "KVM_GET_VCPU_MMAP_SIZE is too small"] ++
  ["KVM_CREATE_VM", "mmap guest memory", "KVM_SET_USER_MEMORY_REGION", "KVM_SET_TSS_ADDR",
    "KVM_SET_IDENTITY_MAP_ADDR", "KVM_CREATE_IRQCHIP", "KVM_CREATE_PIT2"].map
      (mustSucceed strerror) ++
  (List.replicate n (mustSucceed strerror "KVM_CREATE_VCPU" :: setupX86Vcpu strerror)).flatten ++
  [mustReturn strerror 0 "pthread_barrier_init"]

end

/-- The fields of `struct vcpu_thread_arg` that the thread fills in. -/
structure ThreadArg where
  ret : Int
  err : Nat
  exitReason : Nat
  deriving DecidableEq, Repr

/-- Where a thread is. -/
inductive Pc
  /-- Not created. -/
  | absent
  | start
  /-- The shared page is mapped. -/
  | mapped
  /-- In `pthread_barrier_wait`. -/
  | waiting
  | released
  /-- In `ioctl(KVM_RUN)`. -/
  | inRun
  /-- Returned without the page. -/
  | failed
  | done
  deriving DecidableEq, Repr

structure Thread where
  pc : Pc
  arg : ThreadArg
  deriving DecidableEq, Repr

/-- What the kernel answers: to the set-up, to `pthread_create`, to `pthread_join` (which fails at
once, if it fails), to `mmap` of the shared page and to `KVM_RUN`, which may never return. -/
structure World (n : Nat) where
  strerror : Nat → Text
  kvmDev : Text
  kvmRunSize : Nat
  setup : Nat → Reply
  createErrno : Fin n → Option Nat
  joinErrno : Fin n → Option Nat
  mapErrno : Fin n → Option Nat
  vcpuRun : Fin n → Option Reply

/-- Where `main` is. -/
inductive Main
  | creating (i : Nat)
  | joining (i : Nat)
  | exited (e : Exit)
  deriving DecidableEq, Repr

structure State (n : Nat) where
  main : Main
  threads : Fin n → Thread
  /-- How many threads have come to the barrier. -/
  arrived : Nat

variable {n : Nat}

def State.setThread (s : State n) (i : Fin n) (t : Thread) : State n :=
  { s with threads := Function.update s.threads i t }

/-- The reasons that `main` accepts: `KVM_EXIT_FAIL_ENTRY`, `KVM_EXIT_INTERNAL_ERROR`,
`KVM_EXIT_HLT`, `KVM_EXIT_MMIO` and `KVM_EXIT_IO`. -/
def expectedExits : List Nat := [9, 17, 5, 6, 2]

/-- What `main` has against a thread that has ended. -/
def objection (a : ThreadArg) : Option Exit :=
  if a.ret < 0 then some ⟨1, [], dieMsg "concurrent KVM_RUN returned error"⟩
  else if a.exitReason ∈ expectedExits then none
  else some ⟨1, [], dieMsg "concurrent KVM_RUN returned unexpected exit"⟩

/-- What is printed at the end. -/
def passText (kvmDev : Text) (args : List ThreadArg) : Text :=
  printLine "AXVISOR_KVM_CONCURRENT_RUN_SMOKE_PASS=1" ++ textLine "KVM_DEV" kvmDev ++
    args.zipIdx.flatMap fun (a, i) =>
      natLine ("VCPU" ++ Nat.toDigits 10 i ++ "_EXIT_REASON") a.exitReason

/-- The process before its first thread: `main` has made its calls, or has died. -/
def init (w : World n) : State n where
  main :=
    match runChecks (setupCalls w.strerror w.kvmRunSize n) w.setup [] with
    | .ok _ => .creating 0
    | .error e => .exited e
  threads _ := ⟨.absent, ⟨0, 0, 0⟩⟩
  arrived := 0

/-- The thread has returned. -/
def Pc.ended : Pc → Bool
  | .failed | .done => true
  | _ => false

/-- A step of `main`. It blocks in `pthread_join`. -/
def mainStep (w : World n) (s : State n) : Option (State n) :=
  match s.main with
  | .creating i =>
    if h : i < n then
      match w.createErrno ⟨i, h⟩ with
      | some e => some { s with main := .exited ⟨1, [], dieErrno w.strerror "pthread_create" e⟩ }
      | none => some { s.setThread ⟨i, h⟩ ⟨.start, ⟨0, 0, 0⟩⟩ with main := .creating (i + 1) }
    else some { s with main := .joining 0 }
  | .joining i =>
    if h : i < n then
      match w.joinErrno ⟨i, h⟩ with
      | some e => some { s with main := .exited ⟨1, [], dieErrno w.strerror "pthread_join" e⟩ }
      | none =>
        let t := s.threads ⟨i, h⟩
        if t.pc.ended then
          match objection t.arg with
          | some e => some { s with main := .exited e }
          | none => some { s with main := .joining (i + 1) }
        else none
    else
      let args := (List.finRange n).map fun i => (s.threads i).arg
      some { s with main := .exited ⟨0, passText w.kvmDev args, []⟩ }
  | .exited _ => none

/-- What a thread leaves after `KVM_RUN`. -/
def argOf (r : Reply) : ThreadArg :=
  ⟨r.ret, if r.ret < 0 then r.errno else 0, r.field 0⟩

/-- A step of `vcpu_thread_main`. It blocks at the barrier and in `KVM_RUN`. -/
def threadStep (w : World n) (s : State n) (i : Fin n) : Option (State n) :=
  let t := s.threads i
  match t.pc with
  | .start =>
    match w.mapErrno i with
    | some e => some (s.setThread i ⟨.failed, { t.arg with ret := -1, err := e }⟩)
    | none => some (s.setThread i ⟨.mapped, t.arg⟩)
  | .mapped => some { s.setThread i ⟨.waiting, t.arg⟩ with arrived := s.arrived + 1 }
  | .waiting => if s.arrived = n then some (s.setThread i ⟨.released, t.arg⟩) else none
  | .released => some (s.setThread i ⟨.inRun, t.arg⟩)
  | .inRun => (w.vcpuRun i).map fun r => s.setThread i ⟨.done, argOf r⟩
  | _ => none

/-- How the process has ended, if it has. -/
def State.exit? (s : State n) : Option Exit :=
  match s.main with
  | .exited e => some e
  | _ => none

/-- A step of the process. -/
def Step (w : World n) (s s' : State n) : Prop :=
  s.exit? = none ∧ (mainStep w s = some s' ∨ ∃ i, threadStep w s i = some s')

/-- Any number of steps from the start. -/
def Reachable (w : World n) (s : State n) : Prop := Relation.ReflTransGen (Step w) (init w) s

/-! ## The same, one thread after the other -/

/-- What thread `i` leaves; nothing if it waits for ever. -/
def World.outcome (w : World n) (i : Fin n) : Option ThreadArg :=
  match w.mapErrno i with
  | some e => some ⟨-1, e, 0⟩
  | none => if ∃ j, (w.mapErrno j).isSome then none else (w.vcpuRun i).map argOf

/-- The joins of the threads `is`, after those whose arguments are `args`. -/
def World.join (w : World n) : List (Fin n) → List ThreadArg → Option Exit
  | [], args => some ⟨0, passText w.kvmDev args, []⟩
  | i :: is, args =>
    match w.joinErrno i, w.outcome i with
    | some e, _ => some ⟨1, [], dieErrno w.strerror "pthread_join" e⟩
    | none, none => none
    | none, some a =>
      match objection a with
      | some e => some e
      | none => w.join is (args ++ [a])

/-- The creation of the threads `is`, and then the joins of all. -/
def World.create (w : World n) : List (Fin n) → Option Exit
  | [] => w.join (List.finRange n) []
  | i :: is =>
    match w.createErrno i with
    | some e => some ⟨1, [], dieErrno w.strerror "pthread_create" e⟩
    | none => w.create is

/-- How the process ends; `none` if it hangs. -/
def World.result (w : World n) : Option Exit :=
  match runChecks (setupCalls w.strerror w.kvmRunSize n) w.setup [] with
  | .ok _ => w.create (List.finRange n)
  | .error e => some e

end Kvm.ConcurrentRun
