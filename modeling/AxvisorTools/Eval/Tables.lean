import AxvisorTools.Eval.Import

/-!
# Tables of the paper evaluation

The texts that `run-axvisor-paper-evaluation.sh` writes as they are: the headers of the performance
tables, the KVM ABI coverage, the README, and the items that `record_pending_matrix_skips` records
at the end.
-/

namespace Eval

open Shell Harness

/-- `write_placeholder_outputs`; an existing `.keep` is left as it is. -/
def writePlaceholderOutputs : Sh State Unit := do
  writeFile "performance/boot-samples.csv" (hereDoc [
    "configuration,test_id,iteration,start_ns,end_ns,duration_ns,status,notes"])
  writeFile "performance/microbench.csv" (hereDoc [
    "configuration,operation,iterations,total_ns,mean_ns,p50_ns,p95_ns,p99_ns,vm_exit_count,hostif_call_count"])
  writeFile "performance/hostif-profile.csv" (hereDoc [
    "configuration,test_id,hostif_method,call_count,total_ns,mean_ns,p95_ns,p99_ns,error_count"])
  writeFile "performance/block-io.csv" (hereDoc [
    "configuration,test_id,tool,workload,iops,avg_latency_us,p99_latency_us,throughput_mib_s,host_cpu_percent,notes"])
  writeFile "performance/network.csv" (hereDoc [
    "configuration,test_id,tool,workload,throughput_gbps,p50_latency_us,p99_latency_us,loss_percent,host_cpu_percent,guest_cpu_percent,notes"])
  Sh.modify fun s => State.copy ((outFile s "logs/.keep").or (some [])) "logs/.keep" s

/-- `abi/kvm-abi-coverage.csv`. -/
def abiCoverage : List String := [
    "architecture,ioctl_or_capability,object_class,observed_by_firecracker,implemented,status,semantic_test_id,call_count,first_error,notes",
    "x86_64,KVM_GET_API_VERSION,kvm-fd,yes,yes,fully-tested,FC-INIT,1,,Firecracker accepts API version",
    "x86_64,KVM_CHECK_EXTENSION,kvm-fd,yes,yes,fully-tested,FC-INIT,unknown,,Capabilities are probed by Firecracker init smoke",
    "x86_64,KVM_CREATE_VM,kvm-fd,yes,yes,fully-tested,FC-INIT,1,,VM object lifecycle exercised",
    "x86_64,KVM_GET_VCPU_MMAP_SIZE,kvm-fd,yes,yes,fully-tested,FC-INIT,1,,kvm_run mmap size accepted",
    "x86_64,KVM_CREATE_VCPU,vm-fd,yes,yes,fully-tested,FC-INITRAMFS,1,,Single vCPU boot path exercised",
    "x86_64,KVM_SET_USER_MEMORY_REGION,vm-fd,yes,yes,fully-tested,FC-INITRAMFS,unknown,,Guest memory used to boot initramfs",
    "x86_64,KVM_SET_TSS_ADDR,vm-fd,yes,yes,fully-tested,FC-INIT,1,,x86 setup path",
    "x86_64,KVM_SET_IDENTITY_MAP_ADDR,vm-fd,yes,yes,fully-tested,FC-INIT,1,,x86 setup path",
    "x86_64,KVM_CREATE_IRQCHIP,vm-fd,yes,yes,fully-tested,FC-INITRAMFS,1,,Required for Firecracker boot path",
    "x86_64,KVM_CREATE_PIT2,vm-fd,yes,yes,fully-tested,FC-INIT,1,,PIT state path initialized",
    "x86_64,KVM_GET_CLOCK,vm-fd,yes,yes,fully-tested,FC-INIT,1,,Clock ioctl smoke",
    "x86_64,KVM_SET_CLOCK,vm-fd,yes,yes,fully-tested,FC-INIT,1,,Clock ioctl smoke",
    "x86_64,KVM_GET_IRQCHIP,vm-fd,yes,yes,fully-tested,FC-INIT,1,,IRQ chip state smoke",
    "x86_64,KVM_SET_IRQCHIP,vm-fd,yes,yes,fully-tested,FC-INIT,1,,IRQ chip state smoke",
    "x86_64,KVM_GET_PIT2,vm-fd,yes,yes,fully-tested,FC-INIT,1,,PIT state smoke",
    "x86_64,KVM_SET_PIT2,vm-fd,yes,yes,fully-tested,FC-INIT,1,,PIT state smoke",
    "x86_64,KVM_IOEVENTFD,vm-fd,yes,yes,fully-tested,KVM-ABI-SMOKE,unknown,,Standalone ABI smoke covers assign; duplicate EEXIST; deassign; Firecracker virtio-blk data-plane still pending",
    "x86_64,KVM_IRQFD,vm-fd,yes,yes,fully-tested,KVM-ABI-SMOKE,unknown,,Standalone ABI smoke covers assign; duplicate EBUSY; resample EOPNOTSUPP; deassign; eventfd signal path",
    "x86_64,KVM_GET_REGS,vcpu-fd,yes,yes,fully-tested,FC-INITRAMFS,unknown,,vCPU state boot path",
    "x86_64,KVM_SET_REGS,vcpu-fd,yes,yes,fully-tested,FC-INITRAMFS,unknown,,vCPU state boot path",
    "x86_64,KVM_GET_SREGS,vcpu-fd,yes,yes,fully-tested,FC-INITRAMFS,unknown,,vCPU state boot path",
    "x86_64,KVM_SET_SREGS,vcpu-fd,yes,yes,fully-tested,FC-INITRAMFS,unknown,,vCPU state boot path",
    "x86_64,KVM_GET_FPU,vcpu-fd,yes,yes,fully-tested,FC-INIT,1,,State smoke",
    "x86_64,KVM_SET_FPU,vcpu-fd,yes,yes,fully-tested,FC-INITRAMFS,unknown,,State smoke and boot path",
    "x86_64,KVM_GET_LAPIC,vcpu-fd,yes,yes,fully-tested,FC-INIT,1,,State smoke",
    "x86_64,KVM_SET_LAPIC,vcpu-fd,yes,yes,fully-tested,FC-INITRAMFS,unknown,,State smoke and boot path",
    "x86_64,KVM_GET_MP_STATE,vcpu-fd,yes,yes,fully-tested,FC-INIT,1,,State smoke",
    "x86_64,KVM_SET_MP_STATE,vcpu-fd,yes,yes,fully-tested,FC-INITRAMFS,unknown,,State smoke and boot path",
    "x86_64,KVM_SET_CPUID2,vcpu-fd,yes,yes,fully-tested,FC-INITRAMFS,unknown,,Firecracker boot uses CPUID setup",
    "x86_64,KVM_GET_MSRS,vcpu-fd,yes,yes,fully-tested,FC-INIT,1,,MSR smoke",
    "x86_64,KVM_SET_MSRS,vcpu-fd,yes,yes,fully-tested,FC-INITRAMFS,unknown,,Boot path uses MSR setup",
    "x86_64,KVM_RUN,vcpu-fd,yes,yes,fully-tested,FC-INITRAMFS,unknown,,Guest reaches deterministic PASS marker",
    "x86_64,UNKNOWN_KVM_IOCTL,kvm-fd,no,yes,fully-tested,NEG-UNKNOWN-IOCTL,1,,Unknown KVM ioctl returns ENOTTY",
    "x86_64,KVM_CREATE_VCPU,kvm-fd,no,yes,fully-tested,NEG-WRONG-FD-CLASS,1,,Wrong fd class returns ENOTTY",
    "x86_64,KVM_GET_API_VERSION,vm-fd,no,yes,fully-tested,NEG-WRONG-FD-CLASS,1,,Wrong fd class returns ENOTTY",
    "x86_64,KVM_SET_USER_MEMORY_REGION_INVALID,vm-fd,no,yes,fully-tested,NEG-BAD-MEMSLOT,1,,Unaligned memslot returns EINVAL",
    "x86_64,KVM_CREATE_VCPU_DUPLICATE,vm-fd,no,yes,fully-tested,NEG-DUP-VCPU,1,,Duplicate vCPU id returns EEXIST",
    "x86_64,KVM_SET_XCRS_INVALID,vcpu-fd,no,yes,fully-tested,NEG-BAD-REGS,1,,Invalid XCR0 returns EINVAL",
    "x86_64,VM_FD_CLOSE_BEFORE_VCPU_FD,fd-lifecycle,no,yes,fully-tested,NEG-CLOSE-RACE,1,,vCPU fd remains valid after parent VM fd close",
    "x86_64,KVM_CAP_IOEVENTFD,capability,yes,yes,fully-tested,KVM-ABI-SMOKE,unknown,,Capability is advertised and standalone ABI smoke exercises basic ioeventfd semantics",
    "x86_64,KVM_CAP_IRQFD,capability,yes,yes,fully-tested,KVM-ABI-SMOKE,unknown,,Capability is advertised and standalone ABI smoke exercises basic irqfd semantics",
    "x86_64,KVM_CAP_USER_MEMORY,capability,yes,yes,fully-tested,FC-INITRAMFS,unknown,,Guest memory required for boot",
    "x86_64,KVM_CAP_NR_MEMSLOTS,capability,yes,yes,fully-tested,FC-INIT,1,,Capability smoke"]

/-- `write_abi_coverage`. -/
def writeAbiCoverage : Sh State Unit := do
  writeFile "abi/kvm-abi-coverage.csv" (hereDoc abiCoverage)
  record "KVM-ABI-COVERAGE" .pass
    "generated KVM ABI coverage classification for tested x86 Firecracker path"
    ["abi/kvm-abi-coverage.csv"]

/-- The lines of `README.md` after those with the variables. -/
def readmeBody : List String := [
    "",
    "This harness creates the paper-evaluation output layout from the requested",
    "test matrix. This run focuses on importing and normalizing current x86 evidence.",
    "It does not claim the complete evaluation goal is finished.",
    "",
    "Top-level status is `fail` unless every required matrix item is either passed",
    "or intentionally out of scope for a smaller suite. This full paper-evaluation",
    "suite records not-yet-run required items as `skip`, so an import-only run is",
    "expected to remain a non-pass result.",
    "",
    "Imported x86 evidence:",
    "",
    "- `L1-ROOTFS-BLK`: Linux/x86 host -> AxVisor native -> Linux rootfs guest.",
    "- `L1-INITRAMFS`: Linux/x86 host -> AxVisor native -> Linux initramfs guest.",
    "- `FC-INIT`: AxVisor KVM frontend accepts Firecracker-required init ABI.",
    "- `FC-INITRAMFS`: unmodified x86 Firecracker boots an initramfs Linux guest through AxVisor `/dev/kvm`.",
    "- `FC-ROOTFS-TINY`: unmodified x86 Firecracker mounts an ext4 rootfs and reaches static tiny init through AxVisor `/dev/kvm`.",
    "- `FC-ROOTFS-TINY-STANDALONE`: standalone rootfs/tiny-init evidence imported when `FIRECRACKER_ROOTFS_TINY_DIR` is provided.",
    "- `KVM-ABI-SMOKE`: standalone KVM ABI smoke for API/capability, memslot, vCPU, eventfd/irqfd, negative errno semantics, and `KVM_RUN`.",
    "- `STAB-NATIVE-CYCLE-20`: imported 20 x86 native rootfs cycles plus one initramfs cycle.",
    "- `L1-MEM-SIZES`: imported x86 native guest memory-size evidence when `X86_MEM_SIZES_DIR` is provided.",
    "- `L1-TIMER`, `L1-IRQ`, `L1-MMIO`: imported x86 native guest timer/interrupt/repeated virtio I/O evidence when `X86_FUNCTIONAL_DIR` is provided.",
    "- `L1-SMP-2-BOOT`: imported x86 native guest 2-vCPU initramfs userspace evidence when `X86_SMP_DIR` is provided.",
    "- `L1-SMP-2`: imported x86 native guest 2-vCPU rootfs/virtio-blk evidence when `X86_SMP_DIR` is provided.",
    "- `L1-POWEROFF`: imported guest-triggered poweroff evidence when `X86_POWEROFF_DIR` is provided.",
    "- `ARCH-STATIC-CHECKS`: imported source-level architecture boundary evidence when `ARCH_STATIC_DIR` is provided.",
    "",
    "Explicit current gaps:",
    "",
    "- `FC-ROOTFS-BLK`: full BusyBox/shell Firecracker rootfs is not passed in this run unless explicitly provided or run.",
    "- `FC-SMP-2`: not implemented in the current Firecracker AxVisor KVM frontend test.",
    "- `L1-SMP-2` rootfs can fail independently while `L1-SMP-2-BOOT` passes;",
    "  this means 2-vCPU boot is proven but SMP + virtio-blk rootfs completion is",
    "  still open.",
    "- full memory-size sweep `128M/256M/512M/1G/max practical`: only the provided `L1-MEM-SIZES` evidence is claimed.",
    "- `STAB-NATIVE-CYCLE-1000`: not run; current imported evidence covers 20 rootfs cycles.",
    "- Performance, stability, network, and static dependency phases are represented",
    "  as pending/skipped evidence, not successful results.",
    "",
    "Primary files:",
    "",
    "- `summary.json`",
    "- `summary.csv`",
    "- `environment/environment.json`",
    "- `abi/kvm-abi-coverage.csv`",
    "- `performance/boot-samples.csv`",
    "- `performance/microbench.csv`",
    "- `performance/hostif-profile.csv`",
    "- `SHA256SUMS`"]

/-- `write_readme`. -/
def writeReadme (suite runId : Text) : Sh State Unit := do
  let s ← Sh.get
  writeFile "README.md" (hereDoc ["# AxVisor Paper Evaluation Evidence", ""] ++
    echoes ["Suite: `" ++ suite ++ "`", [], "Run ID: `" ++ runId ++ "`",
      [], "Status: `" ++ s.status.text ++ "`"] ++ hereDoc readmeBody)

/-! ## Pending items -/

/-- A call of `record_pending_matrix_skips`: `record_test`, or `record_test_if_missing`. -/
structure Pending where
  ifMissing : Bool
  id : String
  status : Verdict
  reason : String
  artifacts : List String

def Pending.toRecord (p : Pending) : Record :=
  ⟨p.id.toList, p.status, p.reason.toList, p.artifacts.map String.toList⟩

/-- `record_test id skip reason`. -/
def skipped (id reason : String) : Pending := ⟨false, id, .skip, reason, []⟩

/-- `record_test_if_missing id skip reason`. -/
def ifMissing (id reason : String) : Pending := ⟨true, id, .skip, reason, []⟩

/-- The calls of `record_pending_matrix_skips`. -/
def pendingMatrixSkips : List Pending := [
  ⟨false, "HARNESS-SKIP", .pass,
    "unsupported or not-yet-run tests are recorded with explicit skip status instead of silent success", []⟩,
  skipped "HARNESS-WARMUP"
    "performance warm-up/repeated sampling is not run in this import-focused invocation",
  skipped "X86-KVM-FC" "Linux KVM + Firecracker baseline not run in this invocation",
  skipped "X86-AX-FC"
    "covered only by imported AxVisor Firecracker boot tests, not full baseline/performance matrix",
  skipped "RV-AS-AX-NATIVE" "Asterinas/RISC-V native evidence not imported in this invocation",
  skipped "RV-AS-AX-FC" "Asterinas/RISC-V Firecracker evidence not imported in this invocation",
  skipped "RV-LINUX-KVM-FC"
    "RISC-V Linux KVM Firecracker baseline not available in this invocation",
  skipped "RV-LINUX-AX-FC" "RISC-V Linux AxVisor Firecracker path not run in this invocation",
  skipped "X86-AS-AX-FC" "Asterinas/x86 AxVisor Firecracker path not run in this invocation",
  ifMissing "L1-TIMER"
    "dedicated guest monotonic/timer interrupt threshold test not imported in this invocation",
  ifMissing "L1-IRQ" "dedicated interrupt-count completion test not imported in this invocation",
  ifMissing "L1-MMIO"
    "dedicated repeated virtio/MMIO register test not imported in this invocation",
  ifMissing "L1-SMP-SCALE" "1/2/4/8 vCPU scale test not imported in this invocation",
  ifMissing "L1-POWEROFF"
    "dedicated resource-reclaim assertion after guest poweroff not imported in this invocation",
  skipped "L1-RESET" "guest reboot/reset second-boot test not implemented in unified harness yet",
  skipped "FC-NET"
    "Firecracker virtio-net path is not implemented in current AxVisor KVM frontend test",
  skipped "FC-RW-DISK"
    "Firecracker disk persistence-across-reboot test not implemented in unified harness yet",
  skipped "PERF-BOOT-E2E-SERIAL" "500-sample serial boot performance not run",
  skipped "PERF-BOOT-PRECONFIG" "500-sample preconfigured boot performance not run",
  skipped "PERF-BOOT-STAGES" "stage breakdown performance not run",
  skipped "PERF-SHUTDOWN" "shutdown latency sampling not run",
  skipped "PERF-CREATE-RATE" "VM create-rate benchmark not run",
  skipped "PERF-BOOT-CONCURRENT" "concurrent boot benchmark not run",
  skipped "MICRO-VMEXIT-HALT" "VM-exit halt microbenchmark not run",
  skipped "MICRO-MMIO-READ" "MMIO read microbenchmark not run",
  skipped "MICRO-MMIO-WRITE" "MMIO write microbenchmark not run",
  skipped "MICRO-PIO" "x86 PIO microbenchmark not run",
  skipped "MICRO-TIMER" "timer latency microbenchmark not run",
  skipped "MICRO-IRQ-INJECT" "IRQ injection latency microbenchmark not run",
  skipped "MICRO-IPI" "IPI latency microbenchmark not run",
  skipped "MICRO-BLOCK-WAKE" "block/wakeup microbenchmark not run",
  skipped "MICRO-MEM-REGISTER" "memory registration microbenchmark not run",
  skipped "MICRO-VCPU-CREATE" "vCPU create/destroy microbenchmark not run",
  ⟨false, "HOSTIF-PROFILE", .skip,
    "HostIf call-count/time instrumentation not enabled for this invocation",
    ["performance/hostif-profile.csv"]⟩,
  skipped "IO-BLK-4K-RANDREAD-QD1" "fio block I/O benchmark not run",
  skipped "IO-BLK-4K-RANDREAD-QD32" "fio block I/O benchmark not run",
  skipped "IO-BLK-4K-RANDWRITE-QD1" "fio block I/O benchmark not run",
  skipped "IO-BLK-4K-RANDWRITE-QD32" "fio block I/O benchmark not run",
  skipped "IO-BLK-128K-READ" "fio block I/O benchmark not run",
  skipped "IO-BLK-128K-WRITE" "fio block I/O benchmark not run",
  skipped "IO-NET-TCP-RX-1" "network I/O benchmark not run",
  skipped "IO-NET-TCP-TX-1" "network I/O benchmark not run",
  skipped "IO-NET-TCP-RX-10" "network I/O benchmark not run",
  skipped "IO-NET-TCP-TX-10" "network I/O benchmark not run",
  skipped "IO-NET-RR" "network request/response benchmark not run",
  skipped "IO-NET-PING" "network ping benchmark not run",
  skipped "CPU-SINGLE" "guest CPU single-worker benchmark not run",
  skipped "CPU-MULTI" "guest CPU multi-worker benchmark not run",
  skipped "MEM-BW" "guest memory bandwidth benchmark not run",
  skipped "MEM-LAT" "guest memory latency benchmark not run",
  skipped "KERNEL-BUILD" "macro workload benchmark not run",
  skipped "VMM-MEM-OVERHEAD" "per-VM memory overhead benchmark not run",
  skipped "STAB-FC-CYCLE-100" "Firecracker 100-cycle stability not run",
  skipped "STAB-FC-CYCLE-1000" "Firecracker 1000-cycle stability not run",
  skipped "STAB-ABORT-BEFORE-RUN" "abort-before-run lifecycle test not run",
  skipped "STAB-KILL-VMM" "SIGKILL VMM cleanup test not run",
  skipped "STAB-GUEST-CRASH" "guest crash lifecycle isolation test not run",
  skipped "STAB-TIMEOUT" "external timeout/stop test not run",
  skipped "STAB-FD-LIFETIME" "adversarial fd close-order test not run",
  skipped "STAB-MEMSLOT-CHURN" "10k memory-slot churn test not run",
  skipped "SCALE-VM-IDLE" "concurrent idle VM density test not run",
  skipped "SCALE-VM-BOOT" "concurrent VM boot density test not run",
  skipped "SCALE-VM-IO" "concurrent VM I/O scale test not run",
  ifMissing "SCALE-SMP" "1/2/4/8 vCPU scaling test not run",
  skipped "SCALE-CROSS-VCPU" "cross-vCPU IPI/wakeup stress test not run",
  ifMissing "NEG-UNKNOWN-IOCTL" "negative KVM ioctl test not run",
  ifMissing "NEG-WRONG-FD-CLASS" "wrong fd-class KVM ioctl test not run",
  ifMissing "NEG-BAD-MEMSLOT" "bad memslot negative test not run",
  ifMissing "NEG-DUP-VCPU" "duplicate vCPU negative test not run",
  skipped "NEG-RUN-UNINIT" "KVM_RUN-before-init negative test not run",
  ifMissing "NEG-BAD-REGS" "bad register-state negative test not run",
  skipped "NEG-FALSE-CAP" "advertised capability semantic negative audit not run",
  ifMissing "NEG-CLOSE-RACE" "close/destroy race negative test not run",
  skipped "ISO-GUEST-OOB" "guest out-of-bounds access isolation test not run",
  skipped "ISO-GUEST-PRIV" "guest privileged/invalid operation isolation test not run",
  skipped "ISO-GUEST-PANIC" "guest panic isolation test not run",
  skipped "ISO-TWO-VM-MEM" "two-VM memory isolation test not run",
  skipped "ISO-RESOURCE-EXHAUST" "resource exhaustion admission test not run"]

def recordPending (p : Pending) : Sh State Unit :=
  if p.ifMissing then recordTestIfMissing p.toRecord else recordTest p.toRecord

/-- `record_pending_matrix_skips`. -/
def recordPendingMatrixSkips : Sh State Unit := Sh.each recordPending pendingMatrixSkips

end Eval
