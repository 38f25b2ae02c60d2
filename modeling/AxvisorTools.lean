import AxvisorTools.Boot.Proof.Uart
import AxvisorTools.Eval.Proof.ImportSmp
import AxvisorTools.Eval.Proof.Manifest
import AxvisorTools.Eval.Proof.MemSizes
import AxvisorTools.Gen.Proof.Contract
import AxvisorTools.Gen.Proof.KernelKey
import AxvisorTools.Gen.Proof.KeyValue
import AxvisorTools.Gen.Proof.LastWrite
import AxvisorTools.Gen.Proof.Newc
import AxvisorTools.Gen.Proof.RawString
import AxvisorTools.Gen.Proof.StaticConfig
import AxvisorTools.Harness.Proof.HostNames
import AxvisorTools.Harness.Proof.Loc
import AxvisorTools.Harness.Proof.Matrix
import AxvisorTools.Harness.Proof.ScanSound
import AxvisorTools.Harness.Proof.TraitMethods
import AxvisorTools.HostRootfs.Proof.CopyTree
import AxvisorTools.Kvm.Proof.AbiVerdict
import AxvisorTools.Kvm.Proof.ConcurrentRun
import AxvisorTools.Kvm.Proof.Rootfs
import AxvisorTools.Kvm.Proof.Segment
import AxvisorTools.Kvm.Proof.Smp
import AxvisorTools.Kvm.Proof.Sregs
import AxvisorTools.Kvm.Proof.Torn
import AxvisorTools.Kvm.Proof.Verdict
import AxvisorTools.Smoke.Proof.CaseName
import AxvisorTools.Smoke.Proof.CpuOnline
import AxvisorTools.Smoke.Proof.GuestRun
import AxvisorTools.Smoke.Proof.Riscv
import AxvisorTools.Smoke.Proof.SizeCheck
import AxvisorTools.Smoke.Proof.Validate
import AxvisorTools.Smoke.Proof.Wait
