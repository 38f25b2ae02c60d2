import AxvisorTools.Harness.Case

/-!
# The poweroff harness

`verify-x86-linux-host-linux-poweroff.sh` runs one rootfs guest that powers itself off. After the
manifest is written, it appends two more lines to `summary.txt`.
-/

namespace Harness

open Shell Py Regex

/-- The variables of the script and the outcome of its run. -/
structure PoweroffEnv where
  runId : Text
  outDir : Text
  run : Outcome

/-- `validate_poweroff_case`. -/
def validatePoweroffCase (file : String → Option Text) : Bool :=
  has (file "qemu.log") "AXVISOR_X86_NATIVE_GUEST_PASS=1" &&
    has (file "qemu.log") "AXVISOR_X86_NATIVE_GUEST_STAGE=after-sync" &&
    has (file "qemu.log") "AXVISOR_X86_NATIVE_GUEST_STAGE=before-exit-port" &&
    has (file "qemu.log") "vcpus::exit_reason system_down" &&
    has (file "qemu.log") "kthread main entry returned" &&
    fileLacks (file "qemu.log") crashMarkers &&
    hasLine (file "result.txt") "AXVISOR_X86_NATIVE_GUEST_PASS=1" &&
    hasLine (file "result.txt") "ROOT_MOUNT_FS=ext4" &&
    hasLine (file "result.txt") "SMOKE_WRITE_TEST=1" && has (file "run.out") "[verify] pass"

def poweroffCase : Case where
  id := "L1-POWEROFF"
  kept := ["qemu.log", "result.txt", vmConfig]
  keptOnSuccess := []
  validate := validatePoweroffCase
  passReason := "guest-triggered AxVisor SystemDown stopped the VM after rootfs PASS"
  failReason := "poweroff smoke exited successfully but semantic validation failed"
  rcReason := "x86 native Linux guest poweroff smoke failed rc="
  passArtifacts := ["run.out", "qemu.log", "result.txt", vmConfig]
  failArtifacts := ["run.out", "qemu.log", "result.txt", vmConfig]

/-- The text of `README.md`. -/
def poweroffReadme : Text := hereDoc [
  "This harness validates `L1-POWEROFF`: a Linux/x86 host runs AxVisor, AxVisor",
  "boots a Linux rootfs guest, the guest writes its deterministic result, executes",
  "`sync`, emits the final PASS marker, then performs guest-triggered poweroff.", "",
  "The verifier is configured with `WAIT_FOR_POWEROFF_AFTER_PASS=1`,",
  "`X86_GUEST_EXIT_PORT_AFTER_PASS=1`, and",
  "`WAIT_FOR_SYSTEM_DOWN_AFTER_PASS=1`, and",
  "`X86_GUEST_EXIT_PORT_AFTER_PASS=1`, so QEMU is not killed immediately after",
  "the PASS marker. The guest writes AxVisor's x86 test exit port, AxVisor reports",
  "`SystemDown`, and the vCPU task returns. The harness then cleans up the outer",
  "QEMU. This proves AxVisor's guest-triggered VM shutdown path; it does not claim",
  "ACPI poweroff emulation."]

/-- The value `finalize_summary` writes. -/
def poweroffDocument (status : Overall) (tests : List Json) : Json :=
  .obj [("suite", .str "axvisor-x86-l1-poweroff"), ("status", .str status.text),
    ("tests", .arr tests)]

/-- What is appended to `summary.txt` at the end. -/
def poweroffTail (env : PoweroffEnv) (status : Overall) : Text :=
  echoes ["POWEROFF_STATUS=" ++ status.text, "OUT_DIR=" ++ env.outDir]

def poweroffCases (env : PoweroffEnv) : Sh State Unit := do
  startCases
  poweroffCase.run env.run

/-- `verify-x86-linux-host-linux-poweroff.sh`. -/
def poweroff (d : Digest) (env : PoweroffEnv) : Sh State Unit := do
  poweroffCases env
  writeReadme "# x86 AxVisor L1 Poweroff Evidence" env.runId poweroffReadme
  finalizeSummary decodeTests poweroffDocument
  finalizeChecksums d
  Sh.modify fun s => s.append summaryTxt (poweroffTail env s.status)
  exitUnlessPass

end Harness
