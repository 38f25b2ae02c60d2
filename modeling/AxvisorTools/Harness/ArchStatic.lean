import AxvisorTools.Harness.Case

/-!
# The architecture harness

`verify-axvisor-architecture-static.sh` records the checks of a scan over the sources. `Scan` holds
what the scan found; the scan itself is not part of this module.
-/

namespace Harness

open Shell Py

/-- The findings of `run_static_scan`, and the tables it writes. -/
structure Scan where
  coreFiles : Nat
  archFiles : Nat
  linuxBackendFiles : Nat
  kvmFrontendFiles : Nat
  hostFindings : Nat
  kvmFindings : Nat
  hostApiCalls : Nat
  hostifMethods : Nat
  unusedHostifMethods : Nat
  forbiddenFindingsCsv : Text
  hostApiCallsCsv : Text
  hostifMethodsCsv : Text
  locReportCsv : Text

structure ArchEnv where
  rootDir : Text
  runId : Text
  scan : Scan

namespace Scan

/-- Every finding is of one of the two categories. -/
def findings (scan : Scan) : Nat := scan.hostFindings + scan.kvmFindings

/-- A number and a text. -/
def counted (n : Nat) (text : String) : Text := Nat.toDigits 10 n ++ text.toList

/-- The dictionary `checks`: id, status and reason. -/
def checks (scan : Scan) : List (Text × Verdict × Text) :=
  [("ARCH-NO-HOST-IMPORTS", verdict (scan.hostFindings = 0),
      counted scan.hostFindings " direct host-specific symbol findings in core source"),
    ("ARCH-NO-HOST-TYPES", verdict (scan.hostFindings = 0),
      counted scan.hostFindings " direct host-specific type/API findings in core source"),
    ("ARCH-NO-KVM-IN-CORE", verdict (scan.kvmFindings = 0),
      counted scan.kvmFindings " KVM/frontend symbol findings in core source"),
    ("ARCH-BACKEND-BOUNDARY", verdict (scan.findings = 0),
      counted scan.hostApiCalls " axvisor_api calls cataloged; " ++
        counted scan.findings " direct forbidden findings"),
    ("ARCH-UNUSED-HOSTIF", .pass,
      counted scan.unusedHostifMethods
        " declared axvisor_api methods not called by core/arch in static scan")]

/-- `overall`. -/
def overall (scan : Scan) : Verdict := verdict (scan.checks.all (·.2.1 = .pass))

/-- `NAME=number`. -/
def countLine (name : String) (n : Nat) : Text := name.toList ++ '=' :: Nat.toDigits 10 n

/-- `dependency-report.txt`. -/
def report (scan : Scan) (root : Text) : Text :=
  echoes (["# AxVisor Static Architecture Dependency Report".toList, [],
    "ROOT=".toList ++ root,
    "AXVISOR_DIR=".toList ++ root ++ "/linux-host-kernel/drivers/virt/axvisor".toList,
    countLine "CORE_FILES" scan.coreFiles, countLine "ARCH_FILES" scan.archFiles,
    countLine "LINUX_BACKEND_FILES" scan.linuxBackendFiles,
    countLine "KVM_FRONTEND_FILES" scan.kvmFrontendFiles,
    countLine "FORBIDDEN_FINDINGS" scan.findings, countLine "HOST_API_CALLS" scan.hostApiCalls,
    countLine "HOSTIF_METHODS" scan.hostifMethods,
    countLine "UNUSED_HOSTIF_METHODS" scan.unusedHostifMethods, [], "## Checks".toList] ++
    scan.checks.map fun c => c.1 ++ ": ".toList ++ c.2.1.text ++ " - ".toList ++ c.2.2) ++
  hereDoc ["", "## Scope",
    "Core scan includes axvisor_api, axvisor_core, axvm, axvcpu, axaddrspace, axdevice, axdevice_base, axhvc, axvmconfig, and shared ax-* crates.",
    "Architecture scan includes x86_vcpu, x86_vlapic, riscv_vcpu, riscv_vplic, and riscv-h.",
    "Linux backend and KVM compatibility frontend are reported separately and are not treated as core dependencies.", "", "## Limits",
    "This is a source-level static boundary audit, not a formal whole-program proof.",
    "ARCH-BACKEND-BOUNDARY passes when direct forbidden host/frontend symbols are absent and all observed core host effects go through axvisor_api calls listed in host-api-calls.csv."]

/-- The names of the files of the scan. -/
def artifacts : List String :=
  ["dependency-report.txt", "dependency-report.json", "forbidden-findings.csv",
    "host-api-calls.csv", "hostif-methods.csv", "loc-report.csv"]

/-- `dependency-report.json`. -/
def json (scan : Scan) : Json :=
  .obj [("status", .str scan.overall.text),
    ("checks", .obj (scan.checks.map fun c =>
      (c.1, .obj [("status", .str c.2.1.text), ("reason", .str c.2.2)]))),
    ("counts", .obj [("core_files", .num scan.coreFiles),
      ("arch_files", .num scan.archFiles),
      ("linux_backend_files", .num scan.linuxBackendFiles),
      ("kvm_frontend_files", .num scan.kvmFrontendFiles),
      ("forbidden_findings", .num scan.findings),
      ("host_api_calls", .num scan.hostApiCalls),
      ("hostif_methods", .num scan.hostifMethods),
      ("unused_hostif_methods", .num scan.unusedHostifMethods)]),
    ("artifacts", .arr (artifacts.map fun a => .str a.toList))]

/-- What `run_static_scan` writes. -/
def write (scan : Scan) (root : Text) (s : State) : State :=
  let s := s.write "forbidden-findings.csv" scan.forbiddenFindingsCsv
  let s := s.write "host-api-calls.csv" scan.hostApiCallsCsv
  let s := s.write "hostif-methods.csv" scan.hostifMethodsCsv
  let s := s.write "loc-report.csv" scan.locReportCsv
  let s := s.write "dependency-report.txt" (scan.report root)
  s.write "dependency-report.json" (Json.dumpsIndent scan.json ++ ['\n'])

end Scan

/-- The text of `README.md`. -/
def archReadme : Text := hereDoc [
  "This harness audits the source-code boundary required by the paper evaluation:",
  "core crates are scanned for direct host-OS and KVM frontend symbols, host API",
  "calls are cataloged, and Linux backend / architecture backend / KVM frontend",
  "LOC are reported separately.", "", "Primary files:", "", "- `dependency-report.txt`",
  "- `dependency-report.json`", "- `forbidden-findings.csv`", "- `host-api-calls.csv`",
  "- `hostif-methods.csv`", "- `loc-report.csv`", "- `summary.json`", "- `SHA256SUMS`"]

/-- `record_test`; here a skip turns `pass` into `partial`. -/
def recordArch (id : Text) (status : Verdict) (reason : Text) (artifacts : List String) :
    Sh State Unit :=
  Sh.modify (recordTest .incomplete ⟨id, status, reason, artifacts.map String.toList⟩)

/-- The record of the whole scan. -/
def recordScan (scan : Scan) : Sh State Unit :=
  match scan.overall with
  | .pass =>
    recordArch "ARCH-STATIC-CHECKS" .pass "all source-level architecture boundary checks passed"
      ["dependency-report.txt", "dependency-report.json", "loc-report.csv"]
  | _ =>
    recordArch "ARCH-STATIC-CHECKS" .fail
      "one or more source-level architecture boundary checks failed"
      ["dependency-report.txt", "dependency-report.json", "forbidden-findings.csv",
        "loc-report.csv"]

/-- The scan and its records. The scan prints `id=status reason` for each check, and the loop of the
script takes these lines apart again. -/
def archRecords (env : ArchEnv) : Sh State Unit := do
  Sh.modify (State.write testsJsonl [])
  Sh.modify (State.write summaryCsv csvHeader)
  Sh.modify (env.scan.write env.rootDir)
  Sh.each (fun c => recordArch c.1 c.2.1 c.2.2 Scan.artifacts) env.scan.checks
  recordScan env.scan

/-- `verify-axvisor-architecture-static.sh`. -/
def archStatic (d : Digest) (env : ArchEnv) : Sh State Unit := do
  archRecords env
  writeReadme "# AxVisor Architecture Static Evidence" env.runId archReadme
  finalizeSummary decodeTests (summaryDocument "axvisor-architecture-static" env.runId)
  finalizeChecksums d
  exitStatus

end Harness
