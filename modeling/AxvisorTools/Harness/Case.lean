import AxvisorTools.Harness.Markers

/-!
# Cases

The harnesses of `tools/` run another script once per case. It gets a directory `run` of its own in
the directory of the case; its output goes to `run.out`, and some of its files are then copied up
(`Case.collect`). The verdict of the case comes from its exit status and from a validation of these
copies (`Case.run`). A script that is run so writes below its directory only and leaves what was
there before.
-/

namespace Harness

open Shell Py

/-- The name of a file in the directory of a case. -/
def caseFile (id : Text) (name : String) : Text := id ++ '/' :: name.toList

/-- The same file in the directory `run`. -/
def runFile (id : Text) (name : String) : Text := id ++ "/run/" ++ name.toList

def vmConfig : String := "x86_64-linux-host-vm.generated.toml"

/-- What a run leaves in the directory of its case. -/
def inner (id : Text) (o : Outcome) (s : State) : State :=
  (s.write (caseFile id "run.out") o.output).graft (id ++ "/run/") o.files

/-- `copy_if_exists "$run_dir/name" "$case_dir/name"`. -/
def keep (id : Text) (s : State) (name : String) : State :=
  s.copy (s.out.lookup (runFile id name)) (caseFile id name)

def keepAll (id : Text) (names : List String) (s : State) : State := names.foldl (keep id) s

/-- The arguments of the calls of `record_case` for a case. -/
structure CaseText where
  id : Text
  passReason : Text
  failReason : Text
  /-- The reason of a failed run, up to its status. -/
  rcReason : Text
  passArtifacts : List String
  failArtifacts : List String

/-- What the `run_…_case` functions differ in. -/
structure Case extends CaseText where
  /-- The files that are copied up. -/
  kept : List String
  /-- The files that are copied up only after a successful run. -/
  keptOnSuccess : List String
  /-- The validation, over the files of the case. -/
  validate : (String → Option Text) → Bool

namespace Case

/-- The run and the copies. -/
def collect (c : Case) (o : Outcome) (s : State) : State :=
  keepAll c.id (if o.status = 0 then c.kept ++ c.keptOnSuccess else c.kept) (inner c.id o s)

/-- The run was successful and its files are valid, in a tree with the copies. -/
def passes (c : Case) (o : Outcome) (fs : Files) : Bool :=
  o.status = 0 && c.validate fun name => fs.lookup (caseFile c.id name)

/-- What is recorded, from a tree with the copies. -/
def record (c : Case) (o : Outcome) (fs : Files) : Record where
  id := c.id
  status := verdict (c.passes o fs)
  reason :=
    if o.status ≠ 0 then c.rcReason ++ Nat.toDigits 10 o.status
    else if c.passes o fs then c.passReason else c.failReason
  artifacts := (if c.passes o fs then c.passArtifacts else c.failArtifacts).map (caseFile c.id)

/-- The whole case. -/
def run (c : Case) (o : Outcome) : Sh State Unit := do
  Sh.modify (c.collect o)
  Sh.modify fun s => recordCase (c.record o s.out) s

end Case

/-! ## The frame of a harness -/

/-- `: >summary.txt`, the header of `summary.csv`, and `: >.tests.jsonl`. -/
def startCases : Sh State Unit := do
  Sh.modify (State.write summaryTxt [])
  Sh.modify (State.write summaryCsv csvHeader)
  Sh.modify (State.write testsJsonl [])

/-- `write_readme`: the title, the run, the status and a text of the harness. -/
def writeReadme (title : String) (runId : Text) (body : Text) : Sh State Unit :=
  Sh.modify fun s => s.write readmeMd (hereDoc [title, ""] ++
    echoes ["Run ID: `" ++ runId ++ "`", [],
      "Status: `" ++ s.status.text ++ "`", []] ++ body)

/-- `exit $([[ "$STATUS" == "pass" ]] && echo 0 || echo 1)`. -/
def exitStatus : Sh State Unit := do
  let s ← Sh.get
  Sh.exit (if s.status = .pass then 0 else 1)

/-- `if [[ "$STATUS" != "pass" ]]; then exit 1; fi`. -/
def exitUnlessPass : Sh State Unit := do
  let s ← Sh.get
  Sh.when (s.status != .pass) (Sh.exit 1)

/-- The value that most harnesses write as `summary.json`. -/
def summaryDocument (suite : String) (runId : Text) (status : Overall) (tests : List Json) : Json :=
  .obj [("suite", .str suite.toList), ("run_id", .str runId),
    ("status", .str status.text), ("tests", .arr tests)]

end Harness
