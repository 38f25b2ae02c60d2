import AxvisorTools.Py.Json
import AxvisorTools.Py.Str
import AxvisorTools.Shell.Sums
import AxvisorTools.Text.Grep

/-!
# What the evidence harnesses share

All harnesses of `tools/` collect evidence below `OUT_DIR` in the same way: `record_test` (or
`record_case`) appends one verdict to a JSON ledger and to the summaries, `finalize_summary` turns
the ledger into `summary.json`, and `finalize_checksums` writes the manifest. The scripts hold
copies of these functions that differ only where a parameter here says so.
-/

namespace Harness

open Shell Py

/-- The status of one test. -/
inductive Verdict
  | pass
  | fail
  | skip
  deriving DecidableEq, Repr

def Verdict.text : Verdict → Text
  | .pass => "pass"
  | .fail => "fail"
  | .skip => "skip"

/-- `pass` if the condition holds, else `fail`. -/
def verdict (b : Bool) : Verdict := if b then .pass else .fail

theorem verdict_pass_iff (b : Bool) : verdict b = .pass ↔ b = true := by cases b <;> decide

/-- The shell variable `STATUS`; `incomplete` is its value `partial`. -/
inductive Overall
  | pass
  | fail
  | incomplete
  deriving DecidableEq, Repr

def Overall.text : Overall → Text
  | .pass => "pass"
  | .fail => "fail"
  | .incomplete => "partial"

/-- The arguments of `record_test`. -/
structure Record where
  id : Text
  status : Verdict
  reason : Text
  artifacts : List Text
  deriving DecidableEq, Repr

/-- The tree below `OUT_DIR` and the variable `STATUS`. -/
structure State where
  out : Files
  status : Overall

namespace State

def write (path content : Text) (s : State) : State := { s with out := s.out.write path content }

def append (path content : Text) (s : State) : State := { s with out := s.out.append path content }

/-- `cp -a` of a file that may be missing, to `path` below `OUT_DIR`. -/
def copy (content : Option Text) (path : Text) (s : State) : State :=
  { s with out := s.out.copy content path }

/-- Files that another program left in `dir` below `OUT_DIR`. -/
def graft (dir : Text) (files : List (Text × Text)) (s : State) : State :=
  { s with out := s.out.graft dir files }

end State

def testsJsonl : Text := ".tests.jsonl"
def summaryCsv : Text := "summary.csv"
def summaryJson : Text := "summary.json"
def summaryTxt : Text := "summary.txt"
def readmeMd : Text := "README.md"

def csvHeader : Text := "id,status,reason,artifacts\n"

/-! ## Recording -/

/-- `json_string`. The text is an argument of the Python process, and Linux runs none with an argument
of 128 KiB or more; the texts here are taken to be shorter. -/
def jsonString (t : Text) : Text := substitute (echo (Json.dumps (.str t)))

def artifactsJson (artifacts : List Text) : Text :=
  substitute (echo (Json.dumps (.arr (artifacts.map .str))))

/-- The line of the ledger; the scripts with `record_test` also write a constant duration. -/
def ledgerLine (timed : Bool) (r : Record) : Text :=
  "\x7b\"id\":" ++ jsonString r.id ++ ",\"status\":" ++ jsonString r.status.text ++
    ",\"reason\":" ++ jsonString r.reason ++
    (if timed then ",\"duration_ms\":0" else "").toList ++
    ",\"artifacts\":" ++ artifactsJson r.artifacts ++ "\x7d\n"

/-- The line of `summary.csv`. -/
def csvLine (r : Record) : Text :=
  r.id ++ ',' :: r.status.text ++ ',' :: substitute (tr ',' ';' r.reason) ++
    ',' :: substitute (tr ',' ';' (artifactsJson r.artifacts)) ++ ['\n']

/-- What `record_case` appends to `summary.txt`. -/
def caseBlock (r : Record) : Text :=
  "CASE=" ++ r.id ++ "\nSTATUS=" ++ r.status.text ++ "\nREASON=" ++ r.reason ++
    "\nARTIFACTS=" ++ artifactsJson r.artifacts ++ "\n\n"

/-- `mark_status`; the scripts differ in what a skip makes of a status that was `pass`. -/
def markStatus (onSkip : Overall) (v : Verdict) (status : Overall) : Overall :=
  match v with
  | .fail => .fail
  | .skip => if status = .pass then onSkip else status
  | .pass => status

/-- `record_test`. -/
def recordTest (onSkip : Overall) (r : Record) (s : State) : State :=
  let s := s.append testsJsonl (ledgerLine true r)
  let s := s.append summaryCsv (csvLine r)
  { s with status := markStatus onSkip r.status s.status }

/-- `record_case`. -/
def recordCase (r : Record) (s : State) : State :=
  let s := s.append summaryTxt (caseBlock r)
  let s := s.append summaryCsv (csvLine r)
  let s := s.append testsJsonl (ledgerLine false r)
  { s with status := markStatus .pass r.status s.status }

/-! ## Searching evidence -/

/-- `[[ -f path ]] && grep -q pattern path`. -/
def fileHas (content : Option Text) (r : Regex.Re) : Bool := content.any (grep r)

/-- `file_has_any`: one of several patterns. -/
def fileHasAny (content : Option Text) (rs : List Regex.Re) : Bool := rs.any (fileHas content)

/-- `file_lacks_crash_markers`. -/
def fileLacks (content : Option Text) (r : Regex.Re) : Bool :=
  content.any fun t => !grep r t

/-! ## Finishing -/

/-- The tests of a ledger, as the scripts with `Path.read_text().splitlines()` decode them. -/
def decodeTests (ledger : Option Text) : Option (List Json) :=
  match ledger with
  | none => some []
  | some t => ((splitlines (universalNewlines t)).filter fun l => !isBlank l).mapM Json.loads

/-- The number of tests with a status. -/
def countStatus (v : Verdict) (tests : List Json) : Nat :=
  (tests.filter fun t => ((t.get "status").bind Json.text?) = some v.text).length

/-- The object `counts`. -/
def countsJson (tests : List Json) : Json :=
  .obj [("pass", .num (countStatus .pass tests)),
    ("fail", .num (countStatus .fail tests)),
    ("skip", .num (countStatus .skip tests))]

/-- The embedded Python of `finalize_summary`: `decode` reads the ledger, `document` is the value it
writes, from `STATUS` and the tests. An exception ends the script. -/
def finalizeSummary (decode : Option Text → Option (List Json))
    (document : Overall → List Json → Json) : Sh State Unit := do
  let s ← Sh.get
  match decode (s.out.lookup testsJsonl) with
  | none => Sh.plain 1
  | some tests =>
    Sh.modify (State.write summaryJson (Json.dumpsIndent (document s.status tests) ++ ['\n']))

/-- `find … | sort -z | xargs -0 sha256sum > SHA256SUMS`. -/
def writeChecksums (d : Digest) (s : State) : State := s.write sumsPath (manifest d s.out)

/-- `finalize_checksums`. -/
def finalizeChecksums (d : Digest) : Sh State Unit := do
  Sh.modify (writeChecksums d)
  let s ← Sh.get
  Sh.plain (if verifies d s.out ((s.out.lookup sumsPath).getD []) then 0 else 1)

/-- What a shell script sees of a program it ran: its status, its output and the files it left in
the directory it was given. -/
structure Outcome where
  status : Nat
  output : Text
  files : List (Text × Text)

end Harness
