import AxvisorTools.Harness.Record

/-!
# The ledger of the paper evaluation

`record_test`, `test_recorded`, `record_test_if_missing` and `finalize_summary` of
`run-axvisor-paper-evaluation.sh`. A skip is not a complete pass of the matrix, so it turns
`STATUS` into `fail` as well.
-/

namespace Eval

open Shell Py Harness

/-- `record_test`. -/
def recordTest (r : Record) : Sh State Unit := Sh.modify (Harness.recordTest .fail r)

/-- `test_recorded`, for an id without characters that `grep` treats specially. -/
def testRecorded (id : Text) (s : State) : Bool :=
  fileHas (s.out.lookup testsJsonl) (Regex.lit ("\"id\":\"" ++ id ++ ['"']))

/-- `record_test_if_missing`. -/
def recordTestIfMissing (r : Record) : Sh State Unit := do
  let s ← Sh.get
  if testRecorded r.id s then pure () else recordTest r

/-- The value `finalize_summary` writes. -/
def document (suite runId : Text) (status : Overall) (tests : List Json) : Json :=
  .obj [("suite", .str suite), ("run_id", .str runId),
    ("configuration", .str "x86-imported-current"),
    ("status", .str status.text), ("counts", countsJson tests),
    ("tests", .arr tests)]

/-- `finalize_summary`. -/
def finalizeSummary (suite runId : Text) : Sh State Unit :=
  Harness.finalizeSummary decodeTests (document suite runId)

/-- The record that a decoded test stands for. -/
def readTest (test : Json) : Option Record := do
  let id ← (← test.get "id").text?
  let status ← (← test.get "status").text?
  let reason ← (← test.get "reason").text?
  let verdict ← [Verdict.pass, .fail, .skip].find? (·.text = status)
  match ← test.get "artifacts" with
  | .arr items => return ⟨id, verdict, reason, ← items.mapM Json.text?⟩
  | _ => none

/-- The ledger and the table before the first record: `: >.tests.jsonl` and the header line. -/
def startLedger : Sh State Unit := do
  Sh.modify (State.write testsJsonl [])
  Sh.modify (State.write summaryCsv csvHeader)

end Eval
