import AxvisorTools.Eval.Ledger
import AxvisorTools.Harness.Proof.Record

/-!
# The evaluation's ledger loses nothing

`Ledger rs s`: in state `s` the ledger holds the records `rs` and `STATUS` is what they make of it.
Every `record_test` extends it by one record (`Ledger.recordTest`), and `finalize_summary` writes
out what it holds (`finalizeSummary_ledger`).
-/

namespace Eval

open Shell Py Harness

variable {s : State} {rs : List Record}

/-- The ledger of state `s` holds the records `rs`. -/
structure Ledger (rs : List Record) (s : State) : Prop where
  file : s.out.lookup testsJsonl = some (ledger true rs)
  status : s.status = if rs.all (·.status = .pass) then .pass else .fail

namespace Ledger

variable {rs : List Record} {s : State}

/-- The invariant looks at the ledger file and `STATUS` only. -/
theorem congr {s' : State} (h : Ledger rs s)
    (hf : s'.out.lookup testsJsonl = s.out.lookup testsJsonl) (hs : s'.status = s.status) :
    Ledger rs s' := ⟨hf.trans h.file, hs.trans h.status⟩

theorem recordTest (h : Ledger rs s) (r : Record) :
    Ledger (rs ++ [r]) (Harness.recordTest .fail r s) := by
  constructor
  · rw [ledger_recordTest, h.file, ledger_append, Option.getD_some]
    simp [ledger]
  · have hs : (Harness.recordTest .fail r s).status = markStatus .fail r.status s.status := rfl
    rw [hs, h.status, List.all_append]
    cases hr : r.status <;> cases ha : rs.all (·.status = .pass) <;> simp [markStatus, hr]

theorem testRecorded_iff (h : Ledger rs s) {id : Text} (hid : Json.Plain id) :
    testRecorded id s = true ↔ id ∈ rs.map Record.id := by
  have hp : "\"id\":\"" ++ id ++ ['"'] = Json.fieldText [] "id" id := by
    have hq : "\"id\":\"" = Json.quote "id" ++ [':', '"'] := by decide
    rw [Json.fieldText, hq, Json.quote.eq_1 id, Json.escape_of_plain hid]
    simp
  rw [testRecorded, hp, fileHas, h.file, Option.any_some, grep_ledger_iff true hid]

theorem status_pass_iff (h : Ledger rs s) :
    s.status = .pass ↔ ∀ r ∈ rs, r.status = .pass := by
  rw [h.status]
  by_cases ha : rs.all (·.status = .pass) = true
  · rw [if_pos ha]
    simpa using ha
  · rw [if_neg ha]
    simpa using ha

end Ledger

theorem startLedger_spec (fs : Files) :
    ∃ s, startLedger ⟨fs, .pass⟩ = (.ok (), s) ∧ Ledger [] s := by
  refine ⟨_, rfl, ?_, rfl⟩
  exact (Files.lookup_write_ne testsJsonl_ne_summaryCsv _).trans (Files.lookup_write_self _ _ _)

theorem startLedger_lookup {fs : Files} (h : startLedger ⟨fs, .pass⟩ = (.ok (), s)) {p : Text}
    (hp : '/' ∈ p) : s.out.lookup p = fs.lookup p := by
  obtain rfl : _ = s := congrArg Prod.snd h
  refine (Files.lookup_write_ne ?_ _).trans (Files.lookup_write_ne ?_ _) <;>
    rintro rfl <;> exact absurd hp (by decide)

/-- A run of records, by induction over the calls. -/
theorem each_recordTest (calls : List Record) (h : Ledger rs s) :
    ∃ s', Sh.each recordTest calls s = (.ok (), s') ∧ Ledger (rs ++ calls) s' := by
  induction calls generalizing rs s with
  | nil => exact ⟨s, rfl, by rwa [List.append_nil]⟩
  | cons r calls ih =>
    obtain ⟨s', hs', h'⟩ := ih (h.recordTest r)
    rw [List.append_assoc] at h'
    exact ⟨s', hs', h'⟩

theorem finalizeSummary_ledger (h : Ledger rs s) (suite runId : Text) :
    finalizeSummary suite runId s = (.ok (), s.write summaryJson (Json.dumpsIndent
      (document suite runId s.status (rs.map (Record.json true))) ++ ['\n'])) :=
  finalizeSummary_ok (by rw [h.file, decodeTests_ledger])

theorem recordTestIfMissing_spec (h : Ledger rs s) (r : Record) (hid : Json.Plain r.id) :
    ∃ s', recordTestIfMissing r s = (.ok (), s') ∧
      Ledger (if r.id ∈ rs.map Record.id then rs else rs ++ [r]) s' := by
  rw [recordTestIfMissing, Sh.bind_ok (Sh.get_apply s)]
  by_cases hin : r.id ∈ rs.map Record.id
  · rw [if_pos ((h.testRecorded_iff hid).2 hin), if_pos hin]
    exact ⟨s, rfl, h⟩
  · rw [if_neg (mt (h.testRecorded_iff hid).1 hin), if_neg hin]
    exact ⟨_, rfl, h.recordTest r⟩

theorem mapM_text_str (as : List Text) : (as.map Json.str).mapM Json.text? = some as := by
  induction as with
  | nil => rfl
  | cons a as ih =>
    rw [List.map_cons, List.mapM_cons, ih]
    rfl

theorem readTest_json (r : Record) : readTest (r.json true) = some r := by
  have h1 : (r.json true).get "id" = some (.str r.id) := rfl
  have h2 : (r.json true).get "status" = some (.str r.status.text) := rfl
  have h3 : (r.json true).get "reason" = some (.str r.reason) := rfl
  have h4 : (r.json true).get "artifacts" = some (.arr (r.artifacts.map .str)) := rfl
  have h5 : [Verdict.pass, .fail, .skip].find? (fun v => v.text = r.status.text) =
      some r.status := by cases r.status <;> decide
  simp only [readTest, h1, h2, h3, h4, Option.bind_eq_bind, Option.bind_some, Json.text?, h5,
    mapM_text_str]
  rfl

/-- **The evidence ledger loses nothing.** After any sequence of `record_test` calls,
`finalize_summary` succeeds, decodes the ledger into exactly these calls, and writes them to
`summary.json` with the number of records of each status; `STATUS` is `pass` if and only if every
recorded status is. -/
theorem summary_eq_calls (suite runId : Text) (calls : List Record) (fs : Files) :
    ∃ s tests,
      (do startLedger; Sh.each recordTest calls; finalizeSummary suite runId) ⟨fs, .pass⟩ =
        (.ok (), s) ∧
      decodeTests (s.out.lookup testsJsonl) = some tests ∧
      tests.map readTest = calls.map some ∧
      (s.out.lookup summaryJson).bind Json.loads = some (.obj [("suite", .str suite),
        ("run_id", .str runId),
        ("configuration", .str "x86-imported-current"),
        ("status", .str s.status.text),
        ("counts", .obj [
          ("pass", .num (calls.filter (·.status = .pass)).length),
          ("fail", .num (calls.filter (·.status = .fail)).length),
          ("skip", .num (calls.filter (·.status = .skip)).length)]),
        ("tests", .arr tests)]) ∧
      (s.status = .pass ↔ ∀ r ∈ calls, r.status = .pass) := by
  obtain ⟨s₀, hs₀, h₀⟩ := startLedger_spec fs
  obtain ⟨s₁, hs₁, h₁⟩ := each_recordTest calls h₀
  rw [List.nil_append] at h₁
  refine ⟨s₁.write summaryJson (Json.dumpsIndent (document suite runId s₁.status
    (calls.map (Record.json true))) ++ ['\n']), calls.map (Record.json true), ?_, ?_, ?_, ?_, ?_⟩
  · rw [Sh.bind_ok hs₀, Sh.bind_ok hs₁, finalizeSummary_ledger h₁]
  · have hne : testsJsonl ≠ summaryJson := by decide
    rw [State.write, Files.lookup_write_ne hne, h₁.file, decodeTests_ledger]
  · rw [List.map_map]
    exact List.map_congr_left fun r _ => readTest_json r
  · rw [State.write, Files.lookup_write_self, Option.bind_some, Json.dumpsIndent,
      Json.loads_render _ _ (by decide)]
    simp only [document, countsJson, countStatus_json]
  · exact h₁.status_pass_iff

/-- **`test_recorded` is exact.** After any sequence of `record_test` calls it finds an id of
letters, digits and hyphens if and only if some call recorded exactly that id, whatever the other
ids, the reasons and the artifacts are. So `record_test_if_missing` adds its record to the ledger
when the id is not there, and leaves the ledger as it is when the id is. -/
theorem testRecorded_exact (calls : List Record) (fs : Files) (id : Text)
    (hid : ∀ c ∈ id, c.isAlphanum ∨ c = '-') :
    ∃ s, (do startLedger; Sh.each recordTest calls) ⟨fs, .pass⟩ = (.ok (), s) ∧
      (testRecorded id s = true ↔ ∃ r ∈ calls, r.id = id) ∧
      ∀ r : Record, r.id = id → ∃ s', recordTestIfMissing r s = (.ok (), s') ∧
        (decodeTests (s'.out.lookup testsJsonl)).map (List.map readTest) =
          some ((if id ∈ calls.map Record.id then calls else calls ++ [r]).map some) := by
  have hplain : Json.Plain id := fun c hc => (hid c hc).imp_right Or.inl
  obtain ⟨s₀, hs₀, h₀⟩ := startLedger_spec fs
  obtain ⟨s, hs, h⟩ := each_recordTest calls h₀
  rw [List.nil_append] at h
  refine ⟨s, by rw [Sh.bind_ok hs₀, hs], ?_, ?_⟩
  · rw [h.testRecorded_iff hplain, List.mem_map]
  · rintro r rfl
    obtain ⟨s', hs', h'⟩ := recordTestIfMissing_spec h r hplain
    refine ⟨s', hs', ?_⟩
    rw [h'.file, decodeTests_ledger, Option.map_some, List.map_map]
    exact congrArg some (List.map_congr_left fun r _ => readTest_json r)

/-- A record that quotes another id in its texts and extends it in its own. -/
def quoting : Record :=
  ⟨"a-10", .pass, "\"id\":\"a-1\"", ["\"id\":\"a-1\""]⟩

theorem testRecorded_exact_quoting : ∃ s,
    (do startLedger; Sh.each recordTest [quoting]) ⟨∅, .pass⟩ = (.ok (), s) ∧
      ¬testRecorded "a-1" s = true := by
  obtain ⟨s, hs, hrec, -⟩ := testRecorded_exact [quoting] ∅ "a-1" (by decide)
  refine ⟨s, hs, fun h => ?_⟩
  obtain ⟨r, hr, hid⟩ := hrec.1 h
  rw [List.mem_singleton] at hr
  subst hr
  exact absurd hid (by decide)

end Eval
