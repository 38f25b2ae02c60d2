import AxvisorTools.Harness.Smp
import AxvisorTools.Harness.Proof.Summary
import AxvisorTools.Text.Proof.Numeral

/-!
# What the SMP harnesses leave behind

`smp_run` and `smpScale_run`: the log holds the verdicts of the cases, and `summary.json` has a field
`"status": "pass"` if and only if some case passed (`statusField_iff`).
-/

namespace Harness

open Shell Py Json

variable {env : SmpScaleEnv}

theorem slash_not_mem_digits (n : Nat) : '/' ∉ Nat.toDigits 10 n := by
  intro h
  have hd := Nat.isDigit_of_mem_toDigits (by decide) (by decide) h
  exact absurd hd (by decide)

/-! ## The status field -/

def statusPassField : Text := fieldText [' '] "status" "pass"

/-- A document with the status of the suite and the tests, and no other field `status`. -/
structure Documents (doc : Json) (status : Overall) (rs : List Record) : Prop where
  keys : ∀ name ∈ Json.keys doc, '"' ∉ name
  statusField : ("status".toList, "pass".toList) ∈ stringFields doc ↔
    status = .pass ∨ ∃ r ∈ rs, r.status = .pass
  idField : ∀ id, ("id".toList, id) ∈ stringFields doc ↔ id ∈ rs.map Record.id

/-- The suite passes only with all its cases, so that the field shows that some case passed. -/
theorem statusField_iff {doc : Json} {rs : List Record} {s : State} (h : Logged rs s)
    (hdoc : Documents doc s.status rs) (hne : rs ≠ []) :
    fileHas (some (dumpsIndent doc ++ ['\n'])) (Regex.lit statusPassField) = true ↔
      ∃ r ∈ rs, r.status = .pass := by
  rw [statusPassField, fileHas_field_iff hdoc.keys (by decide) (by decide), hdoc.statusField,
    h.status]
  refine or_iff_right_of_imp fun hst => ?_
  obtain ⟨r, hr⟩ := List.exists_mem_of_ne_nil rs hne
  by_cases hall : rs.all (·.status = .pass) = true
  · exact ⟨r, hr, by simpa using List.all_eq_true.1 hall r hr⟩
  · rw [if_neg hall] at hst
    cases hst

theorem status_text_iff (status : Overall) : "pass" = status.text ↔ status = .pass := by
  cases status <;> decide

theorem Documents.of_fields {doc : Json} (suite runId : Text) {status : Overall} {rs : List Record}
    {ks : List Text} (hks : ∀ k ∈ ks, '"' ∉ k)
    (hkeys : Json.keys doc = ks ++ keysItems (rs.map (Record.json false)))
    (hfields : stringFields doc = ("suite".toList, suite) :: ("run_id".toList, runId) ::
      ("status".toList, status.text) :: stringFieldsItems (rs.map (Record.json false))) :
    Documents doc status rs := by
  have h1 : "status".toList ≠ "suite".toList ∧ "status".toList ≠ "run_id".toList ∧
      "id".toList ≠ "suite".toList ∧ "id".toList ≠ "run_id".toList ∧
      "id".toList ≠ "status".toList := by decide
  constructor
  · rw [hkeys]
    exact List.forall_mem_append.2 ⟨hks, keys_tests false rs⟩
  · rw [hfields]
    simp only [List.mem_cons, Prod.mk.injEq, h1, false_and, false_or, true_and, status_text_iff,
      mem_status_tests]
  · intro id
    rw [hfields]
    simp only [List.mem_cons, Prod.mk.injEq, h1, false_and, false_or, mem_id_tests]

theorem documents_summaryDocument (suite : String) (runId : Text) (status : Overall)
    (rs : List Record) :
    Documents (summaryDocument suite runId status (rs.map (Record.json false))) status rs := by
  have hks : ∀ k ∈ ["suite".toList, "run_id".toList, "status".toList, "tests".toList], '"' ∉ k := by
    decide
  refine .of_fields suite.toList runId hks ?_ ?_
  · simp [summaryDocument, keys, keysFields]
  · simp [summaryDocument, stringFields, stringFieldsFields]

theorem documents_smpScaleDocument (env : SmpScaleEnv) (status : Overall) (rs : List Record) :
    Documents (smpScaleDocument env status (rs.map (Record.json false))) status rs := by
  have hcpus : ∀ ts : List Text, stringFieldsItems (ts.map .str) = [] ∧
      keysItems (ts.map .str) = [] := by
    intro ts
    induction ts with
    | nil => exact ⟨rfl, rfl⟩
    | cons t ts ih => exact ⟨by simp [stringFieldsItems, stringFields, ih.1],
        by simp [keysItems, keys, ih.2]⟩
  have hks : ∀ k ∈ ["suite".toList, "run_id".toList, "status".toList, "cpu_set".toList,
      "counts".toList, "pass".toList, "fail".toList, "skip".toList, "tests".toList], '"' ∉ k := by
    decide
  refine .of_fields "axvisor-x86-l1-smp-scale".toList env.runId hks ?_ ?_
  · simp [smpScaleDocument, countsJson, keys, keysFields, (hcpus _).2]
  · simp [smpScaleDocument, countsJson, stringFields, stringFieldsFields, (hcpus _).1]

/-! ## The runs -/

/-- The cases of the SMP harness. -/
def smpCaseList (env : SmpEnv) : List (Case × Outcome) :=
  [(runSmpBootCase env, env.bootRun), (runSmpRootfsCase env, env.rootfsRun)]

theorem id_runSmpBootCase (env : SmpEnv) :
    (runSmpBootCase env).id = "L1-SMP-" ++ env.cpus ++ "-BOOT" := rfl

theorem id_runSmpRootfsCase (env : SmpEnv) :
    (runSmpRootfsCase env).id = "L1-SMP-" ++ env.cpus := rfl

theorem apart_smpCaseList (env : SmpEnv) : Apart (smpCaseList env) := by
  have hd := slash_not_mem_digits env.guestCpus
  have hslash : '/' ∉ "L1-SMP-".toList ∧ '/' ∉ "-BOOT".toList := by decide
  constructor
  · intro c hc
    rcases List.mem_cons.1 hc with rfl | hc
    · rw [id_runSmpBootCase, SmpEnv.cpus]
      simp only [List.mem_append, hslash, hd, or_self, not_false_iff]
    · obtain rfl := List.mem_singleton.1 hc
      rw [id_runSmpRootfsCase, SmpEnv.cpus]
      simp only [List.mem_append, hslash, hd, or_self, not_false_iff]
  · have hne : (runSmpBootCase env).id ≠ (runSmpRootfsCase env).id := by
      intro h
      rw [id_runSmpBootCase, id_runSmpRootfsCase, List.append_right_eq_self] at h
      exact absurd h (by decide)
    exact List.nodup_cons.2 ⟨by simpa using hne, List.nodup_singleton _⟩

theorem smpCases_run (env : SmpEnv) (fs : Files) :
    ∃ s, smpCases env ⟨fs, .pass⟩ = (.ok (), s) ∧ Ran (smpCaseList env) fs s := by
  have ha := apart_smpCaseList env
  obtain ⟨s₀, hs₀, h₀⟩ := ran_startCases fs
  have hboot : Apart ([] ++ [(runSmpBootCase env, env.bootRun)]) := Apart.left ha
  obtain ⟨s₁, hs₁, h₁⟩ := h₀.step hboot
  obtain ⟨s₂, hs₂, h₂⟩ := h₁.step ha
  exact ⟨s₂, by rw [smpCases, Sh.bind_ok hs₀, Sh.bind_ok hs₁, hs₂], h₂⟩

theorem smp_run (d : Digest) (env : SmpEnv) (fs : Files) :
    ∃ r readme doc s, smpCases env ⟨fs, .pass⟩ = (.ok (), s) ∧ Ran (smpCaseList env) fs s ∧
      Documents doc s.status (records (smpCaseList env) fs) ∧
      smp d env ⟨fs, .pass⟩ = (r, published d readme doc s) ∧ ∀ n, r ≠ .error (.errexit n) := by
  obtain ⟨s, hs, hr⟩ := smpCases_run env fs
  obtain ⟨r, readme, hrun, hn⟩ := harness_run hs hr.logged.ledger (decodeTests_ledger _ _) d
    "# x86 AxVisor Layer1 SMP Evidence" env.runId (smpReadme env)
    (summaryDocument "axvisor-x86-l1-smp" env.runId) exits_exitStatus
  exact ⟨r, readme, _, s, hs, hr, documents_summaryDocument _ _ _ _, hrun, hn⟩

/-- The cases of the scale harness. -/
def smpScaleCaseList (env : SmpScaleEnv) : List (Case × Outcome) :=
  env.cases.map fun c => (runScaleCase c.1, c.2)

theorem id_runScaleCase (n : Nat) :
    (runScaleCase n).id = "L1-SMP-SCALE-" ++ Nat.toDigits 10 n := rfl

theorem apart_smpScaleCaseList (h : (env.cases.map Prod.fst).Nodup) :
    Apart (smpScaleCaseList env) := by
  have hslash : '/' ∉ "L1-SMP-SCALE-".toList := by decide
  constructor
  · intro c hc
    obtain ⟨c, -, rfl⟩ := List.mem_map.1 hc
    rw [id_runScaleCase]
    simp only [List.mem_append, hslash, slash_not_mem_digits, or_self, not_false_iff]
  · have hids : (smpScaleCaseList env).map (·.1.id) =
        (env.cases.map Prod.fst).map fun n => "L1-SMP-SCALE-".toList ++ Nat.toDigits 10 n := by
      simp only [smpScaleCaseList, List.map_map, Function.comp_def, id_runScaleCase]
    rw [hids]
    exact h.map fun m n hmn => toDigits_injective (List.append_cancel_left hmn)

theorem smpScaleCases_run (h : (env.cases.map Prod.fst).Nodup) (fs : Files) :
    ∃ s, smpScaleCases env ⟨fs, .pass⟩ = (.ok (), s) ∧ Ran (smpScaleCaseList env) fs s := by
  obtain ⟨s₀, hs₀, h₀⟩ := ran_startCases fs
  obtain ⟨s, hs, hr⟩ := Ran.each (fun c : Nat × Outcome => (runScaleCase c.1, c.2)) env.cases h₀
    (apart_smpScaleCaseList h)
  exact ⟨s, by rw [smpScaleCases, Sh.bind_ok hs₀, hs], hr⟩

theorem smpScale_run (d : Digest) (h : (env.cases.map Prod.fst).Nodup) (fs : Files) :
    ∃ r readme doc s, Ran (smpScaleCaseList env) fs s ∧
      Documents doc s.status (records (smpScaleCaseList env) fs) ∧
      smpScale d env ⟨fs, .pass⟩ = (r, published d readme doc s) ∧
      ∀ n, r ≠ .error (.errexit n) := by
  obtain ⟨s, hs, hr⟩ := smpScaleCases_run h fs
  obtain ⟨r, readme, hrun, hn⟩ := harness_run hs hr.logged.ledger (decodeTests_ledger _ _) d
    "# x86 AxVisor Layer1 SMP Scale Evidence" env.runId (smpScaleReadme env) (smpScaleDocument env)
    exits_exitStatus
  exact ⟨r, readme, _, s, hr, documents_smpScaleDocument _ _ _, hrun, hn⟩

end Harness
