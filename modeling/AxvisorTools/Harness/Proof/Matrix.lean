import AxvisorTools.Harness.Matrix
import AxvisorTools.Harness.Proof.Functional

/-!
# What the test matrix reports

The summary of a run whose cases all succeed has the lines it should have. The first case that fails
ends the script: there is no `MATRIX_STATUS` line then (`testMatrix_reports_iff`).
-/

namespace Harness

open Shell

variable {ls : List Text} {s : State} {outcomes : MatrixCase → Outcome}

/-! ## Lines of the summary -/

/-- `summary.txt` consists of these lines. -/
def Wrote (ls : List Text) (s : State) : Prop := s.out.lookup summaryTxt = some (echoes ls)

theorem wrote_recordLine (h : Wrote ls s) (l : Text) :
    ∃ s', recordLine l s = (.ok (), s') ∧ Wrote (ls ++ [l]) s' ∧ s'.status = s.status := by
  refine ⟨_, rfl, ?_, rfl⟩
  rw [Wrote, State.append, Files.lookup_append_self, h]
  simp [echoes]

theorem Wrote.congr {s' : State} (h : Wrote ls s)
    (hs : s'.out.lookup summaryTxt = s.out.lookup summaryTxt) : Wrote ls s' := hs.trans h

theorem Wrote.inner (h : Wrote ls s) (id : Text) (o : Outcome) :
    Wrote ls (Harness.inner id o s) := h.congr (lookup_inner (not_below_of_slash (by decide)) o s)

theorem Wrote.keepAll (h : Wrote ls s) (id : Text) (names : List String) :
    Wrote ls (Harness.keepAll id names s) :=
  h.congr (lookup_keepAll (not_below_of_slash (by decide)) names s)

theorem wrote_each (h : Wrote ls s) (new : List Text) :
    ∃ s', Sh.each recordLine new s = (.ok (), s') ∧ Wrote (ls ++ new) s' ∧
      s'.status = s.status := by
  induction new generalizing ls s with
  | nil => exact ⟨s, rfl, by rwa [List.append_nil], rfl⟩
  | cons l new ih =>
    obtain ⟨s₁, h₁, hw₁, hst₁⟩ := wrote_recordLine h l
    obtain ⟨s₂, h₂, hw₂, hst₂⟩ := ih hw₁
    refine ⟨s₂, by rw [Sh.each, Sh.bind_ok h₁, h₂], ?_, hst₂.trans hst₁⟩
    simpa using hw₂

/-! ## One case -/

/-- The lines before the outcome of a case. -/
def caseHead (env : MatrixEnv) (c : MatrixCase) : List Text :=
  ["CASE=" ++ c.id, "DESCRIPTION=" ++ c.description,
    "LOG=" ++ env.outDir ++ '/' :: caseFile c.id "run.out"]

theorem wrote_caseHead (h : Wrote ls s) (env : MatrixEnv) (c : MatrixCase) (o : Outcome) {α : Type}
    (k : Sh State α) :
    ∃ s', (do
        recordLine ("CASE=" ++ c.id)
        recordLine ("DESCRIPTION=" ++ c.description)
        recordLine ("LOG=" ++ env.outDir ++ '/' :: caseFile c.id "run.out")
        Sh.modify (inner c.id o)
        k) s = k s' ∧ Wrote (ls ++ caseHead env c) s' ∧ s'.status = s.status := by
  obtain ⟨s₁, h₁, hw₁, hst₁⟩ := wrote_recordLine h ("CASE=" ++ c.id)
  obtain ⟨s₂, h₂, hw₂, hst₂⟩ := wrote_recordLine hw₁ ("DESCRIPTION=" ++ c.description)
  obtain ⟨s₃, h₃, hw₃, hst₃⟩ := wrote_recordLine hw₂
    ("LOG=" ++ env.outDir ++ '/' :: caseFile c.id "run.out")
  refine ⟨inner c.id o s₃, by rw [Sh.bind_ok h₁, Sh.bind_ok h₂, Sh.bind_ok h₃]; rfl, ?_,
    hst₃.trans (hst₂.trans hst₁)⟩
  simpa [caseHead] using hw₃.inner c.id o

theorem matrixStep_pass (h : Wrote ls s) (env : MatrixEnv) (c : MatrixCase) {o : Outcome}
    (ho : o.status = 0) :
    ∃ s', matrixStep env (c, o) s = (.ok (), s') ∧
      Wrote (ls ++ (caseHead env c ++ ["STATUS=pass".toList, []])) s' ∧ s'.status = s.status := by
  obtain ⟨s₁, h₁, hw₁, hst₁⟩ := wrote_caseHead h env c o (do
    recordLine "STATUS=pass"
    recordLine []
    pure 0)
  obtain ⟨s₂, h₂, hw₂, hst₂⟩ := wrote_recordLine hw₁ "STATUS=pass"
  obtain ⟨s₃, h₃, hw₃, hst₃⟩ := wrote_recordLine hw₂ []
  refine ⟨keepAll c.id c.kept s₃, ?_, ?_, ?_⟩
  · have hrun : runMatrixCase env c o s = (.ok 0, s₃) := by
      unfold runMatrixCase
      rw [if_pos ho, h₁, Sh.bind_ok h₂, Sh.bind_ok h₃]
      rfl
    rw [matrixStep, Sh.bind_ok hrun]
    rfl
  · simpa using hw₃.keepAll c.id c.kept
  · rw [status_keepAll, hst₃, hst₂, hst₁]

theorem matrixStep_fail (h : Wrote ls s) (env : MatrixEnv) (c : MatrixCase) {o : Outcome}
    (ho : o.status ≠ 0) :
    ∃ s', matrixStep env (c, o) s = (.error (.errexit o.status), s') ∧
      Wrote (ls ++ (caseHead env c ++
        ["STATUS=fail".toList, "RC=".toList ++ Nat.toDigits 10 o.status])) s' := by
  obtain ⟨s₁, h₁, hw₁, -⟩ := wrote_caseHead h env c o (do
    recordLine "STATUS=fail"
    recordLine ("RC=".toList ++ Nat.toDigits 10 o.status)
    Sh.modify fun s => { s with status := .fail }
    pure o.status)
  obtain ⟨s₂, h₂, hw₂, -⟩ := wrote_recordLine hw₁ "STATUS=fail"
  obtain ⟨s₃, h₃, hw₃, -⟩ := wrote_recordLine hw₂ ("RC=".toList ++ Nat.toDigits 10 o.status)
  refine ⟨{ s₃ with status := .fail }, ?_, ?_⟩
  · have hrun : runMatrixCase env c o s = (.ok o.status, { s₃ with status := .fail }) := by
      unfold runMatrixCase
      rw [if_neg ho, h₁, Sh.bind_ok h₂, Sh.bind_ok h₃]
      rfl
    have hplain : (Sh.plain o.status : Sh State Unit) { s₃ with status := .fail } =
        (.error (.errexit o.status), { s₃ with status := .fail }) := by
      rw [Sh.plain, if_neg ho]
    rw [matrixStep, Sh.bind_ok hrun, Sh.bind_error hplain]
  · have hw : Wrote _ { s₃ with status := .fail } := hw₃.congr rfl
    simpa using hw

/-! ## All cases -/

/-- The lines of a case that succeeds. -/
def passLines (env : MatrixEnv) (c : MatrixCase) : List Text :=
  caseHead env c ++ ["STATUS=pass".toList, []]

theorem matrixSteps_pass (h : Wrote ls s) (env : MatrixEnv) {cs : List MatrixCase}
    (hcs : ∀ c ∈ cs, (outcomes c).status = 0) :
    ∃ s', Sh.each (matrixStep env) (cs.map fun c => (c, outcomes c)) s = (.ok (), s') ∧
      Wrote (ls ++ cs.flatMap (passLines env)) s' ∧ s'.status = s.status := by
  induction cs generalizing ls s with
  | nil => exact ⟨s, rfl, by simpa using h, rfl⟩
  | cons c cs ih =>
    obtain ⟨s₁, h₁, hw₁, hst₁⟩ := matrixStep_pass h env c (hcs c List.mem_cons_self)
    obtain ⟨s₂, h₂, hw₂, hst₂⟩ := ih hw₁ fun c' hc' => hcs c' (List.mem_cons_of_mem _ hc')
    refine ⟨s₂, by rw [List.map_cons, Sh.each, Sh.bind_ok h₁, h₂], ?_, hst₂.trans hst₁⟩
    rw [List.flatMap_cons, ← List.append_assoc]
    exact hw₂

/-- A line with the verdict of the whole matrix. -/
def isMatrixStatus (l : Text) : Bool := "MATRIX_STATUS=".toList.isPrefixOf l

/-- Lines without the verdict of the matrix. -/
structure Undecided (ls : List Text) : Prop where
  unbroken : Unbroken ls
  status : ∀ l ∈ ls, isMatrixStatus l = false

theorem Undecided.append {ls' : List Text} (h : Undecided ls) (h' : Undecided ls') :
    Undecided (ls ++ ls') :=
  ⟨List.forall_mem_append.2 ⟨h.unbroken, h'.unbroken⟩,
    List.forall_mem_append.2 ⟨h.status, h'.status⟩⟩

theorem newline_not_mem_append {k v : Text} (hk : '\n' ∉ k) (hv : '\n' ∉ v) : '\n' ∉ k ++ v := by
  rw [List.mem_append, not_or]
  exact ⟨hk, hv⟩

theorem undecided_caseHead (env : MatrixEnv) {c : MatrixCase} (hc : c ∈ matrixCases) :
    Undecided (caseHead env c) := by
  have hcases : ∀ c ∈ matrixCases, '\n' ∉ c.id ∧ '\n' ∉ c.description ∧
      '\n' ∉ '/' :: caseFile c.id "run.out" := by decide +kernel
  obtain ⟨hid, hdesc, hlog⟩ := hcases c hc
  have hout : '\n' ∉ env.outDir := env.unbroken _ (by simp)
  constructor
  · simp only [Unbroken, caseHead, List.forall_mem_cons]
    exact ⟨newline_not_mem_append (by decide) hid, newline_not_mem_append (by decide) hdesc,
      newline_not_mem_append (newline_not_mem_append (by decide) hout) hlog,
      fun _ h => absurd h List.not_mem_nil⟩
  · intro l hl
    simp only [caseHead, List.mem_cons, List.not_mem_nil, or_false] at hl
    rcases hl with rfl | rfl | rfl <;> rfl

theorem undecided_passLines (env : MatrixEnv) {c : MatrixCase} (hc : c ∈ matrixCases) :
    Undecided (passLines env c) := (undecided_caseHead env hc).append ⟨by decide, by decide⟩

theorem undecided_fail (n : Nat) :
    Undecided ["STATUS=fail".toList, "RC=".toList ++ Nat.toDigits 10 n] := by
  have hdigits : '\n' ∉ Nat.toDigits 10 n := by
    intro h
    have hd := Nat.isDigit_of_mem_toDigits (by decide) (by decide) h
    exact absurd hd (by decide)
  constructor
  · simp only [Unbroken, List.forall_mem_cons]
    exact ⟨by decide, newline_not_mem_append (by decide) hdigits,
      fun _ h => absurd h List.not_mem_nil⟩
  · simp only [List.forall_mem_cons]
    exact ⟨by decide, rfl, fun _ h => absurd h List.not_mem_nil⟩

/-- The script ends at the first case that fails, and no line has told the verdict by then. -/
theorem matrixSteps_fail (h : Wrote ls s) (hls : Undecided ls) (env : MatrixEnv)
    {cs : List MatrixCase} (hmem : ∀ c ∈ cs, c ∈ matrixCases)
    (hcs : ∃ c ∈ cs, (outcomes c).status ≠ 0) :
    ∃ n s' ls', Sh.each (matrixStep env) (cs.map fun c => (c, outcomes c)) s =
        (.error (.errexit n), s') ∧ Wrote ls' s' ∧ Undecided ls' := by
  induction cs generalizing ls s with
  | nil => simp at hcs
  | cons c cs ih =>
    by_cases hc : (outcomes c).status = 0
    · obtain ⟨s₁, h₁, hw₁, -⟩ := matrixStep_pass h env c hc
      have hcs : ∃ c ∈ cs, (outcomes c).status ≠ 0 := by simpa [hc] using hcs
      obtain ⟨n, s₂, ls', h₂, hw₂, hls'⟩ := ih hw₁
        (hls.append (undecided_passLines env (hmem c List.mem_cons_self)))
        (fun c' hc' => hmem c' (List.mem_cons_of_mem _ hc')) hcs
      exact ⟨n, s₂, ls', by rw [List.map_cons, Sh.each, Sh.bind_ok h₁, h₂], hw₂, hls'⟩
    · obtain ⟨s₁, h₁, hw₁⟩ := matrixStep_fail h env c hc
      exact ⟨_, s₁, _, by rw [List.map_cons, Sh.each, Sh.bind_error h₁], hw₁,
        hls.append ((undecided_caseHead env (hmem c List.mem_cons_self)).append (undecided_fail _))⟩

/-! ## The report -/

/-- A line with a case, its status, or the status of the matrix. -/
def isReport (l : Text) : Bool :=
  "CASE=".toList.isPrefixOf l || "STATUS=".toList.isPrefixOf l || isMatrixStatus l

def passText (b : Bool) : Text := if b then "pass" else "fail"

/-- The lines that a summary should have, for the outcomes of its cases. -/
def matrixReport (outcomes : MatrixCase → Outcome) : List Text :=
  (matrixCases.flatMap fun c => ["CASE=".toList ++ c.id,
    "STATUS=".toList ++ passText ((outcomes c).status = 0)]) ++
  ["MATRIX_STATUS=".toList ++ passText (matrixCases.all fun c => (outcomes c).status = 0)]

/-- The run reported: the summary with the verdict on its last line, the README and the manifest. -/
structure MatrixReported (d : Digest) (env : MatrixEnv) (outcomes : MatrixCase → Outcome)
    (s : State) : Prop where
  summary : ∃ t, s.out.lookup summaryTxt = some t ∧
    (fileLines t).filter isReport = matrixReport outcomes ∧
    (fileLines t).getLast? = (matrixReport outcomes).getLast?
  readme : s.out.lookup readmeMd = some (matrixReadme env s.status)
  manifest : ∃ s', s = writeChecksums d s'

theorem undecided_matrixHead (env : MatrixEnv) : Undecided (matrixHead env) := by
  have h := env.unbroken
  simp only [Unbroken, List.forall_mem_cons] at h
  obtain ⟨h1, h2, h3, h4, h5, h6, h7, h8, h9, h10, -⟩ := h
  have hcpu : '\n' ∉ if env.qemuCpu = [] then "auto".toList else env.qemuCpu := by
    split
    · decide
    · exact h6
  constructor
  · simp only [Unbroken, matrixHead, List.forall_mem_cons]
    exact ⟨newline_not_mem_append (by decide) h1, newline_not_mem_append (by decide) h2,
      newline_not_mem_append (by decide) h3, newline_not_mem_append (by decide) h4,
      newline_not_mem_append (by decide) h5, newline_not_mem_append (by decide) hcpu,
      newline_not_mem_append (by decide) h7, newline_not_mem_append (by decide) h8,
      newline_not_mem_append (by decide) h9, newline_not_mem_append (by decide) h10,
      List.not_mem_nil, fun _ h => absurd h List.not_mem_nil⟩
  · have hall : (matrixHead env).any isMatrixStatus = false := rfl
    simpa using hall

theorem filter_matrixHead (env : MatrixEnv) : (matrixHead env).filter isReport = [] := rfl

theorem filter_passLines (env : MatrixEnv) (c : MatrixCase) :
    (passLines env c).filter isReport = ["CASE=".toList ++ c.id, "STATUS=pass".toList] := rfl

/-- The lines of a summary whose cases all succeeded. -/
def passSummary (env : MatrixEnv) : List Text :=
  matrixHead env ++ matrixCases.flatMap (passLines env) ++ ["MATRIX_STATUS=pass".toList]

theorem unbroken_passSummary (env : MatrixEnv) : Unbroken (passSummary env) := by
  refine List.forall_mem_append.2 ⟨List.forall_mem_append.2
    ⟨(undecided_matrixHead env).unbroken, ?_⟩, by decide⟩
  intro l hl
  obtain ⟨c, hc, hl⟩ := List.mem_flatMap.1 hl
  exact (undecided_passLines env hc).unbroken l hl

theorem matrixReport_pass (h : ∀ c ∈ matrixCases, (outcomes c).status = 0) :
    matrixReport outcomes =
      (matrixCases.flatMap fun c => ["CASE=".toList ++ c.id, "STATUS=pass".toList]) ++
        ["MATRIX_STATUS=pass".toList] := by
  have hpass : ∀ name : Text, name ++ passText true = name ++ "pass".toList := fun _ => rfl
  have hall : (matrixCases.all fun c => decide ((outcomes c).status = 0)) = true :=
    List.all_eq_true.2 fun c hc => decide_eq_true (h c hc)
  rw [matrixReport, hall]
  refine congrArg₂ (· ++ ·) (List.flatMap_congr fun c hc => ?_) rfl
  rw [decide_eq_true (h c hc)]
  rfl

theorem filter_passSummary (env : MatrixEnv) (h : ∀ c ∈ matrixCases, (outcomes c).status = 0) :
    (passSummary env).filter isReport = matrixReport outcomes := by
  rw [matrixReport_pass h, passSummary, List.filter_append, List.filter_append, filter_matrixHead,
    List.nil_append, List.filter_flatMap]
  exact congrArg₂ (· ++ ·) (List.flatMap_congr fun c _ => filter_passLines env c) rfl

/-! ## Whole runs -/

theorem matrixRun_start (env : MatrixEnv) (fs : Files) (k : Sh State Unit) :
    ∃ s, (do Sh.modify (State.write summaryTxt []); Sh.each recordLine (matrixHead env); k)
        ⟨fs, .pass⟩ = k s ∧ Wrote (matrixHead env) s ∧ s.status = .pass := by
  have h₀ : Wrote [] (State.write summaryTxt [] ⟨fs, .pass⟩) := Files.lookup_write_self _ _ _
  obtain ⟨s, hs, hw, hst⟩ := wrote_each h₀ (matrixHead env)
  exact ⟨s, by rw [Sh.bind_ok (Sh.modify_apply _ _), Sh.bind_ok hs], hw, hst⟩

theorem matrixRun_pass (env : MatrixEnv) (h : ∀ c ∈ matrixCases, (outcomes c).status = 0)
    (fs : Files) :
    ∃ s, matrixRun env outcomes ⟨fs, .pass⟩ = (.ok (), s) ∧ Wrote (passSummary env) s ∧
      s.status = .pass := by
  obtain ⟨s₀, hrun, hw₀, hst₀⟩ := matrixRun_start env fs (do
    Sh.each (matrixStep env) (matrixCases.map fun c => (c, outcomes c))
    recordMatrixStatus)
  obtain ⟨s₁, h₁, hw₁, hst₁⟩ := matrixSteps_pass hw₀ env h
  obtain ⟨s₂, h₂, hw₂, hst₂⟩ := wrote_recordLine hw₁ "MATRIX_STATUS=pass"
  have hpass : s₁.status = .pass := hst₁.trans hst₀
  refine ⟨s₂, ?_, hw₂, hst₂.trans hpass⟩
  rw [matrixRun, hrun, Sh.bind_ok h₁, recordMatrixStatus, Sh.bind_ok (Sh.get_apply s₁), if_pos hpass,
    h₂]

theorem testMatrix_pass (d : Digest) (env : MatrixEnv)
    (h : ∀ c ∈ matrixCases, (outcomes c).status = 0) (fs : Files) :
    MatrixReported d env outcomes (testMatrix d env outcomes ⟨fs, .pass⟩).2 := by
  obtain ⟨s, hs, hw, hst⟩ := matrixRun_pass env h fs
  let written := s.write readmeMd (matrixReadme env s.status)
  have hrun : (testMatrix d env outcomes ⟨fs, .pass⟩).2 = writeChecksums d written := by
    rw [testMatrix, Sh.bind_ok hs]
    exact (exits_exitUnlessPass (writeChecksums d written)).2
  rw [hrun]
  refine ⟨⟨above (passSummary env), ?_, ?_, ?_⟩, ?_, written, rfl⟩
  · exact (Files.lookup_write_ne (by decide) _).trans
      ((Files.lookup_write_ne (by decide) _).trans hw)
  · rw [fileLines_above (unbroken_passSummary env), filter_passSummary env h]
  · rw [fileLines_above (unbroken_passSummary env), matrixReport_pass h, passSummary,
      List.getLast?_concat, List.getLast?_concat]
  · exact (Files.lookup_write_ne (by decide) _).trans (Files.lookup_write_self _ _ _)

theorem testMatrix_fail (d : Digest) (env : MatrixEnv)
    (h : ∃ c ∈ matrixCases, (outcomes c).status ≠ 0) (fs : Files) :
    ¬MatrixReported d env outcomes (testMatrix d env outcomes ⟨fs, .pass⟩).2 := by
  obtain ⟨s₀, hrun, hw₀, -⟩ := matrixRun_start env fs (do
    Sh.each (matrixStep env) (matrixCases.map fun c => (c, outcomes c))
    recordMatrixStatus)
  obtain ⟨n, s, ls, hs, hw, hls⟩ :=
    matrixSteps_fail hw₀ (undecided_matrixHead env) env (fun _ => id) h
  have hmatrix : matrixRun env outcomes ⟨fs, .pass⟩ = (.error (.errexit n), s) := by
    rw [matrixRun, hrun, Sh.bind_error hs]
  have hfinal : (testMatrix d env outcomes ⟨fs, .pass⟩).2 = s := by
    rw [testMatrix, Sh.bind_error hmatrix]
  rw [hfinal]
  rintro ⟨⟨t, ht, -, hlast⟩, -, -⟩
  obtain rfl : above ls = t := Option.some.inj (hw.symm.trans ht)
  rw [fileLines_above hls.unbroken, matrixReport, List.getLast?_concat] at hlast
  have hl := hls.status _ (List.mem_of_getLast? hlast)
  cases hl

/-- **The test matrix reports if and only if every case succeeds.** -/
theorem testMatrix_reports_iff (d : Digest) (env : MatrixEnv) (outcomes : MatrixCase → Outcome)
    (fs : Files) : MatrixReported d env outcomes (testMatrix d env outcomes ⟨fs, .pass⟩).2 ↔
      ∀ c ∈ matrixCases, (outcomes c).status = 0 := by
  refine ⟨fun hr => ?_, fun h => testMatrix_pass d env h fs⟩
  by_contra hne
  exact testMatrix_fail d env (by simpa using hne) fs hr

/-- A run with nothing set. -/
def failedMatrix : MatrixEnv := ⟨[], [], [], [], [], [], [], [], [], [], by decide⟩

/-- A run whose first case fails has no `MATRIX_STATUS` line. -/
theorem testMatrix_failedMatrix : ¬MatrixReported zeroDigest failedMatrix (fun _ => ⟨1, [], []⟩)
    (testMatrix zeroDigest failedMatrix (fun _ => ⟨1, [], []⟩) ⟨∅, .pass⟩).2 :=
  testMatrix_fail zeroDigest failedMatrix ⟨_, List.mem_cons_self, by decide⟩ ∅

end Harness
