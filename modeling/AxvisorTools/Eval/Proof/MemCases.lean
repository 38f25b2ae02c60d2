import AxvisorTools.Eval.Rows
import AxvisorTools.Shell.Proof.Files
import AxvisorTools.Shell.Proof.Triple

/-!
# The cases of the memory sizes

The loop of `import_x86_mem_sizes` validates every case, counts those that pass and lists the outcomes
in `report.txt` (`importMemCases_triple`).
-/

namespace Eval

open Shell Py Harness

theorem mem_memCases {t : Tree} {name : Text} :
    name ∈ memCases t ↔ name ∈ t.children [] "L1-MEM-" := List.mem_mergeSort

/-- The cases with the outcomes that the report gives. -/
def memOutcomes (t : Tree) : List (Text × Verdict) :=
  (memCases t).map fun name => (substitute (echo name), verdict (memCasePasses t name))

/-- The line of a case. -/
def memLine (entry : Text × Verdict) : Text := echo (entry.1 ++ '=' :: entry.2.text)

/-- The whole report. -/
def memReport (src : Text) (t : Tree) : Text :=
  echoes ["TEST_ID=L1-MEM-SIZES", "SOURCE=" ++ src,
      "CASES=" ++ substitute (memCaseNames src t)] ++
    (memOutcomes t).flatMap memLine ++
    echo ("PASS_COUNT=" ++ Nat.toDigits 10 ((memCases t).countP (memCasePasses t)))

def memReportPath : Text := "functional/x86-mem-sizes/report.txt"

/-- The report holds the text `r`, which is nothing before it is written. -/
def Reads (r : Text) (s : State) : Prop := (s.out.lookup memReportPath).getD [] = r

theorem reads_copyNamed (t : Tree) (src dir file r : Text) :
    Triple (Reads r)
      (copyNamed t src ("functional/x86-mem-sizes/" ++ dir ++ '/' :: file))
      (fun _ => Reads r) Never := by
  have hne : memReportPath ≠ "functional/x86-mem-sizes/" ++ dir ++ '/' :: file := by
    intro h
    have hpath : memReportPath = "functional/x86-mem-sizes/" ++ "report.txt" := by
      decide
    rw [hpath, List.append_assoc, List.append_cancel_left_eq] at h
    have hslash : '/' ∈ dir ++ '/' :: file := by simp
    rw [← h] at hslash
    exact absurd hslash (by decide)
  refine Triple.modify fun s hs => ?_
  rw [Reads, State.copy, Files.lookup_copy_ne hne]
  exact hs

theorem reads_appendFile (line r : Text) :
    Triple (Reads r) (appendFile "functional/x86-mem-sizes/report.txt" line)
      (fun _ => Reads (r ++ line)) Never := by
  refine Triple.modify fun s hs => ?_
  have h := Files.lookup_append_self s.out memReportPath line
  rw [hs] at h
  exact congrArg (Option.getD · []) h

/-- One case: its outcome is returned and listed. -/
theorem importMemCase_triple (t : Tree) (name r : Text) :
    Triple (Reads r) (importMemCase t name) (fun ok s => ok = memCasePasses t name ∧
      Reads (r ++ memLine (substitute (echo name), verdict (memCasePasses t name))) s) Never := by
  refine .bind (.each fun file _ => reads_copyNamed t _ _ file r) fun _ =>
    .bind (reads_appendFile _ r) fun _ => .pure _ fun s hs => ⟨rfl, ?_⟩
  convert hs using 3
  rw [memLine, memCasePasses]
  cases memCaseOk (t.files.lookup (name ++ "/result.txt"))
    (t.files.lookup (name ++ "/qemu.log")) <;> rfl

/-- The loop: the passed cases are counted, and every outcome is listed. -/
theorem importMemCases_triple (t : Tree) (names : List Text) (n : Nat) (r : Text) :
    Triple (Reads r) (importMemCases t names n)
      (fun passCount s => passCount = n + names.countP (memCasePasses t) ∧
        Reads (r ++ (names.map fun name =>
          (substitute (echo name), verdict (memCasePasses t name))).flatMap memLine) s) Never := by
  induction names generalizing n r with
  | nil => exact .pure _ fun s hs => ⟨rfl, by simpa using hs⟩
  | cons name names ih =>
    refine .bindValue (importMemCase_triple t name r)
      ((ih _ _).conseq (fun _ h => h) ?_ fun _ _ h => h)
    intro passCount s h
    obtain ⟨hcount, hreport⟩ := h
    refine ⟨?_, by simpa using hreport⟩
    rw [hcount, List.countP_cons]
    split
    · omega
    · omega

theorem importMemCases_ok (t : Tree) (names : List Text) (n : Nat) (s : State) :
    ∃ s', importMemCases t names n s = (.ok (n + names.countP (memCasePasses t)), s') := by
  have h := importMemCases_triple t names n _ s rfl
  revert h
  rcases importMemCases t names n s with ⟨e | a, s'⟩
  · exact False.elim
  · intro h
    exact ⟨s', by rw [h.1]⟩

end Eval
