import AxvisorTools.Eval.Proof.Imported

/-!
# Importing the memory sizes

`import_x86_mem_sizes` validates every case and lists the outcomes in `report.txt`, but its verdict
asks only for one passed case beside the status line of the harness. `memSizes_import_iff` says
exactly when that is enough.
-/

namespace Eval

open Shell Py Harness

variable {src : Evidence}

/-! ## The verdict -/

theorem memSizesVerdict_pass_iff (t : Tree) : memSizesVerdict t = .pass ↔
    has (t.files.lookup summaryTxt) "MEM_SIZES_STATUS=pass" = true ∧
      ∃ name ∈ memCases t, memCasePasses t name = true := by
  rw [memSizesVerdict, verdict_pass_iff, Bool.and_eq_true, decide_eq_true_iff, gt_iff_lt,
    List.countP_pos_iff]

theorem appends_importX86MemSizes {t : Tree} (ht : src.tree = some t) :
    Appends (importX86MemSizes src) [("L1-MEM-SIZES", memSizesVerdict t)] := by
  have h := adds_importX86MemSizes src
  rwa [memSizesRows, rowsOf, ht] at h

theorem importX86MemSizes_triple {t : Tree} (ht : src.tree = some t) :
    Triple (fun _ => True) (importX86MemSizes src) (fun _ => Reads (memReport src.path t)) Never := by
  have hpath : src.path ≠ [] := src.named (by rw [ht]; rfl)
  have hcopy : ∀ dst names,
      Triple (fun _ => True) (copyEach t dst names) (fun _ _ => True) Never :=
    fun dst names => .each fun _ _ => .modify fun _ h => h
  have hwrite : ∀ r, Triple (fun _ => True) (writeFile "functional/x86-mem-sizes/report.txt" r)
      (fun _ => Reads r) Never := fun r => .modify fun s _ =>
    congrArg (Option.getD · []) (Files.lookup_write_self s.out memReportPath r)
  have hrecord : ∀ v reason artifacts r, Triple (Reads r)
      (record "L1-MEM-SIZES" v reason artifacts) (fun _ => Reads r) Never := by
    intro v reason artifacts r
    refine .modify fun s hs => ?_
    rw [Reads, lookup_recordTest _ _ (by decide) (by decide)]
    exact hs
  unfold importX86MemSizes
  rw [if_neg hpath, ht]
  have hcapture : Triple (fun _ => True) (capture [0, 0, 0] (memCaseNames src.path t))
      (fun names _ => names = substitute (memCaseNames src.path t) ∧ True) Never :=
    fun _ _ => ⟨rfl, trivial⟩
  refine .bind (hcopy _ _) fun _ => .bind (.each fun _ _ => hcopy _ _) fun _ =>
    .bindValue hcapture (.bind (hwrite _) fun _ =>
    .bindValue (importMemCases_triple t _ 0 _) (.bind (reads_appendFile _ _) fun _ => ?_))
  rw [Nat.zero_add]
  exact hrecord _ _ _ _

theorem report_importing {t : Tree} (ht : src.tree = some t) (fs : Files) :
    (importing (importX86MemSizes src) fs).out.lookup memReportPath =
      some (memReport src.path t) := by
  obtain ⟨s₀, hs₀, -⟩ := startLedger_spec fs
  have h := importX86MemSizes_triple ht s₀ trivial
  have hrun : importing (importX86MemSizes src) fs = (importX86MemSizes src s₀).2 := by
    rw [importing, Sh.bind_ok hs₀]
  rw [hrun]
  revert h
  rcases importX86MemSizes src s₀ with ⟨e | a, s⟩
  · exact False.elim
  · intro h
    have hne : memReport src.path t ≠ [] := by simp [memReport, echoes, echo]
    cases hs : s.out.lookup memReportPath with
    | none =>
      simp only [Reads, hs, Option.getD_none] at h
      exact absurd h.symm hne
    | some r =>
      simp only [Reads, hs, Option.getD_some] at h
      rw [h]

/-- **When the import of the memory sizes requires every case**: exactly when the harness did not
report a pass, no case passes, or all do. The report lists the outcome of every case in any event. -/
theorem memSizes_import_iff (src : Evidence) (t : Tree) (ht : src.tree = some t) (fs : Files) :
    (importing (importX86MemSizes src) fs).out.lookup memReportPath =
        some (memReport src.path t) ∧
    ((Recorded (importing (importX86MemSizes src) fs) "L1-MEM-SIZES" .pass →
        (∀ name ∈ t.children [] "L1-MEM-", memCasePasses t name = true) ∧
        ∀ entry ∈ memOutcomes t, entry.2 ≠ .fail) ↔
      has (t.files.lookup summaryTxt) "MEM_SIZES_STATUS=pass" = false ∨
        (∀ name ∈ t.children [] "L1-MEM-", memCasePasses t name = false) ∨
        ∀ name ∈ t.children [] "L1-MEM-", memCasePasses t name = true) := by
  refine ⟨report_importing ht fs, ?_⟩
  have hentries : (∀ entry ∈ memOutcomes t, entry.2 ≠ .fail) ↔
      ∀ name ∈ t.children [] "L1-MEM-", memCasePasses t name = true := by
    simp only [memOutcomes, List.forall_mem_map, mem_memCases]
    refine forall₂_congr fun name _ => ?_
    cases memCasePasses t name <;> decide
  rw [(appends_importX86MemSizes ht).recorded_iff, List.mem_singleton, Prod.mk.injEq,
    and_iff_right rfl, eq_comm, memSizesVerdict_pass_iff, hentries, and_self]
  simp only [mem_memCases]
  constructor
  · intro h
    by_cases hsummary : has (t.files.lookup summaryTxt) "MEM_SIZES_STATUS=pass" = true
    · by_cases hone : ∃ name ∈ t.children [] "L1-MEM-", memCasePasses t name = true
      · exact .inr (.inr (h ⟨hsummary, hone⟩))
      · exact .inr (.inl (by simpa using hone))
    · exact .inl (by simpa using hsummary)
  · intro h hpass
    obtain ⟨hsummary, name, hname, hcase⟩ := hpass
    rcases h with h | h | h
    · rw [h] at hsummary
      cases hsummary
    · rw [h name hname] at hcase
      cases hcase
    · exact h

/-- The files of a passed case. -/
def passedCase (name : String) : List (Text × Text) :=
  [((name ++ "/result.txt").toList, hereDoc ["AXVISOR_X86_NATIVE_GUEST_PASS=1",
      "ROOT_MOUNT_FS=ext4", "SMOKE_WRITE_TEST=1"]),
    ((name ++ "/qemu.log").toList, hereDoc ["VFS: Mounted root (ext4 filesystem)"])]

/-- Evidence with a status line and these files. -/
def sizesEvidence (files : List (Text × Text)) : Evidence :=
  ⟨"sizes", some ⟨Files.graft ∅ [] ((summaryTxt, "MEM_SIZES_STATUS=pass\n") :: files), []⟩,
    fun _ => by decide⟩

/-- Three cases that pass. -/
def goodEvidence : Evidence :=
  sizesEvidence (passedCase "L1-MEM-128m" ++ passedCase "L1-MEM-256m" ++ passedCase "L1-MEM-1g")

theorem memSizes_import_good : ∃ t, goodEvidence.tree = some t ∧
    (t.children [] "L1-MEM-").length = 3 ∧
    (Recorded (importing (importX86MemSizes goodEvidence) ∅) "L1-MEM-SIZES" .pass →
      ∀ name ∈ t.children [] "L1-MEM-", memCasePasses t name = true) := by
  refine ⟨_, rfl, by decide +kernel, fun hpass => ?_⟩
  refine (((memSizes_import_iff _ _ rfl ∅).2.2 (.inr (.inr ?_))) hpass).1
  decide +kernel

/-- The case of 128 MiB passes, and there is no log of the one of 256 MiB. -/
def mixedEvidence : Evidence :=
  sizesEvidence (passedCase "L1-MEM-128m" ++ [("L1-MEM-256m/result.txt".toList, [])])

theorem mixed_cases : ∃ t, mixedEvidence.tree = some t ∧
    has (t.files.lookup summaryTxt) "MEM_SIZES_STATUS=pass" = true ∧
    "L1-MEM-128m".toList ∈ t.children [] "L1-MEM-" ∧ memCasePasses t "L1-MEM-128m" = true ∧
    "L1-MEM-256m".toList ∈ t.children [] "L1-MEM-" ∧ memCasePasses t "L1-MEM-256m" = false := by
  refine ⟨_, rfl, ?_⟩
  decide +kernel

/-- The failed case is listed in the report of an import that passes. -/
theorem memSizes_import_mixed : ∃ t, mixedEvidence.tree = some t ∧
    Recorded (importing (importX86MemSizes mixedEvidence) ∅) "L1-MEM-SIZES" .pass ∧
    ("L1-MEM-256m".toList, Verdict.fail) ∈ memOutcomes t ∧
    "L1-MEM-256m".toList ∈ t.children [] "L1-MEM-" ∧
      memCasePasses t "L1-MEM-256m" = false := by
  obtain ⟨t, ht, hsummary, hmem, hpass, hmem', hfail⟩ := mixed_cases
  refine ⟨t, ht, ?_, ?_, hmem', hfail⟩
  · rw [(appends_importX86MemSizes ht).recorded_iff, List.mem_singleton, Prod.mk.injEq,
      and_iff_right rfl, eq_comm, memSizesVerdict_pass_iff]
    exact ⟨hsummary, _, mem_memCases.2 hmem, hpass⟩
  · refine List.mem_map.2 ⟨_, mem_memCases.2 hmem', ?_⟩
    rw [hfail]
    decide

end Eval
