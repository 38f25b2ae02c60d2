import AxvisorTools.Eval.Proof.Adds
import AxvisorTools.Eval.Proof.MemCases

/-!
# What each importer records

One lemma for each importer: it records the rows that `importRows` has for it. `stabilityAborts` is
the one condition under which an importer ends the script.
-/

namespace Eval

open Shell Py Harness

variable {src : Evidence}

/-- The directories that importers read back after they have written to them. -/
def x86Dir : Text := "functional/x86-imported"
def tinyDir : Text := "functional/firecracker-rootfs-tiny"
def kvmDir : Text := "abi/kvm-abi-smoke"

theorem Adds.ite {p : Prop} [Decidable p] {b : Bool} (hb : b = true ↔ p) {dirs : List Text}
    {m m' : Sh State Unit} {id : Text} (h : Adds dirs m fun _ => [(id, .pass)])
    (h' : Adds dirs m' fun _ => [(id, .fail)]) :
    Adds dirs (if p then m else m') fun _ => [(id, verdict b)] := by
  by_cases hp : p
  · rwa [if_pos hp, hb.2 hp]
  · rwa [if_neg hp, Bool.eq_false_iff.2 (mt hb.1 hp)]

theorem adds_runX86Matrix (env : Env) : Adds [x86Dir, tinyDir, kvmDir] (runX86Matrix env)
    fun _ => [("HARNESS-X86-RERUN".toList, rerunVerdict env)] := by
  unfold runX86Matrix rerunVerdict
  split
  · exact .record
  · exact .quiet (quiet_graft (by decide) (by decide) _) fun _ =>
      .ite decide_eq_true_iff .record .record

/-! ## Files that are read from their copies -/

/-- The effect of `copyEach`. -/
def copyAll (t : Tree) (dst : String) (names : List String) (s : State) : State :=
  names.foldl (fun s name =>
    s.copy (t.files.lookup name.toList) (dst.toList ++ '/' :: name.toList)) s

theorem copyEach_eq (t : Tree) (dst : String) (names : List String) (s : State) :
    copyEach t dst names s = (.ok (), copyAll t dst names s) := by
  unfold copyEach copyAll
  induction names generalizing s with
  | nil => rfl
  | cons name names ih => exact ih _

theorem lookup_copy_self (fs : Files) (c : Option Text) (p : Text) :
    (fs.copy c p).lookup p = c.or (fs.lookup p) := by
  cases c with
  | none => rfl
  | some c => exact Files.lookup_write_self _ _ _

theorem importPath_ne {dst name name' : String} (h : name ≠ name') :
    dst.toList ++ '/' :: name.toList ≠ dst.toList ++ '/' :: name'.toList := fun he =>
  h (String.toList_inj.1 (List.cons.inj (List.append_cancel_left he)).2)

/-- By induction over the names: a name that is listed twice is copied twice. -/
theorem imported_copyAll (t : Tree) (dst : String) (names : List String) (s : State) (name : String) :
    imported dst (copyAll t dst names s) name =
      if name ∈ names then copied t s.out dst name else imported dst s name := by
  induction names generalizing s with
  | nil => rfl
  | cons n names ih =>
    have hrest := ih (s.copy (t.files.lookup n.toList) (dst.toList ++ '/' :: n.toList))
    rw [copyAll, List.foldl_cons, ← copyAll, hrest]
    unfold imported copied
    by_cases hn : name = n
    · subst hn
      rw [State.copy, lookup_copy_self, if_pos List.mem_cons_self]
      cases t.files.lookup name.toList <;> simp
    · rw [State.copy, Files.lookup_copy_ne (importPath_ne hn)]
      simp [hn]

theorem imported_recordTest (dst : String) (r : Record) (s : State) :
    imported dst (Harness.recordTest .fail r s) = imported dst s :=
  funext fun _ => lookup_recordTest_of_slash r s (by simp)

theorem quiet_decodeFirecrackerSerial {dirs : List Text} {dst out : String} (log : String)
    (h : Elsewhere dirs (dst.toList ++ '/' :: out.toList)) :
    Quiet dirs (decodeFirecrackerSerial dst log out) := quiet_copy h _

theorem imported_decoded (dst log out : String) (s : State) : imported dst (decoded dst log out s) =
    Function.update (imported dst s) out (serialOr (imported dst s out) (imported dst s log)) := by
  funext name
  rw [decoded, imported]
  by_cases hn : name = out
  · subst hn
    rw [Function.update_self, State.copy, lookup_copy_self, ← imported, serialOr]
    cases imported dst s name <;> simp
  · rw [Function.update_of_ne hn, State.copy, Files.lookup_copy_ne (importPath_ne hn), ← imported]

theorem adds_importX86Evidence (src : Evidence) :
    Adds [tinyDir, kvmDir] (importX86Evidence src) fun s => evidenceRows src s.out := by
  have helse : ∀ q, Elsewhere [tinyDir, kvmDir] ("functional/x86-imported".toList ++ q) :=
    Elsewhere.below (by decide) (by decide)
  unfold importX86Evidence evidenceRows rowsOf
  cases src.tree with
  | none => exact .record
  | some t =>
    refine .congr (.quietState (quiet_copyEachIn t _ fun name => helse _)
      (fun s => ⟨_, copyEach_eq t _ _ s⟩) fun _ =>
      .quietState (quiet_decodeFirecrackerSerial _ (helse _)) (fun s => ⟨_, rfl⟩) fun _ =>
      .quietState (quiet_decodeFirecrackerSerial _ (helse _)) (fun s => ⟨_, rfl⟩) fun _ =>
      .consGet (fun s => .cons fun _ => .cons fun _ => .cons fun _ => .cons fun _ => .record)
        fun r s => by simp only [imported_recordTest]) fun s => ?_
    obtain ⟨s', hs', hcopy⟩ : ∃ s', copyAll t "functional/x86-imported" x86EvidenceFiles s = s' ∧
        ∀ name ∈ x86EvidenceFiles, imported "functional/x86-imported" s' name =
          copied t s.out "functional/x86-imported" name :=
      ⟨_, rfl, fun name hn => (imported_copyAll _ _ _ _ _).trans (if_pos hn)⟩
    simp only [x86EvidenceFiles, List.forall_mem_cons] at hcopy
    simp only [hs', imported_decoded, Function.update_apply, String.reduceEq, reduceIte, x86Rows,
      hcopy]

theorem adds_recordFirecrackerRootfsStatus (env : Env) :
    Adds [tinyDir, kvmDir] (recordFirecrackerRootfsStatus env)
      fun _ => [("FC-ROOTFS-BLK".toList, fcRootfsVerdict env)] := by
  unfold recordFirecrackerRootfsStatus fcRootfsVerdict
  split
  · exact .quiet (quiet_writeFile (by decide) _) fun _ =>
      .quiet (quiet_graft (by decide) (by decide) _) fun _ =>
      .ite decide_eq_true_iff .record .record
  split
  · next h =>
    exact .quiet (quiet_copyPlain h (by decide)) fun _ =>
      .ite .rfl .record .record
  · exact .record

theorem adds_recordFirecrackerRootfsTinyStatus (src : Evidence) :
    Adds [kvmDir] (recordFirecrackerRootfsTinyStatus src) fun s => tinyRows src s.out := by
  unfold recordFirecrackerRootfsTinyStatus tinyRows rowsOf
  by_cases hp : src.path = []
  · rw [if_pos hp, src.tree_eq_none hp]
    exact .record
  rw [if_neg hp]
  cases src.tree with
  | none => exact .record
  | some t =>
    refine .congr (.quietState (quiet_copyEachIn t _ fun name => .below (by decide) (by decide) _)
      (fun s => ⟨_, copyEach_eq t _ _ s⟩) fun _ => .get fun s => .record) fun s => ?_
    simp only [imported_copyAll, List.mem_cons, String.reduceEq, false_or, or_true, true_or,
      reduceIte]

/-! ## The KVM ABI smoke test -/

theorem adds_recordKvmNegatives (qemuLog : Option Text) :
    Appends (recordKvmNegatives qemuLog) (reported (kvmNegatives qemuLog)) :=
  .consReported fun _ => .consReported fun _ => .consReported fun _ => .consReported fun _ =>
    .consReported fun _ => .whenReported _ _ _ _

theorem adds_recordKvmAbiSmokeStatus (dir : Evidence) (out : LogFile) :
    Adds [] (recordKvmAbiSmokeStatus dir out) fun s => kvmRows dir s.out := by
  have hout : Quiet [] (Sh.when out.content.isSome
      (copyPlain out.content "abi/kvm-abi-smoke/run.out")) := by
    cases h : out.content.isSome
    · exact .pure ()
    · exact quiet_copyPlain h (by decide)
  unfold recordKvmAbiSmokeStatus kvmRows rowsOf copyEachFrom
  cases dir.tree with
  | none => exact .quiet (.pure ()) fun _ => .get fun s => .quiet hout fun _ => .cons fun _ => .pure ()
  | some t =>
    refine .congr (.quietState quiet_copyEach (fun s => ⟨_, copyEach_eq t _ _ s⟩) fun _ =>
      .get fun s => .quiet hout fun _ => .cons fun _ => .when (adds_recordKvmNegatives _) _)
      fun s => ?_
    simp only [imported_copyAll, List.mem_cons, true_or, reduceIte, Option.isSome_some, Bool.true_and]

/-! ## Stability -/

theorem grepRecursive_ne_zero_iff (r : Regex.Re) (t : Tree) (args : List Text) :
    (grepRecursive r t args).1 ≠ 0 ↔ (grepRecursive r t args).2 = [] := by
  rw [grepRecursive]
  dsimp only
  split
  · next h => simp [h]
  split
  · next h => exact iff_of_true (by decide) h
  · next h => exact iff_of_false (by simp) h

theorem stabilityAborts_iff {t : Tree} (h : src.tree = some t) :
    stabilityAborts src = true ↔ t.isDir "cases" = true ∧ (rootfsPassed t).1 ≠ 0 := by
  rw [stabilityAborts, h, Option.any_some, Bool.and_eq_true, rootfsPassed,
    grepRecursive_ne_zero_iff, grepRecursive]
  simp only [List.any_filter, List.map_eq_nil_iff, List.filter_eq_nil_iff, List.all_eq_true,
    Bool.not_eq_true', Bool.not_eq_true]

theorem pipefail_grep (n : Nat) : pipefail [n, 0] = n := by
  by_cases h : n = 0 <;> simp [pipefail, h]

theorem rootfsCounts_eq {t : Tree} (ht : src.tree = some t) (h : stabilityAborts src = false)
    (s : State) : rootfsCounts src.path t s =
      (.ok (if t.isDir "cases" then (substitute (rootfsOutputs src.path t).1,
        substitute (rootfsOutputs src.path t).2) else ("0", "0")), s) := by
  unfold rootfsCounts
  by_cases hd : t.isDir "cases" = true
  · have h0 : (rootfsPassed t).1 = 0 := by
      by_contra hne
      rw [(stabilityAborts_iff ht).2 ⟨hd, hne⟩] at h
      cases h
    rw [if_pos hd, if_pos hd, h0]
    rfl
  · rw [if_neg hd, if_neg hd]
    rfl

theorem aborts_importX86NativeStability (h : stabilityAborts src = true) :
    Aborts (importX86NativeStability src) := by
  unfold importX86NativeStability
  split
  · next ht =>
    rw [stabilityAborts, ht] at h
    cases h
  · next t ht =>
    obtain ⟨hd, hne⟩ := (stabilityAborts_iff ht).1 h
    refine .later quiet_copyEach fun _ => .later (quiet_copyNamed _ _ (by decide)) fun _ =>
      .later (quiet_copyNamed _ _ (by decide)) fun _ =>
      .later (quiet_copyNamed _ _ (by decide)) fun _ => .first ?_
    rw [rootfsCounts, if_pos hd]
    exact .later (quiet_capture rfl _) fun _ => .first (aborts_capture (by rwa [pipefail_grep]) _)

theorem adds_importX86NativeStability (h : stabilityAborts src = false) :
    Appends (importX86NativeStability src) (stabilityRows src) := by
  unfold importX86NativeStability stabilityRows rowsOf
  cases ht : src.tree with
  | none => exact .cons fun _ => .record
  | some t =>
    have hcounts := rootfsCounts_eq ht h
    have hquiet : Quiet [] (rootfsCounts src.path t) := fun rs s hs =>
      ⟨_, s, [], hcounts s, by rwa [List.append_nil], rfl, .refl s⟩
    refine .quiet quiet_copyEach fun _ => .quiet (quiet_copyNamed _ _ (by decide)) fun _ =>
      .quiet (quiet_copyNamed _ _ (by decide)) fun _ =>
      .quiet (quiet_copyNamed _ _ (by decide)) fun _ =>
      .quietValue hquiet (fun s => ⟨s, hcounts s⟩) ?_
    exact .quiet (quiet_writeFile (by decide) _) fun _ => .cons fun _ => .record

/-! ## Memory sizes -/

theorem quiet_importMemCase (t : Tree) (name : Text) : Quiet [] (importMemCase t name) :=
  .quiet (.each (fun _ => quiet_copyNamed _ _ (by simp)) _) fun _ =>
    .quiet (quiet_append (by decide) _) fun _ => .pure _

theorem quiet_importMemCases (t : Tree) :
    ∀ (names : List Text) (passCount : Nat), Quiet [] (importMemCases t names passCount)
  | [], _ => .pure _
  | name :: names, _ =>
    .quiet (quiet_importMemCase t name) fun _ => quiet_importMemCases t names _

theorem adds_importX86MemSizes (src : Evidence) :
    Appends (importX86MemSizes src) (memSizesRows src) := by
  unfold importX86MemSizes memSizesRows rowsOf
  by_cases hp : src.path = []
  · rw [if_pos hp, src.tree_eq_none hp]
    exact .record
  rw [if_neg hp]
  cases src.tree with
  | none => exact .record
  | some t =>
    refine .quiet quiet_copyEach fun _ => .quiet (.each (fun _ => quiet_copyEach) _)
      fun _ => .quiet (quiet_capture rfl _) fun _ => .quiet (quiet_writeFile (by decide) _) fun _ =>
      .quietValue (quiet_importMemCases _ _ _) (importMemCases_ok t _ 0) ?_
    rw [Nat.zero_add]
    exact .quiet (quiet_append (by decide) _) fun _ => .record

/-! ## Output of other harnesses -/

theorem adds_importX86Functional (src : Evidence) : Appends (importX86Functional src)
    (optionalRows src functionalIds (functionalVerdicts ·.files)) := by
  unfold importX86Functional optionalRows rowsOf
  split
  · exact .pure ()
  cases src.tree with
  | none => exact .cons fun _ => .cons fun _ => .record
  | some t =>
    exact .quiet quiet_copyEach fun _ =>
      .quiet (quiet_writeFile (by decide) _) fun _ => .cons fun _ => .cons fun _ => .record

theorem adds_importX86Smp (src : Evidence) :
    Appends (importX86Smp src) (rowsOf src smpIds (smpVerdicts ·.files)) := by
  unfold importX86Smp rowsOf
  by_cases hp : src.path = []
  · rw [if_pos hp, src.tree_eq_none hp]
    exact .cons fun _ => .cons fun _ => .record
  rw [if_neg hp]
  cases src.tree with
  | none => exact .cons fun _ => .cons fun _ => .record
  | some t =>
    exact .quiet quiet_copyEach fun _ =>
      .quiet (quiet_writeFile (by decide) _) fun _ => .cons fun _ => .cons fun _ => .record

theorem adds_importX86SmpScale (src : Evidence) : Appends (importX86SmpScale src)
    (optionalRows src scaleIds (scaleVerdicts ·.files)) := by
  unfold importX86SmpScale optionalRows rowsOf
  split
  · exact .pure ()
  cases src.tree with
  | none => exact .cons fun _ => .record
  | some t =>
    exact .quiet quiet_copyEach fun _ =>
      .quiet (quiet_writeFile (by decide) _) fun _ => .cons fun _ => .record

theorem adds_importX86Poweroff (src : Evidence) :
    Appends (importX86Poweroff src) (poweroffRows src) := by
  unfold importX86Poweroff poweroffRows optionalRows rowsOf
  split
  · exact .pure ()
  cases src.tree with
  | none => exact .record
  | some t =>
    exact .quiet quiet_copyEach fun _ =>
      .quiet (quiet_writeFile (by decide) _) fun _ => .record

theorem adds_writeAbiCoverage : Appends writeAbiCoverage [("KVM-ABI-COVERAGE".toList, .pass)] :=
  .quiet (quiet_writeFile (by decide) _) fun _ => .record

theorem adds_importArchitectureStatic (src : Evidence) :
    Appends (importArchitectureStatic src) (archRows src) := by
  unfold importArchitectureStatic archRows rowsOf
  by_cases hp : src.path = []
  · rw [if_pos hp, src.tree_eq_none hp]
    exact .quiet (quiet_writeFile (by decide) _) fun _ =>
      .quiet (quiet_writeFile (by decide) _) fun _ => .record
  rw [if_neg hp]
  cases src.tree with
  | none => exact .record
  | some t =>
    exact .quiet quiet_copyEach fun _ => .record

end Eval
