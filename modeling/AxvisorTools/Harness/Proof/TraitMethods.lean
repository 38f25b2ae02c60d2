import AxvisorTools.Harness.Proof.StaticScan
import AxvisorTools.Harness.TraitSpec

/-!
# Which methods the catalogue has

The scan keeps the last trait shown until a line with nothing but a closing brace, which also ends
every default body. `ScanInv.step` says what a line adds; `traitMethods_exact_iff` says for which trees
the catalogue is the true one.
-/

namespace Harness.StaticScan

open Shell Py Regex

variable {ls : List Text} {path : Text} {m : TraitMethod} {tree : Tree}

/-! ## One more line -/

theorem append_singleton_eq_iff {a b : List Text} {l k : Text} :
    ls ++ [l] = a ++ k :: b ↔
      (b = [] ∧ ls = a ∧ l = k) ∨ ∃ b', b = b' ++ [l] ∧ ls = a ++ k :: b' := by
  rcases List.eq_nil_or_concat b with rfl | ⟨b', m, rfl⟩
  · constructor
    · intro h
      obtain ⟨hls, hl⟩ := List.append_inj' h rfl
      exact .inl ⟨rfl, hls, List.singleton_inj.1 hl⟩
    · rintro (⟨-, rfl, rfl⟩ | ⟨b', h, -⟩)
      · rfl
      · simp at h
  · rw [List.concat_eq_append, ← List.cons_append, ← List.append_assoc]
    constructor
    · intro h
      obtain ⟨hls, hl⟩ := List.append_inj' h rfl
      rw [List.singleton_inj.1 hl]
      exact .inr ⟨b', rfl, hls⟩
    · rintro (⟨h, -⟩ | ⟨c, h, rfl⟩)
      · simp at h
      · obtain ⟨rfl, hm⟩ := List.append_inj' h rfl
        rw [List.singleton_inj.1 hm]

theorem open_concat_iff {l trait : Text} :
    Open (ls ++ [l]) trait ↔ loneBrace l = false ∧ Under ls l trait := by
  constructor
  · rintro ⟨a, k, b, h, hk, hnone, hbrace⟩
    rcases append_singleton_eq_iff.1 h with ⟨rfl, rfl, rfl⟩ | ⟨b', rfl, rfl⟩
    · exact ⟨hbrace l List.mem_cons_self, .inl hk⟩
    · refine ⟨hbrace l (by simp), .inr ⟨hnone l (by simp), a, k, b', rfl, hk, ?_, ?_⟩⟩
      · exact fun m hm => hnone m (List.mem_append_left _ hm)
      · exact fun m hm => hbrace m (List.mem_append_left [l] hm)
  · rintro ⟨hl, h | ⟨hnone, a, k, b, rfl, hk, hb, hbrace⟩⟩
    · exact ⟨ls, l, [], rfl, h, List.forall_mem_nil _, by simpa using hl⟩
    · refine ⟨a, k, b ++ [l], by simp, hk, ?_, ?_⟩
      · intro m hm
        rcases List.mem_append.1 hm with hm | hm
        · exact hb m hm
        · rw [List.mem_singleton.1 hm, hnone]
      · intro m hm
        rcases List.mem_append.1 (show m ∈ (k :: b) ++ [l] from hm) with hm | hm
        · exact hbrace m hm
        · rw [List.mem_singleton.1 hm, hl]

theorem caught_concat_iff {l trait method : Text} {n : Nat} :
    Caught (ls ++ [l]) n trait method ↔ Caught ls n trait method ∨
      n = ls.length + 1 ∧ shownMethod l = some method ∧ Under ls l trait := by
  constructor
  · rintro ⟨a, k, b, h, hn, hmethod, hunder⟩
    rcases append_singleton_eq_iff.1 h with ⟨rfl, rfl, rfl⟩ | ⟨b', rfl, rfl⟩
    · exact .inr ⟨hn, hmethod, hunder⟩
    · exact .inl ⟨a, k, b', rfl, hn, hmethod, hunder⟩
  · rintro (⟨a, k, b, rfl, hn, hmethod, hunder⟩ | ⟨hn, hmethod, hunder⟩)
    · exact ⟨a, k, b ++ [l], by simp, hn, hmethod, hunder⟩
    · exact ⟨ls, l, [], rfl, hn, hmethod, hunder⟩

/-! ## The scan -/

/-- The method that a line adds. -/
def caughtBy (path : Text) (n : Nat) : Option Text → Option Text → List TraitMethod
  | some trait, some method => [⟨trait, method, path, n⟩]
  | _, _ => []

theorem step_eq (path : Text) (s : TraitScan) (l : Text) (n : Nat) :
    s.step path (l, n) = ⟨if loneBrace l then none else (shownTrait l).or s.current,
      s.methods ++ caughtBy path n ((shownTrait l).or s.current) (shownMethod l)⟩ := by
  obtain ⟨current, methods⟩ := s
  simp only [TraitScan.step, shownTrait, shownMethod, loneBrace, decide_eq_true_eq]
  generalize stripLineForScan l = scan
  generalize "pub fn".toList.isPrefixOf (scan.dropWhile Re.isWhite) = isPub
  cases search traitPattern scan with
  | some m => cases search methodPattern scan <;> cases isPub <;> simp [caughtBy]
  | none =>
    cases current with
    | none => simp [caughtBy]
    | some trait => cases search methodPattern scan <;> cases isPub <;> simp [caughtBy]

theorem or_current_iff {current : Option Text} {l trait : Text}
    (h : ∀ trait, current = some trait ↔ Open ls trait) :
    (shownTrait l).or current = some trait ↔ Under ls l trait := by
  rw [Under, ← h trait]
  cases shownTrait l <;> simp

/-- What the scan knows after some lines. -/
structure ScanInv (path : Text) (ls : List Text) (s : TraitScan) : Prop where
  current : ∀ trait, s.current = some trait ↔ Open ls trait
  methods : ∀ m, m ∈ s.methods ↔ m.path = path ∧ Caught ls m.line m.trait m.method
  lines : ∀ m ∈ s.methods, m.line ≤ ls.length
  nodup : s.methods.Nodup

theorem mem_caughtBy {n : Nat} {trait method : Option Text} :
    m ∈ caughtBy path n trait method ↔
      m.path = path ∧ m.line = n ∧ trait = some m.trait ∧ method = some m.method := by
  cases trait with
  | none => simp [caughtBy]
  | some trait =>
    cases method with
    | none => simp [caughtBy]
    | some method =>
      rw [caughtBy, List.mem_singleton, Option.some.injEq, Option.some.injEq]
      constructor
      · rintro rfl
        exact ⟨rfl, rfl, rfl, rfl⟩
      · rintro ⟨rfl, rfl, rfl, rfl⟩
        rfl

/-- **One line** of the scan. -/
theorem ScanInv.step {s : TraitScan} (h : ScanInv path ls s) (l : Text) :
    ScanInv path (ls ++ [l]) (s.step path (l, ls.length + 1)) := by
  rw [step_eq]
  have hnew : ∀ m ∈ caughtBy path (ls.length + 1) ((shownTrait l).or s.current) (shownMethod l),
      m.line = ls.length + 1 := fun m hm => (mem_caughtBy.1 hm).2.1
  refine ⟨fun trait => ?_, fun m => ?_, fun m hm => ?_, ?_⟩
  · rw [open_concat_iff, ← or_current_iff h.current]
    cases loneBrace l <;> simp
  · rw [List.mem_append, h.methods, mem_caughtBy, or_current_iff h.current, caught_concat_iff]
    tauto
  · rw [List.length_append, List.length_singleton]
    rcases List.mem_append.1 hm with hm | hm
    · exact (h.lines m hm).trans (Nat.le_succ _)
    · exact (hnew m hm).le
  · refine List.nodup_append'.2 ⟨h.nodup, ?_, fun m hm hm' => ?_⟩
    · cases (shownTrait l).or s.current <;> cases shownMethod l <;> simp [caughtBy]
    · have hle := h.lines m hm
      rw [hnew m hm'] at hle
      exact absurd hle (Nat.not_succ_le_self _)

/-- **A whole file.** -/
theorem ScanInv.foldl (path : Text) (ls : List Text) :
    ScanInv path ls ((ls.zipIdx 1).foldl (TraitScan.step path) ⟨none, []⟩) := by
  induction ls using List.reverseRecOn with
  | nil =>
    refine ⟨fun trait => ?_, fun m => ?_, fun m hm => absurd hm List.not_mem_nil, List.nodup_nil⟩
    · simp [Open]
    · simp [Caught]
  | append_singleton ls l ih =>
    have hstep := ih.step l
    rw [List.zipIdx_append, List.foldl_append, Nat.add_comm 1]
    exact hstep

/-! ## The catalogue -/

theorem nodup_apiFiles (tree : Tree) : (apiFiles tree).Nodup := by
  rw [apiFiles, sourceFiles, sortPaths]
  exact (List.mergeSort_perm _ _).nodup_iff.2 (List.nodup_dedup _)

/-- **What is in the catalogue.** -/
theorem mem_traitMethods_iff : m ∈ traitMethods tree ↔
    m.path ∈ apiFiles tree ∧ Caught (readLines tree m.path) m.line m.trait m.method := by
  rw [traitMethods, List.mem_flatMap]
  constructor
  · rintro ⟨path, hpath, hm⟩
    obtain ⟨rfl, hcaught⟩ := ((ScanInv.foldl path (readLines tree path)).methods m).1 hm
    exact ⟨hpath, hcaught⟩
  · rintro ⟨hpath, hcaught⟩
    exact ⟨m.path, hpath, ((ScanInv.foldl m.path (readLines tree m.path)).methods m).2 ⟨rfl, hcaught⟩⟩

theorem nodup_flatMap_files {files : List Text} {f : Text → List TraitMethod} (hfiles : files.Nodup)
    (hf : ∀ path ∈ files, (f path).Nodup) (hpath : ∀ path ∈ files, ∀ m ∈ f path, m.path = path) :
    (files.flatMap f).Nodup := by
  refine List.nodup_flatMap.2 ⟨hf, ?_⟩
  refine hfiles.imp_of_mem fun {p q} hp hq hne m hm hm' => hne ?_
  rw [← hpath p hp m hm, hpath q hq m hm']

theorem nodup_traitMethods (tree : Tree) : (traitMethods tree).Nodup :=
  nodup_flatMap_files (nodup_apiFiles tree) (fun path _ => (ScanInv.foldl path _).nodup)
    fun path _ m hm => (((ScanInv.foldl path _).methods m).1 hm).1

theorem path_of_mem_trueFns (h : m ∈ trueFns tree path) : m.path = path := by
  rw [trueFns] at h
  split at h
  · obtain ⟨f, -, rfl⟩ := List.mem_map.1 h
    rfl
  · cases h

theorem mem_trueMethods_iff :
    m ∈ trueMethods tree ↔ m.path ∈ apiFiles tree ∧ m ∈ trueFns tree m.path := by
  rw [trueMethods, List.mem_flatMap]
  constructor
  · rintro ⟨path, hpath, hm⟩
    rw [path_of_mem_trueFns hm]
    exact ⟨hpath, hm⟩
  · rintro ⟨hpath, hm⟩
    exact ⟨m.path, hpath, hm⟩

theorem nodup_trueMethods (h : ∀ path ∈ apiFiles tree, FnPerLine tree path) :
    (trueMethods tree).Nodup :=
  nodup_flatMap_files (nodup_apiFiles tree) (fun path hpath => .of_map _ (h path hpath))
    fun _ _ _ hm => path_of_mem_trueFns hm

/-- **When the catalogue is complete.** Every method of a public trait is listed once and nothing
else is, exactly if every method is caught on its line under its own trait (its line shows `fn name(`,
and since the header of its trait no lone brace and no other header was shown), and no other line
shows a function while a trait is open. -/
theorem traitMethods_exact_iff (isalnum : Char → Bool) (tree : Tree)
    (hlayout : ∀ path ∈ apiFiles tree, FnPerLine tree path) :
    ((∀ m ∈ trueMethods tree, (traitMethods tree).count m = 1) ∧
        (∀ m ∈ traitMethods tree, m ∈ trueMethods tree) ∧
        (runStaticScan isalnum tree).hostifMethods = (trueMethods tree).length) ↔
      ∀ path ∈ apiFiles tree,
        (∀ m ∈ trueFns tree path, Caught (readLines tree path) m.line m.trait m.method) ∧
        ∀ n trait method, Caught (readLines tree path) n trait method →
          ⟨trait, method, path, n⟩ ∈ trueFns tree path := by
  have hnodup := nodup_traitMethods tree
  constructor
  · rintro ⟨hall, hno, -⟩ path hpath
    refine ⟨fun m hm => ?_, fun n trait method hcaught => ?_⟩
    · have hm' : m ∈ trueMethods tree :=
        mem_trueMethods_iff.2 (by rw [path_of_mem_trueFns hm]; exact ⟨hpath, hm⟩)
      have hcount : 0 < (traitMethods tree).count m := by rw [hall m hm']; exact Nat.one_pos
      have := (mem_traitMethods_iff.1 (List.count_pos_iff.1 hcount)).2
      rwa [path_of_mem_trueFns hm] at this
    · exact (mem_trueMethods_iff.1 (hno _ (mem_traitMethods_iff.2 ⟨hpath, hcaught⟩))).2
  · intro h
    have hmem : ∀ m, m ∈ traitMethods tree ↔ m ∈ trueMethods tree := by
      intro m
      rw [mem_traitMethods_iff, mem_trueMethods_iff]
      refine and_congr_right fun hpath => ?_
      exact ⟨fun hcaught => (h m.path hpath).2 _ _ _ hcaught, fun hm => (h m.path hpath).1 m hm⟩
    have hperm := (List.perm_ext_iff_of_nodup hnodup (nodup_trueMethods hlayout)).2 hmem
    refine ⟨fun m hm => ?_, fun m hm => (hmem m).1 hm, hperm.length_eq⟩
    exact List.count_eq_one_of_mem hnodup ((hmem m).2 hm)

/-! ## Two traits -/

def apiPath : Text := crateSrc "axvisor_api" ++ "/lib.rs"

def apiTree (text : Text) : Tree := ⟨(∅ : Files).write apiPath text, []⟩

theorem apiPath_mem (text : Text) : apiPath ∈ apiFiles (apiTree text) := by
  rw [apiFiles, sourceFiles, sortPaths, List.mem_mergeSort, List.mem_dedup, List.flatMap_singleton]
  exact mem_sourcesOf_write text (by decide)

theorem lookup_apiTree_of_ne (h : path ≠ apiPath) (text : Text) :
    (apiTree text).files.lookup path = none := Files.lookup_write_ne h _

theorem trueFns_apiTree_of_ne (h : path ≠ apiPath) (text : Text) :
    trueFns (apiTree text) path = [] := by
  rw [trueFns, lookup_apiTree_of_ne h]
  exact ite_self _

/-- Methods with neither generics nor a body. -/
def plainText : Text := "pub trait A \x7b\n    fn a();\n    fn b();\n\x7d\n"

def plainMethods : List TraitMethod :=
  [⟨"A", "a", apiPath, 2⟩, ⟨"A", "b", apiPath, 3⟩]

theorem plainText_methods : trueFns (apiTree plainText) apiPath = plainMethods ∧
    ((numbered (apiTree plainText) apiPath).foldl (TraitScan.step apiPath) ⟨none, []⟩).methods =
      plainMethods := by
  have hlookup : (apiTree plainText).files.lookup apiPath = some plainText :=
    Files.lookup_write_self _ _ _
  rw [trueFns, numbered, readLines, hlookup]
  decide +kernel

theorem traitMethods_plainText :
    FnPerLine (apiTree plainText) apiPath ∧
      (runStaticScan (fun _ => false) (apiTree plainText)).hostifMethods =
        (trueMethods (apiTree plainText)).length := by
  have hlayout : ∀ path ∈ apiFiles (apiTree plainText), FnPerLine (apiTree plainText) path := by
    intro path _
    rw [FnPerLine]
    by_cases hpath : path = apiPath
    · rw [hpath, plainText_methods.1]
      decide
    · rw [trueFns_apiTree_of_ne hpath]
      exact List.nodup_nil
  refine ⟨hlayout apiPath (apiPath_mem _),
    ((traitMethods_exact_iff (fun _ => false) (apiTree plainText) hlayout).2 ?_).2.2⟩
  intro path _
  by_cases hpath : path = apiPath
  · subst hpath
    have hmem := (ScanInv.foldl apiPath (readLines (apiTree plainText) apiPath)).methods
    rw [← numbered, plainText_methods.2] at hmem
    rw [plainText_methods.1]
    exact ⟨fun m hm => ((hmem m).1 hm).2, fun n trait method h => (hmem _).2 ⟨rfl, h⟩⟩
  · rw [trueFns_apiTree_of_ne hpath, readLines, lookup_apiTree_of_ne hpath]
    refine ⟨List.forall_mem_nil _, ?_⟩
    rintro n trait method ⟨a, l, b, h, -⟩
    cases List.append_ne_nil_of_right_ne_nil a (List.cons_ne_nil l b) h.symm

/-- A method with a default body before another one. -/
def bodyText : Text :=
  "pub trait A \x7b\n    fn a() \x7b\n        x();\n    \x7d\n    fn b();\n\x7d\n"

/-- The brace that ends the body ends the trait for the scan. -/
theorem traitMethods_bodyText :
    ⟨"A", "b", apiPath, 5⟩ ∈ trueMethods (apiTree bodyText) ∧
      ⟨"A", "b", apiPath, 5⟩ ∉ traitMethods (apiTree bodyText) := by
  have hlookup : (apiTree bodyText).files.lookup apiPath = some bodyText :=
    Files.lookup_write_self _ _ _
  refine ⟨List.mem_flatMap.2 ⟨apiPath, apiPath_mem _, ?_⟩, fun h => ?_⟩
  · rw [trueFns, hlookup]
    decide +kernel
  · obtain ⟨path, -, hm⟩ := List.mem_flatMap.1 h
    obtain ⟨rfl, -⟩ := ((ScanInv.foldl path _).methods _).1 hm
    rw [numbered, readLines, hlookup] at hm
    revert hm
    decide +kernel

end Harness.StaticScan
