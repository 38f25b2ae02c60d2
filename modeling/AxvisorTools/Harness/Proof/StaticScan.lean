import AxvisorTools.Harness.Proof.StripLine
import AxvisorTools.Shell.Proof.Files
import AxvisorTools.Py.Proof.Str

/-!
# What the architecture scan misses

`scan_complete_iff`: on which trees every forbidden symbol in the code of a core crate is found.
`scan_not_vacuous_iff`: on which trees a scan that passes has read a file of every core crate.
-/

namespace Harness.StaticScan

open Shell Py Regex

variable {t path : Text} {patterns : List (Text × Re)}

/-! ## The forbidden symbols -/

/-- Expressions without quotes whose boundaries do not care about slashes. -/
structure Tame (r : Re) : Prop where
  avoids : Avoids '"' r
  blind : Blind SameEdge r

namespace Tame

variable {r r' : Re}

theorem one {p : Char → Bool} (h : p '"' = false) : Tame (.one p) := ⟨h, trivial⟩

theorem lit (h : '"' ∉ t) : Tame (Regex.lit t) := ⟨avoids_lit h, blind_lit _ t⟩

theorem seq (h : Tame r) (h' : Tame r') : Tame (.seq r r') :=
  ⟨⟨h.avoids, h'.avoids⟩, ⟨h.blind, h'.blind⟩⟩

theorem alt (h : Tame r) (h' : Tame r') : Tame (.alt r r') :=
  ⟨⟨h.avoids, h'.avoids⟩, ⟨h.blind, h'.blind⟩⟩

theorem star {greedy : Bool} (h : Tame r) : Tame (.star greedy r) := ⟨h.avoids, h.blind⟩

theorem group {n : Nat} (h : Tame r) : Tame (.group n r) := ⟨h.avoids, h.blind⟩

theorem spaces : Tame spaces := star (one rfl)

theorem boundary (isalnum : Char → Bool) : Tame (boundary isalnum) := by
  have hedge : ∀ o o', SameEdge o o' → o.any (isWord isalnum) = o'.any (isWord isalnum) := by
    intro o o' h
    have hslash : ∀ o : Option Char, o = none ∨ o = some '/' → o.any (isWord isalnum) = false := by
      rintro o (rfl | rfl)
      · rfl
      · rfl
    rcases h with rfl | ⟨h, h'⟩
    · rfl
    · rw [hslash o h, hslash o' h']
  refine ⟨trivial, fun o o' n n' ho hn => ?_⟩
  simp only [hedge o o' ho, hedge n n' hn]

end Tame

theorem Symbol.of_tame {r : Re} (h : Tame r) (hs : Holds (fun c => Re.isWhite c = false) r) :
    Symbol r := ⟨h.avoids, h.blind, hs⟩

theorem Symbol.tame {r : Re} (h : Symbol r) : Tame r := ⟨h.avoids, h.blind⟩

namespace Symbol

variable {r r' : Re}

theorem lit {c : Char} (hc : Re.isWhite c = false) (h : '"' ∉ c :: t) :
    Symbol (Regex.lit (c :: t)) := .of_tame (.lit h) (.lit hc)

theorem seq (h : Symbol r) (h' : Tame r') : Symbol (.seq r r') :=
  .of_tame (h.tame.seq h') h.solid.left

theorem alt (h : Symbol r) (h' : Symbol r') : Symbol (.alt r r') :=
  .of_tame (h.tame.alt h'.tame) (h.solid.alt h'.solid)

theorem group {n : Nat} (h : Symbol r) : Symbol (.group n r) := .of_tame h.tame.group h.solid.group

theorem alts (h : Symbol r) {rs : List Re} (hs : ∀ s ∈ rs, Symbol s) : Symbol (Regex.alts r rs) := by
  induction rs generalizing r with
  | nil => exact h
  | cons s rs ih =>
    obtain ⟨hs, hrs⟩ := List.forall_mem_cons.1 hs
    exact h.alt (ih hs hrs)

theorem word (isalnum : Char → Bool) (h : Symbol r) : Symbol (word isalnum r) :=
  .of_tame ((Tame.boundary isalnum).seq (h.tame.seq (Tame.boundary isalnum))) h.solid.left.right

theorem text (h : (t.head?.any fun c => !Re.isWhite c) = true ∧ '"' ∉ t) :
    Symbol (Regex.lit t) := by
  cases t with
  | nil => cases h.1
  | cons c t => exact lit (by simpa using h.1) h.2

end Symbol

theorem isWhite_toLower {c : Char} (h : Re.isWhite c = true) : c.toLower = c := by
  have hupper : ¬ (c.val ≥ 'A'.val ∧ c.val ≤ 'Z'.val) := by
    intro hc
    simp only [ge_iff_le, UInt32.le_iff_toNat_le, Char.toNat_val] at hc
    have hA : 'A'.toNat = 65 := rfl
    have hZ : 'Z'.toNat = 90 := rfl
    simp only [Re.isWhite, Bool.or_eq_true, Bool.and_eq_true, decide_eq_true_eq, beq_iff_eq] at h
    omega
  exact dif_neg hupper

theorem sameLetter_not_white {c d : Char} (hc : Re.isWhite c = false) (h : sameLetter c d = true) :
    Re.isWhite d = false := by
  simp only [sameLetter, Bool.or_eq_true, Bool.and_eq_true, beq_iff_eq] at h
  rcases h with (h | ⟨-, rfl | rfl⟩) | ⟨-, rfl⟩
  · rw [Bool.eq_false_iff]
    intro hd
    rw [isWhite_toLower hd] at h
    rw [h, hc] at hd
    cases hd
  · decide
  · decide
  · decide

theorem Tame.foldedLit (h : '"' ∉ t) : Tame (foldedLit t) := by
  induction t with
  | nil => exact ⟨trivial, trivial⟩
  | cons c t ih =>
    rw [List.mem_cons, not_or] at h
    have hc : sameLetter c '"' = false := by
      have hlower : '"'.toLower = '"' := by decide
      simp [sameLetter, hlower, h.1]
    exact (Tame.one hc).seq (ih h.2)

theorem Symbol.foldedLit {c : Char} (hc : Re.isWhite c = false) (h : '"' ∉ c :: t) :
    Symbol (foldedLit (c :: t)) :=
  .of_tame (.foldedLit h) (.left (.one fun _ hd => sameLetter_not_white hc hd))

theorem Symbol.structType {name : String} (h : '"' ∉ name.toList) : Symbol (structType name) :=
  .seq (.text (by decide)) (.seq (.one rfl) (.seq .spaces (.lit h)))

theorem Symbol.anyOf {w : String} {ws : List String}
    (h : ∀ v ∈ w :: ws, (v.toList.head?.any fun c => !Re.isWhite c) = true ∧ '"' ∉ v.toList) :
    Symbol (anyOf w ws) := by
  obtain ⟨hw, hws⟩ := List.forall_mem_cons.1 h
  refine .group (.alts (.text hw) fun s hs => ?_)
  obtain ⟨v, hv, rfl⟩ := List.mem_map.1 hs
  exact .text (hws v hv)

section

variable (isalnum : Char → Bool)

theorem symbol_of_mem_host : ∀ p ∈ forbiddenHostPatterns isalnum, Symbol p.2 := by
  simp only [forbiddenHostPatterns, List.forall_mem_cons]
  refine ⟨?_, ?_, ?_, ?_, ?_, List.forall_mem_nil _⟩
  · exact .seq (.text (by decide)) (.seq .spaces (.seq (.lit (by decide)) (.seq .spaces
      (.lit (by decide)))))
  · exact .word isalnum (.seq (.text (by decide)) (Symbol.anyOf (by decide)).tame)
  · refine .word isalnum (.group (.alts (.text (by decide)) ?_))
    simp only [List.forall_mem_cons]
    refine ⟨.text (by decide), .text (by decide), .text (by decide), .text (by decide),
      .text (by decide), .text (by decide), .text (by decide), ?_, .text (by decide),
      .text (by decide), List.forall_mem_nil _⟩
    exact .seq (.text (by decide)) (.seq (.group (.alt (.lit (by decide)) (.lit (by decide))))
      (.lit (by decide)))
  · refine .word isalnum (.group (.alts (.structType (by decide)) ?_))
    simp only [List.forall_mem_cons]
    exact ⟨.structType (by decide), .structType (by decide), .structType (by decide),
      .text (by decide), .text (by decide), List.forall_mem_nil _⟩
  · refine .word isalnum (.group (.alts (.foldedLit (by decide) (by decide)) ?_))
    simp only [List.forall_mem_cons]
    exact ⟨.foldedLit (by decide) (by decide), .foldedLit (by decide) (by decide),
      List.forall_mem_nil _⟩

theorem symbol_of_mem_kvm : ∀ p ∈ forbiddenKvmPatterns isalnum, Symbol p.2 := by
  simp only [forbiddenKvmPatterns, List.forall_mem_cons]
  refine ⟨?_, ?_, List.forall_mem_nil _⟩
  · exact .word isalnum (.seq (.text (by decide)) (.seq (.one (by decide)) (.star (.one (by decide)))))
  · exact .word isalnum (.anyOf (by decide))

end

theorem matches_word {isalnum : Char → Bool} {r : Re} {b x y : Text} {g : List (Nat × Text)}
    (h : Matches r b x y g)
    (hstart : (b.head?.any (isWord isalnum) != (x ++ y).head?.any (isWord isalnum)) = true)
    (hend : ((x.reverse ++ b).head?.any (isWord isalnum) != y.head?.any (isWord isalnum)) = true) :
    Matches (word isalnum r) b x y g := by
  have htail : Matches (.seq r (boundary isalnum)) b (x ++ []) y g := .seq h (.look hend)
  rw [List.append_nil] at htail
  have hword := Matches.seq (.look hstart : Matches (boundary isalnum) b [] (x ++ y) []) htail
  rwa [List.append_nil] at hword

/-! ## Findings -/

theorem not_isBlank_of_found {r : Re} (h : Symbol r) (hfound : found r t = true) :
    isBlank t = false := by
  obtain ⟨a, x, y, g, rfl, hm⟩ := (found_iff_matches r t).1 hfound
  obtain ⟨c, hc, hwhite⟩ := h.solid.exists_mem hm
  rw [isBlank, List.all_eq_false]
  refine ⟨c, List.mem_append_right a (List.mem_append_left y hc), ?_⟩
  rw [hwhite]
  decide

/-- The findings of a line: one for each pattern that the line shows. -/
theorem mem_scanLine (hsym : ∀ p ∈ patterns, Symbol p.2) (category : Category) (path : Text)
    {l : Text} (hl : '\n' ∉ l) (n : Nat) (f : Finding) :
    f ∈ scanLine patterns category path l n ↔ ∃ p ∈ patterns, Visible p.2 l ∧
      f = ⟨category, p.1, path, n, (strip (stripLineForScan l)).take 240⟩ := by
  rw [scanLine]
  constructor
  · intro hf
    split at hf
    · cases hf
    · obtain ⟨p, hp, rfl⟩ := List.mem_map.1 hf
      obtain ⟨hmem, hfound⟩ := List.mem_filter.1 hp
      exact ⟨p, hmem, (found_stripLine_iff (hsym p hmem) hl).1 hfound, rfl⟩
  · rintro ⟨p, hp, hv, rfl⟩
    have hfound := (found_stripLine_iff (hsym p hp) hl).2 hv
    have hblank : ¬ isBlank (stripLineForScan l) = true := by
      rw [not_isBlank_of_found (hsym p hp) hfound]
      decide
    rw [if_neg hblank]
    exact List.mem_map_of_mem (List.mem_filter.2 ⟨hp, hfound⟩)

theorem mem_scanLine_iff (hsym : ∀ p ∈ patterns, Symbol p.2) (category : Category) (path : Text)
    {l : Text} (hl : '\n' ∉ l) (n : Nat) :
    (∃ f, f ∈ scanLine patterns category path l n) ↔ ∃ p ∈ patterns, Visible p.2 l := by
  simp only [mem_scanLine hsym category path hl n]
  constructor
  · rintro ⟨f, p, hp, hv, -⟩
    exact ⟨p, hp, hv⟩
  · rintro ⟨p, hp, hv⟩
    exact ⟨_, p, hp, hv, rfl⟩

theorem scanLine_place {category : Category} {l : Text} {n : Nat} {f : Finding}
    (h : f ∈ scanLine patterns category path l n) : f.path = path ∧ f.line = n := by
  rw [scanLine] at h
  split at h
  · cases h
  · obtain ⟨p, -, rfl⟩ := List.mem_map.1 h
    exact ⟨rfl, rfl⟩

theorem newline_not_mem_of_numbered {tree : Tree} {l : Text} {n : Nat}
    (h : (l, n) ∈ numbered tree path) : '\n' ∉ l :=
  newline_not_mem_of_mem_splitlines (List.fst_mem_of_mem_zipIdx h)

/-- **What is found**: the lines of the files that show a symbol. -/
theorem exists_finding_iff (hsym : ∀ p ∈ patterns, Symbol p.2) (tree : Tree) (files : List Text)
    (category : Category) (path : Text) (n : Nat) :
    (∃ f ∈ scanForbidden tree files patterns category, f.path = path ∧ f.line = n) ↔
      path ∈ files ∧ Shows patterns tree path n := by
  constructor
  · rintro ⟨f, hf, hpath, hline⟩
    obtain ⟨file, hfile, hf⟩ := List.mem_flatMap.1 hf
    obtain ⟨⟨l, m⟩, hl, hf⟩ := List.mem_flatMap.1 hf
    obtain ⟨hpath', hline'⟩ := scanLine_place hf
    rw [hpath] at hpath'
    rw [hline] at hline'
    subst hpath' hline'
    have hbreak := newline_not_mem_of_numbered hl
    exact ⟨hfile, l, hl, (mem_scanLine_iff hsym category path hbreak n).1 ⟨f, hf⟩⟩
  · rintro ⟨hpath, l, hl, hv⟩
    have hbreak := newline_not_mem_of_numbered hl
    obtain ⟨f, hf⟩ := (mem_scanLine_iff hsym category path hbreak n).2 hv
    have hmem : f ∈ scanForbidden tree files patterns category :=
      List.mem_flatMap.2 ⟨path, hpath, List.mem_flatMap.2 ⟨(l, n), hl, hf⟩⟩
    exact ⟨f, hmem, scanLine_place hf⟩

theorem shows_append {ps qs : List (Text × Re)} {tree : Tree} {n : Nat} :
    Shows (ps ++ qs) tree path n ↔ Shows ps tree path n ∨ Shows qs tree path n := by
  constructor
  · rintro ⟨l, hl, p, hp, hv⟩
    rcases List.mem_append.1 hp with hp | hp
    · exact .inl ⟨l, hl, p, hp, hv⟩
    · exact .inr ⟨l, hl, p, hp, hv⟩
  · rintro (⟨l, hl, p, hp, hv⟩ | ⟨l, hl, p, hp, hv⟩)
    · exact ⟨l, hl, p, List.mem_append_left _ hp, hv⟩
    · exact ⟨l, hl, p, List.mem_append_right _ hp, hv⟩

section

variable (isalnum : Char → Bool) (tree : Tree)

theorem exists_mem_findings_iff (path : Text) (n : Nat) :
    (∃ f ∈ findings isalnum tree, f.path = path ∧ f.line = n) ↔
      path ∈ coreFiles tree ∧ Shows (forbiddenPatterns isalnum) tree path n := by
  rw [forbiddenPatterns, shows_append, and_or_left,
    ← exists_finding_iff (symbol_of_mem_host isalnum) tree _ .coreHostSpecificSymbol,
    ← exists_finding_iff (symbol_of_mem_kvm isalnum) tree _ .coreKvmFrontendSymbol]
  simp only [findings, List.mem_append, or_and_right, exists_or]
  rfl

/-- The findings of one category are there exactly when some core file shows one. -/
theorem findings_ne_nil_iff (hsym : ∀ p ∈ patterns, Symbol p.2) (category : Category) :
    (scanForbidden tree (coreFiles tree) patterns category).length ≠ 0 ↔
      ∃ path ∈ coreFiles tree, ∃ n, Shows patterns tree path n := by
  rw [ne_eq, List.length_eq_zero_iff, List.eq_nil_iff_forall_not_mem, not_forall_not]
  constructor
  · rintro ⟨f, hf⟩
    obtain ⟨hpath, hshows⟩ :=
      (exists_finding_iff hsym tree _ category f.path f.line).1 ⟨f, hf, rfl, rfl⟩
    exact ⟨f.path, hpath, f.line, hshows⟩
  · rintro ⟨path, hpath, n, hshows⟩
    obtain ⟨f, hf, -⟩ := (exists_finding_iff hsym tree _ category path n).2 ⟨hpath, hshows⟩
    exact ⟨f, hf⟩

end

/-! ## Checks -/

theorem passes_iff {scan : Scan} {id : String} {b : Bool} {reason : Text}
    (pre post : List (Text × Verdict × Text))
    (hchecks : scan.checks = pre ++ (id.toList, verdict b, reason) :: post)
    (hid : id.toList ∉ (pre ++ post).map Prod.fst) : Passes scan id ↔ b = true := by
  rw [← verdict_pass_iff, Passes, hchecks]
  constructor
  · rintro ⟨reason', h⟩
    rcases List.mem_append.1 h with h | h
    · exact absurd (List.mem_map_of_mem (List.mem_append_left post h)) hid
    · rcases List.mem_cons.1 h with h | h
      · exact (congrArg (·.2.1) h).symm
      · exact absurd (List.mem_map_of_mem (List.mem_append_right pre h)) hid
  · intro h
    rw [h]
    exact ⟨reason, List.mem_append_right pre List.mem_cons_self⟩

theorem passes_noHostImports_iff (scan : Scan) :
    Passes scan "ARCH-NO-HOST-IMPORTS" ↔ scan.hostFindings = 0 := by
  rw [passes_iff [] scan.checks.tail rfl, decide_eq_true_iff]
  simp only [Scan.checks, List.tail_cons, List.nil_append, List.map_cons, List.map_nil]
  decide

theorem passes_noKvmInCore_iff (scan : Scan) :
    Passes scan "ARCH-NO-KVM-IN-CORE" ↔ scan.kvmFindings = 0 := by
  rw [passes_iff (scan.checks.take 2) (scan.checks.drop 3) rfl, decide_eq_true_iff]
  simp only [Scan.checks, List.take, List.drop, List.cons_append, List.nil_append, List.map_cons,
    List.map_nil]
  decide

theorem passes_backendBoundary_iff (scan : Scan) :
    Passes scan "ARCH-BACKEND-BOUNDARY" ↔ scan.hostFindings = 0 ∧ scan.kvmFindings = 0 := by
  rw [passes_iff (scan.checks.take 3) (scan.checks.drop 4) rfl, decide_eq_true_iff, Scan.findings,
    Nat.add_eq_zero_iff]
  simp only [Scan.checks, List.take, List.drop, List.cons_append, List.nil_append, List.map_cons,
    List.map_nil]
  decide

theorem overall_pass_iff (scan : Scan) :
    scan.overall = .pass ↔ scan.hostFindings = 0 ∧ scan.kvmFindings = 0 := by
  rw [Scan.overall, verdict_pass_iff, List.all_eq_true]
  simp only [Scan.checks, List.forall_mem_cons, decide_eq_true_iff, verdict_pass_iff, Scan.findings,
    Nat.add_eq_zero_iff]
  constructor
  · rintro ⟨hhost, -, hkvm, -⟩
    exact ⟨hhost, hkvm⟩
  · rintro ⟨hhost, hkvm⟩
    exact ⟨hhost, hhost, hkvm, ⟨hhost, hkvm⟩, trivial, List.forall_mem_nil _⟩

/-! ## Files -/

theorem mem_coreFiles_iff {tree : Tree} :
    path ∈ coreFiles tree ↔ ∃ crate ∈ coreCrates, path ∈ sourcesOf tree (crateSrc crate) := by
  rw [coreFiles, sourceFiles, sortPaths, List.mem_mergeSort, List.mem_dedup, List.mem_flatMap]
  simp only [List.mem_map, exists_exists_and_eq_and]

theorem contributes_iff {tree : Tree} {crate : Text} (hcrate : crate ∈ coreCrates) :
    (∃ path ∈ coreFiles tree, path ∈ sourcesOf tree (crateSrc crate)) ↔
      sourcesOf tree (crateSrc crate) ≠ [] := by
  constructor
  · rintro ⟨path, -, hpath⟩
    exact List.ne_nil_of_mem hpath
  · intro hne
    obtain ⟨path, hpath⟩ := List.exists_mem_of_ne_nil _ hne
    exact ⟨path, mem_coreFiles_iff.2 ⟨crate, hcrate, hpath⟩, hpath⟩

/-! ## Completeness -/

/-- **When the scan misses no forbidden symbol.** Every symbol in the code of a core file yields a
finding for its line, and a passing boundary check means that there is none, exactly when every line
with such a symbol, as the scan counts lines, shows one. -/
theorem scan_complete_iff (isalnum : Char → Bool) (tree : Tree) :
    ((∀ path ∈ coreFiles tree, ∀ n, Occurs isalnum tree path n →
        ∃ f ∈ findings isalnum tree, f.path = path ∧ f.line = n) ∧
      (Passes (runStaticScan isalnum tree) "ARCH-BACKEND-BOUNDARY" →
        ∀ path ∈ coreFiles tree, ∀ n, ¬ Occurs isalnum tree path n)) ↔
      ∀ path ∈ coreFiles tree, ∀ n, Occurs isalnum tree path n →
        Shows (forbiddenPatterns isalnum) tree path n := by
  constructor
  · rintro ⟨hfound, -⟩ path hpath n hoccurs
    exact ((exists_mem_findings_iff isalnum tree path n).1 (hfound path hpath n hoccurs)).2
  · intro hshows
    have hfound : ∀ path ∈ coreFiles tree, ∀ n, Occurs isalnum tree path n →
        ∃ f ∈ findings isalnum tree, f.path = path ∧ f.line = n := fun path hpath n hoccurs =>
      (exists_mem_findings_iff isalnum tree path n).2 ⟨hpath, hshows path hpath n hoccurs⟩
    refine ⟨hfound, fun hpass path hpath n hoccurs => ?_⟩
    obtain ⟨f, hf, -⟩ := hfound path hpath n hoccurs
    obtain ⟨hhost, hkvm⟩ := (passes_backendBoundary_iff _).1 hpass
    have hnone : findings isalnum tree = [] := by
      rw [findings, List.length_eq_zero_iff.1 hhost, List.length_eq_zero_iff.1 hkvm]
      rfl
    rw [hnone] at hf
    cases hf

/-- A core file whose only line stores through a pointer. -/
def pointerPath : Text := crateSrc "axvm" ++ "/lib.rs"

def pointerText : Text := "*p = kmalloc(n);\n"

def pointerTree : Tree := ⟨(∅ : Files).write pointerPath pointerText, []⟩

theorem mem_sourcesOf_write {crate name : Text} (text : Text) (hname : isSource (crate ++ '/' :: name)) :
    crate ++ '/' :: name ∈ sourcesOf ⟨(∅ : Files).write (crate ++ '/' :: name) text, []⟩ crate := by
  have hkey : crate ++ '/' :: name ∈ ((∅ : Files).write (crate ++ '/' :: name) text).keys :=
    List.mem_cons_self
  have hfile : ((∅ : Files).write (crate ++ '/' :: name) text).lookup crate = none :=
    Files.lookup_write_ne (fun h => List.cons_ne_nil _ _ (List.self_eq_append_right.1 h)) _
  rw [sourcesOf, hfile, Option.isSome_none, if_neg Bool.false_ne_true,
    if_pos (Tree.isDir_of_mem_keys hkey)]
  refine List.mem_filter.2 ⟨hkey, decide_eq_true ⟨⟨name, ?_⟩, hname⟩⟩
  exact List.append_assoc _ _ _

theorem pointerPath_mem_write (text : Text) :
    pointerPath ∈ coreFiles ⟨(∅ : Files).write pointerPath text, []⟩ :=
  mem_coreFiles_iff.2 ⟨"axvm", by decide, mem_sourcesOf_write text (by decide)⟩

theorem pointerPath_mem : pointerPath ∈ coreFiles pointerTree := pointerPath_mem_write pointerText

theorem pointerText_occurs : Occurs (fun _ => false) pointerTree pointerPath 1 := by
  refine ⟨pointerText, Files.lookup_write_self _ _ _, _,
    List.mem_append_left _ (.tail _ (.tail _ (.head _))), "*p = ", "kmalloc",
    "(n);\n", [(1, "kmalloc")], rfl, ?_, by decide, by decide, by decide⟩
  exact matches_word (.group (.altLeft ((matches_lit_iff _).2 ⟨rfl, rfl⟩))) (by decide) (by decide)

theorem not_shows_pointerTree (patterns : List (Text × Re)) (path : Text) (n : Nat) :
    ¬ Shows patterns pointerTree path n := by
  rintro ⟨l, hl, p, -, hv⟩
  by_cases hpath : path = pointerPath
  · have hlines : numbered pointerTree path = [("*p = kmalloc(n);".toList, 1)] := by
      rw [hpath, numbered, readLines, pointerTree, Files.lookup_write_self]
      decide
    rw [hlines, List.mem_singleton] at hl
    cases hl
    exact Bool.noConfusion hv.1
  · rw [numbered, readLines, pointerTree, Files.lookup_write_ne hpath] at hl
    cases hl

/-- The store through the pointer is code, and the scan takes it for a comment. -/
theorem pointerTree_missed :
    pointerPath ∈ coreFiles pointerTree ∧ Occurs (fun _ => false) pointerTree pointerPath 1 ∧
      (¬ ∃ f ∈ findings (fun _ => false) pointerTree, f.path = pointerPath ∧ f.line = 1) ∧
      Passes (runStaticScan (fun _ => false) pointerTree) "ARCH-BACKEND-BOUNDARY" := by
  refine ⟨pointerPath_mem, pointerText_occurs, ?_, (passes_backendBoundary_iff _).2 ⟨?_, ?_⟩⟩
  · rw [exists_mem_findings_iff]
    exact fun h => not_shows_pointerTree _ _ _ h.2
  · refine not_not.1 fun h => ?_
    obtain ⟨path, -, n, hshows⟩ :=
      (findings_ne_nil_iff _ (symbol_of_mem_host _) .coreHostSpecificSymbol).1 h
    exact not_shows_pointerTree _ _ _ hshows
  · refine not_not.1 fun h => ?_
    obtain ⟨path, -, n, hshows⟩ :=
      (findings_ne_nil_iff _ (symbol_of_mem_kvm _) .coreKvmFrontendSymbol).1 h
    exact not_shows_pointerTree _ _ _ hshows

/-! ## Vacuity -/

/-- **When a passing scan is not vacuous.** A scan that passes has read a file of every core crate,
and no check passes while a crate is gone, exactly when a crate without sources always comes with a
finding elsewhere, and a crate that is gone with findings of both kinds. -/
theorem scan_not_vacuous_iff (isalnum : Char → Bool) (tree : Tree) :
    (((runStaticScan isalnum tree).overall = .pass →
        ∀ crate ∈ coreCrates, ∃ path ∈ coreFiles tree, path ∈ sourcesOf tree (crateSrc crate)) ∧
      ((∃ crate ∈ coreCrates, CrateGone tree crate) →
        ¬ Passes (runStaticScan isalnum tree) "ARCH-NO-HOST-IMPORTS" ∧
        ¬ Passes (runStaticScan isalnum tree) "ARCH-NO-KVM-IN-CORE" ∧
        ¬ Passes (runStaticScan isalnum tree) "ARCH-BACKEND-BOUNDARY")) ↔
    ((∃ crate ∈ coreCrates, sourcesOf tree (crateSrc crate) = []) →
        ∃ path ∈ coreFiles tree, ∃ n, Shows (forbiddenPatterns isalnum) tree path n) ∧
      ((∃ crate ∈ coreCrates, CrateGone tree crate) →
        (∃ path ∈ coreFiles tree, ∃ n, Shows (forbiddenHostPatterns isalnum) tree path n) ∧
        ∃ path ∈ coreFiles tree, ∃ n, Shows (forbiddenKvmPatterns isalnum) tree path n) := by
  have hhost : (runStaticScan isalnum tree).hostFindings ≠ 0 ↔ _ :=
    findings_ne_nil_iff tree (symbol_of_mem_host isalnum) .coreHostSpecificSymbol
  have hkvm : (runStaticScan isalnum tree).kvmFindings ≠ 0 ↔ _ :=
    findings_ne_nil_iff tree (symbol_of_mem_kvm isalnum) .coreKvmFrontendSymbol
  have hany : (∃ path ∈ coreFiles tree, ∃ n, Shows (forbiddenPatterns isalnum) tree path n) ↔
      ¬ (runStaticScan isalnum tree).overall = .pass := by
    rw [overall_pass_iff, not_and_or, ← ne_eq, ← ne_eq, hhost, hkvm]
    simp only [forbiddenPatterns, shows_append, exists_or, and_or_left]
  rw [hany, ← hhost, ← hkvm, passes_noHostImports_iff, passes_noKvmInCore_iff,
    passes_backendBoundary_iff]
  refine and_congr ?_ (imp_congr_right fun _ => ?_)
  · constructor
    · rintro hall ⟨crate, hcrate, hnil⟩ hpass
      exact (contributes_iff hcrate).1 (hall hpass crate hcrate) hnil
    · intro hnone hpass crate hcrate
      exact (contributes_iff hcrate).2 fun hnil => hnone ⟨crate, hcrate, hnil⟩ hpass
  · constructor
    · rintro ⟨h, h', -⟩
      exact ⟨h, h'⟩
    · rintro ⟨h, h'⟩
      exact ⟨h, h', fun hboth => h hboth.1⟩

/-- A checkout without the submodule. -/
def bareTree : Tree := ⟨∅, []⟩

theorem sourcesOf_bareTree (path : Text) : sourcesOf bareTree path = [] := by
  rw [sourcesOf]
  exact (if_neg Bool.false_ne_true).trans (if_neg Bool.false_ne_true)

/-- No core crate is there, and the scan passes. -/
theorem bareTree_passes :
    (runStaticScan (fun _ => false) bareTree).overall = .pass ∧
      ∀ crate ∈ coreCrates, CrateGone bareTree crate ∧
        ¬ ∃ path ∈ coreFiles bareTree, path ∈ sourcesOf bareTree (crateSrc crate) := by
  have hnone : coreFiles bareTree = [] := by
    rw [List.eq_nil_iff_forall_not_mem]
    intro path hpath
    obtain ⟨crate, -, hmem⟩ := mem_coreFiles_iff.1 hpath
    rw [sourcesOf_bareTree] at hmem
    cases hmem
  have hscan (patterns : List (Text × Re)) (category : Category) :
      (scanForbidden bareTree (coreFiles bareTree) patterns category).length = 0 := by
    rw [hnone]
    rfl
  refine ⟨(overall_pass_iff _).2 ⟨hscan _ _, hscan _ _⟩, fun crate hcrate => ⟨.inl (.inl rfl), ?_⟩⟩
  rintro ⟨path, hpath, -⟩
  rw [hnone] at hpath
  cases hpath

end Harness.StaticScan
