import AxvisorTools.Harness.Proof.StaticScan
import AxvisorTools.Py.Proof.Splitlines

/-!
# What the architecture scan reports that is no code

The scan looks at one line at a time, so it takes the lines of a block comment or of a string that
was opened above for code. A finding is made by the first match in what is left of its line, which is
the first visible one of the line (`FoundAt.first`); `scan_sound_iff` says on which trees these
matches all lie in code.
-/

namespace Harness.StaticScan

open Shell Py Regex

variable {p : Text × Re}

/-! ## The match that a search returns -/

/-- The place after the next character, or after the string that starts with it. -/
theorem Outside.cases_head {c : Char} {u t : Text} (h : Outside (c :: u) t) :
    t = c :: u ∨ ((c = '"' → closeQuote u = none) ∧ Outside u t) ∨
      ∃ body rest, c = '"' ∧ closeQuote u = some (body, rest) ∧ Outside rest t := by
  induction h with
  | start => exact .inl rfl
  | char _ hc ih =>
    rcases ih with h | ⟨hn, ho⟩ | ⟨body, rest, hquote, hq, ho⟩
    · cases h
      exact .inr (.inl ⟨hc, .start⟩)
    · exact .inr (.inl ⟨hn, .char ho hc⟩)
    · exact .inr (.inr ⟨body, rest, hquote, hq, .char ho hc⟩)
  | pair _ hq ih =>
    rcases ih with h | ⟨hn, ho⟩ | ⟨body, rest, hquote, hq', ho⟩
    · cases h
      exact .inr (.inr ⟨_, _, rfl, hq, .start⟩)
    · exact .inr (.inl ⟨hn, .pair ho hq⟩)
    · exact .inr (.inr ⟨body, rest, hquote, hq', .pair ho hq⟩)

theorem Outside.total {l t t' : Text} (h : Outside l t) (h' : Outside l t') :
    Outside t' t ∨ Outside t t' := by
  induction h' with
  | start => exact .inl h
  | char _ hc ih =>
    rcases ih with ih | ih
    · rcases ih.cases_head with rfl | ⟨-, ho⟩ | ⟨body, rest, rfl, hq, -⟩
      · exact .inr (.char .start hc)
      · exact .inl ho
      · rw [hc rfl] at hq
        cases hq
    · exact .inr (.char ih hc)
  | pair _ hq ih =>
    rcases ih with ih | ih
    · rcases ih.cases_head with rfl | ⟨hn, -⟩ | ⟨body, rest, -, hq', ho⟩
      · exact .inr (.pair .start hq)
      · rw [hn rfl] at hq
        cases hq
      · rw [hq] at hq'
        cases hq'
        exact .inl ho
    · exact .inr (.pair ih hq)

theorem Aligned.earlier {l a b t a' b' t' : Text} (h : Aligned l a b t) (h' : Aligned l a' b' t')
    (hlt : a'.length < a.length) : ∃ m, m ≠ [] ∧ b = b' ++ m ∧ emptied t' = m ++ emptied t := by
  have hlen := congrArg List.length (h.line.symm.trans h'.line)
  simp only [List.length_append] at hlen
  rcases h.outside.total h'.outside with ho | ho
  · obtain ⟨u, m, hm⟩ := ho.aligned
    have hne : u ≠ [] := by
      rintro rfl
      rw [hm.line, List.nil_append] at hlen
      omega
    refine ⟨m, fun hnil => hne ?_, ?_, hm.left⟩
    · rw [← List.getLast?_eq_none_iff, hm.last, hnil, List.getLast?_nil]
    · have hleft := h.left.symm.trans h'.left
      rw [hm.left, ← List.append_assoc] at hleft
      exact List.append_cancel_right hleft
  · obtain ⟨u, m, hm⟩ := ho.aligned
    rw [hm.line, List.length_append] at hlen
    omega

section

variable {r : Re} {l : Text}

theorem FirstVisible.unique {a a' : Text} (h : FirstVisible r l a) (h' : FirstVisible r l a') :
    a = a' := by
  obtain ⟨⟨x, hx⟩, hfirst⟩ := h
  obtain ⟨⟨x', hx'⟩, hfirst'⟩ := h'
  have hlen := Nat.le_antisymm (hfirst a' x' hx') (hfirst' a x hx)
  obtain ⟨-, y, g, hl, -⟩ := hx
  obtain ⟨-, y', g', hl', -⟩ := hx'
  exact List.append_inj_left (hl.symm.trans hl') hlen

/-- **The match that a search returns is the first visible one.** -/
theorem FoundAt.first (h : Symbol r) (hl : '\n' ∉ l) {a : Text} (hfound : FoundAt r l a) :
    FirstVisible r l a := by
  obtain ⟨start, e, rest, hsearch, hcut, ho, hleft⟩ := hfound
  have hcomment : isCommentLine l = false := by
    rw [← Bool.not_eq_true]
    intro hc
    have hnot := not_found_nil h
    rw [stripLine_eq hl, if_pos hc] at hsearch
    rw [found, hsearch] at hnot
    cases hnot
  rw [stripLine_eq hl, hcomment, if_neg Bool.false_ne_true] at hsearch hleft
  rw [sub_quoted] at hleft
  have hp : Aligned (cutComment l) a start rest := by
    obtain ⟨a', b, hp⟩ := ho.aligned
    obtain rfl : a' = a := List.append_cancel_right (hp.line.symm.trans hcut)
    obtain rfl : b = start := List.append_cancel_right (hp.left.symm.trans hleft)
    exact hp
  constructor
  · obtain ⟨x, z, g, hxz, hm, -⟩ := search_some hsearch
    have hrest : emptied rest = x ++ z := List.append_cancel_left (hleft.symm.trans hxz)
    obtain ⟨y, g, rfl, hm⟩ := (hp.matches_iff h.avoids).1 ⟨z, g, hrest, hm⟩
    exact ⟨x, (visibleAt_iff h).2 ⟨hcomment, y, g, hcut, hm, ho⟩⟩
  · intro a' x hv
    obtain ⟨-, y, g, hcut', hm, ho'⟩ := (visibleAt_iff h).1 hv
    by_contra hlt
    obtain ⟨a'', b', hp'⟩ := ho'.aligned
    obtain rfl : a'' = a' := List.append_cancel_right (hp'.line.symm.trans hcut')
    obtain ⟨m, hm', rfl, ht⟩ := hp.earlier hp' (not_le.1 hlt)
    obtain ⟨z, g, hz, hm⟩ := (hp'.matches_iff h.avoids).2 ⟨y, g, rfl, hm⟩
    rw [hleft] at hsearch
    exact search_first hsearch hm' (ht.symm.trans hz) hm

theorem exists_foundAt (h : Symbol r) (hl : '\n' ∉ l) (hv : Visible r l) : ∃ a, FoundAt r l a := by
  have hfound := (found_stripLine_iff h hl).2 hv
  obtain ⟨⟨start, e⟩, hsearch⟩ := Option.isSome_iff_exists.1 hfound
  obtain ⟨x, z, g, hxz, hm, -⟩ := search_some hsearch
  have hx : x ≠ [] := by
    obtain ⟨c, hc, -⟩ := h.solid.exists_mem hm
    exact List.ne_nil_of_mem hc
  have hstrip : stripLineForScan l = emptied (cutComment l) := by
    rw [stripLine_eq hl, hv.1, if_neg Bool.false_ne_true]
  obtain ⟨a, t, hp, -⟩ := aligned_of_emptied (hm.not_mem h.avoids) hx _ (hstrip.symm.trans hxz)
  exact ⟨a, start, e, t, hsearch, hp.line, hp.outside, by rw [hstrip, sub_quoted, hp.left]⟩

end

/-! ## Lines -/

theorem map_placedLinesFrom (cr : Bool) (i : Nat) (cur t : Text) :
    (placedLinesFrom cr i cur t).map Prod.snd = splitlinesFrom cr cur t := by
  induction t generalizing cr i cur with
  | nil =>
    rw [placedLinesFrom, splitlinesFrom]
    split <;> rfl
  | cons c t ih =>
    rw [placedLinesFrom, splitlinesFrom]
    split
    · exact ih _ _ _
    split
    · rw [List.map_cons, ih]
    · exact ih _ _ _

theorem mem_numbered_iff {tree : Tree} {path l : Text} {n : Nat} :
    (l, n) ∈ numbered tree path ↔ ∃ text o, LineOf tree path n text o l := by
  unfold numbered readLines LineOf
  cases tree.files.lookup path with
  | none => simp [universalNewlines, splitlines, splitlinesFrom]
  | some text =>
    rw [Option.getD_some, splitlines_universalNewlines, splitlines,
      ← map_placedLinesFrom false 0 [] text, List.zipIdx_map, List.mem_map]
    constructor
    · rintro ⟨⟨⟨o, l⟩, n⟩, hmem, h⟩
      cases h
      exact ⟨text, o, rfl, hmem⟩
    · rintro ⟨_, o, h, hmem⟩
      cases h
      exact ⟨((o, l), n), hmem, rfl⟩

theorem LineOf.unique {tree : Tree} {path text text' l l' : Text} {n o o' : Nat}
    (h : LineOf tree path n text o l) (h' : LineOf tree path n text' o' l') :
    text = text' ∧ o = o' ∧ l = l' := by
  obtain rfl : text = text' := Option.some.inj (h.1.symm.trans h'.1)
  obtain ⟨hle, -, heq⟩ := List.mem_zipIdx h.2
  obtain ⟨-, -, heq'⟩ := List.mem_zipIdx h'.2
  obtain ⟨ho, hl⟩ := Prod.mk.inj (heq.trans heq'.symm)
  exact ⟨rfl, ho, hl⟩

/-! ## Findings -/

section

variable {tree : Tree} {files : List Text} {patterns : List (Text × Re)} {category : Category}

/-- A finding names a pattern, a file and a line that shows the pattern. -/
theorem shows_of_finding (hsym : ∀ p ∈ patterns, Symbol p.2) {f : Finding}
    (hf : f ∈ scanForbidden tree files patterns category) :
    f.path ∈ files ∧ ∃ p ∈ patterns, p.1 = f.pattern ∧ Shows [p] tree f.path f.line := by
  obtain ⟨path, hpath, hf⟩ := List.mem_flatMap.1 hf
  obtain ⟨⟨l, n⟩, hl, hf⟩ := List.mem_flatMap.1 hf
  obtain ⟨p, hp, hv, rfl⟩ :=
    (mem_scanLine hsym category path (newline_not_mem_of_numbered hl) n f).1 hf
  exact ⟨hpath, p, hp, rfl, l, hl, p, List.mem_singleton_self p, hv⟩

theorem finding_of_shows (hsym : ∀ p ∈ patterns, Symbol p.2) (hp : p ∈ patterns) {path : Text}
    (hpath : path ∈ files) {n : Nat} (h : Shows [p] tree path n) :
    ∃ f ∈ scanForbidden tree files patterns category,
      f.pattern = p.1 ∧ f.path = path ∧ f.line = n := by
  obtain ⟨l, hl, q, hq, hv⟩ := h
  obtain rfl := List.mem_singleton.1 hq
  refine ⟨⟨category, q.1, path, n, (strip (stripLineForScan l)).take 240⟩, ?_, rfl, rfl, rfl⟩
  refine List.mem_flatMap.2 ⟨path, hpath, List.mem_flatMap.2 ⟨(l, n), hl, ?_⟩⟩
  exact (mem_scanLine hsym category path (newline_not_mem_of_numbered hl) n _).2 ⟨q, hp, hv, rfl⟩

end

theorem pattern_eq_of_name (isalnum : Char → Bool) {q : Text × Re}
    (hp : p ∈ forbiddenPatterns isalnum) (hq : q ∈ forbiddenPatterns isalnum) (h : p.1 = q.1) :
    p = q := by
  have hnodup : ((forbiddenPatterns isalnum).map Prod.fst).Nodup := by
    simp only [forbiddenPatterns, forbiddenHostPatterns, forbiddenKvmPatterns, List.map_append,
      List.map_cons, List.map_nil]
    decide
  exact List.inj_on_of_nodup_map hnodup hp hq h

theorem symbol_of_mem {isalnum : Char → Bool} (hp : p ∈ forbiddenPatterns isalnum) :
    Symbol p.2 := by
  rcases List.mem_append.1 hp with hp | hp
  · exact symbol_of_mem_host _ p hp
  · exact symbol_of_mem_kvm _ p hp

/-- **When the scan reports code only.** Every finding was made by a match that lies in code exactly
when on every line of a core file the first match that the scan can see lies in code: none is inside
of a comment or literal that was opened above, or that the scan does not take for one. -/
theorem scan_sound_iff (isalnum : Char → Bool) (tree : Tree) :
    (∀ f ∈ findings isalnum tree, MadeInCode isalnum tree f) ↔
      ∀ path ∈ coreFiles tree, ∀ n text o l, LineOf tree path n text o l →
        ∀ p ∈ forbiddenPatterns isalnum, ∀ a, FirstVisible p.2 l a →
          CodeAt (langOf path) p.2 text o l a := by
  constructor
  · intro hsound path hpath n text o l hline p hp a hfirst
    have hmem := mem_numbered_iff.2 ⟨text, o, hline⟩
    have hshows : Shows [p] tree path n :=
      ⟨l, hmem, p, List.mem_singleton_self p, visible_iff.2 ⟨a, hfirst.1⟩⟩
    have hfinding : ∃ f ∈ findings isalnum tree, f.pattern = p.1 ∧ f.path = path ∧ f.line = n := by
      rcases List.mem_append.1 hp with hhost | hkvm
      · obtain ⟨f, hf, h⟩ := finding_of_shows (symbol_of_mem_host isalnum) hhost hpath hshows
        exact ⟨f, List.mem_append_left _ hf, h⟩
      · obtain ⟨f, hf, h⟩ := finding_of_shows (symbol_of_mem_kvm isalnum) hkvm hpath hshows
        exact ⟨f, List.mem_append_right _ hf, h⟩
    obtain ⟨f, hf, hname, rfl, rfl⟩ := hfinding
    obtain ⟨q, hq, hqname, text', o', l', a', hline', hfound, hcode⟩ := hsound f hf
    obtain rfl := pattern_eq_of_name isalnum hq hp (hqname.trans hname)
    obtain ⟨rfl, rfl, rfl⟩ := hline.unique hline'
    have hfirst' := hfound.first (symbol_of_mem hq) (newline_not_mem_of_numbered hmem)
    rwa [hfirst.unique hfirst']
  · intro h f hf
    have hshows : f.path ∈ coreFiles tree ∧ ∃ p ∈ forbiddenPatterns isalnum, p.1 = f.pattern ∧
        Shows [p] tree f.path f.line := by
      rcases List.mem_append.1 hf with hf | hf
      · obtain ⟨hpath, p, hp, h⟩ := shows_of_finding (symbol_of_mem_host isalnum) hf
        exact ⟨hpath, p, List.mem_append_left _ hp, h⟩
      · obtain ⟨hpath, p, hp, h⟩ := shows_of_finding (symbol_of_mem_kvm isalnum) hf
        exact ⟨hpath, p, List.mem_append_right _ hp, h⟩
    obtain ⟨hpath, p, hp, hname, l, hl, q, hq, hv⟩ := hshows
    obtain rfl := List.mem_singleton.1 hq
    obtain ⟨text, o, hline⟩ := mem_numbered_iff.1 hl
    obtain ⟨a, hfound⟩ := exists_foundAt (symbol_of_mem hp) (newline_not_mem_of_numbered hl) hv
    have hfirst := hfound.first (symbol_of_mem hp) (newline_not_mem_of_numbered hl)
    exact ⟨q, hp, hname, text, o, l, a, hline, hfound,
      h f.path hpath f.line text o l hline q hp a hfirst⟩

/-! ## A symbol in a block comment -/

def commentText : Text := "/*\n kmalloc\n*/\n"

def commentTree : Tree := ⟨(∅ : Files).write pointerPath commentText, []⟩

theorem lookup_commentTree : commentTree.files.lookup pointerPath = some commentText :=
  Files.lookup_write_self _ _ _

theorem lineOf_commentTree : LineOf commentTree pointerPath 2 commentText 3 " kmalloc" :=
  ⟨lookup_commentTree, by decide⟩

theorem not_inCode_commentText : ∀ i < 8, ¬ Lex.InCode (langOf pointerPath) commentText (3 + i) 1 := by
  have hlang : langOf pointerPath = .rust := by decide +kernel
  rw [hlang]
  decide

/-- The comment yields a finding. -/
theorem commentTree_reported : ∃ f ∈ findings (fun _ => false) commentTree,
    ¬ MadeInCode (fun _ => false) commentTree f := by
  have hshows : Shows (forbiddenPatterns fun _ => false) commentTree pointerPath 2 := by
    refine ⟨" kmalloc", mem_numbered_iff.2 ⟨_, _, lineOf_commentTree⟩, _,
      List.mem_append_left _ (.tail _ (.tail _ (.head _))), by decide, [' '], "kmalloc", [],
      [(1, "kmalloc")], by decide, ?_, by decide, .char .start (by decide)⟩
    exact matches_word (.group (.altLeft ((matches_lit_iff _).2 ⟨rfl, rfl⟩))) (by decide) (by decide)
  obtain ⟨f, hf, hpath, hnumber⟩ := (exists_mem_findings_iff (fun _ => false) commentTree pointerPath
    2).2 ⟨pointerPath_mem_write commentText, hshows⟩
  refine ⟨f, hf, ?_⟩
  rintro ⟨p, hp, -, text, o, l, a, hline, hfound, hcode⟩
  rw [hpath] at hline hcode
  rw [hnumber] at hline
  obtain ⟨rfl, rfl, rfl⟩ := lineOf_commentTree.unique hline
  obtain ⟨x, hx⟩ := (hfound.first (symbol_of_mem hp) (by decide)).1
  have hin := hcode x hx
  obtain ⟨-, y, g, hl, hm, -⟩ := hx
  obtain ⟨c, hc, -⟩ := (symbol_of_mem hp).solid.exists_mem hm
  have hpos : 1 ≤ x.length := List.length_pos_of_mem hc
  have hlen : a.length < 8 := by
    have := congrArg List.length hl
    simp only [List.length_append] at this
    have h8 : (" kmalloc" : Text).length = 8 := rfl
    omega
  refine not_inCode_commentText a.length hlen (List.all_eq_true.2 fun b hb => ?_)
  rw [← Nat.min_eq_left hpos, ← List.take_take] at hb
  exact List.all_eq_true.1 hin b (List.mem_of_mem_take hb)

end Harness.StaticScan
