import AxvisorTools.Harness.Proof.StaticScan

/-!
# Which names of the host the scan recognises

`\b(asterinas|ostd::|linux_)\b` asks for a word boundary after `linux_` and after `ostd::`. So a name
that goes on after `linux_` is never found, and `ostd::` only where a word follows.
`hostNames_iff` says which lines of plain code with a host-specific name yield a finding.
-/

namespace Harness.StaticScan

open Shell Py Regex

variable {l x y : Text} {c : Char}

/-! ## Plain lines -/

theorem cutComment_eq_self (h : ¬ "//" <:+: l) : cutComment l = l := by
  fun_induction cutComment l with
  | case1 => rfl
  | case2 t => exact absurd ⟨[], t, rfl⟩ h
  | case3 c t _ ih =>
    rw [ih fun ht => h (ht.trans (List.infix_cons (List.infix_refl t)))]

theorem emptied_eq_self (h : '"' ∉ l) : emptied l = l := by
  have hl := emptied_append h []
  rwa [List.append_nil, emptied, List.append_nil] at hl

theorem PlainCode.strip_eq (h : PlainCode l) (hl : '\n' ∉ l) : stripLineForScan l = l := by
  have hmarker : ¬ "//" <:+: l := h.noMarker _ List.mem_cons_self
  have hraw : l.rdropWhile (· == '\n') = l := by
    refine List.rdropWhile_eq_self_iff.2 fun hne hlast => hl ?_
    rw [← beq_iff_eq.1 hlast]
    exact List.getLast_mem hne
  have hcomment : isCommentLine l = false := by
    rw [isCommentLine, Bool.or_eq_false_iff, Bool.eq_false_iff, Bool.eq_false_iff, ne_eq, ne_eq,
      List.isPrefixOf_iff_prefix, List.isPrefixOf_iff_prefix]
    refine ⟨fun hpre => hmarker (hpre.isInfix.trans (List.dropWhile_suffix _).isInfix), ?_⟩
    rintro ⟨t, ht⟩
    exact h.noStar (by rw [← ht]; rfl)
  rw [stripLineForScan, hraw, hcomment, if_neg Bool.false_ne_true, cutComment_eq_self hmarker,
    sub_quoted, emptied_eq_self h.noQuote.1]

/-! ## Words -/

section

variable {isalnum : Char → Bool} {l : Text}

theorem matches_foldedLit_iff (t : Text) {b : Text} {g : List (Nat × Text)} :
    Matches (foldedLit t) b x y g ↔ SameName t x ∧ g = [] := by
  induction t generalizing b x g with
  | nil => 
    rw [foldedLit, matches_eps_iff, SameName, List.forall₂_nil_left_iff]
  | cons c t ih =>
    simp only [foldedLit, matches_seq_iff, matches_one_iff, ih]
    constructor
    · rintro ⟨_, _, _, _, rfl, rfl, ⟨d, hd, rfl, rfl⟩, hx, rfl⟩
      exact ⟨.cons hd hx, rfl⟩
    · rintro ⟨hx, rfl⟩
      cases hx with
      | cons hd hx => exact ⟨[_], _, [], [], rfl, rfl, ⟨_, hd, rfl, rfl⟩, hx, rfl⟩

/-- A word pattern is found where its text stands between boundaries. -/
theorem found_word_iff {n : Nat} {r : Re} : found (word isalnum (.group n r)) l = true ↔
    ∃ a x y, l = a ++ (x ++ y) ∧ (∃ g, Matches r a.reverse x y g) ∧
      (a.getLast?.any (isWord isalnum) != (x ++ y).head?.any (isWord isalnum)) = true ∧
      ((a ++ x).getLast?.any (isWord isalnum) != y.head?.any (isWord isalnum)) = true := by
  rw [found_iff_matches]
  constructor
  · rintro ⟨a, x, y, g, rfl, hm⟩
    simp only [word, boundary, matches_seq_iff, matches_look_iff, matches_group_iff] at hm
    obtain ⟨_, _, _, _, rfl, rfl, ⟨hstart, rfl, rfl⟩, x, _, _, _, rfl, rfl, ⟨g', rfl, hm⟩, hend, rfl,
      rfl⟩ := hm
    refine ⟨a, x, y, by simp, ⟨g', by simpa using hm⟩, ?_, ?_⟩
    · simpa using hstart
    · simpa using hend
  · rintro ⟨a, x, y, rfl, ⟨g, hm⟩, hstart, hend⟩
    refine ⟨a, x, y, (n, x) :: g, rfl, matches_word (.group hm) ?_ ?_⟩
    · simpa using hstart
    · simpa using hend

theorem startBoundary_iff {a : Text} (hfirst : x.head?.any (isWord isalnum) = true) :
    (a.getLast?.any (isWord isalnum) != (x ++ y).head?.any (isWord isalnum)) = true ↔
      EndsWord isalnum a := by
  have hx : x ≠ [] := by
    rintro rfl
    cases hfirst
  rw [List.head?_append_of_ne_nil _ hx, hfirst, bne_iff_ne, ne_eq, Bool.not_eq_true,
    Option.any_eq_false]
  rfl

theorem boundaries_iff {a : Text} (hfirst : x.head?.any (isWord isalnum) = true)
    (hlast : x.getLast?.any (isWord isalnum) = true) :
    ((a.getLast?.any (isWord isalnum) != (x ++ y).head?.any (isWord isalnum)) = true ∧
      ((a ++ x).getLast?.any (isWord isalnum) != y.head?.any (isWord isalnum)) = true) ↔
      EndsWord isalnum a ∧ StartsOther isalnum y := by
  have hx : x ≠ [] := by
    rintro rfl
    cases hfirst
  refine and_congr (startBoundary_iff hfirst) ?_
  rw [List.getLast?_append_of_ne_nil _ hx, hlast, bne_comm, bne_iff_ne, ne_eq, Bool.not_eq_true,
    Option.any_eq_false]
  rfl

theorem found_words_iff {n : Nat} {r : Re} {P : Text → Prop}
    (hr : ∀ b x y, (∃ g, Matches r b x y g) ↔ P x)
    (hP : ∀ x, P x → x.head?.any (isWord isalnum) = true ∧ x.getLast?.any (isWord isalnum) = true) :
    found (word isalnum (.group n r)) l = true ↔ ∃ x, HasWord isalnum l x ∧ P x := by
  rw [found_word_iff]
  constructor
  · rintro ⟨a, x, y, rfl, hm, hbound⟩
    have hx := (hr _ _ _).1 hm
    exact ⟨x, ⟨a, y, rfl, (boundaries_iff (hP x hx).1 (hP x hx).2).1 hbound⟩, hx⟩
  · rintro ⟨x, ⟨a, y, rfl, hbound⟩, hx⟩
    exact ⟨a, x, y, rfl, (hr _ _ _).2 hx, (boundaries_iff (hP x hx).1 (hP x hx).2).2 hbound⟩

/-! ## The two patterns -/

def kernelApi : Re :=
  alts (lit "kmalloc")
    [lit "kfree", lit "vmalloc", lit "vfree", lit "memremap",
      lit "iounmap", lit "request_irq", lit "free_irq",
      .seq (lit "copy_") (.seq (.group 2 (.alt (lit "to") (lit "from")))
        (lit "_user")), lit "misc_register", lit "proc_create"]

def asterinasSpecific : Re :=
  alts (foldedLit "asterinas") [foldedLit "ostd::", foldedLit "linux_"]

theorem mem_forbiddenHostPatterns {p : Text × Re} : p ∈ forbiddenHostPatterns isalnum ↔
    p = ("linux_kernel_api".toList, word isalnum (.group 1 kernelApi)) ∨
    p = ("asterinas_specific".toList, word isalnum (.group 1 asterinasSpecific)) ∨
    p ∈ otherHostPatterns isalnum := by
  rw [otherHostPatterns, List.mem_filter]
  constructor
  · intro h
    simp only [forbiddenHostPatterns, List.mem_cons, List.not_mem_nil, or_false] at h ⊢
    rcases h with rfl | rfl | rfl | rfl | rfl
    · exact .inr (.inr ⟨.inl rfl, rfl⟩)
    · exact .inr (.inr ⟨.inr (.inl rfl), rfl⟩)
    · exact .inl rfl
    · exact .inr (.inr ⟨.inr (.inr (.inr (.inl rfl))), rfl⟩)
    · exact .inr (.inl rfl)
  · rintro (rfl | rfl | h)
    · exact .tail _ (.tail _ (.head _))
    · exact .tail _ (.tail _ (.tail _ (.tail _ (.head _))))
    · exact h.1

theorem matches_kernelApi_iff {b : Text} : (∃ g, Matches kernelApi b x y g) ↔ x ∈ apiNames := by
  have hcopy : ∀ g, Matches (.seq (lit "copy_".toList) (.seq (.group 2 (.alt (lit "to".toList)
      (lit "from".toList))) (lit "_user".toList))) b x y g ↔
      (x = "copy_to_user".toList ∧ g = [(2, "to".toList)]) ∨
        (x = "copy_from_user".toList ∧ g = [(2, "from".toList)]) := by
    intro g
    simp only [matches_seq_iff, matches_group_iff, matches_alt_iff, matches_lit_iff]
    constructor
    · rintro ⟨_, _, _, _, rfl, rfl, ⟨rfl, rfl⟩, _, _, _, _, rfl, rfl, ⟨_, rfl, ⟨rfl, rfl⟩ | ⟨rfl, rfl⟩⟩,
        rfl, rfl⟩
      · exact .inl ⟨rfl, rfl⟩
      · exact .inr ⟨rfl, rfl⟩
    · rintro (⟨rfl, rfl⟩ | ⟨rfl, rfl⟩)
      · exact ⟨_, _, [], _, rfl, rfl, ⟨rfl, rfl⟩, _, _, _, [], rfl, rfl, ⟨[], rfl, .inl ⟨rfl, rfl⟩⟩, rfl,
          rfl⟩
      · exact ⟨_, _, [], _, rfl, rfl, ⟨rfl, rfl⟩, _, _, _, [], rfl, rfl, ⟨[], rfl, .inr ⟨rfl, rfl⟩⟩, rfl,
          rfl⟩
  simp only [kernelApi, alts, matches_alt_iff, hcopy, matches_lit_iff, exists_or,
    exists_and_left, exists_eq, and_true, apiNames, List.map_cons, List.map_nil,
    List.mem_cons, List.not_mem_nil, or_false, or_assoc]

theorem toLower_cases (d : Char) : d.toLower = d ∨ d.isUpper = true ∧ 97 ≤ d.toLower.toNat := by
  by_cases hd : d.val ≥ 'A'.val ∧ d.val ≤ 'Z'.val
  · refine .inr ⟨decide_eq_true hd, ?_⟩
    have hval : d.toLower.toNat = (d.val + ('a'.val - 'A'.val)).toNat :=
      congrArg Char.toNat (dif_pos hd)
    simp only [ge_iff_le, UInt32.le_iff_toNat_le] at hd
    have hA : 'A'.val.toNat = 65 := rfl
    have hZ : 'Z'.val.toNat = 90 := rfl
    have hdiff : ('a'.val - 'A'.val).toNat = 32 := rfl
    rw [hval, UInt32.toNat_add, hdiff]
    omega
  · exact .inl (dif_neg hd)

theorem isWord_of_isUpper {d : Char} (h : d.isUpper = true) : isWord isalnum d = true := by
  have hascii : d.toNat < 128 := by
    have := (isUpper_range h).2
    omega
  have halnum : d.isAlphanum = ((d.isUpper || d.isLower) || d.isDigit) := rfl
  rw [isWord, if_pos hascii, halnum, h, Bool.true_or, Bool.true_or, Bool.true_or]

theorem isWord_of_sameLetter (hlong : isalnum 'ſ' = true) {d : Char} (hc : c ≠ 'i')
    (hword : isWord isalnum c = true) (h : sameLetter c d = true) : isWord isalnum d = true := by
  simp only [sameLetter, Bool.or_eq_true, Bool.and_eq_true, beq_iff_eq] at h
  rcases h with (h | ⟨hi, -⟩) | ⟨-, rfl⟩
  · rcases toLower_cases d with hd | ⟨hd, -⟩
    · rwa [← hd, h]
    · exact isWord_of_isUpper hd
  · exact absurd hi hc
  · exact hlong

theorem eq_colon_of_sameLetter {d : Char} (h : sameLetter ':' d = true) : d = ':' := by
  simp only [sameLetter, Bool.or_eq_true, Bool.and_eq_true, beq_iff_eq] at h
  rcases h with (h | ⟨hi, -⟩) | ⟨hs, -⟩
  · rcases toLower_cases d with hd | ⟨-, hd⟩
    · rw [← hd, h]
    · rw [h] at hd
      exact absurd hd (by decide)
  · exact absurd hi (by decide)
  · exact absurd hs (by decide)

theorem SameName.head {t : Text} (h : SameName (c :: t) x) :
    ∃ d, x.head? = some d ∧ sameLetter c d = true := by
  cases h with
  | cons hd _ => exact ⟨_, rfl, hd⟩

theorem SameName.last {t : Text} (h : SameName (t ++ [c]) x) :
    ∃ d, x.getLast? = some d ∧ sameLetter c d = true := by
  have hrev : SameName (c :: t.reverse) x.reverse := by
    have := List.rel_reverse h
    rwa [List.reverse_append] at this
  obtain ⟨d, hd, hc⟩ := hrev.head
  exact ⟨d, by rwa [List.head?_reverse] at hd, hc⟩

theorem SameName.head_isWord (hlong : isalnum 'ſ' = true) {t : Text} (h : SameName (c :: t) x)
    (hc : c ≠ 'i') (hword : isWord isalnum c = true) : x.head?.any (isWord isalnum) = true := by
  obtain ⟨d, hd, hsame⟩ := h.head
  rw [hd]
  exact isWord_of_sameLetter hlong hc hword hsame

theorem SameName.last_isWord (hlong : isalnum 'ſ' = true) {t : Text} (h : SameName (t ++ [c]) x)
    (hc : c ≠ 'i') (hword : isWord isalnum c = true) : x.getLast?.any (isWord isalnum) = true := by
  obtain ⟨d, hd, hsame⟩ := h.last
  rw [hd]
  exact isWord_of_sameLetter hlong hc hword hsame

theorem matches_asterinas_iff {b : Text} : (∃ g, Matches asterinasSpecific b x y g) ↔
    SameName "asterinas" x ∨ SameName "ostd::" x ∨ SameName "linux_" x := by
  simp only [asterinasSpecific, alts, matches_alt_iff, matches_foldedLit_iff, exists_or,
    exists_and_left, exists_eq, and_true]

theorem edges_of_asterinas (hlong : isalnum 'ſ' = true)
    (h : SameName "asterinas" x ∨ SameName "linux_" x) :
    x.head?.any (isWord isalnum) = true ∧ x.getLast?.any (isWord isalnum) = true := by
  have hasterinas : "asterinas" = 'a' :: "sterinas" ∧
      "asterinas" = "asterina" ++ ['s'] := by decide
  have hlinux : "linux_" = 'l' :: "inux_" ∧
      "linux_" = "linux" ++ ['_'] := by decide
  rcases h with h | h
  · exact ⟨(hasterinas.1 ▸ h).head_isWord hlong (by decide) rfl,
      (hasterinas.2 ▸ h).last_isWord hlong (by decide) rfl⟩
  · exact ⟨(hlinux.1 ▸ h).head_isWord hlong (by decide) rfl,
      (hlinux.2 ▸ h).last_isWord hlong (by decide) rfl⟩

theorem boundaries_ostd_iff (hlong : isalnum 'ſ' = true) {a : Text} (h : SameName "ostd::" x) :
    ((a.getLast?.any (isWord isalnum) != (x ++ y).head?.any (isWord isalnum)) = true ∧
      ((a ++ x).getLast?.any (isWord isalnum) != y.head?.any (isWord isalnum)) = true) ↔
      EndsWord isalnum a ∧ y.head?.any (isWord isalnum) = true := by
  have hostd : "ostd::" = 'o' :: "std::" ∧
      "ostd::" = "ostd:" ++ [':'] := by decide
  have hfirst := (hostd.1 ▸ h).head_isWord hlong (by decide) rfl
  obtain ⟨d, hd, hcolon⟩ := (hostd.2 ▸ h).last
  have hlast : x.getLast?.any (isWord isalnum) = false := by
    rw [hd, eq_colon_of_sameLetter hcolon]
    rfl
  have hx : x ≠ [] := by
    rintro rfl
    cases hfirst
  refine and_congr (startBoundary_iff hfirst) ?_
  rw [List.getLast?_append_of_ne_nil _ hx, hlast, bne_comm, bne_iff_ne, ne_eq, Bool.not_eq_false]

theorem found_asterinas_iff (hlong : isalnum 'ſ' = true) :
    found (word isalnum (.group 1 asterinasSpecific)) l = true ↔
      (∃ x, HasWord isalnum l x ∧ (SameName "asterinas" x ∨ SameName "linux_" x)) ∨
      ∃ a x c y, l = a ++ (x ++ c :: y) ∧ SameName "ostd::" x ∧ EndsWord isalnum a ∧
        isWord isalnum c = true := by
  rw [found_word_iff]
  simp only [matches_asterinas_iff]
  constructor
  · rintro ⟨a, x, y, rfl, hx, hbound⟩
    have hwhole : SameName "asterinas" x ∨ SameName "linux_" x →
        ∃ z, HasWord isalnum (a ++ (x ++ y)) z ∧
          (SameName "asterinas" z ∨ SameName "linux_" z) := fun h =>
      ⟨x, ⟨a, y, rfl, (boundaries_iff (edges_of_asterinas hlong h).1
        (edges_of_asterinas hlong h).2).1 hbound⟩, h⟩
    rcases hx with hx | hx | hx
    · exact .inl (hwhole (.inl hx))
    · obtain ⟨hstart, hnext⟩ := (boundaries_ostd_iff hlong hx).1 hbound
      cases y with
      | nil => cases hnext
      | cons c y => exact .inr ⟨a, x, c, y, rfl, hx, hstart, hnext⟩
    · exact .inl (hwhole (.inr hx))
  · rintro (⟨x, ⟨a, y, rfl, hbound⟩, hx⟩ | ⟨a, x, c, y, rfl, hx, hstart, hc⟩)
    · have hedges := edges_of_asterinas hlong hx
      exact ⟨a, x, y, rfl, by tauto, (boundaries_iff hedges.1 hedges.2).2 hbound⟩
    · exact ⟨a, x, c :: y, rfl, .inr (.inl hx), (boundaries_ostd_iff hlong hx).2 ⟨hstart, hc⟩⟩

theorem edges_of_api : ∀ x ∈ apiNames,
    x.head?.any (isWord isalnum) = true ∧ x.getLast?.any (isWord isalnum) = true := by
  simp only [apiNames, List.map_cons, List.map_nil, List.forall_mem_cons]
  refine ⟨⟨rfl, rfl⟩, ⟨rfl, rfl⟩, ⟨rfl, rfl⟩, ⟨rfl, rfl⟩, ⟨rfl, rfl⟩, ⟨rfl, rfl⟩, ⟨rfl, rfl⟩, ⟨rfl, rfl⟩,
    ⟨rfl, rfl⟩, ⟨rfl, rfl⟩, ⟨rfl, rfl⟩, ⟨rfl, rfl⟩, List.forall_mem_nil _⟩

theorem exists_found_iff (hlong : isalnum 'ſ' = true) :
    (∃ p ∈ forbiddenHostPatterns isalnum, found p.2 l = true) ↔ Recognised isalnum l := by
  simp only [mem_forbiddenHostPatterns, or_and_right, exists_or, exists_eq_left, Recognised,
    found_words_iff (fun _ _ _ => matches_kernelApi_iff) edges_of_api, found_asterinas_iff hlong,
    and_or_left, or_assoc]

end

/-! ## Findings -/

theorem line_unique {tree : Tree} {path l' : Text} {n : Nat} (h : (l, n) ∈ numbered tree path)
    (h' : (l', n) ∈ numbered tree path) : l' = l := by
  rw [numbered, List.mk_mem_zipIdx_iff_le_and_getElem?_sub] at h h'
  exact Option.some.inj (h'.2.symm.trans h.2)

/-- A plain line of a core file yields a finding exactly if the patterns recognise something. -/
theorem exists_hostFinding_iff {isalnum : Char → Bool} (hlong : isalnum 'ſ' = true) {tree : Tree}
    {path : Text} {n : Nat} (hpath : path ∈ coreFiles tree) (hl : (l, n) ∈ numbered tree path)
    (hplain : PlainCode l) :
    (∃ f ∈ hostFindings isalnum tree, f.path = path ∧ f.line = n) ↔ Recognised isalnum l := by
  have hline := newline_not_mem_of_numbered hl
  rw [hostFindings, exists_finding_iff (symbol_of_mem_host isalnum), ← exists_found_iff hlong]
  constructor
  · rintro ⟨-, l', hl', p, hp, hv⟩
    rw [line_unique hl hl', ← found_stripLine_iff (symbol_of_mem_host isalnum p hp) hline,
      hplain.strip_eq hline] at hv
    exact ⟨p, hp, hv⟩
  · rintro ⟨p, hp, hfound⟩
    refine ⟨hpath, l, hl, p, hp, ?_⟩
    rwa [← found_stripLine_iff (symbol_of_mem_host isalnum p hp) hline, hplain.strip_eq hline]

/-- **Host-specific names**: a plain line with such a name yields a finding unless all that it has are
names that go on after `linux_` and an `ostd::` that no word follows. -/
theorem hostNames_iff {isalnum : Char → Bool} (hlong : isalnum 'ſ' = true) (tree : Tree)
    {path l : Text} {n : Nat} (hpath : path ∈ coreFiles tree) (hl : (l, n) ∈ numbered tree path)
    (hplain : PlainCode l) :
    (HostName isalnum l → ∃ f ∈ hostFindings isalnum tree, f.path = path ∧ f.line = n) ↔
      (HostName isalnum l → Recognised isalnum l) := by
  rw [exists_hostFinding_iff hlong hpath hl hplain]

/-- A tree with one core file of one line. -/
def lineTree (l : Text) : Tree := ⟨(∅ : Files).write pointerPath (l ++ ['\n']), []⟩

theorem pointerPath_mem_lineTree (l : Text) : pointerPath ∈ coreFiles (lineTree l) :=
  pointerPath_mem_write (l ++ ['\n'])

/-- A call into the host with memory of the host. -/
def allocLine : Text := "linux_boot(kmalloc(8));"

theorem allocLine_mem : (allocLine, 1) ∈ numbered (lineTree allocLine) pointerPath := by
  rw [numbered, readLines, lineTree, Files.lookup_write_self]
  decide

theorem hostNames_alloc : PlainCode allocLine ∧
    (HostName (fun _ => true) allocLine → ∃ f ∈ hostFindings (fun _ => true) (lineTree allocLine),
      f.path = pointerPath ∧ f.line = 1) := by
  have hplain : PlainCode allocLine := ⟨by decide, by decide, by decide⟩
  refine ⟨hplain, (hostNames_iff rfl (lineTree allocLine) (pointerPath_mem_lineTree _) allocLine_mem
    hplain).2 fun _ => .inl ⟨"kmalloc", ⟨"linux_boot(", "(8));", by decide, ?_, ?_⟩,
      .inl (by decide)⟩⟩
  · rintro c ⟨⟩
    decide
  · rintro c ⟨⟩
    decide

/-- A call into the host. -/
def bootLine : Text := "linux_boot();"

theorem bootLine_mem : (bootLine, 1) ∈ numbered (lineTree bootLine) pointerPath := by
  rw [numbered, readLines, lineTree, Files.lookup_write_self]
  decide

theorem bootLine_hostName : HostName (fun _ => true) bootLine := by
  refine .inl ⟨"linux_boot", ⟨⟨[], "();", by decide, ?_, ?_⟩, by decide, by decide⟩,
    .inr (.inr ⟨"linux_", "boot", by decide, by decide, by decide⟩)⟩
  · rintro c ⟨⟩
  · rintro c ⟨⟩
    decide

/-- The name is not reported. -/
theorem bootLine_missed :
    pointerPath ∈ coreFiles (lineTree bootLine) ∧
      (bootLine, 1) ∈ numbered (lineTree bootLine) pointerPath ∧ PlainCode bootLine ∧
      HostName (fun _ => true) bootLine ∧
      ¬ ∃ f ∈ hostFindings (fun _ => true) (lineTree bootLine), f.path = pointerPath ∧ f.line = 1 := by
  have hplain : PlainCode bootLine := ⟨by decide, by decide, by decide⟩
  refine ⟨pointerPath_mem_lineTree _, bootLine_mem, hplain, bootLine_hostName, ?_⟩
  rw [exists_hostFinding_iff rfl (pointerPath_mem_lineTree _) bootLine_mem hplain,
    ← exists_found_iff rfl]
  decide

end Harness.StaticScan
