import AxvisorTools.Gen.Proof.KernelKey
import AxvisorTools.Gen.StaticConfig
import AxvisorTools.Text.Proof.Matches

/-!
# The text of a section

The pattern for a section takes the blanks after its header, newlines included, and then everything up to
a line that starts with a bracket. `group1_section` says so in terms of lines: the rest of the header
line and the lines after it (`sectionRows`), from the first character that is no blank on (`trimRows`).
-/

namespace Gen.StaticConfig

open Regex Py KernelKey

/-! ## Rows -/

/-- The lines up to one that starts with a bracket, of which an empty line is left. -/
def sectionRows : List Text → List Text
  | [] => []
  | l :: ls => if l.head? = some '[' then [[]] else l :: sectionRows ls

/-- What comes after the rows. -/
def sectionRest : List Text → Text
  | [] => []
  | l :: ls => if l.head? = some '[' then l ++ below ls else sectionRest ls

/-- The rows without the blanks at their start. -/
def trimRows : List Text → List Text
  | [] => [[]]
  | l :: ls => if isWhiteLine l then trimRows ls else l.dropWhile Re.isWhite :: ls

theorem below_sectionRows (ls : List Text) :
    below ls = below (sectionRows ls) ++ sectionRest ls := by
  induction ls with
  | nil => rfl
  | cons l ls ih =>
    rw [sectionRows, sectionRest]
    split
    · rfl
    · rw [below_cons, below_cons, ih, List.append_assoc]

theorem unbroken_sectionRows {ls : List Text} (h : Unbroken ls) : Unbroken (sectionRows ls) := by
  induction ls with
  | nil => exact h
  | cons l ls ih =>
    obtain ⟨hl, h⟩ := List.forall_mem_cons.1 h
    rw [sectionRows]
    split
    · exact List.forall_mem_singleton.2 List.not_mem_nil
    · exact List.forall_mem_cons.2 ⟨hl, ih h⟩

theorem head_sectionRows (ls : List Text) : ∀ l ∈ sectionRows ls, l.head? ≠ some '[' := by
  induction ls with
  | nil => exact nofun
  | cons l ls ih =>
    rw [sectionRows]
    split
    · exact List.forall_mem_singleton.2 nofun
    · rename_i hl
      exact List.forall_mem_cons.2 ⟨hl, ih⟩

theorem sectionRest_cases (ls : List Text) : sectionRest ls = [] ∨
    ∃ t z, sectionRest ls = '[' :: t ∧ below (sectionRows ls) = z ++ ['\n'] := by
  induction ls with
  | nil => exact .inl rfl
  | cons l ls ih =>
    rw [sectionRows, sectionRest]
    split
    · rename_i hl
      obtain ⟨l, rfl⟩ := List.head?_eq_some_iff.1 hl
      exact .inr ⟨l ++ below ls, [], rfl, rfl⟩
    · rcases ih with hrest | ⟨t, z, hrest, hrows⟩
      · exact .inl hrest
      · exact .inr ⟨t, '\n' :: l ++ z, hrest, by rw [below_cons, hrows, ← List.append_assoc]⟩

theorem head_after_newline {rows : List Text} (hrows : Unbroken rows)
    (hhead : ∀ l ∈ rows, l.head? ≠ some '[') {u a c : Text} (hu : '\n' ∉ u)
    (h : u ++ below rows = a ++ '\n' :: c) : c.head? ≠ some '[' := by
  induction rows generalizing u a with
  | nil =>
    rw [below_nil, List.append_nil] at h
    exact absurd (by simp [h]) hu
  | cons l rows ih =>
    obtain ⟨hl, hrows⟩ := List.forall_mem_cons.1 hrows
    obtain ⟨hbracket, hhead⟩ := List.forall_mem_cons.1 hhead
    have hline : (l ++ below rows).head? ≠ some '[' := by
      cases l with
      | nil => cases rows <;> exact nofun
      | cons d l => exact hbracket
    rcases List.append_eq_append_iff.1 h with ⟨w, rfl, hw⟩ | ⟨w, rfl, hw⟩
    · cases w with
      | nil =>
        have hc : l ++ below rows = c := (List.cons.inj hw).2
        exact hc ▸ hline
      | cons d w =>
        have hnext : l ++ below rows = w ++ '\n' :: c := (List.cons.inj hw).2
        exact ih hrows hhead hl hnext
    · cases w with
      | nil =>
        have hc : c = l ++ below rows := (List.cons.inj hw).2
        exact hc ▸ hline
      | cons d w =>
        obtain ⟨rfl, -⟩ := List.cons.inj hw
        exact absurd (by simp) hu

theorem dropWhile_unlines (l : Text) (ls : List Text) :
    (unlines (l :: ls)).dropWhile Re.isWhite = unlines (trimRows (l :: ls)) := by
  induction ls generalizing l with
  | nil =>
    rw [unlines, below_nil, List.append_nil, trimRows]
    split
    · rename_i hl
      exact List.dropWhile_eq_nil_iff.2 (List.all_eq_true.1 hl)
    · rw [unlines, below_nil, List.append_nil]
  | cons k ls ih =>
    rw [unlines, trimRows]
    split
    · rename_i hl
      rw [List.dropWhile_append_of_pos (List.all_eq_true.1 hl), below_cons, List.cons_append,
        List.dropWhile_cons, if_pos isWhite_newline]
      exact ih k
    · rename_i hl
      have hne : l.dropWhile Re.isWhite ≠ [] := fun h => hl (List.all_eq_true.2
        (List.dropWhile_eq_nil_iff.1 h))
      rw [List.dropWhile_append, if_neg (by simpa using hne), unlines]

/-! ## The match -/

/-- The pattern without its `^`. -/
def sectionBody (header : Text) : Re :=
  .seq (lit header) (.seq (.star true Re.space)
    (.seq (.group 1 (.star false (.one fun _ => true)))
      (.alt (.seq bol (lit ['['])) (.look fun _ next => next.isNone))))

theorem sectionPattern_eq (header : Text) : sectionPattern header = .seq bol (sectionBody header) :=
  rfl

/-- The end of a section: a line that starts with a bracket, or the end of the text. -/
def sectionEnd : Re := .alt (.seq bol (lit ['['])) (.look fun _ next => next.isNone)

theorem matches_sectionEnd {b x y : Text} {g : List (Nat × Text)} (h : Matches sectionEnd b x y g) :
    (b.head?.all (· == '\n') = true ∧ x = ['[']) ∨ (x = [] ∧ y = []) := by
  rcases matches_alt_iff.1 h with h | h
  · obtain ⟨u, v, _, _, rfl, -, hbol, hlit⟩ := matches_seq_iff.1 h
    obtain ⟨hb, rfl, -⟩ := matches_look_iff.1 hbol
    obtain ⟨rfl, -⟩ := (matches_lit_iff _).1 hlit
    exact .inl ⟨hb, rfl⟩
  · obtain ⟨hy, rfl, -⟩ := matches_look_iff.1 h
    exact .inr ⟨rfl, by cases y <;> trivial⟩

theorem run_sectionEnd {b rest : Text} (g : List (Nat × Text))
    (h : rest = [] ∨ b.head? = some '\n' ∧ ∃ t, rest = '[' :: t) :
    ∃ e, (run sectionEnd ⟨b, rest, g⟩).head? = some e ∧ e.groups = g := by
  rcases h with rfl | ⟨hb, t, rfl⟩
  · have hrun : run sectionEnd ⟨b, [], g⟩ = [⟨b, [], g⟩] := by
      cases hb : b.head?.all (· == '\n') <;> simp [sectionEnd, run, bol, lit, hb]
    exact ⟨⟨b, [], g⟩, by rw [hrun]; rfl, rfl⟩
  · have hrun : run sectionEnd ⟨b, '[' :: t, g⟩ = [⟨'[' :: b, t, g⟩] := by
      simp [sectionEnd, run, bol, lit, hb, Pos.move]
    exact ⟨⟨'[' :: b, t, g⟩, by rw [hrun]; rfl, rfl⟩

/-- Where the pattern matches, and what it takes for the section. -/
theorem run_section {header : Text} (hne : header ≠ []) (hheader : '\n' ∉ header) {u : Text}
    (hu : '\n' ∉ u) {post : List Text} (hpost : Unbroken post) (b : Text) :
    ∃ e, (run (sectionBody header) ⟨b, header ++ u ++ below post, []⟩).head? = some e ∧
      e.groups = [(1, unlines (trimRows (u :: sectionRows post)))] := by
  have hbody : u ++ below (sectionRows post) = unlines (u :: sectionRows post) := rfl
  -- the blanks `w` after the header, and the rest of the section
  obtain ⟨w, rows, hsplit, hw, hrows, hfirst⟩ : ∃ w rows, u ++ below (sectionRows post) = w ++ rows ∧
      (∀ c ∈ w, Re.isWhite c = true) ∧ unlines (trimRows (u :: sectionRows post)) = rows ∧
      ∀ c ∈ rows.head?, Re.isWhite c = false := by
    refine ⟨_, _, List.takeWhile_append_dropWhile.symm, fun c hc => List.mem_takeWhile_imp hc, ?_, ?_⟩
    · rw [hbody, dropWhile_unlines]
    · intro c hc
      have := List.head?_dropWhile_not Re.isWhite (u ++ below (sectionRows post))
      rw [Option.mem_def.1 hc] at this
      simpa using this
  have htext : header ++ u ++ below post = header ++ (w ++ (rows ++ sectionRest post)) := by
    rw [below_sectionRows post, List.append_assoc, ← List.append_assoc u, hsplit, List.append_assoc]
  obtain ⟨e, he, hgroups⟩ := @run_sectionEnd (rows.reverse ++ (w.reverse ++ (header.reverse ++ b)))
    (sectionRest post) [(1, rows)] (by
      refine (sectionRest_cases post).imp_right fun h => ?_
      obtain ⟨t, z, hrest, hz⟩ := h
      have hlast : rows.reverse ++ w.reverse = '\n' :: (u ++ z).reverse := by
        rw [← List.reverse_append, ← hsplit, hz, ← List.append_assoc, List.reverse_append]
        rfl
      rw [← List.append_assoc, hlast]
      exact ⟨rfl, t, hrest⟩)
  refine ⟨e, ?_, hrows ▸ hgroups⟩
  rw [htext, sectionBody, run_lit_seq]
  refine head?_greedy hw ?_ ?_
  · intro c hc
    cases rows with
    | nil =>
      rcases sectionRest_cases post with hrest | ⟨t, z, hrest, -⟩
      · rw [hrest] at hc
        cases hc
      · rw [hrest] at hc
        cases hc
        rfl
    | cons d rows => exact hfirst c hc
  · -- before the end of the rows there is no line that starts with a bracket
    refine head?_lazy (fun u' v' huv hv x y g hxy hm => ?_) he
    rcases matches_sectionEnd hm with ⟨hb, rfl⟩ | ⟨rfl, rfl⟩
    · obtain ⟨d, v', rfl⟩ := List.exists_cons_of_ne_nil hv
      obtain rfl : d = '[' := (List.cons.inj hxy).1
      rw [← List.append_assoc, ← List.reverse_append] at hb
      rcases List.eq_nil_or_concat' (w ++ u') with hnil | ⟨z, c, hz⟩
      · rw [hnil, List.reverse_nil, List.nil_append] at hb
        obtain ⟨z, c, rfl⟩ := (List.eq_nil_or_concat' header).resolve_left hne
        rw [List.reverse_concat, List.cons_append, List.head?_cons, Option.all_some, beq_iff_eq] at hb
        exact hheader (by simp [hb])
      · rw [hz, List.reverse_concat, List.cons_append, List.head?_cons, Option.all_some,
          beq_iff_eq] at hb
        refine head_after_newline (unbroken_sectionRows hpost) (head_sectionRows post) hu
          (a := z) (c := '[' :: v') ?_ rfl
        rw [hsplit, huv, ← List.append_assoc, hz, hb]
        simp
    · exact hv (List.append_eq_nil_iff.1 hxy).1

/-- **The section** that the pattern finds, in terms of the lines of the text. -/
theorem group1_section {header : Text} (hne : header ≠ []) (hheader : '\n' ∉ header) {ls : List Text}
    (hls : Unbroken ls) (hls' : ls ≠ []) :
    group1 (sectionPattern header) (unlines ls) =
      (splitAtFirst header.isPrefixOf ls).map fun r =>
        unlines (trimRows (r.2.1.drop header.length :: sectionRows r.2.2)) := by
  have hmiss : ∀ l, header.isPrefixOf l = false → MissesLine (sectionBody header) l := by
    intro l hl b ks
    have hno : ¬header <+: l ++ below ks := by
      rw [prefix_append_below hheader, ← List.isPrefixOf_iff_prefix, hl]
      exact Bool.false_ne_true
    rw [sectionBody, run_seq_lit, if_neg hno]
  rw [group1, sectionPattern_eq]
  cases hsplit : splitAtFirst header.isPrefixOf ls with
  | none =>
    rw [search_bol_none hls hls' fun l hl => hmiss l (splitAtFirst_none hsplit l hl)]
    rfl
  | some r =>
    obtain ⟨pre, l, post⟩ := r
    obtain ⟨rfl, hl, hpre⟩ := splitAtFirst_some hsplit
    obtain ⟨u, rfl⟩ := List.isPrefixOf_iff_prefix.1 hl
    obtain ⟨hline, hpost⟩ := List.forall_mem_cons.1 fun k hk => hls k (List.mem_append_right pre hk)
    obtain ⟨e, he, hgroups⟩ := run_section hne hheader
      (fun h => hline (List.mem_append_right header h)) hpost (above pre).reverse
    rw [search_bol (fun k hk => hls k (List.mem_append_left _ hk)) (fun k hk => hmiss k (hpre k hk)) he]
    simp [Re.groupText, hgroups]

end Gen.StaticConfig
