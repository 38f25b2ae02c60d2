import AxvisorTools.Text.Grep
import AxvisorTools.Text.Proof.Regex

/-!
# What a search finds

`grep_lit_iff`: a fixed text without a newline is found exactly when it occurs in the file.
`infix_append_sep`: a character the text does not have separates where it can occur.
-/

namespace Regex

variable {l n : Text}

theorem isSome_searchFrom_nil (r : Re) (b : Text) :
    (searchFrom r b []).isSome = !(run r ⟨b, [], []⟩).isEmpty := by
  rw [searchFrom.eq_def]
  cases h : run r ⟨b, [], []⟩ <;> simp [h]

theorem isSome_searchFrom_cons (r : Re) (b : Text) (c : Char) (t : Text) :
    (searchFrom r b (c :: t)).isSome =
      (!(run r ⟨b, c :: t, []⟩).isEmpty || (searchFrom r (c :: b) t).isSome) := by
  rw [searchFrom.eq_def]
  cases h : run r ⟨b, c :: t, []⟩ <;> simp [h]

theorem found_iff_from (r : Re) (before after : Text) :
    (searchFrom r before after).isSome = true ↔
      ∃ b a, after = b ++ a ∧ run r ⟨b.reverse ++ before, a, []⟩ ≠ [] := by
  induction after generalizing before with
  | nil =>
    rw [isSome_searchFrom_nil, Bool.not_eq_true', List.isEmpty_eq_false_iff]
    constructor
    · exact fun h => ⟨[], [], rfl, h⟩
    · rintro ⟨b, a, hba, hr⟩
      obtain ⟨rfl, rfl⟩ := List.append_eq_nil_iff.1 hba.symm
      exact hr
  | cons c t ih =>
    rw [isSome_searchFrom_cons, Bool.or_eq_true, Bool.not_eq_true', List.isEmpty_eq_false_iff, ih]
    constructor
    · rintro (h | ⟨b, a, rfl, hr⟩)
      · exact ⟨[], c :: t, rfl, h⟩
      · exact ⟨c :: b, a, rfl, by simpa using hr⟩
    · rintro ⟨b, a, hba, hr⟩
      cases b with
      | nil =>
        obtain rfl : a = c :: t := hba.symm
        exact .inl hr
      | cons d b =>
        obtain ⟨rfl, rfl⟩ := List.cons.inj hba
        exact .inr ⟨b, a, rfl, by simpa using hr⟩

theorem found_iff (r : Re) (t : Text) :
    found r t = true ↔ ∃ b a, t = b ++ a ∧ run r ⟨b.reverse, a, []⟩ ≠ [] := by
  rw [found, search, found_iff_from]
  simp

theorem found_lit (n t : Text) : found (lit n) t = true ↔ n <:+: t := by
  simp only [found_iff, run_lit]
  constructor
  · rintro ⟨b, a, rfl, h⟩
    split at h
    · next hp =>
      obtain ⟨c, rfl⟩ := hp
      exact ⟨b, c, by simp⟩
    · exact absurd rfl h
  · rintro ⟨b, c, rfl⟩
    exact ⟨b, n ++ c, by simp, by simp⟩

theorem found_whole (n : Text) (hl : '\n' ∉ l) : found (whole n) l = true ↔ l = n := by
  rw [found_iff]
  constructor
  · rintro ⟨b, a, rfl, h⟩
    cases b with
    | nil =>
      rw [List.reverse_nil, whole, run_bol_of_atLine atLine_nil, run_seq_lit] at h
      split at h
      · rename_i hp
        obtain ⟨v, rfl⟩ := hp
        cases v with
        | nil => simp
        | cons c v =>
          have hc : c ≠ '\n' := fun hc => hl (by simp [hc])
          simp [Pos.move, run, eol, hc] at h
      · exact absurd rfl h
    | cons c b =>
      have hc : (c :: b).reverse.head?.all (· == '\n') = false := by
        cases hrev : (c :: b).reverse with
        | nil => simp at hrev
        | cons d t =>
          have hd : d ≠ '\n' := by
            rintro rfl
            have : '\n' ∈ (c :: b).reverse := by rw [hrev]; exact List.mem_cons_self
            exact hl (List.mem_append_left _ (List.mem_reverse.1 this))
          simp [hd]
      simp only [whole, run, bol, hc] at h
      exact absurd rfl h
  · rintro rfl
    refine ⟨[], l, rfl, ?_⟩
    rw [List.reverse_nil, whole, run_bol_of_atLine atLine_nil, run_seq_lit,
      if_pos List.prefix_rfl]
    simp [Pos.move, run, eol]

theorem found_alt (a b : Re) (t : Text) : found (.alt a b) t = (found a t || found b t) := by
  rw [Bool.eq_iff_iff, Bool.or_eq_true]
  simp only [found_iff, run, ne_eq, List.append_eq_nil_iff, not_and_or, ← exists_or]
  refine exists_congr fun x => exists_congr fun y => ?_
  tauto

theorem found_alts (t : Text) : ∀ (a : Re) (rs : List Re),
    found (alts a rs) t = (found a t || rs.any (found · t))
  | a, [] => by simp [alts]
  | a, b :: rs => by rw [alts, found_alt, found_alts t b rs, List.any_cons]

end Regex

theorem mem_fileLines {t : Text} (h : l ≠ []) : l ∈ fileLines t ↔ l ∈ lines t := by
  unfold fileLines
  split
  · next hl =>
    obtain ⟨ls, hls⟩ := List.getLast?_eq_some_iff.1 hl
    rw [hls, List.dropLast_concat, List.mem_append, List.mem_singleton]
    exact ⟨.inl, fun h' => h'.resolve_right h⟩
  · rfl

theorem unbroken_fileLines (t : Text) : Unbroken (fileLines t) := by
  intro l hl
  by_cases h : l = []
  · rw [h]
    exact List.not_mem_nil
  · exact unbroken_lines t l ((mem_fileLines h).1 hl)

theorem BinaryRule.mem_printable (rule : BinaryRule) {t : Text} (h : l ∈ rule.printable t)
    (hne : l ≠ []) : l ∈ lines t := by
  obtain ⟨h, -⟩ := List.mem_filter.1 h
  split at h
  · have hcut := dropLast_lines_subset (t.takeWhile (· ≠ '\x00')) (t.dropWhile (· ≠ '\x00'))
    rw [List.takeWhile_append_dropWhile] at hcut
    exact hcut (List.mem_of_mem_take h)
  · exact (mem_fileLines hne).1 h

theorem BinaryRule.unbroken_printable (rule : BinaryRule) (t : Text) :
    Unbroken (rule.printable t) := by
  intro l hl
  by_cases h : l = []
  · rw [h]
    exact List.not_mem_nil
  · exact unbroken_lines t l (rule.mem_printable hl h)

theorem BinaryRule.mem_printable_iff {rule : BinaryRule} {t : Text} (hnul : '\x00' ∉ t)
    (htext : ∀ k ∈ lines t, rule.broken k = false) (hne : l ≠ []) :
    l ∈ rule.printable t ↔ l ∈ lines t := by
  refine ⟨fun h => rule.mem_printable h hne, fun h => List.mem_filter.2 ⟨?_, ?_⟩⟩
  · rw [if_neg hnul]
    exact (mem_fileLines hne).2 h
  · rw [htext l h]
    rfl

theorem fileLines_above {ls : List Text} (h : Unbroken ls) : fileLines (above ls) = ls := by
  simp [fileLines, lines_above h]

/-- A text without `c` lies on one side of each `c`. -/
theorem infix_append_sep {α : Type} {c : α} {n a b : List α} (hn : c ∉ n) :
    n <:+: a ++ c :: b ↔ n <:+: a ∨ n <:+: b := by
  constructor
  · rintro ⟨x, y, h⟩
    rw [List.append_assoc] at h
    rcases List.append_eq_append_iff.1 h with ⟨z, rfl, hz⟩ | ⟨z, rfl, hz⟩
    · rcases List.append_eq_append_iff.1 hz with ⟨w, rfl, -⟩ | ⟨w, hw, hy⟩
      · exact .inl ⟨x, w, by simp⟩
      · cases w with
        | nil => exact .inl ⟨x, [], by simp [hw]⟩
        | cons d w =>
          obtain ⟨rfl, -⟩ := List.cons.inj hy
          exact absurd (by simp [hw]) hn
    · cases z with
      | nil =>
        cases n with
        | nil => exact .inl List.nil_infix
        | cons d n =>
          obtain ⟨rfl, -⟩ := List.cons.inj hz
          exact absurd List.mem_cons_self hn
      | cons d z =>
        obtain ⟨rfl, rfl⟩ := List.cons.inj hz
        exact .inr ⟨z, y, by simp⟩
  · rintro (h | h)
    · exact h.trans (List.prefix_append _ _).isInfix
    · exact h.trans ((List.suffix_cons _ _).trans (List.suffix_append _ _)).isInfix

/-- A text without a newline lies in one of the lines, or in what comes after them. -/
theorem infix_above_append (hn : '\n' ∉ n) (t : Text) : ∀ {ls : List Text},
    n <:+: above ls ++ t → (∃ l ∈ ls, n <:+: l) ∨ n <:+: t
  | [], h => .inr h
  | l :: ls, h => by
    rw [above_cons, List.append_assoc, List.cons_append, infix_append_sep hn] at h
    rcases h with h | h
    · exact .inl ⟨l, List.mem_cons_self, h⟩
    · rcases infix_above_append hn t h with ⟨k, hk, hkn⟩ | h
      · exact .inl ⟨k, List.mem_cons_of_mem l hk, hkn⟩
      · exact .inr h

theorem infix_above {ls : List Text} (hl : l ∈ ls) (h : n <:+: l) : n <:+: above ls := by
  obtain ⟨as, bs, rfl⟩ := List.append_of_mem hl
  rw [above_append, above_cons]
  exact h.trans ⟨above as, '\n' :: above bs, by simp⟩

/-- A text without newlines occurs in a file exactly when it occurs in one of its lines. -/
theorem infix_iff_lines (hn : '\n' ∉ n) (t : Text) : n <:+: t ↔ ∃ l ∈ lines t, n <:+: l := by
  generalize hk : t.length = k
  induction k using Nat.strong_induction_on generalizing t with
  | _ k ih =>
    by_cases h : '\n' ∈ t
    · obtain ⟨a, b, rfl, ha⟩ := List.eq_append_cons_of_mem h
      rw [infix_append_sep hn, lines_append_newline ha,
        ih b.length (by rw [← hk]; simp; omega) b rfl]
      simp
    · simp [lines_of_not_mem h]

theorem infix_of_mem_fileLines {t : Text} (h : l ∈ fileLines t) : l <:+: t := by
  by_cases hl : l = []
  · rw [hl]
    exact List.nil_infix
  · exact (infix_iff_lines (unbroken_fileLines t l h) t).2 ⟨l, (mem_fileLines hl).1 h, List.infix_rfl⟩

theorem grep_lit_iff (hn : '\n' ∉ n) (hne : n ≠ []) (t : Text) :
    grep (Regex.lit n) t = true ↔ n <:+: t := by
  rw [grep, List.any_eq_true, infix_iff_lines hn]
  simp only [Regex.found_lit]
  refine exists_congr fun l => and_congr_left fun hl => mem_fileLines ?_
  rintro rfl
  exact hne (List.infix_nil.1 hl)

theorem grep_whole_iff (hne : n ≠ []) (t : Text) : grep (Regex.whole n) t = true ↔ n ∈ lines t := by
  rw [grep, List.any_eq_true, ← mem_fileLines hne]
  constructor
  · rintro ⟨l, hl, hf⟩
    have hbroken : '\n' ∉ l := unbroken_fileLines t l hl
    rwa [← (Regex.found_whole n hbroken).1 hf]
  · intro hn
    exact ⟨n, hn, (Regex.found_whole n (unbroken_fileLines t n hn)).2 rfl⟩

theorem grep_alt (a b : Regex.Re) (t : Text) : grep (.alt a b) t = (grep a t || grep b t) := by
  rw [Bool.eq_iff_iff, Bool.or_eq_true]
  simp only [grep, List.any_eq_true, Regex.found_alt, Bool.or_eq_true]
  constructor
  · rintro ⟨l, hl, h | h⟩
    · exact .inl ⟨l, hl, h⟩
    · exact .inr ⟨l, hl, h⟩
  · rintro (⟨l, hl, h⟩ | ⟨l, hl, h⟩)
    · exact ⟨l, hl, .inl h⟩
    · exact ⟨l, hl, .inr h⟩
