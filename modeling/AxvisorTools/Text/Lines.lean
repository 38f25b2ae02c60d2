import AxvisorTools.Text.Basic
import Mathlib.Data.List.Infix

/-!
# Lines

`lines` splits a text at its newlines, so that the text is always `unlines` of its lines and a
text that ends in a newline has an empty last line. `unlines_insert` gives the text around one
line of it.
-/

/-- The pieces of a text between its newlines. -/
def lines (t : Text) : List Text := t.splitOn '\n'

/-- The lines, each preceded by a newline. -/
def below (ls : List Text) : Text := ls.flatMap ('\n' :: ·)

/-- The lines, each followed by a newline. -/
def above (ls : List Text) : Text := ls.flatMap (· ++ ['\n'])

/-- The text with the given lines. -/
def unlines : List Text → Text
  | [] => []
  | l :: ls => l ++ below ls

/-- No text of the list has a newline in it. -/
def Unbroken (ls : List Text) : Prop := ∀ l ∈ ls, '\n' ∉ l

instance (ls : List Text) : Decidable (Unbroken ls) := inferInstanceAs (Decidable (∀ l ∈ ls, _))

/-- The first line with a property, with the lines before and after it. -/
def splitAtFirst (p : Text → Bool) : List Text → Option (List Text × Text × List Text)
  | [] => none
  | l :: ls =>
    if p l then some ([], l, ls)
    else (splitAtFirst p ls).map fun (pre, x, post) => (l :: pre, x, post)

@[simp] theorem below_nil : below [] = [] := rfl

@[simp] theorem below_cons (l : Text) (ls : List Text) : below (l :: ls) = '\n' :: l ++ below ls :=
  rfl

@[simp] theorem above_nil : above [] = [] := rfl

@[simp] theorem above_cons (l : Text) (ls : List Text) : above (l :: ls) = l ++ '\n' :: above ls := by
  simp [above]

theorem above_append (ks ls : List Text) : above (ks ++ ls) = above ks ++ above ls := by
  simp [above]

theorem below_append (ks ls : List Text) : below (ks ++ ls) = below ks ++ below ls := by
  simp [below]

theorem newline_above (ls : List Text) : '\n' :: above ls = below ls ++ ['\n'] := by
  induction ls with
  | nil => rfl
  | cons l ls ih => simp [ih]

theorem unlines_insert (l : Text) (post : List Text) :
    ∀ pre : List Text, unlines (pre ++ l :: post) = above pre ++ l ++ below post
  | [] => rfl
  | [k] => by simp [unlines]
  | k :: k' :: pre => by
    have ih := unlines_insert l post (k' :: pre)
    simp only [List.cons_append, unlines, below_cons, above_cons] at ih ⊢
    rw [ih]
    simp

theorem unlines_append (pre : List Text) {ls : List Text} (h : ls ≠ []) :
    unlines (pre ++ ls) = above pre ++ unlines ls := by
  obtain ⟨l, post, rfl⟩ := List.exists_cons_of_ne_nil h
  rw [unlines_insert, unlines, List.append_assoc]

/-- The end of a text of whole lines, from a place in one of them. -/
theorem suffix_above {a b : Text} (hb : b ≠ []) {ls : List Text} (h : above ls = a ++ b) :
    ∃ l ∈ ls, ∃ u v rest, l = u ++ v ∧ b = v ++ '\n' :: rest := by
  induction ls generalizing a with
  | nil => exact absurd (List.append_eq_nil_iff.1 h.symm).2 hb
  | cons k ls ih =>
    rw [above_cons] at h
    rcases List.append_eq_append_iff.1 h with ⟨c, rfl, hc⟩ | ⟨c, hk, hb⟩
    · cases c with
      | nil => exact ⟨k, List.mem_cons_self, k, [], above ls, by simp, hc.symm⟩
      | cons d c =>
        obtain ⟨l, hl, hsplit⟩ := ih (List.cons.inj hc).2
        exact ⟨l, List.mem_cons_of_mem _ hl, hsplit⟩
    · exact ⟨k, List.mem_cons_self, a, c, above ls, hk, hb⟩

theorem unlines_eq_intercalate : ∀ ls : List Text, unlines ls = ['\n'].intercalate ls
  | [] => rfl
  | [l] => by simp [unlines]
  | l :: k :: ls => by
    have ih := unlines_eq_intercalate (k :: ls)
    simp only [unlines, below_cons, List.intercalate_cons_cons] at ih ⊢
    rw [← ih]
    simp

@[simp] theorem unlines_lines (t : Text) : unlines (lines t) = t := by
  rw [unlines_eq_intercalate, lines, List.intercalate_splitOn]

theorem lines_unlines {ls : List Text} (h : Unbroken ls) (hne : ls ≠ []) :
    lines (unlines ls) = ls := by
  rw [unlines_eq_intercalate, lines, List.splitOn_intercalate _ h hne]

theorem lines_ne_nil (t : Text) : lines t ≠ [] := List.splitOn_ne_nil _ _

theorem lines_append_newline {l : Text} (h : '\n' ∉ l) (t : Text) :
    lines (l ++ '\n' :: t) = l :: lines t :=
  List.splitOn_append_cons_self_of_not_mem h t

theorem lines_newline (t : Text) : lines ('\n' :: t) = [] :: lines t :=
  lines_append_newline List.not_mem_nil t

theorem lines_cons {c : Char} {t l : Text} {ls : List Text} (hc : c ≠ '\n') (ht : lines t = l :: ls) :
    lines (c :: t) = (c :: l) :: ls := by
  rw [lines] at ht ⊢
  rw [List.splitOn_cons_eq_if_modifyHead, if_neg (by simpa using hc), ht]
  rfl

theorem lines_of_not_mem {l : Text} (h : '\n' ∉ l) : lines l = [l] := List.splitOn_eq_singleton h

theorem not_mem_of_mem_splitOn {α : Type} [DecidableEq α] {a : α} {t p : List α}
    (h : p ∈ t.splitOn a) : a ∉ p := by
  generalize hn : t.length = n
  induction n using Nat.strong_induction_on generalizing t with
  | _ n ih =>
    by_cases ha : a ∈ t
    · obtain ⟨u, v, rfl, hu⟩ := List.eq_append_cons_of_mem ha
      rw [List.splitOn_append_cons_self_of_not_mem hu, List.mem_cons] at h
      rcases h with rfl | h
      · exact hu
      · exact ih v.length (by rw [← hn]; simp; omega) h rfl
    · rw [List.splitOn_eq_singleton ha, List.mem_singleton] at h
      rw [h]
      exact ha

theorem not_mem_intercalate {c : Char} {sep : Text} (hsep : c ∉ sep) {ts : List Text}
    (h : ∀ t ∈ ts, c ∉ t) : c ∉ sep.intercalate ts := by
  induction ts with
  | nil => simp
  | cons t ts ih =>
    have ht := h t List.mem_cons_self
    have hrest := ih fun u hu => h u (List.mem_cons_of_mem _ hu)
    cases ts with
    | nil => simpa using ht
    | cons u ts => simpa [List.intercalate, ht, hsep] using hrest

theorem unbroken_lines (t : Text) : Unbroken (lines t) := fun _ hl => not_mem_of_mem_splitOn hl

theorem lines_append (a b : Text) : lines (a ++ '\n' :: b) = lines a ++ lines b := by
  obtain ⟨k, ks, hk⟩ := List.exists_cons_of_ne_nil (lines_ne_nil a)
  obtain ⟨l, ls, hl⟩ := List.exists_cons_of_ne_nil (lines_ne_nil b)
  have ha : a = k ++ below ks := by
    rw [← unlines_lines a, hk]
    rfl
  have hb : b = l ++ below ls := by
    rw [← unlines_lines b, hl]
    rfl
  have hunlines : a ++ '\n' :: b = unlines (lines a ++ lines b) := by
    rw [hk, hl, ha, hb]
    simp [unlines, below_append]
  rw [hunlines]
  refine lines_unlines (fun t ht => ?_) (by simp [hk])
  rcases List.mem_append.1 ht with ht | ht
  · exact unbroken_lines a t ht
  · exact unbroken_lines b t ht

theorem splitAtFirst_some {p : Text → Bool} : ∀ {ls pre : List Text} {x : Text} {post : List Text},
    splitAtFirst p ls = some (pre, x, post) →
      ls = pre ++ x :: post ∧ p x = true ∧ ∀ k ∈ pre, p k = false
  | [], _, _, _, h => by simp [splitAtFirst] at h
  | l :: ls, pre, x, post, h => by
    rw [splitAtFirst] at h
    split at h
    · rename_i hl
      cases h
      exact ⟨rfl, hl, by simp⟩
    · rename_i hl
      obtain ⟨⟨pre', x', post'⟩, h', heq⟩ := Option.map_eq_some_iff.1 h
      cases heq
      obtain ⟨rfl, hx, hpre⟩ := splitAtFirst_some h'
      refine ⟨rfl, hx, fun k hk => ?_⟩
      rcases List.mem_cons.1 hk with rfl | hk
      · simpa using hl
      · exact hpre k hk

theorem splitAtFirst_none {p : Text → Bool} {ls : List Text} (h : splitAtFirst p ls = none) :
    ∀ k ∈ ls, p k = false := by
  induction ls with
  | nil => simp
  | cons l ls ih =>
    rw [splitAtFirst] at h
    split at h
    · cases h
    · rename_i hl
      intro k hk
      rcases List.mem_cons.1 hk with rfl | hk
      · simpa using hl
      · exact ih (Option.map_eq_none_iff.1 h) k hk

theorem splitAtFirst_append {p : Text → Bool} {pre post : List Text} {x : Text}
    (hpre : ∀ k ∈ pre, p k = false) (hx : p x = true) :
    splitAtFirst p (pre ++ x :: post) = some (pre, x, post) := by
  induction pre with
  | nil => rw [List.nil_append, splitAtFirst, if_pos hx]
  | cons k pre ih =>
    obtain ⟨hk, hpre⟩ := List.forall_mem_cons.1 hpre
    rw [List.cons_append, splitAtFirst, hk, if_neg Bool.false_ne_true, ih hpre]
    rfl

/-- Where the first line with a property is, with and without another line `x` among the lines. -/
theorem splitAtFirst_skip {p : Text → Bool} {x : Text} (hx : p x = false) (a b : List Text) :
    (splitAtFirst p (a ++ x :: b) = none ∧ splitAtFirst p (a ++ b) = none) ∨
    (∃ pre l post, splitAtFirst p (a ++ x :: b) = some (pre, l, post ++ x :: b) ∧
      splitAtFirst p (a ++ b) = some (pre, l, post ++ b)) ∨
    (∃ pre l post, splitAtFirst p (a ++ x :: b) = some (a ++ x :: pre, l, post) ∧
      splitAtFirst p (a ++ b) = some (a ++ pre, l, post)) := by
  induction a with
  | nil =>
    simp only [List.nil_append, splitAtFirst, hx, Bool.false_eq_true, if_false]
    cases hb : splitAtFirst p b with
    | none => exact .inl ⟨rfl, rfl⟩
    | some r => exact .inr (.inr ⟨r.1, r.2.1, r.2.2, rfl, rfl⟩)
  | cons k a ih =>
    simp only [List.cons_append, splitAtFirst]
    by_cases hk : p k = true
    · rw [if_pos hk, if_pos hk]
      exact .inr (.inl ⟨[], k, a, rfl, rfl⟩)
    · rw [if_neg hk, if_neg hk]
      rcases ih with ⟨hwith, hwithout⟩ | ⟨pre, l, post, hwith, hwithout⟩ |
        ⟨pre, l, post, hwith, hwithout⟩
      · exact .inl ⟨by rw [hwith]; rfl, by rw [hwithout]; rfl⟩
      · exact .inr (.inl ⟨k :: pre, l, post, by rw [hwith]; rfl, by rw [hwithout]; rfl⟩)
      · exact .inr (.inr ⟨pre, l, post, by rw [hwith]; rfl, by rw [hwithout]; rfl⟩)

theorem lines_at_eol {a y : Text} (hy : y.head?.all (· == '\n') = true) :
    ∃ post, lines (a ++ y) = lines a ++ post ∧
      ∀ l, '\n' ∉ l → lines (a ++ '\n' :: (l ++ y)) = lines a ++ l :: post := by
  cases y with
  | nil =>
    refine ⟨[], by simp, fun l hl => ?_⟩
    rw [List.append_nil, lines_append, lines_of_not_mem hl]
  | cons c y =>
    obtain rfl : c = '\n' := by simpa using hy
    refine ⟨lines y, lines_append a y, fun l hl => ?_⟩
    rw [lines_append, lines_append_newline hl]

theorem lines_above_append {ls : List Text} (h : Unbroken ls) (t : Text) :
    lines (above ls ++ t) = ls ++ lines t := by
  induction ls with
  | nil => rfl
  | cons l ls ih =>
    rw [above_cons, List.append_assoc, List.cons_append,
      lines_append_newline (h l List.mem_cons_self), ih fun k hk => h k (List.mem_cons_of_mem _ hk)]
    rfl

theorem lines_above {ls : List Text} (h : Unbroken ls) : lines (above ls) = ls ++ [[]] := by
  have hlines := lines_above_append h []
  rwa [List.append_nil] at hlines

theorem lines_above_last {ls : List Text} {l : Text} (h : Unbroken ls) (hl : '\n' ∉ l) :
    lines (above ls ++ l) = ls ++ [l] := by
  rw [lines_above_append h, lines_of_not_mem hl]

theorem exists_above (t : Text) : ∃ ls l, Unbroken ls ∧ '\n' ∉ l ∧ t = above ls ++ l := by
  obtain ⟨ls, l, hl⟩ := List.eq_nil_or_concat (lines t) |>.resolve_left (lines_ne_nil t)
  rw [List.concat_eq_append] at hl
  have hu := unbroken_lines t
  rw [hl] at hu
  refine ⟨ls, l, fun k hk => hu k (List.mem_append_left _ hk), hu l (by simp), ?_⟩
  rw [← unlines_lines t, hl, unlines_insert l [] ls, below_nil, List.append_nil]

theorem dropLast_lines_subset (a b : Text) : (lines a).dropLast ⊆ lines (a ++ b) := by
  obtain ⟨ls, l, hls, hl, rfl⟩ := exists_above a
  rw [lines_above_last hls hl, List.dropLast_concat, List.append_assoc, lines_above_append hls]
  exact List.subset_append_left _ _
