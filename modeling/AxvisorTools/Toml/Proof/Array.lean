import AxvisorTools.Py.Proof.Literal
import AxvisorTools.Toml.Array
import AxvisorTools.Toml.Proof.Edit

/-!
# Arrays of integers

`valueFrom_append` and `continued_cons` go through the lines before and inside a value, `firstRow_eq`
reads the first row of an array whose opening is blank but for comments, and `integer_hex` an integer in
hexadecimal.
-/

namespace Toml

variable {s : State}

/-! ## Values over several lines -/

theorem valueFrom_append {table : List Text} {key : Text} {ks : List Text}
    (h : ∀ r ∈ readLines s ks, ¬ (r.table = table ∧ r.role.isPair key)) (ls : List Text) :
    valueFrom table key s (ks ++ ls) = valueFrom table key (s.after ks) ls := by
  induction ks generalizing s with
  | nil => rfl
  | cons k ks ih =>
    have hk := h ⟨s.table, k, (readLine s k).1⟩ List.mem_cons_self
    rw [List.cons_append, valueFrom, if_neg hk, after_cons]
    exact ih fun r hr => h r (List.mem_cons_of_mem _ hr)

theorem continued_cons (hs : s.nest ≠ []) (l : Text) (ls : List Text) :
    continued s (l :: ls) = l :: continued (readLine s l).2 ls := by
  rw [continued, if_neg hs]

theorem continued_append (hs : s.nest ≠ []) {ks : List Text} (h : ∀ k ∈ ks, (readLine s k).2 = s)
    (ls : List Text) : continued s (ks ++ ls) = ks ++ continued s ls := by
  induction ks with
  | nil => rfl
  | cons k ks ih =>
    rw [List.cons_append, continued_cons hs, h k List.mem_cons_self,
      ih fun l hl => h l (List.mem_cons_of_mem _ hl)]
    rfl

/-! ## Lines without strings -/

theorem chomp_of_not_mem {l : Text} (h : '\r' ∉ l) : chomp l = l :=
  if_neg fun hlast => h (List.mem_of_getLast? hlast)

theorem readLine_inside (hs : s.nest ≠ []) {l : Text} (hl : '\r' ∉ l) {nest : List Bracket}
    (h : scan .plain s.nest l = some nest) : readLine s l = (.inside, { s with nest }) := by
  rw [readLine, if_pos hs, chomp_of_not_mem hl, h]

theorem readValue_plain {c : Char} (hblank : isBlank c = false) (hhash : c ≠ '#') (hquote : c ≠ '"')
    (hsingle : c ≠ '\'') (t : Text) :
    readValue (' ' :: c :: t) = (scan .plain [] (c :: t)).map fun nest => (.other, nest) := by
  have hskip : skipBlanks (' ' :: c :: t) = c :: t := skipBlanks_cons hblank t
  unfold readValue
  rw [hskip]
  split
  · rename_i heq
    cases heq
  · rename_i heq
    exact absurd (List.cons.inj heq).1 hhash
  · rename_i heq
    exact absurd (List.cons.inj heq).1 hquote
  · rename_i heq
    exact absurd (List.cons.inj heq).1 hsingle
  · rfl

/-- A character that means nothing outside a string. -/
def isInert (c : Char) : Bool := c ∉ ['#', '"', '\'', '[', '{', ']', '}', '=']

theorem scan_inert {t : Text} (h : ∀ c ∈ t, isInert c = true) (nest : List Bracket) (r : Text) :
    scan .plain nest (t ++ r) = scan .plain nest r := by
  induction t with
  | nil => rfl
  | cons c t ih =>
    have hc := h c List.mem_cons_self
    simp only [isInert, decide_eq_true_eq, List.mem_cons, List.not_mem_nil, or_false, not_or] at hc
    obtain ⟨h₁, h₂, h₃, h₄, h₅, h₆, h₇, h₈⟩ := hc
    rw [List.cons_append, scan]
    simp only [h₁, h₂, h₃, h₄, h₅, h₆, h₇, h₈, if_false]
    exact ih fun e he => h e (List.mem_cons_of_mem _ he)

theorem scan_inert_end {t : Text} (h : ∀ c ∈ t, isInert c = true) : scan .plain [] t = some [] := by
  rw [← List.append_nil t, scan_inert h]
  rfl

theorem scan_open (nest : List Bracket) (r : Text) :
    scan .plain nest ('[' :: r) = scan .plain (.square :: nest) r := rfl

theorem scan_close (nest : List Bracket) (r : Text) :
    scan .plain (.square :: nest) (']' :: r) = scan .plain nest r := rfl

/-! ## Rows -/

/-- Whether a text is blanks and comments up to its end; then, whether it ends inside a comment. -/
def skipped : Bool → Text → Option Bool
  | comment, [] => some comment
  | true, c :: t => skipped (c != '\n') t
  | false, c :: t =>
    if c = '#' then skipped true t
    else if isBlank c ∨ c = '\n' ∨ c = '\r' then skipped false t
    else none

theorem skip_append {comment comment' : Bool} {t : Text} (h : skipped comment t = some comment')
    (r : Text) : skip comment (t ++ r) = skip comment' r := by
  induction t generalizing comment with
  | nil =>
    cases h
    rfl
  | cons c t ih =>
    cases comment with
    | true => exact ih h
    | false =>
      rw [skipped] at h
      rw [List.cons_append, skip]
      split at h
      · rename_i hc
        rw [if_pos hc]
        exact ih h
      · rename_i hc
        rw [if_neg hc]
        split at h
        · rename_i hblank
          rw [if_pos hblank]
          exact ih h
        · cases h

theorem firstRow_eq {before between inner rest : Text} (hbefore : skipped false before = some false)
    (hbetween : skipped false between = some false) (hinner : ']' ∉ inner) :
    firstRow (before ++ '[' :: (between ++ '[' :: (inner ++ ']' :: rest))) = row inner := by
  have hmem : ']' ∈ inner ++ ']' :: rest := by simp
  have htake : (inner ++ ']' :: rest).takeWhile (· ≠ ']') = inner := by
    rw [List.takeWhile_append_of_pos]
    · simp
    · intro c hc
      simpa using fun h : c = ']' => hinner (h ▸ hc)
  have hopen : ∀ t, skip false ('[' :: t) = '[' :: t := fun t => rfl
  simp only [firstRow, skip_append hbefore, skip_append hbetween, hopen, if_pos hmem, htake]

theorem row_cons {x rest : Text} (hx : ',' ∉ x) :
    row (x ++ ',' :: rest) = (integer (((skipBlanks x).reverse.dropWhile isBlank).reverse)).bind
      fun n => (row rest).map (n :: ·) := by
  rw [row, List.splitOn_append_cons_self_of_not_mem hx, List.mapM_cons]
  cases integer (((skipBlanks x).reverse.dropWhile isBlank).reverse) with
  | none => rfl
  | some n =>
    change (row rest >>= fun ns => some (n :: ns)) = _
    cases row rest <;> rfl

/-! ## Integers -/

theorem digits_eq {base : Nat} {t : Text} (hne : t ≠ []) (h : ∀ c ∈ t, (Py.digit? base c).isSome) :
    digits base t = some (Py.ofDigits base 0 t) := by
  obtain ⟨c, t, rfl⟩ := List.exists_cons_of_ne_nil hne
  rw [digits, Py.digits, if_pos (h c List.mem_cons_self), Py.scanDigits_all _ _ h]

/-- A hexadecimal number as Python formats it; a negative one is no integer of TOML. -/
theorem integer_hex (width : Nat) (n : Int) :
    integer ('0' :: 'x' :: Py.formatHex width n) = if 0 ≤ n then some n else none := by
  change (digits 16 (Py.formatHex width n)).map Int.ofNat = _
  by_cases hn : 0 ≤ n
  · obtain ⟨m, rfl⟩ := Int.eq_ofNat_of_zero_le hn
    rw [Py.formatHex_natCast, digits_eq (Py.leftpad_ne_nil _ _) (Py.hexDigit_of_mem_leftpad _ _),
      Py.ofDigits_leftpad (by decide) (by decide), if_pos hn]
    rfl
  · have hminus : ∀ t, digits 16 ('-' :: t) = none := fun t => rfl
    rw [if_neg hn, Py.formatHex, if_pos (by omega), hminus]
    rfl

theorem trim_eq {x y : Text} (hx : skipBlanks x = y) (hy : ∀ c ∈ y, isBlank c = false) :
    ((skipBlanks x).reverse.dropWhile isBlank).reverse = y := by
  have hdrop : y.reverse.dropWhile isBlank = y.reverse := by
    cases hr : y.reverse with
    | nil => rfl
    | cons c t =>
      have hc : c ∈ y := List.mem_reverse.1 (hr ▸ List.mem_cons_self)
      rw [List.dropWhile_cons, hy c hc]
      rfl
  rw [hx, hdrop, List.reverse_reverse]

end Toml
