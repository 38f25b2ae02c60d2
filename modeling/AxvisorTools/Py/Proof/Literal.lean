import AxvisorTools.Py.Proof.Number

/-!
# Integer literals

A `Numeral` is a number as C and Python both write it: in hexadecimal, or in decimal without a zero in
front. `int_numeral` says what `int(…, 0)` makes of a text that starts with one, and `mem_of_int` which
characters a text may hold that `int` accepts.
-/

namespace Py

variable {base : Nat} {ds lit rest : Text} {t : Text} {c : Char}

/-- A digit in radix `base`. -/
def isDigit (base : Nat) (c : Char) : Bool := (digit? base c).isSome

/-- `lit` is a number with the digits `ds`, which are not empty, in radix `base`. -/
inductive Numeral : Nat → Text → Text → Prop
  | hex {x : Char} {ds : Text} (hx : x = 'x' ∨ x = 'X') (hne : ds ≠ [])
      (hds : ∀ c ∈ ds, isDigit 16 c = true) : Numeral 16 ds ('0' :: x :: ds)
  | dec {ds : Text} (hne : ds ≠ []) (hzero : ds.head? ≠ some '0')
      (hds : ∀ c ∈ ds, isDigit 10 c = true) : Numeral 10 ds ds

theorem Numeral.digits_ne_nil (h : Numeral base ds lit) : ds ≠ [] := by
  cases h with
  | hex _ hne _ => exact hne
  | dec hne _ _ => exact hne

theorem Numeral.isDigit (h : Numeral base ds lit) : ∀ c ∈ ds, isDigit base c = true := by
  cases h with
  | hex _ _ hds => exact hds
  | dec _ _ hds => exact hds

theorem Numeral.base_cases (h : Numeral base ds lit) : base = 10 ∨ base = 16 := by
  cases h with
  | hex _ _ _ => exact .inr rfl
  | dec _ _ _ => exact .inl rfl

/-! ## Reading digits -/

theorem scanDigits_plain {t : Text} (ht : '_' ∉ t) (acc : Nat) :
    scanDigits base acc false t =
      some (ofDigits base acc (t.takeWhile (isDigit base)), t.dropWhile (isDigit base)) := by
  induction t generalizing acc with
  | nil => rfl
  | cons c t ih =>
    have hc : c ≠ '_' := fun h => ht (h ▸ List.mem_cons_self)
    have ht' : '_' ∉ t := fun h => ht (List.mem_cons_of_mem _ h)
    cases hd : digit? base c with
    | none =>
      have hdigit : isDigit base c = false := by rw [isDigit, hd]; rfl
      rw [List.takeWhile_cons, List.dropWhile_cons, hdigit]
      simp [scanDigits, if_neg hc, hd, ofDigits]
    | some d =>
      have hdigit : isDigit base c = true := by rw [isDigit, hd]; rfl
      rw [List.takeWhile_cons, List.dropWhile_cons, hdigit]
      simp only [scanDigits, if_neg hc, hd, ih ht', if_true]
      simp [ofDigits, hd]

theorem underscore_not_digit : isDigit base '_' = false := by
  rw [isDigit, digit?_none (by decide)]
  rfl

theorem digits_plain (hne : ds ≠ []) (hds : ∀ c ∈ ds, isDigit base c = true)
    (hrest : '_' ∉ rest) :
    digits base (ds ++ rest) = some (ofDigits base (ofDigits base 0 ds)
      (rest.takeWhile (isDigit base)), rest.dropWhile (isDigit base)) := by
  have hplain : '_' ∉ ds ++ rest := by
    intro h
    rcases List.mem_append.1 h with h | h
    · exact absurd (hds _ h) (by simp [underscore_not_digit])
    · exact hrest h
  have hscan := @scanDigits_plain base _ hplain 0
  rw [List.takeWhile_append_of_pos hds, List.dropWhile_append_of_pos hds, ofDigits_append] at hscan
  obtain ⟨c, ds, rfl⟩ := List.exists_cons_of_ne_nil hne
  have hc : (digit? base c).isSome = true := hds c List.mem_cons_self
  rw [← hscan, List.cons_append, digits, if_pos hc]

/-! ## Reading a literal -/

/-- What is read after the digits of a number: more digits and blanks. -/
def finish (base n : Nat) (rest : Text) : Option Int :=
  if ((rest.dropWhile (isDigit base)).dropWhile isSpace).isEmpty then
    some (ofDigits base n (rest.takeWhile (isDigit base)) : Nat)
  else none

theorem int_numeral (h : Numeral base ds lit) (hrest : '_' ∉ rest) :
    int 0 (lit ++ rest) = finish base (ofDigits base 0 ds) rest := by
  have hdigits := digits_plain h.digits_ne_nil h.isDigit hrest
  cases h with
  | @hex x ds hx hne hds =>
    have hblank : ('0' :: x :: ds ++ rest).dropWhile isSpace = '0' :: x :: (ds ++ rest) := rfl
    have hradix : radix ('0' :: x :: (ds ++ rest)) = (16, false) := by
      simp [radix, hx]
    have hletter : isPrefixLetter 16 x = true := by
      rcases hx with rfl | rfl <;> rfl
    have hdrop : dropRadix 16 ('0' :: x :: (ds ++ rest)) = ds ++ rest := by
      obtain ⟨c, ds, rfl⟩ := List.exists_cons_of_ne_nil hne
      have hc : c ≠ '_' := by
        rintro rfl
        exact absurd (hds '_' List.mem_cons_self) (by simp [underscore_not_digit])
      rw [dropRadix, if_pos hletter]
      intro t heq
      exact hc (List.cons.inj heq).1
    have hsign : sign ('0' :: x :: (ds ++ rest)) = (1, '0' :: x :: (ds ++ rest)) := rfl
    simp only [int, hblank, hsign, hradix, if_true, hdrop, hdigits, finish]
    simp
  | dec hne hzero hds =>
    obtain ⟨c, ds, rfl⟩ := List.exists_cons_of_ne_nil hne
    have hc : (digit? 10 c).isSome = true := hds c List.mem_cons_self
    obtain ⟨d, hd⟩ := Option.isSome_iff_exists.1 hc
    have hblank : (c :: ds ++ rest).dropWhile isSpace = c :: ds ++ rest := by
      rw [List.cons_append, List.dropWhile_cons, isSpace_digit hd]
      rfl
    have hradix : radix (c :: ds ++ rest) = (10, false) := by
      have hc0 : c ≠ '0' := fun h => hzero (by rw [h]; rfl)
      unfold radix
      split
      · rename_i heq
        exact absurd (List.cons.inj heq).1 hc0
      · rename_i heq
        exact absurd (List.cons.inj heq).1 hc0
      · rfl
    have hdrop : dropRadix 10 (c :: ds ++ rest) = c :: ds ++ rest :=
      dropRadix_digits fun e _ => by simp [isPrefixLetter]
    have hsign : sign (c :: ds ++ rest) = (1, c :: ds ++ rest) := sign_digit hc
    simp only [int, hblank, hsign, hradix, if_true, hdrop, hdigits, finish]
    simp

/-! ## Leading zeros -/

theorem ofDigits_cons (acc : Nat) (c : Char) (t : Text) :
    ofDigits base acc (c :: t) = ofDigits base (acc * base + (digit? base c).getD 0) t := rfl

theorem le_ofDigits (hb : 0 < base) (t : Text) (acc : Nat) : acc ≤ ofDigits base acc t := by
  induction t generalizing acc with
  | nil => exact Nat.le_refl acc
  | cons c t ih =>
    calc acc ≤ acc * base := Nat.le_mul_of_pos_right acc hb
      _ ≤ acc * base + (digit? base c).getD 0 := Nat.le_add_right _ _
      _ ≤ _ := ih _

theorem two_mul_le_ofDigits (hb : 2 ≤ base) (ht : t ≠ []) (acc : Nat) :
    2 * acc ≤ ofDigits base acc t := by
  obtain ⟨c, t, rfl⟩ := List.exists_cons_of_ne_nil ht
  calc 2 * acc ≤ base * acc := Nat.mul_le_mul_right acc hb
    _ = acc * base := Nat.mul_comm _ _
    _ ≤ acc * base + (digit? base c).getD 0 := Nat.le_add_right _ _
    _ ≤ _ := le_ofDigits (by omega) t _

theorem ofDigits_eq_zero (hb : 0 < base) {acc : Nat} :
    ofDigits base acc t = 0 ↔ acc = 0 ∧ ∀ c ∈ t, (digit? base c).getD 0 = 0 := by
  induction t generalizing acc with
  | nil => simp [ofDigits]
  | cons c t ih =>
    rw [ofDigits_cons, ih, List.forall_mem_cons]
    constructor
    · rintro ⟨hacc, ht⟩
      have hmul : acc * base = 0 := by omega
      have hzero : acc = 0 := (Nat.mul_eq_zero.1 hmul).resolve_right (by omega)
      exact ⟨hzero, by omega, ht⟩
    · rintro ⟨hacc, hc, ht⟩
      refine ⟨?_, ht⟩
      rw [hacc, hc, Nat.zero_mul]

theorem decimal_of_octal (h : isDigit 8 c = true) :
    isDigit 10 c = true ∧ digit? 10 c = digit? 8 c := by
  obtain ⟨d, hd⟩ := Option.isSome_iff_exists.1 h
  obtain ⟨hvalue, hlt⟩ := digitValue_of_digit? hd
  have hdec : digit? 10 c = some d := by
    rw [digit?, hvalue]
    exact Option.filter_some_pos (by simp; omega)
  exact ⟨by rw [isDigit, hdec]; rfl, by rw [hdec, hd]⟩

/-- A number with a leading zero is only read if it is zero. -/
theorem int_octal (hds : ∀ e ∈ c :: ds, isDigit 8 e = true)
    (hne : ofDigits 8 0 ('0' :: c :: ds) ≠ 0) (hrest : '_' ∉ rest) :
    int 0 ('0' :: c :: ds ++ rest) = none := by
  have hoctal : ∀ e ∈ '0' :: c :: ds, isDigit 8 e = true := by
    intro e he
    rcases List.mem_cons.1 he with rfl | he
    · decide
    · exact hds e he
  have hdecimal : ofDigits 10 0 ('0' :: c :: ds) ≠ 0 := by
    intro h
    refine hne ((ofDigits_eq_zero (by decide)).2 ⟨rfl, fun e he => ?_⟩)
    rw [← (decimal_of_octal (hoctal e he)).2]
    exact ((ofDigits_eq_zero (by decide)).1 h).2 e he
  have hdigits := @digits_plain 10 _ _ (List.cons_ne_nil _ _)
    (fun e he => (decimal_of_octal (hoctal e he)).1) hrest
  have hc := hds c List.mem_cons_self
  have hradix : radix ('0' :: c :: ds ++ rest) = (10, true) := by
    have hletter : ∀ e, isDigit 8 e = false → c ≠ e := by
      intro e he h
      rw [h, he] at hc
      cases hc
    simp [radix, hletter _ (by decide : isDigit 8 'x' = false),
      hletter _ (by decide : isDigit 8 'X' = false), hletter _ (by decide : isDigit 8 'o' = false),
      hletter _ (by decide : isDigit 8 'O' = false), hletter _ (by decide : isDigit 8 'b' = false),
      hletter _ (by decide : isDigit 8 'B' = false)]
  have hblank : ('0' :: c :: ds ++ rest).dropWhile isSpace = '0' :: c :: ds ++ rest := rfl
  have hsign : sign ('0' :: c :: ds ++ rest) = (1, '0' :: c :: ds ++ rest) := rfl
  have hdrop : dropRadix 10 ('0' :: c :: ds ++ rest) = '0' :: c :: ds ++ rest :=
    dropRadix_digits fun e _ => by simp [isPrefixLetter]
  have hpos : ofDigits 10 (ofDigits 10 0 ('0' :: c :: ds)) (rest.takeWhile (isDigit 10)) ≠ 0 := by
    have := @le_ofDigits 10 (by decide) (rest.takeWhile (isDigit 10))
      (ofDigits 10 0 ('0' :: c :: ds))
    omega
  simp only [int, hblank, hsign, hradix, if_true, hdrop, hdigits]
  rw [if_pos (by simpa using hpos)]

/-! ## The characters of a literal -/

/-- An underscore or a digit of some radix. -/
def isNumeralChar (c : Char) : Bool := c == '_' || (digitValue c).isSome

/-- A sign, an underscore or a digit of some radix. -/
def isLiteralChar (c : Char) : Bool :=
  c == '+' || c == '-' || c == '_' || (digitValue c).isSome

theorem isLiteralChar_of_numeral (h : isNumeralChar c = true) : isLiteralChar c = true := by
  rw [isNumeralChar, Bool.or_eq_true] at h
  simp only [isLiteralChar, Bool.or_eq_true]
  exact h.elim (fun h => .inl (.inr h)) .inr

theorem mem_sign (h : c ∈ t) : isLiteralChar c = true ∨ c ∈ (sign t).2 := by
  unfold sign
  split
  · rcases List.mem_cons.1 h with rfl | h
    · exact .inl rfl
    · exact .inr h
  · rcases List.mem_cons.1 h with rfl | h
    · exact .inl rfl
    · exact .inr h
  · exact .inr h

theorem mem_scanDigits {acc n : Nat} {under : Bool}
    (hscan : scanDigits base acc under t = some (n, rest)) (h : c ∈ t) :
    isNumeralChar c = true ∨ c ∈ rest := by
  induction t generalizing acc under with
  | nil => cases h
  | cons d t ih =>
    rw [scanDigits] at hscan
    split at hscan
    · split at hscan
      · cases hscan
      · rename_i hd _
        rcases List.mem_cons.1 h with h | h
        · left
          rw [h, hd]
          rfl
        · exact ih hscan h
    · split at hscan
      · rename_i e hd
        rcases List.mem_cons.1 h with h | h
        · left
          rw [h, isNumeralChar, (digitValue_of_digit? hd).1]
          simp
        · exact ih hscan h
      · split at hscan
        · cases hscan
        · cases hscan
          exact .inr h

theorem mem_dropRadix (h : c ∈ t) : isNumeralChar c = true ∨ c ∈ dropRadix base t := by
  unfold dropRadix
  split
  · rename_i d t
    split
    · rename_i hd
      have hletter : isNumeralChar d = true := by
        simp only [isPrefixLetter, Bool.or_eq_true, Bool.and_eq_true, beq_iff_eq] at hd
        rcases hd with (⟨-, rfl | rfl⟩ | ⟨-, rfl | rfl⟩) | ⟨-, rfl | rfl⟩ <;> decide
      rcases List.mem_cons.1 h with rfl | h
      · exact .inl (by decide)
      · rcases List.mem_cons.1 h with rfl | h
        · exact .inl hletter
        · split
          · rcases List.mem_cons.1 h with rfl | h
            · exact .inl (by decide)
            · exact .inr h
          · exact .inr h
    · exact .inr h
  · exact .inr h

theorem mem_digits {n : Nat} (hdigits : digits base (dropRadix base t) = some (n, rest)) (h : c ∈ t) :
    isNumeralChar c = true ∨ c ∈ rest := by
  rcases mem_dropRadix h with h | h
  · exact .inl h
  unfold digits at hdigits
  split at hdigits
  · cases hdigits
  · rename_i heq
    rw [heq] at h
    split at hdigits
    · exact mem_scanDigits hdigits h
    · cases hdigits

/-- What `int` has read when it accepts: after the sign only digits, underscores and blanks. -/
theorem int_eq_some {v : Int} (h : int base t = some v) :
    (∃ n : Nat, v = (sign (t.dropWhile isSpace)).1 * n) ∧
      ∀ c ∈ (sign (t.dropWhile isSpace)).2, isNumeralChar c = true ∨ isSpace c = true := by
  simp only [int] at h
  split at h
  · cases h
  · rename_i n rest hdigits
    have hblank : (rest.dropWhile isSpace).isEmpty = true := by
      by_contra hno
      rw [if_neg hno, ite_self] at h
      cases h
    have hall := List.dropWhile_eq_nil_iff.1 (List.isEmpty_iff.1 hblank)
    refine ⟨⟨n, ?_⟩, fun c hc => ?_⟩
    · rw [if_pos hblank, Option.ite_none_left_eq_some] at h
      exact (Option.some.inj h.2).symm
    · exact (mem_digits hdigits hc).imp id (hall c)

theorem mem_of_int {v : Int} (hint : int base t = some v) (h : c ∈ t) :
    isLiteralChar c = true ∨ isSpace c = true := by
  rw [← List.takeWhile_append_dropWhile (p := isSpace) (l := t)] at h
  rcases List.mem_append.1 h with h | h
  · exact .inr (List.mem_takeWhile_imp h)
  rcases mem_sign h with h | h
  · exact .inl h
  · exact ((int_eq_some hint).2 c h).imp isLiteralChar_of_numeral id

end Py
