import AxvisorTools.Py.Proof.Literal
import AxvisorTools.Py.Str

/-!
# Letter case in integer literals

`int` reads a literal in upper and in lower case alike (`int_toUpper`, `intStr_toUpper`), and a plus sign
changes nothing (`intStr_plus`).
-/

namespace Py

variable {base : Nat} {t : Text} {c : Char}

/-! ## Characters -/

/-- A relation between characters and their upper case is checked on the characters up to `z`. -/
theorem toUpper_rel {P : Char → Char → Prop} (hlow : ∀ n ≤ 122, P (Char.ofNat n) (Char.ofNat n).toUpper)
    (hself : ∀ c : Char, P c c) (c : Char) : P c c.toUpper := by
  by_cases hc : c.toNat ≤ 122
  · have h := hlow c.toNat hc
    rwa [Char.ofNat_toNat] at h
  · have hsame : c.toUpper = c := by
      refine dif_neg fun h => ?_
      have hz : c.toNat ≤ 122 := UInt32.le_iff_toNat_le.1 h.2
      exact hc hz
    rw [hsame]
    exact hself c

theorem digitValue_toUpper (c : Char) : digitValue c.toUpper = digitValue c :=
  toUpper_rel (P := fun c d => digitValue d = digitValue c) (by decide) (fun _ => rfl) c

theorem digit?_toUpper (c : Char) : digit? base c.toUpper = digit? base c := by
  rw [digit?, digit?, digitValue_toUpper]

theorem isSpace_toUpper (c : Char) : isSpace c.toUpper = isSpace c :=
  toUpper_rel (P := fun c d => isSpace d = isSpace c) (by decide) (fun _ => rfl) c

theorem toUpper_isDigit (c : Char) : c.toUpper.isDigit = c.isDigit :=
  toUpper_rel (P := fun c d => d.isDigit = c.isDigit) (by decide) (fun _ => rfl) c

theorem toUpper_eq_iff {d : Char} (hd : d ∈ ['+', '-', '0', '_']) : c.toUpper = d ↔ c = d :=
  toUpper_rel (P := fun c e => ∀ d ∈ ['+', '-', '0', '_'], e = d ↔ c = d) (by decide)
    (fun _ _ _ => .rfl) c d hd

theorem toUpper_letter_iff {l u : Char} (h : (l, u) ∈ [('x', 'X'), ('o', 'O'), ('b', 'B')]) :
    (c.toUpper = l ∨ c.toUpper = u) ↔ (c = l ∨ c = u) :=
  toUpper_rel (P := fun c e => ∀ p ∈ [('x', 'X'), ('o', 'O'), ('b', 'B')],
    (e = p.1 ∨ e = p.2) ↔ (c = p.1 ∨ c = p.2)) (by decide) (fun _ _ _ => .rfl) c (l, u) h

theorem isPrefixLetter_toUpper (c : Char) : isPrefixLetter base c.toUpper = isPrefixLetter base c := by
  rw [Bool.eq_iff_iff]
  simp only [isPrefixLetter, Bool.or_eq_true, Bool.and_eq_true, beq_iff_eq]
  rw [toUpper_letter_iff (by decide), toUpper_letter_iff (by decide), toUpper_letter_iff (by decide)]

/-! ## Literals -/

theorem dropWhile_isSpace_toUpper (t : Text) :
    (t.map Char.toUpper).dropWhile isSpace = (t.dropWhile isSpace).map Char.toUpper := by
  rw [List.dropWhile_map]
  congr 2
  funext c
  exact isSpace_toUpper c

theorem sign_toUpper (t : Text) :
    sign (t.map Char.toUpper) = ((sign t).1, (sign t).2.map Char.toUpper) := by
  cases t with
  | nil => rfl
  | cons c t =>
    by_cases hplus : c = '+'
    · subst hplus
      rfl
    · by_cases hminus : c = '-'
      · subst hminus
        rfl
      · have hplus' : c.toUpper ≠ '+' := mt (toUpper_eq_iff (by decide)).1 hplus
        have hminus' : c.toUpper ≠ '-' := mt (toUpper_eq_iff (by decide)).1 hminus
        simp [sign, hplus, hminus, hplus', hminus']

theorem radix_toUpper (t : Text) : radix (t.map Char.toUpper) = radix t := by
  cases t with
  | nil => rfl
  | cons c t =>
    by_cases hzero : c = '0'
    · subst hzero
      cases t with
      | nil => rfl
      | cons d t =>
        show radix ('0' :: d.toUpper :: t.map Char.toUpper) = radix ('0' :: d :: t)
        simp only [radix, toUpper_letter_iff (List.mem_cons_self ..),
          toUpper_letter_iff (show ('o', 'O') ∈ _ by decide),
          toUpper_letter_iff (show ('b', 'B') ∈ _ by decide)]
    · have hzero' : c.toUpper ≠ '0' := mt (toUpper_eq_iff (by decide)).1 hzero
      simp [radix, hzero, hzero']

theorem dropRadix_toUpper (t : Text) :
    dropRadix base (t.map Char.toUpper) = (dropRadix base t).map Char.toUpper := by
  cases t with
  | nil => rfl
  | cons c t =>
    by_cases hzero : c = '0'
    · subst hzero
      cases t with
      | nil => rfl
      | cons d t =>
        show dropRadix base ('0' :: d.toUpper :: t.map Char.toUpper) =
          (dropRadix base ('0' :: d :: t)).map Char.toUpper
        simp only [dropRadix, isPrefixLetter_toUpper]
        by_cases hletter : isPrefixLetter base d = true
        · rw [if_pos hletter, if_pos hletter]
          cases t with
          | nil => rfl
          | cons e t =>
            by_cases hunder : e = '_'
            · subst hunder
              rfl
            · have hunder' : e.toUpper ≠ '_' := mt (toUpper_eq_iff (by decide)).1 hunder
              simp [hunder, hunder']
        · rw [if_neg hletter, if_neg hletter]
          rfl
    · have hzero' : c.toUpper ≠ '0' := mt (toUpper_eq_iff (by decide)).1 hzero
      simp [dropRadix, hzero, hzero']

theorem scanDigits_toUpper (t : Text) (acc : Nat) (under : Bool) :
    scanDigits base acc under (t.map Char.toUpper) =
      (scanDigits base acc under t).map fun p => (p.1, p.2.map Char.toUpper) := by
  induction t generalizing acc under with
  | nil => cases under <;> rfl
  | cons c t ih =>
    simp only [List.map_cons, scanDigits, toUpper_eq_iff (show '_' ∈ _ by decide), digit?_toUpper]
    by_cases hunder : c = '_'
    · rw [if_pos hunder, if_pos hunder]
      cases under with
      | true => rfl
      | false => exact ih acc true
    · rw [if_neg hunder, if_neg hunder]
      cases digit? base c with
      | some d => exact ih (acc * base + d) false
      | none => cases under <;> rfl

theorem digits_toUpper (t : Text) : digits base (t.map Char.toUpper) =
    (digits base t).map fun p => (p.1, p.2.map Char.toUpper) := by
  cases t with
  | nil => rfl
  | cons c t =>
    simp only [List.map_cons, digits, digit?_toUpper]
    by_cases hdigit : (digit? base c).isSome = true
    · rw [if_pos hdigit, if_pos hdigit]
      exact scanDigits_toUpper (c :: t) 0 false
    · rw [if_neg hdigit, if_neg hdigit]
      rfl

theorem int_toUpper (t : Text) : int 0 (t.map Char.toUpper) = int 0 t := by
  simp only [int, dropWhile_isSpace_toUpper, sign_toUpper, if_true, radix_toUpper, dropRadix_toUpper,
    digits_toUpper]
  cases digits (radix (sign (t.dropWhile isSpace)).2).1
      (dropRadix (radix (sign (t.dropWhile isSpace)).2).1 (sign (t.dropWhile isSpace)).2) with
  | none => rfl
  | some p => simp only [Option.map_some, dropWhile_isSpace_toUpper, List.isEmpty_map]

theorem isOverlong_toUpper (t : Text) : isOverlong 0 (t.map Char.toUpper) = isOverlong 0 t := by
  have hcount : (t.map Char.toUpper).countP Char.isDigit = t.countP Char.isDigit := by
    rw [List.countP_map]
    exact List.countP_congr fun c _ => by rw [Function.comp_apply, toUpper_isDigit]
  simp only [isOverlong, dropWhile_isSpace_toUpper, sign_toUpper, radix_toUpper, hcount]

theorem intStr_toUpper (h : ∀ c ∈ t, c.toNat < 128) : intStr 0 (t.map Char.toUpper) = intStr 0 t := by
  have hascii : (t.map Char.toUpper).map toAscii = (t.map toAscii).map Char.toUpper := by
    rw [List.map_map, List.map_map]
    refine List.map_congr_left fun c hc => ?_
    have hall : ∀ n < 128, toAscii (Char.ofNat n).toUpper = (toAscii (Char.ofNat n)).toUpper := by
      decide
    have hcase := hall c.toNat (h c hc)
    rwa [Char.ofNat_toNat] at hcase
  rw [intStr, intStr, hascii, isOverlong_toUpper, int_toUpper]

/-! ## Signs -/

/-- What holds of the digits up to `z` holds of every digit. -/
theorem of_digitValue {P : Char → Prop}
    (hlow : ∀ n ≤ 122, (digitValue (Char.ofNat n)).isSome = true → P (Char.ofNat n))
    (h : (digitValue c).isSome = true) : P c := by
  have hc : c.toNat ≤ 122 := by
    unfold digitValue at h
    simp only [Char.le_def, UInt32.le_iff_toNat_le] at h
    split at h
    · rename_i hc
      exact hc.2.trans (by decide)
    · split at h
      · rename_i hc
        exact hc.2
      · split at h
        · rename_i hc
          exact hc.2.trans (by decide)
        · cases h
  have hcase := hlow c.toNat hc
  rw [Char.ofNat_toNat] at hcase
  exact hcase h

theorem int_of_intStr {v : Int} (h : intStr 0 t = some v) : int 0 (t.map toAscii) = some v := by
  unfold intStr at h
  split at h
  · cases h
  · exact h

theorem intStr_plus (h : ∀ c ∈ t, (digitValue c).isSome = true) :
    intStr 0 ('+' :: t) = intStr 0 t := by
  have hascii : t.map toAscii = t :=
    (List.map_congr_left fun c hc =>
      of_digitValue (P := fun c => toAscii c = c) (by decide) (h c hc)).trans (List.map_id t)
  have hblank : t.dropWhile isSpace = t := by
    cases t with
    | nil => rfl
    | cons c t =>
      have hc : isSpace c = false :=
        of_digitValue (P := fun c => isSpace c = false) (by decide) (h c List.mem_cons_self)
      rw [List.dropWhile_cons, hc, if_neg (by decide)]
  have hsign : sign t = (1, t) := by
    cases t with
    | nil => rfl
    | cons c t =>
      have hc : c ≠ '+' ∧ c ≠ '-' :=
        of_digitValue (P := fun c => c ≠ '+' ∧ c ≠ '-') (by decide) (h c List.mem_cons_self)
      simp [sign, hc]
  have hsign' : sign ('+' :: t) = (1, t) := rfl
  have hplus : ('+' :: t).dropWhile isSpace = '+' :: t := rfl
  have hcount : ('+' :: t).countP Char.isDigit = t.countP Char.isDigit := rfl
  have hascii' : ('+' :: t).map toAscii = '+' :: t := congrArg ('+' :: ·) hascii
  simp only [intStr, hascii, hascii', isOverlong, int, hplus, hblank, hsign, hsign', hcount]

theorem sign_cases (t : Text) : (∃ w, t = '+' :: w ∧ sign t = (1, w)) ∨
    (∃ w, t = '-' :: w ∧ sign t = (-1, w)) ∨ sign t = (1, t) := by
  unfold sign
  split
  · exact .inl ⟨_, rfl, rfl⟩
  · exact .inr (.inl ⟨_, rfl, rfl⟩)
  · exact .inr (.inr rfl)

theorem intStr_pos {v : Int} (hascii : ∀ c ∈ t, c.toNat < 128) (hspace : ∀ c ∈ t, isSpace c = false)
    (hunder : '_' ∉ t) (hv : intStr 0 t = some v) (hpos : 0 < v) :
    ∃ w, (t = w ∨ t = '+' :: w) ∧ ∀ c ∈ w, (digitValue c).isSome = true := by
  have hint := int_of_intStr hv
  have hsame : t.map toAscii = t := by
    refine (List.map_congr_left fun c hc => ?_).trans (List.map_id t)
    have hread := mem_of_int hint (List.mem_map_of_mem hc)
    -- DEL is the one ASCII character that `int` does not read as it is
    have hall : ∀ n < 128, isLiteralChar (toAscii (Char.ofNat n)) = true ∨
        isSpace (toAscii (Char.ofNat n)) = true → toAscii (Char.ofNat n) = Char.ofNat n := by decide
    have hcase := hall c.toNat (hascii c hc)
    rw [Char.ofNat_toNat] at hcase
    exact hcase hread
  have hblank : t.dropWhile isSpace = t := by
    cases t with
    | nil => rfl
    | cons c t => rw [List.dropWhile_cons, hspace c List.mem_cons_self, if_neg (by decide)]
  rw [hsame] at hint
  obtain ⟨⟨n, hn⟩, hchars⟩ := int_eq_some hint
  rw [hblank] at hn hchars
  have hdigits : ∀ c ∈ (sign t).2, c ∈ t → (digitValue c).isSome = true := by
    intro c hc hmem
    have hne : c ≠ '_' := fun h => hunder (h ▸ hmem)
    rcases hchars c hc with hnum | hblank
    · simpa [isNumeralChar, hne] using hnum
    · rw [hspace c hmem] at hblank
      cases hblank
  rcases sign_cases t with ⟨w, rfl, hsign⟩ | ⟨w, -, hsign⟩ | hsign
  · rw [hsign] at hdigits
    exact ⟨w, .inr rfl, fun c hc => hdigits c hc (List.mem_cons_of_mem _ hc)⟩
  · rw [hsign] at hn
    omega
  · rw [hsign] at hdigits
    exact ⟨t, .inl rfl, fun c hc => hdigits c hc hc⟩

end Py
