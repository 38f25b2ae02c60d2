import AxvisorTools.Py.Bytes
import AxvisorTools.Py.Int

/-!
# Facts about the Python operations

`slice_append`: a slice between the ends of a part of a concatenation is that part.
`int_digits`: a literal of digits only, with no prefix letter, reads as their number.
`decodeReplace_ascii`: ASCII bytes decode to their characters.
-/

namespace Py

variable {c : Char} {base : Nat}

/-! ## Slices -/

theorem clamp_of_le {len n : Nat} (h : n ≤ len) : clamp len (n : Int) = n := by
  unfold clamp
  rw [if_neg (by omega)]
  omega

theorem slice_eq {α : Type} {l : List α} {a b : Nat} (ha : a ≤ l.length) (hb : b ≤ l.length) :
    slice l (a : Int) (b : Int) = (l.drop a).take (b - a) := by
  rw [slice, clamp_of_le ha, clamp_of_le hb]

theorem slice_append {α : Type} {l p m q : List α} {a b : Int} (hl : l = p ++ m ++ q)
    (ha : a = p.length) (hb : b = a + m.length) : slice l a b = m := by
  subst hl ha
  rw [hb, ← Int.natCast_add, slice_eq (by simp only [List.length_append]; omega)
    (by simp only [List.length_append]; omega)]
  simp

/-! ## Integer literals -/

theorem le_of_digitValue {d : Nat} (h : digitValue c = some d) : 48 ≤ c.toNat := by
  unfold digitValue at h
  simp only [Char.le_def, UInt32.le_iff_toNat_le] at h
  split at h
  · rename_i hc; exact hc.1
  · split at h
    · rename_i hc
      have : 97 ≤ c.toNat := hc.1
      omega
    · split at h
      · rename_i hc
        have : 65 ≤ c.toNat := hc.1
        omega
      · cases h

theorem digitValue_of_digit? {d : Nat} (h : digit? base c = some d) :
    digitValue c = some d ∧ d < base := by
  unfold digit? at h
  rw [Option.filter_eq_some_iff] at h
  exact ⟨h.1, by simpa using h.2⟩

theorem isSpace_digit {d : Nat} (h : digit? base c = some d) : isSpace c = false := by
  have hc := le_of_digitValue (digitValue_of_digit? h).1
  simp only [isSpace, Bool.or_eq_false_iff, beq_eq_false_iff_ne, Bool.and_eq_false_iff,
    decide_eq_false_iff_not]
  refine ⟨?_, by omega⟩
  rintro rfl
  exact absurd hc (by decide)

theorem digit?_none (h : digitValue c = none) : digit? base c = none := by
  simp [digit?, h]

theorem digit_ne {c' : Char} (h : (digit? base c).isSome) (h' : digit? base c' = none) :
    c ≠ c' := by
  rintro rfl
  rw [h'] at h
  cases h

theorem equals_ne_digit (h : (digit? base c).isSome = true) : c ≠ '=' :=
  digit_ne h (digit?_none (by decide))

theorem scanDigits_all : ∀ (t : Text) (acc : Nat),
    (∀ c ∈ t, (digit? base c).isSome) → scanDigits base acc false t = some (ofDigits base acc t, [])
  | [], acc, _ => rfl
  | c :: t, acc, h => by
    have hu : c ≠ '_' := digit_ne (h c List.mem_cons_self) (digit?_none (by decide))
    obtain ⟨d, hd⟩ := Option.isSome_iff_exists.1 (h c List.mem_cons_self)
    simp only [scanDigits, if_neg hu, hd]
    rw [scanDigits_all t _ fun c hc => h c (List.mem_cons_of_mem _ hc)]
    simp only [ofDigits, List.foldl_cons, hd, Option.getD_some]

theorem sign_digit {t : Text} (h : (digit? base c).isSome) : sign (c :: t) = (1, c :: t) := by
  unfold sign
  split
  · rename_i heq
    exact absurd (List.cons.inj heq).1 (digit_ne h (digit?_none (by decide)))
  · rename_i heq
    exact absurd (List.cons.inj heq).1 (digit_ne h (digit?_none (by decide)))
  · rfl

theorem dropRadix_digits {t : Text} (h : ∀ c ∈ t, isPrefixLetter base c = false) :
    dropRadix base t = t := by
  unfold dropRadix
  split
  · rename_i c t'
    rw [h c (by simp)]
    rfl
  · rfl

theorem int_digits (hb : base ≠ 0) {t : Text} (hne : t ≠ []) (hd : ∀ c ∈ t, (digit? base c).isSome)
    (hp : ∀ c ∈ t, isPrefixLetter base c = false) : int base t = some (ofDigits base 0 t) := by
  obtain ⟨c, t, rfl⟩ := List.exists_cons_of_ne_nil hne
  have hc := hd c List.mem_cons_self
  have hsp : (c :: t).dropWhile isSpace = c :: t := by
    obtain ⟨d, hd⟩ := Option.isSome_iff_exists.1 hc
    rw [List.dropWhile_cons, isSpace_digit hd]
    rfl
  unfold int
  rw [hsp, sign_digit hc]
  simp only [if_neg hb, dropRadix_digits hp, digits, if_pos hc, scanDigits_all _ _ hd]
  simp

/-! ## Decoding -/

theorem decodeReplace_ascii : ∀ (l : Bytes), (∀ b ∈ l, b < 0x80) →
    decodeReplace l = l.map fun b => Char.ofNat b.toNat
  | [], _ => rfl
  | b :: l, h => by
    have hb : seqLen b = 1 := by
      unfold seqLen
      rw [if_pos (h b List.mem_cons_self)]
    rw [decodeReplace.eq_def]
    simp only [hb, List.map_cons]
    rw [decodeReplace_ascii l fun c hc => h c (List.mem_cons_of_mem _ hc)]

end Py
