import AxvisorTools.Text.Basic
import Mathlib.Data.List.Infix

/-!
# Decimal numbers inside a text

A number in a text ends where the digits end. `toDigits_append_inj`: the number and what follows it
are determined by the text. `prefix_toDigits_append`: a search that does not look at what follows its
digits compares them with the first digits of the number only.
-/

/-- The text does not go on with a digit. -/
def NoDigit (t : Text) : Prop := ∀ c ∈ t.head?, c.isDigit = false

instance (t : Text) : Decidable (NoDigit t) :=
  match t with
  | [] => .isTrue (by simp [NoDigit])
  | c :: _ => decidable_of_iff (c.isDigit = false) (by simp [NoDigit])

theorem isDigit_of_mem_toDigits {n : Nat} {c : Char} (h : c ∈ Nat.toDigits 10 n) :
    c.isDigit = true := Nat.isDigit_of_mem_toDigits (by decide) (by decide) h

theorem toDigits_injective {m n : Nat} (h : Nat.toDigits 10 m = Nat.toDigits 10 n) : m = n := by
  have hc := congrArg (fun t => Nat.ofDigitChars 10 t 0) h
  simpa only [Nat.ofDigitChars_ten_toDigits] using hc

/-- Digits at the start of a number with something else after it are digits of the number. -/
theorem prefix_toDigits_append {ds c : Text} {n : Nat} (hds : ∀ x ∈ ds, x.isDigit = true)
    (hc : NoDigit c) : ds <+: Nat.toDigits 10 n ++ c ↔ ds <+: Nat.toDigits 10 n := by
  refine ⟨fun ⟨e, h⟩ => ?_, fun h => h.trans (List.prefix_append _ _)⟩
  rcases List.append_eq_append_iff.1 h with ⟨u, hu, -⟩ | ⟨u, rfl, rfl⟩
  · exact ⟨u, hu.symm⟩
  · cases u with
    | nil => simp
    | cons x u => exact absurd (hds x (by simp)) (by simp [hc x rfl])

theorem toDigits_append_inj {m n : Nat} {c d : Text} (hc : NoDigit c) (hd : NoDigit d)
    (h : Nat.toDigits 10 m ++ c = Nat.toDigits 10 n ++ d) : m = n ∧ c = d := by
  have hmn : Nat.toDigits 10 m <+: Nat.toDigits 10 n :=
    (prefix_toDigits_append (fun _ => isDigit_of_mem_toDigits) hd).1 ⟨c, h⟩
  have hnm : Nat.toDigits 10 n <+: Nat.toDigits 10 m :=
    (prefix_toDigits_append (fun _ => isDigit_of_mem_toDigits) hc).1 ⟨d, h.symm⟩
  have hdigits := hmn.eq_of_length_le hnm.length_le
  refine ⟨toDigits_injective hdigits, ?_⟩
  rw [hdigits] at h
  exact List.append_cancel_left h
