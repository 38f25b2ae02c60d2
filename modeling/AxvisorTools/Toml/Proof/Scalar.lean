import AxvisorTools.Toml.Document
import AxvisorTools.Toml.Proof.Array

/-!
# Scalars of digits

Floats, dates, booleans and the numbers with a sign or a radix all need a character of `scalarSigns`, so
that a scalar without one is an integer of decimal digits (`integer_of_isScalar`).
-/

namespace Toml

/-- A character for every kind of scalar that is more than decimal digits. -/
def scalarSigns : Text := "tfine+-_.:xobE"

variable {t v : Text}

theorem mem_of_hasForm {p : Text} (h : hasForm p t = true) {d : Char} (hd : d ∈ p) (hne : d ≠ '0') :
    d ∈ t := by
  fun_induction hasForm p t with
  | case1 => cases hd
  | case2 p ps c t ih =>
    rw [Bool.and_eq_true] at h
    rcases List.mem_cons.1 hd with rfl | hd
    · rw [if_neg hne, beq_iff_eq] at h
      exact h.1 ▸ List.mem_cons_self
    · exact List.mem_cons_of_mem _ (ih h.2 hd)
  | case3 => cases h

theorem isTime_sign (h : isTime t = true) : ':' ∈ t := by
  rw [isTime, Bool.and_eq_true] at h
  exact List.mem_of_mem_take (mem_of_hasForm h.1 (by decide) (by decide))

theorem isDate_sign (h : isDate t = true) : '-' ∈ t := mem_of_hasForm h (by decide) (by decide)

theorem isDateTime_sign (h : isDateTime t = true) : ':' ∈ t ∨ '-' ∈ t := by
  rw [isDateTime, Bool.or_eq_true, Bool.or_eq_true, Bool.and_eq_true] at h
  rcases h with (h | h) | ⟨h, -⟩
  · exact .inl (isTime_sign h)
  · exact .inr (isDate_sign h)
  · exact .inr (List.mem_of_mem_take (isDate_sign h))

theorem dropSign_of_not_mem (hplus : '+' ∉ t) (hminus : '-' ∉ t) : dropSign t = t := by
  unfold dropSign
  split
  · exact absurd List.mem_cons_self hplus
  · exact absurd List.mem_cons_self hminus
  · rfl

theorem span_of_all {p : Char → Bool} (h : ∀ c ∈ t, p c = true) : t.span p = (t, []) := by
  rw [List.span_eq_takeWhile_dropWhile, List.takeWhile_eq_self_iff.2 h, List.dropWhile_eq_nil_iff.2 h]

theorem isFloat_sign (h : isFloat t = true) : ∃ c ∈ t, c ∈ scalarSigns := by
  by_contra hno
  push Not at hno
  have hnot : ∀ d ∈ scalarSigns, d ∉ t := fun d hd hmem => hno d hmem hd
  have hspan := @span_of_all t (fun c => c != 'e' && c != 'E') (by
    intro c hc
    have he : c ≠ 'e' := fun h => hnot 'e' (by decide) (h ▸ hc)
    have hE : c ≠ 'E' := fun h => hnot 'E' (by decide) (h ▸ hc)
    simp [he, hE])
  have hdot := @span_of_all t (· != '.') (by
    intro c hc
    have : c ≠ '.' := fun h => hnot '.' (by decide) (h ▸ hc)
    simpa using this)
  rw [isFloat, dropSign_of_not_mem (hnot '+' (by decide)) (hnot '-' (by decide))] at h
  simp only [hspan, hdot, Bool.or_eq_true, beq_iff_eq, Bool.and_eq_true] at h
  rcases h with (h | h) | h
  · exact hnot 'i' (by decide) (h ▸ by decide)
  · exact hnot 'n' (by decide) (h ▸ by decide)
  · exact absurd h.2.2 (by decide)

theorem isScalar_plain (hsigns : ∀ c ∈ v, c ∉ scalarSigns) (h : isScalar v = true) :
    (integer v).isSome = true := by
  have hnot : ∀ d ∈ scalarSigns, d ∉ v := fun d hd hmem => hsigns d hmem hd
  rw [isScalar, Bool.or_eq_true, Bool.or_eq_true, Bool.or_eq_true, Bool.or_eq_true, beq_iff_eq,
    beq_iff_eq] at h
  rcases h with (((h | h) | h) | h) | h
  · exact absurd (h ▸ by decide) (hnot 't' (by decide))
  · exact absurd (h ▸ by decide) (hnot 'f' (by decide))
  · exact h
  · obtain ⟨c, hc, hsign⟩ := isFloat_sign h
    exact absurd hsign (hsigns c hc)
  · rcases isDateTime_sign h with h | h
    · exact absurd h (hnot ':' (by decide))
    · exact absurd h (hnot '-' (by decide))

theorem integer_plain (hsigns : ∀ c ∈ v, c ∉ scalarSigns) :
    integer v = (decimal v).map Int.ofNat := by
  have hnot : ∀ d ∈ scalarSigns, d ∉ v := fun d hd hmem => hsigns d hmem hd
  unfold integer
  split
  · exact absurd (by simp) (hnot 'x' (by decide))
  · exact absurd (by simp) (hnot 'o' (by decide))
  · exact absurd (by simp) (hnot 'b' (by decide))
  · exact absurd (by simp) (hnot '+' (by decide))
  · exact absurd (by simp) (hnot '-' (by decide))
  · rfl

theorem digits_of_decimal (hunder : '_' ∉ v) {n : Nat} (h : decimal v = some n) :
    v ≠ [] ∧ (∀ c ∈ v, Py.isDigit 10 c = true) ∧ n = Py.ofDigits 10 0 v := by
  unfold decimal at h
  split at h
  · cases h
    decide
  · cases h
  · unfold digits at h
    split at h
    · rename_i m hdigits
      cases h
      unfold Py.digits at hdigits
      split at hdigits
      · cases hdigits
      · obtain ⟨-, hscan⟩ := Option.ite_none_right_eq_some.1 hdigits
        rw [Py.scanDigits_plain hunder, Option.some.injEq, Prod.mk.injEq] at hscan
        have hall := List.dropWhile_eq_nil_iff.1 hscan.2
        rw [List.takeWhile_eq_self_iff.2 hall] at hscan
        exact ⟨List.cons_ne_nil _ _, hall, hscan.1.symm⟩
    · cases h

/-- **A scalar of digits** and nothing else that scalars have is an integer. -/
theorem integer_of_isScalar (hsigns : ∀ c ∈ v, c ∉ scalarSigns) (h : isScalar v = true) :
    v ≠ [] ∧ (∀ c ∈ v, Py.isDigit 10 c = true) ∧ integer v = some ((Py.ofDigits 10 0 v : Nat) : Int) := by
  obtain ⟨m, hm⟩ := Option.isSome_iff_exists.1 (isScalar_plain hsigns h)
  rw [integer_plain hsigns] at hm ⊢
  obtain ⟨n, hn, -⟩ := Option.map_eq_some_iff.1 hm
  obtain ⟨hne, hall, rfl⟩ := digits_of_decimal (fun hmem => hsigns '_' hmem (by decide)) hn
  exact ⟨hne, hall, by rw [hn]; rfl⟩

end Toml
