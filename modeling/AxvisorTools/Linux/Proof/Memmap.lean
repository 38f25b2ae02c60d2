import AxvisorTools.Linux.Memmap
import AxvisorTools.Py.Proof.Literal
import Mathlib.Data.Set.Basic

/-!
# Numbers on the kernel command line

`strtoull` reads a `Numeral` as `int` does, but for its carry (`strtoull_numeral`). Every other number
but zero that it reads has a leading zero and is octal (`strtoull_cases`), which `int` rejects.
-/

namespace Linux

open Py

variable {base : Nat} {ds lit rest t : Text} {r : Range}

theorem parseInteger_mod (base acc : Nat) (t : Text) :
    parseInteger base (acc % 2 ^ 64) t =
      (ofDigits base acc (t.takeWhile (isDigit base)) % 2 ^ 64, t.dropWhile (isDigit base)) := by
  induction t generalizing acc with
  | nil => rfl
  | cons c t ih =>
    cases hd : digit? base c with
    | none =>
      have hdigit : isDigit base c = false := by rw [isDigit, hd]; rfl
      rw [List.takeWhile_cons, List.dropWhile_cons, hdigit]
      simp [parseInteger, hd, ofDigits]
    | some d =>
      have hdigit : isDigit base c = true := by rw [isDigit, hd]; rfl
      have hcarry : (acc % 2 ^ 64 * base + d) % 2 ^ 64 = (acc * base + d) % 2 ^ 64 := by
        simp [Nat.add_mod, Nat.mul_mod]
      rw [List.takeWhile_cons, List.dropWhile_cons, hdigit, if_pos rfl, if_pos rfl, ofDigits_cons, hd,
        Option.getD_some, ← ih]
      simp only [parseInteger, hd, hcarry]

theorem strtoull_eq {ds' : Text} (hradix : radix t = (base, ds')) :
    strtoull t = (ofDigits base 0 (ds'.takeWhile (isDigit base)) % 2 ^ 64,
      ds'.dropWhile (isDigit base)) := by
  rw [strtoull, hradix]
  exact parseInteger_mod base 0 ds'

theorem radix_numeral (h : Numeral base ds lit) (rest : Text) :
    radix (lit ++ rest) = (base, ds ++ rest) := by
  cases h with
  | @hex x ds hx hne hds =>
    obtain ⟨c, ds, rfl⟩ := List.exists_cons_of_ne_nil hne
    have hc : (digit? 16 c).isSome = true := hds c List.mem_cons_self
    simp [radix, hx, hc]
  | dec hne hzero hds =>
    obtain ⟨c, ds, rfl⟩ := List.exists_cons_of_ne_nil hne
    have hc : c ≠ '0' := fun h => hzero (by rw [h]; rfl)
    unfold radix
    split
    · rename_i heq
      exact absurd (List.cons.inj heq).1 hc
    · rename_i heq
      exact absurd (List.cons.inj heq).1 hc
    · rfl

theorem takeWhile_digits (hds : ∀ c ∈ ds, isDigit base c = true)
    (hrest : ∀ c ∈ rest.head?, isDigit base c = false) :
    (ds ++ rest).takeWhile (isDigit base) = ds ∧ (ds ++ rest).dropWhile (isDigit base) = rest := by
  rw [List.takeWhile_append_of_pos hds, List.dropWhile_append_of_pos hds]
  cases rest with
  | nil => simp
  | cons c rest =>
    rw [List.takeWhile_cons, List.dropWhile_cons, hrest c rfl]
    simp

theorem strtoull_numeral (h : Numeral base ds lit)
    (hrest : ∀ c ∈ rest.head?, isDigit base c = false) :
    strtoull (lit ++ rest) = (ofDigits base 0 ds % 2 ^ 64, rest) := by
  obtain ⟨htake, hdrop⟩ := takeWhile_digits h.isDigit hrest
  rw [strtoull_eq (radix_numeral h rest), htake, hdrop]

theorem radix_cases (t : Text) :
    (∃ x c r, t = '0' :: x :: c :: r ∧ (x = 'x' ∨ x = 'X') ∧ isDigit 16 c = true ∧
      radix t = (16, c :: r)) ∨
    (∃ r, t = '0' :: r ∧ radix t = (8, '0' :: r)) ∨ (t.head? ≠ some '0' ∧ radix t = (10, t)) := by
  unfold radix
  split
  · rename_i x c r
    by_cases hx : (x = 'x' ∨ x = 'X') ∧ (digit? 16 c).isSome
    · exact .inl ⟨x, c, r, rfl, hx.1, hx.2, if_pos hx⟩
    · exact .inr (.inl ⟨x :: c :: r, rfl, if_neg hx⟩)
  · rename_i r _
    exact .inr (.inl ⟨r, rfl, rfl⟩)
  · rename_i hno
    refine .inr (.inr ⟨fun h => ?_, rfl⟩)
    obtain ⟨r, hr⟩ := List.head?_eq_some_iff.1 h
    exact hno r hr

theorem dropWhile_head (p : Char → Bool) (t : Text) : ∀ c ∈ (t.dropWhile p).head?, p c = false := by
  intro c hc
  have hne : t.dropWhile p ≠ [] := by
    intro h
    rw [h] at hc
    cases hc
  have hnot := List.head_dropWhile_not p hne
  rw [List.head?_eq_some_head hne] at hc
  cases hc
  exact hnot

theorem strtoull_cases (h : (strtoull t).1 ≠ 0) :
    (∃ base ds lit, Numeral base ds lit ∧ t = lit ++ (strtoull t).2 ∧
      (strtoull t).1 = ofDigits base 0 ds % 2 ^ 64 ∧
      ∀ c ∈ (strtoull t).2.head?, isDigit base c = false) ∨
    ∃ c ds, (∀ e ∈ c :: ds, isDigit 8 e = true) ∧ ofDigits 8 0 ('0' :: c :: ds) ≠ 0 ∧
      t = '0' :: c :: ds ++ (strtoull t).2 := by
  have hdigits : ∀ base (r : Text), ∀ e ∈ r.takeWhile (isDigit base), isDigit base e = true :=
    fun base r e he => List.mem_takeWhile_imp he
  rcases radix_cases t with ⟨x, c, r, ht, hx, hc, hradix⟩ | ⟨r, ht, hradix⟩ | ⟨hzero, hradix⟩
  · rw [strtoull_eq hradix]
    refine .inl ⟨16, (c :: r).takeWhile (isDigit 16), _, .hex hx ?_ (hdigits 16 _), ?_, rfl,
      dropWhile_head _ _⟩
    · rw [List.takeWhile_cons, if_pos hc]
      exact List.cons_ne_nil _ _
    · rw [List.cons_append, List.cons_append, List.takeWhile_append_dropWhile]
      exact ht
  · rw [strtoull_eq hradix] at h ⊢
    have htake : ('0' :: r).takeWhile (isDigit 8) = '0' :: r.takeWhile (isDigit 8) := rfl
    have hdrop : ('0' :: r).dropWhile (isDigit 8) = r.dropWhile (isDigit 8) := rfl
    rw [htake] at h
    rw [hdrop]
    right
    cases hr : r.takeWhile (isDigit 8) with
    | nil =>
      rw [hr] at h
      exact absurd rfl h
    | cons c ds =>
      rw [hr] at h
      refine ⟨c, ds, hr ▸ hdigits 8 r, fun hno => h ?_, ?_⟩
      · simp [hno]
      · rw [List.cons_append, ← hr, List.takeWhile_append_dropWhile]
        exact ht
  · rw [strtoull_eq hradix] at h ⊢
    refine .inl ⟨10, t.takeWhile (isDigit 10), _, .dec ?_ ?_ (hdigits 10 _), ?_, rfl,
      dropWhile_head _ _⟩
    · intro hno
      rw [hno] at h
      exact absurd rfl h
    · intro hno
      obtain ⟨r, hr⟩ := List.head?_eq_some_iff.1 hno
      have hpre := List.takeWhile_prefix (p := isDigit 10) (l := t)
      rw [hr] at hpre
      obtain ⟨r', rfl⟩ := hpre
      exact hzero rfl
    · exact List.takeWhile_append_dropWhile.symm

/-! ## Letters -/

/-- At most one letter, which stands for the power `k` of two. -/
inductive Suffix : Text → Nat → Prop
  | none : Suffix [] 0
  | letter {c : Char} {k : Nat} (h : suffixShift c = some k) : Suffix [c] k

theorem shifted_cases (n : Nat) (t : Text) :
    ∃ suffix k, Suffix suffix k ∧ t = suffix ++ (shifted (n % 2 ^ 64) t).2 ∧
      (shifted (n % 2 ^ 64) t).1 = n * 2 ^ k % 2 ^ 64 := by
  cases t with
  | nil => exact ⟨[], 0, .none, rfl, by simp [shifted]⟩
  | cons c t =>
    cases hc : suffixShift c with
    | none => exact ⟨[], 0, .none, by simp [shifted, hc], by simp [shifted, hc]⟩
    | some k =>
      refine ⟨[c], k, .letter hc, by simp [shifted, hc], ?_⟩
      simp only [shifted, hc, Nat.mod_mul_mod]

theorem shifted_suffix {suffix : Text} {k : Nat} (hs : Suffix suffix k) (n : Nat)
    (hrest : ∀ c ∈ rest.head?, suffixShift c = none) :
    shifted (n % 2 ^ 64) (suffix ++ rest) = (n * 2 ^ k % 2 ^ 64, rest) := by
  cases hs with
  | none =>
    cases rest with
    | nil => simp [shifted]
    | cons c rest => simp [shifted, hrest c rfl]
  | letter h => simp [shifted, h, Nat.mod_mul_mod]

theorem strtoull_lt (t : Text) : (strtoull t).1 < 2 ^ 64 := by
  have h : strtoull t = _ := strtoull_eq rfl
  rw [h]
  exact Nat.mod_lt _ (by decide)

/-! ## Ranges -/

theorem memmapRange_numeral (h : Numeral base ds lit) {suffix : Text} {k : Nat}
    (hs : Suffix suffix k) (hdigit : ∀ c ∈ suffix, isDigit base c = false) (t : Text) :
    memmapRange (lit ++ (suffix ++ '$' :: t)) =
      some ⟨(memparse t).1, ofDigits base 0 ds * 2 ^ k % 2 ^ 64⟩ := by
  have hdollar : isDigit base '$' = false := by
    rw [isDigit, digit?_none (by decide)]
    rfl
  have hrest : ∀ c ∈ (suffix ++ '$' :: t).head?, isDigit base c = false := by
    intro c hc
    cases hs with
    | none =>
      cases hc
      exact hdollar
    | letter _ =>
      cases hc
      exact hdigit _ List.mem_cons_self
  have hparse : memparse (lit ++ (suffix ++ '$' :: t)) =
      (ofDigits base 0 ds * 2 ^ k % 2 ^ 64, '$' :: t) := by
    rw [memparse, strtoull_numeral h hrest]
    refine shifted_suffix hs _ fun c hc => ?_
    cases hc
    decide
  have hne : ('$' :: t : Text) ≠ lit ++ (suffix ++ '$' :: t) := by
    intro heq
    have hlen := congrArg List.length heq
    have hpos : 0 < ds.length := List.length_pos_of_ne_nil h.digits_ne_nil
    have hlit : ds.length ≤ lit.length := by
      cases h with
      | hex _ _ _ => simp only [List.length_cons]; omega
      | dec _ _ _ => exact Nat.le_refl _
    simp only [List.length_cons, List.length_append] at hlen
    omega
  rw [memmapRange, hparse, if_neg hne]
  rfl

theorem memmapRange_cases {value : Text} (h : memmapRange value = some r) :
    ∃ suffix k t, Suffix suffix k ∧ (strtoull value).2 = suffix ++ '$' :: t ∧
      r = ⟨(memparse t).1, (strtoull value).1 * 2 ^ k % 2 ^ 64⟩ := by
  obtain ⟨suffix, k, hs, hrest, hvalue⟩ := shifted_cases (strtoull value).1 (strtoull value).2
  rw [Nat.mod_eq_of_lt (strtoull_lt value)] at hrest hvalue
  unfold memmapRange at h
  split at h
  · cases h
  · split at h
    · rename_i t ht
      cases h
      refine ⟨suffix, k, t, hs, ?_, ?_⟩
      · rw [memparse] at ht
        rw [← ht]
        exact hrest
      · rw [← hvalue]
        rfl
    · cases h

theorem addresses_eq_iff {r' : Range} (h : 0 < r'.size) : r.addresses = r'.addresses ↔ r = r' := by
  refine ⟨fun heq => ?_, fun heq => heq ▸ rfl⟩
  have hmem : ∀ a, (r.base ≤ a ∧ a < r.base + r.size) ↔ (r'.base ≤ a ∧ a < r'.base + r'.size) :=
    fun a => Set.ext_iff.1 heq a
  have hfirst := (hmem r'.base).2 ⟨Nat.le_refl _, by omega⟩
  have hbase := (hmem r.base).1 ⟨Nat.le_refl _, by omega⟩
  have hlast := (hmem (r'.base + r'.size - 1)).2 ⟨by omega, by omega⟩
  have hlast' := (hmem (r.base + r.size - 1)).1 ⟨by omega, by omega⟩
  obtain ⟨b, s⟩ := r
  obtain ⟨b', s'⟩ := r'
  simp only [Range.mk.injEq] at *
  omega

theorem addresses_empty (h : r.size = 0) : r.addresses = ∅ := by
  ext a
  refine ⟨fun ha => ?_, fun ha => absurd ha (Set.notMem_empty a)⟩
  have hbase : r.base ≤ a := ha.1
  have hlast : a < r.base + r.size := ha.2
  omega

theorem reserved_eq_iff {value : Text} (h : 0 < r.size) :
    reserved value = r.addresses ↔ memmapRange value = some r := by
  unfold reserved
  cases memmapRange value with
  | none =>
    refine ⟨fun heq => ?_, fun heq => by cases heq⟩
    have hmem : r.base ∈ r.addresses := ⟨Nat.le_refl _, by omega⟩
    rw [← heq] at hmem
    exact absurd hmem (Set.notMem_empty _)
  | some r' =>
    rw [Option.some.injEq]
    exact addresses_eq_iff h

end Linux
