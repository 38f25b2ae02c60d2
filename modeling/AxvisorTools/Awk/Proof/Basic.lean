import AxvisorTools.Awk.Basic
import AxvisorTools.Text.Proof.Matches
import AxvisorTools.Text.Proof.Numeral

/-!
# Facts about awk

`split_intercalate` takes a joined list apart, `found_whole_iff` says what an anchored pattern accepts,
and `double` is the arithmetic of doubles on integers, exact up to `2 ^ 53`.
-/

namespace Awk

open Regex

/-! ## Strings -/

theorem split_intercalate {sep : Char} {ts : List Text} (hsep : ∀ t ∈ ts, sep ∉ t)
    (hne : ∀ t ∈ ts, t ≠ []) : split sep ([sep].intercalate ts) = ts := by
  unfold split
  cases ts with
  | nil => rfl
  | cons t ts =>
    have ht : t ≠ [] := hne t List.mem_cons_self
    have hjoin : [sep].intercalate (t :: ts) ≠ [] := by
      cases ts <;> simp [List.intercalate_cons_cons, ht]
    rw [if_neg hjoin]
    exact List.splitOn_intercalate sep hsep (List.cons_ne_nil t ts)

@[simp] theorem elem_one (t : Text) (a : List Text) : elem (t :: a) 1 = t := rfl

@[simp] theorem elem_two (t u : Text) (a : List Text) : elem (t :: u :: a) 2 = u := rfl

theorem not_of_mem_splitOnP {α : Type} {p : α → Bool} {l x : List α} (h : x ∈ l.splitOnP p) :
    ∀ c ∈ x, p c = false := by
  induction l generalizing x with
  | nil =>
    rw [List.splitOnP_nil, List.mem_singleton] at h
    simp [h]
  | cons d l ih =>
    rw [List.splitOnP_cons_eq_if_modifyHead] at h
    split at h
    · rcases List.mem_cons.1 h with rfl | h
      · simp
      · exact ih h
    · next hd =>
      cases hl : l.splitOnP p with
      | nil => simp [hl] at h
      | cons y ys =>
        rw [hl, List.modifyHead_cons, List.mem_cons] at h
        rcases h with rfl | h
        · have hy : ∀ c ∈ y, p c = false := ih (hl ▸ List.mem_cons_self)
          exact List.forall_mem_cons.2 ⟨Bool.eq_false_iff.2 hd, hy⟩
        · exact ih (hl ▸ List.mem_cons_of_mem _ h)

theorem newline_not_mem_field {l : Text} (hl : '\n' ∉ l) (i : Nat) : '\n' ∉ field l i := by
  unfold field elem
  split
  · exact hl
  · cases hf : (fields l)[i - 1]? with
    | none => simp [List.getD_eq_getElem?_getD, hf]
    | some f =>
      have hmem := (List.mem_filter.1 (List.mem_of_getElem? hf)).1
      intro hnl
      rw [List.getD_eq_getElem?_getD, hf] at hnl
      exact absurd (not_of_mem_splitOnP hmem _ hnl) (by decide)

theorem found_whole_iff {r : Re} {t : Text} :
    found (whole r) t = true ↔ ∃ g, Matches r [] t [] g := by
  simp only [found_iff_matches, whole, matches_seq_iff, matches_look_iff]
  constructor
  · rintro ⟨a, x, y, g, rfl, _, _, _, _, rfl, -, ⟨ha, rfl, rfl⟩, u, _, gu, _, rfl, -, hu, hy, rfl, rfl⟩
    have ha : a = [] := by simpa using ha
    have hy : y = [] := by simpa using hy
    subst ha hy
    exact ⟨gu, by simpa using hu⟩
  · rintro ⟨g, h⟩
    refine ⟨[], t, [], g, by simp, [], t, [], g, rfl, by simp, ⟨rfl, rfl, rfl⟩, t, [], g, [],
      by simp, rfl, by simpa using h, rfl, rfl, rfl⟩

theorem matches_digits_iff {b x y : Text} {g : List (Nat × Text)} :
    Matches digits b x y g ↔ x ≠ [] ∧ (∀ c ∈ x, c.isDigit = true) ∧ g = [] := by
  simp only [digits, matches_seq_iff, matches_one_iff, matches_star_one_iff]
  constructor
  · rintro ⟨_, v, _, _, rfl, rfl, ⟨c, hc, rfl, rfl⟩, hv, rfl⟩
    exact ⟨List.cons_ne_nil c v, List.forall_mem_cons.2 ⟨hc, hv⟩, rfl⟩
  · rintro ⟨hne, hx, rfl⟩
    obtain ⟨c, v, rfl⟩ := List.exists_cons_of_ne_nil hne
    obtain ⟨hc, hv⟩ := List.forall_mem_cons.1 hx
    exact ⟨[c], v, [], [], rfl, rfl, ⟨c, hc, rfl, rfl⟩, hv, rfl⟩

/-! ## Doubles -/

theorem roundDouble_natCast {n : Nat} (h : n ≤ 2 ^ 53) : roundDouble n = n := if_pos h

theorem leadingNumber_toDigits (n : Nat) : leadingNumber (Nat.toDigits 10 n) = n := by
  have hall : (Nat.toDigits 10 n).takeWhile Char.isDigit = Nat.toDigits 10 n :=
    List.takeWhile_eq_self_iff.2 fun _ => isDigit_of_mem_toDigits
  rw [leadingNumber, hall, Nat.ofDigitChars_ten_toDigits]

/-- The arithmetic of doubles on integers, as far as `print` writes them in full. -/
def double : Arith Int where
  number t := roundDouble (leadingNumber t)
  ofNat n := roundDouble n
  add m n := roundDouble (m + n)
  sub m n := roundDouble (m - n)
  text n := if n < 0 then '-' :: Nat.toDigits 10 n.natAbs else Nat.toDigits 10 n.natAbs
  Exact n := n ≤ 2 ^ 53
  exact_zero := Nat.zero_le _
  exact_of_le := le_trans
  number_toDigits _ := by rw [leadingNumber_toDigits]
  add_ofNat {m n} h := by
    rw [roundDouble_natCast (n := m) (by omega), roundDouble_natCast (n := n) (by omega),
      ← Int.natCast_add]
  sub_ofNat {m n} h hle := by
    rw [roundDouble_natCast h, roundDouble_natCast (hle.trans h), ← Int.ofNat_sub hle]
  text_ofNat {n} h := by
    rw [roundDouble_natCast h, if_neg (by omega), Int.natAbs_natCast]

/-- Doubles compare as integers. -/
def orderedDouble : Ordered Int where
  toArith := double
  positive n := decide (0 < n)
  positive_ofNat {n} h := by
    change decide (0 < roundDouble n) = decide (0 < n)
    rw [roundDouble_natCast h]
    simp
  newline_notMem_text n := by
    have hdigit (m : Nat) : '\n' ∉ Nat.toDigits 10 m := fun h =>
      absurd (isDigit_of_mem_toDigits h) (by decide)
    change '\n' ∉ if n < 0 then '-' :: Nat.toDigits 10 n.natAbs else Nat.toDigits 10 n.natAbs
    split
    · exact fun h => (List.mem_cons.1 h).elim (by decide) (hdigit _)
    · exact hdigit _

end Awk
