import AxvisorTools.Awk.Proof.Basic
import AxvisorTools.Smoke.CpuOnline
import Mathlib.Data.Finset.Max

/-!
# The online CPUs of the guest: the count is that of the set

`cpuOnlineCount_union`: for disjoint ranges, both inits print the number of CPUs in their union. One
round of the loop adds the size of its range (`countPart_text`), whatever the last range left behind in
the array, so a run adds the sizes of all of them (`foldl_countPart`), and for disjoint ranges that sum
is the size of the union (`card_union`). No number on the way is past the last CPU of some range by more
than one (`exact_card_union`).
-/

namespace Smoke.CpuOnline

open Awk Regex

variable {Num : Type} {awk : Arith Num} {r : CpuRange} {ranges : List CpuRange}

/-! ## Sets of CPUs -/

theorem CpuRange.card_cpus (r : CpuRange) : r.cpus.card = r.last - r.first + 1 := by
  have := r.first_le_last
  rw [CpuRange.cpus, Nat.card_Icc]
  omega

@[simp] theorem union_cons : union (r :: ranges) = r.cpus ∪ union ranges := rfl

theorem disjoint_union (h : ∀ s ∈ ranges, Disjoint r.cpus s.cpus) :
    Disjoint r.cpus (union ranges) := by
  induction ranges with
  | nil => exact Finset.disjoint_empty_right _
  | cons s ranges ih =>
    obtain ⟨hs, hranges⟩ := List.forall_mem_cons.1 h
    exact Finset.disjoint_union_right.2 ⟨hs, ih hranges⟩

theorem card_union (hdis : ranges.Pairwise fun r s => Disjoint r.cpus s.cpus) :
    (union ranges).card = (ranges.map fun r => r.cpus.card).sum := by
  induction ranges with
  | nil => rfl
  | cons r ranges ih =>
    obtain ⟨hr, hranges⟩ := List.pairwise_cons.1 hdis
    rw [union_cons, Finset.card_union_of_disjoint (disjoint_union hr), ih hranges, List.map_cons,
      List.sum_cons]

theorem mem_union {cpu : Nat} : cpu ∈ union ranges ↔ ∃ r ∈ ranges, cpu ∈ r.cpus := by
  induction ranges with
  | nil => simp [union]
  | cons r ranges ih => simp [ih]

/-- The CPUs are numbered from zero, so the last one bounds their number. -/
theorem exact_card_union (hexact : ∀ r ∈ ranges, awk.Exact (r.last + 1)) :
    awk.Exact (union ranges).card := by
  rcases (union ranges).eq_empty_or_nonempty with hempty | hne
  · rw [hempty]
    exact awk.exact_zero
  · -- the range of the greatest CPU ends at or past it
    obtain ⟨r, hr, hmax⟩ := mem_union.1 ((union ranges).max'_mem hne)
    have hsub : union ranges ⊆ Finset.range (r.last + 1) := by
      intro cpu hcpu
      have hle := (union ranges).le_max' cpu hcpu
      have hlast := (Finset.mem_Icc.1 hmax).2
      exact Finset.mem_range.2 (by omega)
    refine awk.exact_of_le ?_ (hexact r hr)
    simpa using Finset.card_le_card hsub

/-! ## The text of a range -/

theorem dash_not_mem_toDigits (n : Nat) : '-' ∉ Nat.toDigits 10 n := by
  intro h
  exact absurd (isDigit_of_mem_toDigits h) (by decide)

theorem CpuRange.text_ne_nil (r : CpuRange) : r.text ≠ [] := by
  unfold CpuRange.text
  split <;> simp

theorem CpuRange.comma_not_mem_text (r : CpuRange) : ',' ∉ r.text := by
  have hdigits (n : Nat) : ',' ∉ Nat.toDigits 10 n := fun h =>
    absurd (isDigit_of_mem_toDigits h) (by decide)
  unfold CpuRange.text
  split <;> simp [hdigits]

theorem split_cpuList : split ',' (cpuList ranges) = ranges.map CpuRange.text := by
  apply split_intercalate
  · exact List.forall_mem_map.2 fun r _ => r.comma_not_mem_text
  · exact List.forall_mem_map.2 fun r _ => r.text_ne_nil

theorem found_rangePattern_toDigits (n : Nat) : found rangePattern (Nat.toDigits 10 n) = false := by
  rw [Bool.eq_false_iff, rangePattern, Ne, found_whole_iff]
  simp only [matches_seq_iff, matches_one_iff]
  rintro ⟨_, u, _, _, _, htext, -, -, _, w, _, _, rfl, -, ⟨c, hc, rfl, rfl⟩, -⟩
  have hdash : '-' ∈ Nat.toDigits 10 n := by
    rw [htext, ← beq_iff_eq.1 hc]
    simp
  exact dash_not_mem_toDigits n hdash

theorem found_numberPattern_toDigits (n : Nat) : found numberPattern (Nat.toDigits 10 n) = true :=
  found_whole_iff.2 ⟨[], matches_digits_iff.2
    ⟨Nat.toDigits_ne_nil, fun _ => isDigit_of_mem_toDigits, rfl⟩⟩

theorem found_rangePattern_pair (m n : Nat) :
    found rangePattern (Nat.toDigits 10 m ++ '-' :: Nat.toDigits 10 n) = true := by
  have hdigits (k : Nat) {b y : Text} : Matches digits b (Nat.toDigits 10 k) y [] :=
    matches_digits_iff.2 ⟨Nat.toDigits_ne_nil, fun _ => isDigit_of_mem_toDigits, rfl⟩
  exact found_whole_iff.2 ⟨[], .seq (hdigits m) (.seq (.one _ _ rfl) (hdigits n))⟩

theorem split_pair (m n : Nat) : split '-' (Nat.toDigits 10 m ++ '-' :: Nat.toDigits 10 n) =
    [Nat.toDigits 10 m, Nat.toDigits 10 n] := by
  have hjoin : Nat.toDigits 10 m ++ '-' :: Nat.toDigits 10 n =
      ['-'].intercalate [Nat.toDigits 10 m, Nat.toDigits 10 n] := by
    simp [List.intercalate_cons_cons]
  rw [hjoin]
  exact split_intercalate (by simp [dash_not_mem_toDigits]) (by simp)

/-! ## The loop -/

theorem countPart_text (hlast : awk.Exact (r.last + 1)) {k : Nat}
    (htotal : awk.Exact (k + r.cpus.card)) (old : List Text) :
    (countPart awk ⟨awk.ofNat k, old⟩ r.text).total = awk.ofNat (k + r.cpus.card) := by
  have hle := r.first_le_last
  rw [r.card_cpus] at htotal ⊢
  unfold countPart CpuRange.text
  by_cases hone : r.first = r.last
  · rw [if_pos hone, found_rangePattern_toDigits, found_numberPattern_toDigits]
    rw [hone, Nat.sub_self] at htotal ⊢
    exact awk.add_ofNat htotal
  · rw [if_neg hone, found_rangePattern_pair, split_pair]
    have hlast' : awk.Exact r.last := awk.exact_of_le (Nat.le_succ _) hlast
    have hsize : awk.Exact (r.last - r.first + 1) := awk.exact_of_le (by omega) hlast
    simp only [if_true, elem_one, elem_two]
    rw [awk.number_toDigits hlast', awk.number_toDigits (awk.exact_of_le hle hlast'),
      awk.sub_ofNat hlast' hle, awk.add_ofNat hsize, awk.add_ofNat htotal]

/-- A run adds the sizes of all ranges, whatever the array holds at its start. -/
theorem foldl_countPart (hlast : ∀ r ∈ ranges, awk.Exact (r.last + 1)) {k : Nat}
    (htotal : awk.Exact (k + (ranges.map fun r => r.cpus.card).sum)) (old : List Text) :
    ((ranges.map CpuRange.text).foldl (countPart awk) ⟨awk.ofNat k, old⟩).total =
      awk.ofNat (k + (ranges.map fun r => r.cpus.card).sum) := by
  induction ranges generalizing k old with
  | nil => rfl
  | cons r ranges ih =>
    obtain ⟨hr, hranges⟩ := List.forall_mem_cons.1 hlast
    simp only [List.map_cons, List.sum_cons, ← Nat.add_assoc] at htotal ⊢
    have hstep := countPart_text hr (awk.exact_of_le (Nat.le_add_right _ _) htotal) old
    have hnext : countPart awk ⟨awk.ofNat k, old⟩ r.text =
        ⟨awk.ofNat (k + r.cpus.card), (countPart awk ⟨awk.ofNat k, old⟩ r.text).range⟩ := by
      rw [← hstep]
    rw [List.foldl_cons, hnext]
    exact ih hranges htotal _

/-- **The count is that of the set**: for disjoint ranges whose CPU numbers the awk keeps exactly, both
inits print the number of CPUs in the union. -/
theorem cpuOnlineCount_union (awk : Arith Num) (init : Init)
    (hdis : ranges.Pairwise fun r s => Disjoint r.cpus s.cpus)
    (hexact : ∀ r ∈ ranges, awk.Exact (r.last + 1)) :
    init.cpuOnlineCount awk (cpuList ranges) = Nat.toDigits 10 (union ranges).card := by
  have hcard := exact_card_union hexact
  have hprint : printCount awk (cpuList ranges) = Nat.toDigits 10 (union ranges).card := by
    have hsum := card_union hdis
    have hrun := foldl_countPart hexact (k := 0) (by rwa [Nat.zero_add, ← hsum]) []
    rw [Nat.zero_add, ← hsum] at hrun
    rw [printCount, split_cpuList, hrun, awk.text_ofNat hcard]
  cases init with
  | rootfs => exact hprint
  | initramfs => exact hprint

/-- Three ranges, one of them a single CPU. -/
def threeRanges : List CpuRange := [⟨0, 3, by decide⟩, ⟨5, 5, by decide⟩, ⟨8, 9, by decide⟩]

theorem cpuOnlineCount_threeRanges : cpuList threeRanges = "0-3,5,8-9" ∧
    Init.initramfs.cpuOnlineCount double (cpuList threeRanges) = ['7'] :=
  ⟨by decide, (@cpuOnlineCount_union Int threeRanges double .initramfs (by decide)
    (by simp [threeRanges, double])).trans (by decide)⟩

-- past the exact numbers a range can lose a CPU: here the last one is rounded down to the first
example : Init.rootfs.cpuOnlineCount double "9007199254740992-9007199254740993" = ['1'] := by
  decide +kernel

end Smoke.CpuOnline
