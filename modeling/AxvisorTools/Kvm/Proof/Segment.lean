import AxvisorTools.Kvm.Sregs
import Mathlib.Tactic.IntervalCases

/-!
# Segment descriptors decode to what was encoded

`gdt_entry` scatters base and limit over four bit fields around the flags. `getLsbD_gdtEntry` says
which argument each bit of a descriptor comes from; `segmentFromGdt_gdtEntry` reads every field of
`segment_from_gdt` off it.
-/

namespace Kvm

/-! ## The bits of a descriptor -/

/-- Where each bit of a descriptor comes from. Flag bits 8 to 11 and 16 to 23 share their places
with the high limit and the high base. -/
theorem getLsbD_gdtEntry (flags base limit : BitVec 32) (i : Nat) :
    (gdtEntry flags base limit).getLsbD i =
      if i < 16 then limit.getLsbD i
      else if i < 40 then base.getLsbD (i - 16)
      else if i < 48 then flags.getLsbD (i - 40)
      else if i < 52 then flags.getLsbD (i - 40) || limit.getLsbD (i - 32)
      else if i < 56 then flags.getLsbD (i - 40)
      else if i < 64 then flags.getLsbD (i - 40) || base.getLsbD (i - 32)
      else false := by
  by_cases hi : i < 64
  · interval_cases i <;> simp [gdtEntry]
  · simp [gdtEntry, hi]
    grind

theorem getLsbD_of_le {limit : BitVec 32} (hlimit : limit ≤ 0xfffff#32) {i : Nat}
    (hi : 20 ≤ i) : limit.getLsbD i = false := by
  have hlt : limit.toNat < 2 ^ 20 := Nat.lt_succ_of_le hlimit
  have hpow : 2 ^ 20 ≤ 2 ^ i := Nat.pow_le_pow_right (by omega) hi
  exact Nat.testBit_lt_two_pow (Nat.lt_of_lt_of_le hlt hpow)

/-- The masks of the one-byte fields cut `n` bits out of the descriptor. -/
theorem byteField_eq (entry : BitVec 64) (pos n : Nat) :
    byteField entry pos (BitVec.ofNat 64 (2 ^ n - 1)) = (entry.extractLsb' pos n).setWidth 8 := by
  apply BitVec.eq_of_getLsbD_eq
  intro i hi
  simp only [byteField, BitVec.getLsbD_setWidth, BitVec.getLsbD_and, BitVec.getLsbD_ushiftRight,
    BitVec.getLsbD_ofNat, Nat.testBit_two_pow_sub_one, BitVec.getLsbD_extractLsb']
  grind

/-! ## The fields of the decoded segment -/

section

variable {flags : BitVec 16} {base limit : BitVec 32}

/-- Outside the places of the high limit and the high base a descriptor holds the flags. -/
theorem extractLsb'_gdtEntry {pos n : Nat} (hlow : 40 ≤ pos)
    (hhigh : pos + n ≤ 48 ∨ 52 ≤ pos ∧ pos + n ≤ 56) :
    (gdtEntry (flags.setWidth 32) base limit).extractLsb' pos n
      = flags.extractLsb' (pos - 40) n := by
  apply BitVec.eq_of_getLsbD_eq
  intro i hi
  simp only [BitVec.getLsbD_extractLsb', getLsbD_gdtEntry, BitVec.getLsbD_setWidth]
  grind

theorem byteField_gdtEntry {pos n : Nat} (hlow : 40 ≤ pos)
    (hhigh : pos + n ≤ 48 ∨ 52 ≤ pos ∧ pos + n ≤ 56) :
    byteField (gdtEntry (flags.setWidth 32) base limit) pos (BitVec.ofNat 64 (2 ^ n - 1))
      = (flags.extractLsb' (pos - 40) n).setWidth 8 := by
  rw [byteField_eq, extractLsb'_gdtEntry hlow hhigh]

theorem rawLimit_gdtEntry (hflags : ∀ i, 8 ≤ i → i < 12 → flags.getLsbD i = false)
    (hlimit : limit ≤ 0xfffff#32) :
    rawLimit (gdtEntry (flags.setWidth 32) base limit) = limit := by
  apply BitVec.eq_of_getLsbD_eq
  intro i hi
  have hzero : 20 ≤ i → limit.getLsbD i = false := getLsbD_of_le hlimit
  have hflag : 16 ≤ i → i < 20 → flags.getLsbD (i - 8) = false := fun h h' =>
    hflags _ (by omega) (by omega)
  simp only [rawLimit, BitVec.getLsbD_setWidth, BitVec.getLsbD_or, BitVec.getLsbD_and,
    BitVec.getLsbD_ushiftRight, getLsbD_gdtEntry]
  interval_cases i <;> simp_all

theorem base_gdtEntry (flags : BitVec 16) (base limit : BitVec 32) :
    ((gdtEntry (flags.setWidth 32) base limit >>> 16) &&& 0xffffff#64)
        ||| ((gdtEntry (flags.setWidth 32) base limit >>> 32) &&& 0xff000000#64)
      = base.setWidth 64 := by
  apply BitVec.eq_of_getLsbD_eq
  intro i hi
  simp only [BitVec.getLsbD_or, BitVec.getLsbD_and, BitVec.getLsbD_ushiftRight, getLsbD_gdtEntry,
    BitVec.getLsbD_setWidth]
  interval_cases i <;> simp

theorem granularity_gdtEntry (flags : BitVec 16) (base limit : BitVec 32) :
    gdtEntry (flags.setWidth 32) base limit &&& (1#64 <<< 55) ≠ 0 ↔ flags.getLsbD 15 = true := by
  have hbit : (gdtEntry (flags.setWidth 32) base limit).getLsbD 55 = flags.getLsbD 15 := by
    rw [getLsbD_gdtEntry]
    simp
  have hone : 1#64 <<< 55 = BitVec.twoPow 64 55 := by decide
  rw [hone, BitVec.and_twoPow, hbit]
  cases flags.getLsbD 15 <;> decide

theorem extractLsb'_one_eq_zero_iff (i : Nat) :
    (flags.extractLsb' i 1).setWidth 8 = 0 ↔ ¬ flags.getLsbD i = true := by
  have hval : (flags.extractLsb' i 1).setWidth 8 = if flags.getLsbD i then 1#8 else 0#8 := by
    apply BitVec.eq_of_getLsbD_eq
    intro j hj
    simp only [BitVec.getLsbD_setWidth, BitVec.getLsbD_extractLsb']
    split <;> simp_all
  rw [hval]
  cases flags.getLsbD i <;> decide

end

/-! ## Decoding an encoded descriptor -/

/-- **Segment descriptors decode to what was encoded**: `segment_from_gdt` gives back base,
selector and flags, and the limit in bytes where the granularity flag asks for 4 KiB units. -/
theorem segmentFromGdt_gdtEntry (flags : BitVec 16) (base limit : BitVec 32)
    (selector : BitVec 16) (hflags : ∀ i, 8 ≤ i → i < 12 → flags.getLsbD i = false)
    (hlimit : limit ≤ 0xfffff#32) :
    segmentFromGdt (gdtEntry (flags.setWidth 32) base limit) selector =
      { base := base.setWidth 64
        limit := if flags.getLsbD 15 = true then (limit <<< 12) ||| 0xfff#32 else limit
        selector := selector
        type := (flags.extractLsb' 0 4).setWidth 8
        s := (flags.extractLsb' 4 1).setWidth 8
        dpl := (flags.extractLsb' 5 2).setWidth 8
        present := (flags.extractLsb' 7 1).setWidth 8
        avl := (flags.extractLsb' 12 1).setWidth 8
        l := (flags.extractLsb' 13 1).setWidth 8
        db := (flags.extractLsb' 14 1).setWidth 8
        g := (flags.extractLsb' 15 1).setWidth 8
        unusable := if flags.getLsbD 7 = true then 0 else 1 } := by
  have field : ∀ pos n, 40 ≤ pos → pos + n ≤ 48 ∨ 52 ≤ pos ∧ pos + n ≤ 56 →
      byteField (gdtEntry (flags.setWidth 32) base limit) pos (BitVec.ofNat 64 (2 ^ n - 1))
        = (flags.extractLsb' (pos - 40) n).setWidth 8 := fun _ _ => byteField_gdtEntry
  have hpresent := field 47 1 (by omega) (by omega)
  simp only [segmentFromGdt, Segment.mk.injEq]
  refine ⟨base_gdtEntry .., ?_, trivial, field 40 4 (by omega) (by omega), hpresent,
    field 45 2 (by omega) (by omega), field 54 1 (by omega) (by omega),
    field 44 1 (by omega) (by omega), field 53 1 (by omega) (by omega),
    field 55 1 (by omega) (by omega), field 52 1 (by omega) (by omega), ?_⟩
  · rw [rawLimit_gdtEntry hflags hlimit]
    exact ite_congr (propext (granularity_gdtEntry ..)) (fun _ => rfl) (fun _ => rfl)
  · have hzero : byteField (gdtEntry (flags.setWidth 32) base limit) 47 0x1 = 0
        ↔ ¬ flags.getLsbD 7 = true := by
      rw [← extractLsb'_one_eq_zero_iff]
      exact iff_of_eq (congrArg (· = 0) hpresent)
    rw [ite_congr (propext hzero) (fun _ => rfl) (fun _ => rfl), ite_not]

/-- The boot code segment: flat, 4 KiB granularity, present, 64-bit. -/
theorem segmentFromGdt_bootCode :
    segmentFromGdt (gdtEntry 0xa09b 0 0xfffff) 8 =
      { base := 0, limit := 0xffffffff, selector := 8, type := 11, s := 1, dpl := 0, present := 1,
        avl := 0, l := 1, db := 0, g := 1, unusable := 0 } :=
  (segmentFromGdt_gdtEntry 0xa09b 0 0xfffff 8 (by decide) (by decide)).trans (by decide)

end Kvm
