import AxvisorTools.Kvm.Sregs
import AxvisorTools.X86.Proof.Paging

/-!
# The boot page tables identity-map the first GiB

What the setup leaves in each of the three tables (`read_pml4_zero`, `read_pdpt_zero`, `read_pd`), and from
that the walk of every address: below `2 ^ 30` it ends in the 2 MiB page of its own number, above
it meets one of the entries that were never written. `setupFirecrackerSregs_identity` is the
result.
-/

namespace Kvm

open X86

/-! ## The tables -/

/-- The entry for the `i`-th 2 MiB page. -/
def pdEntry (i : Nat) : BitVec 64 := (BitVec.ofNat 64 i <<< 21) ||| 0x83

section

variable {mem : Memory} {i : Nat}

theorem writeDescriptorTables_of_le {a : Nat} (h : 0x528 ≤ a) :
    writeDescriptorTables mem a = mem a := by
  unfold writeDescriptorTables
  rw [Memory.write64_of_outside (by simp only [fcBootIdtOffset]; omega),
    Memory.writeEntries_of_outside (by simp only [fcBootGdtOffset]; omega)]

theorem read_pd (hi : i < 512) : (writePageTables mem).read64 (0xb000 + 8 * i) = pdEntry i := by
  rw [Nat.mul_comm 8 i]
  exact Memory.read64_writeEntries hi

theorem writePageTables_of_lt {a : Nat} (h : a < fcPml4Start) : writePageTables mem a = mem a := by
  simp only [fcPml4Start] at h
  unfold writePageTables
  rw [Memory.writeEntries_of_outside (by simp only [fcPdeStart]; omega),
    Memory.write64_of_outside (by simp only [fcPdpteStart]; omega),
    Memory.write64_of_outside (by simp only [fcPml4Start]; omega)]

theorem writePageTables_congr {mem' : Memory} {a : Nat} (h : mem a = mem' a) :
    writePageTables mem a = writePageTables mem' a := by
  unfold writePageTables
  exact Memory.writeEntries_congr (Memory.write64_congr (Memory.write64_congr h))

theorem writePageTables_below {a : Nat} (h : a < 0xb000) :
    writePageTables mem a =
      ((mem.write64 0x9000 0xa003).write64 0xa000 0xb003) a :=
  Memory.writeEntries_of_outside (Or.inl h)

theorem read_pml4_zero : (writePageTables mem).read64 0x9000 = 0xa003 := by
  rw [Memory.read64_congr fun k hk => writePageTables_below (by omega),
    Memory.read64_write64_of_disjoint (by omega), Memory.read64_write64]

theorem read_pdpt_zero : (writePageTables mem).read64 0xa000 = 0xb003 := by
  rw [Memory.read64_congr fun k hk => writePageTables_below (by omega), Memory.read64_write64]

/-- The entries of the upper tables that the setup does not write stay zero. -/
theorem read_unwritten {table : Nat} (htable : table = 0x9000 ∨ table = 0xa000) (hi : 0 < i)
    (hi' : i < 512) :
    (writePageTables (writeDescriptorTables .zero)).read64 (table + 8 * i) = 0 := by
  apply Memory.read64_zero
  intro k hk
  rw [writePageTables_below (by omega), Memory.write64_of_outside (by omega),
    Memory.write64_of_outside (by omega), writeDescriptorTables_of_le (by omega)]
  rfl

end

/-! ## The page-directory entries -/

theorem toNat_pdEntry {i : Nat} (hi : i < 512) : (pdEntry i).toNat = 2 ^ 21 * i + 0x83 := by
  have hfit : i <<< 21 < 2 ^ 64 := by
    rw [Nat.shiftLeft_eq]
    omega
  rw [pdEntry, BitVec.toNat_or, BitVec.toNat_shiftLeft, BitVec.toNat_ofNat,
    Nat.mod_eq_of_lt (by omega : i < 2 ^ 64), Nat.mod_eq_of_lt hfit, Nat.shiftLeft_eq,
    Nat.mul_comm]
  exact (Nat.two_pow_add_eq_or_of_lt (by decide) i).symm

theorem getLsbD_pdEntry {i k : Nat} (hk : k < 21) :
    (pdEntry i).getLsbD k = (0x83#64).getLsbD k := by
  simp only [pdEntry, BitVec.getLsbD_or, BitVec.getLsbD_shiftLeft]
  simp [hk]

/-- The frame of the `i`-th entry is `i * 2 MiB`, with none of the reserved bits set. -/
theorem tableAddr_pdEntry {i : Nat} (hi : i < 512) : tableAddr (pdEntry i) = i * 2 ^ 21 := by
  rw [tableAddr, toNat_pdEntry hi]
  omega

theorem setsReserved_pdEntry {i : Nat} (hi : i < 512) : setsReserved 2 (pdEntry i) = false := by
  have hbits : i * 2 ^ 21 / 2 ^ 13 % 2 ^ 8 = 0 := by omega
  have hsize : pageSize (pdEntry i) = true := getLsbD_pdEntry (by omega)
  rw [setsReserved, hsize, tableAddr_pdEntry hi]
  exact congrArg (fun r => true && (false || (true && r != 0))) hbits

/-! ## The walk -/

section

variable {v : BitVec 64}

/-- The guest memory after the setup of a zeroed guest. -/
def bootMemory : Memory := writePageTables (writeDescriptorTables .zero)

theorem walk_setup (sregs : Sregs) :
    walk (setupFirecrackerSregs .zero sregs).1 (setupFirecrackerSregs .zero sregs).2.cr3 v =
      walkFrom bootMemory v 4 0x9000 true := by
  have haddr : tableAddr (BitVec.ofNat 64 fcPml4Start) = 0x9000 := by decide
  simp only [setupFirecrackerSregs, walk, haddr, bootMemory]

/-- An address outside the first 512 GiB ends at the PML4, one outside the first GiB at the
PDPT. -/
theorem walk_unmapped (hcanonical : Canonical v) (hv : 2 ^ 30 ≤ v.toNat) :
    ∃ level, walkFrom bootMemory v 4 0x9000 true = .notPresent level := by
  have hlt := v.isLt
  have hidx4 : tableIndex 4 v = v.toNat / 2 ^ 39 % 512 := rfl
  have hidx3 : tableIndex 3 v = v.toNat / 2 ^ 30 % 512 := rfl
  by_cases h4 : tableIndex 4 v = 0
  · have hindex : 0 < tableIndex 3 v := by
      unfold Canonical at hcanonical
      omega
    refine ⟨3, ?_⟩
    rw [@walkFrom_table _ _ 3 _ _ 0xa003 (by rw [h4]; exact read_pml4_zero) (by decide)
      (by decide) (by decide)]
    apply walkFrom_notPresent
    have haddr : tableAddr 0xa003 = 0xa000 := by decide
    rw [haddr, bootMemory, read_unwritten (Or.inr rfl) hindex (by omega)]
    decide
  · have hpos : 0 < tableIndex 4 v := Nat.pos_of_ne_zero h4
    have hlt4 : tableIndex 4 v < 512 := by omega
    refine ⟨4, walkFrom_notPresent ?_⟩
    rw [bootMemory, read_unwritten (Or.inl rfl) hpos hlt4]
    decide

theorem walk_mapped (hv : v.toNat < 2 ^ 30) :
    walkFrom bootMemory v 4 0x9000 true = .page 21 v.toNat true := by
  have h4 : tableIndex 4 v = 0 := by
    have hidx : tableIndex 4 v = v.toNat / 2 ^ 39 % 512 := rfl
    omega
  have h3 : tableIndex 3 v = 0 := by
    have hidx : tableIndex 3 v = v.toNat / 2 ^ 30 % 512 := rfl
    omega
  have hidx : tableIndex 2 v = v.toNat / 2 ^ 21 := by
    have hidx : tableIndex 2 v = v.toNat / 2 ^ 21 % 512 := rfl
    omega
  have h2 : tableIndex 2 v < 512 := by omega
  have haddr4 : tableAddr 0xa003 = 0xa000 := by decide
  have haddr3 : tableAddr 0xb003 = 0xb000 := by decide
  rw [@walkFrom_table _ _ 3 _ _ 0xa003 (by rw [h4]; exact read_pml4_zero) (by decide)
      (by decide) (by decide), haddr4,
    @walkFrom_table _ _ 2 _ _ 0xb003 (by rw [h3]; exact read_pdpt_zero) (by decide)
      (by decide) (by decide), haddr3,
    @walkFrom_page bootMemory v 1 _ _ _ (read_pd h2) (getLsbD_pdEntry (by omega))
      (getLsbD_pdEntry (by omega)) (getLsbD_pdEntry (by omega)) (setsReserved_pdEntry h2) (by omega),
    tableAddr_pdEntry h2, hidx]
  have hshift : levelShift (1 + 1) = 21 := rfl
  rw [hshift]
  exact congrArg (Walk.page 21 · true) (by omega)

end

/-! ## The boot state -/

/-- A segment register after reset, and the special registers of such a vCPU. -/
def resetSegment : Segment :=
  { base := 0, limit := 0xffff, selector := 0, type := 3, present := 1, dpl := 0, db := 0, s := 1,
    l := 0, g := 0, avl := 0, unusable := 0 }

def resetSregs : Sregs :=
  { cs := resetSegment, ds := resetSegment, es := resetSegment, fs := resetSegment,
    gs := resetSegment, ss := resetSegment, tr := resetSegment,
    gdt := { base := 0, limit := 0xffff }, idt := { base := 0, limit := 0xffff },
    cr0 := 0x60000010, cr3 := 0, cr4 := 0, efer := 0 }

/-- **The boot page tables identity-map exactly the first GiB.** From zeroed guest memory and a
vCPU whose CR4.LA57 is clear, as after reset, every address below `2 ^ 30` is mapped to itself by
a writable 2 MiB page and every other canonical address meets an entry that is not present; the
descriptor tables leave the page tables alone and the page tables leave them, and the control
registers select 4-level paging. -/
theorem setupFirecrackerSregs_identity (sregs : Sregs) (hla57 : sregs.cr4.getLsbD 12 = false) :
    let boot := setupFirecrackerSregs .zero sregs
    (∀ v, v.toNat < 2 ^ 30 → walk boot.1 boot.2.cr3 v = .page 21 v.toNat true) ∧
    (∀ v, Canonical v → 2 ^ 30 ≤ v.toNat → ∃ level, walk boot.1 boot.2.cr3 v = .notPresent level) ∧
    (∀ a, fcPml4Start ≤ a → boot.1 a = writePageTables .zero a) ∧
    (∀ a, a < fcPml4Start → boot.1 a = writeDescriptorTables .zero a) ∧
    FourLevelPaging boot.2.cr0 boot.2.cr4 boot.2.efer := by
  intro boot
  have hmem : boot.1 = writePageTables (writeDescriptorTables .zero) := by
    simp only [boot, setupFirecrackerSregs]
  refine ⟨fun v hv => ?_, fun v hcanonical hv => ?_, fun a ha => ?_, fun a ha => ?_, ?_⟩
  · rw [walk_setup, walk_mapped hv]
  · rw [walk_setup]
    exact walk_unmapped hcanonical hv
  · rw [hmem]
    exact writePageTables_congr (writeDescriptorTables_of_le (Nat.le_trans (by decide) ha))
  · rw [hmem]
    exact writePageTables_of_lt ha
  · simp only [FourLevelPaging, boot, setupFirecrackerSregs, BitVec.getLsbD_or, hla57]
    simp [fcCr0Pe, fcCr0Pg, fcCr4Pae, fcEferLme, fcEferLma]

theorem setupFirecrackerSregs_reset :
    walk (setupFirecrackerSregs .zero resetSregs).1 0x9000 0x12345678 = .page 21 0x12345678 true :=
  (setupFirecrackerSregs_identity resetSregs (by decide)).1 0x12345678 (by decide)

end Kvm
