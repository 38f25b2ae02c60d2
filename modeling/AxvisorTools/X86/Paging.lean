import Mathlib.Algebra.GroupWithZero.Nat
import Mathlib.Data.List.Basic

/-!
# Physical memory and 4-level paging

A byte-addressed physical memory with little-endian 64-bit accesses, and the address translation
of 64-bit mode over it: four levels of 512-entry tables, with large pages at levels 3 and 2.
-/

namespace X86

/-- Physical memory: the byte at each address. -/
def Memory : Type := Nat → BitVec 8

namespace Memory

/-- Memory that holds zero everywhere. -/
def zero : Memory := fun _ => 0

/-- Stores the eight bytes of `val`, lowest first, at `addr`. -/
def write64 (mem : Memory) (addr : Nat) (val : BitVec 64) : Memory := fun a =>
  if addr ≤ a ∧ a < addr + 8 then val.extractLsb' (8 * (a - addr)) 8 else mem a

/-- The 64-bit value whose bytes, lowest first, are at `addr`. -/
def read64 (mem : Memory) (addr : Nat) : BitVec 64 :=
  mem (addr + 7) ++ mem (addr + 6) ++ mem (addr + 5) ++ mem (addr + 4) ++
    mem (addr + 3) ++ mem (addr + 2) ++ mem (addr + 1) ++ mem addr

/-- The loop that stores entry `i` of a table at `base + i * 8`. -/
def writeEntries (mem : Memory) (base n : Nat) (f : Nat → BitVec 64) : Memory :=
  (List.range n).foldl (fun mem i => mem.write64 (base + i * 8) (f i)) mem

end Memory

/-! ## The walk -/

/-- How a translation ends. -/
inductive Walk where
  /-- The entry met at this level is not present. -/
  | notPresent (level : Nat)
  /-- The entry met at this level sets a reserved bit. -/
  | reserved (level : Nat)
  /-- A page of `2 ^ shift` bytes maps the address to `phys`. -/
  | page (shift : Nat) (phys : Nat) (writable : Bool)
deriving DecidableEq, Repr

def present (entry : BitVec 64) : Bool := entry.getLsbD 0
def writable (entry : BitVec 64) : Bool := entry.getLsbD 1
def pageSize (entry : BitVec 64) : Bool := entry.getLsbD 7

/-- The physical address in bits 51 to 12 of an entry or of CR3. -/
def tableAddr (entry : BitVec 64) : Nat := (entry.toNat / 2 ^ 12 % 2 ^ 40) * 2 ^ 12

/-- The bits of an address below an entry of this level: 12, 21, 30 and 39. -/
def levelShift (level : Nat) : Nat := 12 + 9 * (level - 1)

/-- The index into the table of this level. -/
def tableIndex (level : Nat) (v : BitVec 64) : Nat := v.toNat / 2 ^ levelShift level % 512

/-- A present entry sets a reserved bit: the page-size bit at level 4, or a bit between the PAT
bit 12 and the frame of a large page. -/
def setsReserved (level : Nat) (entry : BitVec 64) : Bool :=
  pageSize entry &&
    (level == 4 || (level != 1 && tableAddr entry / 2 ^ 13 % 2 ^ (levelShift level - 13) != 0))

/-- Translates `v` from the table at `table` on, `level` levels above the page. -/
def walkFrom (mem : Memory) (v : BitVec 64) : Nat → Nat → Bool → Walk
  | 0, frame, write => .page 12 (frame + v.toNat % 2 ^ 12) write
  | level + 1, table, write =>
    let entry := mem.read64 (table + 8 * tableIndex (level + 1) v)
    let write := write && writable entry
    if !present entry then .notPresent (level + 1)
    else if setsReserved (level + 1) entry then .reserved (level + 1)
    else if pageSize entry && level != 0 then
      let shift := levelShift (level + 1)
      .page shift (tableAddr entry / 2 ^ shift * 2 ^ shift + v.toNat % 2 ^ shift) write
    else walkFrom mem v level (tableAddr entry) write

/-- The 4-level walk from CR3. -/
def walk (mem : Memory) (cr3 : BitVec 64) (v : BitVec 64) : Walk :=
  walkFrom mem v 4 (tableAddr cr3) true

/-- The address is canonical for 48 bits: bits 63 to 47 agree. -/
def Canonical (v : BitVec 64) : Prop := v.toNat < 2 ^ 47 ∨ 2 ^ 64 - 2 ^ 47 ≤ v.toNat

instance (v : BitVec 64) : Decidable (Canonical v) := instDecidableOr

/-- The control registers select 4-level paging: CR0.PE and CR0.PG, CR4.PAE without CR4.LA57, and
EFER.LME with EFER.LMA. -/
def FourLevelPaging (cr0 cr4 efer : BitVec 64) : Prop :=
  cr0.getLsbD 0 = true ∧ cr0.getLsbD 31 = true ∧ cr4.getLsbD 5 = true ∧ cr4.getLsbD 12 = false ∧
    efer.getLsbD 8 = true ∧ efer.getLsbD 10 = true

end X86
