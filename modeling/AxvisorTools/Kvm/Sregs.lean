import AxvisorTools.X86.Paging

/-!
# The boot state the Firecracker init smoke gives its guest

`axvisor-kvm-firecracker-init-smoke.c` prepares the special registers and the low guest memory of
a vCPU the way Firecracker does: a four-entry GDT, an empty IDT and page tables for 64-bit mode.
The C integers are bit vectors of their own width, so every shift drops what it drops there.
-/

namespace Kvm

open X86

/-- `struct kvm_segment`, without its padding. -/
structure Segment where
  base : BitVec 64
  limit : BitVec 32
  selector : BitVec 16
  type : BitVec 8
  present : BitVec 8
  dpl : BitVec 8
  db : BitVec 8
  s : BitVec 8
  l : BitVec 8
  g : BitVec 8
  avl : BitVec 8
  unusable : BitVec 8
deriving DecidableEq, Repr

/-- `struct kvm_dtable`, without its padding. -/
structure Dtable where
  base : BitVec 64
  limit : BitVec 16
deriving DecidableEq, Repr

/-- The part of `struct kvm_sregs` that the setup touches. -/
structure Sregs where
  cs : Segment
  ds : Segment
  es : Segment
  fs : Segment
  gs : Segment
  ss : Segment
  tr : Segment
  gdt : Dtable
  idt : Dtable
  cr0 : BitVec 64
  cr3 : BitVec 64
  cr4 : BitVec 64
  efer : BitVec 64
deriving DecidableEq, Repr

def fcBootGdtOffset : Nat := 0x500
def fcBootIdtOffset : Nat := 0x520
def fcPml4Start : Nat := 0x9000
def fcPdpteStart : Nat := 0xa000
def fcPdeStart : Nat := 0xb000

def fcEferLme : BitVec 64 := 0x100
def fcEferLma : BitVec 64 := 0x400
def fcCr0Pe : BitVec 64 := 0x1
def fcCr0Pg : BitVec 64 := 0x80000000
def fcCr4Pae : BitVec 64 := 0x20

/-! ## Segment descriptors -/

/-- `gdt_entry`. -/
def gdtEntry (flags base limit : BitVec 32) : BitVec 64 :=
  (limit.setWidth 64 &&& 0xffff#64)
    ||| ((base.setWidth 64 &&& 0xffffff#64) <<< 16)
    ||| (flags.setWidth 64 <<< 40)
    ||| (((limit >>> 16).setWidth 64 &&& 0xf#64) <<< 48)
    ||| (((base >>> 24).setWidth 64 &&& 0xff#64) <<< 56)

/-- The unscaled limit `segment_from_gdt` puts together first. -/
def rawLimit (entry : BitVec 64) : BitVec 32 :=
  ((entry &&& 0xffff#64) ||| ((entry >>> 32) &&& 0xf0000#64)).setWidth 32

/-- `(entry >> pos) & mask`, stored in a one-byte field. -/
def byteField (entry : BitVec 64) (pos : Nat) (mask : BitVec 64) : BitVec 8 :=
  ((entry >>> pos) &&& mask).setWidth 8

/-- `segment_from_gdt`. -/
def segmentFromGdt (entry : BitVec 64) (selector : BitVec 16) : Segment where
  base := ((entry >>> 16) &&& 0xffffff#64) ||| ((entry >>> 32) &&& 0xff000000#64)
  limit :=
    if entry &&& (1#64 <<< 55) ≠ 0 then (rawLimit entry <<< 12) ||| 0xfff#32
    else rawLimit entry
  selector := selector
  type := byteField entry 40 0xf
  s := byteField entry 44 0x1
  dpl := byteField entry 45 0x3
  present := byteField entry 47 0x1
  avl := byteField entry 52 0x1
  l := byteField entry 53 0x1
  db := byteField entry 54 0x1
  g := byteField entry 55 0x1
  unusable := if byteField entry 47 0x1 = 0 then 1 else 0

/-! ## The setup -/

/-- The `gdt` array of `setup_firecracker_sregs`. -/
def bootGdt : List (BitVec 64) :=
  [0, gdtEntry 0xa09b 0 0xfffff, gdtEntry 0xc093 0 0xfffff, gdtEntry 0x808b 0 0xfffff]

/-- The GDT entries, one `write_u64` each, and the empty IDT. -/
def writeDescriptorTables (mem : Memory) : Memory :=
  let mem := mem.writeEntries fcBootGdtOffset 4 (fun i => bootGdt.getD i 0)
  mem.write64 fcBootIdtOffset 0

/-- The page tables: one PML4 entry, one PDPT entry, 512 page-directory entries. -/
def writePageTables (mem : Memory) : Memory :=
  let mem := mem.write64 fcPml4Start (BitVec.ofNat 64 fcPdpteStart ||| 0x3)
  let mem := mem.write64 fcPdpteStart (BitVec.ofNat 64 fcPdeStart ||| 0x3)
  mem.writeEntries fcPdeStart 512 (fun i => (BitVec.ofNat 64 i <<< 21) ||| 0x83)

/-- `setup_firecracker_sregs`: the guest memory and the special registers it leaves. -/
def setupFirecrackerSregs (mem : Memory) (sregs : Sregs) : Memory × Sregs :=
  let code := bootGdt.getD 1 0
  let data := bootGdt.getD 2 0
  let tss := bootGdt.getD 3 0
  (writePageTables (writeDescriptorTables mem),
    { cs := segmentFromGdt code (1 <<< 3)
      ds := segmentFromGdt data (2 <<< 3)
      es := segmentFromGdt data (2 <<< 3)
      fs := segmentFromGdt data (2 <<< 3)
      gs := segmentFromGdt data (2 <<< 3)
      ss := segmentFromGdt data (2 <<< 3)
      tr := segmentFromGdt tss (3 <<< 3)
      gdt := { base := BitVec.ofNat 64 fcBootGdtOffset, limit := 4 * 8 - 1 }
      idt := { base := BitVec.ofNat 64 fcBootIdtOffset, limit := 8 - 1 }
      cr3 := BitVec.ofNat 64 fcPml4Start
      cr4 := sregs.cr4 ||| fcCr4Pae
      cr0 := sregs.cr0 ||| (fcCr0Pe ||| fcCr0Pg)
      efer := sregs.efer ||| (fcEferLme ||| fcEferLma) })

end Kvm
