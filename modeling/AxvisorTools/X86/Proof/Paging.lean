import AxvisorTools.X86.Paging

/-!
# Reading back what was written, and one level of the walk

The frame and read-back lemmas of 64-bit stores, the same for a loop that stores consecutive
entries of a table, and the three ways one level of a page walk goes on.
-/

namespace X86

namespace Memory

variable {mem mem' : Memory} {addr a n : Nat} {val : BitVec 64}

/-! ## Single stores -/

theorem write64_of_outside (h : a < addr ∨ addr + 8 ≤ a) : mem.write64 addr val a = mem a :=
  if_neg (by omega)

theorem write64_at {k : Nat} (h : k < 8) :
    mem.write64 addr val (addr + k) = val.extractLsb' (8 * k) 8 := by
  unfold write64
  rw [if_pos (by omega), Nat.add_sub_cancel_left]

theorem write64_congr (h : mem a = mem' a) : mem.write64 addr val a = mem'.write64 addr val a := by
  unfold write64
  rw [h]

/-- A 64-bit read depends on its eight bytes only. -/
theorem read64_congr (h : ∀ k < 8, mem (addr + k) = mem' (addr + k)) :
    mem.read64 addr = mem'.read64 addr := by
  have h0 := h 0 (by omega)
  unfold read64
  rw [h 7 (by omega), h 6 (by omega), h 5 (by omega), h 4 (by omega), h 3 (by omega),
    h 2 (by omega), h 1 (by omega), show mem addr = mem' addr from h0]

theorem read64_write64 : (mem.write64 addr val).read64 addr = val := by
  have h0 : mem.write64 addr val addr = val.extractLsb' 0 8 := @write64_at mem addr val 0 (by omega)
  unfold read64
  rw [h0, write64_at (by omega), write64_at (by omega), write64_at (by omega),
    write64_at (by omega), write64_at (by omega), write64_at (by omega), write64_at (by omega)]
  apply BitVec.eq_of_getLsbD_eq
  intro i hi
  simp only [BitVec.getLsbD_append, BitVec.getLsbD_extractLsb']
  grind

theorem read64_write64_of_disjoint (h : a + 8 ≤ addr ∨ addr + 8 ≤ a) :
    (mem.write64 addr val).read64 a = mem.read64 a :=
  read64_congr fun k hk => write64_of_outside (by omega)

theorem read64_zero (h : ∀ k < 8, mem (addr + k) = 0) : mem.read64 addr = 0 := by
  have hzero : mem.read64 addr = zero.read64 addr := read64_congr h
  rw [hzero]
  simp only [read64, zero]
  decide

/-! ## Tables -/

variable {base : Nat} {f : Nat → BitVec 64}

theorem writeEntries_succ : mem.writeEntries base (n + 1) f
    = (mem.writeEntries base n f).write64 (base + n * 8) (f n) := by
  simp [writeEntries, List.range_succ]

theorem writeEntries_of_outside (h : a < base ∨ base + n * 8 ≤ a) :
    mem.writeEntries base n f a = mem a := by
  induction n with
  | zero => rfl
  | succ n ih =>
    rw [writeEntries_succ, write64_of_outside (by omega)]
    exact ih (by omega)

theorem writeEntries_congr (h : mem a = mem' a) :
    mem.writeEntries base n f a = mem'.writeEntries base n f a := by
  induction n with
  | zero => exact h
  | succ n ih =>
    rw [writeEntries_succ, writeEntries_succ]
    exact write64_congr ih

theorem read64_writeEntries {i : Nat} (h : i < n) :
    (mem.writeEntries base n f).read64 (base + i * 8) = f i := by
  induction n with
  | zero => omega
  | succ n ih =>
    rw [writeEntries_succ]
    by_cases hi : i = n
    · subst hi
      exact read64_write64
    · rw [read64_write64_of_disjoint (by omega)]
      exact ih (by omega)

end Memory

/-! ## One level of the walk -/

section

variable {mem : Memory} {v : BitVec 64} {level table : Nat} {write : Bool}

theorem walkFrom_notPresent
    (h : present (mem.read64 (table + 8 * tableIndex (level + 1) v)) = false) :
    walkFrom mem v (level + 1) table write = .notPresent (level + 1) := by
  unfold walkFrom
  simp [h]

theorem walkFrom_table {entry : BitVec 64}
    (hread : mem.read64 (table + 8 * tableIndex (level + 1) v) = entry)
    (hpresent : present entry = true) (hwritable : writable entry = true)
    (hsize : pageSize entry = false) :
    walkFrom mem v (level + 1) table write = walkFrom mem v level (tableAddr entry) write := by
  rw [walkFrom, hread]
  simp [hpresent, hwritable, hsize, setsReserved]

theorem walkFrom_page {entry : BitVec 64}
    (hread : mem.read64 (table + 8 * tableIndex (level + 1) v) = entry)
    (hpresent : present entry = true) (hwritable : writable entry = true)
    (hsize : pageSize entry = true) (hreserved : setsReserved (level + 1) entry = false)
    (hlevel : level ≠ 0) :
    walkFrom mem v (level + 1) table write =
      .page (levelShift (level + 1))
        (tableAddr entry / 2 ^ levelShift (level + 1) * 2 ^ levelShift (level + 1)
          + v.toNat % 2 ^ levelShift (level + 1)) write := by
  rw [walkFrom, hread]
  simp [hpresent, hwritable, hsize, hreserved, hlevel]

end

end X86
