import AxvisorTools.Smoke.Proof.RamSize
import AxvisorTools.Smoke.Proof.Region

/-!
# Reserved memory and guest memory

The host kernel is told by `memmap=` to keep off the memory that the generated config gives the guest.
`identityMemory_iff` says for which strings the two are the same range: a size with a suffix of two
letters, with underscores or with blanks around it is read by `parse_size` but reserves nothing.
-/

namespace Smoke.VmConfig

open Py

theorem guestRegion_of_ok {special : Char → Text} {env : Env} {out : Text}
    (hpath : PlainPath env.ramdiskPath) (h : prepareVmConfig special (unlines template) env = .ok out) :
    ∃ base size, parseBase env.identityRamBase = some base ∧
      parseSize special env.identityRamSize = some size ∧
      guestRegion out = if 0 ≤ base ∧ 0 ≤ size then some ⟨base.toNat, size.toNat⟩ else none := by
  obtain ⟨cmdline, ramdiskPath, cpuNum, ids, base, size, hboot, hcpus, hbase, hsize⟩ :=
    prepareVmConfig_ok h
  obtain ⟨hcmdline, rfl⟩ := bootArguments_ok hboot
  rw [prepareVmConfig_eq hboot hcpus hbase hsize hpath.2.1 hpath.newline] at h
  cases h
  exact ⟨base, size, hbase, hsize, guestRegion_generated (plainPath_cmdline hcmdline) hpath⟩

/-- **When the reserved memory is the guest's.** Both numbers are not negative, and a size that is not
zero and a base that is not zero are numerals below `2 ^ 64` in hexadecimal or in decimal, the size with
at most one of the letters `K`, `M` and `G`, the base with nothing but blanks and underscores after it. -/
theorem identityMemory_iff {special : Char → Text} {env : Env} {out : Text}
    (hpath : PlainPath env.ramdiskPath) (h : prepareVmConfig special (unlines template) env = .ok out) :
    (∃ r, guestRegion out = some r ∧ Linux.reserved (memmapValue env) = r.addresses) ↔
      ∃ b s : Nat, parseBase env.identityRamBase = some (b : Int) ∧
        parseSize special env.identityRamSize = some (s : Int) ∧
        (s = 0 ∨ s < 2 ^ 64 ∧ PlainSize env.identityRamSize ∧
          (b = 0 ∨ b < 2 ^ 64 ∧ PlainBase env.identityRamBase)) := by
  obtain ⟨base, size, hbase, hsize, hguest⟩ := guestRegion_of_ok hpath h
  constructor
  · intro ⟨r, hr, hreserved⟩
    rw [hguest] at hr
    split at hr
    · rename_i hnonneg
      cases hr
      obtain ⟨b, rfl⟩ := Int.eq_ofNat_of_zero_le hnonneg.1
      obtain ⟨s, rfl⟩ := Int.eq_ofNat_of_zero_le hnonneg.2
      exact ⟨b, s, hbase, hsize, (reserved_iff hbase hsize).1 hreserved⟩
    · cases hr
  · intro ⟨b, s, hb, hs, hread⟩
    rw [hbase] at hb
    rw [hsize] at hs
    cases hb
    cases hs
    rw [if_pos ⟨Int.natCast_nonneg b, Int.natCast_nonneg s⟩] at hguest
    exact ⟨⟨b, s⟩, hguest, (reserved_iff hbase hsize).2 hread⟩

/-- The defaults of the script, with a size. -/
def defaultEnv (size : String) : Env where
  bootMode := "rootfs"
  guestInitramfsImg := []
  identityRamBase := "0x40000000"
  identityRamSize := size.toList
  cpuNum := ['1']
  physCpuIds := "auto"

def defaultConfig (size : Int) : Text := unlines (generated 1 [0] [] rootfsCmdline 0x40000000 size)

theorem prepareVmConfig_default {size : String} {n : Int}
    (h : parseSize (fun _ => []) size.toList = some n) :
    prepareVmConfig (fun _ => []) (unlines template) (defaultEnv size) = .ok (defaultConfig n) := by
  have hboot : bootArguments (defaultEnv size) = .ok (rootfsCmdline, []) := if_pos rfl
  have hcpus : readCpus (defaultEnv size) = .ok (1, [0]) := rfl
  have hbase : parseBase "0x40000000" = some 0x40000000 := by decide +kernel
  exact prepareVmConfig_eq hboot hcpus hbase h List.not_mem_nil List.not_mem_nil

theorem identityMemory_default : ∃ out r,
    prepareVmConfig (fun _ => []) (unlines template) (defaultEnv "128M") = .ok out ∧
      guestRegion out = some r ∧ Linux.reserved (memmapValue (defaultEnv "128M")) = r.addresses := by
  have hsize : parseSize (fun _ => []) "128M" = some (0x8000000 : Nat) := by decide
  have hbase : parseBase "0x40000000" = some (0x40000000 : Nat) := by decide +kernel
  have hread : PlainSize "128M" ∧ PlainBase "0x40000000" :=
    ⟨⟨10, _, "128", ['M'], .dec (by decide) (by decide) (by decide), by decide,
      .inr ⟨'M', by decide, rfl⟩⟩, ⟨16, "40000000", _, [], .hex (.inl rfl) (by decide) (by decide),
      by decide, by decide⟩⟩
  have hok := prepareVmConfig_default hsize
  have hpath : PlainPath (defaultEnv "128M").ramdiskPath := plainPath_nil
  obtain ⟨r, hguest, hreserved⟩ := (identityMemory_iff hpath hok).2
    ⟨0x40000000, 0x8000000, hbase, hsize,
      .inr ⟨by decide, hread.1, .inr ⟨by decide, hread.2⟩⟩⟩
  exact ⟨_, r, hok, hguest, hreserved⟩

/-- `parse_size` takes `128MB` for 128 MiB of guest memory, of which the kernel reserves nothing. -/
theorem identityMemory_twoLetters : ∃ out,
    prepareVmConfig (fun _ => []) (unlines template) (defaultEnv "128MB") = .ok out ∧
      guestRegion out = some ⟨0x40000000, 0x8000000⟩ ∧
      Linux.reserved (memmapValue (defaultEnv "128MB")) = ∅ := by
  have hsize : parseSize (fun _ => []) "128MB" = some 0x8000000 := by decide
  refine ⟨_, prepareVmConfig_default hsize, ?_, ?_⟩
  · rw [defaultConfig, guestRegion_generated (plainPath_cmdline (.inl rfl)) plainPath_nil]
    rfl
  · have hrange : Linux.memmapRange (memmapValue (defaultEnv "128MB")) = none := by decide
    rw [Linux.reserved, hrange]

end Smoke.VmConfig
