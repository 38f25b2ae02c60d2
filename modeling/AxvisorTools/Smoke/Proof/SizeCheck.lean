import AxvisorTools.Smoke.Proof.Identity
import AxvisorTools.Text.Proof.Grep

/-!
# What the memory-size check finds

`validate_case` of the memory-size harness looks for the hexadecimal text of the expected size anywhere
in the generated config. `validateMemCase_rejects_iff` says which other sizes it tells apart from the one
in the config.
-/

namespace Smoke.VmConfig

open Py

/-! ## The text that is searched -/

/-- `0x{v:08x}`. -/
def hexText (v : Nat) : Text := '0' :: 'x' :: formatHex 8 v

theorem sizeToHex_eq {special : Char → Text} {s : Text} {v : Nat}
    (h : parseSize special s = some (v : Int)) :
    Harness.sizeToHex special s = some (hexText v) := by
  have hopen : "0x" = ['0', 'x'] := by decide
  rw [sizeToHex_of_parseSize h, hopen]
  rfl

theorem digits_formatHex (n : Nat) : ∀ c ∈ formatHex 8 n, (digit? 16 c).isSome = true := by
  rw [formatHex_natCast]
  exact hexDigit_of_mem_leftpad 8 n

theorem length_formatHex (n : Nat) : 8 ≤ (formatHex 8 n).length := by
  rw [formatHex_natCast, List.length_leftpad]
  omega

theorem not_mem_hexText {c : Char} (hc : digit? 16 c = none) (hx : c ≠ 'x') (v : Nat) :
    c ∉ hexText v := by
  intro h
  rcases List.mem_cons.1 h with rfl | h
  · exact absurd hc (by decide)
  rcases List.mem_cons.1 h with h | h
  · exact hx h
  · have hdigit := digits_formatHex v c h
    rw [hc] at hdigit
    cases hdigit

theorem not_infix_quiet {l : Text} (hl : isQuiet l = true) (v : Nat) : ¬ hexText v <:+: l := by
  intro ⟨a, b, h⟩
  have htail : hexText v ++ b ∈ l.tails := by
    rw [List.mem_tails, ← h, List.append_assoc]
    exact List.suffix_append _ _
  have haddress : isAddress (hexText v ++ b) = true := by
    have htake : (formatHex 8 v ++ b).takeWhile (fun c => (digit? 16 c).isSome) =
        formatHex 8 v ++ b.takeWhile (fun c => (digit? 16 c).isSome) :=
      List.takeWhile_append_of_pos (digits_formatHex v)
    have hlen := length_formatHex v
    change decide (8 ≤ ((formatHex 8 v ++ b).takeWhile _).length) = true
    rw [htake, List.length_append, decide_eq_true_eq]
    omega
  rw [isQuiet, Bool.and_eq_true, Bool.not_eq_true', List.any_eq_false] at hl
  exact hl.2 _ htail haddress

theorem infix_hex_iff {v : Nat} {h : Text} (hh : ∀ c ∈ h, (digit? 16 c).isSome = true) :
    hexText v <:+: '0' :: 'x' :: h ↔ formatHex 8 v <+: h := by
  constructor
  · intro hin
    have hx : 'x' ∉ h := fun hmem => absurd (hh 'x' hmem) (by decide)
    rcases List.infix_cons_iff.1 hin with hpre | hin
    · rw [hexText, List.cons_prefix_cons, List.cons_prefix_cons] at hpre
      exact hpre.2.2
    · rcases List.infix_cons_iff.1 hin with hpre | hin
      · rw [hexText, List.cons_prefix_cons] at hpre
        exact absurd hpre.1 (by decide)
      · exact absurd (hin.subset (by simp [hexText])) hx
  · intro ⟨t, ht⟩
    exact ⟨[], t, by rw [← ht]; rfl⟩

theorem infix_short {v : Nat} {t : Text} (h : t.length < 10) : ¬ hexText v <:+: t := by
  intro hin
  have hle := hin.length_le
  have hlen := length_formatHex v
  rw [hexText, List.length_cons, List.length_cons] at hle
  omega

/-! ## The lines of the config -/

theorem infix_keyLine {v : Nat} {key value : Text} (hkey : ¬ hexText v <:+: key) :
    hexText v <:+: Gen.KernelKey.keyLine key value ↔ hexText v <:+: value := by
  have hquote : '"' ∉ hexText v := not_mem_hexText (by decide) (by decide) v
  have hblank : ' ' ∉ hexText v := not_mem_hexText (by decide) (by decide) v
  have hline : Gen.KernelKey.keyLine key value =
      key ++ ' ' :: (['=', ' '] ++ '"' :: (value ++ '"' :: [])) := by
    simp [Gen.KernelKey.keyLine]
  have hempty : ¬ hexText v <:+: [] := infix_short (by decide)
  have hequals : ¬ hexText v <:+: ['=', ' '] := infix_short (by decide)
  rw [hline, infix_append_sep hblank, infix_append_sep hquote, infix_append_sep hquote]
  simp only [hkey, hempty, hequals, false_or, or_false]

theorem infix_regionLine (v base n : Nat) :
    hexText v <:+: regionLine base n ↔
      formatHex 8 v <+: formatHex 8 base ∨ formatHex 8 v <+: formatHex 8 n := by
  have hbracket : '[' ∉ hexText v := not_mem_hexText (by decide) (by decide) v
  have hcomma : ',' ∉ hexText v := not_mem_hexText (by decide) (by decide) v
  have hblank : ' ' ∉ hexText v := not_mem_hexText (by decide) (by decide) v
  have hline : regionLine base n = [' ', ' '] ++ '[' :: (('0' :: 'x' :: formatHex 8 base) ++
      ',' :: ([] ++ ' ' :: (('0' :: 'x' :: formatHex 8 n) ++
        ',' :: [' ', '0', 'x', '7', ',', ' ', '1', ']', ',']))) := by
    rw [regionLine_eq, regionNumbers]
    simp
  have hstart : ¬ hexText v <:+: [' ', ' '] := infix_short (by decide)
  have hempty : ¬ hexText v <:+: [] := infix_short (by decide)
  have hend : ¬ hexText v <:+: [' ', '0', 'x', '7', ',', ' ', '1', ']', ','] :=
    infix_short (by decide)
  rw [hline, infix_append_sep hbracket, infix_append_sep hcomma, infix_append_sep hblank,
    infix_append_sep hcomma, infix_hex_iff (digits_formatHex base), infix_hex_iff (digits_formatHex n)]
  simp only [hstart, hempty, hend, false_or, or_false]

section Config

variable {v n : Nat} {cpuNum : Int} {ids : List Int} {ramdiskPath cmdline : Text}

theorem infix_generated (hcmdline : cmdline = rootfsCmdline ∨ cmdline = initramfsCmdline)
    (hramdisk : '\n' ∉ ramdiskPath) :
    hexText v <:+: unlines (generated cpuNum ids ramdiskPath cmdline 0x40000000 n) ↔
      hexText v <:+: ramdiskPath ∨ formatHex 8 v <+: formatHex 8 0x40000000 ∨
        formatHex 8 v <+: formatHex 8 n := by
  have hnewline : '\n' ∉ hexText v := not_mem_hexText (by decide) (by decide) v
  have hx : 'x' ∈ hexText v := by simp [hexText]
  have hcpus : ¬ hexText v <:+: cpuNumLine cpuNum := fun h =>
    not_mem_cpuNumLine (by decide) (by decide) (by decide) cpuNum (h.subset hx)
  have hids : ¬ hexText v <:+: physCpuIdsLine ids := fun h =>
    not_mem_physCpuIdsLine (by decide) (by decide) (by decide) (by decide) ids (h.subset hx)
  have hcmd : ¬ hexText v <:+: Gen.KernelKey.keyLine "cmdline" cmdline := by
    refine not_infix_quiet (quiet_fixedLines _ ?_) v
    rcases hcmdline with rfl | rfl <;> simp [fixedLines]
  have hkey : ¬ hexText v <:+: "ramdisk_path" := fun h =>
    absurd (h.subset hx) (by decide)
  have hregion := infix_regionLine v 0x40000000 n
  have hpath := @infix_keyLine v "ramdisk_path" ramdiskPath hkey
  rw [infix_iff_lines hnewline, lines_generated (plainPath_cmdline hcmdline).newline hramdisk]
  constructor
  · rintro ⟨l, hl, hin⟩
    rcases mem_config hl with hl | rfl | rfl | rfl | rfl | rfl
    · exact absurd hin (not_infix_quiet (quiet_fixedLines l (List.mem_append_left _ hl)) v)
    · exact absurd hin hcpus
    · exact absurd hin hids
    · exact .inl (hpath.1 hin)
    · exact absurd hin hcmd
    · exact .inr (hregion.1 hin)
  · intro h
    rcases h with h | h
    · exact ⟨_, by simp [generated, config], hpath.2 h⟩
    · exact ⟨_, by simp [generated, config], hregion.2 h⟩

end Config

/-! ## The check -/

theorem mem_fixed_first {l t : Text} {ls : List Text} (h : lines t = l :: ls) (hne : l ≠ []) :
    grep (Regex.fixed t) l = true := by
  have hl : '\n' ∉ l := unbroken_lines t l (h ▸ List.mem_cons_self)
  have hmem : l ∈ fileLines l := by
    rw [mem_fileLines hne, lines_of_not_mem hl]
    exact List.mem_cons_self
  rw [grep, List.any_eq_true]
  refine ⟨l, hmem, ?_⟩
  rw [Regex.fixed, h]
  change Regex.found (Regex.alts (Regex.lit l) (ls.map Regex.lit)) l = true
  rw [Regex.found_alts, (Regex.found_lit l l).2 (List.infix_refl l)]
  rfl

/-- Evidence of a run that passes every check but the one of the config. -/
def evidence (s config : Text) (name : String) : Option Text :=
  if name = Harness.vmConfig then some config
  else if name = "result.txt" then
    some (unlines ["AXVISOR_X86_NATIVE_GUEST_PASS=1", "ROOT_MOUNT_FS=ext4",
      "SMOKE_WRITE_TEST=1"])
  else if name = "qemu.log" then
    some (unlines ["VFS: Mounted root (ext4 filesystem)",
      "AXVISOR_X86_NATIVE_GUEST_PASS=1"])
  else (lines ("memmap=" ++ s ++ "$0x40000000")).head?

theorem first_line {t : Text} {c : Char} (hc : c ≠ '\n') (h : t.head? = some c) :
    ∃ l ls, lines t = l :: ls ∧ l ≠ [] := by
  obtain ⟨l, ls, hl⟩ := List.exists_cons_of_ne_nil (lines_ne_nil t)
  refine ⟨l, ls, hl, fun hnil => ?_⟩
  have ht : t = below ls := by
    rw [← unlines_lines t, hl, hnil]
    rfl
  rw [ht] at h
  exact hc (head_below h)

theorem validateMemCase_evidence (s config expected : Text) :
    Harness.validateMemCase s expected (evidence s config) =
      Harness.fileHas (some config) (Regex.lit expected) := by
  have hmemmap : ("memmap=" ++ s ++ "$0x40000000").head? = some 'm' := rfl
  obtain ⟨l, ls, hlines, hne⟩ := first_line (by decide) hmemmap
  have hrun : evidence s config "run.out" = some l := by
    have hother : "run.out" ≠ Harness.vmConfig ∧ "run.out" ≠ "result.txt" ∧
        "run.out" ≠ "qemu.log" := by decide
    rw [evidence, if_neg hother.1, if_neg hother.2.1, if_neg hother.2.2, hlines]
    rfl
  have hresult : ∀ line ∈ ["AXVISOR_X86_NATIVE_GUEST_PASS=1", "ROOT_MOUNT_FS=ext4",
      "SMOKE_WRITE_TEST=1"],
      Harness.hasLine (evidence [] [] "result.txt") line = true := by decide +kernel
  have hlog : Harness.has (evidence [] [] "qemu.log") "VFS: Mounted root (ext4 filesystem)" = true ∧
      Harness.has (evidence [] [] "qemu.log") "AXVISOR_X86_NATIVE_GUEST_PASS=1" = true ∧
      Harness.fileLacks (evidence [] [] "qemu.log") Harness.crashMarkersTrace = true := by
    decide +kernel
  have hsame : evidence s config "result.txt" = evidence [] [] "result.txt" ∧
      evidence s config "qemu.log" = evidence [] [] "qemu.log" ∧
      evidence s config Harness.vmConfig = some config := ⟨rfl, rfl, rfl⟩
  have hfixed : Harness.fileHas (some l)
      (Regex.fixed ("memmap=" ++ s ++ "$0x40000000")) = true :=
    mem_fixed_first hlines hne
  rw [Harness.validateMemCase, hrun, hsame.1, hsame.2.1, hsame.2.2, hfixed, hlog.1, hlog.2.1, hlog.2.2,
    hresult _ (by simp), hresult _ (by simp), hresult _ (by simp)]
  simp

theorem formatHex_prefix_iff (v n : Nat) :
    formatHex 8 v <+: formatHex 8 n ↔ v = n ∨ 2 ^ 28 ≤ v ∧ ∃ k, 0 < k ∧ n / 16 ^ k = v := by
  rw [formatHex_natCast, formatHex_natCast]
  exact leftpad_prefix_iff 7 v n

/-- The text of the base has as many digits as the texts are padded to. -/
theorem formatHex_prefix_base (v : Nat) : formatHex 8 v <+: formatHex 8 0x40000000 ↔ v = 0x40000000 := by
  refine (formatHex_prefix_iff v 0x40000000).trans ⟨fun h => ?_, .inl⟩
  rcases h with h | ⟨hle, k, hk, hdiv⟩
  · exact h
  · have hpow : 16 ^ 1 ≤ 16 ^ k := Nat.pow_le_pow_right (by decide) hk
    have hquot : 0x40000000 / 16 ^ k ≤ 0x40000000 / 16 ^ 1 := Nat.div_le_div_left hpow (by decide)
    omega

/-- **What the check tells apart.** A config with `n` bytes of memory is rejected for another size, of `v`
bytes, unless the text of that size is the one of the base, starts the text of `n` or stands in the path
of the ramdisk. -/
theorem validateMemCase_rejects_iff {special : Char → Text} {env : Env} {s out : Text} {v n : Nat}
    (hv : parseSize special s = some (v : Int)) (hne : n ≠ v)
    (hbase : parseBase env.identityRamBase = some 0x40000000)
    (hn : parseSize special env.identityRamSize = some (n : Int))
    (hpath : '\\' ∉ env.ramdiskPath ∧ '\n' ∉ env.ramdiskPath)
    (h : prepareVmConfig special (unlines template) env = .ok out) :
    (∀ expected file, Harness.sizeToHex special s = some expected → file Harness.vmConfig = some out →
      Harness.validateMemCase s expected file = false) ↔
      v ≠ 0x40000000 ∧ ¬ (2 ^ 28 ≤ v ∧ ∃ k, 0 < k ∧ n / 16 ^ k = v) ∧
        ¬ "0x".toList ++ Harness.hex08 v <:+: env.ramdiskPath := by
  obtain ⟨cmdline, ramdiskPath, cpuNum, ids, base, size, hboot, hcpus, hbase', hsize⟩ :=
    prepareVmConfig_ok h
  obtain ⟨hcmdline, rfl⟩ := bootArguments_ok hboot
  rw [prepareVmConfig_eq hboot hcpus hbase hn hpath.1 hpath.2] at h
  cases h
  have hexpected := sizeToHex_eq hv
  have hfound : Harness.fileHas (some (unlines (generated cpuNum ids env.ramdiskPath cmdline
      0x40000000 n))) (Regex.lit (hexText v)) = true ↔
      hexText v <:+: env.ramdiskPath ∨ v = 0x40000000 ∨
        2 ^ 28 ≤ v ∧ ∃ k, 0 < k ∧ n / 16 ^ k = v := by
    have hhex : hexText v ≠ [] := List.cons_ne_nil _ _
    have hnewline : '\n' ∉ hexText v := not_mem_hexText (by decide) (by decide) v
    rw [Harness.fileHas, Option.any_some, grep_lit_iff hnewline hhex, infix_generated hcmdline hpath.2,
      formatHex_prefix_base, formatHex_prefix_iff, or_iff_right hne.symm]
  have htext : "0x".toList ++ Harness.hex08 v = hexText v := by
    have hopen : "0x".toList = ['0', 'x'] := by decide
    rw [hopen]
    rfl
  rw [htext]
  constructor
  · intro hreject
    have hfalse := hreject _ (evidence s _) hexpected rfl
    rw [validateMemCase_evidence] at hfalse
    have hnot := mt hfound.2 (by rw [hfalse]; decide)
    simp only [not_or] at hnot
    exact ⟨hnot.2.1, hnot.2.2, hnot.1⟩
  · intro ⟨hne', hstart, hramdisk⟩ expected file hexpected' hfile
    rw [hexpected] at hexpected'
    cases hexpected'
    have hnot := mt hfound.1 (by simp only [not_or]; exact ⟨hramdisk, hne', hstart⟩)
    rw [Harness.validateMemCase, hfile, Bool.eq_false_of_not_eq_true hnot]
    rfl

theorem validateMemCase_rejects_half :
    Harness.sizeToHex (fun _ => []) "64M" = some (hexText 0x4000000) ∧
      Harness.validateMemCase "64M" (hexText 0x4000000)
        (evidence "64M" (defaultConfig 0x8000000)) = false := by
  have hsize : parseSize (fun _ => []) "128M" = some (0x8000000 : Nat) := by decide
  have hbase : parseBase "0x40000000" = some 0x40000000 := by decide +kernel
  have hpath : (defaultEnv "128M").ramdiskPath = [] := rfl
  have hv : parseSize (fun _ => []) "64M" = some (0x4000000 : Nat) := by decide
  have hok := prepareVmConfig_default hsize
  have hexpected : Harness.sizeToHex (fun _ => []) "64M" = some (hexText 0x4000000) := by
    decide +kernel
  refine ⟨hexpected, (validateMemCase_rejects_iff hv (by decide) hbase hsize ?_ hok).2
    ⟨by decide, ?_, ?_⟩ _ _ hexpected rfl⟩
  · rw [hpath]
    exact ⟨List.not_mem_nil, List.not_mem_nil⟩
  · intro hstart
    exact absurd hstart.1 (by decide)
  · rw [hpath]
    decide

/-- The text of one gigabyte is the text of the base: a config with 128 megabytes passes for it. -/
theorem validateMemCase_base : ∃ out file,
    prepareVmConfig (fun _ => []) (unlines template) (defaultEnv "128M") = .ok out ∧
      file Harness.vmConfig = some out ∧
      Harness.sizeToHex (fun _ => []) "1G".toList = some "0x40000000".toList ∧
      Harness.validateMemCase "1G".toList "0x40000000".toList file = true := by
  have hsize : parseSize (fun _ => []) "128M".toList = some (0x8000000 : Nat) := by decide
  have hone : parseSize (fun _ => []) "1G".toList = some (0x40000000 : Nat) := by decide
  refine ⟨_, evidence "1G".toList _, prepareVmConfig_default hsize, rfl, by decide +kernel, ?_⟩
  have htext : "0x40000000".toList = hexText 0x40000000 := by decide +kernel
  have hnewline : '\n' ∉ hexText 0x40000000 := not_mem_hexText (by decide) (by decide) _
  rw [validateMemCase_evidence, htext, Harness.fileHas, Option.any_some,
    grep_lit_iff hnewline (List.cons_ne_nil _ _), defaultConfig,
    infix_generated (.inl rfl) List.not_mem_nil]
  exact .inr (.inl List.prefix_rfl)

end Smoke.VmConfig
