import AxvisorTools.Smoke.Proof.VmConfig
import AxvisorTools.Toml.Proof.Array

/-!
# The memory regions of the generated config

`guestRegion_generated` reads the first entry of `memory_regions` back: the base and the size that were
parsed, unless one of them is negative.
-/

namespace Smoke.VmConfig

open Py

/-! ## The entry -/

theorem hex_chars (n : Int) : ∀ c ∈ '0' :: 'x' :: formatHex 8 n, c ≠ ',' ∧ Toml.isBlank c = false := by
  have hnot : ∀ c ∈ [',', ' ', '\t'], c ∉ '0' :: 'x' :: formatHex 8 n := by
    have hother : ∀ c ∈ [',', ' ', '\t'],
        c ≠ '0' ∧ c ≠ 'x' ∧ c ≠ '-' ∧ (digit? 16 c).isSome = false := by decide
    intro c hc hmem
    obtain ⟨hzero, hx, hminus, hdigit⟩ := hother c hc
    rcases List.mem_cons.1 hmem with hmem | hmem
    · exact hzero hmem
    rcases List.mem_cons.1 hmem with hmem | hmem
    · exact hx hmem
    rcases mem_formatHex hmem with hmem | hmem
    · exact hminus hmem
    · rw [hdigit] at hmem
      cases hmem
  intro c hc
  refine ⟨fun h => hnot ',' (by decide) (h ▸ hc), ?_⟩
  by_contra hblank
  rw [Bool.not_eq_false, Toml.isBlank, Bool.or_eq_true, beq_iff_eq, beq_iff_eq] at hblank
  rcases hblank with rfl | rfl
  · exact hnot _ (by decide) hc
  · exact hnot _ (by decide) hc

theorem row_identityRegion (base size : Int) :
    Toml.row (regionNumbers base size) = if 0 ≤ base ∧ 0 ≤ size then some [base, size, 7, 1] else none := by
  have hcomma : ∀ n, ',' ∉ '0' :: 'x' :: formatHex 8 n := fun n h => (hex_chars n _ h).1 rfl
  have hcomma' : ∀ n, ',' ∉ ' ' :: '0' :: 'x' :: formatHex 8 n := fun n h =>
    (List.mem_cons.1 h).elim (by decide) (hcomma n)
  have htrim : ∀ n, (((Toml.skipBlanks ('0' :: 'x' :: formatHex 8 n)).reverse.dropWhile
      Toml.isBlank).reverse) = '0' :: 'x' :: formatHex 8 n :=
    fun n => Toml.trim_eq rfl fun c hc => (hex_chars n c hc).2
  have htrim' : ∀ n, (((Toml.skipBlanks (' ' :: '0' :: 'x' :: formatHex 8 n)).reverse.dropWhile
      Toml.isBlank).reverse) = '0' :: 'x' :: formatHex 8 n :=
    fun n => Toml.trim_eq rfl fun c hc => (hex_chars n c hc).2
  have htext : regionNumbers base size = ('0' :: 'x' :: formatHex 8 base) ++ ',' ::
        ((' ' :: '0' :: 'x' :: formatHex 8 size) ++ ',' :: [' ', '0', 'x', '7', ',', ' ', '1']) := by
    simp [regionNumbers]
  have hlast : Toml.row [' ', '0', 'x', '7', ',', ' ', '1'] = some [7, 1] := by decide
  rw [htext, Toml.row_cons (hcomma base), Toml.row_cons (hcomma' size), htrim, htrim',
    Toml.integer_hex, Toml.integer_hex, hlast]
  split_ifs <;> simp_all

/-! ## The lines before it -/

def baseTable : List Text := ["base"]

def kernelTable : List Text := ["kernel"]

def regionsName : Text := "memory_regions"

theorem inert_str (n : Int) : ∀ c ∈ str n, Toml.isInert c = true := by
  intro c hc
  by_contra hno
  simp only [Toml.isInert, decide_eq_true_eq, not_not] at hno
  have hother : ∀ c ∈ ['#', '"', '\'', '[', '{', ']', '}', '='], digit? 10 c = none ∧ c ≠ '-' := by
    decide
  exact digit_not_mem (hother c hno).1 (hother c hno).2 n hc

theorem readValue_str (n : Int) : Toml.readValue (' ' :: str n) = some (.other, []) := by
  have hinert := inert_str n
  have hblank : ∀ c ∈ str n, Toml.isBlank c = false := by
    intro c hc
    by_contra hno
    rw [Bool.not_eq_false, Toml.isBlank, Bool.or_eq_true, beq_iff_eq, beq_iff_eq] at hno
    rcases hno with rfl | rfl
    · exact digit_not_mem (by decide) (by decide) n hc
    · exact digit_not_mem (by decide) (by decide) n hc
  cases hn : str n with
  | nil => exact absurd hn (str_ne_nil n)
  | cons c t =>
    rw [hn] at hinert hblank
    have hc := hinert c List.mem_cons_self
    simp only [Toml.isInert, decide_eq_true_eq, List.mem_cons, not_or] at hc
    rw [Toml.readValue_plain (hblank c List.mem_cons_self) hc.1 hc.2.1 hc.2.2.1,
      Toml.scan_inert_end hinert]
    rfl

theorem readLine_cpuNum (n : Int) :
    (Toml.readLine ⟨baseTable, []⟩ (cpuNumLine n)).2 = ⟨baseTable, []⟩ := by
  have hkey : cpuNumKey = "cpu_num" ++ " =" ++ [' '] := by decide
  have hline : cpuNumLine n = "cpu_num" ++ " =" ++ (' ' :: str n) :=
    (congrArg (· ++ str n) hkey).trans (List.append_assoc _ [' '] _)
  have hreturn : '\r' ∉ cpuNumLine n := not_mem_cpuNumLine (by decide) (by decide) (by decide) n
  rw [hline] at hreturn ⊢
  have hread := @Toml.readLine_key ⟨baseTable, []⟩ rfl "cpu_num" (by decide) (' ' :: str n)
    (Toml.chomp_of_not_mem hreturn)
  rw [hread, readValue_str]

theorem readLine_physCpuIds (ids : List Int) :
    (Toml.readLine ⟨baseTable, []⟩ (physCpuIdsLine ids)).2 = ⟨baseTable, []⟩ := by
  have hkey : physCpuIdsKey = "phys_cpu_ids" ++ " =" ++ [' ', '['] := by decide
  have hassoc : ∀ a b x y : Text, a ++ b ++ x ++ y = a ++ (b ++ (x ++ y)) := by simp
  have hline : physCpuIdsLine ids = "phys_cpu_ids" ++ " =" ++
      (' ' :: '[' :: ([',', ' '].intercalate (ids.map str) ++ [']'])) :=
    (congrArg (· ++ [',', ' '].intercalate (ids.map str) ++ [']']) hkey).trans
      (hassoc _ [' ', '['] _ _)
  have hreturn : '\r' ∉ physCpuIdsLine ids :=
    not_mem_physCpuIdsLine (by decide) (by decide) (by decide) (by decide) ids
  have hitems : ∀ c ∈ [',', ' '].intercalate (ids.map str), Toml.isInert c = true := by
    intro c hc
    by_contra hno
    refine not_mem_intercalate (fun hsep => ?_) (fun t ht => ?_) hc
    · have hall : ∀ c ∈ [',', ' '], Toml.isInert c = true := by decide
      exact hno (hall c hsep)
    · obtain ⟨n, -, rfl⟩ := List.mem_map.1 ht
      exact fun hmem => hno (inert_str n c hmem)
  have hvalue : Toml.readValue (' ' :: '[' :: ([',', ' '].intercalate (ids.map str) ++ [']'])) =
      some (.other, []) := by
    rw [Toml.readValue_plain (by decide) (by decide) (by decide) (by decide), Toml.scan_open,
      Toml.scan_inert hitems]
    rfl
  rw [hline] at hreturn ⊢
  have hread := @Toml.readLine_key ⟨baseTable, []⟩ rfl "phys_cpu_ids" (by decide) _
    (Toml.chomp_of_not_mem hreturn)
  rw [hread, hvalue]

/-- The lines of the array that are not rewritten. -/
def moreRegions : List Text := bottom.take 2

/-- The line that opens the array. -/
def regionsOpen : Text := regions.getD 0 []

/-- What stands between the brackets of the array and of its first entry. -/
def regionsBetween : Text := '\n' :: (above (regions.drop 1) ++ [' ', ' '])

/-- The lines pass without the array, and the table after them is another one. -/
def PassesTo (s s' : Toml.State) (ks : List Text) : Prop :=
  (∀ r ∈ Toml.readLines s ks, ¬ (r.table = kernelTable ∧ r.role.isPair regionsName)) ∧ s.after ks = s'

instance (s s' : Toml.State) (ks : List Text) : Decidable (PassesTo s s' ks) :=
  inferInstanceAs (Decidable (_ ∧ _))

theorem PassesTo.valueFrom {s s' : Toml.State} {ks : List Text} (h : PassesTo s s' ks)
    (ls : List Text) : Toml.valueFrom kernelTable regionsName s (ks ++ ls) =
      Toml.valueFrom kernelTable regionsName s' ls := by
  rw [Toml.valueFrom_append h.1, h.2]

-- as in `fixedLines_checked`, the lines of the template are read once for all
theorem template_read :
    (PassesTo Toml.start ⟨baseTable, []⟩ top ∧ PassesTo ⟨baseTable, []⟩ ⟨kernelTable, []⟩ middle ∧
      PassesTo ⟨kernelTable, []⟩ ⟨kernelTable, []⟩ loadAddr) ∧
    ((Toml.readLine ⟨kernelTable, []⟩ regionsOpen).1.isPair regionsName = true ∧
      (Toml.readLine ⟨kernelTable, []⟩ regionsOpen).2 = ⟨kernelTable, [.square]⟩ ∧
      Toml.afterEquals regionsOpen = some [' ', '[']) ∧
    (∀ k ∈ regions.drop 1,
      (Toml.readLine ⟨kernelTable, [.square]⟩ k).2 = ⟨kernelTable, [.square]⟩) ∧
    Toml.continued ⟨kernelTable, [.square]⟩ bottom = moreRegions ∧
    Toml.skipped false regionsBetween = some false ∧
    ∀ t ∈ [rootfsCmdline, initramfsCmdline], '"' ∉ t ∧ '\\' ∉ t ∧ Toml.IsStringText t := by
  decide +kernel

theorem valueFrom_base {l : Text} (h : (Toml.readLine ⟨baseTable, []⟩ l).2 = ⟨baseTable, []⟩)
    (ls : List Text) :
    Toml.valueFrom kernelTable regionsName ⟨baseTable, []⟩ (l :: ls) =
      Toml.valueFrom kernelTable regionsName ⟨baseTable, []⟩ ls := by
  have hne : ¬ (baseTable = kernelTable) := by decide
  rw [Toml.valueFrom, if_neg (fun h => hne h.1), h]

theorem valueFrom_key {key value : Text} (hk : Toml.IsBareKey key) (hq : '"' ∉ value)
    (hb : '\\' ∉ value) (hv : Toml.IsStringText value) (hne : key ≠ regionsName) (ls : List Text) :
    Toml.valueFrom kernelTable regionsName ⟨kernelTable, []⟩
      (Gen.KernelKey.keyLine key value :: ls) =
      Toml.valueFrom kernelTable regionsName ⟨kernelTable, []⟩ ls := by
  have hread : Toml.readLine ⟨kernelTable, []⟩ (Gen.KernelKey.keyLine key value) =
      (.entry [key] (.string value), ⟨kernelTable, []⟩) :=
    Toml.readLine_stringPair kernelTable hk hq hb hv
  have hpair : (Toml.Role.entry [key] (.string value)).isPair regionsName = false := by
    simpa [Toml.Role.isPair] using hne
  rw [Toml.valueFrom, hread, hpair, if_neg (by simp)]

/-! ## The array -/

theorem regions_eq : regions = regionsOpen :: regions.drop 1 := rfl

theorem regionLine_eq (base size : Int) :
    regionLine base size = [' ', ' '] ++ '[' :: (regionNumbers base size ++ [']', ',']) := by
  rw [regionLine, identityRegion_eq]
  simp

theorem readLine_regionLine (base size : Int) :
    (Toml.readLine ⟨kernelTable, [.square]⟩ (regionLine base size)).2 = ⟨kernelTable, [.square]⟩ := by
  have hreturn : '\r' ∉ regionLine base size := by
    have hregion := not_mem_identityRegion (c := '\r') (by decide) (by decide) base size
    simp [regionLine, hregion]
  have hinert : ∀ c ∈ regionNumbers base size, Toml.isInert c = true := by
    intro c hc
    by_contra hno
    simp only [Toml.isInert, decide_eq_true_eq, not_not] at hno
    have hother : ∀ c ∈ ['#', '"', '\'', '[', '{', ']', '}', '='],
        digit? 16 c = none ∧ c ∉ ['-', 'x', ',', ' '] := by decide
    exact not_mem_regionNumbers (hother c hno).1 (hother c hno).2 base size hc
  have hscan : Toml.scan .plain [.square] (regionLine base size) = some [.square] := by
    rw [regionLine_eq, Toml.scan_inert (by decide), Toml.scan_open, Toml.scan_inert hinert]
    rfl
  exact congrArg Prod.snd (Toml.readLine_inside (s := ⟨kernelTable, [.square]⟩)
    (List.cons_ne_nil _ _) hreturn hscan)

theorem valueFrom_regions (base size : Int) :
    Toml.valueFrom kernelTable regionsName ⟨kernelTable, []⟩ (regions ++ regionLine base size :: bottom)
      = some (unlines ([' ', '['] :: (regions.drop 1 ++ regionLine base size :: moreRegions))) := by
  obtain ⟨-, ⟨hrole, hstate, hafter⟩, hcomments, hbottom, -⟩ := template_read
  have hopen : (⟨kernelTable, [.square]⟩ : Toml.State).nest ≠ [] := List.cons_ne_nil _ _
  rw [regions_eq, List.cons_append, Toml.valueFrom, if_pos ⟨rfl, hrole⟩, hstate, hafter,
    Option.map_some, Toml.continued_append hopen hcomments, Toml.continued_cons hopen,
    readLine_regionLine, hbottom]
  rfl

theorem firstRow_regions (base size : Int) :
    Toml.firstRow (unlines ([' ', '['] :: (regions.drop 1 ++ regionLine base size :: moreRegions))) =
      if 0 ≤ base ∧ 0 ≤ size then some [base, size, 7, 1] else none := by
  obtain ⟨-, -, -, -, hbetween, -⟩ := template_read
  have hinner : ']' ∉ regionNumbers base size :=
    not_mem_regionNumbers (by decide) (by decide) base size
  have htext : unlines ([' ', '['] :: (regions.drop 1 ++ regionLine base size :: moreRegions)) =
      [' '] ++ '[' :: (regionsBetween ++ '[' :: (regionNumbers base size ++ ']' ::
        (',' :: below moreRegions))) := by
    rw [← List.cons_append, unlines_insert, regionLine_eq]
    simp [regionsBetween]
  rw [htext, Toml.firstRow_eq (by decide) hbetween hinner, row_identityRegion]

/-! ## The config -/

/-- A path that can stand in a string of TOML as it is. -/
def PlainPath (path : Text) : Prop := '"' ∉ path ∧ '\\' ∉ path ∧ Toml.IsStringText path

theorem PlainPath.newline {path : Text} (h : PlainPath path) : '\n' ∉ path := by
  intro hmem
  exact absurd (List.all_eq_true.1 h.2.2 '\n' hmem) (by decide)

theorem plainPath_nil : PlainPath [] := by
  unfold PlainPath
  decide

theorem plainPath_cmdline {cmdline : Text}
    (h : cmdline = rootfsCmdline ∨ cmdline = initramfsCmdline) : PlainPath cmdline := by
  obtain ⟨-, -, -, -, -, hboth⟩ := template_read
  rcases h with rfl | rfl
  · exact hboth _ (by simp)
  · exact hboth _ (by simp)

theorem newline_not_mem_keyLine {key value : Text} (hkey : '\n' ∉ key) (hvalue : '\n' ∉ value) :
    '\n' ∉ Gen.KernelKey.keyLine key value := by
  simp [Gen.KernelKey.keyLine, hkey, hvalue]

section Generated

variable {cpuNum : Int} {ids : List Int} {ramdiskPath cmdline : Text} {base size : Int}

theorem unbroken_generated (hcmdline : '\n' ∉ cmdline) (hramdisk : '\n' ∉ ramdiskPath) :
    Unbroken (generated cpuNum ids ramdiskPath cmdline base size) := by
  have hregion := not_mem_identityRegion (c := '\n') (by decide) (by decide) base size
  exact unbroken_config (newline_not_mem_cpus cpuNum) (newline_not_mem_ids ids)
    (newline_not_mem_keyLine (by decide) hramdisk)
    (newline_not_mem_keyLine (by decide) hcmdline) (by simp [regionLine, hregion])

theorem lines_generated (hcmdline : '\n' ∉ cmdline) (hramdisk : '\n' ∉ ramdiskPath) :
    lines (unlines (generated cpuNum ids ramdiskPath cmdline base size)) =
      generated cpuNum ids ramdiskPath cmdline base size := by
  refine lines_unlines (unbroken_generated hcmdline hramdisk) ?_
  simp [generated, config]

/-- **The guest's memory.** The generated config gives the base and the size that were parsed. -/
theorem guestRegion_generated (hcmdline : PlainPath cmdline) (hramdisk : PlainPath ramdiskPath) :
    guestRegion (unlines (generated cpuNum ids ramdiskPath cmdline base size)) =
      if 0 ≤ base ∧ 0 ≤ size then some ⟨base.toNat, size.toNat⟩ else none := by
  have hvalue : Toml.valueText kernelTable regionsName
      (unlines (generated cpuNum ids ramdiskPath cmdline base size)) =
      some (unlines ([' ', '['] :: (regions.drop 1 ++ regionLine base size :: moreRegions))) := by
    obtain ⟨⟨htop, hmiddle, hloadAddr⟩, -⟩ := template_read
    rw [Toml.valueText, lines_generated hcmdline.newline hramdisk.newline, generated, config,
      htop.valueFrom, valueFrom_base (readLine_cpuNum cpuNum),
      valueFrom_base (readLine_physCpuIds ids), hmiddle.valueFrom,
      valueFrom_key (by decide) hramdisk.1 hramdisk.2.1 hramdisk.2.2 (by decide), hloadAddr.valueFrom,
      valueFrom_key (by decide) hcmdline.1 hcmdline.2.1 hcmdline.2.2 (by decide), valueFrom_regions]
  change ((Toml.valueText kernelTable regionsName _).bind _).bind _ = _
  rw [hvalue, Option.bind_some, firstRow_regions]
  by_cases h : 0 ≤ base ∧ 0 ≤ size
  · rw [if_pos h, if_pos h, Option.bind_some, regionRange, if_pos h]
  · rw [if_neg h, if_neg h, Option.bind_none]

end Generated

end Smoke.VmConfig
