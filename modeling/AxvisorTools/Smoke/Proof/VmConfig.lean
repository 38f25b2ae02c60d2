import AxvisorTools.Gen.Proof.KernelKey
import AxvisorTools.Py.Proof.Number
import AxvisorTools.Py.Proof.Str
import AxvisorTools.Smoke.VmConfig
import AxvisorTools.Text.Proof.Matches

/-!
# The generated VM config

`prepareVmConfig_eq`: for the shipped template, `prepare_vm_config` writes the template with the new
lines for the CPUs, the ramdisk, the command line and the first memory region (`generated`).
-/

namespace Smoke.VmConfig

open Regex Py

variable {l : Text} {c : Char} {special : Char → Text}

/-! ## The parts of the template -/

/-- The lines above `cpu_num`. -/
def top : List Text := templateStart.take 4

/-- The lines between `phys_cpu_ids` and `ramdisk_path`. -/
def middle : List Text := (templateStart.drop 6).take 7

/-- The line between `ramdisk_path` and `cmdline`. -/
def loadAddr : List Text := templateStart.drop 14

/-- The line that opens `memory_regions`, and the comments below it. -/
def regions : List Text := templateEnd.take 3

/-- The lines below the first entry of `memory_regions`. -/
def bottom : List Text := templateEnd.drop 4

/-- The template with other values. -/
def config (cpus ids ramdisk cmdline region : Text) : List Text :=
  top ++ cpus :: ids :: (middle ++ ramdisk :: (loadAddr ++ cmdline :: (regions ++ region :: bottom)))

def templateCpus : Text := "cpu_num = 1"

def templateIds : Text := "phys_cpu_ids = [1]"

def templateRamdisk : Text := "ramdisk_path = \"\""

def templateCmdline : Text := Gen.KernelKey.keyLine "cmdline" rootfsCmdline

def templateRegion : Text := templateEnd.getD 3 []

theorem template_eq : template =
    config templateCpus templateIds templateRamdisk templateCmdline templateRegion := rfl

/-- `0x` and eight hexadecimal digits. -/
def isAddress : Text → Bool
  | '0' :: 'x' :: t => decide (8 ≤ (t.takeWhile fun c => (digit? 16 c).isSome).length)
  | _ => false

/-- No line break in the line, and no address written without underscores. -/
def isQuiet (l : Text) : Bool :=
  l.all (fun c => c != '\n' && c != '\r') && !l.tails.any isAddress

/-- The lines of the template that are not rewritten, and those for the command lines. -/
def fixedLines : List Text :=
  top ++ middle ++ loadAddr ++ regions ++ bottom ++
    [Gen.KernelKey.keyLine "cmdline" rootfsCmdline,
      Gen.KernelKey.keyLine "cmdline" initramfsCmdline]

def cpuNumKey : Text := "cpu_num = "

def physCpuIdsKey : Text := "phys_cpu_ids = ["

def regionsKey : Text := "memory_regions"

/-- No match of the pattern for the memory regions starts in the line: the name is not in it, or a
quote ends it. -/
def Inert (l : Text) : Prop := ¬ regionsKey <:+: l ∨ l.getLast? = some '"'

instance (l : Text) : Decidable (Inert l) := inferInstanceAs (Decidable (_ ∨ _))

-- evaluating the texts of the template is what takes time, so all its lines are checked together
theorem fixedLines_checked :
    (∀ l ∈ fixedLines, isQuiet l = true) ∧
      (∀ l ∈ top, ¬ cpuNumKey <+: l ∧ ¬ physCpuIdsKey <+: l) ∧
      (∀ l ∈ top ++ middle, Gen.KernelKey.isKeyLine "ramdisk_path" l = false) ∧
      (∀ l ∈ top ++ middle ++ templateRamdisk :: loadAddr,
        Gen.KernelKey.isKeyLine "cmdline" l = false ∧ Inert l) ∧
      ∀ l ∈ [rootfsCmdline, initramfsCmdline], '\\' ∉ l ∧ '\n' ∉ l := by
  decide +kernel

theorem quiet_fixedLines : ∀ l ∈ fixedLines, isQuiet l = true := fixedLines_checked.1

theorem break_not_mem (h : isQuiet l = true) : '\n' ∉ l ∧ '\r' ∉ l := by
  rw [isQuiet, Bool.and_eq_true, List.all_eq_true] at h
  exact ⟨fun hmem => absurd (h.1 _ hmem) (by decide), fun hmem => absurd (h.1 _ hmem) (by decide)⟩

theorem unbroken_top : Unbroken top := by
  intro l hl
  have hfixed : l ∈ fixedLines := by
    simp only [fixedLines, List.mem_append]
    exact .inl (.inl (.inl (.inl (.inl hl))))
  exact (break_not_mem (quiet_fixedLines l hfixed)).1

theorem mem_config {cpus ids ramdisk cmdline region : Text}
    (h : l ∈ config cpus ids ramdisk cmdline region) :
    l ∈ top ++ middle ++ loadAddr ++ regions ++ bottom ∨ l = cpus ∨ l = ids ∨ l = ramdisk ∨
      l = cmdline ∨ l = region := by
  simp only [config, List.mem_append, List.mem_cons] at h ⊢
  rcases h with h | h | h | h | h | h | h | h | h | h
  · exact .inl (.inl (.inl (.inl (.inl h))))
  · exact .inr (.inl h)
  · exact .inr (.inr (.inl h))
  · exact .inl (.inl (.inl (.inl (.inr h))))
  · exact .inr (.inr (.inr (.inl h)))
  · exact .inl (.inl (.inl (.inr h)))
  · exact .inr (.inr (.inr (.inr (.inl h))))
  · exact .inl (.inl (.inr h))
  · exact .inr (.inr (.inr (.inr (.inr h))))
  · exact .inl (.inr h)

theorem unbroken_config {cpus ids ramdisk cmdline region : Text} (hcpus : '\n' ∉ cpus)
    (hids : '\n' ∉ ids) (hramdisk : '\n' ∉ ramdisk) (hcmdline : '\n' ∉ cmdline)
    (hregion : '\n' ∉ region) : Unbroken (config cpus ids ramdisk cmdline region) := by
  intro l hl
  rcases mem_config hl with hl | rfl | rfl | rfl | rfl | rfl
  · exact (break_not_mem (quiet_fixedLines l (List.mem_append_left _ hl))).1
  · exact hcpus
  · exact hids
  · exact hramdisk
  · exact hcmdline
  · exact hregion

/-! ## The CPUs -/

theorem missesLine_lit {p : Text} (hp : '\n' ∉ p) (h : ¬ p <+: l) (r : Re) :
    MissesLine (.seq (lit p) r) l := by
  intro b ls
  rw [run_seq_lit, if_neg]
  rwa [prefix_append_below hp]

theorem eol_below (b : Text) (ls : List Text) :
    (run eol ⟨b, below ls, []⟩).head? = some ⟨b, below ls, []⟩ := by
  have h := run_eol (b := b) (v := []) List.not_mem_nil ls []
  rw [List.nil_append] at h
  rw [h]
  rfl

theorem head_below {ls : List Text} (h : c ∈ (below ls).head?) : c = '\n' := by
  cases ls with
  | nil => cases h
  | cons l ls =>
    cases h
    rfl

theorem search_cpuNum (post : List Text) :
    search cpuNumPattern (unlines (top ++ templateCpus :: post)) =
      some (above top, ⟨templateCpus.reverse ++ (above top).reverse, below post, []⟩) := by
  have hmiss : ∀ k ∈ top, ¬ cpuNumKey <+: k := fun k hk => (fixedLines_checked.2.1 k hk).1
  have hone : (decimal? '1').isSome = true := by decide
  have hnewline : (decimal? '\n').isSome = false := by decide
  have hpattern : cpuNumPattern = .seq bol (.seq (lit cpuNumKey)
    (.seq (.one fun c => (decimal? c).isSome)
      (.seq (.star true (.one fun c => (decimal? c).isSome)) eol))) := rfl
  have hline : templateCpus = cpuNumKey ++ ['1'] := by decide
  rw [hpattern]
  refine search_bol unbroken_top (fun k hk => missesLine_lit (by decide) (hmiss k hk) _) ?_
  rw [hline, List.append_assoc, List.singleton_append, run_lit_seq, run_one_seq hone]
  refine head?_greedy (u := []) (fun c hc => by cases hc) (fun c hc => ?_) ?_
  · rw [head_below hc, hnewline]
  · rw [List.reverse_append]
    exact eol_below _ post

theorem search_physCpuIds {cpus : Text} (hcpus : '\n' ∉ cpus) (hkey : ¬ physCpuIdsKey <+: cpus)
    (post : List Text) :
    search physCpuIdsPattern (unlines (top ++ cpus :: templateIds :: post)) =
      some (above (top ++ [cpus]), ⟨templateIds.reverse ++ (above (top ++ [cpus])).reverse,
        below post, []⟩) := by
  have hmiss : ∀ k ∈ top, ¬ physCpuIdsKey <+: k := fun k hk => (fixedLines_checked.2.1 k hk).2
  have hpattern : physCpuIdsPattern = .seq bol (.seq (lit physCpuIdsKey)
    (.seq (.star true (.one (· != ']'))) (.seq (lit [']']) eol))) := rfl
  have hline : templateIds = physCpuIdsKey ++ ['1'] ++ [']'] := by decide
  have hlines : top ++ cpus :: templateIds :: post = (top ++ [cpus]) ++ templateIds :: post := by simp
  rw [hpattern, hlines]
  refine search_bol (fun k hk => ?_) (fun k hk => missesLine_lit (by decide) ?_ _) ?_
  · rcases List.mem_append.1 hk with hk | hk
    · exact unbroken_top k hk
    · rwa [List.mem_singleton.1 hk]
  · rcases List.mem_append.1 hk with hk | hk
    · exact hmiss k hk
    · rwa [List.mem_singleton.1 hk]
  · rw [hline, List.append_assoc, List.append_assoc, run_lit_seq]
    refine head?_greedy (by decide) (fun c hc => by cases hc; rfl) ?_
    rw [run_lit_seq]
    simp only [List.reverse_append, List.append_assoc]
    exact eol_below _ post

theorem digit_not_mem (hc : digit? 10 c = none) (hsign : c ≠ '-') (n : Int) : c ∉ str n := by
  have hdigits : ∀ m, c ∉ Nat.toDigits 10 m := by
    intro m h
    have hdigit : (digit? 10 c).isSome = true :=
      digit_of_mem_toDigits (by decide) (by decide) m c h
    rw [hc] at hdigit
    cases hdigit
  unfold str
  split
  · simpa using ⟨hsign, hdigits _⟩
  · exact hdigits _

theorem not_mem_cpuNumLine (hc : digit? 10 c = none) (hsign : c ≠ '-') (hkey : c ∉ cpuNumKey)
    (n : Int) : c ∉ cpuNumLine n := by
  intro h
  rcases List.mem_append.1 h with h | h
  · exact hkey h
  · exact digit_not_mem hc hsign n h

theorem not_mem_physCpuIdsLine (hc : digit? 10 c = none) (hsign : c ≠ '-')
    (hkey : c ∉ physCpuIdsKey) (hend : c ∉ [',', ' ', ']']) (ids : List Int) :
    c ∉ physCpuIdsLine ids := by
  have hsep : c ∉ [',', ' '] := fun h => hend (List.mem_append_left [']'] h)
  have hitems : c ∉ [',', ' '].intercalate (ids.map str) := by
    refine not_mem_intercalate hsep fun t ht => ?_
    obtain ⟨n, -, rfl⟩ := List.mem_map.1 ht
    exact digit_not_mem hc hsign n
  intro h
  rcases List.mem_append.1 h with h | h
  · rcases List.mem_append.1 h with h | h
    · exact hkey h
    · exact hitems h
  · rw [List.mem_singleton.1 h] at hend
    exact hend (by decide)

theorem replaceBaseCpuConfig_template (cpuNum : Int) (ids : List Int) :
    replaceBaseCpuConfig (unlines template) cpuNum ids =
      .ok (unlines (config (cpuNumLine cpuNum) (physCpuIdsLine ids) templateRamdisk templateCmdline
        templateRegion)) := by
  have hcpus : '\\' ∉ cpuNumLine cpuNum :=
    not_mem_cpuNumLine (by decide) (by decide) (by decide) cpuNum
  have hnewline : '\n' ∉ cpuNumLine cpuNum :=
    not_mem_cpuNumLine (by decide) (by decide) (by decide) cpuNum
  have hids : '\\' ∉ physCpuIdsLine ids :=
    not_mem_physCpuIdsLine (by decide) (by decide) (by decide) (by decide) ids
  have hkey : ¬ physCpuIdsKey <+: cpuNumLine cpuNum := by
    intro h
    obtain ⟨t, ht⟩ := h
    have hhead := congrArg List.head? ht
    cases hhead
  have hfirst : replaceOnce cpuNumPattern 0 (cpuNumLine cpuNum) (unlines template)
      "failed to replace cpu_num" = .ok (unlines (config (cpuNumLine cpuNum) templateIds
        templateRamdisk templateCmdline templateRegion)) := by
    rw [replaceOnce, Re.subn1_plain _ hcpus, template_eq, config, search_cpuNum, config,
      unlines_insert]
    rfl
  rw [replaceBaseCpuConfig, hfirst]
  have hsecond : replaceOnce physCpuIdsPattern 0 (physCpuIdsLine ids) (unlines (config
      (cpuNumLine cpuNum) templateIds templateRamdisk templateCmdline templateRegion))
      "failed to replace phys_cpu_ids" = .ok (unlines (config (cpuNumLine cpuNum)
        (physCpuIdsLine ids) templateRamdisk templateCmdline templateRegion)) := by
    have hlines : ∀ (l : Text) (post : List Text), top ++ cpuNumLine cpuNum :: l :: post =
        (top ++ [cpuNumLine cpuNum]) ++ l :: post := by simp
    rw [replaceOnce, Re.subn1_plain _ hids, config, search_physCpuIds hnewline hkey, config,
      hlines (physCpuIdsLine ids), unlines_insert]
    rfl
  exact hsecond

/-! ## The keys of the kernel -/

open Gen.KernelKey in
theorem replaceKernelKey_line {pre post : List Text} {old value : Text} {key : String}
    {afterKey : Option String} (hkey : Plain key.toList) (hvalue : '\\' ∉ value)
    (hafter : ∀ k ∈ afterKey, '\n' ∉ k.toList) (hls : Unbroken (pre ++ old :: post))
    (hpre : ∀ l ∈ pre, isKeyLine key.toList l = false) (hold : isKeyLine key.toList old = true) :
    replaceKernelKey (unlines (pre ++ old :: post)) key value afterKey =
      .ok (unlines (pre ++ keyLine key.toList value :: post)) := by
  have hafter' : ∀ k ∈ (afterKey.map String.toList).filter (· ≠ []), '\n' ∉ k := by
    intro k hk
    rw [Option.mem_filter_iff] at hk
    obtain ⟨a, ha, rfl⟩ := Option.map_eq_some_iff.1 hk.1
    exact hafter a ha
  have hedit := rewriteKernelKey_eq "missing [kernel] section" (unlines (pre ++ old :: post))
    hkey.newline hkey.backslash hvalue hafter'
  rw [lines_unlines hls (by simp), editSite, splitAtFirst_append hpre hold] at hedit
  rw [replaceKernelKey, Gen.KernelKey.replaceKernelKey, hedit]
  rfl

/-! ## The identity memory -/

theorem matches_spaces_iff {b x y : Text} {g : List (Nat × Text)} :
    Matches spaces b x y g ↔ (∀ c ∈ x, Re.isWhite c = true) ∧ g = [] := matches_star_one_iff

theorem regionsOpening_eq : regionsOpening =
    .seq (lit regionsKey) (.seq spaces (.seq (lit ['=']) (.seq spaces (.seq (lit ['[']) (.seq spaces
      (.seq (lit ['\n']) (.star true commentLine))))))) := rfl

theorem matches_identityPattern {b x y : Text} {g : List (Nat × Text)}
    (h : Matches identityPattern b x y g) : ∃ m z, '"' ∉ m ∧
      x = regionsKey ++ (m ++ '\n' :: z) := by
  have hwhite : ∀ {t : Text}, (∀ c ∈ t, Re.isWhite c = true) → '"' ∉ t := by
    intro t ht h
    exact absurd (ht _ h) (by decide)
  obtain ⟨x₁, x₂, _, _, rfl, -, h, -⟩ := matches_seq_iff.1 h
  obtain ⟨_, -, h⟩ := matches_group_iff.1 h
  rw [regionsOpening_eq] at h
  obtain ⟨k, t, _, _, rfl, -, hk, h⟩ := matches_seq_iff.1 h
  obtain ⟨u, t, _, _, rfl, -, hu, h⟩ := matches_seq_iff.1 h
  obtain ⟨e, t, _, _, rfl, -, he, h⟩ := matches_seq_iff.1 h
  obtain ⟨v, t, _, _, rfl, -, hv, h⟩ := matches_seq_iff.1 h
  obtain ⟨o, t, _, _, rfl, -, ho, h⟩ := matches_seq_iff.1 h
  obtain ⟨w, t, _, _, rfl, -, hw, h⟩ := matches_seq_iff.1 h
  obtain ⟨n, t, _, _, rfl, -, hn, -⟩ := matches_seq_iff.1 h
  rw [matches_lit_iff] at hk he ho hn
  rw [matches_spaces_iff] at hu hv hw
  rw [hk.1, he.1, ho.1, hn.1]
  refine ⟨u ++ '=' :: (v ++ '[' :: w), t ++ x₂, ?_, ?_⟩
  · simp [hwhite hu.1, hwhite hv.1, hwhite hw.1]
  · simp

theorem run_identityPattern_inert {u v rest b : Text} (hl : Inert l) (hline : '\n' ∉ l)
    (hsplit : l = u ++ v) : run identityPattern ⟨b, v ++ '\n' :: rest, []⟩ = [] := by
  by_contra hne
  obtain ⟨x, y, g, htext, hm⟩ := (run_ne_nil_iff _ _).1 hne
  obtain ⟨m, z, hquotes, rfl⟩ := matches_identityPattern hm
  have htext : v ++ '\n' :: rest = regionsKey ++ ((m ++ ['\n']) ++ (z ++ y)) := by simpa using htext
  have hv : '\n' ∉ v := fun h => hline (hsplit ▸ List.mem_append_right u h)
  -- the name has no line break in it, so it is in this line
  have hpre : regionsKey <+: v := by
    have hnewline : '\n' ∉ regionsKey := by decide
    have hbelow : '\n' :: rest = below [rest] := by simp
    refine (prefix_append_below hnewline).1 (?_ : regionsKey <+: v ++ below [rest])
    rw [← hbelow, htext]
    exact List.prefix_append _ _
  obtain ⟨r, rfl⟩ := hpre
  rw [List.append_assoc] at htext
  have hrest := List.append_cancel_left htext
  rcases hl with hl | hl
  · exact hl ⟨u, r, by rw [hsplit, List.append_assoc]⟩
  · -- the quote at the end of the line is between the name and the line break
    have hquote : '"' ∈ r := by
      rw [hsplit] at hl
      cases hr : r.getLast? with
      | none =>
        have hlast : regionsKey.getLast? = some 's' := by decide
        rw [List.getLast?_eq_none_iff.1 hr, List.append_nil, List.getLast?_append, hlast] at hl
        cases hl
      | some c =>
        rw [List.getLast?_append, List.getLast?_append, hr] at hl
        cases hl
        exact List.mem_of_getLast? hr
    have hquote' : '"' ∉ m ++ ['\n'] := by simp [hquotes]
    rcases List.prefix_or_prefix_of_prefix (List.prefix_append r ('\n' :: rest))
      (hrest ▸ List.prefix_append (m ++ ['\n']) (z ++ y)) with h | h
    · exact hquote' (h.subset hquote)
    · exact hv (List.mem_append_right _ (h.subset (by simp)))

/-- The text from the line of `memory_regions` on. -/
def regionsText : Text := unlines (regions ++ templateRegion :: bottom)

/-- What stays of it before and after the entry. -/
def regionsStart : Text := above regions

def regionsEnd : Text := ',' :: below bottom

/-- The first entry with the blanks before it. -/
def regionsEntry : Text := templateRegion.dropLast

theorem head?_regionsText : (run identityPattern ⟨[], regionsText, []⟩).head? =
    some ⟨regionsEntry.reverse ++ regionsStart.reverse, regionsEnd, [(1, regionsStart)]⟩ := by
  decide +kernel

theorem search_identityPattern {pre : List Text} (hpre : Unbroken pre) (hinert : ∀ l ∈ pre, Inert l) :
    search identityPattern (above pre ++ regionsText) =
      some (above pre, ⟨regionsEntry.reverse ++ regionsStart.reverse ++ (above pre).reverse,
        regionsEnd, [(1, regionsStart)]⟩) := by
  refine search_append (fun a b hab hb => ?_) ?_
  · obtain ⟨l, hl, u, v, rest, hsplit, rfl⟩ := suffix_above hb hab
    rw [List.append_assoc, List.cons_append]
    exact run_identityPattern_inert (hinert l hl) (hpre l hl) hsplit
  · have hshift := run_shift (above pre).reverse identityPattern rfl ⟨[], regionsText, []⟩
    have hpos : Pos.shift (above pre).reverse ⟨[], regionsText, []⟩ =
        ⟨(above pre).reverse, regionsText, []⟩ := rfl
    rw [← hpos, hshift, List.head?_map, head?_regionsText]
    rfl

/-- The line of the first entry. -/
def regionLine (base size : Int) : Text := ' ' :: ' ' :: (identityRegion base size ++ [','])

/-- The numbers of the first entry. -/
def regionNumbers (base size : Int) : Text :=
  ['0', 'x'] ++ formatHex 8 base ++ [',', ' ', '0', 'x'] ++ formatHex 8 size ++
    [',', ' ', '0', 'x', '7', ',', ' ', '1']

theorem identityRegion_eq (base size : Int) :
    identityRegion base size = '[' :: (regionNumbers base size ++ [']']) := by
  have hopen : "[0x" = ['[', '0', 'x'] := by decide
  have hsep : ", 0x" = [',', ' ', '0', 'x'] := by decide
  have hend : ", 0x7, 1]" = [',', ' ', '0', 'x', '7', ',', ' ', '1'] ++ [']'] := by decide
  have hparts : ∀ {a b c : Text}, a = ['[', '0', 'x'] → b = [',', ' ', '0', 'x'] →
      c = [',', ' ', '0', 'x', '7', ',', ' ', '1'] ++ [']'] →
      a ++ formatHex 8 base ++ b ++ formatHex 8 size ++ c =
        '[' :: (regionNumbers base size ++ [']']) := by
    rintro _ _ _ rfl rfl rfl
    simp [regionNumbers]
  exact hparts hopen hsep hend

theorem not_mem_regionNumbers (hc : digit? 16 c = none) (hother : c ∉ ['-', 'x', ',', ' '])
    (base size : Int) : c ∉ regionNumbers base size := by
  have hhex : ∀ n, c ∉ formatHex 8 n := by
    intro n h
    rcases mem_formatHex h with rfl | h
    · exact hother (by decide)
    · rw [hc] at h
      cases h
  have hdigit : ∀ d ∈ ['0', '7', '1'], c ≠ d := by
    have hsome : ∀ d ∈ ['0', '7', '1'], digit? 16 d ≠ none := by decide
    intro d hd h
    exact hsome d hd (h ▸ hc)
  simp only [List.mem_cons, List.not_mem_nil, or_false, not_or] at hother
  simp [regionNumbers, hhex, hother, hdigit]

theorem not_mem_identityRegion (hc : digit? 16 c = none)
    (hother : c ∉ ['-', 'x', ',', ' ', '[', ']']) (base size : Int) :
    c ∉ identityRegion base size := by
  have hnumbers := not_mem_regionNumbers hc (fun h => hother (List.mem_append_left ['[', ']'] h))
    base size
  have hopen : c ≠ '[' := fun h => hother (by rw [h]; decide)
  have hclose : c ≠ ']' := fun h => hother (by rw [h]; decide)
  rw [identityRegion_eq]
  simp [hnumbers, hopen, hclose]

theorem replaceIdentityMemoryRegion_eq {base size : Text} {baseInt sizeInt : Int}
    (hbase : parseBase base = some baseInt) (hsize : parseSize special size = some sizeInt)
    (text : Text) :
    replaceIdentityMemoryRegion special text base size = replaceOnce identityPattern 1
      ("\\1" ++ ' ' :: (' ' :: identityRegion baseInt sizeInt)) text
      "failed to replace identity memory region" := by
  have htemplate : "\\1  " ++ identityRegion baseInt sizeInt =
      "\\1" ++ ' ' :: (' ' :: identityRegion baseInt sizeInt) := by
    have hblank : "\\1  " = "\\1" ++ [' ', ' '] := by decide
    rw [hblank, List.append_assoc]
    rfl
  rw [← htemplate, replaceIdentityMemoryRegion, hbase, hsize]
  rfl

section Config

variable {cpus ids ramdisk cmdline : Text}

theorem replaceIdentityMemoryRegion_config {base size : Text} {baseInt sizeInt : Int}
    (hbase : parseBase base = some baseInt) (hsize : parseSize special size = some sizeInt)
    (hls : Unbroken (config cpus ids ramdisk cmdline templateRegion)) (hcpus : Inert cpus)
    (hids : Inert ids) (hramdisk : Inert ramdisk) (hcmdline : Inert cmdline) :
    replaceIdentityMemoryRegion special (unlines (config cpus ids ramdisk cmdline templateRegion)) base
      size = .ok (unlines (config cpus ids ramdisk cmdline (regionLine baseInt sizeInt))) := by
  have hparts := fun l hl => (fixedLines_checked.2.2.2.1 l hl).2
  have hconfig : ∀ region, config cpus ids ramdisk cmdline region =
      (top ++ cpus :: ids :: (middle ++ ramdisk :: (loadAddr ++ [cmdline]))) ++
        (regions ++ region :: bottom) := by
    intro region
    simp [config]
  have hbackslash : '\\' ∉ ' ' :: ' ' :: identityRegion baseInt sizeInt := by
    have h := not_mem_identityRegion (c := '\\') (by decide) (by decide) baseInt sizeInt
    simpa using h
  rw [hconfig] at hls
  generalize hpre : top ++ cpus :: ids :: (middle ++ ramdisk :: (loadAddr ++ [cmdline])) = pre
    at hconfig hls
  have hinert : ∀ l ∈ pre, Inert l := by
    intro l hl
    have hpart := hparts l
    simp only [← hpre, List.mem_append, List.mem_cons, List.not_mem_nil, or_false] at hl hpart
    rcases hl with hl | rfl | rfl | hl | rfl | hl | rfl
    · exact hpart (.inl (.inl hl))
    · exact hcpus
    · exact hids
    · exact hpart (.inl (.inr hl))
    · exact hramdisk
    · exact hpart (.inr (.inr hl))
    · exact hcmdline
  have hsearch := search_identityPattern (fun l hl => hls l (List.mem_append_left _ hl)) hinert
  have hne : ∀ region, regions ++ region :: bottom ≠ [] := fun region => by simp
  rw [replaceIdentityMemoryRegion_eq hbase hsize, hconfig, hconfig, unlines_append _ (hne _),
    unlines_append _ (hne _), ← regionsText, replaceOnce, Re.subn1_keep _ (by decide) hbackslash,
    hsearch, unlines_insert]
  simp [Re.groupText, regionsStart, regionsEnd, regionLine]

end Config

/-! ## The script -/

open Gen.KernelKey in
/-- The config that is generated. -/
def generated (cpuNum : Int) (ids : List Int) (ramdiskPath cmdline : Text) (base size : Int) :
    List Text :=
  config (cpuNumLine cpuNum) (physCpuIdsLine ids) (keyLine "ramdisk_path" ramdiskPath)
    (keyLine "cmdline" cmdline) (regionLine base size)

theorem universalNewlines_template : universalNewlines (unlines template) = unlines template := by
  have hrest : ∀ l ∈ [templateCpus, templateIds, templateRamdisk, templateRegion], '\r' ∉ l := by decide
  refine universalNewlines_of_not_mem ?_
  rw [unlines_eq_intercalate, template_eq]
  refine not_mem_intercalate (by decide) fun l hl => ?_
  rcases mem_config hl with hl | rfl | rfl | rfl | rfl | rfl
  · exact (break_not_mem (quiet_fixedLines l (List.mem_append_left _ hl))).2
  · exact hrest _ (by simp)
  · exact hrest _ (by simp)
  · exact hrest _ (by simp)
  · exact (break_not_mem (quiet_fixedLines _ (by simp [fixedLines, templateCmdline]))).2
  · exact hrest _ (by simp)

/-- The path of the ramdisk that is written to the config. -/
def Env.ramdiskPath (env : Env) : Text :=
  if env.bootMode = "initramfs" then env.guestInitramfsImg else []

theorem bootArguments_ok {env : Env} {cmdline ramdiskPath : Text}
    (h : bootArguments env = .ok (cmdline, ramdiskPath)) :
    (cmdline = rootfsCmdline ∨ cmdline = initramfsCmdline) ∧ ramdiskPath = env.ramdiskPath := by
  unfold bootArguments at h
  split at h
  · rename_i hmode
    cases h
    have hne : env.bootMode ≠ "initramfs" := by
      rw [hmode]
      decide
    exact ⟨.inl rfl, (if_neg hne).symm⟩
  split at h
  · rename_i hmode
    cases h
    exact ⟨.inr rfl, (if_pos hmode).symm⟩
  · cases h

section Keys

open Gen.KernelKey

variable (cpuNum : Int) (ids : List Int)

theorem newline_not_mem_cpus : '\n' ∉ cpuNumLine cpuNum :=
  not_mem_cpuNumLine (by decide) (by decide) (by decide) cpuNum

theorem newline_not_mem_ids : '\n' ∉ physCpuIdsLine ids :=
  not_mem_physCpuIdsLine (by decide) (by decide) (by decide) (by decide) ids

theorem newline_not_mem_template :
    '\n' ∉ templateRamdisk ∧ '\n' ∉ templateRegion ∧ '\n' ∉ templateCmdline :=
  ⟨by decide, by decide, (break_not_mem (quiet_fixedLines _ (by simp [fixedLines, templateCmdline]))).1⟩

theorem isKeyLine_before {key : Text} {ls : List Text} (hcpus : isKeyLine key (cpuNumLine cpuNum) = false)
    (hids : isKeyLine key (physCpuIdsLine ids) = false)
    (h : ∀ l ∈ top ++ middle ++ ls, isKeyLine key l = false) :
    ∀ l ∈ top ++ cpuNumLine cpuNum :: physCpuIdsLine ids :: (middle ++ ls), isKeyLine key l = false := by
  intro l hl
  rw [List.mem_append, List.mem_cons, List.mem_cons, List.mem_append] at hl
  rcases hl with hl | rfl | rfl | hl | hl
  · exact h l (List.mem_append_left _ (List.mem_append_left _ hl))
  · exact hcpus
  · exact hids
  · exact h l (List.mem_append_left _ (List.mem_append_right _ hl))
  · exact h l (List.mem_append_right _ hl)

theorem replaceKernelKey_cmdline {cmdline : Text} (hcmdline : '\\' ∉ cmdline) :
    replaceKernelKey (unlines (config (cpuNumLine cpuNum) (physCpuIdsLine ids) templateRamdisk
      templateCmdline templateRegion)) "cmdline" cmdline none =
      .ok (unlines (config (cpuNumLine cpuNum) (physCpuIdsLine ids) templateRamdisk
        (keyLine "cmdline" cmdline) templateRegion)) := by
  obtain ⟨hramdisk, hregion, hold⟩ := newline_not_mem_template
  have hconfig : ∀ l, config (cpuNumLine cpuNum) (physCpuIdsLine ids) templateRamdisk l
      templateRegion = (top ++ cpuNumLine cpuNum :: physCpuIdsLine ids :: (middle ++
        templateRamdisk :: loadAddr)) ++ l :: (regions ++ templateRegion :: bottom) := by
    intro l
    simp [config]
  have hls := unbroken_config (newline_not_mem_cpus cpuNum) (newline_not_mem_ids ids) hramdisk hold
    hregion
  rw [hconfig] at hls
  rw [hconfig, hconfig]
  refine replaceKernelKey_line ⟨by decide, by decide, by decide⟩ hcmdline (fun k hk => by cases hk)
    hls (isKeyLine_before cpuNum ids rfl rfl fun l hl => ?_) (isKeyLine_keyLine _ _)
  exact (fixedLines_checked.2.2.2.1 l hl).1

theorem replaceKernelKey_ramdisk {cmdline ramdiskPath : Text} (hcmdline : '\n' ∉ cmdline)
    (hramdisk : '\\' ∉ ramdiskPath) :
    replaceKernelKey (unlines (config (cpuNumLine cpuNum) (physCpuIdsLine ids) templateRamdisk
      cmdline templateRegion)) "ramdisk_path" ramdiskPath (some "ramdisk_load_addr") =
      .ok (unlines (config (cpuNumLine cpuNum) (physCpuIdsLine ids)
        (keyLine "ramdisk_path" ramdiskPath) cmdline templateRegion)) := by
  obtain ⟨hold, hregion, -⟩ := newline_not_mem_template
  have hconfig : ∀ l, config (cpuNumLine cpuNum) (physCpuIdsLine ids) l cmdline templateRegion =
      (top ++ cpuNumLine cpuNum :: physCpuIdsLine ids :: (middle ++ [])) ++ l ::
        (loadAddr ++ cmdline :: (regions ++ templateRegion :: bottom)) := by
    intro l
    simp [config]
  have hls := unbroken_config (newline_not_mem_cpus cpuNum) (newline_not_mem_ids ids) hold hcmdline
    hregion
  rw [hconfig] at hls
  rw [hconfig, hconfig]
  refine replaceKernelKey_line ⟨by decide, by decide, by decide⟩ hramdisk ?_
    hls (isKeyLine_before cpuNum ids rfl rfl ?_) (isKeyLine_keyLine _ [])
  · intro k hk
    cases hk
    decide
  · rw [List.append_nil]
    exact fixedLines_checked.2.2.1

end Keys

theorem inert_keyLine (key value : Text) : Inert (Gen.KernelKey.keyLine key value) := by
  right
  rw [Gen.KernelKey.keyLine, List.getLast?_append]
  rfl

theorem inert_of_not_mem (hc : c ∈ regionsKey) (hl : c ∉ l) : Inert l :=
  .inl fun h => hl (h.subset hc)

/-- **The config that `prepare_vm_config` writes for the shipped template.** -/
theorem prepareVmConfig_eq {env : Env} {cmdline ramdiskPath : Text} {cpuNum : Int} {ids : List Int}
    {base size : Int} (hboot : bootArguments env = .ok (cmdline, ramdiskPath))
    (hcpus : readCpus env = .ok (cpuNum, ids)) (hbase : parseBase env.identityRamBase = some base)
    (hsize : parseSize special env.identityRamSize = some size) (hbackslash : '\\' ∉ ramdiskPath)
    (hpath : '\n' ∉ ramdiskPath) :
    prepareVmConfig special (unlines template) env =
      .ok (unlines (generated cpuNum ids ramdiskPath cmdline base size)) := by
  have hcmdline : '\\' ∉ cmdline ∧ '\n' ∉ cmdline := by
    rcases (bootArguments_ok hboot).1 with rfl | rfl
    · exact fixedLines_checked.2.2.2.2 _ (by simp)
    · exact fixedLines_checked.2.2.2.2 _ (by simp)
  have hnewline : '\n' ∉ Gen.KernelKey.keyLine "cmdline" cmdline := by
    simp [Gen.KernelKey.keyLine, hcmdline.2]
  have hnewline' : '\n' ∉ Gen.KernelKey.keyLine "ramdisk_path" ramdiskPath := by
    simp [Gen.KernelKey.keyLine, hpath]
  have hy : 'y' ∉ cpuNumLine cpuNum :=
    not_mem_cpuNumLine (by decide) (by decide) (by decide) cpuNum
  have hm : 'm' ∉ physCpuIdsLine ids :=
    not_mem_physCpuIdsLine (by decide) (by decide) (by decide) (by decide) ids
  have hlast := replaceIdentityMemoryRegion_config hbase hsize (unbroken_config
    (newline_not_mem_cpus cpuNum) (newline_not_mem_ids ids) hnewline' hnewline
    newline_not_mem_template.2.1) (inert_of_not_mem (by decide) hy) (inert_of_not_mem (by decide) hm)
    (inert_keyLine _ _) (inert_keyLine _ _)
  rw [prepareVmConfig, hboot]
  simp only [bind, Except.bind, hcpus, universalNewlines_template, replaceBaseCpuConfig_template,
    replaceKernelKey_cmdline cpuNum ids hcmdline.1,
    replaceKernelKey_ramdisk cpuNum ids hnewline hbackslash, hlast]
  rfl

theorem orValueError_eq_ok {α : Type} {o : Option α} {a : α} (h : orValueError o = .ok a) :
    o = some a := by
  cases o with
  | none => cases h
  | some b =>
    cases h
    rfl

theorem prepareVmConfig_ok {text out : Text} {env : Env}
    (h : prepareVmConfig special text env = .ok out) :
    ∃ cmdline ramdiskPath cpuNum ids base size,
      bootArguments env = .ok (cmdline, ramdiskPath) ∧ readCpus env = .ok (cpuNum, ids) ∧
      parseBase env.identityRamBase = some base ∧
      parseSize special env.identityRamSize = some size := by
  obtain ⟨⟨cmdline, ramdiskPath⟩, hboot, h⟩ := bind_eq_ok h
  obtain ⟨⟨cpuNum, ids⟩, hcpus, h⟩ := bind_eq_ok h
  obtain ⟨text₁, -, h⟩ := bind_eq_ok h
  obtain ⟨text₂, -, h⟩ := bind_eq_ok h
  obtain ⟨text₃, -, h⟩ := bind_eq_ok h
  obtain ⟨base, hbase, h⟩ := bind_eq_ok h
  obtain ⟨size, hsize, h⟩ := bind_eq_ok h
  exact ⟨cmdline, ramdiskPath, cpuNum, ids, base, size, hboot, hcpus, orValueError_eq_ok hbase,
    orValueError_eq_ok hsize⟩

end Smoke.VmConfig
