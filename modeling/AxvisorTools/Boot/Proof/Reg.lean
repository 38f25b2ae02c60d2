import AxvisorTools.Boot.Dtb
import AxvisorTools.Dts.Proof.Value
import AxvisorTools.Py.Proof.Upper
import AxvisorTools.Text.Proof.Grep

/-!
# The cells of the reserved range

`reg` has two cells for the base and two for the size, but `build_boot_dtb` writes each number into
the lower of its two cells, whatever its size (`emittedCells_insertNode`). So the cells encode the
range exactly when both numbers fit in 32 bits: `reg_cells_iff`. `regCells` is what the compiler
makes of them.
-/

namespace Boot

open Py Dts

/-- The cells that the compiler makes of `reg`, if it accepts them. -/
def regCells (base size : Int) : Option (List Nat) := (regWords base size).mapM wordCell

theorem wordCell_formatHex (width n : Nat) :
    wordCell ('0' :: 'x' :: formatHex width n) = cell n := by
  rw [formatHex_natCast, wordCell, literal_leftpad, Option.bind_some]

theorem regCells_eq (base size : Nat) : regCells base size =
    (cell base).bind fun b => (cell size).map fun s => [0, b, 0, s] := by
  have hzero : wordCell "0x0" = some 0 := by decide
  rw [regCells, regWords]
  simp only [List.mapM_cons, List.mapM_nil, hzero, wordCell_formatHex]
  cases cell base with
  | none => rfl
  | some b => cases cell size <;> rfl

/-! ## Reading the cells off the text -/

def regMark : Text := "reg = <"

/-- The numbers in the `reg` of the node for the guest's memory, as they stand in the source. -/
def emittedCells (out : Text) : Option (List Nat) := do
  let (_, fromNode) ← splitFind guestRamMark out
  let (_, fromReg) ← splitFind regMark fromNode
  (((fromReg.drop regMark.length).takeWhile (· ≠ '>')).splitOn ' ').mapM literal

/-- The cells give the range back, under two cells for an address and two for a size. -/
def Encodes (cells : List Nat) (base size : Nat) : Prop :=
  ∃ c₀ c₁ c₂ c₃, cells = [c₀, c₁, c₂, c₃] ∧ c₀ < 2 ^ 32 ∧ c₁ < 2 ^ 32 ∧ c₂ < 2 ^ 32 ∧ c₃ < 2 ^ 32 ∧
    c₀ * 2 ^ 32 + c₁ = base ∧ c₂ * 2 ^ 32 + c₃ = size

theorem splitFind_append {s u v : Text} (h : s <+: v)
    (hmiss : ∀ u', u' ≠ [] → u' <:+ u → ¬ s <+: u' ++ v) : splitFind s (u ++ v) = some (u, v) := by
  induction u with
  | nil =>
    cases v with
    | nil => simp [splitFind, List.prefix_nil.1 h]
    | cons c v => simp only [List.nil_append, splitFind, List.isPrefixOf_iff_prefix.2 h, if_true]
  | cons c u ih =>
    have hhead : ¬ s <+: c :: (u ++ v) := hmiss (c :: u) (List.cons_ne_nil _ _) List.suffix_rfl
    have hrest := ih fun u' hne hu => hmiss u' hne (hu.trans (List.suffix_cons c u))
    rw [List.cons_append, splitFind, if_neg (by rwa [ List.isPrefixOf_iff_prefix]), hrest]
    rfl

theorem splitFind_eq_some {s : Text} :
    ∀ {t u v : Text}, splitFind s t = some (u, v) → t = u ++ v := by
  intro t
  induction t with
  | nil =>
    intro u v h
    unfold splitFind at h
    split at h <;> cases h
    rfl
  | cons c t ih =>
    intro u v h
    unfold splitFind at h
    split at h
    · cases h
      rfl
    · obtain ⟨⟨u', v'⟩, hrest, heq⟩ := Option.map_eq_some_iff.1 h
      cases heq
      rw [ih hrest, List.cons_append]

/-- A text is found behind a character that it does not have, if it is not before it. -/
theorem splitFind_sep {s u v : Text} {c : Char} (hc : c ∉ s) (hu : ¬ s <:+: u) :
    splitFind s (u ++ [c] ++ (s ++ v)) = some (u ++ [c], s ++ v) := by
  refine splitFind_append (List.prefix_append s v) fun u' hne hsuf hpre => ?_
  -- the text found would end with the character, or lie before it
  have hmem : c ∈ u' := by
    obtain ⟨w, hw⟩ := hsuf
    have hlast : (w ++ u').getLast? = some c := by rw [hw, List.getLast?_concat]
    rw [List.getLast?_append_of_ne_nil _ hne] at hlast
    exact List.mem_of_getLast? hlast
  rcases List.prefix_or_prefix_of_prefix hpre (List.prefix_append u' (s ++ v)) with h | h
  · have hall : s <:+: u ++ c :: [] := h.isInfix.trans hsuf.isInfix
    rcases (infix_append_sep hc).1 hall with h | h
    · exact hu h
    · rw [List.infix_nil] at h
      exact hu (h ▸ List.nil_infix)
  · exact hc (h.subset hmem)

/-! ## What the template writes -/

/-- The node up to the name of the inner one. -/
def nodeHead : Text :=
  "\treserved-memory \x7b\n\t\t#address-cells = <0x02>;\n" ++
    "\t\t#size-cells = <0x02>;\n\t\tranges;\n\n\t"

/-- From the words of `reg` on. -/
def nodeTail : Text := ">;\n\t\t\tno-map;\n\t\t\x7d;\n\t\x7d;\n"

theorem node_eq (base size : Int) : node base size = '\n' :: nodeHead ++ ['\t'] ++
    (guestRamMark ++ (formatHex 0 base ++ " \x7b\n\t\t" ++ ['\t'] ++
      (regMark ++ ([' '].intercalate (regWords base size) ++ nodeTail)))) := by
  have hhead : nodeHead = "\treserved-memory \x7b" ++ '\n' ::
      ("\t\t#address-cells = <0x02>;" ++ '\n' :: ("\t\t#size-cells = <0x02>;" ++
        '\n' :: ("\t\tranges;" ++ ['\n', '\n', '\t']))) := by decide +kernel
  have htail : nodeTail = ">;" ++ '\n' :: ("\t\t\tno-map;" ++ '\n' ::
      ("\t\t\x7d;" ++ '\n' :: ("\t\x7d;" ++ ['\n']))) := by decide +kernel
  have hname : " \x7b\n\t\t" = " \x7b" ++ ['\n', '\t', '\t'] := by decide
  have hreg : "\t\t\treg = <" = ['\t', '\t', '\t'] ++ regMark := by decide
  have htabs : "\t\t" = ['\t', '\t'] := by decide
  rw [node, nodeLines, hhead, htail, hname, hreg, htabs]
  generalize [' '].intercalate (regWords base size) = words
  generalize formatHex 0 base = digits
  simp [above]

theorem not_mem_formatHex {c : Char} (hc : c ≠ '-' ∧ digit? 16 c = none) (width : Nat) (n : Int) :
    c ∉ formatHex width n := by
  intro h
  rcases mem_formatHex h with h | h
  · exact hc.1 h
  · rw [hc.2] at h
    cases h

theorem not_mem_regWords {c : Char} (hc : c ∈ [' ', '>']) (base size : Int) :
    ∀ w ∈ regWords base size, c ∉ w := by
  have hchar : c ≠ '-' ∧ digit? 16 c = none ∧ c ≠ 'x' ∧ c ∉ "0x0".toList ∧ c ≠ '0' := by
    revert c
    decide
  obtain ⟨hsign, hdigit, hx, hzero, h0⟩ := hchar
  have hword : ∀ n : Int, c ∉ '0' :: 'x' :: formatHex 8 n := fun n =>
    List.not_mem_cons_of_ne_of_not_mem h0 (List.not_mem_cons_of_ne_of_not_mem hx
      (not_mem_formatHex ⟨hsign, hdigit⟩ 8 n))
  simp only [regWords, List.forall_mem_cons]
  exact ⟨hzero, hword base, hzero, hword size, List.forall_mem_nil _⟩

theorem literal_regWords (base size : Nat) :
    (regWords base size).mapM literal = some [0, base, 0, size] := by
  have hzero : literal "0x0" = some 0 := by decide
  have hword (n : Nat) : literal ('0' :: 'x' :: formatHex 8 n) = some n := by
    rw [formatHex_natCast, literal_leftpad]
  simp only [regWords, List.mapM_cons, List.mapM_nil, hzero, hword]
  rfl

/-- The node stands in the output where the mark is found, whatever the text around it. -/
theorem emittedCells_node {before after : Text} (h : ¬ guestRamMark <:+: before) (base size : Nat) :
    emittedCells (before ++ node base size ++ after) = some [0, base, 0, size] := by
  have hbefore : ¬ guestRamMark <:+: before ++ '\n' :: nodeHead := by
    have hhead : ¬ guestRamMark <:+: nodeHead := by decide +kernel
    rw [infix_append_sep (by decide)]
    exact not_or.2 ⟨h, hhead⟩
  have hname : ¬ regMark <:+: guestRamMark ++ (formatHex 0 base ++ " \x7b\n\t\t") := by
    intro hreg
    have heq : '=' ∈ guestRamMark ++ (formatHex 0 base ++ " \x7b\n\t\t") :=
      hreg.subset (by decide)
    rcases List.mem_append.1 heq with heq | heq
    · exact absurd heq (by decide)
    · rcases List.mem_append.1 heq with heq | heq
      · exact not_mem_formatHex ⟨by decide, by decide⟩ 0 base heq
      · exact absurd heq (by decide)
  have hnode : before ++ node base size ++ after = before ++ '\n' :: nodeHead ++ ['\t'] ++
      (guestRamMark ++ (formatHex 0 base ++ " \x7b\n\t\t" ++ ['\t'] ++
        (regMark ++ ([' '].intercalate (regWords base size) ++ (nodeTail ++ after))))) := by
    rw [node_eq]
    simp only [List.append_assoc, List.cons_append]
  have hreg := splitFind_sep (c := '\t') (s := regMark)
    (v := [' '].intercalate (regWords base size) ++ (nodeTail ++ after)) (by decide) hname
  rw [List.append_assoc guestRamMark, List.append_assoc guestRamMark] at hreg
  have hwords :
      ([' '].intercalate (regWords base size) ++ (nodeTail ++ after)).takeWhile (· ≠ '>') =
        [' '].intercalate (regWords base size) := by
    have hnone : '>' ∉ [' '].intercalate (regWords base size) :=
      not_mem_intercalate (by decide) (not_mem_regWords (by decide) base size)
    have htail : (nodeTail ++ after).takeWhile (· ≠ '>') = [] := by
      have hcons : nodeTail = '>' :: nodeTail.tail := by decide
      rw [hcons, List.cons_append, List.takeWhile_cons_of_neg (by decide)]
    rw [List.takeWhile_append_of_pos fun c hc => by
      simpa using fun h : c = '>' => hnone (h ▸ hc), htail,
      List.append_nil]
  rw [emittedCells, hnode, splitFind_sep (by decide) hbefore]
  simp only [Option.bind_eq_bind, Option.bind_some]
  rw [hreg]
  simp only [Option.bind_some, List.drop_left]
  rw [hwords, List.splitOn_intercalate _ (not_mem_regWords (by decide) base size)
    (List.cons_ne_nil _ _), literal_regWords]

theorem insertNode_ok {text out : Text} {base size : Int}
    (h : insertNode text base size = .ok out) :
    ∃ before after, ¬ guestRamMark <:+: before ∧ out = before ++ node base size ++ after := by
  unfold insertNode at h
  split at h
  · cases h
  · rename_i before fromRoot hroot
    split at h
    · cases h
    · rename_i root rest hend
      split at h
      · cases h
      · rename_i hmark
        -- what stands before the node is the beginning of the text
        have htext : text = before ++ (root ++ rest) := by
          rw [splitFind_eq_some hroot, splitFind_eq_some hend]
        refine ⟨before ++ root, rest, fun hin => hmark (hin.trans ?_), (Except.ok.inj h).symm⟩
        rw [htext, ← List.append_assoc]
        exact (List.prefix_append _ _).isInfix

theorem emittedCells_insertNode {text out : Text} {base size : Nat}
    (h : insertNode text base size = .ok out) : emittedCells out = some [0, base, 0, size] := by
  obtain ⟨before, after, hmark, rfl⟩ := insertNode_ok h
  exact emittedCells_node hmark base size

theorem encodes_iff (base size : Nat) :
    Encodes [0, base, 0, size] base size ↔ base < 2 ^ 32 ∧ size < 2 ^ 32 := by
  constructor
  · intro h
    obtain ⟨c₀, c₁, c₂, c₃, hcells, -, hbase, -, hsize, -, -⟩ := h
    cases hcells
    exact ⟨hbase, hsize⟩
  · intro h
    exact ⟨0, base, 0, size, rfl, by omega, h.1, by omega, h.2, by omega, by omega⟩

/-- **When the cells encode the whole range**: exactly when both numbers fit in 32 bits. -/
theorem reg_cells_iff {text out : Text} (base size : Fin (2 ^ 64))
    (h : insertNode text base.val size.val = .ok out) :
    (∃ cells, emittedCells out = some cells ∧ Encodes cells base.val size.val) ↔
      base.val < 2 ^ 32 ∧ size.val < 2 ^ 32 := by
  rw [← encodes_iff, emittedCells_insertNode h]
  constructor
  · rintro ⟨cells, hcells, henc⟩
    rwa [← Option.some.inj hcells] at henc
  · intro henc
    exact ⟨_, rfl, henc⟩

/-- A root with nothing in it. -/
def bareRoot : Text := "/dts-v1/;\n\n/ \x7b\n\x7d;\n"

/-- What the edit makes of it. -/
def bareReserved (base size : Int) : Text :=
  "/dts-v1/;\n\n" ++ "/ \x7b" ++ node base size ++ "\n\x7d;\n"

theorem insertNode_bareRoot (base size : Int) :
    insertNode bareRoot base size = .ok (bareReserved base size) := by
  have hstart : splitFind rootStart bareRoot =
      some ("/dts-v1/;\n\n".toList, "/ \x7b\n\x7d;\n".toList) := by decide +kernel
  have hend : splitFind rootEnd "/ \x7b\n\x7d;\n".toList =
      some ("/ \x7b".toList, "\n\x7d;\n".toList) := by decide
  have hmark : ¬ guestRamMark <:+: bareRoot := by decide
  unfold insertNode bareReserved
  rw [hstart]
  simp only
  rw [hend]
  simp only
  rw [if_neg hmark]

/-- The range that the scripts reserve by default. -/
theorem reg_cells_default :
    ∃ cells, emittedCells (bareReserved 0x90000000 0x40000000) = some cells ∧
      Encodes cells 0x90000000 0x40000000 :=
  (reg_cells_iff 0x90000000 0x40000000 (insertNode_bareRoot 0x90000000 0x40000000)).2
    (by decide)

/-- A range that starts at 4 GiB: the base stands whole in the lower cell. -/
theorem reg_cells_fourGiB :
    insertNode bareRoot 0x100000000 0x40000000 = .ok (bareReserved 0x100000000 0x40000000) ∧
      emittedCells (bareReserved 0x100000000 0x40000000) = some [0, 0x100000000, 0, 0x40000000] ∧
      ¬ Encodes [0, 0x100000000, 0, 0x40000000] 0x100000000 0x40000000 := by
  have hrun := insertNode_bareRoot 0x100000000 0x40000000
  refine ⟨hrun, @emittedCells_insertNode _ _ 0x100000000 0x40000000 hrun, ?_⟩
  rw [encodes_iff]
  decide

end Boot
