import AxvisorTools.Boot.Proof.Reg
import AxvisorTools.Dts.Proof.Context
import AxvisorTools.Text.Proof.Regex

/-!
# Inserting the reserved memory

In a printed tree the first line that starts with a closing brace ends the root, so the edit puts the
node behind the last child of the root and changes nothing else (`read_insertNode`). The outcome is
a proper tree exactly when the root had no `reserved-memory` before (`reservedMemory_iff`).
-/

namespace Boot

open Py Dts

variable {base size : Int} {cells : List Nat}

/-! ## Finding a text -/

theorem splitFind_skip (s : Text) {l : Text} (hl : '\n' ∉ l) (t : Text) :
    splitFind ('\n' :: s) (l ++ t) = (splitFind ('\n' :: s) t).map fun p => (l ++ p.1, p.2) := by
  induction l with
  | nil => simp
  | cons c l ih =>
    have hc : '\n' ≠ c := fun h => hl (h ▸ List.mem_cons_self)
    have hmiss : ¬ '\n' :: s <+: c :: (l ++ t) := fun h => hc (List.cons_prefix_cons.1 h).1
    rw [List.cons_append, splitFind, if_neg (by rwa [ List.isPrefixOf_iff_prefix]),
      ih fun h => hl (List.mem_cons_of_mem _ h), Option.map_map]
    rfl

theorem splitFind_line {s r : Text} (hs : '\n' ∉ s) {ls : List Text} :
    ∀ {l : Text}, '\n' ∉ l → Unbroken ls → (∀ k ∈ ls, ¬ s <+: k) →
      splitFind ('\n' :: s) (l ++ (below ls ++ '\n' :: (s ++ r))) =
        some (l ++ below ls, '\n' :: (s ++ r)) := by
  induction ls with
  | nil =>
    intro l hl _ _
    have hhere : '\n' :: s <+: '\n' :: (s ++ r) := List.cons_prefix_cons.2 ⟨rfl, List.prefix_append _ _⟩
    rw [splitFind_skip s hl, below_nil, List.nil_append, splitFind,
      if_pos (List.isPrefixOf_iff_prefix.2 hhere)]
    rfl
  | cons k ls ih =>
    intro l hl hls hmiss
    have hk : '\n' ∉ k := hls k List.mem_cons_self
    have hrest := ih hk (fun x hx => hls x (List.mem_cons_of_mem _ hx))
      fun x hx => hmiss x (List.mem_cons_of_mem _ hx)
    have hnot : ¬ '\n' :: s <+: '\n' :: (k ++ (below ls ++ '\n' :: (s ++ r))) := by
      intro h
      have hpre : s <+: k ++ below (ls ++ [s ++ r]) := by
        simpa [below_append] using (List.cons_prefix_cons.1 h).2
      exact hmiss k List.mem_cons_self ((Regex.prefix_append_below hs).1 hpre)
    have htext : below (k :: ls) ++ '\n' :: (s ++ r) =
        '\n' :: (k ++ (below ls ++ '\n' :: (s ++ r))) := by simp
    rw [splitFind_skip s hl, htext, splitFind, if_neg (by rwa [ List.isPrefixOf_iff_prefix]), hrest]
    simp

/-! ## The place of the node -/

/-- The last line of the root. -/
def closing : Text := ['\x7d', ';']

theorem rootStart_eq : rootStart = ['/', ' ', '\x7b'] := by decide

theorem rootEnd_eq : rootEnd = '\n' :: closing := by decide

/-- The lines between the first and the last line of the root. -/
def rootBody (d : Document) : List Text :=
  d.root.props.map (propertyLine 1) ++ childLines 1 d.root.children

theorem lines_root (d : Document) : d.root.lines 0 = rootStart :: (rootBody d ++ [closing]) := by
  have hname := d.root_name
  unfold rootBody
  revert hname
  cases d.root with
  | mk name props children =>
    intro hname
    obtain rfl : name = rootName := hname
    have hopen : openLine 0 rootName = rootStart := by decide
    have hclose : closeLine 0 = closing := by decide
    rw [Node.lines, List.append_assoc, hopen, hclose]
    rfl

theorem brace_not_mem_reserveLine (a b : Nat) : '\x7b' ∉ reserveLine a b ++ ['\n'] := by
  have hhex : ∀ n, '\x7b' ∉ hex016 n := by
    intro n h
    exact absurd (hexDigit_of_mem_leftpad 16 n _ h) (by decide)
  have htag : '\x7b' ∉ reserveTag := by decide
  simp [reserveLine, htag, hhex]

theorem brace_not_mem_head (d : Document) : '\x7b' ∉ above d.head := by
  have hranges : '\x7b' ∉ above (d.reserved.map Reserve.line) := by
    intro h
    obtain ⟨l, hl, hmem⟩ := List.mem_flatMap.1 h
    obtain ⟨r, -, rfl⟩ := List.mem_map.1 hl
    exact brace_not_mem_reserveLine _ _ hmem
  have htag : '\x7b' ∉ versionTag := by decide
  rw [Document.head, above_cons, above_cons]
  simpa [htag] using hranges

theorem splitFind_root (d : Document) (t : Text) :
    splitFind rootStart (above d.head ++ (rootStart ++ t)) =
      some (above d.head, rootStart ++ t) := by
  refine splitFind_append (List.prefix_append _ _) fun u hne hu h => ?_
  have hbrace : '\x7b' ∉ u := fun hmem => brace_not_mem_head d (hu.subset hmem)
  -- the brace of an earlier match would have to be one of the first two characters of the root
  rcases u with _ | ⟨a, _ | ⟨b, _ | ⟨c, u⟩⟩⟩
  · exact hne rfl
  · simp [rootStart_eq] at h
  · simp [rootStart_eq] at h
  · have hc : '\x7b' = c := by
      simp [rootStart_eq] at h
      exact h.2.2
    exact hbrace (by simp [← hc])

theorem unbroken_rootBody (d : Document) : Unbroken (rootBody d) := by
  intro l hl
  refine unbroken_lines_of_named d.named 0 (.inl d.root_name) l ?_
  rw [lines_root]
  exact List.mem_cons_of_mem _ (List.mem_append_left _ hl)

theorem indented_rootBody (d : Document) : ∀ l ∈ rootBody d, Indented l := by
  intro l hl
  rcases List.mem_append.1 hl with hl | hl
  · obtain ⟨p, -, rfl⟩ := List.mem_map.1 hl
    exact indented_propertyLine 0 p
  · have hnamed := d.named
    revert hl
    cases hroot : d.root with
    | mk name props children =>
      rw [hroot] at hnamed
      cases hnamed with
      | mk _ _ hbelow =>
        exact forall_childLines (.inl rfl) (fun c hc => indented_lines (hbelow c hc) 0) l

theorem insertNode_text (d : Document) (hmark : ¬ guestRamMark <:+: d.text) (base size : Int) :
    insertNode d.text base size = .ok (above d.head ++ (rootStart ++ '\n' :: (above (rootBody d) ++
      above (nodeLines base size ++ [[], closing])))) := by
  have htext : d.text = above d.head ++ (rootStart ++ (below (rootBody d) ++
      '\n' :: (closing ++ ['\n']))) := by
    rw [Document.text, above_append, lines_root, above_cons, newline_above, below_append]
    simp
  have hmiss : ∀ k ∈ rootBody d, ¬ closing <+: k := by
    intro k hk h
    rcases indented_rootBody d k hk with rfl | ⟨t, rfl⟩
    · simp [closing] at h
    · simp [closing] at h
  have hend := splitFind_line (s := closing) (r := ['\n']) (by decide) (l := rootStart)
    (by decide) (unbroken_rootBody d) hmiss
  have hroot := splitFind_root d (below (rootBody d) ++ '\n' :: (closing ++ ['\n']))
  rw [← htext] at hroot
  unfold insertNode
  simp only [hroot, rootEnd_eq, hend, if_neg hmark]
  have hbody : '\n' :: (above (rootBody d) ++ above (nodeLines base size ++ [[], closing])) =
      below (rootBody d) ++ '\n' :: above (nodeLines base size ++ [[], closing]) := by
    rw [← List.cons_append, newline_above, List.append_assoc]
    rfl
  rw [node, hbody, above_append]
  simp

/-! ## The tree after the edit -/

def reservedMemory : Text := "reserved-memory"

/-- The node that `node` spells. -/
def reservedNode (base : Int) (cells : List Nat) : Node :=
  .mk reservedMemory [⟨"#address-cells", cellBytes 2⟩,
      ⟨"#size-cells", cellBytes 2⟩, ⟨"ranges", []⟩]
    [.mk (guestRamMark ++ formatHex 0 base)
      [⟨"reg", cells.flatMap cellBytes⟩, ⟨"no-map", []⟩] []]

theorem isAlphanum_of_digit {c : Char} {d : Nat} (h : digitValue c = some d) :
    c.isAlphanum = true :=
  of_digitValue (P := fun c => c.isAlphanum = true) (by decide) (by rw [h]; rfl)

theorem isNodeName_guestRam (base : Int) :
    isNodeName (guestRamMark ++ formatHex 0 base) = true := by
  have hmark : ∀ c ∈ guestRamMark, isNodeChar c = true := by decide
  rw [isNodeName, decide_eq_true_iff, List.all_eq_true]
  refine ⟨List.append_ne_nil_of_left_ne_nil (by decide) _, fun c hc => ?_⟩
  rcases List.mem_append.1 hc with hc | hc
  · exact hmark c hc
  rcases mem_formatHex hc with rfl | hdigit
  · decide
  · obtain ⟨d, hd⟩ := Option.isSome_iff_exists.1 hdigit
    simp [isNodeChar, isPropertyChar, isAlphanum_of_digit (digitValue_of_digit? hd).1]

theorem named_reservedNode (base : Int) (cells : List Nat) : (reservedNode base cells).Named := by
  have hreg : isPropertyName "reg" = true := by decide
  have hmap : isPropertyName "no-map" = true := by decide
  refine .mk (by decide) ?_ ?_
  · intro c hc
    rw [List.mem_singleton.1 hc]
    exact isNodeName_guestRam base
  · intro c hc
    rw [List.mem_singleton.1 hc]
    refine .mk (fun p hp => ?_) (fun _ h => by cases h) fun _ h => by cases h
    rcases List.mem_cons.1 hp with rfl | hp
    · exact hreg
    · rw [List.mem_singleton.1 hp]
      exact hmap

theorem distinct_reservedNode (base : Int) (cells : List Nat) :
    (reservedNode base cells).Distinct := by
  have hne : "reg".toList ≠ "no-map".toList := by decide
  refine .mk (by decide) (List.pairwise_singleton _ _) fun c hc => ?_
  rw [List.mem_singleton.1 hc]
  refine .mk ?_ List.nodup_nil fun _ h => by cases h
  exact List.nodup_cons.2 ⟨fun h => hne (List.mem_singleton.1 h), List.pairwise_singleton _ _⟩

theorem isWord_formatHex (width : Nat) (n : Int) : IsWord ('0' :: 'x' :: formatHex width n) := by
  refine isWord_literal ⟨formatHex_ne_nil _ _, fun c hc => ?_⟩
  rcases mem_formatHex hc with rfl | hdigit
  · decide
  · exact (isWord_of_hex (List.cons_ne_nil c []) fun d hd => by rwa [List.mem_singleton.1 hd]).2 c
      (List.mem_singleton_self c)

/-- The line of `reg`. -/
def regLine (base size : Int) : Text :=
  "\t\t\treg = <" ++ [' '].intercalate (regWords base size) ++ ">;"

theorem run_regLine (base size : Int) {r : Reader} (hmode : r.mode = .blank)
    (hpending : r.pending = []) : r.run (regLine base size) = (regCells base size).bind
      fun cells => r.event (.prop ⟨"reg", cells.flatMap cellBytes⟩) := by
  have hwords : ∀ w ∈ regWords base size, IsWord w := by
    have hzero : IsWord "0x0" := ⟨by decide, by decide⟩
    intro w hw
    simp only [regWords, List.mem_cons, List.not_mem_nil, or_false] at hw
    rcases hw with rfl | rfl | rfl | rfl
    · exact hzero
    · exact isWord_formatHex 8 base
    · exact hzero
    · exact isWord_formatHex 8 size
  have hless : Lexes ['<'] [.sym '<'] := .symbol (by decide) (by decide) (by decide)
  have hlexes := hless.append (Lexes.words hwords (c := '>') (by decide) (by decide) (by decide))
  have hreg : isPropertyName "reg" = true := by decide
  have hline : regLine base size = tabs 3 ++ ("reg" ++ ' ' :: '=' :: ' ' ::
      (['<'] ++ (spaced (regWords base size) ++ ['>'])) ++ [';']) := by
    have hstart : "\t\t\treg = <" = tabs 3 ++ "reg" ++ [' ', '=', ' ', '<'] := by decide
    have hend : ">;" = ['>', ';'] := by decide
    unfold regLine spaced
    generalize [' '].intercalate (regWords base size) = words
    rw [hstart, hend]
    generalize "reg" = name
    simp
  have htabs : r.run (tabs 3) = some r := Reader.run_blanks hmode (by decide)
  rw [hline, Reader.run_append, htabs, Option.bind_some, run_value hreg hlexes hmode hpending]
  have hvalue := readValues_cells (regWords base size)
  rw [← regCells] at hvalue
  rw [List.singleton_append, hvalue]
  cases regCells base size <;> rfl

theorem reads_regLine (h : regCells base size = some cells) :
    Reads (regLine base size) [.prop ⟨"reg", cells.flatMap cellBytes⟩] :=
  .single fun _ hmode hpending _ => by rw [run_regLine base size hmode hpending, h, Option.bind_some]

/-- The lines of the node down to `reg`. -/
def nodeStart (base : Int) : List Text :=
  [openLine 1 reservedMemory, propertyLine 2 ⟨"#address-cells", cellBytes 2⟩,
    propertyLine 2 ⟨"#size-cells", cellBytes 2⟩, propertyLine 2 ⟨"ranges", []⟩, [],
    openLine 2 (guestRamMark ++ formatHex 0 base)]

/-- All lines but the one of `reg` are as the compiler would print them. -/
theorem nodeLines_eq (base size : Int) : nodeLines base size = nodeStart base ++
    [regLine base size, propertyLine 3 ⟨"no-map", []⟩, closeLine 2, closeLine 1] := by
  have hopen : "\treserved-memory \x7b" = openLine 1 reservedMemory := by decide
  have haddress : "\t\t#address-cells = <0x02>;" =
      propertyLine 2 ⟨"#address-cells", cellBytes 2⟩ := by decide +kernel
  have hsizes : "\t\t#size-cells = <0x02>;" =
      propertyLine 2 ⟨"#size-cells", cellBytes 2⟩ := by decide +kernel
  have hranges : "\t\tranges;" = propertyLine 2 ⟨"ranges", []⟩ := by decide +kernel
  have hguest : "\t\t" ++ guestRamMark ++ formatHex 0 base ++ " \x7b" =
      openLine 2 (guestRamMark ++ formatHex 0 base) := by
    have htabs : "\t\t" = tabs 2 := by decide
    rw [openLine, htabs, List.append_assoc (tabs 2)]
  have hmap : "\t\t\tno-map;" = propertyLine 3 ⟨"no-map", []⟩ := by decide +kernel
  have hclose : "\t\t\x7d;" = closeLine 2 ∧ "\t\x7d;" = closeLine 1 := by decide
  rw [nodeLines, hopen, haddress, hsizes, hranges, hguest, hmap, hclose.1, hclose.2]
  rfl

/-- What the lines down to `reg` stand for. -/
def startEvents (base : Int) : List Event :=
  [.opens reservedMemory, .prop ⟨"#address-cells", cellBytes 2⟩,
    .prop ⟨"#size-cells", cellBytes 2⟩, .prop ⟨"ranges", []⟩,
    .opens (guestRamMark ++ formatHex 0 base)]

theorem reads_nodeStart (base : Int) : Reads (above (nodeStart base)) (startEvents base) := by
  have hname : isNodeName reservedMemory = true := by decide
  have hopen := reads_openLine 1 (.inr hname)
  have haddress := reads_propertyLine 2 (p := ⟨"#address-cells", cellBytes 2⟩) (by decide)
  have hsizes := reads_propertyLine 2 (p := ⟨"#size-cells", cellBytes 2⟩) (by decide)
  have hranges := reads_propertyLine 2 (p := ⟨"ranges", []⟩) (by decide)
  have hguest := reads_openLine 2 (.inr (isNodeName_guestRam base))
  simp only [nodeStart, above_cons, above_nil]
  exact hopen.line (haddress.line (hsizes.line (hranges.line (Reads.nil.line (hguest.line .nil)))))

theorem reads_nodeLines (h : regCells base size = some cells) :
    Reads (above (nodeLines base size)) (reservedNode base cells).events := by
  have hmap := reads_propertyLine 3 (p := ⟨"no-map", []⟩) (by decide)
  rw [nodeLines_eq, above_append]
  simp only [above_cons, above_nil]
  exact (reads_nodeStart base).append ((reads_regLine h).line (hmap.line ((reads_closeLine 2).line
    ((reads_closeLine 1).line .nil))))

/-- The tree with one more node, behind the other children of the root. -/
def withChild (root n : Node) : Node := .mk root.name root.props (root.children ++ [n])

theorem named_withChild {root n : Node} (h : root.Named) (hn : n.Named)
    (hname : isNodeName n.name = true) : (withChild root n).Named := by
  cases h with
  | mk hprops hchildren hbelow =>
    refine .mk hprops (fun c hc => ?_) fun c hc => ?_
    · rcases List.mem_append.1 hc with hc | hc
      · exact hchildren c hc
      · rwa [List.mem_singleton.1 hc]
    · rcases List.mem_append.1 hc with hc | hc
      · exact hbelow c hc
      · rwa [List.mem_singleton.1 hc]

theorem read_withReserved (d : Document) {root : Node} (hroot : root.name = rootName)
    (hnamed : root.Named) {t : Text} (ht : Reads t (root.props.map .prop ++ eventsOf root.children))
    (h : regCells base size = some cells) :
    read (above d.head ++ (rootStart ++ '\n' :: (t ++ above (nodeLines base size ++ [[], closing])))) =
      some (d.ranges, withChild root (reservedNode base cells)) := by
  have hopen : Reads rootStart [.opens rootName] := reads_openLine 0 (.inl rfl)
  have hclose : Reads closing [.closes] := reads_closeLine 0
  have hevents : (withChild root (reservedNode base cells)).events =
      [.opens rootName] ++ ((root.props.map .prop ++ eventsOf root.children) ++
        ((reservedNode base cells).events ++ ([] ++ ([.closes] ++ [])))) := by
    rw [withChild, hroot, Node.events, eventsOf_append, eventsOf, eventsOf]
    simp
  have hreads : Reads (rootStart ++ '\n' :: (t ++ above (nodeLines base size ++ [[], closing])))
      (withChild root (reservedNode base cells)).events := by
    rw [hevents, above_append, above_cons, above_cons, above_nil]
    exact hopen.line (ht.append ((reads_nodeLines h).append (Reads.nil.line (hclose.line .nil))))
  have hname : isNodeName reservedMemory = true := by decide
  have hbuild := build_events (named_withChild hnamed (named_reservedNode base cells) hname) outside
    [] hroot
  rw [read_events d hreads, hbuild]
  rfl

theorem reads_rootBody (d : Document) :
    Reads (above (rootBody d)) (d.root.props.map .prop ++ eventsOf d.root.children) := by
  have hnamed := d.named
  unfold rootBody
  rw [above_append]
  revert hnamed
  cases d.root with
  | mk name props children =>
    intro hnamed
    cases hnamed with
    | mk hprops hchildren hbelow =>
      exact (reads_properties 1 hprops).append
        (reads_childLines 1 fun c hc => reads_lines (hbelow c hc) 1 (.inr (hchildren c hc)))

theorem cell_of_lt {n : Nat} (h : n < 2 ^ 32) : cell n = some n := by
  rw [cell, if_pos (.inl h), Nat.mod_eq_of_lt h]

theorem regCells_of_lt {base size : Nat} (hbase : base < 2 ^ 32) (hsize : size < 2 ^ 32) :
    regCells base size = some [0, base, 0, size] := by
  rw [regCells_eq, cell_of_lt hbase, cell_of_lt hsize]
  rfl

/-- The tree after the edit. -/
def withReserved (root : Node) (base size : Nat) : Node :=
  withChild root (reservedNode base [0, base, 0, size])

theorem read_insertNode (d : Document) {base size : Nat} (hbase : base < 2 ^ 32)
    (hsize : size < 2 ^ 32) :
    read (above d.head ++ (rootStart ++ '\n' :: (above (rootBody d) ++
      above (nodeLines base size ++ [[], closing])))) =
      some (d.ranges, withReserved d.root base size) :=
  read_withReserved d d.root_name d.named (reads_rootBody d) (regCells_of_lt hbase hsize)

/-! ## The outcome -/

/-- What is asked of the tree after the edit. -/
structure Reserved (before after : Node) (base size : Nat) : Prop where
  once : (after.children.filter (·.name = reservedMemory)).length = 1
  holds : ∃ r ∈ after.children, r.name = reservedMemory ∧
    ∃ g ∈ r.children, g.name = guestRamMark ++ formatHex 0 base ∧
      ⟨"no-map", []⟩ ∈ g.props ∧
      ⟨"reg", [0, base, 0, size].flatMap cellBytes⟩ ∈ g.props
  distinct : after.Distinct
  props : after.props = before.props
  children : ∀ c ∈ before.children, c ∈ after.children

/-- The root has no node for reserved memory yet. -/
def NoReserved (root : Node) : Prop := ∀ c ∈ root.children, c.name ≠ reservedMemory

theorem reserved_withReserved_iff {root : Node} (h : root.Distinct) (base size : Nat) :
    Reserved root (withReserved root base size) base size ↔ NoReserved root := by
  have hname : ∀ cells, (reservedNode base cells).name = reservedMemory := fun _ => rfl
  rw [withReserved]
  generalize hn : reservedNode base [0, base, 0, size] = n
  have hlast : [n].filter (·.name = reservedMemory) = [n] :=
    List.filter_cons_of_pos (decide_eq_true (hn ▸ hname _))
  constructor
  · intro hres c hc hcname
    have honce := hres.once
    have hmem : c ∈ root.children.filter (·.name = reservedMemory) :=
      List.mem_filter.2 ⟨hc, decide_eq_true hcname⟩
    have hpos := List.length_pos_of_mem hmem
    rw [withChild, Node.children, List.filter_append, List.length_append, hlast,
      List.length_singleton] at honce
    omega
  · intro hno
    have hnone : root.children.filter (·.name = reservedMemory) = [] :=
      List.filter_eq_nil_iff.2 fun c hc => by simpa using hno c hc
    have hmem : n ∈ (withChild root n).children :=
      List.mem_append_right _ (List.mem_singleton_self _)
    subst hn
    constructor
    · rw [withChild, Node.children, List.filter_append, hnone, hlast]
      rfl
    · exact ⟨_, hmem, hname _, _, List.mem_singleton_self _, rfl,
        List.mem_cons_of_mem _ (List.mem_singleton_self _), List.mem_cons_self⟩
    · cases h with
      | mk hprops hnodup hbelow =>
        refine .mk hprops ?_ fun c hc => ?_
        · rw [List.map_append]
          refine List.nodup_append.2 ⟨hnodup, List.pairwise_singleton _ _, fun a ha b hb => ?_⟩
          obtain ⟨c, hc, rfl⟩ := List.mem_map.1 ha
          rw [List.mem_singleton.1 hb]
          exact hno c hc
        · rcases List.mem_append.1 hc with hc | hc
          · exact hbelow c hc
          · rw [List.mem_singleton.1 hc]
            exact distinct_reservedNode _ _
    · rfl
    · exact fun c hc => List.mem_append_left _ hc

/-- A run of the edit ends with a proper tree. -/
def Injects (result : Except Error Text) (d : Document) (base size : Nat) : Prop :=
  ∃ out after, result = .ok out ∧ read out = some (d.ranges, after) ∧
    Reserved d.root after base size

theorem injects_insertNode_iff (d : Document) (hmark : ¬ guestRamMark <:+: d.text) {base size : Nat}
    (hbase : base < 2 ^ 32) (hsize : size < 2 ^ 32) :
    Injects (insertNode d.text base size) d base size ↔ NoReserved d.root := by
  rw [← reserved_withReserved_iff d.distinct base size, insertNode_text d hmark]
  constructor
  · intro h
    obtain ⟨out, after, hout, hread, hreserved⟩ := h
    obtain rfl := Except.ok.inj hout
    rw [read_insertNode d hbase hsize, Option.some.injEq, Prod.mk.injEq] at hread
    rwa [hread.2]
  · intro h
    exact ⟨_, _, rfl, read_insertNode d hbase hsize, h⟩

theorem buildBootDtb_eq {baseArg sizeArg : Text} (text : Text)
    (hbase : intStr 0 baseArg = some base) (hsize : intStr 0 sizeArg = some size) :
    buildBootDtb text baseArg sizeArg = insertNode text base size := by
  simp only [buildBootDtb, intArg, hbase, hsize]
  rfl

theorem buildBootDtbQemu_eq {baseArg sizeArg disableArg : Text} {disable : Int} (text : Text)
    (hbase : intStr 0 baseArg = some base) (hsize : intStr 0 sizeArg = some size)
    (hdisable : intStr 0 disableArg = some disable) :
    buildBootDtbQemu text baseArg sizeArg disableArg = (insertNode text base size).bind
      fun text => if disable ≠ 0 then disableUart text else .ok text := by
  simp only [buildBootDtbQemu, intArg, hbase, hsize, hdisable]
  rfl

/-- **When the edit leaves a proper device tree**: exactly when the root has no `reserved-memory` yet.
The two scripts do not differ in this. -/
theorem reservedMemory_iff (d : Document) (hmark : ¬ guestRamMark <:+: d.text)
    (baseArg sizeArg disableArg : Text) (base size : Nat) (hbase : base < 2 ^ 32)
    (hsize : size < 2 ^ 32) (hbaseArg : intStr 0 baseArg = some (base : Int))
    (hsizeArg : intStr 0 sizeArg = some (size : Int)) (hdisable : intStr 0 disableArg = some 0) :
    (Injects (buildBootDtb d.text baseArg sizeArg) d base size ↔ NoReserved d.root) ∧
      (Injects (buildBootDtbQemu d.text baseArg sizeArg disableArg) d base size ↔
        NoReserved d.root) := by
  have hkeep : (insertNode d.text base size).bind
      (fun text => if (0 : Int) ≠ 0 then disableUart text else .ok text) =
        insertNode d.text base size := by
    cases insertNode d.text base size <;> rfl
  rw [buildBootDtb_eq d.text hbaseArg hsizeArg, buildBootDtbQemu_eq d.text hbaseArg hsizeArg hdisable,
    hkeep]
  exact ⟨injects_insertNode_iff d hmark hbase hsize, injects_insertNode_iff d hmark hbase hsize⟩

/-- A root with one property and these children. -/
def smallRoot (children : List Node) : Node :=
  .mk rootName [⟨"#address-cells", cellBytes 2⟩] children

theorem named_leaf {name : Text} {props : List Property}
    (h : ∀ p ∈ props, isPropertyName p.name = true) : (Node.mk name props []).Named :=
  .mk h (List.forall_mem_nil _) (List.forall_mem_nil _)

theorem distinct_leaf {name : Text} {props : List Property}
    (h : (props.map Property.name).Nodup) : (Node.mk name props []).Distinct :=
  .mk h List.nodup_nil (List.forall_mem_nil _)

/-- A tree without reserved memory, with memory and a bus in the root and a device on the bus. -/
def plainTree : Document where
  reserved := [⟨0x80000000, 0x20000⟩]
  root := smallRoot
    [.mk "memory@80000000" [⟨"device_type", [109, 101, 109, 111, 114, 121, 0]⟩] [],
      .mk "soc" [⟨"ranges", []⟩]
        [.mk "serial@10000000"
          [⟨"interrupts", cellBytes 10⟩, ⟨"clock-frequency", cellBytes 3686400⟩] []]]
  root_name := rfl
  named := .mk (by decide) (by decide) (List.forall_mem_cons.2 ⟨named_leaf (by decide),
    List.forall_mem_singleton.2 (.mk (by decide) (by decide)
      (List.forall_mem_singleton.2 (named_leaf (by decide))))⟩)
  distinct := .mk (by decide) (by decide) (List.forall_mem_cons.2 ⟨distinct_leaf (by decide),
    List.forall_mem_singleton.2 (.mk (by decide) (by decide)
      (List.forall_mem_singleton.2 (distinct_leaf (by decide))))⟩)

theorem reservedMemory_plainTree :
    Injects (buildBootDtb plainTree.text "0x90000000" "0x40000000") plainTree 0x90000000 0x40000000 := by
  have h := reservedMemory_iff plainTree (by decide +kernel) "0x90000000" "0x40000000" "0" 0x90000000
    0x40000000 (by decide) (by decide) (by decide +kernel) (by decide +kernel) (by decide +kernel)
  have hnone : ∀ c ∈ plainTree.root.children, c.name ≠ reservedMemory := by decide
  exact h.1.2 hnone

/-- A tree whose firmware has reserved memory already. -/
def firmwareTree : Document where
  reserved := []
  root := smallRoot [.mk reservedMemory [] []]
  root_name := rfl
  named := .mk (by decide)
    (fun c hc => by rw [List.mem_singleton.1 hc]; exact (by decide : isNodeName reservedMemory = true))
    fun c hc => by
      rw [List.mem_singleton.1 hc]
      exact .mk (fun _ h => by cases h) (fun _ h => by cases h) fun _ h => by cases h
  distinct := .mk (by decide) (List.pairwise_singleton _ _) fun c hc => by
    rw [List.mem_singleton.1 hc]
    exact .mk List.nodup_nil List.nodup_nil fun _ h => by cases h

/-- The root of this tree gets a second `reserved-memory`. -/
theorem reservedMemory_firmwareTree :
    (∃ out, buildBootDtb firmwareTree.text "0x90000000" "0x40000000" = .ok out) ∧
      ¬ Injects (buildBootDtb firmwareTree.text "0x90000000" "0x40000000") firmwareTree 0x90000000
        0x40000000 := by
  have hmark : ¬ guestRamMark <:+: firmwareTree.text := by decide +kernel
  have hbase : intStr 0 "0x90000000" = some ((0x90000000 : Nat) : Int) := by decide +kernel
  have hsize : intStr 0 "0x40000000" = some ((0x40000000 : Nat) : Int) := by decide +kernel
  rw [buildBootDtb_eq _ hbase hsize,
    injects_insertNode_iff firmwareTree hmark (by decide) (by decide)]
  refine ⟨⟨_, insertNode_text firmwareTree hmark _ _⟩, fun h => ?_⟩
  exact h _ (List.mem_singleton_self _) rfl

end Boot
