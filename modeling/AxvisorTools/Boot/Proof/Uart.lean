import AxvisorTools.Boot.Proof.UartMatch
import AxvisorTools.Text.Proof.Grep

/-!
# Disabling the UART

The edit leaves the text alone when it finds a status in the lines it takes for the body of the node,
and else puts one at their end, which stands for a property of the node only if that has no children.
`onlyDisables_iff` says for which nodes the outcome is the intended one.
-/

namespace Boot

open Py Dts

variable {name : Text} {props : List Property} {f : Frame} {fs path : List Frame}

/-! ## The tree after the edit -/

def statusName : Text := "status"

def statusDisabled : Property := ⟨statusName, "disabled\x00".toList.map fun c => UInt8.ofNat c.toNat⟩

theorem addedStatus_eq : addedStatus = propertyLine 3 statusDisabled ++ ['\n'] := by decide +kernel

theorem reads_below (level : Nat) {ps : List Property} (h : ∀ p ∈ ps, isPropertyName p.name = true) :
    Reads (below (ps.map (propertyLine level))) (ps.map .prop) := by
  induction ps with
  | nil => exact .nil
  | cons p ps ih =>
    have hline := Reads.nil.line ((reads_propertyLine level (h p List.mem_cons_self)).append
      (ih fun q hq => h q (List.mem_cons_of_mem _ hq)))
    simpa using hline

theorem reads_leaf (level : Nat) (hname : isNodeName name = true)
    (hprops : ∀ p ∈ props, isPropertyName p.name = true) :
    Reads ((openLine level name ++ below (props.map (propertyLine (level + 1)))) ++
      (addedStatus ++ '\n' :: (closeLine level ++ ['\n'])))
      (Node.mk name (props ++ [statusDisabled]) []).events := by
  have hstatus : isPropertyName statusDisabled.name = true := by decide
  have hreads := ((reads_openLine level (.inr hname)).append (reads_below (level + 1) hprops)).append
    ((reads_propertyLine 3 hstatus).line (Reads.nil.line ((reads_closeLine level).line .nil)))
  have hevents : (Node.mk name (props ++ [statusDisabled]) []).events =
      [.opens name] ++ props.map .prop ++ ([.prop statusDisabled] ++ ([] ++ ([.closes] ++ []))) := by
    rw [Node.events, eventsOf]
    simp
  rw [hevents, addedStatus_eq]
  simpa using hreads

/-- The text of the properties and children of a root, around a text in a place below it. -/
def inside (f : Frame) (fs path : List Frame) (t : Text) : Text :=
  above (f.start 0) ++ ((above (before 1 fs) ++ ((above (before (1 + fs.length) path) ++
    (t ++ above (after (1 + fs.length) path))) ++ above (after 1 fs))) ++ above (childLines 1 f.right))

theorem reads_inside {m n : Node} {t : Text} (h : (plug (f :: fs) (plug path m)).Named)
    (ht : Reads t n.events) :
    Reads (inside f fs path t) (f.props.map .prop ++
      eventsOf (f.left ++ plug fs (plug path n) :: f.right)) := by
  have hframe : (plug [f] (plug fs (plug path m))).Named := h
  cases h with
  | mk _ hchildren hbelow =>
    have hmem : plug fs (plug path m) ∈ f.left ++ plug fs (plug path m) :: f.right :=
      List.mem_append_right _ List.mem_cons_self
    have hnamed := hbelow _ hmem
    have hname := hchildren _ hmem
    have hpath := reads_plug (named_of_plug hnamed) ht (1 + fs.length) (.inr (leaf_name hnamed hname))
    exact reads_frame 0 hframe (reads_plug hnamed hpath 1 (.inr hname))

/-- The printed text has no parts but these. -/
theorem rootBody_inside {d : Document}
    (hroot : d.root = plug (f :: fs) (plug path (.mk name props []))) :
    above (rootBody d) = inside f fs path
      (above ((Node.mk name props []).lines (1 + fs.length + path.length))) := by
  rw [rootBody, hroot, plug, Node.props, Node.children, childLines_append, childLines, lines_plug,
    lines_plug, inside, Frame.start]
  simp [above_append]

/-- The text of the innermost node with a status behind its properties. -/
def markedText (level : Nat) (name : Text) (props : List Property) : Text :=
  (openLine level name ++ below (props.map (propertyLine (level + 1)))) ++
    (addedStatus ++ '\n' :: (closeLine level ++ ['\n']))

theorem lines_leaf (level : Nat) (name : Text) (props : List Property) :
    above ((Node.mk name props []).lines level) =
      (openLine level name ++ below (props.map (propertyLine (level + 1)))) ++
        '\n' :: (closeLine level ++ ['\n']) := by
  rw [Node.lines, childLines, List.nil_append, above_cons, above_append, ← List.cons_append,
    newline_above]
  simp

theorem unlines_opening (level : Nat) (path : List Frame) (name : Text) (props : List Property) :
    unlines (opening level path name props) = above (before level path) ++
      (openLine (level + path.length) name ++
        below (props.map (propertyLine (level + path.length + 1)))) := by
  rw [opening, unlines_insert, List.append_assoc]

theorem unlines_cons {l : Text} {ls : List Text} (h : ls ≠ []) :
    unlines (l :: ls) = l ++ '\n' :: unlines ls := by
  obtain ⟨k, ks, rfl⟩ := List.exists_cons_of_ne_nil h
  simp [unlines]

/-- The edit leaves the text alone or marks the innermost node. -/
theorem disableUart_inside {d : Document} (h : Place d (f :: fs) (plug path (.mk name props [])))
    (hleft : ∀ f ∈ path, f.left = []) {body : List Text} (hne : body ≠ [])
    (hbody : opening (1 + fs.length) path name props = openLine (1 + fs.length) serialName :: body)
    (rest : Text) :
    disableUart (above d.head ++ (rootStart ++ '\n' :: (above (rootBody d) ++ rest))) =
      .ok (above d.head ++ (rootStart ++ '\n' :: ((if disabledText <:+: unlines body then
        above (rootBody d) else inside f fs path
          (markedText (1 + fs.length + path.length) name props)) ++ rest))) := by
  have hopen : openLine 0 f.name = rootStart := by
    have hname : f.name = rootName := h.root_name
    rw [hname]
    decide
  have hlength : (f :: fs).length = 1 + fs.length := by
    rw [List.length_cons]
    omega
  have hunlines := unlines_opening (1 + fs.length) path name props
  rw [hbody, unlines_cons hne] at hunlines
  have hedit := disableUart_document h hleft hne (by rw [hlength]; exact hbody)
    ('\n' :: (above (after (1 + fs.length) path) ++ (above (after 1 fs) ++
      (above (childLines 1 f.right) ++ rest))))
  rw [hlength, before, hopen, above_cons, above_append] at hedit
  -- the text from the first line of the node to the first closing line
  generalize hopening : openLine (1 + fs.length) serialName ++ '\n' :: unlines body = t at hunlines
  have hsplit : ∀ u : Text, openLine (1 + fs.length) serialName ++ '\n' :: (unlines body ++ u) =
      t ++ u := fun u => by rw [← hopening]; simp
  rw [rootBody_inside h.root, inside, lines_leaf]
  unfold disabledBody at hedit
  split at hedit
  · rename_i hmention
    rw [hsplit, hunlines] at hedit
    rw [if_pos hmention]
    simpa using hedit
  · rename_i hmention
    rw [List.append_assoc (unlines body), hsplit, hsplit, hunlines] at hedit
    rw [if_neg hmention, inside, markedText]
    simpa using hedit

/-! ## What the edit is meant to do -/

/-- The second node is the first one with its status set to `disabled`. -/
structure Disabled (s s' : Node) : Prop where
  name : s'.name = s.name
  status : s'.props.filter (·.name = statusName) = [statusDisabled]
  props : s'.props.filter (·.name ≠ statusName) = s.props.filter (·.name ≠ statusName)
  children : s'.children = s.children

/-- The node is disabled already, or it has no children, no status, and no other property in whose
line the text of the status is found. -/
def Ready (s : Node) : Prop :=
  statusDisabled ∈ s.props ∨
    s.children = [] ∧ ∀ p ∈ s.props, p.name ≠ statusName ∧ ¬ disabledText <:+: p.text

theorem filter_status {ps : List Property} (hps : (ps.map Property.name).Nodup)
    (h : statusDisabled ∈ ps) : ps.filter (·.name = statusName) = [statusDisabled] := by
  induction ps with
  | nil => cases h
  | cons p ps ih =>
    rw [List.map_cons, List.nodup_cons] at hps
    rcases List.mem_cons.1 h with rfl | h
    · have hnone : ps.filter (·.name = statusName) = [] := by
        refine List.filter_eq_nil_iff.2 fun q hq hname => hps.1 (List.mem_map.2 ⟨q, hq, ?_⟩)
        exact of_decide_eq_true hname
      rw [List.filter_cons, hnone]
      rfl
    · have hne : p.name ≠ statusName := by
        intro hname
        exact hps.1 (List.mem_map.2 ⟨_, h, hname.symm⟩)
      rw [List.filter_cons, if_neg (by simpa using hne), ih hps.2 h]

theorem disabled_self_iff {s : Node} (hs : s.Distinct) :
    Disabled s s ↔ statusDisabled ∈ s.props := by
  constructor
  · intro h
    have hmem : statusDisabled ∈ s.props.filter (·.name = statusName) := by
      rw [h.status]
      exact List.mem_singleton_self _
    exact (List.mem_filter.1 hmem).1
  · intro h
    cases hs with
    | mk hprops _ _ => exact ⟨rfl, filter_status hprops h, rfl, rfl⟩

theorem disabled_append_iff :
    Disabled (.mk name props []) (.mk name (props ++ [statusDisabled]) []) ↔
      ∀ p ∈ props, p.name ≠ statusName := by
  have hpos : [statusDisabled].filter (·.name = statusName) = [statusDisabled] :=
    List.filter_cons_of_pos (decide_eq_true rfl)
  constructor
  · intro h p hp hname
    have hstatus := h.status
    rw [Node.props, List.filter_append, hpos, List.append_left_eq_self] at hstatus
    exact List.filter_eq_nil_iff.1 hstatus p hp (decide_eq_true hname)
  · intro h
    have hnone : props.filter (·.name = statusName) = [] :=
      List.filter_eq_nil_iff.2 fun p hp hname => h p hp (of_decide_eq_true hname)
    have hneg : [statusDisabled].filter (·.name ≠ statusName) = [] := by decide
    refine ⟨rfl, ?_, ?_, rfl⟩
    · rw [Node.props, List.filter_append, hpos, hnone, List.nil_append]
    · rw [Node.props, Node.props, List.filter_append, hneg, List.append_nil]

theorem not_disabled_below :
    ¬ Disabled (plug (f :: fs) (.mk name props []))
      (plug (f :: fs) (.mk name (props ++ [statusDisabled]) [])) := by
  intro h
  have hchildren := (List.cons.inj (List.append_cancel_left h.children)).1
  have hprops := congrArg Node.props (plug_injective fs hchildren)
  exact absurd (List.append_right_eq_self.1 hprops) (List.cons_ne_nil _ _)

theorem infix_tabs_iff (level : Nat) {t : Text} :
    disabledText <:+: tabs level ++ t ↔ disabledText <:+: t := by
  induction level with
  | zero => rfl
  | succ k ih =>
    have htab : '\t' ∉ disabledText := by decide
    have hnil : ¬ disabledText <:+: [] := by decide
    have hsep := infix_append_sep (a := []) (b := tabs k ++ t) htab
    rw [← ih]
    exact hsep.trans (or_iff_right hnil)

theorem disabledText_mem_status : disabledText <:+: statusDisabled.text := by decide +kernel

/-- The lines below the first one of the node. -/
structure Body (level : Nat) (path : List Frame) (name : Text) (props : List Property)
    (body : List Text) : Prop where
  ne_nil : body ≠ []
  unbroken : Unbroken body
  opening : opening level path name props = openLine level serialName :: body

section Body

variable {level : Nat} {path : List Frame} {name : Text} {props : List Property} {body : List Text}

theorem mention_iff (h : Body level path name props body) :
    disabledText <:+: unlines body ↔ ∃ l ∈ body, disabledText <:+: l := by
  have hline : '\n' ∉ disabledText := by decide
  rw [infix_iff_lines hline, lines_unlines h.unbroken h.ne_nil]

theorem propertyLine_mem_body (h : Body level path name props body) :
    ∀ p ∈ (plug path (.mk name props [])).props, propertyLine (level + 1) p ∈ body := by
  intro p hp
  have hopening := h.opening
  cases path with
  | nil =>
    obtain ⟨-, rfl⟩ := List.cons.inj hopening
    exact List.mem_map_of_mem hp
  | cons f fs =>
    obtain ⟨-, rfl⟩ := List.cons.inj hopening
    exact List.mem_append_left _ (List.mem_append_left _
      (List.mem_append_left _ (List.mem_map_of_mem hp)))

/-- **When the edit does what it is meant to**, as a change of the node. -/
theorem disabled_iff (h : Body level path name props body)
    (hdistinct : (plug path (.mk name props [])).Distinct) :
    Disabled (plug path (.mk name props [])) (plug path (if disabledText <:+: unlines body then
      .mk name props [] else .mk name (props ++ [statusDisabled]) [])) ↔
      Ready (plug path (.mk name props [])) := by
  have hmention := mention_iff h
  have hstatus : statusDisabled ∈ (plug path (.mk name props [])).props →
      disabledText <:+: unlines body := by
    intro hmem
    refine hmention.2 ⟨_, propertyLine_mem_body h _ hmem, ?_⟩
    exact (infix_tabs_iff _).2 disabledText_mem_status
  split
  · rename_i hyes
    rw [disabled_self_iff hdistinct, Ready]
    refine ⟨.inl, fun hready => hready.elim id fun hready => ?_⟩
    -- without children the lines are those of the properties
    cases path with
    | nil =>
      obtain ⟨-, rfl⟩ := List.cons.inj h.opening
      obtain ⟨l, hl, hinfix⟩ := hmention.1 hyes
      obtain ⟨p, hp, rfl⟩ := List.mem_map.1 hl
      exact absurd ((infix_tabs_iff _).1 hinfix) (hready.2 p hp).2
    | cons f fs => exact absurd hready.1 (by simp [plug, Node.children])
  · rename_i hno
    cases path with
    | nil =>
      obtain ⟨-, rfl⟩ := List.cons.inj h.opening
      have hlines : ∀ p ∈ props, ¬ disabledText <:+: p.text := fun p hp hinfix =>
        hno (hmention.2 ⟨_, List.mem_map_of_mem hp, (infix_tabs_iff _).2 hinfix⟩)
      have hnot : statusDisabled ∉ props := fun hmem => hno (hstatus hmem)
      rw [plug, plug, disabled_append_iff, Ready, Node.props, or_iff_right hnot]
      exact ⟨fun hne => ⟨rfl, fun p hp => ⟨hne p hp, hlines p hp⟩⟩,
        fun hready p hp => (hready.2 p hp).1⟩
    | cons f fs =>
      refine iff_of_false not_disabled_below fun hready => ?_
      rcases hready with hmem | hready
      · exact hno (hstatus hmem)
      · exact absurd hready.1 (by simp [plug, Node.children])

end Body

/-! ## The script -/

/-- The compiler stops at the cells of the reserved range. -/
theorem read_refused (d : Document) {t : Text} {es : List Event} (ht : Reads t es) {base size : Int}
    (h : regCells base size = none) :
    read (above d.head ++ (rootStart ++ '\n' :: (t ++ above (nodeLines base size ++ [[], closing])))) =
      none := by
  have hopen : Reads rootStart [.opens rootName] := reads_openLine 0 (.inl rfl)
  have hreads := hopen.line (ht.append (reads_nodeStart base))
  have hrun := hreads (afterHead d.ranges) rfl rfl rfl
  have htext : rootStart ++ '\n' :: (t ++ above (nodeLines base size ++ [[], closing])) =
      (rootStart ++ '\n' :: (t ++ above (nodeStart base))) ++ (regLine base size ++ '\n' ::
        above [propertyLine 3 ⟨"no-map", []⟩, closeLine 2, closeLine 1, [], closing]) := by
    rw [nodeLines_eq]
    generalize "no-map" = name
    simp [above_append]
  rw [Dts.read, Reader.run_append, run_head, Option.bind_some, htext, Reader.run_append, hrun]
  generalize ([Event.opens rootName] ++ (es ++ startEvents base)).foldlM build
    (afterHead d.ranges).nodes = result
  cases result with
  | none => rfl
  | some ns =>
    rw [Option.map_some, Option.bind_some, Reader.run_append,
      run_regLine base size (r := { afterHead d.ranges with nodes := ns }) rfl rfl, h]
    rfl

/-- The tree after the edit has the node disabled and nothing else changed, but for a node for reserved
memory behind the other children of the root. -/
def OnlyDisables (d : Document) (ctx : List Frame) (s : Node) (out : Text) : Prop :=
  ∃ r s', r.name = reservedMemory ∧ read out = some (d.ranges, withChild (plug ctx s') r) ∧
    Disabled s s'

theorem withChild_injective {m n r r' : Node} (hname : m.name = n.name)
    (h : withChild m r = withChild n r') : m = n := by
  obtain ⟨a, ps, cs⟩ := m
  obtain ⟨b, qs, ds⟩ := n
  obtain rfl : a = b := hname
  rw [withChild, withChild, Node.mk.injEq] at h
  obtain ⟨-, hprops, hchildren⟩ := h
  obtain rfl : ps = qs := hprops
  obtain rfl : cs = ds := (List.append_singleton_inj.1 hchildren).1
  rfl

theorem plug_name (m n : Node) : (plug (f :: fs) m).name = (plug (f :: fs) n).name := rfl

theorem onlyDisables_insert_iff {d : Document} {ctx : List Frame} {s : Node} (h : Place d ctx s)
    (hmark : ¬ guestRamMark <:+: d.text) (base size : Int) {out : Text}
    (hout : (insertNode d.text base size).bind disableUart = .ok out) :
    OnlyDisables d ctx s out ↔ (regCells base size).isSome = true ∧ Ready s := by
  obtain ⟨f, fs, rfl⟩ := List.exists_cons_of_ne_nil h.ctx_ne_nil
  obtain ⟨path, name, props, rfl, hleft⟩ := exists_leaf (named_of_plug h.named)
  obtain ⟨body, hne, hopening⟩ := opening_head (1 + fs.length) h.props
  rw [h.name] at hopening
  have hunbroken : Unbroken body := by
    intro l hl
    refine h.unbroken l (List.mem_append_right _ (List.mem_append_left _ ?_))
    have hlevel : 0 + (f :: fs).length = 1 + fs.length := by
      rw [List.length_cons]
      omega
    rw [hlevel, lines_eq_opening, hopening]
    exact List.mem_append_left _ (List.mem_cons_of_mem _ hl)
  have hbody : Body (1 + fs.length) path name props body := ⟨hne, hunbroken, hopening⟩
  rw [insertNode_text d hmark, Except.bind, disableUart_inside h hleft hne hopening] at hout
  obtain rfl := Except.ok.inj hout
  have hdistinct := distinct_of_plug (h.root ▸ d.distinct)
  have hleaf := named_of_plug (named_of_plug h.named)
  have hmarked : (Node.mk name (props ++ [statusDisabled]) []).Named := by
    cases hleaf with
    | mk hprops hchildren hbelow =>
      refine .mk (fun p hp => ?_) hchildren hbelow
      rcases List.mem_append.1 hp with hp | hp
      · exact hprops p hp
      · rw [List.mem_singleton.1 hp]
        decide
  -- the text between the lines of the root, and the tree it stands for
  generalize hn : (if disabledText <:+: unlines body then Node.mk name props [] else
    Node.mk name (props ++ [statusDisabled]) []) = n
  have hnamed : (plug (f :: fs) (plug path n)).Named := by
    have hnode : n.Named ∧ n.name = name := by
      rw [← hn]
      split
      · exact ⟨hleaf, rfl⟩
      · exact ⟨hmarked, rfl⟩
    have hpath := named_plug (named_of_plug h.named) hnode.1 hnode.2
    exact named_plug h.named hpath (name_plug hnode.2)
  have hreads : Reads (if disabledText <:+: unlines body then above (rootBody d) else
      inside f fs path (markedText (1 + fs.length + path.length) name props))
      (f.props.map .prop ++ eventsOf (f.left ++ plug fs (plug path n) :: f.right)) := by
    rw [← hn]
    split
    · have hroot := reads_rootBody d
      rw [h.root] at hroot
      exact hroot
    · refine reads_inside h.named (reads_leaf _ ?_ ?_)
      · exact leaf_name (named_of_plug h.named) (by rw [h.name]; decide)
      · cases hleaf with
        | mk hprops _ _ => exact hprops
  rw [← disabled_iff hbody hdistinct, hn, OnlyDisables]
  cases hcells : regCells base size with
  | none =>
    rw [read_refused d hreads hcells]
    simp
  | some cells =>
    have hname : (plug (f :: fs) (plug path n)).name = rootName := h.root_name
    have hread := read_withReserved d hname hnamed hreads hcells
    rw [hread]
    constructor
    · intro hafter
      obtain ⟨r, s', -, hsame, hdisabled⟩ := hafter
      have htree := (Prod.mk.inj (Option.some.inj hsame)).2
      have hnode := plug_injective _ (withChild_injective (plug_name _ _) htree)
      rw [hnode]
      exact ⟨rfl, hdisabled⟩
    · intro hafter
      exact ⟨reservedNode base cells, _, rfl, rfl, hafter.2⟩

/-- Python reads both numbers, and the compiler takes them for cells. -/
def Accepted (baseArg sizeArg : Text) : Prop :=
  ∃ base size, intStr 0 baseArg = some base ∧ intStr 0 sizeArg = some size ∧
    (regCells base size).isSome = true

theorem intArg_ok {t : Text} {n : Int} (h : intArg t = .ok n) : intStr 0 t = some n := by
  unfold intArg at h
  split at h
  · rename_i m hm
    rw [hm, Except.ok.inj h]
  · cases h

theorem buildBootDtbQemu_ok {text baseArg sizeArg out : Text}
    (h : buildBootDtbQemu text baseArg sizeArg "1" = .ok out) : ∃ base size,
      intStr 0 baseArg = some base ∧ intStr 0 sizeArg = some size ∧
      (insertNode text base size).bind disableUart = .ok out := by
  have hone : intStr 0 "1" = some 1 := by decide +kernel
  cases hbase : intArg baseArg with
  | error e =>
    rw [buildBootDtbQemu, hbase] at h
    cases h
  | ok base =>
    cases hsize : intArg sizeArg with
    | error e =>
      rw [buildBootDtbQemu, hbase, hsize] at h
      cases h
    | ok size =>
      rw [buildBootDtbQemu_eq text (intArg_ok hbase) (intArg_ok hsize) hone] at h
      exact ⟨base, size, intArg_ok hbase, intArg_ok hsize, h⟩

theorem not_mark_of_insertNode {text out : Text} {base size : Int}
    (h : (insertNode text base size).bind disableUart = .ok out) : ¬ guestRamMark <:+: text := by
  intro hmark
  unfold insertNode at h
  split at h
  · cases h
  split at h
  · cases h
  · rw [if_pos hmark] at h
    cases h

/-- **When only the status of the UART changes.** -/
theorem onlyDisables_iff {d : Document} {ctx : List Frame} {s : Node} (h : Place d ctx s)
    (baseArg sizeArg out : Text)
    (hout : buildBootDtbQemu d.text baseArg sizeArg "1" = .ok out) :
    OnlyDisables d ctx s out ↔ Accepted baseArg sizeArg ∧ Ready s := by
  obtain ⟨base, size, hbase, hsize, hedit⟩ := buildBootDtbQemu_ok hout
  rw [onlyDisables_insert_iff h (not_mark_of_insertNode hedit) base size hedit]
  refine and_congr_left fun _ => ⟨fun hcells => ⟨base, size, hbase, hsize, hcells⟩, fun haccepted => ?_⟩
  obtain ⟨base', size', hbase', hsize', hcells⟩ := haccepted
  rw [hbase, Option.some.injEq] at hbase'
  rw [hsize, Option.some.injEq] at hsize'
  rwa [hbase', hsize']

/-- A root around one node. -/
def soc : List Frame := [⟨rootName, [⟨"#address-cells", cellBytes 2⟩], [], []⟩]

/-- A UART with a clock and these children. -/
def uart (children : List Node) : Node :=
  .mk serialName [⟨"clock-frequency", cellBytes 3686400⟩] children

/-- The root around a UART. -/
def uartTree (s : Node) (hname : s.name = serialName) (hs : s.Named) (hd : s.Distinct) : Document where
  reserved := []
  root := plug soc s
  root_name := rfl
  named := .mk (by decide)
    (fun c hc => by rw [List.mem_singleton.1 hc, plug, hname]; decide)
    fun c hc => by rwa [List.mem_singleton.1 hc]
  distinct := .mk (by decide) (List.pairwise_singleton _ _) fun c hc => by
    rwa [List.mem_singleton.1 hc]

theorem first_soc : First soc := by
  intro f hf
  rw [List.mem_singleton.1 hf]
  exact ⟨by decide, fun n hn => by cases hn⟩

/-- A UART without children. -/
def plainUart : Document :=
  uartTree (uart []) rfl (named_leaf (by decide)) (distinct_leaf (by decide))

theorem place_plainUart : Place plainUart soc (uart []) :=
  ⟨rfl, rfl, first_soc, List.cons_ne_nil _ _⟩

theorem exists_ok {α ε : Type} {x : Except ε α} (h : x.isOk = true) : ∃ a, x = .ok a := by
  cases x with
  | error e => cases h
  | ok a => exact ⟨a, rfl⟩

theorem onlyDisables_plainUart :
    ∃ out, buildBootDtbQemu plainUart.text "0x90000000" "0x40000000" "1" = .ok out ∧
      OnlyDisables plainUart soc (uart []) out := by
  obtain ⟨out, hout⟩ := exists_ok
    (x := buildBootDtbQemu plainUart.text "0x90000000" "0x40000000" "1") (by decide +kernel)
  refine ⟨out, hout, (onlyDisables_iff place_plainUart _ _ out hout).2 ⟨?_, .inr ⟨rfl, ?_⟩⟩⟩
  · exact ⟨0x90000000, 0x40000000, by decide +kernel, by decide +kernel, by decide +kernel⟩
  · decide +kernel

/-- A device behind the UART. -/
def device : Node := .mk "bluetooth" [⟨"max-speed", cellBytes 115200⟩] []

/-- A UART with a device behind it. -/
def deviceUart : Document :=
  uartTree (uart [device]) rfl
    (.mk (by decide) (fun c hc => by rw [List.mem_singleton.1 hc]; decide) fun c hc => by
      rw [List.mem_singleton.1 hc]
      exact named_leaf (by decide))
    (.mk (by decide) (List.pairwise_singleton _ _) fun c hc => by
      rw [List.mem_singleton.1 hc]
      exact distinct_leaf (by decide))

/-- The device gets the status, and the UART stays on. -/
theorem onlyDisables_deviceUart :
    ∃ out, buildBootDtbQemu deviceUart.text "0x90000000" "0x40000000" "1" = .ok out ∧
      ¬ OnlyDisables deviceUart soc (uart [device]) out := by
  obtain ⟨out, hout⟩ := exists_ok
    (x := buildBootDtbQemu deviceUart.text "0x90000000" "0x40000000" "1") (by decide +kernel)
  have hplace : Place deviceUart soc (uart [device]) :=
    ⟨rfl, rfl, first_soc, List.cons_ne_nil _ _⟩
  obtain ⟨base, size, -, -, hedit⟩ := buildBootDtbQemu_ok hout
  refine ⟨out, hout, fun hafter => ?_⟩
  rcases ((onlyDisables_insert_iff hplace (not_mark_of_insertNode hedit) base size hedit).1
    hafter).2 with hmem | hready
  · exact absurd hmem (by decide)
  · exact absurd hready.1 (List.cons_ne_nil _ _)

end Boot
