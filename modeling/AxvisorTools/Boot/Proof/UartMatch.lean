import AxvisorTools.Boot.Proof.Reserve
import AxvisorTools.Py.Proof.Blank
import AxvisorTools.Text.Proof.Matches

/-!
# Finding the UART

The script looks for the first line of the node and takes the lines down to the first closing one for
its body. In a printed tree that line ends the node only if the node has no children; otherwise it
ends the one that following first children leads to (`exists_leaf`). `disableUart_document` gives the
text after the edit.
-/

namespace Boot

open Py Dts Regex

variable {g : List (Nat × Text)} {n name : Text} {ctx path : List Frame} {props : List Property}

/-! ## The match -/

def serialName : Text := "serial@10000000"

/-- The rest of the first line of the node. -/
def Header (t : Text) : Prop :=
  ∃ w z, (∀ c ∈ w, Re.isWhite c = true) ∧ t = serialName ++ (w ++ '\x7b' :: '\n' :: z)

/-- The rest of the last line of a node. -/
def Closing (t : Text) : Prop := closing <+: t

theorem serialName_eq : ∃ n, serialName = 's' :: n := ⟨_, rfl⟩

theorem head_header {t : Text} (h : Header t) : ∃ v, t = 's' :: v := by
  obtain ⟨w, z, -, rfl⟩ := h
  obtain ⟨n, hn⟩ := serialName_eq
  exact ⟨_, by rw [hn]; rfl⟩

theorem head_closing {t : Text} (h : Closing t) : ∃ v, t = '\x7d' :: v := by
  obtain ⟨z, rfl⟩ := h
  exact ⟨_, rfl⟩

theorem solid_header : Solid Header := fun t h => by
  obtain ⟨v, rfl⟩ := head_header h
  exact ⟨_, _, rfl, by decide⟩

theorem solid_closing : Solid Closing := fun t h => by
  obtain ⟨v, rfl⟩ := head_closing h
  exact ⟨_, _, rfl, by decide⟩

/-- What the first group takes. -/
def headerRe : Re := .seq (lit ['\n']) (.seq (.star true Re.space)
  (.seq (lit serialName) (.seq (.star true Re.space) (lit ['\x7b', '\n']))))

/-- What the last group takes. -/
def closingRe : Re := .seq (lit ['\n']) (.seq (.star true Re.space) (lit closing))

theorem serialPattern_eq : serialPattern = .seq (.group 1 headerRe)
    (.seq (.group 2 (.star false (.one fun _ => true))) (.group 3 closingRe)) := rfl

theorem matches_headerRe_iff {b x y : Text} :
    Matches headerRe b x y g ↔ ∃ u w, (∀ c ∈ u, Re.isWhite c = true) ∧
      (∀ c ∈ w, Re.isWhite c = true) ∧
      x = '\n' :: (u ++ (serialName ++ (w ++ ['\x7b', '\n']))) ∧ g = [] := by
  simp only [headerRe, matches_seq_iff, matches_lit_iff, Re.space, matches_star_one_iff]
  constructor
  · rintro ⟨_, _, _, _, rfl, rfl, ⟨rfl, rfl⟩, u, _, _, _, rfl, rfl, ⟨hu, rfl⟩, _, _, _, _, rfl, rfl,
      ⟨rfl, rfl⟩, w, _, _, _, rfl, rfl, ⟨hw, rfl⟩, rfl, rfl⟩
    exact ⟨u, w, hu, hw, rfl, rfl⟩
  · rintro ⟨u, w, hu, hw, rfl, rfl⟩
    exact ⟨_, _, _, _, rfl, rfl, ⟨rfl, rfl⟩, u, _, _, _, rfl, rfl, ⟨hu, rfl⟩, _, _, _, _, rfl, rfl,
      ⟨rfl, rfl⟩, w, _, _, _, rfl, rfl, ⟨hw, rfl⟩, rfl, rfl⟩

theorem matches_closingRe_iff {b x y : Text} :
    Matches closingRe b x y g ↔ ∃ u, (∀ c ∈ u, Re.isWhite c = true) ∧
      x = '\n' :: (u ++ closing) ∧ g = [] := by
  simp only [closingRe, matches_seq_iff, matches_lit_iff, Re.space, matches_star_one_iff]
  constructor
  · rintro ⟨_, _, _, _, rfl, rfl, ⟨rfl, rfl⟩, u, _, _, _, rfl, rfl, ⟨hu, rfl⟩, rfl, rfl⟩
    exact ⟨u, hu, rfl, rfl⟩
  · rintro ⟨u, hu, rfl, rfl⟩
    exact ⟨_, _, _, _, rfl, rfl, ⟨rfl, rfl⟩, u, _, _, _, rfl, rfl, ⟨hu, rfl⟩, rfl, rfl⟩

/-- The first line of the node, with the blank line and the line break before it. -/
def header (level : Nat) : Text :=
  '\n' :: ('\n' :: tabs level ++ (serialName ++ ([' '] ++ ['\x7b', '\n'])))

theorem white_tabs (level : Nat) : ∀ c ∈ tabs level, Re.isWhite c = true := by
  intro c hc
  rw [List.eq_of_mem_replicate hc]
  rfl

theorem white_newline_tabs (level : Nat) : ∀ c ∈ '\n' :: tabs level, Re.isWhite c = true := by
  intro c hc
  rcases List.mem_cons.1 hc with rfl | hc
  · rfl
  · exact white_tabs level c hc

theorem mem_run_header {level : Nat} {b t : Text} {e : Pos} :
    e ∈ run (.group 1 headerRe) ⟨b, header level ++ t, []⟩ ↔
      e = ⟨(header level).reverse ++ b, t, [(1, header level)]⟩ := by
  obtain ⟨n, hn⟩ := serialName_eq
  rw [mem_run_iff]
  simp only [matches_group_iff, matches_headerRe_iff]
  constructor
  · rintro ⟨x, y, g, htext, ⟨_, rfl, u, w, hu, hw, rfl, rfl⟩, rfl⟩
    have hfirst : ('\n' :: tabs level) ++ (serialName ++ ([' '] ++ ('\x7b' :: '\n' :: t))) =
        u ++ (serialName ++ (w ++ '\x7b' :: '\n' :: y)) := by simpa [header] using htext
    obtain ⟨rfl, hname⟩ := span_unique (white_newline_tabs level) hu
      (fun c hc => by rw [hn] at hc; cases hc; rfl) (fun c hc => by rw [hn] at hc; cases hc; rfl) hfirst
    obtain ⟨rfl, hend⟩ := span_unique (p := Re.isWhite) (by decide) hw
      (fun c hc => by cases hc; rfl) (fun c hc => by cases hc; rfl) (List.append_cancel_left hname)
    cases hend
    rfl
  · rintro rfl
    exact ⟨header level, t, _, rfl, ⟨_, rfl, '\n' :: tabs level, [' '], white_newline_tabs level,
      by decide, rfl, rfl⟩, rfl⟩

/-- The line that ends a node, with the line break before it. -/
def ending (level : Nat) : Text := '\n' :: (tabs level ++ closing)

theorem mem_run_ending {level : Nat} {b t : Text} {e : Pos} :
    e ∈ run (.group 3 closingRe) ⟨b, ending level ++ t, g⟩ ↔
      e = ⟨(ending level).reverse ++ b, t, (3, ending level) :: g⟩ := by
  rw [mem_run_iff]
  simp only [matches_group_iff, matches_closingRe_iff]
  constructor
  · rintro ⟨x, y, _, htext, ⟨_, rfl, u, hu, rfl, rfl⟩, rfl⟩
    have hfirst : tabs level ++ (closing ++ t) = u ++ (closing ++ y) := by
      simpa [ending] using htext
    obtain ⟨rfl, hend⟩ := span_unique (white_tabs level) hu
      (fun c hc => by cases hc; rfl) (fun c hc => by cases hc; rfl) hfirst
    obtain rfl := List.append_cancel_left hend
    rfl
  · rintro rfl
    exact ⟨ending level, t, _, rfl, ⟨_, rfl, tabs level, white_tabs level, rfl, rfl⟩, rfl⟩

section Match

variable {pre body : List Text} {l b rest : Text} {k j : Nat}

theorem search_serialPattern (hpre : Unbroken pre) (hl : '\n' ∉ l)
    (hskip : ∀ p ∈ pre, Skips Header p) (hblock : Blocks Header l) (hbody : Unbroken body)
    (hb : '\n' ∉ b) (hskip' : ∀ p ∈ body, Skips Closing p) (hblock' : Blocks Closing b) :
    search serialPattern ((above pre ++ l) ++ (header k ++ ((above body ++ b) ++ (ending j ++ rest)))) =
      some (above pre ++ l, ⟨(ending j).reverse ++ ((above body ++ b).reverse ++
        ((header k).reverse ++ (above pre ++ l).reverse)), rest,
        [(3, ending j), (2, above body ++ b), (1, header k)]⟩) := by
  rw [serialPattern_eq]
  refine search_append (fun a c hac hne => ?_) ?_
  · by_contra hrun
    obtain ⟨x, y, g, htext, hm⟩ := (run_ne_nil_iff _ _).1 hrun
    obtain ⟨x₁, x₂, _, _, rfl, -, hm, -⟩ := matches_seq_iff.1 hm
    obtain ⟨_, -, hm⟩ := matches_group_iff.1 hm
    obtain ⟨u, w, hu, hw, rfl, -⟩ := matches_headerRe_iff.1 hm
    obtain ⟨c, v, rfl⟩ := List.exists_cons_of_ne_nil hne
    obtain ⟨rfl, htext⟩ := List.cons.inj htext
    refine not_starts (t := (header k).tail ++ ((above body ++ b) ++ (ending j ++ rest))) hpre hl hskip
      hblock hac ⟨u, _, hu, ?_, w, x₂ ++ y, hw, rfl⟩
    simpa [header] using htext
  · rw [head?_seq fun e => mem_run_header]
    refine head?_lazy (fun u v huv hne x y g htext hm => ?_) ?_
    · obtain ⟨_, -, hm⟩ := matches_group_iff.1 hm
      obtain ⟨w, hw, rfl, -⟩ := matches_closingRe_iff.1 hm
      obtain ⟨c, v, rfl⟩ := List.exists_cons_of_ne_nil hne
      obtain ⟨rfl, htext⟩ := List.cons.inj htext
      refine not_starts (t := tabs j ++ (closing ++ rest)) hbody hb hskip' hblock' huv
        ⟨w, closing ++ y, hw, ?_, List.prefix_append _ _⟩
      simpa [ending] using htext
    · exact head?_of_forall_eq (fun e he => mem_run_ending.1 he) (mem_run_ending.2 rfl)

theorem disableUart_text (k j : Nat) (rest : Text) (hpre : Unbroken pre) (hl : '\n' ∉ l)
    (hskip : ∀ p ∈ pre, Skips Header p) (hblock : Blocks Header l) (hbody : Unbroken body)
    (hb : '\n' ∉ b) (hskip' : ∀ p ∈ body, Skips Closing p) (hblock' : Blocks Closing b) :
    disableUart ((above pre ++ l) ++ (header k ++ ((above body ++ b) ++ (ending j ++ rest)))) =
      .ok ((above pre ++ l) ++ (header k ++ (disabledBody (above body ++ b) ++
        (ending j ++ rest)))) := by
  rw [disableUart, search_serialPattern hpre hl hskip hblock hbody hb hskip' hblock']
  simp [Re.groupText, List.lookup_cons]

end Match

/-! ## Printed lines -/

theorem not_white_of_nodeChar {c : Char} (h : isNodeChar c = true) : Re.isWhite c = false := by
  simp only [isNodeChar, isPropertyChar, Bool.or_eq_true, beq_iff_eq, decide_eq_true_eq] at h
  rcases h with (h | h) | rfl
  · have hrange := isAlphanum_range h
    simp only [Re.isWhite, Bool.or_eq_false_iff, Bool.and_eq_false_iff, decide_eq_false_iff_not,
      beq_eq_false_iff_ne]
    omega
  · have hlist : ∀ d ∈ [',', '.', '_', '+', '*', '#', '?', '-'], Re.isWhite d = false := by decide
    exact hlist c h
  · decide

theorem header_name {v : Text} (hn : ∀ c ∈ n, isNodeChar c = true)
    (hv : ∀ c ∈ v.head?, isNodeChar c = false) (h : Header (n ++ v)) : n = serialName := by
  obtain ⟨w, z, hw, heq⟩ := h
  have hserial : ∀ c ∈ serialName, isNodeChar c = true := by decide
  refine (span_unique hn hserial hv (fun c hc => ?_) heq).1
  cases w with
  | nil =>
    cases hc
    decide
  | cons d w =>
    cases hc
    by_contra hne
    have := not_white_of_nodeChar (Bool.not_eq_false _ ▸ hne)
    rw [hw c List.mem_cons_self] at this
    cases this

theorem closing_name {v : Text} (hne : n ≠ []) (hn : ∀ c ∈ n, isNodeChar c = true) :
    ¬ Closing (n ++ v) := by
  intro h
  obtain ⟨c, n, rfl⟩ := List.exists_cons_of_ne_nil hne
  obtain ⟨z, hz⟩ := head_closing h
  have hc := hn c List.mem_cons_self
  rw [(List.cons.inj hz).1] at hc
  exact absurd hc (by decide)

theorem isNodeName_iff : isNodeName n = true ↔ n ≠ [] ∧ ∀ c ∈ n, isNodeChar c = true := by
  rw [isNodeName, decide_eq_true_iff, List.all_eq_true]

theorem blocks_name {q : Text → Prop} (hq : Solid q) (level : Nat) {v : Text}
    (hn : isNodeName n = true) (h : ∀ t, ¬ q (n ++ (v ++ '\n' :: t))) :
    Blocks q (tabs level ++ (n ++ v)) := by
  obtain ⟨hne, hchars⟩ := isNodeName_iff.1 hn
  obtain ⟨c, n, rfl⟩ := List.exists_cons_of_ne_nil hne
  refine blocks_of_solid hq (white_tabs level) (not_white_of_nodeChar (hchars c List.mem_cons_self))
    fun t => ?_
  have := h t
  rwa [List.cons_append, ← List.append_assoc] at this

theorem openLine_eq (level : Nat) (n : Text) :
    openLine level n = tabs level ++ (n ++ [' ', '\x7b']) := by
  rw [openLine, List.append_assoc]
  rfl

theorem propertyLine_eq (level : Nat) (p : Property) :
    ∃ v, propertyLine level p = tabs level ++ (p.name ++ v) ∧ ∀ c ∈ v.head?, isNodeChar c = false := by
  unfold propertyLine Property.text
  split
  · exact ⟨_, rfl, fun c hc => by cases hc; decide⟩
  · refine ⟨' ' :: '=' :: ' ' :: valueText p.value ++ [';'], by simp, fun c hc => ?_⟩
    cases hc
    decide

theorem closeLine_eq (level : Nat) : closeLine level = tabs level ++ closing := rfl

theorem blocks_header_openLine (level : Nat) (hn : isNodeName n = true) (hne : n ≠ serialName) :
    Blocks Header (openLine level n) := by
  rw [openLine_eq]
  refine blocks_name solid_header level hn fun t h => hne ?_
  exact header_name (isNodeName_iff.1 hn).2 (fun c hc => by cases hc; decide) h

theorem blocks_header_propertyLine (level : Nat) {p : Property} (hp : isPropertyName p.name = true) :
    Blocks Header (propertyLine level p) := by
  obtain ⟨v, hline, hv⟩ := propertyLine_eq level p
  have hname := isNodeName_of_property hp
  rw [hline]
  refine blocks_name solid_header level hname fun t h => ?_
  have hserial := header_name (isNodeName_iff.1 hname).2 (v := v ++ '\n' :: t) (fun c hc => ?_) h
  · rw [hserial] at hp
    exact absurd hp (by decide)
  · cases v with
    | nil => cases hc; decide
    | cons d v => exact hv c hc

theorem blocks_header_of_ne {u v : Text} {c : Char} (hu : ∀ d ∈ u, Re.isWhite d = true)
    (hc : Re.isWhite c = false) (hne : c ≠ 's') : Blocks Header (u ++ c :: v) := by
  refine blocks_of_solid solid_header hu hc fun t h => hne ?_
  obtain ⟨w, hw⟩ := head_header h
  exact (List.cons.inj hw).1

theorem blocks_header_closeLine (level : Nat) : Blocks Header (closeLine level) :=
  blocks_header_of_ne (white_tabs level) (by decide) (by decide)

theorem blocks_closing_openLine (level : Nat) (hn : isNodeName n = true) :
    Blocks Closing (openLine level n) := by
  rw [openLine_eq]
  exact blocks_name solid_closing level hn fun t =>
    closing_name (isNodeName_iff.1 hn).1 (isNodeName_iff.1 hn).2

theorem blocks_closing_propertyLine (level : Nat) {p : Property}
    (hp : isPropertyName p.name = true) : Blocks Closing (propertyLine level p) := by
  obtain ⟨v, hline, -⟩ := propertyLine_eq level p
  have hname := isNodeName_of_property hp
  rw [hline]
  exact blocks_name solid_closing level hname fun t =>
    closing_name (isNodeName_iff.1 hname).1 (isNodeName_iff.1 hname).2

/-! ## The lines before the node -/

/-- No node of this name in a tree. -/
inductive Without (x : Text) : Node → Prop
  | mk {name : Text} {props : List Property} {children : List Node} (ne : name ≠ x)
      (below : ∀ c ∈ children, Without x c) : Without x (.mk name props children)

/-- No node of the name of the UART comes before the place. -/
def First (ctx : List Frame) : Prop :=
  ∀ f ∈ ctx, f.name ≠ serialName ∧ ∀ n ∈ f.left, Without serialName n

theorem skips_header_lines {n : Node} (hn : n.Named) : ∀ level, isNodeName n.name = true →
    Without serialName n → ∀ l ∈ n.lines level, Skips Header l := by
  induction hn with
  | @mk name props children hprops hchildren _ ih =>
    intro level hname hwithout l hl
    cases hwithout with
    | mk hne hbelow =>
      rw [Node.lines, List.mem_cons, List.mem_append, List.mem_append, List.mem_singleton] at hl
      rcases hl with rfl | hl | hl | rfl
      · exact (blocks_header_openLine level hname hne).skips
      · obtain ⟨p, hp, rfl⟩ := List.mem_map.1 hl
        exact (blocks_header_propertyLine _ (hprops p hp)).skips
      · exact forall_childLines (skips_nil solid_header)
          (fun c hc => ih c hc (level + 1) (hchildren c hc) (hbelow c hc)) l hl
      · exact (blocks_header_closeLine level).skips

theorem blocks_header_open (level : Nat) (hn : n = rootName ∨ isNodeName n = true)
    (hne : n ≠ serialName) : Blocks Header (openLine level n) := by
  rcases hn with rfl | hn
  · rw [openLine_eq]
    exact blocks_header_of_ne (white_tabs level) (by decide) (by decide)
  · exact blocks_header_openLine level hn hne

theorem skips_before {m : Node} (h : (plug ctx m).Named) (hfirst : First ctx) :
    ∀ level, (plug ctx m).name = rootName ∨ isNodeName (plug ctx m).name = true →
      ∀ l ∈ before level ctx, Skips Header l := by
  induction ctx with
  | nil => exact fun level _ l hl => by cases hl
  | cons f fs ih =>
    intro level hname l hl
    obtain ⟨hne, hleft⟩ := hfirst f List.mem_cons_self
    cases h with
    | mk hprops hchildren hbelow =>
      have hmem : plug fs m ∈ f.left ++ plug fs m :: f.right :=
        List.mem_append_right _ List.mem_cons_self
      rw [before, Frame.start, List.mem_cons, List.mem_append, List.mem_append, List.mem_append,
        List.mem_singleton] at hl
      rcases hl with rfl | (hl | hl | rfl) | hl
      · exact (blocks_header_open level hname hne).skips
      · obtain ⟨p, hp, rfl⟩ := List.mem_map.1 hl
        exact (blocks_header_propertyLine _ (hprops p hp)).skips
      · refine forall_childLines (skips_nil solid_header) (fun c hc => ?_) l hl
        have hc' := List.mem_append_left (plug fs m :: f.right) hc
        exact skips_header_lines (hbelow c hc') _ (hchildren c hc') (hleft c hc)
      · exact skips_nil solid_header
      · exact ih (hbelow _ hmem) (fun g hg => hfirst g (List.mem_cons_of_mem _ hg)) (level + 1)
          (.inr (hchildren _ hmem)) l hl

theorem frame_last {f : Frame} {m : Node} (h : (plug [f] m).Named) (level : Nat)
    (hname : f.name = rootName ∨ isNodeName f.name = true) (hne : f.name ≠ serialName) :
    ∃ ls l, openLine level f.name :: f.start level = ls ++ [l, []] ∧ Blocks Header l := by
  cases h with
  | mk hprops hchildren hbelow =>
    rw [Frame.start]
    rcases List.eq_nil_or_concat f.left with hleft | ⟨ns, n, hleft⟩
    · rw [hleft, childLines, List.nil_append]
      rcases List.eq_nil_or_concat f.props with hps | ⟨ps, p, hps⟩
      · exact ⟨[], _, by rw [hps]; rfl, blocks_header_open level hname hne⟩
      · refine ⟨openLine level f.name :: ps.map (propertyLine (level + 1)), _, ?_,
          blocks_header_propertyLine (level + 1) (p := p) (hprops p (by simp [hps]))⟩
        simp [hps]
    · obtain ⟨name, props, children⟩ := n
      refine ⟨openLine level f.name :: (f.props.map (propertyLine (level + 1)) ++
        (childLines (level + 1) ns ++ [] :: openLine (level + 1) name ::
          (props.map (propertyLine (level + 1 + 1)) ++ childLines (level + 1 + 1) children))), _, ?_,
        blocks_header_closeLine (level + 1)⟩
      rw [hleft, List.concat_eq_append, childLines_append, childLines, childLines, Node.lines]
      simp

theorem before_last {m : Node} (hctx : ctx ≠ []) (h : (plug ctx m).Named) (hfirst : First ctx) :
    ∀ level,
      (plug ctx m).name = rootName ∨ isNodeName (plug ctx m).name = true →
      ∃ ls l, before level ctx = ls ++ [l, []] ∧ Blocks Header l := by
  induction ctx with
  | nil => exact absurd rfl hctx
  | cons f fs ih =>
    intro level hname
    have hframe : (plug [f] (plug fs m)).Named := h
    rw [before, ← List.cons_append]
    by_cases hfs : fs = []
    · subst hfs
      obtain ⟨ls, l, hlines, hblock⟩ := frame_last hframe level hname
        (hfirst f List.mem_cons_self).1
      exact ⟨ls, l, by rw [hlines, before, List.append_nil], hblock⟩
    · cases h with
      | mk _ hchildren hbelow =>
        have hmem : plug fs m ∈ f.left ++ plug fs m :: f.right :=
          List.mem_append_right _ List.mem_cons_self
        obtain ⟨ls, l, hlines, hblock⟩ := ih hfs (hbelow _ hmem)
          (fun g hg => hfirst g (List.mem_cons_of_mem _ hg)) (level + 1) (.inr (hchildren _ hmem))
        exact ⟨_, l, by rw [hlines, ← List.append_assoc], hblock⟩

theorem newline_not_mem_reserveLine (a b : Nat) : '\n' ∉ reserveLine a b := by
  have hhex : ∀ n, '\n' ∉ hex016 n := fun n => newline_not_mem_hex 16 n
  have htag : '\n' ∉ reserveTag := by decide
  simp [reserveLine, htag, hhex]

theorem unbroken_head (d : Document) : Unbroken d.head := by
  intro l hl
  rw [Document.head, List.mem_cons, List.mem_cons] at hl
  rcases hl with rfl | rfl | hl
  · decide
  · exact List.not_mem_nil
  · obtain ⟨r, -, rfl⟩ := List.mem_map.1 hl
    exact newline_not_mem_reserveLine _ _

theorem skips_head (d : Document) : ∀ l ∈ d.head, Skips Header l := by
  have hslash : ∀ v : Text, Skips Header ('/' :: v) := fun v =>
    (blocks_header_of_ne (u := []) (by decide) (by decide) (by decide)).skips
  intro l hl
  rw [Document.head, List.mem_cons, List.mem_cons] at hl
  rcases hl with rfl | rfl | hl
  · exact hslash _
  · exact skips_nil solid_header
  · obtain ⟨r, -, rfl⟩ := List.mem_map.1 hl
    exact hslash _

/-! ## The lines of the node down to its first closing line -/

/-- The first closing line in the text of a node belongs to the node that following the first
children leads to. -/
theorem exists_leaf {n : Node} (h : n.Named) : ∃ path name props,
    n = plug path (.mk name props []) ∧ ∀ f ∈ path, f.left = [] := by
  induction h with
  | @mk name props children _ _ _ ih =>
    cases children with
    | nil => exact ⟨[], name, props, rfl, fun f hf => by cases hf⟩
    | cons c cs =>
      obtain ⟨path, name', props', rfl, hleft⟩ := ih c List.mem_cons_self
      refine ⟨⟨name, props, [], cs⟩ :: path, name', props', rfl, fun f hf => ?_⟩
      rcases List.mem_cons.1 hf with rfl | hf
      · rfl
      · exact hleft f hf

/-- The lines down to the first closing one. -/
def opening (level : Nat) (path : List Frame) (name : Text) (props : List Property) : List Text :=
  before level path ++ openLine (level + path.length) name ::
    props.map (propertyLine (level + path.length + 1))

theorem lines_eq_opening (level : Nat) (path : List Frame) (name : Text) (props : List Property) :
    (plug path (.mk name props [])).lines level = opening level path name props ++
      closeLine (level + path.length) :: after level path := by
  rw [lines_plug, Node.lines, childLines, opening]
  simp

theorem skips_closing_opening :
    ∀ level, (plug path (.mk name props [])).Named → (∀ f ∈ path, f.left = []) →
      isNodeName (plug path (.mk name props [])).name = true →
      ∀ l ∈ opening level path name props, Skips Closing l := by
  unfold opening
  induction path with
  | nil =>
    intro level h _ hname l hl
    cases h with
    | mk hprops _ _ =>
      rcases List.mem_cons.1 hl with rfl | hl
      · exact (blocks_closing_openLine _ hname).skips
      · obtain ⟨p, hp, rfl⟩ := List.mem_map.1 hl
        exact (blocks_closing_propertyLine _ (hprops p hp)).skips
  | cons f fs ih =>
    intro level h hleft hname l hl
    have hlevel : level + (f :: fs).length = level + 1 + fs.length := by
      rw [List.length_cons]
      omega
    cases h with
    | mk hprops hchildren hbelow =>
      have hmem : plug fs (.mk name props []) ∈ f.left ++ plug fs (.mk name props []) :: f.right :=
        List.mem_append_right _ List.mem_cons_self
      rw [before, Frame.start, hleft f List.mem_cons_self, childLines, hlevel, List.cons_append,
        List.mem_cons, List.append_assoc, List.append_assoc, List.mem_append, List.nil_append,
        List.singleton_append, List.mem_cons] at hl
      rcases hl with rfl | hl | rfl | hl
      · exact (blocks_closing_openLine level hname).skips
      · obtain ⟨p, hp, rfl⟩ := List.mem_map.1 hl
        exact (blocks_closing_propertyLine _ (hprops p hp)).skips
      · exact skips_nil solid_closing
      · exact ih (level + 1) (hbelow _ hmem) (fun g hg => hleft g (List.mem_cons_of_mem _ hg))
          (hchildren _ hmem) l hl

theorem leaf_name {n : Node} (h : (plug path n).Named)
    (hname : isNodeName (plug path n).name = true) : isNodeName n.name = true := by
  induction path with
  | nil => exact hname
  | cons f fs ih =>
    cases h with
    | mk _ hchildren hbelow =>
      have hmem : plug fs n ∈ f.left ++ plug fs n :: f.right :=
        List.mem_append_right _ List.mem_cons_self
      exact ih (hbelow _ hmem) (hchildren _ hmem)

theorem opening_last (level : Nat) (h : (plug path (.mk name props [])).Named)
    (hname : isNodeName (plug path (.mk name props [])).name = true) :
    ∃ ls l, opening level path name props = ls ++ [l] ∧ Blocks Closing l := by
  have hleaf := leaf_name h hname
  have hnamed := named_of_plug h
  rw [opening]
  cases hnamed with
  | mk hprops _ _ =>
    rcases List.eq_nil_or_concat props with rfl | ⟨ps, p, rfl⟩
    · exact ⟨_, _, rfl, blocks_closing_openLine _ hleaf⟩
    · refine ⟨before level path ++ openLine (level + path.length) name ::
        ps.map (propertyLine (level + path.length + 1)), _, ?_,
        blocks_closing_propertyLine (level + path.length + 1) (p := p) (hprops p (by simp))⟩
      simp

theorem opening_head (level : Nat) (hprops : (plug path (.mk name props [])).props ≠ []) :
    ∃ body, body ≠ [] ∧ opening level path name props =
      openLine level (plug path (.mk name props [])).name :: body := by
  cases path with
  | nil =>
    refine ⟨props.map (propertyLine (level + 1)), ?_, rfl⟩
    intro h
    exact hprops (List.map_eq_nil_iff.1 h)
  | cons f fs => exact ⟨_, by simp [Frame.start], rfl⟩

/-! ## The edit -/

/-- The node in the place is the one that the edit is meant for. -/
structure Place (d : Document) (ctx : List Frame) (s : Node) : Prop where
  root : d.root = plug ctx s
  name : s.name = serialName
  first : First ctx
  props : s.props ≠ []

namespace Place

variable {d : Document} {ctx : List Frame} {s : Node} (h : Place d ctx s)

include h

theorem named : (plug ctx s).Named := h.root ▸ d.named

theorem root_name : (plug ctx s).name = rootName := h.root ▸ d.root_name

theorem ctx_ne_nil : ctx ≠ [] := by
  rintro rfl
  have hname : s.name = rootName := h.root_name
  rw [h.name] at hname
  exact absurd hname (by decide)

theorem unbroken : Unbroken (before 0 ctx ++ (s.lines (0 + ctx.length) ++ after 0 ctx)) := by
  rw [← lines_plug]
  exact unbroken_lines_of_named h.named 0 (.inl h.root_name)

end Place

theorem disableUart_document {d : Document} (h : Place d ctx (plug path (.mk name props [])))
    (hleft : ∀ f ∈ path, f.left = []) {body : List Text} (hne : body ≠ [])
    (hbody : opening ctx.length path name props = openLine ctx.length serialName :: body)
    (rest : Text) :
    disableUart (above d.head ++ (above (before 0 ctx) ++ (openLine ctx.length serialName ++ '\n' ::
      (unlines body ++ '\n' :: (closeLine (ctx.length + path.length) ++ rest))))) =
    .ok (above d.head ++ (above (before 0 ctx) ++ (openLine ctx.length serialName ++ '\n' ::
      (disabledBody (unlines body) ++ '\n' :: (closeLine (ctx.length + path.length) ++ rest))))) := by
  have hname : isNodeName (plug path (.mk name props [])).name = true := by
    rw [h.name]
    decide
  have hnamed := named_of_plug h.named
  have hlines := h.unbroken
  rw [Nat.zero_add, lines_eq_opening, hbody] at hlines
  obtain ⟨pre, l, hbefore, hblock⟩ := before_last h.ctx_ne_nil h.named h.first 0 (.inl h.root_name)
  obtain ⟨ls, b, hlast, hblock'⟩ := opening_last ctx.length hnamed hname
  -- the last line before the first closing one is below the first line of the node
  obtain ⟨bs, rfl⟩ : ∃ bs, body = bs ++ [b] := by
    rw [hbody] at hlast
    obtain ⟨bs, c, rfl⟩ : ∃ bs c, body = bs ++ [c] := by
      rcases List.eq_nil_or_concat body with hnil | ⟨bs, c, hc⟩
      · exact absurd hnil hne
      · exact ⟨bs, c, by simpa using hc⟩
    rw [← List.cons_append] at hlast
    exact ⟨bs, by rw [(List.append_singleton_inj.1 hlast).2]⟩
  have hskip : ∀ k ∈ d.head ++ pre, Skips Header k := by
    intro k hk
    rcases List.mem_append.1 hk with hk | hk
    · exact skips_head d k hk
    · refine skips_before h.named h.first 0 (.inl h.root_name) k ?_
      rw [hbefore]
      exact List.mem_append_left _ hk
  have hskip' : ∀ k ∈ bs, Skips Closing k := by
    intro k hk
    refine skips_closing_opening ctx.length hnamed hleft hname k ?_
    rw [hbody]
    exact List.mem_cons_of_mem _ (List.mem_append_left _ hk)
  have hpre : Unbroken (d.head ++ pre) := by
    refine List.forall_mem_append.2 ⟨unbroken_head d, fun k hk => hlines k ?_⟩
    rw [hbefore]
    simp [hk]
  have hl : '\n' ∉ l := hlines l (by rw [hbefore]; simp)
  have hbs : Unbroken bs := fun k hk => hlines k (by simp [hk])
  have hb : '\n' ∉ b := hlines b (by simp)
  have hedit := disableUart_text ctx.length (ctx.length + path.length) rest hpre hl hskip hblock hbs hb
    hskip' hblock'
  have hunlines : unlines (bs ++ [b]) = above bs ++ b := by
    rw [unlines_insert, below_nil, List.append_nil]
  rw [hbefore, hunlines, openLine_eq, closeLine_eq]
  simpa [header, ending, above_append] using hedit

end Boot
