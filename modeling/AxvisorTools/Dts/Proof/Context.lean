import AxvisorTools.Dts.Proof.Print

/-!
# A place in a tree

A list of frames leads from the root down to a place, and `plug` fills the place with a node. The
text of the tree is the text of the node between the lines before and after the place
(`lines_plug`), and the node can be replaced by another one there, in any spelling (`reads_plug`).
-/

namespace Dts

variable {m n : Node} {fs : List Frame}

/-- A node without one of its children. -/
structure Frame where
  name : Text
  props : List Property
  left : List Node
  right : List Node

/-- The tree with a node in its place; the first frame is the outermost. -/
def plug : List Frame → Node → Node
  | [], n => n
  | f :: fs, n => .mk f.name f.props (f.left ++ plug fs n :: f.right)

/-- The lines of a frame that come before the missing child, without the first one. -/
def Frame.start (level : Nat) (f : Frame) : List Text :=
  f.props.map (propertyLine (level + 1)) ++ (childLines (level + 1) f.left ++ [[]])

/-- The lines before the place. -/
def before (level : Nat) : List Frame → List Text
  | [] => []
  | f :: fs => openLine level f.name :: (f.start level ++ before (level + 1) fs)

/-- The lines after the place. -/
def after (level : Nat) : List Frame → List Text
  | [] => []
  | f :: fs => after (level + 1) fs ++ (childLines (level + 1) f.right ++ [closeLine level])

theorem plug_injective (fs : List Frame) (h : plug fs m = plug fs n) : m = n := by
  induction fs with
  | nil => exact h
  | cons f fs ih =>
    rw [plug, plug, Node.mk.injEq] at h
    exact ih (List.cons.inj (List.append_cancel_left h.2.2)).1

/-! ## The text around the place -/

theorem childLines_append (level : Nat) (ms ns : List Node) :
    childLines level (ms ++ ns) = childLines level ms ++ childLines level ns := by
  induction ms with
  | nil => rw [childLines, List.nil_append, List.nil_append]
  | cons m ms ih =>
    rw [List.cons_append, childLines, childLines, ih, List.cons_append, List.append_assoc]

theorem lines_plug (level : Nat) (fs : List Frame) (n : Node) : (plug fs n).lines level =
    before level fs ++ (n.lines (level + fs.length) ++ after level fs) := by
  induction fs generalizing level with
  | nil => simp [plug, before, after]
  | cons f fs ih =>
    have hlevel : level + 1 + fs.length = level + (f :: fs).length := by
      rw [List.length_cons]
      omega
    rw [plug, Node.lines, childLines_append, childLines, ih, hlevel, before, after, Frame.start]
    simp

/-! ## The nodes around the place -/

theorem named_of_plug (h : (plug fs n).Named) : n.Named := by
  induction fs with
  | nil => exact h
  | cons f fs ih =>
    cases h with
    | mk _ _ hbelow => exact ih (hbelow _ (List.mem_append_right _ List.mem_cons_self))

theorem distinct_of_plug (h : (plug fs n).Distinct) : n.Distinct := by
  induction fs with
  | nil => exact h
  | cons f fs ih =>
    cases h with
    | mk _ _ hbelow => exact ih (hbelow _ (List.mem_append_right _ List.mem_cons_self))

theorem mem_around {α : Type} {left right : List α} {x y c : α} (h : c ∈ left ++ y :: right) :
    c = y ∨ c ∈ left ++ x :: right := by
  rcases List.mem_append.1 h with h | h
  · exact .inr (List.mem_append_left _ h)
  rcases List.mem_cons.1 h with h | h
  · exact .inl h
  · exact .inr (List.mem_append_right _ (List.mem_cons_of_mem _ h))

theorem name_plug (h : n.name = m.name) : (plug fs n).name = (plug fs m).name := by
  cases fs with
  | nil => exact h
  | cons f fs => rfl

theorem named_plug (h : (plug fs m).Named) (hn : n.Named) (hname : n.name = m.name) :
    (plug fs n).Named := by
  induction fs with
  | nil => exact hn
  | cons f fs ih =>
    cases h with
    | mk hprops hchildren hbelow =>
      have hmem : plug fs m ∈ f.left ++ plug fs m :: f.right :=
        List.mem_append_right _ List.mem_cons_self
      refine .mk hprops (fun c hc => ?_) fun c hc => ?_
      · rcases mem_around (x := plug fs m) hc with rfl | hc
        · rw [name_plug hname]
          exact hchildren _ hmem
        · exact hchildren c hc
      · rcases mem_around (x := plug fs m) hc with rfl | hc
        · exact ih (hbelow _ hmem)
        · exact hbelow c hc

/-! ## Reading -/

theorem eventsOf_append (ns ms : List Node) : eventsOf (ns ++ ms) = eventsOf ns ++ eventsOf ms := by
  induction ns with
  | nil => rw [eventsOf, List.nil_append, List.nil_append]
  | cons n ns ih => rw [List.cons_append, eventsOf, eventsOf, ih, List.append_assoc]

theorem reads_frame (level : Nat) {f : Frame} (h : (plug [f] m).Named) {t : Text}
    (ht : Reads t n.events) :
    Reads (above (f.start level) ++ (t ++ above (childLines (level + 1) f.right)))
      (f.props.map .prop ++ eventsOf (f.left ++ n :: f.right)) := by
  cases h with
  | mk hprops hchildren hbelow =>
    have hleft : Reads (above (childLines (level + 1) f.left)) (eventsOf f.left) :=
      reads_childLines _ fun c hc => reads_lines (hbelow c (List.mem_append_left _ hc)) (level + 1)
        (.inr (hchildren c (List.mem_append_left _ hc)))
    have hright : Reads (above (childLines (level + 1) f.right)) (eventsOf f.right) :=
      reads_childLines _ fun c hc =>
      have hc := List.mem_append_right f.left (List.mem_cons_of_mem m hc)
      reads_lines (hbelow c hc) (level + 1) (.inr (hchildren c hc))
    have hreads := (reads_properties (level + 1) hprops).append (hleft.append
      (Reads.nil.line (ht.append hright)))
    rw [eventsOf_append, eventsOf]
    simpa [Frame.start, above_append] using hreads

/-- The lines of a tree around any text that stands for the node in the place. -/
theorem reads_plug (h : (plug fs m).Named) {t : Text} (ht : Reads t n.events) :
    ∀ level, (plug fs m).name = rootName ∨ isNodeName (plug fs m).name = true →
      Reads (above (before level fs) ++ (t ++ above (after level fs))) (plug fs n).events := by
  induction fs with
  | nil =>
    intro level _
    simpa [before, after, plug] using ht
  | cons f fs ih =>
    intro level hname
    have hframe : (plug [f] (plug fs m)).Named := h
    cases h with
    | mk hprops hchildren hbelow =>
      have hmem : plug fs m ∈ f.left ++ plug fs m :: f.right :=
        List.mem_append_right _ List.mem_cons_self
      have hopen : Reads (openLine level f.name) [.opens f.name] := reads_openLine level hname
      have hplace := ih (hbelow _ hmem) (level + 1) (.inr (hchildren _ hmem))
      have hreads := hopen.line ((reads_frame level hframe hplace).append
        ((reads_closeLine level).line .nil))
      rw [plug, Node.events]
      simpa [before, after, above_append] using hreads

end Dts
