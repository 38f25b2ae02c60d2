import AxvisorTools.Dts.Proof.Read

/-!
# The lines of a printed tree

No line that is printed has a line break in it (`unbroken_lines_of_named`), and every line within a
node is indented or empty (`indented_lines`), so that the closing line of the root is the only one that
starts with a brace.
-/

namespace Dts

open Py

/-! ## Line breaks -/

theorem newline_not_mem_escapeByte (b : UInt8) : '\n' ∉ escapeByte b := by
  revert b
  refine forall_byte ?_
  decide +kernel

theorem newline_not_mem_hex (k n : Nat) : '\n' ∉ (Nat.toDigits 16 n).leftpad k '0' := by
  intro h
  exact absurd (hexDigit_of_mem_leftpad k n _ h) (by decide)

theorem newline_not_mem_valueText (v : Bytes) : '\n' ∉ valueText v := by
  unfold valueText
  split
  · refine not_mem_intercalate (by decide) fun t ht => ?_
    obtain ⟨s, -, rfl⟩ := List.mem_map.1 ht
    have hs : '\n' ∉ s.flatMap escapeByte := by
      intro h
      obtain ⟨b, -, hb⟩ := List.mem_flatMap.1 h
      exact newline_not_mem_escapeByte b hb
    simpa [stringText] using hs
  split
  · have hcells : '\n' ∉ spaced ((cells v).map cellText) := by
      refine not_mem_intercalate (by decide) fun t ht => ?_
      obtain ⟨n, -, rfl⟩ := List.mem_map.1 ht
      have hn : '\n' ∉ hex02 n := newline_not_mem_hex 2 n
      simpa [cellText] using hn
    simpa using hcells
  · have hbytes : '\n' ∉ spaced (v.map fun b => hex02 b.toNat) := by
      refine not_mem_intercalate (by decide) fun t ht => ?_
      obtain ⟨b, -, rfl⟩ := List.mem_map.1 ht
      exact newline_not_mem_hex 2 b.toNat
    simpa using hbytes

theorem newline_not_mem_name {n : Text} (h : n = rootName ∨ isNodeName n = true) : '\n' ∉ n := by
  rcases h with rfl | h
  · decide
  · rw [isNodeName, decide_eq_true_iff, List.all_eq_true] at h
    intro hmem
    exact absurd (h.2 _ hmem) (by decide)

theorem newline_not_mem_tabs (level : Nat) : '\n' ∉ tabs level := by
  intro h
  exact absurd (List.eq_of_mem_replicate h) (by decide)

theorem newline_not_mem_openLine (level : Nat) {name : Text}
    (h : name = rootName ∨ isNodeName name = true) : '\n' ∉ openLine level name := by
  simp [openLine, newline_not_mem_tabs, newline_not_mem_name h]

theorem newline_not_mem_propertyLine (level : Nat) {p : Property}
    (h : isPropertyName p.name = true) : '\n' ∉ propertyLine level p := by
  have hname := newline_not_mem_name (.inr (isNodeName_of_property h))
  unfold propertyLine Property.text
  split
  · simp [newline_not_mem_tabs, hname]
  · simp [newline_not_mem_tabs, hname, newline_not_mem_valueText]

theorem newline_not_mem_closeLine (level : Nat) : '\n' ∉ closeLine level := by
  simp [closeLine, newline_not_mem_tabs]

theorem forall_childLines {q : Text → Prop} (hq : q []) {level : Nat} {ns : List Node}
    (h : ∀ n ∈ ns, ∀ l ∈ n.lines level, q l) : ∀ l ∈ childLines level ns, q l := by
  induction ns with
  | nil =>
    rw [childLines]
    exact List.forall_mem_nil _
  | cons n ns ih =>
    obtain ⟨hn, hns⟩ := List.forall_mem_cons.1 h
    rw [childLines]
    exact List.forall_mem_cons.2 ⟨hq, List.forall_mem_append.2 ⟨hn, ih hns⟩⟩

theorem unbroken_lines_of_named {n : Node} (h : n.Named) :
    ∀ level, n.name = rootName ∨ isNodeName n.name = true → Unbroken (n.lines level) := by
  induction h with
  | @mk name props children hprops hchildren _ ih =>
    intro level hname l hl
    rw [Node.lines, List.mem_cons, List.mem_append, List.mem_append, List.mem_singleton] at hl
    rcases hl with rfl | hl | hl | rfl
    · exact newline_not_mem_openLine level hname
    · obtain ⟨p, hp, rfl⟩ := List.mem_map.1 hl
      exact newline_not_mem_propertyLine _ (hprops p hp)
    · exact forall_childLines List.not_mem_nil
        (fun c hc => ih c hc (level + 1) (.inr (hchildren c hc))) l hl
    · exact newline_not_mem_closeLine level

/-! ## Indentation -/

/-- The line is empty or starts with a tab. -/
def Indented (l : Text) : Prop := l = [] ∨ ∃ t, l = '\t' :: t

theorem indented_tabs (level : Nat) (t : Text) : Indented (tabs (level + 1) ++ t) :=
  .inr ⟨tabs level ++ t, rfl⟩

theorem indented_propertyLine (level : Nat) (p : Property) : Indented (propertyLine (level + 1) p) :=
  indented_tabs level _

theorem indented_lines {n : Node} (h : n.Named) :
    ∀ level, ∀ l ∈ n.lines (level + 1), Indented l := by
  induction h with
  | @mk name props children _ _ _ ih =>
    intro level l hl
    rw [Node.lines, List.mem_cons, List.mem_append, List.mem_append, List.mem_singleton] at hl
    rcases hl with rfl | hl | hl | rfl
    · rw [openLine, List.append_assoc]
      exact indented_tabs level _
    · obtain ⟨p, hp, rfl⟩ := List.mem_map.1 hl
      exact indented_propertyLine _ p
    · exact forall_childLines (.inl rfl) (fun c hc => ih c hc (level + 1)) l hl
    · exact indented_tabs level _

end Dts
