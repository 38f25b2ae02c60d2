import AxvisorTools.Dts.Proof.Value

/-!
# Reading back a printed tree

`Reads t es`: between two statements, the reader takes the text `t` for the events `es`. Each line
that is printed stands for one event, `build` puts the events of a node together to the node again
(`build_events`), and so `read_text`: what is printed is read.
-/

namespace Dts

open Py

variable {name : Text} {ts : List Token}

/-! ## Lines -/

/-- Between two statements, the text `t` stands for the events `es`. -/
def Reads (t : Text) (es : List Event) : Prop :=
  ∀ r : Reader, r.mode = .blank → r.pending = [] → r.version = true →
    r.run t = (es.foldlM build r.nodes).map fun ns => { r with nodes := ns }

namespace Reads

variable {s t : Text} {es fs : List Event}

theorem append (hs : Reads s es) (ht : Reads t fs) : Reads (s ++ t) (es ++ fs) := by
  intro r hmode hpending hversion
  rw [Reader.run_append, hs r hmode hpending hversion, List.foldlM_append]
  cases es.foldlM build r.nodes with
  | none => rfl
  | some ns =>
    rw [Option.map_some, Option.bind_some, ht { r with nodes := ns } hmode hpending hversion]
    rfl

theorem blanks (ht : ∀ c ∈ t, isBlank c = true) : Reads t [] :=
  fun _ hmode _ _ => Reader.run_blanks hmode ht

theorem nil : Reads [] [] := blanks (by simp)

theorem single {e : Event} (h : ∀ r : Reader, r.mode = .blank → r.pending = [] →
    r.version = true → r.run t = r.event e) : Reads t [e] := by
  intro r hmode hpending hversion
  have hbuild : [e].foldlM build r.nodes = build r.nodes e := by
    rw [List.foldlM_cons]
    cases build r.nodes e <;> rfl
  rw [h r hmode hpending hversion, Reader.event, hversion, hbuild, ← hpending]
  rfl

theorem tabs (level : Nat) (ht : Reads t es) : Reads (tabs level ++ t) es :=
  (blanks fun c hc => by rw [List.eq_of_mem_replicate hc]; rfl).append ht

theorem line (hs : Reads s es) (ht : Reads t fs) : Reads (s ++ '\n' :: t) (es ++ fs) :=
  hs.append ((blanks (t := ['\n']) (by decide)).append ht)

end Reads

theorem nodeChar_not_stop {r : Reader} (hr : r.pending = []) {c : Char}
    (hc : isNodeChar c = true ∨ c = '/') : r.isStop c = false := by
  have hstop : ∀ d ∈ '"' :: ' ' :: '\t' :: '\n' :: '\r' :: symbols,
      ¬ (isNodeChar d = true ∨ d = '/') := by decide
  by_contra hne
  rw [Bool.not_eq_false, Reader.isStop, Reader.isSymbol, hr] at hne
  refine hstop c ?_ hc
  simp only [isBlank, ne_eq, not_true_eq_false, decide_false, Bool.and_false, Bool.or_false,
    Bool.or_eq_true, beq_iff_eq, decide_eq_true_eq] at hne
  simp only [List.mem_cons]
  tauto

theorem isNodeName_of_property {n : Text} (h : isPropertyName n = true) : isNodeName n = true := by
  rw [isPropertyName, decide_eq_true_iff, List.all_eq_true] at h
  rw [isNodeName, decide_eq_true_iff, List.all_eq_true]
  exact ⟨h.1, fun c hc => by rw [isNodeChar, h.2 c hc, Bool.true_or]⟩

theorem name_word {n : Text} (h : n = rootName ∨ isNodeName n = true) :
    n ≠ [] ∧ ∀ r : Reader, r.pending = [] → ∀ c ∈ n, r.isStop c = false := by
  rcases h with rfl | h
  · refine ⟨by decide, fun r hr c hc => nodeChar_not_stop hr (.inr ?_)⟩
    exact List.mem_singleton.1 hc
  · rw [isNodeName, decide_eq_true_iff, List.all_eq_true] at h
    exact ⟨h.1, fun r hr c hc => nodeChar_not_stop hr (.inl (h.2 c hc))⟩

theorem Reader.event_pending (r : Reader) (ts : List Token) (e : Event) :
    ({ r with pending := ts } : Reader).event e = r.event e := rfl

theorem reads_openLine (level : Nat) (h : name = rootName ∨ isNodeName name = true) :
    Reads (openLine level name) [.opens name] := by
  obtain ⟨hne, hword⟩ := name_word h
  rw [openLine, List.append_assoc]
  refine .tabs level (.single fun r hmode hpending _ => ?_)
  have htext : name ++ " \x7b" = (name ++ [' ']) ++ ['\x7b'] := by simp
  rw [htext, Reader.run_append, Reader.run_word_blank hmode hne (hword r hpending),
    Option.bind_some, Reader.run_symbol (r := r.push (.word name)) hmode (by decide), Reader.feed,
    Reader.push, hpending]
  exact r.event_pending _ _

theorem reads_closeLine (level : Nat) : Reads (closeLine level) [.closes] := by
  refine .tabs level (.single fun r hmode hpending _ => ?_)
  have htext : "\x7d;" = ['\x7d'] ++ [';'] := by decide
  have hbrace : r.feed (.sym '\x7d') = some (r.push (.sym '\x7d')) := rfl
  rw [htext, Reader.run_append, Reader.run_symbol hmode (by decide), hbrace, Option.bind_some,
    Reader.run_symbol (r := r.push (.sym '\x7d')) hmode (by decide), Reader.feed, Reader.statement,
    Reader.push, hpending]
  exact r.event_pending _ _

theorem property_ne_tag {n : Text} (h : isPropertyName n = true) : n ≠ versionTag := by
  rintro rfl
  exact absurd h (by decide)

theorem lexes_equals {t : Text} (h : Lexes t ts) : Lexes ('=' :: ' ' :: t) (.sym '=' :: ts) := by
  have hequals : Lexes ['='] [.sym '='] := .symbol (by decide) (by decide) (by decide)
  have hblank : Lexes [' '] [] := fun r hmode _ => by
    rw [Reader.run_blanks hmode (by decide), Reader.pushes, List.append_nil]
  exact hequals.append (hblank.append h)

theorem run_value {t : Text} (hname : isPropertyName name = true) (ht : Lexes t ts) {r : Reader}
    (hmode : r.mode = .blank) (hpending : r.pending = []) :
    r.run (name ++ ' ' :: '=' :: ' ' :: t ++ [';']) =
      (readValues ts).bind fun v => r.event (.prop ⟨name, v⟩) := by
  obtain ⟨hne, hword⟩ := name_word (.inr (isNodeName_of_property hname))
  have htext : name ++ ' ' :: '=' :: ' ' :: t ++ [';'] =
      (name ++ [' ']) ++ (('=' :: ' ' :: t) ++ [';']) := by simp
  have hpush : (r.push (.word name)).pending ≠ [] := by simp [Reader.push]
  rw [htext, Reader.run_append, Reader.run_word_blank hmode hne (hword r hpending),
    Option.bind_some, Reader.run_append, lexes_equals ht (r.push (.word name)) hmode hpush,
    Option.bind_some,
    Reader.run_symbol (r := (r.push (.word name)).pushes (.sym '=' :: ts)) hmode (by decide),
    Reader.feed, Reader.statement, Reader.pushes, Reader.push, hpending]
  rfl

theorem reads_value {t : Text} {v : Bytes} (hname : isPropertyName name = true) (ht : Lexes t ts)
    (hv : readValues ts = some v) :
    Reads (name ++ ' ' :: '=' :: ' ' :: t ++ [';']) [.prop ⟨name, v⟩] := by
  refine .single fun r hmode hpending _ => ?_
  rw [run_value hname ht hmode hpending, hv, Option.bind_some]

theorem reads_flag (hname : isPropertyName name = true) :
    Reads (name ++ [';']) [.prop ⟨name, []⟩] := by
  obtain ⟨hne, hword⟩ := name_word (.inr (isNodeName_of_property hname))
  refine .single fun r hmode hpending _ => ?_
  rw [Reader.run_word_symbol hmode hne (hword r hpending) (by decide), Reader.feed,
    Reader.statement, Reader.push, hpending]
  simp only [List.nil_append, if_neg (property_ne_tag hname)]
  exact r.event_pending _ _

theorem reads_propertyLine (level : Nat) {p : Property} (h : isPropertyName p.name = true) :
    Reads (propertyLine level p) [.prop p] := by
  refine .tabs level ?_
  obtain ⟨name, value⟩ := p
  unfold Property.text
  split
  · rename_i hempty
    obtain rfl : value = [] := hempty
    exact reads_flag h
  · exact reads_value h (lexes_valueText value) (readValues_valueTokens value)

/-! ## Nodes -/

theorem reads_properties (level : Nat) {ps : List Property}
    (h : ∀ p ∈ ps, isPropertyName p.name = true) :
    Reads (above (ps.map (propertyLine level))) (ps.map .prop) := by
  induction ps with
  | nil => exact .nil
  | cons p ps ih =>
    rw [List.map_cons, List.map_cons, above_cons]
    exact (reads_propertyLine level (h p List.mem_cons_self)).line
      (ih fun q hq => h q (List.mem_cons_of_mem _ hq))

theorem reads_childLines (level : Nat) {ns : List Node}
    (h : ∀ n ∈ ns, Reads (above (n.lines level)) n.events) :
    Reads (above (childLines level ns)) (eventsOf ns) := by
  induction ns with
  | nil =>
    rw [childLines, eventsOf]
    exact .nil
  | cons n ns ih =>
    rw [childLines, eventsOf, above_cons, above_append]
    exact Reads.nil.line ((h n List.mem_cons_self).append
      (ih fun m hm => h m (List.mem_cons_of_mem _ hm)))

theorem reads_lines {n : Node} (h : n.Named) :
    ∀ level, n.name = rootName ∨ isNodeName n.name = true →
      Reads (above (n.lines level)) n.events := by
  induction h with
  | @mk name props children hprops hchildren _ ih =>
    intro level hname
    rw [Node.lines, Node.events, above_cons, above_append, above_append]
    refine (reads_openLine level hname).line ((reads_properties _ hprops).append
      (.append ?_ ?_))
    · exact reads_childLines _ fun c hc => ih c hc (level + 1) (.inr (hchildren c hc))
    · rw [above_cons, above_nil]
      exact (reads_closeLine level).line .nil

/-! ## Building -/

theorem foldlM_props {o : Partial} {os : List Partial} (hos : os ≠ []) (ho : o.children = [])
    {ps : List Property} (h : ∀ p ∈ ps, isPropertyName p.name = true) :
    (ps.map Event.prop).foldlM build (o :: os) =
      some ({ o with props := o.props ++ ps } :: os) := by
  induction ps generalizing o with
  | nil => simp
  | cons p ps ih =>
    have hstep : build (o :: os) (.prop p) = some ({ o with props := o.props ++ [p] } :: os) :=
      if_pos ⟨hos, ho, h p List.mem_cons_self⟩
    rw [List.map_cons, List.foldlM_cons, hstep]
    have hrest := ih (o := { o with props := o.props ++ [p] }) ho
      fun q hq => h q (List.mem_cons_of_mem _ hq)
    simpa using hrest

theorem foldlM_eventsOf {o : Partial} {os : List Partial} {ns : List Node}
    (h : ∀ n ∈ ns, ∀ o : Partial, n.events.foldlM build (o :: os) =
      some ({ o with children := o.children ++ [n] } :: os)) :
    (eventsOf ns).foldlM build (o :: os) =
      some ({ o with children := o.children ++ ns } :: os) := by
  induction ns generalizing o with
  | nil => simp [eventsOf]
  | cons n ns ih =>
    rw [eventsOf, List.foldlM_append, h n List.mem_cons_self o]
    have hrest := ih (o := { o with children := o.children ++ [n] })
      fun m hm => h m (List.mem_cons_of_mem _ hm)
    simpa using hrest

/-- The events of a node add the node to the one around it. -/
theorem build_events {n : Node} (h : n.Named) :
    ∀ (o : Partial) (os : List Partial),
      (if os = [] then n.name = rootName else isNodeName n.name = true) →
      n.events.foldlM build (o :: os) = some ({ o with children := o.children ++ [n] } :: os) := by
  induction h with
  | @mk name props children hprops hchildren _ ih =>
    intro o os hname
    have hopen : build (o :: os) (.opens name) = some (⟨name, [], []⟩ :: o :: os) := if_pos hname
    have hos : o :: os ≠ [] := List.cons_ne_nil _ _
    have hprop := foldlM_props (o := ⟨name, [], []⟩) hos rfl hprops
    have hchild : (eventsOf children).foldlM build (⟨name, props, []⟩ :: o :: os) =
        some (⟨name, props, [] ++ children⟩ :: o :: os) :=
      foldlM_eventsOf fun c hc o' => ih c hc o' (o :: os) (by rw [if_neg hos]; exact hchildren c hc)
    rw [Node.events, List.foldlM_cons, hopen, Option.bind_eq_bind, Option.bind_some,
      List.foldlM_append, hprop, Option.bind_eq_bind, Option.bind_some, List.nil_append,
      List.foldlM_append, hchild]
    rfl

/-! ## Documents -/

/-- The numbers of the reserved ranges. -/
def Document.ranges (d : Document) : List (Nat × Nat) :=
  d.reserved.map fun r => (r.address.val, r.size.val)

/-- The reader behind the version line and some reserved ranges. -/
def afterHead (ranges : List (Nat × Nat)) : Reader := ⟨.blank, [], true, ranges, [outside]⟩

theorem run_reserveLine (ranges : List (Nat × Nat)) (a b : Nat) :
    (afterHead ranges).run (reserveLine a b ++ ['\n']) =
      some (afterHead (ranges ++ [(a, b)])) := by
  have htag : ∀ c ∈ reserveTag, (afterHead ranges).isStop c = false := by
    have hchars : ∀ c ∈ reserveTag, isNodeChar c = true ∨ c = '/' := by decide
    exact fun c hc => nodeChar_not_stop rfl (hchars c hc)
  have hfirst : (afterHead ranges).run (reserveTag ++ ['\t']) =
      some ((afterHead ranges).push (.word reserveTag)) :=
    Reader.run_word_stop rfl (by decide) htag rfl
  have ha : IsWord ('0' :: 'x' :: hex016 a) := isWord_literal (isWord_hex 16 a)
  have hb : IsWord ('0' :: 'x' :: hex016 b) := isWord_literal (isWord_hex 16 b)
  have hsecond := Lexes.word_blank ha ((afterHead ranges).push (.word reserveTag)) rfl
    (by simp [Reader.push])
  have hblank := Reader.run_blanks (r := afterHead (ranges ++ [(a, b)])) (t := ['\n']) rfl
    (by decide)
  have htext : reserveLine a b ++ ['\n'] = (reserveTag ++ ['\t']) ++
      (('0' :: 'x' :: hex016 a ++ [' ']) ++ (('0' :: 'x' :: hex016 b ++ [';']) ++ ['\n'])) := by
    simp [reserveLine]
  have hstatement : (((((afterHead ranges).push (.word reserveTag)).pushes
      [.word ('0' :: 'x' :: hex016 a)]).push (.word ('0' :: 'x' :: hex016 b))).feed (.sym ';')) =
      some (afterHead (ranges ++ [(a, b)])) := by
    have hlita : literal ('0' :: 'x' :: hex016 a) = some a := literal_leftpad 16 a
    have hlitb : literal ('0' :: 'x' :: hex016 b) = some b := literal_leftpad 16 b
    rw [Reader.feed, Reader.statement]
    simp only [Reader.push, Reader.pushes, afterHead, List.nil_append, List.cons_append, hlita,
      hlitb]
    rfl
  rw [htext, Reader.run_append, hfirst, Option.bind_some, Reader.run_append, hsecond,
    Option.bind_some, Reader.run_append, Reader.run_word_symbol rfl hb.1 (hb.not_stop _) (by decide),
    hstatement, Option.bind_some, hblank]

theorem run_head (d : Document) : Reader.initial.run (above d.head) = some (afterHead d.ranges) := by
  have hstart : Reader.initial.run (versionTag ++ [';', '\n', '\n']) = some (afterHead []) := by rfl
  have hranges : ∀ (xs : List Reserve) (ranges : List (Nat × Nat)),
      (afterHead ranges).run (above (xs.map Reserve.line)) =
        some (afterHead (ranges ++ xs.map fun r => (r.address.val, r.size.val))) := by
    intro xs
    induction xs with
    | nil => intro ranges; simp
    | cons x xs ih =>
      intro ranges
      have htext : above ((x :: xs).map Reserve.line) =
          (x.line ++ ['\n']) ++ above (xs.map Reserve.line) := by simp
      rw [htext, Reader.run_append, Reserve.line, run_reserveLine, Option.bind_some, ih]
      simp
  have htext : above d.head = versionTag ++ [';', '\n', '\n'] ++ above (d.reserved.map Reserve.line) := by
    rw [Document.head, above_cons, above_cons]
    simp
  rw [htext, Reader.run_append, hstart, Option.bind_some, hranges]
  rfl

theorem read_events (d : Document) {t : Text} {es : List Event} (h : Reads t es) :
    read (above d.head ++ t) =
      ((es.foldlM build [outside]).bind onlyRoot).map (d.ranges, ·) := by
  have hrun := h (afterHead d.ranges) rfl rfl rfl
  rw [read, Reader.run_append, run_head, Option.bind_some, hrun]
  have hnodes : (afterHead d.ranges).nodes = [outside] := rfl
  rw [hnodes]
  cases es.foldlM build [outside] with
  | none => rfl
  | some ns => rfl

/-- **What is printed is read.** -/
theorem read_text (d : Document) : read d.text = some (d.ranges, d.root) := by
  have hreads := reads_lines d.named 0 (.inl d.root_name)
  have hbuild := build_events d.named outside [] d.root_name
  rw [Document.text, above_append, read_events d hreads, hbuild]
  rfl

end Dts
