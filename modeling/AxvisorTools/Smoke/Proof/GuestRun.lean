import AxvisorTools.Smoke.Proof.GuestInit
import AxvisorTools.Smoke.Proof.Wait

/-!
# The x86 smoke test from the guest to the exit status

The guest emits its pass marker after the `sync` that follows its result file. So a script that has
seen the marker finds the complete file in the image, whenever it stops QEMU (`image_of_pass`), and its
exit status does not depend on how its checks and the steps of the run interleave (`script_verdict`).
-/

namespace Smoke.GuestInit

open Regex Harness Poll

variable {Num : Type} {awk : Awk.Ordered Num} {g : Machine} {rule : BinaryRule} {env : ValidateEnv}
  {crlf : Bool} {steps : List Step} {log : Text} {v t value u : Text} {k : Nat} {name : String}
  {starts : List Text}

/-! ## Markers -/

/-- An assignment inside another one: at its `=`, or inside its value. -/
theorem infix_assign {h k w : Text} (hh : '=' ∉ h) (hk : '=' ∉ k)
    (hin : h ++ '=' :: v <:+: k ++ '=' :: w) : (h <:+ k ∧ v <+: w) ∨ h ++ '=' :: v <:+: w := by
  obtain ⟨x, y, hxy⟩ := hin
  by_cases hx : '=' ∈ x
  · obtain ⟨a, b, rfl, ha⟩ := List.eq_append_cons_of_mem hx
    have heq : a ++ '=' :: (b ++ (h ++ '=' :: v) ++ y) = k ++ '=' :: w := by
      rw [← hxy]
      simp
    exact .inr ⟨b, y, (append_cons_inj ha hk heq).2⟩
  · have heq : (x ++ h) ++ '=' :: (v ++ y) = k ++ '=' :: w := by
      rw [← hxy]
      simp
    have hxh : '=' ∉ x ++ h := by simp [hx, hh]
    obtain ⟨hk', hw⟩ := append_cons_inj hxh hk heq
    exact .inl ⟨⟨x, hk'⟩, ⟨y, hw⟩⟩

/-- The names of messages. -/
def Topic (name : String) : Prop := ∀ c ∈ name.toList, (c.isUpper || c == '_') = true

theorem topic_lit {s : String} {l : List Char} (h : s = String.ofList l)
    (hl : ∀ c ∈ l, (c.isUpper || c == '_') = true) : Topic s := by
  rw [Topic, h, String.toList_ofList]
  exact hl

theorem Topic.not_mem (h : Topic name) {c : Char} (hc : (c.isUpper || c == '_') = false) :
    c ∉ name.toList := by
  intro hmem
  rw [h c hmem] at hc
  cases hc

/-- The start of a message is at its start only: there is one `8` in it, and none in the name. -/
theorem topic_of_suffix {m n : String} (hn : Topic n)
    (h : nativeGuest ++ m.toList <:+ nativeGuest ++ n.toList) : m = n := by
  obtain ⟨x, hx⟩ := h
  have hone : List.count '8' nativeGuest = 1 := by decide
  have hsplit : nativeGuest = "AXVISOR_X" ++ '8' :: "6_NATIVE_GUEST_" := by decide
  have hnone : List.count '8' n.toList = 0 := List.count_eq_zero.2 (hn.not_mem (by decide))
  have hcount := congrArg (List.count '8') hx
  simp only [List.count_append, hone, hnone] at hcount
  have hx8 : '8' ∉ x := List.count_eq_zero.1 (by omega)
  have hfront : '8' ∉ x ++ "AXVISOR_X" := by
    rw [List.mem_append]
    exact not_or.2 ⟨hx8, by decide⟩
  have heq : (x ++ "AXVISOR_X") ++ '8' :: ("6_NATIVE_GUEST_" ++ m.toList) =
      "AXVISOR_X" ++ '8' :: ("6_NATIVE_GUEST_" ++ n.toList) := by
    rw [hsplit] at hx
    simpa only [List.append_assoc, List.cons_append] using hx
  have hrest := (append_cons_inj hfront (by decide) heq).2
  exact String.toList_inj.1 (List.append_cancel_left hrest)

/-- A step that shows no message but the guest's own. -/
def Step.Plain : Step → Prop
  | .guest (.emit _ value) starts => ¬ nativeGuest <:+: value ∧
    ∀ s ∈ starts, '\n' ∉ s ∧ (s = [] ∨ ∃ t, s = t ++ [' '] ∧ ¬ nativeGuest <:+: t)
  | .guest (.print l) _ => ¬ nativeGuest <:+: l.1
  | .kernel l => ¬ nativeGuest <:+: l.1
  | _ => True

/-- A value that a marker can have. -/
def Value (v : Text) : Prop := '\n' ∉ v ∧ ' ' ∉ v ∧ '\r' ∉ v

section Marker

variable {name n : String} {v value l : Text}

theorem message_eq (name : String) (v : Text) :
    message name v = (nativeGuest ++ name.toList) ++ '=' :: v := rfl

theorem message_ne_nil : message name v ≠ [] := by
  rw [message_eq]
  exact List.append_ne_nil_of_right_ne_nil _ (List.cons_ne_nil _ _)

theorem not_mem_message (hname : Topic name) {c : Char} (hc : (c.isUpper || c == '_') = false)
    (hfixed : c ∉ nativeGuest ++ ['=']) (hv : c ∉ v) : c ∉ message name v := by
  rw [List.mem_append, List.mem_singleton, not_or] at hfixed
  rw [message_eq, List.mem_append, List.mem_append, List.mem_cons, not_or, not_or, not_or]
  exact ⟨⟨hfixed.1, hname.not_mem hc⟩, hfixed.2, hv⟩

theorem nativeGuest_infix_message : nativeGuest <:+: message name v :=
  ⟨[], name.toList ++ '=' :: v, by rw [message_eq, List.nil_append, List.append_assoc]⟩

theorem infix_lineEnd (ht : '\r' ∉ t) (hne : t ≠ []) : t <:+: l ++ lineEnd crlf ↔ t <:+: l := by
  cases crlf with
  | false => simp [lineEnd]
  | true =>
    rw [lineEnd, if_pos rfl, infix_append_sep ht, List.infix_nil]
    exact or_iff_left hne

/-- A message that is on a line of a plain step is emitted by it. -/
theorem emitted_of_mem_lines {s : Step} (hs : s.Plain) (htopic : ∀ n value starts,
      s = .guest (.emit n value) starts → Topic n) (hname : Topic name) (hv : Value v)
    (hl : l ∈ s.lines crlf) (h : message name v <:+: l) :
    ∃ value starts, s = .guest (.emit name value) starts ∧ v <+: value ++ lineEnd crlf := by
  have hcr : '\r' ∉ message name v := not_mem_message hname (by decide) (by decide) hv.2.2
  have hblank : ' ' ∉ message name v := not_mem_message hname (by decide) (by decide) hv.2.1
  have hother {t : Text} (ht : ¬ nativeGuest <:+: t) : ¬ message name v <:+: t :=
    fun hin => ht (nativeGuest_infix_message.trans hin)
  cases s with
  | writeback => cases hl
  | kernel m =>
    rw [List.mem_singleton.1 hl] at h
    exact absurd h (hother hs)
  | guest c starts =>
    cases c with
    | truncate => cases hl
    | write t => cases hl
    | sync => cases hl
    | print m =>
      rw [List.mem_singleton.1 hl, infix_lineEnd hcr message_ne_nil] at h
      exact absurd h (hother hs)
    | emit n value =>
      obtain ⟨start, hstart, rfl⟩ := List.mem_map.1 hl
      -- the time stamp, if there is one, ends with a blank
      have hin : message name v <:+: message n value ++ lineEnd crlf := by
        have hcases : start = [] ∨ ∃ t, start = t ++ [' '] ∧ ¬ nativeGuest <:+: t := by
          rcases List.mem_cons.1 hstart with rfl | hstart
          · exact .inl rfl
          · exact (hs.2 start hstart).2
        rcases hcases with rfl | ⟨t, rfl, ht⟩
        · simpa using h
        · have h' : message name v <:+: t ++ ' ' :: (message n value ++ lineEnd crlf) := by
            simpa using h
          exact ((infix_append_sep hblank).1 h').resolve_left (hother ht)
      have heq : '=' ∉ nativeGuest ++ name.toList := by
        rw [List.mem_append]
        exact not_or.2 ⟨by decide, hname.not_mem (by decide)⟩
      have heq' : '=' ∉ nativeGuest ++ n.toList := by
        rw [List.mem_append]
        exact not_or.2 ⟨by decide, (htopic n value starts rfl).not_mem (by decide)⟩
      have hin' : (nativeGuest ++ name.toList) ++ '=' :: v <:+:
          (nativeGuest ++ n.toList) ++ '=' :: (value ++ lineEnd crlf) := by
        rwa [message_eq, message_eq, List.append_assoc _ ('=' :: value), List.cons_append] at hin
      rcases infix_assign heq heq' hin' with ⟨hsuf, hpre⟩ | hval
      · obtain rfl := topic_of_suffix (htopic n value starts rfl) hsuf
        exact ⟨value, starts, rfl, hpre⟩
      · rw [← message_eq, infix_lineEnd hcr message_ne_nil] at hval
        exact absurd hval (hother hs.1)

end Marker

/-! ## The messages of the init -/

/-- The messages that no check of the verifier is about. -/
def otherNames : List String :=
  ["STAGE", "ROOT_MOUNT_DEV", "CPUINFO_PROCESSOR_COUNT", "CPU_ONLINE_LIST", "CPU_ONLINE_COUNT",
    "TIMER_UPTIME_BEFORE", "TIMER_UPTIME_AFTER", "TIMER_DELTA_MS", "TIMER_MONOTONIC_OK",
    "TIMER_SLEEP_WAKE_OK", "IRQ_VIRTIO_BEFORE", "IRQ_VIRTIO_AFTER", "IRQ_VIRTIO_DELTA",
    "IRQ_VIRTIO_DELTA_POSITIVE", "MMIO_VIRTIO_RW_ITERATIONS", "MMIO_VIRTIO_RW_OK", "EXIT_PORT_RC"]

/-- The others. -/
def probes (g : Machine) : List (String × Text) :=
  [("HAS_DEV_VDA", flag g.early.devVda), ("HAS_SYS_BLOCK_VDA", flag g.early.sysBlockVda),
    ("ROOT_MOUNT_FS", orElse (rootMount 3 g.mounts) "unknown"),
    ("WRITE_TEST", flag g.early.writeTest)]

/-- A command that emits one of these on a line, or prints one. -/
def Command.Said (g : Machine) : Command → Prop
  | .emit name value => (name ∈ otherNames ∨ (name, value) ∈ probes g) ∧ '\n' ∉ value
  | .print _ => True
  | _ => False

theorem said_stage {t : String} (h : '\n' ∉ t.toList) : (stage t).Said g :=
  ⟨.inl (by decide), h⟩

theorem said_printed (o : Option Line) : ∀ c ∈ (o.map Command.print).toList, c.Said g := by
  intro c hc
  cases o with
  | none => cases hc
  | some l =>
    rw [List.mem_singleton.1 hc]
    trivial

theorem said_rc {t : String} (h : '\n' ∉ t.toList) (rc : Nat) :
    (Command.emit "STAGE" (t.toList ++ Nat.toDigits 10 rc)).Said g := by
  refine ⟨.inl (by decide), ?_⟩
  rw [List.mem_append]
  refine not_or.2 ⟨h, fun hd => ?_⟩
  exact absurd (isDigit_of_mem_toDigits hd) (by decide)

theorem said_boot : ∀ c ∈ g.boot awk, c.Said g := by
  have hflag := newline_not_mem_flag
  simp only [Machine.boot, List.forall_mem_append, List.forall_mem_cons]
  refine ⟨⟨⟨⟨said_stage (by decide), said_rc (by decide) _, said_rc (by decide) _,
    said_rc (by decide) _, said_stage (by decide), List.forall_mem_nil _⟩, said_printed _⟩,
    said_printed _⟩, ⟨.inr ?_, hflag _⟩, ⟨.inr ?_, hflag _⟩, ⟨.inl (by decide), ?_⟩, ⟨.inr ?_, ?_⟩,
    ⟨.inl (by decide), ?_⟩, ⟨.inl (by decide), ?_⟩, ⟨.inl (by decide), ?_⟩, ⟨.inr ?_, hflag _⟩,
    List.forall_mem_nil _⟩
  · simp [probes]
  · simp [probes]
  · exact newline_not_mem_orElse (newline_not_mem_rootMount 1) (by decide)
  · simp [probes]
  · exact newline_not_mem_orElse (newline_not_mem_rootMount 3) (by decide)
  · exact newline_not_mem_orElse (newline_not_mem_cpuinfo _) (by decide)
  · exact newline_not_mem_orElse newline_not_mem_cpuOnlineList (by decide)
  · exact newline_not_mem_orElse (awk.newline_notMem_text _) (by decide)
  · simp [probes]

theorem said_checks : ((∀ c ∈ g.timerCheck, c.Said g) ∧ ∀ c ∈ g.irqCheck awk, c.Said g) ∧
    ∀ c ∈ g.mmioCheck, c.Said g := by
  have hflag := newline_not_mem_flag
  have hcount := newline_not_mem_irqVirtioCount awk
  refine ⟨⟨?_, ?_⟩, ?_⟩
  · unfold Machine.timerCheck
    split
    · simp only [List.forall_mem_cons]
      exact ⟨said_stage (by decide), ⟨.inl (by decide), g.uptimeBefore.2⟩,
        ⟨.inl (by decide), g.uptimeAfter.2⟩, ⟨.inl (by decide), g.timerDeltaMs.2⟩,
        ⟨.inl (by decide), hflag _⟩, ⟨.inl (by decide), hflag _⟩, said_stage (by decide),
        List.forall_mem_nil _⟩
    · exact List.forall_mem_nil _
  · unfold Machine.irqCheck
    split
    · simp only [List.forall_mem_cons]
      exact ⟨said_stage (by decide), ⟨.inl (by decide), hcount _⟩, ⟨.inl (by decide), hcount _⟩,
        ⟨.inl (by decide), awk.newline_notMem_text _⟩, ⟨.inl (by decide), hflag _⟩,
        said_stage (by decide), List.forall_mem_nil _⟩
    · exact List.forall_mem_nil _
  · unfold Machine.mmioCheck
    split
    · simp only [List.forall_mem_cons]
      exact ⟨said_stage (by decide), ⟨.inl (by decide), by decide⟩, ⟨.inl (by decide), hflag _⟩,
        said_stage (by decide), List.forall_mem_nil _⟩
    · exact List.forall_mem_nil _

theorem said_leave : ∀ c ∈ g.leave, c.Said g := by
  have hbefore : (stage "before-exit-port").Said g := said_stage (by decide)
  have hafter : (stage "after-exit-port").Said g := said_stage (by decide)
  unfold Machine.leave
  split
  · exact List.forall_mem_nil _
  · simp only [List.forall_mem_cons]
    exact ⟨hbefore, hafter, List.forall_mem_nil _⟩
  · next rc _ =>
    simp only [List.forall_mem_cons]
    refine ⟨hbefore, ⟨.inl (by decide), fun hd => ?_⟩, hafter, List.forall_mem_nil _⟩
    exact absurd (isDigit_of_mem_toDigits hd) (by decide)

/-- Before the file is opened. -/
def opening (awk : Awk.Ordered Num) (g : Machine) : List Command :=
  g.boot awk ++ (g.timerCheck ++ g.irqCheck awk ++ g.mmioCheck) ++ [stage "before-result"]

/-- Between the file and the pass marker. -/
def closing : List Command := [stage "after-result", stage "before-sync", .sync, stage "after-sync"]

theorem work_eq : g.work awk =
    opening awk g ++ .truncate :: ((g.writes awk).map .write ++ closing) := by
  simp [Machine.work, opening, closing]

theorem said_opening : ∀ c ∈ opening awk g, c.Said g := by
  simp only [opening, List.forall_mem_append, List.forall_mem_cons]
  exact ⟨⟨said_boot, said_checks⟩, said_stage (by decide), List.forall_mem_nil _⟩

theorem said_work (h : Command.emit name value ∈ g.work awk) :
    (Command.emit name value).Said g := by
  have hclosing : ∀ c ∈ closing, c = .sync ∨ c.Said g := by
    simp only [closing, List.forall_mem_cons]
    exact ⟨.inr (said_stage (by decide)), .inr (said_stage (by decide)), .inl trivial,
      .inr (said_stage (by decide)), List.forall_mem_nil _⟩
  rw [work_eq, List.mem_append, List.mem_cons, List.mem_append, List.mem_map] at h
  rcases h with h | h | ⟨t, -, h⟩ | h
  · exact said_opening _ h
  · cases h
  · cases h
  · exact (hclosing _ h).resolve_left fun he => by cases he

theorem topic_said (h : (Command.emit name value).Said g) : Topic name := by
  have hothers : ∀ n ∈ otherNames, Topic n := by
    simp only [otherNames, List.forall_mem_cons, List.not_mem_nil, false_implies, implies_true,
      and_true]
    and_intros <;> exact topic_lit rfl (by decide)
  have hprobes : ∀ e ∈ probes g, Topic e.1 := by
    simp only [probes, List.forall_mem_cons, List.not_mem_nil, false_implies, implies_true,
      and_true]
    and_intros <;> exact topic_lit rfl (by decide)
  rcases h.1 with h | h
  · exact hothers name h
  · exact hprobes _ h

theorem ne_pass_said (h : (Command.emit name value).Said g) : name ≠ "PASS" := by
  rintro rfl
  rcases h.1 with h | h
  · exact absurd h (by decide)
  · simp [probes] at h

theorem said_script (h : Command.emit name value ∈ g.script awk) :
    (Command.emit name value).Said g ∨ (name = "PASS" ∧ value = ['1']) := by
  rw [Machine.script, List.mem_append, List.mem_cons] at h
  rcases h with h | h | h
  · exact .inl (said_work h)
  · exact .inr (Command.emit.inj h)
  · exact .inl (said_leave _ h)

theorem topic_script (h : Command.emit name value ∈ g.script awk) : Topic name := by
  rcases said_script h with h | ⟨rfl, -⟩
  · exact topic_said h
  · exact topic_lit rfl (by decide)

theorem unbroken_script (h : Command.emit name value ∈ g.script awk) : '\n' ∉ value := by
  rcases said_script h with h | ⟨-, rfl⟩
  · exact h.2
  · decide

theorem eq_of_probe {w : Text} (hname : name ∉ otherNames) (hpass : name ≠ "PASS")
    (hw : ∀ v, (name, v) ∈ probes g ↔ v = w) (h : Command.emit name v ∈ g.script awk) : v = w := by
  rcases said_script h with ⟨h | h, -⟩ | ⟨h, -⟩
  · exact absurd h hname
  · exact (hw v).1 h
  · exact absurd h hpass

/-! ## The log -/

/-- The steps of a run of the init, with whatever else happens. -/
structure Run (awk : Awk.Ordered Num) (g : Machine) (steps : List Step) : Prop where
  commands : steps.filterMap Step.command = g.script awk
  plain : ∀ s ∈ steps, s.Plain

theorem Run.mem_script (h : Run awk g steps) {c : Command} (hs : Step.guest c starts ∈ steps) :
    c ∈ g.script awk := by
  rw [← h.commands, List.mem_filterMap]
  exact ⟨_, hs, rfl⟩

theorem logAfter_eq (crlf : Bool) (steps : List Step) (k : Nat) :
    logAfter crlf steps k = above ((steps.take k).flatMap (Step.lines crlf)) := by
  rw [logAfter, appends, ← List.map_take, ← List.flatMap_def, above, List.flatMap_assoc]
  rfl

/-- **What the log tells of the guest**: a marker is in it when the guest has emitted it. -/
theorem emitted_iff (h : Run awk g steps) (hname : Topic name) (hv : Value v) (k : Nat) :
    message name v <:+: logAfter crlf steps k ↔
      ∃ value starts, .guest (.emit name value) starts ∈ steps.take k ∧
        v <+: value ++ lineEnd crlf := by
  have hnl : '\n' ∉ message name v := not_mem_message hname (by decide) (by decide) hv.1
  rw [logAfter_eq]
  constructor
  · intro hin
    rw [← List.append_nil (above _)] at hin
    rcases infix_above_append hnl [] hin with ⟨l, hl, hlin⟩ | hnil
    · obtain ⟨s, hs, hsl⟩ := List.mem_flatMap.1 hl
      have hmem : s ∈ steps := List.mem_of_mem_take hs
      obtain ⟨value, starts, rfl, hpre⟩ := emitted_of_mem_lines (h.plain s hmem)
        (fun n value starts hn => topic_script (h.mem_script (hn ▸ hmem))) hname hv hsl hlin
      exact ⟨value, starts, hs, hpre⟩
    · exact absurd (List.infix_nil.1 hnil) message_ne_nil
  · rintro ⟨value, starts, hs, y, hy⟩
    have hline : message name value ++ lineEnd crlf ∈
        (steps.take k).flatMap (Step.lines crlf) := by
      refine List.mem_flatMap.2 ⟨_, hs, ?_⟩
      exact List.mem_map.2 ⟨[], List.mem_cons_self, rfl⟩
    refine infix_above hline ⟨[], y, ?_⟩
    rw [message_eq, message_eq, List.nil_append, List.append_assoc,
      List.append_assoc _ _ (lineEnd crlf),
      List.cons_append, List.cons_append, hy]

theorem Run.unbroken (h : Run awk g steps) {s : Step} (hs : s ∈ steps) :
    Unbroken (s.lines crlf) := by
  have hend : '\n' ∉ lineEnd crlf := by cases crlf <;> decide
  intro l hl
  cases s with
  | writeback => cases hl
  | kernel m =>
    rw [List.mem_singleton.1 hl]
    exact m.2
  | guest c starts =>
    cases c with
    | truncate => cases hl
    | write t => cases hl
    | sync => cases hl
    | print m =>
      rw [List.mem_singleton.1 hl, List.mem_append]
      exact not_or.2 ⟨m.2, hend⟩
    | emit n value =>
      obtain ⟨start, hstart, rfl⟩ := List.mem_map.1 hl
      have hscript := h.mem_script hs
      have hmessage : '\n' ∉ message n value :=
        not_mem_message (topic_script hscript) (by decide) (by decide) (unbroken_script hscript)
      have hbegin : '\n' ∉ start := by
        rcases List.mem_cons.1 hstart with rfl | hstart
        · exact List.not_mem_nil
        · exact ((h.plain _ hs).2 start hstart).1
      rw [List.mem_append, List.mem_append]
      exact not_or.2 ⟨not_or.2 ⟨hbegin, hmessage⟩, hend⟩

theorem Run.fileLines_subset (h : Run awk g steps) {m : Nat} (hk : m ≤ k) :
    fileLines (logAfter crlf steps m) ⊆ fileLines (logAfter crlf steps k) := by
  have hlines (j : Nat) : fileLines (logAfter crlf steps j) =
      (steps.take j).flatMap (Step.lines crlf) := by
    rw [logAfter_eq, fileLines_above]
    intro l hl
    obtain ⟨s, hs, hsl⟩ := List.mem_flatMap.1 hl
    exact h.unbroken (List.mem_of_mem_take hs) l hsl
  rw [hlines, hlines]
  intro l hl
  obtain ⟨s, hs, hsl⟩ := List.mem_flatMap.1 hl
  exact List.mem_flatMap.2 ⟨s, (List.take_subset_take_left _ hk) hs, hsl⟩

/-! ## The disk -/

/-- The file that commands have written, and whether a `sync` has come after the last write. -/
structure Written where
  file : Option Text
  synced : Bool

def Command.apply (w : Written) : Command → Written
  | .truncate => ⟨some [], false⟩
  | .write t => ⟨w.file.map (· ++ t), false⟩
  | .sync => ⟨w.file, true⟩
  | .emit _ _ => w
  | .print _ => w

/-- After a `sync` the image has the file, whatever has been written back meanwhile. -/
structure Agrees (d : Disk) (w : Written) : Prop where
  file : d.file = w.file
  image : w.synced = true → d.image = d.file

theorem Agrees.step {d : Disk} {w : Written} (h : Agrees d w) (s : Step) :
    Agrees (s.disk d) (s.command.elim w (Command.apply w)) := by
  cases s with
  | kernel l => exact h
  | writeback => exact ⟨h.file, fun _ => rfl⟩
  | guest c starts =>
    cases c with
    | emit n v => exact h
    | print l => exact h
    | truncate => exact ⟨rfl, fun hs => absurd hs Bool.false_ne_true⟩
    | write t =>
      exact ⟨congrArg (Option.map (· ++ t)) h.file, fun hs => absurd hs Bool.false_ne_true⟩
    | sync => exact ⟨h.file, fun _ => rfl⟩

theorem Agrees.run {d : Disk} {w : Written} (h : Agrees d w) (steps : List Step) :
    Agrees (steps.foldl Step.disk d) ((steps.filterMap Step.command).foldl Command.apply w) := by
  induction steps generalizing d w with
  | nil => exact h
  | cons s steps ih =>
    have hs := ih (h.step s)
    rw [List.foldl_cons, List.filterMap_cons]
    cases hc : s.command with
    | none => rwa [hc] at hs
    | some c => rwa [hc] at hs

theorem foldl_said {cs : List Command} (h : ∀ c ∈ cs, c.Said g) (w : Written) :
    cs.foldl Command.apply w = w := by
  induction cs with
  | nil => rfl
  | cons c cs ih =>
    have hc : c.apply w = w := by
      have hsaid := h c List.mem_cons_self
      cases c with
      | emit n v => rfl
      | print l => rfl
      | truncate => exact absurd hsaid id
      | write t => exact absurd hsaid id
      | sync => exact absurd hsaid id
    rw [List.foldl_cons, hc]
    exact ih fun d hd => h d (List.mem_cons_of_mem _ hd)

theorem foldl_writes (ts : List Text) (t : Text) (b : Bool) :
    (ts.map Command.write).foldl Command.apply ⟨some t, b⟩ =
      ⟨some (t ++ ts.flatten), if ts = [] then b else false⟩ := by
  induction ts generalizing t b with
  | nil => simp
  | cons u ts ih =>
    rw [List.map_cons, List.foldl_cons]
    change (ts.map Command.write).foldl Command.apply ⟨some (t ++ u), false⟩ = _
    rw [ih]
    simp

theorem foldl_work :
    (g.work awk).foldl Command.apply ⟨none, false⟩ = ⟨some (g.result awk), true⟩ := by
  rw [work_eq, List.foldl_append, foldl_said said_opening, List.foldl_cons, List.foldl_append]
  change closing.foldl Command.apply (((g.writes awk).map Command.write).foldl Command.apply
    ⟨some [], false⟩) = _
  rw [foldl_writes, List.nil_append]
  rfl

theorem Run.work_of_pass (h : Run awk g steps)
    (hs : Step.guest (.emit "PASS" v) starts ∈ steps.take k) :
    ∃ cs, (steps.take k).filterMap Step.command = g.work awk ++ .emit "PASS" ['1'] :: cs ∧
      ∀ c ∈ cs, c.Said g := by
  have hmem : Command.emit "PASS" v ∈ (steps.take k).filterMap Step.command :=
    List.mem_filterMap.2 ⟨_, hs, rfl⟩
  have hnot : Command.emit "PASS" v ∉ g.work awk := fun hw => ne_pass_said (said_work hw) rfl
  have hcut : (steps.take k).filterMap Step.command ++ (steps.drop k).filterMap Step.command =
      g.work awk ++ .emit "PASS" ['1'] :: g.leave := by
    rw [← List.filterMap_append, List.take_append_drop, h.commands, Machine.script]
  rcases List.append_eq_append_iff.1 hcut with ⟨a, hwork, -⟩ | ⟨a, hcs, hrest⟩
  · exact absurd (hwork ▸ List.mem_append_left a hmem) hnot
  · cases a with
    | nil =>
      rw [List.append_nil] at hcs
      exact absurd (hcs ▸ hmem) hnot
    | cons c cs =>
      obtain ⟨rfl, hleave⟩ := List.cons.inj hrest
      refine ⟨cs, hcs, fun d hd => said_leave d ?_⟩
      rw [hleave]
      exact List.mem_append_left _ hd

/-- **The image of a run that has shown its pass marker has the complete file.** -/
theorem Run.image_of_pass (h : Run awk g steps)
    (hs : Step.guest (.emit "PASS" v) starts ∈ steps.take k) :
    (diskAfter steps k).image = some (g.result awk) := by
  obtain ⟨cs, hcs, hsaid⟩ := h.work_of_pass hs
  have hwritten : ((steps.take k).filterMap Step.command).foldl Command.apply ⟨none, false⟩ =
      ⟨some (g.result awk), true⟩ := by
    rw [hcs, List.foldl_append, foldl_work, List.foldl_cons]
    exact foldl_said hsaid _
  have hagrees := Agrees.run (d := ⟨none, none⟩) (w := ⟨none, false⟩)
    ⟨rfl, fun hs => absurd hs Bool.false_ne_true⟩ (steps.take k)
  rw [hwritten] at hagrees
  exact (hagrees.image rfl).trans hagrees.file

/-! ## The verdict -/

/-- What the kernels and the hypervisor have to log, each in one of the forms in its list. -/
def requiredLines (env : ValidateEnv) : List (List Re) :=
  [[lit "Run /init as init process"], [lit "VFS: Mounted root (ext4 filesystem)"], [intxRequested],
    [intxDisabled], [lit (activateGsi ++ ['1', '9'])], [irqUnmask], [irqPoll, irqPending],
    [intxPending, irqEoi]] ++
    if extraCheckEnabled env "timer" then [[pitDue], [pitInject]] else []

def Required (env : ValidateEnv) (log : Text) : Prop :=
  ∀ rs ∈ requiredLines env, rs.any (grep · log) = true

/-- What nobody may log. -/
structure Calm (env : ValidateEnv) (log : Text) : Prop where
  fatal : grep fatalFailure log = false
  gsi : ∀ l ∈ fileLines log, activateGsi <:+: l → ActivatesGsi l 19
  mmio : extraCheckEnabled env "mmio" = true → grep (.alt mmioUnhandled emuDeviceFailed) log = false

theorem extrasLogged_of (hr : Required env log) (hc : Calm env log) : ExtrasLogged env log := by
  refine ⟨fun htimer => ?_, fun _ => ⟨hr [irqPoll, irqPending] (by simp [requiredLines]),
    hr [intxPending, irqEoi] (by simp [requiredLines])⟩, hc.mmio⟩
  have hdue := hr [pitDue] (by simp [requiredLines, htimer])
  have hinject := hr [pitInject] (by simp [requiredLines, htimer])
  rw [List.any_cons, List.any_nil, Bool.or_false] at hdue hinject
  exact ⟨hdue, hinject⟩

theorem grep_mono {r : Re} (hsub : fileLines t ⊆ fileLines u) (h : grep r t = true) :
    grep r u = true := by
  obtain ⟨l, hl, hf⟩ := List.any_eq_true.1 h
  exact List.any_eq_true.2 ⟨l, hsub hl, hf⟩

theorem grep_anti {r : Re} (hsub : fileLines t ⊆ fileLines u) (h : grep r u = false) :
    grep r t = false := by
  rw [← Bool.not_eq_true] at h ⊢
  exact fun ht => h (grep_mono hsub ht)

theorem Required.mono (hsub : fileLines t ⊆ fileLines u) (h : Required env t) :
    Required env u := by
  intro rs hrs
  obtain ⟨r, hr, hf⟩ := List.any_eq_true.1 (h rs hrs)
  exact List.any_eq_true.2 ⟨r, hr, grep_mono hsub hf⟩

theorem Calm.anti (hsub : fileLines t ⊆ fileLines u) (h : Calm env u) :
    Calm env t where
  fatal := grep_anti hsub h.fatal
  gsi l hl := h.gsi l (hsub hl)
  mmio hc := grep_anti hsub (h.mmio hc)

/-- What the guest has to say on the console. -/
structure GuestLog (log : Text) : Prop where
  devVda : message "HAS_DEV_VDA" ['1'] <:+: log
  sysBlockVda : message "HAS_SYS_BLOCK_VDA" ['1'] <:+: log
  rootMountFs : message "ROOT_MOUNT_FS" "ext4" <:+: log
  writeTest : message "WRITE_TEST" ['1'] <:+: log

theorem grep_message (ht : t = message name v) (hname : Topic name) (hv : '\n' ∉ v) (log : Text) :
    grep (lit t) log = true ↔ message name v <:+: log := by
  rw [ht, grep_lit_iff (not_mem_message hname (by decide) (by decide) hv) message_ne_nil]

theorem guestPass_eq : guestPass = message "PASS" ['1'] := by decide

/-- The whole verdict, on a log in which the others have done their part. -/
theorem validateSmokeResult_iff {log result : Text} (hmode : env.bootMode = .rootfs)
    (hr : Required env log) (hc : Calm env log) (hpass : guestPass <:+: log) :
    validateSmokeResult rule env log (some result) = .ok () ↔
      GuestLog log ∧ validateRootfsResult env log result = .ok () := by
  have hdev : grep (lit "AXVISOR_X86_NATIVE_GUEST_HAS_DEV_VDA=1") log = true ↔
      message "HAS_DEV_VDA" ['1'] <:+: log :=
    grep_message (by decide) (topic_lit rfl (by decide)) (by decide) log
  have hsys : grep (lit "AXVISOR_X86_NATIVE_GUEST_HAS_SYS_BLOCK_VDA=1") log = true ↔
      message "HAS_SYS_BLOCK_VDA" ['1'] <:+: log :=
    grep_message (by decide) (topic_lit rfl (by decide)) (by decide) log
  have hfs : grep (lit "AXVISOR_X86_NATIVE_GUEST_ROOT_MOUNT_FS=ext4") log = true ↔
      message "ROOT_MOUNT_FS" "ext4" <:+: log :=
    grep_message (by decide) (topic_lit rfl (by decide)) (by decide) log
  have hwrite : grep (lit "AXVISOR_X86_NATIVE_GUEST_WRITE_TEST=1") log = true ↔
      message "WRITE_TEST" ['1'] <:+: log :=
    grep_message (by decide) (topic_lit rfl (by decide)) (by decide) log
  have hmarker : grep (lit "AXVISOR_X86_NATIVE_GUEST_PASS=1") log = true :=
    (grep_guestPass log).2 hpass
  have hgsi : rejectUnexpectedX86GsiActivation rule log = .ok () := by
    refine (rejectUnexpected_iff rule log).2 fun l hl hmark => hc.gsi l ?_ hmark
    have hne := ne_nil_of_marked hmark
    exact (mem_fileLines hne).2 (rule.mem_printable hl hne)
  obtain ⟨hinit, hmount, hrequest, hdisable, hactive, hunmask, hpend, hdeliver, -⟩ :
      grep (lit "Run /init as init process") log = true ∧ _ := by
    simpa only [Required, requiredLines, List.forall_mem_append, List.forall_mem_cons, List.any_cons,
      List.any_nil, Bool.or_false, and_assoc] using hr
  unfold validateSmokeResult validateRootfsLog
  rw [if_pos hmode]
  simp only [bind_ok_iff, requireGsi19, requireQemuLog_iff, requireQemuLogAny_iff,
    rejectQemuLog_iff, List.any_cons, List.any_nil, Bool.or_false, hc.fatal, hgsi, hinit, hmount,
    hrequest, hdisable, hactive, hunmask, hpend, hdeliver, hmarker, hdev, hsys, hfs, hwrite, true_and,
    and_true]
  constructor
  · rintro ⟨⟨h1, h2, h3, h4⟩, hresult⟩
    exact ⟨⟨h1, h2, h3, h4⟩, hresult⟩
  · rintro ⟨h, hresult⟩
    exact ⟨⟨h.devVda, h.sysBlockVda, h.rootMountFs, h.writeTest⟩, hresult⟩

theorem Run.probe_iff (h : Run awk g steps) {p : Text}
    (hs : Step.guest (.emit "PASS" p) starts ∈ steps.take k) {n : String} {w : Text}
    (hname : n ∉ otherNames) (hw : ∀ v, (n, v) ∈ probes g ↔ v = w) (hv : Value v) :
    message n v <:+: logAfter crlf steps k ↔ v <+: w ++ lineEnd crlf := by
  have hmem : (n, w) ∈ probes g := (hw w).2 rfl
  have hboot : ∀ e ∈ probes g, Command.emit e.1 e.2 ∈ g.boot awk := by
    simp only [probes, List.forall_mem_cons, List.not_mem_nil, false_implies, implies_true,
      and_true]
    simp [Machine.boot]
  have hsaid : (Command.emit n w).Said g := said_boot _ (hboot _ hmem)
  rw [emitted_iff h (topic_said hsaid) hv]
  constructor
  · rintro ⟨value, starts', hemit, hpre⟩
    have hscript := h.mem_script (List.mem_of_mem_take hemit)
    rwa [eq_of_probe hname (ne_pass_said hsaid) hw hscript] at hpre
  · intro hpre
    obtain ⟨cs, hcs, -⟩ := h.work_of_pass hs
    have hcommand : Command.emit n w ∈ (steps.take k).filterMap Step.command := by
      rw [hcs, Machine.work]
      simp [hboot _ hmem]
    obtain ⟨s, hstep, hcmd⟩ := List.mem_filterMap.1 hcommand
    cases s with
    | guest c starts' =>
      obtain rfl := Option.some.inj hcmd
      exact ⟨w, starts', hstep, hpre⟩
    | kernel l => cases hcmd
    | writeback => cases hcmd

theorem Run.flag_iff (h : Run awk g steps) {p : Text} {n : String} {b : Bool}
    (hs : Step.guest (.emit "PASS" p) starts ∈ steps.take k) (hname : n ∉ otherNames)
    (hw : ∀ v, (n, v) ∈ probes g ↔ v = flag b) :
    message n ['1'] <:+: logAfter crlf steps k ↔ b = true := by
  rw [h.probe_iff hs hname hw ⟨by decide, by decide, by decide⟩]
  cases b <;> cases crlf <;> decide

/-- The guests that the script passes. -/
structure Machine.Passes (awk : Awk.Ordered Num) (env : ValidateEnv) (g : Machine) : Prop where
  sound : g.Sound awk env
  early : g.early = ⟨true, true, true⟩

theorem Run.guestLog_iff (h : Run awk g steps) {p : Text}
    (hs : Step.guest (.emit "PASS" p) starts ∈ steps.take k) (hfs : rootMount 3 g.mounts = "ext4") :
    GuestLog (logAfter crlf steps k) ↔ g.early = ⟨true, true, true⟩ := by
  have hdev : message "HAS_DEV_VDA" ['1'] <:+: logAfter crlf steps k ↔ g.early.devVda = true :=
    h.flag_iff hs (by decide) fun v => by simp [probes]
  have hsys : message "HAS_SYS_BLOCK_VDA" ['1'] <:+: logAfter crlf steps k ↔
      g.early.sysBlockVda = true := h.flag_iff hs (by decide) fun v => by simp [probes]
  have hwrite : message "WRITE_TEST" ['1'] <:+: logAfter crlf steps k ↔ g.early.writeTest = true :=
    h.flag_iff hs (by decide) fun v => by simp [probes]
  have hroot : message "ROOT_MOUNT_FS" "ext4" <:+: logAfter crlf steps k := by
    refine (h.probe_iff hs (by decide) (w := orElse (rootMount 3 g.mounts) "unknown")
      (fun v => by simp [probes]) ⟨by decide, by decide, by decide⟩).2 ?_
    rw [hfs]
    exact List.prefix_append _ _
  constructor
  · rintro ⟨h1, h2, -, h4⟩
    cases hearly : g.early with
    | mk d b w => simp_all
  · intro hearly
    rw [hearly] at hdev hsys hwrite
    exact ⟨hdev.2 rfl, hsys.2 rfl, hroot, hwrite.2 rfl⟩

/-! ## The script -/

theorem fatal_of_runFail {log : Text} (h : Smoke.runFail <:+: log) :
    grep fatalFailure log = true := by
  obtain ⟨l, hl, hf⟩ := List.any_eq_true.1 ((grep_runFail log).2 h)
  refine List.any_eq_true.2 ⟨l, hl, ?_⟩
  rw [fatalFailure, found_alts, Bool.or_eq_true]
  refine .inr (List.any_eq_true.2 ⟨Harness.runFail, ?_, hf⟩)
  exact .tail _ (.tail _ (.tail _ (.tail _ (.tail _ (.tail _ (.tail _ (.head _)))))))

section Script

variable {flags : WaitFlags} {s : Schedule (appends crlf steps)} {n : Nat}

/-- The script does not stop QEMU with success before the guest has emitted the pass marker. -/
theorem pass_of_returns (h : ReturnsAt (waitStep flags) s.env ⟨.deadline, false⟩ n 0) :
    guestPass <:+: logAfter crlf steps (s.seen n) := by
  obtain ⟨w, hw, hr⟩ := h
  have hgrows (m : Nat) : (s.env m).log <+: (s.env (m + 1)).log :=
    take_flatten_isPrefix _ (s.mono m)
  have hstart : Knows flags (s.env 0).log ⟨.deadline, false⟩ :=
    ⟨fun h => absurd h Bool.false_ne_true, by simp, by simp, by simp⟩
  have hknows : Knows flags (s.env n).log w :=
    run_inv (fun e w => Knows flags e.log w) hstart Knows.step
      (fun {m _} hm => hm.mono (hgrows m).isInfix) hw
  exact (hknows.accepted hr).1

theorem logAfter_isPrefix {m : Nat} (hk : m ≤ k) :
    logAfter crlf steps m <+: logAfter crlf steps k := take_flatten_isPrefix _ hk

theorem logAfter_length : logAfter crlf steps steps.length = (appends crlf steps).flatten := by
  rw [logAfter, List.take_of_length_le (by simp [appends])]

theorem logAfter_max (k : Nat) :
    logAfter crlf steps (max k steps.length) = logAfter crlf steps steps.length := by
  rw [logAfter_length, logAfter, List.take_of_length_le (by simp [appends])]

theorem Run.pass (h : Run awk g steps) : guestPass <:+: logAfter crlf steps steps.length := by
  have hscript : Command.emit "PASS" ['1'] ∈ steps.filterMap Step.command := by
    rw [h.commands, Machine.script]
    simp
  obtain ⟨t, ht, hc⟩ := List.mem_filterMap.1 hscript
  rw [guestPass_eq, emitted_iff h (topic_lit rfl (by decide)) ⟨by decide, by decide, by decide⟩,
    List.take_length]
  cases t with
  | guest c starts =>
    obtain rfl := Option.some.inj hc
    exact ⟨['1'], starts, ht, List.prefix_append _ _⟩
  | kernel l => cases hc
  | writeback => cases hc

/-- What the kernels and the hypervisor do in the run: what is required of them comes before the
pass marker. -/
structure Hosted (env : ValidateEnv) (crlf : Bool) (steps : List Step) : Prop where
  required : ∃ m, ¬ guestPass <:+: logAfter crlf steps m ∧ Required env (logAfter crlf steps m)
  calm : Calm env (logAfter crlf steps steps.length)

theorem Hosted.required_of_pass (hh : Hosted env crlf steps) (h : Run awk g steps)
    (hpass : guestPass <:+: logAfter crlf steps k) : Required env (logAfter crlf steps k) := by
  obtain ⟨m, hnot, hrequired⟩ := hh.required
  have hmk : m ≤ k := by
    by_contra hlt
    exact hnot (hpass.trans (logAfter_isPrefix (by omega)).isInfix)
  exact hrequired.mono (h.fileLines_subset hmk)

theorem Hosted.calm_at (hh : Hosted env crlf steps) (h : Run awk g steps) (k : Nat) :
    Calm env (logAfter crlf steps k) := by
  refine Calm.anti (h.fileLines_subset (Nat.le_max_left k steps.length)) ?_
  rw [logAfter_max]
  exact hh.calm

section Verdict

variable (hmode : env.bootMode = .rootfs) (hcpu : ' ' ∉ env.cpuNum)
  (hextra : g.extraChecks.1 = env.extraChecks) (h : Run awk g steps) (hh : Hosted env crlf steps)
include hmode hcpu hextra h hh

/-- What the checks find, whenever QEMU is stopped after the pass marker. -/
theorem validate_of_pass {m : Nat} (hpass : guestPass <:+: logAfter crlf steps m) (hk : m ≤ k) :
    validateSmokeResult rule env (logAfter crlf steps k) (some ((diskAfter steps k).image.getD [])) =
      .ok () ↔ g.Passes awk env := by
  have hlog : guestPass <:+: logAfter crlf steps k := hpass.trans (logAfter_isPrefix hk).isInfix
  have hrequired := hh.required_of_pass h hlog
  have hcalm := hh.calm_at h k
  have hemitted := hlog
  rw [guestPass_eq, emitted_iff h (topic_lit rfl (by decide)) ⟨by decide, by decide, by decide⟩]
    at hemitted
  obtain ⟨value, starts, hs, -⟩ := hemitted
  rw [h.image_of_pass hs, Option.getD_some, validateSmokeResult_iff hmode hrequired hcalm hlog,
    result_accepted_iff hcpu hextra]
  constructor
  · rintro ⟨hguest, hsound, -⟩
    exact ⟨hsound, (h.guestLog_iff hs hsound.rootMountFs).1 hguest⟩
  · rintro ⟨hsound, hearly⟩
    exact ⟨(h.guestLog_iff hs hsound.rootMountFs).2 hearly, hsound, extrasLogged_of hrequired hcalm⟩

/-- **The exit status of the script is the verdict on the guest**, however its checks interleave with
the run and whenever QEMU comes to its end. -/
theorem script_verdict (hdown : flags.poweroffAfterPass = "1" →
      powerDown <:+: (appends crlf steps).flatten) (hclock : ∀ n, s.expired n = false) :
    (∃ k status, Exits rule env flags crlf steps s k status) ∧
    ∀ k status, Exits rule env flags crlf steps s k status →
      (status = 0 ∧ g.Passes awk env) ∨ (status = 1 ∧ ¬ g.Passes awk env) := by
  have hfail : ¬ Smoke.runFail <:+: (appends crlf steps).flatten := by
    intro hin
    have hfatal := hh.calm.fatal
    rw [logAfter_length, fatal_of_runFail hin] at hfatal
    cases hfatal
  have hzero : WaitForResult flags s.env 0 := s.passes hclock hfail (logAfter_length ▸ h.pass) hdown
  constructor
  · obtain ⟨n, hn⟩ := hzero
    exact ⟨s.seen n, _, n, 0, hn, Nat.le_refl _, rfl⟩
  · rintro k status ⟨n, r, hn, hk, rfl⟩
    obtain rfl : r = 0 := Returns.unique ⟨n, hn⟩ hzero
    have hiff : validateSmokeResult rule env (logAfter crlf steps k)
        (some ((diskAfter steps k).image.getD [])) = .ok () ↔ g.Passes awk env :=
      validate_of_pass hmode hcpu hextra h hh (pass_of_returns hn) hk
    rw [finish, if_neg (by simp)]
    split
    · next hok => exact .inl ⟨rfl, hiff.1 hok⟩
    · next e herr =>
      refine .inr ⟨rfl, fun hp => ?_⟩
      rw [hiff.2 hp] at herr
      cases herr

end Verdict

end Script

/-- What the kernels and the hypervisor log in a run that passes. -/
def hostLines : List Line :=
  [⟨"Run /init as init process", by decide⟩,
    ⟨"VFS: Mounted root (ext4 filesystem)", by decide⟩,
    ⟨"requested x86 qemu blk INTx guest_gsi=19", by decide⟩,
    ⟨"request-success-disabled guest_gsi=19 intx_disabled=1", by decide⟩,
    ⟨activateGsi ++ "19", by decide⟩,
    ⟨"x86 passthrough irq unmask irq=19 unmasked=1", by decide⟩,
    ⟨"x86 passthrough irq poll irq=19 pending=1", by decide⟩,
    ⟨"x86_irq::eoi vector=0x20 gsi=19", by decide⟩]

def oneCpuSteps : List Step :=
  hostLines.map .kernel ++ (oneCpu.script Awk.orderedDouble).map (.guest · [])

/-- What a command shows of its own. -/
def Command.shown : Command → Text
  | .emit _ value => value
  | .print l => l.1
  | _ => []

theorem plain_guest {c : Command} (h : ¬ nativeGuest <:+: c.shown) : (Step.guest c []).Plain := by
  cases c with
  | emit n value => exact ⟨h, fun s hs => absurd hs List.not_mem_nil⟩
  | print l => exact h
  | _ => trivial

theorem run_oneCpu : Run Awk.orderedDouble oneCpu oneCpuSteps := by
  have hkernel : ∀ l ∈ hostLines, ¬ nativeGuest <:+: l.1 := by decide +kernel
  have hguest : ∀ c ∈ oneCpu.script Awk.orderedDouble, ¬ nativeGuest <:+: c.shown := by
    decide +kernel
  refine ⟨?_, ?_⟩
  · simp [oneCpuSteps, List.filterMap_append, List.filterMap_map, Function.comp_def, Step.command]
  · intro s hs
    rcases List.mem_append.1 hs with hs | hs
    · obtain ⟨l, hl, rfl⟩ := List.mem_map.1 hs
      exact hkernel l hl
    · obtain ⟨c, hc, rfl⟩ := List.mem_map.1 hs
      exact plain_guest (hguest c hc)

theorem required_oneCpu : Required noExtras (logAfter false oneCpuSteps 8) := by
  unfold Required
  decide +kernel

theorem calm_oneCpu : Calm noExtras (logAfter false oneCpuSteps oneCpuSteps.length) := by
  have h : grep fatalFailure (logAfter false oneCpuSteps oneCpuSteps.length) = false ∧
      ∀ l ∈ fileLines (logAfter false oneCpuSteps oneCpuSteps.length), activateGsi <:+: l →
        found activateGsi19 l = true := by
    decide +kernel
  have hgsi : ∀ l ∈ fileLines (logAfter false oneCpuSteps oneCpuSteps.length),
      activateGsi <:+: l → ActivatesGsi l 19 := fun l hl hmark =>
    (found_activateGsi19_iff (unbroken_fileLines _ l hl)).1 (h.2 l hl hmark)
  exact ⟨h.1, hgsi, fun hc => absurd hc (by decide +kernel)⟩

theorem hosted_oneCpu : Hosted noExtras false oneCpuSteps :=
  ⟨⟨8, by decide +kernel, required_oneCpu⟩, calm_oneCpu⟩

/-- The script looks once the run is over. -/
def afterwards : Schedule (appends false oneCpuSteps) :=
  Schedule.atOnce _ 0 (fun _ => false) (fun _ h => absurd h Bool.false_ne_true)

theorem script_verdict_oneCpu :
    ∃ k, Exits .oneBuffer noExtras ⟨['0'], ['0']⟩ false oneCpuSteps afterwards k 0 := by
  have hpasses : oneCpu.Passes Awk.orderedDouble noExtras := ⟨sound_oneCpu, rfl⟩
  obtain ⟨⟨k, status, hexits⟩, hall⟩ :
      (∃ k status, Exits .oneBuffer noExtras ⟨['0'], ['0']⟩ false oneCpuSteps afterwards k status) ∧
        _ :=
    script_verdict rfl (by decide) rfl run_oneCpu hosted_oneCpu (by decide) (fun _ => rfl)
  rcases hall k status hexits with ⟨rfl, -⟩ | ⟨-, hnot⟩
  · exact ⟨k, hexits⟩
  · exact absurd hpasses hnot

end Smoke.GuestInit
