import AxvisorTools.Awk.Proof.Basic
import AxvisorTools.Smoke.GuestInit
import AxvisorTools.Smoke.Proof.Validate

/-!
# The result file of the x86 guest

`mem_lines_result`: which lines `NAME=value` are in the file. The three lines above `HAS_DEV_VDA` are
printed in two parts, and the second part may be missing, so the entry after `CMDLINE=` is a line of its
own only when `/proc/cmdline` could be read. `result_accepted_iff`: what the verifier makes of the file.
-/

namespace Smoke.GuestInit

open Regex Harness

variable {Num : Type} {awk : Awk.Ordered Num} {g : Machine} {env : ValidateEnv} {log : Text}
  {name : String} {v : Text}

/-! ## The checks of the verifier -/

theorem bind_ok_iff {m : Except Text Unit} {k : Unit → Except Text Unit} :
    m >>= k = .ok () ↔ m = .ok () ∧ k () = .ok () := by
  cases m with
  | error e => simp [bind, Except.bind]
  | ok u => simp [bind, Except.bind]

theorem requireGuestResult_iff (result line : Text) (description : String) :
    requireGuestResult result line description = .ok () ↔ grep (whole line) result = true := by
  unfold requireGuestResult
  split <;> simp_all

/-- What the log has to show for the extra checks. -/
@[mk_iff] structure ExtrasLogged (env : ValidateEnv) (log : Text) : Prop where
  timer : extraCheckEnabled env "timer" = true → grep pitDue log = true ∧ grep pitInject log = true
  irq : extraCheckEnabled env "irq" = true →
    [irqPoll, irqPending].any (grep · log) = true ∧ [intxPending, irqEoi].any (grep · log) = true
  mmio : extraCheckEnabled env "mmio" = true → grep (.alt mmioUnhandled emuDeviceFailed) log = false

/-- What the result file has to tell; `has` is about its lines. -/
@[mk_iff] structure Told (env : ValidateEnv) (has : Text → Prop) : Prop where
  pass : has "AXVISOR_X86_NATIVE_GUEST_PASS=1"
  devVda : has "HAS_DEV_VDA=1"
  sysBlockVda : has "HAS_SYS_BLOCK_VDA=1"
  rootMountFs : has "ROOT_MOUNT_FS=ext4"
  expectedCpus : has ("EXPECTED_GUEST_CPUS=" ++ env.cpuNum)
  cpuinfo : has ("CPUINFO_PROCESSOR_COUNT=" ++ env.cpuNum)
  online : has ("CPU_ONLINE_COUNT=" ++ env.cpuNum)
  writeTest : has "SMOKE_WRITE_TEST=1"
  timer : extraCheckEnabled env "timer" = true → has "TIMER_CHECK=1" ∧
    has "TIMER_MONOTONIC_OK=1" ∧ has "TIMER_SLEEP_WAKE_OK=1"
  irq : extraCheckEnabled env "irq" = true → has "IRQ_CHECK=1" ∧
    has "IRQ_VIRTIO_DELTA_POSITIVE=1"
  mmio : extraCheckEnabled env "mmio" = true → has "MMIO_CHECK=1" ∧
    has "MMIO_VIRTIO_RW_ITERATIONS=8" ∧ has "MMIO_VIRTIO_RW_OK=1"

theorem requireQemuLog_iff (log : Text) (pattern : Re) (description : String) :
    requireQemuLog log pattern description = .ok () ↔ grep pattern log = true := by
  rw [requireQemuLog, requireQemuLogAny_iff]
  simp

theorem rejectQemuLog_iff (log : Text) (pattern : Re) (description : String) :
    rejectQemuLog log pattern description = .ok () ↔ grep pattern log = false := by
  rw [rejectQemuLog, if_error_iff, Bool.not_eq_true]

theorem optional_ok_iff {c : Bool} {m k : Except Text Unit} {p : Prop}
    (h : m = .ok () ↔ p ∧ k = .ok ()) :
    (if c = true then m else k) = .ok () ↔ (c = true → p) ∧ k = .ok () := by
  cases c with
  | false => simp
  | true => simpa using h

theorem and_four {a b c d k : Prop} : a ∧ b ∧ c ∧ d ∧ k ↔ (a ∧ b ∧ c ∧ d) ∧ k := by
  simp only [and_assoc]

theorem and_five {a b c d e k : Prop} : a ∧ b ∧ c ∧ d ∧ e ∧ k ↔ (a ∧ b ∧ c ∧ d ∧ e) ∧ k := by
  simp only [and_assoc]

theorem validateRootfsResult_iff (env : ValidateEnv) (log result : Text) :
    validateRootfsResult env log result = .ok () ↔
      Told env (fun line => grep (whole line) result = true) ∧ ExtrasLogged env log := by
  unfold validateRootfsResult
  simp only [bind_ok_iff, requireGuestResult_iff]
  rw [optional_ok_iff (by
      simp only [bind_ok_iff, requireQemuLog_iff, requireGuestResult_iff]
      exact and_five),
    optional_ok_iff (by
      simp only [bind_ok_iff, requireQemuLogAny_iff, requireGuestResult_iff]
      exact and_four),
    optional_ok_iff (by
      simp only [bind_ok_iff, rejectQemuLog_iff, requireGuestResult_iff]
      exact (and_iff_left rfl).symm)]
  constructor
  · rintro ⟨h1, h2, h3, h4, h5, h6, h7, h8, ht, hi, hm, -⟩
    exact ⟨⟨h1, h2, h3, h4, h5, h6, h7, h8, fun h => (ht h).2.2, fun h => (hi h).2.2,
      fun h => (hm h).2⟩, fun h => ⟨(ht h).1, (ht h).2.1⟩, fun h => ⟨(hi h).1, (hi h).2.1⟩,
      fun h => (hm h).1⟩
  · rintro ⟨ht, hl⟩
    exact ⟨ht.pass, ht.devVda, ht.sysBlockVda, ht.rootMountFs, ht.expectedCpus, ht.cpuinfo, ht.online,
      ht.writeTest, fun h => ⟨(hl.timer h).1, (hl.timer h).2, ht.timer h⟩,
      fun h => ⟨(hl.irq h).1, (hl.irq h).2, ht.irq h⟩, fun h => ⟨hl.mmio h, ht.mmio h⟩, rfl⟩

/-! ## The lines of the result file -/

/-- `NAME=value`. -/
def entryLine (e : String × Text) : Text := e.1.toList ++ '=' :: e.2

/-- The file from `HAS_DEV_VDA` on. -/
def body (awk : Awk.Ordered Num) (g : Machine) : List Text :=
  (g.entries awk).map entryLine ++
    "PROC_MOUNTS_BEGIN".toList :: g.mounts.map (·.1) ++ ["PROC_MOUNTS_END".toList]

theorem flatten_assign (es : List (String × Text)) :
    (es.map fun e => assign e.1 e.2).flatten = above (es.map entryLine) := by
  induction es with
  | nil => rfl
  | cons e es ih =>
    rw [List.map_cons, List.flatten_cons, ih, List.map_cons, above_cons]
    simp [assign, entryLine]

theorem result_eq : g.result awk = entryLine ("AXVISOR_X86_NATIVE_GUEST_PASS", ['1']) ++ '\n' ::
    ("DATE=" ++ (printed g.date ++ ("UNAME=" ++ (printed g.uname ++
      ("CMDLINE=" ++ (printed g.cmdline ++ above (body awk g))))))) := by
  have hbegin : "PROC_MOUNTS_BEGIN\n" = "PROC_MOUNTS_BEGIN" ++ ['\n'] := by decide
  have hend : "PROC_MOUNTS_END\n" = "PROC_MOUNTS_END" ++ ['\n'] := by decide
  rw [Machine.result, Machine.writes, body, above_append, above_append, above_cons, hbegin, hend,
    List.flatten_append, List.flatten_append, flatten_assign]
  simp only [List.flatten_cons, List.flatten_nil, assign, entryLine, above_cons, above_nil,
    List.append_assoc, List.cons_append, List.nil_append, List.append_nil]

/-- A label and what a command prints after it, if anything: what comes next is not affected, except
that its first line does not stand for itself when nothing has been printed. -/
theorem mem_lines_label {label t rest : Text} {o : Option Line} (hnl : '\n' ∉ label)
    (ht : ¬ label <+: t) :
    (t ∈ lines (label ++ (printed o ++ rest)) ↔
      if o.isSome then t ∈ lines rest else t ∈ (lines rest).tail) ∧
    (t ∈ (lines (label ++ (printed o ++ rest))).tail ↔
      if o.isSome then t ∈ lines rest else t ∈ (lines rest).tail) := by
  cases o with
  | some l =>
    have hlines : lines (label ++ (printed (some l) ++ rest)) = (label ++ l.1) :: lines rest := by
      have hl : '\n' ∉ label ++ l.1 := by
        rw [List.mem_append]
        exact not_or.2 ⟨hnl, l.2⟩
      have heq : label ++ (printed (some l) ++ rest) = (label ++ l.1) ++ '\n' :: rest := by
        simp [printed]
      rw [heq, lines_append, lines_of_not_mem hl, List.singleton_append]
    have hne : t ≠ label ++ l.1 := fun h => ht (h ▸ List.prefix_append _ _)
    simp [hlines, hne]
  | none =>
    obtain ⟨l, ls, hls⟩ := List.exists_cons_of_ne_nil (lines_ne_nil rest)
    have hlines : lines (label ++ (printed none ++ rest)) = (label ++ l) :: ls := by
      change lines (label ++ rest) = _
      clear ht
      induction label with
      | nil => exact hls
      | cons c label ih =>
        rw [List.mem_cons, not_or] at hnl
        rw [List.cons_append, lines_cons (Ne.symm hnl.1) (ih hnl.2)]
        rfl
    have hne : t ≠ label ++ l := fun h => ht (h ▸ List.prefix_append _ _)
    simp [hlines, hls, hne]

/-- The characters of names. -/
def nameChar (c : Char) : Bool := c.isUpper || c.isDigit || c == '_'

/-- The names of the entries. -/
def Named (name : String) : Prop := ∀ c ∈ name.toList, nameChar c = true

theorem named_lit {s : String} {l : List Char} (h : s = String.ofList l)
    (hl : ∀ c ∈ l, nameChar c = true) : Named s := by
  rw [Named, h, String.toList_ofList]
  exact hl

theorem Named.not_mem (h : Named name) {c : Char} (hc : nameChar c = false) : c ∉ name.toList := by
  intro hmem
  rw [h c hmem] at hc
  cases hc

theorem named_entries : ∀ e ∈ g.entries awk, Named e.1 := by
  simp only [Machine.entries, List.forall_mem_cons, List.not_mem_nil, false_implies, implies_true,
    and_true]
  and_intros <;> exact named_lit rfl (by decide)

theorem entryLine_inj {m n : String} {w : Text} (hm : Named m) (hn : Named n) :
    entryLine (m, v) = entryLine (n, w) ↔ (m, v) = (n, w) := by
  constructor
  · intro h
    obtain ⟨hname, hvalue⟩ := append_cons_inj (hm.not_mem (by decide)) (hn.not_mem (by decide)) h
    exact Prod.ext (String.toList_inj.1 hname) hvalue
  · intro h
    rw [h]

/-! ## Values -/

theorem newline_not_mem_flag (b : Bool) : '\n' ∉ flag b := by
  cases b <;> decide

theorem newline_not_mem_orElse {t : Text} {default : String} (ht : '\n' ∉ t)
    (hd : '\n' ∉ default.toList) : '\n' ∉ orElse t default := by
  unfold orElse
  split
  · exact hd
  · exact ht

theorem newline_not_mem_rootMount (i : Nat) : '\n' ∉ rootMount i g.mounts := by
  unfold rootMount
  cases g.mounts.find? fun l => Awk.field l.1 2 == ['/'] with
  | none => exact List.not_mem_nil
  | some l => exact Awk.newline_not_mem_field l.2 i

theorem newline_not_mem_cpuinfo (cpuinfo : Option Text) :
    '\n' ∉ cpuinfoProcessorCount awk cpuinfo := by
  cases cpuinfo with
  | none => exact (by decide : '\n' ∉ ['0'])
  | some t => exact awk.newline_notMem_text _

theorem newline_not_mem_irqVirtioCount (awk : Awk.Ordered Num) (interrupts : Option Text) :
    '\n' ∉ irqVirtioCount awk interrupts := by
  cases interrupts with
  | none => exact (by decide : '\n' ∉ ['0'])
  | some t => exact awk.newline_notMem_text _

theorem newline_not_mem_cpuOnlineList : '\n' ∉ g.cpuOnlineList := by
  unfold Machine.cpuOnlineList
  cases g.cpuOnline with
  | none => decide
  | some l => exact l.2

theorem newline_not_mem_ifChecked {check : String} {value : Text} (h : '\n' ∉ value) :
    '\n' ∉ g.ifChecked check value := by
  unfold Machine.ifChecked
  split
  · exact h
  · decide

theorem unbroken_entries : ∀ e ∈ g.entries awk, '\n' ∉ e.2 := by
  have hflag := newline_not_mem_flag
  have hcount := newline_not_mem_irqVirtioCount awk
  have hchecked {check : String} {value : Text} (h : '\n' ∉ value) :
      '\n' ∉ g.ifChecked check value := newline_not_mem_ifChecked h
  simp only [Machine.entries, List.forall_mem_cons, List.not_mem_nil, false_implies, implies_true,
    and_true]
  exact ⟨hflag _, hflag _, newline_not_mem_orElse (newline_not_mem_rootMount 1) (by decide),
    newline_not_mem_orElse (newline_not_mem_rootMount 3) (by decide), g.expectedCpus.2,
    newline_not_mem_orElse (newline_not_mem_cpuinfo _) (by decide),
    newline_not_mem_orElse newline_not_mem_cpuOnlineList (by decide),
    newline_not_mem_orElse (awk.newline_notMem_text _) (by decide), hflag _, g.extraChecks.2,
    hchecked (by decide), hchecked g.uptimeBefore.2, hchecked g.uptimeAfter.2,
    hchecked g.timerDeltaMs.2, hchecked (hflag _), hchecked (hflag _), hchecked (by decide),
    hchecked (hcount _), hchecked (hcount _), hchecked (awk.newline_notMem_text _),
    hchecked (hflag _), hchecked (by decide), hchecked (by decide), hchecked (hflag _)⟩

theorem unbroken_body : Unbroken (body awk g) := by
  intro l hl
  simp only [body, List.mem_append, List.mem_cons, List.mem_map, List.not_mem_nil, or_false] at hl
  rcases hl with (⟨e, he, rfl⟩ | rfl | ⟨m, -, rfl⟩) | rfl
  · rw [entryLine, List.mem_append, List.mem_cons]
    exact not_or.2 ⟨(named_entries e he).not_mem (by decide),
      not_or.2 ⟨by decide, unbroken_entries e he⟩⟩
  · decide
  · exact m.2
  · decide

/-! ## Which entries are lines -/

/-- An entry among the lines of the body; a value without blanks is on no line of the mounts. -/
theorem mem_body (hname : Named name) (hv : ' ' ∉ v) {es : List (String × Text)}
    (hes : ∀ e ∈ es, Named e.1) :
    entryLine (name, v) ∈ es.map entryLine ++
      "PROC_MOUNTS_BEGIN".toList :: g.mounts.map (·.1) ++ ["PROC_MOUNTS_END".toList] ++ [[]] ↔
      (name, v) ∈ es := by
  have heq : '=' ∈ entryLine (name, v) := by simp [entryLine]
  have hblank : ' ' ∉ entryLine (name, v) := by
    rw [entryLine, List.mem_append, List.mem_cons]
    exact not_or.2 ⟨hname.not_mem (by decide), not_or.2 ⟨by decide, hv⟩⟩
  constructor
  · intro h
    simp only [List.mem_append, List.mem_cons, List.mem_map, List.not_mem_nil, or_false] at h
    rcases h with ((⟨e, he, h⟩ | h | ⟨m, hm, h⟩) | h) | h
    · obtain ⟨n, w⟩ := e
      rwa [(entryLine_inj (hes _ he) hname).1 h] at he
    · exact absurd (h ▸ heq) (by decide)
    · exact absurd (h ▸ g.blank_mem_mounts m hm) hblank
    · exact absurd (h ▸ heq) (by decide)
    · exact absurd (h ▸ heq) (by decide)
  · intro h
    have hmem : entryLine (name, v) ∈ es.map entryLine := List.mem_map_of_mem h
    simp only [List.append_assoc, List.mem_append]
    exact .inl hmem

theorem not_label_isPrefix {label : String} (hlabel : Named label) (hname : Named name)
    (hne : label ≠ name) {t : String} (ht : t.toList = label.toList ++ ['=']) :
    ¬ t.toList <+: entryLine (name, v) := by
  rintro ⟨r, hr⟩
  rw [ht, List.append_assoc, List.singleton_append, entryLine] at hr
  have h := append_cons_inj (hlabel.not_mem (by decide)) (hname.not_mem (by decide)) hr
  exact hne (String.toList_inj.1 h.1)

/-- Names that are not those of the first lines. -/
structure Entry (name : String) : Prop where
  named : Named name
  ne_date : "DATE" ≠ name
  ne_uname : "UNAME" ≠ name
  ne_cmdline : "CMDLINE" ≠ name
  ne_pass : name ≠ "AXVISOR_X86_NATIVE_GUEST_PASS"

/-- **The lines of the result file.** Without `/proc/cmdline` the first entry is lost. -/
theorem mem_lines_result (h : Entry name) (hv : ' ' ∉ v) :
    entryLine (name, v) ∈ lines (g.result awk) ↔
      if g.cmdline.isSome then (name, v) ∈ g.entries awk else (name, v) ∈ (g.entries awk).tail := by
  have hdate : ¬ "DATE=".toList <+: entryLine (name, v) :=
    not_label_isPrefix (named_lit rfl (by decide)) h.named h.ne_date (by decide)
  have huname : ¬ "UNAME=".toList <+: entryLine (name, v) :=
    not_label_isPrefix (named_lit rfl (by decide)) h.named h.ne_uname (by decide)
  have hcmdline : ¬ "CMDLINE=".toList <+: entryLine (name, v) :=
    not_label_isPrefix (named_lit rfl (by decide)) h.named h.ne_cmdline (by decide)
  have hpass : entryLine (name, v) ≠ entryLine ("AXVISOR_X86_NATIVE_GUEST_PASS", ['1']) := by
    rw [Ne, entryLine_inj h.named (named_lit rfl (by decide))]
    exact fun he => h.ne_pass (congrArg Prod.fst he)
  have hfirst : '\n' ∉ entryLine ("AXVISOR_X86_NATIVE_GUEST_PASS", ['1']) := by decide
  have hbody : lines (above (body awk g)) = body awk g ++ [[]] := lines_above unbroken_body
  have htail : (body awk g ++ [[]]).tail = (g.entries awk).tail.map entryLine ++
      "PROC_MOUNTS_BEGIN".toList :: g.mounts.map (·.1) ++ ["PROC_MOUNTS_END".toList] ++ [[]] := rfl
  rw [result_eq, lines_append, lines_of_not_mem hfirst, List.singleton_append, List.mem_cons,
    or_iff_right hpass]
  simp only [(mem_lines_label (by decide) hdate).1, (mem_lines_label (by decide) huname).1,
    (mem_lines_label (by decide) huname).2, (mem_lines_label (by decide) hcmdline).1,
    (mem_lines_label (by decide) hcmdline).2, ite_self, hbody, htail]
  rw [body, mem_body h.named hv named_entries,
    mem_body h.named hv fun e he => named_entries e (List.mem_of_mem_tail he)]

/-! ## The verdict on the result file -/

theorem flag_eq_one {b : Bool} : flag b = ['1'] ↔ b = true := by
  cases b <;> decide

theorem entry_entries (awk : Awk.Ordered Num) (g : Machine) : ∀ e ∈ g.entries awk, Entry e.1 := by
  intro e he
  refine ⟨named_entries e he, ?_, ?_, ?_, ?_⟩ <;> revert e <;>
    simp only [Machine.entries, List.forall_mem_cons, List.not_mem_nil, false_implies, implies_true,
      and_true] <;>
    decide

/-- An entry other than the first one is a line of the file in any case. -/
theorem grep_entry {line : Text} (name : String) {w : Text} (hline : line = entryLine (name, v))
    (hw : ∀ v, (name, v) ∈ (g.entries awk).tail ↔ w = v) (hne : name ≠ "HAS_DEV_VDA") (hv : ' ' ∉ v) :
    grep (whole line) (g.result awk) = true ↔ w = v := by
  have hentry : Entry name := entry_entries awk g _ (List.mem_of_mem_tail ((hw w).2 rfl))
  have hfirst : (name, v) ∈ g.entries awk ↔ (name, v) ∈ (g.entries awk).tail := by
    change (name, v) ∈ ("HAS_DEV_VDA", flag g.late.devVda) :: (g.entries awk).tail ↔ _
    rw [List.mem_cons, or_iff_right fun he => hne (congrArg Prod.fst he)]
  rw [hline, grep_whole_iff (by simp [entryLine]), mem_lines_result hentry hv, hfirst, ite_self, hw]

theorem grep_pass :
    grep (whole "AXVISOR_X86_NATIVE_GUEST_PASS=1") (g.result awk) = true := by
  have hline : "AXVISOR_X86_NATIVE_GUEST_PASS=1" =
      entryLine ("AXVISOR_X86_NATIVE_GUEST_PASS", ['1']) := by decide
  rw [hline, grep_whole_iff (by decide), result_eq, lines_append, lines_of_not_mem (by decide)]
  exact List.mem_append_left _ List.mem_cons_self

theorem grep_devVda : grep (whole "HAS_DEV_VDA=1") (g.result awk) = true ↔
    g.cmdline.isSome = true ∧ g.late.devVda = true := by
  have hline : "HAS_DEV_VDA=1" = entryLine ("HAS_DEV_VDA", ['1']) := by decide
  have hentry : Entry "HAS_DEV_VDA" := entry_entries awk g _ List.mem_cons_self
  have hmem : ("HAS_DEV_VDA", ['1']) ∈ g.entries awk ↔ flag g.late.devVda = ['1'] := by
    simp [Machine.entries, eq_comm]
  have htail : ("HAS_DEV_VDA", ['1']) ∉ (g.entries awk).tail := by
    simp [Machine.entries]
  rw [hline, grep_whole_iff (by decide), mem_lines_result hentry (by decide), hmem, flag_eq_one]
  cases g.cmdline with
  | none => simpa using htail
  | some l => simp

theorem append_label {label : String} (h : label.toList = name.toList ++ ['=']) :
    label.toList ++ v = entryLine (name, v) := by
  rw [h, List.append_assoc]
  rfl

theorem hasExtraCheck_eq (hextra : g.extraChecks.1 = env.extraChecks) (check : String) :
    g.hasExtraCheck check = extraCheckEnabled env check := by
  rw [Machine.hasExtraCheck, extraCheckEnabled, hextra]

theorem grep_checked {line : Text} (name : String) {check : String} {w : Text}
    (hline : line = entryLine (name, v))
    (hw : ∀ v, (name, v) ∈ (g.entries awk).tail ↔ g.ifChecked check w = v)
    (hne : name ≠ "HAS_DEV_VDA") (hv : ' ' ∉ v) (hcheck : g.hasExtraCheck check = true) :
    grep (whole line) (g.result awk) = true ↔ w = v := by
  rw [grep_entry name hline hw hne hv, Machine.ifChecked, if_pos hcheck]

theorem rootMountFs_iff : orElse (rootMount 3 g.mounts) "unknown" = "ext4" ↔
    rootMount 3 g.mounts = "ext4" := by
  unfold orElse
  split
  · next h =>
    rw [h]
    decide
  · rfl

theorem grep_timer (h : g.hasExtraCheck "timer" = true) :
    (grep (whole "TIMER_CHECK=1") (g.result awk) = true ∧
      grep (whole "TIMER_MONOTONIC_OK=1") (g.result awk) = true ∧
      grep (whole "TIMER_SLEEP_WAKE_OK=1") (g.result awk) = true) ↔
      g.timerMonotonicOk = true ∧ g.timerSleepWakeOk = true := by
  have hmade : grep (whole "TIMER_CHECK=1") (g.result awk) = true ↔ ['1'] = ['1'] :=
    grep_checked "TIMER_CHECK" (by decide) (fun v => by simp [Machine.entries, eq_comm])
      (by decide) (by decide) h
  have hmonotonic : grep (whole "TIMER_MONOTONIC_OK=1") (g.result awk) = true ↔
      flag g.timerMonotonicOk = ['1'] :=
    grep_checked "TIMER_MONOTONIC_OK" (by decide) (fun v => by simp [Machine.entries, eq_comm])
      (by decide) (by decide) h
  have hwake : grep (whole "TIMER_SLEEP_WAKE_OK=1") (g.result awk) = true ↔
      flag g.timerSleepWakeOk = ['1'] :=
    grep_checked "TIMER_SLEEP_WAKE_OK" (by decide) (fun v => by simp [Machine.entries, eq_comm])
      (by decide) (by decide) h
  rw [hmade, hmonotonic, hwake, flag_eq_one, flag_eq_one, eq_self_iff_true, true_and]

theorem grep_irq (h : g.hasExtraCheck "irq" = true) :
    (grep (whole "IRQ_CHECK=1") (g.result awk) = true ∧
      grep (whole "IRQ_VIRTIO_DELTA_POSITIVE=1") (g.result awk) = true) ↔
      g.irqVirtioDeltaPositive awk = true := by
  have hmade : grep (whole "IRQ_CHECK=1") (g.result awk) = true ↔ ['1'] = ['1'] :=
    grep_checked "IRQ_CHECK" (by decide) (fun v => by simp [Machine.entries, eq_comm])
      (by decide) (by decide) h
  have hdelta : grep (whole "IRQ_VIRTIO_DELTA_POSITIVE=1") (g.result awk) = true ↔
      flag (g.irqVirtioDeltaPositive awk) = ['1'] :=
    grep_checked "IRQ_VIRTIO_DELTA_POSITIVE" (by decide)
      (fun v => by simp [Machine.entries, eq_comm]) (by decide) (by decide) h
  rw [hmade, hdelta, flag_eq_one, eq_self_iff_true, true_and]

theorem grep_mmio (h : g.hasExtraCheck "mmio" = true) :
    (grep (whole "MMIO_CHECK=1") (g.result awk) = true ∧
      grep (whole "MMIO_VIRTIO_RW_ITERATIONS=8") (g.result awk) = true ∧
      grep (whole "MMIO_VIRTIO_RW_OK=1") (g.result awk) = true) ↔
      g.mmioVirtioRwOk = true := by
  have hmade : grep (whole "MMIO_CHECK=1") (g.result awk) = true ↔ ['1'] = ['1'] :=
    grep_checked "MMIO_CHECK" (by decide) (fun v => by simp [Machine.entries, eq_comm])
      (by decide) (by decide) h
  have hrounds : grep (whole "MMIO_VIRTIO_RW_ITERATIONS=8") (g.result awk) = true ↔
      ['8'] = ['8'] :=
    grep_checked "MMIO_VIRTIO_RW_ITERATIONS" (by decide)
      (fun v => by simp [Machine.entries, eq_comm]) (by decide) (by decide) h
  have hrw : grep (whole "MMIO_VIRTIO_RW_OK=1") (g.result awk) = true ↔
      flag g.mmioVirtioRwOk = ['1'] :=
    grep_checked "MMIO_VIRTIO_RW_OK" (by decide) (fun v => by simp [Machine.entries, eq_comm])
      (by decide) (by decide) h
  rw [hmade, hrounds, hrw, flag_eq_one, eq_self_iff_true, eq_self_iff_true, true_and, true_and]

/-- **What the verifier makes of the result file.** It accepts the file of a sound guest and of no
other. -/
theorem result_accepted_iff (hcpu : ' ' ∉ env.cpuNum) (hextra : g.extraChecks.1 = env.extraChecks) :
    validateRootfsResult env log (g.result awk) = .ok () ↔
      g.Sound awk env ∧ ExtrasLogged env log := by
  have hcheck := hasExtraCheck_eq hextra
  have hsys : grep (whole "HAS_SYS_BLOCK_VDA=1") (g.result awk) = true ↔
      flag g.late.sysBlockVda = ['1'] :=
    grep_entry "HAS_SYS_BLOCK_VDA" (by decide) (fun v => by simp [Machine.entries, eq_comm])
      (by decide) (by decide)
  have hfs : grep (whole "ROOT_MOUNT_FS=ext4") (g.result awk) = true ↔
      orElse (rootMount 3 g.mounts) "unknown" = "ext4" :=
    grep_entry "ROOT_MOUNT_FS" (by decide) (fun v => by simp [Machine.entries, eq_comm])
      (by decide) (by decide)
  have hwrite : grep (whole "SMOKE_WRITE_TEST=1") (g.result awk) = true ↔
      flag g.late.writeTest = ['1'] :=
    grep_entry "SMOKE_WRITE_TEST" (by decide) (fun v => by simp [Machine.entries, eq_comm])
      (by decide) (by decide)
  have hexpected : grep (whole ("EXPECTED_GUEST_CPUS=" ++ env.cpuNum)) (g.result awk) =
      true ↔ g.expectedCpus.1 = env.cpuNum :=
    grep_entry "EXPECTED_GUEST_CPUS" (append_label (by decide))
      (fun v => by simp [Machine.entries, eq_comm]) (by decide) hcpu
  have hcpuinfo : grep (whole ("CPUINFO_PROCESSOR_COUNT=" ++ env.cpuNum)) (g.result awk) =
      true ↔ orElse (cpuinfoProcessorCount awk g.cpuinfo) "0" = env.cpuNum :=
    grep_entry "CPUINFO_PROCESSOR_COUNT" (append_label (by decide))
      (fun v => by simp [Machine.entries, eq_comm]) (by decide) hcpu
  have honline : grep (whole ("CPU_ONLINE_COUNT=" ++ env.cpuNum)) (g.result awk) = true ↔
      orElse (g.cpuOnlineCount awk) "0" = env.cpuNum :=
    grep_entry "CPU_ONLINE_COUNT" (append_label (by decide))
      (fun v => by simp [Machine.entries, eq_comm]) (by decide) hcpu
  rw [flag_eq_one] at hsys hwrite
  rw [rootMountFs_iff] at hfs
  rw [validateRootfsResult_iff]
  refine and_congr_left fun _ => ⟨fun h => ?_, fun h => ?_⟩
  · have hdev := grep_devVda.1 h.devVda
    refine ⟨hdev.1, hdev.2, hsys.1 h.sysBlockVda, hfs.1 h.rootMountFs, hexpected.1 h.expectedCpus,
      hcpuinfo.1 h.cpuinfo, honline.1 h.online, hwrite.1 h.writeTest, fun hc => ?_, fun hc => ?_,
      fun hc => ?_⟩
    · exact (grep_timer hc).1 (h.timer (hcheck _ ▸ hc))
    · exact (grep_irq hc).1 (h.irq (hcheck _ ▸ hc))
    · exact (grep_mmio hc).1 (h.mmio (hcheck _ ▸ hc))
  · refine ⟨grep_pass, grep_devVda.2 ⟨h.cmdline, h.devVda⟩, hsys.2 h.sysBlockVda,
      hfs.2 h.rootMountFs, hexpected.2 h.expectedCpus, hcpuinfo.2 h.cpuinfo, honline.2 h.online,
      hwrite.2 h.writeTest, fun hc => ?_, fun hc => ?_, fun hc => ?_⟩
    · exact (grep_timer ((hcheck _).trans hc)).2 (h.timer ((hcheck _).trans hc))
    · exact (grep_irq ((hcheck _).trans hc)).2 (h.irq ((hcheck _).trans hc))
    · exact (grep_mmio ((hcheck _).trans hc)).2 (h.mmio ((hcheck _).trans hc))

/-- A guest with one CPU in which everything works. -/
def oneCpu : Machine where
  expectedCpus := ⟨['1'], by decide⟩
  extraChecks := ⟨[], by decide⟩
  procRc := 0
  sysRc := 0
  devRc := 0
  uname := some ⟨"Linux", by decide⟩
  date := none
  cmdline := some ⟨"root=/dev/vda", by decide⟩
  early := ⟨true, true, true⟩
  late := ⟨true, true, true⟩
  mounts := [⟨"/dev/vda / ext4 rw 0 0", by decide⟩]
  blank_mem_mounts := by decide
  cpuinfo := some "processor\t: 0\n"
  cpuOnline := some ⟨['0'], by decide⟩
  uptimeBefore := ⟨['0'], by decide⟩
  uptimeAfter := ⟨['1'], by decide⟩
  timerDeltaMs := ⟨['0'], by decide⟩
  timerMonotonicOk := true
  timerSleepWakeOk := true
  interruptsBefore := none
  interruptsAfter := none
  ddOk _ := true
  sizeOk _ := true
  appendOk _ := true
  syncOk _ := true
  exitPort := none

/-- A run without extra checks. -/
def noExtras : ValidateEnv := ⟨.rootfs, [], ['1']⟩

theorem sound_oneCpu : oneCpu.Sound Awk.orderedDouble noExtras := by
  refine ⟨rfl, rfl, rfl, by decide +kernel, rfl, by decide +kernel, by decide +kernel, rfl,
    ?_, ?_, ?_⟩ <;>
    intro h <;> exact absurd h (by decide +kernel)

end Smoke.GuestInit
