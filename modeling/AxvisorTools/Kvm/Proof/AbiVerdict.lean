import AxvisorTools.Eval.Proof.Imported
import AxvisorTools.Kvm.Proof.AbiSmoke
import AxvisorTools.Kvm.Proof.Verdict
import AxvisorTools.Kvm.Proof.Wait

/-!
# What the log of the KVM ABI smoke test tells

`Console g noise log`: the log holds the lines of the guest `g` and other lines, in any order.
`pass_on_console_iff`: the marker of a pass is in it exactly when the guest is sound. From that the
verdict of the verifier (`abi_verifier_verdict`) and what the paper evaluation makes of the log
(`kvm_abi_import`).
-/

namespace Kvm.AbiSmoke

open Checks Shell Regex Py Harness

variable {ms : List Text} {a : Text} {p : Program Reply} {replies : Nat → Reply} {ts : List Test}

/-! ## The guest -/

section Guest

variable {g : Guest}

/-- The assumptions on the guest: a name for the device, and error texts that are no markers. -/
structure Guest.Ordinary (g : Guest) : Prop where
  devName : ∀ c ∈ g.devName, plainChar c = true
  strerror : ∀ e, Lacks [passStem] (g.strerror e)

theorem Guest.Ordinary.dev (h : g.Ordinary) : ∀ c ∈ g.dev, plainChar c = true := by
  intro c hc
  rcases List.mem_append.1 hc with hc | hc
  · exact (by decide : ∀ c ∈ "/dev/".toList, plainChar c = true) c hc
  · exact h.devName c hc

/-- What a test leaves on the console. -/
structure Test.Ordinary (t : Test) : Prop where
  title : Lacks stems t.title
  label : Lacks [passStem] (failLine t.label)
  output : ∀ e, t.outcome = some e → Tidy [passStem] (e.stdout ++ e.stderr)
  passed : ∀ e, t.outcome = some e → e.status = 0 → Tidy stems (e.stdout ++ e.stderr)

theorem ordinary_program {title label : Text} (htitle : Lacks stems title)
    (hlabel : Lacks [passStem] (failLine label)) (hp : Prints stems p)
    (hc : ∀ c ∈ p.checks, Discreet c) : Test.Ordinary ⟨title, label, some (p.run replies)⟩ := by
  have hp' : Prints [passStem] p :=
    ⟨fun t ht => (hp.line t ht).mono (by simp [stems]), fun r => (hp.report r).mono (by simp [stems])⟩
  refine ⟨htitle, hlabel, ?_, ?_⟩
  · rintro e ⟨⟩
    exact hp'.run marking_pass hc
  · rintro e ⟨⟩ he
    exact hp.run_satisfied marking_stems (run_status_eq_zero_iff.1 he)

theorem ordinary_tests (h : g.Ordinary) : ∀ t ∈ g.tests, t.Ordinary := by
  simp only [Guest.tests, List.forall_mem_cons]
  refine ⟨ordinary_program ?_ ?_ (prints_apiSmoke h.dev) (complains_apiSmoke h.strerror),
    ordinary_program ?_ ?_ (prints_memVcpuSmoke h.dev) (complains_memVcpuSmoke h.strerror), ?_,
    ordinary_program ?_ ?_ (prints_negativeSmoke h.dev) (complains_negativeSmoke h.strerror),
    List.forall_mem_nil _⟩
  case refine_5 =>
    refine ⟨?_, ?_, fun e he => ?_, fun e he hstatus => ?_⟩
    · exact lacks_lit rfl (by decide)
    · change Lacks [passStem] (failLine "concurrent-run-smoke")
      decide
    · rcases result_cases (w := g.world) h.strerror he with ⟨args, rfl⟩ | ⟨-, hout, herr⟩
      · rw [List.append_nil]
        exact (tidy_passText h.dev args).mono (by simp [stems])
      · rw [hout]
        exact herr
    · rcases result_cases (w := g.world) h.strerror he with ⟨args, rfl⟩ | ⟨hone, -⟩
      · rw [List.append_nil]
        exact tidy_passText h.dev args
      · rw [hone] at hstatus
        cases hstatus
  · exact lacks_lit rfl (by decide)
  · decide
  · exact lacks_lit rfl (by decide)
  · decide
  · exact lacks_lit rfl (by decide)
  · decide

/-- A test has ended with the status 0. -/
def Test.Passes (t : Test) : Prop := ∃ e, t.outcome = some e ∧ e.status = 0

theorem runTests_cons_of_passes {t : Test} {e : Exit} (h : t.outcome = some e) (he : e.status = 0) :
    runTests (t :: ts) = t.title :: (fileLines (e.stdout ++ e.stderr) ++ runTests ts) := by
  simp [runTests, h, he]

theorem Tidy.fileLines (h : Tidy ms a) {l : Text} (hl : l ∈ fileLines a) : Lacks ms l :=
  fun m hm hml => h.lacks m hm (hml.trans (infix_of_mem_fileLines hl))

/-- The marker of a pass is there only when all tests pass. -/
theorem passes_of_mem_runTests (h : ∀ t ∈ ts, t.Ordinary) {l : Text} (hl : l ∈ runTests ts)
    (hpass : passStem <:+: l) : ∀ t ∈ ts, t.Passes := by
  induction ts with
  | nil => exact List.forall_mem_nil _
  | cons t ts ih =>
    obtain ⟨ht, hts⟩ := List.forall_mem_cons.1 h
    have hstem : passStem ∈ [passStem] := List.mem_singleton_self _
    have htitle : ¬ passStem <:+: t.title := ht.title _ (by simp [stems])
    cases ho : t.outcome with
    | none =>
      rw [runTests, ho, List.mem_singleton] at hl
      exact absurd (hl ▸ hpass) htitle
    | some e =>
      rw [runTests, ho, List.mem_cons, List.mem_append] at hl
      rcases hl with rfl | hl | hl
      · exact absurd hpass htitle
      · exact absurd hpass ((ht.output e ho).fileLines hl _ hstem)
      · split at hl
        · rename_i hstatus
          exact List.forall_mem_cons.2 ⟨⟨e, ho, hstatus⟩, ih hts hl⟩
        · rw [List.mem_singleton] at hl
          exact absurd (hl ▸ hpass) (ht.label _ hstem)

/-- When all tests pass, nothing on the console tells of a failure. -/
theorem lacks_of_mem_runTests (h : ∀ t ∈ ts, t.Ordinary) (hpass : ∀ t ∈ ts, t.Passes) :
    ∀ l ∈ runTests ts, Lacks (upperStems ++ lowerStems) l := by
  have hsub : ∀ {l : Text}, Lacks stems l → Lacks (upperStems ++ lowerStems) l := fun hl m hm =>
    hl m (List.mem_cons_of_mem _ hm)
  induction ts with
  | nil =>
    intro l hl
    rw [List.mem_singleton.1 hl]
    exact lacks_lit rfl (by decide)
  | cons t ts ih =>
    obtain ⟨ht, hts⟩ := List.forall_mem_cons.1 h
    obtain ⟨⟨e, ho, he⟩, hrest⟩ := List.forall_mem_cons.1 hpass
    intro l hl
    rw [runTests_cons_of_passes ho he, List.mem_cons, List.mem_append] at hl
    rcases hl with rfl | hl | hl
    · exact hsub ht.title
    · exact hsub ((ht.passed e ho he).fileLines hl)
    · exact ih hts hrest l hl

theorem pass_mem_runTests (hpass : ∀ t ∈ ts, t.Passes) : passMarker ∈ runTests ts := by
  induction ts with
  | nil => exact List.mem_singleton_self _
  | cons t ts ih =>
    obtain ⟨⟨e, ho, he⟩, hrest⟩ := List.forall_mem_cons.1 hpass
    rw [runTests_cons_of_passes ho he]
    exact List.mem_cons_of_mem _ (List.mem_append_right _ (ih hrest))

theorem output_mem_runTests (hpass : ∀ t ∈ ts, t.Passes) {t : Test} (ht : t ∈ ts) {e : Exit}
    (ho : t.outcome = some e) {l : Text} (hl : l ∈ fileLines (e.stdout ++ e.stderr)) :
    l ∈ runTests ts := by
  induction ts with
  | nil => cases ht
  | cons u ts ih =>
    obtain ⟨⟨e', ho', he'⟩, hrest⟩ := List.forall_mem_cons.1 hpass
    rw [runTests_cons_of_passes ho' he']
    rcases List.mem_cons.1 ht with rfl | ht
    · obtain rfl : e = e' := Option.some.inj (ho.symm.trans ho')
      exact List.mem_cons_of_mem _ (List.mem_append_left _ hl)
    · exact List.mem_cons_of_mem _ (List.mem_append_right _ (ih hrest ht))

theorem sound_lines (h : g.Sound) : g.lines =
    "[guest] uname -a".toList :: ("[guest] insmod axvisor_kvm.ko dev_name=".toList ++ g.devName) ::
      runTests g.tests := by
  obtain ⟨hmkdir, huname, hinsmod, hdevice, -⟩ := h
  simp [Guest.lines, hmkdir, huname, hinsmod, hdevice]

theorem lacks_insmodLine (h : g.Ordinary) :
    Lacks stems ("[guest] insmod axvisor_kvm.ko dev_name=" ++ g.devName) := by
  have hsplit : "[guest] insmod axvisor_kvm.ko dev_name=" =
      "[guest] insmod axvisor_kvm.ko dev_name" ++ ['='] := by decide
  have hm := marking_stems
  rw [hsplit, List.append_assoc, List.singleton_append]
  exact (lacks_sep fun m hm' => (hm m hm').2.1).2 ⟨lacks_lit rfl (by decide),
    lacks_of_chars (fun m hm' => (hm m hm').2.2.2) h.devName⟩

/-- What is on the console, in some order with the lines of the kernel and of the other commands. -/
structure Console (g : Guest) (noise : List Text) (log : Text) : Prop where
  interleaved : ∃ ls : List Text, ls.Perm (g.lines ++ noise) ∧ log = crlf (above ls)

/-- The markers of crashes; the last two begin regular expressions. -/
def crashTexts : List Text :=
  ["Kernel panic", "panic:", "panicked at", "Oops:", "BUG:",
    "AXVISOR_X86_NATIVE_RUN_FAIL=", "vcpus::exit_reason mmio_", "emu_device "]

theorem infix_console_iff {noise : List Text} {log m : Text} (h : Console g noise log)
    (hn : '\n' ∉ m) (hr : '\r' ∉ m) (hne : m ≠ []) :
    m <:+: log ↔ ∃ l ∈ g.lines ++ noise, m <:+: l := by
  obtain ⟨ls, hperm, rfl⟩ := h.interleaved
  rw [infix_crlf_iff hn hr hne]
  constructor
  · intro hm
    rw [← List.append_nil (above ls)] at hm
    rcases infix_above_append hn [] hm with ⟨l, hl, hml⟩ | hml
    · exact ⟨l, hperm.mem_iff.1 hl, hml⟩
    · exact absurd (List.infix_nil.1 hml) hne
  · rintro ⟨l, hl, hml⟩
    exact infix_above (hperm.mem_iff.2 hl) hml

/-- The marker of a pass is on the console only when the guest is sound. -/
theorem sound_of_pass (h : g.Ordinary) {l : Text} (hl : l ∈ g.lines) (hpass : passStem <:+: l) :
    g.Sound := by
  have hstem : passStem ∈ stems := List.mem_cons_self
  have huname : ¬ passStem <:+: "[guest] uname -a" :=
    (lacks_lit rfl (by decide) : Lacks stems _) _ hstem
  have hfail : ∀ label ∈ ["insmod", "missing-dev-kvm"],
      ¬ passStem <:+: failLine label := by decide
  simp only [Guest.lines, Bool.not_eq_true', ← Bool.not_eq_true, ite_not] at hl
  split at hl
  · rename_i hmkdir
    rcases List.mem_cons.1 hl with rfl | hl
    · exact absurd hpass huname
    split at hl
    · rename_i hun
      rcases List.mem_cons.1 hl with rfl | hl
      · exact absurd hpass (lacks_insmodLine h _ hstem)
      split at hl
      · rename_i hinsmod
        split at hl
        · rename_i hdevice
          exact ⟨hmkdir, hun, hinsmod, hdevice, passes_of_mem_runTests (ordinary_tests h) hl hpass⟩
        · rw [List.mem_singleton.1 hl] at hpass
          exact absurd hpass (hfail _ (by simp))
      · rw [List.mem_singleton.1 hl] at hpass
        exact absurd hpass (hfail _ (by simp))
    · cases hl
  · cases hl

theorem lacks_of_sound (h : g.Ordinary) (hs : g.Sound) :
    ∀ l ∈ g.lines, Lacks (upperStems ++ lowerStems) l := by
  have hsub : ∀ {l : Text}, Lacks stems l → Lacks (upperStems ++ lowerStems) l := fun hl m hm =>
    hl m (List.mem_cons_of_mem _ hm)
  rw [sound_lines hs]
  refine List.forall_mem_cons.2 ⟨hsub (lacks_lit rfl (by decide)),
    List.forall_mem_cons.2 ⟨hsub (lacks_insmodLine h), ?_⟩⟩
  exact lacks_of_mem_runTests (ordinary_tests h) hs.2.2.2.2

/-! ## The console -/

section Console

variable {noise : List Text} {log : Text}

/-- The lines of the kernel and of the other commands have no markers. -/
def Harmless (noise : List Text) : Prop :=
  ∀ l ∈ noise, Lacks (passMarker :: failMarker :: crashTexts) l

theorem pass_on_console_iff (h : g.Ordinary) (hn : Harmless noise) (hlog : Console g noise log) :
    passMarker <:+: log ↔ g.Sound := by
  rw [infix_console_iff hlog (by decide) (by decide) (by decide)]
  constructor
  · rintro ⟨l, hl, hm⟩
    rcases List.mem_append.1 hl with hl | hl
    · exact sound_of_pass h hl ((by decide : passStem <:+: passMarker).trans hm)
    · exact absurd hm (hn l hl _ List.mem_cons_self)
  · intro hs
    refine ⟨passMarker, List.mem_append_left _ ?_, List.infix_rfl⟩
    rw [sound_lines hs]
    exact List.mem_cons_of_mem _ (List.mem_cons_of_mem _ (pass_mem_runTests hs.2.2.2.2))

/-- The console of a sound guest has neither a report of a failure nor a sign of a crash. -/
theorem quiet_console (h : g.Ordinary) (hs : g.Sound) (hn : Harmless noise)
    (hlog : Console g noise log) : ∀ m ∈ failMarker :: crashTexts, ¬ m <:+: log := by
  intro m hm hml
  obtain ⟨hnl, hcr, hne⟩ := (by decide :
    ∀ m ∈ failMarker :: crashTexts, '\n' ∉ m ∧ '\r' ∉ m ∧ m ≠ []) m hm
  obtain ⟨l, hl, hml⟩ := (infix_console_iff hlog hnl hcr hne).1 hml
  rcases List.mem_append.1 hl with hl | hl
  · obtain ⟨stem, hstem, hsub⟩ := (by decide : ∀ m ∈ failMarker :: crashTexts,
      ∃ stem ∈ upperStems ++ lowerStems, stem <:+: m) m hm
    exact lacks_of_sound h hs l hl stem hstem (hsub.trans hml)
  · exact hn l hl m (List.mem_cons_of_mem _ hm) hml

theorem infix_of_found_seq {a t : Text} {r : Re} (h : found (.seq (lit a) r) t = true) : a <:+: t := by
  obtain ⟨b, c, rfl, hrun⟩ := (found_iff _ _).1 h
  rw [run_seq_lit] at hrun
  split at hrun
  · rename_i hp
    obtain ⟨d, rfl⟩ := hp
    exact ⟨b, d, by simp⟩
  · exact absurd rfl hrun

theorem not_grep_crashMarkersFull {t : Text} (h : ∀ m ∈ crashTexts, ¬ m <:+: t) :
    grep crashMarkersFull t = false := by
  rw [← Bool.not_eq_true, grep, List.any_eq_true]
  rintro ⟨l, hl, hf⟩
  have hlt := infix_of_mem_fileLines hl
  have hlit : ∀ m ∈ crashTexts, found (lit m) l = true → False := fun m hm hfm =>
    h m hm (((found_lit m l).1 hfm).trans hlt)
  have hseq : ∀ m ∈ crashTexts, ∀ r, found (.seq (lit m) r) l = true → False := fun m hm r hfm =>
    h m hm ((infix_of_found_seq hfm).trans hlt)
  simp only [crashTexts, List.forall_mem_cons] at hlit hseq
  obtain ⟨h₁, h₂, h₃, h₄, h₅, h₆, -⟩ := hlit
  obtain ⟨-, -, -, -, -, -, h₇, h₈, -⟩ := hseq
  rw [crashMarkersFull, found_alts] at hf
  simp only [List.any_cons, List.any_nil, Bool.or_eq_true, Bool.or_false] at hf
  rcases hf with hf | hf | hf | hf | hf | hf | hf | hf
  · exact h₁ hf
  · exact h₂ hf
  · exact h₃ hf
  · exact h₄ hf
  · exact h₅ hf
  · exact h₆ hf
  · exact h₇ _ hf
  · exact h₈ _ hf

/-- **The verdict of the verifier is that on the guest**, in whatever pieces and however late the log
is written. -/
theorem abi_verifier_verdict (h : g.Ordinary) (hn : Harmless noise) {appends : List Text}
    (hlog : Console g noise appends.flatten) {s : Schedule appends} (hs : s.InASecond .abiSmoke) :
    (g.Sound → Watch.Returns Verifier.abiSmoke.loop s.env 0) ∧
      (¬ g.Sound → Watch.Returns Verifier.abiSmoke.loop s.env 1) := by
  have hpassed : Passed .abiSmoke appends ↔ g.Sound :=
    (grep_lit_iff (by decide) (by decide) _).trans (pass_on_console_iff h hn hlog)
  constructor
  · intro hsound
    have hfail : ¬ Failed .abiSmoke appends := quiet_console h hsound hn hlog _ List.mem_cons_self
    exact returns_of_passed (hpassed.2 hsound) hfail (complete_of_settle rfl hs)
  · intro hsound
    exact (exists_verdict s).resolve_left fun h0 =>
      hsound (hpassed.1 (passed_of_returns (lasting_fixed (.inl rfl) appends) h0))

/-! ## What a sound guest reports -/

theorem output_on_console (hs : g.Sound) (hlog : Console g noise log) {t : Test}
    (ht : t ∈ g.tests) {e : Exit} (ho : t.outcome = some e) {m : Text} (hnl : '\n' ∉ m)
    (hcr : '\r' ∉ m) (hne : m ≠ []) (hm : m <:+: e.stdout ++ e.stderr) : m <:+: log := by
  obtain ⟨l, hl, hml⟩ := (infix_iff_lines hnl _).1 hm
  have hl' : l ≠ [] := by
    rintro rfl
    exact hne (List.infix_nil.1 hml)
  rw [infix_console_iff hlog hnl hcr hne]
  refine ⟨l, List.mem_append_left _ ?_, hml⟩
  rw [sound_lines hs]
  exact List.mem_cons_of_mem _ (List.mem_cons_of_mem _
    (output_mem_runTests hs.2.2.2.2 ht ho ((mem_fileLines hl').2 hl)))

theorem printed_of_report (h : (p.run replies).status = 0) {m : Text} (hm : m <:+: p.report replies) :
    m <:+: (p.run replies).stdout ++ (p.run replies).stderr := by
  rw [run_satisfied (run_status_eq_zero_iff.1 h), List.append_nil]
  exact hm.trans (List.suffix_append _ _).isInfix

theorem printed_of_line (h : (p.run replies).status = 0) {c : Check Reply} (hc : c ∈ p.checks)
    {m : Text} (hm : m <:+: c.line) : m <:+: (p.run replies).stdout ++ (p.run replies).stderr := by
  rw [run_satisfied (run_status_eq_zero_iff.1 h), List.append_nil]
  exact (hm.trans (List.infix_of_mem_flatten (List.mem_map_of_mem hc))).trans
    (List.prefix_append _ _).isInfix

/-- The markers that the paper evaluation looks for. -/
def reports : List String :=
  ["AXVISOR_KVM_API_SMOKE_PASS=1", "AXVISOR_KVM_MEM_VCPU_SMOKE_PASS=1",
    "AXVISOR_KVM_NEGATIVE_SMOKE_PASS=1", "KVM_X86_INIT_IOCTL_SMOKE=1",
    "NEG_UNKNOWN_IOCTL_ENOTTY=1", "NEG_WRONG_FD_CLASS_KVM_CREATE_VCPU=1",
    "NEG_WRONG_FD_CLASS_VM_GET_API_VERSION=1", "NEG_BAD_MEMSLOT_EINVAL=1", "NEG_DUP_VCPU_EEXIST=1",
    "NEG_BAD_REGS_XCR0_EINVAL=1", "KVM_FD_LIFETIME_VCPU_AFTER_VM_CLOSE=1"]

theorem infix_printLine (line : String) : line.toList <:+: printLine line :=
  (List.prefix_append _ _).isInfix

theorem printed_reports (hs : g.Sound) : ∀ m ∈ reports, ∃ t ∈ g.tests, ∃ e,
    t.outcome = some e ∧ m.toList <:+: e.stdout ++ e.stderr := by
  have htests := hs.2.2.2.2
  simp only [Guest.tests, List.forall_mem_cons] at htests
  obtain ⟨⟨_, ⟨⟩, hapi⟩, ⟨_, ⟨⟩, hmem⟩, -, ⟨_, ⟨⟩, hneg⟩, -⟩ := htests
  have hline (k : Nat) {c : Check Reply} {line : String}
      (hk : (negativeChecks g.strerror)[k]? = some c) (hc : c.line = printLine line) :
      ∃ t ∈ g.tests, ∃ e, t.outcome = some e ∧ line.toList <:+: e.stdout ++ e.stderr :=
    ⟨_, List.mem_of_getElem? (i := 3) rfl, _, rfl, printed_of_line hneg (List.mem_of_getElem? hk)
      (hc ▸ infix_printLine line)⟩
  simp only [reports, List.forall_mem_cons]
  refine ⟨⟨_, List.mem_of_getElem? (i := 0) rfl, _, rfl, printed_of_report hapi ?_⟩,
    ⟨_, List.mem_of_getElem? (i := 1) rfl, _, rfl, printed_of_report hmem ?_⟩,
    ⟨_, List.mem_of_getElem? (i := 3) rfl, _, rfl, printed_of_report hneg ?_⟩,
    ⟨_, List.mem_of_getElem? (i := 1) rfl, _, rfl, printed_of_report hmem ?_⟩,
    hline 1 rfl rfl, hline 2 rfl rfl, hline 4 rfl rfl, hline 6 rfl rfl, hline 8 rfl rfl,
    hline 9 rfl rfl, hline 10 rfl rfl, List.forall_mem_nil _⟩
  · refine (infix_printLine _).trans ?_
    simp only [apiSmoke, List.append_assoc]
    exact (List.prefix_append _ _).isInfix
  · refine (infix_printLine _).trans ?_
    simp only [memVcpuSmoke, List.append_assoc]
    exact (List.prefix_append _ _).isInfix
  · exact (infix_printLine _).trans (List.prefix_append _ _).isInfix
  · exact (infix_printLine _).trans (List.suffix_append _ _).isInfix

theorem has_reports (hs : g.Sound) (hlog : Console g noise log) :
    ∀ m ∈ reports, has (some log) m = true := by
  intro m hm
  obtain ⟨hnl, hcr, hne⟩ := (by decide : ∀ m ∈ reports,
    '\n' ∉ m.toList ∧ '\r' ∉ m.toList ∧ m.toList ≠ []) m hm
  obtain ⟨t, ht, e, ho, hprinted⟩ := printed_reports hs m hm
  exact (Eval.has_iff log hnl hne).2 (output_on_console hs hlog ht ho hnl hcr hne hprinted)

/-- **The verdict on the log is the verdict on the guest.** -/
theorem kvmAbiSmokeOk_iff (h : g.Ordinary) (hn : Harmless noise) (hlog : Console g noise log) :
    Eval.kvmAbiSmokeOk (some log) = true ↔ g.Sound := by
  have hpass : has (some log) "AXVISOR_KVM_ABI_SMOKE_QEMU_PASS=1" = true ↔ g.Sound :=
    (Eval.has_iff log (by decide) (by decide)).trans (pass_on_console_iff h hn hlog)
  constructor
  · intro hok
    simp only [Eval.kvmAbiSmokeOk, Bool.and_eq_true] at hok
    exact hpass.1 hok.1.2
  · intro hs
    have hreports := has_reports hs hlog
    simp only [reports, List.forall_mem_cons] at hreports
    obtain ⟨hapi, hmem, hneg, hinit, -⟩ := hreports
    have hcrash : grep crashMarkersFull log = false := not_grep_crashMarkersFull fun m hm =>
      quiet_console h hs hn hlog m (List.mem_cons_of_mem _ hm)
    simp only [Eval.kvmAbiSmokeOk, hapi, hmem, hneg, hinit, hpass.2 hs, fileLacks, hcrash,
      Option.any_some, Bool.not_false, Bool.and_self]

/-! ## The import -/

theorem reported_kvmNegatives (hs : g.Sound) (hlog : Console g noise log) :
    Eval.reported (Eval.kvmNegatives (some log)) =
      Eval.kvmNegativeIds.map fun id => (id, Verdict.pass) := by
  have hreports := has_reports hs hlog
  simp only [reports, List.forall_mem_cons] at hreports
  obtain ⟨-, -, -, -, h₁, h₂, h₃, h₄, h₅, h₆, h₇, -⟩ := hreports
  rw [Eval.kvmNegatives, h₁, h₂, h₃, h₄, h₅, h₆, h₇]
  rfl

/-- **The paper evaluation records what is true of the guest.** With the log of a sound guest it records
that the smoke test has passed, and all six negative tests with it; with that of any other guest it
records the failure, and no negative test. -/
theorem kvm_abi_import (h : g.Ordinary) (hn : Harmless noise) (hlog : Console g noise log)
    {dir : Evidence} {t : Tree} (ht : dir.tree = some t)
    (hfile : t.files.lookup "qemu.log".toList = some log) (out : LogFile) :
    (g.Sound → Eval.Appends (Eval.recordKvmAbiSmokeStatus dir out)
      (("KVM-ABI-SMOKE".toList, .pass) :: Eval.kvmNegativeIds.map fun id => (id, .pass))) ∧
    (¬ g.Sound → Eval.Appends (Eval.recordKvmAbiSmokeStatus dir out)
      [("KVM-ABI-SMOKE".toList, .fail)]) := by
  have hok := kvmAbiSmokeOk_iff h hn hlog
  have hrows : ∀ fs, Eval.kvmRows dir fs = ("KVM-ABI-SMOKE".toList,
      verdict (Eval.kvmAbiSmokeOk (some log))) :: if Eval.kvmAbiSmokeOk (some log) then
        Eval.reported (Eval.kvmNegatives (some log)) else [] := by
    intro fs
    rw [Eval.kvmRows, Eval.rowsOf, ht]
    simp only [Eval.copied, hfile, Option.some_or]
  constructor
  · intro hs
    refine (Eval.adds_recordKvmAbiSmokeStatus dir out).congr fun s => ?_
    rw [hrows, hok.2 hs, if_pos rfl, reported_kvmNegatives hs hlog]
    rfl
  · intro hs
    refine (Eval.adds_recordKvmAbiSmokeStatus dir out).congr fun s => ?_
    rw [hrows, Bool.eq_false_iff.2 (mt hok.1 hs)]
    rfl

/-! ## A sound guest -/

/-- What the kernel answers to a call that succeeds. -/
def fine : Reply := ⟨0, 0, []⟩

/-- The answers to the calls of a program: those listed, and `fine` for the others. -/
def answers (special : List (Nat × Reply)) (k : Nat) : Reply := (special.lookup k).getD fine

/-- A guest that is sound. -/
def soundGuest : Guest where
  strerror _ := "Invalid argument"
  kvmRunSize := 2352
  devName := "kvm"
  mkdir := true
  uname := true
  insmod := true
  device := true
  api := answers [(1, ⟨12, 0, []⟩), (2, ⟨1, 0, []⟩), (3, ⟨32, 0, []⟩), (4, ⟨1, 0, []⟩),
    (5, ⟨1, 0, []⟩), (6, ⟨1, 0, []⟩), (7, ⟨1, 0, []⟩), (8, ⟨0, 0, [40]⟩), (9, ⟨0, 0, [60]⟩),
    (10, ⟨4096, 0, []⟩)]
  memVcpu := answers [(1, ⟨4096, 0, []⟩), (17, ⟨-1, EEXIST, []⟩), (20, ⟨8, 0, []⟩),
    (21, ⟨-1, EBUSY, []⟩), (22, ⟨-1, EOPNOTSUPP, []⟩), (26, ⟨0, 0, [0x100000]⟩),
    (44, ⟨1000000, 0, []⟩), (46, ⟨0, 0, [1, 1]⟩), (47, ⟨1, 0, []⟩), (48, ⟨1, 0, [1234]⟩),
    (50, ⟨-1, EINTR, [1]⟩), (51, ⟨0, 0, [9, 0]⟩)]
  concurrent := answers [(1, ⟨4096, 0, []⟩)]
  createErrno _ := none
  joinErrno _ := none
  mapErrno _ := none
  vcpuRun _ := some ⟨0, 0, [5]⟩
  negative := answers [(1, ⟨-1, ENOTTY, []⟩), (2, ⟨-1, ENOTTY, []⟩), (4, ⟨-1, ENOTTY, []⟩),
    (6, ⟨-1, EINVAL, []⟩), (8, ⟨-1, EEXIST, []⟩), (9, ⟨-1, EINVAL, []⟩)]

theorem ordinary_soundGuest : soundGuest.Ordinary :=
  ⟨by decide, fun _ => lacks_lit rfl (by decide)⟩

theorem sound_soundGuest : soundGuest.Sound := by
  refine ⟨rfl, rfl, rfl, rfl, ?_⟩
  simp only [Guest.tests, List.forall_mem_cons]
  exact ⟨⟨_, rfl, by decide⟩, ⟨_, rfl, by decide⟩, ⟨_, rfl, by decide⟩,
    ⟨_, rfl, by decide⟩, List.forall_mem_nil _⟩

/-- Its log, with a line of the kernel, and a directory with the log. -/
def soundNoise : List Text := ["Linux version 6.12.0"]

theorem harmless_soundNoise : Harmless soundNoise := by
  intro l hl
  rw [List.mem_singleton.1 hl]
  exact lacks_lit rfl (by decide)

def soundLog : Text := crlf (above (soundGuest.lines ++ soundNoise))

def soundEvidence : Evidence :=
  Eval.leftBehind "abi" [] ⟨Files.write ∅ "qemu.log" soundLog, .pass⟩

/-- `KVM_ABI_SMOKE_OUT` is not set. -/
def noOutput : LogFile := ⟨[], none, by simp⟩

theorem soundEvidence_imported : Eval.Appends (Eval.recordKvmAbiSmokeStatus soundEvidence noOutput)
    (("KVM-ABI-SMOKE".toList, .pass) :: Eval.kvmNegativeIds.map fun id => (id, .pass)) := by
  exact (kvm_abi_import ordinary_soundGuest harmless_soundNoise ⟨_, List.Perm.refl _, rfl⟩ rfl
    (Files.lookup_write_self _ _ soundLog) _).1 sound_soundGuest

/-- The log of the sound guest, line by line. -/
def soundWrites : List Text := (soundNoise ++ soundGuest.lines).map (· ++ ['\r', '\n'])

theorem flatten_soundWrites : soundWrites.flatten = crlf (above (soundNoise ++ soundGuest.lines)) := by
  have hu : Unbroken (soundNoise ++ soundGuest.lines) := by decide +kernel
  rw [crlf_above hu, above, List.flatMap_map, soundWrites, ← List.flatMap_def]
  simp

/-- The last line, which is the pass marker, arrives when QEMU has gone. -/
theorem abi_verifier_soundGuest :
    Watch.Returns Verifier.abiSmoke.loop (Schedule.trickling soundWrites).env 0 :=
  (abi_verifier_verdict (g := soundGuest) (s := Schedule.trickling soundWrites)
    ordinary_soundGuest harmless_soundNoise
    ⟨_, List.perm_append_comm, flatten_soundWrites⟩ ⟨Schedule.tricklingClock _ _⟩).1
    sound_soundGuest

end Console

end Guest

end Kvm.AbiSmoke
