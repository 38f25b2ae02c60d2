import AxvisorTools.Kvm.Proof.Serial
import AxvisorTools.Kvm.Rootfs

/-!
# What a rootfs verdict says about the write test

Where a marker in the QEMU log comes from: `infix_hostLoop` follows it back through what the host's
init prints, and `Run.source` to the guest's init. The marker of the write test has two sources, the
test itself and the result file, whose last line does not depend on the test.
-/

namespace Kvm

open Regex Py
open Shell (echo)

variable {ls : List Text} {t l n : Text} {r : Round} {o : GuestOps}

/-! ## Copies of texts -/

theorem iterLines_text (t : Text) : ((iterLines t).flatMap fun p => p.1 ++ p.2) = t := by
  obtain ⟨ls, l, hls⟩ := List.eq_nil_or_concat' (lines t) |>.resolve_left (lines_ne_nil t)
  have ht : t = above ls ++ l := by
    rw [← unlines_lines t, hls, unlines_insert]
    simp
  have habove : (ls.map fun k => (k, ['\n'])).flatMap (fun p => p.1 ++ p.2) = above ls := by
    rw [List.flatMap_map]
    rfl
  rw [iterLines, hls, List.getLast?_concat, List.dropLast_concat, List.flatMap_append, habove, ht]
  cases l with
  | nil => simp
  | cons c l => simp

theorem iterLines_above (h : Unbroken ls) : iterLines (above ls) = ls.map (·, ['\n']) := by
  rw [iterLines, lines_above h, List.getLast?_concat, List.dropLast_concat]
  simp

theorem tailLines_sub (n : Nat) (t : Text) : tailLines n t <:+: t := by
  obtain ⟨u, hu⟩ := List.drop_suffix ((iterLines t).length - n) (iterLines t)
  refine ⟨u.flatMap fun p => p.1 ++ p.2, [], ?_⟩
  rw [List.append_nil, tailLines, ← List.flatMap_append, hu]
  exact iterLines_text t

theorem tailLines_above (n : Nat) (h : Unbroken ls) :
    tailLines n (above ls) = above (ls.drop (ls.length - n)) := by
  rw [tailLines, iterLines_above h, List.length_map, ← List.map_drop, List.flatMap_map]
  rfl

/-! ## The host's init -/

/-- A text that the host's init only prints as part of a copy. -/
structure Marker (n : Text) : Prop where
  noBreak : '\n' ∉ n
  noBracket : '[' ∉ n
  letter : 'W' ∈ n ∨ 'D' ∈ n ∨ 'Y' ∈ n

/-- A text of the host's own, without the letters that tell the markers. -/
def Own (t : Text) : Prop := 'W' ∉ t ∧ 'D' ∉ t ∧ 'Y' ∉ t

instance (t : Text) : Decidable (Own t) := inferInstanceAs (Decidable (_ ∧ _))

section

variable {n : Text}

theorem Marker.not_own (hn : Marker n) (ht : Own t) : ¬ n <:+: t := by
  obtain ⟨hW, hD, hY⟩ := ht
  intro h
  rcases hn.letter with hc | hc | hc
  · exact hW (h.subset hc)
  · exact hD (h.subset hc)
  · exact hY (h.subset hc)

theorem Marker.echo (hn : Marker n) (hl : Own l) (h : n <:+: echo l ++ t) : n <:+: t := by
  rw [Shell.echo, List.append_assoc, List.singleton_append, infix_append_sep hn.noBreak] at h
  exact h.resolve_left (hn.not_own hl)

/-- A bracket starts the host's own line, wherever the copy before it ends. -/
theorem Marker.bracket (hn : Marker n) {a : Text} (hl : Own l) (hhead : l.head? = some '[')
    (h : n <:+: a ++ (Shell.echo l ++ t)) : n <:+: a ∨ n <:+: t := by
  obtain ⟨k, rfl⟩ := List.head?_eq_some_iff.1 hhead
  rw [Shell.echo, List.cons_append, List.cons_append, infix_append_sep hn.noBracket] at h
  rcases h with h | h
  · exact .inl h
  · have htail : n <:+: Shell.echo ('[' :: k) ++ t := h.trans (List.suffix_cons '[' _).isInfix
    exact .inr (hn.echo hl htail)

theorem Marker.ne_nil (hn : Marker n) (h : n <:+: l) : l ≠ [] := by
  rintro rfl
  exact hn.not_own (by decide) h

/-- What of a round a marker is copied from. -/
inductive Copied (n : Text) (r : Round) : Prop
  | stderr (h : n <:+: r.context.stderr)
  | dmesg (h : n <:+: r.context.dmesg)
  | serial (h : n <:+: r.context.serial)
  | progress (h : n <:+: r.progress)
  | result {t : Text} (ht : r.result = some t ∨ r.resultAfterExit = some t)
      (hpass : grep (lit fcRootfsPass) t = true) (h : n <:+: t)

theorem Marker.copyContext (hn : Marker n) {a : Text} (h : n <:+: a ++ dumpContext r.context) :
    n <:+: a ∨ Copied n r := by
  rw [Kvm.dumpContext] at h
  rcases hn.bracket (by decide) (by decide) h with hcopy | hlogs
  · exact .inl hcopy
  · rcases hn.bracket (by decide) (by decide) hlogs with hstderr | hlogs
    · exact .inr (.stderr hstderr)
    · rcases hn.bracket (by decide) (by decide) hlogs with hserial | hdmesg
      · exact .inr (.serial hserial)
      · exact .inr (.dmesg hdmesg)

theorem Marker.dumpContext (hn : Marker n) (h : n <:+: dumpContext r.context) : Copied n r :=
  (hn.copyContext (a := []) h).resolve_left (hn.not_own (by decide))

theorem own_append {s : Text} (hs : Own s) (ht : Own t) : Own (s ++ t) := by
  simp only [Own, List.mem_append, not_or] at hs ht ⊢
  tauto

theorem Marker.failWith (hn : Marker n) {reason : String} (hreason : Own reason.toList)
    (h : n <:+: failWith reason r.context) : Copied n r :=
  hn.dumpContext (hn.echo (own_append (by decide) hreason) h)

theorem Marker.reportResult (hn : Marker n) {result : Option Text}
    (hresult : result = r.result ∨ result = r.resultAfterExit) (hpass : hasRootfsPass result = true)
    (h : n <:+: reportResult result r.context) : Copied n r := by
  obtain _ | t := result
  · cases hpass
  · have hcopy := hn.echo (by decide) (hn.echo (by decide) h)
    rcases hn.copyContext hcopy with ht | hcontext
    · exact .result (hresult.imp Eq.symm Eq.symm) hpass ht
    · exact hcontext

theorem digits_not_mem (c : Char) (hc : ¬ c.isDigit = true) (i : Nat) : c ∉ Nat.toDigits 10 i :=
  fun h => hc (Nat.isDigit_of_mem_toDigits (by decide) (by decide) h)

theorem own_digits (i : Nat) : Own (Nat.toDigits 10 i) :=
  ⟨digits_not_mem _ (by decide) i, digits_not_mem _ (by decide) i, digits_not_mem _ (by decide) i⟩

theorem own_progressLine (i : Nat) : Own (progressLine i) :=
  own_append (own_append (by decide) (own_digits i)) (by decide)

theorem Marker.progressText (hn : Marker n) {i : Nat} {serial : Text}
    (h : n <:+: progressText i serial ++ t) : n <:+: serial ∨ n <:+: t := by
  rw [Kvm.progressText] at h
  split at h
  · rw [List.append_assoc, List.append_assoc, List.append_assoc] at h
    have hcopies := hn.echo (own_progressLine i) h
    rcases hn.bracket (by decide) (by decide) hcopies with htail | hrest
    · exact .inl (htail.trans (tailLines_sub 8 serial))
    · have hunbroken : Unbroken ((fileLines serial).filter (found progressRe)) :=
        fun l hl => unbroken_fileLines serial l (List.mem_filter.1 hl).1
      rw [tailLines_above 6 hunbroken] at hrest
      rcases infix_above_append hn.noBreak t hrest with ⟨l, hl, hln⟩ | ht
      · have hline := (List.mem_filter.1 (List.mem_of_mem_drop hl)).1
        exact .inl (hln.trans (infix_of_mem_fileLines hline))
      · exact .inr ht
  · exact .inr h

/-- **Whatever the loop prints, it prints a marker only as part of a copy.** -/
theorem infix_hostLoop (hn : Marker n) (rounds : Nat → Round) :
    ∀ k i, n <:+: hostLoop rounds k i → ∃ j, Copied n (rounds j) := by
  intro k
  induction k with
  | zero => exact fun i h => ⟨i, hn.failWith (by decide) h⟩
  | succ k ih =>
    intro i h
    rw [hostLoop] at h
    split at h
    · next hpass => exact ⟨i, hn.reportResult (.inl rfl) hpass h⟩
    · split at h
      · exact ⟨i, hn.dumpContext (hn.echo (by decide) (hn.echo (by decide) h))⟩
      · split at h
        · rcases hn.progressText h with hserial | hrest
          · exact ⟨i, .progress hserial⟩
          · exact ih (i + 1) hrest
        · split at h
          · next hpass => exact ⟨i, hn.reportResult (.inr rfl) hpass h⟩
          · exact ⟨i, hn.failWith (by decide) h⟩

/-! ## The guest's init -/

theorem Console.infix_text {c : Console} (hn : Marker n) (h : n <:+: c.text) :
    (∃ l ∈ c.own, n <:+: l) ∨ ∃ l ∈ c.others, n <:+: l := by
  rw [Console.text, ← List.append_nil (above _)] at h
  rcases infix_above_append hn.noBreak [] h with ⟨l, hl, hln⟩ | h
  · obtain ⟨x, hx, rfl⟩ := List.mem_map.1 hl
    cases x with
    | inl l => exact .inl ⟨l, List.mem_filterMap.2 ⟨_, hx, rfl⟩, hln⟩
    | inr l => exact .inr ⟨l, List.mem_filterMap.2 ⟨_, hx, rfl⟩, hln⟩
  · exact absurd h (hn.not_own (by decide))

theorem infix_resultStates (hbreak : '\n' ∉ n) (hne : n ≠ []) (ht : t ∈ o.resultStates)
    (h : n <:+: t) : o.openResult = true ∧ ∃ l ∈ resultBlock, o.writeLine l = true ∧ n <:+: l := by
  rw [GuestOps.resultStates] at ht
  split at ht
  · next hopen =>
    obtain ⟨ls, hls, rfl⟩ := List.mem_map.1 ht
    rw [← List.append_nil (above _)] at h
    rcases infix_above_append hbreak [] h with ⟨l, hl, hln⟩ | h
    · have hl := List.mem_filter.1 (((List.mem_inits _ _).1 hls).subset hl)
      exact ⟨hopen, l, hl.1, hl.2, hln⟩
    · exact absurd (List.infix_nil.1 h) hne
  · cases ht

section

variable {o : GuestOps} {run : Run o}

theorem Run.infix_console (hn : Marker n) (hs : run.Silent n) (h : n <:+: run.guestConsole.text) :
    ∃ l ∈ o.echoes, n <:+: l := by
  rcases Console.infix_text hn h with ⟨l, hl, hln⟩ | ⟨l, hl, hln⟩
  · exact ⟨l, run.guest.subset hl, hln⟩
  · exact absurd hln (hs.guest l hl)

/-- **Where a marker in the log comes from**: from a line that the guest's init prints, or from its
result file. -/
theorem Run.source (hn : Marker n) (hs : run.Silent n)
    (h : qemuLogHasFirecrackerGuestSerialText n run.log = true) :
    (∃ l ∈ o.echoes, n <:+: l) ∨
      ∃ t ∈ o.resultStates, grep (lit fcRootfsPass) t = true ∧ n <:+: t := by
  rw [qemuLogHasFirecrackerGuestSerialText, Bool.or_eq_true] at h
  rcases h with hraw | hdecoded
  · have hne : n ≠ [] := hn.ne_nil List.infix_rfl
    have hlog := ((grep_lit_iff hn.noBreak hne _).1 hraw).trans run.logged.isInfix
    rcases Console.infix_text hn hlog with ⟨l, hl, hln⟩ | ⟨l, hl, hln⟩
    · have hhost := hln.trans (infix_of_mem_fileLines (run.host.subset hl))
      obtain ⟨i, hcopy⟩ := infix_hostLoop hn run.rounds 180 0 hhost
      have hreads := run.reads i
      cases hcopy with
      | stderr h => exact absurd h (hs.stderr i)
      | dmesg h => exact absurd h (hs.dmesg i)
      | serial h => exact .inl (run.infix_console hn hs (h.trans hreads.context.isInfix))
      | progress h => exact .inl (run.infix_console hn hs (h.trans hreads.progress.isInfix))
      | result ht hpass h =>
        rcases ht with ht | ht
        · exact .inr ⟨_, hreads.result _ ht, hpass, h⟩
        · exact .inr ⟨_, hreads.resultAfterExit _ ht, hpass, h⟩
    · exact absurd hln (hs.qemu l hl)
  · split at hdecoded
    · next bytes hbytes =>
      exact .inl (run.infix_console hn hs (hs.serial bytes hbytes (of_decide_eq_true hdecoded)))
    · cases hdecoded

end

end

theorem marker_hasDevVda : Marker hasDevVda := ⟨by decide +kernel, by decide, by decide⟩

theorem marker_writeTestPass : Marker writeTestPass := ⟨by decide +kernel, by decide, by decide⟩

theorem marker_readbackOk : Marker readbackOk := ⟨by decide +kernel, by decide, by decide⟩

theorem hasText_of_grep {log : Text} (h : grep (lit n) log = true) :
    qemuLogHasFirecrackerGuestSerialText n log = true := by
  rw [qemuLogHasFirecrackerGuestSerialText, h, Bool.true_or]

theorem Accepted.shows {vcpuCount : Nat} {log : Text} (h : Accepted vcpuCount log) :
    ∀ n ∈ verdictMarkers, qemuLogHasFirecrackerGuestSerialText n log = true := by
  have hvalid := h.valid
  rw [validateFirecrackerGuestResult, Bool.and_eq_true] at hvalid
  obtain ⟨-, hvalid⟩ := hvalid
  have hsh : validateRootfs .sh log = true := hvalid
  simp only [validateRootfs, Bool.or_eq_true, Bool.and_eq_true] at hsh
  simp only [verdictMarkers, List.forall_mem_cons]
  rcases hsh with ⟨⟨hdev, htest⟩, hback⟩ | ⟨⟨hdev, htest⟩, hback⟩
  · exact ⟨hasText_of_grep hdev, hasText_of_grep htest, hasText_of_grep hback, by simp⟩
  · exact ⟨hdev, htest, hback, by simp⟩

/-! ## The sources of the three markers -/

/-- The lines of the guest's init that do not tell a success. -/
def plainEchoes : List Text :=
  [guestStage "init-entry", noDevVda, guestStage "before-write-test", writeTestFail,
    guestStage "after-write-test", fcRootfsPass, readbackFail, guestPass, guestStage "before-sync",
    guestStage "after-sync"]

/-- To prove something of all lines, prove it of the plain ones and of the markers that are due. -/
theorem forall_guestEchoes {P : Text → Prop} {dev test read : Bool}
    (hplain : ∀ l ∈ plainEchoes, P l) (hdev : dev = true → P hasDevVda)
    (htest : test = true → P writeTestPass) (hread : read = true → P readbackOk) :
    ∀ l ∈ guestEchoes dev test read, P l := by
  simp only [plainEchoes, List.forall_mem_cons] at hplain
  obtain ⟨hinit, hnoDev, hbefore, hfail, hafter, hrootfs, hnoRead, hpass, hsync, hsynced, hnil⟩ :=
    hplain
  simp only [guestEchoes, List.forall_mem_append, List.forall_mem_cons]
  refine ⟨⟨⟨hinit, ?_, hbefore, ?_, hafter, hnil⟩, ?_⟩, hpass, hsync, hsynced, hnil⟩
  · split
    · next h => exact hdev h
    · exact hnoDev
  · split
    · next h => exact htest h
    · exact hfail
  · split
    · next h => exact List.forall_mem_cons.2 ⟨hrootfs, List.forall_mem_singleton.2 (hread h)⟩
    · exact List.forall_mem_singleton.2 hnoRead

theorem plainEchoes_markers : ∀ l ∈ plainEchoes, ('1' ∉ l ∨ 'D' ∉ l ∧ 'W' ∉ l) ∧
    ('Y' ∉ l ∨ l = readbackFail) := by
  decide +kernel

theorem letters_hasDevVda : 'D' ∈ hasDevVda ∧ '1' ∈ hasDevVda ∧ 'W' ∉ hasDevVda ∧ 'Y' ∉ hasDevVda := by
  decide +kernel

theorem letters_writeTestPass :
    'W' ∈ writeTestPass ∧ '1' ∈ writeTestPass ∧ 'D' ∉ writeTestPass ∧ 'Y' ∉ writeTestPass := by
  decide +kernel

theorem letters_readbackOk : 'Y' ∈ readbackOk ∧ '1' ∉ readbackOk ∧ 'W' ∉ readbackOk := by
  decide +kernel

theorem devVda_of_echo : ∀ l ∈ o.echoes, hasDevVda <:+: l → o.devVda = true := by
  obtain ⟨hD, h1, -⟩ := letters_hasDevVda
  refine forall_guestEchoes (fun l hl h => ?_) (fun hdev _ => hdev) (fun _ h => ?_) (fun _ h => ?_)
  · rcases (plainEchoes_markers l hl).1 with hno | ⟨hno, -⟩
    · exact absurd (h.subset h1) hno
    · exact absurd (h.subset hD) hno
  · exact absurd (h.subset hD) letters_writeTestPass.2.2.1
  · exact absurd (h.subset h1) letters_readbackOk.2.1

theorem writeTestOk_of_echo : ∀ l ∈ o.echoes, writeTestPass <:+: l → o.writeTestOk = true := by
  obtain ⟨hW, h1, -⟩ := letters_writeTestPass
  refine forall_guestEchoes (fun l hl h => ?_) (fun _ h => ?_) (fun htest _ => htest) (fun _ h => ?_)
  · rcases (plainEchoes_markers l hl).1 with hno | ⟨-, hno⟩
    · exact absurd (h.subset h1) hno
    · exact absurd (h.subset hW) hno
  · exact absurd (h.subset hW) letters_hasDevVda.2.2.1
  · exact absurd (h.subset hW) letters_readbackOk.2.2

theorem readback_of_echo :
    ∀ l ∈ o.echoes, readbackOk <:+: l → hasRootfsPass o.readResult = true := by
  obtain ⟨hY, -⟩ := letters_readbackOk
  refine forall_guestEchoes (fun l hl h => ?_) (fun _ h => ?_) (fun _ h => ?_) (fun hread _ => hread)
  · rcases (plainEchoes_markers l hl).2 with hno | rfl
    · exact absurd (h.subset hY) hno
    · exact absurd h (by decide)
  · exact absurd (h.subset hY) letters_hasDevVda.2.2.2
  · exact absurd (h.subset hY) letters_writeTestPass.2.2.2

theorem resultBlock_markers : ∀ l ∈ resultBlock,
    'D' ∉ l ∧ 'Y' ∉ l ∧ ('W' ∈ l → l = writeTestPass) ∧ (fcRootfsPass <:+: l → l = fcRootfsPass) := by
  decide +kernel

theorem marked_of_resultStates (ht : t ∈ o.resultStates) (hpass : grep (lit fcRootfsPass) t = true)
    (h : writeTestPass <:+: t) :
    o.openResult = true ∧ o.writeLine fcRootfsPass = true ∧ o.writeLine writeTestPass = true := by
  have hrootfs := (grep_lit_iff (by decide) (by decide) t).1 hpass
  obtain ⟨hopen, l, hl, hwrite, hln⟩ := infix_resultStates (by decide) (by decide) ht hrootfs
  obtain ⟨-, k, hk, hwrite', hkn⟩ := infix_resultStates (by decide) (by decide) ht h
  obtain ⟨-, -, -, hfirst⟩ := resultBlock_markers l hl
  obtain ⟨-, -, hlast, -⟩ := resultBlock_markers k hk
  rw [hfirst hln] at hwrite
  rw [hlast (hkn.subset letters_writeTestPass.1)] at hwrite'
  exact ⟨hopen, hwrite, hwrite'⟩

/-- A marker that no line of the result block has comes from a line of the guest's init. -/
theorem Run.source_echo {run : Run o} (hn : Marker n) (hs : run.Silent n)
    (h : qemuLogHasFirecrackerGuestSerialText n run.log = true)
    (hblock : ∀ l ∈ resultBlock, ¬ n <:+: l) : ∃ l ∈ o.echoes, n <:+: l := by
  rcases Run.source hn hs h with hecho | ⟨t, ht, -, htn⟩
  · exact hecho
  · obtain ⟨-, l, hl, -, hln⟩ := infix_resultStates hn.noBreak (hn.ne_nil List.infix_rfl) ht htn
    exact absurd hln (hblock l hl)

/-- **In a quiet run the verdict vouches for the write test, unless the result file marks it.** -/
theorem Run.writeTestOk {vcpuCount : Nat} {run : Run o} (hquiet : run.Quiet)
    (hmarks : o.marksResult = true → o.writeTestOk = true) (h : Accepted vcpuCount run.log) :
    o.writeTestOk = true := by
  have hshows := h.shows
  simp only [verdictMarkers, List.forall_mem_cons, Run.Quiet] at hshows hquiet
  obtain ⟨hdev, htest, hback, -⟩ := hshows
  obtain ⟨sdev, stest, sback, -⟩ := hquiet
  rcases Run.source marker_writeTestPass stest htest with ⟨l, hl, hln⟩ | ⟨t, ht, hpass, htn⟩
  · exact writeTestOk_of_echo l hl hln
  · refine hmarks ?_
    obtain ⟨hopen, hfirst, hlast⟩ := marked_of_resultStates ht hpass htn
    obtain ⟨l, hl, hln⟩ := run.source_echo marker_hasDevVda sdev hdev fun l hl hln =>
      (resultBlock_markers l hl).1 (hln.subset letters_hasDevVda.1)
    obtain ⟨k, hk, hkn⟩ := run.source_echo marker_readbackOk sback hback fun l hl hln =>
      (resultBlock_markers l hl).2.1 (hln.subset letters_readbackOk.1)
    rw [GuestOps.marksResult, hopen, hfirst, hlast, devVda_of_echo l hl hln,
      readback_of_echo k hk hkn]
    rfl

/-! ## A run that the result file decides -/

/-- A text without serial records, bridge lines and carriage returns. -/
def Plain (t : Text) : Prop := '\x7b' ∉ t ∧ 'v' ∉ t ∧ '\r' ∉ t

instance (t : Text) : Decidable (Plain t) := inferInstanceAs (Decidable (_ ∧ _))

theorem plain_append {s : Text} (hs : Plain s) (ht : Plain t) : Plain (s ++ t) := by
  simp only [Plain, List.mem_append, not_or] at hs ht ⊢
  tauto

theorem plain_echo (h : Plain l) : Plain (echo l) := plain_append h (by decide)

theorem plain_above (h : ∀ l ∈ ls, Plain l) : Plain (above ls) := by
  induction ls with
  | nil => decide
  | cons l ls ih =>
    obtain ⟨hl, hls⟩ := List.forall_mem_cons.1 h
    rw [above_cons, ← List.singleton_append]
    exact plain_append hl (plain_append (by decide) (ih hls))

theorem plain_of_sub {s : Text} (ht : Plain t) (h : s <:+: t) : Plain s := by
  obtain ⟨hbrace, hv, hr⟩ := ht
  exact ⟨fun hs => hbrace (h.subset hs), fun hs => hv (h.subset hs), fun hs => hr (h.subset hs)⟩

theorem serialLine_plain (h : Plain l) : serialLine (bridgeBytes l) l = some [] := by
  obtain ⟨hbrace, hv, -⟩ := h
  have hrecord : found Eval.ioWrite l = false := by
    rw [Bool.eq_false_iff]
    intro hfound
    obtain ⟨ds, -, hds⟩ := (found_ioWrite_iff l).1 hfound
    have hmem : '\x7b' ∈ ioRecord ds := List.mem_append_left _ (by decide)
    exact hbrace (hds.subset hmem)
  have hbridge : ¬ charPrefix <:+: l := fun h => hv (h.subset (by decide))
  rw [serialLine, search_eq_none hrecord, bridgeBytes, bridgeChar, findFrom_eq_none hbridge]
  rfl

theorem guestSerialText_plain {log : Text} (h : Plain log) : guestSerialText log = some [] := by
  have hline : ∀ p ∈ iterLines log, serialLine (bridgeBytes p.1) p.1 = some [] := by
    intro p hp
    have hmem : p.1 ∈ fileLines log := by
      rw [← iterLines_fst]
      exact List.mem_map_of_mem hp
    exact serialLine_plain (plain_of_sub h (infix_of_mem_fileLines hmem))
  rw [guestSerialText, universalNewlines_of_not_mem h.2.2, mapM_some hline]
  simp

/-- The kernel's line that reports the vCPUs. -/
def smpLine (vcpuCount : Nat) : Text :=
  "smp: Brought up 1 node, " ++ Nat.toDigits 10 vcpuCount ++ " CPUs"

theorem plain_digits (i : Nat) : Plain (Nat.toDigits 10 i) :=
  ⟨digits_not_mem _ (by decide) i, digits_not_mem _ (by decide) i, digits_not_mem _ (by decide) i⟩

/-- What the guest leaves when it runs to its end. -/
def GuestOps.resultFile (o : GuestOps) : Text := above (resultBlock.filter o.writeLine)

/-- A round that finds the guest done. -/
def doneRound (o : GuestOps) : Round where
  result := some o.resultFile
  serial := above o.echoes
  alive := true
  resultAfterExit := some o.resultFile
  progress := above o.echoes
  context := ⟨[], above o.echoes, []⟩

theorem Console.own_map (ls : List Text) : Console.own (ls.map .inl) = ls := by
  simp [Console.own, List.filterMap_map, Function.comp_def]

theorem Console.others_map (ls : List Text) : Console.others (ls.map .inl) = [] := by
  simp [Console.others, List.filterMap_map, Function.comp_def]

theorem Console.text_map (ls : List Text) : Console.text (ls.map .inl) = above ls := by
  simp [Console.text, Function.comp_def]

/-- The guest runs to its end before the host's first poll, and all of the output is logged. -/
def doneRun (o : GuestOps) (hopen : o.openResult = true) (vcpuCount : Nat) : Run o where
  guestConsole := o.echoes.map .inl
  guest := by rw [Console.own_map]
  rounds _ := doneRound o
  reads i := by
    have hstate : o.resultFile ∈ o.resultStates := by
      rw [GuestOps.resultStates, if_pos hopen]
      exact List.mem_map_of_mem ((List.mem_inits _ _).2 List.prefix_rfl)
    have hresult : ∀ t, some o.resultFile = some t → t ∈ o.resultStates := fun t ht =>
      Option.some.inj ht ▸ hstate
    rw [Console.text_map]
    exact ⟨hresult, hresult, List.prefix_rfl, List.prefix_rfl, List.prefix_rfl⟩
  qemuConsole := .inr (smpLine vcpuCount) :: (fileLines (hostOutput fun _ => doneRound o)).map .inl
  host := by
    have hown : Console.own (.inr (smpLine vcpuCount) ::
        (fileLines (hostOutput fun _ => doneRound o)).map .inl) =
          Console.own ((fileLines (hostOutput fun _ => doneRound o)).map .inl) := rfl
    rw [hown, Console.own_map]
  log := above (smpLine vcpuCount :: fileLines (hostOutput fun _ => doneRound o))
  logged := by
    rw [Console.text, List.map_cons, List.map_map]
    simp [Function.comp_def]

theorem doneRun_log (o : GuestOps) (hopen : o.openResult = true) (vcpuCount : Nat) :
    (doneRun o hopen vcpuCount).log =
      above (smpLine vcpuCount :: fileLines (hostOutput fun _ => doneRound o)) := rfl

section

variable {o : GuestOps}

theorem mem_resultFile (hl : l ∈ resultBlock) (hwrite : o.writeLine l = true) :
    l <:+: o.resultFile :=
  infix_above (List.mem_filter.2 ⟨hl, hwrite⟩) List.infix_rfl

theorem hostOutput_done (hpass : o.writeLine fcRootfsPass = true) :
    (hostOutput fun _ => doneRound o) =
      reportResult (some o.resultFile) (doneRound o).context := by
  have hgrep : hasRootfsPass (doneRound o).result = true :=
    (grep_lit_iff (by decide) (by decide) _).2 (mem_resultFile List.mem_cons_self hpass)
  have hround : hostOutput (fun _ => doneRound o) = hostLoop (fun _ => doneRound o) (179 + 1) 0 := rfl
  rw [hround, hostLoop, if_pos hgrep]
  rfl

/-- The host's init copies the result file and the serial log. -/
theorem infix_hostOutput (hpass : o.writeLine fcRootfsPass = true)
    (h : n <:+: o.resultFile ∨ n <:+: above o.echoes) :
    n <:+: (hostOutput fun _ => doneRound o) := by
  rw [hostOutput_done hpass]
  have hcopy : o.resultFile ++ dumpContext (doneRound o).context <:+
      reportResult (some o.resultFile) (doneRound o).context :=
    (List.suffix_append _ _).trans (List.suffix_append _ _)
  have hserial : above o.echoes <:+: dumpContext (doneRound o).context :=
    (List.prefix_append _ _).isInfix.trans
      ((List.suffix_append _ _).trans ((List.suffix_append _ _).trans
        (List.suffix_append _ _))).isInfix
  rcases h with h | h
  · exact (h.trans (List.prefix_append _ _).isInfix).trans hcopy.isInfix
  · exact ((h.trans hserial).trans (List.suffix_append _ _).isInfix).trans hcopy.isInfix

theorem plain_echoes (o : GuestOps) : ∀ l ∈ o.echoes, Plain l :=
  forall_guestEchoes (by decide) (fun _ => by decide) (fun _ => by decide) (fun _ => by decide)

theorem plain_resultFile (o : GuestOps) : Plain o.resultFile := by
  have hblock : ∀ l ∈ resultBlock, Plain l := by decide +kernel
  exact plain_above fun l hl => hblock l (List.mem_filter.1 hl).1

theorem plain_doneRun (hopen : o.openResult = true) (hpass : o.writeLine fcRootfsPass = true)
    (vcpuCount : Nat) : Plain (doneRun o hopen vcpuCount).log := by
  rw [doneRun_log]
  have hnil : Plain [] := by decide
  have hcontext : Plain (dumpContext (doneRound o).context) :=
    plain_append (plain_echo (by decide)) (plain_append hnil (plain_append
      (plain_echo (by decide)) (plain_append (plain_above (plain_echoes o)) (plain_append
        (plain_echo (by decide)) hnil))))
  have hout : Plain (hostOutput fun _ => doneRound o) := by
    rw [hostOutput_done hpass]
    exact plain_append (plain_echo (by decide)) (plain_append (plain_echo (by decide))
      (plain_append (plain_resultFile o) hcontext))
  refine plain_above (List.forall_mem_cons.2 ⟨?_, fun l hl => ?_⟩)
  · exact plain_append (plain_append (by decide) (plain_digits _)) (by decide)
  · exact plain_of_sub hout (infix_of_mem_fileLines hl)

theorem infix_doneRun (hopen : o.openResult = true) (hpass : o.writeLine fcRootfsPass = true)
    (vcpuCount : Nat) (hbreak : '\n' ∉ n) (hne : n ≠ [])
    (h : n <:+: o.resultFile ∨ n <:+: above o.echoes) :
    qemuLogHasFirecrackerGuestSerialText n (doneRun o hopen vcpuCount).log = true := by
  obtain ⟨l, hl, hln⟩ := (infix_iff_lines hbreak _).1 (infix_hostOutput hpass h)
  have hne' : l ≠ [] := by
    rintro rfl
    exact hne (List.infix_nil.1 hln)
  have hline := List.mem_cons_of_mem (smpLine vcpuCount) ((mem_fileLines hne').2 hl)
  rw [doneRun_log]
  exact hasText_of_grep ((grep_lit_iff hbreak hne _).2 (infix_above hline hln))

theorem smpLine_doneRun (hopen : o.openResult = true) (vcpuCount : Nat) :
    qemuLogHasFirecrackerGuestSmpPass vcpuCount (doneRun o hopen vcpuCount).log = true := by
  have hprint : Printable (smpLine vcpuCount) :=
    .append (.append (by decide) (printable_digits _)) (by decide)
  have hbreak : '\n' ∉ smpLine vcpuCount := fun h => absurd (hprint _ h) (by decide)
  have hlog : smpLine vcpuCount <:+: (doneRun o hopen vcpuCount).log := by
    rw [doneRun_log]
    exact infix_above List.mem_cons_self List.infix_rfl
  have hmem : smpLine vcpuCount ∈ smpTexts vcpuCount :=
    List.mem_cons_of_mem _ (List.mem_cons_of_mem _ List.mem_cons_self)
  have hne : smpLine vcpuCount ≠ [] := List.append_ne_nil_of_right_ne_nil _ (by decide)
  exact List.any_eq_true.2 ⟨_, hmem, hasText_of_grep ((grep_lit_iff hbreak hne _).2 hlog)⟩

theorem encode_ne_nil (h : n ≠ []) : encode n ≠ [] := by
  obtain ⟨c, t, rfl⟩ := List.exists_cons_of_ne_nil h
  intro hnil
  rw [encode, List.flatMap_cons, List.append_eq_nil_iff] at hnil
  exact String.utf8EncodeChar_ne_nil hnil.1

theorem silent_doneRun (hopen : o.openResult = true) (hpass : o.writeLine fcRootfsPass = true)
    (vcpuCount : Nat) (hn : Marker n) : (doneRun o hopen vcpuCount).Silent n := by
  have hnil : ¬ n <:+: [] := hn.not_own (by decide)
  have hown : Own (smpLine vcpuCount) :=
    own_append (own_append (by decide) (own_digits vcpuCount)) (by decide)
  refine ⟨?_, fun _ => hnil, fun _ => hnil, ?_, ?_⟩
  · intro l hl
    have hnone : (doneRun o hopen vcpuCount).guestConsole.others = [] := Console.others_map o.echoes
    rw [hnone] at hl
    cases hl
  · intro l hl
    have hsmp : (doneRun o hopen vcpuCount).qemuConsole.others = smpLine vcpuCount ::
        Console.others ((fileLines (hostOutput fun _ => doneRound o)).map .inl) := rfl
    rw [hsmp, Console.others_map, List.mem_singleton] at hl
    rw [hl]
    exact hn.not_own hown
  · intro bytes hbytes hmem
    rw [guestSerialText_plain (plain_doneRun hopen hpass vcpuCount)] at hbytes
    rw [← Option.some.inj hbytes] at hmem
    exact absurd (List.infix_nil.1 hmem) (encode_ne_nil (hn.ne_nil List.infix_rfl))

theorem hasDevVda_mem_echoes (hdev : o.devVda = true) : hasDevVda ∈ o.echoes := by
  rw [GuestOps.echoes, guestEchoes, hdev, if_pos rfl]
  exact List.mem_append_left _ (List.mem_append_left _ (List.mem_cons_of_mem _ List.mem_cons_self))

theorem readbackOk_mem_echoes (hread : hasRootfsPass o.readResult = true) :
    readbackOk ∈ o.echoes := by
  rw [GuestOps.echoes, guestEchoes, hread]
  exact List.mem_append_left _ (List.mem_append_right _ (List.mem_cons_of_mem _ List.mem_cons_self))

/-- A result file with the marker is enough for an accepted run. -/
theorem exists_accepted (hmarks : o.marksResult = true) (vcpuCount : Nat) :
    ∃ run : Run o, run.Quiet ∧ Accepted vcpuCount run.log := by
  simp only [GuestOps.marksResult, Bool.and_eq_true] at hmarks
  obtain ⟨⟨⟨⟨hopen, hpass⟩, htest⟩, hdev⟩, hread⟩ := hmarks
  have hfile : ∀ n ∈ resultBlock, o.writeLine n = true → '\n' ∉ n → n ≠ [] →
      qemuLogHasFirecrackerGuestSerialText n (doneRun o hopen vcpuCount).log = true :=
    fun n hn hwrite hbreak hne =>
      infix_doneRun hopen hpass vcpuCount hbreak hne (.inl (mem_resultFile hn hwrite))
  have hecho : ∀ n ∈ o.echoes, Marker n →
      qemuLogHasFirecrackerGuestSerialText n (doneRun o hopen vcpuCount).log = true :=
    fun n hn hm => infix_doneRun hopen hpass vcpuCount hm.noBreak (hm.ne_nil List.infix_rfl)
      (.inr (infix_above hn List.infix_rfl))
  have hrootfs := hfile fcRootfsPass List.mem_cons_self hpass (by decide) (by decide)
  have hlast : writeTestPass ∈ resultBlock := List.mem_of_getLast? rfl
  have hvalid : validateRootfs .sh (doneRun o hopen vcpuCount).log = true := by
    simp only [validateRootfs, hecho _ (hasDevVda_mem_echoes hdev) marker_hasDevVda,
      hecho _ (readbackOk_mem_echoes hread) marker_readbackOk,
      hfile _ hlast htest marker_writeTestPass.noBreak (by decide), Bool.and_self, Bool.or_true]
  refine ⟨doneRun o hopen vcpuCount, ?_, ?_, ?_⟩
  · simp only [Run.Quiet, verdictMarkers, List.forall_mem_cons]
    exact ⟨silent_doneRun hopen hpass vcpuCount marker_hasDevVda,
      silent_doneRun hopen hpass vcpuCount marker_writeTestPass,
      silent_doneRun hopen hpass vcpuCount marker_readbackOk, by simp⟩
  · refine ⟨_, true, List.prefix_rfl, ?_⟩
    rw [firecrackerDecision, pollOnce, if_pos]
    rw [Bool.or_eq_true]
    exact .inr hrootfs
  · rw [validateFirecrackerGuestResult, smpLine_doneRun hopen vcpuCount, Bool.or_true, Bool.true_and]
    exact hvalid

end

/-- **When the verdict of a rootfs run vouches for the guest's write test.** In all runs where only
the two inits write the markers, an accepted log means that the write test succeeded, exactly when
the guest does not come to mark the test as passed in a result file that the host accepts, or the
test did succeed. -/
theorem accepted_writeTest_iff (o : GuestOps) (vcpuCount : Nat) :
    (∀ run : Run o, run.Quiet → Accepted vcpuCount run.log → o.writeTestOk = true) ↔
      (o.marksResult = true → o.writeTestOk = true) := by
  constructor
  · intro hall hmarks
    obtain ⟨run, hquiet, haccepted⟩ := exists_accepted hmarks vcpuCount
    exact hall run hquiet haccepted
  · intro hmarks run hquiet haccepted
    exact Run.writeTestOk hquiet hmarks haccepted

/-- The root file system takes the result file, but the write test reads nothing back. -/
def staleReadOps : GuestOps where
  devVda := true
  writeTest := true
  readTest := []
  openResult := true
  writeLine _ := true
  readResult := some (above resultBlock)

theorem staleRead_accepted :
    staleReadOps.writeTestOk = false ∧
      ∃ run : Run staleReadOps, run.Quiet ∧ Accepted 1 run.log := by
  have hread : hasRootfsPass staleReadOps.readResult = true :=
    (grep_lit_iff (by decide) (by decide) _).2 (infix_above List.mem_cons_self List.infix_rfl)
  have hmarks : staleReadOps.marksResult = true := by
    rw [GuestOps.marksResult, hread]
    rfl
  exact ⟨by decide, exists_accepted hmarks 1⟩

end Kvm
