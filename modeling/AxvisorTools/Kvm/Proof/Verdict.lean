import AxvisorTools.Kvm.Proof.Serial
import AxvisorTools.Kvm.Verdict

/-!
# Verdicts and line endings

A serial console writes `\r\n` where a log file has `\n`. `hasText_crlf` and
`validateFirecrackerGuestResult_crlf`: the tests that look for a text do not notice. The tests for a
whole line do: `verdicts_crlf_iff` says on which logs a verdict changes.
-/

namespace Kvm

open Regex Py

/-- The text with `\r\n` for every newline. -/
def crlf (t : Text) : Text := t.flatMap fun c => if c = '\n' then ['\r', '\n'] else [c]

theorem crlf_append (a b : Text) : crlf (a ++ b) = crlf a ++ crlf b := List.flatMap_append

theorem crlf_of_not_mem {l : Text} (h : '\n' ∉ l) : crlf l = l := by
  induction l with
  | nil => rfl
  | cons c l ih =>
    rw [List.mem_cons, not_or] at h
    rw [crlf, List.flatMap_cons, if_neg (Ne.symm h.1)]
    exact congrArg (c :: ·) (ih h.2)

/-! ## Lines -/

theorem crlf_above {ls : List Text} (h : Unbroken ls) :
    crlf (above ls) = above (ls.map (· ++ ['\r'])) := by
  induction ls with
  | nil => rfl
  | cons k ls ih =>
    have hk : crlf (k ++ '\n' :: above ls) = k ++ '\r' :: '\n' :: crlf (above ls) := by
      rw [crlf_append, crlf_of_not_mem (h k (by simp))]
      rfl
    rw [above_cons, hk, ih fun x hx => h x (List.mem_cons_of_mem _ hx), List.map_cons, above_cons]
    simp

theorem lines_crlf {ls : List Text} {l : Text} (h : Unbroken ls) (hl : '\n' ∉ l) :
    lines (crlf (above ls ++ l)) = ls.map (· ++ ['\r']) ++ [l] := by
  rw [crlf_append, crlf_above h, crlf_of_not_mem hl]
  refine lines_above_last (fun k hk hm => ?_) hl
  obtain ⟨x, hx, rfl⟩ := List.mem_map.1 hk
  rcases List.mem_append.1 hm with hm | hm
  · exact h x hx hm
  · exact absurd hm (by decide)

/-! ## Texts -/

theorem infix_crlf_iff {n : Text} (hn : '\n' ∉ n) (hr : '\r' ∉ n) (hne : n ≠ []) (t : Text) :
    n <:+: crlf t ↔ n <:+: t := by
  obtain ⟨ls, l, hls, hl, rfl⟩ := exists_above t
  rw [infix_iff_lines hn, infix_iff_lines hn, lines_crlf hls hl, lines_above_last hls hl]
  have hcr : ∀ k : Text, n <:+: k ++ ['\r'] ↔ n <:+: k := by
    intro k
    rw [infix_append_sep hr, List.infix_nil]
    exact or_iff_left hne
  simp [hcr]

theorem grep_lit_crlf {n : Text} (hn : Printable n) (hne : n ≠ []) (t : Text) :
    grep (lit n) (crlf t) = grep (lit n) t := by
  have hnl : '\n' ∉ n := fun h => absurd (hn _ h) (by decide)
  have hcr : '\r' ∉ n := fun h => absurd (hn _ h) (by decide)
  rw [Bool.eq_iff_iff, grep_lit_iff hnl hne, grep_lit_iff hnl hne, infix_crlf_iff hnl hcr hne]

/-- Read with universal newlines, the two texts have the same lines but for empty ones. -/
theorem lines_universalNewlines_crlf (t : Text) : ∃ l ls ls',
    lines (universalNewlines (crlf t)) = l :: ls ∧ lines (universalNewlines t) = l :: ls' ∧
      ls.filter (· ≠ []) = ls'.filter (· ≠ []) := by
  have hhead : ∀ t u : Text, crlf t ≠ '\n' :: u := by
    intro t u
    cases t with
    | nil => simp [crlf]
    | cons c t =>
      by_cases hc : c = '\n'
      · simp [crlf, hc]
      · simp [crlf, hc]
  induction t using universalNewlines.induct with
  | case1 => exact ⟨[], [], [], rfl, rfl, rfl⟩
  | case2 t ih =>
    obtain ⟨l, ls, ls', h, h', hf⟩ := ih
    have hcr : universalNewlines (crlf ('\r' :: '\n' :: t)) =
        '\n' :: '\n' :: universalNewlines (crlf t) := rfl
    refine ⟨[], [] :: l :: ls, l :: ls', ?_, ?_, ?_⟩
    · rw [hcr, lines_newline, lines_newline, h]
    · rw [universalNewlines, lines_newline, h']
    · simp only [List.filter_cons, hf]
      simp
  | case3 c t hc ih =>
    obtain ⟨l, ls, ls', h, h', hf⟩ := ih
    have hplain : universalNewlines (c :: t) =
        (if c = '\r' then '\n' else c) :: universalNewlines t :=
      universalNewlines_cons fun hr u hu => hc u hr hu
    -- both readings go on with the same character
    have hcrlf : universalNewlines (crlf (c :: t)) =
        (if c = '\r' then '\n' else c) :: universalNewlines (crlf t) := by
      by_cases hn : c = '\n'
      · subst hn
        rfl
      · have : crlf (c :: t) = c :: crlf t := by simp [crlf, hn]
        rw [this, universalNewlines_cons fun _ => hhead t]
    rw [hplain, hcrlf]
    by_cases hn : (if c = '\r' then '\n' else c) = '\n'
    · rw [hn, lines_newline, lines_newline, h, h']
      exact ⟨[], l :: ls, l :: ls', rfl, rfl, by simp only [List.filter_cons, hf]⟩
    · exact ⟨_, ls, ls', lines_cons hn h, lines_cons hn h', hf⟩

/-! ## The serial output -/

theorem mapM_filter_flatten {f : Text → Option Bytes} (hf : f [] = some []) (ls : List Text) :
    ((ls.filter (· ≠ [])).mapM f).map List.flatten = (ls.mapM f).map List.flatten := by
  induction ls with
  | nil => rfl
  | cons l ls ih =>
    by_cases hl : l = []
    · subst hl
      rw [List.filter_cons_of_neg (by simp), ih, mapM_flatten_cons, hf, Option.bind_some]
      exact Option.map_id.symm ▸ rfl
    · rw [List.filter_cons_of_pos (by simpa using hl), mapM_flatten_cons, mapM_flatten_cons, ih]

theorem filter_fileLines (t : Text) :
    (fileLines t).filter (· ≠ []) = (lines t).filter (· ≠ []) := by
  unfold fileLines
  split
  · rename_i h
    obtain ⟨ls, hls⟩ := List.getLast?_eq_some_iff.1 h
    simp [hls]
  · rfl

theorem guestSerialText_eq (log : Text) : guestSerialText log =
    (((lines (universalNewlines log)).filter (· ≠ [])).mapM fun l =>
      serialLine (bridgeBytes l) l).map List.flatten := by
  have hnil : serialLine (bridgeBytes []) [] = some [] := by decide
  rw [guestSerialText, ← filter_fileLines,
    mapM_filter_flatten (f := fun l => serialLine (bridgeBytes l) l) hnil, ← iterLines_fst,
    List.mapM_map]
  rfl

theorem guestSerialText_crlf (log : Text) : guestSerialText (crlf log) = guestSerialText log := by
  obtain ⟨l, ls, ls', h, h', hf⟩ := lines_universalNewlines_crlf log
  rw [guestSerialText_eq, guestSerialText_eq, h, h', List.filter_cons, List.filter_cons, hf]

theorem hasText_crlf {target : Text} (ht : Printable target) (hne : target ≠ []) (log : Text) :
    qemuLogHasFirecrackerGuestSerialText target (crlf log) =
      qemuLogHasFirecrackerGuestSerialText target log := by
  rw [qemuLogHasFirecrackerGuestSerialText, qemuLogHasFirecrackerGuestSerialText,
    grep_lit_crlf ht hne, guestSerialText_crlf]

/-! ## Decisions -/

theorem printable_smpTexts (vcpuCount : Nat) : ∀ t ∈ smpTexts vcpuCount, Printable t ∧ t ≠ [] := by
  refine List.forall_mem_cons.2 ⟨?_, List.forall_mem_cons.2 ⟨?_, List.forall_mem_singleton.2 ?_⟩⟩
  · exact ⟨.append (by decide) (printable_digits _), by simp⟩
  · exact ⟨.append (by decide) (printable_digits _), by simp⟩
  · exact ⟨.append (.append (by decide) (printable_digits _)) (by decide), by simp⟩

theorem smpPass_crlf (vcpuCount : Nat) (log : Text) :
    qemuLogHasFirecrackerGuestSmpPass vcpuCount (crlf log) =
      qemuLogHasFirecrackerGuestSmpPass vcpuCount log := by
  have ht := printable_smpTexts vcpuCount
  unfold qemuLogHasFirecrackerGuestSmpPass
  rw [Bool.eq_iff_iff, List.any_eq_true, List.any_eq_true]
  exact exists_congr fun t => and_congr_right fun h => by rw [hasText_crlf (ht t h).1 (ht t h).2]

theorem serialAccepts_crlf (mode : BootMode) (vcpuCount : Nat) (log : Text) :
    serialAccepts mode vcpuCount (crlf log) = serialAccepts mode vcpuCount log := by
  cases mode with
  | initramfs =>
    rw [serialAccepts, serialAccepts, smpPass_crlf, qemuLogHasFirecrackerGuestSerialPass,
      qemuLogHasFirecrackerGuestSerialPass, hasText_crlf (by decide) (by decide),
      hasText_crlf (by decide) (by decide), hasText_crlf (by decide) (by decide)]
  | rootfs => exact hasText_crlf (by decide) (by decide) log

theorem validateFirecrackerGuestResult_crlf (mode : BootMode) (kind : InitKind) (vcpuCount : Nat)
    (log : Text) : validateFirecrackerGuestResult mode kind vcpuCount (crlf log) =
      validateFirecrackerGuestResult mode kind vcpuCount log := by
  have hrootfs : validateRootfs kind (crlf log) = validateRootfs kind log := by
    cases kind with
    | tiny =>
      rw [validateRootfs, validateRootfs, hasText_crlf (by decide) (by decide),
        hasText_crlf (by decide) (by decide)]
    | sh =>
      rw [validateRootfs, validateRootfs, grep_lit_crlf (by decide) (by decide),
        grep_lit_crlf (by decide) (by decide), grep_lit_crlf (by decide) (by decide),
        hasText_crlf (by decide) (by decide), hasText_crlf (by decide) (by decide),
        hasText_crlf (by decide) (by decide)]
  unfold validateFirecrackerGuestResult
  rw [smpPass_crlf, hrootfs]

/-- The marker is a line of the log, and each such line ends in a newline. -/
def OnlyTerminated (m log : Text) : Prop :=
  m ∈ (lines log).dropLast ∧ (lines log).getLast? ≠ some m

theorem grep_whole_crlf {m : Text} (hm : Printable m) (hne : m ≠ []) (log : Text) :
    grep (whole m) (crlf log) = true ↔ (lines log).getLast? = some m := by
  obtain ⟨ls, l, hls, hl, rfl⟩ := exists_above log
  rw [grep_whole_iff hne, lines_crlf hls hl, lines_above_last hls hl, List.getLast?_concat,
    List.mem_append, List.mem_singleton, Option.some.injEq, eq_comm]
  refine or_iff_right fun h => ?_
  obtain ⟨k, -, rfl⟩ := List.mem_map.1 h
  exact absurd (hm '\r' (by simp)) (by decide)

theorem grep_whole_of_crlf {m : Text} (hm : Printable m) (hne : m ≠ []) {log : Text}
    (h : grep (whole m) (crlf log) = true) : grep (whole m) log = true :=
  (grep_whole_iff hne log).2 (List.mem_of_getLast? ((grep_whole_crlf hm hne log).1 h))

theorem onlyTerminated_iff {m : Text} (hm : Printable m) (hne : m ≠ []) (log : Text) :
    OnlyTerminated m log ↔
      grep (whole m) log = true ∧ ¬ grep (whole m) (crlf log) = true := by
  rw [grep_whole_crlf hm hne, grep_whole_iff hne, OnlyTerminated]
  refine and_congr_left fun hlast => ?_
  obtain ⟨ls, l, hl⟩ := List.eq_nil_or_concat (lines log) |>.resolve_left (lines_ne_nil log)
  rw [List.concat_eq_append] at hl
  rw [hl, List.getLast?_concat, Ne, Option.some.injEq] at hlast
  rw [hl, List.dropLast_concat, List.mem_append, List.mem_singleton]
  exact (or_iff_left (Ne.symm hlast)).symm

/-- A round decides the same exactly when it accepts the same. -/
theorem pollOnce_crlf_iff {accepts : Text → Bool} {failMarker : Text} (hf : Printable failMarker)
    (hne : failMarker ≠ []) {log : Text} (h : accepts (crlf log) = true → accepts log = true) :
    (∀ alive, pollOnce accepts failMarker alive (crlf log) =
      pollOnce accepts failMarker alive log) ↔
      ¬ (accepts log = true ∧ ¬ accepts (crlf log) = true) := by
  have hfail := grep_lit_crlf hf hne log
  constructor
  · rintro hsame ⟨ha, hb⟩
    have := hsame true
    rw [pollOnce, pollOnce, if_pos ha, if_neg hb] at this
    split at this <;> cases this
  · intro hno alive
    have hab : accepts (crlf log) = accepts log := by
      rw [Bool.eq_iff_iff]
      exact ⟨h, fun ha => by_contra fun hb => hno ⟨ha, hb⟩⟩
    rw [pollOnce, pollOnce, hab, hfail]

/-- **When the verdicts do not depend on the line endings**: no log line that is the pass marker of
gVisor ends in a newline, unless an unterminated one follows; and likewise for Firecracker, where
the guest's serial output can make up for the marker. -/
theorem verdicts_crlf_iff (mode : BootMode) (kind : InitKind) (vcpuCount : Nat) (log : Text) :
    ((∀ alive, gvisorDecision alive (crlf log) = gvisorDecision alive log) ∧
      (∀ alive, firecrackerDecision mode vcpuCount alive (crlf log) =
        firecrackerDecision mode vcpuCount alive log) ∧
      validateFirecrackerGuestResult mode kind vcpuCount (crlf log) =
        validateFirecrackerGuestResult mode kind vcpuCount log) ↔
    ¬ OnlyTerminated gvisorPass log ∧
      (OnlyTerminated firecrackerPass log → serialAccepts mode vcpuCount log = true) := by
  have hg : Printable gvisorPass ∧ gvisorPass ≠ [] := ⟨by decide, by decide⟩
  have hp : Printable firecrackerPass ∧ firecrackerPass ≠ [] := ⟨by decide, by decide⟩
  have hgv : (∀ alive, gvisorDecision alive (crlf log) = gvisorDecision alive log) ↔
      ¬ OnlyTerminated gvisorPass log := by
    rw [onlyTerminated_iff hg.1 hg.2]
    exact pollOnce_crlf_iff (by decide) (by decide) (grep_whole_of_crlf hg.1 hg.2)
  have hfc : (∀ alive, firecrackerDecision mode vcpuCount alive (crlf log) =
      firecrackerDecision mode vcpuCount alive log) ↔
      (OnlyTerminated firecrackerPass log → serialAccepts mode vcpuCount log = true) := by
    have himp : (grep (whole firecrackerPass) (crlf log) ||
        serialAccepts mode vcpuCount (crlf log)) = true →
        (grep (whole firecrackerPass) log || serialAccepts mode vcpuCount log) = true := by
      rw [serialAccepts_crlf, Bool.or_eq_true, Bool.or_eq_true]
      exact Or.imp_left (grep_whole_of_crlf hp.1 hp.2)
    rw [onlyTerminated_iff hp.1 hp.2]
    refine (pollOnce_crlf_iff (by decide) (by decide) himp).trans ?_
    rw [serialAccepts_crlf, Bool.or_eq_true, Bool.or_eq_true, not_or]
    constructor
    · rintro h ⟨hl, hc⟩
      exact by_contra fun hs => h ⟨.inl hl, hc, hs⟩
    · rintro h ⟨hl | hs, hc, hs'⟩
      · exact hs' (h ⟨hl, hc⟩)
      · exact hs' hs
  rw [hgv, hfc]
  exact and_congr_right fun _ =>
    and_iff_left (validateFirecrackerGuestResult_crlf mode kind vcpuCount log)

/-- The pass line of a run, with the two line endings. -/
theorem gvisorDecision_not_crlf :
    gvisorDecision true (above [gvisorPass]) = .pass ∧
      gvisorDecision true (crlf (above [gvisorPass])) = .wait := by
  have hg : Printable gvisorPass ∧ gvisorPass ≠ [] := ⟨by decide, by decide⟩
  have hlines : lines (above [gvisorPass]) = [gvisorPass, []] :=
    lines_above (List.forall_mem_singleton.2 fun h => absurd (hg.1 _ h) (by decide))
  have hpass : grep (whole gvisorPass) (above [gvisorPass]) = true := by
    rw [grep_whole_iff hg.2, hlines]
    exact List.mem_cons_self
  have hno : ¬ grep (whole gvisorPass) (crlf (above [gvisorPass])) = true := by
    rw [grep_whole_crlf hg.1 hg.2, hlines]
    decide
  have hfail : ¬ grep (lit gvisorFail) (crlf (above [gvisorPass])) = true := by
    rw [grep_lit_crlf (by decide) (by decide), grep_lit_iff (by decide) (by decide)]
    decide
  refine ⟨?_, ?_⟩
  · rw [gvisorDecision, pollOnce, if_pos hpass]
  · rw [gvisorDecision, pollOnce, if_neg hno, if_neg hfail, if_pos rfl]

end Kvm
