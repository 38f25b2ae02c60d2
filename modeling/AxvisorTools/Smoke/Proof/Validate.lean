import AxvisorTools.Smoke.Validate
import AxvisorTools.Text.Proof.Grep
import AxvisorTools.Text.Proof.Matches
import AxvisorTools.Text.Proof.Numeral

/-!
# The GSI checks of the x86 smoke test

`reject_unexpected_x86_gsi_activation` looks at the character after `gsi=19`, the requirement for
`gsi=19` does not, so each of them alone accepts too much: the first a log without an activation,
the second GSI 190. On a log that is text they together accept exactly the logs that activate GSI 19
and no other. But the first one reads what `grep` prints, and of a log with a NUL `grep` prints at
most a part: another GSI passes when it is activated in the rest only (`gsiChecks_iff`).
-/

namespace Smoke

open Regex

variable {l : Text}

/-! ## Activations -/

/-- The line activates GSI `n`. -/
def ActivatesGsi (l : Text) (n : Nat) : Prop :=
  ∃ a c, l = a ++ (activateGsi ++ (Nat.toDigits 10 n ++ c)) ∧ NoDigit c

/-- Some line of the log activates GSI `n`. -/
def Activated (log : Text) (n : Nat) : Prop := ∃ l ∈ lines log, ActivatesGsi l n

/-- The line holds the marker at most once, with a decimal number after it. -/
structure OneActivation (l : Text) : Prop where
  once : ∀ a b a' b', l = a ++ (activateGsi ++ b) → l = a' ++ (activateGsi ++ b') → b = b'
  number : ∀ a b, l = a ++ (activateGsi ++ b) → ∃ n c, b = Nat.toDigits 10 n ++ c ∧ NoDigit c

theorem activatesGsi_of_marked (h : OneActivation l) (hl : activateGsi <:+: l) :
    ∃ n, ActivatesGsi l n := by
  obtain ⟨a, b, rfl⟩ := hl
  obtain ⟨n, c, rfl, hc⟩ := h.number a b (List.append_assoc ..)
  exact ⟨n, a, c, List.append_assoc .., hc⟩

theorem ActivatesGsi.marked {n : Nat} (h : ActivatesGsi l n) : activateGsi <:+: l := by
  obtain ⟨a, c, rfl, -⟩ := h
  exact ⟨a, _, List.append_assoc ..⟩

theorem ActivatesGsi.unique (h : OneActivation l) {m n : Nat} (hm : ActivatesGsi l m)
    (hn : ActivatesGsi l n) : m = n := by
  obtain ⟨a, c, hl, hc⟩ := hm
  obtain ⟨a', c', hl', hc'⟩ := hn
  exact (toDigits_append_inj hc hc' (h.once _ _ _ _ hl hl')).1

theorem found_activateGsi19_iff (hl : '\n' ∉ l) :
    found activateGsi19 l = true ↔ ActivatesGsi l 19 := by
  have h19 : Nat.toDigits 10 19 = ['1', '9'] := by decide
  simp only [found_iff_matches, activateGsi19, matches_seq_iff, matches_lit_iff, matches_alt_iff,
    matches_one_iff, eol, matches_look_iff, ActivatesGsi, h19]
  constructor
  · rintro ⟨a, _, y, _, rfl, _, v, _, _, rfl, rfl, ⟨rfl, rfl⟩, hend⟩
    refine ⟨a, v ++ y, by simp, ?_⟩
    rcases hend with ⟨c, hc, rfl, -⟩ | ⟨hy, rfl, -⟩
    · intro d hd
      obtain rfl : c = d := by simpa using hd
      simpa using hc
    · cases y with
      | nil => simp [NoDigit]
      | cons d y =>
        obtain rfl : d = '\n' := by simpa using hy
        exact absurd (by simp) hl
  · rintro ⟨a, c, rfl, hc⟩
    cases c with
    | nil =>
      exact ⟨a, activateGsi ++ ['1', '9'], [], [], by simp, _, [], [], [], by simp, rfl,
        ⟨rfl, rfl⟩, .inr ⟨rfl, rfl, rfl⟩⟩
    | cons d c =>
      exact ⟨a, activateGsi ++ ['1', '9'] ++ [d], c, [], by simp, _, [d], [], [], rfl, rfl,
        ⟨rfl, rfl⟩, .inl ⟨d, by simp [hc d rfl], rfl, rfl⟩⟩

/-! ## The checks -/

theorem if_error_iff {p : Prop} [Decidable p] (e : Text) :
    (if p then Except.error e else .ok ()) = Except.ok () ↔ ¬p := by
  split <;> simp_all

theorem requireQemuLogAny_iff (log : Text) (description : String) (patterns : List Re) :
    requireQemuLogAny log description patterns = .ok () ↔ patterns.any (grep · log) = true := by
  unfold requireQemuLogAny
  split <;> simp_all

/-- A command substitution is empty when the command prints no line with something in it. -/
theorem substitute_above_eq_nil {ls : List Text} (h : ∀ l ∈ ls, l ≠ [] ∧ '\n' ∉ l) :
    Shell.substitute (above ls) = [] ↔ ls = [] := by
  rw [Shell.substitute, List.rdropWhile_eq_nil_iff]
  refine ⟨fun hall => ?_, fun hls => by simp [hls]⟩
  cases ls with
  | nil => rfl
  | cons l ls =>
    obtain ⟨hne, hnl⟩ := h l List.mem_cons_self
    obtain ⟨c, t, rfl⟩ := List.exists_cons_of_ne_nil hne
    obtain rfl : c = '\n' := by simpa using hall c (by simp)
    exact absurd List.mem_cons_self hnl

theorem ne_nil_of_marked (h : activateGsi <:+: l) : l ≠ [] := by
  rintro rfl
  rw [List.infix_nil] at h
  exact absurd h (by decide)

/-- The first check accepts a log of which all printed lines with the marker activate GSI 19. -/
theorem rejectUnexpected_iff (rule : BinaryRule) (log : Text) :
    rejectUnexpectedX86GsiActivation rule log = .ok () ↔
      ∀ l ∈ rule.printable log, activateGsi <:+: l → ActivatesGsi l 19 := by
  have hmarked : fileLines (grepLines rule (lit activateGsi) log) =
      (rule.printable log).filter (found (lit activateGsi)) :=
    fileLines_above fun l hl => rule.unbroken_printable log l (List.mem_filter.1 hl).1
  have hother : ∀ l ∈ ((rule.printable log).filter (found (lit activateGsi))).filter
      (fun l => !found activateGsi19 l), l ≠ [] ∧ '\n' ∉ l := by
    intro l hl
    obtain ⟨hl, hf⟩ := List.mem_filter.1 (List.mem_filter.1 hl).1
    exact ⟨ne_nil_of_marked ((found_lit _ _).1 hf), rule.unbroken_printable log l hl⟩
  have hok : rejectUnexpectedX86GsiActivation rule log = .ok () ↔
      ((rule.printable log).filter (found (lit activateGsi))).filter
        (fun l => !found activateGsi19 l) = [] := by
    rw [← substitute_above_eq_nil hother, ← hmarked]
    exact (if_error_iff _).trans not_not
  rw [hok, List.filter_filter, List.filter_eq_nil_iff]
  refine forall₂_congr fun l hl => ?_
  rw [← found_activateGsi19_iff (rule.unbroken_printable log l hl), ← found_lit]
  cases found (lit activateGsi) l <;> cases found activateGsi19 l <;> decide

theorem requireGsi19_iff (log : Text) :
    requireGsi19 log = .ok () ↔ ∃ l ∈ lines log, activateGsi ++ ['1', '9'] <:+: l := by
  have hnl : '\n' ∉ activateGsi ++ ['1', '9'] := by decide
  rw [← infix_iff_lines hnl, ← grep_lit_iff hnl (by decide)]
  refine (requireQemuLogAny_iff ..).trans ?_
  rw [List.any_cons, List.any_nil, Bool.or_false]

/-- Another GSI than 19 is activated, but in no line that `grep` prints, and some line has the text that
is required. -/
structure Masked (rule : BinaryRule) (log : Text) : Prop where
  required : ∃ l ∈ lines log, activateGsi ++ ['1', '9'] <:+: l
  other : ∃ n, n ≠ 19 ∧ Activated log n
  unseen : ∀ l ∈ rule.printable log, ∀ n, ActivatesGsi l n → n = 19

theorem not_masked_of_text {rule : BinaryRule} {log : Text} (hnul : '\x00' ∉ log)
    (htext : ∀ l ∈ lines log, rule.broken l = false) : ¬ Masked rule log := by
  rintro ⟨-, ⟨n, hn, l, hl, hact⟩, hunseen⟩
  exact hn (hunseen l ((rule.mem_printable_iff hnul htext (ne_nil_of_marked hact.marked)).2 hl) n
    hact)

section

variable {rule : BinaryRule} {log : Text} (hlog : ∀ l ∈ lines log, OneActivation l)
include hlog

theorem rejectUnexpected_iff_unseen : rejectUnexpectedX86GsiActivation rule log = .ok () ↔
    ∀ l ∈ rule.printable log, ∀ n, ActivatesGsi l n → n = 19 := by
  rw [rejectUnexpected_iff]
  refine forall₂_congr fun l hl => ⟨fun h n hn => ?_, fun h hmark => ?_⟩
  · have hline := hlog l (rule.mem_printable hl (ne_nil_of_marked hn.marked))
    exact hn.unique hline (h hn.marked)
  · have hline := hlog l (rule.mem_printable hl (ne_nil_of_marked hmark))
    obtain ⟨n, hn⟩ := activatesGsi_of_marked hline hmark
    exact h n hn ▸ hn

theorem gsiChecks_of_activated (h : ∀ n, Activated log n ↔ n = 19) :
    rejectUnexpectedX86GsiActivation rule log = .ok () ∧ requireGsi19 log = .ok () := by
  rw [rejectUnexpected_iff_unseen hlog, requireGsi19_iff]
  constructor
  · intro l hl n hn
    exact (h n).1 ⟨l, rule.mem_printable hl (ne_nil_of_marked hn.marked), hn⟩
  · obtain ⟨l, hl, a, c, rfl, -⟩ := (h 19).2 rfl
    have h19 : Nat.toDigits 10 19 = ['1', '9'] := by decide
    exact ⟨_, hl, a, c, by rw [h19]; simp⟩

/-- A log that passes both checks activates GSI 19 and no other, unless it hides one. -/
theorem activated_iff (hmask : ¬ Masked rule log)
    (hreject : rejectUnexpectedX86GsiActivation rule log = .ok ())
    (hrequire : requireGsi19 log = .ok ()) (n : Nat) : Activated log n ↔ n = 19 := by
  have hunseen := (rejectUnexpected_iff_unseen hlog).1 hreject
  have hrequired := (requireGsi19_iff log).1 hrequire
  have honly : ∀ m, Activated log m → m = 19 := fun m hm =>
    by_contra fun hne => hmask ⟨hrequired, ⟨m, hne, hm⟩, hunseen⟩
  refine ⟨honly n, ?_⟩
  rintro rfl
  obtain ⟨l, hl, h19⟩ := hrequired
  have hmark : activateGsi <:+: l := (List.prefix_append _ _).isInfix.trans h19
  obtain ⟨m, hm⟩ := activatesGsi_of_marked (hlog l hl) hmark
  exact honly m ⟨l, hl, hm⟩ ▸ ⟨l, hl, hm⟩

end

/-- **When the GSI checks accept exactly `{19}`.** On a log whose lines hold the marker at most once,
and with a decimal number after it, the two checks succeed just when GSI 19 is activated and no other
GSI is, unless the log has another one where `grep` prints nothing. -/
theorem gsiChecks_iff (rule : BinaryRule) (log : Text) (hlog : ∀ l ∈ lines log, OneActivation l) :
    ((rejectUnexpectedX86GsiActivation rule log = .ok () ∧ requireGsi19 log = .ok ()) ↔
      ∀ n, Activated log n ↔ n = 19) ↔ ¬ Masked rule log := by
  constructor
  · rintro h ⟨hrequired, ⟨n, hn, hact⟩, hunseen⟩
    have hchecks := h.1 ⟨(rejectUnexpected_iff_unseen hlog).2 hunseen,
      (requireGsi19_iff log).2 hrequired⟩
    exact hn ((hchecks n).1 hact)
  · intro hmask
    exact ⟨fun h => activated_iff hlog hmask h.1 h.2, gsiChecks_of_activated hlog⟩

/-- A line with one marker: its first letter is in neither part around it. -/
theorem oneActivation_line {u v : Text} (n : Nat) (hu : 'x' ∉ u) (hv : 'x' ∉ v) (hend : NoDigit v) :
    OneActivation (u ++ (activateGsi ++ (Nat.toDigits 10 n ++ v))) := by
  have hhead : activateGsi = 'x' :: activateGsi.tail := by decide
  have htail : 'x' ∉ activateGsi.tail ++ (Nat.toDigits 10 n ++ v) := by
    have hmark : 'x' ∉ activateGsi.tail := by decide
    have hdigits : 'x' ∉ Nat.toDigits 10 n := fun h => absurd (isDigit_of_mem_toDigits h) (by decide)
    simp [hmark, hdigits, hv]
  have hplace : ∀ a b, u ++ (activateGsi ++ (Nat.toDigits 10 n ++ v)) = a ++ (activateGsi ++ b) →
      b = Nat.toDigits 10 n ++ v := by
    intro a b h
    rw [hhead] at h
    obtain ⟨-, -, hb⟩ := (List.append_cons_inj_of_notMem hu htail).1 h
    exact (List.append_cancel_left hb).symm
  refine ⟨fun a b a' b' h h' => ?_, fun a b h => ?_⟩
  · rw [hplace a b h, hplace a' b' h']
  · exact ⟨n, v, hplace a b h, hend⟩

theorem oneActivation_unmarked (h : ¬activateGsi <:+: l) : OneActivation l :=
  ⟨fun a b _ _ hl _ => absurd ⟨a, b, by rw [hl, List.append_assoc]⟩ h,
    fun a b hl => absurd ⟨a, b, by rw [hl, List.append_assoc]⟩ h⟩

/-- GSI 190 alone passes the requirement but not both checks. -/
theorem gsiChecks_190 :
    ¬(rejectUnexpectedX86GsiActivation .oneBuffer (activateGsi ++ "190\n") = .ok () ∧
      requireGsi19 (activateGsi ++ "190\n") = .ok ()) := by
  have hlines : lines (activateGsi ++ "190\n") =
      [activateGsi ++ (Nat.toDigits 10 190 ++ []), []] := by decide
  have hone : OneActivation (activateGsi ++ (Nat.toDigits 10 190 ++ [])) :=
    @oneActivation_line [] [] 190 (by decide) (by decide) (by decide)
  have hlog : ∀ l ∈ lines (activateGsi ++ "190\n"), OneActivation l := by
    rw [hlines]
    simp only [List.forall_mem_cons, List.not_mem_nil, false_implies, implies_true, and_true]
    exact ⟨hone, oneActivation_unmarked (by decide)⟩
  intro h
  have hact : Activated (activateGsi ++ "190\n") 190 := by
    refine ⟨_, by rw [hlines]; exact List.mem_cons_self, [], [], rfl, by decide⟩
  have hmask : ¬ Masked .oneBuffer (activateGsi ++ "190\n") :=
    not_masked_of_text (by decide) fun _ _ => rfl
  exact absurd ((((gsiChecks_iff .oneBuffer _ hlog).2 hmask).1 h 190).1 hact) (by decide)

/-- A log with a NUL at its end that activates GSI 20 and GSI 19. -/
def nulLog : Text := above [activateGsi ++ ['2', '0'], activateGsi ++ ['1', '9']] ++ ['\x00']

theorem lines_nulLog : lines nulLog =
    [activateGsi ++ (Nat.toDigits 10 20 ++ []), activateGsi ++ (Nat.toDigits 10 19 ++ []),
      ['\x00']] := by decide

/-- Both checks succeed on it. -/
theorem gsiChecks_nulLog : (∀ l ∈ lines nulLog, OneActivation l) ∧
    rejectUnexpectedX86GsiActivation .oneBuffer nulLog = .ok () ∧ requireGsi19 nulLog = .ok () ∧
    Activated nulLog 20 := by
  refine ⟨?_, by decide +kernel, by decide +kernel, ?_⟩
  · have hone (n : Nat) : OneActivation (activateGsi ++ (Nat.toDigits 10 n ++ [])) :=
      @oneActivation_line [] [] n (by decide) (by decide) (by decide)
    rw [lines_nulLog]
    simp only [List.forall_mem_cons, List.not_mem_nil, false_implies, implies_true, and_true]
    exact ⟨hone 20, hone 19, oneActivation_unmarked (by decide)⟩
  · exact ⟨_, by rw [lines_nulLog]; exact List.mem_cons_self, [], [], rfl, by decide⟩

end Smoke
