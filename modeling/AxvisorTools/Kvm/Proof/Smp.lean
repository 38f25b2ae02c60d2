import AxvisorTools.Kvm.Proof.Verdict
import AxvisorTools.Text.Proof.Numeral

/-!
# The CPU count behind the SMP verdict

The verifier searches the log and the serial output for the count it expects, and in two of the
three forms does not look at what follows the digits: `CPUINFO_COUNT=2` is found in a report of 20
CPUs. `smpPass_iff` says what the search accepts on a log whose reports agree on a count, and
`smpCount_iff` on which of these logs the verdict means that count.
-/

namespace Kvm

open Regex Py

/-! ## Searching the log and the serial output -/

/-- The texts searched: the log and the serial output decoded from it. -/
def guestTexts (log : Text) : List Text := log :: ((guestSerialText log).map byteText).toList

theorem utf8EncodeChar_ascii {c : Char} (h : c.toNat < 128) :
    String.utf8EncodeChar c = [UInt8.ofNat c.toNat] := by
  unfold String.utf8EncodeChar
  rw [if_pos (by simpa using Nat.lt_succ_iff.1 h)]
  rfl

theorem byteText_encode {t : Text} (h : ∀ c ∈ t, c.toNat < 128) : byteText (encode t) = t := by
  induction t with
  | nil => rfl
  | cons c t ih =>
    have hc : c.toNat < 128 := h c List.mem_cons_self
    have hbyte : Char.ofNat (UInt8.ofNat c.toNat).toNat = c := by
      rw [UInt8.toNat_ofNat', Nat.mod_eq_of_lt (by omega), Char.ofNat_toNat]
    rw [encode, List.flatMap_cons, utf8EncodeChar_ascii hc]
    exact congrArg₂ List.cons hbyte (ih fun d hd => h d (List.mem_cons_of_mem _ hd))

theorem byteText_injective : Function.Injective byteText := by
  refine List.map_injective_iff.2 fun x y h => ?_
  have hvalid : ∀ b : UInt8, b.toNat.isValidChar := fun b => .inl (by have := b.toNat_lt; omega)
  have hcode := congrArg Char.toNat h
  rw [toNat_ofNat_of_valid (hvalid x), toNat_ofNat_of_valid (hvalid y)] at hcode
  exact UInt8.toNat_inj.1 hcode

theorem byteText_append (a b : Bytes) : byteText (a ++ b) = byteText a ++ byteText b :=
  List.map_append

/-- An ASCII text is searched in bytes as in their characters. -/
theorem encode_infix_iff {target : Text} (h : ∀ c ∈ target, c.toNat < 128) (serial : Bytes) :
    encode target <:+: serial ↔ target <:+: byteText serial := by
  constructor
  · rintro ⟨a, b, rfl⟩
    exact ⟨byteText a, byteText b, by rw [byteText_append, byteText_append, byteText_encode h]⟩
  · rintro ⟨a, b, hab⟩
    obtain ⟨ab', b', rfl, hab', rfl⟩ := List.map_eq_append_iff.1 hab.symm
    obtain ⟨a', m, rfl, rfl, hm⟩ := List.map_eq_append_iff.1 hab'
    have hencode : encode target = m := byteText_injective ((byteText_encode h).trans hm.symm)
    exact ⟨a', b', by rw [hencode]⟩

theorem hasText_iff {target : Text} (h : Printable target) (hne : target ≠ []) (log : Text) :
    qemuLogHasFirecrackerGuestSerialText target log = true ↔
      ∃ t ∈ guestTexts log, target <:+: t := by
  have hnl : '\n' ∉ target := fun hm => absurd (h _ hm) (by decide)
  have hascii : ∀ c ∈ target, c.toNat < 128 := fun c hc =>
    Nat.lt_of_le_of_lt (show c.toNat ≤ '~'.toNat from (h c hc).2) (by decide)
  rw [qemuLogHasFirecrackerGuestSerialText, Bool.or_eq_true, grep_lit_iff hnl hne, guestTexts,
    List.exists_mem_cons_iff]
  refine or_congr_right ?_
  cases guestSerialText log with
  | none => simp
  | some serial => simp [encode_infix_iff hascii]

/-! ## Reports of the CPU count -/

def onlineHead : Text := "AXVISOR_FIRECRACKER_GUEST_CPU_ONLINE="
def cpuinfoHead : Text := "AXVISOR_FIRECRACKER_GUEST_CPUINFO_COUNT="
def broughtUpHead : Text := "smp: Brought up "

/-- The text reports CPUs in the three known forms only, and every report says `k + 1`. -/
structure Reports (t : Text) (k : Nat) : Prop where
  online : ∀ a b, t = a ++ (onlineHead ++ b) →
    ∃ c, b = "0-" ++ (Nat.toDigits 10 k ++ c) ∧ NoDigit c
  cpuinfo : ∀ a b, t = a ++ (cpuinfoHead ++ b) →
    ∃ c, b = Nat.toDigits 10 (k + 1) ++ c ∧ NoDigit c
  broughtUp : ∀ a b, t = a ++ (broughtUpHead ++ b) →
    ∃ c, b = "1 node, " ++ (Nat.toDigits 10 (k + 1) ++ (" CPUs" ++ c))

/-- The head of a form occurs in the log or in the serial output. -/
def Occurs (log head : Text) : Prop := ∃ t ∈ guestTexts log, head <:+: t

/-- The guest reports `k + 1` CPUs, through the three forms only. -/
structure ReportsCpus (log : Text) (k : Nat) : Prop where
  agree : ∀ t ∈ guestTexts log, Reports t k
  some : Occurs log onlineHead ∨ Occurs log cpuinfoHead ∨ Occurs log broughtUpHead

/-- Searching for a form with other digits: what follows the head decides. -/
theorem infix_head_iff {t head rest : Text} {p : Prop}
    (h : ∀ a b, t = a ++ (head ++ b) → (rest <+: b ↔ p)) :
    head ++ rest <:+: t ↔ head <:+: t ∧ p := by
  constructor
  · rintro ⟨a, b, rfl⟩
    exact ⟨⟨a, rest ++ b, by simp⟩, (h a (rest ++ b) (by simp)).1 (List.prefix_append _ _)⟩
  · rintro ⟨⟨a, b, rfl⟩, hp⟩
    obtain ⟨c, rfl⟩ := (h a b (by simp)).2 hp
    exact ⟨a, c, by simp⟩

variable {t : Text} {k n : Nat}

theorem Reports.online_iff (h : Reports t k) (m : Nat) :
    onlineHead ++ ("0-".toList ++ Nat.toDigits 10 m) <:+: t ↔
      onlineHead <:+: t ∧ Nat.toDigits 10 m <+: Nat.toDigits 10 k := by
  refine infix_head_iff fun a b hab => ?_
  obtain ⟨c, rfl, hc⟩ := h.online a b hab
  rw [List.prefix_append_right_inj, prefix_toDigits_append (fun _ => isDigit_of_mem_toDigits) hc]

theorem Reports.cpuinfo_iff (h : Reports t k) (m : Nat) :
    cpuinfoHead ++ Nat.toDigits 10 m <:+: t ↔
      cpuinfoHead <:+: t ∧ Nat.toDigits 10 m <+: Nat.toDigits 10 (k + 1) := by
  refine infix_head_iff fun a b hab => ?_
  obtain ⟨c, rfl, hc⟩ := h.cpuinfo a b hab
  exact prefix_toDigits_append (fun _ => isDigit_of_mem_toDigits) hc

theorem Reports.broughtUp_iff (h : Reports t k) (m : Nat) :
    broughtUpHead ++ ("1 node, ".toList ++ (Nat.toDigits 10 m ++ " CPUs".toList)) <:+: t ↔
      broughtUpHead <:+: t ∧ m = k + 1 := by
  refine infix_head_iff fun a b hab => ?_
  obtain ⟨c, rfl⟩ := h.broughtUp a b hab
  rw [List.prefix_append_right_inj]
  constructor
  · rintro ⟨d, hd⟩
    rw [List.append_assoc] at hd
    exact (toDigits_append_inj (by simp [NoDigit]) (by simp [NoDigit]) hd).1
  · rintro rfl
    exact ⟨c, by simp⟩

theorem smpTexts_eq (n : Nat) : smpTexts n =
    [onlineHead ++ ("0-".toList ++ Nat.toDigits 10 (n - 1)), cpuinfoHead ++ Nat.toDigits 10 n,
      broughtUpHead ++ ("1 node, ".toList ++ (Nat.toDigits 10 n ++ " CPUs".toList))] := by
  have honline : "AXVISOR_FIRECRACKER_GUEST_CPU_ONLINE=0-".toList = onlineHead ++ "0-".toList := by
    decide +kernel
  have hbroughtUp : "smp: Brought up 1 node, ".toList = broughtUpHead ++ "1 node, ".toList := by
    decide +kernel
  have hfirst := (congrArg (· ++ Nat.toDigits 10 (n - 1)) honline).trans (List.append_assoc ..)
  have hlast := (congrArg (· ++ Nat.toDigits 10 n ++ " CPUs".toList) hbroughtUp).trans
    ((congrArg (· ++ " CPUs".toList) (List.append_assoc ..)).trans (List.append_assoc ..))
  rw [List.append_assoc] at hlast
  exact congrArg₂ (fun a b => [a, cpuinfoHead ++ Nat.toDigits 10 n, b]) hfirst hlast

/-- What the search for `n` accepts when the guest reports `k + 1` CPUs. -/
theorem smpPass_iff {log : Text} (h : ReportsCpus log k) (n : Nat) :
    qemuLogHasFirecrackerGuestSmpPass n log = true ↔
      Occurs log onlineHead ∧ Nat.toDigits 10 (n - 1) <+: Nat.toDigits 10 k ∨
      Occurs log cpuinfoHead ∧ Nat.toDigits 10 n <+: Nat.toDigits 10 (k + 1) ∨
      Occurs log broughtUpHead ∧ n = k + 1 := by
  have hhas : ∀ head rest p, head ++ rest ∈ smpTexts n →
      (∀ t, Reports t k → (head ++ rest <:+: t ↔ head <:+: t ∧ p)) →
      (qemuLogHasFirecrackerGuestSerialText (head ++ rest) log = true ↔ Occurs log head ∧ p) := by
    intro head rest p hmem hform
    obtain ⟨hprint, hne⟩ := printable_smpTexts n _ hmem
    rw [hasText_iff hprint hne]
    constructor
    · rintro ⟨t, ht, hin⟩
      obtain ⟨hhead, hp⟩ := (hform t (h.agree t ht)).1 hin
      exact ⟨⟨t, ht, hhead⟩, hp⟩
    · rintro ⟨⟨t, ht, hhead⟩, hp⟩
      exact ⟨t, ht, (hform t (h.agree t ht)).2 ⟨hhead, hp⟩⟩
  rw [smpTexts_eq] at hhas
  rw [qemuLogHasFirecrackerGuestSmpPass, smpTexts_eq]
  simp only [List.any_cons, List.any_nil, Bool.or_false, Bool.or_eq_true]
  rw [hhas _ _ _ (by simp) fun t ht => ht.online_iff _,
    hhas _ _ _ (by simp) fun t ht => ht.cpuinfo_iff _,
    hhas _ _ _ (by simp) fun t ht => ht.broughtUp_iff _]

/-! ## A report of twenty CPUs -/

def twentyLog : Text := cpuinfoHead ++ "20\n"

theorem not_occurs {t head a b : Text} (h : ¬head <:+: t) : t ≠ a ++ (head ++ b) :=
  fun ht => h ⟨a, b, by rw [ht, List.append_assoc]⟩

theorem reports_twentyLog : Reports twentyLog 19 := by
  have honline : ¬onlineHead <:+: twentyLog := by decide +kernel
  have hbroughtUp : ¬broughtUpHead <:+: twentyLog := by decide +kernel
  refine ⟨fun a b h => absurd h (not_occurs honline), fun a b h => ?_,
    fun a b h => absurd h (not_occurs hbroughtUp)⟩
  have hhead : cpuinfoHead = cpuinfoHead.dropLast ++ ['='] := by decide +kernel
  have hinit : '=' ∉ cpuinfoHead.dropLast := by decide +kernel
  have hrest : '=' ∉ "20\n".toList := by decide
  have hsplit : cpuinfoHead.dropLast ++ '=' :: "20\n".toList =
      (a ++ cpuinfoHead.dropLast) ++ '=' :: b := by
    rw [twentyLog, hhead] at h
    simpa using h
  obtain ⟨-, -, rfl⟩ := (List.append_cons_inj_of_notMem hinit hrest).1 hsplit
  exact ⟨['\n'], by decide, by decide⟩

theorem reportsCpus_twentyLog : ReportsCpus twentyLog 19 := by
  have htexts : guestTexts twentyLog = [twentyLog, []] := by decide +kernel
  constructor
  · rw [htexts]
    simp only [List.forall_mem_cons, List.not_mem_nil, false_implies, implies_true, and_true]
    refine ⟨reports_twentyLog, fun a b h => absurd h (not_occurs (by decide +kernel)),
      fun a b h => absurd h (not_occurs (by decide +kernel)),
      fun a b h => absurd h (not_occurs (by decide +kernel))⟩
  · exact .inr (.inl ⟨twentyLog, List.mem_cons_self, [], "20\n", rfl⟩)

/-! ## The verdict -/

/-- **The SMP verdict and the CPU count.** On a log whose reports agree on `k + 1` CPUs, the checks
for `n` vCPUs accept if and only if `k + 1 = n`, unless a count that is not `n` starts with the
digits searched for, in one of the two forms whose end is not checked. -/
theorem smpCount_iff (log : Text) (k n : Nat) (hn : 2 ≤ n) (h : ReportsCpus log k) :
    ((∀ kind, validateFirecrackerGuestResult .initramfs kind n log = true ↔ k + 1 = n) ∧
      (qemuLogHasFirecrackerGuestSmpPass n log = true ↔ k + 1 = n)) ↔
    (k + 1 = n ∨
      ¬(Occurs log onlineHead ∧ Nat.toDigits 10 (n - 1) <+: Nat.toDigits 10 k) ∧
      ¬(Occurs log cpuinfoHead ∧ Nat.toDigits 10 n <+: Nat.toDigits 10 (k + 1))) := by
  have hvalidate : ∀ kind, validateFirecrackerGuestResult .initramfs kind n log =
      qemuLogHasFirecrackerGuestSmpPass n log := by
    intro kind
    have hle : decide (n ≤ 1) = false := by simp; omega
    simp [validateFirecrackerGuestResult, hle]
  have hboth : ((∀ kind, validateFirecrackerGuestResult .initramfs kind n log = true ↔ k + 1 = n) ∧
      (qemuLogHasFirecrackerGuestSmpPass n log = true ↔ k + 1 = n)) ↔
      (qemuLogHasFirecrackerGuestSmpPass n log = true ↔ k + 1 = n) :=
    and_iff_right_of_imp fun hpass kind => hvalidate kind ▸ hpass
  rw [hboth, smpPass_iff h n]
  by_cases hk : k + 1 = n
  · -- the right count is accepted in every form
    subst hk
    simpa using h.some
  · simp only [hk, false_or, iff_false, not_or, Ne.symm hk, and_false, not_false_iff, and_true]

/-- Two vCPUs are taken for twenty. -/
theorem smpPass_twentyLog : ReportsCpus twentyLog 19 ∧
    qemuLogHasFirecrackerGuestSmpPass 2 twentyLog = true ∧
    ∀ kind, validateFirecrackerGuestResult .initramfs kind 2 twentyLog = true := by
  have hpass : qemuLogHasFirecrackerGuestSmpPass 2 twentyLog = true :=
    (smpPass_iff reportsCpus_twentyLog 2).2
      (.inr (.inl ⟨⟨twentyLog, List.mem_cons_self, [], "20\n", rfl⟩, by decide⟩))
  refine ⟨reportsCpus_twentyLog, hpass, fun kind => ?_⟩
  rw [validateFirecrackerGuestResult, hpass]
  rfl

/-- Three vCPUs are not. -/
theorem smpVerdict_twentyLog :
    qemuLogHasFirecrackerGuestSmpPass 3 twentyLog = true ↔ 19 + 1 = 3 :=
  ((smpCount_iff twentyLog 19 3 (by decide) reportsCpus_twentyLog).2
    (.inr ⟨fun h => absurd h.2 (by decide), fun h => absurd h.2 (by decide)⟩)).2

end Kvm
