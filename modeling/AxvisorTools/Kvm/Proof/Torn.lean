import AxvisorTools.Kvm.Proof.Serial
import AxvisorTools.Text.Proof.Grep

/-!
# Markers between spliced lines

The search looks at the guest's bytes alone, the decoder puts whole host lines between them. The
decoded file therefore falls into stretches: guest bytes up to and including the text of the next
spliced line. A marker without a newline is in the file exactly when it is in one of the stretches
(`infix_decoded_iff`), so an accepted marker is lost exactly when spliced lines tear it apart
(`accepted_in_evidence_iff`).
-/

namespace Kvm

open Regex Py

/-- What the decoder puts into the file for a line that the search passes over. -/
def splicedText (l : Text) : Option Text :=
  match search Eval.ioWrite l, bridgeChar l with
  | none, none => directText l
  | _, _ => none

/-- What the search takes from a line. -/
def guestBytes (p : Text × Text) : Bytes := (serialLine (bridgeBytes p.1) p.1).getD []

/-- The guest's bytes between two spliced lines, each time with the line that ends them; `run` are the
bytes since the last one. -/
def stretchesFrom (run : Bytes) : List (Text × Text) → List Bytes
  | [] => [run]
  | p :: ps =>
    match splicedText p.1 with
    | some t => (run ++ encode t) :: stretchesFrom [] ps
    | none => stretchesFrom (run ++ guestBytes p) ps

def stretches (log : Text) : List Bytes := stretchesFrom [] (iterLines (universalNewlines log))

/-! ## Newlines -/

theorem newline_of_mem_encodeChar {c : Char} (h : (10 : UInt8) ∈ String.utf8EncodeChar c) :
    c = '\n' := by
  have hbyte : ∀ n, (10 : UInt8) = UInt8.ofNat n ↔ n % 256 = 10 := by
    intro n
    rw [← UInt8.toNat_inj, UInt8.toNat_ofNat']
    exact eq_comm
  rw [String.utf8EncodeChar] at h
  split at h
  · rw [List.mem_singleton, hbyte] at h
    have hval : c.val.toNat = 10 := by omega
    exact Char.ext (UInt32.toNat_inj.1 hval)
  split at h
  · simp only [List.mem_cons, hbyte, List.not_mem_nil, or_false] at h
    omega
  split at h
  · simp only [List.mem_cons, hbyte, List.not_mem_nil, or_false] at h
    omega
  · simp only [List.mem_cons, hbyte, List.not_mem_nil, or_false] at h
    omega

theorem newline_not_mem_encode {m : Text} (hm : '\n' ∉ m) : (10 : UInt8) ∉ encode m := by
  intro h
  obtain ⟨c, hc, hbyte⟩ := List.mem_flatMap.1 h
  rw [newline_of_mem_encodeChar hbyte] at hc
  exact hm hc

/-- Every line but the last ends with a newline. -/
inductive Ended : List (Text × Text) → Prop
  | nil : Ended []
  | last (l : Text) : Ended [(l, [])]
  | cons (l : Text) {ps : List (Text × Text)} (h : Ended ps) : Ended ((l, ['\n']) :: ps)

theorem ended_iterLines (t : Text) : Ended (iterLines t) := by
  unfold iterLines
  generalize (lines t).dropLast = ls
  induction ls with
  | nil =>
    split
    · exact .last _
    · exact .nil
  | cons l ls ih => exact .cons l ih

/-! ## Stretches -/

theorem taken_of_spliced {l newline t : Text} (h : splicedText l = some t) :
    taken (l, newline) = encode t ++ encode newline ∧ guestBytes (l, newline) = [] := by
  unfold splicedText at h
  split at h
  · rename_i hsearch hbridge
    constructor
    · rw [taken, serialLine, hsearch, Option.getD_some, otherBytes, hbridge, h]
      exact List.flatMap_append
    · rw [guestBytes, serialLine, hsearch, Option.getD_some, bridgeBytes, hbridge]
  · cases h

theorem taken_of_not_spliced {l newline : Text} (h : splicedText l = none) :
    taken (l, newline) = guestBytes (l, newline) := by
  unfold taken guestBytes serialLine
  cases hsearch : search Eval.ioWrite l with
  | some r => rfl
  | none =>
    rw [Option.getD_some, Option.getD_some, otherBytes, bridgeBytes]
    cases hbridge : bridgeChar l with
    | some c => rfl
    | none =>
      have hdirect : directText l = none := by simpa only [splicedText, hsearch, hbridge] using h
      simp only [hdirect]

/-- What is decoded from some lines has the marker exactly when one of the stretches has it. -/
theorem infix_taken_iff {m : Bytes} (hm : (10 : UInt8) ∉ m) {ps : List (Text × Text)}
    (h : Ended ps) (run : Bytes) :
    m <:+: run ++ ps.flatMap taken ↔ ∃ s ∈ stretchesFrom run ps, m <:+: s := by
  induction h generalizing run with
  | nil => simp [stretchesFrom]
  | last l =>
    rw [stretchesFrom, List.flatMap_singleton]
    cases hs : splicedText l with
    | some t =>
      have hempty : m <:+: [] → m <:+: run ++ encode t := fun h =>
        List.infix_nil.1 h ▸ List.nil_infix
      have hnil : encode [] = [] := rfl
      simpa [stretchesFrom, (taken_of_spliced hs).1, hnil] using hempty
    | none => simp [stretchesFrom, taken_of_not_spliced hs]
  | cons l h ih =>
    rw [stretchesFrom, List.flatMap_cons, ← List.append_assoc]
    cases hs : splicedText l with
    | some t =>
      have hnewline : encode ['\n'] = [10] := by decide
      rw [(taken_of_spliced hs).1, hnewline, ← List.append_assoc, List.append_assoc _ [10],
        List.singleton_append, infix_append_sep hm]
      have hrest := ih []
      rw [List.nil_append] at hrest
      rw [hrest]
      simp
    | none =>
      rw [taken_of_not_spliced hs]
      exact ih _

theorem infix_decoded_iff {m log : Text} (hm : '\n' ∉ m)
    (hlog : ∀ p ∈ iterLines (universalNewlines log), ¬ Oversized p.1) :
    (∃ out, decodeFirecrackerGuestSerial log = some out ∧ encode m <:+: out) ↔
      ∃ s ∈ stretches log, encode m <:+: s := by
  have h := infix_taken_iff (newline_not_mem_encode hm)
    (ended_iterLines (universalNewlines log)) []
  rw [List.nil_append] at h
  rw [decodeFirecrackerGuestSerial, decode_taken hlog, stretches, ← h]
  simp

theorem not_oversized_of_guestSerialText {log : Text} {serial : Bytes}
    (h : guestSerialText log = some serial) :
    ∀ p ∈ iterLines (universalNewlines log), ¬ Oversized p.1 := by
  intro p hp hover
  obtain ⟨r, hr, -⟩ := Option.map_eq_some_iff.1 h
  have hsome := isSome_of_mapM hr p hp
  rw [(serialLine_eq_none _ _).2 hover] at hsome
  cases hsome

/-- The marker is somewhere in the stored evidence. -/
def InEvidence (m log : Text) : Prop :=
  m <:+: log ∨ ∃ out, decodeFirecrackerGuestSerial log = some out ∧ encode m <:+: out

/-- **When an accepted marker is in the stored evidence**: exactly when it is in the log, or the guest
did not send it at all, or one of the stretches between spliced lines has it whole. -/
theorem accepted_in_evidence_iff (log m : Text) (hm : '\n' ∉ m) :
    (qemuLogHasFirecrackerGuestSerialText m log = true → InEvidence m log) ↔
      m <:+: log ∨ (∀ serial, guestSerialText log = some serial → ¬ encode m <:+: serial) ∨
        ∃ s ∈ stretches log, encode m <:+: s := by
  by_cases hlog : m <:+: log
  · exact iff_of_true (fun _ => .inl hlog) (.inl hlog)
  have hne : m ≠ [] := by
    rintro rfl
    exact hlog List.nil_infix
  have hgrep : grep (lit m) log = false := by
    rw [← Bool.not_eq_true, grep_lit_iff hm hne]
    exact hlog
  rw [InEvidence, or_iff_right hlog, or_iff_right hlog, qemuLogHasFirecrackerGuestSerialText, hgrep,
    Bool.false_or]
  cases hserial : guestSerialText log with
  | none => simp
  | some serial =>
    rw [infix_decoded_iff hm (not_oversized_of_guestSerialText hserial)]
    simp only [decide_eq_true_eq, Option.some.injEq, forall_eq']
    exact imp_iff_not_or

/-- A log that reports the two letters of a marker. -/
theorem accepted_in_evidence_whole : '\n' ∉ "OK".toList ∧
    (qemuLogHasFirecrackerGuestSerialText "OK" (above [recordLine 79, recordLine 75]) = true →
      InEvidence "OK" (above [recordLine 79, recordLine 75])) := by
  refine ⟨by decide, (accepted_in_evidence_iff _ _ (by decide)).2 (.inr (.inr ?_))⟩
  exact ⟨encode "OK".toList, by decide +kernel, List.infix_rfl⟩

/-- A host line between the two letters tears the marker apart, and it is nowhere in the evidence. -/
theorem accepted_not_in_evidence :
    qemuLogHasFirecrackerGuestSerialText "OK"
        (above [recordLine 79, "FC_PASS=1", recordLine 75]) = true ∧
      ¬ InEvidence "OK" (above [recordLine 79, "FC_PASS=1", recordLine 75]) := by
  have hout : decodeFirecrackerGuestSerial
      (above [recordLine 79, "FC_PASS=1", recordLine 75]) =
        some (encode "OFC_PASS=1\nK") := by decide +kernel
  refine ⟨by decide +kernel, ?_⟩
  intro h
  rcases h with h | ⟨out, hdecoded, h⟩
  · exact absurd h (by decide +kernel)
  · rw [hout, Option.some.injEq] at hdecoded
    rw [← hdecoded] at h
    exact absurd h (by decide +kernel)

end Kvm
