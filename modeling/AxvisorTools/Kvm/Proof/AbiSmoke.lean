import AxvisorTools.Kvm.AbiSmoke
import AxvisorTools.Text.Proof.Grep
import AxvisorTools.Text.Proof.Numeral

/-!
# What the smoke programs print

The log of the KVM ABI smoke test is searched for markers. `Prints` and `Discreet`: no program prints
a marker that is not its own, neither in its results nor in the complaint it dies with. The texts in
question have a number, a device name or an error text in them; what separates these from the fixed
part (`=`, a blank, a parenthesis) is in no marker, so that each part can be looked at by itself
(`lacks_sep`).
-/

namespace Kvm.AbiSmoke

open Checks Py

variable {what : String} {test : Reply → Bool}

/-! ## Texts without markers -/

/-- None of the texts `ms` is in `t`. -/
def Lacks (ms : List Text) (t : Text) : Prop := ∀ m ∈ ms, ¬ m <:+: t

instance (ms : List Text) (t : Text) : Decidable (Lacks ms t) :=
  inferInstanceAs (Decidable (∀ m ∈ ms, ¬ m <:+: t))

variable {ms : List Text} {a b t : Text} {c : Char}

theorem lacks_lit {s : String} {l : List Char} (h : s = String.ofList l) (hl : Lacks ms l) :
    Lacks ms s.toList := by
  rwa [h, String.toList_ofList]

theorem lacks_sep (hms : ∀ m ∈ ms, c ∉ m) : Lacks ms (a ++ c :: b) ↔ Lacks ms a ∧ Lacks ms b := by
  simp only [Lacks, ← forall_and]
  refine forall₂_congr fun m hm => ?_
  rw [infix_append_sep (hms m hm), not_or]

theorem lacks_cons (hms : ∀ m ∈ ms, c ∉ m) (hne : ∀ m ∈ ms, m ≠ []) :
    Lacks ms (c :: b) ↔ Lacks ms b := by
  have hnil : Lacks ms [] := fun m hm h => hne m hm (List.infix_nil.1 h)
  simpa [hnil] using lacks_sep (a := []) (b := b) hms

/-- The characters of numbers and of device names. -/
def plainChar (c : Char) : Bool := c.isLower || c.isDigit || c ∈ ['-', '_', '/']

/-- What is asked of markers: no newline and no `=`, and a character that numbers and device names
do not have. -/
def Marking (ms : List Text) : Prop :=
  ∀ m ∈ ms, '\n' ∉ m ∧ '=' ∉ m ∧ m ≠ [] ∧ m.all plainChar = false

instance (ms : List Text) : Decidable (Marking ms) :=
  inferInstanceAs (Decidable (∀ m ∈ ms, '\n' ∉ m ∧ '=' ∉ m ∧ m ≠ [] ∧ m.all plainChar = false))

theorem lacks_of_chars {p : Char → Bool} (hms : ∀ m ∈ ms, m.all p = false)
    (ht : ∀ c ∈ t, p c = true) : Lacks ms t := by
  intro m hm h
  have hall : m.all p = true := List.all_eq_true.2 fun c hc => ht c (h.subset hc)
  rw [hms m hm] at hall
  cases hall

theorem plainChar_of_digit (h : c.isDigit = true) : plainChar c = true := by simp [plainChar, h]

theorem plainChar_decimal {n : Int} (h : c ∈ decimal n) : plainChar c = true := by
  rw [decimal, str] at h
  split at h
  · rcases List.mem_cons.1 h with rfl | h
    · decide
    · exact plainChar_of_digit (isDigit_of_mem_toDigits h)
  · exact plainChar_of_digit (isDigit_of_mem_toDigits h)

/-- Whole lines without markers. -/
structure Tidy (ms : List Text) (t : Text) : Prop where
  lacks : Lacks ms t
  ended : t = [] ∨ ∃ l, t = l ++ ['\n']

section

variable (hms : Marking ms)
include hms

theorem lacks_nil : Lacks ms [] := fun m hm h => (hms m hm).2.2.1 (List.infix_nil.1 h)

theorem Tidy.nil : Tidy ms [] := ⟨lacks_nil hms, .inl rfl⟩

theorem tidy_line (h : Lacks ms a) : Tidy ms (a ++ ['\n']) :=
  ⟨(lacks_sep fun m hm => (hms m hm).1).2 ⟨h, lacks_nil hms⟩, .inr ⟨a, rfl⟩⟩

theorem Tidy.append (ha : Tidy ms a) (hb : Tidy ms b) : Tidy ms (a ++ b) := by
  rcases ha.ended with rfl | ⟨l, rfl⟩
  · exact hb
  · have hl := ((lacks_sep fun m hm => (hms m hm).1).1 ha.lacks).1
    rw [List.append_assoc, List.singleton_append]
    refine ⟨(lacks_sep fun m hm => (hms m hm).1).2 ⟨hl, hb.lacks⟩, .inr ?_⟩
    rcases hb.ended with rfl | ⟨k, rfl⟩
    · exact ⟨l, rfl⟩
    · exact ⟨l ++ '\n' :: k, by simp⟩

theorem Tidy.flatten {ts : List Text} (h : ∀ t ∈ ts, Tidy ms t) : Tidy ms ts.flatten := by
  induction ts with
  | nil => exact Tidy.nil hms
  | cons t ts ih =>
    exact Tidy.append hms (h t List.mem_cons_self) (ih fun u hu => h u (List.mem_cons_of_mem _ hu))

theorem tidy_printLine {line : String} (h : Lacks ms line.toList) : Tidy ms (printLine line) :=
  tidy_line hms h

theorem tidy_textLine {name value : Text} (hname : Lacks ms name)
    (hvalue : ∀ c ∈ value, plainChar c = true) : Tidy ms (textLine name value) := by
  have hlacks : Lacks ms (name ++ '=' :: value) := (lacks_sep fun m hm => (hms m hm).2.1).2
    ⟨hname, lacks_of_chars (fun m hm => (hms m hm).2.2.2) hvalue⟩
  have hline := tidy_line hms hlacks
  rwa [List.append_assoc, List.cons_append] at hline

theorem tidy_intLine {name : String} (hname : Lacks ms name.toList) (n : Int) :
    Tidy ms (intLine name n) := tidy_textLine hms hname fun _ hc => plainChar_decimal hc

theorem tidy_natLine {name : Text} (hname : Lacks ms name) (n : Nat) : Tidy ms (natLine name n) :=
  tidy_textLine hms hname fun _ hc => plainChar_of_digit (isDigit_of_mem_toDigits hc)

end

/-! ## Programs -/

/-- What a program prints, before and after its checks, is in order. -/
structure Prints (ms : List Text) (p : Program Reply) : Prop where
  line : ∀ t ∈ p.checks.map (·.line), Tidy ms t
  report : ∀ replies, Tidy ms (p.report replies)

/-- What a program dies with is in order. -/
def Complains (ms : List Text) (cs : List (Check Reply)) : Prop :=
  ∀ c ∈ cs, ∀ r t, c.complaint r = some t → Tidy ms t

theorem Prints.run_satisfied {p : Program Reply} {replies : Nat → Reply} (hms : Marking ms)
    (h : Prints ms p) (hs : Satisfied p.checks replies) :
    Tidy ms ((p.run replies).stdout ++ (p.run replies).stderr) := by
  rw [Checks.run_satisfied hs, List.append_nil]
  exact Tidy.append hms (Tidy.flatten hms h.line) (h.report replies)

theorem Prints.run {p : Program Reply} {replies : Nat → Reply} (hms : Marking ms)
    (h : Prints ms p) (hc : Complains ms p.checks) :
    Tidy ms ((p.run replies).stdout ++ (p.run replies).stderr) := by
  by_cases hs : Satisfied p.checks replies
  · exact h.run_satisfied hms hs
  · obtain ⟨done, c, rest, t, hcs, -, ht, hrun⟩ := run_complaint hs
    rw [hrun]
    refine Tidy.append hms (Tidy.flatten hms fun u hu => h.line u ?_)
      (hc c (by rw [hcs]; simp) _ t ht)
    rw [hcs, List.map_append]
    exact List.mem_append_left _ hu

theorem Tidy.mono {ns : List Text} (h : Tidy ms t) (hns : ∀ m ∈ ns, m ∈ ms) : Tidy ns t :=
  ⟨fun m hm => h.lacks m (hns m hm), h.ended⟩

/-- A part of the marker of a pass that nothing else has. -/
def passStem : Text := "_QEMU_"

/-- Parts of the markers of failures and crashes: those in capital letters, and the others. -/
def upperStems : List Text := ["SMOKE_FAIL", "RUN_FAIL"]

def lowerStems : List Text :=
  ["Kernel panic", "panic:", "panicked at", "Oops:", "BUG:",
    "vcpus::", "emu_device "]

def stems : List Text := passStem :: (upperStems ++ lowerStems)

theorem marking_pass : Marking [passStem] := by decide

theorem marking_stems : Marking stems := by decide

/-- The names that the programs print. -/
def upperChar (c : Char) : Bool := c.isUpper || c.isDigit || c ∈ ['_', '=']

theorem lacks_of_upper (h : ∀ c ∈ t, upperChar c = true)
    (hup : Lacks (passStem :: upperStems) t) : Lacks stems t := by
  have hlow : Lacks lowerStems t :=
    lacks_of_chars (by decide : ∀ m ∈ lowerStems, m.all upperChar = false) h
  intro m hm
  rcases List.mem_append.1 (List.cons_append ▸ hm : m ∈ (passStem :: upperStems) ++ lowerStems)
    with hm | hm
  · exact hup m hm
  · exact hlow m hm

/-- A name that the markers are not in. -/
def Name (t : Text) : Prop := (∀ c ∈ t, upperChar c = true) ∧ Lacks (passStem :: upperStems) t

instance (t : Text) : Decidable (Name t) :=
  inferInstanceAs (Decidable ((∀ c ∈ t, upperChar c = true) ∧ Lacks (passStem :: upperStems) t))

theorem Name.lacks {s : String} (h : s = String.ofList t) (ht : Name t) : Lacks stems s.toList :=
  lacks_lit h (lacks_of_upper ht.1 ht.2)

section Programs

theorem tidy_of_replicate (hms : Marking ms) {cs : List (Check Reply)} {k : Nat}
    (h : cs.map (·.line) = List.replicate k []) : ∀ t ∈ cs.map (·.line), Tidy ms t := by
  intro t ht
  rw [h] at ht
  rw [List.eq_of_mem_replicate ht]
  exact Tidy.nil hms

variable {strerror : Nat → Text} {kvmRunSize : Nat} {dev : Text}

section

variable (hdev : ∀ c ∈ dev, plainChar c = true)
include hdev

theorem tidy_devLine : Tidy stems (textLine "KVM_DEV" dev) :=
  tidy_textLine marking_stems (Name.lacks rfl (by decide)) hdev

theorem prints_apiSmoke : Prints stems (apiSmoke strerror kvmRunSize dev) := by
  have hm := marking_stems
  refine ⟨tidy_of_replicate hm (k := 12) rfl, fun replies => ?_⟩
  refine Tidy.append hm (Tidy.append hm (Tidy.append hm (Tidy.append hm (Tidy.append hm
    (Tidy.append hm (Tidy.append hm (tidy_printLine hm ?_) (tidy_devLine hdev))
    (tidy_intLine hm ?_ _)) (tidy_intLine hm ?_ _)) (tidy_intLine hm ?_ _))
    (tidy_intLine hm ?_ _)) (tidy_natLine hm ?_ _)) (tidy_natLine hm ?_ _) <;>
    exact Name.lacks rfl (by decide)

theorem prints_memVcpuSmoke : Prints stems (memVcpuSmoke strerror kvmRunSize dev) := by
  have hm := marking_stems
  refine ⟨tidy_of_replicate hm (k := 52) rfl, fun replies => ?_⟩
  refine Tidy.append hm (Tidy.append hm (Tidy.append hm (Tidy.append hm (Tidy.append hm
    (tidy_printLine hm ?_) (tidy_devLine hdev)) (tidy_intLine hm ?_ _)) (tidy_natLine hm ?_ _))
    (tidy_natLine hm ?_ _)) (tidy_printLine hm ?_) <;>
    exact Name.lacks rfl (by decide)

theorem prints_negativeSmoke : Prints stems (negativeSmoke strerror dev) := by
  have hm := marking_stems
  have hnil := Tidy.nil hm
  refine ⟨?_, fun _ => Tidy.append hm (tidy_printLine hm ?_) (tidy_devLine hdev)⟩
  · simp only [negativeSmoke, negativeChecks, List.map_cons, List.map_nil, List.forall_mem_cons]
    refine ⟨hnil, tidy_printLine hm ?_, tidy_printLine hm ?_, hnil, tidy_printLine hm ?_, hnil,
      tidy_printLine hm ?_, hnil, tidy_printLine hm ?_, tidy_printLine hm ?_, tidy_printLine hm ?_,
      List.forall_mem_nil _⟩ <;>
      exact Name.lacks rfl (by decide)
  · exact Name.lacks rfl (by decide)

/-- The characters of `VCPU0_EXIT_REASON`. -/
def cpuChar (c : Char) : Bool := c.isDigit || c ∈ "VCPU_EXITREASON".toList

omit hdev in
theorem lacks_cpuName (i : Nat) :
    Lacks stems ("VCPU".toList ++ Nat.toDigits 10 i ++ "_EXIT_REASON".toList) := by
  refine lacks_of_chars (p := cpuChar) (by decide) fun c hc => ?_
  simp only [List.mem_append] at hc
  rcases hc with (hc | hc) | hc
  · exact (by decide : ∀ c ∈ "VCPU".toList, cpuChar c = true) c hc
  · rw [cpuChar, isDigit_of_mem_toDigits hc, Bool.true_or]
  · exact (by decide : ∀ c ∈ "_EXIT_REASON".toList, cpuChar c = true) c hc

theorem tidy_passText (args : List ConcurrentRun.ThreadArg) :
    Tidy stems (ConcurrentRun.passText dev args) := by
  have hm := marking_stems
  refine Tidy.append hm (Tidy.append hm (tidy_printLine hm (Name.lacks rfl (by decide)))
    (tidy_devLine hdev)) (Tidy.flatten hm fun t ht => ?_)
  obtain ⟨⟨a, i⟩, -, rfl⟩ := List.mem_map.1 ht
  exact tidy_natLine hm (lacks_cpuName i) a.exitReason

end

/-! ## Complaints -/

section

variable (hstr : ∀ e, Lacks [passStem] (strerror e))

theorem tidy_dieMsg {what : Text} (h : Lacks [passStem] what) : Tidy [passStem] (dieMsg what) :=
  tidy_line marking_pass h

/-- What a program dies with does not tell of a pass. -/
def Discreet (c : Check Reply) : Prop := ∀ r t, c.complaint r = some t → Tidy [passStem] t

include hstr

theorem tidy_dieErrno {what : Text} (h : Lacks [passStem] what) (e : Nat) :
    Tidy [passStem] (dieErrno strerror what e) := by
  have hlacks : Lacks [passStem] (what ++ ':' :: ' ' :: strerror e) :=
    (lacks_sep (by decide)).2 ⟨h, (lacks_cons (by decide) (by decide)).2 (hstr e)⟩
  have hline := tidy_line marking_pass hlacks
  rw [dieErrno]
  simpa using hline

theorem discreet_mustSucceed (h : Lacks [passStem] what.toList) :
    Discreet (mustSucceed strerror what) := by
  intro r t ht
  simp only [mustSucceed, Option.ite_none_right_eq_some, Option.some.injEq] at ht
  exact ht.2 ▸ tidy_dieErrno hstr h _

theorem discreet_mustReturn {value : Int} (h : Lacks [passStem] what.toList) :
    Discreet (mustReturn strerror value what) := by
  intro r t ht
  simp only [mustReturn, Option.ite_none_right_eq_some, Option.some.injEq] at ht
  exact ht.2 ▸ tidy_dieErrno hstr h _

theorem discreet_mustBePositive (h : Lacks [passStem] what.toList) :
    Discreet (mustBePositive strerror what) := by
  intro r t ht
  simp only [mustBePositive, Option.ite_none_right_eq_some, Option.some.injEq] at ht
  exact ht.2 ▸ tidy_dieErrno hstr h _

omit hstr in
theorem discreet_mustHold (h : Lacks [passStem] what.toList) : Discreet (mustHold test what) := by
  intro r t ht
  simp only [mustHold, Option.ite_none_left_eq_some, Option.some.injEq] at ht
  exact ht.2 ▸ tidy_dieMsg h

theorem discreet_mustYield {call : String} (h : Lacks [passStem] call.toList)
    (h' : Lacks [passStem] what.toList) : Discreet (mustYield strerror call test what) := by
  intro r t ht
  simp only [mustYield] at ht
  split at ht
  · exact Option.some.inj ht ▸ tidy_dieErrno hstr h _
  · simp only [Option.ite_none_left_eq_some, Option.some.injEq] at ht
    exact ht.2 ▸ tidy_dieMsg h'

theorem discreet_mustReturnAnd {value : Int} {call : String} (h : Lacks [passStem] call.toList)
    (h' : Lacks [passStem] what.toList) :
    Discreet (mustReturnAnd strerror value call test what) := by
  intro r t ht
  simp only [mustReturnAnd] at ht
  split at ht
  · exact Option.some.inj ht ▸ tidy_dieErrno hstr h _
  · simp only [Option.ite_none_left_eq_some, Option.some.injEq] at ht
    exact ht.2 ▸ tidy_dieMsg h'

omit hstr in
theorem discreet_immediateExit : Discreet immediateExit := by
  intro r t ht
  simp only [immediateExit] at ht
  split at ht
  · simp only [Option.ite_none_left_eq_some, Option.some.injEq] at ht
    exact ht.2 ▸ tidy_dieMsg (lacks_lit rfl (by decide))
  · exact Option.some.inj ht ▸ tidy_dieMsg (lacks_lit rfl (by decide))

omit hstr in
theorem lacks_pass_number {n : Nat} : Lacks [passStem] (Nat.toDigits 10 n) :=
  lacks_of_chars (by decide) fun _ hc => isDigit_of_mem_toDigits hc

theorem discreet_expectErrno {name line : String} {expected : Nat}
    (h : Lacks [passStem] name.toList) : Discreet (expectErrno strerror name expected line) := by
  have hsp : ∀ m ∈ [passStem], ' ' ∉ m := by decide
  have heq : ∀ m ∈ [passStem], '=' ∉ m := by decide
  have hpar : ∀ m ∈ [passStem], '(' ∉ m := by decide
  have hpar' : ∀ m ∈ [passStem], ')' ∉ m := by decide
  intro r t ht
  simp only [expectErrno] at ht
  split at ht
  · have hret : Lacks [passStem] (decimal r.ret) :=
      lacks_of_chars (by decide) fun _ hc => plainChar_decimal hc
    have hlacks := (lacks_sep hsp).2 ⟨h, (lacks_sep (c := '=')
      (a := "unexpectedly succeeded: ret") heq).2 ⟨lacks_lit rfl (by decide), hret⟩⟩
    have hline := tidy_line marking_pass hlacks
    rw [← Option.some.inj ht]
    simpa using hline
  · split at ht
    · -- one separator after another, from the end of the line
      have hgot := (lacks_sep (b := []) hpar').2 ⟨hstr expected, lacks_nil marking_pass⟩
      have hexpected := (lacks_sep (a := Nat.toDigits 10 expected) hsp).2
        ⟨lacks_pass_number, (lacks_cons hpar (by decide)).2 hgot⟩
      have hclose := (lacks_sep hpar').2 ⟨hstr r.errno, (lacks_sep (c := '=')
        (a := ", expected errno") heq).2 ⟨lacks_lit rfl (by decide), hexpected⟩⟩
      have hnumber := (lacks_sep (a := Nat.toDigits 10 r.errno) hsp).2
        ⟨lacks_pass_number, (lacks_cons hpar (by decide)).2 hclose⟩
      have hlacks := (lacks_sep hsp).2 ⟨h, (lacks_sep (c := '=') (a := "returned errno")
        heq).2 ⟨lacks_lit rfl (by decide), hnumber⟩⟩
      have hline := tidy_line marking_pass hlacks
      rw [← Option.some.inj ht]
      simpa using hline
    · cases ht

/-! ## The programs' complaints -/

theorem complains_apiSmoke : ∀ c ∈ apiChecks strerror kvmRunSize, Discreet c := by
  simp only [apiChecks, List.forall_mem_cons]
  refine ⟨discreet_mustSucceed hstr ?_, discreet_mustYield hstr ?_ ?_, discreet_mustHold ?_,
    discreet_mustHold ?_, discreet_mustHold ?_, discreet_mustHold ?_, discreet_mustHold ?_,
    discreet_mustHold ?_, discreet_mustYield hstr ?_ ?_, discreet_mustYield hstr ?_ ?_,
    discreet_mustHold ?_, discreet_mustSucceed hstr ?_, List.forall_mem_nil _⟩ <;>
    exact lacks_lit rfl (by decide)

theorem discreet_map {names : List String} (h : ∀ name ∈ names, Lacks [passStem] name.toList) :
    ∀ c ∈ names.map (mustSucceed strerror), Discreet c := by
  intro c hc
  obtain ⟨name, hname, rfl⟩ := List.mem_map.1 hc
  exact discreet_mustSucceed hstr (h name hname)

theorem complains_vmIoctls : ∀ c ∈ exerciseX86VmIoctls strerror, Discreet c := by
  simp only [exerciseX86VmIoctls, List.forall_mem_append, List.forall_mem_cons]
  refine ⟨discreet_map hstr ?_, discreet_mustHold ?_, discreet_mustSucceed hstr ?_,
    discreet_mustSucceed hstr ?_, discreet_mustReturn hstr ?_, discreet_mustHold ?_,
    discreet_mustHold ?_, discreet_mustSucceed hstr ?_, List.forall_mem_nil _⟩
  · simp only [List.forall_mem_cons, List.not_mem_nil, false_implies, implies_true, and_true]
    and_intros <;> exact lacks_lit rfl (by decide)
  all_goals exact lacks_lit rfl (by decide)

theorem complains_vcpuIoctls : ∀ c ∈ exerciseX86VcpuIoctls strerror, Discreet c := by
  simp only [exerciseX86VcpuIoctls, List.forall_mem_append, List.forall_mem_cons]
  refine ⟨⟨⟨discreet_mustSucceed hstr ?_, discreet_mustYield hstr ?_ ?_, List.forall_mem_nil _⟩,
    discreet_map hstr ?_⟩, discreet_mustBePositive hstr ?_, discreet_mustSucceed hstr ?_,
    discreet_mustYield hstr ?_ ?_, discreet_mustReturn hstr ?_, discreet_mustReturnAnd hstr ?_ ?_,
    List.forall_mem_nil _⟩
  case refine_4 =>
    simp only [List.forall_mem_cons, List.not_mem_nil, false_implies, implies_true, and_true]
    and_intros <;> exact lacks_lit rfl (by decide)
  all_goals exact lacks_lit rfl (by decide)

theorem complains_memVcpuSmoke : ∀ c ∈ memVcpuChecks strerror kvmRunSize, Discreet c := by
  simp only [memVcpuChecks, List.forall_mem_append, List.forall_mem_cons]
  refine ⟨⟨⟨⟨⟨discreet_mustSucceed hstr ?_, discreet_mustHold ?_, discreet_mustSucceed hstr ?_,
    discreet_mustSucceed hstr ?_, discreet_mustSucceed hstr ?_, List.forall_mem_nil _⟩,
    complains_vmIoctls hstr⟩, discreet_mustSucceed hstr ?_, List.forall_mem_nil _⟩,
    complains_vcpuIoctls hstr⟩, discreet_mustSucceed hstr ?_, discreet_immediateExit,
    discreet_mustYield hstr ?_ ?_, List.forall_mem_nil _⟩ <;>
    exact lacks_lit rfl (by decide)

theorem complains_negativeSmoke : ∀ c ∈ negativeChecks strerror, Discreet c := by
  simp only [negativeChecks, List.forall_mem_cons]
  refine ⟨discreet_mustSucceed hstr ?_, discreet_expectErrno hstr ?_, discreet_expectErrno hstr ?_,
    discreet_mustSucceed hstr ?_, discreet_expectErrno hstr ?_, discreet_mustSucceed hstr ?_,
    discreet_expectErrno hstr ?_, discreet_mustSucceed hstr ?_, discreet_expectErrno hstr ?_,
    discreet_expectErrno hstr ?_, discreet_mustSucceed hstr ?_, List.forall_mem_nil _⟩ <;>
    exact lacks_lit rfl (by decide)

theorem complains_setupX86Vcpu : ∀ c ∈ ConcurrentRun.setupX86Vcpu strerror, Discreet c := by
  refine discreet_map hstr ?_
  simp only [List.forall_mem_cons, List.not_mem_nil, false_implies, implies_true, and_true]
  and_intros <;> exact lacks_lit rfl (by decide)

theorem complains_setupCalls (n : Nat) :
    ∀ c ∈ ConcurrentRun.setupCalls strerror kvmRunSize n, Discreet c := by
  simp only [ConcurrentRun.setupCalls, List.forall_mem_append, List.forall_mem_cons]
  refine ⟨⟨⟨⟨discreet_mustSucceed hstr ?_, discreet_mustHold ?_, List.forall_mem_nil _⟩,
    discreet_map hstr ?_⟩, fun c hc => ?_⟩, discreet_mustReturn hstr ?_, List.forall_mem_nil _⟩
  · exact lacks_lit rfl (by decide)
  · exact lacks_lit rfl (by decide)
  · simp only [List.forall_mem_cons, List.not_mem_nil, false_implies, implies_true, and_true]
    and_intros <;> exact lacks_lit rfl (by decide)
  · -- the calls for one vCPU, as often as there are vCPUs
    obtain ⟨cs, hcs, hc⟩ := List.mem_flatten.1 hc
    rw [List.eq_of_mem_replicate hcs] at hc
    rcases List.mem_cons.1 hc with rfl | hc
    · exact discreet_mustSucceed hstr (lacks_lit rfl (by decide))
    · exact complains_setupX86Vcpu hstr c hc
  · exact lacks_lit rfl (by decide)

end

end Programs

/-! ## The concurrent program -/

section Concurrent

variable {n : Nat} {w : ConcurrentRun.World n}

theorem join_cases {is : List (Fin n)} {args : List ConcurrentRun.ThreadArg} {e : Exit}
    (h : w.join is args = some e) :
    (∃ errno, e = ⟨1, [], dieErrno w.strerror "pthread_join" errno⟩) ∨
      (∃ a, ConcurrentRun.objection a = some e) ∨
      ∃ args, e = ⟨0, ConcurrentRun.passText w.kvmDev args, []⟩ := by
  induction is generalizing args with
  | nil => exact .inr (.inr ⟨args, (Option.some.inj h).symm⟩)
  | cons i is ih =>
    rw [ConcurrentRun.World.join] at h
    split at h
    · rename_i errno _
      exact .inl ⟨errno, (Option.some.inj h).symm⟩
    · cases h
    · rename_i a _ _
      split at h
      · rename_i e' he'
        exact .inr (.inl ⟨a, he'.trans h⟩)
      · exact ih h

theorem create_cases {is : List (Fin n)} {e : Exit} (h : w.create is = some e) :
    (∃ call, Lacks [passStem] call ∧ ∃ errno, e = ⟨1, [], dieErrno w.strerror call errno⟩) ∨
      (∃ a, ConcurrentRun.objection a = some e) ∨
      ∃ args, e = ⟨0, ConcurrentRun.passText w.kvmDev args, []⟩ := by
  induction is with
  | nil =>
    rcases join_cases h with hfail | hrest
    · exact .inl ⟨_, lacks_lit rfl (by decide), hfail⟩
    · exact .inr hrest
  | cons i is ih =>
    rw [ConcurrentRun.World.create] at h
    split at h
    · rename_i errno _
      exact .inl ⟨_, lacks_lit rfl (by decide), errno, (Option.some.inj h).symm⟩
    · exact ih h

theorem objection_cases {a : ConcurrentRun.ThreadArg} {e : Exit}
    (h : ConcurrentRun.objection a = some e) :
    e = ⟨1, [], dieMsg "concurrent KVM_RUN returned error"⟩ ∨
      e = ⟨1, [], dieMsg "concurrent KVM_RUN returned unexpected exit"⟩ := by
  rw [ConcurrentRun.objection] at h
  split at h
  · exact .inl (Option.some.inj h).symm
  · split at h
    · cases h
    · exact .inr (Option.some.inj h).symm

theorem line_mustSucceed {strerror : Nat → Text} {names : List String} :
    ∀ c ∈ names.map (mustSucceed strerror), c.line = [] := by
  intro c hc
  obtain ⟨name, -, rfl⟩ := List.mem_map.1 hc
  rfl

theorem line_setupCalls {strerror : Nat → Text} {kvmRunSize : Nat} :
    ∀ c ∈ ConcurrentRun.setupCalls strerror kvmRunSize n, c.line = [] := by
  simp only [ConcurrentRun.setupCalls, List.forall_mem_append, List.forall_mem_cons]
  refine ⟨⟨⟨⟨rfl, rfl, List.forall_mem_nil _⟩, line_mustSucceed⟩, fun c hc => ?_⟩, rfl,
    List.forall_mem_nil _⟩
  obtain ⟨cs, hcs, hc⟩ := List.mem_flatten.1 hc
  rw [List.eq_of_mem_replicate hcs] at hc
  rcases List.mem_cons.1 hc with rfl | hc
  · rfl
  · exact line_mustSucceed c hc

/-- The concurrent program passes, or it ends with the status 1 and a complaint. -/
theorem result_cases (hstr : ∀ e, Lacks [passStem] (w.strerror e)) {e : Exit}
    (h : w.result = some e) :
    (∃ args, e = ⟨0, ConcurrentRun.passText w.kvmDev args, []⟩) ∨
      (e.status = 1 ∧ e.stdout = [] ∧ Tidy [passStem] e.stderr) := by
  rw [ConcurrentRun.World.result] at h
  split at h
  · rcases create_cases h with ⟨call, hcall, errno, rfl⟩ | ⟨a, ha⟩ | hpass
    · exact .inr ⟨rfl, rfl, tidy_dieErrno hstr hcall errno⟩
    · rcases objection_cases ha with rfl | rfl
      · exact .inr ⟨rfl, rfl, tidy_dieMsg (lacks_lit rfl (by decide))⟩
      · exact .inr ⟨rfl, rfl, tidy_dieMsg (lacks_lit rfl (by decide))⟩
    · exact .inl hpass
  · rename_i e' herr
    obtain rfl := Option.some.inj h
    obtain ⟨done, c, rest, t, hcs, -, ht, hrun⟩ :=
      runChecks_complaint [] (not_satisfied_of_error herr)
    obtain rfl := Except.error.inj (herr.symm.trans hrun)
    refine .inr ⟨rfl, ?_, complains_setupCalls hstr n c (by rw [hcs]; simp) _ t ht⟩
    change [] ++ (done.map (·.line)).flatten = []
    rw [List.nil_append, List.flatten_eq_nil_iff]
    intro l hl
    obtain ⟨d, hd, rfl⟩ := List.mem_map.1 hl
    exact line_setupCalls d (by rw [hcs]; exact List.mem_append_left _ hd)

end Concurrent

end Kvm.AbiSmoke
