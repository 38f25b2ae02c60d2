import AxvisorTools.Kvm.Serial
import AxvisorTools.Py.Proof.Number
import AxvisorTools.Py.Proof.Str
import AxvisorTools.Text.Proof.Matches
import Mathlib.Algebra.Order.BigOperators.Group.List
import Mathlib.Algebra.Order.Group.Nat

/-!
# What the serial decoders recover

`IsSerialLog bs ls`: the lines `ls` report the bytes `bs`, one record each, among lines that report
nothing. Both decoders return `bs` then (`decoders_recover`). On any log they agree exactly when no
line without a record has a bridge character or a marker (`decoders_agree_iff`).
-/

namespace Kvm

open Regex Py

variable {ls : List Text} {p : Text × Text}

/-! ## Records -/

theorem intOfDigits_toDigits {n : Nat} (h : n < 256) : intOfDigits (Nat.toDigits 10 n) = some n := by
  have hlen : (Nat.toDigits 10 n).length ≤ 3 :=
    (Nat.length_toDigits_le_iff (by decide) (by decide)).2 (by omega)
  have hmap : (Nat.toDigits 10 n).mapM decimal? =
      some ((Nat.toDigits 10 n).map fun c => c.toNat - '0'.toNat) :=
    mapM_some fun c hc =>
      decimal?_of_isDigit (Nat.isDigit_of_mem_toDigits (by decide) (by decide) hc)
  have hfold : ∀ (t : Text) (i : Nat), (t.map fun c => c.toNat - '0'.toNat).foldl
      (fun n d => n * 10 + d) i = Nat.ofDigitChars 10 t i := by
    intro t i
    simp only [Nat.ofDigitChars_eq_foldl, List.foldl_map, Nat.mul_comm 10]
  rw [intOfDigits, if_pos (by omega), hmap, Option.map_some, hfold, Nat.ofDigitChars_ten_toDigits]

/-- A text of decimal digits, at least one. -/
def Digits (ds : Text) : Prop := ds ≠ [] ∧ ∀ c ∈ ds, (decimal? c).isSome = true

theorem digits_toDigits (n : Nat) : Digits (Nat.toDigits 10 n) := by
  refine ⟨fun h => absurd (congrArg List.length h) (Nat.length_toDigits_pos.ne'), fun c hc => ?_⟩
  rw [decimal?_of_isDigit (Nat.isDigit_of_mem_toDigits (by decide) (by decide) hc)]
  rfl

theorem matches_ioWrite_iff {b x y : Text} {g : List (Nat × Text)} :
    Matches Eval.ioWrite b x y g ↔ ∃ ds, Digits ds ∧ x = ioRecord ds ∧ g = [(1, ds)] := by
  simp only [Eval.ioWrite, matches_seq_iff, matches_group_iff, matches_lit_iff, matches_one_iff,
    matches_star_one_iff]
  constructor
  · rintro ⟨_, _, _, _, rfl, rfl, ⟨rfl, rfl⟩, _, _, _, _, rfl, rfl, ⟨_, rfl, _, _, _, _, rfl, rfl,
      ⟨c, hc, rfl, rfl⟩, ht, rfl⟩, rfl, rfl⟩
    exact ⟨_, ⟨by simp, List.forall_mem_cons.2 ⟨hc, ht⟩⟩, rfl, rfl⟩
  · rintro ⟨ds, ⟨hne, hds⟩, rfl, rfl⟩
    obtain ⟨c, t, rfl⟩ := List.exists_cons_of_ne_nil hne
    obtain ⟨hc, ht⟩ := List.forall_mem_cons.1 hds
    exact ⟨_, _, [], [(1, c :: t)], rfl, rfl, ⟨rfl, rfl⟩, c :: t, _, [(1, c :: t)], [], rfl, rfl,
      ⟨[], rfl, [c], t, [], [], rfl, rfl, ⟨c, hc, rfl, rfl⟩, ht, rfl⟩, rfl, rfl⟩

theorem found_ioWrite_iff (l : Text) :
    found Eval.ioWrite l = true ↔ ∃ ds, Digits ds ∧ ioRecord ds <:+: l := by
  simp only [found_iff_matches, matches_ioWrite_iff]
  constructor
  · rintro ⟨a, _, y, _, rfl, ds, hds, rfl, rfl⟩
    exact ⟨ds, hds, a, y, List.append_assoc ..⟩
  · rintro ⟨ds, hds, a, y, rfl⟩
    exact ⟨a, _, y, _, List.append_assoc .., ds, hds, rfl, rfl⟩

/-- The capital letter of a record is its first character only. -/
theorem ioRecord_eq (ds : Text) : ∃ t, ioRecord ds = 'I' :: t ∧ (Digits ds → 'I' ∉ t) := by
  obtain ⟨t, ht, hI⟩ : ∃ t, recordHead = 'I' :: t ∧ 'I' ∉ t :=
    ⟨recordHead.tail, by decide, by decide⟩
  refine ⟨t ++ (ds ++ recordTail), by rw [ioRecord, ht]; rfl, fun hds h => ?_⟩
  rcases List.mem_append.1 h with h | h
  · exact hI h
  · rcases List.mem_append.1 h with h | h
    · exact absurd (hds.2 _ h) (by decide)
    · exact absurd h (by decide)

theorem ioRecord_inj {ds ds' u v : Text} (hds : Digits ds) (hds' : Digits ds')
    (h : ioRecord ds ++ u = ioRecord ds' ++ v) : ds = ds' ∧ u = v := by
  have hblank : ¬ (decimal? ' ').isSome = true := by decide
  have htail : recordTail = [' ', '\x7d'] := by decide
  simp only [ioRecord, List.append_assoc, htail, List.cons_append, List.nil_append,
    List.append_cancel_left_eq] at h
  obtain ⟨rfl, hrest⟩ := append_cons_inj (fun h => hblank (hds.2 _ h))
    (fun h => hblank (hds'.2 _ h)) h
  exact ⟨rfl, (List.cons.inj hrest).2⟩

theorem search_ioRecord {pre ds post : Text} (hpre : found Eval.ioWrite pre = false)
    (hds : Digits ds) : search Eval.ioWrite (pre ++ (ioRecord ds ++ post)) =
      some (pre, ⟨(ioRecord ds).reverse ++ pre.reverse, post, [(1, ds)]⟩) := by
  refine search_append (fun a b hab hb => ?_) ?_
  · -- a record that starts inside `pre` would end there, or hold a second capital letter
    by_contra hrun
    obtain ⟨x, y, g, hxy, hm⟩ := (run_ne_nil_iff _ _).1 hrun
    obtain ⟨ds', hds', rfl, rfl⟩ := matches_ioWrite_iff.1 hm
    have hxy : b ++ (ioRecord ds ++ post) = ioRecord ds' ++ y := hxy
    rcases List.append_eq_append_iff.1 hxy with ⟨c, hc, hy⟩ | ⟨c, hc, hy⟩
    · obtain ⟨t, ht, hI⟩ := ioRecord_eq ds'
      obtain ⟨t', ht', -⟩ := ioRecord_eq ds
      obtain ⟨d, b', rfl⟩ := List.exists_cons_of_ne_nil hb
      cases c with
      | nil =>
        rw [List.append_nil] at hc
        have : found Eval.ioWrite pre = true :=
          (found_ioWrite_iff pre).2 ⟨ds', hds', a, [], by rw [hab, hc, List.append_nil]⟩
        rw [hpre] at this
        cases this
      | cons e c =>
        rw [ht', List.cons_append, List.cons_append] at hy
        obtain ⟨rfl, -⟩ := List.cons.inj hy
        rw [ht] at hc
        obtain ⟨-, rfl⟩ := List.cons.inj hc
        exact hI hds' (by simp)
    · have : found Eval.ioWrite pre = true :=
        (found_ioWrite_iff pre).2 ⟨ds', hds', a, c, by rw [hab, hc, List.append_assoc]⟩
      rw [hpre] at this
      cases this
  · apply head?_of_forall_eq
    · intro e he
      obtain ⟨x, y, g, hxy, hm, rfl⟩ := (mem_run_iff _ _ _).1 he
      obtain ⟨ds', hds', rfl, rfl⟩ := matches_ioWrite_iff.1 hm
      obtain ⟨rfl, rfl⟩ := ioRecord_inj hds hds' hxy
      rfl
    · exact (mem_run_iff _ _ _).2 ⟨ioRecord ds, post, [(1, ds)], rfl,
        matches_ioWrite_iff.2 ⟨ds, hds, rfl, rfl⟩, rfl⟩

theorem groupText_one (start before after ds : Text) :
    Re.groupText start ⟨before, after, [(1, ds)]⟩ 1 = ds := rfl

theorem serialLine_ioRecord (rest : Bytes) {pre post : Text}
    (hpre : found Eval.ioWrite pre = false) (b : UInt8) :
    serialLine rest (pre ++ (ioRecord (Nat.toDigits 10 b.toNat) ++ post)) = some [b] := by
  rw [serialLine, search_ioRecord hpre (digits_toDigits _)]
  dsimp only
  rw [groupText_one, intOfDigits_toDigits b.toNat_lt, Option.map_some, UInt8.ofNat_toNat]

theorem serialByte_ioRecord {pre post : Text} (hpre : found Eval.ioWrite pre = false) (b : UInt8) :
    Eval.serialByte (pre ++ (ioRecord (Nat.toDigits 10 b.toNat) ++ post)) =
      some [Char.ofNat b.toNat] := by
  rw [Eval.serialByte, search_ioRecord hpre (digits_toDigits _)]
  dsimp only
  rw [groupText_one, intOfDigits_toDigits b.toNat_lt, Option.map_some,
    Nat.mod_eq_of_lt b.toNat_lt]

/-! ## Other lines -/

theorem search_eq_none {r : Re} {l : Text} (h : found r l = false) : search r l = none := by
  rw [found, Option.isSome_eq_false_iff, Option.isNone_iff_eq_none] at h
  exact h

theorem findFrom_eq_none {s t : Text} (h : ¬ s <:+: t) : findFrom s t = none := by
  rw [findFrom, List.find?_eq_none]
  intro u hu hp
  obtain ⟨a, rfl⟩ := (List.mem_tails u t).1 hu
  obtain ⟨c, rfl⟩ := List.isPrefixOf_iff_prefix.1 hp
  exact h ⟨a, c, List.append_assoc ..⟩

theorem prefix_of_findFrom {s t u : Text} (h : findFrom s t = some u) : s <+: u :=
  List.isPrefixOf_iff_prefix.1 (List.find?_some h)

/-- A line that reports nothing. -/
structure Neutral (l : Text) : Prop where
  noRecord : found Eval.ioWrite l = false
  noBridge : ¬ charPrefix <:+: l
  noMarker : ∀ p ∈ directPrefixes, ¬ p <:+: l

theorem Neutral.serialLine {l : Text} (h : Neutral l) (newline : Text) :
    serialLine (otherBytes l newline) l = some [] := by
  have hbridge : bridgeChar l = none := by rw [bridgeChar, findFrom_eq_none h.noBridge]; rfl
  have hdirect : directText l = none :=
    List.findSome?_eq_none_iff.2 fun p hp => findFrom_eq_none (h.noMarker p hp)
  rw [Kvm.serialLine, search_eq_none h.noRecord, otherBytes, hbridge, hdirect]

theorem Neutral.serialByte {l : Text} (h : Neutral l) : Eval.serialByte l = some [] := by
  rw [Eval.serialByte, search_eq_none h.noRecord]

/-! ## Whole logs -/

theorem iterLines_fst (t : Text) : (iterLines t).map Prod.fst = fileLines t := by
  have hfst : ((lines t).dropLast.map fun l => (l, ['\n'])).map Prod.fst = (lines t).dropLast := by
    rw [List.map_map]
    exact List.map_id _
  obtain ⟨ls, l, hl⟩ := List.eq_nil_or_concat (lines t) |>.resolve_left (lines_ne_nil t)
  rw [List.concat_eq_append] at hl
  rw [iterLines, fileLines, List.map_append, hfst, hl, List.getLast?_concat, List.dropLast_concat]
  cases l with
  | nil => simp
  | cons c l => simp

/-- The lines report the bytes: one record for each byte, with any text around it, and neutral lines
between. `Before` limits the text before a record. -/
inductive SerialLog (Before : Text → Prop) : Bytes → List Text → Prop
  | nil : SerialLog Before [] []
  | byte {bs : Bytes} {ls : List Text} (b : UInt8) (pre post : Text) (hpre : Before pre)
      (h : SerialLog Before bs ls) :
      SerialLog Before (b :: bs) ((pre ++ (ioRecord (Nat.toDigits 10 b.toNat) ++ post)) :: ls)
  | other {bs : Bytes} {ls : List Text} (l : Text) (hl : Neutral l) (h : SerialLog Before bs ls) :
      SerialLog Before bs (l :: ls)

/-- No record ends before this place. -/
def NoRecord (pre : Text) : Prop := found Eval.ioWrite pre = false

theorem noRecord_nil : NoRecord [] := by
  unfold NoRecord
  decide

theorem serialLines_recover {bs : Bytes} (h : SerialLog NoRecord bs ls) :
    ∀ ps : List (Text × Text), ps.map Prod.fst = ls →
      (ps.mapM fun p => serialLine (otherBytes p.1 p.2) p.1).map List.flatten = some bs := by
  induction h with
  | nil =>
    intro ps hps
    rw [List.map_eq_nil_iff.1 hps]
    rfl
  | byte b pre post hpre _ ih =>
    intro ps hps
    obtain ⟨p, ps, rfl, hp, hrest⟩ := List.map_eq_cons_iff.1 hps
    rw [mapM_flatten_cons, hp, serialLine_ioRecord _ hpre b, ih ps hrest]
    rfl
  | other l hl _ ih =>
    intro ps hps
    obtain ⟨p, ps, rfl, hp, hrest⟩ := List.map_eq_cons_iff.1 hps
    rw [mapM_flatten_cons, hp, hl.serialLine p.2, ih ps hrest]
    rfl

theorem serialBytes_recover {bs : Bytes} (h : SerialLog NoRecord bs ls) :
    (ls.mapM Eval.serialByte).map List.flatten = some (byteText bs) := by
  induction h with
  | nil => rfl
  | byte b pre post hpre _ ih =>
    rw [mapM_flatten_cons, serialByte_ioRecord hpre b, ih]
    rfl
  | other l hl _ ih =>
    rw [mapM_flatten_cons, hl.serialByte, ih]
    rfl

/-- **Both decoders recover the bytes** of a log that reports each of them in a record of its own,
the first of its line. -/
theorem decoders_recover {bs : Bytes} {log : Text}
    (h : SerialLog NoRecord bs (fileLines (universalNewlines log))) :
    decodeFirecrackerGuestSerial log = some bs ∧ Eval.decodeSerial log = some (byteText bs) :=
  ⟨serialLines_recover h _ (iterLines_fst _), serialBytes_recover h⟩

/-- The record of one byte, as a line of its own. -/
def recordLine (b : UInt8) : Text := ioRecord (Nat.toDigits 10 b.toNat)

theorem printable_recordLine (b : UInt8) : Printable (recordLine b) :=
  .append (by decide) (.append (printable_digits _) (by decide))

theorem fileLines_printable (h : ∀ l ∈ ls, Printable l) :
    fileLines (universalNewlines (above ls)) = ls := by
  rw [universalNewlines_above h, fileLines_above fun l hl hm => absurd (h l hl _ hm) (by decide)]

/-- The bytes of `H` and `i`, with a kernel message between them. -/
def greetingLog : Text := above [recordLine 72, "boot", recordLine 105]

theorem neutral_boot : Neutral "boot" := ⟨by decide, by decide, by decide⟩

theorem decoders_recover_greeting :
    decodeFirecrackerGuestSerial greetingLog = some [72, 105] ∧
      Eval.decodeSerial greetingLog = some (byteText [72, 105]) := by
  apply decoders_recover
  have hlog : fileLines (universalNewlines greetingLog) =
      [recordLine 72, "boot", recordLine 105] := by
    apply fileLines_printable
    refine List.forall_mem_cons.2 ⟨printable_recordLine 72, List.forall_mem_cons.2 ⟨by decide, ?_⟩⟩
    exact List.forall_mem_cons.2 ⟨printable_recordLine 105, List.forall_mem_nil _⟩
  have hline : ∀ b : UInt8, recordLine b = [] ++ (ioRecord (Nat.toDigits 10 b.toNat) ++ []) :=
    fun b => (List.append_nil _).symm
  rw [hlog, hline, hline]
  exact .byte 72 [] [] noRecord_nil (.other _ neutral_boot (.byte 105 [] [] noRecord_nil .nil))

/-- Two records on one line: only the first byte is taken. -/
def twoRecordLog : Text := above [recordLine 65 ++ recordLine 66]

theorem decoders_drop_second_record :
    SerialLog (fun _ => True) [66] (fileLines (universalNewlines twoRecordLog)) ∧
      decodeFirecrackerGuestSerial twoRecordLog ≠ some [66] ∧
      Eval.decodeSerial twoRecordLog ≠ some (byteText [66]) := by
  have hlog : fileLines (universalNewlines twoRecordLog) = [recordLine 65 ++ recordLine 66] := by
    apply fileLines_printable
    exact List.forall_mem_singleton.2 (.append (printable_recordLine 65) (printable_recordLine 66))
  have hfirst : SerialLog NoRecord [65] (fileLines (universalNewlines twoRecordLog)) := by
    rw [hlog]
    exact .byte 65 [] (recordLine 66) noRecord_nil .nil
  refine ⟨?_, ?_, ?_⟩
  · rw [hlog, ← List.append_nil (recordLine 66)]
    exact .byte 66 (recordLine 65) [] trivial .nil
  · rw [decodeFirecrackerGuestSerial, serialLines_recover hfirst _ (iterLines_fst _)]
    decide
  · rw [Eval.decodeSerial, serialBytes_recover hfirst]
    decide

/-! ## The two decoders on any log -/

/-- The record of the line has a number with more digits than `int` reads. -/
def Oversized (l : Text) : Prop :=
  ∃ start e, search Eval.ioWrite l = some (start, e) ∧ 4300 < (Re.groupText start e 1).length

/-- Only the verifier's decoder takes something from the line. -/
def TakenOnce (l : Text) : Prop :=
  search Eval.ioWrite l = none ∧ ((bridgeChar l).isSome ∨ (directText l).isSome)

theorem intOfDigits_eq_none {ds : Text} (h : Digits ds) :
    intOfDigits ds = none ↔ 4300 < ds.length := by
  have hmap : ds.mapM decimal? = some (ds.map fun c => (decimal? c).getD 0) :=
    mapM_some fun c hc => by
      obtain ⟨d, hd⟩ := Option.isSome_iff_exists.1 (h.2 c hc)
      rw [hd]
      rfl
  unfold intOfDigits
  split
  · rw [hmap]
    simp only [Option.map_some, reduceCtorEq, false_iff]
    omega
  · simp only [true_iff]
    omega

theorem digits_of_search {l start : Text} {e : Pos}
    (h : search Eval.ioWrite l = some (start, e)) : Digits (Re.groupText start e 1) := by
  obtain ⟨x, y, g, -, hm, rfl⟩ := search_some h
  obtain ⟨ds, hds, -, rfl⟩ := matches_ioWrite_iff.1 hm
  exact hds

theorem serialLine_eq_none (rest : Bytes) (l : Text) : serialLine rest l = none ↔ Oversized l := by
  unfold serialLine Oversized
  cases hs : search Eval.ioWrite l with
  | none => simp
  | some p =>
    obtain ⟨start, e⟩ := p
    simp [intOfDigits_eq_none (digits_of_search hs)]

theorem serialByte_eq (rest : Bytes) (l : Text) :
    Eval.serialByte l = (serialLine rest l).map fun b =>
      if search Eval.ioWrite l = none then [] else byteText b := by
  unfold Eval.serialByte serialLine
  cases hs : search Eval.ioWrite l with
  | none => rfl
  | some p =>
    simp only [reduceCtorEq, if_false, Option.map_map]
    rfl

theorem otherBytes_eq_nil (l newline : Text) :
    otherBytes l newline = [] ↔ bridgeChar l = none ∧ directText l = none := by
  have hchar : ∀ c : Char, String.utf8EncodeChar c ≠ [] := fun c h => by
    have := congrArg List.length h
    rw [String.length_utf8EncodeChar] at this
    exact absurd this c.utf8Size_pos.ne'
  unfold otherBytes
  cases hb : bridgeChar l with
  | some c => simp [hchar c]
  | none =>
    cases hd : directText l with
    | none => simp
    | some t =>
      obtain ⟨p, hp, hf⟩ := List.exists_of_findSome?_eq_some hd
      obtain ⟨u, rfl⟩ := prefix_of_findFrom hf
      have hne : p ≠ [] := by
        rintro rfl
        exact absurd hp (by decide)
      obtain ⟨c, p, rfl⟩ := List.exists_cons_of_ne_nil hne
      simp [encode, hchar c]

theorem takenOnce_iff (l newline : Text) :
    TakenOnce l ↔ search Eval.ioWrite l = none ∧ otherBytes l newline ≠ [] := by
  rw [TakenOnce, Ne, otherBytes_eq_nil, not_and_or, Option.isSome_iff_ne_none,
    Option.isSome_iff_ne_none]

/-- What the verifier's decoder takes from a line. -/
def taken (p : Text × Text) : Bytes := (serialLine (otherBytes p.1 p.2) p.1).getD []

/-- What the copy in the paper evaluation takes from it. -/
def takenRecord (p : Text × Text) : Text :=
  if search Eval.ioWrite p.1 = none then [] else byteText (taken p)

section

variable {ps : List (Text × Text)} (hps : ∀ p ∈ ps, ¬ Oversized p.1)
include hps

theorem serialLine_taken (hp : p ∈ ps) : serialLine (otherBytes p.1 p.2) p.1 = some (taken p) := by
  obtain ⟨b, hb⟩ := Option.ne_none_iff_exists'.1
    (mt (serialLine_eq_none (otherBytes p.1 p.2) p.1).1 (hps p hp))
  rw [taken, hb]
  rfl

theorem decode_taken : (ps.mapM fun p => serialLine (otherBytes p.1 p.2) p.1).map List.flatten =
    some (ps.flatMap taken) := by
  rw [mapM_some fun p hp => serialLine_taken hps hp]
  rfl

theorem decode_takenRecord : ((ps.map Prod.fst).mapM Eval.serialByte).map List.flatten =
    some (ps.flatMap takenRecord) := by
  rw [List.mapM_map, mapM_some (g := takenRecord) fun p hp => ?_]
  · rfl
  · rw [Function.comp_apply, serialByte_eq (otherBytes p.1 p.2), serialLine_taken hps hp]
    rfl

end

theorem takenRecord_length_le (p : Text × Text) : (takenRecord p).length ≤ (taken p).length := by
  unfold takenRecord
  split
  · exact Nat.zero_le _
  · simp [byteText]

theorem takenRecord_length_lt (h : TakenOnce p.1) : (takenRecord p).length < (taken p).length := by
  obtain ⟨hs, hne⟩ := (takenOnce_iff p.1 p.2).1 h
  have ht : taken p = otherBytes p.1 p.2 := by rw [taken, serialLine, hs]; rfl
  rw [takenRecord, if_pos hs, ht]
  exact List.length_pos_of_ne_nil hne

theorem takenRecord_of_not (h : ¬ TakenOnce p.1) : takenRecord p = byteText (taken p) := by
  unfold takenRecord
  split
  · rename_i hs
    have hnil : otherBytes p.1 p.2 = [] := by
      by_contra hne
      exact h ((takenOnce_iff p.1 p.2).2 ⟨hs, hne⟩)
    have ht : taken p = otherBytes p.1 p.2 := by rw [taken, serialLine, hs]; rfl
    rw [ht, hnil]
    rfl
  · rfl

/-- Nothing is lost exactly when no line is taken by one decoder only. -/
theorem flatMap_takenRecord_iff (ps : List (Text × Text)) :
    ps.flatMap takenRecord = byteText (ps.flatMap taken) ↔ ∀ p ∈ ps, ¬ TakenOnce p.1 := by
  constructor
  · intro h p hp htaken
    have hlen : (ps.flatMap takenRecord).length = (ps.flatMap taken).length := by
      rw [h, byteText, List.length_map]
    rw [List.length_flatMap, List.length_flatMap] at hlen
    have hlt : (ps.map fun p => (takenRecord p).length).sum <
        (ps.map fun p => (taken p).length).sum :=
      List.sum_lt_sum _ _ (fun p _ => takenRecord_length_le p) ⟨p, hp, takenRecord_length_lt htaken⟩
    omega
  · intro h
    rw [byteText, List.map_flatMap]
    exact List.flatMap_congr fun p hp => takenRecord_of_not (h p hp)

/-- **The two decoders write the same bytes exactly** when no line of the log is taken by one of
them only, or both stop at an oversized number. -/
theorem decoders_agree_iff (log : Text) :
    Eval.decodeSerial log = (decodeFirecrackerGuestSerial log).map byteText ↔
      (∃ l ∈ fileLines (universalNewlines log), Oversized l) ∨
        ∀ l ∈ fileLines (universalNewlines log), ¬ TakenOnce l := by
  unfold Eval.decodeSerial decodeFirecrackerGuestSerial
  rw [← iterLines_fst]
  generalize iterLines (universalNewlines log) = ps
  simp only [List.mem_map, exists_exists_and_eq_and, forall_exists_index, and_imp,
    forall_apply_eq_imp_iff₂]
  by_cases hover : ∃ p ∈ ps, Oversized p.1
  · obtain ⟨p, hp, ho⟩ := hover
    have hline : (ps.mapM fun p => serialLine (otherBytes p.1 p.2) p.1) = none :=
      mapM_none ⟨p, hp, (serialLine_eq_none _ _).2 ho⟩
    have hbyte : (ps.map Prod.fst).mapM Eval.serialByte = none := by
      refine mapM_none ⟨p.1, List.mem_map_of_mem hp, ?_⟩
      rw [serialByte_eq [], (serialLine_eq_none _ _).2 ho]
      rfl
    rw [hline, hbyte]
    exact iff_of_true rfl (.inl ⟨p, hp, ho⟩)
  · have hps : ∀ p ∈ ps, ¬ Oversized p.1 := fun p hp ho => hover ⟨p, hp, ho⟩
    rw [decode_taken hps, decode_takenRecord hps, Option.map_some, Option.some.injEq,
      flatMap_takenRecord_iff]
    exact (or_iff_right hover).symm

/-- A marker that reaches the log as a line of its own. -/
theorem decoders_disagree_marker :
    Eval.decodeSerial (above ["FC_PASS=1"]) ≠
      (decodeFirecrackerGuestSerial (above ["FC_PASS=1"])).map byteText := by
  decide

end Kvm
