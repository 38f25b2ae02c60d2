import AxvisorTools.Smoke.Proof.RamSize
import Mathlib.Data.List.Find

/-!
# The case names of memory sizes

The memory-size harness keeps the evidence of a size in a directory named by `case_name_for_size`.
`caseNameForSize_inj`: sizes with the same name have the same number of bytes. The name keeps the letters
and digits of a size up to their case (`letters_of_caseName`), and these are all that a positive size is
read from: underscores are dropped, a plus sign changes nothing and `int` takes letters of both cases
(`parseSize_letters`).
-/

namespace Smoke.VmConfig

open Py

/-! ## What a name keeps -/

/-- The letters and digits of a text, in upper case. -/
def letters (t : Text) : Text := (t.map Char.toUpper).filter fun c => (digitValue c).isSome

theorem flatten_splitOnP {α : Type} (p : α → Bool) (l : List α) :
    (l.splitOnP p).flatten = l.filter fun a => !p a := by
  induction l with
  | nil => rfl
  | cons a l ih =>
    rw [List.splitOnP_cons_eq_if_modifyHead, List.filter_cons]
    by_cases ha : p a = true
    · simp [ha, ih]
    · obtain ⟨u, us, hsplit⟩ := List.exists_cons_of_ne_nil (List.splitOnP_ne_nil p l)
      rw [hsplit] at ih ⊢
      simp [ha, ← ih]

theorem filter_intercalate {α : Type} [DecidableEq α] (sep : α) (ls : List (List α)) :
    ([sep].intercalate ls).filter (· ≠ sep) = ls.flatten.filter (· ≠ sep) := by
  induction ls with
  | nil => rfl
  | cons l ls ih =>
    cases ls with
    | nil => simp
    | cons l' ls =>
      rw [List.intercalate_cons_cons, List.filter_append, List.filter_append, ih, List.flatten_cons,
        List.filter_append]
      simp

/-- The letters and digits of an ASCII size can be read off its name. -/
theorem letters_of_caseName {s : Text} (h : ∀ c ∈ s, c.toNat < 128) :
    letters s = ((Harness.caseNameForSize s).filter (· ≠ '-')).map Char.toUpper := by
  have hname : (Harness.caseNameForSize s).filter (· ≠ '-') =
      (s.map Char.toLower).filter fun c => c.isLower || c.isDigit := by
    simp only [Harness.caseNameForSize, filter_intercalate, List.flatten_filter_ne_nil,
      flatten_splitOnP, Bool.not_not, List.filter_filter]
    refine List.filter_congr fun c _ => ?_
    by_cases hc : c = '-'
    · subst hc
      rfl
    · simp [hc]
  have hchar : ∀ n < 128, (digitValue (Char.ofNat n).toUpper).isSome =
      ((Char.ofNat n).toLower.isLower || (Char.ofNat n).toLower.isDigit) ∧
      (Char.ofNat n).toLower.toUpper = (Char.ofNat n).toUpper := by decide
  have hcase : ∀ c ∈ s, (digitValue c.toUpper).isSome = (c.toLower.isLower || c.toLower.isDigit) ∧
      c.toLower.toUpper = c.toUpper := by
    intro c hc
    have := hchar c.toNat (h c hc)
    rwa [Char.ofNat_toNat] at this
  have hkept : s.filter ((fun c => (digitValue c).isSome) ∘ Char.toUpper) =
      s.filter ((fun c => c.isLower || c.isDigit) ∘ Char.toLower) :=
    List.filter_congr fun c hc => (hcase c hc).1
  rw [letters, hname, List.filter_map, List.filter_map, List.map_map, hkept]
  exact List.map_congr_left fun c hc => (hcase c (List.mem_of_mem_filter hc)).2.symm

theorem filter_strip {p : Char → Bool} (hp : ∀ c, Re.isWhite c = true → p c = false) (t : Text) :
    (strip t).filter p = t.filter p := by
  have hdrop : ∀ u : Text, (u.dropWhile Re.isWhite).filter p = u.filter p := by
    intro u
    have hblank : (u.takeWhile Re.isWhite).filter p = [] :=
      List.filter_eq_nil_iff.2 fun c hc => by simp [hp c (List.mem_takeWhile_imp hc)]
    conv_rhs => rw [← List.takeWhile_append_dropWhile (p := Re.isWhite) (l := u)]
    rw [List.filter_append, hblank, List.nil_append]
  rw [strip, List.rdropWhile, List.filter_reverse, hdrop, List.filter_reverse, List.reverse_reverse,
    hdrop]

/-! ## What a size is read from -/

/-- The size that a text in upper case, without blanks around it and underscores, stands for. -/
def upperSize (u : Text) : Option Int :=
  match Harness.multipliers.find? fun m => m.1 <:+ u with
  | some m => (intStr 0 (u.take (u.length - m.1.length))).map (· * m.2)
  | none => intStr 0 u

theorem parseSize_eq_upperSize {special : Char → Text} {s : Text} (h : ∀ c ∈ s, c.toNat < 128) :
    parseSize special s = upperSize (((strip s).filter (· ≠ '_')).map Char.toUpper) := by
  have hraw : ∀ c ∈ (strip s).filter (· ≠ '_'), c.toNat < 128 := fun c hc =>
    h c ((List.dropWhile_sublist _).subset
      ((List.rdropWhile_prefix _ _).subset (List.mem_of_mem_filter hc)))
  simp only [parseSize, Harness.sizeBytes, upperSize]
  generalize (strip s).filter (· ≠ '_') = raw at hraw
  have hupper : upper special raw = raw.map Char.toUpper := by
    rw [upper, List.map_eq_flatMap]
    exact List.flatMap_congr fun c hc => if_pos (hraw c hc)
  rw [hupper]
  cases Harness.multipliers.find? fun m => m.1 <:+ raw.map Char.toUpper with
  | some m => rfl
  | none => exact (intStr_toUpper hraw).symm

theorem upperSize_cases (u : Text) : upperSize u = intStr 0 u ∨ ∃ m ∈ Harness.multipliers, ∃ x,
    u = x ++ m.1 ∧ upperSize u = (intStr 0 x).map (· * (m.2 : Int)) := by
  unfold upperSize
  split
  · rename_i m hm
    have hsuffix := List.find?_some hm
    obtain ⟨x, rfl⟩ := of_decide_eq_true hsuffix
    refine .inr ⟨m, List.mem_of_find?_eq_some hm, x, rfl, ?_⟩
    rw [List.length_append, Nat.add_sub_cancel, List.take_left]
  · exact .inl rfl

theorem upperSize_plus {w : Text} (h : ∀ c ∈ w, (digitValue c).isSome = true) :
    upperSize ('+' :: w) = upperSize w := by
  have hfind : (Harness.multipliers.find? fun m => m.1 <:+ '+' :: w) =
      Harness.multipliers.find? fun m => m.1 <:+ w := by
    have hplus : ∀ m ∈ Harness.multipliers, m.1.head? ≠ some '+' := by decide
    refine List.find?_congr fun m hm => ?_
    rw [decide_eq_decide, List.suffix_cons_iff, or_iff_right]
    intro heq
    exact hplus m hm (by rw [heq]; rfl)
  unfold upperSize
  rw [hfind]
  cases hm : Harness.multipliers.find? fun m => m.1 <:+ w with
  | none => exact intStr_plus h
  | some m =>
    have hsuffix := List.find?_some hm
    have hle := (of_decide_eq_true hsuffix).length_le
    have htake : ('+' :: w).take (('+' :: w).length - m.1.length) =
        '+' :: w.take (w.length - m.1.length) := by
      rw [List.length_cons, Nat.sub_add_comm hle, List.take_succ_cons]
    simp only [htake, intStr_plus fun c hc => h c (List.mem_of_mem_take hc)]

/-- A positive size is written in letters and digits, with a plus sign or without. -/
theorem upperSize_pos {u : Text} {m : Int} (hascii : ∀ c ∈ u, c.toNat < 128)
    (hspace : ∀ c ∈ u, isSpace c = false) (hunder : '_' ∉ u) (hm : upperSize u = some m) (hpos : 0 < m) :
    ∃ w, (u = w ∨ u = '+' :: w) ∧ ∀ c ∈ w, (digitValue c).isSome = true := by
  rcases upperSize_cases u with hplain | ⟨p, hp, x, rfl, hsuffix⟩
  · rw [hplain] at hm
    exact intStr_pos hascii hspace hunder hm hpos
  · rw [hsuffix, Option.map_eq_some_iff] at hm
    obtain ⟨v, hv, rfl⟩ := hm
    have hvpos : 0 < v := pos_of_mul_pos_left hpos (Int.natCast_nonneg p.2)
    obtain ⟨w, hx, hw⟩ := intStr_pos (fun c hc => hascii c (List.mem_append_left _ hc))
      (fun c hc => hspace c (List.mem_append_left _ hc))
      (fun hc => hunder (List.mem_append_left _ hc)) hv hvpos
    have hletters : ∀ p ∈ Harness.multipliers, ∀ c ∈ p.1, (digitValue c).isSome = true := by decide
    refine ⟨w ++ p.1, ?_, fun c hc => (List.mem_append.1 hc).elim (hw c) (hletters p hp c)⟩
    rcases hx with rfl | rfl
    · exact .inl rfl
    · exact .inr rfl

/-- Blanks around a size and underscores are no letters or digits. -/
theorem letters_eq (s : Text) : letters s =
    (((strip s).filter (· ≠ '_')).map Char.toUpper).filter fun c => (digitValue c).isSome := by
  have hwhite : ∀ c, Re.isWhite c = true → (digitValue c.toUpper).isSome = false := by
    intro c hc
    rw [digitValue_toUpper, ← Bool.not_eq_true]
    intro hdigit
    have hnot := of_digitValue (P := fun c => Re.isWhite c = false) (by decide) hdigit
    rw [hc] at hnot
    cases hnot
  rw [letters, List.filter_map, List.filter_map, List.filter_filter,
    ← filter_strip (p := (fun c => (digitValue c).isSome) ∘ Char.toUpper) hwhite]
  congr 1
  refine List.filter_congr fun c _ => ?_
  by_cases hc : c = '_'
  · subst hc
    rfl
  · simp [hc]

theorem mem_upper {s : Text} (hs : ∀ c ∈ s, c.toNat < 128 ∧ isSpace c = false) :
    ∀ c ∈ ((strip s).filter (· ≠ '_')).map Char.toUpper,
      c.toNat < 128 ∧ isSpace c = false ∧ c ≠ '_' := by
  intro c hc
  obtain ⟨d, hd, rfl⟩ := List.mem_map.1 hc
  obtain ⟨hmem, hne⟩ := List.mem_filter.1 hd
  obtain ⟨hascii, hspace⟩ := hs d ((List.dropWhile_sublist _).subset
    ((List.rdropWhile_prefix _ _).subset hmem))
  refine ⟨?_, by rw [isSpace_toUpper, hspace], fun h => ?_⟩
  · exact toUpper_rel (P := fun c d => c.toNat < 128 → d.toNat < 128) (by decide) (fun _ => id) d
      hascii
  · exact of_decide_eq_true hne ((toUpper_eq_iff (by decide)).1 h)

theorem parseSize_letters {special : Char → Text} {s : Text} {m : Int}
    (hs : ∀ c ∈ s, c.toNat < 128 ∧ isSpace c = false) (hm : parseSize special s = some m)
    (hpos : 0 < m) : upperSize (letters s) = some m := by
  have hup := mem_upper hs
  rw [parseSize_eq_upperSize fun c hc => (hs c hc).1] at hm
  obtain ⟨w, hw, hdigits⟩ := upperSize_pos (fun c hc => (hup c hc).1) (fun c hc => (hup c hc).2.1)
    (fun hc => (hup _ hc).2.2 rfl) hm hpos
  have hself : w.filter (fun c => (digitValue c).isSome) = w := List.filter_eq_self.2 hdigits
  rcases hw with hw | hw
  · rw [letters_eq, hw, hself, ← hw, hm]
  · have hplus : ('+' :: w).filter (fun c => (digitValue c).isSome) = w := hself
    rw [letters_eq, hw, hplus, ← upperSize_plus hdigits, ← hw, hm]

/-- **Different sizes have different names**: two ASCII sizes without blanks that the harness reads as
positive numbers, and that have the same case name, are the same number of bytes. -/
theorem caseNameForSize_inj {special : Char → Text} {s t : Text} {m n : Int}
    (hs : ∀ c ∈ s, c.toNat < 128 ∧ isSpace c = false) (ht : ∀ c ∈ t, c.toNat < 128 ∧ isSpace c = false)
    (hm : parseSize special s = some m) (hmpos : 0 < m) (hn : parseSize special t = some n)
    (hnpos : 0 < n) (hname : Harness.caseNameForSize s = Harness.caseNameForSize t) :
    m = n ∧ Harness.sizeToHex special s = Harness.sizeToHex special t := by
  have hletters : letters s = letters t := by
    rw [letters_of_caseName fun c hc => (hs c hc).1, letters_of_caseName fun c hc => (ht c hc).1, hname]
  have hms := parseSize_letters hs hm hmpos
  have hnt := parseSize_letters ht hn hnpos
  rw [hletters, hnt] at hms
  have hsame : m = n := (Option.some.inj hms).symm
  refine ⟨hsame, ?_⟩
  rw [sizeToHex_of_parseSize hm, sizeToHex_of_parseSize hn, hsame]

theorem caseNameForSize_sixtyFour :
    Harness.caseNameForSize "64M".toList = Harness.caseNameForSize "+64m".toList ∧
      Harness.sizeToHex (fun c => [c]) "64M".toList =
        Harness.sizeToHex (fun c => [c]) "+64m".toList := by
  have hs : (∀ c ∈ "64M".toList, c.toNat < 128 ∧ isSpace c = false) ∧
      parseSize (fun c => [c]) "64M".toList = some 0x4000000 := by decide +kernel
  have ht : (∀ c ∈ "+64m".toList, c.toNat < 128 ∧ isSpace c = false) ∧
      parseSize (fun c => [c]) "+64m".toList = some 0x4000000 := by decide +kernel
  have hname : Harness.caseNameForSize "64M".toList = Harness.caseNameForSize "+64m".toList := by
    decide +kernel
  exact ⟨hname, (caseNameForSize_inj hs.1 ht.1 hs.2 (by decide) ht.2 (by decide) hname).2⟩

end Smoke.VmConfig
