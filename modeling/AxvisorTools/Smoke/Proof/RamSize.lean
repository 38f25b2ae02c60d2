import AxvisorTools.Linux.Proof.Memmap
import AxvisorTools.Py.Proof.Upper
import AxvisorTools.Smoke.VmConfig

/-!
# Two readers of the identity memory

`parse_size` and `int` read the size and the base of the identity memory for the VM config, and the
kernel reads the same strings from `memmap=`. `reserved_iff` says for which strings the kernel reserves
the memory that Python reads.
-/

namespace Smoke.VmConfig

open Py

variable {base : Nat} {ds lit rest : Text} {c : Char} {k : Nat} {suffix t : Text}
  {special : Char → Text}

/-! ## Characters -/

/-- A character between `0` and `z`, but no underscore: no blank, and read as it is. -/
def Solid (c : Char) : Prop := 48 ≤ c.toNat ∧ c.toNat ≤ 122 ∧ c ≠ '_'

theorem Solid.of_digit (h : isDigit base c = true) : Solid c := by
  obtain ⟨d, hd⟩ := Option.isSome_iff_exists.1 h
  have hvalue : (digitValue c).isSome = true := by rw [(digitValue_of_digit? hd).1]; rfl
  exact of_digitValue (P := fun c => 48 ≤ c.toNat ∧ c.toNat ≤ 122 ∧ c ≠ '_') (by decide) hvalue

theorem Solid.of_numeral (h : Numeral base ds lit) : ∀ c ∈ lit, Solid c := by
  cases h with
  | @hex x ds hx _ hds =>
    intro c hc
    have hsolid : Solid '0' ∧ Solid 'x' ∧ Solid 'X' := by
      unfold Solid
      decide
    rcases List.mem_cons.1 hc with rfl | hc
    · exact hsolid.1
    · rcases List.mem_cons.1 hc with rfl | hc
      · rcases hx with rfl | rfl
        · exact hsolid.2.1
        · exact hsolid.2.2
      · exact .of_digit (hds c hc)
  | dec _ _ hds => exact fun c hc => .of_digit (hds c hc)

theorem suffixShift_cases (h : Linux.suffixShift c = some k) :
    ((c, k) ∈ [('K', 10), ('k', 10), ('M', 20), ('m', 20), ('G', 30), ('g', 30)]) ∨
      c ∈ ['T', 't', 'P', 'p', 'E', 'e'] := by
  unfold Linux.suffixShift at h
  split_ifs at h
  all_goals
    rename_i hc
    cases h
    rcases hc with rfl | rfl <;> decide

theorem Solid.of_suffix (h : Linux.Suffix suffix k) : ∀ c ∈ suffix, Solid c := by
  cases h with
  | none => exact fun c hc => absurd hc List.not_mem_nil
  | @letter e k h =>
    intro c hc
    rw [List.mem_singleton.1 hc]
    have hknown : ∀ p ∈ [('K', 10), ('k', 10), ('M', 20), ('m', 20), ('G', 30), ('g', 30)],
        Solid p.1 := by
      unfold Solid
      decide
    have hother : ∀ e ∈ ['T', 't', 'P', 'p', 'E', 'e'], Solid e := by
      unfold Solid
      decide
    rcases suffixShift_cases h with h | h
    · exact hknown _ h
    · exact hother _ h

theorem Solid.not_space (h : Solid c) : isSpace c = false := by
  have hlow := h.1
  simp only [isSpace, Bool.or_eq_false_iff, beq_eq_false_iff_ne, Bool.and_eq_false_iff,
    decide_eq_false_iff_not]
  refine ⟨fun hc => ?_, by omega⟩
  rw [hc] at hlow
  exact absurd hlow (by decide)

theorem Solid.toAscii (h : Solid c) : toAscii c = c := by
  have hhigh := h.2.1
  exact if_pos (by omega)

section Texts

variable {t : Text} (h : ∀ c ∈ t, Solid c)
include h

theorem toAscii_solid : t.map toAscii = t := by
  refine (List.map_congr_left fun c hc => ?_).trans (List.map_id t)
  exact (h c hc).toAscii

theorem filter_solid : t.filter (· ≠ '_') = t :=
  List.filter_eq_self.2 fun c hc => by simpa using (h c hc).2.2

theorem strip_solid : strip t = t := by
  have hwhite : ∀ c ∈ t, Re.isWhite c = false := by
    intro c hc
    have hlow := (h c hc).1
    have hhigh := (h c hc).2.1
    simp only [Re.isWhite, Bool.or_eq_false_iff, Bool.and_eq_false_iff, decide_eq_false_iff_not,
      beq_eq_false_iff_ne]
    omega
  have hleft : t.dropWhile Re.isWhite = t := by
    cases t with
    | nil => rfl
    | cons c t => rw [List.dropWhile_cons, hwhite c List.mem_cons_self, if_neg (by decide)]
  rw [strip, hleft, List.rdropWhile_eq_self_iff]
  intro hne
  rw [hwhite _ (List.getLast_mem hne)]
  decide

theorem upper_solid (special : Char → Text) : upper special t = t.map Char.toUpper := by
  induction t with
  | nil => rfl
  | cons c t ih =>
    have hc := (h c List.mem_cons_self).2.1
    rw [upper, List.flatMap_cons, if_pos (by omega), List.map_cons, List.singleton_append]
    exact congrArg _ (ih fun e he => h e (List.mem_cons_of_mem _ he))

end Texts

/-! ## Upper case -/

theorem isDigit_toUpper (h : ∀ c ∈ t, isDigit base c = true) :
    ∀ c ∈ t.map Char.toUpper, isDigit base c = true := by
  intro c hc
  obtain ⟨e, he, rfl⟩ := List.mem_map.1 hc
  rw [isDigit, digit?_toUpper]
  exact h e he

theorem ofDigits_toUpper (h : ∀ c ∈ t, isDigit base c = true) (acc : Nat) :
    ofDigits base acc (t.map Char.toUpper) = ofDigits base acc t := by
  induction t generalizing acc with
  | nil => rfl
  | cons c t ih =>
    rw [List.map_cons, ofDigits_cons, ofDigits_cons, digit?_toUpper,
      ih fun e he => h e (List.mem_cons_of_mem _ he)]

theorem numeral_toUpper (h : Numeral base ds lit) :
    Numeral base (ds.map Char.toUpper) (lit.map Char.toUpper) := by
  cases h with
  | @hex x ds hx hne hds =>
    refine .hex (x := x.toUpper) ?_ (by simpa using hne) (isDigit_toUpper hds)
    rcases hx with rfl | rfl <;> exact .inr rfl
  | dec hne hzero hds =>
    refine .dec (by simpa using hne) (fun hhead => ?_) (isDigit_toUpper hds)
    obtain ⟨c, ds, rfl⟩ := List.exists_cons_of_ne_nil hne
    have hc : c ≠ '0' := fun h => hzero (by rw [h]; rfl)
    rw [List.map_cons, List.head?_cons, Option.some.injEq] at hhead
    exact hc ((toUpper_eq_iff (by decide)).1 hhead)

/-! ## Sizes -/

theorem suffix_concat {a u : Text} {x y : Char} : a ++ [x] <:+ u ++ [y] ↔ a <:+ u ∧ x = y := by
  rw [← List.reverse_prefix, List.reverse_append, List.reverse_append, List.reverse_singleton,
    List.reverse_singleton, List.singleton_append, List.singleton_append, List.cons_prefix_cons,
    List.reverse_prefix, and_comm]

theorem find?_multipliers_none {up : Text} (h : 'K' ∉ up ∧ 'M' ∉ up ∧ 'G' ∉ up) :
    Harness.multipliers.find? (fun m => m.1 <:+ up) = none := by
  rw [List.find?_eq_none]
  intro m hm
  have hletter : ∀ m ∈ Harness.multipliers, 'K' ∈ m.1 ∨ 'M' ∈ m.1 ∨ 'G' ∈ m.1 := by decide
  intro hsuffix
  have hsub := (of_decide_eq_true hsuffix).subset
  rcases hletter m hm with hm | hm | hm
  · exact h.1 (hsub hm)
  · exact h.2.1 (hsub hm)
  · exact h.2.2 (hsub hm)

theorem find?_multipliers (h : (c, k) ∈ [('K', 10), ('M', 20), ('G', 30)]) (up : Text) :
    Harness.multipliers.find? (fun m => m.1 <:+ up ++ [c]) = some ([c], 2 ^ k) := by
  have hpair : ∀ a : Char, ¬ [a, 'B'] <:+ up ++ [c] := by
    intro a hsuffix
    have hc := (suffix_concat (a := [a]).1 hsuffix).2
    subst hc
    revert h
    simp
  have hone : ∀ a : Char, [a] <:+ up ++ [c] ↔ a = c := by
    intro a
    simp
  rcases h with _ | ⟨_, _ | ⟨_, _ | ⟨_, ⟨⟩⟩⟩⟩
  all_goals simp [Harness.multipliers, hpair, hone]

theorem letter_not_mem (h : Numeral base ds lit) (hc : c ∈ ['K', 'M', 'G']) : c ∉ lit := by
  have hdigit : isDigit base c = false := by
    have hten : ∀ c ∈ ['K', 'M', 'G'], isDigit 10 c = false ∧ isDigit 16 c = false := by decide
    rcases h.base_cases with rfl | rfl
    · exact (hten c hc).1
    · exact (hten c hc).2
  intro hmem
  cases h with
  | @hex x ds hx _ hds =>
    rcases List.mem_cons.1 hmem with rfl | hmem
    · exact absurd hc (by decide)
    · rcases List.mem_cons.1 hmem with rfl | hmem
      · rcases hx with rfl | rfl <;> exact absurd hc (by decide)
      · exact absurd (hds c hmem) (by simp [hdigit])
  | dec _ _ hds => exact absurd (hds c hmem) (by simp [hdigit])

theorem intStr_numeral (h : Numeral base ds lit) {v : Int} (hv : intStr 0 lit = some v) :
    v = ofDigits base 0 ds := by
  have hint := int_of_intStr hv
  rw [toAscii_solid (Solid.of_numeral h), ← List.append_nil lit,
    int_numeral h List.not_mem_nil] at hint
  cases hint
  rfl

theorem intStr_letter (h : Numeral base ds lit) (hc : isDigit base c = false) (hsolid : Solid c) :
    intStr 0 (lit ++ [c]) = none := by
  rw [Option.eq_none_iff_forall_ne_some]
  intro v hv
  have hall : ∀ e ∈ lit ++ [c], Solid e := by
    intro e he
    rcases List.mem_append.1 he with he | he
    · exact Solid.of_numeral h e he
    · rwa [List.mem_singleton.1 he]
  have hunder : '_' ∉ [c] := fun hmem => hsolid.2.2 (List.mem_singleton.1 hmem).symm
  have hint := int_of_intStr hv
  rw [toAscii_solid hall, int_numeral h hunder, finish] at hint
  simp [hc, hsolid.not_space] at hint

theorem sizeToHex_of_parseSize {s : Text} {n : Int} (h : parseSize special s = some n) :
    Harness.sizeToHex special s = some ("0x" ++ Harness.hex08 n) := by
  have hbytes : Harness.sizeBytes special s = some n := h
  rw [Harness.sizeToHex, hbytes, Option.map_some]

/-- The letters of `parse_size`. -/
def sizeLetters : Text := ['K', 'k', 'M', 'm', 'G', 'g']

/-- `parse_size` of a text and at most one letter. -/
theorem parseSize_cases {body : Text} {s : Int} (hbody : ∀ c ∈ body, Solid c)
    (hnot : ∀ c ∈ ['K', 'M', 'G'], c ∉ body.map Char.toUpper) (hs : Linux.Suffix suffix k)
    (hparse : parseSize special (body ++ suffix) = some s) :
    (suffix = [] ∧ k = 0 ∧ intStr 0 body = some s) ∨
      (∃ c ∈ sizeLetters, suffix = [c] ∧
        ∃ v, intStr 0 (body.map Char.toUpper) = some v ∧ s = v * (2 ^ k : Nat)) ∨
      ∃ c, suffix = [c] ∧ intStr 0 (body ++ [c]) = some s := by
  have hsolid : ∀ c ∈ body ++ suffix, Solid c := by
    intro c hc
    rcases List.mem_append.1 hc with hc | hc
    · exact hbody c hc
    · exact Solid.of_suffix hs c hc
  simp only [parseSize, Harness.sizeBytes, strip_solid hsolid, filter_solid hsolid, upper_solid hsolid special,
    List.map_append] at hparse
  cases hs with
  | none =>
    rw [List.map_nil, List.append_nil, find?_multipliers_none
      ⟨hnot _ (by decide), hnot _ (by decide), hnot _ (by decide)⟩, List.append_nil] at hparse
    exact .inl ⟨rfl, rfl, hparse⟩
  | @letter c k hc =>
    rcases suffixShift_cases hc with hknown | hother
    · have hup : (c.toUpper, k) ∈ [('K', 10), ('M', 20), ('G', 30)] ∧ c ∈ sizeLetters := by
        have hall : ∀ p ∈ [('K', 10), ('k', 10), ('M', 20), ('m', 20), ('G', 30), ('g', 30)],
            (p.1.toUpper, p.2) ∈ [('K', 10), ('M', 20), ('G', 30)] ∧ p.1 ∈ sizeLetters := by decide
        exact hall _ hknown
      rw [List.map_cons, List.map_nil, find?_multipliers hup.1] at hparse
      have htake : (body.map Char.toUpper ++ [c.toUpper]).take
          ((body.map Char.toUpper ++ [c.toUpper]).length - [c.toUpper].length) =
            body.map Char.toUpper := by simp
      simp only [htake] at hparse
      obtain ⟨v, hv, rfl⟩ := Option.map_eq_some_iff.1 hparse
      exact .inr (.inl ⟨c, hup.2, rfl, v, hv, rfl⟩)
    · have hup : c.toUpper ∉ ['K', 'M', 'G'] := by
        have hall : ∀ e ∈ ['T', 't', 'P', 'p', 'E', 'e'], e.toUpper ∉ ['K', 'M', 'G'] := by decide
        exact hall c hother
      have hnot' : ∀ e ∈ ['K', 'M', 'G'], e ∉ body.map Char.toUpper ++ [c.toUpper] := by
        intro e he hmem
        rcases List.mem_append.1 hmem with hmem | hmem
        · exact hnot e he hmem
        · exact hup (List.mem_singleton.1 hmem ▸ he)
      rw [List.map_cons, List.map_nil, find?_multipliers_none
        ⟨hnot' _ (by decide), hnot' _ (by decide), hnot' _ (by decide)⟩] at hparse
      exact .inr (.inr ⟨c, rfl, hparse⟩)

/-- What `parse_size` makes of a size that the kernel reads. -/
theorem parseSize_numeral (h : Numeral base ds lit) (hs : Linux.Suffix suffix k)
    (hdigit : ∀ c ∈ suffix, isDigit base c = false) {s : Int}
    (hparse : parseSize special (lit ++ suffix) = some s) :
    s = (ofDigits base 0 ds * 2 ^ k : Nat) ∧
      (suffix = [] ∨ ∃ c ∈ sizeLetters, suffix = [c]) := by
  have hupper := numeral_toUpper h
  rcases parseSize_cases (Solid.of_numeral h) (fun c hc => letter_not_mem hupper hc) hs hparse with
    ⟨hnil, rfl, hint⟩ | ⟨c, hc, hcons, v, hv, rfl⟩ | ⟨c, rfl, hint⟩
  · rw [intStr_numeral h hint]
    exact ⟨by simp, .inl hnil⟩
  · rw [intStr_numeral hupper hv, ofDigits_toUpper h.isDigit]
    exact ⟨by push_cast; rfl, .inr ⟨c, hc, hcons⟩⟩
  · rw [intStr_letter h (hdigit c List.mem_cons_self)
      (Solid.of_suffix hs c List.mem_cons_self)] at hint
    cases hint

theorem solid_octal (hds : ∀ e ∈ ds, isDigit 8 e = true) : ∀ e ∈ '0' :: ds, Solid e := by
  intro e he
  rcases List.mem_cons.1 he with rfl | he
  · unfold Solid
    decide
  · exact .of_digit (hds e he)

theorem intStr_octal (hds : ∀ e ∈ c :: ds, isDigit 8 e = true)
    (hne : ofDigits 8 0 ('0' :: c :: ds) ≠ 0) (hrest : '_' ∉ rest.map toAscii) :
    intStr 0 ('0' :: c :: ds ++ rest) = none := by
  rw [Option.eq_none_iff_forall_ne_some]
  intro v hv
  have hint := int_of_intStr hv
  rw [List.map_append, toAscii_solid (solid_octal hds), int_octal hds hne hrest] at hint
  cases hint

theorem parseSize_octal (hds : ∀ e ∈ c :: ds, isDigit 8 e = true)
    (hne : ofDigits 8 0 ('0' :: c :: ds) ≠ 0) (hs : Linux.Suffix suffix k) :
    parseSize special ('0' :: c :: ds ++ suffix) = none := by
  rw [Option.eq_none_iff_forall_ne_some]
  intro s hparse
  have hall : ∀ e ∈ '0' :: c :: ds, isDigit 8 e = true := by
    intro e he
    rcases List.mem_cons.1 he with rfl | he
    · decide
    · exact hds e he
  have hupper : ∀ e ∈ c.toUpper :: ds.map Char.toUpper, isDigit 8 e = true := isDigit_toUpper hds
  have hvalue : ofDigits 8 0 ('0' :: c.toUpper :: ds.map Char.toUpper) ≠ 0 := by
    have hsame := ofDigits_toUpper hall 0
    exact fun hzero => hne (hsame ▸ hzero)
  have hnot : ∀ e ∈ ['K', 'M', 'G'], e ∉ ('0' :: c :: ds).map Char.toUpper := by
    intro e he hmem
    have hoctal : ∀ e ∈ ['K', 'M', 'G'], isDigit 8 e = false := by decide
    have hdigit := isDigit_toUpper hall e hmem
    rw [hoctal e he] at hdigit
    cases hdigit
  rcases parseSize_cases (solid_octal hds) hnot hs hparse with
    ⟨-, -, hint⟩ | ⟨e, -, -, v, hv, -⟩ | ⟨e, rfl, hint⟩
  · rw [← List.append_nil ('0' :: c :: ds), intStr_octal hds hne (by simp)] at hint
    cases hint
  · have hmap : ('0' :: c :: ds).map Char.toUpper = '0' :: c.toUpper :: ds.map Char.toUpper ++ [] := by
      rw [List.append_nil]
      rfl
    rw [hmap, intStr_octal hupper hvalue (by simp)] at hv
    cases hv
  · have hunder : '_' ∉ [e].map toAscii := by
      have hsolid := Solid.of_suffix hs
      rw [toAscii_solid hsolid]
      exact fun hmem => (hsolid '_' hmem).2.2 rfl
    rw [intStr_octal hds hne hunder] at hint
    cases hint

/-! ## What follows a size -/

theorem mem_strip (hc : Re.isWhite c = false) (h : c ∈ t) : c ∈ strip t := by
  have hdrop : ∀ u : Text, c ∈ u → c ∈ u.dropWhile Re.isWhite := by
    intro u hu
    rw [← List.takeWhile_append_dropWhile (p := Re.isWhite) (l := u)] at hu
    refine (List.mem_append.1 hu).resolve_left fun hmem => ?_
    rw [List.mem_takeWhile_imp hmem] at hc
    cases hc
  rw [strip, List.rdropWhile, List.mem_reverse]
  exact hdrop _ (List.mem_reverse.2 (hdrop t h))

theorem dollar_not_mem_intStr {v : Int} (h : intStr 0 t = some v) : '$' ∉ t := by
  intro hmem
  have hascii : '$' ∈ t.map toAscii := List.mem_map.2 ⟨'$', hmem, rfl⟩
  rcases mem_of_int (int_of_intStr h) hascii with hc | hc
  · exact absurd hc (by decide)
  · exact absurd hc (by decide)

theorem dollar_not_mem_size {size : Text} {s : Int} (h : parseSize special size = some s) :
    '$' ∉ size := by
  intro hmem
  have hraw : '$' ∈ (strip size).filter (· ≠ '_') :=
    List.mem_filter.2 ⟨mem_strip (by decide) hmem, by decide⟩
  have hup : '$' ∈ upper special ((strip size).filter (· ≠ '_')) :=
    List.mem_flatMap.2 ⟨'$', hraw, List.mem_singleton_self '$'⟩
  simp only [parseSize, Harness.sizeBytes] at h
  split at h
  · rename_i m hm
    obtain ⟨v, hv, -⟩ := Option.map_eq_some_iff.1 h
    refine dollar_not_mem_intStr hv ?_
    have hletters : ∀ m ∈ Harness.multipliers, '$' ∉ m.1 := by decide
    have hsuffix := List.find?_some hm
    obtain ⟨p, hp⟩ := of_decide_eq_true hsuffix
    rw [← hp, List.length_append, Nat.add_sub_cancel, List.take_left]
    rw [← hp] at hup
    exact (List.mem_append.1 hup).resolve_right (hletters m (List.mem_of_find?_eq_some hm))
  · exact dollar_not_mem_intStr h hraw

theorem dollar_not_solid (h : ∀ c ∈ t, Solid c) : '$' ∉ t := by
  intro hmem
  have hlow := (h '$' hmem).1
  exact absurd hlow (by decide)

/-- A size both read: a numeral with at most one letter. -/
def PlainSize (size : Text) : Prop :=
  ∃ base ds lit suffix, Numeral base ds lit ∧ size = lit ++ suffix ∧
    (suffix = [] ∨ ∃ c ∈ sizeLetters, suffix = [c])

theorem suffix_of_letters (h : suffix = [] ∨ ∃ c ∈ sizeLetters, suffix = [c]) :
    ∃ k, Linux.Suffix suffix k ∧ ∀ c ∈ suffix, isDigit 10 c = false ∧ isDigit 16 c = false := by
  rcases h with rfl | ⟨c, hc, rfl⟩
  · exact ⟨0, .none, fun c hc => absurd hc List.not_mem_nil⟩
  · have hall : ∀ c ∈ sizeLetters, (Linux.suffixShift c).isSome = true ∧ isDigit 10 c = false ∧
        isDigit 16 c = false := by decide
    obtain ⟨hshift, hdigit⟩ := hall c hc
    obtain ⟨k, hk⟩ := Option.isSome_iff_exists.1 hshift
    refine ⟨k, .letter hk, fun e he => ?_⟩
    rw [List.mem_singleton.1 he]
    exact hdigit

section Memmap

variable {special : Char → Text} {size t : Text} {s : Nat}

/-- The kernel reserves some memory only for a plain size. -/
theorem plainSize_of_memmapRange (hs : parseSize special size = some (s : Int)) {r : Linux.Range}
    (hr : Linux.memmapRange (size ++ '$' :: t) = some r) (hne : r.size ≠ 0) :
    PlainSize size ∧ s ≠ 0 ∧ r = ⟨(Linux.memparse t).1, s % 2 ^ 64⟩ := by
  obtain ⟨suffix, k, t', hsuffix, hrest, rfl⟩ := Linux.memmapRange_cases hr
  have hread : (Linux.strtoull (size ++ '$' :: t)).1 ≠ 0 := by
    intro hzero
    rw [hzero] at hne
    simp at hne
  have hdollar := dollar_not_mem_size hs
  have hsame : ∀ {body : Text}, (∀ c ∈ body, Solid c) →
      size ++ '$' :: t = body ++ (suffix ++ '$' :: t') → size = body ++ suffix ∧ t = t' := by
    intro body hbody heq
    have hsolid : ∀ c ∈ body ++ suffix, Solid c := by
      intro c hc
      rcases List.mem_append.1 hc with hc | hc
      · exact hbody c hc
      · exact Solid.of_suffix hsuffix c hc
    rw [← List.append_assoc] at heq
    exact append_cons_inj hdollar (dollar_not_solid hsolid) heq
  rcases Linux.strtoull_cases hread with ⟨base, ds, lit, hlit, htext, hvalue, hhead⟩ |
    ⟨c, ds, hds, hvalue, htext⟩
  · rw [hrest] at htext hhead
    obtain ⟨rfl, rfl⟩ := hsame (Solid.of_numeral hlit) htext
    have hdigit : ∀ c ∈ suffix, isDigit base c = false := by
      cases hsuffix with
      | none => exact fun c hc => absurd hc List.not_mem_nil
      | letter _ =>
        intro c hc
        rw [List.mem_singleton.1 hc]
        exact hhead _ rfl
    obtain ⟨hsize, hletters⟩ := parseSize_numeral hlit hsuffix hdigit hs
    rw [Int.natCast_inj] at hsize
    rw [hvalue, Nat.mod_mul_mod, ← hsize] at hne ⊢
    refine ⟨⟨base, ds, lit, suffix, hlit, rfl, hletters⟩, fun hzero => ?_, rfl⟩
    rw [hzero] at hne
    exact hne rfl
  · rw [hrest] at htext
    obtain ⟨rfl, rfl⟩ := hsame (solid_octal hds) htext
    rw [parseSize_octal hds hvalue hsuffix] at hs
    cases hs

theorem memmapRange_of_plainSize (hs : parseSize special size = some (s : Int))
    (hplain : PlainSize size) (t : Text) :
    Linux.memmapRange (size ++ '$' :: t) = some ⟨(Linux.memparse t).1, s % 2 ^ 64⟩ := by
  obtain ⟨base, ds, lit, suffix, hlit, rfl, hletters⟩ := hplain
  obtain ⟨k, hsuffix, hdigits⟩ := suffix_of_letters hletters
  have hdigit : ∀ c ∈ suffix, isDigit base c = false := by
    intro c hc
    rcases hlit.base_cases with rfl | rfl
    · exact (hdigits c hc).1
    · exact (hdigits c hc).2
  have hsize := (parseSize_numeral hlit hsuffix hdigit hs).1
  rw [Int.natCast_inj] at hsize
  rw [List.append_assoc, Linux.memmapRange_numeral hlit hsuffix hdigit, hsize]

end Memmap

/-! ## Bases -/

/-- A base both read: a numeral, with nothing but blanks and underscores after it. -/
def PlainBase (t : Text) : Prop :=
  ∃ base ds lit rest, Numeral base ds lit ∧ t = lit ++ rest ∧
    ∀ c ∈ rest, c = '_' ∨ isSpace (toAscii c) = true

theorem decimal?_lt {d : Nat} (h : decimal? c = some d) : d < 10 := by
  obtain ⟨z, hz, rfl⟩ := Option.map_eq_some_iff.1 h
  have hrange := List.find?_some hz
  simp only [decide_eq_true_eq] at hrange
  omega

theorem toAscii_eq_underscore (h : toAscii c = '_') : c = '_' := by
  unfold toAscii at h
  split at h
  · exact h
  · split at h
    · exact absurd h (by decide)
    · split at h
      · rename_i d hd
        have hall : ∀ d < 10, Char.ofNat ('0'.toNat + d) ≠ '_' := by decide
        exact absurd h (hall d (decimal?_lt hd))
      · exact absurd h (by decide)

/-- The characters `int` gets for a base. -/
def asRead (t : Text) : Text := (t.filter (· ≠ '_')).map toAscii

theorem underscore_not_mem_asRead (t : Text) : '_' ∉ asRead t := by
  intro h
  obtain ⟨c, hc, hunder⟩ := List.mem_map.1 h
  have hne := (List.mem_filter.1 hc).2
  rw [toAscii_eq_underscore hunder] at hne
  exact absurd hne (by decide)

theorem asRead_append (s t : Text) : asRead (s ++ t) = asRead s ++ asRead t := by
  rw [asRead, List.filter_append, List.map_append]
  rfl

theorem asRead_solid (h : ∀ c ∈ t, Solid c) : asRead t = t := by
  rw [asRead, filter_solid h, toAscii_solid h]

theorem mem_asRead (hc : c ∈ t) (hne : c ≠ '_') : toAscii c ∈ asRead t :=
  List.mem_map.2 ⟨c, List.mem_filter.2 ⟨hc, by simpa using hne⟩, rfl⟩

theorem parseBase_numeral (h : Numeral base ds lit) {b : Int}
    (hb : parseBase (lit ++ rest) = some b) :
    finish base (ofDigits base 0 ds) (asRead rest) = some b := by
  have hint : int 0 (asRead (lit ++ rest)) = some b := int_of_intStr hb
  rwa [asRead_append, asRead_solid (Solid.of_numeral h),
    int_numeral h (underscore_not_mem_asRead rest)] at hint

theorem parseBase_octal (hds : ∀ e ∈ c :: ds, isDigit 8 e = true)
    (hne : ofDigits 8 0 ('0' :: c :: ds) ≠ 0) : parseBase ('0' :: c :: ds ++ rest) = none := by
  rw [Option.eq_none_iff_forall_ne_some]
  intro b hb
  have hint : int 0 (asRead ('0' :: c :: ds ++ rest)) = some b := int_of_intStr hb
  rw [asRead_append, asRead_solid (solid_octal hds),
    int_octal hds hne (underscore_not_mem_asRead rest)] at hint
  cases hint

theorem finish_cases {n : Nat} {b : Int} (hb : 2 ≤ base) (h : finish base n rest = some b) :
    (b = n ∧ ∀ c ∈ rest, isSpace c = true) ∨ (2 * n : Nat) ≤ b := by
  unfold finish at h
  split at h
  · rename_i hblank
    cases h
    by_cases hd : rest.takeWhile (isDigit base) = []
    · left
      have hsame : rest.dropWhile (isDigit base) = rest := by
        have happend := List.takeWhile_append_dropWhile (p := isDigit base) (l := rest)
        rwa [hd, List.nil_append] at happend
      rw [hsame] at hblank
      rw [hd]
      exact ⟨rfl, List.dropWhile_eq_nil_iff.1 (List.isEmpty_iff.1 hblank)⟩
    · right
      exact Int.ofNat_le.2 (two_mul_le_ofDigits hb hd n)
  · cases h

theorem junk_not_solid (h : c = '_' ∨ isSpace (toAscii c) = true) : ¬ Solid c := by
  intro hsolid
  rcases h with h | h
  · exact hsolid.2.2 h
  · rw [hsolid.toAscii, hsolid.not_space] at h
    cases h

theorem finish_blank {n : Nat} (h : ∀ c ∈ rest, isSpace c = true) :
    finish base n rest = some (n : Int) := by
  have hblank : rest.dropWhile isSpace = [] := List.dropWhile_eq_nil_iff.2 h
  cases rest with
  | nil => rfl
  | cons c rest =>
    have hc : isDigit base c = false := by
      by_contra hdigit
      have hsolid : Solid c := .of_digit (Bool.eq_true_of_not_eq_false hdigit)
      have hspace := h c List.mem_cons_self
      rw [hsolid.not_space] at hspace
      cases hspace
    have htake : (c :: rest).takeWhile (isDigit base) = [] := by
      rw [List.takeWhile_cons, hc]
      rfl
    have hdrop : (c :: rest).dropWhile (isDigit base) = c :: rest := by
      rw [List.dropWhile_cons, hc]
      rfl
    rw [finish, htake, hdrop, hblank]
    rfl

/-- The kernel reads the numeral in front of a base that Python accepts. -/
theorem memparse_numeral (h : Numeral base ds lit)
    (hrest : ∀ c ∈ rest.head?, isDigit base c = false) {b : Int}
    (hb : parseBase (lit ++ rest) = some b) :
    (Linux.memparse (lit ++ rest)).1 = ofDigits base 0 ds % 2 ^ 64 := by
  have hletter : ∀ c ∈ rest.head?, Linux.suffixShift c = none := by
    intro c hc
    rw [Option.eq_none_iff_forall_ne_some]
    intro k hk
    have hsolid : Solid c := Solid.of_suffix (.letter hk) c List.mem_cons_self
    obtain ⟨r, rfl⟩ := List.head?_eq_some_iff.1 hc
    have hread : asRead (c :: r) = c :: asRead r := by
      rw [← List.singleton_append, asRead_append, asRead_solid]
      · rfl
      · intro e he
        rwa [List.mem_singleton.1 he]
    have hfinish := parseBase_numeral h hb
    rw [hread, finish] at hfinish
    simp [hrest c rfl, hsolid.not_space] at hfinish
  have hshift := Linux.shifted_suffix .none (ofDigits base 0 ds) hletter
  rw [List.nil_append] at hshift
  rw [Linux.memparse, Linux.strtoull_numeral h hrest, hshift, Nat.pow_zero, Nat.mul_one]

theorem memparse_zero (h : (Linux.strtoull t).1 = 0) : (Linux.memparse t).1 = 0 := by
  obtain ⟨suffix, k, -, -, hvalue⟩ := Linux.shifted_cases 0 (Linux.strtoull t).2
  rw [Linux.memparse, h]
  simpa using hvalue

theorem memparse_of_plainBase {b : Nat} (hb : parseBase t = some (b : Int)) (h : PlainBase t) :
    (Linux.memparse t).1 = b % 2 ^ 64 := by
  obtain ⟨base, ds, lit, rest, hlit, rfl, hjunk⟩ := h
  have hhead : ∀ c ∈ rest.head?, isDigit base c = false := by
    intro c hc
    by_contra hdigit
    exact junk_not_solid (hjunk c (List.mem_of_mem_head? hc))
      (.of_digit (Bool.eq_true_of_not_eq_false hdigit))
  have hblank : ∀ c ∈ asRead rest, isSpace c = true := by
    intro c hc
    obtain ⟨e, he, rfl⟩ := List.mem_map.1 hc
    obtain ⟨he, hne⟩ := List.mem_filter.1 he
    exact (hjunk e he).resolve_left (by simpa using hne)
  have hfinish := parseBase_numeral hlit hb
  rw [finish_blank hblank, Option.some.injEq, Int.natCast_inj] at hfinish
  rw [memparse_numeral hlit hhead hb, hfinish]

theorem memparse_cases {b : Nat} (hb : parseBase t = some (b : Int))
    (hread : (Linux.strtoull t).1 ≠ 0) :
    ∃ n, n % 2 ^ 64 ≠ 0 ∧ (Linux.memparse t).1 = n % 2 ^ 64 ∧ (b = n ∧ PlainBase t ∨ 2 * n ≤ b) := by
  rcases Linux.strtoull_cases hread with ⟨base, ds, lit, hlit, htext, hvalue, hhead⟩ |
    ⟨c, ds, hds, hvalue, htext⟩
  · generalize (Linux.strtoull t).2 = rest at htext hhead
    rw [hvalue] at hread
    subst htext
    refine ⟨ofDigits base 0 ds, hread, memparse_numeral hlit hhead hb, ?_⟩
    have htwo : 2 ≤ base := by
      rcases hlit.base_cases with rfl | rfl <;> decide
    rcases finish_cases htwo (parseBase_numeral hlit hb) with ⟨hn, hblank⟩ | hle
    · left
      refine ⟨Int.natCast_inj.1 hn, base, ds, lit, rest, hlit, rfl, fun c hc => ?_⟩
      by_cases hunder : c = '_'
      · exact .inl hunder
      · exact .inr (hblank _ (mem_asRead hc hunder))
    · exact .inr (Int.ofNat_le.1 hle)
  · rw [htext, parseBase_octal hds hvalue] at hb
    cases hb

/-- **The bases that the kernel and Python read alike.** -/
theorem memparse_eq_iff {b : Nat} (hb : parseBase t = some (b : Int)) :
    (Linux.memparse t).1 = b ↔ b = 0 ∨ b < 2 ^ 64 ∧ PlainBase t := by
  have hlt : ∀ n : Nat, n % 2 ^ 64 < 2 ^ 64 := fun n => Nat.mod_lt n (by decide)
  refine ⟨fun h => ?_, fun h => ?_⟩
  · by_cases hread : (Linux.strtoull t).1 = 0
    · exact .inl (h ▸ memparse_zero hread)
    · obtain ⟨n, hn, hvalue, ⟨rfl, hplain⟩ | hle⟩ := memparse_cases hb hread
      · have := hlt b
        exact .inr ⟨by omega, hplain⟩
      · have := Nat.mod_le n (2 ^ 64)
        omega
  · rcases h with rfl | ⟨hb', hplain⟩
    · by_contra hne
      obtain ⟨n, hn, -, ⟨hzero, -⟩ | hle⟩ := memparse_cases hb fun h => hne (memparse_zero h)
      · exact hn (by rw [← hzero, Nat.zero_mod])
      · exact hn (by rw [show n = 0 by omega, Nat.zero_mod])
    · rw [memparse_of_plainBase hb hplain, Nat.mod_eq_of_lt hb']

/-! ## Ranges -/

section Reserved

variable {special : Char → Text} {base size : Text} {b s : Nat}

theorem reserved_zero (hs : parseSize special size = some 0) (t : Text) :
    Linux.reserved (size ++ '$' :: t) = ∅ := by
  unfold Linux.reserved
  split
  · rename_i r hr
    refine Linux.addresses_empty ?_
    by_contra hne
    exact (plainSize_of_memmapRange hs hr hne).2.1 rfl
  · rfl

theorem memmapRange_iff (hs : parseSize special size = some (s : Int)) (hne : s ≠ 0) :
    Linux.memmapRange (size ++ '$' :: base) = some ⟨b, s⟩ ↔
      s < 2 ^ 64 ∧ PlainSize size ∧ (Linux.memparse base).1 = b := by
  refine ⟨fun h => ?_, fun ⟨hlt, hplain, hb⟩ => ?_⟩
  · obtain ⟨hplain, -, hr⟩ := plainSize_of_memmapRange hs h hne
    rw [Linux.Range.mk.injEq] at hr
    have hlt : s % 2 ^ 64 < 2 ^ 64 := Nat.mod_lt s (by decide)
    exact ⟨by omega, hplain, hr.1.symm⟩
  · rw [memmapRange_of_plainSize hs hplain, hb, Nat.mod_eq_of_lt hlt]

/-- **The strings for which the kernel reserves the memory that Python reads.** -/
theorem reserved_iff (hb : parseBase base = some (b : Int))
    (hs : parseSize special size = some (s : Int)) :
    Linux.reserved (size ++ '$' :: base) = (⟨b, s⟩ : Linux.Range).addresses ↔
      s = 0 ∨ s < 2 ^ 64 ∧ PlainSize size ∧ (b = 0 ∨ b < 2 ^ 64 ∧ PlainBase base) := by
  by_cases hne : s = 0
  · subst hne
    rw [reserved_zero hs, Linux.addresses_empty rfl]
    simp
  · have hpos : 0 < (⟨b, s⟩ : Linux.Range).size := Nat.pos_of_ne_zero hne
    rw [Linux.reserved_eq_iff hpos, memmapRange_iff hs hne, memparse_eq_iff hb]
    simp [hne]

end Reserved

end Smoke.VmConfig
