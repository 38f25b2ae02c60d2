import AxvisorTools.Py.Proof.Basic
import AxvisorTools.Py.Re
import Mathlib.Data.List.TakeWhile
import Mathlib.Order.Basic

/-!
# Replacement templates

`subn1_plain`: a template without backslashes stands for itself. `subn1_group` and `subn1_keep` are
the templates that put a text behind the first group. `expand_cases` says what any template expands
to, as far as its length and the number of its `=` go.
-/

namespace Py.Re

open Regex

variable {t t' : Text}

theorem parseTemplate_plain : ∀ (t : Text) (fuel : Nat), '\\' ∉ t → t.length < fuel →
    parseTemplate fuel t = some (t.map .char)
  | [], fuel, _, h => by
    obtain ⟨fuel, rfl⟩ : ∃ n, fuel = n + 1 := ⟨fuel - 1, by simp at h; omega⟩
    rfl
  | c :: t, fuel, hb, h => by
    obtain ⟨fuel, rfl⟩ : ∃ n, fuel = n + 1 := ⟨fuel - 1, by omega⟩
    have hc : c ≠ '\\' := fun h => hb (by simp [h])
    have ih := parseTemplate_plain t fuel (fun h => hb (List.mem_cons_of_mem _ h))
      (by simpa using h)
    rw [parseTemplate, if_neg hc, ih]
    rfl

theorem flatMap_char (groups : Nat → Text) (t : Text) :
    (t.map Piece.char).flatMap (Piece.text groups) = t := by
  induction t with
  | nil => rfl
  | cons c t ih => simpa [Piece.text] using ih

theorem subn1_plain (r : Re) (hb : '\\' ∉ t) (text : Text) :
    subn1 r 0 t text = some ((search r text).map fun (s, e) => s ++ t ++ e.after) := by
  rw [subn1, parseTemplate_plain t _ hb (Nat.lt_succ_self _)]
  simp [Piece.refersTo, flatMap_char]

theorem subn1_keep (r : Re) {c : Char} (hc : digit? 10 c = none) (hb : '\\' ∉ c :: t) (text : Text) :
    subn1 r 1 ("\\1" ++ c :: t) text = some ((search r text).map fun (s, e) =>
      s ++ (groupText s e 1 ++ c :: t) ++ e.after) := by
  have hparse : parseTemplate (("\\1" ++ c :: t).length + 1) ("\\1" ++ c :: t) =
      some (.group 1 :: (c :: t).map .char) := by
    have h := parseTemplate_plain (c :: t) ((c :: t).length + 2) hb (by omega)
    have hescape : escape ('1' :: c :: t) = some ([.group 1], c :: t) := by
      have hone : digit? 10 '1' = some 1 := by decide
      have hgroup : digitEscape '1' (c :: t) = some (.group 1, c :: t) := by
        simp only [digitEscape, hone, hc]
      have heq : escape ('1' :: c :: t) = (digitEscape '1' (c :: t)).map fun r => ([r.1], r.2) := rfl
      rw [heq, hgroup]
      rfl
    rw [show "\\1" ++ c :: t = '\\' :: '1' :: c :: t from rfl]
    rw [parseTemplate, if_pos rfl, hescape]
    simp only [List.length_cons] at h ⊢
    rw [Option.bind_eq_bind, Option.bind_some, h]
    rfl
  rw [subn1, hparse]
  simp only [Option.bind_eq_bind, Option.bind_some, List.all_cons, Piece.refersTo, List.flatMap_cons,
    Piece.text, flatMap_char]
  simp [Piece.refersTo]

/-! ## Escapes -/

theorem namedEscape_cases {p : Piece} (h : namedEscape t = some (p, t')) :
    ∃ u n, t = u ++ t' ∧ '=' ∉ u ∧ p = .group n := by
  unfold namedEscape at h
  split at h
  · rename_i t
    simp only at h
    split at h
    · rename_i rest ds hdrop hdigits
      split at h
      · cases h
      · cases h
        refine ⟨'<' :: (t.takeWhile (· != '>') ++ ['>']), _, ?_, ?_, rfl⟩
        · rw [List.cons_append, List.append_assoc, List.singleton_append, ← hdrop,
            List.takeWhile_append_dropWhile]
        · intro hmem
          rcases List.mem_cons.1 hmem with h | h
          · cases h
          · rcases List.mem_append.1 h with h | h
            · exact equals_ne_digit (isSome_of_mapM hdigits _ h) rfl
            · cases List.mem_singleton.1 h
    · cases h
  · cases h

theorem digitEscape_cases {c : Char} {p : Piece} (h : digitEscape c t = some (p, t')) :
    ∃ u, t = u ++ t' ∧ '=' ∉ u := by
  unfold digitEscape at h
  split at h
  · rename_i n d t hc
    split at h
    · rename_i m e t hd
      split at h
      · rename_i i j k hc8 hd8 he8
        split at h
        · cases h
          refine ⟨[d, e], rfl, ?_⟩
          simp only [List.mem_cons, List.not_mem_nil, or_false, not_or]
          exact ⟨fun h => equals_ne_digit (Option.isSome_of_eq_some hd8) h.symm,
            fun h => equals_ne_digit (Option.isSome_of_eq_some he8) h.symm⟩
        · cases h
      · cases h
        exact ⟨[d], rfl, fun h => equals_ne_digit (Option.isSome_of_eq_some hd)
          (List.mem_singleton.1 h).symm⟩
    · rename_i m hd
      cases h
      exact ⟨[d], rfl, fun h => equals_ne_digit (Option.isSome_of_eq_some hd)
        (List.mem_singleton.1 h).symm⟩
    · cases h
      exact ⟨[], rfl, List.not_mem_nil⟩
  · cases h
    exact ⟨[], rfl, List.not_mem_nil⟩
  · cases h

/-- What an escape takes from the template and what it puts there: a group, one character, or the
escape itself. -/
theorem escape_cases {ps : List Piece} (h : escape t = some (ps, t')) :
    (∃ u n, u ≠ [] ∧ t = u ++ t' ∧ '=' ∉ u ∧ ps = [.group n]) ∨
    (∃ u d, u ≠ [] ∧ t = u ++ t' ∧ '=' ∉ u ∧ ps = [.char d]) ∨
    ∃ c, t = c :: t' ∧ digitValue c = none ∧ c ≠ '\\' ∧ ps = [.char '\\', .char c] := by
  have hcons : ∀ {c : Char} {u : Text}, c ≠ '=' → '=' ∉ u → '=' ∉ c :: u := by
    intro c u hc hu hmem
    rcases List.mem_cons.1 hmem with h | h
    · exact hc h.symm
    · exact hu h
  unfold escape at h
  split at h
  · cases h
  · rename_i t
    obtain ⟨⟨p, rest⟩, hname, heq⟩ := Option.map_eq_some_iff.1 h
    cases heq
    obtain ⟨u, n, rfl, hu, rfl⟩ := namedEscape_cases hname
    exact .inl ⟨'g' :: u, n, List.cons_ne_nil _ _, rfl, hcons (by decide) hu, rfl⟩
  · rename_i t
    cases h
    refine .inr (.inl ⟨'0' :: (t.take 2).takeWhile fun c => (digit? 8 c).isSome, _,
      List.cons_ne_nil _ _, ?_, hcons (by decide) ?_, rfl⟩)
    · have hpre : (t.take 2).takeWhile (fun c => (digit? 8 c).isSome) <+: t :=
        (List.takeWhile_prefix _).trans (List.take_prefix _ _)
      rw [List.cons_append]
      exact congrArg _ (List.prefix_iff_eq_append.1 hpre).symm
    · intro hmem
      have hdigit := List.mem_takeWhile_imp hmem
      exact equals_ne_digit hdigit rfl
  · rename_i c t _ _
    split at h
    · rename_i hdigit
      obtain ⟨⟨p, rest⟩, hescape, heq⟩ := Option.map_eq_some_iff.1 h
      cases heq
      obtain ⟨u, rfl, hu⟩ := digitEscape_cases hescape
      cases p with
      | group n =>
        exact .inl ⟨c :: u, n, List.cons_ne_nil _ _, rfl, hcons (equals_ne_digit hdigit) hu, rfl⟩
      | char d =>
        exact .inr (.inl ⟨c :: u, d, List.cons_ne_nil _ _, rfl, hcons (equals_ne_digit hdigit) hu,
          rfl⟩)
    · split at h
      · rename_i d hd
        cases h
        refine .inr (.inl ⟨[c], d, List.cons_ne_nil _ _, rfl, ?_, rfl⟩)
        refine hcons ?_ List.not_mem_nil
        rintro rfl
        cases hd
      · rename_i hletter
        split at h
        · cases h
        · rename_i hvalue
          cases h
          refine .inr (.inr ⟨c, rfl, by simpa using hvalue, ?_, rfl⟩)
          rintro rfl
          cases hletter

def Piece.isGroup : Piece → Bool
  | .group _ => true
  | .char _ => false

theorem verbatim_cons {c : Char} (hc : c ≠ '\\') (t : Text) : verbatim (c :: t) = verbatim t := by
  cases t with
  | nil => simp [verbatim, hc]
  | cons d t => rw [verbatim, if_neg hc]

theorem verbatim_of_not_mem (h : '\\' ∉ t) : verbatim t = true := by
  induction t with
  | nil => rfl
  | cons c t ih =>
    rw [List.mem_cons, not_or] at h
    rw [verbatim_cons (Ne.symm h.1)]
    exact ih h.2

theorem verbatim_append_blank (a b : Text) :
    verbatim (a ++ ' ' :: b) = (verbatim (a ++ [' ']) && verbatim b) := by
  have hblank : ∀ t, verbatim (' ' :: t) = verbatim t := verbatim_cons (by decide)
  induction a using verbatim.induct with
  | case1 => rw [List.nil_append, List.nil_append, hblank, hblank, verbatim, Bool.true_and]
  | case2 c =>
    by_cases hc : c = '\\'
    · subst hc
      rfl
    · rw [List.singleton_append, List.singleton_append, verbatim_cons hc, verbatim_cons hc, hblank,
        hblank, verbatim, Bool.true_and]
  | case3 d t ih =>
    rw [List.cons_append, List.cons_append, verbatim, if_pos rfl, ih, List.cons_append,
      List.cons_append, verbatim, if_pos rfl, Bool.and_assoc, Bool.and_assoc, Bool.and_assoc]
  | case4 c d t hc ih =>
    rw [show c :: d :: t ++ ' ' :: b = c :: (d :: t ++ ' ' :: b) from rfl, verbatim_cons hc, ih,
      show c :: d :: t ++ [' '] = c :: (d :: t ++ [' ']) from rfl, verbatim_cons hc]

theorem length_of_escape {ps : List Piece} (h : escape t = some (ps, t')) :
    t'.length < t.length := by
  rcases escape_cases h with ⟨u, n, hu, rfl, -⟩ | ⟨u, d, hu, rfl, -⟩ | ⟨c, rfl, -⟩
  · have := List.length_pos_iff.2 hu
    rw [List.length_append]
    omega
  · have := List.length_pos_iff.2 hu
    rw [List.length_append]
    omega
  · exact Nat.lt_succ_self _

theorem parseTemplate_fuel : ∀ {fuel fuel' : Nat} {t : Text}, t.length < fuel → t.length < fuel' →
    parseTemplate fuel t = parseTemplate fuel' t
  | 0, _, _, h, _ => absurd h (Nat.not_lt_zero _)
  | _, 0, _, _, h => absurd h (Nat.not_lt_zero _)
  | _ + 1, _ + 1, [], _, _ => rfl
  | fuel + 1, fuel' + 1, c :: t, h, h' => by
    simp only [List.length_cons] at h h'
    rw [parseTemplate, parseTemplate]
    split
    · cases hescape : escape t with
      | none => rfl
      | some r =>
        have hlt := length_of_escape hescape
        rw [Option.bind_eq_bind, Option.bind_some, Option.bind_eq_bind, Option.bind_some,
          @parseTemplate_fuel fuel fuel' _ (by omega) (by omega)]
    · rw [@parseTemplate_fuel fuel fuel' _ (by omega) (by omega)]

theorem subn1_behind (r : Re) (line text : Text) :
    subn1 r 1 ("\\1\\n" ++ line) text =
      (parseTemplate (line.length + 1) line).bind fun pieces =>
        if pieces.all (Piece.refersTo 1) then some ((search r text).map fun (s, e) =>
          s ++ (groupText s e 1 ++ '\n' :: pieces.flatMap (Piece.text (groupText s e))) ++ e.after)
        else none := by
  have hparse : parseTemplate (("\\1\\n" ++ line).length + 1) ("\\1\\n" ++ line) =
      (parseTemplate (line.length + 1) line).map fun pieces => .group 1 :: .char '\n' :: pieces := by
    have hfuel : parseTemplate (line.length + 3) line = parseTemplate (line.length + 1) line :=
      parseTemplate_fuel (by omega) (by omega)
    have h1 : escape ('1' :: '\\' :: 'n' :: line) = some ([.group 1], '\\' :: 'n' :: line) := rfl
    have h2 : escape ('n' :: line) = some ([.char '\n'], line) := rfl
    rw [show "\\1\\n" ++ line = '\\' :: '1' :: '\\' :: 'n' :: line from rfl, parseTemplate,
      if_pos rfl, h1, Option.bind_eq_bind, Option.bind_some]
    simp only [List.length_cons]
    rw [parseTemplate, if_pos rfl, h2]
    simp only [Option.bind_eq_bind, Option.bind_some]
    rw [hfuel]
    cases parseTemplate (line.length + 1) line <;> rfl
  rw [subn1, hparse]
  cases parseTemplate (line.length + 1) line with
  | none => rfl
  | some pieces =>
    simp only [Option.map_some, Option.bind_eq_bind, Option.bind_some, List.all_cons, Piece.refersTo,
      List.flatMap_cons, Piece.text]
    by_cases hall : pieces.all (Piece.refersTo 1) = true
    · simp [hall]
    · simp [hall]

theorem subn1_group (r : Re) (hb : '\\' ∉ t) (text : Text) :
    subn1 r 1 ("\\1\\n" ++ t) text = some ((search r text).map fun (s, e) =>
      s ++ (groupText s e 1 ++ '\n' :: t) ++ e.after) := by
  rw [subn1_behind, parseTemplate_plain t _ hb (Nat.lt_succ_self _)]
  simp [flatMap_char, Piece.refersTo]

/-- **What a template expands to**: every group brings its text, every other escape that is not left
alone makes the text shorter. -/
theorem expand_cases {groups : Nat → Text} : ∀ {fuel : Nat} {t : Text} {ps : List Piece},
    t.length < fuel → parseTemplate fuel t = some ps →
    (∀ n, Piece.group n ∈ ps → 1 ≤ (groups n).count '=') →
    t.count '=' + ps.countP Piece.isGroup ≤ (ps.flatMap (Piece.text groups)).count '=' ∧
      (ps.countP Piece.isGroup = 0 → (ps.flatMap (Piece.text groups)).length ≤ t.length ∧
        ((ps.flatMap (Piece.text groups)).length = t.length →
          ps.flatMap (Piece.text groups) = t ∧ verbatim t = true)) := by
  intro fuel
  induction fuel with
  | zero =>
    intro t ps hfuel
    omega
  | succ fuel ih =>
    intro t ps hfuel hparse hgroups
    cases t with
    | nil =>
      cases hparse
      exact ⟨le_rfl, fun _ => ⟨le_rfl, fun _ => ⟨rfl, rfl⟩⟩⟩
    | cons c t =>
      rw [parseTemplate] at hparse
      split at hparse
      · rename_i hc
        subst hc
        obtain ⟨⟨qs, rest⟩, hescape, hparse⟩ := Option.bind_eq_some_iff.1 hparse
        obtain ⟨ps', hrest, hps⟩ := Option.bind_eq_some_iff.1 hparse
        cases hps
        simp only at hrest
        have hgroups' : ∀ n, Piece.group n ∈ ps' → 1 ≤ (groups n).count '=' := fun n hn =>
          hgroups n (List.mem_append_right _ hn)
        rcases escape_cases hescape with ⟨u, n, hu, rfl, heq, rfl⟩ | ⟨u, d, hu, rfl, heq, rfl⟩ |
          ⟨d, rfl, hd, hd', rfl⟩
        · obtain ⟨hcount, -⟩ := ih (by simp at hfuel; omega) hrest hgroups'
          have hn := hgroups n List.mem_cons_self
          have hescaped : ('\\' :: (u ++ rest)).count '=' = rest.count '=' := by
            rw [List.count_cons_of_ne (by decide), List.count_append,
              List.count_eq_zero_of_not_mem heq, Nat.zero_add]
          refine ⟨?_, fun h => by simp [Piece.isGroup] at h⟩
          rw [hescaped, List.singleton_append, List.countP_cons_of_pos rfl, List.flatMap_cons,
            List.count_append]
          simp only [Piece.text]
          omega
        · obtain ⟨hcount, hlength⟩ := ih (by simp at hfuel; omega) hrest hgroups'
          have hescaped : ('\\' :: (u ++ rest)).count '=' = rest.count '=' := by
            rw [List.count_cons_of_ne (by decide), List.count_append,
              List.count_eq_zero_of_not_mem heq, Nat.zero_add]
          have hu : 0 < u.length := List.length_pos_iff.2 hu
          rw [hescaped, List.singleton_append, List.countP_cons_of_neg Bool.false_ne_true,
            List.flatMap_cons, List.count_append]
          refine ⟨by omega, fun hnone => ?_⟩
          obtain ⟨hle, -⟩ := hlength hnone
          simp only [Piece.text, List.length_append, List.length_cons, List.length_nil]
          exact ⟨by omega, fun h => by omega⟩
        · obtain ⟨hcount, hlength⟩ := ih (by simp at hfuel; omega) hrest hgroups'
          rw [List.cons_append, List.singleton_append, List.countP_cons_of_neg Bool.false_ne_true,
            List.countP_cons_of_neg Bool.false_ne_true, List.flatMap_cons, List.flatMap_cons]
          simp only [Piece.text, List.singleton_append, List.count_cons, List.length_cons]
          refine ⟨by omega, fun hnone => ?_⟩
          obtain ⟨hle, hsame⟩ := hlength hnone
          refine ⟨by omega, fun h => ?_⟩
          obtain ⟨heq, hverbatim⟩ := hsame (by omega)
          rw [heq, verbatim, if_pos rfl, hd, hverbatim]
          exact ⟨rfl, by simpa using hd'⟩
      · rename_i hc
        obtain ⟨ps', hrest, hps⟩ := Option.bind_eq_some_iff.1 hparse
        cases hps
        obtain ⟨hcount, hlength⟩ := ih (by simp at hfuel; omega) hrest
          fun n hn => hgroups n (List.mem_cons_of_mem _ hn)
        rw [List.countP_cons_of_neg Bool.false_ne_true, List.flatMap_cons]
        simp only [Piece.text, List.singleton_append, List.count_cons, List.length_cons]
        refine ⟨by omega, fun hnone => ?_⟩
        obtain ⟨hle, hsame⟩ := hlength hnone
        refine ⟨by omega, fun h => ?_⟩
        obtain ⟨heq, hverbatim⟩ := hsame (by omega)
        rw [heq, verbatim_cons hc]
        exact ⟨rfl, hverbatim⟩

theorem escape_other {c : Char} (hc : digitValue c = none) (hc' : c ≠ '\\') (t : Text) :
    escape (c :: t) = some ([.char '\\', .char c], t) := by
  have hletter : escapeChar c = none := by
    cases h : escapeChar c with
    | none => rfl
    | some d =>
      unfold escapeChar at h
      split at h
      all_goals first | exact absurd rfl hc' | cases hc | cases h
  unfold escape
  split
  · rename_i heq
    cases heq
  · rename_i heq
    cases heq
    cases hc
  · rename_i heq
    cases heq
    cases hc
  · rename_i heq
    cases heq
    rw [digit?_none hc, hletter, hc]
    rfl

theorem parseTemplate_verbatim : ∀ {fuel : Nat} {t : Text}, t.length < fuel → verbatim t = true →
    parseTemplate fuel t = some (t.map .char) := by
  intro fuel
  induction fuel with
  | zero =>
    intro t hfuel
    omega
  | succ fuel ih =>
    intro t hfuel hv
    cases t with
    | nil => rfl
    | cons c t =>
      by_cases hc : c = '\\'
      · subst hc
        cases t with
        | nil => simp [verbatim] at hv
        | cons d t =>
          rw [verbatim, if_pos rfl] at hv
          simp only [Bool.and_eq_true, Option.isNone_iff_eq_none, bne_iff_ne] at hv
          obtain ⟨⟨hd, hd'⟩, hv⟩ := hv
          rw [parseTemplate, if_pos rfl, escape_other hd hd' t, Option.bind_eq_bind, Option.bind_some,
            ih (by simp at hfuel; omega) hv]
          rfl
      · rw [verbatim_cons hc] at hv
        rw [parseTemplate, if_neg hc, ih (by simpa using hfuel) hv]
        rfl

end Py.Re
