import AxvisorTools.Harness.LocSpec
import AxvisorTools.Py.Proof.Splitlines
import AxvisorTools.Shell.Proof.Files

/-!
# What the line count counts

`loc_for_file` looks for a block comment at the start of a line only, and for one at most. Step by
step the lines that it counts without code and those with code that it does not count make up for the
difference to the true number (`Placed.step`).
-/

namespace Harness.StaticScan

open Shell Py

variable {s l : Text} {loc : Loc} {p : Place}

/-! ## Comments -/

theorem outsideComments_cons {c : Char} {t : Text} (h : ¬ startsLine (c :: t) = true)
    (h' : ¬ startsBlock (c :: t) = true) :
    outsideComments false (c :: t) = c :: outsideComments false t ∧
      endsInside false (c :: t) = endsInside false t := by
  rw [outsideComments, endsInside]
  · exact ⟨rfl, rfl⟩
  all_goals
    rintro u rfl rfl
  · exact h rfl
  · exact h' rfl
  · exact h rfl
  · exact h' rfl

theorem insideComment_cons {c : Char} {t : Text} (h : ¬ ['*', '/'].isPrefixOf (c :: t) = true) :
    outsideComments true (c :: t) = outsideComments true t ∧
      endsInside true (c :: t) = endsInside true t := by
  rw [outsideComments, endsInside]
  · exact ⟨rfl, rfl⟩
  all_goals
    rintro u rfl rfl
    exact h rfl

theorem startsLine_iff : startsLine s = true ↔ ∃ t, s = '/' :: '/' :: t := by
  rw [startsLine, List.isPrefixOf_iff_prefix]
  exact ⟨fun ⟨t, ht⟩ => ⟨t, ht.symm⟩, fun ⟨t, ht⟩ => ⟨t, ht.symm⟩⟩

theorem startsBlock_iff : startsBlock s = true ↔ ∃ t, s = '/' :: '*' :: t := by
  rw [startsBlock, List.isPrefixOf_iff_prefix]
  exact ⟨fun ⟨t, ht⟩ => ⟨t, ht.symm⟩, fun ⟨t, ht⟩ => ⟨t, ht.symm⟩⟩

theorem not_starts_of_white {c : Char} (hc : Re.isWhite c = true) (t : Text) :
    startsLine (c :: t) = false ∧ startsBlock (c :: t) = false ∧
      ['*', '/'].isPrefixOf (c :: t) = false := by
  have hslash : '/' ≠ c := by
    rintro rfl
    cases hc
  have hstar : '*' ≠ c := by
    rintro rfl
    cases hc
  simp [startsLine, startsBlock, List.isPrefixOf, hslash, hstar]

/-! ## Blanks around a line -/

theorem comments_white_cons {c : Char} (hc : Re.isWhite c = true) (inside : Bool) (t : Text) :
    hasCode inside (c :: t) = hasCode inside t ∧
      endsInside inside (c :: t) = endsInside inside t := by
  obtain ⟨hline, hblock, hclose⟩ := not_starts_of_white hc t
  cases inside with
  | false =>
    obtain ⟨hcode, hend⟩ :=
      outsideComments_cons (Bool.eq_false_iff.1 hline) (Bool.eq_false_iff.1 hblock)
    exact ⟨by rw [hasCode, hcode, isBlank, List.all_cons, hc, Bool.true_and, hasCode, isBlank], hend⟩
  | true =>
    obtain ⟨hcode, hend⟩ := insideComment_cons (Bool.eq_false_iff.1 hclose)
    exact ⟨by rw [hasCode, hcode, hasCode], hend⟩

theorem comments_concat_white {w : Char} (hw : Re.isWhite w = true) (inside : Bool) (t : Text) :
    hasCode inside (t ++ [w]) = hasCode inside t ∧
      endsInside inside (t ++ [w]) = endsInside inside t := by
  -- a blank at the end completes no marker
  have hmarker : ∀ {d e : Char} {c : Char} {t : Text}, Re.isWhite e = false →
      ¬ [d, e].isPrefixOf (c :: t) = true → ¬ [d, e].isPrefixOf (c :: (t ++ [w])) = true := by
    intro d e c t he h hpre
    cases t with
    | nil =>
      simp only [List.nil_append, List.isPrefixOf, Bool.and_true, Bool.and_eq_true, beq_iff_eq] at hpre
      rw [hpre.2, hw] at he
      cases he
    | cons c' t => exact h (by simpa [List.isPrefixOf] using hpre)
  fun_induction outsideComments inside t with
  | case1 inside => exact comments_white_cons hw inside []
  | case2 t => exact ⟨rfl, rfl⟩
  | case3 t ih => exact ih
  | case4 c t hline hblock ih =>
    have hl : ¬ startsLine (c :: t) = true := by
      intro h
      obtain ⟨u, hu⟩ := startsLine_iff.1 h
      cases hu
      exact hline _ rfl rfl
    have hb : ¬ startsBlock (c :: t) = true := by
      intro h
      obtain ⟨u, hu⟩ := startsBlock_iff.1 h
      cases hu
      exact hblock _ rfl rfl
    obtain ⟨hcode, hend⟩ := outsideComments_cons hl hb
    obtain ⟨hcode', hend'⟩ :=
      @outsideComments_cons c (t ++ [w]) (hmarker (by decide) hl) (hmarker (by decide) hb)
    rw [List.cons_append, hend, hend', hasCode, hcode', hasCode, hcode]
    refine ⟨?_, ih.2⟩
    simp only [isBlank, List.all_cons, Bool.not_and]
    exact congrArg _ ih.1
  | case5 t ih => exact ih
  | case6 c t hclose ih =>
    have hc : ¬ ['*', '/'].isPrefixOf (c :: t) = true := by
      intro h
      obtain ⟨u, hu⟩ := List.isPrefixOf_iff_prefix.1 h
      cases hu
      exact hclose _ rfl rfl
    obtain ⟨hcode, hend⟩ := insideComment_cons hc
    obtain ⟨hcode', hend'⟩ := @insideComment_cons c (t ++ [w]) (hmarker (by decide) hc)
    rw [List.cons_append, hend, hend', hasCode, hcode', hasCode, hcode]
    exact ih

theorem comments_strip (inside : Bool) (l : Text) :
    hasCode inside (strip l) = hasCode inside l ∧
      endsInside inside (strip l) = endsInside inside l := by
  have hleft : hasCode inside (l.dropWhile Re.isWhite) = hasCode inside l ∧
      endsInside inside (l.dropWhile Re.isWhite) = endsInside inside l := by
    induction l with
    | nil => exact ⟨rfl, rfl⟩
    | cons c t ih =>
      by_cases hc : Re.isWhite c = true
      · rw [List.dropWhile_cons_of_pos hc, (comments_white_cons hc inside t).1,
          (comments_white_cons hc inside t).2]
        exact ih
      · rw [List.dropWhile_cons_of_neg hc]
        exact ⟨rfl, rfl⟩
  have hright : ∀ t : Text, hasCode inside (t.rdropWhile Re.isWhite) = hasCode inside t ∧
      endsInside inside (t.rdropWhile Re.isWhite) = endsInside inside t := by
    intro t
    induction t using List.reverseRecOn with
    | nil => exact ⟨rfl, rfl⟩
    | append_singleton t c ih =>
      by_cases hc : Re.isWhite c = true
      · rw [List.rdropWhile_concat_pos _ _ _ hc, (comments_concat_white hc inside t).1,
          (comments_concat_white hc inside t).2]
        exact ih
      · rw [List.rdropWhile_concat_neg _ _ _ hc]
        exact ⟨rfl, rfl⟩
  rw [strip, (hright _).1, (hright _).2]
  exact hleft

/-- The text does not start with a blank. -/
def Solid (s : Text) : Prop := ∀ c ∈ s.head?, Re.isWhite c = false

theorem solid_strip (t : Text) : Solid (strip t) := by
  intro c hc
  obtain ⟨u, hu⟩ := List.rdropWhile_prefix Re.isWhite (l := t.dropWhile Re.isWhite)
  have hhead : (t.dropWhile Re.isWhite).head? = some c := by
    rw [← hu, List.head?_append]
    exact congrArg (Option.or · u.head?) hc
  have hnot := List.head?_dropWhile_not Re.isWhite t
  rwa [hhead] at hnot

/-! ## Inside a block comment -/

theorem findFrom_cons (s : Text) (c : Char) (t : Text) :
    findFrom s (c :: t) = if s.isPrefixOf (c :: t) then some (c :: t) else findFrom s t := by
  rw [findFrom, List.tails_cons, List.find?_cons]
  cases s.isPrefixOf (c :: t) <;> rfl

theorem insideComment_cases (s : Text) :
    afterBlock s = none ∧ hasCode true s = false ∧ endsInside true s = true ∨
      ∃ r, afterBlock s = some r ∧ Solid r ∧ hasCode true s = hasCode false r ∧
        endsInside true s = endsInside false r := by
  induction s with
  | nil => exact .inl ⟨rfl, rfl, rfl⟩
  | cons c t ih =>
    by_cases hc : ['*', '/'].isPrefixOf (c :: t) = true
    · obtain ⟨u, hu⟩ := List.isPrefixOf_iff_prefix.1 hc
      refine .inr ⟨strip u, ?_, solid_strip u, ?_⟩
      · rw [afterBlock, findFrom_cons, if_pos hc, ← hu]
        rfl
      · rw [← hu]
        exact ⟨(comments_strip false u).1.symm, (comments_strip false u).2.symm⟩
    · have hfind : afterBlock (c :: t) = afterBlock t := by
        rw [afterBlock, findFrom_cons, if_neg hc, afterBlock]
      obtain ⟨hcode, hend⟩ := insideComment_cons hc
      rw [hfind, hasCode, hcode, hend]
      exact ih

/-! ## One line -/

/-- The last test of the loop. -/
def counted (s : Text) : Bool := s ≠ [] && !startsLine s

/-- A text outside of comments is counted. -/
def countedText (s : Text) : Bool := if startsBlock s then (afterBlock s).any counted else counted s

theorem step_blank (h : strip l = []) : loc.step l = { loc with total := loc.total + 1 } := by
  rw [Loc.step, if_pos h]

theorem step_skipped (h : loc.openText (strip l) = none) :
    loc.step l = { loc with total := loc.total + 1 } := by
  have hopen : Loc.openText { loc with total := loc.total + 1 } (strip l) = none := h
  simp only [Loc.step, hopen, ite_self]

theorem step_open (hl : strip l ≠ []) (h : loc.openText (strip l) = some s) :
    loc.step l = ⟨loc.total + 1, loc.code + (countedText s).toNat, opens s⟩ := by
  have hopen : Loc.openText { loc with total := loc.total + 1 } (strip l) = some s := h
  have hcounted : ∀ r : Text, (if r = [] ∨ startsLine r = true then
      (⟨loc.total + 1, loc.code, false⟩ : Loc) else ⟨loc.total + 1, loc.code + 1, false⟩) =
      ⟨loc.total + 1, loc.code + (counted r).toNat, false⟩ := by
    intro r
    by_cases hr : r = [] ∨ startsLine r = true
    · have hno : counted r = false := by
        rcases hr with hr | hr
        · simp [counted, hr]
        · simp [counted, hr]
      rw [if_pos hr, hno]
      rfl
    · have hyes : counted r = true := by simpa [counted] using hr
      rw [if_neg hr, hyes]
      rfl
  have hstep : ∀ o : Option Text, (if startsBlock s then afterBlock s else some s) = o →
      loc.step l = o.elim ⟨loc.total + 1, loc.code, true⟩ fun r =>
        if r = [] ∨ startsLine r = true then ⟨loc.total + 1, loc.code, false⟩
        else ⟨loc.total + 1, loc.code + 1, false⟩ := by
    intro o ho
    have ho' : (if ['/', '*'].isPrefixOf s then afterBlock s else some s) = o := ho
    simp only [Loc.step, hopen, if_neg hl, ho']
    cases o with
    | none => rfl
    | some r => rfl
  by_cases hb : startsBlock s = true
  · rw [hstep (afterBlock s) (if_pos hb), opens, hb, countedText, if_pos hb]
    cases afterBlock s with
    | none => rfl
    | some r => exact hcounted r
  · rw [hstep (some s) (if_neg hb), opens, Bool.eq_false_iff.2 hb, countedText, if_neg hb]
    exact hcounted s

theorem hasCode_of_solid (hs : Solid s) (hne : s ≠ []) (hline : ¬ startsLine s = true)
    (hblock : ¬ startsBlock s = true) : hasCode false s = true := by
  obtain ⟨c, t, rfl⟩ := List.exists_cons_of_ne_nil hne
  rw [hasCode, (outsideComments_cons hline hblock).1, isBlank, List.all_cons, hs c rfl]
  rfl

/-- After a comment everything is counted but blanks and a line comment. -/
theorem counted_eq {r : Text} (hr : Solid r) :
    (counted r).toNat = (hasCode false r).toNat + (onlyMore r).toNat := by
  by_cases hne : r = []
  · subst hne
    rfl
  by_cases hline : startsLine r = true
  · obtain ⟨t, rfl⟩ := startsLine_iff.1 hline
    rfl
  have hcounted : counted r = true := by simp [counted, hne, hline]
  by_cases hblock : startsBlock r = true
  · rw [hcounted, onlyMore, hblock]
    cases hasCode false r <;> rfl
  · rw [hcounted, hasCode_of_solid hr hne hline hblock, onlyMore, Bool.eq_false_iff.2 hblock]
    rfl

/-- What is left after the first comment of a text in it decides. -/
theorem counted_after_eq (u : Text) :
    ((afterBlock u).any counted).toNat =
      (hasCode true u).toNat + ((afterBlock u).any onlyMore).toNat := by
  rcases insideComment_cases u with ⟨hafter, hcode, -⟩ | ⟨r, hafter, hsolid, hcode, -⟩
  · rw [hafter, hcode]
    rfl
  · rw [hafter, hcode]
    exact counted_eq hsolid

theorem startsBlock_cases (h : startsBlock s = true) :
    (∃ u, s = '/' :: '*' :: '/' :: u) ∨
      ∃ u, s = '/' :: '*' :: u ∧ startsSlashed s = false ∧ afterBlock s = afterBlock u := by
  obtain ⟨u, rfl⟩ := startsBlock_iff.1 h
  by_cases hu : ['/'].isPrefixOf u = true
  · obtain ⟨v, hv⟩ := List.isPrefixOf_iff_prefix.1 hu
    exact .inl ⟨v, by rw [← hv]; rfl⟩
  · have hslash : ¬ ['*', '/'].isPrefixOf ('*' :: u) = true := hu
    have hstart : ¬ ['*', '/'].isPrefixOf ('/' :: '*' :: u) = true := Bool.false_ne_true
    refine .inr ⟨u, rfl, Bool.eq_false_iff.2 hu, ?_⟩
    rw [afterBlock, findFrom_cons, if_neg hstart, findFrom_cons, if_neg hslash, afterBlock]

/-- **A text outside of comments**: what is counted besides its code, and what of it is not. -/
theorem countedText_eq (hs : Solid s) :
    (countedText s).toNat + (missedText s).toNat = (hasCode false s).toNat + (extraText s).toNat := by
  by_cases hblock : startsBlock s = true
  · rw [countedText, if_pos hblock]
    rcases startsBlock_cases hblock with ⟨u, rfl⟩ | ⟨u, rfl, hslashed, hafter⟩
    · -- the code takes the `*/` of `/*/` for the end of the comment
      have hcounted : (afterBlock ('/' :: '*' :: '/' :: u)).any counted =
          countedAfter ('/' :: '*' :: '/' :: u) := rfl
      have hslashed : startsSlashed ('/' :: '*' :: '/' :: u) = true := rfl
      rw [hcounted, missedText, extraText, hslashed]
      cases countedAfter ('/' :: '*' :: '/' :: u) <;>
        cases hasCode false ('/' :: '*' :: '/' :: u) <;> rfl
    · rw [missedText, extraText, hslashed, hblock, hafter, counted_after_eq u]
      rfl
  · have hslashed : startsSlashed s = false := by
      rw [Bool.eq_false_iff]
      intro h
      obtain ⟨u, rfl⟩ := List.isPrefixOf_iff_prefix.1 h
      exact hblock rfl
    have hmore : onlyMore s = false := by rw [onlyMore, Bool.eq_false_iff.2 hblock]; rfl
    rw [countedText, if_neg hblock, missedText, extraText, hslashed, Bool.eq_false_iff.2 hblock,
      counted_eq hs, hmore]
    rfl

/-! ## Places -/

theorem Place.next_inside (p : Place) (l : Text) : (p.next l).inside = endsInside p.inside l := by
  rw [Place.next]
  cases endsInside p.inside l with
  | false => rfl
  | true =>
    rw [if_neg (by decide)]
    cases p.rest l with
    | none => rfl
    | some s => cases h : opens s <;> simp [h, Place.inside]

theorem endsInside_of_opens (h : opens s = true) :
    endsInside false s = true ∧ endsInside true s = true := by
  rw [opens, Bool.and_eq_true, Option.isNone_iff_eq_none] at h
  obtain ⟨hblock, hnone⟩ := h
  refine ⟨?_, ?_⟩
  · rcases startsBlock_cases hblock with ⟨u, rfl⟩ | ⟨u, rfl, -, hafter⟩
    · cases hnone
    · rcases insideComment_cases u with ⟨-, -, hend⟩ | ⟨r, hr, -⟩
      · exact hend
      · rw [← hafter, hnone] at hr
        cases hr
  · rcases insideComment_cases s with ⟨-, -, hend⟩ | ⟨r, hr, -⟩
    · exact hend
    · rw [hnone] at hr
      cases hr

/-- A comment that the line leaves open is seen if it starts the rest of the line. -/
theorem Place.next_of_rest (h : p.rest l = some s) : decide (p.next l = .seen) = opens s := by
  have hend : opens s = true → endsInside p.inside l = true := by
    intro hopens
    rw [← (comments_strip p.inside l).2]
    cases p with
    | outside => exact (Option.some.inj h).symm ▸ (endsInside_of_opens hopens).1
    | hidden => exact (Option.some.inj h).symm ▸ (endsInside_of_opens hopens).2
    | seen =>
      have hafter : afterBlock (strip l) = some s := h
      rcases insideComment_cases (strip l) with ⟨hnone, -⟩ | ⟨r, hr, -, -, hends⟩
      · rw [hnone] at hafter
        cases hafter
      · obtain rfl := Option.some.inj (hr.symm.trans hafter)
        exact hends.trans (endsInside_of_opens hopens).1
  rw [Place.next, h]
  cases hopens : opens s with
  | true => simp [hend hopens, hopens]
  | false => cases endsInside p.inside l <;> simp [hopens]

/-- `loc_for_file` is in a block comment exactly if it has seen it start. -/
def Placed (loc : Loc) (p : Place) : Prop := loc.inBlock = decide (p = .seen)

theorem Placed.openText (h : Placed loc p) (l : Text) : loc.openText (strip l) = p.rest l := by
  rw [Loc.openText, h, Place.rest]
  cases p <;> rfl

theorem blank_line (p : Place) (h : strip l = []) :
    missed p l = false ∧ extra p l = false ∧ hasCode p.inside l = false ∧ p.next l = p := by
  have hcode : hasCode p.inside l = false := by
    rw [← (comments_strip p.inside l).1, h, hasCode, outsideComments]
    rfl
  have hend : endsInside p.inside l = p.inside := by
    rw [← (comments_strip p.inside l).2, h, endsInside]
  have hnext : p.next l = p := by
    rw [Place.next, hend, Place.rest, h]
    cases p <;> rfl
  refine ⟨?_, ?_, hcode, hnext⟩
  · cases p <;> rw [missed, h] <;> rfl
  · cases p <;> rw [extra, h] <;> rfl

theorem line_inside (h : p.rest l = none) :
    missed p l = false ∧ extra p l = false ∧ hasCode p.inside l = false ∧ p.next l = .seen := by
  cases p with
  | outside => cases h
  | hidden => cases h
  | seen =>
    have hafter : afterBlock (strip l) = none := h
    rcases insideComment_cases (strip l) with ⟨-, hcode, hend⟩ | ⟨r, hr, -⟩
    · rw [(comments_strip true l).1] at hcode
      rw [(comments_strip true l).2] at hend
      refine ⟨by rw [missed, hafter]; rfl, by rw [extra, hafter]; rfl, hcode, ?_⟩
      have hinside : endsInside Place.seen.inside l = true := hend
      rw [Place.next, h, hinside]
      rfl
    · rw [hafter] at hr
      cases hr

theorem line_hidden (h : strip l ≠ []) :
    (countedText (strip l)).toNat + (missed .hidden l).toNat =
      (hasCode true l).toNat + (extra .hidden l).toNat := by
  rw [missed, extra, countedText]
  by_cases hblock : startsBlock (strip l) = true
  · have hline : startsLine (strip l) = false := by
      obtain ⟨u, hu⟩ := startsBlock_iff.1 hblock
      rw [hu]
      rfl
    rw [if_pos hblock, if_pos hblock, hline, counted_after_eq, (comments_strip true l).1]
    rfl
  · rw [if_neg hblock, if_neg hblock, counted, decide_eq_true h]
    cases startsLine (strip l) <;> cases hasCode true l <;> rfl

theorem line_open (hl : strip l ≠ []) (h : p.rest l = some s) :
    (countedText s).toNat + (missed p l).toNat =
      (hasCode p.inside l).toNat + (extra p l).toNat := by
  cases p with
  | outside =>
    obtain rfl := Option.some.inj h
    have hcode : hasCode Place.outside.inside l = hasCode false (strip l) :=
      (comments_strip false l).1.symm
    rw [hcode]
    exact countedText_eq (solid_strip l)
  | hidden =>
    obtain rfl := Option.some.inj h
    exact line_hidden hl
  | seen =>
    have hafter : afterBlock (strip l) = some s := h
    rcases insideComment_cases (strip l) with ⟨hnone, -⟩ | ⟨r, hr, hsolid, hcode, -⟩
    · rw [hnone] at hafter
      cases hafter
    · obtain rfl := Option.some.inj (hr.symm.trans hafter)
      have hcode' : hasCode Place.seen.inside l = hasCode false r :=
        (comments_strip true l).1.symm.trans hcode
      rw [hcode', missed, extra, hafter]
      exact countedText_eq hsolid

/-- **One line**: the place after it, and how far the count is from the truth. -/
theorem Placed.step (h : Placed loc p) (l : Text) :
    Placed (loc.step l) (p.next l) ∧ (loc.step l).total = loc.total + 1 ∧
      (loc.step l).code + (missed p l).toNat =
        loc.code + (hasCode p.inside l).toNat + (extra p l).toNat := by
  by_cases hblank : strip l = []
  · obtain ⟨hmissed, hextra, hcode, hnext⟩ := blank_line p hblank
    rw [step_blank hblank, hmissed, hextra, hcode, hnext]
    exact ⟨h, rfl, rfl⟩
  cases hrest : p.rest l with
  | none =>
    obtain ⟨hmissed, hextra, hcode, hnext⟩ := line_inside hrest
    have hseen : p = .seen := by
      cases p with
      | seen => rfl
      | outside => cases hrest
      | hidden => cases hrest
    rw [step_skipped ((h.openText l).trans hrest), hmissed, hextra, hcode, hnext]
    exact ⟨hseen ▸ h, rfl, rfl⟩
  | some s =>
    have hline := line_open hblank hrest
    rw [step_open hblank ((h.openText l).trans hrest)]
    refine ⟨(Place.next_of_rest hrest).symm, rfl, ?_⟩
    rw [Nat.add_assoc, hline, Nat.add_assoc]

/-- **A whole file.** -/
theorem Placed.foldl {loc : Loc} {p : Place} (h : Placed loc p) (ls : List Text) :
    (ls.foldl Loc.step loc).total = loc.total + ls.length ∧
      (ls.foldl Loc.step loc).code + countPlaced missed p ls =
        loc.code + codeLines p.inside ls + countPlaced extra p ls := by
  induction ls generalizing loc p with
  | nil => exact ⟨rfl, rfl⟩
  | cons l ls ih =>
    obtain ⟨hplaced, htotal, hcode⟩ := h.step l
    obtain ⟨ihtotal, ihcode⟩ := ih hplaced
    rw [Place.next_inside] at ihcode
    rw [List.foldl_cons, countPlaced, countPlaced, codeLines, List.length_cons]
    omega

/-! ## Files -/

theorem step_congr {l' : Text} (h : strip l' = strip l) (loc : Loc) : loc.step l' = loc.step l := by
  rw [Loc.step, Loc.step, h]

theorem foldl_step_trails {ls ls' : List Text} (h : List.Forall₂ Trails ls ls') (loc : Loc) :
    ls.foldl Loc.step loc = ls'.foldl Loc.step loc := by
  induction h generalizing loc with
  | nil => rfl
  | cons hl _ ih => rw [List.foldl_cons, List.foldl_cons, step_congr (strip_of_trails hl), ih]

/-- **When the counts are right**: all breaks of the file are newlines, and as many lines are counted
without code as lines with code are not counted. -/
theorem locForFile_exact_iff (tree : Tree) (path : Text) :
    ((locForFile tree path).total = (sourceLines tree path).length ∧
      (locForFile tree path).code = codeLines false (sourceLines tree path)) ↔
      ¬ OtherBreak (sourceText tree path) ∧
        countPlaced extra .outside (sourceLines tree path) =
          countPlaced missed .outside (sourceLines tree path) := by
  have htotal : (locForFile tree path).total = (readLines tree path).length := by
    have := (@Placed.foldl ⟨0, 0, false⟩ .outside rfl (readLines tree path)).1
    rwa [Nat.zero_add] at this
  have hlength : (locForFile tree path).total = (sourceLines tree path).length ↔
      ¬ OtherBreak (sourceText tree path) := by
    rw [htotal]
    exact splitlines_length_iff (sourceText tree path)
  rw [hlength]
  refine and_congr_right fun hbreak => ?_
  have hsame : locForFile tree path = (sourceLines tree path).foldl Loc.step ⟨0, 0, false⟩ :=
    foldl_step_trails ((splitlines_fileLines (sourceText tree path)).2 hbreak) _
  obtain ⟨-, hcode⟩ := @Placed.foldl ⟨0, 0, false⟩ .outside rfl (sourceLines tree path)
  have hcode : (locForFile tree path).code + countPlaced missed .outside (sourceLines tree path) =
      codeLines false (sourceLines tree path) +
        countPlaced extra .outside (sourceLines tree path) := by
    rw [hsame, hcode, Nat.zero_add]
    rfl
  omega

/-- A comment behind code goes on in the next line. -/
def trailingText : Text := "x; /* a\n b */\n"

def trailingTree : Tree := ⟨(∅ : Files).write "lib.rs" trailingText, []⟩

/-- Both lines are counted, and only the first has code. -/
theorem trailingTree_miscounted :
    (locForFile trailingTree "lib.rs".toList).code = 2 ∧
      codeLines false (sourceLines trailingTree "lib.rs".toList) = 1 := by
  have hlookup : trailingTree.files.lookup "lib.rs".toList = some trailingText :=
    Files.lookup_write_self _ _ _
  rw [locForFile, readLines, sourceLines, sourceText, hlookup]
  decide

end Harness.StaticScan
