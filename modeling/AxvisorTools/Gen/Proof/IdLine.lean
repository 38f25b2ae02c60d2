import AxvisorTools.Gen.Proof.StaticEdits
import AxvisorTools.Py.Proof.Number
import AxvisorTools.Text.Proof.Matches
import AxvisorTools.Toml.Proof.Scalar

/-!
# Lines of the number

What the pattern for the number matches (`matches_idPattern_iff`), and what a line of that form is in
TOML: in an accepted config it is a pair `id`, outside every other value, and the digits that the pattern
takes are the integer of the pair (`read_idLine`).
-/

namespace Gen.StaticConfig

open Regex Py KernelKey

variable {c : Char} {w : Text} {s : Toml.State} {table : List Text}

/-! ## Characters -/

/-- White space only. -/
abbrev White (t : Text) : Prop := ∀ c ∈ t, Re.isWhite c = true

/-- The characters around and in the number. -/
def isNumberChar (c : Char) : Bool := Re.isWhite c || isDecimal c

theorem isNumberChar_ne (h : isNumberChar c = true) {d : Char} (hd : isNumberChar d = false) :
    c ≠ d := by
  rintro rfl
  rw [h] at hd
  cases hd

theorem isInert_number (h : isNumberChar c = true) : Toml.isInert c = true := by
  by_contra hno
  simp only [Toml.isInert, decide_eq_true_eq, not_not] at hno
  have hall : ∀ d ∈ ['#', '"', '\'', '[', '{', ']', '}', '='], isNumberChar d = false := by
    decide +kernel
  exact isNumberChar_ne h (hall c hno) rfl

theorem scalarSigns_number (h : isNumberChar c = true) : c ∉ Toml.scalarSigns := by
  intro hmem
  have hall : ∀ d ∈ Toml.scalarSigns, isNumberChar d = false := by decide +kernel
  exact isNumberChar_ne h (hall c hmem) rfl

theorem isBlank_white (h : Toml.isBlank c = true) : Re.isWhite c = true := by
  rw [Toml.isBlank, Bool.or_eq_true, beq_iff_eq, beq_iff_eq] at h
  rcases h with rfl | rfl <;> rfl

/-! ## The pattern -/

/-- The parts of a text `id = 7`: white space, white space, digits, white space. -/
structure IdParts (s₁ s₂ ds s₃ : Text) : Prop where
  gap : White s₁
  indent : White s₂
  ne_nil : ds ≠ []
  digits : ∀ c ∈ ds, isDecimal c = true
  rest : White s₃

def idText (s₁ s₂ ds s₃ : Text) : Text := "id" ++ (s₁ ++ '=' :: (s₂ ++ (ds ++ s₃)))

theorem isIdLine_iff {l : Text} :
    isIdLine l = true ↔ ∃ s₁ s₂ ds s₃, IdParts s₁ s₂ ds s₃ ∧ l = idText s₁ s₂ ds s₃ := by
  constructor
  · intro h
    rw [isIdLine, Bool.and_eq_true, List.isPrefixOf_iff_prefix] at h
    obtain ⟨⟨t, rfl⟩, h⟩ := h
    have hdrop : ("id" ++ t).drop 2 = t := rfl
    rw [hdrop] at h
    split at h
    · rename_i r heq
      simp only [Bool.and_eq_true, List.all_eq_true] at h
      have ht : t = t.takeWhile Re.isWhite ++ '=' :: r := by
        rw [← heq, List.takeWhile_append_dropWhile]
      refine ⟨t.takeWhile Re.isWhite, r.takeWhile Re.isWhite,
        (r.dropWhile Re.isWhite).takeWhile isDecimal, (r.dropWhile Re.isWhite).dropWhile isDecimal,
        ⟨fun c hc => List.mem_takeWhile_imp hc, fun c hc => List.mem_takeWhile_imp hc, ?_,
          fun c hc => List.mem_takeWhile_imp hc, h.2⟩, ?_⟩
      · intro hnil
        cases hr : r.dropWhile Re.isWhite with
        | nil =>
          rw [hr] at h
          cases h.1
        | cons c r' =>
          rw [hr] at h hnil
          have hc : isDecimal c = true := h.1
          rw [List.takeWhile_cons, hc] at hnil
          cases hnil
      · rw [idText, List.takeWhile_append_dropWhile, List.takeWhile_append_dropWhile, ← ht]
    · cases h
  · rintro ⟨s₁, s₂, ds, s₃, h, rfl⟩
    obtain ⟨c, ds, rfl⟩ := List.exists_cons_of_ne_nil h.ne_nil
    have hc := h.digits c List.mem_cons_self
    have hdrop : (idText s₁ s₂ (c :: ds) s₃).drop 2 = s₁ ++ '=' :: (s₂ ++ (c :: ds ++ s₃)) := rfl
    have hgap : (s₁ ++ '=' :: (s₂ ++ (c :: ds ++ s₃))).dropWhile Re.isWhite =
        '=' :: (s₂ ++ (c :: ds ++ s₃)) := List.dropWhile_append_of_pos h.gap
    have hindent : (s₂ ++ (c :: ds ++ s₃)).dropWhile Re.isWhite = c :: ds ++ s₃ := by
      rw [List.dropWhile_append_of_pos h.indent, List.cons_append, List.dropWhile_cons,
        decimal?_white hc]
      rfl
    have hrest : ∀ d ∈ (c :: ds ++ s₃).dropWhile isDecimal, Re.isWhite d = true := by
      intro d hd
      rw [List.dropWhile_append_of_pos h.digits] at hd
      exact h.rest d ((List.dropWhile_sublist _).subset hd)
    rw [isIdLine, Bool.and_eq_true, List.isPrefixOf_iff_prefix, hdrop, hgap]
    refine ⟨List.prefix_append _ _, ?_⟩
    simp only [hindent, Bool.and_eq_true, List.all_eq_true]
    exact ⟨hc, hrest⟩

theorem matches_digits {b x y : Text} {g : List (Nat × Text)}
    (h : Matches (.seq (.group 1 (.seq (.one isDecimal) (.star true (.one isDecimal))))
      (.seq (.star true Re.space) eol)) b x y g) :
    y.head?.all (· == '\n') = true ∧ ∃ ds s₃, ds ≠ [] ∧ (∀ c ∈ ds, isDecimal c = true) ∧
      White s₃ ∧ x = ds ++ s₃ ∧ g = [(1, ds)] := by
  obtain ⟨_, _, _, _, rfl, rfl, hgroup, htail⟩ := matches_seq_iff.1 h
  obtain ⟨s₃, _, _, _, rfl, rfl, hrest, hend⟩ := matches_seq_iff.1 htail
  obtain ⟨h₃, rfl⟩ := matches_star_one_iff.1 hrest
  obtain ⟨hy, rfl, rfl⟩ := matches_look_iff.1 hend
  obtain ⟨_, rfl, hdigits⟩ := matches_group_iff.1 hgroup
  obtain ⟨_, ds, _, _, rfl, rfl, hfirst, hmore⟩ := matches_seq_iff.1 hdigits
  obtain ⟨c, hc, rfl, rfl⟩ := matches_one_iff.1 hfirst
  obtain ⟨hds, rfl⟩ := matches_star_one_iff.1 hmore
  exact ⟨hy, c :: ds, s₃, by simp, List.forall_mem_cons.2 ⟨hc, hds⟩, h₃, by simp, rfl⟩

theorem matches_idPattern_iff {b x y : Text} {g : List (Nat × Text)} :
    Matches idPattern b x y g ↔ AtLine b ∧ y.head?.all (· == '\n') = true ∧
      ∃ s₁ s₂ ds s₃, IdParts s₁ s₂ ds s₃ ∧ x = idText s₁ s₂ ds s₃ ∧ g = [(1, ds)] := by
  constructor
  · intro h
    obtain ⟨_, _, _, _, rfl, rfl, hbol, hline⟩ := matches_seq_iff.1 h
    obtain ⟨hb, rfl, rfl⟩ := matches_look_iff.1 hbol
    obtain ⟨_, _, _, _, rfl, rfl, hid, hpair⟩ := matches_seq_iff.1 hline
    obtain ⟨rfl, rfl⟩ := (matches_lit_iff _).1 hid
    obtain ⟨s₁, _, _, _, rfl, rfl, hgap, hvalue⟩ := matches_seq_iff.1 hpair
    obtain ⟨h₁, rfl⟩ := matches_star_one_iff.1 hgap
    obtain ⟨_, _, _, _, rfl, rfl, hequals, hnumber⟩ := matches_seq_iff.1 hvalue
    obtain ⟨rfl, rfl⟩ := (matches_lit_iff _).1 hequals
    obtain ⟨s₂, _, _, _, rfl, rfl, hindent, hdigits⟩ := matches_seq_iff.1 hnumber
    obtain ⟨h₂, rfl⟩ := matches_star_one_iff.1 hindent
    obtain ⟨hy, ds, s₃, hne, hds, h₃, rfl, rfl⟩ := matches_digits hdigits
    exact ⟨hb, hy, s₁, s₂, ds, s₃, ⟨h₁, h₂, hne, hds, h₃⟩, rfl, rfl⟩
  · rintro ⟨hb, hy, s₁, s₂, ds, s₃, h, rfl, rfl⟩
    obtain ⟨c, ds, rfl⟩ := List.exists_cons_of_ne_nil h.ne_nil
    obtain ⟨hc, hds⟩ := List.forall_mem_cons.1 h.digits
    have hlit : ∀ {b y : Text} (t : Text), Matches (lit t) b t y [] :=
      fun t => (matches_lit_iff t).2 ⟨rfl, rfl⟩
    have hwhite : ∀ {b y t : Text}, White t → Matches (.star true Re.space) b t y [] :=
      fun ht => matches_star_one_iff.2 ⟨ht, rfl⟩
    refine matches_seq_iff.2 ⟨[], _, [], [(1, c :: ds)], rfl, rfl, .look hb, ?_⟩
    refine matches_seq_iff.2 ⟨_, _, [], [(1, c :: ds)], rfl, rfl, hlit "id", ?_⟩
    refine matches_seq_iff.2 ⟨s₁, _, [], [(1, c :: ds)], rfl, rfl, hwhite h.gap, ?_⟩
    refine matches_seq_iff.2 ⟨_, _, [], [(1, c :: ds)], rfl, rfl, hlit ['='], ?_⟩
    refine matches_seq_iff.2 ⟨s₂, _, [], [(1, c :: ds)], rfl, rfl, hwhite h.indent, ?_⟩
    refine matches_seq_iff.2 ⟨c :: ds, s₃, [(1, c :: ds)], [], rfl, rfl, ?_, ?_⟩
    · refine matches_group_iff.2 ⟨[], rfl, matches_seq_iff.2 ⟨[c], ds, [], [], rfl, rfl, ?_, ?_⟩⟩
      · exact matches_one_iff.2 ⟨c, hc, rfl, rfl⟩
      · exact matches_star_one_iff.2 ⟨hds, rfl⟩
    · exact matches_seq_iff.2 ⟨s₃, [], [], [], by simp, rfl, hwhite h.rest, .look hy⟩

/-! ## Reading the line -/

/-- White space is skipped, or the line goes on with white space that TOML does not know. -/
theorem skipBlanks_white (hw : White w) (rest : Text) :
    Toml.skipBlanks (w ++ rest) = Toml.skipBlanks rest ∨
      ∃ c t, Toml.skipBlanks (w ++ rest) = c :: t ∧ Re.isWhite c = true := by
  induction w with
  | nil => exact .inl rfl
  | cons c w ih =>
    obtain ⟨hc, hw⟩ := List.forall_mem_cons.1 hw
    by_cases hblank : Toml.isBlank c = true
    · have hskip : Toml.skipBlanks (c :: w ++ rest) = Toml.skipBlanks (w ++ rest) := by
        rw [Toml.skipBlanks, List.cons_append, List.dropWhile_cons, if_pos hblank]
        rfl
      rw [hskip]
      exact ih hw
    · have hskip : Toml.skipBlanks (c :: w ++ rest) = c :: (w ++ rest) :=
        Toml.skipBlanks_cons (by simpa using hblank) _
      exact .inr ⟨c, w ++ rest, hskip, hc⟩

theorem readLine_equals_inside {s : Toml.State} (hhead : s.nest.head? ≠ some .curly)
    (hs : s.nest ≠ []) {a z : Text} (ha : ∀ c ∈ a, Toml.isInert c = true) :
    Toml.readLine s (a ++ '=' :: z) = (.bad, s) := by
  have hscan : Toml.scan .plain s.nest (Toml.chomp (a ++ '=' :: z)) = none := by
    rw [Toml.chomp_append (by decide), Toml.scan_inert ha]
    exact if_neg hhead
  rw [Toml.readLine, if_pos hs, hscan]

theorem readLine_equals (hhead : s.nest.head? ≠ some .curly) (hw : White w) (t : Text) :
    (Toml.readLine s (w ++ '=' :: t)).1 = .bad := by
  by_cases hs : s.nest = []
  · have hchomp : Toml.chomp (w ++ '=' :: t) = w ++ '=' :: Toml.chomp t :=
      Toml.chomp_append (by decide) w t
    rcases skipBlanks_white hw ('=' :: Toml.chomp t) with hskip | ⟨c, r, hskip, hc⟩
    · rw [← hchomp] at hskip
      rw [Toml.readLine_odd hs hskip (by decide) (by decide)]
    · rw [← hchomp] at hskip
      rw [readLine_white hs hskip hc]
  · rw [readLine_equals_inside hhead hs fun c hc => isInert_white (hw c hc)]

section Key

variable {key gap z : Text}

theorem readPath_gap (hk : Toml.IsBareKey key) (hgap : White gap) (n : Nat) :
    Toml.readPath (n + 1) (key ++ (gap ++ '=' :: z)) =
      some ([key], Toml.skipBlanks (gap ++ '=' :: z)) := by
  obtain ⟨c, t, ht, hc⟩ : ∃ c t, gap ++ '=' :: z = c :: t ∧ Toml.isBareChar c = false := by
    cases gap with
    | nil => exact ⟨'=', z, rfl, by decide⟩
    | cons c gap => exact ⟨c, _, rfl, not_bare_white (hgap c List.mem_cons_self)⟩
  have hskip : Toml.skipBlanks (key ++ (gap ++ '=' :: z)) = key ++ (gap ++ '=' :: z) := by
    obtain ⟨d, k, rfl⟩ := List.exists_cons_of_ne_nil hk.1
    exact Toml.skipBlanks_cons
      (Toml.isBlank_bare (List.all_eq_true.1 hk.2 d List.mem_cons_self)) _
  have hdot : ∀ r, Toml.skipBlanks (gap ++ '=' :: z) ≠ '.' :: r := by
    intro r hr
    rcases skipBlanks_white hgap ('=' :: z) with hblank | ⟨d, r', hblank, hd⟩
    · rw [hr] at hblank
      cases hblank
    · rw [hr] at hblank
      cases hblank
      cases hd
  rw [Toml.readPath, hskip, ht, Toml.readKey_bare hk hc, ← ht]
  simp only [Option.bind_eq_bind, Option.bind_some]
  rfl

theorem readValue_number {v : Text} (hv : ∀ c ∈ v, isNumberChar c = true)
    {r : Toml.Value × List Toml.Bracket} (h : Toml.readValue v = some r) : r = (.other, []) := by
  have hskip : ∀ c ∈ Toml.skipBlanks v, isNumberChar c = true :=
    fun c hc => hv c ((List.dropWhile_sublist Toml.isBlank).subset hc)
  have hquote : ∀ c ∈ ['"', '\''], ∀ t, Toml.skipBlanks v ≠ c :: t := by
    intro c hc t ht
    have hno : ∀ d ∈ ['"', '\''], isNumberChar d = false := by decide +kernel
    exact isNumberChar_ne (hskip c (ht ▸ List.mem_cons_self)) (hno c hc) rfl
  unfold Toml.readValue at h
  split at h
  · cases h
  · cases h
  · rename_i ht
    exact absurd ht (hquote _ (by decide) _)
  · rename_i ht
    exact absurd ht (hquote _ (by decide) _)
  · rw [Toml.scan_inert_end fun c hc => isInert_number (hskip c hc)] at h
    exact (Option.some.inj h).symm

theorem readEntry_gap (hk : Toml.IsBareKey key) (hgap : White gap)
    {r : List Text × Toml.Value × List Toml.Bracket}
    (h : Toml.readEntry (key ++ (gap ++ '=' :: z)) = some r) :
    Toml.skipBlanks (gap ++ '=' :: z) = '=' :: z ∧ ∃ v, Toml.readValue z = some v ∧ r = ([key], v) := by
  have hlen : (key ++ (gap ++ '=' :: z)).length = (key ++ (gap ++ z)).length + 1 := by
    simp only [List.length_append, List.length_cons]
    omega
  rw [Toml.readEntry, hlen, readPath_gap hk hgap] at h
  rcases skipBlanks_white hgap ('=' :: z) with hblank | ⟨c, t, hblank, hc⟩
  · have hequals : Toml.skipBlanks (gap ++ '=' :: z) = '=' :: z := hblank
    rw [hequals] at h
    obtain ⟨v, hv, hr⟩ := Option.map_eq_some_iff.1 h
    exact ⟨hequals, v, hv, hr.symm⟩
  · rw [hblank] at h
    split at h
    · rename_i heq
      obtain ⟨-, heq⟩ := Prod.mk.inj (Option.some.inj heq)
      rw [(List.cons.inj heq).1] at hc
      cases hc
    · cases h

/-- A line of the key with nothing but white space and digits after `=`. -/
theorem readLine_number (hhead : s.nest.head? ≠ some .curly) (hw : White w)
    (hk : Toml.IsBareKey key) (hgap : White gap) (hz : ∀ c ∈ z, isNumberChar c = true)
    (hread : (Toml.readLine s (w ++ (key ++ (gap ++ '=' :: z)))).1 ≠ .bad) :
    (Toml.readLine s (w ++ (key ++ (gap ++ '=' :: z)))).1 = .entry [key] .other ∧
      Toml.afterEquals (w ++ (key ++ (gap ++ '=' :: z))) = some (Toml.chomp z) := by
  have hchomp : Toml.chomp (w ++ (key ++ (gap ++ '=' :: z))) =
      w ++ (key ++ (gap ++ '=' :: Toml.chomp z)) := by
    have h := Toml.chomp_append (c := '=') (by decide) (w ++ (key ++ gap)) z
    simpa using h
  by_cases hs : s.nest = []
  · rcases skipBlanks_white hw (key ++ (gap ++ '=' :: Toml.chomp z)) with hskip | ⟨c, r, hskip, hc⟩
    · -- the line starts with the key
      obtain ⟨c, t, hline, ht, hc⟩ :
          ∃ c t, Toml.skipBlanks (Toml.chomp (w ++ (key ++ (gap ++ '=' :: z)))) = c :: t ∧
            key ++ (gap ++ '=' :: Toml.chomp z) = c :: t ∧ Toml.isBareChar c = true := by
        obtain ⟨c, k, rfl⟩ := List.exists_cons_of_ne_nil hk.1
        have hc : Toml.isBareChar c = true := List.all_eq_true.1 hk.2 c List.mem_cons_self
        refine ⟨c, _, ?_, rfl, hc⟩
        rw [hchomp, hskip]
        exact Toml.skipBlanks_cons (Toml.isBlank_bare hc) _
      rw [Toml.readLine_bare hs hline hc] at hread ⊢
      cases hentry : Toml.readEntry (c :: t) with
      | none =>
        rw [hentry] at hread
        exact absurd rfl hread
      | some r =>
        rw [← ht] at hentry
        obtain ⟨hequals, v, hv, rfl⟩ := readEntry_gap hk hgap hentry
        obtain rfl := readValue_number (fun c hc => hz c (Toml.mem_chomp hc)) hv
        refine ⟨rfl, ?_⟩
        have hlen : (w ++ (key ++ (gap ++ '=' :: z))).length =
            (w ++ (key ++ (gap ++ z))).length + 1 := by
          simp only [List.length_append, List.length_cons]
          omega
        rw [Toml.afterEquals, hline, ← ht, hlen, readPath_gap hk hgap, hequals]
        rfl
    · rw [← hchomp] at hskip
      rw [readLine_white hs hskip hc] at hread
      exact absurd rfl hread
  · have hinert : ∀ c ∈ w ++ (key ++ gap), Toml.isInert c = true := by
      simp only [List.mem_append]
      rintro c (hc | hc | hc)
      · exact isInert_white (hw c hc)
      · exact Toml.isInert_bare (List.all_eq_true.1 hk.2 c hc)
      · exact isInert_white (hgap c hc)
    have hbad := @readLine_equals_inside s hhead hs _ z hinert
    simp only [List.append_assoc] at hbad
    rw [hbad] at hread
    exact absurd rfl hread

theorem intValue_number {l : Text} (hafter : Toml.afterEquals l = some (Toml.chomp z))
    (hz : ∀ c ∈ z, isNumberChar c = true)
    (hvalue : Toml.Reading.hasValue ⟨table, l, .entry [key] .other⟩ = true) :
    ∃ b₁ ds b₂, z = b₁ ++ (ds ++ b₂) ∧ White (b₁ ++ b₂) ∧ ds ≠ [] ∧
      (∀ c ∈ ds, isDigit 10 c = true) ∧ Toml.intValue l = some ((ofDigits 10 0 ds : Nat) : Int) := by
  have hz' : ∀ c ∈ Toml.chomp z, isNumberChar c = true := fun c hc => hz c (Toml.mem_chomp hc)
  have hcomment : (Toml.chomp z).takeWhile (· ≠ '#') = Toml.chomp z := by
    refine List.takeWhile_eq_self_iff.2 fun c hc => ?_
    simpa using isNumberChar_ne (hz' c hc) (show isNumberChar '#' = false by decide +kernel)
  have hbare : Toml.bareValue l = some ((Toml.skipBlanks (Toml.chomp z)).rdropWhile Toml.isBlank) := by
    rw [Toml.bareValue, hafter, Option.map_some, hcomment]
  -- the text between the blanks at both ends
  obtain ⟨b₁, b₂, v, hb₁, hb₂, hv, hsplit⟩ : ∃ b₁ b₂ v, (∀ c ∈ b₁, Toml.isBlank c = true) ∧
      (∀ c ∈ b₂, Toml.isBlank c = true) ∧
      (Toml.skipBlanks (Toml.chomp z)).rdropWhile Toml.isBlank = v ∧
      Toml.chomp z = b₁ ++ (v ++ b₂) := by
    refine ⟨(Toml.chomp z).takeWhile Toml.isBlank,
      (Toml.skipBlanks (Toml.chomp z)).rtakeWhile Toml.isBlank, _,
      fun c hc => List.mem_takeWhile_imp hc, fun c hc => List.mem_rtakeWhile_imp hc, rfl, ?_⟩
    rw [List.rdropWhile_append_rtakeWhile]
    exact List.takeWhile_append_dropWhile.symm
  rw [hv] at hbare
  have hnumber : ∀ c ∈ v, isNumberChar c = true := by
    intro c hc
    refine hz' c ?_
    rw [hsplit]
    simp [hc]
  have hscalar : Toml.isScalar v = true := by
    have hopen : ∀ d ∈ ['[', '\x7b'], v.head? ≠ some d := by
      intro d hd hhead
      have hno : ∀ d ∈ ['[', '\x7b'], isNumberChar d = false := by decide +kernel
      exact isNumberChar_ne (hnumber d (List.mem_of_mem_head? hhead)) (hno d hd) rfl
    rw [Toml.Reading.hasValue, hbare, Option.any_some] at hvalue
    simpa [hopen '[' (by decide), hopen '\x7b' (by decide)] using hvalue
  obtain ⟨hne, hds, hint⟩ :=
    Toml.integer_of_isScalar (fun c hc => scalarSigns_number (hnumber c hc)) hscalar
  have hvalue' : Toml.intValue l = some ((ofDigits 10 0 v : Nat) : Int) := by
    rw [Toml.intValue, hbare, Option.bind_some, hint]
  rcases Toml.chomp_cases z with hcr | hcr
  · refine ⟨b₁, v, b₂, hcr.trans hsplit, fun c hc => ?_, hne, hds, hvalue'⟩
    exact isBlank_white ((List.mem_append.1 hc).elim (hb₁ c) (hb₂ c))
  · refine ⟨b₁, v, b₂ ++ ['\r'], ?_, fun c hc => ?_, hne, hds, hvalue'⟩
    · rw [hcr, hsplit]
      simp
    · simp only [List.mem_append, List.mem_singleton] at hc
      rcases hc with hc | hc | rfl
      · exact isBlank_white (hb₁ c hc)
      · exact isBlank_white (hb₂ c hc)
      · rfl

end Key

/-! ## Lines of the number -/

theorem isDecimal_digit (h : isDigit 10 c = true) : isDecimal c = true := by
  obtain ⟨d, hd⟩ := Option.isSome_iff_exists.1 h
  rw [isDecimal, decimal?_of_digit? hd]
  rfl

theorem isBareKey_id : Toml.IsBareKey "id" := by decide

/-- **A line of the number** in a config that is read: the pair `id`, with the digits of the line as its
value. -/
theorem read_idLine (hhead : s.nest.head? ≠ some .curly) {s₁ s₂ ds s₃ : Text} (hw : White w)
    (h : IdParts s₁ s₂ ds s₃) (hread : (Toml.readLine s (w ++ idText s₁ s₂ ds s₃)).1 ≠ .bad)
    (hvalue : Toml.Reading.hasValue
      ⟨table, w ++ idText s₁ s₂ ds s₃, (Toml.readLine s (w ++ idText s₁ s₂ ds s₃)).1⟩ = true) :
    (Toml.readLine s (w ++ idText s₁ s₂ ds s₃)).1.isPair "id" = true ∧
      ∀ n, intOfDigits ds = some n → Toml.intValue (w ++ idText s₁ s₂ ds s₃) = some (n : Int) := by
  have hz : ∀ c ∈ s₂ ++ (ds ++ s₃), isNumberChar c = true := by
    simp only [List.mem_append, isNumberChar, Bool.or_eq_true]
    rintro c (hc | hc | hc)
    · exact .inl (h.indent c hc)
    · exact .inr (h.digits c hc)
    · exact .inl (h.rest c hc)
  obtain ⟨hrole, hafter⟩ := readLine_number hhead hw isBareKey_id h.gap hz hread
  have hrole' : (Toml.readLine s (w ++ idText s₁ s₂ ds s₃)).1 = .entry ["id"] .other := hrole
  rw [hrole'] at hvalue ⊢
  obtain ⟨b₁, ds', b₂, hsplit, hblank, -, hds, hint⟩ := intValue_number hafter hz hvalue
  refine ⟨rfl, fun n hn => ?_⟩
  -- both ways to split the text after `=` give the same digits
  have hfilter : ∀ {a d b : Text}, White a → (∀ c ∈ d, isDecimal c = true) → White b →
      (a ++ (d ++ b)).filter isDecimal = d := by
    intro a d b ha hd hb
    have hnone : ∀ {x : Text}, White x → x.filter isDecimal = [] := by
      intro x hx
      refine List.filter_eq_nil_iff.2 fun c hc hdec => ?_
      have := decimal?_white hdec
      rw [hx c hc] at this
      cases this
    rw [List.filter_append, List.filter_append, hnone ha, hnone hb, List.filter_eq_self.2 hd]
    simp
  have hsame : ds = ds' := by
    rw [← hfilter h.indent h.digits h.rest, hsplit]
    exact hfilter (fun c hc => hblank c (List.mem_append_left _ hc))
      (fun c hc => isDecimal_digit (hds c hc)) (fun c hc => hblank c (List.mem_append_right _ hc))
  obtain rfl := hsame
  rw [intOfDigits_eq hds hn]
  exact hint

theorem not_read_idLine (hhead : s.nest.head? ≠ some .curly) {s₁ s₂ : Text} (hw : White w)
    (h₁ : White s₁) (h₂ : White s₂)
    (hread : (Toml.readLine s (w ++ ("id" ++ (s₁ ++ '=' :: s₂)))).1 ≠ .bad)
    (hvalue : Toml.Reading.hasValue ⟨table, w ++ ("id" ++ (s₁ ++ '=' :: s₂)),
      (Toml.readLine s (w ++ ("id" ++ (s₁ ++ '=' :: s₂)))).1⟩ = true) : False := by
  have hz : ∀ c ∈ s₂, isNumberChar c = true := by
    intro c hc
    rw [isNumberChar, h₂ c hc]
    rfl
  obtain ⟨hrole, hafter⟩ := readLine_number hhead hw isBareKey_id h₁ hz hread
  rw [hrole] at hvalue
  obtain ⟨b₁, ds, b₂, rfl, -, hne, hds, -⟩ := intValue_number hafter hz hvalue
  obtain ⟨c, ds, rfl⟩ := List.exists_cons_of_ne_nil hne
  have hc := decimal?_white (isDecimal_digit (hds c List.mem_cons_self))
  rw [h₂ c (by simp)] at hc
  cases hc

theorem not_read_baseLine (hhead : s.nest.head? ≠ some .curly) {gap z : Text} (hw : White w)
    (hgap : White gap) :
    (Toml.readLine s ("[base]".toList ++ (w ++ ("id".toList ++ (gap ++ '=' :: z))))).1 = .bad := by
  have hchomp : Toml.chomp ("[base]".toList ++ (w ++ ("id".toList ++ (gap ++ '=' :: z)))) =
      '[' :: ("base".toList ++ ']' :: (w ++ ("id".toList ++ (gap ++ '=' :: Toml.chomp z)))) := by
    have h := Toml.chomp_append (c := '=') (by decide) ("[base]".toList ++ (w ++ ("id".toList ++ gap))) z
    simpa using h
  by_cases hs : s.nest = []
  · have hend : Toml.atEnd (w ++ ("id".toList ++ (gap ++ '=' :: Toml.chomp z))) = false := by
      rcases skipBlanks_white hw ("id".toList ++ (gap ++ '=' :: Toml.chomp z)) with hskip |
        ⟨c, r, hskip, hc⟩
      · rw [Toml.atEnd, hskip]
        rfl
      · rw [Toml.atEnd, hskip, List.head?_cons, Option.all_some, beq_eq_false_iff_ne]
        rintro rfl
        cases hc
    have hheader : ∀ r, Toml.readHeader ("base".toList ++ ']' :: r) =
        if Toml.atEnd r then some (["base".toList], false) else none := fun r => rfl
    rw [Toml.readLine, if_neg (not_not.2 hs), hchomp, Toml.skipBlanks_cons (by decide)]
    simp only [hheader, hend, Bool.false_eq_true, if_false]
  · have hscan : Toml.scan .plain s.nest (Toml.chomp ("[base]".toList ++ (w ++ ("id".toList ++
        (gap ++ '=' :: z))))) = none := by
      have hinert : ∀ c ∈ w ++ ("id".toList ++ gap), Toml.isInert c = true := by
        simp only [List.mem_append]
        rintro c (hc | hc | hc)
        · exact isInert_white (hw c hc)
        · exact Toml.isInert_bare (List.all_eq_true.1 isBareKey_id.2 c hc)
        · exact isInert_white (hgap c hc)
      have hinside := Toml.scan_inert hinert s.nest ('=' :: Toml.chomp z)
      simp only [List.append_assoc] at hinside
      rw [hchomp, Toml.scan_open, Toml.scan_inert (by decide), Toml.scan_close, hinside]
      exact if_neg hhead
    rw [Toml.readLine, if_pos hs, hscan]

end Gen.StaticConfig
