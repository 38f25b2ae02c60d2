import AxvisorTools.Gen.Proof.IdLine
import AxvisorTools.Gen.Proof.Section

/-!
# The number of the VM

`findVmId` looks for the number in the text of the section `[base]` by a pattern whose blanks may run
over line ends. In an accepted config they do not (`idText_row`), so that the number is the one of the
line that `idReading` finds (`idReading_of_findVmId`).
-/

namespace Gen.StaticConfig

open Regex Py KernelKey

variable {s₂ ds : Text} {rows p q pre : List Text}

/-! ## Lines of an accepted config -/

variable {ls : List Text}

theorem read_of_mem (h : Toml.Accepted ls) {r : Toml.Reading} (hr : r ∈ Toml.readings ls) :
    ∃ s : Toml.State, s.nest.head? ≠ some .curly ∧ r = ⟨s.table, r.line, (Toml.readLine s r.line).1⟩ ∧
      (Toml.readLine s r.line).1 ≠ .bad ∧
      Toml.Reading.hasValue ⟨s.table, r.line, (Toml.readLine s r.line).1⟩ = true := by
  have hstate : ∀ (s : Toml.State) (ks : List Text), s.nest.head? ≠ some .curly →
      r ∈ Toml.readLines s ks → ∃ s' : Toml.State, s'.nest.head? ≠ some .curly ∧
        r = ⟨s'.table, r.line, (Toml.readLine s' r.line).1⟩ := by
    intro s ks
    induction ks generalizing s with
    | nil => exact fun _ hr => absurd hr List.not_mem_nil
    | cons k ks ih =>
      intro hs hr
      rcases List.mem_cons.1 hr with rfl | hr
      · exact ⟨s, hs, rfl⟩
      · exact ih _ (Toml.readLine_head hs k) hr
  obtain ⟨s, hs, heq⟩ := hstate Toml.start ls (by decide) hr
  refine ⟨s, hs, heq, ?_, ?_⟩
  · have hbad := h.wellRead.1 r hr
    rwa [heq] at hbad
  · have hvalue := h.values r hr
    rwa [heq] at hvalue

theorem exists_reading {l : Text} (hl : l ∈ ls) : ∃ r ∈ Toml.readings ls, r.line = l := by
  rw [← Toml.map_line_readLines Toml.start ls] at hl
  exact List.mem_map.1 hl

theorem not_equals_line (h : Toml.Accepted ls) {w : Text} (hw : White w) (t : Text) :
    w ++ '=' :: t ∉ ls := by
  intro hmem
  obtain ⟨r, hr, hline⟩ := exists_reading hmem
  obtain ⟨s, hs, -, hbad, -⟩ := read_of_mem h hr
  rw [hline] at hbad
  exact hbad (readLine_equals hs hw t)

theorem not_empty_idLine (h : Toml.Accepted ls) {w s₁ : Text} (hw : White w) (h₁ : White s₁)
    (h₂ : White s₂) : w ++ ("id" ++ (s₁ ++ '=' :: s₂)) ∉ ls := by
  intro hmem
  obtain ⟨r, hr, hline⟩ := exists_reading hmem
  obtain ⟨s, hs, -, hbad, hvalue⟩ := read_of_mem h hr
  rw [hline] at hbad hvalue
  exact not_read_idLine hs hw h₁ h₂ hbad hvalue

theorem not_base_idLine (h : Toml.Accepted ls) {w gap : Text} (hw : White w) (hgap : White gap)
    (z : Text) :
    "[base]" ++ (w ++ ("id" ++ (gap ++ '=' :: z))) ∉ ls := by
  intro hmem
  obtain ⟨r, hr, hline⟩ := exists_reading hmem
  obtain ⟨s, hs, -, hbad, -⟩ := read_of_mem h hr
  rw [hline] at hbad
  exact hbad (not_read_baseLine hs hw hgap)

/-! ## Matches on rows -/

theorem rows_at (hrows : Unbroken rows) (hne : rows ≠ []) {a t : Text} (h : unlines rows = a ++ t)
    (ha : AtLine a.reverse) :
    ∃ pre l post, rows = pre ++ l :: post ∧ a = above pre ∧ t = l ++ below post := by
  obtain ⟨l, post, hlines⟩ := List.exists_cons_of_ne_nil (lines_ne_nil t)
  have ht : t = l ++ below post := by
    rw [← unlines_lines t, hlines]
    rfl
  rcases List.eq_nil_or_concat' a with rfl | ⟨a, c, rfl⟩
  · refine ⟨[], l, post, ?_, rfl, ht⟩
    rw [← lines_unlines hrows hne, h, List.nil_append, hlines]
    rfl
  · obtain rfl : c = '\n' := by simpa [AtLine] using ha
    obtain ⟨k, ks, ha⟩ := List.exists_cons_of_ne_nil (lines_ne_nil a)
    refine ⟨lines a, l, post, ?_, ?_, ht⟩
    · rw [← lines_unlines hrows hne, h, List.append_assoc, List.singleton_append, lines_append, hlines]
    · have hak : a = k ++ below ks := by
        rw [← unlines_lines a, ha]
        rfl
      rw [ha, hak, above_cons, newline_above, List.append_assoc]

theorem exists_last {c : Char} {t : Text} (h : c ∈ t) : ∃ a b, t = a ++ c :: b ∧ c ∉ b := by
  obtain ⟨b, a, hab, hb⟩ := List.eq_append_cons_of_mem (List.mem_reverse.2 h)
  refine ⟨a.reverse, b.reverse, ?_, by simpa using hb⟩
  rw [← List.reverse_reverse t, hab]
  simp

variable {l : Text} {post : List Text}

/-- If no row starts with `=`, the key and `=` are on one row. -/
theorem idText_key (hl : '\n' ∉ l) (hpost : Unbroken post) {gap z : Text} (hgap : White gap)
    (htext : "id".toList ++ (gap ++ '=' :: z) = l ++ below post)
    (hequals : ∀ k ∈ post, ∀ w t, White w → k ≠ w ++ '=' :: t) :
    ∃ v, l = "id".toList ++ (gap ++ '=' :: v) ∧ z = v ++ below post := by
  have hline : '\n' ∉ gap := by
    intro hmem
    obtain ⟨a, b, rfl, hb⟩ := exists_last hmem
    obtain ⟨k, ks, hk⟩ := List.exists_cons_of_ne_nil (lines_ne_nil (b ++ '=' :: z))
    have hlines : l :: post = lines ("id".toList ++ a) ++ k :: ks := by
      have hunbroken : Unbroken (l :: post) := List.forall_mem_cons.2 ⟨hl, hpost⟩
      have hassoc : "id".toList ++ (a ++ '\n' :: b ++ '=' :: z) =
          ("id".toList ++ a) ++ '\n' :: (b ++ '=' :: z) := by simp
      rw [← hk, ← lines_append, ← hassoc, htext, ← lines_unlines hunbroken (List.cons_ne_nil _ _)]
      rfl
    have hmem : k ∈ post := by
      obtain ⟨x, xs, hx⟩ := List.exists_cons_of_ne_nil (lines_ne_nil ("id".toList ++ a))
      rw [hx, List.cons_append] at hlines
      rw [(List.cons.inj hlines).2]
      simp
    have hrow : b ++ '=' :: z = k ++ below ks := by
      rw [← unlines_lines (b ++ '=' :: z), hk]
      rfl
    have hpre : b ++ ['='] <+: k ++ below ks := by
      rw [← hrow]
      exact ⟨z, by simp⟩
    obtain ⟨t, ht⟩ := (prefix_append_below (by simp [hb])).1 hpre
    refine hequals k hmem b t (fun c hc => hgap c (by simp [hc])) ?_
    rw [← ht]
    simp
  have hpre : "id".toList ++ (gap ++ ['=']) <+: l ++ below post := by
    rw [← htext]
    exact ⟨z, by simp⟩
  obtain ⟨v, rfl⟩ := (prefix_append_below (by simp [hline])).1 hpre
  refine ⟨v, by simp, ?_⟩
  simpa using htext

/-- If no row is `id =` and white space, the number is on that row, too. -/
theorem idText_value {s₃ y v : Text} (hv : '\n' ∉ v) (hs₂ : White s₂)
    (hds : ∀ c ∈ ds, isDecimal c = true) (hs₃ : White s₃) (hy : y.head?.all (· == '\n') = true)
    (htext : s₂ ++ (ds ++ (s₃ ++ y)) = v ++ below post) (hempty : ∃ c ∈ v, Re.isWhite c = false) :
    ∃ s₃', White s₃' ∧ v = s₂ ++ (ds ++ s₃') := by
  have hline : '\n' ∉ s₂ := by
    intro hmem
    obtain ⟨a, b, rfl, ha⟩ := List.eq_append_cons_of_mem hmem
    have htake : v = a := by
      have hall : ∀ c ∈ a, (c != '\n') = true := fun c hc => by
        simpa using fun h : c = '\n' => ha (h ▸ hc)
      rw [← takeWhile_line hv post, ← htext, List.append_assoc, List.takeWhile_append_of_pos hall]
      simp
    obtain ⟨c, hc, hno⟩ := hempty
    rw [hs₂ c (by simp [← htake, hc])] at hno
    cases hno
  have hdigits : '\n' ∉ ds := by
    intro hmem
    have := decimal?_white (hds _ hmem)
    cases this
  have hpre : s₂ ++ ds <+: v ++ below post := by
    rw [← htext]
    exact ⟨s₃ ++ y, by simp⟩
  obtain ⟨s₃', rfl⟩ := (prefix_append_below (by simp [hline, hdigits])).1 hpre
  have hrest : s₃ ++ y = s₃' ++ below post := by simpa using htext
  refine ⟨s₃', fun c hc => ?_, by simp⟩
  rcases List.append_eq_append_iff.1 hrest with ⟨w, rfl, hw⟩ | ⟨w, rfl, -⟩
  · cases w with
    | nil => exact hs₃ c (by simpa using hc)
    | cons d w =>
      rw [hw] at hy
      obtain rfl : d = '\n' := by simpa using hy
      exact absurd (by simp) hv
  · exact hs₃ c (List.mem_append_left _ hc)

/-! ## The first row -/

theorem isIdLine_nil : isIdLine [] = false := rfl

/-- The first line of the number is found among the lines up to a bracket. -/
theorem firstId_rows {s : Toml.State} {p q : List Text} (hl : isIdLine l = true)
    (hp : ∀ k ∈ p, isIdLine k = false) (h : sectionRows post = p ++ l :: q) :
    ∃ r ∈ Toml.readLines s post, firstId false (Toml.readLines s post) = some r ∧ r.line = l := by
  induction post generalizing s p with
  | nil =>
    cases p <;> cases h
  | cons k post ih =>
    rw [sectionRows] at h
    rw [Toml.readLines, firstId]
    split at h
    · -- the row that is left of the bracket is empty
      have hmem : l ∈ [[]] := by
        rw [h]
        simp
      rw [List.mem_singleton.1 hmem, isIdLine_nil] at hl
      cases hl
    · rename_i hbracket
      rw [if_neg hbracket]
      cases p with
      | nil =>
        obtain ⟨rfl, -⟩ := List.cons.inj h
        refine ⟨_, List.mem_cons_self, ?_, rfl⟩
        exact if_pos hl
      | cons k' p =>
        obtain ⟨rfl, hrows⟩ := List.cons.inj h
        obtain ⟨hk, hp⟩ := List.forall_mem_cons.1 hp
        obtain ⟨r, hr, hfirst, hline⟩ := @ih (Toml.readLine s k).2 p hp hrows
        refine ⟨r, List.mem_cons_of_mem _ hr, ?_, hline⟩
        rw [← hfirst]
        exact if_neg (by simpa using hk)

/-- The same when the blanks before the first row that is not white are gone. -/
theorem firstId_trimRows {s : Toml.State} {p q : List Text} (hl : isIdLine l = true)
    (hp : ∀ k ∈ p, isIdLine k = false) (h : trimRows (sectionRows post) = p ++ l :: q) :
    ∃ r ∈ Toml.readLines s post, firstId true (Toml.readLines s post) = some r ∧
      ∃ w, White w ∧ r.line = w ++ l := by
  have hnil : ∀ {p : List Text}, ¬[[]] = p ++ l :: q := by
    intro p h
    have hmem : l ∈ [[]] := by
      rw [h]
      simp
    rw [List.mem_singleton.1 hmem, isIdLine_nil] at hl
    cases hl
  induction post generalizing s p with
  | nil => exact absurd h hnil
  | cons k post ih =>
    rw [sectionRows] at h
    rw [Toml.readLines, firstId]
    split at h
    · exact absurd h hnil
    · rename_i hbracket
      rw [if_neg hbracket]
      rw [trimRows] at h
      split at h
      · rename_i hwhite
        have hno : isIdLine (k.dropWhile Re.isWhite) = false := by
          rw [List.dropWhile_eq_nil_iff.2 (List.all_eq_true.1 hwhite)]
          rfl
        obtain ⟨r, hr, hfirst, hline⟩ := @ih (Toml.readLine s k).2 p hp h
        refine ⟨r, List.mem_cons_of_mem _ hr, ?_, hline⟩
        rw [← hfirst, hwhite]
        exact if_neg (by simpa using hno)
      · rename_i hwhite
        cases p with
        | nil =>
          obtain ⟨rfl, -⟩ := List.cons.inj h
          refine ⟨_, List.mem_cons_self, if_pos hl, k.takeWhile Re.isWhite,
            fun c hc => List.mem_takeWhile_imp hc, ?_⟩
          exact List.takeWhile_append_dropWhile.symm
        | cons k' p =>
          obtain ⟨rfl, hrows⟩ := List.cons.inj h
          obtain ⟨hk, hp⟩ := List.forall_mem_cons.1 hp
          obtain ⟨r, hr, hfirst, hline⟩ := @firstId_rows l post (Toml.readLine s k).2 p q hl hp hrows
          refine ⟨r, List.mem_cons_of_mem _ hr, ?_, [], List.forall_mem_nil _, hline⟩
          rw [← hfirst, Bool.eq_false_iff.2 hwhite]
          exact if_neg (by simpa using hk)

theorem unbroken_trimRows (h : Unbroken rows) : Unbroken (trimRows rows) := by
  induction rows with
  | nil => exact List.forall_mem_singleton.2 List.not_mem_nil
  | cons l rows ih =>
    obtain ⟨hl, h⟩ := List.forall_mem_cons.1 h
    rw [trimRows]
    split
    · exact ih h
    · exact List.forall_mem_cons.2 ⟨fun hmem => hl ((List.dropWhile_sublist _).subset hmem), h⟩

theorem trimRows_ne_nil (rows : List Text) : trimRows rows ≠ [] := by
  induction rows with
  | nil => exact List.cons_ne_nil _ _
  | cons l rows ih =>
    rw [trimRows]
    split
    · exact ih
    · exact List.cons_ne_nil _ _

/-- A row is empty or the end of a line, and only the first one is not the whole line. -/
theorem mem_sectionRows {k : Text} (h : k ∈ sectionRows post) : k ∈ post ∨ k = [] := by
  induction post with
  | nil => cases h
  | cons l post ih =>
    rw [sectionRows] at h
    split at h
    · exact .inr (List.mem_singleton.1 h)
    · rcases List.mem_cons.1 h with rfl | h
      · exact .inl List.mem_cons_self
      · exact (ih h).imp_left (List.mem_cons_of_mem _)

theorem trimRows_split {k : Text} (h : trimRows rows = p ++ k :: q) :
    (∀ k' ∈ q, k' ∈ rows.tail) ∧
      (k = [] ∨ ∃ w, White w ∧ w ++ k ∈ rows) := by
  induction rows with
  | nil =>
    rcases List.append_eq_singleton_iff.1 h.symm with ⟨-, hk⟩ | ⟨-, hk⟩
    · obtain ⟨rfl, rfl⟩ := List.cons.inj hk
      exact ⟨List.forall_mem_nil _, .inl rfl⟩
    · cases hk
  | cons l rows ih =>
    rw [trimRows] at h
    split at h
    · obtain ⟨hq, hk⟩ := ih h
      refine ⟨fun k' hk' => List.mem_of_mem_tail (hq k' hk'), hk.imp_right fun hw => ?_⟩
      obtain ⟨w, hw, hmem⟩ := hw
      exact ⟨w, hw, List.mem_cons_of_mem _ hmem⟩
    · cases p with
      | nil =>
        obtain ⟨rfl, rfl⟩ := List.cons.inj h
        refine ⟨fun k' hk' => hk',
          .inr ⟨l.takeWhile Re.isWhite, fun c hc => List.mem_takeWhile_imp hc, ?_⟩⟩
        rw [List.takeWhile_append_dropWhile]
        exact List.mem_cons_self
      | cons k' p =>
        obtain ⟨-, rfl⟩ := List.cons.inj h
        refine ⟨fun k' hk' => ?_, .inr ⟨[], List.forall_mem_nil _, ?_⟩⟩
        · exact List.mem_append_right _ (List.mem_cons_of_mem _ hk')
        · exact List.mem_cons_of_mem _ (by simp)

theorem atLine_above (ks : List Text) : AtLine (above ks).reverse := by
  rcases List.eq_nil_or_concat' ks with rfl | ⟨ks, k, rfl⟩
  · rfl
  · rw [above_append, above_cons, above_nil]
    simp [AtLine]

/-- The match of the pattern starts with a row, and no row before it is a line of the number. -/
theorem row_of_group1 (hrows : Unbroken rows) (hne : rows ≠ [])
    (h : group1 idPattern (unlines rows) = some ds) :
    ∃ p k q, rows = p ++ k :: q ∧ (∀ k' ∈ p, isIdLine k' = false) ∧
      ∃ s₁ s₂ s₃ y, IdParts s₁ s₂ ds s₃ ∧ y.head?.all (· == '\n') = true ∧
        idText s₁ s₂ ds s₃ ++ y = k ++ below q := by
  obtain ⟨⟨start, e⟩, hsearch, hgroup⟩ := Option.map_eq_some_iff.1 h
  obtain ⟨x, y, g, htext, hm, rfl⟩ := search_some hsearch
  obtain ⟨hstart, hy, s₁, s₂, ds', s₃, hparts, rfl, rfl⟩ := matches_idPattern_iff.1 hm
  obtain rfl : ds = ds' := hgroup.symm
  obtain ⟨p, k, q, rfl, rfl, hrow⟩ := rows_at hrows hne htext hstart
  refine ⟨p, k, q, rfl, fun k' hk' => ?_, s₁, s₂, s₃, y, hparts, hy, hrow⟩
  rw [Bool.eq_false_iff]
  intro hid
  obtain ⟨t₁, t₂, ds', t₃, hparts', rfl⟩ := isIdLine_iff.1 hid
  obtain ⟨p₁, p₂, rfl⟩ := List.append_of_mem hk'
  have hsplit : above (p₁ ++ idText t₁ t₂ ds' t₃ :: p₂) =
      above p₁ ++ (idText t₁ t₂ ds' t₃ ++ '\n' :: above p₂) := by
    rw [above_append, above_cons]
  rw [htext, hsplit] at hsearch
  refine search_first hsearch (by simp) (x := idText t₁ t₂ ds' t₃)
    (y := '\n' :: above p₂ ++ (idText s₁ s₂ ds s₃ ++ y)) (g := [(1, ds')]) (by simp) ?_
  exact matches_idPattern_iff.2 ⟨atLine_above p₁, rfl, t₁, t₂, ds', t₃, hparts', rfl, rfl⟩

theorem findVmId_ok {text : Text} {n : Nat} (h : findVmId text = .ok n) :
    ∃ base ds, group1 (sectionPattern "[base]") text = some base ∧
      group1 idPattern base = some ds ∧ intOfDigits ds = some n := by
  unfold findVmId at h
  split at h
  · cases h
  · rename_i base hbase
    split at h
    · cases h
    · rename_i ds hds
      split at h
      · cases h
      · rename_i m hm
        cases h
        exact ⟨base, ds, hbase, hds, hm⟩

/-- Where a row of the section stands in the config, if it starts with `id =`. -/
theorem row_mem {u k gap v : Text} (h : Toml.Accepted (pre ++ ("[base]" ++ u) :: post))
    (hrow : trimRows (u :: sectionRows post) = p ++ k :: q) (hgap : White gap)
    (hk : k = "id" ++ (gap ++ '=' :: v)) :
    ∃ w, White w ∧ w ++ k ∈ post ∧
      ((isWhiteLine u = true ∧ trimRows (sectionRows post) = p ++ k :: q) ∨
        isWhiteLine u = false ∧ ∃ k' p', p = k' :: p' ∧ sectionRows post = p' ++ k :: q) := by
  have hne : k ≠ [] := by
    rw [hk]
    exact List.cons_ne_nil _ _
  have hmem : ∀ {w}, w ++ k ∈ sectionRows post → w ++ k ∈ post := fun hw =>
    (mem_sectionRows hw).resolve_right fun hnil => hne (List.append_eq_nil_iff.1 hnil).2
  rw [trimRows] at hrow
  split at hrow
  · rename_i hu
    obtain ⟨w, hw, hwk⟩ := (trimRows_split hrow).2.resolve_left hne
    exact ⟨w, hw, hmem hwk, .inl ⟨hu, hrow⟩⟩
  · rename_i hu
    cases p with
    | nil =>
      -- the row is the rest of the header line
      obtain ⟨hkey, -⟩ := List.cons.inj hrow
      refine absurd ?_ (not_base_idLine h (w := u.takeWhile Re.isWhite)
        (fun c hc => List.mem_takeWhile_imp hc) hgap v)
      rw [← hk, ← hkey, List.takeWhile_append_dropWhile]
      exact List.mem_append_right _ List.mem_cons_self
    | cons k' p =>
      obtain ⟨-, hrows⟩ := List.cons.inj hrow
      refine ⟨[], List.forall_mem_nil _, hmem ?_, .inr ⟨Bool.eq_false_iff.2 hu, k', p, rfl, hrows⟩⟩
      rw [hrows]
      simp

theorem unbroken_rows {u : Text} (hls : Unbroken (pre ++ ("[base]" ++ u) :: post)) :
    Unbroken (trimRows (u :: sectionRows post)) := by
  obtain ⟨hline, hpost⟩ := List.forall_mem_cons.1 fun k hk => hls k (List.mem_append_right pre hk)
  exact unbroken_trimRows (List.forall_mem_cons.2
    ⟨fun hmem => hline (List.mem_append_right _ hmem), unbroken_sectionRows hpost⟩)

theorem idText_row {u k s₁ s₃ y : Text} (hls : Unbroken (pre ++ ("[base]" ++ u) :: post))
    (h : Toml.Accepted (pre ++ ("[base]" ++ u) :: post))
    (hrow : trimRows (u :: sectionRows post) = p ++ k :: q) (hparts : IdParts s₁ s₂ ds s₃)
    (hy : y.head?.all (· == '\n') = true) (htext : idText s₁ s₂ ds s₃ ++ y = k ++ below q) :
    ∃ t₃, IdParts s₁ s₂ ds t₃ ∧ k = idText s₁ s₂ ds t₃ := by
  have hrows := unbroken_rows hls
  rw [hrow] at hrows
  have hk : '\n' ∉ k := hrows k (by simp)
  have hq : Unbroken q := fun k' hk' => hrows k' (by simp [hk'])
  have hequals : ∀ k' ∈ q, ∀ w t, White w → k' ≠ w ++ '=' :: t := by
    rintro k' hk' w t hw rfl
    rcases mem_sectionRows ((trimRows_split hrow).1 _ hk') with hmem | hnil
    · exact not_equals_line h hw t (List.mem_append_right _ (List.mem_cons_of_mem _ hmem))
    · exact absurd (List.append_eq_nil_iff.1 hnil).2 (List.cons_ne_nil _ _)
  obtain ⟨v, hkv, hv⟩ := idText_key hk hq hparts.gap (by simpa [idText] using htext) hequals
  obtain ⟨w, hw, hmem, -⟩ := row_mem h hrow hparts.gap hkv
  have hempty : ∃ c ∈ v, Re.isWhite c = false := by
    by_contra hall
    push Not at hall
    refine not_empty_idLine h hw hparts.gap (fun c hc => by simpa using hall c hc) ?_
    rw [← hkv]
    exact List.mem_append_right _ (List.mem_cons_of_mem _ hmem)
  obtain ⟨t₃, ht₃, rfl⟩ := idText_value (fun hmem => hk (by simp [hkv, hmem])) hparts.indent
    hparts.digits hparts.rest hy hv hempty
  exact ⟨t₃, ⟨hparts.gap, hparts.indent, hparts.ne_nil, hparts.digits, ht₃⟩, hkv⟩

/-- The first row of the number is the one of the line that `idReading` finds. -/
theorem idReading_row {u s₁ s₃ : Text} (h : Toml.Accepted (pre ++ ("[base]" ++ u) :: post))
    (hpre : ∀ k ∈ pre, isBaseLine k = false) (hparts : IdParts s₁ s₂ ds s₃)
    (hrow : trimRows (u :: sectionRows post) = p ++ idText s₁ s₂ ds s₃ :: q)
    (hfirst : ∀ k ∈ p, isIdLine k = false) :
    ∃ r ∈ Toml.readings (pre ++ ("[base]" ++ u) :: post),
      idReading (Toml.readings (pre ++ ("[base]" ++ u) :: post)) = some r ∧
        ∃ w, White w ∧ r.line = w ++ idText s₁ s₂ ds s₃ := by
  have hid : isIdLine (idText s₁ s₂ ds s₃) = true := isIdLine_iff.2 ⟨s₁, s₂, ds, s₃, hparts, rfl⟩
  have hbefore : ∀ r ∈ Toml.readings pre, isBaseLine r.line = false := by
    intro r hr
    refine hpre r.line ?_
    rw [← Toml.map_line_readLines Toml.start pre]
    exact List.mem_map_of_mem hr
  have hbase : isBaseLine ("[base]" ++ u) = true :=
    List.isPrefixOf_iff_prefix.2 (List.prefix_append _ _)
  have hreading : idReading (Toml.readings (pre ++ ("[base]" ++ u) :: post)) =
      firstId (isWhiteLine u) (Toml.readLines
        (Toml.readLine (Toml.start.after pre) ("[base]" ++ u)).2 post) := by
    rw [Toml.readings_around, idReading_append hbefore, idReading]
    exact if_pos hbase
  obtain ⟨r, hr, hfound, hline⟩ : ∃ r ∈ Toml.readLines
      (Toml.readLine (Toml.start.after pre) ("[base]" ++ u)).2 post,
      idReading (Toml.readings (pre ++ ("[base]" ++ u) :: post)) = some r ∧
        ∃ w, White w ∧ r.line = w ++ idText s₁ s₂ ds s₃ := by
    obtain ⟨-, -, -, ⟨hu, htrim⟩ | ⟨hu, k', p', rfl, hsection⟩⟩ := row_mem h hrow hparts.gap rfl
    · rw [hreading, hu]
      exact firstId_trimRows hid hfirst htrim
    · rw [hreading, hu]
      obtain ⟨r, hr, hfound, hline⟩ :=
        firstId_rows hid (fun k hk => hfirst k (List.mem_cons_of_mem _ hk)) hsection
      exact ⟨r, hr, hfound, [], List.forall_mem_nil _, hline⟩
  refine ⟨r, ?_, hfound, hline⟩
  rw [Toml.readings_around]
  exact List.mem_append_right _ (List.mem_cons_of_mem _ hr)

/-- **The number is found on a line `id = …`** of an accepted config, and it is the integer that TOML
reads there. -/
theorem idReading_of_findVmId (hls : Unbroken ls) (hne : ls ≠ []) (h : Toml.Accepted ls) {n : Nat}
    (hn : findVmId (unlines ls) = .ok n) :
    ∃ r ∈ Toml.readings ls, idReading (Toml.readings ls) = some r ∧
      r.role.isPair "id" = true ∧ Toml.intValue r.line = some (n : Int) := by
  obtain ⟨base, ds, hbase, hds, hint⟩ := findVmId_ok hn
  rw [group1_section (by decide) (by decide) hls hne] at hbase
  obtain ⟨⟨pre, l, post⟩, hsplit, rfl⟩ := Option.map_eq_some_iff.1 hbase
  obtain ⟨rfl, hl, hpre⟩ := splitAtFirst_some hsplit
  obtain ⟨u, rfl⟩ := List.isPrefixOf_iff_prefix.1 hl
  rw [List.drop_left] at hds
  obtain ⟨p, k, q, hrow, hfirst, s₁, s₂, s₃, y, hparts, hy, htext⟩ :=
    row_of_group1 (unbroken_rows hls) (trimRows_ne_nil _) hds
  obtain ⟨t₃, hparts', rfl⟩ := idText_row hls h hrow hparts hy htext
  obtain ⟨r, hr, hfound, w, hw, hline⟩ := idReading_row h hpre hparts' hrow hfirst
  obtain ⟨s, hs, heq, hbad, hvalue⟩ := read_of_mem h hr
  rw [hline] at hbad hvalue
  obtain ⟨hpair, hnumber⟩ := read_idLine hs hw hparts' hbad hvalue
  refine ⟨r, hr, hfound, ?_, ?_⟩
  · rw [heq, hline]
    exact hpair
  · rw [hline]
    exact hnumber n hint

end Gen.StaticConfig
