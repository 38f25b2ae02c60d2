import AxvisorTools.Toml.Proof.Read

/-!
# Setting a key by editing one line

`setsOnce_insert_iff` and `setsOnce_replace_iff` say when the insertion of a line `key = "value"`,
or its exchange for another line that starts with `key = "`, sets the key exactly once.
-/

namespace Toml

variable {table : List Text} {key value : Text} {r : Reading} {pre post : List Text}

/-! ## Documents around one line -/

theorem readLines_append (s : State) (ks ls : List Text) :
    readLines s (ks ++ ls) = readLines s ks ++ readLines (s.after ks) ls := by
  induction ks generalizing s with
  | nil => rfl
  | cons k ks ih => simp [readLines, ih, State.after]

theorem after_cons (s : State) (l : Text) (ls : List Text) :
    s.after (l :: ls) = (readLine s l).2.after ls := rfl

theorem after_append (s : State) (ks ls : List Text) :
    s.after (ks ++ ls) = (s.after ks).after ls := by
  simp [State.after]

theorem map_line_readLines (s : State) (ls : List Text) :
    (readLines s ls).map (·.line) = ls := by
  induction ls generalizing s with
  | nil => rfl
  | cons l ls ih => simp [readLines, ih]

/-- The reading of one line of a document. -/
def readingAt (pre : List Text) (l : Text) : Reading :=
  ⟨(start.after pre).table, l, (readLine (start.after pre) l).1⟩

theorem readings_around (pre : List Text) (l : Text) (post : List Text) :
    readings (pre ++ l :: post) =
      readings pre ++ readingAt pre l :: readLines (readLine (start.after pre) l).2 post :=
  readLines_append start pre (l :: post)

/-- The lines of some readings that do not define `key`. -/
def keep (table : List Text) (key : Text) (rs : List Reading) : List Text :=
  (rs.filter fun r => !r.defines table key).map (·.line)

theorem keep_append (rs rs' : List Reading) :
    keep table key (rs ++ rs') = keep table key rs ++ keep table key rs' := by
  simp [keep]

theorem keep_cons_of_defines (h : r.defines table key = true) (rs : List Reading) :
    keep table key (r :: rs) = keep table key rs := by
  simp [keep, h]

theorem keep_cons_of_not (h : r.defines table key = false) (rs : List Reading) :
    keep table key (r :: rs) = r.line :: keep table key rs := by
  simp [keep, h]

theorem length_keep (table : List Text) (key : Text) (rs : List Reading) :
    (keep table key rs).length + (rs.filter (·.defines table key)).length = rs.length := by
  induction rs with
  | nil => rfl
  | cons r rs ih =>
    cases h : r.defines table key with
    | true => simp only [keep_cons_of_defines h, List.filter_cons, h, if_true, List.length_cons]; omega
    | false => simp only [keep_cons_of_not h, List.filter_cons, h, Bool.false_eq_true, if_false,
        List.length_cons]; omega

theorem keep_of_no_definition {s : State} {ls : List Text}
    (h : (readLines s ls).filter (·.defines table key) = []) :
    keep table key (readLines s ls) = ls := by
  have hall : ∀ r ∈ readLines s ls, (!r.defines table key) = true := fun r hr => by
    have := List.filter_eq_nil_iff.1 h r hr
    simpa using this
  rw [keep, List.filter_eq_self.2 hall, map_line_readLines]

theorem others_eq_keep (ls : List Text) : others table key ls = keep table key (readings ls) := rfl

/-! ## The line `key = "value"` -/

/-- Only a pair of the table with a key that starts with `key` defines it. -/
theorem defines_cases (h : r.defines table key = true) :
    r.table = table ∧ ∃ ks v, r.role = .entry (key :: ks) v := by
  unfold Reading.defines at h
  split at h
  · rename_i k ks v hr
    simp only [Bool.and_eq_true, beq_iff_eq] at h
    obtain ⟨ht, rfl⟩ := h
    exact ⟨ht, ks, v, hr⟩
  · cases h

theorem chomp_quote (t : Text) : chomp (t ++ ['"']) = t ++ ['"'] := by
  simp [chomp]

/-- A line that starts with `key = "` and ends in a quote. -/
def IsPairLine (key l : Text) : Prop := ∃ m, l = stringPair key m

theorem place_of_defines {l : Text} (hq : '"' ∉ key) (hl : IsPairLine key l)
    (h : (readingAt pre l).defines table key = true) :
    start.after pre = ⟨table, []⟩ ∧ IsBareKey key := by
  obtain ⟨ht, ks, v, hr⟩ := defines_cases h
  obtain ⟨m, rfl⟩ := hl
  have hline : stringPair key m = key ++ " =" ++ (" \"" ++ m ++ ['"']) := by
    simp [stringPair]
  have hchomp := chomp_quote (key ++ " = \"" ++ m)
  change chomp (stringPair key m) = stringPair key m at hchomp
  rw [hline] at hchomp
  have hr : (readLine (start.after pre) (stringPair key m)).1 = .entry (key :: ks) v := hr
  rw [hline] at hr
  obtain ⟨hn, hk⟩ := bare_of_entry hq hchomp hr
  have ht : (start.after pre).table = table := ht
  refine ⟨?_, hk⟩
  rw [← ht, ← hn]

/-- At such a place the line is a pair with a string, or not TOML at all. -/
theorem readLine_pairLine (table : List Text) {l : Text} (hk : IsBareKey key) (hl : IsPairLine key l) :
    (∃ w, readLine ⟨table, []⟩ l = (.entry [key] (.string w), ⟨table, []⟩)) ∨
      readLine ⟨table, []⟩ l = (.bad, ⟨table, []⟩) := by
  obtain ⟨m, rfl⟩ := hl
  have hpair := readLine_pair (s := ⟨table, []⟩) rfl hk (m ++ ['"'])
    (by rw [← List.append_assoc]; exact chomp_quote _)
  rw [← List.append_assoc] at hpair
  change readLine ⟨table, []⟩ (stringPair key m) = _ at hpair
  rw [hpair]
  cases hr : readBasic (m ++ ['"']) with
  | none => exact .inr rfl
  | some r =>
    simp only [endString, Option.bind_some]
    by_cases he : atEnd r.2 = true
    · exact .inl ⟨r.1, by simp [he]⟩
    · exact .inr (by simp [he])

theorem readLine_stringPair (table : List Text) (hk : IsBareKey key) (hq : '"' ∉ value) (hb : '\\' ∉ value)
    (hv : IsStringText value) :
    readLine ⟨table, []⟩ (stringPair key value) =
      (.entry [key] (.string value), ⟨table, []⟩) := by
  have hpair := readLine_pair (s := ⟨table, []⟩) rfl hk (value ++ ['"'])
    (by rw [← List.append_assoc]; exact chomp_quote _)
  rw [← List.append_assoc, readBasic_text hq hb hv []] at hpair
  exact hpair

theorem text_of_stringPair (hk : IsBareKey key) (hq : '"' ∉ value) (hb : '\\' ∉ value)
    (h : (readLine ⟨table, []⟩ (stringPair key value)).1 ≠ .bad) : IsStringText value := by
  have hpair := readLine_pair (s := ⟨table, []⟩) rfl hk (value ++ ['"'])
    (by rw [← List.append_assoc]; exact chomp_quote _)
  rw [← List.append_assoc] at hpair
  change readLine ⟨table, []⟩ (stringPair key value) = _ at hpair
  cases hr : readBasic (value ++ ['"']) with
  | none =>
    rw [hpair, hr] at h
    exact absurd rfl h
  | some r => exact text_of_readBasic hq hb hr

/-! ## Inserting the line -/

theorem wellRead_around {l : Text} (hw : WellRead (pre ++ l :: post)) :
    (readLine (start.after pre) l).1 ≠ .bad :=
  hw.1 (readingAt pre l) (by rw [readings_around]; simp)

theorem defines_pair (l : Text) (v : Value) :
    Reading.defines table key ⟨table, l, .entry [key] v⟩ = true := by
  simp [Reading.defines]

theorem filter_defines_cons (l : Text) (v : Value) (rs : List Reading) :
    List.filter (·.defines table key) (⟨table, l, .entry [key] v⟩ :: rs) =
      ⟨table, l, .entry [key] v⟩ :: rs.filter (·.defines table key) :=
  List.filter_cons_of_pos (defines_pair l v)

theorem not_opens_pair {path ks : List Text} {v : Value} (hr : r.role = .entry ks v) :
    ¬r.opens path = true := by
  simp [Reading.opens, hr]

/-- An inserted line that is not itself the definition leaves the other lines different. -/
theorem defines_of_insert {new : Text} (hnew : post.head? ≠ some new)
    (h : SetsOnce table key value (pre ++ post) (pre ++ new :: post)) :
    (readingAt pre new).defines table key = true := by
  by_contra hnot
  simp only [Bool.not_eq_true] at hnot
  have hother := h.others
  rw [others_eq_keep, others_eq_keep, readings_around, keep_append, keep_cons_of_not hnot, readings,
    readings, readLines_append, keep_append] at hother
  have hpost : new :: keep table key (readLines (readLine (start.after pre) new).2 post) =
      keep table key (readLines (start.after pre) post) := List.append_cancel_left hother
  have hone := congrArg List.length h.once.1
  rw [definitions, readings_around, List.filter_append, List.filter_cons, hnot] at hone
  simp only [Bool.false_eq_true, if_false, List.map_append, List.length_append, List.length_map,
    List.length_singleton] at hone
  have hlen := congrArg List.length hpost
  rw [List.length_cons] at hlen
  have h1 := length_keep table key (readLines (readLine (start.after pre) new).2 post)
  have h2 := length_keep table key (readLines (start.after pre) post)
  have l1 := congrArg List.length (map_line_readLines (readLine (start.after pre) new).2 post)
  have l2 := congrArg List.length (map_line_readLines (start.after pre) post)
  rw [List.length_map] at l1 l2
  have hnil : (readLines (start.after pre) post).filter (·.defines table key) = [] :=
    List.length_eq_zero_iff.1 (by omega)
  rw [keep_of_no_definition hnil] at hpost
  exact hnew (by rw [← hpost]; rfl)

/-- **Inserting a definition** sets the key exactly once when the line lands in the table, outside
every value, and the table did not have the key. -/
theorem setsOnce_insert_iff (hqk : '"' ∉ key) (hqv : '"' ∉ value) (hbv : '\\' ∉ value)
    (hw : WellRead (pre ++ post)) (hnew : post.head? ≠ some (stringPair key value)) :
    SetsOnce table key value (pre ++ post) (pre ++ stringPair key value :: post) ↔
      start.after pre = ⟨table, []⟩ ∧ IsBareKey key ∧ IsStringText value ∧
        definitions table key (pre ++ post) = [] ∧ NoSubtable table key (pre ++ post) := by
  -- at the right place the new line changes nothing for the lines after it
  have hread : start.after pre = ⟨table, []⟩ → IsBareKey key → IsStringText value →
      readings (pre ++ stringPair key value :: post) = readings pre ++
        ⟨table, stringPair key value, .entry [key] (.string value)⟩ ::
          readLines (start.after pre) post := by
    intro hs hk hv
    rw [readings_around, readingAt, hs, readLine_stringPair table hk hqv hbv hv]
  have hold : readings (pre ++ post) = readings pre ++ readLines (start.after pre) post :=
    readLines_append _ _ _
  constructor
  · intro h
    obtain ⟨hs, hk⟩ := place_of_defines hqk ⟨value, rfl⟩ (defines_of_insert hnew h)
    have hv : IsStringText value := by
      have hbad := wellRead_around h.wellRead
      rw [hs] at hbad
      exact text_of_stringPair hk hqv hbv hbad
    refine ⟨hs, hk, hv, ?_, fun r hr => h.once.2 r ?_⟩
    · have hone := congrArg List.length h.once.1
      rw [definitions, hread hs hk hv, List.filter_append,
        filter_defines_cons] at hone
      simp only [List.map_append, List.map_cons, List.length_append, List.length_cons,
        List.length_map, List.length_nil] at hone
      rw [definitions, hold, List.filter_append, List.append_eq_nil_iff]
      exact ⟨List.length_eq_zero_iff.1 (by omega), List.length_eq_zero_iff.1 (by omega)⟩
    · rw [hold, List.mem_append] at hr
      rw [hread hs hk hv, List.mem_append, List.mem_cons]
      exact hr.imp_right .inr
  · rintro ⟨hs, hk, hv, hdef, hsub⟩
    rw [definitions, hold, List.filter_append, List.append_eq_nil_iff] at hdef
    have hmem : ∀ r ∈ readings (pre ++ stringPair key value :: post),
        r ∈ readings (pre ++ post) ∨ r.role = .entry [key] (.string value) := by
      intro r hr
      rw [hread hs hk hv, List.mem_append, List.mem_cons] at hr
      rw [hold, List.mem_append]
      rcases hr with hr | rfl | hr
      · exact .inl (.inl hr)
      · exact .inr rfl
      · exact .inl (.inr hr)
    refine ⟨⟨fun r hr => ?_, ?_⟩, ⟨?_, fun r hr => ?_⟩, ?_⟩
    · rcases hmem r hr with h | h
      · exact hw.1 r h
      · rw [h]
        exact Role.noConfusion
    · rw [after_append, after_cons, hs, readLine_stringPair table hk hqv hbv hv, ← hs, ← after_append]
      exact hw.2
    · rw [definitions, hread hs hk hv, List.filter_append,
        filter_defines_cons, hdef.1, hdef.2]
      rfl
    · rcases hmem r hr with h | h
      · exact hsub r h
      · exact not_opens_pair h
    · rw [others_eq_keep, others_eq_keep, hread hs hk hv, hold, keep_append, keep_append,
        keep_cons_of_defines (defines_pair _ _)]

/-! ## Exchanging the line -/

theorem not_clash {r' : Reading} {v : Value} (ht : r.table = table) (hr : r.role = .entry [key] v)
    (h : ¬clash table r r' = true ∨ ¬clash table r' r = true) :
    r'.defines table key = false ∧ ¬r'.opens (table ++ [key]) = true := by
  simp only [clash, hr, ht, if_true, Option.any_some, Bool.or_eq_true, not_or] at h
  rcases h with h | h
  · exact ⟨by simpa using h.1.1, h.1.2⟩
  · exact ⟨by simpa using h.2.1, h.2.2⟩

/-- The lines around a plain definition neither define the key nor open a table for it. -/
theorem around_definition {old : Text} {v : Value} (hvalid : Valid table (pre ++ old :: post))
    (hs : start.after pre = ⟨table, []⟩)
    (hold : readLine ⟨table, []⟩ old = (.entry [key] v, ⟨table, []⟩)) :
    ∀ r ∈ readings pre ++ readLines ⟨table, []⟩ post,
      r.defines table key = false ∧ ¬r.opens (table ++ [key]) = true := by
  have hu := hvalid.unique
  have hat : readingAt pre old = ⟨table, old, .entry [key] v⟩ := by rw [readingAt, hs, hold]
  rw [readings_around, hs, hold, hat, List.pairwise_append, List.pairwise_cons] at hu
  obtain ⟨-, ⟨hafter, -⟩, hbefore⟩ := hu
  intro r hr
  rcases List.mem_append.1 hr with hr | hr
  · exact not_clash rfl rfl (.inr (hbefore r hr _ List.mem_cons_self))
  · exact not_clash rfl rfl (.inl (hafter r hr))

/-- **Exchanging a definition** sets the key exactly once when the line lies in the table, or when
nothing changes and the key is already set. -/
theorem setsOnce_replace_iff {old : Text} (hqk : '"' ∉ key) (hqv : '"' ∉ value) (hbv : '\\' ∉ value)
    (hvalid : Valid table (pre ++ old :: post)) (hold : IsPairLine key old) :
    SetsOnce table key value (pre ++ old :: post) (pre ++ stringPair key value :: post) ↔
      (start.after pre = ⟨table, []⟩ ∧ IsBareKey key ∧ IsStringText value) ∨
        (old = stringPair key value ∧ DefinesOnce table key value (pre ++ old :: post)) := by
  constructor
  · intro h
    by_cases hdef : (readingAt pre old).defines table key = true ∨
        (readingAt pre (stringPair key value)).defines table key = true
    · obtain ⟨hs, hk⟩ := hdef.elim (place_of_defines hqk hold) (place_of_defines hqk ⟨value, rfl⟩)
      have hbad := wellRead_around h.wellRead
      rw [hs] at hbad
      exact .inl ⟨hs, hk, text_of_stringPair hk hqv hbv hbad⟩
    · -- neither line defines the key, so both stay among the other lines
      simp only [not_or, Bool.not_eq_true] at hdef
      have hother := h.others
      rw [others_eq_keep, others_eq_keep, readings_around, readings_around, keep_append, keep_append,
        keep_cons_of_not hdef.1, keep_cons_of_not hdef.2] at hother
      have heq : stringPair key value = old := (List.cons.inj (List.append_cancel_left hother)).1
      have honce := h.once
      rw [heq] at honce
      exact .inr ⟨heq.symm, honce⟩
  · rintro (⟨hs, hk, hv⟩ | ⟨rfl, honce⟩)
    · have hbad := wellRead_around hvalid.wellRead
      rw [hs] at hbad
      obtain ⟨w, hw⟩ : ∃ w, readLine ⟨table, []⟩ old = (.entry [key] (.string w), ⟨table, []⟩) := by
        rcases readLine_pairLine table hk hold with h | h
        · exact h
        · rw [h] at hbad
          exact absurd rfl hbad
      have haround := around_definition hvalid hs hw
      have hnew := readLine_stringPair table hk hqv hbv hv
      have hread : readings (pre ++ stringPair key value :: post) = readings pre ++
          ⟨table, stringPair key value, .entry [key] (.string value)⟩ ::
            readLines ⟨table, []⟩ post := by
        rw [readings_around, readingAt, hs, hnew]
      have hreadOld : readings (pre ++ old :: post) = readings pre ++
          ⟨table, old, .entry [key] (.string w)⟩ :: readLines ⟨table, []⟩ post := by
        rw [readings_around, readingAt, hs, hw]
      have hnone : ∀ rs : List Reading, rs <:+: readings pre ++ readLines ⟨table, []⟩ post →
          rs.filter (·.defines table key) = [] := fun rs hrs =>
        List.filter_eq_nil_iff.2 fun r hr => by simp [(haround r (hrs.subset hr)).1]
      refine ⟨⟨fun r hr => ?_, ?_⟩, ⟨?_, fun r hr => ?_⟩, ?_⟩
      · rw [hread, List.mem_append, List.mem_cons] at hr
        rcases hr with hr | rfl | hr
        · exact hvalid.wellRead.1 r (by rw [hreadOld]; simp [hr])
        · exact Role.noConfusion
        · exact hvalid.wellRead.1 r (by rw [hreadOld]; simp [hr])
      · have hend := hvalid.wellRead.2
        rw [after_append, after_cons, hs, hw] at hend
        rw [after_append, after_cons, hs, hnew]
        exact hend
      · rw [definitions, hread, List.filter_append, filter_defines_cons,
          hnone _ (List.prefix_append _ _).isInfix, hnone _ (List.suffix_append _ _).isInfix]
        rfl
      · rw [hread, List.mem_append, List.mem_cons] at hr
        rcases hr with hr | rfl | hr
        · exact (haround r (List.mem_append_left _ hr)).2
        · exact not_opens_pair rfl
        · exact (haround r (List.mem_append_right _ hr)).2
      · rw [others_eq_keep, others_eq_keep, hread, hreadOld, keep_append, keep_append,
          keep_cons_of_defines (defines_pair _ _), keep_cons_of_defines (defines_pair _ _)]
    · exact ⟨hvalid.wellRead, honce, rfl⟩

end Toml
