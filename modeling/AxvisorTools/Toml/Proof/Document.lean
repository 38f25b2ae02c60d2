import AxvisorTools.Toml.Document
import AxvisorTools.Toml.Proof.Array

/-!
# Editing an accepted document

A line `key = "…"` never changes what the reader makes of the other lines (`readLine_pairLine_cases`):
inside an array it is no TOML, and elsewhere it is a pair or no TOML. So the document stays accepted
under the insertion of such a line exactly when the line lands outside every value and defines nothing a
second time (`accepted_insert_iff`), and under its exchange when the new line can be read
(`accepted_replace_iff`).
-/

namespace Toml

variable {key value l old : Text} {pre post : List Text} {nest : List Bracket} {t : Text}
  {s : State} {c : Char} {pre' : List Text} {seen : List (List Text)}

/-! ## Open brackets between lines -/

/-- A value goes on after the end of a line only directly inside an array. -/
theorem scan_head {m : Mode} {nest' : List Bracket} (h : scan m nest t = some nest') :
    nest'.head? ≠ some .curly := by
  fun_induction scan m nest t
  all_goals first
    | (rename_i ih; exact ih h)
    | (cases h; assumption)
    | cases h

theorem readValue_head {v : Value} (h : readValue t = some (v, nest)) :
    nest.head? ≠ some .curly := by
  have hstring : ∀ {r : Option (Text × Text)}, endString r = some (v, nest) → nest = [] := by
    intro r hr
    obtain ⟨p, -, hp⟩ := Option.bind_eq_some_iff.1 hr
    exact (Prod.mk.inj (Option.some.inj (Option.ite_none_right_eq_some.1 hp).2)).2.symm
  unfold readValue at h
  split at h
  · cases h
  · cases h
  · rw [hstring h]
    exact nofun
  · rw [hstring h]
    exact nofun
  · obtain ⟨nest', hscan, heq⟩ := Option.map_eq_some_iff.1 h
    cases heq
    exact scan_head hscan

theorem readEntry_head {path : List Text} {v : Value} (h : readEntry t = some (path, v, nest)) :
    nest.head? ≠ some .curly := by
  unfold readEntry at h
  split at h
  · obtain ⟨r, hr, heq⟩ := Option.map_eq_some_iff.1 h
    cases heq
    exact readValue_head hr
  · cases h

theorem readLine_head (hs : s.nest.head? ≠ some .curly) (l : Text) :
    (readLine s l).2.nest.head? ≠ some .curly := by
  unfold readLine
  split
  · split
    · rename_i hscan
      exact scan_head hscan
    · exact hs
  · split
    · exact hs
    · exact hs
    · split
      · exact hs
      · exact hs
    · split
      · rename_i hentry
        exact readEntry_head hentry
      · exact hs

theorem after_head (hs : s.nest.head? ≠ some .curly) (ls : List Text) :
    (s.after ls).nest.head? ≠ some .curly := by
  induction ls generalizing s with
  | nil => exact hs
  | cons l ls ih => exact ih (readLine_head hs l)

theorem start_after_head (ls : List Text) : (start.after ls).nest.head? ≠ some .curly :=
  after_head (s := start) (by decide) ls

/-! ## Lines `key = "…"` -/

theorem isInert_bare (h : isBareChar c = true) : isInert c = true := by
  by_contra hno
  simp only [isInert, decide_eq_true_eq, not_not] at hno
  have hall : ∀ d ∈ ['#', '"', '\'', '[', '{', ']', '}', '='], isBareChar d = false := by decide
  rw [hall c hno] at h
  cases h

theorem readLine_pairLine_inside (hs : s.nest ≠ []) (hhead : s.nest.head? ≠ some .curly)
    (hk : IsBareKey key) (hl : IsPairLine key l) : readLine s l = (.bad, s) := by
  obtain ⟨m, rfl⟩ := hl
  have hchomp : chomp (stringPair key m) = stringPair key m := chomp_quote _
  have hline : stringPair key m = (key ++ [' ']) ++ '=' :: (" \"" ++ m ++ ['"']) := by
    simp [stringPair]
  have hinert : ∀ c ∈ key ++ [' '], isInert c = true := by
    intro c hc
    rcases List.mem_append.1 hc with hc | hc
    · exact isInert_bare (List.all_eq_true.1 hk.2 c hc)
    · rw [List.mem_singleton.1 hc]
      rfl
  have hscan : scan .plain s.nest (chomp (stringPair key m)) = none := by
    rw [hchomp, hline, scan_inert hinert]
    exact if_neg hhead
  rw [readLine, if_pos hs, hscan]

/-- The line is a pair or no TOML, and the other lines are read as they were. -/
theorem readLine_pairLine_cases (hhead : s.nest.head? ≠ some .curly) (hk : IsBareKey key)
    (hl : IsPairLine key l) : readLine s l = (.bad, s) ∨
      (s.nest = [] ∧ ∃ w, readLine s l = (.entry [key] (.string w), s)) := by
  by_cases hs : s.nest = []
  · obtain ⟨table, nest⟩ := s
    obtain rfl : nest = [] := hs
    rcases readLine_pairLine table hk hl with ⟨w, hw⟩ | hbad
    · exact .inr ⟨rfl, w, hw⟩
    · exact .inl hbad
  · exact .inl (readLine_pairLine_inside hs hhead hk hl)

theorem readLine_stringPair_iff (hhead : s.nest.head? ≠ some .curly) (hk : IsBareKey key)
    (hq : '"' ∉ value) (hb : '\\' ∉ value) :
    (readLine s (stringPair key value)).1 ≠ .bad ↔ s.nest = [] ∧ IsStringText value := by
  constructor
  · intro hread
    rcases readLine_pairLine_cases hhead hk ⟨value, rfl⟩ with hbad | ⟨hs, -⟩
    · rw [hbad] at hread
      exact absurd rfl hread
    · refine ⟨hs, ?_⟩
      obtain ⟨table, nest⟩ := s
      obtain rfl : nest = [] := hs
      exact text_of_stringPair hk hq hb hread
  · rintro ⟨hs, hv⟩
    obtain ⟨table, nest⟩ := s
    obtain rfl : nest = [] := hs
    rw [readLine_stringPair table hk hq hb hv]
    exact Role.noConfusion

theorem mem_chomp (h : c ∈ chomp l) : c ∈ l := by
  rw [chomp] at h
  split at h
  · exact List.mem_of_mem_dropLast h
  · exact h

theorem chomp_cases (l : Text) : l = chomp l ∨ l = chomp l ++ ['\r'] := by
  rw [chomp]
  split
  · rename_i hlast
    exact .inr (List.dropLast_append_getLast? _ hlast).symm
  · exact .inl rfl

theorem chomp_append (hc : c ≠ '\r') (a z : Text) : chomp (a ++ c :: z) = a ++ c :: chomp z := by
  rcases List.eq_nil_or_concat' z with rfl | ⟨z, d, rfl⟩
  · simp [chomp, hc]
  · have hassoc : a ++ c :: (z ++ [d]) = (a ++ c :: z) ++ [d] := by simp
    rw [chomp, chomp, hassoc, List.getLast?_concat, List.getLast?_concat]
    split
    · rw [List.dropLast_concat, List.dropLast_concat]
    · simp

/-- Outside a value, a line that starts with none of what TOML allows there. -/
theorem readLine_odd (hs : s.nest = []) (h : skipBlanks (chomp l) = c :: t)
    (hc : c ∉ ['#', '[', '"', '\'']) (hbare : isBareChar c = false) : readLine s l = (.bad, s) := by
  simp only [List.mem_cons, List.not_mem_nil, or_false, not_or] at hc
  obtain ⟨hhash, hopen, hdouble, hsingle⟩ := hc
  have hblank : isBlank c = false := by
    have := List.head?_dropWhile_not isBlank (chomp l)
    rw [← skipBlanks, h] at this
    simpa using this
  have hkey : readKey (c :: t) = none := by
    unfold readKey
    split
    · rename_i heq
      exact absurd (List.cons.inj heq).1 hdouble
    · rename_i heq
      exact absurd (List.cons.inj heq).1 hsingle
    · rw [List.takeWhile_cons, hbare]
      rfl
  have hpath : ∀ n, readPath n (c :: t) = none := by
    intro n
    cases n with
    | zero => rfl
    | succ n =>
      rw [readPath, skipBlanks_cons hblank, hkey]
      rfl
  have hentry : readEntry (c :: t) = none := by
    rw [readEntry, hpath]
  rw [readLine, if_neg (not_not.2 hs), h]
  split
  · rename_i heq
    cases heq
  · rename_i heq
    exact absurd (List.cons.inj heq).1 hhash
  · rename_i heq
    exact absurd (List.cons.inj heq).1 hopen
  · rw [hentry]

theorem readLine_bare (hs : s.nest = []) (h : skipBlanks (chomp l) = c :: t)
    (hc : isBareChar c = true) :
    readLine s l = (readEntry (c :: t)).elim (.bad, s) fun r => (.entry r.1 r.2.1, ⟨s.table, r.2.2⟩) := by
  obtain ⟨-, -, -, -, hopen, hhash⟩ := isBareChar_ne hc
  rw [readLine, if_neg (not_not.2 hs), h]
  split
  · rename_i heq
    cases heq
  · rename_i heq
    exact absurd (List.cons.inj heq).1 hhash
  · rename_i heq
    exact absurd (List.cons.inj heq).1 hopen
  · cases readEntry (c :: t) <;> rfl

/-! ## What the lines define -/

theorem items_append (seen : List (List Text)) (rs rs' : List Reading) :
    items seen (rs ++ rs') = items seen rs ++ items (rs.foldl seenAfter seen) rs' := by
  induction rs generalizing seen with
  | nil => rfl
  | cons r rs ih => rw [List.cons_append, items, items, ih, List.append_assoc, List.foldl_cons]

theorem seenAfter_of_not_header {seen : List (List Text)} {r : Reading}
    (h : ∀ path array, r.role ≠ .header path array) : seenAfter seen r = seen := by
  unfold seenAfter
  split
  · rename_i path hrole
    exact absurd hrole (h path true)
  · rfl

theorem conflicts_comm (i j : Item) : i.conflicts j = j.conflicts i := by
  cases i <;> cases j <;> simp only [Item.conflicts, Bool.or_comm, Bool.and_comm]
  exact Bool.beq_comm

theorem items_around {w : Text}
    (hread : readLine (start.after pre) l = (.entry [key] (.string w), start.after pre)) :
    items [] (readings (pre ++ l :: post)) = items [] (readings pre) ++
      itemBelow pre key :: items ((readings pre).foldl seenAfter []) (readLines (start.after pre) post) := by
  have hat : readingAt pre l = ⟨(start.after pre).table, l, .entry [key] (.string w)⟩ := by
    rw [readingAt, hread]
  rw [readings_around, hat, hread, items_append]
  rfl

theorem items_apart (pre post : List Text) : items [] (readings (pre ++ post)) =
    items [] (readings pre) ++
      items ((readings pre).foldl seenAfter []) (readLines (start.after pre) post) := by
  rw [readings, readLines_append, items_append]
  rfl

/-- A pair with a plain key and a string, among other lines. -/
theorem accepted_around {w : Text}
    (hread : readLine (start.after pre) l = (.entry [key] (.string w), start.after pre)) :
    Accepted (pre ++ l :: post) ↔ Accepted (pre ++ post) ∧
      ∀ i ∈ items [] (readings (pre ++ post)), ¬i.conflicts (itemBelow pre key) := by
  have hat : readingAt pre l = ⟨(start.after pre).table, l, .entry [key] (.string w)⟩ := by
    rw [readingAt, hread]
  have hnew : readings (pre ++ l :: post) = readings pre ++
      ⟨(start.after pre).table, l, .entry [key] (.string w)⟩ :: readLines (start.after pre) post := by
    rw [readings_around, hat, hread]
  have hold : readings (pre ++ post) = readings pre ++ readLines (start.after pre) post :=
    readLines_append _ _ _
  have hafter : start.after (pre ++ l :: post) = start.after (pre ++ post) := by
    rw [after_append, after_cons, hread, after_append]
  have hmem : ∀ {P : Reading → Prop}, P ⟨(start.after pre).table, l, .entry [key] (.string w)⟩ →
      ((∀ r ∈ readings (pre ++ l :: post), P r) ↔ ∀ r ∈ readings (pre ++ post), P r) := by
    intro P hP
    simp only [hnew, hold, List.mem_append, List.mem_cons]
    constructor
    · exact fun h r hr => h r (hr.imp_right .inr)
    · rintro h r (hr | rfl | hr)
      · exact h r (.inl hr)
      · exact hP
      · exact h r (.inr hr)
  have hvalues := @hmem (fun r => r.hasValue = true) rfl
  have hwell : WellRead (pre ++ l :: post) ↔ WellRead (pre ++ post) := by
    rw [WellRead, WellRead, hmem Role.noConfusion, hafter]
  have hdistinct : (items [] (readings (pre ++ l :: post))).Pairwise (fun i j => ¬i.conflicts j) ↔
      (items [] (readings (pre ++ post))).Pairwise (fun i j => ¬i.conflicts j) ∧
        ∀ i ∈ items [] (readings (pre ++ post)), ¬i.conflicts (itemBelow pre key) := by
    have hcomm : ∀ {i j : Item}, ¬i.conflicts j → ¬j.conflicts i := fun h => by
      rwa [conflicts_comm]
    rw [items_around hread, items_apart, List.pairwise_middle hcomm, List.pairwise_cons, and_comm]
    exact and_congr_right fun _ => forall₂_congr fun i _ => by rw [conflicts_comm]
  constructor
  · intro h
    obtain ⟨hpair, hfree⟩ := hdistinct.1 h.distinct
    exact ⟨⟨hwell.1 h.wellRead, hvalues.1 h.values, hpair⟩, hfree⟩
  · rintro ⟨h, hfree⟩
    exact ⟨hwell.2 h.wellRead, hvalues.2 h.values, hdistinct.2 ⟨h.distinct, hfree⟩⟩

theorem not_accepted_of_bad (hbad : (readLine (start.after pre) l).1 = .bad) :
    ¬Accepted (pre ++ l :: post) := fun h => wellRead_around h.wellRead hbad

/-- **Inserting a pair** keeps a document accepted exactly when the line lands outside every value, its
string can be read and nothing is defined twice; and it never makes one acceptable. -/
theorem accepted_insert_iff (hk : IsBareKey key) (hq : '"' ∉ value) (hb : '\\' ∉ value) :
    Accepted (pre ++ stringPair key value :: post) ↔ Accepted (pre ++ post) ∧
      (start.after pre).nest = [] ∧ IsStringText value ∧
        ∀ i ∈ items [] (readings (pre ++ post)), ¬i.conflicts (itemBelow pre key) := by
  have hhead := start_after_head pre
  have hreads := readLine_stringPair_iff hhead hk hq hb
  rcases readLine_pairLine_cases hhead hk ⟨value, rfl⟩ with hbad | ⟨hs, w, hw⟩
  · have hrole : (readLine (start.after pre) (stringPair key value)).1 = .bad := by rw [hbad]
    refine iff_of_false (not_accepted_of_bad hrole) ?_
    rintro ⟨-, hs, hv, -⟩
    exact hreads.2 ⟨hs, hv⟩ hrole
  · have hv := (hreads.1 (by rw [hw]; exact Role.noConfusion)).2
    rw [accepted_around hw]
    exact and_congr_right fun _ => ⟨fun h => ⟨hs, hv, h⟩, fun h => h.2.2⟩

/-- **Exchanging a pair** that is read keeps a document accepted exactly when the new string can be
read. -/
theorem accepted_replace_iff (hk : IsBareKey key) (hq : '"' ∉ value) (hb : '\\' ∉ value)
    (hold : IsPairLine key old) (hread : (readLine (start.after pre) old).1 ≠ .bad) :
    Accepted (pre ++ stringPair key value :: post) ↔
      Accepted (pre ++ old :: post) ∧ IsStringText value := by
  have hhead := start_after_head pre
  rcases readLine_pairLine_cases hhead hk hold with hbad | ⟨hs, w, hw⟩
  · rw [hbad] at hread
    exact absurd rfl hread
  · rw [accepted_insert_iff hk hq hb, accepted_around hw]
    exact ⟨fun h => ⟨⟨h.1, h.2.2.2⟩, h.2.2.1⟩, fun h => ⟨h.1.1, hs, h.2, h.1.2⟩⟩

/-! ## Places between lines -/

/-- What decides how a line below `pre` is read and what it defines. -/
def spot (pre : List Text) : State × List (List Text) :=
  (start.after pre, (readings pre).foldl seenAfter [])

theorem itemBelow_congr {pre : List Text} (h : spot pre = spot pre') (key : Text) :
    itemBelow pre key = itemBelow pre' key := by
  have hitem : ∀ ls, itemBelow ls key = .value (spot ls).1.table.length
      (place (spot ls).2 [] ((spot ls).1.table ++ [key])) := fun _ => rfl
  rw [hitem, hitem, h]

theorem spot_append {pre : List Text} (h : spot pre = spot pre') (ls : List Text) :
    spot (pre ++ ls) = spot (pre' ++ ls) := by
  have hspot : ∀ ks, spot (ks ++ ls) = ((spot ks).1.after ls,
      (readLines (spot ks).1 ls).foldl seenAfter (spot ks).2) := by
    intro ks
    rw [spot, readings, readLines_append, after_append, List.foldl_append]
    rfl
  rw [hspot, hspot, h]

/-- The line says nothing about the lines after it. -/
def Passes (s : State) (l : Text) : Prop :=
  (readLine s l).2 = s ∧ ∀ path array, (readLine s l).1 ≠ .header path array

theorem spot_pass (h : Passes (start.after pre) l) (post : List Text) :
    spot (pre ++ l :: post) = spot (pre ++ post) := by
  have hline : spot (pre ++ [l]) = spot pre := by
    have hseen := @seenAfter_of_not_header ((readings pre).foldl seenAfter []) (readingAt pre l) h.2
    rw [spot, readings_around, after_append, List.foldl_append]
    change ((readLine (start.after pre) l).2, seenAfter _ _) = _
    rw [h.1, hseen]
    rfl
  rw [← List.singleton_append, ← List.append_assoc]
  exact spot_append hline post

theorem spot_passes {ls : List Text} (h : ∀ s : State, s.nest.head? ≠ some .curly → ∀ l ∈ ls, Passes s l)
    (pre : List Text) : spot (pre ++ ls) = spot pre := by
  induction ls with
  | nil => rw [List.append_nil]
  | cons l ls ih =>
    rw [spot_pass (h _ (start_after_head pre) l List.mem_cons_self)]
    exact ih fun s hs k hk => h s hs k (List.mem_cons_of_mem _ hk)

theorem passes_pairLine (hhead : s.nest.head? ≠ some .curly) (hk : IsBareKey key)
    (hl : IsPairLine key l) : Passes s l := by
  rcases readLine_pairLine_cases hhead hk hl with hbad | ⟨-, w, hw⟩
  · rw [Passes, hbad]
    exact ⟨rfl, nofun⟩
  · rw [Passes, hw]
    exact ⟨rfl, nofun⟩

/-! ## Two new pairs -/

theorem length_place (seen : List (List Text)) (above path : List Text) :
    (place seen above path).length = path.length := by
  induction path generalizing above with
  | nil => rfl
  | cons k path ih => rw [place, List.length_cons, ih, List.length_cons]

theorem length_of_covers {p q : Path} (h : covers p q = true) : p.length ≤ q.length := by
  fun_induction covers p q
  · exact Nat.zero_le _
  · cases h
  · simp
  · rename_i ih
    rw [Bool.and_eq_true] at h
    have := ih h.2
    simpa using this

theorem last_of_covers {seen' : List (List Text)} {above above' ks ks' : List Text} {k k' : Text}
    (hlen : ks.length = ks'.length)
    (h : covers (place seen above (ks ++ [k])) (place seen' above' (ks' ++ [k'])) = true) :
    k = k' := by
  induction ks generalizing above above' ks' with
  | nil =>
    obtain rfl : ks' = [] := List.length_eq_zero_iff.1 hlen.symm
    simpa [place, covers] using h
  | cons j ks ih =>
    cases ks' with
    | nil => cases hlen
    | cons j' ks' =>
      have hne : place seen (above ++ [j]) (ks ++ [k]) ≠ [] := by
        rw [← List.length_pos_iff, length_place]
        simp
      rw [List.cons_append, List.cons_append, place, place, covers, Bool.and_eq_true] at h
      · exact ih (Nat.succ.inj hlen) h.2
      · exact hne

/-- What a path covers depends on the keys and arrays above its own end only. -/
theorem covers_place {seen' : List (List Text)} {above path ks : List Text} {p : Path}
    (hcount : ∀ u, u ≠ above ++ path → seen'.count u = seen.count u) (hp : p.length ≤ path.length) :
    covers p (place seen' above (path ++ ks)) = covers p (place seen above path) := by
  induction path generalizing above p with
  | nil =>
    obtain rfl : p = [] := List.length_eq_zero_iff.1 (Nat.le_zero.1 hp)
    rw [covers, covers]
  | cons k path ih =>
    rw [List.cons_append, place, place]
    rcases p with _ | ⟨a, _ | ⟨b, p⟩⟩
    · rw [covers, covers]
    · rw [covers, covers]
    · have hne : path ≠ [] := by
        rintro rfl
        simp at hp
      have hk : seen'.count (above ++ [k]) = seen.count (above ++ [k]) := by
        refine hcount _ fun h => hne ?_
        simpa using h
      have hrest := @ih (above ++ [k]) (b :: p) (fun u hu => hcount u (by simpa using hu))
        (Nat.le_of_succ_le_succ hp)
      rw [covers, covers, hk, hrest]
      · exact nofun
      · exact nofun

/-- The header of the current table is among the items. -/
def Headed (table : List Text) (seen : List (List Text)) (its : List Item) : Prop :=
  table = [] ∨ ∃ P, (.table P ∈ its ∨ .array P ∈ its) ∧ ∀ p : Path, ∀ ks, p.length ≤ table.length →
    covers p (place seen [] (table ++ ks)) = covers p P

theorem readLine_table (s : State) (l : Text) :
    (∃ path array, (readLine s l).1 = .header path array ∧ (readLine s l).2.table = path) ∨
      (∀ path array, (readLine s l).1 ≠ .header path array) ∧ (readLine s l).2.table = s.table := by
  unfold readLine
  split
  · split
    · exact .inr ⟨nofun, rfl⟩
    · exact .inr ⟨nofun, rfl⟩
  · split
    · exact .inr ⟨nofun, rfl⟩
    · exact .inr ⟨nofun, rfl⟩
    · split
      · exact .inl ⟨_, _, rfl, rfl⟩
      · exact .inr ⟨nofun, rfl⟩
    · split
      · exact .inr ⟨nofun, rfl⟩
      · exact .inr ⟨nofun, rfl⟩

theorem Headed.step {its : List Item} (h : Headed s.table seen its) (l : Text) :
    Headed (readLine s l).2.table (seenAfter seen ⟨s.table, l, (readLine s l).1⟩)
      (its ++ ((⟨s.table, l, (readLine s l).1⟩ : Reading).item seen).toList) := by
  rcases readLine_table s l with ⟨path, array, hrole, htable⟩ | ⟨hrole, htable⟩
  · rw [hrole, htable]
    cases array with
    | false =>
      refine .inr ⟨place seen [] path, .inl ?_, fun p ks hp => ?_⟩
      · exact List.mem_append_right _ (List.mem_singleton_self _)
      · exact covers_place (fun _ _ => rfl) hp
    | true =>
      refine .inr ⟨place seen [] path, .inr ?_, fun p ks hp => ?_⟩
      · exact List.mem_append_right _ (List.mem_singleton_self _)
      · exact covers_place (fun u hu => List.count_cons_of_ne (Ne.symm hu)) hp
  · have hseen := @seenAfter_of_not_header seen ⟨s.table, l, (readLine s l).1⟩ hrole
    rw [hseen, htable]
    rcases h with h | ⟨P, hmem, hP⟩
    · exact .inl h
    · exact .inr ⟨P, hmem.imp (List.mem_append_left _) (List.mem_append_left _), hP⟩

theorem Headed.after {s : State} {seen : List (List Text)} {its : List Item}
    (h : Headed s.table seen its) (ls : List Text) :
    Headed (s.after ls).table ((readLines s ls).foldl seenAfter seen)
      (its ++ items seen (readLines s ls)) := by
  induction ls generalizing s seen its with
  | nil => simpa [items, readLines, State.after] using h
  | cons l ls ih =>
    rw [readLines, items, ← List.append_assoc]
    exact ih (h.step l)

theorem headed (pre post : List Text) : Headed (start.after pre).table
    ((readings pre).foldl seenAfter []) (items [] (readings (pre ++ post))) := by
  have h := @Headed.after start [] [] (.inl rfl) pre
  rw [readings, readings, readLines_append, items_append]
  rcases h with h | ⟨P, hmem, hP⟩
  · exact .inl h
  · exact .inr ⟨P, hmem.imp (List.mem_append_left _) (List.mem_append_left _), hP⟩

/-- A new pair that is above another new pair of a different key is above a header. -/
theorem conflicts_of_covers {pre' post' : List Text} {key' : Text} (hne : key ≠ key')
    {d : Nat} {path : List Text} {seen : List (List Text)}
    (h : covers (place seen [] (path ++ [key])) (place ((readings pre').foldl seenAfter []) []
      ((start.after pre').table ++ [key'])) = true) :
    ∃ i ∈ items [] (readings (pre' ++ post')),
      i.conflicts (.value d (place seen [] (path ++ [key]))) = true := by
  have hlen := length_of_covers h
  rw [length_place, length_place, List.length_append, List.length_append] at hlen
  have hlt : path.length < (start.after pre').table.length := by
    rcases Nat.lt_or_eq_of_le (Nat.le_of_add_le_add_right hlen) with hlt | heq
    · exact hlt
    · exact absurd (last_of_covers heq h) hne
  rcases headed pre' post' with hnil | ⟨P, hmem, hP⟩
  · rw [hnil] at hlt
    cases hlt
  · have hcovers : covers (place seen [] (path ++ [key])) P = true := by
      rw [← hP _ [key'] (by rw [length_place, List.length_append]; exact hlt), h]
    rcases hmem with hmem | hmem
    · exact ⟨_, hmem, by rw [Item.conflicts, hcovers]; rfl⟩
    · exact ⟨_, hmem, by rw [Item.conflicts, hcovers]; rfl⟩

/-- **Two new pairs** with different keys that are both free are free of each other. -/
theorem itemBelow_not_conflicts {post' : List Text} {key' : Text} (hne : key ≠ key')
    (hls : pre ++ post = pre' ++ post')
    (hfree : ∀ i ∈ items [] (readings (pre ++ post)), ¬i.conflicts (itemBelow pre key))
    (hfree' : ∀ i ∈ items [] (readings (pre ++ post)), ¬i.conflicts (itemBelow pre' key')) :
    ¬(itemBelow pre key).conflicts (itemBelow pre' key') := by
  intro h
  rw [itemBelow, itemBelow, Item.conflicts, Bool.or_eq_true] at h
  rcases h with h | h
  · obtain ⟨i, hi, hconf⟩ := @conflicts_of_covers key pre' post' key' hne
      (start.after pre).table.length _ _ h
    rw [← hls] at hi
    exact hfree i hi hconf
  · obtain ⟨i, hi, hconf⟩ := @conflicts_of_covers key' pre post key hne.symm
      (start.after pre').table.length _ _ h
    exact hfree' i hi hconf

end Toml
