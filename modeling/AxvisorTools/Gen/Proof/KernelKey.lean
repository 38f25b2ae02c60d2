import AxvisorTools.Gen.KernelKey
import AxvisorTools.Py.Proof.Re
import AxvisorTools.Text.Proof.Regex
import AxvisorTools.Toml.Proof.Edit

/-!
# What rewriting a kernel key does

`rewriteKernelKey_eq` turns the three regular expressions into an edit of one line. Over it,
`setsKernelKey_iff` says exactly when the result sets the key once in `[kernel]` and keeps all
other lines: the searches do not look at the table, so a line of another table can be taken.
-/

namespace Gen.KernelKey

open Regex

variable {b l key value : Text} {ls : List Text} {afterKey : Option Text}

/-! ## The three searches -/

theorem isKeyLine_iff (key l : Text) : isKeyLine key l = true ↔ Toml.IsPairLine key l := by
  simp only [isKeyLine, Bool.and_eq_true, List.isPrefixOf_iff_prefix, beq_iff_eq]
  constructor
  · rintro ⟨⟨m, rfl⟩, hq⟩
    rw [List.drop_left] at hq
    obtain ⟨m', rfl⟩ := List.getLast?_eq_some_iff.1 hq
    exact ⟨m', by simp [Toml.stringPair]⟩
  · rintro ⟨m, rfl⟩
    rw [Toml.stringPair, List.append_assoc, List.drop_left]
    exact ⟨List.prefix_append _ _, by simp⟩

theorem isKeyLine_keyLine (key value : Text) : isKeyLine key (keyLine key value) = true :=
  (isKeyLine_iff key _).2 ⟨value, rfl⟩

theorem mem_run_quote (hl : '\n' ∉ l) {e : Pos} :
    e ∈ run (.seq (.star true dot) (.seq (lit ['"']) eol)) ⟨b, l ++ below ls, []⟩ ↔
      l.getLast? = some '"' ∧ e = ⟨l.reverse ++ b, below ls, []⟩ := by
  rw [mem_run_dots hl, List.getLast?_eq_some_iff]
  constructor
  · rintro ⟨u, v, rfl, he⟩
    rw [run_seq_lit] at he
    split at he
    · rename_i hp
      obtain ⟨w, rfl⟩ := (prefix_append_below (by decide)).1 hp
      rw [Pos.move_length _ ['"'] (w ++ below ls) (List.append_assoc _ _ _),
        run_eol fun h => hl (by simp [h])] at he
      split at he
      · rename_i hw
        subst hw
        exact ⟨⟨u, by simp⟩, by simpa using he⟩
      · cases he
    · cases he
  · rintro ⟨⟨u, rfl⟩, rfl⟩
    refine ⟨u, ['"'], rfl, ?_⟩
    rw [run_seq_lit, if_pos (List.prefix_append _ _), Pos.move_length _ ['"'] (below ls) rfl]
    have h := run_eol (b := '"' :: (u.reverse ++ b)) (v := []) (by simp) ls []
    simp only [List.nil_append, if_true] at h
    simp [h]

theorem search_keyPattern (hk : '\n' ∉ key) (hls : Unbroken ls) (hne : ls ≠ []) :
    search (keyPattern key) (unlines ls) = (splitAtFirst (isKeyLine key) ls).map
      fun (pre, l, post) => (above pre, ⟨l.reverse ++ (above pre).reverse, below post, []⟩) := by
  have hp : '\n' ∉ key ++ " = \"" := by
    rw [List.mem_append, not_or]
    exact ⟨hk, by decide⟩
  refine search_bol_eq (e := fun b l ls => ⟨l.reverse ++ b, below ls, []⟩) ?_ ?_ hls hne
  · intro b l ls hl _ hkey
    obtain ⟨m, rfl⟩ := (isKeyLine_iff key l).1 hkey
    have htext : Toml.stringPair key m ++ below ls =
        (key ++ " = \"") ++ (m ++ ['"'] ++ below ls) := by simp [Toml.stringPair]
    have hm : '\n' ∉ m ++ ['"'] := fun h => hl (by
      rw [Toml.stringPair, List.append_assoc]
      exact List.mem_append_right _ h)
    rw [run_seq_lit, if_pos (by rw [htext]; exact List.prefix_append _ _),
      Pos.move_length _ _ _ htext]
    refine head?_of_forall_eq (fun e he => ?_) ((mem_run_quote hm).2 ⟨by simp, ?_⟩)
    · rw [((mem_run_quote hm).1 he).2]
      simp [Toml.stringPair]
    · simp [Toml.stringPair]
  · intro l hl hno b ls
    rw [run_seq_lit]
    split
    · rename_i hpre
      obtain ⟨m, rfl⟩ := (prefix_append_below hp).1 hpre
      rw [Pos.move_length _ _ _ (List.append_assoc _ _ _), List.eq_nil_iff_forall_not_mem]
      intro e he
      obtain ⟨hlast, -⟩ := (mem_run_quote fun h => hl (List.mem_append_right _ h)).1 he
      obtain ⟨m', rfl⟩ := List.getLast?_eq_some_iff.1 hlast
      have := (isKeyLine_iff key (key ++ " = \"" ++ (m' ++ ['"']))).2
        ⟨m', by simp [Toml.stringPair]⟩
      rw [hno] at this
      cases this
    · rfl

theorem mem_run_after {p : Text} (hp : '\n' ∉ p) (hl : '\n' ∉ l) {e : Pos} :
    e ∈ run (.seq (.group 1 (.seq (lit p) (.star true dot))) eol) ⟨b, l ++ below ls, []⟩ ↔
      p <+: l ∧ e = ⟨l.reverse ++ b, below ls, [(1, l)]⟩ := by
  rw [run, List.mem_flatMap]
  simp only [mem_run_group, run_seq_lit, prefix_append_below hp]
  by_cases hpre : p <+: l
  · obtain ⟨m, rfl⟩ := hpre
    have hm : '\n' ∉ m := fun h => hl (List.mem_append_right _ h)
    have hmove : Pos.move ⟨b, p ++ m ++ below ls, []⟩ p.length =
        ⟨p.reverse ++ b, m ++ below ls, []⟩ := Pos.move_length _ _ _ (List.append_assoc _ _ _)
    simp only [List.prefix_append, if_true, true_and, hmove, mem_run_star_dot hm]
    constructor
    · rintro ⟨t, ⟨_, ⟨u, v, rfl, rfl⟩, rfl⟩, he⟩
      rw [run_eol fun h => hm (List.mem_append_right _ h)] at he
      split at he
      · rename_i hv
        subst hv
        rw [List.mem_singleton] at he
        rw [he]
        simp only [← List.append_assoc, take_consumed]
        simp
      · cases he
    · rintro rfl
      refine ⟨_, ⟨_, ⟨m, [], by simp, rfl⟩, rfl⟩, ?_⟩
      rw [run_eol List.not_mem_nil]
      simp only [← List.append_assoc, take_consumed]
      simp
  · simp [hpre]

theorem search_afterPattern (hk : '\n' ∉ key) (hls : Unbroken ls) (hne : ls ≠ []) :
    search (afterPattern key) (unlines ls) = (splitAtFirst (isAfterLine key) ls).map
      fun (pre, l, post) => (above pre, ⟨l.reverse ++ (above pre).reverse, below post, [(1, l)]⟩) := by
  have hp : '\n' ∉ key ++ " = " := by
    rw [List.mem_append, not_or]
    exact ⟨hk, by decide⟩
  refine search_bol_eq (e := fun b l ls => ⟨l.reverse ++ b, below ls, [(1, l)]⟩) ?_ ?_ hls hne
  · intro b l ls hl _ hkey
    exact head?_of_forall_eq (fun e he => ((mem_run_after hp hl).1 he).2)
      ((mem_run_after hp hl).2 ⟨List.isPrefixOf_iff_prefix.1 hkey, rfl⟩)
  · intro l hl hno b ls
    rw [List.eq_nil_iff_forall_not_mem]
    intro e he
    have := List.isPrefixOf_iff_prefix.2 ((mem_run_after hp hl).1 he).1
    rw [isAfterLine, this] at hno
    cases hno

/-! ## The header of the table -/

theorem isWhite_newline : Py.Re.isWhite '\n' = true := by decide

theorem white_below (h : ∀ l ∈ ls, isWhiteLine l = true) : (below ls).all Py.Re.isWhite = true := by
  induction ls with
  | nil => rfl
  | cons l ls ih =>
    have hl : l.all Py.Re.isWhite = true := h l List.mem_cons_self
    rw [below_cons, List.cons_append, List.all_cons, List.all_append, hl, isWhite_newline,
      ih fun k hk => h k (List.mem_cons_of_mem _ hk)]
    rfl

/-- Before the last character of a line that is not all white, `$` does not hold. -/
theorem takeWhile_white_lt (h : isWhiteLine l = false) (t : Text) :
    ((l ++ t).takeWhile Py.Re.isWhite).length < l.length := by
  induction l with
  | nil => simp [isWhiteLine] at h
  | cons c l ih =>
    rw [List.cons_append, List.takeWhile_cons]
    split
    · rename_i hc
      have hl : isWhiteLine l = false := by simpa [isWhiteLine, hc] using h
      simpa using ih hl
    · simp

theorem run_eol_inside {t : Text} {g : List (Nat × Text)} (hl : '\n' ∉ l) {i : Nat}
    (hi : i < l.length) : run eol (Pos.move ⟨b, l ++ t, g⟩ i) = [] := by
  have hget : (l ++ t).drop i = l[i] :: ((l ++ t).drop (i + 1)) := by
    rw [List.drop_eq_getElem_cons (by simp; omega), List.getElem_append_left hi]
  have hc : l[i] ≠ '\n' := fun h => hl (h ▸ List.getElem_mem hi)
  simp [run, eol, Pos.move, hget, hc]

theorem run_section_miss (hl : '\n' ∉ l) (h : isSectionLine l = false) (ls : List Text) :
    run (.seq (lit "[kernel]") (.seq (.star true Py.Re.space) eol)) ⟨b, l ++ below ls, []⟩ =
      [] := by
  rw [run_seq_lit]
  split
  · rename_i hpre
    obtain ⟨u, rfl⟩ := (prefix_append_below (by decide)).1 hpre
    have hu : isWhiteLine u = false := by
      simp only [isSectionLine, List.isPrefixOf_iff_prefix.2 (List.prefix_append _ u),
        List.drop_left, Bool.true_and] at h
      exact h
    rw [Pos.move_length _ _ _ (List.append_assoc _ _ _), run, List.flatMap_eq_nil_iff]
    intro t ht
    obtain ⟨k, hk, rfl⟩ := mem_run_star_one.1 ht
    exact run_eol_inside (fun h => hl (List.mem_append_right _ h))
      (Nat.lt_of_le_of_lt hk (takeWhile_white_lt hu _))
  · rfl

/-- A white rest of the header line: the run of blanks goes on over the white lines below it, and
the match ends where the last of these does. -/
theorem run_section_hit {u : Text} (hls : Unbroken ls) (hu : isWhiteLine u = true) :
    (run (.seq (.star true Py.Re.space) eol) ⟨b, u ++ below ls, []⟩).head? =
      some ⟨(u ++ below (ls.takeWhile isWhiteLine)).reverse ++ b,
        below (ls.dropWhile isWhiteLine), []⟩ := by
  have hsplit : u ++ below ls = (u ++ below (ls.takeWhile isWhiteLine)) ++
      below (ls.dropWhile isWhiteLine) := by
    rw [List.append_assoc, ← below_append, List.takeWhile_append_dropWhile]
  have hwhite : ∀ c ∈ u ++ below (ls.takeWhile isWhiteLine), Py.Re.isWhite c = true := by
    rw [← List.all_eq_true, List.all_append, white_below fun l hl => List.mem_takeWhile_imp hl]
    simpa [isWhiteLine] using hu
  have hrest : Unbroken (ls.dropWhile isWhiteLine) :=
    fun l hl => hls l ((List.dropWhile_sublist _).subset hl)
  have hfirst : ∀ l ∈ (ls.dropWhile isWhiteLine).head?, isWhiteLine l = false := by
    intro l hl
    cases h : isWhiteLine l with
    | false => rfl
    | true => exact absurd (List.head?_dropWhile_not isWhiteLine ls) (by simp [Option.mem_def.1 hl, h])
  generalize u ++ below (ls.takeWhile isWhiteLine) = w at hsplit hwhite ⊢
  generalize ls.dropWhile isWhiteLine = rest at hsplit hrest hfirst ⊢
  have hend : Pos.move ⟨b, w ++ below rest, []⟩ w.length = ⟨w.reverse ++ b, below rest, []⟩ :=
    Pos.move_length _ _ _ rfl
  rw [hsplit, ← hend, run, Py.Re.space, run_star_one]
  refine head?_run_eol ?_ ?_ fun i hi hle => ?_
  · rw [hend]
    cases rest <;> simp [run, eol]
  · rw [List.takeWhile_append_of_pos hwhite]
    simp
  · rw [List.takeWhile_append_of_pos hwhite, List.length_append] at hle
    cases rest with
    | nil =>
      simp at hle
      omega
    | cons r rest =>
      have hr := takeWhile_white_lt (hfirst r rfl) (below rest)
      rw [below_cons, List.cons_append, List.takeWhile_cons, if_pos isWhite_newline,
        List.length_cons] at hle
      obtain ⟨j, rfl⟩ : ∃ j, i = w.length + (1 + j) := ⟨i - w.length - 1, by omega⟩
      rw [← Pos.move_move, hend, ← Pos.move_move]
      exact run_eol_inside (hrest r List.mem_cons_self) (by omega)

theorem search_kernelSection (hls : Unbroken ls) (hne : ls ≠ []) :
    search kernelSection (unlines ls) = (splitAtFirst isSectionLine ls).map
      fun (pre, l, post) => (above pre,
        ⟨(l ++ below (post.takeWhile isWhiteLine)).reverse ++ (above pre).reverse,
          below (post.dropWhile isWhiteLine), []⟩) := by
  refine search_bol_eq (e := fun b l ls => ⟨(l ++ below (ls.takeWhile isWhiteLine)).reverse ++ b,
    below (ls.dropWhile isWhiteLine), []⟩) ?_ (fun l hl hno b ls => run_section_miss hl hno ls) hls hne
  intro b l ls hl hls hsec
  simp only [isSectionLine, Bool.and_eq_true] at hsec
  obtain ⟨⟨u, rfl⟩, hu⟩ := And.imp_left List.isPrefixOf_iff_prefix.1 hsec
  rw [List.drop_left] at hu
  rw [run_seq_lit, if_pos ((List.prefix_append _ u).trans (List.prefix_append _ _)),
    Pos.move_length _ _ _ (List.append_assoc _ _ _), run_section_hit hls hu]
  simp

/-! ## The edit -/

theorem insertInSection_eq (message : String) (hls : Unbroken ls) (hne : ls ≠ []) (line : Text) :
    insertInSection message (unlines ls) line =
      match sectionSite ls with
      | some e => .ok (unlines (e.apply line))
      | none => .error (.systemExit message) := by
  rw [insertInSection, search_kernelSection hls hne, sectionSite]
  cases splitAtFirst isSectionLine ls with
  | none => rfl
  | some r =>
    obtain ⟨pre, l, post⟩ := r
    simp only [Option.map_some, Edit.apply, unlines_insert]
    rw [above_append, above_cons, newline_above]
    simp

/-- **The regular expressions edit one line**: the rewriting exchanges or inserts one line, where
`editSite` says. -/
theorem rewriteKernelKey_eq (message : String) (text : Text) (hk : '\n' ∉ key) (hkb : '\\' ∉ key)
    (hvb : '\\' ∉ value) (ha : ∀ k ∈ afterKey, '\n' ∉ k) :
    rewriteKernelKey message text key value afterKey =
      match editSite key afterKey (lines text) with
      | some e => .ok (unlines (e.apply (keyLine key value)))
      | none => .error (.systemExit message) := by
  have hb : '\\' ∉ keyLine key value := by simp [keyLine, hkb, hvb]
  have hls := unbroken_lines text
  have hne := lines_ne_nil text
  have hsec := insertInSection_eq message hls hne (keyLine key value)
  have hkey := search_keyPattern hk hls hne
  rw [unlines_lines] at hsec hkey
  unfold rewriteKernelKey editSite
  simp only [Py.Re.subn1_plain _ hb, hkey]
  cases splitAtFirst (isKeyLine key) (lines text) with
  | some r =>
    obtain ⟨pre, old, post⟩ := r
    simp [Edit.apply, unlines_insert]
  | none =>
    cases afterKey with
    | none => simpa using hsec
    | some k =>
      have hafter := search_afterPattern (ha k rfl) hls hne
      rw [unlines_lines] at hafter
      simp only [Option.map_none, Option.bind_some, Py.Re.subn1_group _ hb, hafter]
      cases splitAtFirst (isAfterLine k) (lines text) with
      | none => exact hsec
      | some r =>
        obtain ⟨pre, l, post⟩ := r
        simp [Edit.apply, unlines_insert, Py.Re.groupText]

/-! ## Setting the key -/

/-- A text without double quotes, backslashes and newlines. -/
structure Plain (t : Text) : Prop where
  quote : '"' ∉ t
  backslash : '\\' ∉ t
  newline : '\n' ∉ t

/-- The path of the table. -/
def kernelTable : List Text := ["kernel"]

/-- The edit lands where it should: an exchanged line lies in `[kernel]` (or is the new line
already), an inserted one comes into `[kernel]`, outside a value, and finds no definition. -/
def Edit.Fits (key value : Text) (ls : List Text) : Edit → Prop
  | .replace pre old _ =>
    (Toml.start.after pre = ⟨kernelTable, []⟩ ∧ Toml.IsBareKey key ∧ Toml.IsStringText value) ∨
      (old = keyLine key value ∧ Toml.DefinesOnce kernelTable key value ls)
  | .insert pre _ =>
    Toml.start.after pre = ⟨kernelTable, []⟩ ∧ Toml.IsBareKey key ∧ Toml.IsStringText value ∧
      Toml.definitions kernelTable key ls = [] ∧ Toml.NoSubtable kernelTable key ls

theorem unbroken_keyLine (hk : Plain key) (hv : Plain value) : '\n' ∉ keyLine key value := by
  simp [keyLine, hk.newline, hv.newline]

theorem editSite_cases {e : Edit} (h : editSite key afterKey ls = some e) :
    (∃ pre old post, e = .replace pre old post ∧ ls = pre ++ old :: post ∧
      Toml.IsPairLine key old) ∨
    (∃ pre post, e = .insert pre post ∧ ls = pre ++ post ∧ ∀ l ∈ ls, ¬Toml.IsPairLine key l) := by
  rw [editSite] at h
  split at h
  · rename_i pre old post hkey
    cases h
    obtain ⟨hls, hold, -⟩ := splitAtFirst_some hkey
    exact .inl ⟨pre, old, post, rfl, hls, (isKeyLine_iff key old).1 hold⟩
  · rename_i hkey
    refine .inr ?_
    have hno : ∀ l ∈ ls, ¬Toml.IsPairLine key l := fun l hl hp => by
      have := splitAtFirst_none hkey l hl
      rw [(isKeyLine_iff key l).2 hp] at this
      cases this
    split at h
    · rename_i pre l post hafter
      cases h
      obtain ⟨k, -, hk⟩ := Option.bind_eq_some_iff.1 hafter
      exact ⟨pre ++ [l], post, rfl, by rw [(splitAtFirst_some hk).1]; simp, hno⟩
    · obtain ⟨⟨pre, l, post⟩, hsec, he⟩ := Option.map_eq_some_iff.1 h
      cases he
      refine ⟨_, _, rfl, ?_, hno⟩
      rw [List.append_assoc, List.cons_append, List.takeWhile_append_dropWhile]
      exact (splitAtFirst_some hsec).1

/-- The edited lines set the key exactly when the edit fits. -/
theorem setsOnce_apply_iff (hk : Plain key) (hv : Plain value) (hvalid : Toml.Valid kernelTable ls)
    {e : Edit} (h : editSite key afterKey ls = some e) :
    Toml.SetsOnce kernelTable key value ls (e.apply (keyLine key value)) ↔ e.Fits key value ls := by
  rcases editSite_cases h with ⟨pre, old, post, rfl, rfl, hold⟩ | ⟨pre, post, rfl, rfl, hno⟩
  · exact Toml.setsOnce_replace_iff hk.quote hv.quote hv.backslash hvalid hold
  · refine Toml.setsOnce_insert_iff hk.quote hv.quote hv.backslash hvalid.wellRead fun hhead => ?_
    exact hno _ (List.mem_append_right _ (List.mem_of_mem_head? hhead)) ⟨value, rfl⟩

theorem lines_rewriteKernelKey {message : String} {text result : Text} (hk : Plain key)
    (hv : Plain value) (ha : ∀ k ∈ afterKey, '\n' ∉ k)
    (h : rewriteKernelKey message text key value afterKey = .ok result) :
    ∃ e, editSite key afterKey (lines text) = some e ∧ lines result = e.apply (keyLine key value) := by
  rw [rewriteKernelKey_eq message text hk.newline hk.backslash hv.backslash ha] at h
  cases he : editSite key afterKey (lines text) with
  | none =>
    rw [he] at h
    cases h
  | some e =>
    rw [he] at h
    cases h
    have hline := unbroken_keyLine hk hv
    have hls := unbroken_lines text
    refine ⟨e, rfl, ?_⟩
    rcases editSite_cases he with ⟨pre, old, post, rfl, heq, -⟩ | ⟨pre, post, rfl, heq, -⟩ <;>
    · rw [heq] at hls
      refine lines_unlines (fun l hl => ?_) (by simp [Edit.apply])
      simp only [Edit.apply, List.mem_append, List.mem_cons] at hl
      rcases hl with hl | rfl | hl
      · exact hls l (by simp [hl])
      · exact hline
      · exact hls l (by simp [hl])

theorem rewriteKernelKey_sets_iff (message : String) {text result : Text}
    (hvalid : Toml.Valid kernelTable (lines text)) (hk : Plain key) (hv : Plain value)
    (ha : ∀ k ∈ afterKey, '\n' ∉ k)
    (h : rewriteKernelKey message text key value afterKey = .ok result) :
    Toml.SetsOnce kernelTable key value (lines text) (lines result) ↔
      ∃ e, editSite key afterKey (lines text) = some e ∧ e.Fits key value (lines text) := by
  obtain ⟨e, he, hlines⟩ := lines_rewriteKernelKey hk hv ha h
  rw [hlines, setsOnce_apply_iff hk hv hvalid he, he]
  simp

/-- **When a kernel key is set**: on a valid config, a rewriting that succeeds leaves `[kernel]`
with exactly one definition of the key, the given value, and all other lines as they were, if and
only if the edit fits. This holds of both copies of the function. -/
theorem setsKernelKey_iff (text key value : Text) (afterKey : Option Text)
    (hvalid : Toml.Valid kernelTable (lines text)) (hk : Plain key) (hv : Plain value)
    (ha : ∀ k ∈ afterKey, '\n' ∉ k) :
    (∀ result, replaceOrInsertKernelKey text key value afterKey = .ok result →
      (Toml.SetsOnce kernelTable key value (lines text) (lines result) ↔
        ∃ e, editSite key afterKey (lines text) = some e ∧ e.Fits key value (lines text))) ∧
    (∀ result, replaceKernelKey text key value afterKey = .ok result →
      (Toml.SetsOnce kernelTable key value (lines text) (lines result) ↔
        ∃ e, editSite key (afterKey.filter (· ≠ [])) (lines text) = some e ∧
          e.Fits key value (lines text))) := by
  refine ⟨fun result h => rewriteKernelKey_sets_iff _ hvalid hk hv ha h, fun result h => ?_⟩
  exact rewriteKernelKey_sets_iff _ hvalid hk hv
    (fun k hk => ha k (Option.mem_filter_iff.1 hk).1) h

/-- A config whose key is written with blanks around `=`. -/
def spacedConfig : Text := "[kernel]\nimage_location = \"fs\"\n"

/-- The same config without these blanks. -/
def tightConfig : Text := "[kernel]\nimage_location=\"fs\"\n"

theorem valid_spacedConfig : Toml.Valid kernelTable (lines spacedConfig) :=
  ⟨by decide +kernel, by decide +kernel, by decide +kernel, by decide +kernel⟩

theorem valid_tightConfig : Toml.Valid kernelTable (lines tightConfig) :=
  ⟨by decide +kernel, by decide +kernel, by decide +kernel, by decide +kernel⟩

theorem plain_imageLocation : Plain "image_location" :=
  ⟨by decide, by decide, by decide⟩

theorem plain_memory : Plain "memory" := ⟨by decide, by decide, by decide⟩

theorem setsKernelKey_spacedConfig :
    replaceOrInsertKernelKey spacedConfig "image_location" "memory" none =
      .ok "[kernel]\nimage_location = \"memory\"\n" ∧
    Toml.SetsOnce kernelTable "image_location" "memory" (lines spacedConfig)
      (lines "[kernel]\nimage_location = \"memory\"\n") := by
  have h : replaceOrInsertKernelKey spacedConfig "image_location" "memory" none =
      .ok "[kernel]\nimage_location = \"memory\"\n" := by decide +kernel
  refine ⟨h, ((setsKernelKey_iff spacedConfig "image_location" "memory" none
    valid_spacedConfig plain_imageLocation plain_memory (by simp)).1 _ h).2 ?_⟩
  refine ⟨.replace ["[kernel]"] "image_location = \"fs\"" [[]], by decide +kernel,
    .inl ⟨by decide +kernel, by decide +kernel, by decide +kernel⟩⟩

/-- Without blanks around `=` the old definition is not seen, and a second one is inserted. -/
theorem setsKernelKey_tightConfig :
    Toml.Valid kernelTable (lines tightConfig) ∧ Plain "image_location" ∧
    Plain "memory" ∧
    ∃ result, replaceOrInsertKernelKey tightConfig "image_location" "memory" none =
      .ok result ∧
      ¬Toml.SetsOnce kernelTable "image_location" "memory" (lines tightConfig)
        (lines result) := by
  refine ⟨valid_tightConfig, plain_imageLocation, plain_memory,
    "[kernel]\nimage_location = \"memory\"\nimage_location=\"fs\"\n", by decide +kernel, ?_⟩
  intro h
  exact absurd h.once (by decide +kernel)

end Gen.KernelKey
