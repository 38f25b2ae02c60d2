import AxvisorTools.Gen.KeyValue
import AxvisorTools.Gen.Proof.LastWrite

/-!
# Which values survive a rewriting

The value goes through a replacement template in two of three branches and is read back as a TOML
string. `rewriteKernelKey_written` says what is written, and `keyValue_survives_iff` for which values
and keys the string that is read back is the value.
-/

namespace Gen.KernelKey

open Regex Py.Re

variable {pieces : List Piece} {message : String} {key value : Text} {afterKey : Option Text}
  {g : List (Nat × Text)}

/-! ## What is written -/

theorem subn1_of_parse {r : Re} {line : Text}
    (hparse : parseTemplate (line.length + 1) line = some pieces)
    (hall : pieces.all (Piece.refersTo 0) = true) (text : Text) :
    subn1 r 0 line text = some ((search r text).map fun (s, e) =>
      s ++ pieces.flatMap (Piece.text (groupText s e)) ++ e.after) := by
  rw [subn1, hparse, Option.bind_eq_bind, Option.bind_some, hall]
  rfl

theorem expand_of_parse {ngroups : Nat} {groups : Nat → Text} {template : Text}
    (hparse : parseTemplate (template.length + 1) template = some pieces)
    (hall : pieces.all (Piece.refersTo ngroups) = true) :
    expand ngroups groups template = some (pieces.flatMap (Piece.text groups)) := by
  rw [expand, hparse, Option.bind_eq_bind, Option.bind_some, hall]
  rfl

theorem refersTo_one (h : pieces.all (Piece.refersTo 0) = true) :
    pieces.all (Piece.refersTo 1) = true := by
  rw [List.all_eq_true] at h ⊢
  intro p hp
  have hp := h p hp
  cases p with
  | char c => rfl
  | group n =>
    simp only [Piece.refersTo, decide_eq_true_eq] at hp ⊢
    omega

/-- The first substitution is tried in every branch, so the line is a template for no groups. -/
theorem parse_of_rewrite {text result : Text}
    (h : rewriteKernelKey message text key value afterKey = .ok result) :
    ∃ pieces, parseTemplate ((keyLine key value).length + 1) (keyLine key value) = some pieces ∧
      pieces.all (Piece.refersTo 0) = true := by
  unfold rewriteKernelKey at h
  cases hsub : subn1 (keyPattern key) 0 (keyLine key value) text with
  | none =>
    simp only [hsub] at h
    cases h
  | some r =>
    obtain ⟨pieces, hparse, hrest⟩ := Option.bind_eq_some_iff.1 hsub
    refine ⟨pieces, hparse, ?_⟩
    by_contra hall
    rw [Bool.not_eq_true] at hall
    rw [hall] at hrest
    cases hrest

/-- **What a rewriting writes**, and where. -/
theorem rewriteKernelKey_written {text result : Text}
    (h : rewriteKernelKey message text key value afterKey = .ok result) :
    ∃ pre line post, written text key value afterKey = some (pre, line, post) ∧
      result = pre ++ line ++ post := by
  obtain ⟨pieces, hparse, hall⟩ := parse_of_rewrite h
  unfold rewriteKernelKey at h
  unfold written
  simp only [subn1_of_parse hparse hall, subn1_behind, hparse, Option.bind_some,
    if_pos (refersTo_one hall)] at h
  cases hkey : search (keyPattern key) text with
  | some r =>
    obtain ⟨start, e⟩ := r
    simp only [hkey, Option.map_some] at h
    cases h
    simp only [expand_of_parse hparse hall, Option.map_some]
    exact ⟨_, _, _, rfl, rfl⟩
  | none =>
    simp only [hkey, Option.map_none] at h
    have hbelow : insertInSection message text (keyLine key value) = .ok result →
        ∃ pre line post, (search kernelSection text).map (fun r =>
            (r.2.before.reverse ++ ['\n'], keyLine key value, r.2.after)) = some (pre, line, post) ∧
          result = pre ++ line ++ post := by
      intro hinsert
      unfold insertInSection at hinsert
      cases hsection : search kernelSection text with
      | none =>
        simp only [hsection] at hinsert
        cases hinsert
      | some r =>
        simp only [hsection] at hinsert
        cases hinsert
        exact ⟨_, _, _, rfl, by simp⟩
    cases afterKey with
    | none => exact hbelow h
    | some k =>
      cases hafter : search (afterPattern k) text with
      | none =>
        simp only [hafter, Option.map_none] at h
        have hnone : searchAfter text (some k) = none := hafter
        simp only [hnone]
        exact hbelow h
      | some r =>
        obtain ⟨start, e⟩ := r
        simp only [hafter, Option.map_some] at h
        cases h
        have hsome : searchAfter text (some k) = some (start, e) := hafter
        simp only [hsome, expand_of_parse hparse (refersTo_one hall), Option.map_some]
        refine ⟨_, _, _, rfl, ?_⟩
        obtain ⟨x, y, g, -, hm, rfl⟩ := search_some hafter
        obtain ⟨-, hgroup⟩ := afterPattern_ends_line hm
        simp [groupText, hgroup]

/-! ## What is read back -/

/-- A value that can stand between double quotes as it is. -/
structure Quotable (value : Text) : Prop where
  quote : '"' ∉ value
  backslash : '\\' ∉ value
  text : Toml.IsStringText value

theorem stringFor_eq_some_iff {line s : Text} : stringFor key line = some s ↔
    ∃ t, line = key ++ " = \"" ++ t ∧ Toml.readBasic t = some (s, []) := by
  unfold stringFor
  constructor
  · intro h
    split at h
    · rename_i hpre
      obtain ⟨t, rfl⟩ := hpre
      rw [List.drop_left] at h
      split at h
      · rename_i hread
        cases h
        exact ⟨t, rfl, hread⟩
      · cases h
    · cases h
  · rintro ⟨t, rfl, hread⟩
    rw [if_pos (List.prefix_append _ _), List.drop_left, hread]

theorem stringFor_keyLine_iff (key value : Text) :
    stringFor key (keyLine key value) = some value ↔ Quotable value := by
  have hline : keyLine key value = key ++ " = \"" ++ (value ++ ['"']) := by
    rw [keyLine, List.append_assoc]
  rw [stringFor_eq_some_iff]
  constructor
  · rintro ⟨t, hline', hread⟩
    rw [hline] at hline'
    obtain rfl := List.append_cancel_left hline'
    obtain ⟨-, hquote, hback, htext⟩ := (Toml.spells_of_readBasic _ hread).plain (by simp)
    exact ⟨hquote, hback, htext⟩
  · rintro ⟨hquote, hback, htext⟩
    exact ⟨_, hline, Toml.readBasic_text hquote hback htext []⟩

/-- **What a template leaves of a value**: the string that is read back is the value exactly when the
whole line stands for itself. -/
theorem stringFor_expand_iff {groups : Nat → Text}
    (hparse : parseTemplate ((keyLine key value).length + 1) (keyLine key value) = some pieces)
    (hgroups : ∀ n, Piece.group n ∈ pieces → 1 ≤ (groups n).count '=') :
    stringFor key (pieces.flatMap (Piece.text groups)) = some value ↔
      Quotable value ∧ verbatim (key ++ " = ") = true := by
  have hverbatim : '\\' ∉ value →
      verbatim (keyLine key value) = verbatim (key ++ " = ") := by
    intro hback
    have hline : keyLine key value = key ++ [' ', '='] ++ ' ' :: ('"' :: value ++ ['"']) := by
      simp [keyLine]
    have hkey : key ++ " = " = key ++ [' ', '='] ++ [' '] := by simp
    rw [hline, hkey, verbatim_append_blank, verbatim_of_not_mem (t := '"' :: value ++ ['"'])
      (by simpa using hback), Bool.and_true]
  constructor
  · intro h
    obtain ⟨t, hline, hread⟩ := stringFor_eq_some_iff.1 h
    have hkeyLine : keyLine key value = key ++ " = \"" ++ (value ++ ['"']) := by
      rw [keyLine, List.append_assoc]
    generalize key ++ " = \"" = p at hline hkeyLine
    obtain ⟨hcount, hlength⟩ := expand_cases (Nat.lt_succ_self _) hparse hgroups
    have hspells := Toml.spells_of_readBasic _ hread
    have hequals := hspells.equals
    have hlen := hspells.length
    rw [List.count_nil, Nat.add_zero] at hequals
    rw [List.length_nil] at hlen
    -- every group would bring an `=` that is not in the value
    have hnone : pieces.countP Piece.isGroup = 0 := by
      simp only [hline, hkeyLine, List.count_append] at hcount
      omega
    -- every other escape would make the line shorter than the value allows
    obtain ⟨hle, hsame⟩ := hlength hnone
    have hlengths : (pieces.flatMap (Piece.text groups)).length = (keyLine key value).length := by
      simp only [hline, hkeyLine, List.length_append, List.length_singleton] at hle ⊢
      omega
    obtain ⟨heq, hv⟩ := hsame hlengths
    rw [hline, hkeyLine] at heq
    obtain rfl := List.append_cancel_left heq
    obtain ⟨-, hquote, hback, htext⟩ := hspells.plain (by simp)
    exact ⟨⟨hquote, hback, htext⟩, hverbatim hback ▸ hv⟩
  · rintro ⟨hvalue, hkey⟩
    have hv : verbatim (keyLine key value) = true := by rw [hverbatim hvalue.backslash, hkey]
    rw [parseTemplate_verbatim (Nat.lt_succ_self _) hv] at hparse
    cases hparse
    rw [flatMap_char]
    exact (stringFor_keyLine_iff key value).2 hvalue

/-- The value comes back from the line that is written. -/
def Survives (text key value : Text) (afterKey : Option Text) : Prop :=
  Quotable value ∧ (verbatim (key ++ " = ") = true ∨ belowHeader text key afterKey = true)

/-- A group of a line that is written is the whole match, and has an `=` in it. -/
theorem one_le_count_group (hall : pieces.all (Piece.refersTo 0) = true) {start x y : Text}
    (hx : '=' ∈ x) :
    ∀ n, Piece.group n ∈ pieces →
      1 ≤ (groupText start ⟨x.reverse ++ start.reverse, y, g⟩ n).count '=' := by
  intro n hn
  have hzero := List.all_eq_true.1 hall _ hn
  simp only [Piece.refersTo, decide_eq_true_eq, Nat.le_zero] at hzero
  have hwhole : groupText start ⟨x.reverse ++ start.reverse, y, g⟩ n = x := by
    rw [groupText, if_pos hzero]
    simp
  rw [hwhole]
  exact List.one_le_count_iff.2 hx

theorem equals_mem_of_lit {t x : Text} {r r' : Re} (ht : '=' ∈ t) {b y : Text}
    (h : Matches (.seq r (.seq (lit t) r')) b x y g) : '=' ∈ x := by
  obtain ⟨u, v, _, _, rfl, -, -, hbody⟩ := matches_seq_iff.1 h
  obtain ⟨u', v', _, _, rfl, -, hlit, -⟩ := matches_seq_iff.1 hbody
  obtain ⟨rfl, -⟩ := (matches_lit_iff t).1 hlit
  exact List.mem_append_right _ (List.mem_append_left _ ht)

theorem equals_mem_of_afterPattern {k b x y : Text} (h : Matches (afterPattern k) b x y g) :
    '=' ∈ x := by
  obtain ⟨u, v, _, _, rfl, -, -, hbody⟩ := matches_seq_iff.1 h
  obtain ⟨u', v', _, _, rfl, -, hgroup, -⟩ := matches_seq_iff.1 hbody
  obtain ⟨g', -, hline⟩ := matches_group_iff.1 hgroup
  obtain ⟨u'', v'', _, _, rfl, -, hlit, -⟩ := matches_seq_iff.1 hline
  obtain ⟨rfl, -⟩ := (matches_lit_iff _).1 hlit
  simp

theorem rewriteKernelKey_survives_iff {text result : Text}
    (h : rewriteKernelKey message text key value afterKey = .ok result) :
    ∃ pre line post, written text key value afterKey = some (pre, line, post) ∧
      result = pre ++ line ++ post ∧
      (stringFor key line = some value ↔ Survives text key value afterKey) := by
  obtain ⟨pre, line, post, hwritten, hresult⟩ := rewriteKernelKey_written h
  refine ⟨pre, line, post, hwritten, hresult, ?_⟩
  obtain ⟨pieces, hparse, hall⟩ := parse_of_rewrite h
  unfold written at hwritten
  unfold Survives belowHeader
  cases hkey : search (keyPattern key) text with
  | some r =>
    obtain ⟨start, e⟩ := r
    simp only [hkey, expand_of_parse hparse hall, Option.map_some, Option.some.injEq,
      Prod.mk.injEq] at hwritten
    obtain ⟨-, rfl, -⟩ := hwritten
    obtain ⟨x, y, g, -, hm, rfl⟩ := search_some hkey
    have hx : '=' ∈ x := equals_mem_of_lit (by simp) hm
    rw [stringFor_expand_iff hparse (one_le_count_group hall hx)]
    simp
  | none =>
    cases hafter : searchAfter text afterKey with
    | some r =>
      obtain ⟨start, e⟩ := r
      simp only [hkey, hafter, expand_of_parse hparse (refersTo_one hall), Option.map_some,
        Option.some.injEq, Prod.mk.injEq] at hwritten
      obtain ⟨-, rfl, -⟩ := hwritten
      obtain ⟨k, -, hsearch⟩ := Option.bind_eq_some_iff.1 hafter
      obtain ⟨x, y, g, -, hm, rfl⟩ := search_some hsearch
      rw [stringFor_expand_iff hparse (one_le_count_group hall (equals_mem_of_afterPattern hm))]
      simp
    | none =>
      simp only [hkey, hafter] at hwritten
      obtain ⟨r, -, heq⟩ := Option.map_eq_some_iff.1 hwritten
      cases heq
      rw [stringFor_keyLine_iff]
      simp

/-- **Which values survive a rewriting**: the string in the line that is written is the value if and
only if the value has no quote, backslash or control character, and the template leaves the key alone.
This holds of both copies of the function. -/
theorem keyValue_survives_iff (text key value : Text) (afterKey : Option Text) :
    (∀ result, replaceOrInsertKernelKey text key value afterKey = .ok result →
      ∃ pre line post, written text key value afterKey = some (pre, line, post) ∧
        result = pre ++ line ++ post ∧
        (stringFor key line = some value ↔ Survives text key value afterKey)) ∧
    (∀ result, replaceKernelKey text key value afterKey = .ok result →
      ∃ pre line post, written text key value (afterKey.filter (· ≠ [])) = some (pre, line, post) ∧
        result = pre ++ line ++ post ∧
        (stringFor key line = some value ↔
          Survives text key value (afterKey.filter (· ≠ [])))) :=
  ⟨fun _ h => rewriteKernelKey_survives_iff h, fun _ h => rewriteKernelKey_survives_iff h⟩

/-- A path without special characters. -/
theorem keyValue_survives_kernelPath :
    replaceOrInsertKernelKey "[kernel]\nkernel_path = \"\"\n".toList "kernel_path".toList
        "/boot/Image".toList none = .ok "[kernel]\nkernel_path = \"/boot/Image\"\n".toList ∧
      stringFor "kernel_path".toList "kernel_path = \"/boot/Image\"".toList =
        some "/boot/Image".toList := by
  have h : replaceOrInsertKernelKey "[kernel]\nkernel_path = \"\"\n".toList "kernel_path".toList
      "/boot/Image".toList none = .ok "[kernel]\nkernel_path = \"/boot/Image\"\n".toList := by
    decide +kernel
  have hwritten : written "[kernel]\nkernel_path = \"\"\n".toList "kernel_path".toList
      "/boot/Image".toList none = some ("[kernel]\n".toList,
        "kernel_path = \"/boot/Image\"".toList, "\n".toList) := by decide +kernel
  obtain ⟨pre, line, post, hline, -, hiff⟩ := (keyValue_survives_iff _ _ _ _).1 _ h
  rw [hwritten] at hline
  cases hline
  refine ⟨h, hiff.2 ⟨⟨by decide, by decide, by decide⟩, .inl (by decide)⟩⟩

/-- A path with `\t` in it is written with a tab, and one with a quote as no string at all. -/
theorem keyValue_lost_backslash :
    written "[kernel]\nkernel_path = \"\"\n".toList "kernel_path".toList "a\\tb".toList none =
        some ("[kernel]\n".toList, "kernel_path = \"a\tb\"".toList, "\n".toList) ∧
      replaceOrInsertKernelKey "[kernel]\nkernel_path = \"\"\n".toList "kernel_path".toList
        "a\\tb".toList none = .ok "[kernel]\nkernel_path = \"a\tb\"\n".toList ∧
      stringFor "kernel_path".toList "kernel_path = \"a\tb\"".toList = some "a\tb".toList ∧
      replaceOrInsertKernelKey "[kernel]\nkernel_path = \"\"\n".toList "kernel_path".toList
        "a\"b".toList none = .ok "[kernel]\nkernel_path = \"a\"b\"\n".toList ∧
      stringFor "kernel_path".toList "kernel_path = \"a\"b\"".toList = none := by
  refine ⟨?_, ?_, ?_, ?_, ?_⟩
  all_goals decide +kernel

end Gen.KernelKey
