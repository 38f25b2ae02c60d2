import AxvisorTools.Gen.RawString

/-!
# Raw string literals are exact

`rustRawString_spec`: the lexer reads `rustRawString v` back as `v`, whatever follows, and the
encoder raises exactly when `v` holds a quote followed by fifteen hashes. The terminator cannot
start inside `v`: the hashes it needs would have to run into the closing quote
(`marks_prefix_of_append`).
-/

namespace Gen

theorem marks_prefix_of_append {h : Nat} {v t : Text} (hp : marks h <+: v ++ '"' :: t) :
    marks h <+: v := by
  induction h generalizing v with
  | zero => exact List.nil_prefix
  | succ h ih =>
    rw [marks, List.replicate_succ] at hp ⊢
    cases v with
    | nil =>
      have := (List.cons_prefix_cons.1 hp).1
      exact absurd this (by decide)
    | cons c v =>
      rw [List.cons_append, List.cons_prefix_cons] at hp
      exact List.cons_prefix_cons.2 ⟨hp.1, ih hp.2⟩

/-- The lexer reads a body that does not hold the terminator up to the closing quote. -/
theorem lexRawBody_append {h : Nat} {rest : Text} : ∀ {v : Text}, '\r' ∉ v →
    ¬ ('"' :: marks h) <:+: v → lexRawBody h (v ++ '"' :: (marks h ++ rest)) = some (v, rest)
  | [], _, _ => by
    have hd : (marks h ++ rest).drop h = rest := by
      rw [List.drop_append_of_le_length (by simp [marks])]
      simp [marks]
    rw [List.nil_append, lexRawBody, if_pos ⟨rfl, List.prefix_append _ _⟩, hd]
  | c :: v, hcr, hno => by
    rw [List.cons_append, lexRawBody, if_neg, if_neg,
      lexRawBody_append (fun h => hcr (List.mem_cons_of_mem _ h))
        fun h => hno (h.trans (List.suffix_cons c v).isInfix)]
    · rfl
    · rintro rfl
      exact hcr List.mem_cons_self
    · rintro ⟨rfl, hp⟩
      have hin : ('"' :: marks h) <+: '"' :: v :=
        List.cons_prefix_cons.2 ⟨rfl, marks_prefix_of_append hp⟩
      exact hno hin.isInfix

theorem leadingHashes_marks (h : Nat) (t : Text) : leadingHashes (marks h ++ '"' :: t) = h := by
  unfold leadingHashes
  rw [List.takeWhile_append_of_pos (by simp [marks]), List.takeWhile_cons_of_neg (by decide)]
  simp [marks]

/-- The lexer on a literal with few enough hashes that its value does not close. -/
theorem lexRawString_literal {h : Nat} (hh : h ≤ 255) {v rest : Text} (hcr : '\r' ∉ v)
    (hno : ¬ ('"' :: marks h) <:+: v) : lexRawString (rawLiteral h v ++ rest) = some (v, rest) := by
  have hlit : rawLiteral h v ++ rest = 'r' :: (marks h ++ '"' :: (v ++ '"' :: (marks h ++ rest))) := by
    simp [rawLiteral]
  have hdrop : (marks h ++ '"' :: (v ++ '"' :: (marks h ++ rest))).drop h =
      '"' :: (v ++ '"' :: (marks h ++ rest)) := by
    rw [List.drop_append_of_le_length (by simp [marks])]
    simp [marks]
  rw [hlit, lexRawString, leadingHashes_marks, if_pos hh, hdrop]
  exact lexRawBody_append hcr hno

theorem quote_marks_mono {h k : Nat} (hk : h ≤ k) {v : Text} (hin : ('"' :: marks k) <:+: v) :
    ('"' :: marks h) <:+: v := by
  have : marks k = marks h ++ marks (k - h) := by
    simp only [marks, List.replicate_append_replicate]
    congr 1
    omega
  rw [this, ← List.cons_append] at hin
  exact (List.prefix_append _ _).isInfix.trans hin

/-- **Raw string literals are exact**: the literal reads back as the value in front of every text
that adds no hash, and only a quote with fifteen hashes cannot be encoded. -/
theorem rustRawString_spec (v : Text) (hcr : '\r' ∉ v) :
    (∀ L, rustRawString v = .ok L → ∀ rest : Text, rest.head? ≠ some '#' →
      lexRawString (L ++ rest) = some (v, rest)) ∧
    ((∃ e, rustRawString v = .error e) ↔ ('"' :: marks 15) <:+: v) := by
  unfold rustRawString
  cases hf : (List.range 16).find? fun h => ¬ ('"' :: marks h) <:+: v with
  | some h =>
    have hmem := List.mem_range.1 (List.mem_of_find?_eq_some hf)
    have hno : ¬ ('"' :: marks h) <:+: v := by simpa using List.find?_some hf
    refine ⟨?_, ?_⟩
    · rintro L ⟨⟩ rest -
      exact lexRawString_literal (by omega) hcr hno
    · constructor
      · rintro ⟨e, ⟨⟩⟩
      · intro h15
        exact absurd (quote_marks_mono (by omega) h15) hno
  | none =>
    have h15 : ('"' :: marks 15) <:+: v := by
      have := List.find?_eq_none.1 hf 15 (by decide)
      simpa using this
    refine ⟨?_, fun _ => h15, fun _ => ⟨_, rfl⟩⟩
    rintro L ⟨⟩

theorem rustRawString_spec_quote_hash :
    lexRawString (rawLiteral 2 "a\"#" ++ "]".toList) = some ("a\"#".toList, "]".toList) :=
  (rustRawString_spec "a\"#" (by decide)).1 _ (by decide) _ (by decide)

end Gen
