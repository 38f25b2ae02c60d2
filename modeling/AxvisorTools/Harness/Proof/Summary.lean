import AxvisorTools.Harness.Proof.Case

/-!
# Searching summaries

What a search finds in the `summary.txt` and the `summary.json` of a harness, in terms of its
records. The searches are not bound to a case: `STATUS=pass` is found when any case passed
(`infix_status_iff`), and so is `"status": "pass"` (`statusField_iff`).
-/

namespace Harness

open Shell Py Json

/-! ## `summary.txt` -/

/-- Characters that the pattern does not have cannot help to find it. -/
theorem infix_append_of_disjoint {n a b : Text} (hn : n ≠ []) (h : ∀ c ∈ b, c ∉ n) :
    n <:+: a ++ b ↔ n <:+: a := by
  refine ⟨?_, fun h => h.trans (List.prefix_append _ _).isInfix⟩
  rintro ⟨x, y, he⟩
  rcases List.append_eq_append_iff.1 he with ⟨z, rfl, -⟩ | ⟨z, hz, rfl⟩
  · exact ⟨x, z, rfl⟩
  · rcases List.eq_nil_or_concat z with rfl | ⟨z, c, rfl⟩
    · exact ⟨x, [], by simpa using hz⟩
    -- the last character of the pattern would have to be one of `b`
    · rcases List.eq_nil_or_concat n with rfl | ⟨n, e, rfl⟩
      · exact absurd rfl hn
      · rw [List.concat_eq_append, List.concat_eq_append, ← List.append_assoc,
          ← List.append_assoc] at hz
        have hlast : e = c := by simpa using (List.append_inj' hz rfl).2
        exact absurd (by simp [hlast]) (h c (by simp))

theorem digits_disjoint {n : Text} (hn : n.all (fun c => !c.isDigit) = true) (k : Nat) :
    ∀ c ∈ Nat.toDigits 10 k, c ∉ n := by
  intro c hc hcn
  have h := List.all_eq_true.1 hn c hcn
  rw [Nat.isDigit_of_mem_toDigits (by decide) (by decide) hc] at h
  cases h

/-- A search in `summary.txt` looks at the four lines of each case. -/
theorem infix_caseBlock {n : Text} (hn : '\n' ∉ n) (hne : n ≠ []) (r : Record) (rest : Text) :
    n <:+: caseBlock r ++ rest ↔ n <:+: "CASE=" ++ r.id ∨
      n <:+: "STATUS=" ++ r.status.text ∨ n <:+: "REASON=" ++ r.reason ∨
      n <:+: "ARTIFACTS=" ++ artifactsJson r.artifacts ∨ n <:+: rest := by
  have h1 : "\nSTATUS=" = '\n' :: "STATUS=" := by decide
  have h2 : "\nREASON=" = '\n' :: "REASON=" := by decide
  have h3 : "\nARTIFACTS=" = '\n' :: "ARTIFACTS=" := by decide
  have h4 : "\n\n" = ['\n', '\n'] := by decide
  have hsplit : caseBlock r ++ rest = ("CASE=" ++ r.id) ++ '\n' ::
      (("STATUS=" ++ r.status.text) ++ '\n' :: (("REASON=" ++ r.reason) ++ '\n' ::
      (("ARTIFACTS=" ++ artifactsJson r.artifacts) ++ '\n' :: ([] ++ '\n' :: rest)))) := by
    unfold caseBlock
    rw [h1, h2, h3, h4]
    simp only [List.append_assoc, List.cons_append, List.nil_append]
  have hnil : ¬n <:+: [] := fun h => hne (List.infix_nil.1 h)
  rw [hsplit, infix_append_sep hn, infix_append_sep hn, infix_append_sep hn, infix_append_sep hn,
    infix_append_sep hn, or_iff_right hnil]

def statusPassText : Text := "STATUS=pass"

/-- Only the status line of the record can show that it passed. -/
structure Silent (r : Record) : Prop where
  id : ¬statusPassText <:+: "CASE=" ++ r.id
  reason : ¬statusPassText <:+: "REASON=" ++ r.reason
  artifacts : ¬statusPassText <:+: "ARTIFACTS=" ++ artifactsJson r.artifacts

theorem infix_status_text (v : Verdict) :
    statusPassText <:+: "STATUS=" ++ v.text ↔ v = .pass := by
  cases v <;> decide

/-- `STATUS=pass` is found if and only if some case passed, or in what follows the cases. -/
theorem infix_status_iff {rs : List Record} (h : ∀ r ∈ rs, Silent r) (rest : Text) :
    statusPassText <:+: rs.flatMap caseBlock ++ rest ↔
      (∃ r ∈ rs, r.status = .pass) ∨ statusPassText <:+: rest := by
  induction rs with
  | nil => simp
  | cons r rs ih =>
    have hr := h r List.mem_cons_self
    rw [List.flatMap_cons, List.append_assoc, infix_caseBlock (by decide) (by decide),
      infix_status_text, or_iff_right hr.id, or_iff_right hr.reason, or_iff_right hr.artifacts,
      ih fun r' hr' => h r' (List.mem_cons_of_mem _ hr')]
    simp [or_assoc]

theorem infix_case {rs : List Record} {r : Record} (h : r ∈ rs) (rest : Text) :
    "CASE=".toList ++ r.id <:+: rs.flatMap caseBlock ++ rest := by
  obtain ⟨a, b, rfl⟩ := List.append_of_mem h
  refine ⟨a.flatMap caseBlock, "\nSTATUS=".toList ++ r.status.text ++ "\nREASON=".toList ++
    r.reason ++ "\nARTIFACTS=".toList ++ artifactsJson r.artifacts ++ "\n\n".toList ++
    b.flatMap caseBlock ++ rest, ?_⟩
  simp only [List.flatMap_append, List.flatMap_cons, List.append_assoc]
  unfold caseBlock
  simp only [List.append_assoc]

/-- The lines that a case can write to `summary.txt`, but for the status. -/
def CaseText.texts (c : CaseText) : List Text :=
  ["CASE=" ++ c.id, "REASON=" ++ c.passReason, "REASON=" ++ c.failReason,
    "REASON=" ++ c.rcReason,
    "ARTIFACTS=" ++ artifactsJson (c.passArtifacts.map (caseFile c.id)),
    "ARTIFACTS=" ++ artifactsJson (c.failArtifacts.map (caseFile c.id))]

theorem silent_record {c : Case} (h : ∀ t ∈ c.texts, ¬statusPassText <:+: t) (o : Outcome)
    (fs : Files) : Silent (c.record o fs) := by
  simp only [CaseText.texts, List.forall_mem_cons] at h
  obtain ⟨hid, hpass, hfail, hrc, hpassArt, hfailArt, -⟩ := h
  refine ⟨hid, ?_, ?_⟩
  · unfold Case.record
    dsimp only
    split
    · rwa [← List.append_assoc, infix_append_of_disjoint (by decide)
        (digits_disjoint (by decide) _)]
    split
    · exact hpass
    · exact hfail
  · unfold Case.record
    dsimp only
    split
    · exact hpassArt
    · exact hfailArt

/-! ## `summary.json` -/

theorem fileHas_field_iff {doc : Json} (hx : ∀ name ∈ keys doc, '"' ∉ name) {key value : Text}
    (hkey : IsWord key) (hv : Plain value) :
    fileHas (some (dumpsIndent doc ++ ['\n'])) (Regex.lit (fieldText [' '] key value)) = true ↔
      (key, value) ∈ stringFields doc := by
  have hnl : '\n' ∉ fieldText [' '] key value := by
    have hk := hkey.not_mem (c := '\n') (by decide) (by decide) (by decide)
    have hv' := hv.not_mem (c := '\n') (by decide) (by decide) (by decide)
    rw [fieldText, quote, quote, escape_of_word hkey, escape_of_plain hv]
    simp [hk, hv']
  rw [fileHas, Option.any_some, grep_lit_iff hnl (by simp [fieldText, quote]), dumpsIndent,
    infix_render_iff (fun _ => rfl) hkey hv hx 0 (by decide)]

theorem stringFields_tests (timed : Bool) (rs : List Record) :
    stringFieldsItems (rs.map (Record.json timed)) = rs.flatMap fun r =>
      [("id".toList, r.id), ("status".toList, r.status.text), ("reason".toList, r.reason)] := by
  induction rs with
  | nil => rfl
  | cons r rs ih =>
    rw [List.map_cons, stringFieldsItems, stringFields_json, ih, List.flatMap_cons]

theorem keys_tests (timed : Bool) (rs : List Record) :
    ∀ name ∈ keysItems (rs.map (Record.json timed)), '"' ∉ name := by
  induction rs with
  | nil => exact fun _ h => absurd h List.not_mem_nil
  | cons r rs ih =>
    rw [List.map_cons, keysItems]
    exact List.forall_mem_append.2 ⟨keys_json timed r, ih⟩

theorem mem_status_tests (timed : Bool) (rs : List Record) :
    ("status".toList, "pass".toList) ∈ stringFieldsItems (rs.map (Record.json timed)) ↔
      ∃ r ∈ rs, r.status = .pass := by
  have h1 : "status".toList ≠ "id".toList := by decide
  have h2 : "status".toList ≠ "reason".toList := by decide
  have h3 : ∀ v : Verdict, "pass".toList = v.text ↔ v = .pass := by
    intro v
    cases v <;> decide
  simp only [stringFields_tests, List.mem_flatMap, List.mem_cons, Prod.mk.injEq, h1, h2, false_and,
    true_and, List.not_mem_nil, or_false, false_or, h3]

theorem mem_id_tests (timed : Bool) {id : Text} (rs : List Record) :
    ("id".toList, id) ∈ stringFieldsItems (rs.map (Record.json timed)) ↔ id ∈ rs.map Record.id := by
  have h1 : "id".toList ≠ "status".toList := by decide
  have h2 : "id".toList ≠ "reason".toList := by decide
  simp only [stringFields_tests, List.mem_flatMap, List.mem_cons, Prod.mk.injEq, h1, h2, false_and,
    true_and, List.not_mem_nil, or_false, List.mem_map]
  exact exists_congr fun r => and_congr_right fun _ => eq_comm

end Harness
