import AxvisorTools.Harness.Record
import AxvisorTools.Py.Proof.JsonSearch
import AxvisorTools.Shell.Proof.Files
import AxvisorTools.Shell.Proof.Sums
import AxvisorTools.Shell.Proof.Triple

/-!
# The ledger

`ledgerLine_eq`: a line of the ledger is a JSON object printed on one line. `decodeTests_ledger`:
the ledger of a list of records decodes to that list. `grep_ledger_iff`: a search for an id in the
ledger finds exactly the recorded ids.
-/

namespace Harness

open Shell Py Json

variable {s : State}

/-! ## Lines of the ledger -/

/-- The JSON object of a record. -/
def Record.json (timed : Bool) (r : Record) : Json :=
  .obj ([("id".toList, .str r.id), ("status".toList, .str r.status.text),
    ("reason".toList, .str r.reason)] ++
    (if timed then [("duration_ms".toList, .num 0)] else []) ++
    [("artifacts".toList, .arr (r.artifacts.map .str))])

/-- The white space in a line of the ledger: `printf` writes none around the fields, `json.dumps`
puts a blank after the commas of the artifact list. -/
def ledgerLayout : Layout where
  opening _ := []
  closing _ := []
  comma k := if k = 0 then [] else [' ']
  colon _ := []
  white k := by by_cases h : k = 0 <;> simp [h, isWhite]

theorem ledgerLayout_inline : Layout.Inline ledgerLayout := by
  intro k
  refine ⟨.nil, .nil, ?_, .nil⟩
  by_cases h : k = 0 <;> simp [ledgerLayout, h, Printable]

theorem substitute_echo {t : Text} {c : Char} (hc : c ≠ '\n') :
    substitute (echo (t ++ [c])) = t ++ [c] := by
  rw [substitute, echo, List.rdropWhile_concat_pos _ _ _ (by decide),
    List.rdropWhile_concat_neg _ _ _ (by simpa using hc)]

theorem jsonString_eq (t : Text) : jsonString t = quote t := by
  rw [jsonString, dumps, render, quote]
  exact substitute_echo (by decide)

theorem render_strings (l : Layout) (xs : List Text) (hk : l.comma 1 = [' ']) :
    renderItems l 1 (xs.map .str) = renderItems inlineLayout 0 (xs.map .str) := by
  induction xs with
  | nil => rfl
  | cons x xs ih => simp [renderItems, ih, hk, render, inlineLayout]

theorem artifactsJson_eq (as : List Text) :
    artifactsJson as = render ledgerLayout 1 (.arr (as.map .str)) := by
  cases as with
  | nil => rfl
  | cons a as =>
    have h := render_strings ledgerLayout as rfl
    have hr : render ledgerLayout 1 (.arr ((a :: as).map .str)) =
        '[' :: quote a ++ renderItems ledgerLayout 1 (as.map .str) ++ [']'] := by
      simp [render, ledgerLayout]
    rw [artifactsJson, dumps, List.map_cons, render, substitute_echo (by decide),
      ← List.map_cons, hr, h]
    simp [inlineLayout, render]

theorem ledgerFormat :
    "\x7b\"id\":".toList = '\x7b' :: quote "id".toList ++ [':'] ∧
    ",\"status\":".toList = ',' :: quote "status".toList ++ [':'] ∧
    ",\"reason\":".toList = ',' :: quote "reason".toList ++ [':'] ∧
    ",\"duration_ms\":0".toList = ',' :: quote "duration_ms".toList ++ [':', '0'] ∧
    ",\"artifacts\":".toList = ',' :: quote "artifacts".toList ++ [':'] ∧
    "\x7d\n".toList = ['\x7d', '\n'] ∧ "".toList = [] := by decide +kernel

theorem ledgerLine_eq (timed : Bool) (r : Record) :
    ledgerLine timed r = render ledgerLayout 0 (r.json timed) ++ ['\n'] := by
  obtain ⟨h1, h2, h3, h4, h5, h6, h7⟩ := ledgerFormat
  have hopen : ledgerLayout.opening 0 = [] := rfl
  have hclose : ledgerLayout.closing 0 = [] := rfl
  have hcomma : ledgerLayout.comma 0 = [] := rfl
  have hcolon : ledgerLayout.colon 0 = [] := rfl
  have h0 : Nat.toDigits 10 0 = ['0'] := rfl
  unfold ledgerLine
  cases timed <;>
  simp only [jsonString_eq, artifactsJson_eq, h1, h2, h3, h4, h5, h6, h7, Record.json,
    Bool.false_eq_true, if_true, if_false, List.append_assoc, List.cons_append, List.nil_append,
    render, renderFields, hopen, hclose, hcomma, hcolon, h0, List.append_nil, Nat.zero_add]

/-- The ledger of a list of records. -/
def ledger (timed : Bool) (rs : List Record) : Text := rs.flatMap (ledgerLine timed)

theorem ledger_append (timed : Bool) (rs ts : List Record) :
    ledger timed (rs ++ ts) = ledger timed rs ++ ledger timed ts := List.flatMap_append

theorem ledger_eq (timed : Bool) (rs : List Record) :
    ledger timed rs = above (rs.map fun r => render ledgerLayout 0 (r.json timed)) := by
  rw [ledger, above, List.flatMap_map]
  exact List.flatMap_congr fun r _ => ledgerLine_eq timed r

/-! ## Decoding -/

theorem isBlank_render_record (timed : Bool) (r : Record) :
    isBlank (render ledgerLayout 0 (r.json timed)) = false := by
  have h : Re.isWhite '\x7b' = false := by decide
  simp only [Record.json, List.cons_append, render, isBlank, List.all_cons, h, Bool.false_and]

theorem decodeTests_ledger (timed : Bool) (rs : List Record) :
    decodeTests (some (ledger timed rs)) = some (rs.map (Record.json timed)) := by
  have hp : ∀ l ∈ rs.map (fun r => render ledgerLayout 0 (r.json timed)), Printable l := by
    intro l hl
    obtain ⟨r, -, rfl⟩ := List.mem_map.1 hl
    exact printable_render ledgerLayout_inline _ 0
  simp only [decodeTests, ledger_eq, universalNewlines_above hp, splitlines_above hp]
  clear hp
  induction rs with
  | nil => rfl
  | cons r rs ih =>
    have hl : loads (render ledgerLayout 0 (r.json timed)) = some (r.json timed) := by
      simpa using loads_render ledgerLayout (r.json timed) (w := []) rfl
    rw [List.map_cons, List.filter_cons_of_pos (by simp [isBlank_render_record]), List.mapM_cons, hl]
    simp only [Option.bind_eq_bind, Option.bind_some, ih]
    rfl

theorem get_status_json (timed : Bool) (r : Record) :
    ((r.json timed).get "status".toList).bind text? = some r.status.text := by
  cases timed <;> rfl

theorem text_injective {v w : Verdict} (h : v.text = w.text) : v = w := by
  revert h
  cases v <;> cases w <;> decide

theorem countStatus_json (timed : Bool) (v : Verdict) (rs : List Record) :
    countStatus v (rs.map (Record.json timed)) = (rs.filter (·.status = v)).length := by
  rw [countStatus, List.filter_map, List.length_map]
  congr 2
  funext r
  simp only [Function.comp_apply, get_status_json, Option.some.injEq]
  exact decide_eq_decide.2 ⟨text_injective, congrArg _⟩

/-! ## Searching -/

theorem stringFields_json (timed : Bool) (r : Record) :
    stringFields (r.json timed) = [("id".toList, r.id), ("status".toList, r.status.text),
      ("reason".toList, r.reason)] := by
  have h : ∀ as : List Text, stringFieldsItems (as.map .str) = [] := by
    intro as
    induction as with
    | nil => rfl
    | cons a as ih => simp [stringFieldsItems, stringFields, ih]
  cases timed <;> simp [Record.json, stringFields, stringFieldsFields, h]

theorem keys_json (timed : Bool) (r : Record) : ∀ name ∈ keys (r.json timed), '"' ∉ name := by
  have h : ∀ as : List Text, keysItems (as.map .str) = [] := by
    intro as
    induction as with
    | nil => rfl
    | cons a as ih => simp [keysItems, keys, ih]
  cases timed <;> simp [Record.json, keys, keysFields, h]

/-- A search for an id finds it exactly when it is recorded. -/
theorem grep_ledger_iff (timed : Bool) {id : Text} (hid : Plain id) (rs : List Record) :
    grep (Regex.lit (fieldText [] "id".toList id)) (ledger timed rs) = true ↔
      id ∈ rs.map Record.id := by
  have hkey : IsWord "id".toList := by decide
  have hnl : '\n' ∉ fieldText [] "id".toList id := by
    rw [fieldText, quote, quote, escape_of_word hkey, escape_of_plain hid]
    simp [hid.not_mem (c := '\n') (by decide) (by decide) (by decide)]
  have hu : Unbroken (rs.map fun r => render ledgerLayout 0 (r.json timed)) := by
    intro l hl hm
    obtain ⟨r, -, rfl⟩ := List.mem_map.1 hl
    exact absurd (printable_render ledgerLayout_inline _ 0 _ hm) (by decide)
  have hline : ∀ r : Record, fieldText [] "id".toList id <:+: render ledgerLayout 0 (r.json timed) ↔
      r.id = id := by
    intro r
    have h := infix_render_iff (fun _ => rfl) hkey hid (l := ledgerLayout) (keys_json timed r) 0
      (w := []) rfl
    rw [List.append_nil, stringFields_json] at h
    have h1 : "id".toList ≠ "status".toList := by decide
    have h2 : "id".toList ≠ "reason".toList := by decide
    simp only [h, List.mem_cons, Prod.mk.injEq, h1, h2, true_and, false_and, List.not_mem_nil,
      or_false]
    exact eq_comm
  rw [grep_lit_iff hnl (by simp [fieldText, quote]), infix_iff_lines hnl, ledger_eq, lines_above hu]
  have hnil : ¬fieldText [] "id".toList id <:+: [] := fun h => by
    have := List.infix_nil.1 h
    simp [fieldText, quote] at this
  simp only [List.mem_append, List.mem_map, List.mem_singleton]
  constructor
  · rintro ⟨l, ⟨r, hr, rfl⟩ | rfl, hl⟩
    · exact ⟨r, hr, (hline r).1 hl⟩
    · exact absurd hl hnil
  · rintro ⟨r, hr, hid⟩
    exact ⟨_, .inl ⟨r, hr, rfl⟩, (hline r).2 hid⟩

/-! ## What a record changes -/

theorem lookup_recordTest (onSkip : Overall) (r : Record) {p : Text} (h1 : p ≠ testsJsonl)
    (h2 : p ≠ summaryCsv) : (recordTest onSkip r s).out.lookup p = s.out.lookup p := by
  simp only [recordTest, State.append, Files.lookup_append_ne h2, Files.lookup_append_ne h1]

theorem lookup_recordCase (r : Record) {p : Text} (h1 : p ≠ testsJsonl) (h2 : p ≠ summaryCsv)
    (h3 : p ≠ summaryTxt) : (recordCase r s).out.lookup p = s.out.lookup p := by
  simp only [recordCase, State.append, Files.lookup_append_ne h2, Files.lookup_append_ne h1,
    Files.lookup_append_ne h3]

theorem testsJsonl_ne_summaryCsv : testsJsonl ≠ summaryCsv := by decide

theorem testsJsonl_ne_summaryTxt : testsJsonl ≠ summaryTxt := by decide

theorem summaryTxt_ne_summaryCsv : summaryTxt ≠ summaryCsv := by decide

theorem ledger_recordTest (onSkip : Overall) (r : Record) (s : State) :
    (recordTest onSkip r s).out.lookup testsJsonl =
      some ((s.out.lookup testsJsonl).getD [] ++ ledgerLine true r) := by
  simp only [recordTest, State.append, Files.lookup_append_ne testsJsonl_ne_summaryCsv,
    Files.lookup_append_self]

theorem ledger_recordCase (r : Record) (s : State) :
    (recordCase r s).out.lookup testsJsonl =
      some ((s.out.lookup testsJsonl).getD [] ++ ledgerLine false r) := by
  simp only [recordCase, State.append, Files.lookup_append_self,
    Files.lookup_append_ne testsJsonl_ne_summaryCsv,
    Files.lookup_append_ne testsJsonl_ne_summaryTxt]

theorem summaryTxt_recordCase (r : Record) (s : State) :
    (recordCase r s).out.lookup summaryTxt =
      some ((s.out.lookup summaryTxt).getD [] ++ caseBlock r) := by
  simp only [recordCase, State.append, Files.lookup_append_self,
    Files.lookup_append_ne summaryTxt_ne_summaryCsv,
    Files.lookup_append_ne (Ne.symm testsJsonl_ne_summaryTxt)]

theorem mem_recordTest (onSkip : Overall) (r : Record) {p : Text} (h : p ∈ s.out) :
    p ∈ (recordTest onSkip r s).out := Files.mem_append (Files.mem_append h _ _) _ _

/-! ## Finishing -/

theorem finalizeSummary_ok {decode : Option Text → Option (List Json)}
    {document : Overall → List Json → Json} {tests : List Json}
    (h : decode (s.out.lookup testsJsonl) = some tests) :
    finalizeSummary decode document s =
      (.ok (), s.write summaryJson (dumpsIndent (document s.status tests) ++ ['\n'])) := by
  rw [finalizeSummary, Sh.bind_ok (Sh.get_apply s), h]
  rfl

/-- The check of a manifest that was just written succeeds when some file is listed. -/
theorem finalizeChecksums_ok (d : Digest) {p c : Text} (hc : s.out.lookup p = some c)
    (hp : basename p ≠ sumsPath) : finalizeChecksums d s = (.ok (), writeChecksums d s) := by
  have hl : (writeChecksums d s).out.lookup sumsPath = some (manifest d s.out) :=
    Files.lookup_write_self _ _ _
  have hv : verifies d (writeChecksums d s).out (manifest d s.out) = true := verifies_write d _ hc hp
  rw [finalizeChecksums, Sh.bind_ok (Sh.modify_apply _ s), Sh.bind_ok (Sh.get_apply _), hl,
    Option.getD_some, hv]
  rfl

/-! ## Reading the ledger back -/

/-- The ledger has a test with this id and this status. -/
def Recorded (s : State) (id : Text) (v : Verdict) : Prop :=
  ∃ tests, decodeTests (s.out.lookup testsJsonl) = some tests ∧
    ∃ test ∈ tests, test.get "id" = some (.str id) ∧
      test.get "status" = some (.str v.text)

theorem recorded_iff {timed : Bool} {rs : List Record}
    (h : s.out.lookup testsJsonl = some (ledger timed rs)) (id : Text) (v : Verdict) :
    Recorded s id v ↔ ∃ r ∈ rs, r.id = id ∧ r.status = v := by
  have hid : ∀ r : Record, (r.json timed).get "id".toList = some (.str r.id) := by
    intro r
    cases timed <;> rfl
  have hst : ∀ r : Record, (r.json timed).get "status".toList = some (.str r.status.text) := by
    intro r
    cases timed <;> rfl
  unfold Recorded
  rw [h, decodeTests_ledger]
  constructor
  · rintro ⟨tests, he, test, ht, h1, h2⟩
    obtain rfl := Option.some.inj he
    obtain ⟨r, hr, rfl⟩ := List.mem_map.1 ht
    rw [hid] at h1
    rw [hst] at h2
    exact ⟨r, hr, by simpa using h1, text_injective (by simpa using h2)⟩
  · rintro ⟨r, hr, rfl, rfl⟩
    exact ⟨_, rfl, _, List.mem_map_of_mem hr, hid r, hst r⟩

end Harness
