import AxvisorTools.Harness.Case
import AxvisorTools.Harness.Proof.Record

/-!
# What a sequence of cases leaves behind

`Logged rs s`: in state `s` the ledger and `summary.txt` hold the records `rs`. `Ran cs fs s`: these
are the records of the cases `cs`, run over the tree `fs`. `Ran.step` adds a case, `Ran.each` a
loop over cases. The verdict of a case and its files can be read off the tree that the harness
started from (`Case.tree`), because every case writes below its own directory only.
-/

namespace Harness

open Shell Py

variable {id p : Text} {s : State} {rs : List Record} {cs : List (Case × Outcome)}

/-! ## Directories of cases -/

/-- The path lies in the directory of the case. -/
def Below (id p : Text) : Prop := id ++ ['/'] <+: p

theorem below_caseFile (id : Text) (name : String) : Below id (caseFile id name) :=
  ⟨name.toList, by simp [caseFile]⟩

theorem below_run (id t : Text) : Below id (id ++ "/run/" ++ t) := by
  have h : "/run/" = '/' :: "run/" := by decide
  exact ⟨"run/" ++ t, by simp [h]⟩

theorem not_below_of_slash (h : '/' ∉ p) : ¬Below id p :=
  fun hb => h (hb.subset (by simp))

theorem ne_caseFile (h : ¬Below id p) (name : String) : p ≠ caseFile id name := by
  rintro rfl
  exact h (below_caseFile id name)

theorem takeWhile_slash (h : '/' ∉ id) (t : Text) : (id ++ '/' :: t).takeWhile (· != '/') = id := by
  rw [List.takeWhile_append_of_pos fun c hc => bne_iff_ne.2 (ne_of_mem_of_not_mem hc h)]
  simp

theorem not_below {id' : Text} (hid : '/' ∉ id) (hid' : '/' ∉ id') (hne : id ≠ id') (h : Below id p) :
    ¬Below id' p := by
  rintro ⟨t', h'⟩
  obtain ⟨t, rfl⟩ := h
  simp only [List.append_assoc, List.singleton_append] at h'
  rw [← takeWhile_slash hid t, ← h', takeWhile_slash hid'] at hne
  exact hne rfl

/-! ## One case -/

theorem lookup_inner (h : ¬Below id p) (o : Outcome) (s : State) :
    (inner id o s).out.lookup p = s.out.lookup p := by
  have hrun : ¬id ++ "/run/".toList <+: p := by
    rintro ⟨t, rfl⟩
    exact h (below_run id t)
  exact (Files.lookup_graft hrun _).trans (Files.lookup_write_ne (ne_caseFile h _) _)

theorem lookup_keep (h : ¬Below id p) (s : State) (name : String) :
    (keep id s name).out.lookup p = s.out.lookup p :=
  Files.lookup_copy_ne (ne_caseFile h name) _

theorem lookup_keepAll (h : ¬Below id p) (names : List String) (s : State) :
    (keepAll id names s).out.lookup p = s.out.lookup p := by
  unfold keepAll
  induction names generalizing s with
  | nil => rfl
  | cons name names ih => rw [List.foldl_cons, ih, lookup_keep h]

theorem Case.lookup_collect (c : Case) (h : ¬Below c.id p) (o : Outcome) (s : State) :
    (c.collect o s).out.lookup p = s.out.lookup p :=
  (lookup_keepAll h _ _).trans (lookup_inner h _ _)

@[simp] theorem status_keepAll (id : Text) (names : List String) (s : State) :
    (keepAll id names s).status = s.status := by
  unfold keepAll
  induction names generalizing s with
  | nil => rfl
  | cons name names ih => exact ih _

@[simp] theorem Case.status_collect (c : Case) (o : Outcome) (s : State) :
    (c.collect o s).status = s.status := status_keepAll _ _ _

/-- Two trees that agree in the directory of a case. -/
def Agree (id : Text) (fs fs' : Files) : Prop := ∀ p, Below id p → fs.lookup p = fs'.lookup p

theorem agree_keepAll (names : List String) {s' : State} (h : Agree id s.out s'.out) :
    Agree id (keepAll id names s).out (keepAll id names s').out := by
  unfold keepAll
  induction names generalizing s s' with
  | nil => exact h
  | cons name names ih =>
    refine ih fun p hp => ?_
    rw [keep, keep, h (runFile id name) (below_run id _)]
    exact Files.lookup_copy_congr (h p hp) _ _

theorem Case.agree_collect (c : Case) (o : Outcome) {s' : State} (h : Agree c.id s.out s'.out) :
    Agree c.id (c.collect o s).out (c.collect o s').out :=
  agree_keepAll _ fun p hp =>
    Files.lookup_graft_congr (Files.lookup_write_congr (h p hp) _ _) _ _

theorem Case.record_congr (c : Case) (o : Outcome) {fs fs' : Files} (h : Agree c.id fs fs') :
    c.record o fs = c.record o fs' := by
  have hp : c.passes o fs = c.passes o fs' := by
    have hf : (fun name => fs.lookup (caseFile c.id name)) = fun name =>
        fs'.lookup (caseFile c.id name) := funext fun name => h _ (below_caseFile c.id name)
    rw [Case.passes, hf, ← Case.passes]
  rw [Case.record, hp, ← Case.record]

/-- The tree with the files of a case, when the harness started from `fs`. -/
def Case.tree (c : Case) (o : Outcome) (fs : Files) : Files := (c.collect o ⟨fs, .pass⟩).out

/-- The verdict of a case, when the harness started from `fs`. -/
def Case.passesOn (c : Case) (o : Outcome) (fs : Files) : Bool := c.passes o (c.tree o fs)

/-- The record of a case, when the harness started from `fs`. -/
def Case.verdictOn (c : Case) (o : Outcome) (fs : Files) : Record := c.record o (c.tree o fs)

/-! ## The log of a harness -/

/-- The records `rs` are in the ledger and in `summary.txt`, and `STATUS` is what they make of it. -/
structure Logged (rs : List Record) (s : State) : Prop where
  ledger : s.out.lookup testsJsonl = some (ledger false rs)
  summary : s.out.lookup summaryTxt = some (rs.flatMap caseBlock)
  status : s.status = if rs.all (·.status = .pass) then .pass else .fail

theorem Logged.congr {s' : State} (h : Logged rs s)
    (hf : ∀ p : Text, '/' ∉ p → s'.out.lookup p = s.out.lookup p) (hs : s'.status = s.status) :
    Logged rs s' :=
  ⟨(hf _ (by decide)).trans h.ledger, (hf _ (by decide)).trans h.summary, hs.trans h.status⟩

theorem Logged.recordCase (h : Logged rs s) {r : Record} (hr : r.status ≠ .skip) :
    Logged (rs ++ [r]) (recordCase r s) := by
  constructor
  · rw [ledger_recordCase, h.ledger, ledger_append]
    simp [Harness.ledger]
  · rw [summaryTxt_recordCase, h.summary]
    simp
  · have hm : (Harness.recordCase r s).status = markStatus .pass r.status s.status := rfl
    rw [hm, h.status, List.all_append]
    cases hv : r.status <;> cases ha : rs.all (·.status = .pass) <;> simp_all [markStatus]

theorem verdict_ne_skip (b : Bool) : verdict b ≠ .skip := by cases b <;> decide

theorem slash_of_below (h : Below id p) : '/' ∈ p := h.subset (by simp)

theorem agree_recordCase (id : Text) (r : Record) (s : State) :
    Agree id (recordCase r s).out s.out := by
  intro p hp
  have hs := slash_of_below hp
  refine lookup_recordCase r ?_ ?_ ?_ <;> rintro rfl <;> exact absurd hs (by decide)

theorem logged_startCases (fs : Files) : ∃ s, startCases ⟨fs, .pass⟩ = (.ok (), s) ∧ Logged [] s ∧
    ∀ id, Agree id s.out fs := by
  refine ⟨_, rfl, ⟨Files.lookup_write_self _ _ _, ?_, rfl⟩, fun id p hp => ?_⟩
  · exact (Files.lookup_write_ne (by decide) _).trans
      ((Files.lookup_write_ne (by decide) _).trans (Files.lookup_write_self _ _ _))
  · have hs := slash_of_below hp
    have hne : ∀ q : Text, '/' ∉ q → p ≠ q := fun q hq he => hq (he ▸ hs)
    exact (Files.lookup_write_ne (hne _ (by decide)) _).trans
      ((Files.lookup_write_ne (hne _ (by decide)) _).trans
        (Files.lookup_write_ne (hne _ (by decide)) _))

/-! ## Sequences of cases -/

/-- The records of cases that were run over the tree `fs`. -/
def records (cs : List (Case × Outcome)) (fs : Files) : List Record :=
  cs.map fun c => c.1.verdictOn c.2 fs

theorem records_append (cs : List (Case × Outcome)) (c : Case) (o : Outcome) (fs : Files) :
    records (cs ++ [(c, o)]) fs = records cs fs ++ [c.verdictOn o fs] := List.map_append

/-- The cases have directories of their own. -/
structure Apart (cs : List (Case × Outcome)) : Prop where
  slash : ∀ c ∈ cs, '/' ∉ c.1.id
  nodup : (cs.map (·.1.id)).Nodup

theorem Apart.left {ds : List (Case × Outcome)} (h : Apart (cs ++ ds)) : Apart cs :=
  ⟨fun c hc => h.slash c (List.mem_append_left _ hc),
    (List.map_append ▸ h.nodup).sublist (List.sublist_append_left _ _)⟩

theorem Apart.ne {c : Case} {o : Outcome} (h : Apart (cs ++ [(c, o)])) :
    ∀ c' ∈ cs, c'.1.id ≠ c.id := by
  intro c' hc' he
  have hn := h.nodup
  rw [List.map_append, List.nodup_append] at hn
  exact hn.2.2 _ (List.mem_map_of_mem hc') _ (List.mem_singleton_self _) he

/-- The state after the cases `cs` (module doc). -/
structure Ran (cs : List (Case × Outcome)) (fs : Files) (s : State) : Prop where
  logged : Logged (records cs fs) s
  tree : ∀ c ∈ cs, Agree c.1.id s.out (c.1.tree c.2 fs)
  rest : ∀ id, '/' ∉ id → (∀ c ∈ cs, c.1.id ≠ id) → Agree id s.out fs

theorem Agree.trans {fs fs' fs'' : Files} (h : Agree id fs fs') (h' : Agree id fs' fs'') :
    Agree id fs fs'' := fun p hp => (h p hp).trans (h' p hp)

theorem ran_startCases (fs : Files) :
    ∃ s, startCases ⟨fs, .pass⟩ = (.ok (), s) ∧ Ran [] fs s := by
  obtain ⟨s, hs, hl, ha⟩ := logged_startCases fs
  exact ⟨s, hs, hl, fun _ h => absurd h List.not_mem_nil, fun id _ _ => ha id⟩

/-- One more case: the directories of the earlier ones stay as they are. -/
theorem Ran.step {fs : Files} (h : Ran cs fs s) {c : Case} {o : Outcome}
    (ha : Apart (cs ++ [(c, o)])) :
    ∃ s', c.run o s = (.ok (), s') ∧ Ran (cs ++ [(c, o)]) fs s' := by
  have hc : '/' ∉ c.id := ha.slash _ (List.mem_append_right _ (List.mem_singleton_self _))
  have hrest : Agree c.id s.out (⟨fs, .pass⟩ : State).out := h.rest c.id hc ha.ne
  have hagree : Agree c.id (c.collect o s).out (c.tree o fs) := c.agree_collect o hrest
  have hrec : c.record o (c.collect o s).out = c.verdictOn o fs := c.record_congr o hagree
  have hlog : Logged (records cs fs) (c.collect o s) :=
    h.logged.congr (fun p hp => c.lookup_collect (not_below_of_slash hp) o s) (c.status_collect o s)
  refine ⟨recordCase (c.record o (c.collect o s).out) (c.collect o s), rfl, ?_, ?_, ?_⟩
  · rw [hrec, records_append]
    exact hlog.recordCase (verdict_ne_skip _)
  · intro c' hc'
    refine (agree_recordCase _ _ _).trans ?_
    rcases List.mem_append.1 hc' with hc' | hc'
    · intro p hp
      have hne := not_below (ha.slash _ (List.mem_append_left _ hc')) hc (ha.ne c' hc') hp
      exact (c.lookup_collect hne o s).trans (h.tree c' hc' p hp)
    · obtain rfl := List.mem_singleton.1 hc'
      exact hagree
  · intro id hid hne
    refine (agree_recordCase _ _ _).trans fun p hp => ?_
    have hnot : ¬Below c.id p := not_below hid hc
      (hne (c, o) (List.mem_append_right _ (List.mem_singleton_self _))).symm hp
    exact (c.lookup_collect hnot o s).trans
      (h.rest id hid (fun c' hc' => hne c' (List.mem_append_left _ hc')) p hp)

/-- A loop over cases, by induction over the loop. -/
theorem Ran.each {α : Type} (f : α → Case × Outcome) :
    ∀ (xs : List α) {cs : List (Case × Outcome)} {fs : Files} {s : State}, Ran cs fs s →
      Apart (cs ++ xs.map f) →
      ∃ s', Sh.each (fun x => (f x).1.run (f x).2) xs s = (.ok (), s') ∧
        Ran (cs ++ xs.map f) fs s'
  | [], cs, fs, s, h, _ => ⟨s, rfl, by simpa using h⟩
  | x :: xs, cs, fs, s, h, ha => by
    have hsplit : cs ++ (x :: xs).map f = cs ++ [f x] ++ xs.map f := by simp
    rw [hsplit] at ha ⊢
    obtain ⟨s₁, h₁, hr₁⟩ := h.step ha.left
    obtain ⟨s₂, h₂, hr₂⟩ := Ran.each f xs hr₁ ha
    exact ⟨s₂, by rw [Sh.each, Sh.bind_ok h₁, h₂], hr₂⟩

/-! ## The end of a harness -/

/-- The state with the README, the summary and the manifest. -/
def published (d : Digest) (readme : Text) (doc : Json) (s : State) : State :=
  writeChecksums d ((s.write readmeMd readme).write summaryJson (Json.dumpsIndent doc ++ ['\n']))

theorem lookup_published (h1 : p ≠ readmeMd) (h2 : p ≠ summaryJson) (h3 : p ≠ sumsPath) (d : Digest)
    (readme : Text) (doc : Json) (s : State) :
    (published d readme doc s).out.lookup p = s.out.lookup p :=
  (Files.lookup_write_ne h3 _).trans ((Files.lookup_write_ne h2 _).trans
    (Files.lookup_write_ne h1 _))

theorem summaryJson_published (d : Digest) (readme : Text) (doc : Json) (s : State) :
    (published d readme doc s).out.lookup summaryJson = some (Json.dumpsIndent doc ++ ['\n']) :=
  (Files.lookup_write_ne (by decide) _).trans (Files.lookup_write_self _ _ _)

theorem agree_published (id : Text) (d : Digest) (readme : Text) (doc : Json) (s : State) :
    Agree id (published d readme doc s).out s.out := by
  intro p hp
  have hs := slash_of_below hp
  refine lookup_published ?_ ?_ ?_ d readme doc s <;> rintro rfl <;> exact absurd hs (by decide)

/-- Every harness ends so: the three steps succeed whenever the ledger holds records. -/
theorem publish {timed : Bool} (hl : s.out.lookup testsJsonl = some (ledger timed rs))
    {decode : Option Text → Option (List Json)}
    (hd : decode (some (ledger timed rs)) = some (rs.map (Record.json timed))) (d : Digest)
    (title : String) (runId body : Text) (document : Overall → List Json → Json) :
    ∃ readme, ∀ k : Sh State Unit,
      (do writeReadme title runId body; finalizeSummary decode document; finalizeChecksums d; k) s =
        k (published d readme (document s.status (rs.map (Record.json timed))) s) := by
  obtain ⟨readme, hr⟩ : ∃ c, writeReadme title runId body s = (.ok (), s.write readmeMd c) :=
    ⟨_, rfl⟩
  have hl' : (s.write readmeMd readme).out.lookup testsJsonl = some (ledger timed rs) :=
    (Files.lookup_write_ne (by decide) _).trans hl
  have hdec : decode ((s.write readmeMd readme).out.lookup testsJsonl) =
      some (rs.map (Record.json timed)) := by rw [hl', hd]
  have hc := finalizeChecksums_ok d (s := (s.write readmeMd readme).write summaryJson
    (Json.dumpsIndent (document s.status (rs.map (Record.json timed))) ++ ['\n']))
    (p := testsJsonl) ((Files.lookup_write_ne (by decide) _).trans hl') (by decide)
  refine ⟨readme, fun k => ?_⟩
  rw [Sh.bind_ok hr, Sh.bind_ok (finalizeSummary_ok hdec)]
  exact Sh.bind_ok hc

/-- A last command that only ends the script. -/
def Exits (k : Sh State Unit) : Prop := ∀ s, RunsToEnd (k s) ∧ (k s).2 = s

theorem exits_exit (n : Nat) : Exits (Sh.exit n) := fun s => ⟨fun m h => (by cases h), rfl⟩

theorem exits_exitStatus : Exits exitStatus := fun s => exits_exit _ s

theorem exits_exitUnlessPass : Exits exitUnlessPass := by
  intro s
  rw [exitUnlessPass, Sh.bind_ok (Sh.get_apply s)]
  cases hs : s.status != .pass
  · exact ⟨fun m h => (by cases h), rfl⟩
  · exact exits_exit _ s

/-- A whole harness, from the state after its cases. -/
theorem harness_run {timed : Bool} {m k : Sh State Unit} {s₀ : State} (hm : m s₀ = (.ok (), s))
    (hl : s.out.lookup testsJsonl = some (ledger timed rs))
    {decode : Option Text → Option (List Json)}
    (hd : decode (some (ledger timed rs)) = some (rs.map (Record.json timed))) (d : Digest)
    (title : String) (runId body : Text) (document : Overall → List Json → Json) (hk : Exits k) :
    ∃ r readme, (do m; writeReadme title runId body; finalizeSummary decode document
                    finalizeChecksums d; k) s₀ =
        (r, published d readme (document s.status (rs.map (Record.json timed))) s) ∧
      ∀ n, r ≠ .error (.errexit n) := by
  obtain ⟨readme, hp⟩ := publish hl hd d title runId body document
  obtain ⟨hend, hst⟩ := hk (published d readme (document s.status (rs.map (Record.json timed))) s)
  exact ⟨_, readme, by rw [Sh.bind_ok hm, hp]; exact Prod.ext rfl hst, hend⟩

end Harness
