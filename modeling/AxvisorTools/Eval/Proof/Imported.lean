import AxvisorTools.Eval.Proof.Import
import AxvisorTools.Harness.Proof.Functional

/-!
# Importing what a harness left behind

`Recorded (importing m fs) id v`: the importer `m` records verdict `v` for `id`. The verdicts of
`import_x86_functional` agree with those of the harness itself (`functional_import_iff`): the importer
does not look for the guest-pass marker, but it wants some case to have passed, and no case passes
without the marker.
-/

namespace Eval

open Shell Py Harness

variable {fs : Files} {env : FunctionalEnv}

/-- The evidence that a harness left in its `OUT_DIR`, which is an absolute path. -/
def leftBehind (path : Text) (emptyDirs : List Text) (s : State) : Evidence :=
  ⟨'/' :: path, some ⟨s.out, emptyDirs⟩, fun _ => List.cons_ne_nil _ _⟩

/-- An importer, run with an empty ledger. -/
def importing (m : Sh State Unit) (fs : Files) : State := ((do startLedger; m) ⟨fs, .pass⟩).2

theorem Appends.recorded_iff {m : Sh State Unit} {rows : List Row} (hm : Appends m rows) (fs : Files)
    (id : Text) (v : Verdict) : Recorded (importing m fs) id v ↔ (id, v) ∈ rows := by
  obtain ⟨s₀, hs₀, h₀⟩ := startLedger_spec fs
  obtain ⟨_, s, new, hs, hl, rfl, -⟩ := hm _ s₀ h₀
  have hrun : importing m fs = s := by rw [importing, Sh.bind_ok hs₀, hs]
  rw [hrun, Harness.recorded_iff hl.file, List.nil_append, List.mem_map]
  simp only [row, Prod.mk.injEq]

/-! ## Searching `summary.txt` -/

theorem has_iff (t : Text) {marker : String} (hn : '\n' ∉ marker.toList) (hne : marker.toList ≠ []) :
    has (some t) marker = true ↔ marker.toList <:+: t := by
  rw [has, fileHas, Option.any_some, grep_lit_iff hn hne]

/-! ## Timer, interrupts and MMIO -/

theorem appends_importX86Functional (path : Text) (dirs : List Text) (s : State) :
    Appends (importX86Functional (leftBehind path dirs s)) (functionalVerdicts s.out) :=
  adds_importX86Functional _

/-- A check of the harness is the guest-pass marker and what the importer looks for. -/
theorem validate_eq (result qemuLog : Option Text) :
    validateTimer result qemuLog = (guestPass result && timerMarkers result qemuLog) ∧
    validateIrq result qemuLog = (guestPass result && irqMarkers result qemuLog) ∧
    validateMmio result qemuLog = (guestPass result && mmioMarkers result qemuLog) := by
  simp only [validateTimer, validateIrq, validateMmio, timerMarkers, irqMarkers, mmioMarkers,
    Bool.and_assoc, and_self]

theorem guestPass_of_passes {c : Check} (hc : c ∈ checks) (h : c.passes fs = true) :
    guestPass (fs.lookup (caseFile functionalId "result.txt")) = true := by
  obtain ⟨h1, h2, h3⟩ := validate_eq (fs.lookup (caseFile functionalId "result.txt"))
    (fs.lookup (caseFile functionalId "qemu.log"))
  rw [Check.passes] at h
  rcases List.mem_cons.1 hc with rfl | hc
  · exact ((Bool.and_eq_true _ _).mp (h1.symm.trans h)).1
  rcases List.mem_cons.1 hc with rfl | hc
  · exact ((Bool.and_eq_true _ _).mp (h2.symm.trans h)).1
  · obtain rfl := List.mem_singleton.1 hc
    exact ((Bool.and_eq_true _ _).mp (h3.symm.trans h)).1

theorem checks_silent : ∀ c ∈ checks,
    (¬statusPassText <:+: "CASE=" ++ c.id) ∧
    (¬statusPassText <:+: "REASON=" ++ c.passReason) ∧
    (¬statusPassText <:+: "REASON=" ++ c.failReason) ∧
    (¬statusPassText <:+: "REASON=" ++ c.rcReason) := by decide +kernel

theorem artifacts_silent : ¬statusPassText <:+: "ARTIFACTS=" ++
    artifactsJson (["run.out", "qemu.log", "result.txt"].map (caseFile functionalId)) := by
  decide +kernel

theorem silent_functionalRecords (env : FunctionalEnv) (fs : Files) :
    ∀ r ∈ functionalRecords env fs, Silent r := by
  intro r hr
  obtain ⟨c, hc, rfl⟩ := List.mem_map.1 hr
  obtain ⟨h1, h2, h3, h4⟩ := checks_silent c hc
  refine ⟨h1, ?_, artifacts_silent⟩
  unfold Check.record
  dsimp only
  split
  · rwa [← List.append_assoc, infix_append_of_disjoint (by decide) (digits_disjoint (by decide) _)]
  split
  · exact h2
  · exact h3

theorem has_statusPass_iff :
    has (some ((functionalRecords env fs).flatMap caseBlock ++ functionalTail env fs))
        "STATUS=pass" = true ↔ ∃ r ∈ functionalRecords env fs, r.status = .pass := by
  rw [has_iff _ (by decide) (by decide)]
  refine (infix_status_iff (silent_functionalRecords env fs) _).trans (or_iff_left_of_imp ?_)
  unfold functionalTail
  split
  · by_cases hall : (functionalRecords env fs).all (·.status = .pass) = true
    · intro _
      exact ⟨_, List.mem_cons_self, by simpa using List.all_eq_true.1 hall _ List.mem_cons_self⟩
    · rw [if_neg hall]
      exact fun h => absurd h (by decide)
  · exact fun h => absurd h (by decide)

theorem functionalVerdict_iff {s : State} (hs : Checked env fs s) {c : Check} (hc : c ∈ checks)
    {markers : Option Text → Option Text → Bool}
    (hv : ∀ result qemuLog, c.validate result qemuLog = (guestPass result && markers result qemuLog))
    {line : String} (hline : line.toList = "CASE=" ++ c.id) (hnl : '\n' ∉ line.toList) :
    functionalVerdict (s.out.lookup summaryTxt) line
        (markers (s.out.lookup (caseFile functionalId "result.txt"))
          (s.out.lookup (caseFile functionalId "qemu.log"))) = .pass ↔
      (c.record env.run.status (functionalTree env fs)).status = .pass := by
  have hmem : c.record env.run.status (functionalTree env fs) ∈ functionalRecords env fs :=
    List.mem_map_of_mem hc
  have hcase : has (s.out.lookup summaryTxt) line = true := by
    rw [hs.summary, has_iff _ hnl (by simp [hline]), hline]
    exact infix_case hmem _
  have hstatus : (c.record env.run.status (functionalTree env fs)).status = .pass ↔
      env.run.status = 0 ∧ c.passes (functionalTree env fs) = true := by
    rw [Check.record, verdict_pass_iff, Bool.and_eq_true, decide_eq_true_iff]
  rw [functionalVerdict, verdict_pass_iff, hcase, Bool.true_and, Bool.and_eq_true, hs.summary,
    has_statusPass_iff, hs.tree _ (below_caseFile _ _), hs.tree _ (below_caseFile _ _), hstatus]
  have hpasses : c.passes (functionalTree env fs) = true ↔
      guestPass ((functionalTree env fs).lookup (caseFile functionalId "result.txt")) = true ∧
      markers ((functionalTree env fs).lookup (caseFile functionalId "result.txt"))
        ((functionalTree env fs).lookup (caseFile functionalId "qemu.log")) = true := by
    rw [Check.passes, hv, Bool.and_eq_true]
  constructor
  · rintro ⟨⟨r, hr, hp⟩, hm⟩
    -- the case that passed shows the exit status and the guest-pass marker
    obtain ⟨c', hc', rfl⟩ := List.mem_map.1 hr
    rw [Check.record, verdict_pass_iff, Bool.and_eq_true, decide_eq_true_iff] at hp
    exact ⟨hp.1, hpasses.2 ⟨guestPass_of_passes hc' hp.2, hm⟩⟩
  · rintro ⟨h0, hp⟩
    exact ⟨⟨_, hmem, hstatus.2 ⟨h0, hp⟩⟩, (hpasses.1 hp).2⟩

theorem checked_published {s : State} (h : Checked env fs s) (d : Digest) (readme : Text)
    (doc : Json) : Checked env fs (published d readme doc s) :=
  ⟨(lookup_published (by decide) (by decide) (by decide) d readme doc s).trans h.ledger,
    (lookup_published (by decide) (by decide) (by decide) d readme doc s).trans h.summary,
    (agree_published _ d readme doc s).trans h.tree⟩

theorem recorded_check_iff {s : State} (hs : Checked env fs s) {c : Check} (hc : c ∈ checks) :
    Recorded s c.id .pass ↔
      (c.record env.run.status (functionalTree env fs)).status = .pass := by
  have hn : (checks.map Check.id).Nodup := by decide +kernel
  rw [Harness.recorded_iff hs.ledger]
  constructor
  · rintro ⟨r, hr, hid, hp⟩
    obtain ⟨c', hc', rfl⟩ := List.mem_map.1 hr
    rwa [List.inj_on_of_nodup_map hn hc' hc hid] at hp
  · intro hp
    exact ⟨_, List.mem_map_of_mem hc, rfl, hp⟩

theorem caseLines : "CASE=L1-TIMER" = "CASE=" ++ checkTimer.id ∧
    "CASE=L1-IRQ" = "CASE=" ++ checkIrq.id ∧
    "CASE=L1-MMIO" = "CASE=" ++ checkMmio.id := by decide

/-- **The import of the timer, interrupt and MMIO verdicts agrees with the harness**, whatever the
inner run did and whatever its directory held before. -/
theorem functional_import_iff (d : Digest) (env : FunctionalEnv) (fs : Files) (path : Text)
    (dirs : List Text) (fs' : Files) :
    let left := (functional d env ⟨fs, .pass⟩).2
    let imported := importing (importX86Functional (leftBehind path dirs left)) fs'
    (Recorded imported "L1-TIMER" .pass ↔ Recorded left "L1-TIMER" .pass) ∧
    (Recorded imported "L1-IRQ" .pass ↔ Recorded left "L1-IRQ" .pass) ∧
    (Recorded imported "L1-MMIO" .pass ↔ Recorded left "L1-MMIO" .pass) := by
  intro left imported
  obtain ⟨r, readme, doc, s, -, hc, hrun, -⟩ := functional_run d env fs
  have hleft : left = published d readme doc s := congrArg Prod.snd hrun
  have hs : Checked env fs left := hleft ▸ checked_published hc d readme doc
  have himp := fun id => (appends_importX86Functional path dirs left).recorded_iff fs' id .pass
  have hids : "L1-TIMER".toList ≠ "L1-IRQ".toList ∧ "L1-TIMER".toList ≠ "L1-MMIO".toList ∧
      "L1-IRQ".toList ≠ "L1-MMIO".toList := by decide
  obtain ⟨m1, m2, m3⟩ : checkTimer ∈ checks ∧ checkIrq ∈ checks ∧ checkMmio ∈ checks := by
    simp [checks]
  refine ⟨(himp _).trans (.trans ?_ (recorded_check_iff hs m1).symm),
    (himp _).trans (.trans ?_ (recorded_check_iff hs m2).symm),
    (himp _).trans (.trans ?_ (recorded_check_iff hs m3).symm)⟩
  · rw [← functionalVerdict_iff hs m1 (fun a b => (validate_eq a b).1) caseLines.1 (by decide)]
    simp only [functionalVerdicts, List.mem_cons, Prod.mk.injEq, hids, true_and, false_and, or_false,
      List.not_mem_nil]
    exact eq_comm
  · rw [← functionalVerdict_iff hs m2 (fun a b => (validate_eq a b).2.1) caseLines.2.1 (by decide)]
    simp only [functionalVerdicts, List.mem_cons, Prod.mk.injEq, hids, hids.1.symm, true_and,
      false_and, or_false, false_or, List.not_mem_nil]
    exact eq_comm
  · rw [← functionalVerdict_iff hs m3 (fun a b => (validate_eq a b).2.2) caseLines.2.2 (by decide)]
    simp only [functionalVerdicts, List.mem_cons, Prod.mk.injEq, hids.2.1.symm, hids.2.2.symm,
      true_and, false_and, or_false, false_or, List.not_mem_nil]
    exact eq_comm

end Eval
