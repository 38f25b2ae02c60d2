import AxvisorTools.Eval.Proof.Import

/-!
# Whole runs of the paper evaluation

`evaluate_ends`: unless the stability evidence stops it (`evaluate_aborts`), a run writes the summary
of its records. Their ids are the fixed ones, some of the optional ones, and those pending items that
are missing: the optional ids are pending items as well, so that each occurs once.
-/

namespace Eval

open Shell Py Harness

variable {out out' : Files} {src : Evidence} {rs : List Record} {s : State}

/-! ## The rows of the importers -/

/-- What the importers read back comes from these directories. -/
theorem copied_congr {t : Tree} {dst : String}
    (h : ∀ q, out'.lookup (dst.toList ++ '/' :: q) = out.lookup (dst.toList ++ '/' :: q)) :
    copied t out' dst = copied t out dst := funext fun name => by rw [copied, copied, h]

theorem evidenceRows_congr
    (h : ∀ q, out'.lookup (x86Dir ++ '/' :: q) = out.lookup (x86Dir ++ '/' :: q)) :
    evidenceRows src out' = evidenceRows src out := by
  simp only [evidenceRows, copied_congr h]

theorem tinyRows_congr
    (h : ∀ q, out'.lookup (tinyDir ++ '/' :: q) = out.lookup (tinyDir ++ '/' :: q)) :
    tinyRows src out' = tinyRows src out := by
  simp only [tinyRows, copied_congr h]

theorem kvmRows_congr (h : ∀ q, out'.lookup (kvmDir ++ '/' :: q) = out.lookup (kvmDir ++ '/' :: q)) :
    kvmRows src out' = kvmRows src out := by
  simp only [kvmRows, copied_congr h]

theorem importRows_congr {env : Env} (h : ∀ d ∈ [x86Dir, tinyDir, kvmDir],
    ∀ q, out'.lookup (d ++ '/' :: q) = out.lookup (d ++ '/' :: q)) :
    importRows env out' = importRows env out := by
  rw [importRows, importRows, evidenceRows_congr (h _ (by simp)), tinyRows_congr (h _ (by simp)),
    kvmRows_congr (h _ (by simp))]

theorem adds_laterImporters (env : Env) (h : stabilityAborts env.x86NativeStabilityDir = false) :
    Appends (do
      importX86NativeStability env.x86NativeStabilityDir
      importX86MemSizes env.x86MemSizesDir
      importX86Functional env.x86FunctionalDir
      importX86Smp env.x86SmpDir
      importX86SmpScale env.x86SmpScaleDir
      importX86Poweroff env.x86PoweroffDir
      writeAbiCoverage
      importArchitectureStatic env.archStaticDir) (laterRows env) :=
  (adds_importX86NativeStability h).append fun _ => (adds_importX86MemSizes _).append fun _ =>
    (adds_importX86Functional _).append fun _ => (adds_importX86Smp _).append fun _ =>
    (adds_importX86SmpScale _).append fun _ => (adds_importX86Poweroff _).append fun _ =>
    adds_writeAbiCoverage.append fun _ => adds_importArchitectureStatic _

/-- From the last importer to the first: what the later ones read back is left alone. -/
theorem adds_importEvidence (env : Env) (h : stabilityAborts env.x86NativeStabilityDir = false) :
    Adds [] (importEvidence env) fun s => importRows env s.out := by
  have hkvm := fun _ : Unit => (adds_recordKvmAbiSmokeStatus env.kvmAbiSmokeDir
    env.kvmAbiSmokeOut).append fun _ => adds_laterImporters env h
  have htiny := fun _ : Unit => (adds_recordFirecrackerRootfsTinyStatus
    env.firecrackerRootfsTinyDir).appendOn hkvm fun s s' hk => by
      rw [kvmRows_congr (hk.spared _ (by simp))]
  have hrootfs := fun _ : Unit => (adds_recordFirecrackerRootfsStatus env).appendOn htiny
    fun s s' hk => by
      rw [tinyRows_congr (hk.spared _ (by simp)), kvmRows_congr (hk.spared _ (by simp))]
  have hx86 := fun _ : Unit => (adds_importX86Evidence env.x86EvidenceDir).appendOn hrootfs
    fun s s' hk => by
      rw [tinyRows_congr (hk.spared _ (by simp)), kvmRows_congr (hk.spared _ (by simp))]
  exact (adds_runX86Matrix env).appendOn hx86 fun s s' hk => by
    rw [evidenceRows_congr (hk.spared _ (by simp)), tinyRows_congr (hk.spared _ (by simp)),
      kvmRows_congr (hk.spared _ (by simp))]

theorem aborts_importEvidence (env : Env) (h : stabilityAborts env.x86NativeStabilityDir = true) :
    Aborts (importEvidence env) :=
  .later (adds_runX86Matrix env) fun _ => .later (adds_importX86Evidence _) fun _ =>
    .later (adds_recordFirecrackerRootfsStatus env) fun _ =>
    .later (adds_recordFirecrackerRootfsTinyStatus _) fun _ =>
    .later (adds_recordKvmAbiSmokeStatus _ _) fun _ =>
    .first (aborts_importX86NativeStability h)

/-! ## The ids of the importers -/

/-- The ids `l` are the `fixed` ones and some of the `optional` ones. -/
def Ids (fixed optional l : List Text) : Prop := ∃ o, o.Sublist optional ∧ l.Perm (fixed ++ o)

namespace Ids

variable {a b o l l' : List Text}

theorem fixed (l : List Text) : Ids l [] l := ⟨[], .slnil, by rw [List.append_nil]⟩

theorem optional (h : l.Sublist o) : Ids [] o l := ⟨l, h, .refl _⟩

theorem append {o' : List Text} (h : Ids a o l) (h' : Ids b o' l') :
    Ids (a ++ b) (o ++ o') (l ++ l') := by
  obtain ⟨p, hp, hk⟩ := h
  obtain ⟨p', hp', hk'⟩ := h'
  refine ⟨p ++ p', hp.append hp', (hk.append hk').trans ?_⟩
  simp only [List.append_assoc]
  refine .append_left _ ?_
  rw [← List.append_assoc, ← List.append_assoc b]
  exact .append_right _ List.perm_append_comm

end Ids

theorem ids_rowsOf (src : Evidence) {items : List Text} {rows : Tree → List Row}
    (h : ∀ t, (rows t).map Prod.fst = items) : (rowsOf src items rows).map Prod.fst = items := by
  unfold rowsOf
  cases src.tree with
  | none => exact List.map_map.trans (List.map_id _)
  | some t => exact h t

theorem ids_optionalRows (src : Evidence) {items : List Text} {rows : Tree → List Row}
    (h : ∀ t, (rows t).map Prod.fst = items) :
    ((optionalRows src items rows).map Prod.fst).Sublist items := by
  unfold optionalRows
  split
  · exact List.nil_sublist _
  · rw [ids_rowsOf src h]

/-- The ids of an imported x86 test matrix. -/
def x86EvidenceIds : List Text :=
  ["HARNESS-X86-IMPORT", "L1-ROOTFS-BLK", "L1-INITRAMFS", "FC-INIT",
    "FC-INITRAMFS", "FC-ROOTFS-TINY"]

/-- What `import_x86_evidence` records. Without the evidence directory it returns after the first
record, and nothing records the other five items later. -/
def evidenceIds (src : Evidence) : List Text :=
  if src.tree.isSome then x86EvidenceIds else ["HARNESS-X86-IMPORT"]

theorem ids_evidenceRows (src : Evidence) (out : Files) :
    (evidenceRows src out).map Prod.fst = evidenceIds src := by
  unfold evidenceRows evidenceIds rowsOf
  cases src.tree <;> rfl

theorem reported_sublist (tests : List (Bool × Text)) :
    ((reported tests).map Prod.fst).Sublist (tests.map Prod.snd) := by
  induction tests with
  | nil => exact .slnil
  | cons test tests ih =>
    rw [reported, List.flatMap_cons, ← reported]
    split
    · exact ih.cons_cons _
    · exact ih.cons _

theorem ids_kvmRows (dir : Evidence) (out : Files) :
    Ids ["KVM-ABI-SMOKE"] kvmNegativeIds ((kvmRows dir out).map Prod.fst) := by
  unfold kvmRows rowsOf
  cases dir.tree with
  | none => exact ⟨[], List.nil_sublist _, .refl _⟩
  | some t =>
    dsimp only
    split
    · exact ⟨_, reported_sublist (kvmNegatives _), .refl _⟩
    · exact ⟨[], List.nil_sublist _, .refl _⟩

/-- The ids every run records before the pending items, in the order of the importers; `evidence`
are those of `import_x86_evidence`. -/
def importedIds (evidence : List Text) : List Text :=
  "HARNESS-X86-RERUN".toList :: (evidence ++
    ["FC-ROOTFS-BLK".toList, "FC-ROOTFS-TINY-STANDALONE".toList, "KVM-ABI-SMOKE".toList,
      "STAB-NATIVE-CYCLE-20".toList, "STAB-NATIVE-CYCLE-1000".toList, "L1-MEM-SIZES".toList,
      "L1-SMP-2-BOOT".toList, "L1-SMP-2".toList, "FC-SMP-2".toList, "KVM-ABI-COVERAGE".toList,
      "ARCH-STATIC-CHECKS".toList])

/-- The ids that are recorded only with their evidence. -/
def optionalIds : List Text :=
  kvmNegativeIds ++ functionalIds ++ scaleIds ++ ["L1-POWEROFF".toList]

theorem ids_importRows (env : Env) (out : Files) :
    Ids (importedIds (evidenceIds env.x86EvidenceDir)) optionalIds
      ((importRows env out).map Prod.fst) := by
  have htiny : (tinyRows env.firecrackerRootfsTinyDir out).map Prod.fst =
    ["FC-ROOTFS-TINY-STANDALONE".toList] := ids_rowsOf _ fun _ => rfl
  have hstab : (stabilityRows env.x86NativeStabilityDir).map Prod.fst =
    ["STAB-NATIVE-CYCLE-20".toList, "STAB-NATIVE-CYCLE-1000".toList] := ids_rowsOf _ fun _ => rfl
  have hmem : (memSizesRows env.x86MemSizesDir).map Prod.fst = ["L1-MEM-SIZES".toList] :=
    ids_rowsOf _ fun _ => rfl
  have hsmp : (rowsOf env.x86SmpDir smpIds (smpVerdicts ·.files)).map Prod.fst = smpIds :=
    ids_rowsOf _ fun _ => rfl
  have harch : (archRows env.archStaticDir).map Prod.fst = ["ARCH-STATIC-CHECKS".toList] :=
    ids_rowsOf _ fun _ => rfl
  have hfun : ((optionalRows env.x86FunctionalDir functionalIds (functionalVerdicts ·.files)).map
    Prod.fst).Sublist functionalIds := ids_optionalRows _ fun _ => rfl
  have hscale : ((optionalRows env.x86SmpScaleDir scaleIds (scaleVerdicts ·.files)).map
    Prod.fst).Sublist scaleIds := ids_optionalRows _ fun _ => rfl
  have hpoweroff : ((poweroffRows env.x86PoweroffDir).map Prod.fst).Sublist ["L1-POWEROFF"] :=
    ids_optionalRows _ fun _ => rfl
  have hall := (Ids.fixed ["HARNESS-X86-RERUN".toList]).append <|
    (Ids.fixed (evidenceIds env.x86EvidenceDir)).append <|
    (Ids.fixed ["FC-ROOTFS-BLK".toList]).append <|
    (Ids.fixed ["FC-ROOTFS-TINY-STANDALONE".toList]).append <|
    (ids_kvmRows env.kvmAbiSmokeDir out).append <|
    (Ids.fixed ["STAB-NATIVE-CYCLE-20".toList, "STAB-NATIVE-CYCLE-1000".toList]).append <|
    (Ids.fixed ["L1-MEM-SIZES".toList]).append <|
    (Ids.optional hfun).append <|
    (Ids.fixed smpIds).append <|
    (Ids.optional hscale).append <|
    (Ids.optional hpoweroff).append <|
    (Ids.fixed ["KVM-ABI-COVERAGE".toList]).append (Ids.fixed ["ARCH-STATIC-CHECKS".toList])
  rw [importRows, laterRows]
  simp only [List.map_cons, List.map_append, ids_evidenceRows, htiny, hstab, hmem, hsmp, harch]
  exact hall

/-! ## The other parts -/

theorem quiet_writePlaceholderOutputs : Quiet [x86Dir, tinyDir, kvmDir] writePlaceholderOutputs :=
  .quiet (quiet_writeFile (by decide) _) fun _ => .quiet (quiet_writeFile (by decide) _) fun _ =>
    .quiet (quiet_writeFile (by decide) _) fun _ => .quiet (quiet_writeFile (by decide) _) fun _ =>
    .quiet (quiet_writeFile (by decide) _) fun _ => quiet_copy (by decide) _

theorem quiet_captureEnvironment (env : Env) :
    Quiet [x86Dir, tinyDir, kvmDir] (captureEnvironment env) :=
  .quiet (quiet_writeFile (by decide) _) fun _ => .quiet (quiet_writeFile (by decide) _) fun _ =>
    .quiet (quiet_writeFile (by decide) _) fun _ => .quiet (quiet_writeFile (by decide) _) fun _ =>
    .quiet (quiet_writeFile (by decide) _) fun _ => .quiet (quiet_writeFile (by decide) _) fun _ =>
    .quiet (quiet_writeFile (by decide) _) fun _ => .quiet (quiet_copy (by decide) _) fun _ =>
    quiet_writeFile (by decide) _

/-- The ids of the harness itself. -/
def harnessIds : List Text :=
  ["HARNESS-ENV", "HARNESS-RUN-ID", "HARNESS-RAW"]

theorem adds_recordHarness (env : Env) : Adds [x86Dir, tinyDir, kvmDir] (recordHarness env)
    fun _ => harnessIds.map fun id => (id, .pass) :=
  .cons fun _ => .cons fun _ => .record

theorem adds_collectEvidence (env : Env) (h : stabilityAborts env.x86NativeStabilityDir = false) :
    Adds [] (collectEvidence env)
      fun s => harnessIds.map (fun id => (id, .pass)) ++ importRows env s.out := by
  have hharness := (adds_recordHarness env).appendOn (fun _ => adds_importEvidence env h)
    fun _ _ hk => importRows_congr hk.spared
  have hcapture := (quiet_captureEnvironment env).appendOn (fun _ => hharness)
    fun s s' hk => by rw [importRows_congr hk.spared]
  exact quiet_writePlaceholderOutputs.appendOn (fun _ => hcapture)
    fun s s' hk => by rw [importRows_congr hk.spared]

theorem aborts_collectEvidence (env : Env) (h : stabilityAborts env.x86NativeStabilityDir = true) :
    Aborts (collectEvidence env) :=
  .later quiet_writePlaceholderOutputs fun _ => .later (quiet_captureEnvironment env) fun _ =>
    .later (adds_recordHarness env) fun _ => aborts_importEvidence env h

/-! ## Pending items -/

/-- The pending items that are recorded after the ids `ids`. -/
def missing (ids : List Text) (items : List Pending) : List Pending :=
  items.filter fun p => !(p.ifMissing && decide (p.toRecord.id ∈ ids))

theorem missing_singleton (ids : List Text) (p : Pending) :
    missing ids [p] = if p.ifMissing = true ∧ p.toRecord.id ∈ ids then [] else [p] := by
  by_cases hm : p.ifMissing = true <;> by_cases hin : p.toRecord.id ∈ ids <;>
    simp [missing, hm, hin]

theorem recordPending_spec (h : Ledger rs s) {p : Pending} (hp : Json.IsWord p.toRecord.id) :
    ∃ s', recordPending p s = (.ok (), s') ∧
      Ledger (rs ++ (missing (rs.map Record.id) [p]).map Pending.toRecord) s' := by
  have hrec : ∃ s', recordTest p.toRecord s = (.ok (), s') ∧ Ledger (rs ++ [p.toRecord]) s' :=
    ⟨_, rfl, h.recordTest _⟩
  rw [missing_singleton]
  by_cases hm : p.ifMissing = true
  · rw [recordPending, if_pos hm, recordTestIfMissing, Sh.bind_ok (Sh.get_apply s)]
    by_cases hin : p.toRecord.id ∈ rs.map Record.id
    · rw [if_pos ((h.testRecorded_iff hp.2).2 hin), if_pos ⟨hm, hin⟩]
      exact ⟨s, rfl, by simpa using h⟩
    · rwa [if_neg (mt (h.testRecorded_iff hp.2).1 hin), if_neg (fun h => hin h.2)]
  · rwa [recordPending, if_neg hm, if_neg (fun h => hm h.1)]

/-- By induction over the items: what one item adds changes nothing for the later ones, whose ids
are different. -/
theorem recordPending_run : ∀ {items : List Pending} {rs : List Record} {s : State},
    Ledger rs s → (∀ p ∈ items, Json.IsWord p.toRecord.id) → (items.map (·.toRecord.id)).Nodup →
    ∃ s', Sh.each recordPending items s = (.ok (), s') ∧
      Ledger (rs ++ (missing (rs.map Record.id) items).map Pending.toRecord) s'
  | [], rs, s, h, _, _ => ⟨s, rfl, by simpa [missing] using h⟩
  | p :: items, rs, s, h, hw, hn => by
    rw [List.map_cons, List.nodup_cons] at hn
    obtain ⟨s₁, h₁, hl₁⟩ := recordPending_spec h (hw p List.mem_cons_self)
    obtain ⟨s₂, h₂, hl₂⟩ :=
      recordPending_run hl₁ (fun q hq => hw q (List.mem_cons_of_mem _ hq)) hn.2
    refine ⟨s₂, by rw [Sh.each, Sh.bind_ok h₁, h₂], ?_⟩
    have hlater : missing ((rs ++ (missing (rs.map Record.id) [p]).map Pending.toRecord).map
        Record.id) items = missing (rs.map Record.id) items := by
      refine List.filter_congr fun q hq => ?_
      have hne : q.toRecord.id ≠ p.toRecord.id := fun he => hn.1 (he ▸ List.mem_map_of_mem hq)
      have hnot : q.toRecord.id ∉ ((missing (rs.map Record.id) [p]).map Pending.toRecord).map
          Record.id := by
        rw [missing_singleton]
        split <;> simp [hne]
      rw [List.map_append]
      simp only [List.mem_append, hnot, or_false]
    rw [hlater, List.append_assoc, ← List.map_append] at hl₂
    rwa [missing, ← List.singleton_append, List.filter_append]

/-! ## The end of a run -/

theorem Ledger.write (h : Ledger rs s) {p : Text} (hp : testsJsonl ≠ p) (c : Text) :
    Ledger rs (s.write p c) :=
  h.congr (Files.lookup_write_ne hp c) rfl

theorem Ledger.finalizeChecksums (h : Ledger rs s) (d : Digest) :
    Harness.finalizeChecksums d s = (.ok (), writeChecksums d s) :=
  finalizeChecksums_ok d h.file (by decide)

def hashRecord : Record :=
  ⟨"HARNESS-HASH", .pass, "generated and verified SHA256SUMS",
    ["SHA256SUMS"]⟩

/-- The state over which the last manifest is written: all of `rs` is in the ledger and in the
summary. -/
structure Finished (env : Env) (rs : List Record) (s : State) : Prop where
  ledger : Ledger rs s
  summary : s.out.lookup summaryJson = some (Json.dumpsIndent
    (document env.suite env.runId s.status (rs.map (Record.json true))) ++ ['\n'])

theorem publish_spec (d : Digest) (env : Env) (h : Ledger rs s) :
    ∃ s', finalizeSummary env.suite env.runId s = (.ok (), s') ∧
      Harness.finalizeChecksums d s' = (.ok (), writeChecksums d s') ∧
      Finished env rs s' ∧ ∀ p ∈ s.out, p ∈ s'.out := by
  have h' := h.write (p := summaryJson) (by decide) (Json.dumpsIndent
    (document env.suite env.runId s.status (rs.map (Record.json true))) ++ ['\n'])
  exact ⟨_, finalizeSummary_ledger h env.suite env.runId, h'.finalizeChecksums d,
    ⟨h', Files.lookup_write_self _ _ _⟩, fun p hp => Files.mem_write hp _ _⟩

theorem finish_spec (d : Digest) (env : Env) (h : Ledger rs s) :
    ∃ s', finish d env s = (if s'.status = .pass then .ok () else .error (.exit 1),
        writeChecksums d s') ∧
      Finished env (rs ++ [hashRecord]) s' ∧ ∀ p ∈ s.out, p ∈ s'.out := by
  obtain ⟨readme, hr⟩ : ∃ c, writeReadme env.suite env.runId s = (.ok (), s.write readmeMd c) :=
    ⟨_, rfl⟩
  obtain ⟨s₁, hs₁, hc₁, hf₁, hk₁⟩ := publish_spec d env (h.write (p := readmeMd) (by decide) readme)
  have hrec : record "HARNESS-HASH" .pass "generated and verified SHA256SUMS" ["SHA256SUMS"]
      (writeChecksums d s₁) = (.ok (), Harness.recordTest .fail hashRecord (writeChecksums d s₁)) :=
    rfl
  obtain ⟨s₂, hs₂, hc₂, hf₂, hk₂⟩ := publish_spec d env
    ((hf₁.ledger.write (p := sumsPath) (by decide) (manifest d s₁.out)).recordTest hashRecord)
  refine ⟨s₂, ?_, hf₂, fun p hp => hk₂ p (mem_recordTest _ _
    (Files.mem_write (hk₁ p (Files.mem_write hp _ _)) _ _))⟩
  rw [finish, Sh.bind_ok hr, Sh.bind_ok hs₁, Sh.bind_ok hc₁, Sh.bind_ok hrec, writeChecksums,
    Sh.bind_ok hs₂, Sh.bind_ok hc₂, Sh.bind_ok (Sh.get_apply _)]
  have hstatus : (writeChecksums d s₂).status = s₂.status := rfl
  rw [hstatus]
  by_cases hst : s₂.status = .pass
  · rw [if_neg (not_not.2 hst), if_pos hst, Sh.pure_apply]
  · rw [if_pos hst, if_neg hst]
    rfl

/-! ## Whole runs -/

/-- The ids of a run, up to their order. -/
def runIds (evidence : List Text) : List Text :=
  harnessIds ++ importedIds evidence ++ pendingMatrixSkips.map (·.toRecord.id) ++ [hashRecord.id]

/-- The ids of the complete matrix. -/
def matrixIds : List Text := runIds x86EvidenceIds

/-- The tables of ids, evaluated together: the pending items are words with different ids, each
optional id is also a pending item that is recorded only if it is missing, and no importer records a
pending id otherwise. -/
theorem ids_tables :
    (pendingMatrixSkips.map (·.toRecord.id)).Nodup ∧
    (∀ p ∈ pendingMatrixSkips, Json.IsWord p.toRecord.id) ∧
    (∀ id ∈ optionalIds, ∃ p ∈ pendingMatrixSkips, p.ifMissing = true ∧ p.toRecord.id = id) ∧
    optionalIds.Nodup ∧ (harnessIds ++ importedIds x86EvidenceIds).Nodup ∧
    (∀ id ∈ harnessIds ++ importedIds x86EvidenceIds,
      id ∉ pendingMatrixSkips.map (·.toRecord.id)) ∧
    hashRecord.id ∉ harnessIds ++ importedIds x86EvidenceIds ++
      pendingMatrixSkips.map (·.toRecord.id) := by decide +kernel

theorem pendingIds_nodup : (pendingMatrixSkips.map (·.toRecord.id)).Nodup := ids_tables.1

theorem pendingIds_word : ∀ p ∈ pendingMatrixSkips, Json.IsWord p.toRecord.id := ids_tables.2.1

theorem optionalIds_pending : ∀ id ∈ optionalIds,
    ∃ p ∈ pendingMatrixSkips, p.ifMissing = true ∧ p.toRecord.id = id := ids_tables.2.2.1

theorem optionalIds_nodup : optionalIds.Nodup := ids_tables.2.2.2.1

theorem importedIds_nodup : (harnessIds ++ importedIds x86EvidenceIds).Nodup :=
  ids_tables.2.2.2.2.1

theorem importedIds_not_pending : ∀ id ∈ harnessIds ++ importedIds x86EvidenceIds,
    id ∉ pendingMatrixSkips.map (·.toRecord.id) := ids_tables.2.2.2.2.2.1

theorem hash_not_mem : hashRecord.id ∉ harnessIds ++ importedIds x86EvidenceIds ++
    pendingMatrixSkips.map (·.toRecord.id) := ids_tables.2.2.2.2.2.2

theorem matrixIds_nodup : matrixIds.Nodup := by
  refine List.nodup_append.2 ⟨List.nodup_append.2 ⟨importedIds_nodup, pendingIds_nodup, ?_⟩,
    List.nodup_singleton _, ?_⟩
  · rintro id hid _ hid' rfl
    exact importedIds_not_pending id hid hid'
  · rintro id hid _ hid' rfl
    rw [List.mem_singleton.1 hid'] at hid
    exact hash_not_mem hid

theorem evidenceIds_sublist (src : Evidence) : (evidenceIds src).Sublist x86EvidenceIds := by
  unfold evidenceIds
  split
  · exact .refl _
  · exact .cons_cons _ (List.nil_sublist _)

theorem importedIds_sublist (src : Evidence) :
    (harnessIds ++ importedIds (evidenceIds src)).Sublist
      (harnessIds ++ importedIds x86EvidenceIds) :=
  ((List.Sublist.refl _).append (.cons_cons _ ((evidenceIds_sublist src).append (.refl _))))

/-- The optional ids that were recorded, and the pending ones that were not: together all pending
ids, once each. -/
theorem append_missing_perm {o : List Text} (ho : o.Sublist optionalIds) :
    (o ++ (missing o pendingMatrixSkips).map (·.toRecord.id)).Perm
      (pendingMatrixSkips.map (·.toRecord.id)) := by
  have hmiss : ((missing o pendingMatrixSkips).map (·.toRecord.id)).Nodup :=
    pendingIds_nodup.sublist (List.filter_sublist.map _)
  have hmem : ∀ id ∈ o, ∀ p ∈ pendingMatrixSkips, p.toRecord.id = id → p.ifMissing = true := by
    intro id hid p hp he
    obtain ⟨q, hq, hqm, hqid⟩ := optionalIds_pending id (ho.subset hid)
    rwa [List.inj_on_of_nodup_map pendingIds_nodup hp hq (he.trans hqid.symm)]
  refine (List.perm_ext_iff_of_nodup (List.nodup_append.2 ⟨optionalIds_nodup.sublist ho, hmiss, ?_⟩)
    pendingIds_nodup).2 fun id => ?_
  · rintro id hid _ hid' rfl
    obtain ⟨p, hp, rfl⟩ := List.mem_map.1 hid'
    obtain ⟨hp, hnot⟩ := List.mem_filter.1 hp
    simp [hmem _ hid p hp rfl, hid] at hnot
  · rw [List.mem_append]
    constructor
    · rintro (hid | hid)
      · obtain ⟨p, hp, -, rfl⟩ := optionalIds_pending id (ho.subset hid)
        exact List.mem_map_of_mem hp
      · exact (List.filter_sublist.map _).subset hid
    · intro hid
      obtain ⟨p, hp, rfl⟩ := List.mem_map.1 hid
      by_cases hin : p.toRecord.id ∈ o
      · exact .inl hin
      · exact .inr (List.mem_map_of_mem (List.mem_filter.2 ⟨hp, by simp [hin]⟩))

theorem ids_run {ids o : List Text} (ho : o.Sublist optionalIds)
    (h : ids.Perm (harnessIds ++ importedIds (evidenceIds src) ++ o)) :
    (ids ++ (missing ids pendingMatrixSkips).map (·.toRecord.id) ++ [hashRecord.id]).Perm
      (runIds (evidenceIds src)) := by
  have hmiss : missing ids pendingMatrixSkips = missing o pendingMatrixSkips := by
    refine List.filter_congr fun p hp => ?_
    have hnot : p.toRecord.id ∉ harnessIds ++ importedIds (evidenceIds src) := fun hin =>
      importedIds_not_pending _ ((importedIds_sublist src).subset hin) (List.mem_map_of_mem hp)
    have hin : p.toRecord.id ∈ ids ↔ p.toRecord.id ∈ o :=
      (h.mem_iff.trans List.mem_append).trans (or_iff_right hnot)
    rw [decide_eq_decide.2 hin]
  rw [hmiss]
  refine .append_right _ ((h.append_right _).trans ?_)
  rw [List.append_assoc]
  exact .append_left _ (append_missing_perm ho)

/-- **A run that is not stopped by the stability evidence** finishes with the ids of the matrix, and
what the importers record is among its records; it exits with status 0 if and only if all its records
pass. -/
theorem evaluate_ends (d : Digest) (env : Env) (fs : Files)
    (h : stabilityAborts env.x86NativeStabilityDir = false) :
    ∃ rs s, evaluate d env ⟨fs, .pass⟩ = (if s.status = .pass then .ok () else .error (.exit 1),
        writeChecksums d s) ∧
      Finished env rs s ∧ (rs.map Record.id).Perm (runIds (evidenceIds env.x86EvidenceDir)) ∧
      importRows env fs ⊆ rs.map row := by
  obtain ⟨s₀, hs₀, h₀⟩ := startLedger_spec fs
  obtain ⟨_, s₁, rs, hs₁, h₁, hrows, -⟩ := adds_collectEvidence env h _ s₀ h₀
  dsimp only at hrows
  rw [importRows_congr fun d _ q => startLedger_lookup hs₀ (by simp)] at hrows
  obtain ⟨o, ho, hids⟩ := (Ids.fixed harnessIds).append (ids_importRows env fs)
  have hmap : rs.map Record.id = harnessIds ++ (importRows env fs).map Prod.fst := by
    have := congrArg (List.map Prod.fst) hrows
    rwa [List.map_map, List.map_append, List.map_map] at this
  rw [List.nil_append] at h₁
  obtain ⟨s₂, hs₂, h₂⟩ := recordPending_run h₁ pendingIds_word pendingIds_nodup
  obtain ⟨s₃, hs₃, h₃, -⟩ := finish_spec d env h₂
  refine ⟨_, s₃, ?_, h₃, ?_, ?_⟩
  · rw [evaluate, Sh.bind_ok hs₀, Sh.bind_ok hs₁, recordPendingMatrixSkips, Sh.bind_ok hs₂, hs₃]
  · rw [← hmap] at hids
    simpa [List.map_map, Function.comp_def] using ids_run ho hids
  · intro x hx
    rw [List.append_assoc, List.map_append, hrows]
    exact List.mem_append_left _ (List.mem_append_right _ hx)

/-- **A run that is stopped** ends with the status of the failed command, before it has written
`summary.json`. -/
theorem evaluate_aborts (d : Digest) (env : Env) (fs : Files)
    (h : stabilityAborts env.x86NativeStabilityDir = true) :
    ∃ n s, evaluate d env ⟨fs, .pass⟩ = (.error (.errexit n), s) ∧
      s.out.lookup summaryJson = fs.lookup summaryJson := by
  obtain ⟨s₀, hs₀, h₀⟩ := startLedger_spec fs
  obtain ⟨n, s, hs, hk⟩ := aborts_collectEvidence env h _ s₀ h₀
  refine ⟨n, s, by rw [evaluate, Sh.bind_ok hs₀, Sh.bind_error hs], hk.summary.trans ?_⟩
  obtain rfl : _ = s₀ := congrArg Prod.snd hs₀
  exact (Files.lookup_write_ne (by decide) _).trans (Files.lookup_write_ne (by decide) _)

end Eval
