import AxvisorTools.Harness.Proof.Case
import AxvisorTools.Shell.Proof.Nested
import AxvisorTools.Shell.Proof.Triple

/-!
# Which scripts leave an exact manifest

`Nests m c`: the script `m` brings a nested `SHA256SUMS` into the tree if and only if `c`. The rules
follow the commands of a script. A harness that ends with `finalize_checksums` leaves an exact
manifest if and only if nothing before brought one in (`Seals`, `Seals.exact_iff`).
-/

namespace Harness

open Shell Py

variable {p : Text}

/-- A failed command stopped the script. -/
def Failed : Stop → State → Prop := fun x _ => ∃ n, x = .errexit n

/-- The script brings in a nested manifest if and only if `c` (module doc). -/
structure Nests {α : Type} (m : Sh State α) (c : Prop) : Prop where
  triple : ∀ N : Prop,
    Triple (fun s => NestedSums s.out ↔ N) m (fun _ s => NestedSums s.out ↔ N ∨ c) Failed

namespace Nests

variable {α β : Type} {m : Sh State α} {f : α → Sh State β} {c c' : Prop}

theorem congr (h : Nests m c) (hc : c ↔ c') : Nests m c' :=
  ⟨fun N => (h.triple N).conseq (fun _ => id) (fun _ _ hs => hs.trans (or_congr_right hc))
    fun _ _ => id⟩

theorem bind (hm : Nests m c) (hf : ∀ a, Nests (f a) c') : Nests (m >>= f) (c ∨ c') :=
  ⟨fun N => (hm.triple N).bind fun a => ((hf a).triple (N ∨ c)).conseq (fun _ => id)
    (fun _ _ hs => hs.trans or_assoc) fun _ _ => id⟩

theorem after (hm : Nests m False) (hf : ∀ a, Nests (f a) c) : Nests (m >>= f) c :=
  (hm.bind hf).congr (or_iff_right not_false)

theorem before (hm : Nests m c) (hf : ∀ a, Nests (f a) False) : Nests (m >>= f) c :=
  (hm.bind hf).congr (or_iff_left not_false)

theorem pure (a : α) : Nests (Pure.pure a : Sh State α) False :=
  ⟨fun _ => Triple.pure a fun _ hs => hs.trans (or_iff_left not_false).symm⟩

theorem get : Nests (Sh.get : Sh State State) False :=
  ⟨fun _ => Triple.get fun _ hs => hs.trans (or_iff_left not_false).symm⟩

/-- A command that fails brings in nothing, whatever was expected of it. -/
theorem fail {n : Nat} (h : n ≠ 0) : Nests (Sh.plain n : Sh State Unit) c := by
  constructor
  intro N s _
  rw [Sh.plain, if_neg h]
  exact ⟨n, rfl⟩

theorem plain (n : Nat) : Nests (Sh.plain n : Sh State Unit) False := by
  by_cases h : n = 0
  · subst h
    exact ⟨fun N s hs => hs.trans (or_iff_left not_false).symm⟩
  · exact .fail h

theorem modify {f : State → State} (h : ∀ s, NestedSums (f s).out ↔ NestedSums s.out ∨ c) :
    Nests (Sh.modify f) c :=
  ⟨fun _ => Triple.modify fun s hs => (h s).trans (or_congr_left hs)⟩

theorem modify_false {f : State → State} (h : ∀ s, NestedSums (f s).out ↔ NestedSums s.out) :
    Nests (Sh.modify f) False :=
  modify fun s => (h s).trans (or_iff_left not_false).symm

theorem modify_of_not {f : State → State} (hp : ¬Nested p)
    (h : ∀ s, NestedSums (f s).out ↔ NestedSums s.out ∨ Nested p) : Nests (Sh.modify f) False :=
  modify fun s => (h s).trans (or_congr_right (iff_false_intro hp))

theorem ite {b : Prop} [Decidable b] {m' : Sh State α} (h : b → Nests m c) (h' : ¬b → Nests m' c) :
    Nests (if b then m else m') c :=
  ⟨fun N => Triple.ite (fun hb => (h hb).triple N) fun hb => (h' hb).triple N⟩

theorem when {b : Bool} {m : Sh State Unit} (h : Nests m False) : Nests (Sh.when b m) False := by
  cases b
  · exact pure ()
  · exact h

theorem each {f : α → Sh State Unit} {c : α → Prop} {xs : List α}
    (h : ∀ x ∈ xs, Nests (f x) (c x)) : Nests (Sh.each f xs) (∃ x ∈ xs, c x) := by
  induction xs with
  | nil => exact (pure ()).congr (by simp)
  | cons x xs ih =>
    refine ((h x List.mem_cons_self).bind fun _ => ih fun y hy => ?_).congr (by simp)
    exact h y (List.mem_cons_of_mem _ hy)

theorem each_false {f : α → Sh State Unit} {xs : List α} (h : ∀ x ∈ xs, Nests (f x) False) :
    Nests (Sh.each f xs) False := (each h).congr (by simp)

end Nests

/-! ## The commands of the harnesses -/

theorem nests_write (hp : ¬Nested p) (t : State → Text) :
    Nests (Sh.modify fun s => s.write p (t s)) False :=
  .modify_of_not hp fun _ => nestedSums_write _ _ _

theorem nests_append (hp : ¬Nested p) (t : State → Text) :
    Nests (Sh.modify fun s => s.append p (t s)) False :=
  .modify_of_not hp fun _ => nestedSums_append _ _ _

theorem not_nested_top (h : '/' ∉ p) : ¬Nested p := by
  rintro ⟨hne, hb⟩
  rw [basename, List.splitOn_eq_singleton h] at hb
  exact hne hb

theorem nestedSums_writeTop (h : '/' ∉ p) (c : Text) (s : State) :
    NestedSums (s.write p c).out ↔ NestedSums s.out :=
  (nestedSums_write _ _ _).trans (or_iff_left (not_nested_top h))

theorem nestedSums_recordCase (r : Record) (s : State) :
    NestedSums (recordCase r s).out ↔ NestedSums s.out :=
  (nestedSums_writeTop (by decide) _ _).trans
    ((nestedSums_writeTop (by decide) _ _).trans (nestedSums_writeTop (by decide) _ _))

theorem nestedSums_recordTest (onSkip : Overall) (r : Record) (s : State) :
    NestedSums (recordTest onSkip r s).out ↔ NestedSums s.out :=
  (nestedSums_writeTop (by decide) _ _).trans (nestedSums_writeTop (by decide) _ _)

/-- A run left a file with the name of the manifest. -/
def Outcome.leavesSums (o : Outcome) : Bool := o.files.any fun e => basename e.1 = sumsPath

theorem leavesSums_iff (o : Outcome) :
    o.leavesSums = true ↔ ∃ e ∈ o.files, basename e.1 = sumsPath := by
  simp [Outcome.leavesSums]

theorem not_nested_caseFile {name : String} (h : basename name.toList ≠ sumsPath) (id : Text) :
    ¬Nested (caseFile id name) := by
  rwa [caseFile, nested_append_slash]

theorem nestedSums_inner (id : Text) (o : Outcome) (s : State) :
    NestedSums (inner id o s).out ↔ NestedSums s.out ∨ o.leavesSums = true := by
  have hrun : id ++ "/run/" = (id ++ "/run") ++ ['/'] := by
    rw [List.append_assoc]
    exact congrArg (id ++ ·) (by decide)
  have hout : ¬Nested (caseFile id "run.out") := not_nested_caseFile (by decide) id
  rw [inner, State.graft, hrun]
  refine (nestedSums_graft _ _ _).trans (or_congr ?_ (leavesSums_iff o).symm)
  exact (nestedSums_write _ _ _).trans (or_iff_left hout)

theorem nestedSums_keepAll {names : List String}
    (h : ∀ name ∈ names, basename name.toList ≠ sumsPath) (id : Text) (s : State) :
    NestedSums (keepAll id names s).out ↔ NestedSums s.out := by
  unfold keepAll
  induction names generalizing s with
  | nil => rfl
  | cons name names ih =>
    rw [List.foldl_cons, ih fun n hn => h n (List.mem_cons_of_mem _ hn)]
    have hname := not_nested_caseFile (h name List.mem_cons_self) id
    exact (nestedSums_copy _ _ _).trans (or_iff_left fun hn => hname hn.2)

/-- The names that a case copies. -/
def Case.Clean (c : Case) : Prop :=
  ∀ name ∈ c.kept ++ c.keptOnSuccess, basename name.toList ≠ sumsPath

theorem Case.nests_run {c : Case} (hc : c.Clean) (o : Outcome) :
    Nests (c.run o) (o.leavesSums = true) := by
  refine Nests.before (.modify fun s => ?_) fun _ => .modify_false fun s => ?_
  · refine (nestedSums_keepAll (fun name hname => hc name ?_) _ _).trans (nestedSums_inner _ _ _)
    split at hname
    · exact hname
    · exact List.mem_append_left _ hname
  · exact nestedSums_recordCase _ s

theorem nests_startCases : Nests startCases False :=
  (nests_write (not_nested_top (by decide)) _).after fun _ =>
    (nests_write (not_nested_top (by decide)) _).after fun _ =>
      nests_write (not_nested_top (by decide)) _

theorem nests_writeReadme (title : String) (runId body : Text) :
    Nests (writeReadme title runId body) False := nests_write (not_nested_top (by decide)) _

theorem nests_finalizeSummary (decode : Option Text → Option (List Json))
    (document : Overall → List Json → Json) : Nests (finalizeSummary decode document) False := by
  refine Nests.get.after fun s => ?_
  split
  · exact .plain 1
  · exact nests_write (not_nested_top (by decide)) _

theorem nests_finalizeChecksums (d : Digest) : Nests (finalizeChecksums d) False :=
  (nests_write not_nested_sumsPath _).after fun _ => Nests.get.after fun _ => .plain _

/-! ## The manifest -/

/-- The script ends with a manifest that is exact unless a nested one was there or `c`. -/
structure Seals {α : Type} (d : Digest) (m : Sh State α) (c : Prop) : Prop where
  triple : ∀ N : Prop,
    Triple (fun s => NestedSums s.out ↔ N) m (fun _ s => Exact d s.out ↔ ¬(N ∨ c))
      fun x s => (∀ n, x ≠ .errexit n) → (Exact d s.out ↔ ¬(N ∨ c))

section Seals

variable {α β : Type} {m : Sh State α} {f : α → Sh State β} {c c' : Prop} {d : Digest}

theorem Seals.congr (h : Seals d m c) (hc : c ↔ c') : Seals d m c' := by
  rwa [propext hc] at h

theorem Nests.bindSeals (hm : Nests m c) (hf : ∀ a, Seals d (f a) c') :
    Seals d (m >>= f) (c ∨ c') := by
  constructor
  intro N
  rw [← or_assoc]
  refine ((hm.triple N).conseq (fun _ => id) (fun _ _ => id) ?_).bind fun a =>
    (hf a).triple (N ∨ c)
  rintro x s ⟨n, rfl⟩ h
  exact absurd rfl (h n)

theorem Nests.seals (hm : Nests m c) (hf : ∀ a, Seals d (f a) False) : Seals d (m >>= f) c :=
  (hm.bindSeals hf).congr (or_iff_left not_false)

theorem Nests.afterSeals (hm : Nests m False) (hf : ∀ a, Seals d (f a) c) : Seals d (m >>= f) c :=
  (hm.bindSeals hf).congr (or_iff_right not_false)

end Seals

/-- After the manifest, a script only looks at the tree. -/
theorem seals_writeChecksums (d : Digest) {k : Sh State Unit} (hk : ∀ s, (k s).2 = s) :
    Seals d (do Sh.modify (writeChecksums d); k) False := by
  constructor
  intro N s hs
  have hex : Exact d (writeChecksums d s).out ↔ ¬(N ∨ False) :=
    (exact_write_iff d s.out).trans (not_congr (hs.trans (or_iff_left not_false).symm))
  have hst := hk (writeChecksums d s)
  rw [Sh.bind_ok (Sh.modify_apply _ s)]
  revert hst
  rcases k (writeChecksums d s) with ⟨x | x, s'⟩
  · rintro rfl _
    exact hex
  · rintro rfl
    exact hex

theorem seals_finalizeChecksums (d : Digest) {k : Sh State Unit} (hk : Exits k) :
    Seals d (do finalizeChecksums d; k) False := by
  -- the check of the manifest is a command that may fail, but changes nothing
  refine seals_writeChecksums d (k := do
    let s ← Sh.get
    Sh.plain (if verifies d s.out ((s.out.lookup sumsPath).getD []) then 0 else 1)
    k) fun s => ?_
  rw [Sh.bind_ok (Sh.get_apply s)]
  split
  · exact (hk s).2
  · rfl

/-- **A harness that seals its tree leaves an exact manifest** unless it brought in another one. -/
theorem Seals.exact_iff {α : Type} {d : Digest} {m : Sh State α} {c : Prop} (h : Seals d m c)
    {s : State} (hend : RunsToEnd (m s)) :
    Exact d (m s).2.out ↔ ¬NestedSums s.out ∧ ¬c := by
  have h := h.triple (NestedSums s.out) s Iff.rfl
  rw [← not_or]
  revert h hend
  rcases m s with ⟨x | x, s'⟩
  · exact fun hend h => h fun n hx => hend n (by rw [hx])
  · exact fun _ h => h

end Harness
