import AxvisorTools.Eval.Proof.Ledger
import AxvisorTools.Eval.Rows

/-!
# What an importer adds to the ledger

`Adds dirs m rows`: from any state with a ledger, `m` ends normally and its new records have the ids
and verdicts `rows`, which may depend on the state before; no file is lost, and `summary.json` and the
files in the directories `dirs` are left alone. `Aborts m`: from any such state `m` ends the script.
The rules follow the commands, so that the lemma about an importer is a chain of them, one link for
each command of the script.
-/

namespace Eval

open Shell Py Harness

variable {α β : Type} {dirs dirs' : List Text} {g : State → State} {artifacts : List String}

/-- What a part of the script keeps. -/
structure Keeps (dirs : List Text) (s s' : State) : Prop where
  files : ∀ p ∈ s.out, p ∈ s'.out
  summary : s'.out.lookup summaryJson = s.out.lookup summaryJson
  spared : ∀ d ∈ dirs, ∀ q, s'.out.lookup (d ++ '/' :: q) = s.out.lookup (d ++ '/' :: q)

theorem Keeps.refl (s : State) : Keeps dirs s s := ⟨fun _ h => h, rfl, fun _ _ _ => rfl⟩

theorem Keeps.trans {s s' s'' : State} (h : Keeps dirs s s') (h' : Keeps dirs' s' s'')
    (hd : dirs' ⊆ dirs) : Keeps dirs' s s'' :=
  ⟨fun p hp => h'.files p (h.files p hp), h'.summary.trans h.summary,
    fun d hd' q => (h'.spared d hd' q).trans (h.spared d (hd hd') q)⟩

theorem lookup_recordTest_of_slash (r : Record) (s : State) {p : Text} (h : '/' ∈ p) :
    (Harness.recordTest .fail r s).out.lookup p = s.out.lookup p := by
  refine lookup_recordTest _ r ?_ ?_ <;> rintro rfl <;> exact absurd h (by decide)

theorem keeps_recordTest (r : Record) (s : State) : Keeps dirs s (Harness.recordTest .fail r s) :=
  ⟨fun _ hp => mem_recordTest _ r hp, lookup_recordTest _ r (by decide) (by decide),
    fun _ _ _ => lookup_recordTest_of_slash r s (by simp)⟩

def row (r : Record) : Row := (r.id, r.status)

/-- Total correctness of a part of the script with respect to the ledger (module doc). -/
def Adds (dirs : List Text) (m : Sh State α) (rows : State → List Row) : Prop :=
  ∀ rs s, Ledger rs s → ∃ a s' new, m s = (.ok a, s') ∧ Ledger (rs ++ new) s' ∧
    new.map row = rows s ∧ Keeps dirs s s'

/-- The script adds records with these ids and verdicts. -/
abbrev Appends (m : Sh State α) (rows : List Row) : Prop := Adds [] m fun _ => rows

/-- The script adds no record. -/
abbrev Quiet (dirs : List Text) (m : Sh State α) : Prop := Adds dirs m fun _ => []

namespace Adds

variable {m : Sh State α} {f : α → Sh State β} {rows rows' : State → List Row} {l : List Row}

/-- The general rule: what follows may depend on the result and on the state after `m`. -/
theorem bind (hm : Adds dirs m rows) (hd : dirs' ⊆ dirs)
    (hf : ∀ s a s', m s = (.ok a, s') → Keeps dirs s s' →
      ∃ later, Adds dirs' (f a) later ∧ rows s ++ later s' = rows' s) :
    Adds dirs' (m >>= f) rows' := by
  intro rs s hs
  obtain ⟨a, s₁, new₁, h₁, hl₁, hp₁, hk₁⟩ := hm rs s hs
  obtain ⟨later, hlater, hrows⟩ := hf s a s₁ h₁ hk₁
  obtain ⟨b, s₂, new₂, h₂, hl₂, hp₂, hk₂⟩ := hlater _ s₁ hl₁
  refine ⟨b, s₂, new₁ ++ new₂, by rw [Sh.bind_ok h₁, h₂], by rwa [← List.append_assoc], ?_,
    hk₁.trans hk₂ hd⟩
  rw [List.map_append, hp₁, hp₂, hrows]

/-- Two importers, where the first does not touch what the second one reads. -/
theorem appendOn (hm : Adds dirs m rows) (hf : ∀ a, Adds [] (f a) rows')
    (hr : ∀ s s', Keeps dirs s s' → rows' s' = rows' s) :
    Adds [] (m >>= f) fun s => rows s ++ rows' s :=
  hm.bind (List.nil_subset _) fun s a s' _ hk => ⟨_, hf a, by rw [hr s s' hk]⟩

theorem append (hm : Adds dirs m rows) (hf : ∀ a, Appends (f a) l) :
    Adds [] (m >>= f) fun s => rows s ++ l := hm.appendOn hf fun _ _ _ => rfl

theorem quiet (hm : Quiet dirs m) (hf : ∀ a, Adds dirs (f a) fun _ => l) :
    Adds dirs (m >>= f) fun _ => l :=
  hm.bind (List.Subset.refl _) fun _ a _ _ _ => ⟨_, hf a, rfl⟩

theorem quietValue {a : α} (hm : Quiet dirs m) (ha : ∀ s, ∃ s', m s = (.ok a, s'))
    (hf : Adds dirs (f a) fun _ => l) : Adds dirs (m >>= f) fun _ => l := by
  refine hm.bind (List.Subset.refl _) fun s b s' h _ => ?_
  obtain ⟨s'', h'⟩ := ha s
  cases h.symm.trans h'
  exact ⟨_, hf, rfl⟩

theorem quietState (hm : Quiet dirs m) (hg : ∀ s, ∃ a, m s = (.ok a, g s))
    (hf : ∀ a, Adds dirs (f a) rows) : Adds dirs (m >>= f) fun s => rows (g s) := by
  refine hm.bind (List.Subset.refl _) fun s a s' h _ => ?_
  obtain ⟨b, h'⟩ := hg s
  cases h.symm.trans h'
  exact ⟨_, hf a, rfl⟩

theorem pure (a : α) : Quiet dirs (Pure.pure a : Sh State α) :=
  fun rs s hs => ⟨a, s, [], rfl, by rwa [List.append_nil], rfl, .refl s⟩

theorem get {f : State → Sh State β} (hf : ∀ s, Adds dirs (f s) fun _ => rows s) :
    Adds dirs (Sh.get >>= f) rows := by
  have hget : Quiet dirs (Sh.get : Sh State State) :=
    fun rs s hs => ⟨s, s, [], rfl, by rwa [List.append_nil], rfl, .refl s⟩
  refine hget.bind (List.Subset.refl _) fun s a s' h _ => ?_
  cases h
  exact ⟨_, hf s, rfl⟩

theorem modify (hf : ∀ s, (g s).out.lookup testsJsonl = s.out.lookup testsJsonl)
    (hs : ∀ s, (g s).status = s.status) (hk : ∀ s, Keeps dirs s (g s)) : Quiet dirs (Sh.modify g) :=
  fun rs s h => ⟨(), g s, [], rfl, by
    rw [List.append_nil]
    exact h.congr (hf s) (hs s), rfl, hk s⟩

theorem record {id : String} {v : Verdict} {reason : Text} :
    Adds dirs (Eval.record id v reason artifacts) fun _ => [(id.toList, v)] :=
  fun _ _ h => ⟨(), _, [_], rfl, h.recordTest _, rfl, keeps_recordTest _ _⟩

theorem cons {id : String} {v : Verdict} {reason : Text} {f : Unit → Sh State β}
    (hf : ∀ u, Adds dirs (f u) fun _ => l) :
    Adds dirs (Eval.record id v reason artifacts >>= f) fun _ => (id.toList, v) :: l :=
  record.bind (List.Subset.refl _) fun _ a _ _ _ => ⟨_, hf a, rfl⟩

theorem consGet {id : String} {v : Verdict} {reason : Text} {f : State → Sh State β}
    (hf : ∀ s, Adds dirs (f s) fun _ => rows s)
    (hr : ∀ r s, rows (Harness.recordTest .fail r s) = rows s) :
    Adds dirs (Eval.record id v reason artifacts >>= fun _ => Sh.get >>= f)
      fun s => (id.toList, v) :: rows s := by
  refine record.bind (List.Subset.refl _) fun s a s' h _ => ?_
  cases h
  exact ⟨_, get hf, congrArg ((id.toList, v) :: ·) (hr _ s)⟩

theorem congr (hm : Adds dirs m rows) (h : ∀ s, rows s = rows' s) : Adds dirs m rows' :=
  funext h ▸ hm

theorem each {γ : Type} {g : γ → Sh State Unit} (h : ∀ x, Quiet dirs (g x)) (xs : List γ) :
    Quiet dirs (Sh.each g xs) := by
  induction xs with
  | nil => exact pure ()
  | cons x xs ih => exact quiet (h x) fun _ => ih

theorem when {m : Sh State Unit} (hm : Adds dirs m fun _ => l) (b : Bool) :
    Adds dirs (Sh.when b m) fun _ => if b then l else [] := by
  cases b
  · exact pure ()
  · exact hm

theorem whenReported (b : Bool) (id : String) (reason : Text) (artifacts : List String) :
    Adds dirs (Sh.when b (Eval.record id .pass reason artifacts))
      fun _ => reported [(b, id.toList)] := by
  cases b
  · exact pure ()
  · exact record

theorem consReported {b : Bool} {id : String} {reason : Text} {f : Unit → Sh State β}
    {tests : List (Bool × Text)} (hf : ∀ u, Adds dirs (f u) fun _ => reported tests) :
    Adds dirs (Sh.when b (Eval.record id .pass reason artifacts) >>= f)
      fun _ => reported ((b, id.toList) :: tests) := by
  cases b
  · exact quiet (pure ()) hf
  · exact cons hf

end Adds

/-! ## Commands that write other files -/

/-- The path is neither at the top nor in one of the directories. -/
abbrev Elsewhere (dirs : List Text) (p : Text) : Prop := '/' ∈ p ∧ ∀ d ∈ dirs, ¬(d ++ ['/']) <+: p

namespace Elsewhere

variable {p : Text}

theorem ne_testsJsonl (h : Elsewhere dirs p) : testsJsonl ≠ p := by
  rintro rfl
  exact absurd h.1 (by decide)

theorem ne_summaryJson (h : Elsewhere dirs p) : summaryJson ≠ p := by
  rintro rfl
  exact absurd h.1 (by decide)

theorem ne_spared (h : Elsewhere dirs p) {d : Text} (hd : d ∈ dirs) (q : Text) : d ++ '/' :: q ≠ p := by
  rintro rfl
  exact h.2 d hd ⟨q, by simp⟩

theorem below {dir : Text} (hs : '/' ∈ dir)
    (h : ∀ d ∈ dirs, ¬(d ++ ['/']) <+: dir ∧ ¬dir <+: d ++ ['/']) (q : Text) :
    Elsewhere dirs (dir ++ q) := by
  refine ⟨List.mem_append_left _ hs, fun d hd hp => ?_⟩
  rcases List.prefix_or_prefix_of_prefix hp (List.prefix_append dir q) with hp | hp
  · exact (h d hd).1 hp
  · exact (h d hd).2 hp

end Elsewhere

theorem quiet_file {p : Text} (h : Elsewhere dirs p)
    (hl : ∀ s q, q ≠ p → (g s).out.lookup q = s.out.lookup q) (hs : ∀ s, (g s).status = s.status)
    (hm : ∀ s, ∀ q ∈ s.out, q ∈ (g s).out) : Quiet dirs (Sh.modify g) :=
  Adds.modify (fun s => hl s _ h.ne_testsJsonl) hs fun s =>
    ⟨hm s, hl s _ h.ne_summaryJson, fun _ hd q => hl s _ (h.ne_spared hd q)⟩

theorem quiet_writeFile {p : String} (h : Elsewhere dirs p.toList) (c : Text) :
    Quiet dirs (writeFile p c) :=
  quiet_file h (fun _ _ hq => Files.lookup_write_ne hq c) (fun _ => rfl)
    fun _ _ hp => Files.mem_write hp _ _

theorem quiet_append {p : Text} (h : Elsewhere dirs p) (c : Text) :
    Quiet dirs (Sh.modify (State.append p c)) :=
  quiet_file h (fun _ _ hq => Files.lookup_append_ne hq c) (fun _ => rfl)
    fun _ _ hp => Files.mem_append hp _ _

theorem quiet_copy {p : Text} (h : Elsewhere dirs p) (c : State → Option Text) :
    Quiet dirs (Sh.modify fun s => s.copy (c s) p) :=
  quiet_file h (fun _ _ hq => Files.lookup_copy_ne hq _) (fun _ => rfl)
    fun _ _ hp => Files.mem_copy hp _ _

theorem quiet_graft {dir : Text} (hs : '/' ∈ dir)
    (h : ∀ d ∈ dirs, ¬(d ++ ['/']) <+: dir ∧ ¬dir <+: d ++ ['/']) (files : List (Text × Text)) :
    Quiet dirs (Sh.modify (State.graft dir files)) := by
  have hd : ∀ {p : Text}, dir <+: p → Elsewhere dirs p := by
    rintro p ⟨q, rfl⟩
    exact .below hs h q
  exact Adds.modify (fun _ => Files.lookup_graft (fun hp => (hd hp).ne_testsJsonl rfl) files)
    (fun _ => rfl) fun _ => ⟨fun _ hp => Files.mem_graft hp _ _,
      Files.lookup_graft (fun hp => (hd hp).ne_summaryJson rfl) files,
      fun _ hd' q => Files.lookup_graft (fun hp => (hd hp).ne_spared hd' q rfl) files⟩

theorem quiet_copyNamed (t : Tree) (src : Text) {dst : Text} (h : '/' ∈ dst) :
    Quiet [] (copyNamed t src dst) := quiet_copy ⟨h, by simp⟩ _

theorem quiet_copyEachIn (t : Tree) {dst : String} (names : List String)
    (h : ∀ name : String, Elsewhere dirs (dst.toList ++ '/' :: name.toList)) :
    Quiet dirs (copyEach t dst names) :=
  Adds.each (fun name => quiet_copy (h name) _) names

theorem quiet_copyEach {t : Tree} {dst : String} {names : List String} :
    Quiet [] (copyEach t dst names) := quiet_copyEachIn t names fun _ => ⟨by simp, by simp⟩

theorem quiet_copyPlain {c : Option Text} (hc : c.isSome = true) {p : String}
    (h : Elsewhere dirs p.toList) : Quiet dirs (copyPlain c p) := by
  cases c with
  | none => cases hc
  | some c => exact quiet_writeFile h c

theorem quiet_capture {statuses : List Nat} (h : pipefail statuses = 0) (output : Text) :
    Quiet [] (capture statuses output) := by
  refine Adds.quiet ?_ fun _ => Adds.pure _
  rw [h]
  exact Adds.pure ()

/-! ## Ending the script -/

/-- A plain command of `m` fails. -/
def Aborts (m : Sh State α) : Prop :=
  ∀ rs s, Ledger rs s → ∃ n s', m s = (.error (.errexit n), s') ∧ Keeps [] s s'

namespace Aborts

variable {m : Sh State α} {f : α → Sh State β} {rows : State → List Row}

theorem first (hm : Aborts m) : Aborts (m >>= f) := by
  intro rs s hs
  obtain ⟨n, s', h, hk⟩ := hm rs s hs
  exact ⟨n, s', Sh.bind_error h, hk⟩

theorem later (hm : Adds dirs m rows) (hf : ∀ a, Aborts (f a)) : Aborts (m >>= f) := by
  intro rs s hs
  obtain ⟨a, s₁, new, h₁, hl, -, hk₁⟩ := hm rs s hs
  obtain ⟨n, s₂, h₂, hk₂⟩ := hf a _ s₁ hl
  exact ⟨n, s₂, by rw [Sh.bind_ok h₁, h₂], hk₁.trans hk₂ (List.nil_subset _)⟩

end Aborts

theorem aborts_capture {statuses : List Nat} (h : pipefail statuses ≠ 0) (output : Text) :
    Aborts (capture statuses output) :=
  .first fun _ s _ => ⟨pipefail statuses, s, by rw [Sh.plain, if_neg h], .refl s⟩

end Eval
