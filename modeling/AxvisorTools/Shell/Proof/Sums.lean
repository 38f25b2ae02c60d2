import AxvisorTools.Shell.Sums
import Mathlib.Data.List.Perm.Basic
import Mathlib.Data.List.Sigma

/-!
# What a checksum manifest records

`entries_manifest` reads a manifest back. `exact_write_iff`: a manifest that is the last file
written is exact if and only if no other file has its name, since `! -name SHA256SUMS` leaves out
nested manifests. `exact_append_iff` covers a file that is changed after the manifest was taken.
-/

namespace Shell

variable {fs : Files} {p : Text}

/-! ## Lines of a manifest -/

theorem unescapeName_escape (n : Text) : unescapeName (n.flatMap escapeNameChar) = some n := by
  induction n with
  | nil => rfl
  | cons c n ih =>
    rw [List.flatMap_cons, escapeNameChar]
    split
    · next h =>
      subst h
      simp [unescapeName, ih]
    split
    · next h =>
      subst h
      simp [unescapeName, ih]
    split
    · next h =>
      subst h
      simp [unescapeName, ih]
    · next hb _ _ =>
      rw [List.singleton_append, unescapeName]
      · rw [ih]
        rfl
      · intro _ _ h
        exact absurd h hb
      · intro h
        exact absurd h hb

theorem isHex_ne {c : Char} (h : isHex c = true) : c ≠ '\\' ∧ c ≠ '\n' := by
  constructor <;> (rintro rfl; revert h; decide)

theorem readSum_line {digest : Text} (hl : digest.length = 64) (hh : digest.all isHex = true)
    (escaped : Bool) (name : Text) :
    readSum escaped (digest ++ [' ', ' '] ++ name) =
      (if escaped then unescapeName name else some name).map fun n => (n, digest) := by
  have htake : (digest ++ [' ', ' '] ++ name).take 64 = digest := by
    rw [List.append_assoc, ← hl, List.take_left]
  have hdrop : (digest ++ [' ', ' '] ++ name).drop 64 = ' ' :: ' ' :: name := by
    rw [List.append_assoc, ← hl, List.drop_left]
    rfl
  simp only [readSum, htake, hdrop, hl, hh, and_self, if_true, true_or]

theorem readSumLine_sumLine {digest : Text} (hl : digest.length = 64)
    (hh : digest.all isHex = true) (name : Text) :
    readSumLine (sumLine digest name) = some (name, digest) := by
  obtain ⟨c, t, hc⟩ : ∃ c t, digest = c :: t :=
    List.exists_cons_of_ne_nil fun h => by simp [h] at hl
  have hne : c ≠ '\\' := (isHex_ne (List.all_eq_true.1 hh c (by simp [hc]))).1
  rw [sumLine]
  split
  · rw [List.cons_append, List.cons_append, readSumLine, readSum_line hl hh, if_pos rfl,
      unescapeName_escape]
    rfl
  · unfold readSumLine
    split
    · rename_i h
      rw [hc] at h
      exact absurd (List.cons.inj h).1 hne
    · rw [readSum_line hl hh]
      rfl

theorem newline_not_mem_sumLine {digest : Text} (hh : digest.all isHex = true) (name : Text) :
    '\n' ∉ sumLine digest name := by
  have hd : '\n' ∉ digest := fun h => (isHex_ne (List.all_eq_true.1 hh _ h)).2 rfl
  rw [sumLine]
  split
  · simp only [List.cons_append, List.mem_cons, List.mem_append, List.mem_flatMap, hd, not_or,
      not_exists, not_and]
    refine ⟨by decide, ⟨by simp, by decide⟩, fun c hc hm => ?_⟩
    unfold escapeNameChar at hm
    split at hm
    · exact absurd hm (by decide)
    split at hm
    · exact absurd hm (by decide)
    split at hm
    · exact absurd hm (by decide)
    · next _ hn _ =>
      rw [List.mem_singleton] at hm
      exact hn hm.symm
  · next h =>
    have hn : '\n' ∉ name := fun hm => h (List.any_eq_true.2 ⟨_, hm, by decide⟩)
    simp [hd, hn]

theorem entries_manifest (d : Digest) (fs : Files) :
    entries (manifest d fs) = (listed fs).map fun e => (dotName e.1, d.digest e.2) := by
  have hm : manifest d fs = above ((listed fs).map fun e => sumLine (d.digest e.2) (dotName e.1)) := by
    simp [manifest, above, List.flatMap_map]
  have hu : Unbroken ((listed fs).map fun e => sumLine (d.digest e.2) (dotName e.1)) := by
    intro l hl
    obtain ⟨e, -, rfl⟩ := List.mem_map.1 hl
    exact newline_not_mem_sumLine (d.hex _) _
  have hnil : readSumLine [] = none := rfl
  rw [entries, hm, lines_above hu, List.filterMap_append, List.filterMap_map]
  simp only [Function.comp_def, readSumLine_sumLine (d.length _) (d.hex _), List.filterMap_cons,
    hnil, List.filterMap_nil, List.append_nil]
  simp

/-! ## Entries and files -/

theorem basename_sumsPath : basename sumsPath = sumsPath := by decide

theorem mem_pairs {e : Text × Text} : e ∈ pairs fs ↔ fs.lookup e.1 = some e.2 := by
  rw [pairs, List.mem_map]
  constructor
  · rintro ⟨s, hs, rfl⟩
    exact List.mem_dlookup fs.nodupKeys hs
  · exact fun h => ⟨⟨e.1, e.2⟩, List.of_mem_dlookup h, rfl⟩

theorem nodup_keys_pairs (fs : Files) : ((pairs fs).map Prod.fst).Nodup := by
  rw [pairs, List.map_map]
  exact fs.nodupKeys

theorem dotName_inj {q : Text} (h : dotName p = dotName q) : p = q := by
  simpa [dotName] using h

theorem nodup_map_entry (d : Digest) {l : List (Text × Text)} (h : (l.map Prod.fst).Nodup) :
    (l.map fun e => (dotName e.1, d.digest e.2)).Nodup := by
  refine List.Nodup.of_map Prod.fst ?_
  rw [List.map_map]
  have : (Prod.fst ∘ fun e : Text × Text => (dotName e.1, d.digest e.2)) = dotName ∘ Prod.fst := rfl
  rw [this, ← List.map_map]
  exact h.map fun _ _ => dotName_inj

theorem nodup_entries_manifest (d : Digest) (fs : Files) : (entries (manifest d fs)).Nodup := by
  rw [entries_manifest]
  refine nodup_map_entry d (List.Nodup.perm ?_ ((List.mergeSort_perm _ _).map _).symm)
  exact (nodup_keys_pairs fs).sublist (List.filter_sublist.map _)

theorem nodup_described (d : Digest) (fs : Files) : (described d fs).Nodup :=
  nodup_map_entry d ((nodup_keys_pairs fs).sublist (List.filter_sublist.map _))

theorem mem_map_entry {d : Digest} {l : List (Text × Text)} {h : Text} :
    (dotName p, h) ∈ (l.map fun e => (dotName e.1, d.digest e.2)) ↔
      ∃ c, (p, c) ∈ l ∧ d.digest c = h := by
  simp only [List.mem_map, Prod.mk.injEq, Prod.exists]
  constructor
  · rintro ⟨q, c, hq, hqp, hc⟩
    obtain rfl := dotName_inj hqp
    exact ⟨c, hq, hc⟩
  · rintro ⟨c, hq, hc⟩
    exact ⟨p, c, hq, rfl, hc⟩

theorem mem_entries_manifest {d : Digest} {h : Text} :
    (dotName p, h) ∈ entries (manifest d fs) ↔
      basename p ≠ sumsPath ∧ (fs.lookup p).map d.digest = some h := by
  rw [entries_manifest, mem_map_entry]
  simp only [listed, List.mem_mergeSort, List.mem_filter, mem_pairs, bne_iff_ne,
    Option.map_eq_some_iff]
  exact ⟨fun ⟨c, ⟨hc, hb⟩, hh⟩ => ⟨hb, c, hc, hh⟩, fun ⟨hb, c, hc, hh⟩ => ⟨c, ⟨hc, hb⟩, hh⟩⟩

theorem mem_described {d : Digest} {h : Text} :
    (dotName p, h) ∈ described d fs ↔ p ≠ sumsPath ∧ (fs.lookup p).map d.digest = some h := by
  rw [described, mem_map_entry]
  simp only [List.mem_filter, mem_pairs, bne_iff_ne, Option.map_eq_some_iff]
  exact ⟨fun ⟨c, ⟨hc, hb⟩, hh⟩ => ⟨hb, c, hc, hh⟩, fun ⟨hb, c, hc, hh⟩ => ⟨c, ⟨hc, hb⟩, hh⟩⟩

/-- A manifest of `fs` describes `fs'` when both agree on the digest of every file, where the
manifest says nothing about a nested `SHA256SUMS`. -/
theorem perm_described_iff (d : Digest) (fs fs' : Files) :
    (entries (manifest d fs)).Perm (described d fs') ↔ ∀ p, p ≠ sumsPath →
      (fs'.lookup p).map d.digest =
        if basename p = sumsPath then none else (fs.lookup p).map d.digest := by
  rw [List.perm_ext_iff_of_nodup (nodup_entries_manifest d fs) (nodup_described d fs')]
  constructor
  · intro h p hp
    ext x
    have := h (dotName p, x)
    rw [mem_entries_manifest, mem_described] at this
    split
    · next hb => simpa [hp, hb] using this.symm
    · next hb => simpa [hp, hb] using this.symm
  · rintro h ⟨n, x⟩
    by_cases hn : ∃ p, n = dotName p
    · obtain ⟨p, rfl⟩ := hn
      rw [mem_entries_manifest, mem_described]
      by_cases hp : p = sumsPath
      · subst hp
        simp [basename_sumsPath]
      · rw [h p hp]
        by_cases hb : basename p = sumsPath <;> simp [hb, hp]
    · have h1 : (n, x) ∉ entries (manifest d fs) := by
        rw [entries_manifest, List.mem_map]
        rintro ⟨e, -, he⟩
        exact hn ⟨e.1, (congrArg Prod.fst he).symm⟩
      have h2 : (n, x) ∉ described d fs' := by
        rw [described, List.mem_map]
        rintro ⟨e, -, he⟩
        exact hn ⟨e.1, (congrArg Prod.fst he).symm⟩
      simp [h1, h2]

theorem not_nestedSums_iff (fs : Files) :
    ¬NestedSums fs ↔ ∀ p, p ≠ sumsPath → basename p = sumsPath → fs.lookup p = none := by
  simp only [NestedSums, not_exists, not_and, AList.lookup_eq_none]
  exact ⟨fun h p hp hb hk => h p hk hp hb, fun h p hk hp hb => h p hp hb hk⟩

/-- **A manifest that is written last is exact unless a nested file has its name.** -/
theorem exact_write_iff (d : Digest) (fs : Files) :
    Exact d (fs.write sumsPath (manifest d fs)) ↔ ¬NestedSums fs := by
  have hl : (fs.write sumsPath (manifest d fs)).lookup sumsPath = some (manifest d fs) :=
    AList.lookup_insert _
  rw [Exact, hl]
  simp only [Option.some.injEq, exists_eq_left', perm_described_iff, not_nestedSums_iff]
  refine forall_congr' fun p => forall_congr' fun hp => ?_
  have hlp : (fs.write sumsPath (manifest d fs)).lookup p = fs.lookup p := AList.lookup_insert_ne hp
  rw [hlp]
  by_cases hb : basename p = sumsPath <;> simp [hb]

/-- **A file that grows after the manifest was taken keeps it exact only by a collision.** -/
theorem exact_append_iff (d : Digest) {q c t : Text} (hq : basename q ≠ sumsPath)
    (hc : fs.lookup q = some c) :
    Exact d ((fs.write sumsPath (manifest d fs)).append q t) ↔
      ¬NestedSums fs ∧ d.digest (c ++ t) = d.digest c := by
  have hne : q ≠ sumsPath := fun h => hq (h ▸ basename_sumsPath)
  have hs : ((fs.write sumsPath (manifest d fs)).append q t).lookup sumsPath =
      some (manifest d fs) := by
    rw [Files.append, Files.write, AList.lookup_insert_ne (Ne.symm hne)]
    exact AList.lookup_insert _
  have hlq : ((fs.write sumsPath (manifest d fs)).append q t).lookup q = some (c ++ t) := by
    rw [Files.append, Files.write, AList.lookup_insert, Files.write, AList.lookup_insert_ne hne, hc]
    rfl
  have hlp : ∀ p, p ≠ sumsPath → p ≠ q →
      ((fs.write sumsPath (manifest d fs)).append q t).lookup p = fs.lookup p := fun p hp hpq => by
    rw [Files.append, Files.write, AList.lookup_insert_ne hpq]
    exact AList.lookup_insert_ne hp
  rw [Exact, hs]
  simp only [Option.some.injEq, exists_eq_left', perm_described_iff, not_nestedSums_iff]
  constructor
  · intro h
    refine ⟨fun p hp hb => ?_, ?_⟩
    · have hpq : p ≠ q := fun e => hq (e ▸ hb)
      simpa [hlp p hp hpq, hb] using h p hp
    · simpa [hlq, hq, hc] using h q hne
  · rintro ⟨h, hd⟩ p hp
    by_cases hpq : p = q
    · subst hpq
      simp [hlq, hq, hc, hd]
    · rw [hlp p hp hpq]
      by_cases hb : basename p = sumsPath <;> simp [hb, h p hp]

/-! ## Checking -/

/-- `sha256sum -c` accepts the manifest that was just written, when it has an entry. -/
theorem verifies_write (d : Digest) (fs : Files) {c : Text} (hc : fs.lookup p = some c)
    (hp : basename p ≠ sumsPath) :
    verifies d (fs.write sumsPath (manifest d fs)) (manifest d fs) = true := by
  rw [verifies, Bool.and_eq_true, bne_iff_ne]
  constructor
  · intro h
    have hm : (dotName p, d.digest c) ∈ entries (manifest d fs) :=
      mem_entries_manifest.2 ⟨hp, by rw [hc]; rfl⟩
    rw [h] at hm
    cases hm
  · rw [entries_manifest, List.all_map, List.all_eq_true]
    intro e he
    rw [listed, List.mem_mergeSort, List.mem_filter, mem_pairs, bne_iff_ne] at he
    have hne : e.1 ≠ sumsPath := fun h => he.2 (h ▸ basename_sumsPath)
    have hl : (fs.write sumsPath (manifest d fs)).lookup e.1 = some e.2 :=
      (AList.lookup_insert_ne hne).trans he.1
    simp [dotName, hl]

end Shell
