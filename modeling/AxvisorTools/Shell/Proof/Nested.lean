import AxvisorTools.Shell.Proof.Files
import AxvisorTools.Shell.Proof.Sums

/-!
# Nested manifests

When an operation on a tree brings in a file below the top that has the name of the manifest
(`NestedSums`).
-/

namespace Shell

variable {l : List Char}

theorem basename_append_slash (dir p : Text) : basename (dir ++ '/' :: p) = basename p := by
  rw [basename, basename, List.splitOn_append_cons_self, List.getLast?_append_of_ne_nil]
  exact List.splitOn_ne_nil _ _

theorem getLast?_of_basename {p : Text} (h : basename p = sumsPath) : p.getLast? = some 'S' := by
  have hlast : sumsPath.getLast? = some 'S' := by decide
  by_cases hs : '/' ∈ p
  · obtain ⟨b, a, hp, hb⟩ := List.eq_append_cons_of_mem (List.mem_reverse.2 hs)
    have hsplit : p = a.reverse ++ '/' :: b.reverse := by
      rw [← List.reverse_reverse p, hp]
      simp
    have hname : b.reverse = sumsPath := by
      rw [hsplit, basename_append_slash, basename, List.splitOn_eq_singleton (by simpa using hb)] at h
      exact h
    rw [hsplit, hname, List.getLast?_append_of_ne_nil _ (List.cons_ne_nil _ _)]
    rfl
  · rw [basename, List.splitOn_eq_singleton hs] at h
    obtain rfl : p = sumsPath := h
    exact hlast

theorem basename_ne (h : l.getLast? ≠ some 'S') : basename (String.ofList l).toList ≠ sumsPath := by
  rw [String.toList_ofList]
  exact fun hb => h (getLast?_of_basename hb)

theorem basename_append_ne (dir : Text) (h : l.getLast? ≠ some 'S') (hl : l ≠ []) :
    basename (dir ++ (String.ofList l).toList) ≠ sumsPath := by
  rw [String.toList_ofList]
  intro hb
  have hlast := getLast?_of_basename hb
  rw [List.getLast?_append_of_ne_nil _ hl] at hlast
  exact h hlast

/-- No path of a list has the name of the manifest but the manifest itself. -/
def OnlySums (names : List String) : Prop :=
  ∀ n ∈ names, basename n.toList = sumsPath → n = "SHA256SUMS"

namespace OnlySums

variable {names names' : List String}

theorem nil : OnlySums [] := fun _ h => absurd h List.not_mem_nil

theorem cons (h : l.getLast? ≠ some 'S') (hs : OnlySums names) :
    OnlySums (String.ofList l :: names) :=
  List.forall_mem_cons.2 ⟨fun hb => absurd hb (basename_ne h), hs⟩

theorem consAppend (s : String) (h : l.getLast? ≠ some 'S') (hl : l ≠ []) (hs : OnlySums names) :
    OnlySums ((s ++ String.ofList l) :: names) := by
  refine List.forall_mem_cons.2 ⟨fun hb => absurd hb ?_, hs⟩
  rw [String.toList_append]
  exact basename_append_ne _ h hl

theorem self (hs : OnlySums names) : OnlySums ("SHA256SUMS" :: names) :=
  List.forall_mem_cons.2 ⟨fun _ => rfl, hs⟩

theorem append (h : OnlySums names) (h' : OnlySums names') : OnlySums (names ++ names') :=
  List.forall_mem_append.2 ⟨h, h'⟩

end OnlySums

/-- A path below the top with the name of the manifest. -/
def Nested (p : Text) : Prop := p ≠ sumsPath ∧ basename p = sumsPath

theorem not_nested_sumsPath : ¬Nested sumsPath := fun h => h.1 rfl

theorem not_nested_of_basename {p : Text} (h : basename p ≠ sumsPath) : ¬Nested p :=
  fun hp => h hp.2

theorem nested_append_slash (dir p : Text) : Nested (dir ++ '/' :: p) ↔ basename p = sumsPath := by
  have hslash : '/' ∉ sumsPath := by decide
  have hne : dir ++ '/' :: p ≠ sumsPath := fun h => hslash (h ▸ by simp)
  rw [Nested, basename_append_slash, and_iff_right hne]

variable (fs : Files)

theorem nestedSums_write (p c : Text) : NestedSums (fs.write p c) ↔ NestedSums fs ∨ Nested p := by
  have hmem : ∀ q, q ∈ (fs.write p c).keys ↔ q = p ∨ q ∈ fs.keys := fun q => AList.mem_insert fs
  simp only [NestedSums, hmem, or_and_right, exists_or, exists_eq_left]
  exact or_comm

theorem nestedSums_append (p c : Text) :
    NestedSums (fs.append p c) ↔ NestedSums fs ∨ Nested p := nestedSums_write _ _ _

theorem nestedSums_copy (content : Option Text) (p : Text) :
    NestedSums (fs.copy content p) ↔ NestedSums fs ∨ content.isSome ∧ Nested p := by
  cases content with
  | none => simp [Files.copy]
  | some c => simpa [Files.copy] using nestedSums_write fs p c

theorem nestedSums_graft (dir : Text) (entries : List (Text × Text)) :
    NestedSums (fs.graft (dir ++ ['/']) entries) ↔
      NestedSums fs ∨ ∃ e ∈ entries, basename e.1 = sumsPath := by
  unfold Files.graft
  induction entries generalizing fs with
  | nil => simp
  | cons e es ih =>
    rw [List.foldl_cons, ih, nestedSums_write, List.append_assoc, List.singleton_append,
      nested_append_slash, or_assoc, List.exists_mem_cons_iff]

end Shell
