import AxvisorTools.Shell.Script

/-!
# Reading a tree after a write

What each operation on a tree does to the file at a path, and that no operation removes a file.
-/

namespace Shell.Files

variable {fs : Files} {p q dir : Text}

@[simp] theorem lookup_write_self (fs : Files) (p c : Text) : (fs.write p c).lookup p = some c :=
  AList.lookup_insert _

theorem lookup_write_ne (h : p ≠ q) (c : Text) : (fs.write q c).lookup p = fs.lookup p :=
  AList.lookup_insert_ne h

@[simp] theorem lookup_append_self (fs : Files) (p c : Text) :
    (fs.append p c).lookup p = some ((fs.lookup p).getD [] ++ c) := lookup_write_self _ _ _

theorem lookup_append_ne (h : p ≠ q) (c : Text) : (fs.append q c).lookup p = fs.lookup p :=
  lookup_write_ne h _

theorem lookup_copy_ne (h : p ≠ q) (c : Option Text) : (fs.copy c q).lookup p = fs.lookup p := by
  cases c with
  | none => rfl
  | some c => exact lookup_write_ne h _

theorem lookup_graft (h : ¬dir <+: p) (entries : List (Text × Text)) :
    (fs.graft dir entries).lookup p = fs.lookup p := by
  unfold graft
  induction entries generalizing fs with
  | nil => rfl
  | cons e es ih =>
    rw [List.foldl_cons, ih, lookup_write_ne]
    rintro rfl
    exact h (List.prefix_append _ _)

/-! ## Two trees that agree on a path -/

section Congr

variable {fs' : Files}

theorem lookup_write_congr (h : fs.lookup p = fs'.lookup p) (q c : Text) :
    (fs.write q c).lookup p = (fs'.write q c).lookup p := by
  by_cases hq : p = q
  · rw [hq, lookup_write_self, lookup_write_self]
  · rw [lookup_write_ne hq, lookup_write_ne hq, h]

theorem lookup_copy_congr (h : fs.lookup p = fs'.lookup p) (c : Option Text) (q : Text) :
    (fs.copy c q).lookup p = (fs'.copy c q).lookup p := by
  cases c with
  | none => exact h
  | some c => exact lookup_write_congr h q c

theorem lookup_graft_congr (h : fs.lookup p = fs'.lookup p) (dir : Text)
    (entries : List (Text × Text)) :
    (fs.graft dir entries).lookup p = (fs'.graft dir entries).lookup p := by
  unfold graft
  induction entries generalizing fs fs' with
  | nil => exact h
  | cons e es ih => exact ih (lookup_write_congr h _ _)

end Congr

/-! ## No file is removed -/

theorem mem_write (h : p ∈ fs) (q c : Text) : p ∈ fs.write q c := (AList.mem_insert _).2 (.inr h)

theorem mem_append (h : p ∈ fs) (q c : Text) : p ∈ fs.append q c := mem_write h q _

theorem mem_copy (h : p ∈ fs) (c : Option Text) (q : Text) : p ∈ fs.copy c q := by
  cases c with
  | none => exact h
  | some c => exact mem_write h q c

theorem mem_graft (h : p ∈ fs) (dir : Text) (entries : List (Text × Text)) :
    p ∈ fs.graft dir entries := by
  unfold graft
  induction entries generalizing fs with
  | nil => exact h
  | cons e es ih => exact ih (mem_write h _ _)

end Shell.Files
