import AxvisorTools.Shell.Script
import AxvisorTools.Text.Grep
import Mathlib.Data.List.Dedup

/-!
# Directory trees that a script reads

A `Tree` is given by its regular files and its directories without files, so that every directory
of it is one of these or lies above one of these. The commands that list a tree print one path a
line, and the filters `sort`, `tr` and `wc -l` work on what was printed.
-/

namespace Shell

structure Tree where
  files : Files
  emptyDirs : List Text

/-- The directories a path lies in: one for each slash in it. -/
def parentsFrom (seen : Text) : Text → List Text
  | [] => []
  | c :: t =>
    if c = '/' then seen.reverse :: parentsFrom (c :: seen) t else parentsFrom (c :: seen) t

theorem mem_parentsFrom (seen a b : Text) : seen.reverse ++ a ∈ parentsFrom seen (a ++ '/' :: b) := by
  induction a generalizing seen with
  | nil =>
    rw [List.append_nil]
    exact List.mem_cons_self
  | cons c a ih =>
    have h := ih (c :: seen)
    rw [List.reverse_cons, List.append_assoc] at h
    rw [List.cons_append, parentsFrom]
    split
    · exact List.mem_cons_of_mem _ h
    · exact h

namespace Tree

/-- The directories below the top of the tree. -/
def dirs (t : Tree) : List Text :=
  ((t.files.keys ++ t.emptyDirs.map (· ++ ['/'])).flatMap (parentsFrom [])).dedup

/-- `[[ -d path ]]`. -/
def isDir (t : Tree) (path : Text) : Bool := path ∈ t.dirs

theorem isDir_of_mem_keys {t : Tree} {dir rest : Text} (h : dir ++ '/' :: rest ∈ t.files.keys) :
    t.isDir dir = true := by
  have hdir : dir ∈ parentsFrom [] (dir ++ '/' :: rest) := mem_parentsFrom [] dir rest
  have hmem : dir ∈ t.dirs :=
    List.mem_dedup.2 (List.mem_flatMap.2 ⟨_, List.mem_append_left _ h, hdir⟩)
  exact decide_eq_true hmem

/-- The names of the directories directly in `base` (a path with its slash) that start with
`start`: what `-maxdepth 1 -type d -name 'start*'` matches below `base`. -/
def children (t : Tree) (base start : Text) : List Text :=
  (t.dirs.filter (base <+: ·)).map (·.drop base.length) |>.filter fun n => '/' ∉ n ∧ start <+: n

end Tree

/-- A variable that names a directory, and the tree if it is one. -/
structure Evidence where
  path : Text
  tree : Option Tree
  named : tree.isSome → path ≠ []

theorem Evidence.tree_eq_none (src : Evidence) (h : src.path = []) : src.tree = none :=
  Option.not_isSome_iff_eq_none.1 fun hs => src.named hs h

/-- A variable that names a file, and its content if it is one. -/
structure LogFile where
  path : Text
  content : Option Text
  named : content.isSome → path ≠ []

/-- The order of names in the C locale. -/
def sortNames (names : List Text) : List Text := names.mergeSort fun a b => decide (a ≤ b)

/-- `sort`. -/
def sort (t : Text) : Text := above (sortNames (fileLines t))

/-- `wc -l`. -/
def wcLines (t : Text) : Text := Nat.toDigits 10 (t.count '\n')

/-- The status of a pipeline under `pipefail`: that of the last command that failed. -/
def pipefail (statuses : List Nat) : Nat := (statuses.reverse.find? (· ≠ 0)).getD 0

/-- `grep -R -l` over files and directories of a tree, where a pattern of names that matches none of
them stands for itself and is missing: the status and the files with a match. -/
def grepRecursive (r : Regex.Re) (t : Tree) (args : List Text) : Nat × List Text :=
  let below (p : Text) := args.any fun arg => p = arg ∨ (arg ++ ['/']) <+: p
  let found := (t.files.entries.filter fun f => below f.1 && grep r f.2).map (·.1)
  (if args = [] then 2 else if found = [] then 1 else 0, found)

end Shell
