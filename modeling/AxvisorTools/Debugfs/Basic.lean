import AxvisorTools.Text.Basic

/-!
# Building a file system by commands

Directory trees, file-system images and the commands `mkdir`, `write` and `symlink` of `debugfs` on
them. A script holds one command a line, with blanks between the arguments and double quotes around
those that may hold blanks. A command fails when the parent of what it makes is not a directory of
the image or when the name is taken; nothing makes parents on the way.
-/

namespace Debugfs

def slash : UInt8 := 47
def quote : UInt8 := 34
def newline : UInt8 := 10
def blank : UInt8 := 32

/-- The bytes of an ASCII text. -/
def ascii (s : String) : Bytes := s.toList.map fun c => UInt8.ofNat c.toNat

/-! ## Trees and images -/

/-- The names from the root to an entry. -/
abbrev Path := List Bytes

inductive Entry
  | dir
  | file (content : Bytes)
  | symlink (target : Bytes)
  deriving DecidableEq, Repr

/-- A finite directory tree: each path has one entry, and its parent is the root or a directory of
the tree. -/
structure Tree where
  entries : List (Path × Entry)
  nodup : (entries.map Prod.fst).Nodup
  below : ∀ e ∈ entries, e.1 ≠ [] ∧ (e.1.dropLast = [] ∨ (e.1.dropLast, .dir) ∈ entries)
  names : ∀ e ∈ entries, ∀ name ∈ e.1, name ≠ [] ∧ slash ∉ name

/-- `a/b/c`. -/
def pathText (p : Path) : Bytes := [slash].intercalate p

/-- What an image holds at each path below its root. -/
abbrev Image := Path → Option Entry

/-- Makes an entry, if its parent is a directory and its name is free. -/
def Image.create (img : Image) (p : Path) (e : Entry) : Option Image :=
  if p ≠ [] ∧ (p.dropLast = [] ∨ img p.dropLast = some .dir) ∧ img p = none then
    some fun q => if q = p then some e else img q
  else none

/-! ## Scripts -/

inductive Mode
  | between
  | bare
  | quoted

/-- The file system that `write` reads from. -/
abbrev Host := Bytes → Option Entry

end Debugfs
