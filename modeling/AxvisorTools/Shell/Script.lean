import AxvisorTools.Text.Basic
import Mathlib.Data.List.AList
import Mathlib.Data.List.DropRight

/-!
# Shell scripts

A script is a function of its state that ends normally or stops: by `exit`, or because a plain
command failed under `set -e`. The state after it is known in all three situations. `Files` is the
tree a script writes: the regular files below a directory, by their relative path.
-/

namespace Shell

/-- The regular files below a directory: path and content. -/
abbrev Files := AList fun _ : Text => Text

namespace Files

def write (fs : Files) (path content : Text) : Files := fs.insert path content

/-- `>>`. -/
def append (fs : Files) (path content : Text) : Files :=
  fs.write path ((fs.lookup path).getD [] ++ content)

/-- `[[ -f path ]]`, or `[[ -e path ]]` where only regular files are in question. -/
def has (fs : Files) (path : Text) : Bool := (fs.lookup path).isSome

/-- A file of another directory, copied to `path` when it is there. -/
def copy (fs : Files) (content : Option Text) (path : Text) : Files :=
  match content with
  | some c => fs.write path c
  | none => fs

/-- All files of a tree, put below `dir`. -/
def graft (fs : Files) (dir : Text) (entries : List (Text × Text)) : Files :=
  entries.foldl (fun fs e => fs.write (dir ++ e.1) e.2) fs

end Files

/-- How a script stops before its last command. -/
inductive Stop
  | exit (status : Nat)
  | errexit (status : Nat)
  deriving DecidableEq, Repr

/-- A script over states `σ` with result `α`. -/
def Sh (σ α : Type) : Type := σ → Except Stop α × σ

namespace Sh

variable {σ α β : Type}

instance : Monad (Sh σ) where
  pure a := fun s => (.ok a, s)
  bind m f := fun s =>
    match m s with
    | (.ok a, s) => f a s
    | (.error e, s) => (.error e, s)

def get : Sh σ σ := fun s => (.ok s, s)

def modify (f : σ → σ) : Sh σ Unit := fun s => (.ok (), f s)

/-- `exit status`. -/
def exit (status : Nat) : Sh σ α := fun s => (.error (.exit status), s)

/-- A plain command that ended with `status`, under `set -e`. -/
def plain (status : Nat) : Sh σ Unit := fun s =>
  if status = 0 then (.ok (), s) else (.error (.errexit status), s)

/-- `if cond; then …; fi`. -/
def when (b : Bool) (m : Sh σ Unit) : Sh σ Unit := if b then m else pure ()

/-- `for x in …`. -/
def each (f : α → Sh σ Unit) : List α → Sh σ Unit
  | [] => pure ()
  | x :: xs => do
    f x
    each f xs

end Sh

/-- `$(…)`: the output without its trailing newlines. -/
def substitute (output : Text) : Text := output.rdropWhile (· == '\n')

/-- `echo line`. -/
def echo (line : Text) : Text := line ++ ['\n']

/-- `echo line` for each line. -/
def echoes (lines : List Text) : Text := lines.flatMap echo

/-- A here-document. -/
def hereDoc (lines : List String) : Text := echoes (lines.map String.toList)

/-- `tr from to`. -/
def tr (c d : Char) (t : Text) : Text := t.map fun x => if x = c then d else x

/-- `basename path`. -/
def basename (path : Text) : Text := (path.splitOn '/').getLast?.getD []

end Shell
