import AxvisorTools.Debugfs.Basic
import Mathlib.Data.List.DropRight

/-!
# Populating the host's root file system without `sudo`

`copy_tree_with_debugfs` of `build-riscv-linux-host-rootfs.sh` lists a staged tree with `find`,
sorts the paths as byte strings and writes a `debugfs` script: first the directories, then the
regular files, then the symbolic links.
-/

namespace HostRootfs

open Debugfs

/-- The order of `sort -z`, byte by byte. -/
def bytesLe : Bytes → Bytes → Bool
  | [], _ => true
  | _ :: _, [] => false
  | a :: as, b :: bs => decide (a < b) || (a == b && bytesLe as bs)

/-- `readlink` in a command substitution. -/
def linkTarget (host : Host) (path : Bytes) : Bytes :=
  match host path with
  | some (.symlink target) => target.rdropWhile (· == newline)
  | _ => []

/-- `mkdir "/%s"`. -/
def mkdirLine (rel : Bytes) : Bytes := ascii "mkdir \"/" ++ rel ++ [quote, newline]

/-- `write "%s/%s" "/%s"`. -/
def writeLine (srcRoot rel : Bytes) : Bytes :=
  ascii "write \"" ++ srcRoot ++ [slash] ++ rel ++ ascii "\" \"/" ++ rel ++ [quote, newline]

/-- `symlink "/%s" "%s"`. -/
def symlinkLine (host : Host) (srcRoot rel : Bytes) : Bytes :=
  ascii "symlink \"/" ++ rel ++ ascii "\" \"" ++ linkTarget host (srcRoot ++ slash :: rel) ++
    [quote, newline]

/-- The path of an entry of the staged tree, as `find` prints it: a slash that ends the root serves. -/
def stagedPath (srcRoot : Bytes) (p : Path) : Bytes :=
  if srcRoot.getLast? = some slash then srcRoot ++ pathText p else srcRoot ++ slash :: pathText p

/-- First arguments that `find` takes for an option or an expression. -/
def isExpression : Bytes → Bool
  | [] => false
  | [c] => [c] == ascii "!" || [c] == ascii "("
  | c :: _ :: _ => [c] == ascii "-"

end HostRootfs
