import AxvisorTools.Py.Re
import AxvisorTools.Text.Lines

/-!
# Rewriting a key of the `[kernel]` table

`replace_or_insert_kernel_key` of the static-config generator and its copy `replace_kernel_key` in
the x86 smoke script. Both edit the text of a VM config by regular expressions; `editSite` says
on the lines of the text where the edit lands.
-/

namespace Gen.KernelKey

open Regex

/-- What stops the rewriting: `re.error` for a bad replacement template, or `SystemExit`. -/
inductive Error
  | re
  | systemExit (message : String)
  deriving DecidableEq, Repr

/-- `f'{key} = "{value}"'`. -/
def keyLine (key value : Text) : Text := key ++ " = \"" ++ value ++ ['"']

/-- `(?m)^{re.escape(key)} = ".*"$`. -/
def keyPattern (key : Text) : Re :=
  .seq bol (.seq (lit (key ++ " = \"")) (.seq (.star true dot) (.seq (lit ['"']) eol)))

/-- `(?m)^({re.escape(after_key)} = .*)$`. -/
def afterPattern (key : Text) : Re :=
  .seq bol (.seq (.group 1 (.seq (lit (key ++ " = ")) (.star true dot))) eol)

/-- `(?m)^\[kernel\]\s*$`. -/
def kernelSection : Re :=
  .seq bol (.seq (lit "[kernel]") (.seq (.star true Py.Re.space) eol))

/-- The insertion below the header of the table. -/
def insertInSection (message : String) (text line : Text) : Except Error Text :=
  match search kernelSection text with
  | none => .error (.systemExit message)
  | some (_, e) => .ok (e.before.reverse ++ '\n' :: line ++ e.after)

/-- The three branches the two copies share. -/
def rewriteKernelKey (message : String) (text key value : Text) (afterKey : Option Text) :
    Except Error Text :=
  let line := keyLine key value
  match Py.Re.subn1 (keyPattern key) 0 line text with
  | none => .error .re
  | some (some replaced) => .ok replaced
  | some none =>
    match afterKey with
    | none => insertInSection message text line
    | some k =>
      match Py.Re.subn1 (afterPattern k) 1 ("\\1\\n" ++ line) text with
      | none => .error .re
      | some (some inserted) => .ok inserted
      | some none => insertInSection message text line

/-- `replace_or_insert_kernel_key` of gen-axvisor-linux-vm-configs-static.py. -/
def replaceOrInsertKernelKey (text key value : Text) (afterKey : Option Text) : Except Error Text :=
  rewriteKernelKey "VM config does not contain a [kernel] section" text key value afterKey

/-- `replace_kernel_key` of verify-x86-linux-host-linux-smoke.sh: an empty `after_key` counts as
none. -/
def replaceKernelKey (text key value : Text) (afterKey : Option Text) : Except Error Text :=
  rewriteKernelKey "missing [kernel] section" text key value (afterKey.filter (· ≠ []))

/-! ## The edit as a change of lines -/

/-- The line is `key = "…"` to its end. -/
def isKeyLine (key l : Text) : Bool :=
  (key ++ " = \"").isPrefixOf l &&
    (l.drop (key ++ " = \"").length).getLast? == some '"'

def isAfterLine (key l : Text) : Bool := (key ++ " = ").isPrefixOf l

def isWhiteLine (l : Text) : Bool := l.all Py.Re.isWhite

/-- The line is `[kernel]` and blanks. -/
def isSectionLine (l : Text) : Bool :=
  "[kernel]".toList.isPrefixOf l && isWhiteLine (l.drop "[kernel]".toList.length)

/-- An edit of one line. -/
inductive Edit
  | replace (pre : List Text) (old : Text) (post : List Text)
  | insert (pre post : List Text)
  deriving DecidableEq, Repr

def Edit.apply (line : Text) : Edit → List Text
  | .replace pre _ post => pre ++ line :: post
  | .insert pre post => pre ++ line :: post

/-- The insertion below `[kernel]` and the white lines after it. -/
def sectionSite (ls : List Text) : Option Edit :=
  (splitAtFirst isSectionLine ls).map fun (pre, l, post) =>
    .insert (pre ++ l :: post.takeWhile isWhiteLine) (post.dropWhile isWhiteLine)

/-- The line that is exchanged, or the place of the new line. -/
def editSite (key : Text) (afterKey : Option Text) (ls : List Text) : Option Edit :=
  match splitAtFirst (isKeyLine key) ls with
  | some (pre, old, post) => some (.replace pre old post)
  | none =>
    match afterKey.bind fun k => splitAtFirst (isAfterLine k) ls with
    | some (pre, l, post) => some (.insert (pre ++ [l]) post)
    | none => sectionSite ls

end Gen.KernelKey
