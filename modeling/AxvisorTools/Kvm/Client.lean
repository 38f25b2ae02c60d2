import AxvisorTools.Checks.Basic
import AxvisorTools.Py.Str

/-!
# Clients of the KVM device

What the C programs `axvisor-kvm-*-smoke.c` share: the replies of the kernel, the two functions they
die by, and the tests they make. `strerror` is the C library's; the programs print its text only.
-/

namespace Kvm

open Checks

/-- What a system call leaves: its result, `errno`, and the numbers that the program then reads from
the argument or from the shared page. -/
structure Reply where
  ret : Int
  errno : Nat
  out : List Nat
  deriving DecidableEq, Repr

/-- The number at a place of the argument. -/
def Reply.field (r : Reply) (i : Nat) : Nat := r.out.getD i 0

def EINTR : Nat := 4
def EBUSY : Nat := 16
def EEXIST : Nat := 17
def EINVAL : Nat := 22
def ENOTTY : Nat := 25
def EOPNOTSUPP : Nat := 95

section

variable (strerror : Nat → Text)

/-- What `die_errno(what)` prints. -/
def dieErrno (what : Text) (errno : Nat) : Text :=
  what ++ ": " ++ strerror errno ++ ['\n']

/-- What `die_msg(what)` prints. -/
def dieMsg (what : Text) : Text := what ++ ['\n']

/-- `if (… < 0) die_errno(what);`. -/
def mustSucceed (what : String) : Check Reply where
  complaint r := if r.ret < 0 then some (dieErrno strerror what.toList r.errno) else none
  line := []

/-- `if (… != value) die_errno(what);`. -/
def mustReturn (value : Int) (what : String) : Check Reply where
  complaint r := if r.ret ≠ value then some (dieErrno strerror what.toList r.errno) else none
  line := []

/-- `if (!test) die_msg(what);`. -/
def mustHold (test : Reply → Bool) (what : String) : Check Reply where
  complaint r := if test r then none else some (dieMsg what.toList)
  line := []

/-- `if (… < 0) die_errno(call);` and then `if (!test) die_msg(what);`. -/
def mustYield (call : String) (test : Reply → Bool) (what : String) : Check Reply where
  complaint r :=
    if r.ret < 0 then some (dieErrno strerror call.toList r.errno)
    else if test r then none else some (dieMsg what.toList)
  line := []

/-- `ret != -1 || errno != expected` is an error. -/
def failsWith (expected : Nat) (r : Reply) : Bool := r.ret = -1 ∧ r.errno = expected

end

/-! ## What is printed -/

/-- `printf("%d")`. -/
def decimal (n : Int) : Text := Py.str n

/-- `printf("LINE\n")`. -/
def printLine (line : String) : Text := line.toList ++ ['\n']

/-- `printf("NAME=%s\n", value)`. -/
def textLine (name value : Text) : Text := name ++ '=' :: (value ++ ['\n'])

/-- `printf("NAME=%d\n", n)`. -/
def intLine (name : String) (n : Int) : Text := textLine name.toList (decimal n)

/-- `printf("NAME=%u\n", n)`. -/
def natLine (name : Text) (n : Nat) : Text := textLine name (Nat.toDigits 10 n)

/-- `line` once the check has passed. -/
def printing (c : Check Reply) (line : String) : Check Reply := { c with line := printLine line }

end Kvm
