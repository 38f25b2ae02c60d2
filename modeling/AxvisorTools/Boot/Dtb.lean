import AxvisorTools.Py.Str
import AxvisorTools.Text.Lines

/-!
# The device tree of the RISC-V host

`build_boot_dtb` prints the host's device tree as source, adds a node for the memory of the guest by
editing the text, and compiles the result. The two scripts with this function,
`build-riscv-linux-host-rootfs.sh` and `run-riscv-linux-host-qemu.sh`, share the first edit; the
second script can also disable the UART.
-/

namespace Boot

open Py Regex

/-- How the embedded Python ends early. -/
inductive Error
  | valueError
  | exit (message : String)
  deriving DecidableEq, Repr

/-! ## The node for the guest's memory -/

/-- The words between the brackets of `reg`. -/
def regWords (base size : Int) : List Text :=
  ["0x0", '0' :: 'x' :: formatHex 8 base, "0x0", '0' :: 'x' :: formatHex 8 size]

def guestRamMark : Text := "axvisor_guest_ram@"

/-- The lines of `node`. -/
def nodeLines (base size : Int) : List Text :=
  ["\treserved-memory \x7b", "\t\t#address-cells = <0x02>;",
    "\t\t#size-cells = <0x02>;", "\t\tranges;", [],
    "\t\t" ++ guestRamMark ++ formatHex 0 base ++ " \x7b",
    "\t\t\treg = <" ++ [' '].intercalate (regWords base size) ++ ">;",
    "\t\t\tno-map;", "\t\t\x7d;", "\t\x7d;"]

def node (base size : Int) : Text := '\n' :: above (nodeLines base size)

def rootStart : Text := "/ \x7b"

def rootEnd : Text := "\n\x7d;"

/-- The edit that both scripts make. -/
def insertNode (text : Text) (base size : Int) : Except Error Text :=
  match splitFind rootStart text with
  | none => .error (.exit "failed to find root node in host DTB source")
  | some (before, fromRoot) =>
    match splitFind rootEnd fromRoot with
    | none => .error (.exit "failed to find root node terminator in host DTB source")
    | some (root, rest) =>
      if guestRamMark <:+: text then
        .error (.exit "host DTB source already contains axvisor_guest_ram reserved-memory node")
      else .ok (before ++ root ++ node base size ++ rest)

/-! ## The UART -/

/-- `(\n\s*serial@10000000\s*\{\n)(.*?)(\n\s*\};)`, where the dot is any character. -/
def serialPattern : Re :=
  .seq (.group 1 (.seq (lit ['\n']) (.seq (.star true Re.space)
    (.seq (lit "serial@10000000") (.seq (.star true Re.space) (lit ['\x7b', '\n']))))))
  (.seq (.group 2 (.star false (.one fun _ => true)))
    (.group 3 (.seq (lit ['\n']) (.seq (.star true Re.space) (lit ['\x7d', ';'])))))

def disabledText : Text := "status = \"disabled\";"

def addedStatus : Text := "\t\t\tstatus = \"disabled\";\n"

/-- The body of the node, with a status. -/
def disabledBody (body : Text) : Text := if disabledText <:+: body then body else body ++ addedStatus

def disableUart (text : Text) : Except Error Text :=
  match search serialPattern text with
  | none => .error (.exit "failed to disable /soc/serial@10000000 in host DTB source")
  | some (start, e) =>
    .ok (start ++ Re.groupText start e 1 ++ disabledBody (Re.groupText start e 2) ++
      Re.groupText start e 3 ++ e.after)

/-! ## The scripts -/

def intArg (t : Text) : Except Error Int :=
  match intStr 0 t with
  | some n => .ok n
  | none => .error .valueError

/-- The embedded Python of `build_boot_dtb` in `build-riscv-linux-host-rootfs.sh`. -/
def buildBootDtb (text base size : Text) : Except Error Text := do
  let base ← intArg base
  let size ← intArg size
  insertNode text base size

/-- The embedded Python of `build_boot_dtb` in `run-riscv-linux-host-qemu.sh`. -/
def buildBootDtbQemu (text base size disable : Text) : Except Error Text := do
  let base ← intArg base
  let size ← intArg size
  let disable ← intArg disable
  let text ← insertNode text base size
  if disable ≠ 0 then disableUart text else .ok text

end Boot
