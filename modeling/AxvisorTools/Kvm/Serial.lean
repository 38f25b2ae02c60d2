import AxvisorTools.Eval.Import

/-!
# The guest's serial output in a QEMU log

AxVisor logs every byte that a Firecracker guest writes to its serial port as an `IoWrite` record.
`verify-axvisor-kvm-x86-firecracker-run.sh` puts the bytes together again, to search them
(`qemuLogHasFirecrackerGuestSerialText`) and to store them (`decodeFirecrackerGuestSerial`). Its
loops also take the characters of bridge lines, and the second one whole lines with a marker; the
copy in the paper evaluation, `Eval.decodeSerial`, takes the records only.
-/

namespace Kvm

open Regex Py

def charPrefix : Text := "axvisor_kvm_x86_bridge: "

/-- `direct_prefixes`. -/
def directPrefixes : List Text :=
  ["FC_PASS=", "FC_ROOTFS_PASS=", "TINY_PASS=", "TINY_READBACK_",
    "BUSYBOX_READBACK_", "AXVISOR_FIRECRACKER_GUEST_", "smp: Brought up "]

/-- The payload of a bridge line, when it is one character. -/
def bridgeChar (l : Text) : Option Char :=
  match (findFrom charPrefix l).map (·.drop charPrefix.length) with
  | some [c] => some c
  | _ => none

/-- The part of a line from its marker on, for the first prefix in the list that the line has. -/
def directText (l : Text) : Option Text := directPrefixes.findSome? (findFrom · l)

def recordHead : Text := "IoWrite \x7b port: Port(1016), width: Byte, data: "

def recordTail : Text := " \x7d"

/-- `IoWrite { port: Port(1016), width: Byte, data: N }`. -/
def ioRecord (digits : Text) : Text := recordHead ++ (digits ++ recordTail)

/-- One round of the loops: the byte of a record, or what `rest` makes of another line. An oversized
number is an exception. -/
def serialLine (rest : Bytes) (l : Text) : Option Bytes :=
  match search Eval.ioWrite l with
  | some (start, e) => (intOfDigits (Re.groupText start e 1)).map fun n => [UInt8.ofNat n]
  | none => some rest

/-- What the search takes from a line without a record. -/
def bridgeBytes (l : Text) : Bytes :=
  match bridgeChar l with
  | some c => String.utf8EncodeChar c
  | none => []

/-- What the decoder takes from a line without a record; the newline of a marked line stays. -/
def otherBytes (l newline : Text) : Bytes :=
  match bridgeChar l with
  | some c => String.utf8EncodeChar c
  | none =>
    match directText l with
    | some t => encode (t ++ newline)
    | none => []

/-- The bytes that `qemu_log_has_firecracker_guest_serial_text` searches. -/
def guestSerialText (log : Text) : Option Bytes :=
  ((iterLines (universalNewlines log)).mapM fun p => serialLine (bridgeBytes p.1) p.1).map
    List.flatten

/-- `qemu_log_has_firecracker_guest_serial_text`, for a log that exists. -/
def qemuLogHasFirecrackerGuestSerialText (target log : Text) : Bool :=
  grep (lit target) log ||
    match guestSerialText log with
    | some serial => decide (encode target <:+: serial)
    | none => false

/-- `decode_firecracker_guest_serial`: the content of `firecracker-serial-decoded.log`. -/
def decodeFirecrackerGuestSerial (log : Text) : Option Bytes :=
  ((iterLines (universalNewlines log)).mapM fun p => serialLine (otherBytes p.1 p.2) p.1).map
    List.flatten

/-- The characters a byte string is stored as in the text of a file. -/
def byteText (b : Bytes) : Text := b.map fun x => Char.ofNat x.toNat

end Kvm
