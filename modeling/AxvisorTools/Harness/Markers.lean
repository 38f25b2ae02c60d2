import AxvisorTools.Harness.Record

/-!
# Markers in logs and results

The patterns that the harnesses and the importers of the paper evaluation search for. Most are
plain texts (`has`) or whole lines (`hasLine`).
-/

namespace Harness

open Regex

/-- `file_has path marker` for a marker without special characters. -/
def has (content : Option Text) (marker : String) : Bool := fileHas content (lit marker.toList)

/-- `file_has path "^line$"`. -/
def hasLine (content : Option Text) (line : Text) : Bool := fileHas content (whole line)

/-- `NAME=value`, with a number as value. -/
def assign (name : String) (n : Nat) : Text := name.toList ++ '=' :: Nat.toDigits 10 n

def kernelPanic : Re := lit "Kernel panic"
def oops : Re := lit "Oops:"
def kernelBug : Re := lit "BUG:"
def runFail : Re := lit "AXVISOR_X86_NATIVE_RUN_FAIL="

/-- `Kernel panic|Oops:|BUG:|AXVISOR_X86_NATIVE_RUN_FAIL=`. -/
def crashMarkers : Re := alts kernelPanic [oops, kernelBug, runFail]

/-- `Kernel panic|Oops:|BUG:|Call Trace:|AXVISOR_X86_NATIVE_RUN_FAIL=`. -/
def crashMarkersTrace : Re :=
  alts kernelPanic [oops, kernelBug, lit "Call Trace:", runFail]

/-- `vcpus::exit_reason mmio_(read|write)_unhandled`. -/
def mmioUnhandled : Re :=
  .seq (lit "vcpus::exit_reason mmio_")
    (.seq (.alt (lit "read") (lit "write")) (lit "_unhandled"))

/-- `emu_device .* failed`. -/
def emuDeviceFailed : Re :=
  .seq (lit "emu_device ") (.seq gap (lit " failed"))

/-- `Kernel panic|panic:|panicked at|Oops:|BUG:|AXVISOR_X86_NATIVE_RUN_FAIL=|` and the two patterns
above. -/
def crashMarkersFull : Re :=
  alts kernelPanic [lit "panic:", lit "panicked at", oops, kernelBug, runFail,
    mmioUnhandled, emuDeviceFailed]

/-! ## Timer, interrupts and MMIO -/

def digitFrom (lo : Char) : Re := .one fun c => decide (lo ≤ c) && decide (c ≤ '9')

/-- `x86_irq::pit_due .*count=([5-9]|[1-9][0-9])`. -/
def pitDue : Re :=
  .seq (lit "x86_irq::pit_due ") (.seq gap (.seq (lit "count=")
    (.alt (digitFrom '5') (.seq (digitFrom '1') (digitFrom '0')))))

/-- `x86_irq::pit_inject .*vector=0x30`. -/
def pitInject : Re :=
  .seq (lit "x86_irq::pit_inject ") (.seq gap (lit "vector=0x30"))

/-- `x86 passthrough irq poll irq=19 .*pending=1`. -/
def irqPoll : Re :=
  .seq (lit "x86 passthrough irq poll irq=19 ") (.seq gap (lit "pending=1"))

def irqPending : Re := lit "passthrough irq pending vm_id=1 irq_id=19 pending=true"

/-- `x86 INTx state poll-pending .*guest_gsi=19.*interrupt_pending=1`. -/
def intxPending : Re :=
  .seq (lit "x86 INTx state poll-pending ") (.seq gap (.seq (lit "guest_gsi=19")
    (.seq gap (lit "interrupt_pending=1"))))

def irqEoi : Re := lit "x86_irq::eoi vector=0x20 gsi=19"

/-- `virtio_blk virtio0: \[vda\]`. -/
def virtioVda : Re := lit "virtio_blk virtio0: [vda]"

end Harness
