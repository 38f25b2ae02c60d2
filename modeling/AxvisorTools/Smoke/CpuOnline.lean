import AxvisorTools.Awk.Basic
import Mathlib.Order.Interval.Finset.Nat

/-!
# The online CPUs of the guest

Both guest inits of `verify-x86-linux-host-linux-smoke.sh`, the one in the rootfs and the one in the
initramfs, read the list of online CPUs the kernel gives in `/sys/devices/system/cpu/online` and count
it by the same awk program. `CpuRange` and `cpuList` are the kernel's side: what the list stands for
and how it is written.
-/

namespace Smoke.CpuOnline

open Awk Regex

variable {Num : Type}

/-! ## The awk program -/

/-- `/^[0-9]+-[0-9]+$/`. -/
def rangePattern : Re := whole (.seq digits (.seq (.one (· == '-')) digits))

/-- `/^[0-9]+$/`. -/
def numberPattern : Re := whole digits

/-- The variables of the program that change from one part to the next. -/
structure State (Num : Type) where
  total : Num
  range : List Text

/-- The body of the loop, for one of the parts. -/
def countPart (awk : Arith Num) (s : State Num) (part : Text) : State Num :=
  if found rangePattern part then
    let range := split '-' part
    let size := awk.add (awk.sub (awk.number (elem range 2)) (awk.number (elem range 1))) (awk.ofNat 1)
    ⟨awk.add s.total size, range⟩
  else if found numberPattern part then { s with total := awk.add s.total (awk.ofNat 1) }
  else s

/-- What the program prints for `list`. -/
def printCount (awk : Arith Num) (list : Text) : Text :=
  awk.text ((split ',' list).foldl (countPart awk) ⟨awk.ofNat 0, []⟩).total

/-- The guest inits of the script. -/
inductive Init
  | rootfs
  | initramfs
  deriving DecidableEq, Repr

/-- `CPU_ONLINE_COUNT`. -/
def Init.cpuOnlineCount (awk : Arith Num) : Init → Text → Text
  | .rootfs => printCount awk
  | .initramfs => printCount awk

/-! ## The kernel's list -/

/-- The CPUs from `first` to `last`, at least one. -/
structure CpuRange where
  first : Nat
  last : Nat
  first_le_last : first ≤ last

/-- The CPUs of a range. -/
def CpuRange.cpus (r : CpuRange) : Finset Nat := Finset.Icc r.first r.last

/-- A range as the kernel writes it. -/
def CpuRange.text (r : CpuRange) : Text :=
  if r.first = r.last then Nat.toDigits 10 r.first
  else Nat.toDigits 10 r.first ++ '-' :: Nat.toDigits 10 r.last

/-- The kernel's list format. -/
def cpuList (ranges : List CpuRange) : Text := [','].intercalate (ranges.map CpuRange.text)

/-- The CPUs of all ranges. -/
def union (ranges : List CpuRange) : Finset Nat := ranges.foldr (fun r cpus => r.cpus ∪ cpus) ∅

end Smoke.CpuOnline
