import AxvisorTools.Harness.Markers
import AxvisorTools.Poll.Basic

/-!
# Polling the image of the RISC-V smoke test

The guest of `verify-riscv-linux-host-linux-smoke.sh` runs `axvisor-guest-linux-smoke-init.sh`, which
writes a result file into its disk image and powers off. The verifier polls the image for the file,
then the log for the shutdown, kills QEMU at the first of the two and checks the file as it is then.
-/

namespace Smoke.Riscv

open Regex

/-! ## The guest -/

/-- What the guest's init puts into the result file. -/
structure Report where
  dateLine : Text
  unameLine : Text
  cmdline : Text
  hasDevVda : Bool
  hasSysBlockVda : Bool
  hasProcMounts : Bool
  rootMountDev : Text
  rootMountFs : Text
  smokeWriteTest : Bool
  procMounts : Text

/-- `echo "NAME=$value"`. -/
def echoAssign (name : String) (value : Text) : Text := name.toList ++ '=' :: value ++ ['\n']

/-- `NAME=1` or `NAME=0`. -/
def echoFlag (name : String) (value : Bool) : Text :=
  echoAssign name (if value then "1" else "0")

/-- The writes of the block that fills the result file, one command each. -/
def Report.writes (r : Report) : List Text :=
  [echoAssign "AXVISOR_SMOKE_PASS" "1", echoAssign "DATE" r.dateLine,
    echoAssign "UNAME" r.unameLine, echoAssign "CMDLINE" r.cmdline,
    echoFlag "HAS_DEV_VDA" r.hasDevVda, echoFlag "HAS_SYS_BLOCK_VDA" r.hasSysBlockVda,
    echoFlag "HAS_PROC_MOUNTS" r.hasProcMounts, echoAssign "ROOT_MOUNT_DEV" r.rootMountDev,
    echoAssign "ROOT_MOUNT_FS" r.rootMountFs, echoFlag "SMOKE_WRITE_TEST" r.smokeWriteTest,
    "PROC_MOUNTS_BEGIN\n", r.procMounts, "PROC_MOUNTS_END\n"]

/-- What the verifier looks at: the result file in the image, if its inode exists, and the two
runtime logs. -/
structure World where
  result : Option Text
  qemuLog : Option Text
  hostHvcLog : Option Text

inductive GuestStep
  /-- The redirection opens and truncates the file. -/
  | truncate
  | write (t : Text)
  | sync
  /-- The host's kernel logs the guest's shutdown on its console. -/
  | poweroff

def systemDown : Text := "vcpus::exit_reason system_down"

def GuestStep.apply (w : World) : GuestStep → World
  | .truncate => { w with result := some [] }
  | .write t => { w with result := w.result.map (· ++ t) }
  | .sync => w
  | .poweroff => { w with hostHvcLog := some (w.hostHvcLog.getD [] ++ systemDown ++ ['\n']) }

/-- The guest's steps, from opening the file on. -/
def Report.steps (r : Report) : List GuestStep :=
  .truncate :: r.writes.map .write ++ [.sync, .poweroff]

/-- The world after the first `k` steps. -/
def Report.after (r : Report) (start : World) (k : Nat) : World :=
  (r.steps.take k).foldl GuestStep.apply start

/-! ## The verifier -/

/-- `TEXT_SEARCH_CMD`. -/
inductive TextSearch
  | rg
  | grep
  deriving DecidableEq, Repr

/-- Lower case; the long s folds to an `s`. -/
def foldCase (c : Char) : Char := if c = 'ſ' then 's' else c.toLower

/-- A search for the shutdown line: `rg -S` ignores the case of a pattern without capital letters. -/
def hasSystemDown (tool : TextSearch) (log : Text) : Bool :=
  match tool with
  | .rg => grep (lit systemDown) (log.map foldCase)
  | .grep => grep (lit systemDown) log

/-- `runtime_log_has`: the search fails when one of the logs cannot be read. -/
def runtimeLogHas (tool : TextSearch) (w : World) : Bool :=
  match w.qemuLog, w.hostHvcLog with
  | some q, some h => hasSystemDown tool q || hasSystemDown tool h
  | _, _ => false

/-- The two checks of the dumped file. -/
def resultOk (result : Text) : Bool :=
  grep (whole "AXVISOR_SMOKE_PASS=1") result &&
    grep (.alt (whole "HAS_DEV_VDA=1") (whole "HAS_SYS_BLOCK_VDA=1")) result

/-- The exit status after the dump. -/
def dumpStatus (result : Option Text) : Nat :=
  match result with
  | some t => if resultOk t then 0 else 1
  | none => 1

/-- What a step of the verifier finds. -/
structure Surroundings where
  world : World
  expired : Bool

/-- The steps of the verifier: the two tests of a poll, and the kill with the dump after it. -/
inductive Check
  | deadline
  | guestResultExists
  | guestShutdown
  | sleep
  | kill
  deriving DecidableEq, Repr

def verifyStep (tool : TextSearch) (c : Check) (e : Surroundings) : Check ⊕ Nat :=
  match c with
  | .deadline => if e.expired then .inr 1 else .inl .guestResultExists
  | .guestResultExists => if e.world.result.isSome then .inl .kill else .inl .guestShutdown
  | .guestShutdown => if runtimeLogHas tool e.world then .inl .kill else .inl .sleep
  | .sleep => .inl .deadline
  | .kill => .inr (dumpStatus e.world.result)

/-- An interleaving: how many of the guest's steps each step of the verifier comes after. -/
structure Schedule (r : Report) where
  seen : Nat → Nat
  mono : ∀ n, seen n ≤ seen (n + 1)
  ends : ∃ n, r.steps.length ≤ seen n

/-- The verifier exits with `status` in the interleaving, before its deadline. -/
def Exits (tool : TextSearch) (r : Report) (start : World) (s : Schedule r) (status : Nat) : Prop :=
  Poll.Returns (verifyStep tool) (fun n => ⟨r.after start (s.seen n), false⟩) .deadline status

end Smoke.Riscv
