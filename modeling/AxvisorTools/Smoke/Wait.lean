import AxvisorTools.Poll.Basic
import AxvisorTools.Text.Grep

/-!
# Waiting for the x86 smoke test

`wait_for_result` of `verify-x86-linux-host-linux-smoke.sh` as a polling process. QEMU appends to
its log and may exit between any two checks, so every `grep`, the liveness check and the test of the
clock is a step of its own. `launch_qemu` has set `QEMU_PID`, and each branch that clears it returns.
-/

namespace Smoke

open Regex

/-- `WAIT_FOR_POWEROFF_AFTER_PASS` and `WAIT_FOR_SYSTEM_DOWN_AFTER_PASS`. -/
structure WaitFlags where
  poweroffAfterPass : Text
  systemDownAfterPass : Text

/-- What the checks see: `qemu.log`, whether QEMU runs, and whether the deadline has passed. -/
structure Surroundings where
  log : Text
  alive : Bool
  expired : Bool

def guestPass : Text := "AXVISOR_X86_NATIVE_GUEST_PASS=1"

def powerDown : Text := "reboot: Power down"

def systemDown : Text := "vcpus::exit_reason system_down"

def entryReturned : Text := "kthread main entry returned"

def runFail : Text := "AXVISOR_X86_NATIVE_RUN_FAIL="

/-- The checks of `wait_for_result`, in the order of the script. -/
inductive Check
  | deadline
  | pass
  | powerDown
  | systemDown
  | entryReturned
  | runFail
  | alive
  | exitPass
  | exitPowerDown
  | sleep
  /-- `wait "$QEMU_PID"` after the poweroff marker. -/
  | waitExit
  deriving DecidableEq, Repr

/-- The next check and `saw_pass`. -/
structure Waiting where
  next : Check
  sawPass : Bool
  deriving DecidableEq, Repr

/-- One check; a result is the return status. -/
def waitStep (flags : WaitFlags) (s : Waiting) (e : Surroundings) : Waiting ⊕ Nat :=
  match s.next with
  | .deadline => if e.expired then .inr 1 else .inl { s with next := .pass }
  | .pass =>
    if grep (lit guestPass) e.log then
      if flags.poweroffAfterPass = "1" then .inl ⟨.powerDown, true⟩ else .inr 0
    else .inl { s with next := .powerDown }
  | .powerDown =>
    if s.sawPass && grep (lit powerDown) e.log then .inl { s with next := .waitExit }
    else .inl { s with next := .systemDown }
  | .systemDown =>
    if s.sawPass && flags.systemDownAfterPass = "1" && grep (lit systemDown) e.log then
      .inl { s with next := .entryReturned }
    else .inl { s with next := .runFail }
  | .entryReturned =>
    if grep (lit entryReturned) e.log then .inr 0 else .inl { s with next := .runFail }
  | .runFail => if grep (lit runFail) e.log then .inr 1 else .inl { s with next := .alive }
  | .alive => .inl { s with next := if e.alive then .sleep else .exitPass }
  | .exitPass =>
    if grep (lit guestPass) e.log then
      if flags.poweroffAfterPass = "1" then .inl { s with next := .exitPowerDown }
      else .inr 0
    else .inr 1
  | .exitPowerDown => if grep (lit powerDown) e.log then .inr 0 else .inr 1
  | .sleep => .inl { s with next := .deadline }
  | .waitExit => if e.alive then .inl s else .inr 0

/-- `wait_for_result` returns `status` when its checks see `env`, one after another. -/
def WaitForResult (flags : WaitFlags) (env : Nat → Surroundings) (status : Nat) : Prop :=
  Poll.Returns (waitStep flags) env ⟨.deadline, false⟩ status

/-- The condition the script waits for. -/
def Accepted (flags : WaitFlags) (log : Text) : Prop :=
  guestPass <:+: log ∧ (flags.poweroffAfterPass = "1" → powerDown <:+: log ∨
    (flags.systemDownAfterPass = "1" ∧ systemDown <:+: log ∧ entryReturned <:+: log))

/-- QEMU's part: it appends texts to the log and exits. -/
def after (appends : List Text) (events : Nat) (expired : Bool) : Surroundings where
  log := (appends.take events).flatten
  alive := events ≤ appends.length
  expired := expired

/-- An interleaving of QEMU's events with the checks: how many events each check comes after, and
when the deadline passes. QEMU exits before it does. -/
structure Schedule (appends : List Text) where
  seen : Nat → Nat
  mono : ∀ n, seen n ≤ seen (n + 1)
  exits : ∃ n, appends.length < seen n
  expired : Nat → Bool
  exitsFirst : ∀ n, expired n = true → appends.length < seen n

/-- What the checks see. -/
def Schedule.env {appends : List Text} (s : Schedule appends) (n : Nat) : Surroundings :=
  after appends (s.seen n) (s.expired n)

/-- In this run a test of the clock finds the deadline passed. -/
def Schedule.FindsLate {appends : List Text} (flags : WaitFlags) (s : Schedule appends) : Prop :=
  ∃ n b, Poll.run (waitStep flags) s.env ⟨.deadline, false⟩ n = .inl ⟨.deadline, b⟩ ∧
    s.expired n = true

/-- In this run `kill -0` finds QEMU gone. -/
def Schedule.FindsExit {appends : List Text} (flags : WaitFlags) (s : Schedule appends) : Prop :=
  ∃ n b, Poll.run (waitStep flags) s.env ⟨.deadline, false⟩ n = .inl ⟨.alive, b⟩ ∧
    (s.env n).alive = false

end Smoke
