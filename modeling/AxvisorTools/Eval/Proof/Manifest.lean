import AxvisorTools.Eval.Proof.Matrix
import AxvisorTools.Eval.Proof.Nested
import AxvisorTools.Harness.Proof.Manifest

/-!
# The manifests of all scripts

`manifest_exact_iff`: for each script that writes `SHA256SUMS` and gets to its end, the manifest
describes what is left in `OUT_DIR` if and only if no nested file has its name and nothing was
written after it.
-/

namespace Eval

open Shell Harness

/-- The scripts that write a manifest, with their inputs. -/
inductive Script
  | paperEvaluation (env : Env)
  | memSizes (env : MemSizesEnv)
  | functional (env : FunctionalEnv)
  | smp (env : SmpEnv)
  | smpScale (env : SmpScaleEnv)
  | poweroff (env : PoweroffEnv)
  | archStatic (env : ArchEnv)
  | testMatrix (env : MatrixEnv) (outcomes : MatrixCase → Outcome)

namespace Script

def run (d : Digest) : Script → Sh State Unit
  | .paperEvaluation env => evaluate d env
  | .memSizes env => Harness.memSizes d env
  | .functional env => Harness.functional d env
  | .smp env => Harness.smp d env
  | .smpScale env => Harness.smpScale d env
  | .poweroff env => Harness.poweroff d env
  | .archStatic env => Harness.archStatic d env
  | .testMatrix env outcomes => Harness.testMatrix d env outcomes

/-- An imported directory or an inner run has a file with the name of the manifest. -/
def BringsSums : Script → Prop
  | .paperEvaluation env => ImportsSums env
  | .memSizes env => ∃ c ∈ env.allSizes, c.2.leavesSums = true
  | .functional env => env.run.leavesSums = true
  | .smp env => env.bootRun.leavesSums = true ∨ env.rootfsRun.leavesSums = true
  | .smpScale env => ∃ c ∈ env.cases, c.2.leavesSums = true
  | .poweroff env => env.run.leavesSums = true
  | .archStatic _ => False
  | .testMatrix _ outcomes => ∃ c ∈ matrixCases, (outcomes c).leavesSums = true

/-- What is written after the manifest does not change a digest. -/
def SealedLast (d : Digest) (fs : Files) : Script → Prop
  | .poweroff env => PoweroffCollides d env fs
  | _ => True

/-- **Every manifest is exact unless a nested file has its name**, and for the poweroff harness unless
the digest notices the lines that are appended to `summary.txt` after the manifest. -/
theorem manifest_exact_iff (d : Digest) (script : Script) (fs : Files)
    (h : RunsToEnd (script.run d ⟨fs, .pass⟩)) :
    Exact d (script.run d ⟨fs, .pass⟩).2.out ↔
      (¬NestedSums fs ∧ ¬script.BringsSums) ∧ script.SealedLast d fs := by
  cases script with
  | paperEvaluation env => exact ((seals_evaluate d env).exact_iff h).trans (and_iff_left trivial).symm
  | memSizes env => exact ((seals_memSizes d env).exact_iff h).trans (and_iff_left trivial).symm
  | functional env => exact ((seals_functional d env).exact_iff h).trans (and_iff_left trivial).symm
  | smp env => exact ((seals_smp d env).exact_iff h).trans (and_iff_left trivial).symm
  | smpScale env => exact ((seals_smpScale d env).exact_iff h).trans (and_iff_left trivial).symm
  | poweroff env => exact (poweroff_exact_iff d env fs).2
  | archStatic env => exact ((seals_archStatic d env).exact_iff h).trans (and_iff_left trivial).symm
  | testMatrix env outcomes =>
    exact ((seals_testMatrix d env outcomes).exact_iff h).trans (and_iff_left trivial).symm

theorem paperEvaluation_ends {env : Env} (h : stabilityAborts env.x86NativeStabilityDir = false)
    (d : Digest) (fs : Files) : RunsToEnd ((paperEvaluation env).run d ⟨fs, .pass⟩) :=
  runsToEnd d env fs h

theorem manifest_exact_emptyDir :
    RunsToEnd ((paperEvaluation (plainEnv emptyDir unsetDir)).run zeroDigest ⟨∅, .pass⟩) ∧
    (Exact zeroDigest
        ((paperEvaluation (plainEnv emptyDir unsetDir)).run zeroDigest ⟨∅, .pass⟩).2.out ↔
      (¬NestedSums ∅ ∧ ¬(paperEvaluation (plainEnv emptyDir unsetDir)).BringsSums) ∧
        (paperEvaluation (plainEnv emptyDir unsetDir)).SealedLast zeroDigest ∅) :=
  ⟨paperEvaluation_ends rfl zeroDigest ∅,
    manifest_exact_iff zeroDigest _ ∅ (paperEvaluation_ends rfl zeroDigest ∅)⟩

theorem paperEvaluation_not_exact {env : Env}
    (h : stabilityAborts env.x86NativeStabilityDir = false) (hsums : ImportsSums env) (d : Digest)
    (fs : Files) : RunsToEnd ((paperEvaluation env).run d ⟨fs, .pass⟩) ∧
      ¬Exact d ((paperEvaluation env).run d ⟨fs, .pass⟩).2.out := by
  have hend := paperEvaluation_ends h d fs
  exact ⟨hend, fun hex => (((seals_evaluate d env).exact_iff hend).1 hex).2 hsums⟩

theorem poweroff_not_exact {d : Digest} {env : PoweroffEnv} {fs : Files}
    (h : ¬PoweroffCollides d env fs) : RunsToEnd ((poweroff env).run d ⟨fs, .pass⟩) ∧
      ¬Exact d ((poweroff env).run d ⟨fs, .pass⟩).2.out := by
  obtain ⟨hend, hex⟩ := poweroff_exact_iff d env fs
  exact ⟨hend, fun he => h (hex.1 he).2⟩

/-- Evidence with a manifest. -/
def sumsDir : Evidence := ⟨"/evidence", some ⟨Files.write ∅ sumsPath [], []⟩, by decide⟩

/-- A digest that tells the parity of the length. -/
def parityDigest : Digest where
  digest c := List.replicate 64 (if c.length % 2 = 0 then '0' else '1')
  length _ := rfl
  hex c := by split <;> decide

def failedPoweroff : PoweroffEnv := ⟨[], "/evidence", ⟨1, [], []⟩⟩

theorem not_collides_failedPoweroff : ¬PoweroffCollides parityDigest failedPoweroff ∅ := by
  decide +kernel

/-- The manifest of an evaluation that imports another manifest has no entry for that file, and the
manifest of the poweroff harness has the digest of a text that is no longer there. -/
theorem manifest_not_exact :
    (RunsToEnd ((paperEvaluation (plainEnv sumsDir unsetDir)).run zeroDigest ⟨∅, .pass⟩) ∧
      ¬Exact zeroDigest
        ((paperEvaluation (plainEnv sumsDir unsetDir)).run zeroDigest ⟨∅, .pass⟩).2.out) ∧
    RunsToEnd ((poweroff failedPoweroff).run parityDigest ⟨∅, .pass⟩) ∧
      ¬Exact parityDigest ((poweroff failedPoweroff).run parityDigest ⟨∅, .pass⟩).2.out :=
  ⟨paperEvaluation_not_exact rfl (.inr (.inl (by decide +kernel))) zeroDigest ∅,
    poweroff_not_exact not_collides_failedPoweroff⟩

end Script

end Eval
