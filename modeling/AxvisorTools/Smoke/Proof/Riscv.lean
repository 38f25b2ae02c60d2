import AxvisorTools.Smoke.Riscv
import AxvisorTools.Text.Proof.Grep
import Mathlib.Order.Monotone.Basic

/-!
# The RISC-V verdict depends on the poll

The verifier looks at the file as the kill finds it, and nothing makes the kill wait for the guest:
`earlyKill` finds the file right after the guest has created it, and by `polling_passes_iff` no report
makes all interleavings pass.
-/

namespace Smoke.Riscv

open Poll Regex

/-! ## The image -/

theorem after_one (r : Report) (start : World) : (r.after start 1).result = some [] := rfl

theorem foldl_write_result (ws : List Text) : ∀ {w : World} {t : Text}, w.result = some t →
    ((ws.map GuestStep.write).foldl GuestStep.apply w).result = some (t ++ ws.flatten) := by
  induction ws with
  | nil =>
    intro w t h
    simpa using h
  | cons u ws ih =>
    intro w t h
    have hwrite : ((GuestStep.write u).apply w).result = some (t ++ u) := by
      simp [GuestStep.apply, h]
    rw [List.map_cons, List.foldl_cons, ih hwrite]
    simp

theorem poweroff_result (w : World) :
    ([.sync, .poweroff].foldl GuestStep.apply w).result = w.result := rfl

theorem after_length (r : Report) (start : World) :
    (r.after start r.steps.length).result = some r.writes.flatten := by
  have hcreated : (GuestStep.truncate.apply start).result = some [] := rfl
  rw [Report.after, List.take_length, Report.steps, List.foldl_append, poweroff_result,
    List.foldl_cons, foldl_write_result r.writes hcreated, List.nil_append]

/-! ## The two checks -/

theorem resultOk_nil : resultOk [] = false := by
  have h : grep (whole "AXVISOR_SMOKE_PASS=1") [] = false := by
    rw [Bool.eq_false_iff]
    intro hgrep
    have hmem := (grep_whole_iff (by decide) []).1 hgrep
    exact absurd (List.mem_singleton.1 hmem) (by decide)
  rw [resultOk, h, Bool.false_and]

/-- The file passes both checks. -/
def Passes (w : World) : Prop := ∃ t, w.result = some t ∧ resultOk t = true

theorem resultOk_of_lines {t : Text} (hpass : "AXVISOR_SMOKE_PASS=1".toList ∈ lines t)
    (hvda : "HAS_DEV_VDA=1".toList ∈ lines t ∨ "HAS_SYS_BLOCK_VDA=1".toList ∈ lines t) :
    resultOk t = true := by
  rw [resultOk, Bool.and_eq_true, grep_alt, Bool.or_eq_true, grep_whole_iff (by decide),
    grep_whole_iff (by decide), grep_whole_iff (by decide)]
  exact ⟨hpass, hvda⟩

theorem mem_lines_flatten {ws : List Text} (pre : List Text) (a : Text) {n : Text}
    (post : List Text) (hws : ws = pre ++ (a ++ ['\n']) :: (n ++ ['\n']) :: post)
    (hn : '\n' ∉ n) : n ∈ lines ws.flatten := by
  have hflat : ws.flatten = pre.flatten ++ a ++ '\n' :: (n ++ '\n' :: post.flatten) := by
    rw [hws]
    simp
  rw [hflat, lines_append, lines_append_newline hn]
  exact List.mem_append_right _ List.mem_cons_self

/-- A guest that sees the disk leaves a file that passes. -/
theorem passes_of_disk (r : Report) (start : World)
    (h : r.hasDevVda = true ∨ r.hasSysBlockVda = true) :
    Passes (r.after start r.steps.length) := by
  refine ⟨_, after_length r start, resultOk_of_lines ?_ ?_⟩
  · have hfirst : echoAssign "AXVISOR_SMOKE_PASS" "1" = "AXVISOR_SMOKE_PASS=1".toList ++ ['\n'] := by
      decide
    rw [Report.writes, hfirst, List.flatten_cons, List.append_assoc, List.singleton_append,
      lines_append_newline (by decide)]
    exact List.mem_cons_self
  · rcases h with h | h
    · have hvda : echoFlag "HAS_DEV_VDA" r.hasDevVda = "HAS_DEV_VDA=1".toList ++ ['\n'] := by
        rw [h]
        decide
      refine .inl (mem_lines_flatten (r.writes.take 3) ("CMDLINE".toList ++ '=' :: r.cmdline)
        (r.writes.drop 5) ?_ (by decide))
      rw [Report.writes, hvda]
      rfl
    · have hvda : echoFlag "HAS_SYS_BLOCK_VDA" r.hasSysBlockVda =
          "HAS_SYS_BLOCK_VDA=1".toList ++ ['\n'] := by
        rw [h]
        decide
      refine .inr (mem_lines_flatten (r.writes.take 4)
        ("HAS_DEV_VDA".toList ++ '=' :: (if r.hasDevVda then "1".toList else "0".toList))
        (r.writes.drop 6) ?_ (by decide))
      rw [Report.writes, hvda]
      rfl

/-! ## The verifier -/

variable {tool : TextSearch} {r : Report} {start : World}

/-- The verifier's first three steps come right after the guest has created the file. -/
def earlyKill (r : Report) : Schedule r where
  seen n := if n < 3 then 1 else r.steps.length
  mono n := by
    have hlen : 0 < r.steps.length := Nat.succ_pos _
    split <;> split <;> omega
  ends := ⟨3, by simp⟩

theorem earlyKill_exits (tool : TextSearch) (r : Report) (start : World) :
    Exits tool r start (earlyKill r) 1 := by
  refine ⟨2, .kill, rfl, ?_⟩
  have hfile : (r.after start ((earlyKill r).seen 2)).result = some [] := after_one r start
  simp only [verifyStep, hfile, dumpStatus, resultOk_nil, Bool.false_eq_true, if_false]

/-- **The interleavings never all pass**: when the steps leave a file that passes both checks, the
verifier that polls between the file's creation and its first line still rejects it. -/
theorem polling_passes_iff :
    (Passes (r.after start r.steps.length) → ∀ s : Schedule r, Exits tool r start s 0) ↔
      ¬ Passes (r.after start r.steps.length) := by
  constructor
  · intro hall hfinal
    have hone : (1 : Nat) = 0 := (earlyKill_exits tool r start).unique (hall hfinal (earlyKill r))
    cases hone
  · intro hnot hfinal
    exact absurd hfinal hnot

/-- A guest with a disk, on a host that has written nothing yet. -/
def diskReport : Report where
  dateLine := "2026-01-01"
  unameLine := "Linux"
  cmdline := "root=/dev/vda"
  hasDevVda := true
  hasSysBlockVda := true
  hasProcMounts := true
  rootMountDev := "/dev/vda"
  rootMountFs := "ext4"
  smokeWriteTest := true
  procMounts := "/dev/vda / ext4 rw 0 0\n"

theorem diskReport_rejected :
    Passes (diskReport.after ⟨none, some [], some []⟩ diskReport.steps.length) ∧
      Exits .grep diskReport ⟨none, some [], some []⟩ (earlyKill diskReport) 1 :=
  ⟨passes_of_disk diskReport _ (.inl rfl), earlyKill_exits .grep diskReport _⟩

end Smoke.Riscv
