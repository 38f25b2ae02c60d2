import AxvisorTools.Smoke.Wait
import AxvisorTools.Text.Proof.Grep
import Mathlib.Order.Monotone.Basic

/-!
# What waiting for the x86 smoke test guarantees

`waitForResult_accepted`: in every interleaving a return of 0 means that the log is accepted.
The converse fails: `schedules_pass_iff` says which interleavings of an accepted log pass. It is never
all of them, since the deadline can pass during the last sleep; `in_time_pass_iff` is about the others.
-/

namespace Smoke

open Regex Poll

variable {flags : WaitFlags} {s : Waiting} {e : Surroundings} {n : Nat}

theorem grep_guestPass (log : Text) : grep (lit guestPass) log = true ↔ guestPass <:+: log :=
  grep_lit_iff (by decide) (by decide) log

theorem grep_powerDown (log : Text) : grep (lit powerDown) log = true ↔ powerDown <:+: log :=
  grep_lit_iff (by decide) (by decide) log

theorem grep_systemDown (log : Text) : grep (lit systemDown) log = true ↔ systemDown <:+: log :=
  grep_lit_iff (by decide) (by decide) log

theorem grep_entryReturned (log : Text) :
    grep (lit entryReturned) log = true ↔ entryReturned <:+: log :=
  grep_lit_iff (by decide) (by decide) log

theorem grep_runFail (log : Text) : grep (lit runFail) log = true ↔ runFail <:+: log :=
  grep_lit_iff (by decide) (by decide) log

/-! ## One check -/

/-- What a check can do, with what it has seen. -/
inductive WaitMove (flags : WaitFlags) (e : Surroundings) : Waiting → Waiting ⊕ Nat → Prop
  | late (b : Bool) (h : e.expired = true) : WaitMove flags e ⟨.deadline, b⟩ (.inr 1)
  | round (b : Bool) : WaitMove flags e ⟨.deadline, b⟩ (.inl ⟨.pass, b⟩)
  | sawPass (b : Bool) (hp : guestPass <:+: e.log) :
      WaitMove flags e ⟨.pass, b⟩ (.inl ⟨.powerDown, true⟩)
  | passed (b : Bool) (hp : guestPass <:+: e.log) (hf : flags.poweroffAfterPass ≠ "1") :
      WaitMove flags e ⟨.pass, b⟩ (.inr 0)
  | noPass (b : Bool) : WaitMove flags e ⟨.pass, b⟩ (.inl ⟨.powerDown, b⟩)
  | sawPowerDown (hd : powerDown <:+: e.log) :
      WaitMove flags e ⟨.powerDown, true⟩ (.inl ⟨.waitExit, true⟩)
  | noPowerDown (b : Bool) : WaitMove flags e ⟨.powerDown, b⟩ (.inl ⟨.systemDown, b⟩)
  | sawSystemDown (hf : flags.systemDownAfterPass = "1") (hd : systemDown <:+: e.log) :
      WaitMove flags e ⟨.systemDown, true⟩ (.inl ⟨.entryReturned, true⟩)
  | noSystemDown (b : Bool) : WaitMove flags e ⟨.systemDown, b⟩ (.inl ⟨.runFail, b⟩)
  | returned (b : Bool) (hr : entryReturned <:+: e.log) :
      WaitMove flags e ⟨.entryReturned, b⟩ (.inr 0)
  | notReturned (b : Bool) : WaitMove flags e ⟨.entryReturned, b⟩ (.inl ⟨.runFail, b⟩)
  | failed (b : Bool) (hr : runFail <:+: e.log) : WaitMove flags e ⟨.runFail, b⟩ (.inr 1)
  | notFailed (b : Bool) : WaitMove flags e ⟨.runFail, b⟩ (.inl ⟨.alive, b⟩)
  | running (b : Bool) (ha : e.alive = true) : WaitMove flags e ⟨.alive, b⟩ (.inl ⟨.sleep, b⟩)
  | exited (b : Bool) (ha : e.alive = false) : WaitMove flags e ⟨.alive, b⟩ (.inl ⟨.exitPass, b⟩)
  | exitSawPass (b : Bool) (hp : guestPass <:+: e.log)
      (hf : flags.poweroffAfterPass = "1") :
      WaitMove flags e ⟨.exitPass, b⟩ (.inl ⟨.exitPowerDown, b⟩)
  | exitPassed (b : Bool) (hp : guestPass <:+: e.log)
      (hf : flags.poweroffAfterPass ≠ "1") : WaitMove flags e ⟨.exitPass, b⟩ (.inr 0)
  | exitNoPass (b : Bool) (hp : ¬ guestPass <:+: e.log) : WaitMove flags e ⟨.exitPass, b⟩ (.inr 1)
  | exitPowerDown (b : Bool) (hd : powerDown <:+: e.log) :
      WaitMove flags e ⟨.exitPowerDown, b⟩ (.inr 0)
  | exitNoPowerDown (b : Bool) (hd : ¬ powerDown <:+: e.log) :
      WaitMove flags e ⟨.exitPowerDown, b⟩ (.inr 1)
  | slept (b : Bool) : WaitMove flags e ⟨.sleep, b⟩ (.inl ⟨.deadline, b⟩)
  | stillRunning (b : Bool) (ha : e.alive = true) :
      WaitMove flags e ⟨.waitExit, b⟩ (.inl ⟨.waitExit, b⟩)
  | exitedAfter (b : Bool) : WaitMove flags e ⟨.waitExit, b⟩ (.inr 0)

theorem waitMove (flags : WaitFlags) (s : Waiting) (e : Surroundings) :
    WaitMove flags e s (waitStep flags s e) := by
  obtain ⟨next, b⟩ := s
  cases next with
  | deadline =>
    cases he : e.expired with
    | true => simpa [waitStep, he] using WaitMove.late b he
    | false => simpa [waitStep, he] using WaitMove.round b
  | pass =>
    simp only [waitStep, grep_guestPass]
    split
    · split
      · exact .sawPass b ‹_›
      · exact .passed b ‹_› ‹_›
    · exact .noPass b
  | powerDown =>
    simp only [waitStep, Bool.and_eq_true, grep_powerDown]
    split
    · rename_i h
      obtain ⟨rfl, hd⟩ := h
      exact .sawPowerDown hd
    · exact .noPowerDown b
  | systemDown =>
    simp only [waitStep, Bool.and_eq_true, decide_eq_true_eq, grep_systemDown]
    split
    · rename_i h
      obtain ⟨⟨rfl, hf⟩, hd⟩ := h
      exact .sawSystemDown hf hd
    · exact .noSystemDown b
  | entryReturned =>
    simp only [waitStep, grep_entryReturned]
    split
    · exact .returned b ‹_›
    · exact .notReturned b
  | runFail =>
    simp only [waitStep, grep_runFail]
    split
    · exact .failed b ‹_›
    · exact .notFailed b
  | alive =>
    cases he : e.alive with
    | true => simpa [waitStep, he] using WaitMove.running b he
    | false => simpa [waitStep, he] using WaitMove.exited b he
  | exitPass =>
    simp only [waitStep, grep_guestPass]
    split
    · split
      · exact .exitSawPass b ‹_› ‹_›
      · exact .exitPassed b ‹_› ‹_›
    · exact .exitNoPass b ‹_›
  | exitPowerDown =>
    simp only [waitStep, grep_powerDown]
    split
    · exact .exitPowerDown b ‹_›
    · exact .exitNoPowerDown b ‹_›
  | sleep => exact .slept b
  | waitExit =>
    cases he : e.alive with
    | true => simpa [waitStep, he] using WaitMove.stillRunning b he
    | false => simpa [waitStep, he] using WaitMove.exitedAfter b

theorem waitMove_of {o : Waiting ⊕ Nat} (h : waitStep flags s e = o) : WaitMove flags e s o :=
  h ▸ waitMove flags s e

/-! ## No pass without the markers -/

/-- What the loop knows of the log at each check. -/
structure Knows (flags : WaitFlags) (log : Text) (s : Waiting) : Prop where
  pass : s.sawPass = true → guestPass <:+: log
  waitExit : s.next = .waitExit → guestPass <:+: log ∧ powerDown <:+: log
  entryReturned : s.next = .entryReturned →
    guestPass <:+: log ∧ flags.systemDownAfterPass = "1" ∧ systemDown <:+: log
  exitPowerDown : s.next = .exitPowerDown → guestPass <:+: log

/-- At most checks nothing is known but what `saw_pass` tells. -/
theorem Knows.of_next {log : Text} (hpass : s.sawPass = true → guestPass <:+: log)
    (h₁ : s.next ≠ .waitExit) (h₂ : s.next ≠ .entryReturned) (h₃ : s.next ≠ .exitPowerDown) :
    Knows flags log s :=
  ⟨hpass, fun h => absurd h h₁, fun h => absurd h h₂, fun h => absurd h h₃⟩

theorem Knows.mono {log log' : Text} (h : Knows flags log s) (hlog : log <:+: log') :
    Knows flags log' s where
  pass hs := (h.pass hs).trans hlog
  waitExit hs := ⟨(h.waitExit hs).1.trans hlog, (h.waitExit hs).2.trans hlog⟩
  entryReturned hs :=
    ⟨(h.entryReturned hs).1.trans hlog, (h.entryReturned hs).2.1, (h.entryReturned hs).2.2.trans hlog⟩
  exitPowerDown hs := (h.exitPowerDown hs).trans hlog

theorem Knows.step {s' : Waiting} (h : Knows flags e.log s) (hs : waitStep flags s e = .inl s') :
    Knows flags e.log s' := by
  have hpass := h.pass
  cases waitMove_of hs with
  | sawPass _ hp => exact .of_next (fun _ => hp) nofun nofun nofun
  | sawPowerDown hd => exact ⟨hpass, fun _ => ⟨hpass rfl, hd⟩, nofun, nofun⟩
  | sawSystemDown hf hd => exact ⟨hpass, nofun, fun _ => ⟨hpass rfl, hf, hd⟩, nofun⟩
  | exitSawPass _ hp _ => exact ⟨hpass, nofun, nofun, fun _ => hp⟩
  | stillRunning => exact h
  | _ => exact .of_next hpass nofun nofun nofun

/-- A check that returns 0 has seen an accepted log. -/
theorem Knows.accepted (h : Knows flags e.log s) (hs : waitStep flags s e = .inr 0) :
    Accepted flags e.log := by
  cases waitMove_of hs with
  | passed _ hp hf => exact ⟨hp, fun h => absurd h hf⟩
  | returned _ hr =>
    obtain ⟨hp, hf, hd⟩ := h.entryReturned rfl
    exact ⟨hp, fun _ => .inr ⟨hf, hd, hr⟩⟩
  | exitPassed _ hp hf => exact ⟨hp, fun h => absurd h hf⟩
  | exitPowerDown _ hd => exact ⟨h.exitPowerDown rfl, fun _ => .inl hd⟩
  | exitedAfter =>
    obtain ⟨hp, hd⟩ := h.waitExit rfl
    exact ⟨hp, fun _ => .inl hd⟩

/-- **A return of 0 means that the log is accepted**, whatever is appended between the checks and
whenever QEMU exits. -/
theorem waitForResult_accepted {flags : WaitFlags} {env : Nat → Surroundings}
    (hgrows : ∀ n, (env n).log <+: (env (n + 1)).log) {n : Nat}
    (h : ReturnsAt (waitStep flags) env ⟨.deadline, false⟩ n 0) : Accepted flags (env n).log := by
  obtain ⟨s, hs, hr⟩ := h
  have hstart : Knows flags (env 0).log ⟨.deadline, false⟩ := .of_next nofun nofun nofun nofun
  have hknows : Knows flags (env n).log s :=
    run_inv (fun e s => Knows flags e.log s) hstart Knows.step
      (fun {n _} hk => hk.mono (hgrows n).isInfix) hs
  exact hknows.accepted hr

theorem take_flatten_isPrefix (appends : List Text) {m : Nat} (h : m ≤ n) :
    (appends.take m).flatten <+: (appends.take n).flatten := by
  obtain ⟨t, ht⟩ := List.take_prefix_take_left h
  rw [← ht, List.flatten_append]
  exact List.prefix_append _ _

/-- The lines of a system that went down without a guest poweroff. -/
def systemDownAppends : List Text :=
  [guestPass ++ ['\n'], systemDown ++ ['\n'], entryReturned ++ ['\n']]

/-- One of these lines comes between any two checks, the last before the one that needs it. -/
def growingEnv (n : Nat) : Surroundings := after systemDownAppends n false

theorem waitForResult_accepted_growing :
    ReturnsAt (waitStep ⟨"1", "1"⟩) growingEnv ⟨.deadline, false⟩ 4 0 ∧
      Accepted ⟨"1", "1"⟩ (growingEnv 4).log := by
  have hreturns : ReturnsAt (waitStep ⟨"1", "1"⟩) growingEnv ⟨.deadline, false⟩ 4 0 :=
    ⟨⟨.entryReturned, true⟩, by decide +kernel, by decide +kernel⟩
  exact ⟨hreturns, waitForResult_accepted
    (fun n => take_flatten_isPrefix systemDownAppends (Nat.le_succ n)) hreturns⟩

/-! ## When every interleaving passes -/

theorem after_log_isPrefix (appends : List Text) (k : Nat) (expired : Bool) :
    (after appends k expired).log <+: appends.flatten := by
  have h := take_flatten_isPrefix appends (Nat.le_max_left k appends.length)
  rwa [List.take_of_length_le (Nat.le_max_right _ _)] at h

theorem after_log_of_exit {appends : List Text} {k : Nat} (h : appends.length < k)
    (expired : Bool) : after appends k expired = ⟨appends.flatten, false, expired⟩ := by
  rw [after, List.take_of_length_le h.le, decide_eq_false (by omega)]

/-- How many checks are left in the round that sees QEMU gone. -/
def Check.rank : Check → Nat
  | .sleep => 10
  | .deadline => 9
  | .pass => 8
  | .powerDown => 7
  | .systemDown => 6
  | .entryReturned => 5
  | .runFail => 4
  | .alive => 3
  | .exitPass => 2
  | .exitPowerDown => 1
  | .waitExit => 0

theorem rank_lt_of_exit {s' : Waiting} (he : e.alive = false) (h : waitStep flags s e = .inl s') :
    s'.next.rank < s.next.rank := by
  cases waitMove_of h with
  | running _ ha => simp [he] at ha
  | stillRunning _ ha => simp [he] at ha
  | _ => simp [Check.rank]

/-- What the exit branch relies on: QEMU is gone, and its second check needs the flag. -/
structure SawExit (flags : WaitFlags) (e : Surroundings) (s : Waiting) : Prop where
  exited : s.next = .exitPass ∨ s.next = .exitPowerDown → e.alive = false
  flag : s.next = .exitPowerDown → flags.poweroffAfterPass = "1"

theorem SawExit.step {s' : Waiting} (h : SawExit flags e s) (hs : waitStep flags s e = .inl s') :
    SawExit flags e s' := by
  cases waitMove_of hs with
  | exited _ ha => exact ⟨fun _ => ha, nofun⟩
  | exitSawPass _ _ hf => exact ⟨fun _ => h.exited (.inl rfl), fun _ => hf⟩
  | stillRunning => exact h
  | _ => exact ⟨by simp, by simp⟩

section

variable {flags : WaitFlags} {appends : List Text}

/-- Once a check finds QEMU gone, all later ones do, and the log is complete. -/
theorem Schedule.env_of_exit (s : Schedule appends) (h : (s.env n).alive = false) :
    s.env n = ⟨appends.flatten, false, s.expired n⟩ :=
  after_log_of_exit (Nat.lt_of_not_le (of_decide_eq_false h)) _

theorem Schedule.exit_mono (s : Schedule appends) {m : Nat} (hmn : m ≤ n)
    (h : (s.env m).alive = false) : (s.env n).alive = false := by
  have hlt := Nat.lt_of_not_le (of_decide_eq_false h)
  exact decide_eq_false (by have := monotone_nat_of_le_succ s.mono hmn; omega)

theorem Schedule.exists_returns (s : Schedule appends) :
    ∃ r, Returns (waitStep flags) s.env ⟨.deadline, false⟩ r := by
  obtain ⟨N, hN⟩ := s.exits
  have hexit : (s.env N).alive = false := decide_eq_false (by omega)
  exact Poll.exists_returns (fun w => w.next.rank) N fun hn h =>
    rank_lt_of_exit (s.exit_mono hn hexit) h

theorem Schedule.findsExit_of_run (s : Schedule appends) : ∀ {n : Nat} {w : Waiting},
    run (waitStep flags) s.env ⟨.deadline, false⟩ n = .inl w →
    w.next = .exitPass ∨ w.next = .exitPowerDown → s.FindsExit flags := by
  intro n
  induction n with
  | zero =>
    intro w hw hnext
    cases hw
    simp at hnext
  | succ n ih =>
    intro w hw hnext
    cases hr : run (waitStep flags) s.env ⟨.deadline, false⟩ n with
    | inr r =>
      rw [Poll.run, hr] at hw
      cases hw
    | inl t =>
      rw [run_succ hr] at hw
      cases waitMove_of hw with
      | exited b ha => exact ⟨n, b, hr, ha⟩
      | exitSawPass => exact ih hr (.inl rfl)
      | _ => simp at hnext

/-- In the exit branch the log is complete, and the second check needs the flag. -/
theorem Schedule.sawExit (s : Schedule appends) {w : Waiting}
    (hw : run (waitStep flags) s.env ⟨.deadline, false⟩ n = .inl w) :
    (w.next = .exitPass ∨ w.next = .exitPowerDown → (s.env n).log = appends.flatten) ∧
      (w.next = .exitPowerDown → flags.poweroffAfterPass = "1") := by
  have hstart : SawExit flags (s.env 0) ⟨.deadline, false⟩ := ⟨by simp, nofun⟩
  have hsaw : SawExit flags (s.env n) w :=
    run_inv (SawExit flags) hstart SawExit.step
      (fun {n _} h => ⟨fun hw => s.exit_mono (Nat.le_succ n) (h.exited hw), h.flag⟩) hw
  exact ⟨fun h => congrArg Surroundings.log (s.env_of_exit (hsaw.exited h)), hsaw.flag⟩

/-- A run that finds the deadline passed, or QEMU gone without the poweroff it waits for, fails. -/
theorem Schedule.fails (s : Schedule appends) (hpass : guestPass <:+: appends.flatten)
    (h : s.FindsLate flags ∨ s.FindsExit flags ∧ flags.poweroffAfterPass = "1" ∧
      ¬ powerDown <:+: appends.flatten) : WaitForResult flags s.env 1 := by
  rcases h with ⟨n, b, hn, hlate⟩ | ⟨⟨n, b, hn, ha⟩, hflag, hdown⟩
  · have hexpired : (s.env n).expired = true := hlate
    exact ⟨n, _, hn, by rw [waitStep, hexpired]; rfl⟩
  · have henv : ∀ m, n ≤ m → (s.env m).log = appends.flatten := fun m hm =>
      congrArg Surroundings.log (s.env_of_exit (s.exit_mono hm ha))
    have hexit : run (waitStep flags) s.env ⟨.deadline, false⟩ (n + 1) = .inl ⟨.exitPass, b⟩ := by
      rw [run_succ hn, waitStep, ha]
      rfl
    have hlast : run (waitStep flags) s.env ⟨.deadline, false⟩ (n + 2) =
        .inl ⟨.exitPowerDown, b⟩ := by
      rw [run_succ hexit]
      simp only [waitStep]
      rw [henv _ (by omega), if_pos ((grep_guestPass _).2 hpass), if_pos hflag]
    refine ⟨n + 2, _, hlast, ?_⟩
    simp only [waitStep]
    rw [henv _ (by omega), if_neg (mt (grep_powerDown _).1 hdown)]

/-- **When an interleaving passes**, by the steps of the run: what it must not come across. -/
theorem Schedule.passes_iff (s : Schedule appends) (hfail : ¬ runFail <:+: appends.flatten)
    (hpass : guestPass <:+: appends.flatten) : WaitForResult flags s.env 0 ↔
      ¬ s.FindsLate flags ∧ (s.FindsExit flags → flags.poweroffAfterPass = "1" →
        powerDown <:+: appends.flatten) := by
  constructor
  · intro hzero
    have hno : ¬ WaitForResult flags s.env 1 := fun hone =>
      absurd (Returns.unique hone hzero) (by decide)
    refine ⟨fun hlate => hno (s.fails hpass (.inl hlate)), fun hexit hflag => ?_⟩
    by_contra hdown
    exact hno (s.fails hpass (.inr ⟨hexit, hflag, hdown⟩))
  · rintro ⟨hlate, hdown⟩
    obtain ⟨r, n, w, hw, hr⟩ : ∃ r, Returns (waitStep flags) s.env ⟨.deadline, false⟩ r :=
      s.exists_returns
    have hlog := (s.sawExit hw).1
    have hflag := (s.sawExit hw).2
    -- every result but 0 is one that the run does not come to
    have hzero : r = 0 := by
      cases waitMove_of hr with
      | late b h => exact absurd ⟨n, b, hw, h⟩ hlate
      | failed b h => exact absurd (h.trans (after_log_isPrefix appends _ _).isInfix) hfail
      | exitNoPass b h => exact absurd (hlog (.inl rfl) ▸ hpass) h
      | exitNoPowerDown b h =>
        have hexit := s.findsExit_of_run hw (.inr rfl)
        exact absurd (hlog (.inr rfl) ▸ hdown hexit (hflag rfl)) h
      | _ => rfl
    exact ⟨n, w, hw, hzero ▸ hr⟩

/-- In time, with the markers that the exit branch looks for, every interleaving passes. -/
theorem Schedule.passes (s : Schedule appends) (hclock : ∀ n, s.expired n = false)
    (hfail : ¬ runFail <:+: appends.flatten) (hpass : guestPass <:+: appends.flatten)
    (hdown : flags.poweroffAfterPass = "1" → powerDown <:+: appends.flatten) :
    WaitForResult flags s.env 0 := by
  refine (s.passes_iff hfail hpass).2 ⟨?_, fun _ => hdown⟩
  rintro ⟨n, b, -, hlate⟩
  simp [hclock n] at hlate

/-- All events come right before the check number `k`. -/
def Schedule.atOnce (appends : List Text) (k : Nat) (expired : Nat → Bool)
    (h : ∀ n, expired n = true → k ≤ n) : Schedule appends where
  seen n := if n < k then 0 else appends.length + 1
  mono n := by
    split
    · exact Nat.zero_le _
    · rw [if_neg (by omega)]
  exits := ⟨k, by simp⟩
  expired := expired
  exitsFirst n hn := by
    have hk := h n hn
    rw [if_neg (by omega)]
    omega

variable {k : Nat} {expired : Nat → Bool} {h : ∀ n, expired n = true → k ≤ n}

theorem Schedule.atOnce_before (hn : n < k) :
    (Schedule.atOnce appends k expired h).env n = ⟨[], true, false⟩ := by
  have he : expired n = false := by
    cases hx : expired n with
    | true => exact absurd (h n hx) (by omega)
    | false => rfl
  simp [Schedule.env, Schedule.atOnce, hn, he, after]

theorem Schedule.atOnce_after (hn : k ≤ n) :
    (Schedule.atOnce appends k expired h).env n = ⟨appends.flatten, false, expired n⟩ := by
  have hseen : (Schedule.atOnce appends k expired h).seen n = appends.length + 1 :=
    if_neg (by omega)
  rw [Schedule.env, hseen]
  exact after_log_of_exit (Nat.lt_succ_self _) _

theorem Schedule.atOnce_alive (hk : 5 ≤ k) :
    run (waitStep flags) (Schedule.atOnce appends k expired h).env ⟨.deadline, false⟩ 5 =
      .inl ⟨.alive, false⟩ := by
  have hstep : ∀ (n : Nat) (w w' : Waiting), n < k →
      run (waitStep flags) (Schedule.atOnce appends k expired h).env ⟨.deadline, false⟩ n =
        .inl w → waitStep flags w ⟨[], true, false⟩ = .inl w' →
      run (waitStep flags) (Schedule.atOnce appends k expired h).env ⟨.deadline, false⟩ (n + 1) =
        .inl w' := by
    intro n w w' hn hw hw'
    rw [run_succ hw, Schedule.atOnce_before hn, hw']
  have h1 := hstep 0 _ ⟨.pass, false⟩ (by omega) rfl rfl
  have h2 := hstep 1 _ ⟨.powerDown, false⟩ (by omega) h1 rfl
  have h3 := hstep 2 _ ⟨.systemDown, false⟩ (by omega) h2 rfl
  have h4 := hstep 3 _ ⟨.runFail, false⟩ (by omega) h3 rfl
  exact hstep 4 _ _ (by omega) h4 rfl

/-- The events fall before the liveness check: the exit branch does not look for the lines of a
system that went down. -/
theorem exists_losing_schedule (hpass : guestPass <:+: appends.flatten)
    (hflag : flags.poweroffAfterPass = "1") (hdown : ¬ powerDown <:+: appends.flatten) :
    ∃ s : Schedule appends, (∀ n, s.expired n = false) ∧ WaitForResult flags s.env 1 := by
  have hnever : ∀ n, (fun _ : Nat => false) n = true → 5 ≤ n := nofun
  have hexit : (Schedule.atOnce appends 5 (fun _ => false) hnever).FindsExit flags := by
    refine ⟨5, false, Schedule.atOnce_alive (Nat.le_refl 5), ?_⟩
    rw [Schedule.atOnce_after (Nat.le_refl 5)]
  exact ⟨.atOnce appends 5 (fun _ => false) hnever, fun _ => rfl,
    Schedule.fails _ hpass (.inr ⟨hexit, hflag, hdown⟩)⟩

/-- The deadline passes while the loop sleeps: it does not look at the log again. -/
theorem exists_late_schedule (hpass : guestPass <:+: appends.flatten) :
    ∃ s : Schedule appends, WaitForResult flags s.env 1 := by
  have hlate : ∀ n, decide (7 ≤ n) = true → 6 ≤ n := fun n hn => by
    have := of_decide_eq_true hn
    omega
  have halive : run (waitStep flags) (Schedule.atOnce appends 6 (fun n => 7 ≤ n) hlate).env
      ⟨.deadline, false⟩ 5 = .inl ⟨.alive, false⟩ := Schedule.atOnce_alive (by decide)
  have hsleep := run_succ halive
  rw [Schedule.atOnce_before (by decide)] at hsleep
  have hsleep : run (waitStep flags) (Schedule.atOnce appends 6 (fun n => 7 ≤ n) hlate).env
      ⟨.deadline, false⟩ 6 = .inl ⟨.sleep, false⟩ := hsleep
  exact ⟨_, Schedule.fails _ hpass (.inl ⟨7, false, run_succ hsleep, rfl⟩)⟩

end

/-- The interleavings in time, in which no test of the clock finds the deadline passed: they all pass
exactly when the script need not wait for a poweroff or the log has its marker. -/
theorem in_time_pass_iff {appends : List Text} (hfail : ¬ runFail <:+: appends.flatten)
    (haccept : Accepted flags appends.flatten) :
    (∀ s : Schedule appends, (∀ n, s.expired n = false) → WaitForResult flags s.env 0) ↔
      (flags.poweroffAfterPass = "1" → powerDown <:+: appends.flatten) := by
  constructor
  · intro hall hflag
    by_contra hdown
    obtain ⟨s, hclock, hone⟩ := exists_losing_schedule haccept.1 hflag hdown
    exact absurd (Returns.unique hone (hall s hclock)) (by decide)
  · intro hdown s hclock
    exact s.passes hclock hfail haccept.1 hdown

/-- **Which interleavings pass.** Let QEMU append `appends` and exit before the deadline, without a
failure marker and with an accepted log. Then `wait_for_result` returns 0 in exactly those
interleavings in which no test of the clock finds the deadline passed and, should the script wait for
a poweroff whose marker is not in the log, the liveness check does not find QEMU gone. For no such log
are these all interleavings. -/
theorem schedules_pass_iff {flags : WaitFlags} {appends : List Text}
    (hfail : ¬ runFail <:+: appends.flatten) (haccept : Accepted flags appends.flatten) :
    (∀ s : Schedule appends, WaitForResult flags s.env 0 ↔
      ¬ s.FindsLate flags ∧ (s.FindsExit flags → flags.poweroffAfterPass = "1" →
        powerDown <:+: appends.flatten)) ∧
    ∃ s : Schedule appends, ¬ WaitForResult flags s.env 0 := by
  refine ⟨fun s => s.passes_iff hfail haccept.1, ?_⟩
  obtain ⟨s, hone⟩ := @exists_late_schedule flags _ haccept.1
  exact ⟨s, fun hzero => absurd (Returns.unique hone hzero) (by decide)⟩

theorem not_powerDown_systemDownAppends : ¬ powerDown <:+: systemDownAppends.flatten := by
  intro h
  have hb : 'b' ∈ systemDownAppends.flatten := h.subset (by decide)
  exact absurd hb (by decide)

theorem accepted_systemDownAppends :
    Accepted ⟨"1", "1"⟩ systemDownAppends.flatten := by
  have hmem : ∀ t ∈ [guestPass, systemDown, entryReturned], t <:+: systemDownAppends.flatten := by
    intro t ht
    have hline : t ++ ['\n'] ∈ systemDownAppends := by
      rcases List.mem_cons.1 ht with rfl | ht
      · exact List.mem_cons_self
      · rcases List.mem_cons.1 ht with rfl | ht
        · exact List.mem_cons_of_mem _ List.mem_cons_self
        · obtain rfl := List.mem_singleton.1 ht
          exact List.mem_cons_of_mem _ (List.mem_cons_of_mem _ List.mem_cons_self)
    exact (List.prefix_append t ['\n']).isInfix.trans (List.infix_of_mem_flatten hline)
  exact ⟨hmem _ (by simp), fun _ => .inr ⟨rfl, hmem _ (by simp), hmem _ (by simp)⟩⟩

/-- An accepted log without a failure marker, and an interleaving that does not pass. -/
theorem schedule_fails_systemDown :
    ¬ runFail <:+: systemDownAppends.flatten ∧
      Accepted ⟨"1", "1"⟩ systemDownAppends.flatten ∧
      ∃ s : Schedule systemDownAppends, (∀ n, s.expired n = false) ∧
        ¬ WaitForResult ⟨"1", "1"⟩ s.env 0 := by
  refine ⟨fun h => ?_, accepted_systemDownAppends, ?_⟩
  · have hF : 'F' ∈ systemDownAppends.flatten := h.subset (by decide)
    exact absurd hF (by decide)
  have hflag : WaitFlags.poweroffAfterPass ⟨"1", "1"⟩ = "1" := rfl
  obtain ⟨s, hclock, hone⟩ := exists_losing_schedule accepted_systemDownAppends.1 hflag
    not_powerDown_systemDownAppends
  exact ⟨s, hclock, fun hzero => absurd (Returns.unique hone hzero) (by decide)⟩

/-- The lines of a guest that powers off. -/
def poweroffAppends : List Text := [guestPass ++ ['\n'], powerDown ++ ['\n']]

/-- With both flags an interleaving in time passes, and there is one that does not. -/
theorem schedules_pass_poweroff :
    WaitForResult ⟨"1", "1"⟩
        (Schedule.atOnce poweroffAppends 3 (fun _ => false) nofun).env 0 ∧
      ∃ s : Schedule poweroffAppends, ¬ WaitForResult ⟨"1", "1"⟩ s.env 0 := by
  have hfail : ¬ runFail <:+: poweroffAppends.flatten := fun h => by
    have hF : 'F' ∈ poweroffAppends.flatten := h.subset (by decide)
    exact absurd hF (by decide)
  have hpass : guestPass <:+: poweroffAppends.flatten := ⟨[], _, rfl⟩
  have hdown : powerDown <:+: poweroffAppends.flatten := ⟨guestPass ++ ['\n'], ['\n'], by decide⟩
  obtain ⟨hiff, hsome⟩ :=
    @schedules_pass_iff ⟨"1", "1"⟩ _ hfail ⟨hpass, fun _ => .inl hdown⟩
  refine ⟨(hiff _).2 ⟨?_, fun _ _ => hdown⟩, hsome⟩
  rintro ⟨n, b, -, hlate⟩
  cases hlate

end Smoke
