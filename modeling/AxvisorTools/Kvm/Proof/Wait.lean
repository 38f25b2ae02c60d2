import AxvisorTools.Kvm.Proof.Serial
import AxvisorTools.Kvm.Wait
import AxvisorTools.Text.Proof.Grep
import AxvisorTools.Watch.Proof.Basic

/-!
# What the KVM verifiers can tell

`tolerates_in_flight_iff`: writes that reach the log after QEMU has exited make no difference to the
verifier that sleeps, and can cost each of the others a pass. `verdict_iff`: without such writes, on
which logs the verdict is the same for every schedule.
-/

namespace Kvm

open Regex Py Watch Poll

variable {appends : List Text} {v : Verifier} {ls : List Text} {s : Schedule appends}

/-! ## One round on a log that does not change -/

theorem holds_serialTextCond (target log : Text) :
    (serialTextCond target).holds log = qemuLogHasFirecrackerGuestSerialText target log := by
  rw [serialTextCond, Cond.holds, Cond.holds, Cond.holds, qemuLogHasFirecrackerGuestSerialText,
    serialHas]
  cases guestSerialText log <;> rfl

theorem holds_serialCond (mode : BootMode) (vcpuCount : Nat) (log : Text) :
    (serialCond mode vcpuCount).holds log = serialAccepts mode vcpuCount log := by
  cases mode with
  | initramfs =>
    have hpass : serialPassCond.holds log = qemuLogHasFirecrackerGuestSerialPass log := by
      simp only [serialPassCond, Cond.holds, holds_serialTextCond,
        qemuLogHasFirecrackerGuestSerialPass]
    have hsmp : (smpPassCond vcpuCount).holds log =
        qemuLogHasFirecrackerGuestSmpPass vcpuCount log := by
      rw [smpPassCond, holds_any, List.any_map, qemuLogHasFirecrackerGuestSmpPass]
      exact congrArg (List.any _) (funext fun t => holds_serialTextCond t log)
    by_cases h : vcpuCount ≤ 1
    · simp [serialCond, serialAccepts, h, hpass]
    · simp [serialCond, serialAccepts, h, hpass, hsmp, Cond.holds]
  | rootfs => exact holds_serialTextCond fcRootfsPass log

theorem hasText_nil {target : Text} (h : target ≠ []) :
    qemuLogHasFirecrackerGuestSerialText target [] = false := by
  have hserial : guestSerialText [] = some [] := rfl
  have hne : ¬ encode target <:+: [] := by
    rw [List.infix_nil]
    intro he
    obtain ⟨c, t, rfl⟩ := List.exists_cons_of_ne_nil h
    have hc := List.flatMap_eq_nil_iff.1 he c List.mem_cons_self
    have hlen := congrArg List.length hc
    rw [String.length_utf8EncodeChar] at hlen
    exact absurd hlen (Nat.ne_of_gt c.utf8Size_pos)
  rw [← holds_serialTextCond]
  simp [serialTextCond, Cond.holds, serialHas, hserial, hne]
  rfl

theorem accepts_nil (v : Verifier) : v.accepts.holds [] = false := by
  cases v with
  | firecracker mode vcpuCount =>
    have hserial : serialAccepts mode vcpuCount [] = false := by
      cases mode with
      | rootfs => exact hasText_nil (by decide)
      | initramfs =>
        rw [serialAccepts, qemuLogHasFirecrackerGuestSerialPass, hasText_nil (by decide),
          hasText_nil (by decide), hasText_nil (by decide)]
        rfl
    rw [Verifier.accepts, Cond.holds, holds_serialCond, hserial]
    rfl
  | _ => rfl

/-! ## Schedules -/

namespace Schedule

theorem exited_mono (s : Schedule appends) {m n : Nat} (h : m ≤ n) (hm : s.exited m = true) :
    s.exited n = true := by
  induction h with
  | refl => exact hm
  | step _ ih => exact s.stays _ ih

theorem exists_gone (s : Schedule appends) : ∃ N, ∀ n, N ≤ n → (s.env n).alive = false := by
  obtain ⟨N, hN⟩ := s.exits
  exact ⟨N, fun n hn => by simp [env, s.exited_mono hn hN]⟩

theorem env_complete (s : Schedule appends) {n : Nat} (h : appends.length ≤ s.seen n) :
    (s.env n).content = appends.flatten := by
  rw [env, List.take_of_length_le h]

end Schedule

/-! ## Logs that grow -/

theorem universalNewlines_newline (a b : Text) : ∃ a', universalNewlines (a ++ '\n' :: b) =
    a' ++ '\n' :: universalNewlines b ∧ universalNewlines (a ++ ['\n']) = a' ++ ['\n'] := by
  induction a using universalNewlines.induct with
  | case1 => exact ⟨[], rfl, rfl⟩
  | case2 t ih =>
    obtain ⟨a', h, h'⟩ := ih
    exact ⟨'\n' :: a', by simp [universalNewlines, h], by simp [universalNewlines, h']⟩
  | case3 c t hc ih =>
    by_cases hcr : c = '\r' ∧ t = []
    · obtain ⟨rfl, rfl⟩ := hcr
      exact ⟨[], rfl, rfl⟩
    · obtain ⟨a', h, h'⟩ := ih
      have hne : ∀ u v, c = '\r' → t ++ '\n' :: v ≠ '\n' :: u := by
        rintro u v rfl h
        cases t with
        | nil => exact hcr ⟨rfl, rfl⟩
        | cons d t =>
          obtain ⟨rfl, -⟩ := List.cons.inj h
          exact hc t rfl rfl
      refine ⟨(if c = '\r' then '\n' else c) :: a', ?_, ?_⟩
      · rw [List.cons_append, universalNewlines_cons fun h u => hne u b h, h, List.cons_append]
      · rw [List.cons_append, universalNewlines_cons fun h u => hne u [] h, h', List.cons_append]

theorem iterLines_newline (a b : Text) :
    iterLines (a ++ '\n' :: b) = (lines a).map (·, ['\n']) ++ iterLines b := by
  unfold iterLines
  rw [lines_append, List.dropLast_append_of_ne_nil (lines_ne_nil b), List.map_append,
    List.getLast?_append_of_ne_nil _ (lines_ne_nil b), List.append_assoc]

theorem guestSerialText_prefix {a b : Text} {serial : Bytes}
    (h : guestSerialText (a ++ '\n' :: b) = some serial) :
    ∃ part, guestSerialText (a ++ ['\n']) = some part ∧ part <+: serial := by
  obtain ⟨a', hab, ha⟩ := universalNewlines_newline a b
  rw [guestSerialText, hab, iterLines_newline, List.mapM_append] at h
  rw [guestSerialText, ha, iterLines_newline]
  have hnil : iterLines [] = [] := rfl
  rw [hnil, List.append_nil]
  obtain ⟨r, hr, rfl⟩ := Option.map_eq_some_iff.1 h
  obtain ⟨r₁, hr₁, hr⟩ := Option.bind_eq_some_iff.1 hr
  obtain ⟨r₂, hr₂, hr⟩ := Option.bind_eq_some_iff.1 hr
  obtain rfl : r₁ ++ r₂ = r := Option.some.inj hr
  refine ⟨r₁.flatten, by rw [hr₁]; rfl, ?_⟩
  rw [List.flatten_append]
  exact List.prefix_append _ _

theorem serialHas_mono {target : Text} {ks : List Text} (h : ks <+: ls)
    (hls : (guestSerialText (above ls)).isSome = true) (hk : serialHas target (above ks) = true) :
    serialHas target (above ls) = true := by
  obtain ⟨rest, rfl⟩ := h
  obtain ⟨serial, hserial⟩ := Option.isSome_iff_exists.1 hls
  rcases List.eq_nil_or_concat ks with rfl | ⟨ks', l, rfl⟩
  · -- what is found in no bytes at all is found in all
    have hnil : guestSerialText (above []) = some [] := rfl
    rw [serialHas, hnil, Option.any_some, decide_eq_true_eq, List.infix_nil] at hk
    rw [serialHas, hserial, Option.any_some, hk]
    exact decide_eq_true List.nil_infix
  · have habove : above ((ks'.concat l) ++ rest) = (above ks' ++ l) ++ '\n' :: above rest := by
      simp [above_append]
    have hconcat : above (ks'.concat l) = (above ks' ++ l) ++ ['\n'] := by simp [above_append]
    rw [habove] at hserial ⊢
    obtain ⟨part, hpart, hprefix⟩ := guestSerialText_prefix hserial
    rw [serialHas, hconcat, hpart, Option.any_some, decide_eq_true_eq] at hk
    rw [serialHas, hserial, Option.any_some, decide_eq_true_eq]
    exact hk.trans hprefix.isInfix

theorem grep_mono (r : Re) {ks : List Text} (h : ks <+: ls) (hu : Unbroken ls)
    (hk : grep r (above ks) = true) : grep r (above ls) = true := by
  have huk : Unbroken ks := fun l hl => hu l (h.subset hl)
  rw [grep, fileLines_above huk, List.any_eq_true] at hk
  rw [grep, fileLines_above hu, List.any_eq_true]
  obtain ⟨l, hl, hf⟩ := hk
  exact ⟨l, h.subset hl, hf⟩

/-- A read of a verifier. -/
inductive LogRead : (Text → Bool) → Prop
  | grep (r : Re) : LogRead (grep r)
  | serial (target : Text) : LogRead (serialHas target)

theorem logRead_serialText (target : Text) : ∀ p ∈ (serialTextCond target).reads, LogRead p := by
  simp only [serialTextCond, Cond.reads, List.singleton_append, List.forall_mem_cons]
  exact ⟨.grep _, .serial _, List.forall_mem_nil _⟩

theorem logRead_serialPass : ∀ p ∈ serialPassCond.reads, LogRead p := by
  simp only [serialPassCond, Cond.reads, List.forall_mem_append]
  exact ⟨⟨logRead_serialText _, logRead_serialText _⟩, logRead_serialText _⟩

theorem logRead_smpPass (vcpuCount : Nat) : ∀ p ∈ (smpPassCond vcpuCount).reads, LogRead p := by
  intro p hp
  have hne : (smpTexts vcpuCount).map serialTextCond ≠ [] := List.cons_ne_nil _ _
  obtain ⟨c, hc, hp⟩ := mem_reads_any hne hp
  obtain ⟨t, -, rfl⟩ := List.mem_map.1 hc
  exact logRead_serialText t p hp

theorem logRead_accepts (v : Verifier) : ∀ p ∈ v.accepts.reads, LogRead p := by
  have hgrep (r : Re) : ∀ p ∈ [grep r], LogRead p :=
    List.forall_mem_cons.2 ⟨.grep r, List.forall_mem_nil _⟩
  cases v with
  | firecracker mode vcpuCount =>
    refine List.forall_mem_append.2 ⟨hgrep _, ?_⟩
    cases mode with
    | rootfs => exact logRead_serialText _
    | initramfs =>
      rw [serialCond]
      split
      · exact logRead_serialPass
      · exact List.forall_mem_append.2 ⟨logRead_serialPass, logRead_smpPass vcpuCount⟩
  | _ => exact hgrep _

/-- What the verifier reads in the log stays there. -/
def Lasting (v : Verifier) (appends : List Text) : Prop :=
  ∀ k, Steady v.accepts (appends.take k).flatten appends.flatten

theorem grep_lit_mono {m : Text} (hn : '\n' ∉ m) (hne : m ≠ []) {x y : Text} (h : x <+: y)
    (hx : grep (lit m) x = true) : grep (lit m) y = true :=
  (grep_lit_iff hn hne y).2 (((grep_lit_iff hn hne x).1 hx).trans h.isInfix)

theorem take_flatten_isPrefix_flatten (appends : List Text) (k : Nat) :
    (appends.take k).flatten <+: appends.flatten := by
  obtain ⟨t, ht⟩ := List.take_prefix k appends
  rw [← List.take_append_drop k appends, List.flatten_append, List.take_append_drop]
  exact List.prefix_append _ _

theorem lasting_lines (v : Verifier) (hu : Unbroken ls)
    (hserial : (guestSerialText (above ls)).isSome = true) : Lasting v (ls.map (· ++ ['\n'])) := by
  intro k p hp
  rw [← List.map_take]
  have htake : ls.take k <+: ls := List.take_prefix k ls
  cases logRead_accepts v p hp with
  | grep r => exact grep_mono r htake hu
  | serial target => exact serialHas_mono htake hserial

/-- The first two verifiers look for fixed texts, so for them the writes may be any. -/
theorem lasting_of_lit {m : Text} (hv : v.accepts = .read (grep (lit m))) (hn : '\n' ∉ m)
    (hne : m ≠ []) (appends : List Text) : Lasting v appends := by
  intro k p hp
  rw [hv, Cond.reads, List.mem_singleton] at hp
  rw [hp]
  exact grep_lit_mono hn hne (take_flatten_isPrefix_flatten appends k)

theorem lasting_fixed (hv : v = .abiSmoke ∨ v = .initSmoke) (appends : List Text) :
    Lasting v appends := by
  rcases hv with rfl | rfl
  · exact lasting_of_lit rfl (by decide +kernel) (by decide +kernel) appends
  · exact lasting_of_lit rfl (by decide +kernel) (by decide +kernel) appends

theorem failMarker_ok (v : Verifier) : '\n' ∉ v.failMarker ∧ v.failMarker ≠ [] := by
  cases v with
  | firecracker mode vcpuCount =>
    change '\n' ∉ firecrackerFail ∧ firecrackerFail ≠ []
    decide +kernel
  | _ => decide +kernel

theorem failed_mono (v : Verifier) {k : Nat}
    (h : v.loop.failed (appends.take k).flatten = true) : v.loop.failed appends.flatten = true :=
  grep_lit_mono (failMarker_ok v).1 (failMarker_ok v).2 (take_flatten_isPrefix_flatten appends k) h

/-! ## Verdicts -/

/-- What the QEMU log tells in the end. -/
def Passed (v : Verifier) (appends : List Text) : Prop := v.accepts.holds appends.flatten = true

def Failed (v : Verifier) (appends : List Text) : Prop := v.failMarker <:+: appends.flatten

theorem failed_iff (v : Verifier) :
    v.loop.failed appends.flatten = true ↔ Failed v appends :=
  grep_lit_iff (failMarker_ok v).1 (failMarker_ok v).2 _

theorem not_failed (hf : ¬ Failed v appends) (k : Nat) :
    v.loop.failed (appends.take k).flatten = false := by
  rw [← Bool.not_eq_true]
  exact fun h => hf ((failed_iff v).1 (failed_mono v h))

theorem passed_of_returns (hl : Lasting v appends) (h : Returns v.loop s.env 0) :
    Passed v appends :=
  holds_of_returns (fun n => hl (s.seen n)) h

theorem exists_verdict (s : Schedule appends) : Returns v.loop s.env 0 ∨ Returns v.loop s.env 1 := by
  obtain ⟨N, hN⟩ := s.exists_gone
  obtain ⟨r, hr⟩ := exists_returns (l := v.loop) hN
  rcases returns_zero_or_one hr with rfl | rfl
  · exact .inl hr
  · exact .inr hr

/-- A verifier passes when its last look is at the complete log. -/
theorem returns_of_passed (hp : Passed v appends) (hf : ¬ Failed v appends)
    (hlast : ∀ n t, run (step v.loop) s.env .deadline n = .inl (.last t) →
      appends.length ≤ s.seen n) : Returns v.loop s.env 0 :=
  returns_zero (fun _ => rfl) (fun n => not_failed hf (s.seen n)) hp
    (fun n t h => s.env_complete (hlast n t h)) s.exists_gone

theorem stays_gone (s : Schedule appends) (n : Nat) (h : (s.env n).alive = false) :
    (s.env (n + 1)).alive = false := by
  have hx : s.exited n = true := by simpa [Schedule.env] using h
  simp [Schedule.env, s.stays n hx]

theorem returns_of_orderly (hp : Passed v appends) (hf : ¬ Failed v appends) (ho : s.Orderly) :
    Returns v.loop s.env 0 := by
  refine returns_of_passed hp hf fun n t h => ho n ?_
  have hgone : (s.env n).alive = false := gone_of_run (stays_gone s) h
  simpa [Schedule.env] using hgone

theorem exited_of_settle {n : Nat} (h : run (step v.loop) s.env .deadline n = .inl .settle) :
    s.exited n = true := by
  have hgone : (s.env n).alive = false := gone_of_run (stays_gone s) h
  simpa [Schedule.env] using hgone

theorem complete_of_settle (hv : v.loop.settle = true) (hs : s.InASecond v) :
    ∀ n t, run (step v.loop) s.env .deadline n = .inl (.last t) →
      appends.length ≤ s.seen n := by
  obtain ⟨clock⟩ := hs
  intro n
  induction n with
  | zero =>
    intro t h
    cases h
  | succ n ih =>
    intro t h
    cases hr : run (step v.loop) s.env .deadline n with
    | inr r =>
      rw [Poll.run, hr] at h
      cases h
    | inl s' =>
      rw [run_succ hr] at h
      cases move_of h with
      | gone _ hno => simp [hv] at hno
      | settled =>
        have hexit := (clock.exited_iff n).1 (exited_of_settle hr)
        have hsleep := clock.sleeps n hr
        exact clock.arrives (n + 1) (by omega)
      | lastRead => exact Nat.le_trans (ih _ hr) (s.mono n)

/-! ## Writes in flight -/

/-- QEMU exits at once, and its writes arrive after the check number `k`. -/
def Schedule.late (appends : List Text) (k : Nat) : Schedule appends where
  seen n := if n ≤ k then 0 else appends.length
  mono n := by
    split
    · exact Nat.zero_le _
    · rw [if_neg (by omega)]
  delivered := ⟨k + 1, by simp⟩
  exited _ := true
  stays _ h := h
  exits := ⟨0, rfl⟩

theorem Schedule.late_env {k n : Nat} (h : n ≤ k) :
    (Schedule.late appends k).env n = ⟨[], false, false⟩ := by
  simp [Schedule.env, Schedule.late, h]

/-- Without the sleep a pass can be missed. -/
theorem exists_missed (appends : List Text) (hv : v.loop.settle = false)
    (hempty : v.accepts.holds [] = false) :
    ∃ s : Schedule appends, s.InASecond v ∧ Returns v.loop s.env 1 := by
  obtain ⟨k, hk⟩ := returns_one_of_gone (l := v.loop) hempty
  refine ⟨.late appends k, ⟨?_⟩, k, hk.congr fun m hm => (Schedule.late_env hm).symm⟩
  -- the first checks take no time, and the writes take their second
  exact {
    time := fun n => if n ≤ k then 0 else 1000
    mono := fun n => by split <;> split <;> omega
    exit := 0
    exited_iff := fun n => ⟨fun _ => Nat.zero_le _, fun _ => rfl⟩
    arrives := fun n h => by
      have hn : ¬ n ≤ k := fun hle => by simp [hle] at h
      simp [Schedule.late, hn]
    sleeps := fun n h => by
      have hsettle := settle_of_run h
      simp [hv] at hsettle }

/-- Which verifier tolerates writes in flight: a run that passes is never missed by the one that
sleeps, and can be missed by each of the others. -/
theorem tolerates_in_flight_iff (hp : Passed v appends) (hf : ¬ Failed v appends) :
    (∀ s : Schedule appends, s.InASecond v → Returns v.loop s.env 0) ↔ v = .abiSmoke := by
  have hv : v.loop.settle = true ↔ v = .abiSmoke := decide_eq_true_iff
  constructor
  · intro hall
    by_contra hne
    obtain ⟨s, hs, hone⟩ := exists_missed appends
      (Bool.eq_false_iff.2 fun h => hne (hv.1 h)) (accepts_nil v)
    have h01 := Poll.Returns.unique (hall s hs) hone
    cases h01
  · intro h s hs
    exact returns_of_passed hp hf (complete_of_settle (hv.2 h) hs)

/-- The writes come in with the checks, one each, but for the last one: it arrives when QEMU has been
found gone. -/
def Schedule.trickling (appends : List Text) : Schedule appends where
  seen n := if n ≤ 4 then min n (appends.length - 1) else appends.length
  mono n := by split <;> split <;> omega
  delivered := ⟨5, by simp⟩
  exited n := decide (4 ≤ n)
  stays n h := by
    rw [decide_eq_true_iff] at h ⊢
    omega
  exits := ⟨4, rfl⟩

/-- A check a second. -/
def Schedule.tricklingClock (v : Verifier) (appends : List Text) :
    (Schedule.trickling appends).Clock v where
  time n := 1000 * n
  mono n := by omega
  exit := 4000
  exited_iff n := by
    rw [Schedule.trickling, decide_eq_true_iff]
    omega
  arrives n h := by
    have hn : ¬ n ≤ 4 := by omega
    simp [Schedule.trickling, hn]
  sleeps n _ := by omega

/-- A marker that is complete only after QEMU has gone. -/
def lateMarker : List Text :=
  ["Run /init\n", "AXVISOR_KVM_ABI_SMOKE", "_QEMU_PASS=1\n"]

theorem tolerates_in_flight_abiSmoke :
    Returns Verifier.abiSmoke.loop (Schedule.trickling lateMarker).env 0 := by
  have hp : Passed .abiSmoke lateMarker := by
    change grep (lit AbiSmoke.passMarker) lateMarker.flatten = true
    decide +kernel
  have hf : ¬ Failed .abiSmoke lateMarker := by
    change ¬ AbiSmoke.failMarker <:+: lateMarker.flatten
    decide +kernel
  exact (tolerates_in_flight_iff hp hf).2 rfl _ ⟨Schedule.tricklingClock _ _⟩

/-! ## Races -/

/-- All at once: QEMU has written everything and exited before the first check. -/
def Schedule.early (appends : List Text) : Schedule appends where
  seen _ := appends.length
  mono _ := Nat.le_refl _
  delivered := ⟨0, Nat.le_refl _⟩
  exited _ := true
  stays _ h := h
  exits := ⟨0, rfl⟩

theorem jump_le_succ (m k n : Nat) :
    (if n < k then 0 else m) ≤ if n + 1 < k then 0 else m := by
  split
  · exact Nat.zero_le _
  · rw [if_neg (by omega)]

theorem le_jump (m k : Nat) : m ≤ if k < k then 0 else m := by
  rw [if_neg (Nat.lt_irrefl k)]

theorem past_succ (k n : Nat) (h : decide (k ≤ n) = true) : decide (k ≤ n + 1) = true :=
  decide_eq_true (Nat.le_succ_of_le (of_decide_eq_true h))

/-- QEMU writes everything and exits right before the check number `k`. -/
def Schedule.between (appends : List Text) (k : Nat) : Schedule appends where
  seen n := if n < k then 0 else appends.length
  mono := jump_le_succ appends.length k
  delivered := ⟨k, le_jump appends.length k⟩
  exited n := decide (k ≤ n)
  stays := past_succ k
  exits := ⟨k, decide_eq_true (Nat.le_refl k)⟩

theorem orderly_early : (Schedule.early appends).Orderly := fun _ _ => Nat.le_refl _

theorem orderly_between (k : Nat) : (Schedule.between appends k).Orderly := by
  intro n hn
  have hk : k ≤ n := of_decide_eq_true hn
  simp [Schedule.between, Nat.not_lt.2 hk]

theorem early_passes (hp : Passed v appends) :
    Returns v.loop (Schedule.early appends).env 0 := by
  have hfirst := first_round v.loop (Schedule.early appends).env
    (fun n => (Schedule.early appends).env_complete (n := n) (Nat.le_refl _)) rfl
  rwa [if_pos (show v.loop.accepts.holds appends.flatten = true from hp)] at hfirst

theorem exists_failing (hf : Failed v appends) :
    ∃ s : Schedule appends, s.Orderly ∧ Returns v.loop s.env 1 := by
  have hfirst := first_round v.loop (fun _ => ⟨[], true, false⟩) (fun _ => rfl) rfl
  rw [if_neg (by rw [show v.loop.accepts.holds [] = false from accepts_nil v]; simp)] at hfirst
  obtain ⟨k, hk⟩ := hfirst
  have hrun : Poll.run (step v.loop) (Schedule.between appends k).env .deadline k =
      .inl .failed := by
    rw [← hk]
    refine run_congr fun m hm => ?_
    simp [Schedule.env, Schedule.between, hm]
  refine ⟨.between appends k, orderly_between k, k, _, hrun, ?_⟩
  have hcontent : ((Schedule.between appends k).env k).content = appends.flatten :=
    Schedule.env_complete _ (by simp [Schedule.between])
  rw [step, hcontent, if_pos ((failed_iff v).2 hf)]

/-- **When the verdict does not depend on the schedule.** Every schedule passes when the log tells of
success and of no failure; every schedule fails when it does not tell of success. With both markers in
the log it depends on which of them a check comes across first. -/
theorem verdict_iff (hl : Lasting v appends) :
    ((∀ s : Schedule appends, s.Orderly → Returns v.loop s.env 0) ↔
      Passed v appends ∧ ¬ Failed v appends) ∧
    ((∀ s : Schedule appends, s.Orderly → Returns v.loop s.env 1) ↔ ¬ Passed v appends) := by
  constructor
  · constructor
    · intro hall
      refine ⟨passed_of_returns hl (hall _ orderly_early), fun hf => ?_⟩
      obtain ⟨s, hs, hone⟩ := exists_failing hf
      have h01 := Poll.Returns.unique (hall s hs) hone
      cases h01
    · rintro ⟨hp, hf⟩ s hs
      exact returns_of_orderly hp hf hs
  · constructor
    · intro hall hp
      have h01 := Poll.Returns.unique (early_passes hp) (hall _ orderly_early)
      cases h01
    · intro hp s _
      exact (exists_verdict s).resolve_left fun h => hp (passed_of_returns hl h)

/-- Both markers: some schedule of the gVisor verifier fails, and not every one does. -/
theorem verdict_both_markers :
    ¬ (∀ s : Schedule ([gvisorFail, gvisorPass].map (· ++ ['\n'])), s.Orderly →
      Returns Verifier.gvisor.loop s.env 0) ∧
    ¬ (∀ s : Schedule ([gvisorFail, gvisorPass].map (· ++ ['\n'])), s.Orderly →
      Returns Verifier.gvisor.loop s.env 1) := by
  have hl : Lasting .gvisor ([gvisorFail, gvisorPass].map (· ++ ['\n'])) :=
    lasting_lines .gvisor (by decide +kernel) (by decide +kernel)
  have hp : Passed .gvisor ([gvisorFail, gvisorPass].map (· ++ ['\n'])) :=
    (by decide +kernel : grep (whole gvisorPass) _ = true)
  have hf : Failed .gvisor ([gvisorFail, gvisorPass].map (· ++ ['\n'])) :=
    (by decide +kernel : gvisorFail <:+: _)
  exact ⟨fun h => ((verdict_iff hl).1.1 h).2 hf, fun h => (verdict_iff hl).2.1 h hp⟩

end Kvm
