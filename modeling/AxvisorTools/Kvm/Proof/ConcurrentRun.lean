import AxvisorTools.Kvm.ConcurrentRun
import AxvisorTools.Lts.Basic
import Mathlib.Algebra.BigOperators.Fin
import Mathlib.Algebra.Order.BigOperators.Group.Finset
import Mathlib.Data.Fintype.BigOperators

/-!
# Every schedule of the concurrent smoke test

`Inv` is what all reachable states have in common: the barrier counts the threads that have come to
it, no thread is behind it before all have come, and a thread that has ended has left its outcome.
`forecast` is how the process will end, read off one state; no step changes it (`forecast_step`), and
in a state in which nothing can happen any more it is what has happened (`forecast_stuck`).
-/

namespace Kvm.ConcurrentRun

open Checks Lts Relation

variable {n : Nat} {w : World n} {s s' : State n} {i : Fin n} {t t' : Thread} {k k' : Nat}

/-! ## What a step does -/

/-- A step of thread `i` from a barrier count to the next. -/
inductive Move (w : World n) (i : Fin n) : Thread → Nat → Thread → Nat → Prop
  | mapFail {a k e} : w.mapErrno i = some e →
      Move w i ⟨.start, a⟩ k ⟨.failed, { a with ret := -1, err := e }⟩ k
  | map {a k} : w.mapErrno i = none → Move w i ⟨.start, a⟩ k ⟨.mapped, a⟩ k
  | arrive {a k} : Move w i ⟨.mapped, a⟩ k ⟨.waiting, a⟩ (k + 1)
  | release {a k} : k = n → Move w i ⟨.waiting, a⟩ k ⟨.released, a⟩ k
  | enter {a k} : Move w i ⟨.released, a⟩ k ⟨.inRun, a⟩ k
  | run {a k r} : w.vcpuRun i = some r → Move w i ⟨.inRun, a⟩ k ⟨.done, argOf r⟩ k

theorem threadStep_move (h : threadStep w s i = some s') : ∃ t' k,
    Move w i (s.threads i) s.arrived t' k ∧ s' = ⟨s.main, Function.update s.threads i t', k⟩ := by
  obtain ⟨pc, a, ht⟩ : ∃ pc a, s.threads i = ⟨pc, a⟩ := ⟨_, _, rfl⟩
  rw [threadStep, ht] at h
  rw [ht]
  cases pc with
  | absent => cases h
  | start =>
    cases hmap : w.mapErrno i with
    | some e =>
      simp only [hmap, Option.some.injEq] at h
      exact ⟨_, _, .mapFail hmap, h.symm⟩
    | none =>
      simp only [hmap, Option.some.injEq] at h
      exact ⟨_, _, .map hmap, h.symm⟩
  | mapped =>
    simp only [Option.some.injEq] at h
    exact ⟨_, _, .arrive, h.symm⟩
  | waiting =>
    simp only [Option.ite_none_right_eq_some, Option.some.injEq] at h
    exact ⟨_, _, .release h.1, h.2.symm⟩
  | released =>
    simp only [Option.some.injEq] at h
    exact ⟨_, _, .enter, h.symm⟩
  | inRun =>
    simp only [Option.map_eq_some_iff] at h
    obtain ⟨r, hr, h⟩ := h
    exact ⟨_, _, .run hr, h.symm⟩
  | failed => cases h
  | done => cases h

/-- A step of `main`. -/
inductive MainMove (w : World n) (s : State n) : State n → Prop
  | createFail {k : Fin n} {e} : s.main = .creating k → w.createErrno k = some e →
      MainMove w s { s with main := .exited ⟨1, [], dieErrno w.strerror "pthread_create" e⟩ }
  | create {k : Fin n} : s.main = .creating k → w.createErrno k = none →
      MainMove w s
        ⟨.creating (k + 1), Function.update s.threads k ⟨.start, ⟨0, 0, 0⟩⟩, s.arrived⟩
  | created {k : Nat} : s.main = .creating k → n ≤ k → MainMove w s { s with main := .joining 0 }
  | joinFail {k : Fin n} {e} : s.main = .joining k → w.joinErrno k = some e →
      MainMove w s { s with main := .exited ⟨1, [], dieErrno w.strerror "pthread_join" e⟩ }
  | object {k : Fin n} {e} : s.main = .joining k → w.joinErrno k = none →
      (s.threads k).pc.ended = true → objection (s.threads k).arg = some e →
      MainMove w s { s with main := .exited e }
  | join {k : Fin n} : s.main = .joining k → w.joinErrno k = none →
      (s.threads k).pc.ended = true → objection (s.threads k).arg = none →
      MainMove w s { s with main := .joining (k + 1) }
  | pass {k : Nat} : s.main = .joining k → n ≤ k →
      MainMove w s { s with main := (.exited
        ⟨0, passText w.kvmDev ((List.finRange n).map fun i => (s.threads i).arg), []⟩) }

theorem mainStep_move (h : mainStep w s = some s') : MainMove w s s' := by
  rw [mainStep] at h
  cases hm : s.main with
  | creating k =>
    simp only [hm] at h
    by_cases hk : k < n
    · cases he : w.createErrno ⟨k, hk⟩ with
      | some e =>
        simp only [hk, he, ↓reduceDIte, Option.some.injEq] at h
        exact h ▸ .createFail (k := ⟨k, hk⟩) hm he
      | none =>
        simp only [hk, he, ↓reduceDIte, Option.some.injEq] at h
        exact h ▸ .create (k := ⟨k, hk⟩) hm he
    · simp only [hk, ↓reduceDIte, Option.some.injEq] at h
      exact h ▸ .created hm (Nat.le_of_not_lt hk)
  | joining k =>
    simp only [hm] at h
    by_cases hk : k < n
    · cases he : w.joinErrno ⟨k, hk⟩ with
      | some e =>
        simp only [hk, he, ↓reduceDIte, Option.some.injEq] at h
        exact h ▸ .joinFail (k := ⟨k, hk⟩) hm he
      | none =>
        simp only [hk, he, ↓reduceDIte] at h
        by_cases hend : (s.threads ⟨k, hk⟩).pc.ended = true
        · rw [if_pos hend] at h
          cases ho : objection (s.threads ⟨k, hk⟩).arg with
          | some e =>
            simp only [ho, Option.some.injEq] at h
            exact h ▸ .object (k := ⟨k, hk⟩) hm he hend ho
          | none =>
            simp only [ho, Option.some.injEq] at h
            exact h ▸ .join (k := ⟨k, hk⟩) hm he hend ho
        · rw [if_neg hend] at h
          cases h
    · simp only [hk, ↓reduceDIte, Option.some.injEq] at h
      exact h ▸ .pass hm (Nat.le_of_not_lt hk)
  | exited e =>
    simp only [hm] at h
    cases h

/-! ## What holds in every reachable state -/

/-- The thread has come to the barrier. -/
def Pc.arrived : Pc → Bool
  | .waiting | .released | .inRun | .done => true
  | _ => false

/-- The thread is behind the barrier. -/
def Pc.passed : Pc → Bool
  | .released | .inRun | .done => true
  | _ => false

/-- The thread has its page. -/
def Pc.hasPage : Pc → Bool
  | .mapped | .waiting | .released | .inRun | .done => true
  | _ => false

/-- What is true of a thread by its place. -/
structure ThreadOk (w : World n) (i : Fin n) (t : Thread) : Prop where
  page : t.pc.hasPage = true → w.mapErrno i = none
  fresh : t.pc = .start → t.arg = ⟨0, 0, 0⟩
  failed : t.pc = .failed → ∃ e, w.mapErrno i = some e ∧ t.arg = ⟨-1, e, 0⟩
  done : t.pc = .done → (w.vcpuRun i).map argOf = some t.arg

/-- Which threads there are, and which have been joined. -/
def MainOk (threads : Fin n → Thread) : Main → Prop
  | .creating k => ∀ i : Fin n, (threads i).pc ≠ .absent ↔ i.val < k
  | .joining k => (∀ i, (threads i).pc ≠ .absent) ∧ ∀ i : Fin n, i.val < k →
      (threads i).pc.ended = true
  | .exited _ => True

/-- How many threads have come to the barrier. -/
def countArrived (threads : Fin n → Thread) : Nat := ∑ i, (threads i).pc.arrived.toNat

structure Inv (w : World n) (s : State n) : Prop where
  count : s.arrived = countArrived s.threads
  barrier : ∀ i, (s.threads i).pc.passed = true → s.arrived = n
  thread : ∀ i, ThreadOk w i (s.threads i)
  main : MainOk s.threads s.main

theorem sum_update (f : Fin n → Thread) (g : Thread → Nat) (t : Thread) :
    ∑ j, g (Function.update f i t j) + g (f i) = ∑ j, g (f j) + g t := by
  have hcomp : (fun j => g (Function.update f i t j)) = Function.update (g ∘ f) i (g t) :=
    Function.comp_update g f i t
  have hsum : ∑ j, g (f j) = g (f i) + ∑ j ∈ Finset.univ \ {i}, (g ∘ f) j :=
    Finset.sum_eq_add_sum_sdiff_singleton_of_mem (Finset.mem_univ i) (g ∘ f)
  rw [hcomp, Finset.sum_update_of_mem (Finset.mem_univ i), hsum]
  omega

/-- When the barrier has counted all threads, all have come. -/
theorem Inv.all_arrived (h : Inv w s) (hn : s.arrived = n) (i : Fin n) :
    (s.threads i).pc.arrived = true := by
  by_contra hi
  have hlt : countArrived s.threads < ∑ _i : Fin n, 1 := by
    apply Finset.sum_lt_sum
    · intro j _
      exact Bool.toNat_le _
    · exact ⟨i, Finset.mem_univ i, by simp [Bool.eq_false_iff.2 hi]⟩
  have hcount := h.count
  simp at hlt
  omega

theorem Inv.all_pages (h : Inv w s) (hn : s.arrived = n) (i : Fin n) : w.mapErrno i = none := by
  apply (h.thread i).page
  have harr := h.all_arrived hn i
  revert harr
  cases (s.threads i).pc <;> simp [Pc.arrived, Pc.hasPage]

/-- What a step of a thread keeps of its own. -/
theorem ThreadOk.move (h : ThreadOk w i t) (hm : Move w i t k t' k') : ThreadOk w i t' := by
  cases hm with
  | mapFail he =>
    have harg := h.fresh rfl
    exact ⟨by simp [Pc.hasPage], by simp, fun _ => ⟨_, he, by simp_all⟩, by simp⟩
  | map he => exact ⟨fun _ => he, by simp, by simp, by simp⟩
  | arrive => exact ⟨fun _ => h.page rfl, by simp, by simp, by simp⟩
  | release _ => exact ⟨fun _ => h.page rfl, by simp, by simp, by simp⟩
  | enter => exact ⟨fun _ => h.page rfl, by simp, by simp, by simp⟩
  | run hr => exact ⟨fun _ => h.page rfl, by simp, by simp, fun _ => by simp [hr]⟩

/-- The barrier counts the threads that come to it. -/
theorem Move.count (hm : Move w i t k t' k') :
    k' + t.pc.arrived.toNat = k + t'.pc.arrived.toNat := by
  cases hm <;> simp [Pc.arrived]

theorem Move.le (hm : Move w i t k t' k') : k ≤ k' := by
  cases hm <;> simp

theorem Move.not_ended (hm : Move w i t k t' k') :
    t.pc.ended = false ∧ t.pc ≠ .absent ∧ t'.pc ≠ .absent := by
  cases hm <;> simp [Pc.ended]

/-- A thread comes behind the barrier when all have come to it. -/
theorem Move.passed (hm : Move w i t k t' k') (h : t'.pc.passed = true) :
    t.pc.passed = true ∨ k = n := by
  revert h
  cases hm with
  | release hk => exact fun _ => .inr hk
  | _ => simp [Pc.passed]

theorem countArrived_le (threads : Fin n → Thread) : countArrived threads ≤ n := by
  calc countArrived threads ≤ ∑ _i : Fin n, 1 := Finset.sum_le_sum fun i _ => Bool.toNat_le _
    _ = n := by simp

theorem Inv.threadMove (h : Inv w s) (hstep : threadStep w s i = some s') : Inv w s' := by
  obtain ⟨t', k, hm, rfl⟩ := threadStep_move hstep
  have hcount : k = countArrived (Function.update s.threads i t') := by
    have hsum := sum_update (i := i) s.threads (fun t => t.pc.arrived.toNat) t'
    have hmove := hm.count
    have hold := h.count
    simp only [countArrived] at hold ⊢
    omega
  have hfull (hn : s.arrived = n) : k = n := by
    have hle := countArrived_le (Function.update s.threads i t')
    have hmove := hm.le
    omega
  obtain ⟨hend, habs, habs'⟩ := hm.not_ended
  refine ⟨hcount, ?_, ?_, ?_⟩
  · refine (Function.forall_update_iff _ (p := fun _ (t : Thread) => t.pc.passed = true → k = n)).2
      ⟨fun ht => hfull ((hm.passed ht).elim (h.barrier i) id), fun j _ hj => hfull (h.barrier j hj)⟩
  · exact (Function.forall_update_iff _ (p := ThreadOk w)).2
      ⟨(h.thread i).move hm, fun j _ => h.thread j⟩
  · have hpc : ∀ j, (Function.update s.threads i t' j).pc ≠ .absent ↔
        (s.threads j).pc ≠ .absent :=
      (Function.forall_update_iff _
        (p := fun j (t : Thread) => t.pc ≠ .absent ↔ (s.threads j).pc ≠ .absent)).2
        ⟨iff_of_true habs' habs, fun _ _ => Iff.rfl⟩
    have hmain := h.main
    cases hs : s.main with
    | creating m =>
      rw [hs] at hmain
      exact fun j => (hpc j).trans (hmain j)
    | joining m =>
      rw [hs] at hmain
      refine ⟨fun j => (hpc j).2 (hmain.1 j), ?_⟩
      refine (Function.forall_update_iff _
        (p := fun j (t : Thread) => j.val < m → t.pc.ended = true)).2
        ⟨fun hi => ?_, fun j _ => hmain.2 j⟩
      rw [hmain.2 i hi] at hend
      cases hend
    | exited e => trivial

theorem Inv.mainMove (h : Inv w s) (hm : MainMove w s s') : Inv w s' := by
  have hmain := h.main
  cases hm with
  | createFail => exact ⟨h.count, h.barrier, h.thread, trivial⟩
  | @create k hk _ =>
    rw [hk] at hmain
    have habs : (s.threads k).pc = .absent := by
      by_contra hne
      exact absurd ((hmain k).1 hne) (Nat.lt_irrefl _)
    refine ⟨?_, ?_, ?_, ?_⟩
    · have hsum := sum_update (i := k) s.threads (fun t => t.pc.arrived.toNat)
        ⟨.start, ⟨0, 0, 0⟩⟩
      have hold := h.count
      simp only [countArrived, habs, Pc.arrived, Bool.toNat_false] at hold hsum ⊢
      omega
    · exact (Function.forall_update_iff _
        (p := fun _ (t : Thread) => t.pc.passed = true → s.arrived = n)).2
        ⟨by simp [Pc.passed], fun j _ => h.barrier j⟩
    · exact (Function.forall_update_iff _ (p := ThreadOk w)).2
        ⟨⟨by simp [Pc.hasPage], fun _ => rfl, by simp, by simp⟩, fun j _ => h.thread j⟩
    · refine (Function.forall_update_iff _
        (p := fun (j : Fin n) (t : Thread) => t.pc ≠ .absent ↔ j.val < k.val + 1)).2
        ⟨by simp, fun j hj => ?_⟩
      have hne : j.val ≠ k.val := fun he => hj (Fin.ext he)
      exact (hmain j).trans (by omega)
  | @created k hk hle =>
    rw [hk] at hmain
    exact ⟨h.count, h.barrier, h.thread, fun j => (hmain j).2 (by omega), by simp⟩
  | joinFail => exact ⟨h.count, h.barrier, h.thread, trivial⟩
  | object => exact ⟨h.count, h.barrier, h.thread, trivial⟩
  | @join k hk _ hend _ =>
    rw [hk] at hmain
    refine ⟨h.count, h.barrier, h.thread, hmain.1, fun j hj => ?_⟩
    by_cases hjk : j = k
    · exact hjk ▸ hend
    · have hne : j.val ≠ k.val := fun he => hjk (Fin.ext he)
      exact hmain.2 j (by omega)
  | pass => exact ⟨h.count, h.barrier, h.thread, trivial⟩

theorem Inv.step (h : Inv w s) (hstep : Step w s s') : Inv w s' := by
  obtain ⟨-, hmain | ⟨i, hi⟩⟩ := hstep
  · exact h.mainMove (mainStep_move hmain)
  · exact h.threadMove hi

theorem inv_init (w : World n) : Inv w (init w) := by
  refine ⟨by simp [init, countArrived, Pc.arrived], by simp [init, Pc.passed], fun i => ?_, ?_⟩
  · exact ⟨by simp [init, Pc.hasPage], by simp [init], by simp [init], by simp [init]⟩
  · simp only [init]
    split <;> simp [MainOk]

theorem inv_of_reachable (h : Reachable w s) : Inv w s :=
  invariant (fun hI hs => hI.step hs) (inv_init w) h

/-! ## The forecast -/

/-- How the process will end. -/
def forecast (w : World n) (s : State n) : Option Exit :=
  match s.main with
  | .creating k => w.create ((List.finRange n).drop k)
  | .joining k => w.join ((List.finRange n).drop k)
      (((List.finRange n).take k).map fun i => (s.threads i).arg)
  | .exited e => some e

theorem drop_finRange (k : Fin n) :
    (List.finRange n).drop k = k :: (List.finRange n).drop (k + 1) := by
  rw [List.drop_eq_getElem_cons (by simp), List.getElem_finRange]
  simp

theorem take_finRange (k : Fin n) :
    (List.finRange n).take (k + 1) = (List.finRange n).take k ++ [k] := by
  rw [List.take_succ_eq_append_getElem (by simp), List.getElem_finRange]
  simp

theorem val_lt_of_mem_take (h : i ∈ (List.finRange n).take k) : i.val < k := by
  obtain ⟨m, hm, rfl⟩ := List.mem_iff_getElem.1 h
  simp only [List.length_take, List.length_finRange] at hm
  simp only [List.getElem_take, List.getElem_finRange, Fin.val_cast]
  omega

theorem Inv.outcome_of_ended (h : Inv w s) (hend : (s.threads i).pc.ended = true) :
    w.outcome i = some (s.threads i).arg := by
  cases hpc : (s.threads i).pc with
  | failed =>
    obtain ⟨e, he, harg⟩ := (h.thread i).failed hpc
    simp [World.outcome, he, harg]
  | done =>
    have hpages := h.all_pages (h.barrier i (by rw [hpc]; rfl))
    have hrun := (h.thread i).done hpc
    simp [World.outcome, hpages, hrun]
  | _ =>
    rw [hpc] at hend
    cases hend

theorem forecast_threadStep (h : Inv w s) (hstep : threadStep w s i = some s') :
    forecast w s' = forecast w s := by
  obtain ⟨t', k, hm, rfl⟩ := threadStep_move hstep
  have hmain := h.main
  cases hs : s.main with
  | creating m => simp [forecast, hs]
  | joining m =>
    rw [hs] at hmain
    have hargs : ((List.finRange n).take m).map (fun j => (Function.update s.threads i t' j).arg) =
        ((List.finRange n).take m).map fun j => (s.threads j).arg := by
      apply List.map_congr_left
      intro j hj
      have hne : j ≠ i := by
        rintro rfl
        have hend := hmain.2 j (val_lt_of_mem_take hj)
        simp [hm.not_ended.1] at hend
      rw [Function.update_of_ne hne]
    simp [forecast, hs, hargs]
  | exited e => simp [forecast, hs]

theorem forecast_mainMove (h : Inv w s) (hm : MainMove w s s') : forecast w s' = forecast w s := by
  cases hm with
  | @createFail k e hk he => simp [forecast, hk, drop_finRange k, World.create, he]
  | @create k hk he => simp [forecast, hk, drop_finRange k, World.create, he]
  | @created k hk hle =>
    have hdrop : (List.finRange n).drop k = [] := List.drop_eq_nil_of_le (by simpa using hle)
    simp [forecast, hk, hdrop, World.create]
  | @joinFail k e hk he => simp [forecast, hk, drop_finRange k, World.join, he]
  | @object k e hk he hend ho =>
    simp [forecast, hk, drop_finRange k, World.join, he, h.outcome_of_ended hend, ho]
  | @join k hk he hend ho =>
    simp [forecast, hk, drop_finRange k, take_finRange k, World.join, he, h.outcome_of_ended hend,
      ho]
  | @pass k hk hle =>
    have hdrop : (List.finRange n).drop k = [] := List.drop_eq_nil_of_le (by simpa using hle)
    have htake : (List.finRange n).take k = List.finRange n :=
      List.take_of_length_le (by simpa using hle)
    simp [forecast, hk, hdrop, htake, World.join]

theorem forecast_step (h : Inv w s) (hstep : Step w s s') : forecast w s' = forecast w s := by
  obtain ⟨-, hmain | ⟨i, hi⟩⟩ := hstep
  · exact forecast_mainMove h (mainStep_move hmain)
  · exact forecast_threadStep h hi

theorem forecast_init (w : World n) : forecast w (init w) = w.result := by
  cases hsetup : runChecks (setupCalls w.strerror w.kvmRunSize n) w.setup [] with
  | ok out => simp [forecast, init, World.result, hsetup]
  | error e => simp [forecast, init, World.result, hsetup]

theorem forecast_of_reachable (h : Reachable w s) : forecast w s = w.result := by
  rw [← forecast_init w]
  exact preserved (forecast w) (fun hI hs => hI.step hs) (fun hI hs => forecast_step hI hs)
    (inv_init w) h

/-! ## States in which nothing can happen any more -/

/-- A thread that cannot go on, and has not ended, waits at the barrier or is in `KVM_RUN`. -/
theorem blocked_cases (hstep : threadStep w s i = none) (hend : (s.threads i).pc.ended = false)
    (habs : (s.threads i).pc ≠ .absent) :
    ((s.threads i).pc = .waiting ∧ s.arrived ≠ n) ∨
      ((s.threads i).pc = .inRun ∧ w.vcpuRun i = none) := by
  rw [threadStep] at hstep
  cases hpc : (s.threads i).pc with
  | absent => exact absurd hpc habs
  | start =>
    simp only [hpc] at hstep
    cases hmap : w.mapErrno i <;> simp [hmap] at hstep
  | mapped => simp [hpc] at hstep
  | waiting => exact .inl ⟨rfl, by simpa [hpc] using hstep⟩
  | released => simp [hpc] at hstep
  | inRun => exact .inr ⟨rfl, by simpa [hpc] using hstep⟩
  | failed => simp [hpc, Pc.ended] at hend
  | done => simp [hpc, Pc.ended] at hend

/-- If the barrier waits for a thread and no thread can go on, then that thread has failed. -/
theorem Inv.exists_failed (h : Inv w s) (habs : ∀ j, (s.threads j).pc ≠ .absent)
    (hstep : ∀ j, threadStep w s j = none) (hn : s.arrived ≠ n) :
    ∃ j, (w.mapErrno j).isSome = true := by
  obtain ⟨j, hj⟩ : ∃ j, (s.threads j).pc.arrived = false := by
    by_contra hno
    apply hn
    have hall : ∀ j, (s.threads j).pc.arrived = true := by simpa using hno
    rw [h.count, countArrived]
    simp [hall]
  cases hend : (s.threads j).pc.ended with
  | false => rcases blocked_cases (hstep j) hend (habs j) with ⟨hpc, -⟩ | ⟨hpc, -⟩ <;>
      simp [hpc, Pc.arrived] at hj
  | true =>
    cases hpc : (s.threads j).pc with
    | failed =>
      obtain ⟨e, he, -⟩ := (h.thread j).failed hpc
      exact ⟨j, by simp [he]⟩
    | done => simp [hpc, Pc.arrived] at hj
    | _ => simp [hpc, Pc.ended] at hend

/-- If no thread can go on, one that has not ended never will. -/
theorem Inv.outcome_of_blocked (h : Inv w s) (habs : ∀ j, (s.threads j).pc ≠ .absent)
    (hstep : ∀ j, threadStep w s j = none) (hend : (s.threads i).pc.ended = false) :
    w.outcome i = none := by
  rcases blocked_cases (hstep i) hend (habs i) with ⟨hpc, hn⟩ | ⟨hpc, hrun⟩
  · have hpage := (h.thread i).page (by rw [hpc]; rfl)
    obtain ⟨j, hj⟩ := h.exists_failed habs hstep hn
    have hsome : ∃ j, (w.mapErrno j).isSome = true := ⟨j, hj⟩
    simp only [World.outcome, hpage, if_pos hsome]
  · have hpages := h.all_pages (h.barrier i (by rw [hpc]; rfl))
    simp [World.outcome, hpages, hrun]

theorem forecast_stuck (h : Inv w s) (hstuck : Stuck (Step w) s) : s.exit? = forecast w s := by
  cases hs : s.main with
  | exited e => simp [State.exit?, forecast, hs]
  | creating k =>
    have hexit : s.exit? = none := by simp [State.exit?, hs]
    cases hstep : mainStep w s with
    | some s' => exact absurd ⟨hexit, .inl hstep⟩ (hstuck s')
    | none =>
      simp only [mainStep, hs] at hstep
      split at hstep
      · split at hstep <;> cases hstep
      · cases hstep
  | joining k =>
    have hexit : s.exit? = none := by simp [State.exit?, hs]
    have hmain := h.main
    rw [hs] at hmain
    have hthreads : ∀ j, threadStep w s j = none := by
      intro j
      by_contra hne
      obtain ⟨s', hs'⟩ := Option.ne_none_iff_exists'.1 hne
      exact hstuck s' ⟨hexit, .inr ⟨j, hs'⟩⟩
    cases hstep : mainStep w s with
    | some s' => exact absurd ⟨hexit, .inl hstep⟩ (hstuck s')
    | none =>
      simp only [mainStep, hs] at hstep
      split at hstep
      · rename_i hk
        split at hstep
        · cases hstep
        · rename_i he
          split at hstep
          · split at hstep <;> cases hstep
          · rename_i hend
            have hnone := h.outcome_of_blocked hmain.1 hthreads (Bool.eq_false_iff.2 hend)
            have hdrop := drop_finRange ⟨k, hk⟩
            simp only at hdrop
            simp [hexit, forecast, hs, hdrop, World.join, he, hnone]
      · cases hstep

/-! ## The rank -/

def Pc.rank : Pc → Nat
  | .start => 5
  | .mapped => 4
  | .waiting => 3
  | .released => 2
  | .inRun => 1
  | _ => 0

/-- A new thread adds 5. -/
def Main.rank (n : Nat) : Main → Nat
  | .creating k => 6 * (n - k) + n + 2
  | .joining k => n - k + 1
  | .exited _ => 0

def State.rank (s : State n) : Nat := s.main.rank n + ∑ i, (s.threads i).pc.rank

theorem Move.rank_lt (hm : Move w i t k t' k') : t'.pc.rank < t.pc.rank := by
  cases hm <;> simp [Pc.rank]

theorem rank_lt (hstep : Step w s s') : s'.rank < s.rank := by
  obtain ⟨-, hmain | ⟨i, hi⟩⟩ := hstep
  · cases mainStep_move hmain with
    | @create k hk _ =>
      have hsum := sum_update (i := k) s.threads (fun t => t.pc.rank) ⟨.start, ⟨0, 0, 0⟩⟩
      have hlt := k.isLt
      simp only [State.rank, hk, Main.rank]
      simp only [Pc.rank] at hsum ⊢
      omega
    | createFail hk _ => simp [State.rank, hk, Main.rank]
    | created hk _ =>
      simp only [State.rank, hk, Main.rank]
      omega
    | joinFail hk _ => simp [State.rank, hk, Main.rank]
    | object hk _ _ _ => simp [State.rank, hk, Main.rank]
    | @join k hk _ _ _ =>
      have hlt := k.isLt
      simp only [State.rank, hk, Main.rank]
      omega
    | pass hk _ => simp [State.rank, hk, Main.rank]
  · obtain ⟨t', k, hm, rfl⟩ := threadStep_move hi
    have hsum := sum_update (i := i) s.threads (fun t => t.pc.rank) t'
    have hlt := hm.rank_lt
    simp only [State.rank]
    omega

/-! ## Every schedule -/

/-- From every state that the process can reach, every run comes to an end, and however the threads
are scheduled it ends (or hangs) as `World.result` says. -/
theorem every_schedule_ends_as_result (h : Reachable w s) :
    (∃ s', ReflTransGen (Step w) s s' ∧ Stuck (Step w) s') ∧
    (∀ run : Nat → State n, run 0 = s → ¬ ∀ k, Step w (run k) (run (k + 1))) ∧
    ∀ s', ReflTransGen (Step w) s s' → Stuck (Step w) s' → s'.exit? = w.result := by
  refine ⟨exists_stuck State.rank rank_lt s, fun run _ => not_forever State.rank rank_lt run, ?_⟩
  intro s' hrun hstuck
  have hreach : Reachable w s' := h.trans hrun
  rw [forecast_stuck (inv_of_reachable hreach) hstuck, forecast_of_reachable hreach]

/-- A world in which nothing fails and both `KVM_RUN` end with `KVM_EXIT_HLT`. -/
def allWell : World 2 where
  strerror _ := []
  kvmDev := "/dev/kvm"
  kvmRunSize := 2352
  setup k := if k = 1 then ⟨4096, 0, []⟩ else ⟨0, 0, []⟩
  createErrno _ := none
  joinErrno _ := none
  mapErrno _ := none
  vcpuRun _ := some ⟨0, 0, [5]⟩

theorem every_schedule_of_allWell :
    (∃ s, Reachable allWell s ∧ Stuck (Step allWell) s) ∧
    ∀ s, Reachable allWell s → Stuck (Step allWell) s → s.exit? = some ⟨0,
      "AXVISOR_KVM_CONCURRENT_RUN_SMOKE_PASS=1\nKVM_DEV=/dev/kvm\n" ++
        "VCPU0_EXIT_REASON=5\nVCPU1_EXIT_REASON=5\n", []⟩ := by
  obtain ⟨hend, -, hall⟩ := every_schedule_ends_as_result (w := allWell) .refl
  exact ⟨hend, fun s hs hstuck => (hall s hs hstuck).trans (by decide)⟩

theorem not_passed_of_failed_map (h : Reachable w s) (hfail : (w.mapErrno i).isSome = true)
    (j : Fin n) : (s.threads j).pc.passed = false := by
  by_contra hj
  have hinv := inv_of_reachable h
  have hpage := hinv.all_pages (hinv.barrier j (by simpa using hj)) i
  simp [hpage] at hfail

theorem create_of_forall_none (h : ∀ i, w.createErrno i = none) (is : List (Fin n)) :
    w.create is = w.join (List.finRange n) [] := by
  induction is with
  | nil => rfl
  | cons i is ih => simp [World.create, h i, ih]

/-- A shared page that cannot be mapped: no thread calls `KVM_RUN`, and as the others wait at the
barrier for ever, so does `main`, unless it is the first thread that has failed. -/
theorem failed_map_hangs_iff {w : World (n + 1)} {s : State (n + 1)} {i : Fin (n + 1)} {o : Text}
    (hsetup : runChecks (setupCalls w.strerror w.kvmRunSize (n + 1)) w.setup [] = .ok o)
    (hcreate : ∀ j, w.createErrno j = none) (hjoin : w.joinErrno 0 = none)
    (hfail : (w.mapErrno i).isSome = true) (h : Reachable w s) :
    (∀ j, (s.threads j).pc.passed = false) ∧
    (Stuck (Step w) s → s.exit? = if w.mapErrno 0 = none then none
      else some ⟨1, [], dieMsg "concurrent KVM_RUN returned error"⟩) := by
  refine ⟨not_passed_of_failed_map h hfail, fun hstuck => ?_⟩
  rw [forecast_stuck (inv_of_reachable h) hstuck, forecast_of_reachable h, World.result, hsetup]
  simp only [create_of_forall_none hcreate, List.finRange_succ, World.join, hjoin]
  cases h0 : w.mapErrno 0 with
  | some e => simp [World.outcome, h0, objection]
  | none =>
    have hsome : ∃ j, (w.mapErrno j).isSome = true := ⟨i, hfail⟩
    simp only [World.outcome, h0, if_pos hsome, if_true]

/-- As `allWell`, but the second page cannot be mapped. -/
def secondUnmapped : World 2 := { allWell with mapErrno := fun i => if i = 1 then some 12 else none }

theorem secondUnmapped_hangs : ∃ s, Reachable secondUnmapped s ∧
    Stuck (Step secondUnmapped) s ∧ s.exit? = none := by
  obtain ⟨s, hrun, hstuck⟩ := exists_stuck State.rank (rank_lt (w := secondUnmapped))
    (init secondUnmapped)
  have hfate := failed_map_hangs_iff (w := secondUnmapped) (i := 1) (o := []) (by decide)
    (fun _ => rfl) rfl rfl hrun
  exact ⟨s, hrun, hstuck, by simpa [secondUnmapped] using hfate.2 hstuck⟩

end Kvm.ConcurrentRun
