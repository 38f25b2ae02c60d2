import AxvisorTools.Watch.Basic
import Mathlib.Tactic.Common

/-!
# What a watcher can tell

When reads that are true stay true (`Steady`), a watcher that returns 0 is right about the file in the
end (`holds_of_returns`), and one that looks a last time at the complete file does not miss a success
(`returns_zero`). Both rest on `Tree.eval_next` and `Tree.eval_of_next`: a read made early can only
lead to a worse answer, and one made late to a better one.
-/

namespace Watch

open Poll

variable {α : Type} {c : Cond α} {t yes no : Tree α} {x y e : α} {l : Loop α}

/-! ## Conditions -/

/-- The answer on a file that does not change. -/
def Tree.eval : Tree α → α → Bool
  | .answer b, _ => b
  | .read p yes no, x => if p x then yes.eval x else no.eval x

theorem eval_tree (c : Cond α) (yes no : Tree α) (x : α) :
    (c.tree yes no).eval x = if c.holds x then yes.eval x else no.eval x := by
  induction c generalizing yes no with
  | read p => rfl
  | and c d hc hd => cases h : c.holds x <;> simp [Cond.tree, Cond.holds, hc, hd, h]
  | or c d hc hd => cases h : c.holds x <;> simp [Cond.tree, Cond.holds, hc, hd, h]

theorem eval_start (c : Cond α) (x : α) : c.start.eval x = c.holds x := by
  rw [Cond.start, eval_tree]
  cases c.holds x <;> rfl

theorem holds_any (cs : List (Cond α)) (x : α) : (Cond.any cs).holds x = cs.any (·.holds x) := by
  induction cs using Cond.any.induct with
  | case1 => rfl
  | case2 c => simp [Cond.any]
  | case3 c cs hne ih =>
    rw [Cond.any, Cond.holds, ih, List.any_cons]
    exact hne

/-- Nowhere is it better that a read fails. -/
def Tree.Positive : Tree α → Prop
  | .answer _ => True
  | .read _ yes no => yes.Positive ∧ no.Positive ∧ ∀ x, no.eval x = true → yes.eval x = true

theorem positive_tree (c : Cond α) (hyes : yes.Positive) (hno : no.Positive)
    (h : ∀ x, no.eval x = true → yes.eval x = true) : (c.tree yes no).Positive := by
  induction c generalizing yes no with
  | read p => exact ⟨hyes, hno, h⟩
  | and c d hc hd =>
    refine hc (hd hyes hno h) hno fun x hx => ?_
    rw [eval_tree]
    split
    · exact h x hx
    · exact hx
  | or c d hc hd =>
    refine hc hyes (hd hyes hno h) fun x hx => ?_
    rw [eval_tree] at hx
    split at hx
    · exact hx
    · exact h x hx

theorem positive_start (c : Cond α) : c.start.Positive :=
  positive_tree c trivial trivial (by simp [Tree.eval])

def Cond.reads : Cond α → List (α → Bool)
  | .read p => [p]
  | .and c d | .or c d => c.reads ++ d.reads

theorem mem_reads_any {cs : List (Cond α)} (hne : cs ≠ []) {p : α → Bool}
    (h : p ∈ (Cond.any cs).reads) : ∃ c ∈ cs, p ∈ c.reads := by
  induction cs using Cond.any.induct with
  | case1 => exact absurd rfl hne
  | case2 c => exact ⟨c, List.mem_cons_self, h⟩
  | case3 c cs hcs ih =>
    rw [Cond.any] at h
    · rcases List.mem_append.1 h with h | h
      · exact ⟨c, List.mem_cons_self, h⟩
      · obtain ⟨d, hd, hp⟩ := ih hcs h
        exact ⟨d, List.mem_cons_of_mem _ hd, hp⟩
    · exact hcs


def Tree.reads : Tree α → List (α → Bool)
  | .answer _ => []
  | .read p yes no => p :: (yes.reads ++ no.reads)

theorem mem_reads_tree {p : α → Bool} (h : p ∈ (c.tree yes no).reads) :
    p ∈ c.reads ∨ p ∈ yes.reads ∨ p ∈ no.reads := by
  induction c generalizing yes no with
  | read q => simpa [Cond.tree, Tree.reads, Cond.reads] using h
  | and c d hc hd =>
    simp only [Cond.reads, List.mem_append]
    rcases hc h with h | h | h
    · exact .inl (.inl h)
    · rcases hd h with h | h
      · exact .inl (.inr h)
      · exact .inr h
    · exact .inr (.inr h)
  | or c d hc hd =>
    simp only [Cond.reads, List.mem_append]
    rcases hc h with h | h | h
    · exact .inl (.inl h)
    · exact .inr (.inl h)
    · rcases hd h with h | h
      · exact .inl (.inr h)
      · exact .inr h

/-- What a condition reads in `x` is still there in `y`. -/
def Steady (c : Cond α) (x y : α) : Prop := ∀ p ∈ c.reads, p x = true → p y = true

/-- A part of the reads of a condition. -/
structure Part (c : Cond α) (t : Tree α) : Prop where
  positive : t.Positive
  reads : ∀ p ∈ t.reads, p ∈ c.reads

theorem part_start (c : Cond α) : Part c c.start := by
  refine ⟨positive_start c, fun p hp => ?_⟩
  rcases mem_reads_tree hp with h | h | h
  · exact h
  · cases h
  · cases h

section

variable {p : α → Bool} (h : Part c (.read p yes no))
include h

theorem Part.next (b : Bool) : Part c (if b then yes else no) := by
  obtain ⟨⟨hyes, hno, -⟩, hreads⟩ := h
  cases b with
  | true => exact ⟨hyes, fun q hq => hreads q (List.mem_cons_of_mem _ (List.mem_append_left _ hq))⟩
  | false => exact ⟨hno, fun q hq => hreads q (List.mem_cons_of_mem _ (List.mem_append_right _ hq))⟩

/-- A read made later than `x` leads to no worse answer than on `x`. -/
theorem Part.eval_next (hs : Steady c x e) (hx : (Tree.read p yes no).eval x = true) :
    (if p e then yes else no).eval x = true := by
  obtain ⟨⟨-, -, hle⟩, hreads⟩ := h
  simp only [Tree.eval] at hx
  split
  · split at hx
    · exact hx
    · exact hle x hx
  · rename_i hpe
    have hpx : p x = false := by
      by_contra hp
      exact hpe (hs p (hreads p (by simp [Tree.reads])) (by simpa using hp))
    simpa [hpx] using hx

/-- A read made earlier than `x` leads to no better answer than on `x`. -/
theorem Part.eval_of_next (hs : Steady c e x)
    (hx : (if p e then yes else no).eval x = true) : (Tree.read p yes no).eval x = true := by
  obtain ⟨⟨-, -, hle⟩, hreads⟩ := h
  simp only [Tree.eval]
  split at hx
  · rename_i hpe
    rw [if_pos (hs p (hreads p (by simp [Tree.reads])) hpe)]
    exact hx
  · split
    · exact hle x hx
    · exact hx

end

/-! ## One check -/

/-- What a check can do, with what it has seen. -/
inductive Move (l : Loop α) (v : Sight α) : At α → At α ⊕ Nat → Prop
  | late (h : v.expired = true) : Move l v .deadline (.inr 1)
  | round : Move l v .deadline (.inl (.accept l.accepts.start))
  | accepted : Move l v (.accept (.answer true)) (.inr 0)
  | refused : Move l v (.accept (.answer false)) (.inl .failed)
  | read (p : α → Bool) (yes no : Tree α) :
      Move l v (.accept (.read p yes no)) (.inl (.accept (if p v.content then yes else no)))
  | failed (h : l.failed v.content = true) : Move l v .failed (.inr 1)
  | notFailed : Move l v .failed (.inl .alive)
  | running (h : v.alive = true) : Move l v .alive (.inl .sleep)
  | wait (h : v.alive = false) (hs : l.settle = true) : Move l v .alive (.inl .settle)
  | gone (h : v.alive = false) (hs : l.settle = false) :
      Move l v .alive (.inl (.last l.accepts.start))
  | settled : Move l v .settle (.inl (.last l.accepts.start))
  | found : Move l v (.last (.answer true)) (.inr 0)
  | lost : Move l v (.last (.answer false)) (.inr 1)
  | lastRead (p : α → Bool) (yes no : Tree α) :
      Move l v (.last (.read p yes no)) (.inl (.last (if p v.content then yes else no)))
  | again : Move l v .sleep (.inl .deadline)

theorem move (l : Loop α) (s : At α) (v : Sight α) : Move l v s (step l s v) := by
  cases s with
  | deadline =>
    cases h : v.expired with
    | true => simpa [step, h] using Move.late h
    | false => simpa [step, h] using Move.round
  | accept t =>
    cases t with
    | answer b =>
      cases b with
      | true => exact .accepted
      | false => exact .refused
    | read p yes no => exact .read p yes no
  | failed =>
    cases h : l.failed v.content with
    | true => simpa [step, h] using Move.failed h
    | false => simpa [step, h] using Move.notFailed
  | alive =>
    cases h : v.alive with
    | true => simpa [step, h] using Move.running h
    | false =>
      cases hs : l.settle with
      | true => simpa [step, h, hs] using Move.wait h hs
      | false => simpa [step, h, hs] using Move.gone h hs
  | settle => exact .settled
  | last t =>
    cases t with
    | answer b =>
      cases b with
      | true => exact .found
      | false => exact .lost
    | read p yes no => exact .lastRead p yes no
  | sleep => exact .again

theorem move_of {s : At α} {v : Sight α} {o : At α ⊕ Nat} (h : step l s v = o) : Move l v s o :=
  h ▸ move l s v

/-! ## Results -/

def Tree.depth : Tree α → Nat
  | .answer _ => 0
  | .read _ yes no => max yes.depth no.depth + 1

/-- How many checks are left at most when the program is gone. -/
def rank (l : Loop α) : At α → Nat
  | .last t => t.depth
  | .settle => l.accepts.start.depth + 1
  | .alive => l.accepts.start.depth + 2
  | .failed => l.accepts.start.depth + 3
  | .accept t => l.accepts.start.depth + 4 + t.depth
  | .deadline => l.accepts.start.depth + 5 + l.accepts.start.depth
  | .sleep => l.accepts.start.depth + 6 + l.accepts.start.depth

theorem depth_next_lt {p : α → Bool} (b : Bool) :
    (if b then yes else no).depth < (Tree.read p yes no).depth := by
  cases b <;> simp only [Tree.depth, Bool.false_eq_true, if_false, if_true] <;> omega

theorem rank_lt {s s' : At α} {v : Sight α} (hv : v.alive = false) (h : step l s v = .inl s') :
    rank l s' < rank l s := by
  cases move_of h with
  | running ha => simp [hv] at ha
  | read p yes no => exact Nat.add_lt_add_left (depth_next_lt _) _
  | lastRead p yes no => exact depth_next_lt (p := p) _
  | _ => simp [rank, Tree.depth]

/-- A watcher returns when the program ends. -/
theorem exists_returns {env : Nat → Sight α} {N : Nat} (h : ∀ n, N ≤ n → (env n).alive = false) :
    ∃ r, Returns l env r :=
  Poll.exists_returns (rank l) N fun hn hs => rank_lt (h _ hn) hs

/-- At a read of the condition, what is left of it is no better than the condition on `x`. -/
def Below (l : Loop α) (x : α) : At α → Prop
  | .accept t | .last t => Part l.accepts t ∧ (t.eval x = true → l.accepts.holds x = true)
  | _ => True

theorem below_start (l : Loop α) (x : α) :
    Part l.accepts l.accepts.start ∧
      (l.accepts.start.eval x = true → l.accepts.holds x = true) :=
  ⟨part_start _, fun h => by rwa [eval_start] at h⟩

theorem Below.step {s s' : At α} {v : Sight α} (hv : Steady l.accepts v.content x)
    (h : Below l x s) (hs : step l s v = .inl s') : Below l x s' := by
  cases move_of hs with
  | round => exact below_start l x
  | gone => exact below_start l x
  | settled => exact below_start l x
  | read p yes no => exact ⟨h.1.next _, fun hx => h.2 (h.1.eval_of_next hv hx)⟩
  | lastRead p yes no => exact ⟨h.1.next _, fun hx => h.2 (h.1.eval_of_next hv hx)⟩
  | _ => trivial

/-- A watcher that returns 0 is right about every later content of the file. -/
theorem holds_of_returns {env : Nat → Sight α}
    (hgrow : ∀ n, Steady l.accepts (env n).content x) (h : Returns l env 0) :
    l.accepts.holds x = true := by
  obtain ⟨n, s, hs, hr⟩ := h
  have hstart : Below l x .deadline := trivial
  have hbelow : Steady l.accepts (env n).content x ∧ Below l x s := by
    refine run_inv (fun v s => Steady l.accepts v.content x ∧ Below l x s) ⟨hgrow 0, hstart⟩
      ?_ (fun hI => ⟨hgrow _, hI.2⟩) hs
    intro v s s' hI hstep
    exact ⟨hI.1, hI.2.step hI.1 hstep⟩
  cases move_of hr with
  | accepted => exact hbelow.2.2 rfl
  | found => exact hbelow.2.2 rfl

theorem returns_zero_or_one {env : Nat → Sight α} {r : Nat} (h : Returns l env r) :
    r = 0 ∨ r = 1 := by
  obtain ⟨n, s, -, hr⟩ := h
  cases move_of hr with
  | accepted => exact .inl rfl
  | found => exact .inl rfl
  | _ => exact .inr rfl

/-! ## No success is missed -/

/-- The last look is at the complete file `x`, and what is left of it says success. -/
def Above (l : Loop α) (x : α) (v : Sight α) : At α → Prop
  | .last t => v.content = x ∧ Part l.accepts t ∧ t.eval x = true
  | _ => True

/-- In time, without a report of a failure, a watcher that looks a last time at a complete file with
the signs of success returns 0. -/
theorem returns_zero {env : Nat → Sight α} (hclock : ∀ n, (env n).expired = false)
    (hfail : ∀ n, l.failed (env n).content = false) (hx : l.accepts.holds x = true)
    (hlast : ∀ n t, run (step l) env .deadline n = .inl (.last t) → (env n).content = x)
    (hgone : ∃ N, ∀ n, N ≤ n → (env n).alive = false) : Returns l env 0 := by
  obtain ⟨N, hN⟩ := hgone
  obtain ⟨r, n, s, hs, hr⟩ := exists_returns (l := l) hN
  -- what is left of the last look says success as long as the file is complete
  have habove : ∀ n s, run (step l) env .deadline n = .inl s → Above l x (env n) s := by
    intro n
    induction n with
    | zero =>
      intro s h
      cases h
      trivial
    | succ n ih =>
      intro s h
      cases hr : run (step l) env .deadline n with
      | inr r =>
        rw [run, hr] at h
        cases h
      | inl s' =>
        have hcontent := fun t ht => hlast (n + 1) t (h.trans ht)
        rw [run_succ hr] at h
        have hstart : l.accepts.start.eval x = true := by rwa [eval_start]
        cases move_of h with
        | gone => exact ⟨hcontent _ rfl, part_start _, hstart⟩
        | settled => exact ⟨hcontent _ rfl, part_start _, hstart⟩
        | lastRead p yes no =>
          obtain ⟨hc, hpart, heval⟩ := ih _ hr
          refine ⟨hcontent _ rfl, hpart.next _, hpart.eval_next ?_ heval⟩
          intro q _ hq
          rwa [hc]
        | _ => trivial
  have hzero : r = 0 := by
    cases move_of hr with
    | late h => simp [hclock n] at h
    | failed h => simp [hfail n] at h
    | lost => exact absurd (habove n _ hs).2.2 (by simp [Tree.eval])
    | _ => rfl
  exact ⟨n, s, hs, hzero ▸ hr⟩

/-- The last look comes after the program has ended. -/
def Gone (v : Sight α) : At α → Prop
  | .settle | .last _ => v.alive = false
  | _ => True

theorem gone_of_run {env : Nat → Sight α}
    (hstay : ∀ n, (env n).alive = false → (env (n + 1)).alive = false) {n : Nat} {s : At α}
    (h : run (step l) env .deadline n = .inl s) : Gone (env n) s := by
  have hstart : Gone (env 0) (.deadline : At α) := trivial
  refine run_inv Gone hstart ?_ ?_ h
  · intro v s s' hg hs
    cases move_of hs with
    | wait ha => exact ha
    | gone ha => exact ha
    | settled => exact hg
    | lastRead => exact hg
    | _ => trivial
  · intro n s hg
    cases s with
    | settle => exact hstay n hg
    | last t => exact hstay n hg
    | _ => trivial

theorem settle_of_run {env : Nat → Sight α} {n : Nat}
    (h : run (step l) env .deadline n = .inl .settle) : l.settle = true := by
  cases n with
  | zero => cases h
  | succ n =>
    cases hr : run (step l) env .deadline n with
    | inr r =>
      rw [run, hr] at h
      cases h
    | inl s =>
      rw [run_succ hr] at h
      cases move_of h with
      | wait _ hs => exact hs

/-! ## A file that does not change -/

theorem returns_one_of_gone (hx : l.accepts.holds x = false) :
    Returns l (fun _ => ⟨x, false, false⟩) 1 := by
  obtain ⟨r, hr⟩ : ∃ r, Returns l (fun _ => ⟨x, false, false⟩) r :=
    exists_returns (N := 0) fun _ _ => rfl
  rcases returns_zero_or_one hr with rfl | rfl
  · have hholds := holds_of_returns (x := x) (fun _ p _ hp => hp) hr
    simp [hx] at hholds
  · exact hr

theorem run_accept {env : Nat → Sight α} (hx : ∀ n, (env n).content = x) (t : Tree α) :
    ∀ {n}, run (step l) env .deadline n = .inl (.accept t) → ∃ k, n ≤ k ∧
      run (step l) env .deadline k = .inl (.accept (.answer (t.eval x))) := by
  induction t with
  | answer b => exact fun {n} h => ⟨n, Nat.le_refl n, h⟩
  | read p yes no hyes hno =>
    intro n h
    have hnext : run (step l) env .deadline (n + 1) =
        .inl (.accept (if p x then yes else no)) := by
      rw [run_succ h, step, hx]
    simp only [Tree.eval]
    split at hnext
    · rename_i hp
      obtain ⟨k, hk, hrun⟩ := hyes hnext
      exact ⟨k, by omega, by rwa [if_pos hp]⟩
    · rename_i hp
      obtain ⟨k, hk, hrun⟩ := hno hnext
      exact ⟨k, by omega, by rwa [if_neg hp]⟩

/-- The first round: success is found, or the watcher comes to look for a failure. -/
theorem first_round (l : Loop α) (env : Nat → Sight α) (hx : ∀ n, (env n).content = x)
    (hclock : (env 0).expired = false) :
    if l.accepts.holds x then Returns l env 0
      else ∃ k, run (step l) env .deadline k = .inl .failed := by
  have h1 : run (step l) env .deadline 1 = .inl (.accept l.accepts.start) := by
    simp [run, step, hclock]
  obtain ⟨k, -, hk⟩ := run_accept hx _ h1
  rw [eval_start] at hk
  split
  · rename_i hacc
    rw [hacc] at hk
    exact ⟨k, _, hk, rfl⟩
  · rename_i hacc
    rw [Bool.not_eq_true] at hacc
    rw [hacc] at hk
    exact ⟨k + 1, by rw [run_succ hk]; rfl⟩

end Watch
