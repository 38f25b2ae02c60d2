import AxvisorTools.Poll.Basic

/-!
# Watching a file until it tells how a program has ended

A watcher looks at a file that a program writes. A condition is a combination of reads, and each read
is a check of its own: the file may grow between two reads of one condition. `Cond.start` is the
order in which the reads are made; `Cond.holds` is the condition on a file that does not change.

In each round the watcher looks for success, then for a report of a failure, then whether the program
still runs. When it does not, the watcher may wait once more (`settle`) before it looks for success a
last time.
-/

namespace Watch

variable {α : Type}

/-- A condition on the content of the file. -/
inductive Cond (α : Type)
  | read (p : α → Bool)
  | and (c d : Cond α)
  | or (c d : Cond α)

def Cond.holds : Cond α → α → Bool
  | .read p, x => p x
  | .and c d, x => c.holds x && d.holds x
  | .or c d, x => c.holds x || d.holds x

/-- One of the conditions, which are tried one after another. -/
def Cond.any : List (Cond α) → Cond α
  | [] => .read fun _ => false
  | [c] => c
  | c :: cs => .or c (Cond.any cs)

/-- The reads that are still to be made, with what comes after each of their outcomes. -/
inductive Tree (α : Type)
  | answer (b : Bool)
  | read (p : α → Bool) (yes no : Tree α)

/-- The reads of a condition, with what follows when it holds and when it does not. -/
def Cond.tree : Cond α → Tree α → Tree α → Tree α
  | .read p, yes, no => .read p yes no
  | .and c d, yes, no => c.tree (d.tree yes no) no
  | .or c d, yes, no => c.tree yes (d.tree yes no)

def Cond.start (c : Cond α) : Tree α := c.tree (.answer true) (.answer false)

/-- The parameters of a watcher. -/
structure Loop (α : Type) where
  accepts : Cond α
  failed : α → Bool
  settle : Bool

/-- What a check sees: the file, whether the program runs, and whether the deadline has passed. -/
structure Sight (α : Type) where
  content : α
  alive : Bool
  expired : Bool

/-- Where the watcher is. -/
inductive At (α : Type)
  | deadline
  | accept (t : Tree α)
  | failed
  | alive
  | settle
  /-- The program is gone. -/
  | last (t : Tree α)
  | sleep

/-- One check; a result is the status that the watcher returns. -/
def step (l : Loop α) (s : At α) (e : Sight α) : At α ⊕ Nat :=
  match s with
  | .deadline => if e.expired then .inr 1 else .inl (.accept l.accepts.start)
  | .accept (.answer b) => if b then .inr 0 else .inl .failed
  | .accept (.read p yes no) => .inl (.accept (if p e.content then yes else no))
  | .failed => if l.failed e.content then .inr 1 else .inl .alive
  | .alive =>
    if e.alive then .inl .sleep
    else .inl (if l.settle then .settle else .last l.accepts.start)
  | .settle => .inl (.last l.accepts.start)
  | .last (.answer b) => .inr (if b then 0 else 1)
  | .last (.read p yes no) => .inl (.last (if p e.content then yes else no))
  | .sleep => .inl .deadline

/-- The watcher returns `status` when its checks see `env`, one after another. -/
def Returns (l : Loop α) (env : Nat → Sight α) (status : Nat) : Prop :=
  Poll.Returns (step l) env .deadline status

end Watch
