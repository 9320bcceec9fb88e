/-!
# A pool of workers

A pool runs tasks on a number of workers. Waiting tasks start in order as soon as a worker is free;
which of the running tasks finishes next is not in the pool's hands, so it is given from outside.
Each answer goes into its task's slot, and the slots are read in order at the end.
-/

namespace TweeLint.Pool

/-- A pool at work: the tasks that wait and those that run, each with the number of its slot, and
the slots. -/
structure State (α β : Type) where
  waiting : List (Nat × α)
  running : List (Nat × α)
  slots : List (Option β)

namespace State

variable {α β : Type}

/-- The pool before its first task starts. -/
def initial (tasks : List α) : State α β :=
  ⟨tasks.zipIdx.map fun (a, i) => (i, a), [], tasks.map fun _ => none⟩

/-- Starts waiting tasks while there are free workers. -/
def start (workers : Nat) (s : State α β) : State α β :=
  let free := workers - s.running.length
  { s with waiting := s.waiting.drop free, running := s.running ++ s.waiting.take free }

/-- Finishes one running task; `choice` tells which. -/
def finish (run : α → β) (choice : Nat) (s : State α β) : State α β :=
  let k := choice % s.running.length
  match s.running[k]? with
  | none => s
  | some (slot, a) =>
    { s with running := s.running.eraseIdx k, slots := s.slots.set slot (some (run a)) }

end State

/-- The answers to all tasks, in the order of the tasks. `choices n` tells which of the running
tasks is the one that finishes as number `n`, from 0. -/
def run {α β : Type} (workers : Nat) (choices : Nat → Nat) (task : α → β) (tasks : List α) :
    List β :=
  let last := (List.range tasks.length).foldl
    (fun s n => (s.start workers).finish task (choices n)) (State.initial tasks)
  last.slots.filterMap id

end TweeLint.Pool
