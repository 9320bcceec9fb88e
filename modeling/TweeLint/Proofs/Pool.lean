import Mathlib.Logic.Relation
import TweeLint.Pool

/-!
# Pools in any order

What can happen in a pool of workers is said one event at a time (`State.Step`): a waiting task
starts, any of them, as long as a worker is free, or a running task finishes, any of them. Whatever
the order of events, a slot holds the answer to its own task or nothing yet (`Sound.step`), so when
nothing waits and nothing runs the slots hold all answers in the order of the tasks
(`slots_of_idle`). Each event is one of two for each task (`left_step`), and with a worker there is
always a next one (`exists_step`), so no order goes on for ever or gets stuck.

`Pool.run` is one of these orders (`exists_run`), hence its answers are those of a `map`
(`run_eq_map`).
-/

namespace TweeLint.Pool

open Relation

namespace State

variable {α β : Type} {workers : Nat} {task : α → β} {tasks : List α} {s s' : State α β}

/-! ### Events -/

/-- The next event in a pool: a waiting task starts while a worker is free, or a running task
finishes. -/
inductive Step (workers : Nat) (task : α → β) : State α β → State α β → Prop where
  | start (before after running : List (Nat × α)) (slots : List (Option β)) (slot : Nat) (a : α)
      (free : running.length < workers) :
      Step workers task ⟨before ++ (slot, a) :: after, running, slots⟩
        ⟨before ++ after, running ++ [(slot, a)], slots⟩
  | finish (waiting before after : List (Nat × α)) (slots : List (Option β)) (slot : Nat) (a : α) :
      Step workers task ⟨waiting, before ++ (slot, a) :: after, slots⟩
        ⟨waiting, before ++ after, slots.set slot (some (task a))⟩

/-- Events one after the other. -/
abbrev Steps (workers : Nat) (task : α → β) : State α β → State α β → Prop :=
  ReflTransGen (Step workers task)

/-- Nothing waits and nothing runs. -/
def Idle (s : State α β) : Prop :=
  s.waiting = [] ∧ s.running = []

/-- The tasks that are not done. -/
def pending (s : State α β) : List (Nat × α) :=
  s.waiting ++ s.running

/-- How many events are left: a start and an end for each waiting task, an end for each running
one. -/
def left (s : State α β) : Nat :=
  2 * s.waiting.length + s.running.length

theorem left_step (h : Step workers task s s') : s.left = s'.left + 1 := by
  cases h with
  | start =>
    simp only [left, List.length_append, List.length_cons, List.length_nil]
    omega
  | finish =>
    simp only [left, List.length_append, List.length_cons]
    omega

/-- No task waits for ever: if there is a worker, something can happen until nothing is left. -/
theorem exists_step (hworkers : 0 < workers) (h : ¬ s.Idle) : ∃ s', Step workers task s s' := by
  obtain ⟨waiting, running, slots⟩ := s
  cases running with
  | cons next rest => exact ⟨_, .finish waiting [] rest slots next.1 next.2⟩
  | nil =>
    cases waiting with
    | nil => exact absurd ⟨rfl, rfl⟩ h
    | cons next rest => exact ⟨_, .start [] rest [] slots next.1 next.2 hworkers⟩

/-! ### What the slots hold -/

/-- Every task that is not done belongs to its slot, and every slot without a task that is not done
holds the answer to its own task. -/
structure Sound (task : α → β) (tasks : List α) (s : State α β) : Prop where
  length : s.slots.length = tasks.length
  pending : ∀ i a, (i, a) ∈ s.pending → tasks[i]? = some a
  done : ∀ i a, tasks[i]? = some a → (i, a) ∈ s.pending ∨ s.slots[i]? = some (some (task a))

/-- At first no task is done. -/
theorem mem_pending_initial {i : Nat} {a : α} :
    (i, a) ∈ (initial tasks : State α β).pending ↔ tasks[i]? = some a := by
  simp only [pending, initial, List.append_nil, List.mem_map, Prod.exists,
    List.mem_zipIdx_iff_getElem?, Prod.mk.injEq]
  constructor
  · rintro ⟨b, j, hget, rfl, rfl⟩
    exact hget
  · exact fun hget => ⟨a, i, hget, rfl, rfl⟩

theorem Sound.initial : Sound task tasks (State.initial tasks) :=
  ⟨by simp [State.initial], fun _ _ => mem_pending_initial.mp,
    fun _ _ h => .inl (mem_pending_initial.mpr h)⟩

/-- **Every event keeps the slots sound.** -/
theorem Sound.step (h : Sound task tasks s) (hstep : Step workers task s s') :
    Sound task tasks s' := by
  cases hstep with
  | start before after running slots slot a free =>
    -- the same tasks are pending as before
    have hperm : ∀ p, p ∈ (⟨before ++ after, running ++ [(slot, a)], slots⟩ : State α β).pending ↔
        p ∈ (⟨before ++ (slot, a) :: after, running, slots⟩ : State α β).pending := by
      intro p
      simp only [State.pending, List.mem_append, List.mem_cons, List.not_mem_nil, or_false]
      grind
    exact ⟨h.length, fun i b hb => h.pending i b ((hperm _).mp hb),
      fun i b hb => (h.done i b hb).imp_left (hperm _).mpr⟩
  | finish waiting before after slots slot a =>
    have hslot : tasks[slot]? = some a := h.pending slot a (by simp [State.pending])
    refine ⟨by simpa using h.length, fun i b hb => h.pending i b ?_, fun i b hb => ?_⟩
    · simp only [State.pending, List.mem_append, List.mem_cons] at hb ⊢
      grind
    · by_cases hi : slot = i
      · subst hi
        obtain rfl : a = b := Option.some.inj (hslot.symm.trans hb)
        have hlt : slot < slots.length := by
          rw [h.length]
          exact (List.getElem?_eq_some_iff.mp hslot).1
        exact .inr (List.getElem?_set_self hlt)
      · rw [List.getElem?_set_ne hi]
        refine (h.done i b hb).imp_left fun hmem => ?_
        have hne : (i, b) ≠ (slot, a) := fun heq => hi (congrArg Prod.fst heq).symm
        simp only [State.pending, List.mem_append, List.mem_cons] at hmem ⊢
        grind

theorem Sound.steps (h : Sound task tasks s) (hsteps : Steps workers task s s') :
    Sound task tasks s' := by
  induction hsteps with
  | refl => exact h
  | tail _ hstep ih => exact ih.step hstep

/-- **In the end the slots hold all answers**, each in the slot of its task. -/
theorem slots_of_idle (hsteps : Steps workers task (State.initial tasks) s) (hidle : s.Idle) :
    s.slots = tasks.map fun a => some (task a) := by
  have hsound : Sound task tasks s := Sound.initial.steps hsteps
  have hpending : s.pending = [] := by rw [State.pending, hidle.1, hidle.2, List.append_nil]
  refine List.ext_getElem? fun i => ?_
  rw [List.getElem?_map]
  cases hget : tasks[i]? with
  | none =>
    rw [Option.map_none, List.getElem?_eq_none_iff, hsound.length]
    exact List.getElem?_eq_none_iff.mp hget
  | some a =>
    rcases hsound.done i a hget with hmem | hslot
    · rw [hpending] at hmem
      exact absurd hmem List.not_mem_nil
    · exact hslot

/-- The answers that a pool gives in the end. -/
theorem answers_of_idle (hsteps : Steps workers task (State.initial tasks) s) (hidle : s.Idle) :
    s.slots.filterMap id = tasks.map task := by
  rw [slots_of_idle hsteps hidle]
  induction tasks with
  | nil => rfl
  | cons a tasks ih => simp [List.filterMap_map]

theorem idle_of_steps_nil (hsteps : Steps workers task (State.initial []) s) : s.Idle := by
  have hsound : Sound task [] s := Sound.initial.steps hsteps
  refine List.append_eq_nil_iff.mp (List.eq_nil_iff_forall_not_mem.mpr fun p hp => ?_)
  exact nomatch hsound.pending p.1 p.2 hp

/-! ### One of the orders -/

/-- Waiting tasks start one after the other. -/
theorem steps_start (s : State α β) : Steps workers task s (s.start workers) := by
  have hfirst : ∀ (k : Nat) (s : State α β), s.running.length + k ≤ workers →
      Steps workers task s
        { s with waiting := s.waiting.drop k, running := s.running ++ s.waiting.take k } := by
    intro k
    induction k with
    | zero =>
      intro s _
      simpa using ReflTransGen.refl
    | succ k ih =>
      intro s hfree
      obtain ⟨waiting, running, slots⟩ := s
      cases waiting with
      | nil => simpa using ReflTransGen.refl
      | cons next rest =>
        obtain ⟨slot, a⟩ := next
        have hstep : Step workers task ⟨(slot, a) :: rest, running, slots⟩
            ⟨rest, running ++ [(slot, a)], slots⟩ :=
          .start [] rest running slots slot a (by simp only at hfree; omega)
        have hrest := ih ⟨rest, running ++ [(slot, a)], slots⟩ (by
          simp only [List.length_append, List.length_cons, List.length_nil] at hfree ⊢
          omega)
        simpa using ReflTransGen.head hstep hrest
  by_cases hfull : workers ≤ s.running.length
  · rw [start, Nat.sub_eq_zero_of_le hfull]
    simpa using ReflTransGen.refl
  · exact hfirst _ s (by omega)

/-- One more task is done, and nothing else happens. -/
theorem steps_finish (choice : Nat) (s : State α β) :
    Steps workers task s (s.finish task choice) := by
  obtain ⟨waiting, running, slots⟩ := s
  simp only [finish]
  split
  · exact .refl
  · next slot a hget =>
    obtain ⟨hlt, hrunning⟩ := List.getElem?_eq_some_iff.mp hget
    have hsplit : running = running.take (choice % running.length) ++
        (slot, a) :: running.drop (choice % running.length + 1) := by
      rw [← hrunning, ← List.drop_eq_getElem_cons hlt, List.take_append_drop]
    have hstep : Step workers task _ _ :=
      .finish waiting (running.take (choice % running.length))
        (running.drop (choice % running.length + 1)) slots slot a
    rw [← hsplit, ← List.eraseIdx_eq_take_drop_succ] at hstep
    exact ReflTransGen.single hstep

theorem length_pending_start (s : State α β) :
    (s.start workers).pending.length = s.pending.length := by
  simp only [pending, start, List.length_append, List.length_drop, List.length_take]
  omega

/-- Behind a start a task runs, unless all are done. -/
theorem running_start_ne_nil (hworkers : 0 < workers) (h : s.pending ≠ []) :
    (s.start workers).running ≠ [] := by
  obtain ⟨waiting, running, slots⟩ := s
  cases running with
  | cons next rest => simp [start]
  | nil =>
    have hwaiting : waiting ≠ [] := by simpa [pending] using h
    simp [start, hwaiting, Nat.ne_of_gt hworkers]

theorem length_pending_finish (choice : Nat) (h : s.running ≠ []) :
    (s.finish task choice).pending.length = s.pending.length - 1 := by
  have hpos : 0 < s.running.length := List.length_pos_iff.mpr h
  have hlt : choice % s.running.length < s.running.length := Nat.mod_lt _ hpos
  simp only [finish, List.getElem?_eq_getElem hlt, pending, List.length_append,
    List.length_eraseIdx_of_lt hlt]
  omega

/-- Of the tasks that are not done one less is left. -/
theorem length_pending_finish_start (hworkers : 0 < workers) (choice : Nat) (s : State α β) :
    ((s.start workers).finish task choice).pending.length = s.pending.length - 1 := by
  by_cases hdone : s.pending = []
  · have hstart : (s.start workers).pending = [] :=
      List.length_eq_zero_iff.mp (by rw [length_pending_start, hdone]; rfl)
    have hrunning : (s.start workers).running = [] := (List.append_eq_nil_iff.mp hstart).2
    have hfinish : (s.start workers).finish task choice = s.start workers := by
      simp [finish, hrunning]
    rw [hfinish, hstart, hdone]
    rfl
  · rw [length_pending_finish choice (running_start_ne_nil hworkers hdone), length_pending_start]

section Run

variable (choices : Nat → Nat) (ns : List Nat)

theorem steps_foldl (s : State α β) :
    Steps workers task s
      (ns.foldl (fun s n => (s.start workers).finish task (choices n)) s) := by
  induction ns generalizing s with
  | nil => exact .refl
  | cons n ns ih => exact (steps_start s).trans ((steps_finish _ _).trans (ih _))

theorem length_pending_foldl (hworkers : 0 < workers) (s : State α β) :
    (ns.foldl (fun s n => (s.start workers).finish task (choices n)) s).pending.length =
      s.pending.length - ns.length := by
  induction ns generalizing s with
  | nil => rfl
  | cons n ns ih =>
    rw [List.foldl_cons, ih, length_pending_finish_start hworkers, List.length_cons]
    omega

end Run

end State

open State

variable {α β : Type} {workers : Nat} {task : α → β} {tasks : List α}

/-- **A run is one of the orders** in which all tasks are done. -/
theorem exists_run (hworkers : tasks = [] ∨ 0 < workers) (choices : Nat → Nat) :
    ∃ last, Steps workers task (State.initial tasks) last ∧ last.Idle ∧
      run workers choices task tasks = last.slots.filterMap id := by
  rcases hworkers with rfl | hworkers
  · exact ⟨State.initial [], .refl, ⟨rfl, rfl⟩, rfl⟩
  · refine ⟨_, steps_foldl choices (List.range tasks.length) _, ?_, rfl⟩
    refine List.append_eq_nil_iff.mp (List.length_eq_zero_iff.mp ?_)
    have hinitial : (State.initial tasks : State α β).pending.length = tasks.length := by
      simp [State.pending, State.initial]
    exact (length_pending_foldl choices _ hworkers _).trans (by simp [hinitial])

/-- **The answers of a run** do not depend on the order in which the tasks are done. -/
theorem run_eq_map (hworkers : tasks = [] ∨ 0 < workers) (choices : Nat → Nat) :
    run workers choices task tasks = tasks.map task := by
  obtain ⟨last, hsteps, hidle, hrun⟩ := exists_run hworkers choices
  rw [hrun, answers_of_idle hsteps hidle]

end TweeLint.Pool
