import Mathlib.Data.List.Forall2
import TweeLint.Proofs.FileTree
import TweeLint.Proofs.Pool
import TweeLint.Service

/-!
# Linting several files

A batch accounts for each of the named files once: a report for each file that can be loaded, and a
failure for each other, both in the order in which the files were named (`Service.Accounts`). There
is only one such batch (`Accounts.unique`), and for two lists of files, one behind the other, it is
made of the batches of both (`Accounts.append`).

There is a batch unless the look-up of a file is refused. The first refusal in the order of the files
is then all that is left, and the reports of the others are lost (`Service.FirstRefused`).

`lintFiles_in_any_order` says that this is what linting on a pool of workers comes to, whatever the
number of workers and the order in which they are done.
-/

namespace TweeLint

open Relation

/-! ### Computations that can fail -/

section Failing

variable {ε α β : Type} {f : α → Except ε β} {a : α} {as : List α} {e : ε}

theorem map_eq_ok_iff {g : α → β} {x : Except ε α} {b : β} :
    x.map g = .ok b ↔ ∃ a, x = .ok a ∧ b = g a := by
  cases x with
  | error e => simp [Except.map]
  | ok a => simp [Except.map, eq_comm]

theorem map_eq_error_iff {g : α → β} {x : Except ε α} : x.map g = .error e ↔ x = .error e := by
  cases x with
  | error e => simp [Except.map]
  | ok a => simp [Except.map]

theorem mapM_cons_of_error (h : f a = .error e) : (a :: as).mapM f = .error e := by
  rw [List.mapM_cons, h]
  rfl

theorem mapM_cons_of_ok {b : β} (h : f a = .ok b) :
    (a :: as).mapM f = (as.mapM f).map (b :: ·) := by
  rw [List.mapM_cons, h]
  rfl

/-- **A computation for each element succeeds** with a result for each. -/
theorem mapM_eq_ok_iff {bs : List β} :
    as.mapM f = .ok bs ↔ List.Forall₂ (fun a b => f a = .ok b) as bs := by
  induction as generalizing bs with
  | nil =>
    rw [List.mapM_nil, List.forall₂_nil_left_iff]
    exact ⟨fun h => (Except.ok.inj h).symm, fun h => h ▸ rfl⟩
  | cons a as ih =>
    rw [List.forall₂_cons_left_iff]
    cases hfirst : f a with
    | error e =>
      rw [mapM_cons_of_error hfirst]
      exact iff_of_false (fun h => nomatch h) (by simp)
    | ok b =>
      simp only [mapM_cons_of_ok hfirst, map_eq_ok_iff, ih, Except.ok.injEq]
      constructor
      · rintro ⟨bs', hrest, rfl⟩
        exact ⟨b, bs', rfl, hrest, rfl⟩
      · rintro ⟨b', bs', rfl, hrest, rfl⟩
        exact ⟨bs', hrest, rfl⟩

/-- **It fails at the first element** for which it fails. -/
theorem mapM_eq_error_iff :
    as.mapM f = .error e ↔
      ∃ front a back, as = front ++ a :: back ∧ (∀ x ∈ front, ∃ b, f x = .ok b) ∧
        f a = .error e := by
  induction as with
  | nil =>
    refine iff_of_false (fun h => nomatch h) ?_
    rintro ⟨front, a, back, hnil, -⟩
    exact absurd hnil (by simp)
  | cons a as ih =>
    cases hfirst : f a with
    | error e' =>
      rw [mapM_cons_of_error hfirst, Except.error.injEq]
      constructor
      · rintro rfl
        exact ⟨[], a, as, rfl, by simp, hfirst⟩
      · rintro ⟨front, a', back, hcons, hfront, herror⟩
        cases front with
        | nil =>
          obtain ⟨rfl, -⟩ := List.cons.inj hcons
          exact Except.error.inj (hfirst.symm.trans herror)
        | cons x front =>
          obtain ⟨rfl, -⟩ := List.cons.inj hcons
          obtain ⟨b, hb⟩ := hfront a List.mem_cons_self
          exact nomatch hfirst.symm.trans hb
    | ok b =>
      rw [mapM_cons_of_ok hfirst, map_eq_error_iff, ih]
      constructor
      · rintro ⟨front, a', back, rfl, hfront, herror⟩
        exact ⟨a :: front, a', back, rfl, List.forall_mem_cons.mpr ⟨⟨b, hfirst⟩, hfront⟩, herror⟩
      · rintro ⟨front, a', back, hcons, hfront, herror⟩
        cases front with
        | nil =>
          obtain ⟨rfl, -⟩ := List.cons.inj hcons
          exact nomatch hfirst.symm.trans herror
        | cons x front =>
          obtain ⟨-, rfl⟩ := List.cons.inj hcons
          exact ⟨front, a', back, rfl, (List.forall_mem_cons.mp hfront).2, herror⟩

theorem exists_of_forall₂ {R : α → β → Prop} {bs : List β}
    (h : List.Forall₂ R as bs) : ∀ a ∈ as, ∃ b, R a b := by
  induction h with
  | nil => simp
  | cons hab _ ih => exact List.forall_mem_cons.mpr ⟨⟨_, hab⟩, ih⟩

/-- A property of all results, where each element has at most one. -/
theorem forall_mem_iff_of_forall₂ {R : α → β → Prop} (hunique : Relator.RightUnique R)
    {P : β → Prop} {bs : List β} (h : List.Forall₂ R as bs) :
    (∀ b ∈ bs, P b) ↔ ∀ a ∈ as, ∃ b, R a b ∧ P b := by
  induction h with
  | nil => simp
  | @cons a b as bs hab _ ih =>
    simp only [List.forall_mem_cons, ih]
    refine and_congr_left fun _ => ⟨fun hb => ⟨b, hab, hb⟩, ?_⟩
    rintro ⟨c, hac, hc⟩
    exact hunique hab hac ▸ hc

end Failing

/-- Whether a file can be loaded. -/
def Document.loads (limit : Int) (files : Files) (path : Path) : Bool :=
  (load limit files path).toOption.isSome

namespace Service

variable {s : Service} {files : Files} {paths more : List Path} {path : Path} {b b' : Batch}
  {r : Report}

/-! ### One file -/

theorem lintFile_of_load {text : String} (h : Document.load s.limit files path = .ok text) :
    s.lintFile files path = .ok (s.lintText path.toText text) := by
  rw [lintFile, h]
  rfl

theorem lintFile_of_load_error {e : LoadError}
    (h : Document.load s.limit files path = .error e) : s.lintFile files path = .error e := by
  rw [lintFile, h]
  rfl

theorem lintFile_eq_ok_iff :
    s.lintFile files path = .ok r ↔
      ∃ text, Document.load s.limit files path = .ok text ∧ r = s.lintText path.toText text := by
  cases h : Document.load s.limit files path with
  | ok text =>
    rw [lintFile_of_load h]
    exact ⟨fun hr => ⟨text, rfl, (Except.ok.inj hr).symm⟩,
      fun ⟨_, htext, hr⟩ => by rw [hr, Except.ok.inj htext]⟩
  | error e =>
    rw [lintFile_of_load_error h]
    exact ⟨fun hr => (nomatch hr), fun ⟨_, htext, _⟩ => (nomatch htext)⟩

theorem loads_of_lintFile (h : s.lintFile files path = .ok r) :
    Document.loads s.limit files path = true := by
  obtain ⟨text, htext, -⟩ := lintFile_eq_ok_iff.mp h
  rw [Document.loads, htext]
  rfl

theorem loads_of_load_error {e : LoadError} (h : Document.load s.limit files path = .error e) :
    Document.loads s.limit files path = false := by
  rw [Document.loads, h]
  rfl

/-- **What an attempt can come to**: a report, a failure of the document, or a refusal. -/
theorem attempt_cases (s : Service) (files : Files) (path : Path) :
    (∃ r, s.lintFile files path = .ok r ∧ s.attempt files path = .ok (path, .ok r)) ∨
    (∃ e, Document.load s.limit files path = .error (.document e) ∧
      s.attempt files path = .ok (path, .error e)) ∨
    (∃ e, Document.load s.limit files path = .error (.refused e) ∧
      s.attempt files path = .error e) := by
  cases h : Document.load s.limit files path with
  | ok text =>
    have hlint := lintFile_of_load h
    exact .inl ⟨_, hlint, by rw [attempt, hlint]⟩
  | error e =>
    have hlint := lintFile_of_load_error h
    cases e with
    | document e => exact .inr (.inl ⟨e, rfl, by rw [attempt, hlint]⟩)
    | refused e => exact .inr (.inr ⟨e, rfl, by rw [attempt, hlint]⟩)

/-- A file is not loaded because of a refusal exactly if the look-up of its path is refused. -/
theorem load_eq_refused_iff (limit : Int) {e : FileError} :
    Document.load limit files path = .error (.refused e) ↔ files.look path = .error e := by
  unfold Document.load
  split
  · next h => simp [h]
  · next h => simp [h]
  · next h => simp [h]
  · next h => simp [h]
  · next bytes h =>
    cases hdecode : Document.decode limit path bytes with
    | ok text => simp [h, Except.mapError]
    | error e => simp [h, Except.mapError]

theorem attempt_eq_error_iff {e : FileError} :
    s.attempt files path = .error e ↔ files.look path = .error e := by
  rw [← load_eq_refused_iff s.limit]
  rcases s.attempt_cases files path with ⟨r, hlint, h⟩ | ⟨e', hload, h⟩ | ⟨e', hload, h⟩
  · obtain ⟨text, htext, -⟩ := lintFile_eq_ok_iff.mp hlint
    simp [h, htext]
  · simp [h, hload]
  · simp [h, hload]

theorem exists_attempt_iff :
    (∃ a, s.attempt files path = .ok a) ↔ ∃ found, files.look path = .ok found := by
  have h : ∀ e, s.attempt files path = .error e ↔ files.look path = .error e :=
    fun _ => attempt_eq_error_iff
  cases ha : s.attempt files path with
  | ok a =>
    refine iff_of_true ⟨a, rfl⟩ ?_
    cases hlook : files.look path with
    | ok found => exact ⟨found, rfl⟩
    | error e => exact nomatch ha.symm.trans ((h e).mpr hlook)
  | error e => rw [(h e).mp ha]; simp

/-! ### Batches -/

/-- A batch accounts for files: it has the reports of those that can be loaded and the failures of
the others, both in the order of the files. -/
structure Accounts (s : Service) (files : Files) (paths : List Path) (b : Batch) : Prop where
  reports : List.Forall₂ (fun path r => s.lintFile files path = .ok r)
    (paths.filter (Document.loads s.limit files)) b.reports
  failures : List.Forall₂
    (fun path failure =>
      failure.1 = path ∧ Document.load s.limit files path = .error (.document failure.2))
    (paths.filter (! Document.loads s.limit files ·)) b.failures

/-- The outcomes of linting each file on its own, sorted. -/
theorem accounts_ofOutcomes {outcomes : List (Path × Except DocumentError Report)}
    (h : List.Forall₂ (fun path o => s.attempt files path = .ok o) paths outcomes) :
    s.Accounts files paths (.ofOutcomes outcomes) := by
  induction h with
  | nil => exact ⟨.nil, .nil⟩
  | @cons path outcome paths outcomes hattempt _ ih =>
    rcases s.attempt_cases files path with ⟨r, hlint, h⟩ | ⟨e, hload, h⟩ | ⟨e, -, h⟩
    · obtain rfl := Except.ok.inj (h.symm.trans hattempt)
      have hloads := loads_of_lintFile hlint
      constructor
      · rw [List.filter_cons_of_pos hloads]
        exact .cons hlint ih.reports
      · rw [List.filter_cons_of_neg (by simp [hloads])]
        exact ih.failures
    · obtain rfl := Except.ok.inj (h.symm.trans hattempt)
      have hloads := loads_of_load_error hload
      constructor
      · rw [List.filter_cons_of_neg (by simp [hloads])]
        exact ih.reports
      · rw [List.filter_cons_of_pos (by simp [hloads])]
        exact .cons ⟨rfl, hload⟩ ih.failures
    · exact nomatch h.symm.trans hattempt

namespace Accounts

theorem rightUnique_lintFile :
    Relator.RightUnique fun (path : Path) (r : Report) => s.lintFile files path = .ok r :=
  fun _ _ _ hr hr' => Except.ok.inj (hr.symm.trans hr')

theorem unique (h : s.Accounts files paths b) (h' : s.Accounts files paths b') : b = b' := by
  obtain ⟨reports, failures⟩ := b
  obtain ⟨reports', failures'⟩ := b'
  have hreports : reports = reports' :=
    List.right_unique_forall₂' rightUnique_lintFile h.reports h'.reports
  have hfailures : failures = failures' :=
    List.right_unique_forall₂' (fun _ _ _ hf hf' => Prod.ext (hf.1.trans hf'.1.symm)
      (LoadError.document.inj (Except.error.inj (hf.2.symm.trans hf'.2)))) h.failures h'.failures
  rw [hreports, hfailures]

theorem append (h : s.Accounts files paths b) (h' : s.Accounts files more b') :
    s.Accounts files (paths ++ more) ⟨b.reports ++ b'.reports, b.failures ++ b'.failures⟩ := by
  constructor
  · rw [List.filter_append]
    exact List.rel_append h.reports h'.reports
  · rw [List.filter_append]
    exact List.rel_append h.failures h'.failures

/-- Each file has its report or its failure. -/
theorem length_add_length (h : s.Accounts files paths b) :
    b.reports.length + b.failures.length = paths.length := by
  rw [← h.reports.length_eq, ← h.failures.length_eq, ← List.length_append]
  exact (List.filter_append_perm (Document.loads s.limit files) paths).length_eq

/-- Files that cannot be loaded do not matter to the reports. -/
theorem reports_eq (h : s.Accounts files paths b) (h' : s.Accounts files more b')
    (hloads : paths.filter (Document.loads s.limit files) =
      more.filter (Document.loads s.limit files)) :
    b.reports = b'.reports :=
  List.right_unique_forall₂' rightUnique_lintFile (hloads ▸ h.reports) h'.reports

theorem ok_iff (h : s.Accounts files paths b) :
    b.ok = true ↔ ∀ path ∈ paths, ∃ r, s.lintFile files path = .ok r ∧ r.isValid = true := by
  have hvalid := forall_mem_iff_of_forall₂ rightUnique_lintFile (P := (·.isValid = true)) h.reports
  simp only [Batch.ok, Bool.and_eq_true, List.isEmpty_iff, List.all_eq_true, hvalid]
  constructor
  · rintro ⟨hfailures, hreports⟩ path hpath
    have hnone : paths.filter (! Document.loads s.limit files ·) = [] :=
      List.forall₂_nil_right_iff.mp (hfailures ▸ h.failures)
    have hloads : Document.loads s.limit files path = true := by
      simpa using List.filter_eq_nil_iff.mp hnone path hpath
    exact hreports path (List.mem_filter.mpr ⟨hpath, hloads⟩)
  · intro hall
    have hnone : paths.filter (! Document.loads s.limit files ·) = [] := by
      refine List.filter_eq_nil_iff.mpr fun path hpath => ?_
      obtain ⟨r, hr, -⟩ := hall path hpath
      simp [loads_of_lintFile hr]
    exact ⟨List.forall₂_nil_left_iff.mp (hnone ▸ h.failures),
      fun path hpath => hall path (List.mem_filter.mp hpath).1⟩

end Accounts

/-! ### Refusals -/

/-- The first of the files whose look-up is refused, with the refusal. -/
def FirstRefused (files : Files) (paths : List Path) (e : FileError) : Prop :=
  ∃ front path back, paths = front ++ path :: back ∧
    (∀ p ∈ front, ∃ found, files.look p = .ok found) ∧ files.look path = .error e

theorem FirstRefused.ne_nil {e : FileError} (h : FirstRefused files paths e) : paths ≠ [] := by
  obtain ⟨front, path, back, rfl, -⟩ := h
  exact List.append_ne_nil_of_right_ne_nil front (List.cons_ne_nil path back)

theorem FirstRefused.not_forall {e : FileError} (h : FirstRefused files paths e) :
    ¬ ∀ path ∈ paths, ∃ found, files.look path = .ok found := by
  obtain ⟨front, path, back, rfl, -, hrefused⟩ := h
  intro hall
  obtain ⟨found, hfound⟩ := hall path List.mem_append_cons_self
  exact nomatch hfound.symm.trans hrefused

theorem ofAttempts_map (s : Service) (files : Files) (paths : List Path) :
    Batch.ofAttempts (paths.map (s.attempt files)) =
      (paths.mapM (s.attempt files)).map Batch.ofOutcomes := by
  rw [Batch.ofAttempts, List.mapM_map, Function.id_comp]

theorem ofAttempts_eq_ok_iff :
    Batch.ofAttempts (paths.map (s.attempt files)) = .ok b ↔
      ∃ outcomes, List.Forall₂ (fun path o => s.attempt files path = .ok o) paths outcomes ∧
        b = .ofOutcomes outcomes := by
  simp only [ofAttempts_map, map_eq_ok_iff, mapM_eq_ok_iff]

/-- **The first refusal** takes the place of a batch. -/
theorem ofAttempts_eq_error_iff {e : FileError} :
    Batch.ofAttempts (paths.map (s.attempt files)) = .error e ↔ FirstRefused files paths e := by
  simp only [ofAttempts_map, map_eq_error_iff, mapM_eq_error_iff, FirstRefused, exists_attempt_iff,
    attempt_eq_error_iff]

/-- **There is a batch** if no look-up is refused, and only then. -/
theorem exists_ofAttempts_iff :
    (∃ b, Batch.ofAttempts (paths.map (s.attempt files)) = .ok b) ↔
      ∀ path ∈ paths, ∃ found, files.look path = .ok found := by
  constructor
  · rintro ⟨b, hb⟩ path hpath
    obtain ⟨outcomes, houtcomes, -⟩ := ofAttempts_eq_ok_iff.mp hb
    exact exists_attempt_iff.mp (exists_of_forall₂ houtcomes path hpath)
  · intro hall
    cases h : Batch.ofAttempts (paths.map (s.attempt files)) with
    | ok b => exact ⟨b, rfl⟩
    | error e => exact absurd hall (ofAttempts_eq_error_iff.mp h).not_forall

theorem accounts_of_ofAttempts (h : Batch.ofAttempts (paths.map (s.attempt files)) = .ok b) :
    s.Accounts files paths b := by
  obtain ⟨outcomes, houtcomes, rfl⟩ := ofAttempts_eq_ok_iff.mp h
  exact accounts_ofOutcomes houtcomes

/-! ### Any order -/

/-- The next event in the pool that lints several files: a file is taken on or done with. -/
def Event (s : Service) (files : Files) (paths : List Path) :
    (st st' : Pool.State Path (Except FileError (Path × Except DocumentError Report))) → Prop :=
  Pool.State.Step (s.poolSize paths.length) (s.attempt files)

/-- What the pool can come to, one event after the other. -/
def Reaches (s : Service) (files : Files) (paths : List Path) :
    Pool.State Path (Except FileError (Path × Except DocumentError Report)) → Prop :=
  ReflTransGen (s.Event files paths) (.initial paths)

/-- What the pool can end with: a batch of reports and failures, or a refusal. -/
def EndsWith (s : Service) (files : Files) (paths : List Path) (result : Except FileError Batch) :
    Prop :=
  ∃ last, s.Reaches files paths last ∧ last.Idle ∧
    result = Batch.ofAttempts (last.slots.filterMap id)

variable {result : Except FileError Batch}

theorem poolSize_pos (s : Service) (paths : List Path) :
    paths = [] ∨ 0 < s.poolSize paths.length := by
  cases paths with
  | nil => exact .inl rfl
  | cons path rest =>
    refine .inr ?_
    simp only [poolSize, List.length_cons]
    omega

/-- All orders end alike. -/
theorem EndsWith.eq (h : s.EndsWith files paths result) :
    result = Batch.ofAttempts (paths.map (s.attempt files)) := by
  obtain ⟨last, hreaches, hidle, rfl⟩ := h
  rw [Pool.State.answers_of_idle hreaches hidle]

theorem EndsWith.accounts (h : s.EndsWith files paths (.ok b)) : s.Accounts files paths b :=
  accounts_of_ofAttempts h.eq.symm

theorem endsWith_lintFiles (s : Service) (files : Files) (paths : List Path)
    (choices : Nat → Nat) : s.EndsWith files paths (s.lintFiles files choices paths) := by
  obtain ⟨last, hsteps, hidle, hrun⟩ := Pool.exists_run (s.poolSize_pos paths) choices
  exact ⟨last, hsteps, hidle, congrArg Batch.ofAttempts hrun⟩

theorem lintFiles_eq_ofAttempts (s : Service) (files : Files) (paths : List Path)
    (choices : Nat → Nat) :
    s.lintFiles files choices paths = Batch.ofAttempts (paths.map (s.attempt files)) := by
  rw [lintFiles, Pool.run_eq_map (s.poolSize_pos paths) choices]

theorem endsWith_iff :
    s.EndsWith files paths result ↔
      result = Batch.ofAttempts (paths.map (s.attempt files)) := by
  refine ⟨EndsWith.eq, fun h => ?_⟩
  have hends := s.endsWith_lintFiles files paths fun _ => 0
  rwa [lintFiles_eq_ofAttempts, ← h] at hends

/-- A pool that is not done goes on. -/
theorem Reaches.exists_step
    {st : Pool.State Path (Except FileError (Path × Except DocumentError Report))}
    (h : s.Reaches files paths st) (hidle : ¬ st.Idle) :
    ∃ st', s.Event files paths st st' := by
  rcases s.poolSize_pos paths with rfl | hpos
  · exact absurd (Pool.State.idle_of_steps_nil h) hidle
  · exact Pool.State.exists_step hpos hidle

theorem endsWith_error_iff {e : FileError} :
    s.EndsWith files paths (.error e) ↔ FirstRefused files paths e := by
  rw [endsWith_iff, eq_comm, ofAttempts_eq_error_iff]

theorem exists_endsWith_ok_iff :
    (∃ b, s.EndsWith files paths (.ok b)) ↔
      ∀ path ∈ paths, ∃ found, files.look path = .ok found := by
  simp only [endsWith_iff, eq_comm (a := Except.ok _)]
  exact exists_ofAttempts_iff

/-- Where no look-up is refused, whatever the pool ends with is a batch. -/
theorem EndsWith.exists_batch (h : s.EndsWith files paths result)
    (hall : ∀ path ∈ paths, ∃ found, files.look path = .ok found) : ∃ b, result = .ok b := by
  obtain ⟨b, hb⟩ := exists_endsWith_ok_iff.mpr hall
  exact ⟨b, h.eq.trans hb.eq.symm⟩

/-- **Linting several files loses, duplicates and reorders nothing unless a look-up is refused**, in
whatever order the tasks of the pool start and finish. No order gets stuck or goes on for ever. If
the look-up of a file is refused, each order ends with the first of the refusals and with nothing
else. Otherwise each ends with the reports of the files that can be loaded and the failures of the
others, in the order of the files. -/
theorem lintFiles_in_any_order (s : Service) (files : Files) (paths : List Path) :
    (∀ choices, s.EndsWith files paths (s.lintFiles files choices paths)) ∧
    (∀ st, s.Reaches files paths st →
      (¬ st.Idle → ∃ st', s.Event files paths st st') ∧
      ∀ st', s.Event files paths st st' → st'.left < st.left) ∧
    (∀ e, s.EndsWith files paths (.error e) ↔ FirstRefused files paths e) ∧
    ((∃ b, s.EndsWith files paths (.ok b)) ↔
      ∀ path ∈ paths, ∃ found, files.look path = .ok found) ∧
    ∀ b, s.EndsWith files paths (.ok b) →
      List.Forall₂ (fun path r => s.lintFile files path = .ok r)
        (paths.filter (Document.loads s.limit files)) b.reports ∧
      List.Forall₂ (fun path failure =>
          failure.1 = path ∧ Document.load s.limit files path = .error (.document failure.2))
        (paths.filter (! Document.loads s.limit files ·)) b.failures ∧
      b.reports.length + b.failures.length = paths.length ∧
      (b.ok = true ↔ ∀ path ∈ paths, ∃ r, s.lintFile files path = .ok r ∧ r.isValid = true) ∧
      (∀ front path back result, paths = front ++ path :: back →
        Document.loads s.limit files path = false →
        s.EndsWith files (front ++ back) result →
        ∃ b', result = .ok b' ∧ b.reports = b'.reports) ∧
      ∀ more b' result, s.EndsWith files more (.ok b') →
        s.EndsWith files (paths ++ more) result →
        result = .ok ⟨b.reports ++ b'.reports, b.failures ++ b'.failures⟩ := by
  refine ⟨s.endsWith_lintFiles files paths, fun st hst => ⟨hst.exists_step, fun st' hstep => ?_⟩,
    fun e => endsWith_error_iff, exists_endsWith_ok_iff, fun b hb => ?_⟩
  · rw [Pool.State.left_step hstep]
    exact Nat.lt_succ_self _
  · have haccounts := hb.accounts
    have hlook := exists_endsWith_ok_iff.mp ⟨b, hb⟩
    refine ⟨haccounts.reports, haccounts.failures, haccounts.length_add_length, haccounts.ok_iff,
      fun front path back result hpaths hpath hresult => ?_,
      fun more b' result hb' hresult => ?_⟩
    · subst hpaths
      obtain ⟨b', rfl⟩ := hresult.exists_batch fun p hp => hlook p (by
        rcases List.mem_append.mp hp with hp | hp
        · exact List.mem_append_left _ hp
        · exact List.mem_append_right _ (List.mem_cons_of_mem _ hp))
      refine ⟨b', rfl, haccounts.reports_eq hresult.accounts ?_⟩
      rw [List.filter_append, List.filter_append, List.filter_cons_of_neg (by simp [hpath])]
    · have hlook' := exists_endsWith_ok_iff.mp ⟨b', hb'⟩
      obtain ⟨b'', rfl⟩ := hresult.exists_batch fun p hp =>
        (List.mem_append.mp hp).elim (hlook p) (hlook' p)
      exact congrArg Except.ok (hresult.accounts.unique (haccounts.append hb'.accounts))

/-- A file with a parenthesis left open and a path to nothing, which is done first; and a name that
is too long behind both. -/
theorem lintFiles_in_any_order_second_first :
    let a : Path := ⟨"", ["a.tw"]⟩
    let missing : Path := ⟨"", ["b.tw"]⟩
    let long : Path := ⟨"", [String.ofList (List.replicate 256 'c')]⟩
    let files := Files.ofTree (.directory [("a.tw", .file (Text.Utf8.encode "::A
(".toList))])
    let s : Service := ⟨.empty, 5, 2⟩
    let b : Batch := ⟨[⟨"a.tw", 1, [.unclosed "A" ⟨2, 1⟩]⟩], [(missing, .notFound missing)]⟩
    (s.EndsWith files [a, missing] (.ok b) ∧ Document.loads s.limit files missing = false) ∧
      b.reports.length + b.failures.length = 2 ∧
      s.lintFiles files (fun _ => 0) [a] = .ok ⟨b.reports, []⟩ ∧
      s.lintFiles files (fun _ => 1) [a, missing, a] =
        .ok ⟨b.reports ++ b.reports, b.failures⟩ ∧
      FirstRefused files [a, missing, long] ⟨.nameTooLong, long⟩ ∧
      s.EndsWith files [a, missing, long] (.error ⟨.nameTooLong, long⟩) := by
  intro a missing long files s b
  have hload : Document.load s.limit files a = .ok "::A
(" := rfl
  have hreport : s.lintText a.toText "::A
(" = ⟨"a.tw", 1, [.unclosed "A" ⟨2, 1⟩]⟩ := by decide
  have ha : s.lintFile files a = .ok ⟨"a.tw", 1, [.unclosed "A" ⟨2, 1⟩]⟩ := by
    rw [lintFile_of_load hload, hreport]
  have hmissing : Document.load s.limit files missing = .error (.document (.notFound missing)) :=
    rfl
  have hloads : Document.loads s.limit files missing = false := loads_of_load_error hmissing
  have hattempt : s.attempt files a = .ok (a, .ok ⟨"a.tw", 1, [.unclosed "A" ⟨2, 1⟩]⟩) := by
    rw [attempt, ha]
  have hattempt' : s.attempt files missing = .ok (missing, .error (.notFound missing)) := by
    rw [attempt, lintFile_of_load_error hmissing]
  have hstart : s.Event files [a, missing] (.initial [a, missing])
      ⟨[(1, missing)], [(0, a)], [none, none]⟩ :=
    .start [] [(1, missing)] [] [none, none] 0 a (by decide)
  have hstart' : s.Event files [a, missing] ⟨[(1, missing)], [(0, a)], [none, none]⟩
      ⟨[], [(0, a), (1, missing)], [none, none]⟩ :=
    .start [] [] [(0, a)] [none, none] 1 missing (by decide)
  have hfinish : s.Event files [a, missing] ⟨[], [(0, a), (1, missing)], [none, none]⟩
      ⟨[], [(0, a)], [none, some (s.attempt files missing)]⟩ :=
    .finish [] [(0, a)] [] [none, none] 1 missing
  have hfinish' : s.Event files [a, missing]
      ⟨[], [(0, a)], [none, some (s.attempt files missing)]⟩
      ⟨[], [], [some (s.attempt files a), some (s.attempt files missing)]⟩ :=
    .finish [] [] [] [none, some (s.attempt files missing)] 0 a
  have hends : s.EndsWith files [a, missing] (.ok b) := by
    refine ⟨_, (((ReflTransGen.single hstart).tail hstart').tail hfinish).tail hfinish', ⟨rfl, rfl⟩,
      ?_⟩
    rw [hattempt, hattempt']
    rfl
  obtain ⟨-, -, hcount, -, hothers, happend⟩ :=
    (lintFiles_in_any_order s files [a, missing]).2.2.2.2 b hends
  have hlints := (lintFiles_in_any_order s files [a]).1 fun _ => 0
  have hone : s.lintFiles files (fun _ => 0) [a] = .ok ⟨b.reports, []⟩ := by
    rw [hlints.eq]
    show Batch.ofAttempts [s.attempt files a] = _
    rw [hattempt]
    rfl
  rw [hone] at hlints
  have hrefused : FirstRefused files [a, missing, long] ⟨.nameTooLong, long⟩ := by
    refine ⟨[a, missing], long, [], rfl, ?_, ?_⟩
    · exact List.forall_mem_cons.mpr ⟨⟨_, rfl⟩, List.forall_mem_singleton.mpr ⟨_, rfl⟩⟩
    · exact FileTree.look_of_longName (by decide)
        (Nat.lt_of_lt_of_le (by decide +kernel) (FileTree.length_le_utf8ByteSize _))
  exact ⟨⟨hends, hloads⟩, hcount, hone,
    happend [a] _ _ hlints ((lintFiles_in_any_order s files ([a, missing] ++ [a])).1 fun _ => 1),
    hrefused, ((lintFiles_in_any_order s files [a, missing, long]).2.2.1 _).mpr hrefused⟩

/-- A name that is too long takes the report of another file with it, in every order, though that
file can be linted and the path of the long name is one of those that were named. -/
theorem lintFiles_loses_report :
    let good : Path := ⟨"", ["good.tw"]⟩
    let long : Path := ⟨"", [String.ofList (List.replicate 300 'a' ++ ".tw".toList)]⟩
    let tree := FileTree.directory [("good.tw", .file (Text.Utf8.encode "::A".toList))]
    let files := (Files.ofTree tree).bounded
    let s : Service := ⟨.empty, 5000000, 4⟩
    s.lintFile files good = .ok ⟨"good.tw", 1, []⟩ ∧
      Document.loads s.limit files long = false ∧
      ∀ result, s.EndsWith files [good, long] result → result = .error ⟨.nameTooLong, long⟩ := by
  intro good long tree files s
  have hgood : files.look good = .ok (some (.file (Text.Utf8.encode "::A".toList))) := by
    rw [Files.look_bounded (by decide) (by decide)]
    rfl
  have hload : Document.load s.limit files good = .ok "::A" := by
    rw [Document.load, hgood]
    rfl
  have hreport : s.lintText good.toText "::A" = ⟨"good.tw", 1, []⟩ := by decide
  have hlook : files.look long = .error ⟨.nameTooLong, long⟩ :=
    FileTree.look_bounded_of_longName (by decide) (by decide +kernel) (by decide +kernel)
      (by decide +kernel)
  have hrefused : FirstRefused files [good, long] ⟨.nameTooLong, long⟩ :=
    ⟨[good], long, [], rfl, List.forall_mem_singleton.mpr ⟨_, hgood⟩, hlook⟩
  refine ⟨by rw [lintFile_of_load hload, hreport],
    loads_of_load_error ((load_eq_refused_iff _).mpr hlook), fun result hresult => ?_⟩
  exact hresult.eq.trans (endsWith_error_iff.mpr hrefused).eq.symm

end Service

end TweeLint
