import TweeLint.CommandLine
import TweeLint.Proofs.Batch
import TweeLint.Proofs.Path

/-!
# What the exit code says

A run over a path takes one of five courses (`Course`): there is nothing to lint, since the path
leads nowhere or to a file of another kind; it leads to a directory without documents; there are
documents but no vocabulary; all documents are linted; or the run breaks off, since a look-up is
refused or the path of the manual cannot be one (`BreaksOff`). `lintTarget_course` says which, with
all that is printed, and `run_exit_iff` reads off it when there is an exit code at all, when it is
0, 1 or 2, and what is on the two outputs. Neither the number of documents that are linted at a time
nor the order in which they are done is seen from outside.
-/

namespace TweeLint.CommandLine

variable {files : Files} {target : Path} {docs docs' : List Path} {v : Vocabulary}
  {settings : Settings} {options : Options} {outcome : Outcome} {limit : Int} {manual : Option Path}
  {refusal : FileError} {runError : RunError}

/-! ### Documents -/

/-- The documents at a path: a Twee file itself, or what is found in a directory, in the order in
which it is found. -/
inductive Collected (files : Files) (target : Path) : List Path → Prop where
  | file {node : FileTree} (file : files.find target = .ok node) (isFile : node.isFile = true)
      (twee : target.isTwee = true) : Collected files target [target]
  | directory {entries : List (String × FileTree)} {docs : List Path}
      (directory : files.find target = .ok (.directory entries))
      (found : Document.discover files target = .ok docs) : Collected files target docs

/-- A path at which no document can be. -/
inductive Unfit (files : Files) (target : Path) : Prop where
  | missing (missing : files.look target = .ok none)
  | other {node : FileTree} (file : files.find target = .ok node) (isFile : node.isFile = true)
      (other : target.isTwee = false)

/-- A directory without Twee files below it. -/
def NoneBelow (files : Files) (target : Path) : Prop :=
  ∃ entries, files.find target = .ok (.directory entries) ∧
    ∀ names ∈ (FileTree.directory entries).filesBelow, (target.join names).isTwee = false

theorem documents_of_file {node : FileTree} (hfind : files.find target = .ok node)
    (hfile : node.isFile = true) :
    documents files target =
      if target.isTwee then .ok [target] else .error (.document (.unsupported target)) := by
  rw [documents, Files.look_of_find hfind]
  cases node with
  | file _ | locked _ => rfl
  | directory _ => cases hfile

theorem documents_of_directory {entries : List (String × FileTree)}
    (hfind : files.find target = .ok (.directory entries)) :
    documents files target = .ok (Document.tweeFilesBelow target (.directory entries)) := by
  rw [documents, Files.look_of_find hfind]

theorem discover_of_directory {entries : List (String × FileTree)}
    (hfind : files.find target = .ok (.directory entries)) :
    Document.discover files target =
      .ok (Document.tweeFilesBelow target (.directory entries)) := by
  rw [Document.discover, Files.look_of_find hfind]

/-- **What a path stands for**: documents, nothing to lint, or a refusal. -/
theorem documents_cases (files : Files) (target : Path) :
    (∃ docs, Collected files target docs ∧ documents files target = .ok docs) ∨
    (∃ e, Unfit files target ∧ documents files target = .error (.document e)) ∨
    (∃ e, files.look target = .error e ∧ documents files target = .error (.refused e)) := by
  cases hlook : files.look target with
  | error e => exact .inr (.inr ⟨e, rfl, by rw [documents, hlook]⟩)
  | ok found =>
    cases found with
    | none => exact .inr (.inl ⟨_, .missing hlook, by rw [documents, hlook]⟩)
    | some node =>
      have hfind := Files.find_of_look hlook
      cases hfile : node.isFile with
      | true =>
        have hdocuments := documents_of_file hfind hfile
        cases htwee : target.isTwee with
        | true => exact .inl ⟨_, .file hfind hfile htwee, by simp [hdocuments, htwee]⟩
        | false => exact .inr (.inl ⟨_, .other hfind hfile htwee, by simp [hdocuments, htwee]; rfl⟩)
      | false =>
        cases node with
        | file _ | locked _ => cases hfile
        | directory entries =>
          exact .inl ⟨_, .directory hfind (discover_of_directory hfind),
            documents_of_directory hfind⟩

theorem documents_of_collected (h : Collected files target docs) :
    documents files target = .ok docs := by
  cases h with
  | file hfind hfile htwee => rw [documents_of_file hfind hfile, if_pos htwee]
  | directory hfind hfound =>
    rw [documents_of_directory hfind, ← hfound, discover_of_directory hfind]

theorem unfit_of_documents_error {e : DocumentError}
    (h : documents files target = .error (.document e)) : Unfit files target := by
  rcases documents_cases files target with ⟨docs', -, h'⟩ | ⟨e', hunfit, -⟩ | ⟨e', -, h'⟩
  · exact nomatch h'.symm.trans h
  · exact hunfit
  · exact nomatch h'.symm.trans h

theorem documents_of_refused (h : files.look target = .error refusal) :
    documents files target = .error (.refused refusal) := by
  rw [documents, h]

theorem Collected.unique (h : Collected files target docs) (h' : Collected files target docs') :
    docs = docs' :=
  Except.ok.inj ((documents_of_collected h).symm.trans (documents_of_collected h'))

theorem Unfit.exists_documents_error (h : Unfit files target) :
    ∃ e, documents files target = .error (.document e) := by
  cases h with
  | missing hlook => exact ⟨_, by rw [documents, hlook]⟩
  | other hfind hfile hother =>
    exact ⟨.unsupported target, by simp [documents_of_file hfind hfile, hother]⟩

theorem Collected.not_unfit (h : Collected files target docs) : ¬ Unfit files target := by
  intro hunfit
  obtain ⟨e, he⟩ := hunfit.exists_documents_error
  exact nomatch (documents_of_collected h).symm.trans he

/-- Where a search finds nothing, there is nothing. -/
theorem collected_nil_iff : Collected files target [] ↔ NoneBelow files target := by
  have hnone : ∀ entries, Document.tweeFilesBelow target (.directory entries) = [] ↔
      ∀ names ∈ (FileTree.directory entries).filesBelow, (target.join names).isTwee = false := by
    intro entries
    rw [Document.tweeFilesBelow, ← List.length_eq_zero_iff, List.length_mergeSort,
      List.length_eq_zero_iff]
    simp
  constructor
  · intro h
    cases h with
    | directory hfind hfound =>
      rw [discover_of_directory hfind] at hfound
      exact ⟨_, hfind, (hnone _).mp (Except.ok.inj hfound)⟩
  · rintro ⟨entries, hfind, hall⟩
    refine .directory hfind ?_
    rw [discover_of_directory hfind, (hnone entries).mpr hall]

/-! ### Breaking off -/

/-- What a run breaks off with: the refusal of the path itself; once there are documents, a path of
the manual that cannot be one; and once there is a vocabulary, the first refusal of a document. -/
inductive BreaksOff (files : Files) (manual : Option Path) (target : Path) : RunError → Prop where
  | target {e : FileError} (refused : files.look target = .error e) :
      BreaksOff files manual target (.refused e)
  | manual {docs : List Path} {path : Path} (collected : Collected files target docs)
      (some : docs ≠ []) (noPath : Vocabulary.load files manual = .error (.noPath path)) :
      BreaksOff files manual target (.noPath path)
  | document {docs : List Path} {v : Vocabulary} {e : FileError}
      (collected : Collected files target docs) (loaded : Vocabulary.load files manual = .ok v)
      (first : Service.FirstRefused files docs e) : BreaksOff files manual target (.refused e)

/-- With documents and a vocabulary, only a document is left to break off with. -/
theorem BreaksOff.firstRefused {e : RunError} (h : BreaksOff files manual target e)
    (hcollected : Collected files target docs) (hloaded : Vocabulary.load files manual = .ok v) :
    ∃ refusal, e = .refused refusal ∧ Service.FirstRefused files docs refusal := by
  cases h with
  | target hlook =>
    exact nomatch (documents_of_collected hcollected).symm.trans (documents_of_refused hlook)
  | manual _ _ hnoPath => exact nomatch hloaded.symm.trans hnoPath
  | document hcollected' _ hfirst => exact ⟨_, rfl, hcollected.unique hcollected' ▸ hfirst⟩

/-! ### Courses -/

/-- The service of a run. -/
def serviceOf (v : Vocabulary) (settings : Settings) (options : Options) : Service :=
  ⟨v, settings.maxDocumentSize, options.jobs.getD settings.lintWorkers⟩

/-- What a run over a path does, and what comes of it. -/
inductive Course (files : Files) (settings : Settings) (options : Options) (target : Path) :
    Except RunError Outcome → Prop where
  | unfit {e : DocumentError} (unfit : documents files target = .error (.document e)) :
      Course files settings options target (.ok (failed 1 e.message))
  | none (collected : Collected files target []) :
      Course files settings options target (.ok (done s!"No .twee files found in {target}\n"))
  | noVocabulary {docs : List Path} {e : VocabularyError} (collected : Collected files target docs)
      (some : docs ≠ [])
      (missing : Vocabulary.load files (options.vocabulary.or settings.vocabularyPath) = .error e) :
      Course files settings options target (.ok (failed 2 e.message))
  | linted {docs : List Path} {v : Vocabulary} {b : Batch} (collected : Collected files target docs)
      (some : docs ≠ [])
      (loaded : Vocabulary.load files (options.vocabulary.or settings.vocabularyPath) = .ok v)
      (accounts : (serviceOf v settings options).Accounts files docs b) :
      Course files settings options target (.ok (printedBatch options.format b))
  | brokenOff {e : RunError}
      (breaksOff : BreaksOff files (options.vocabulary.or settings.vocabularyPath) target e) :
      Course files settings options target (.error e)

/-- Documents and a vocabulary make a batch, which is printed. -/
theorem lintTarget_of_loaded (choices : Nat → Nat) (hcollected : Collected files target docs)
    (hsome : docs ≠ [])
    (hloaded : Vocabulary.load files (options.vocabulary.or settings.vocabularyPath) = .ok v) :
    lintTarget settings files choices options target =
      ((Batch.ofAttempts (docs.map ((serviceOf v settings options).attempt files))).map
        (printedBatch options.format)).mapError .refused := by
  rw [← Service.lintFiles_eq_ofAttempts _ files docs choices]
  simp only [lintTarget, documents_of_collected hcollected, hloaded]
  cases docs with
  | nil => exact absurd rfl hsome
  | cons doc rest => rfl

theorem lintTarget_course (settings : Settings) (files : Files) (choices : Nat → Nat)
    (options : Options) (target : Path) :
    Course files settings options target (lintTarget settings files choices options target) := by
  rcases documents_cases files target with ⟨docs, hcollected, h⟩ | ⟨e, -, h⟩ | ⟨e, hlook, h⟩
  · cases docs with
    | nil => simpa only [lintTarget, h] using Course.none hcollected
    | cons doc rest =>
      have hsome := List.cons_ne_nil doc rest
      cases hload : Vocabulary.load files (options.vocabulary.or settings.vocabularyPath) with
      | error e =>
        cases e with
        | noPath path =>
          simpa only [lintTarget, h, hload] using Course.brokenOff (.manual hcollected hsome hload)
        | noMacroList | unreadable _ | undecodable _ _ =>
          simpa only [lintTarget, h, hload] using Course.noVocabulary hcollected hsome hload
      | ok v =>
        rw [lintTarget_of_loaded choices hcollected hsome hload]
        cases hattempts : Batch.ofAttempts
            ((doc :: rest).map ((serviceOf v settings options).attempt files)) with
        | error e =>
          exact .brokenOff
            (.document hcollected hload (Service.ofAttempts_eq_error_iff.mp hattempts))
        | ok b => exact .linted hcollected hsome hload (Service.accounts_of_ofAttempts hattempts)
  · simpa only [lintTarget, h] using Course.unfit h
  · simpa only [lintTarget, h] using Course.brokenOff (.target hlook)

/-- **A run breaks off** with the errors named in `BreaksOff`, and with no others. -/
theorem lintTarget_eq_error_iff (settings : Settings) (files : Files) (choices : Nat → Nat)
    (options : Options) (target : Path) :
    lintTarget settings files choices options target = .error runError ↔
      BreaksOff files (options.vocabulary.or settings.vocabularyPath) target runError := by
  constructor
  · intro h
    have hcourse := lintTarget_course settings files choices options target
    rw [h] at hcourse
    cases hcourse with
    | brokenOff hbreaksOff => exact hbreaksOff
  · intro h
    cases h with
    | target hlook => simp only [lintTarget, documents_of_refused hlook]
    | @manual docs path hcollected hsome hnoPath =>
      simp only [lintTarget, documents_of_collected hcollected, hnoPath]
    | document hcollected hloaded hfirst =>
      rw [lintTarget_of_loaded choices hcollected hfirst.ne_nil hloaded,
        Service.ofAttempts_eq_error_iff.mpr hfirst]
      rfl

/-! ### Exit codes -/

/-- A document that can be loaded and in which nothing is found. -/
def Clean (v : Vocabulary) (limit : Int) (files : Files) (path : Path) : Prop :=
  ∃ text, Document.load limit files path = .ok text ∧
    (Report.lint v path.toText text).diagnostics = []

/-- There is a vocabulary, and each document is clean. -/
def AllClean (files : Files) (manual : Option Path) (limit : Int) (target : Path) : Prop :=
  ∃ docs v, Collected files target docs ∧ Vocabulary.load files manual = .ok v ∧
    ∀ path ∈ docs, Clean v limit files path

/-- There is a vocabulary, and a document cannot be loaded or something is found in it. -/
def SomeUnclean (files : Files) (manual : Option Path) (limit : Int) (target : Path) : Prop :=
  ∃ docs v, Collected files target docs ∧ Vocabulary.load files manual = .ok v ∧
    ∃ path ∈ docs, ¬ Clean v limit files path

/-- There is a document, but no vocabulary. -/
def LacksVocabulary (files : Files) (manual : Option Path) (target : Path) : Prop :=
  ∃ docs e, Collected files target docs ∧ docs ≠ [] ∧ Vocabulary.load files manual = .error e

section Exclusive

theorem clean_iff (options : Options) {path : Path} :
    Clean v settings.maxDocumentSize files path ↔
      ∃ r, (serviceOf v settings options).lintFile files path = .ok r ∧ r.isValid = true := by
  constructor
  · rintro ⟨text, hload, hnone⟩
    exact ⟨_, Service.lintFile_of_load hload, List.isEmpty_iff.mpr hnone⟩
  · rintro ⟨r, hlint, hvalid⟩
    obtain ⟨text, hload, rfl⟩ := Service.lintFile_eq_ok_iff.mp hlint
    exact ⟨text, hload, List.isEmpty_iff.mp hvalid⟩

theorem not_unclean_of_clean
    (h : NoneBelow files target ∨ AllClean files manual limit target) :
    ¬ (Unfit files target ∨ SomeUnclean files manual limit target) := by
  rintro (hunfit | ⟨docs', v', hcollected', hload', path, hpath, hunclean⟩)
  · rcases h with hnone | ⟨docs, v, hcollected, -, -⟩
    · exact (collected_nil_iff.mpr hnone).not_unfit hunfit
    · exact hcollected.not_unfit hunfit
  · rcases h with hnone | ⟨docs, v, hcollected, hload, hall⟩
    · obtain rfl := (collected_nil_iff.mpr hnone).unique hcollected'
      exact absurd hpath List.not_mem_nil
    · obtain rfl := hcollected.unique hcollected'
      obtain rfl := Except.ok.inj (hload.symm.trans hload')
      exact hunclean (hall path hpath)

theorem LacksVocabulary.not_clean (h : LacksVocabulary files manual target) :
    ¬ (NoneBelow files target ∨ AllClean files manual limit target) := by
  obtain ⟨docs, e, hcollected, hsome, hmissing⟩ := h
  rintro (hnone | ⟨docs', v, -, hload, -⟩)
  · exact hsome (hcollected.unique (collected_nil_iff.mpr hnone))
  · exact nomatch hmissing.symm.trans hload

theorem LacksVocabulary.not_unclean (h : LacksVocabulary files manual target) :
    ¬ (Unfit files target ∨ SomeUnclean files manual limit target) := by
  obtain ⟨docs, e, hcollected, hsome, hmissing⟩ := h
  rintro (hunfit | ⟨docs', v, -, hload, -⟩)
  · exact hcollected.not_unfit hunfit
  · exact nomatch hmissing.symm.trans hload

end Exclusive

namespace Course

/-- The exit code of each course. -/
theorem exit_eq (h : Course files settings options target (.ok outcome)) :
    (outcome.exit = 0 ∧ (NoneBelow files target ∨
      AllClean files (options.vocabulary.or settings.vocabularyPath) settings.maxDocumentSize
        target)) ∨
    (outcome.exit = 1 ∧ (Unfit files target ∨
      SomeUnclean files (options.vocabulary.or settings.vocabularyPath) settings.maxDocumentSize
        target)) ∨
    (outcome.exit = 2 ∧
      LacksVocabulary files (options.vocabulary.or settings.vocabularyPath) target) := by
  cases h with
  | unfit hunfit => exact .inr (.inl ⟨rfl, .inl (unfit_of_documents_error hunfit)⟩)
  | none hnone => exact .inl ⟨rfl, .inl (collected_nil_iff.mp hnone)⟩
  | noVocabulary hcollected hsome hmissing =>
    exact .inr (.inr ⟨rfl, _, _, hcollected, hsome, hmissing⟩)
  | @linted docs v b hcollected hsome hloaded haccounts =>
    have hok : b.ok = true ↔ ∀ path ∈ docs, Clean v settings.maxDocumentSize files path := by
      simp only [haccounts.ok_iff, clean_iff options]
    cases hexit : b.ok with
    | true =>
      exact .inl ⟨by simp [printedBatch, hexit], .inr ⟨docs, v, hcollected, hloaded, hok.mp hexit⟩⟩
    | false =>
      have hunclean : ¬ ∀ path ∈ docs, Clean v settings.maxDocumentSize files path := by
        rw [← hok, hexit]
        decide
      refine .inr (.inl ⟨by simp [printedBatch, hexit], .inr ⟨docs, v, hcollected, hloaded, ?_⟩⟩)
      simpa only [not_forall, exists_prop] using hunclean

/-- The three conditions exclude each other, so each exit code has exactly one of them. -/
theorem exit_iff (h : Course files settings options target (.ok outcome)) :
    (outcome.exit = 0 ↔ NoneBelow files target ∨
      AllClean files (options.vocabulary.or settings.vocabularyPath) settings.maxDocumentSize
        target) ∧
    (outcome.exit = 2 ↔
      LacksVocabulary files (options.vocabulary.or settings.vocabularyPath) target) ∧
    (outcome.exit = 1 ↔ Unfit files target ∨
      SomeUnclean files (options.vocabulary.or settings.vocabularyPath) settings.maxDocumentSize
        target) ∧
    (outcome.exit = 0 ∨ outcome.exit = 1 ∨ outcome.exit = 2) := by
  rcases h.exit_eq with ⟨hexit, hclean⟩ | ⟨hexit, hunclean⟩ | ⟨hexit, hlacks⟩
  · rw [hexit]
    exact ⟨iff_of_true rfl hclean, iff_of_false (by decide) fun hlacks => hlacks.not_clean hclean,
      iff_of_false (by decide) (not_unclean_of_clean hclean), .inl rfl⟩
  · rw [hexit]
    exact ⟨iff_of_false (by decide) fun hclean => not_unclean_of_clean hclean hunclean,
      iff_of_false (by decide) fun hlacks => hlacks.not_unclean hunclean, iff_of_true rfl hunclean,
      .inr (.inl rfl)⟩
  · rw [hexit]
    exact ⟨iff_of_false (by decide) hlacks.not_clean, iff_of_true rfl hlacks,
      iff_of_false (by decide) hlacks.not_unclean, .inr (.inr rfl)⟩

theorem output_of_noneBelow (h : Course files settings options target (.ok outcome))
    (hnone : NoneBelow files target) :
    outcome.output = s!"No .twee files found in {target}\n" ∧ outcome.errors = "" := by
  have hcollected := collected_nil_iff.mpr hnone
  cases h with
  | unfit hunfit => exact absurd (unfit_of_documents_error hunfit) hcollected.not_unfit
  | none _ => exact ⟨rfl, rfl⟩
  | noVocabulary hcollected' hsome _ => exact absurd (hcollected'.unique hcollected) hsome
  | linted hcollected' hsome _ _ => exact absurd (hcollected'.unique hcollected) hsome

theorem output_of_lacksVocabulary (h : Course files settings options target (.ok outcome))
    (hlacks : LacksVocabulary files (options.vocabulary.or settings.vocabularyPath) target) :
    outcome.output = "" := by
  obtain ⟨docs, e, hcollected, hsome, hmissing⟩ := hlacks
  cases h with
  | unfit _ => rfl
  | none hnone => exact absurd (hcollected.unique hnone) hsome
  | noVocabulary _ _ _ => rfl
  | linted _ _ hloaded _ => exact nomatch hmissing.symm.trans hloaded

/-- What is printed once there are documents and a vocabulary: the reports of the documents that
can be loaded, and a message for each of the others. -/
theorem printed (h : Course files settings options target (.ok outcome))
    (hcollected : Collected files target docs) (hsome : docs ≠ [])
    (hloaded : Vocabulary.load files (options.vocabulary.or settings.vocabularyPath) = .ok v) :
    (∃ reports : List Report,
      List.Forall₂ (fun path r => ∃ text,
          Document.load settings.maxDocumentSize files path = .ok text ∧
          r = Report.lint v path.toText text)
        (docs.filter (Document.loads settings.maxDocumentSize files)) reports ∧
      outcome.output = String.join (reports.map (CommandLine.printed options.format))) ∧
    ∃ messages : List String,
      List.Forall₂ (fun path message => ∃ e,
          Document.load settings.maxDocumentSize files path = .error (.document e) ∧
          message = s!"Error processing {path}: {e.message}\n")
        (docs.filter (! Document.loads settings.maxDocumentSize files ·)) messages ∧
      outcome.errors = String.join messages := by
  cases h with
  | unfit hunfit => exact absurd (unfit_of_documents_error hunfit) hcollected.not_unfit
  | none hnone => exact absurd (hcollected.unique hnone) hsome
  | noVocabulary _ _ hmissing => exact nomatch hmissing.symm.trans hloaded
  | @linted docs' v' b hcollected' _ hloaded' haccounts =>
    obtain rfl := hcollected.unique hcollected'
    obtain rfl := Except.ok.inj (hloaded.symm.trans hloaded')
    refine ⟨⟨b.reports, haccounts.reports.imp fun path r hr => ?_, rfl⟩,
      ⟨b.failures.map printedFailure, ?_, rfl⟩⟩
    · exact Service.lintFile_eq_ok_iff.mp hr
    · refine List.forall₂_map_right_iff.mpr (haccounts.failures.imp fun path failure hf => ?_)
      obtain ⟨path', e⟩ := failure
      obtain ⟨rfl, he⟩ := hf
      exact ⟨e, he, rfl⟩

end Course

/-! ### Runs -/

variable {environment : Environment} {arguments : List String} {path level : String}

/-- A run with arguments and settings that are fit lints what its path stands for. -/
theorem run_eq_lintTarget (choices : Nat → Nat)
    (harguments : Demand.ofArguments arguments = .ok (.lint options))
    (hpath : options.path = some path) (hsettings : Settings.load files environment = .ok settings)
    (hlevel : settings.checkedLevel = .ok level) :
    run files environment choices arguments =
      lintTarget settings files choices options (Path.ofString path) := by
  simp only [run, harguments, lint, hpath, hsettings, Except.mapError]
  show ((settings.checkedLevel.mapError RunError.level) >>= fun _ => _) = _
  rw [hlevel]
  rfl

/-- An argument without a dash in front is the path. -/
theorem ofArguments_plain {argument : String} (h : argument.toList.head? ≠ some '-') :
    Demand.ofArguments [argument] = .ok (.lint ⟨some argument, none, .text, none⟩) := by
  have hdashes : argument ≠ "--" := by
    rintro rfl
    exact absurd rfl h
  have hplain : classify argument = .ok (.plain argument) := by
    simp only [classify]
    split
    · next hcs => exact absurd (congrArg List.head? hcs) h
    · rfl
  rw [Demand.ofArguments, classifyAll, if_neg hdashes, hplain]
  rfl

/-- What comes of a run does not depend on how many documents are linted at a time, nor on the order
in which they are done. -/
theorem lintTarget_eq (settings : Settings) (files : Files) (choices choices' : Nat → Nat)
    (options : Options) (jobs : Option Int) (target : Path) :
    lintTarget settings files choices' { options with jobs } target =
      lintTarget settings files choices options target := by
  simp only [lintTarget]
  split
  · rfl
  · rfl
  · rfl
  · next docs _ _ =>
    cases Vocabulary.load files (options.vocabulary.or settings.vocabularyPath) with
    | error e =>
      cases e with
      | noMacroList | unreadable _ | undecodable _ _ | noPath _ => rfl
    | ok v =>
      simp only [Service.lintFiles_eq_ofAttempts]
      rfl

/-- **The exit code tells what a run found, if there is one.** The run breaks off without an exit
code if the look-up of the path is refused or, once there is a vocabulary, that of a document; and
if there are documents, but the path of the manual cannot be one.
Otherwise the exit code is 0 if there is no document in a directory or all are clean, 2 if there are
documents but no vocabulary, and 1 if there can be no document at the path or some are not clean.
Once there are documents and a vocabulary, the output is the reports of the documents that can be
loaded, and the error output a message for each other, both in the order of the documents. How many
of them are linted at a time does not matter. -/
theorem run_exit_iff (choices : Nat → Nat)
    (harguments : Demand.ofArguments arguments = .ok (.lint options))
    (hpath : options.path = some path) (hsettings : Settings.load files environment = .ok settings)
    (hlevel : settings.checkedLevel = .ok level) :
    let target := Path.ofString path
    let manual := options.vocabulary.or settings.vocabularyPath
    let limit := settings.maxDocumentSize
    (∀ e, run files environment choices arguments = .error e ↔ BreaksOff files manual target e) ∧
    ((∀ e, ¬ BreaksOff files manual target e) →
      ∃ outcome, run files environment choices arguments = .ok outcome ∧
        (outcome.exit = 0 ↔ NoneBelow files target ∨ AllClean files manual limit target) ∧
        (outcome.exit = 2 ↔ LacksVocabulary files manual target) ∧
        (outcome.exit = 1 ↔ Unfit files target ∨ SomeUnclean files manual limit target) ∧
        (outcome.exit = 0 ∨ outcome.exit = 1 ∨ outcome.exit = 2) ∧
        (LacksVocabulary files manual target → outcome.output = "") ∧
        (NoneBelow files target →
          outcome.output = s!"No .twee files found in {target}\n" ∧ outcome.errors = "") ∧
        ∀ docs v, Collected files target docs → docs ≠ [] → Vocabulary.load files manual = .ok v →
          (∃ reports : List Report,
            List.Forall₂ (fun path r => ∃ text, Document.load limit files path = .ok text ∧
                r = Report.lint v path.toText text)
              (docs.filter (Document.loads limit files)) reports ∧
            outcome.output = String.join (reports.map (CommandLine.printed options.format))) ∧
          ∃ messages : List String,
            List.Forall₂ (fun path message => ∃ e,
                Document.load limit files path = .error (.document e) ∧
                message = s!"Error processing {path}: {e.message}\n")
              (docs.filter (! Document.loads limit files ·)) messages ∧
            outcome.errors = String.join messages) ∧
    ∀ choices' arguments' jobs,
      Demand.ofArguments arguments' = .ok (.lint { options with jobs }) →
        run files environment choices' arguments' = run files environment choices arguments := by
  intro target manual limit
  have hrun := run_eq_lintTarget choices harguments hpath hsettings hlevel
  refine ⟨fun e => ?_, fun hnone => ?_, fun choices' arguments' jobs harguments' => ?_⟩
  · rw [hrun, lintTarget_eq_error_iff settings files choices options target]
  · have hcourse := lintTarget_course settings files choices options target
    cases hlint : lintTarget settings files choices options target with
    | error e =>
      exact absurd ((lintTarget_eq_error_iff settings files choices options target).mp hlint)
        (hnone e)
    | ok outcome =>
      rw [hlint] at hcourse hrun
      obtain ⟨hzero, htwo, hone, hcodes⟩ := hcourse.exit_iff
      exact ⟨outcome, hrun, hzero, htwo, hone, hcodes, hcourse.output_of_lacksVocabulary,
        hcourse.output_of_noneBelow,
        fun docs v hcollected hsome hloaded => hcourse.printed hcollected hsome hloaded⟩
  · rw [hrun, run_eq_lintTarget choices' harguments' hpath hsettings hlevel, lintTarget_eq]

/-- A directory with one document, in which a parenthesis is left open. -/
theorem run_exit_iff_open :
    let document := "::A\n("
    let files := Files.ofTree (.directory [("d", .directory
      [("a.TW", .file (Text.Utf8.encode document.toList)), ("b.txt", .file [])])])
    let options : Options := ⟨some "d/", none, .text, none⟩
    let settings : Settings := ⟨"INFO", none, 4, 5000000, "localhost", 8000⟩
    (Demand.ofArguments ["d/"] = .ok (.lint options) ∧ options.path = some "d/" ∧
        Settings.load files [] = .ok settings ∧ settings.checkedLevel = .ok "INFO") ∧
      Demand.ofArguments ["--jobs", "-2", "d/"] = .ok (.lint { options with jobs := some (-2) }) ∧
      ∃ outcome, run files [] (fun _ => 0) ["d/"] = .ok outcome ∧ outcome.exit = 1 ∧
        outcome.output = "\nLinting: d/a.TW\nPassages checked: 1\n\nErrors (1):\n" ++
          "  A (line 2, col 1): Unclosed macro or parenthesis\n\n" ∧
        outcome.errors = "" ∧
        run files [] (fun _ => 3) ["--jobs", "-2", "d/"] = .ok outcome := by
  intro document files options settings
  have harguments : Demand.ofArguments ["d/"] = .ok (.lint options) := by decide
  have hjobs : Demand.ofArguments ["--jobs", "-2", "d/"] =
      .ok (.lint { options with jobs := some (-2) }) := by decide
  have hsettings : Settings.load files [] = .ok settings := by rfl
  have hlevel : settings.checkedLevel = .ok "INFO" := by decide
  have hload : Document.load settings.maxDocumentSize files ⟨"", ["d", "a.TW"]⟩ = .ok document := by
    decide
  have hfind : files.find (Path.ofString "d/") = .ok (.directory
      [("a.TW", .file (Text.Utf8.encode document.toList)), ("b.txt", .file [])]) := by rfl
  have hbelow : (FileTree.directory [("a.TW", .file (Text.Utf8.encode document.toList)),
      ("b.txt", .file [])]).filesBelow = [["a.TW"], ["b.txt"]] := by
    simp [FileTree.filesBelow, FileTree.files]
  have hfilter : ([["a.TW"], ["b.txt"]].map (Path.ofString "d/").join).filter Path.isTwee =
      [⟨"", ["d", "a.TW"]⟩] := by decide
  have hdiscover : Document.discover files (Path.ofString "d/") = .ok [⟨"", ["d", "a.TW"]⟩] := by
    rw [discover_of_directory hfind, Document.tweeFilesBelow, hbelow, hfilter,
      List.mergeSort_singleton]
  have hcollected : Collected files (Path.ofString "d/") [⟨"", ["d", "a.TW"]⟩] :=
    .directory hfind hdiscover
  have hreport : Report.lint .bundled "d/a.TW" document =
      ⟨"d/a.TW", 1, [.unclosed "A" ⟨2, 1⟩]⟩ := by decide
  have hunclean : SomeUnclean files none settings.maxDocumentSize (Path.ofString "d/") := by
    refine ⟨_, .bundled, hcollected, rfl, _, List.mem_singleton_self _, ?_⟩
    rintro ⟨text, htext, hnone⟩
    obtain rfl := Except.ok.inj (hload.symm.trans htext)
    exact absurd (hreport ▸ hnone) (by decide)
  have hnone : ∀ e, ¬ BreaksOff files none (Path.ofString "d/") e := by
    intro e hbreaksOff
    obtain ⟨refusal, -, hfirst⟩ := hbreaksOff.firstRefused hcollected rfl
    exact hfirst.not_forall (List.forall_mem_singleton.mpr ⟨_, rfl⟩)
  obtain ⟨-, houtcome, hsame⟩ :=
    run_exit_iff (fun _ => 0) harguments rfl hsettings hlevel
  obtain ⟨outcome, hrun, -, -, hone, -, -, -, hprinted⟩ := houtcome hnone
  obtain ⟨⟨reports, hreports, houtput⟩, ⟨messages, hmessages, herrors⟩⟩ :=
    hprinted _ _ hcollected (List.cons_ne_nil _ _) rfl
  refine ⟨⟨harguments, rfl, hsettings, hlevel⟩, hjobs, outcome, hrun, hone.mpr (.inr hunclean),
    ?_, ?_, (hsame (fun _ => 3) _ _ hjobs).trans hrun⟩
  · have hfilter : [(⟨"", ["d", "a.TW"]⟩ : Path)].filter
        (Document.loads settings.maxDocumentSize files) = [⟨"", ["d", "a.TW"]⟩] := by decide
    rw [hfilter] at hreports
    obtain ⟨r, rest, ⟨text, htext, rfl⟩, hrest, rfl⟩ := List.forall₂_cons_left_iff.mp hreports
    obtain rfl := Except.ok.inj (hload.symm.trans htext)
    obtain rfl := List.forall₂_nil_left_iff.mp hrest
    have hreport' : Report.lint .bundled (Path.mk "" ["d", "a.TW"]).toText document =
        ⟨"d/a.TW", 1, [.unclosed "A" ⟨2, 1⟩]⟩ := hreport
    rw [houtput, List.map_singleton, hreport']
    decide
  · have hfilter : [(⟨"", ["d", "a.TW"]⟩ : Path)].filter
        (! Document.loads settings.maxDocumentSize files ·) = [] := by decide
    rw [hfilter] at hmessages
    rw [herrors, List.forall₂_nil_left_iff.mp hmessages]
    rfl

/-- A path whose name is too long leads nowhere, but the run ends with no exit code. -/
theorem run_breaks_off :
    let name := String.ofList (List.replicate 300 'a' ++ ".twee".toList)
    let files := (Files.ofTree .empty).bounded
    let options : Options := ⟨some name, none, .text, none⟩
    let settings : Settings := ⟨"INFO", none, 4, 5000000, "localhost", 8000⟩
    (Demand.ofArguments [name] = .ok (.lint options) ∧ Settings.load files [] = .ok settings ∧
        settings.checkedLevel = .ok "INFO") ∧
      (∀ node, files.find (Path.ofString name) ≠ .ok node) ∧
      ∀ choices,
        run files [] choices [name] = .error (.refused ⟨.nameTooLong, Path.ofString name⟩) ∧
        ∀ outcome, run files [] choices [name] ≠ .ok outcome := by
  intro name files options settings
  have harguments : Demand.ofArguments [name] = .ok (.lint options) :=
    ofArguments_plain (by rw [String.toList_ofList]; decide +kernel)
  have hsettings : Settings.load files [] = .ok settings := by rfl
  have hlevel : settings.checkedLevel = .ok "INFO" := by decide
  have hpath : Path.ofString name = ⟨"", [name]⟩ := 
    Path.ofString_of_name (by decide +kernel) (by decide +kernel)
  have hlook : files.look (Path.ofString name) = .error ⟨.nameTooLong, Path.ofString name⟩ := by
    rw [hpath]
    exact FileTree.look_bounded_of_longName (by simp) (by decide +kernel) (by decide +kernel)
      (by decide +kernel)
  have hnothing : ∀ node, files.find (Path.ofString name) ≠ .ok node := fun node hfind =>
    nomatch (Files.look_of_find hfind).symm.trans hlook
  refine ⟨⟨harguments, hsettings, hlevel⟩, hnothing, fun choices => ?_⟩
  have hrun : run files [] choices [name] =
      .error (.refused ⟨.nameTooLong, Path.ofString name⟩) := by
    rw [run_eq_lintTarget choices harguments rfl hsettings hlevel,
      (lintTarget_eq_error_iff settings files choices options _).mpr (.target hlook)]
  exact ⟨hrun, fun outcome houtcome => nomatch hrun.symm.trans houtcome⟩

end TweeLint.CommandLine
