import TweeLint.Proofs.FileTree

/-!
# The order of entries

A directory holds its entries in some order, which no look-up sees: trees that differ only in the
order of their entries, at any depth (`Reordered`), lead to files by the same paths
(`Reordered.find_file_iff`), and to directories by the same (`Reordered.find_directory`).

What one name leads to in the one tree and in the other is reordered again (`Reordered.follow`), so
the same holds of a whole walk (`Reordered.walk`).
-/

namespace TweeLint.FileTree

/-- Two trees differ in the order of their entries only. -/
inductive Reordered : FileTree → FileTree → Prop
  | refl (t : FileTree) : Reordered t t
  | entries {entries entries' : List (String × FileTree)} : entries.Perm entries' →
      Reordered (.directory entries) (.directory entries')
  | within {front back : List (String × FileTree)} {name : String} {t t' : FileTree} :
      Reordered t t' → Reordered (.directory (front ++ (name, t) :: back))
        (.directory (front ++ (name, t') :: back))
  | trans {t u v : FileTree} : Reordered t u → Reordered u v → Reordered t v

namespace Reordered

variable {t t' : FileTree}

theorem wellFormed (h : Reordered t t') (ht : t.WellFormed) : t'.WellFormed := by
  induction h with
  | refl t => exact ht
  | entries hperm =>
    cases ht with
    | directory hnodup hnames hchildren =>
      exact .directory ((hperm.map Prod.fst).nodup_iff.mp hnodup)
        (fun e he => hnames e (hperm.mem_iff.mpr he))
        (fun e he => hchildren e (hperm.mem_iff.mpr he))
  | @within front back name t t' _ ih =>
    cases ht with
    | directory hnodup hnames hchildren =>
      have hsame : (front ++ (name, t') :: back).map Prod.fst =
          (front ++ (name, t) :: back).map Prod.fst := by simp
      simp only [List.forall_mem_append, List.forall_mem_cons] at hnames hchildren
      refine .directory (hsame ▸ hnodup) ?_ ?_
      · simp only [List.forall_mem_append, List.forall_mem_cons]
        exact hnames
      · simp only [List.forall_mem_append, List.forall_mem_cons]
        exact ⟨hchildren.1, ih hchildren.2.1, hchildren.2.2⟩
  | trans _ _ ih₁ ih₂ => exact ih₂ (ih₁ ht)

/-- A file stays what it is. -/
theorem eq_of_isFile (h : Reordered t t') (ht : t.isFile = true) : t' = t := by
  induction h with
  | refl t => rfl
  | entries => exact absurd ht (by simp [isFile])
  | within => exact absurd ht (by simp [isFile])
  | trans _ _ ih₁ ih₂ =>
    obtain rfl := ih₁ ht
    exact ih₂ ht

/-- A directory stays one, with the same names, and the entries of a name are reordered. -/
theorem exists_directory {entries : List (String × FileTree)} (h : Reordered t t')
    (ht : t = .directory entries) :
    ∃ entries', t' = .directory entries' ∧
      (entries.map Prod.fst).Perm (entries'.map Prod.fst) ∧
      ∀ name child, (name, child) ∈ entries →
        ∃ child', (name, child') ∈ entries' ∧ Reordered child child' := by
  induction h generalizing entries with
  | refl t => exact ⟨entries, ht, .refl _, fun name child he => ⟨child, he, .refl child⟩⟩
  | entries hperm =>
    obtain rfl := FileTree.directory.inj ht
    exact ⟨_, rfl, hperm.map _, fun name child he => ⟨child, hperm.mem_iff.mp he, .refl child⟩⟩
  | @within front back name t t' hchild _ =>
    obtain rfl := FileTree.directory.inj ht
    refine ⟨_, rfl, by simp, fun n child he => ?_⟩
    by_cases heq : (n, child) = (name, t)
    · obtain ⟨rfl, rfl⟩ := Prod.mk.inj heq
      exact ⟨t', by simp, hchild⟩
    · refine ⟨child, ?_, .refl child⟩
      simp only [List.mem_append, List.mem_cons, heq, false_or] at he ⊢
      exact he.imp_right Or.inr
  | trans _ _ ih₁ ih₂ =>
    obtain ⟨middle, hmiddle, hnames₁, hchildren₁⟩ := ih₁ ht
    obtain ⟨entries', hentries', hnames₂, hchildren₂⟩ := ih₂ hmiddle
    refine ⟨entries', hentries', hnames₁.trans hnames₂, fun name child he => ?_⟩
    obtain ⟨child₁, he₁, hchild₁⟩ := hchildren₁ name child he
    obtain ⟨child₂, he₂, hchild₂⟩ := hchildren₂ name child₁ he₁
    exact ⟨child₂, he₂, hchild₁.trans hchild₂⟩

end Reordered

/-- Two outcomes are the same error, or trees that differ in the order of entries. -/
inductive Agree : Except FileCause FileTree → Except FileCause FileTree → Prop
  | error (cause : FileCause) : Agree (.error cause) (.error cause)
  | ok {t t' : FileTree} : Reordered t t' → t.WellFormed → Agree (.ok t) (.ok t')

namespace Reordered

variable {t t' : FileTree} {above above' : List FileTree}

/-- The directories above a node and above its counterpart. -/
def Above (above above' : List FileTree) : Prop :=
  List.Forall₂ (fun u u' => Reordered u u' ∧ u.WellFormed) above above'

/-- **One name leads to the same** from both trees. -/
theorem follow (h : Reordered t t') (ht : t.WellFormed) (habove : Above above above')
    (name : String) :
    (∃ cause, FileTree.follow above t name = .error cause ∧
        FileTree.follow above' t' name = .error cause) ∨
      ∃ next next', FileTree.follow above t name = .ok next ∧
        FileTree.follow above' t' name = .ok next' ∧ Above next.1 next'.1 ∧
        Reordered next.2 next'.2 ∧ next.2.WellFormed := by
  cases t with
  | file bytes =>
    obtain rfl := h.eq_of_isFile rfl
    exact Or.inl ⟨_, rfl, rfl⟩
  | locked cause =>
    obtain rfl := h.eq_of_isFile rfl
    exact Or.inl ⟨_, rfl, rfl⟩
  | directory entries =>
    obtain ⟨entries', rfl, hnames, hchildren⟩ := h.exists_directory rfl
    by_cases hname : name = ".."
    · subst hname
      refine Or.inr ⟨_, _, follow_up, follow_up, ?_⟩
      cases habove with
      | nil => exact ⟨.nil, .refl _, wellFormed_empty⟩
      | cons hparent hrest => exact ⟨hrest, hparent⟩
    · cases hlookup : entries.lookup name with
      | none =>
        have hlookup' : entries'.lookup name = none := by
          rw [lookup_eq_none_iff_names] at hlookup ⊢
          exact fun hmem => hlookup (hnames.mem_iff.mpr hmem)
        exact Or.inl ⟨_, follow_missing hname hlookup, follow_missing hname hlookup'⟩
      | some child =>
        obtain ⟨child', he', hchild⟩ := hchildren name child (mem_of_lookup_eq_some hlookup)
        have hlookup' : entries'.lookup name = some child' := by
          cases h.wellFormed ht with
          | directory hnodup' => exact (lookup_eq_some_iff_mem hnodup').mpr he'
        exact Or.inr ⟨_, _, follow_entry hname hlookup, follow_entry hname hlookup',
          .cons ⟨h, ht⟩ habove, hchild, ht.child hlookup⟩

theorem walk (h : Reordered t t') (ht : t.WellFormed) (habove : Above above above')
    (names : List String) :
    Agree (FileTree.walk above t names) (FileTree.walk above' t' names) := by
  induction names generalizing t t' above above' with
  | nil => exact .ok h ht
  | cons name names ih =>
    rw [walk_cons, walk_cons]
    rcases h.follow ht habove name with ⟨cause, herror, herror'⟩ |
      ⟨next, next', hnext, hnext', habove, h, ht⟩
    · rw [herror, herror']
      exact .error cause
    · rw [hnext, hnext']
      exact ih h ht habove

/-- **A path leads to the same** in both trees. -/
theorem find {root root' : FileTree} (h : Reordered root root') (hroot : root.WellFormed)
    (p : Path) : Agree (root.find p) (root'.find p) := by
  unfold FileTree.find
  split
  · exact h.walk hroot .nil _
  · exact (Reordered.refl _).walk wellFormed_empty .nil _

variable {root root' : FileTree}

theorem find_file_iff (h : Reordered root root') (hroot : root.WellFormed) (p : Path)
    {node : FileTree} (hnode : node.isFile = true) :
    root.find p = .ok node ↔ root'.find p = .ok node := by
  have hagree := h.find hroot p
  generalize root.find p = outcome, root'.find p = outcome' at hagree
  cases hagree with
  | error cause => simp
  | @ok t t' ht _ =>
    rw [Except.ok.injEq, Except.ok.injEq]
    constructor
    · rintro rfl
      exact ht.eq_of_isFile hnode
    · rintro rfl
      cases t with
      | file bytes => exact (ht.eq_of_isFile rfl).symm
      | locked cause => exact (ht.eq_of_isFile rfl).symm
      | directory entries =>
        obtain ⟨entries', rfl, -⟩ := ht.exists_directory rfl
        exact absurd hnode (by simp [isFile])

theorem find_directory (h : Reordered root root') (hroot : root.WellFormed) {p : Path}
    {entries : List (String × FileTree)} (hfind : root.find p = .ok (.directory entries)) :
    ∃ entries', root'.find p = .ok (.directory entries') := by
  have hagree := h.find hroot p
  rw [hfind] at hagree
  generalize root'.find p = outcome' at hagree ⊢
  cases hagree with
  | ok ht _ =>
    obtain ⟨entries', rfl, -⟩ := ht.exists_directory rfl
    exact ⟨entries', rfl⟩

end Reordered

end TweeLint.FileTree
