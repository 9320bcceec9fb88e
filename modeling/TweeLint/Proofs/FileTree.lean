import Mathlib.Data.List.Induction
import Mathlib.Data.List.Nodup
import TweeLint.FileTree
import TweeLint.Proofs.Path

/-!
# Trees and look-ups

In a tree in which every directory has each name once (`WellFormed`), and none that leads back up,
the search for all files finds what can be looked up: each way that leads to a file, once
(`mem_files_iff`, `nodup_files`). All trees that are made by the operations on trees are of that
kind (`WellFormed.makeDirectory`, `WellFormed.write`, `WellFormed.remove`).

A look-up goes by names alone. Where two trees differ only in the order of their entries
(`Reordered`), it leads to the same (`Reordered.find`).
-/

namespace TweeLint.FileTree

/-- In each directory of a tree every name has one entry, and no name is the one that leads back
up. -/
inductive WellFormed : FileTree → Prop
  | file (bytes : List UInt8) : WellFormed (.file bytes)
  | locked (cause : FileCause) : WellFormed (.locked cause)
  | directory {entries : List (String × FileTree)} :
      (entries.map Prod.fst).Nodup → (∀ e ∈ entries, e.1 ≠ "..") →
        (∀ e ∈ entries, WellFormed e.2) → WellFormed (.directory entries)

theorem wellFormed_empty : empty.WellFormed :=
  .directory .nil (by simp) (by simp)

/-! ### Entries -/

section Entries

variable {entries : List (String × FileTree)} {name : String} {child : FileTree}

theorem lookup_eq_none_iff_names : entries.lookup name = none ↔ name ∉ entries.map Prod.fst := by
  simp only [List.lookup_eq_none_iff, bne_iff_ne, List.mem_map, not_exists, not_and, ne_comm]

theorem lookup_eq_some_iff_mem (h : (entries.map Prod.fst).Nodup) :
    entries.lookup name = some child ↔ (name, child) ∈ entries := by
  constructor
  · intro hlookup
    obtain ⟨front, back, rfl, -⟩ := List.lookup_eq_some_iff.mp hlookup
    simp
  · intro hmem
    obtain ⟨front, back, rfl⟩ := List.append_of_mem hmem
    refine List.lookup_eq_some_iff.mpr
      ⟨front, back, rfl, fun e he => bne_iff_ne.mpr fun hname => ?_⟩
    rw [List.map_append, List.map_cons, List.nodup_append] at h
    exact h.2.2 e.1 (List.mem_map_of_mem he) name List.mem_cons_self hname.symm

theorem mem_of_lookup_eq_some (h : entries.lookup name = some child) : (name, child) ∈ entries := by
  obtain ⟨front, back, rfl, -⟩ := List.lookup_eq_some_iff.mp h
  simp

end Entries

/-- What a computation that succeeds goes through. -/
theorem exists_of_bind_eq_ok {ε α β : Type} {x : Except ε α} {f : α → Except ε β} {b : β}
    (h : x >>= f = .ok b) : ∃ a, x = .ok a ∧ f a = .ok b := by
  cases x with
  | error e => exact absurd h (by simp [bind, Except.bind])
  | ok a => exact ⟨a, rfl, h⟩

/-- What a computation that succeeds behind a check gives. -/
theorem eq_ok_of_ite {ε α : Type} {p : Prop} [Decidable p] {e : ε} {x : Except ε α} {a : α}
    (h : (if p then .error e else x) = .ok a) : x = .ok a := by
  split at h
  · exact absurd h (by simp)
  · exact h

/-! ### One name -/

/-- Where one name leads from a node, with the directories above that. -/
def follow (above : List FileTree) (node : FileTree) (name : String) :
    Except FileCause (List FileTree × FileTree) :=
  match node with
  | .file _ | .locked _ => .error .notDirectory
  | .directory entries =>
    if name = ".." then .ok (above.tail, above.head?.getD empty)
    else
      match entries.lookup name with
      | none => .error (.noEntry name)
      | some child => .ok (node :: above, child)

/-- **A walk goes name by name.** -/
theorem walk_cons (above : List FileTree) (node : FileTree) (name : String) (names : List String) :
    walk above node (name :: names) =
      (follow above node name).bind fun next => walk next.1 next.2 names := by
  cases node with
  | file bytes => rfl
  | locked cause => rfl
  | directory entries =>
    rw [walk.eq_def, follow]
    by_cases hname : name = ".."
    · simp only [if_pos hname]
      cases above <;> rfl
    · simp only [if_neg hname]
      cases entries.lookup name <;> rfl

section Follow

variable {above : List FileTree} {node child : FileTree} {entries : List (String × FileTree)}
  {name : String}

theorem follow_up :
    follow above (.directory entries) ".." = .ok (above.tail, above.head?.getD empty) := by
  rw [follow, if_pos rfl]

theorem follow_missing (hname : name ≠ "..") (h : entries.lookup name = none) :
    follow above (.directory entries) name = .error (.noEntry name) := by
  rw [follow, if_neg hname, h]

theorem follow_entry (hname : name ≠ "..") (h : entries.lookup name = some child) :
    follow above (.directory entries) name = .ok (.directory entries :: above, child) := by
  rw [follow, if_neg hname, h]

/-- What one name can do. -/
theorem follow_cases {next : List FileTree × FileTree} (h : follow above node name = .ok next) :
    ∃ entries, node = .directory entries ∧
      ((name = ".." ∧ next = (above.tail, above.head?.getD empty)) ∨
        (name ≠ ".." ∧ ∃ child, entries.lookup name = some child ∧
          next = (node :: above, child))) := by
  cases node with
  | file bytes => exact absurd h (by simp [follow])
  | locked cause => exact absurd h (by simp [follow])
  | directory entries =>
    refine ⟨entries, rfl, ?_⟩
    by_cases hname : name = ".."
    · subst hname
      rw [follow_up] at h
      exact Or.inl ⟨rfl, (Except.ok.inj h).symm⟩
    · cases hlookup : entries.lookup name with
      | none =>
        rw [follow_missing hname hlookup] at h
        exact absurd h (by simp)
      | some child =>
        rw [follow_entry hname hlookup] at h
        exact Or.inr ⟨hname, child, rfl, (Except.ok.inj h).symm⟩

end Follow

/-! ### Many names -/

section Walk

variable {above : List FileTree} {node target : FileTree} {parts names : List String}

/-- Names that do not lead back up lead on from the node alone. -/
theorem walk_eq_of_not_mem (hnames : ".." ∉ names) (above above' : List FileTree) :
    walk above node names = walk above' node names := by
  induction names generalizing above above' node with
  | nil => rfl
  | cons name names ih =>
    obtain ⟨hup, hrest⟩ := List.ne_and_not_mem_of_not_mem_cons hnames
    have hname : name ≠ ".." := Ne.symm hup
    rw [walk_cons, walk_cons]
    cases node with
    | file bytes => rfl
    | locked cause => rfl
    | directory entries =>
      cases h : entries.lookup name with
      | none => rw [follow_missing hname h, follow_missing hname h]
      | some child =>
        rw [follow_entry hname h, follow_entry hname h]
        exact ih hrest _ _

theorem walk_append (h : walk above node parts = .ok target) (hnames : ".." ∉ names) :
    walk above node (parts ++ names) = walk [] target names := by
  induction parts generalizing above node with
  | nil =>
    obtain rfl := Except.ok.inj h
    exact walk_eq_of_not_mem hnames _ _
  | cons name parts ih =>
    rw [walk_cons] at h
    obtain ⟨next, hnext, h⟩ := exists_of_bind_eq_ok h
    rw [List.cons_append, walk_cons, hnext]
    exact ih h

theorem find_join {root : FileTree} {p : Path} (h : root.find p = .ok target)
    (hnames : ".." ∉ names) : root.find (p.join names) = walk [] target names := by
  unfold find at h ⊢
  rw [Path.join]
  split at h
  · next hanchor =>
    rw [if_pos hanchor]
    exact walk_append h hnames
  · next hanchor =>
    rw [if_neg hanchor]
    exact walk_append h hnames

end Walk

/-! ### The search for files -/

theorem mem_files_directory {entries : List (String × FileTree)} {names : List String} :
    names ∈ (directory entries).files ↔
      ∃ name child rest, names = name :: rest ∧ (name, child) ∈ entries ∧ rest ∈ child.files := by
  rw [files, List.mem_flatMap]
  constructor
  · intro h
    obtain ⟨e, he, hnames⟩ := h
    obtain ⟨rest, hrest, rfl⟩ := List.mem_map.mp hnames
    exact ⟨e.1, e.2, rest, rfl, he, hrest⟩
  · intro h
    obtain ⟨name, child, rest, rfl, he, hrest⟩ := h
    exact ⟨(name, child), he, List.mem_map_of_mem hrest⟩

/-- **The ways to all files** of a tree are those that a look-up follows to a file. -/
theorem WellFormed.mem_files_iff {node : FileTree} (h : node.WellFormed) {names : List String} :
    names ∈ node.files ↔
      ".." ∉ names ∧ ∃ target, walk [] node names = .ok target ∧ target.isFile = true := by
  induction names generalizing node with
  | nil =>
    cases node with
    | file bytes => simp [files, walk, isFile]
    | locked cause => simp [files, walk, isFile]
    | directory entries => simp [mem_files_directory, walk, isFile]
  | cons name names ih =>
    rw [walk_cons]
    cases h with
    | file bytes => simp [files, follow, Except.bind]
    | locked cause => simp [files, follow, Except.bind]
    | @directory entries hnodup hup hchildren =>
      rw [mem_files_directory]
      constructor
      · intro hfile
        obtain ⟨name, child, rest, hcons, he, hrest⟩ := hfile
        obtain ⟨rfl, rfl⟩ := List.cons.inj hcons
        have hname : name ≠ ".." := hup _ he
        obtain ⟨hnames, target, hwalk, htarget⟩ := (ih (hchildren _ he)).mp hrest
        refine ⟨by simp [Ne.symm hname, hnames], target, ?_, htarget⟩
        rw [follow_entry hname ((lookup_eq_some_iff_mem hnodup).mpr he)]
        exact (walk_eq_of_not_mem hnames _ _).trans hwalk
      · intro hwalk
        obtain ⟨hnames, target, hwalk, htarget⟩ := hwalk
        obtain ⟨hname, hrest⟩ := List.ne_and_not_mem_of_not_mem_cons hnames
        cases hlookup : entries.lookup name with
        | none =>
          rw [follow_missing (Ne.symm hname) hlookup] at hwalk
          exact absurd hwalk (by simp [Except.bind])
        | some child =>
          rw [follow_entry (Ne.symm hname) hlookup] at hwalk
          have he := (lookup_eq_some_iff_mem hnodup).mp hlookup
          refine ⟨name, child, names, rfl, he,
            (ih (hchildren _ he)).mpr ⟨hrest, target, ?_, htarget⟩⟩
          exact (walk_eq_of_not_mem hrest _ _).trans hwalk

theorem WellFormed.nodup_files {node : FileTree} (h : node.WellFormed) : node.files.Nodup := by
  induction h with
  | file bytes => simp [files]
  | locked cause => simp [files]
  | @directory entries hnodup hup hchildren ih =>
    rw [files, List.nodup_flatMap]
    refine ⟨fun e he => (ih e he).map fun _ _ h => (List.cons.inj h).2, ?_⟩
    refine (List.pairwise_map.mp hnodup).imp fun {e e'} hne => ?_
    -- the ways through two entries differ in their first name
    intro names hnames hnames'
    obtain ⟨rest, -, rfl⟩ := List.mem_map.mp hnames
    obtain ⟨rest', -, hcons⟩ := List.mem_map.mp hnames'
    exact hne (List.cons.inj hcons).1.symm

/-! ### Well-formed trees in a walk -/

section WellFormed

variable {above : List FileTree} {node target : FileTree} {name : String} {names : List String}

theorem WellFormed.child {entries : List (String × FileTree)}
    (h : (FileTree.directory entries).WellFormed) {child : FileTree}
    (hlookup : entries.lookup name = some child) : child.WellFormed := by
  cases h with
  | directory _ _ hchildren => exact hchildren _ (mem_of_lookup_eq_some hlookup)

theorem WellFormed.follow {next : List FileTree × FileTree} (h : node.WellFormed)
    (habove : ∀ t ∈ above, t.WellFormed) (hnext : follow above node name = .ok next) :
    (∀ t ∈ next.1, t.WellFormed) ∧ next.2.WellFormed := by
  obtain ⟨entries, rfl, ⟨-, rfl⟩ | ⟨-, child, hlookup, rfl⟩⟩ := follow_cases hnext
  · refine ⟨fun t ht => habove t (List.mem_of_mem_tail ht), ?_⟩
    cases above with
    | nil => exact wellFormed_empty
    | cons parent above => exact habove parent List.mem_cons_self
  · exact ⟨List.forall_mem_cons.mpr ⟨h, habove⟩, h.child hlookup⟩

theorem WellFormed.walk (h : node.WellFormed) (habove : ∀ t ∈ above, t.WellFormed)
    (hwalk : walk above node names = .ok target) : target.WellFormed := by
  induction names generalizing above node with
  | nil =>
    obtain rfl := Except.ok.inj hwalk
    exact h
  | cons name names ih =>
    rw [walk_cons] at hwalk
    obtain ⟨next, hnext, hwalk⟩ := exists_of_bind_eq_ok hwalk
    obtain ⟨habove', h'⟩ := h.follow habove hnext
    exact ih h' habove' hwalk

/-- What a path leads to in a well-formed tree is well-formed. -/
theorem WellFormed.find {root : FileTree} {p : Path} (h : root.WellFormed)
    (hfind : root.find p = .ok target) : target.WellFormed := by
  unfold FileTree.find at hfind
  split at hfind
  · exact h.walk (by simp) hfind
  · exact wellFormed_empty.walk (by simp) hfind

end WellFormed

/-! ### What the operations keep -/

section Operations

variable {node result child : FileTree} {entries : List (String × FileTree)} {name : String}
  {names passed : List String}

theorem mem_putEntry {e : String × FileTree} (he : e ∈ putEntry name child entries) :
    e = (name, child) ∨ e ∈ entries := by
  induction entries with
  | nil => exact Or.inl (by simpa [putEntry] using he)
  | cons first entries ih =>
    rw [putEntry] at he
    split at he
    · rcases List.mem_cons.mp he with rfl | he
      · exact Or.inl rfl
      · exact Or.inr (List.mem_cons_of_mem _ he)
    · rcases List.mem_cons.mp he with rfl | he
      · exact Or.inr List.mem_cons_self
      · exact (ih he).imp_right (List.mem_cons_of_mem _)

theorem nodup_putEntry (h : (entries.map Prod.fst).Nodup) :
    ((putEntry name child entries).map Prod.fst).Nodup := by
  induction entries with
  | nil => simp [putEntry]
  | cons first entries ih =>
    obtain ⟨hfirst, hrest⟩ := List.nodup_cons.mp h
    rw [putEntry]
    split
    · next heq =>
      subst heq
      exact h
    · next hne =>
      refine List.nodup_cons.mpr ⟨fun hmem => ?_, ih hrest⟩
      obtain ⟨e, he, heq⟩ := List.mem_map.mp hmem
      rcases mem_putEntry he with rfl | he
      · exact hne heq.symm
      · exact hfirst (heq ▸ List.mem_map_of_mem he)

/-- **An entry more** is put into a well-formed directory. -/
theorem WellFormed.putEntry (h : (FileTree.directory entries).WellFormed) (hname : name ≠ "..")
    (hchild : child.WellFormed) :
    (FileTree.directory (putEntry name child entries)).WellFormed := by
  cases h with
  | directory hnodup hup hchildren =>
    refine .directory (nodup_putEntry hnodup) (fun e he => ?_) (fun e he => ?_)
    · rcases mem_putEntry he with rfl | he
      · exact hname
      · exact hup e he
    · rcases mem_putEntry he with rfl | he
      · exact hchild
      · exact hchildren e he

theorem WellFormed.lookup_getD (h : (FileTree.directory entries).WellFormed) {other : FileTree}
    (hother : other.WellFormed) : ((entries.lookup name).getD other).WellFormed := by
  cases hlookup : entries.lookup name with
  | none => exact hother
  | some child => exact h.child hlookup

theorem WellFormed.makeDirectoryAt (h : node.WellFormed) (hnames : ".." ∉ names)
    (hresult : makeDirectoryAt passed node names = .ok result) : result.WellFormed := by
  induction names generalizing passed node result with
  | nil =>
    cases node with
    | file bytes => exact absurd hresult (by simp [FileTree.makeDirectoryAt])
    | locked cause => exact absurd hresult (by simp [FileTree.makeDirectoryAt])
    | directory entries =>
      obtain rfl := Except.ok.inj hresult
      exact h
  | cons name names ih =>
    obtain ⟨hup, hrest⟩ := List.ne_and_not_mem_of_not_mem_cons hnames
    cases node with
    | file bytes => exact absurd hresult (by simp [FileTree.makeDirectoryAt])
    | locked cause => exact absurd hresult (by simp [FileTree.makeDirectoryAt])
    | directory entries =>
      obtain ⟨child, hchild, hdone⟩ := exists_of_bind_eq_ok (eq_ok_of_ite hresult)
      obtain rfl := Except.ok.inj hdone
      exact h.putEntry (Ne.symm hup) (ih (h.lookup_getD wellFormed_empty) hrest hchild)

theorem WellFormed.writeAt {bytes : List UInt8} (h : node.WellFormed) (hnames : ".." ∉ names)
    (hresult : writeAt passed bytes node names = .ok result) : result.WellFormed := by
  induction names generalizing passed node result with
  | nil =>
    cases node with
    | file _ =>
      obtain rfl := Except.ok.inj hresult
      exact .file bytes
    | locked cause => exact absurd hresult (by simp [FileTree.writeAt])
    | directory entries => exact absurd hresult (by simp [FileTree.writeAt])
  | cons name names ih =>
    obtain ⟨hup, hrest⟩ := List.ne_and_not_mem_of_not_mem_cons hnames
    cases node with
    | file _ => exact absurd hresult (by simp [FileTree.writeAt])
    | locked cause => exact absurd hresult (by simp [FileTree.writeAt])
    | directory entries =>
      obtain ⟨child, hchild, hdone⟩ := exists_of_bind_eq_ok (eq_ok_of_ite hresult)
      obtain rfl := Except.ok.inj hdone
      have hnew : (if names.isEmpty then FileTree.file [] else empty).WellFormed := by
        split
        · exact .file []
        · exact wellFormed_empty
      exact h.putEntry (Ne.symm hup) (ih (h.lookup_getD hnew) hrest hchild)

theorem WellFormed.removeAt {p : Path} (h : node.WellFormed) (hnames : ".." ∉ names)
    (hresult : removeAt p node names = .ok result) : result.WellFormed := by
  induction names generalizing node result with
  | nil =>
    obtain rfl := Except.ok.inj hresult
    exact wellFormed_empty
  | cons name names ih =>
    obtain ⟨hup, hrest⟩ := List.ne_and_not_mem_of_not_mem_cons hnames
    cases node with
    | file _ => exact absurd hresult (by simp [FileTree.removeAt])
    | locked cause => exact absurd hresult (by simp [FileTree.removeAt])
    | directory entries =>
      cases hlookup : entries.lookup name with
      | none => exact absurd hresult (by simp [FileTree.removeAt, hlookup])
      | some child =>
        simp only [FileTree.removeAt, hlookup] at hresult
        split at hresult
        · obtain rfl := Except.ok.inj hresult
          cases h with
          | directory hnodup hnames hchildren =>
            refine .directory (hnodup.sublist (List.filter_sublist.map _)) (fun e he => ?_)
              (fun e he => ?_)
            · exact hnames e (List.mem_of_mem_filter he)
            · exact hchildren e (List.mem_of_mem_filter he)
        · obtain ⟨child', hchild, hdone⟩ := exists_of_bind_eq_ok hresult
          obtain rfl := Except.ok.inj hdone
          exact h.putEntry (Ne.symm hup) (ih (h.child hlookup) hrest hchild)

theorem direct_concat (names : List String) (name : String) :
    direct (names ++ [name]) =
      if name = ".." then (direct names).dropLast else direct names ++ [name] := by
  rw [direct, List.foldl_append]
  rfl

/-- Where two dots have taken back names, none are left. -/
theorem not_mem_direct (names : List String) : ".." ∉ direct names := by
  induction names using List.reverseRecOn with
  | nil => exact List.not_mem_nil
  | append_singleton names name ih =>
    rw [direct_concat]
    split
    · exact fun hmem => ih (List.dropLast_subset _ hmem)
    · next hname => simp [ih, Ne.symm hname]

end Operations

variable {root result : FileTree} {p : Path}

/-- Making a directory keeps a tree well-formed. -/
theorem WellFormed.makeDirectory (h : root.WellFormed)
    (hresult : makeDirectory p root = .ok result) : result.WellFormed :=
  h.makeDirectoryAt (not_mem_direct _) hresult

/-- Writing a file keeps a tree well-formed. -/
theorem WellFormed.write {bytes : List UInt8} (h : root.WellFormed)
    (hresult : write p bytes root = .ok result) : result.WellFormed := by
  obtain ⟨made, hmade, hwritten⟩ := exists_of_bind_eq_ok hresult
  have hmade : made.WellFormed :=
    h.makeDirectoryAt (fun hmem => not_mem_direct _ (List.dropLast_subset _ hmem)) hmade
  exact hmade.writeAt (not_mem_direct _) hwritten

/-- Removing keeps a tree well-formed. -/
theorem WellFormed.remove (h : root.WellFormed) (hresult : remove p root = .ok result) :
    result.WellFormed :=
  h.removeAt (not_mem_direct _) hresult

/-! ### Long names -/

theorem length_le_utf8ByteSize (cs : List Char) : cs.length ≤ (String.ofList cs).utf8ByteSize := by
  induction cs with
  | nil => exact Nat.zero_le _
  | cons c cs ih =>
    have hc := c.utf8Size_pos
    rw [String.utf8ByteSize_ofList] at *
    simp only [List.length_cons, String.utf8Len_cons]
    omega

theorem utf8ByteSize_le (cs : List Char) : (String.ofList cs).utf8ByteSize ≤ 4 * cs.length := by
  induction cs with
  | nil => exact Nat.zero_le _
  | cons c cs ih =>
    have hc := c.utf8Size_le_four
    rw [String.utf8ByteSize_ofList] at *
    simp only [List.length_cons, String.utf8Len_cons]
    omega

/-- **The look-up of a name that is too long is refused** where no entry has such a name. -/
theorem look_of_longName {entries : List (String × FileTree)} {name : String}
    (hentries : ∀ e ∈ entries, e.1.utf8ByteSize ≤ FileCause.maxNameBytes)
    (hname : FileCause.maxNameBytes < name.utf8ByteSize) :
    (Files.ofTree (.directory entries)).look ⟨"", [name]⟩ =
      .error ⟨.nameTooLong, ⟨"", [name]⟩⟩ := by
  have hup : name ≠ ".." := by
    rintro rfl
    exact absurd hname (by decide)
  have hlookup : entries.lookup name = none := by
    refine lookup_eq_none_iff_names.mpr fun hmem => ?_
    obtain ⟨e, he, rfl⟩ := List.mem_map.mp hmem
    exact Nat.not_lt_of_le (hentries e he) hname
  have hfind : (Files.ofTree (.directory entries)).find ⟨"", [name]⟩ = .error .nameTooLong := by
    show walk [] (.directory entries) [name] = .error .nameTooLong
    rw [walk_cons, follow_missing hup hlookup, FileCause.noEntry, if_pos hname]
    rfl
  exact Files.look_of_refusal hfind rfl

/-- The same for files as a system shows them, where the path itself is not too long. A character has
from one to four bytes. -/
theorem look_bounded_of_longName {entries : List (String × FileTree)} {cs : List Char}
    (hentries : ∀ e ∈ entries, e.1.utf8ByteSize ≤ FileCause.maxNameBytes) (hclear : '\x00' ∉ cs)
    (hlong : FileCause.maxNameBytes < cs.length) (hshort : 4 * cs.length ≤ Files.maxPathBytes) :
    (Files.ofTree (.directory entries)).bounded.look ⟨"", [String.ofList cs]⟩ =
      .error ⟨.nameTooLong, ⟨"", [String.ofList cs]⟩⟩ := by
  rw [Files.look_bounded]
  · exact look_of_longName hentries (Nat.lt_of_lt_of_le hlong (length_le_utf8ByteSize cs))
  · rw [Path.hasZero, Path.toText_of_name, String.toList_ofList]
    simpa using hclear
  · rw [Path.toText_of_name]
    exact Nat.le_trans (utf8ByteSize_le cs) hshort

end TweeLint.FileTree
