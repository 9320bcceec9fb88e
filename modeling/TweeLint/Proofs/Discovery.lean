import Mathlib.Data.List.Sort
import TweeLint.Document
import TweeLint.Proofs.FileTree.Reordered
import TweeLint.Proofs.Path

/-!
# Finding Twee files

The search of a directory lists every Twee file below it once, at any depth, and nothing else, in
the order of the paths (`Document.discover_finds`). What it lists can be said by look-ups alone
(`TweeFileBelow`), and a strictly increasing list is known by its members, so the order in which the
directories hold their entries does not matter.
-/

namespace TweeLint

/-- A path leads down from a directory, at any depth, to a file whose name is that of a Twee file.
It need not be a file that can be opened. -/
structure TweeFileBelow (files : Files) (root p : Path) : Prop where
  below : ∃ names name, p = root.join (names ++ [name]) ∧ ".." ∉ names ++ [name] ∧
    Path.TweeName name
  file : ∃ node, files.find p = .ok node ∧ node.isFile = true

namespace Path

theorem join_injective (root : Path) : Function.Injective root.join := by
  intro names names' h
  exact List.append_cancel_left (congrArg Path.parts h)

end Path

namespace Document

variable {tree : FileTree} {root : Path} {entries : List (String × FileTree)}

/-- **What is found below a directory**, by look-ups. -/
theorem mem_tweeFilesBelow_iff (htree : tree.WellFormed)
    (hroot : tree.find root = .ok (.directory entries)) {p : Path} :
    p ∈ tweeFilesBelow root (.directory entries) ↔ TweeFileBelow (.ofTree tree) root p := by
  have hnode := htree.find hroot
  rw [tweeFilesBelow, List.mem_mergeSort, List.mem_filter, List.mem_map]
  constructor
  · intro h
    obtain ⟨⟨names, hnames, rfl⟩, htwee⟩ := h
    obtain ⟨hup, node, hwalk, hfile⟩ := hnode.mem_files_iff.mp hnames
    have hfind : tree.find (root.join names) = .ok node :=
      (FileTree.find_join hroot hup).trans hwalk
    rcases List.eq_nil_or_concat names with rfl | ⟨names, name, rfl⟩
    · obtain rfl := Except.ok.inj hwalk
      exact absurd hfile (by simp [FileTree.isFile])
    · rw [List.concat_eq_append] at hup htwee hfind ⊢
      rw [Path.isTwee_join] at htwee
      exact ⟨⟨names, name, rfl, hup, Path.isTweeName_iff.mp htwee⟩, node, hfind, hfile⟩
  · intro h
    obtain ⟨⟨names, name, rfl, hup, hname⟩, node, hfind, hfile⟩ := h
    have hwalk := (FileTree.find_join hroot hup).symm.trans hfind
    refine ⟨⟨names ++ [name], hnode.mem_files_iff.mpr ⟨hup, node, hwalk, hfile⟩, rfl⟩, ?_⟩
    rw [Path.isTwee_join]
    exact Path.isTweeName_iff.mpr hname

theorem pairwise_tweeFilesBelow (htree : tree.WellFormed)
    (hroot : tree.find root = .ok (.directory entries)) :
    (tweeFilesBelow root (.directory entries)).Pairwise (· < ·) := by
  have hnodup : (FileTree.directory entries).files.Nodup := (htree.find hroot).nodup_files
  exact Path.pairwise_lt_mergeSort ((hnodup.map (Path.join_injective root)).filter _)

theorem discover_of_directory (hroot : tree.find root = .ok (.directory entries)) :
    discover (.ofTree tree) root = .ok (tweeFilesBelow root (.directory entries)) := by
  have hfind : (Files.ofTree tree).find root = .ok (.directory entries) := hroot
  rw [discover, Files.look_of_find hfind]

theorem discover_of_reordered {tree' : FileTree} (htree : tree.WellFormed)
    (hroot : tree.find root = .ok (.directory entries)) (h : FileTree.Reordered tree tree') :
    discover (.ofTree tree') root = discover (.ofTree tree) root := by
  obtain ⟨entries', hroot'⟩ := h.find_directory htree hroot
  have htree' := h.wellFormed htree
  have hsame : ∀ p, TweeFileBelow (.ofTree tree') root p ↔ TweeFileBelow (.ofTree tree) root p := by
    intro p
    have hfile : (∃ node, tree'.find p = .ok node ∧ node.isFile = true) ↔
        ∃ node, tree.find p = .ok node ∧ node.isFile = true :=
      exists_congr fun node => and_congr_left fun hnode => (h.find_file_iff htree p hnode).symm
    exact ⟨fun ⟨hbelow, hf⟩ => ⟨hbelow, hfile.mp hf⟩, fun ⟨hbelow, hf⟩ => ⟨hbelow, hfile.mpr hf⟩⟩
  rw [discover_of_directory hroot, discover_of_directory hroot']
  refine congrArg Except.ok ((pairwise_tweeFilesBelow htree' hroot').eq_of_mem_iff
    (pairwise_tweeFilesBelow htree hroot) fun p => ?_)
  rw [mem_tweeFilesBelow_iff htree' hroot', mem_tweeFilesBelow_iff htree hroot, hsame]

/-- **The search of a directory is complete, sound and in order.** It lists each Twee file at any
depth below the directory once and nothing else, so no directory, whatever its name. The list is
strictly increasing, and the same whatever the order of entries in the tree. -/
theorem discover_finds (htree : tree.WellFormed)
    (hroot : tree.find root = .ok (.directory entries)) :
    ∃ paths, discover (.ofTree tree) root = .ok paths ∧
      (∀ p, p ∈ paths ↔ TweeFileBelow (.ofTree tree) root p) ∧
      (∀ p ∈ paths, paths.count p = 1) ∧
      (∀ p entries', tree.find p = .ok (.directory entries') → p ∉ paths) ∧
      paths.Pairwise (· < ·) ∧
      ∀ tree', FileTree.Reordered tree tree' → discover (.ofTree tree') root = .ok paths := by
  have hpairwise := pairwise_tweeFilesBelow htree hroot
  refine ⟨_, discover_of_directory hroot, fun p => mem_tweeFilesBelow_iff htree hroot,
    fun p hp => ?_, fun p entries' hdirectory hp => ?_, hpairwise, fun tree' hreordered => ?_⟩
  · have hnodup := hpairwise.imp fun {p q} (hlt : p < q) (heq : p = q) =>
      Path.lt_irrefl q (heq ▸ hlt)
    exact List.count_eq_one_of_mem hnodup hp
  · obtain ⟨node, hfind, hfile⟩ := ((mem_tweeFilesBelow_iff htree hroot).mp hp).file
    have hsame : tree.find p = .ok node := hfind
    obtain rfl := Except.ok.inj (hdirectory.symm.trans hsame)
    exact absurd hfile (by simp [FileTree.isFile])
  · rw [discover_of_reordered htree hroot hreordered, discover_of_directory hroot]

/-- Hidden files, a directory with a dot in its name, names that only look like those of Twee files,
and an order that is not that of the joined texts. -/
theorem discover_finds_hidden :
    let bytes : List UInt8 := [0x3A]
    let inner := FileTree.directory [(".b.tw", .file bytes), (".tw", .file bytes)]
    let tree := FileTree.directory [("a", inner), ("a.TwEe", .file bytes), ("c.tw", .directory []),
      ("c.tw.", .file bytes)]
    let other := FileTree.directory [("c.tw.", .file bytes), ("c.tw", .directory []),
      ("a.TwEe", .file bytes), ("a", .directory [(".tw", .file bytes), (".b.tw", .file bytes)])]
    tree.WellFormed ∧
      tree.find ⟨"", []⟩ = .ok tree ∧ FileTree.Reordered tree other ∧
      discover (.ofTree other) ⟨"", []⟩ = .ok [⟨"", ["a", ".b.tw"]⟩, ⟨"", ["a.TwEe"]⟩] := by
  intro bytes inner tree other
  have hinner : inner.WellFormed :=
    .directory (by decide) (by simp) (by simp [FileTree.WellFormed.file])
  have hempty : (FileTree.directory []).WellFormed := FileTree.wellFormed_empty
  have htree : tree.WellFormed :=
    .directory (by decide) (by simp) (by simp [FileTree.WellFormed.file, hinner, hempty])
  have hreordered : FileTree.Reordered tree other :=
    .trans (@FileTree.Reordered.within [] _ _ _ _ (.entries (.swap _ _ [])))
      (.entries (List.reverse_perm _).symm)
  have hfind : tree.find ⟨"", []⟩ = .ok tree := rfl
  obtain ⟨paths, hpaths, -, -, -, -, hsame⟩ := discover_finds htree hfind
  have hbelow : tree.filesBelow =
      [["a", ".b.tw"], ["a", ".tw"], ["a.TwEe"], ["c.tw."]] := by
    simp [tree, inner, FileTree.filesBelow, FileTree.files]
  have hfilter : ([["a", ".b.tw"], ["a", ".tw"], ["a.TwEe"], ["c.tw."]].map
      (Path.mk "" []).join).filter Path.isTwee =
        [⟨"", ["a", ".b.tw"]⟩, ⟨"", ["a.TwEe"]⟩] := by decide
  have hsorted : ([⟨"", ["a", ".b.tw"]⟩, ⟨"", ["a.TwEe"]⟩] : List Path).mergeSort Path.before =
      [⟨"", ["a", ".b.tw"]⟩, ⟨"", ["a.TwEe"]⟩] :=
    List.mergeSort_of_pairwise (by decide)
  refine ⟨htree, hfind, hreordered, ?_⟩
  rw [hsame other hreordered, ← hpaths, discover_of_directory hfind]
  exact congrArg Except.ok (by rw [tweeFilesBelow, hbelow, hfilter, hsorted])

end Document

end TweeLint
