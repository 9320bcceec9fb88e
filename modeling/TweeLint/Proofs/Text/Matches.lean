/-!
# Searching for all matches of a pattern

A search reads a text from left to right and goes on behind each match, so it does not try the
places inside one. Nothing is lost by that if a match that begins inside another finds the same word
(`Pattern.Coherent`): the words of the search are then those that the pattern finds anywhere in the
text (`Pattern.mem_search_iff`). Where no match begins inside another at all (`Pattern.Apart`), the
search finds the same matches, place by place, as trying each character
(`Pattern.Apart.indexedSearch_eq`).

A pattern may read a run of characters that is as long as possible and is shortened if what follows
does not fit (`greedy`). If what follows cannot begin inside the run, shortening is in vain
(`greedy_eq`).
-/

namespace TweeLint.Text

/-- What a pattern finds at the front of a text that stands behind the character `before`: a word,
and how many characters the match takes. -/
def Pattern : Type := Option Char → List Char → Option (List Char × Nat)

namespace Pattern

/-- The words of a search, from left to right. The first `skip` characters belong to the match
before the text. -/
def search (pattern : Pattern) (before : Option Char) : (skip : Nat) → List Char → List (List Char)
  | _, [] => []
  | skip + 1, c :: rest => search pattern (some c) skip rest
  | 0, c :: rest =>
    match pattern before (c :: rest) with
    | some (word, length) => word :: search pattern (some c) (length - 1) rest
    | none => search pattern (some c) 0 rest

/-- The pattern finds a word in a text, with at least `skip` characters in front of it. -/
def Finds (pattern : Pattern) (before : Option Char) (skip : Nat) (text word : List Char) : Prop :=
  ∃ pre rest length, text = pre ++ rest ∧ rest ≠ [] ∧ skip ≤ pre.length ∧
    pattern (pre.getLast?.or before) rest = some (word, length)

/-- A match that begins inside another finds the same word. -/
def Coherent (pattern : Pattern) : Prop :=
  ∀ before pre rest outer length inner length', pre ≠ [] → pre.length < length →
    pattern before (pre ++ rest) = some (outer, length) →
    pattern pre.getLast? rest = some (inner, length') → inner = outer

/-- What stands so far in front that it is in the first part of a text. -/
theorem mem_of_append_eq {pre rest inside post : List Char} {c : Char}
    (h : pre ++ c :: rest = inside ++ post) (hlt : pre.length < inside.length) : c ∈ inside := by
  have hget : (pre ++ c :: rest)[pre.length]? = some c := by
    rw [List.getElem?_append_right (Nat.le_refl _), Nat.sub_self]
    rfl
  rw [h, List.getElem?_append_left hlt] at hget
  exact List.mem_of_getElem? hget

variable {pattern : Pattern} {before : Option Char} {skip : Nat} {c : Char} {text word : List Char}

theorem getLast?_cons_or (c : Char) (cs : List Char) (before : Option Char) :
    (c :: cs).getLast?.or before = cs.getLast?.or (some c) := by
  rw [List.getLast?_cons]
  cases cs.getLast? <;> rfl

theorem not_finds_nil : ¬ pattern.Finds before skip [] word := by
  intro hfinds
  obtain ⟨pre, rest, length, htext, hne, -⟩ := hfinds
  exact hne (List.append_eq_nil_iff.mp htext.symm).2

/-- What is found behind the first character. -/
theorem finds_cons_succ :
    pattern.Finds before (skip + 1) (c :: text) word ↔ pattern.Finds (some c) skip text word := by
  constructor
  · intro hfinds
    obtain ⟨pre, rest, length, htext, hne, hskip, hword⟩ := hfinds
    cases pre with
    | nil => exact absurd hskip (by simp)
    | cons d pre =>
      obtain ⟨rfl, rfl⟩ := List.cons.inj htext
      rw [getLast?_cons_or] at hword
      exact ⟨pre, rest, length, rfl, hne, by simpa using hskip, hword⟩
  · intro hfinds
    obtain ⟨pre, rest, length, rfl, hne, hskip, hword⟩ := hfinds
    refine ⟨c :: pre, rest, length, rfl, hne, by simpa using hskip, ?_⟩
    rwa [getLast?_cons_or]

/-- What is found at the first character or behind it. -/
theorem finds_cons_zero :
    pattern.Finds before 0 (c :: text) word ↔
      (∃ length, pattern before (c :: text) = some (word, length)) ∨
        pattern.Finds before 1 (c :: text) word := by
  constructor
  · intro hfinds
    obtain ⟨pre, rest, length, htext, hne, -, hword⟩ := hfinds
    cases pre with
    | nil =>
      obtain rfl : c :: text = rest := htext
      exact Or.inl ⟨length, hword⟩
    | cons d pre => exact Or.inr ⟨d :: pre, rest, length, htext, hne, by simp, hword⟩
  · intro hfinds
    rcases hfinds with ⟨length, hword⟩ | ⟨pre, rest, length, htext, hne, -, hword⟩
    · exact ⟨[], c :: text, length, rfl, by simp, Nat.zero_le _, hword⟩
    · exact ⟨pre, rest, length, htext, hne, Nat.zero_le _, hword⟩

/-- Behind a match, what begins inside it adds no word. -/
theorem Coherent.finds_iff (h : pattern.Coherent) {outer : List Char} {length : Nat}
    (hmatch : pattern before (c :: text) = some (outer, length)) :
    pattern.Finds before 0 (c :: text) word ↔
      word = outer ∨ pattern.Finds (some c) (length - 1) text word := by
  rw [finds_cons_zero]
  constructor
  · intro hfinds
    rcases hfinds with ⟨length', hword⟩ | ⟨pre, rest, length', htext, hne, hpos, hword⟩
    · rw [hmatch] at hword
      exact Or.inl (congrArg Prod.fst (Option.some.inj hword)).symm
    · by_cases hinside : pre.length < length
      · have hpre : pre ≠ [] := List.ne_nil_of_length_pos hpos
        rw [htext] at hmatch
        obtain ⟨d, hd⟩ : ∃ d, pre.getLast? = some d := ⟨_, List.getLast?_eq_some_getLast hpre⟩
        rw [hd, Option.some_or, ← hd] at hword
        exact Or.inl (h before pre rest outer length word length' hpre hinside hmatch hword)
      · refine Or.inr (finds_cons_succ.mp ⟨pre, rest, length', htext, hne, ?_, hword⟩)
        omega
  · intro hfinds
    rcases hfinds with rfl | hfinds
    · exact Or.inl ⟨length, hmatch⟩
    · obtain ⟨pre, rest, length', htext, hne, hskip, hword⟩ := finds_cons_succ.mpr hfinds
      exact Or.inr ⟨pre, rest, length', htext, hne, by omega, hword⟩

/-- **The words of a search** are those that the pattern finds anywhere. -/
theorem Coherent.mem_search_iff (h : pattern.Coherent) :
    word ∈ pattern.search before skip text ↔ pattern.Finds before skip text word := by
  induction text generalizing before skip with
  | nil =>
    have hnil : pattern.search before skip [] = [] := by cases skip <;> rfl
    rw [hnil]
    exact ⟨fun hmem => absurd hmem List.not_mem_nil, fun hfinds => absurd hfinds not_finds_nil⟩
  | cons c text ih =>
    cases skip with
    | succ skip => rw [search, ih, finds_cons_succ]
    | zero =>
      rw [search]
      cases hmatch : pattern before (c :: text) with
      | none => rw [ih, finds_cons_zero, hmatch, finds_cons_succ]; simp
      | some found =>
        obtain ⟨outer, length⟩ := found
        rw [h.finds_iff hmatch, ← ih, List.mem_cons]

/-! ### Where matches begin -/

/-- The matches of a search, from left to right: the index at which each begins, and its word. The
text begins at index `i`, and its first `skip` characters belong to the match before it. -/
def indexedSearch (pattern : Pattern) (before : Option Char) :
    (skip i : Nat) → List Char → List (Nat × List Char)
  | _, _, [] => []
  | skip + 1, i, c :: rest => indexedSearch pattern (some c) skip (i + 1) rest
  | 0, i, c :: rest =>
    match pattern before (c :: rest) with
    | some (word, length) => (i, word) :: indexedSearch pattern (some c) (length - 1) (i + 1) rest
    | none => indexedSearch pattern (some c) 0 (i + 1) rest

/-- The matches that are found by trying each character, from left to right. -/
def tryEach (pattern : Pattern) (before : Option Char) :
    (i : Nat) → List Char → List (Nat × List Char)
  | _, [] => []
  | i, c :: rest =>
    ((pattern before (c :: rest)).map fun found => (i, found.1)).toList ++
      tryEach pattern (some c) (i + 1) rest

theorem le_of_mem_tryEach {i : Nat} {found : Nat × List Char}
    (h : found ∈ pattern.tryEach before i text) : i ≤ found.1 := by
  induction text generalizing before i with
  | nil => exact absurd h List.not_mem_nil
  | cons c text ih =>
    rw [tryEach, List.mem_append, Option.mem_toList] at h
    rcases h with hhere | hlater
    · obtain ⟨-, -, rfl⟩ := Option.map_eq_some_iff.mp hhere
      exact Nat.le_refl i
    · exact Nat.le_of_succ_le (ih hlater)

/-- Matches are found from left to right, one at an index at most. -/
theorem pairwise_tryEach (pattern : Pattern) (before : Option Char) (i : Nat) (text : List Char) :
    ((pattern.tryEach before i text).map Prod.fst).Pairwise (· < ·) := by
  rw [List.pairwise_map]
  induction text generalizing before i with
  | nil => exact List.Pairwise.nil
  | cons c text ih =>
    rw [tryEach]
    cases pattern before (c :: text) with
    | none => exact ih (some c) (i + 1)
    | some found =>
      have hfirst : ∀ later ∈ pattern.tryEach (some c) (i + 1) text, i < later.1 :=
        fun later hlater => le_of_mem_tryEach hlater
      exact List.pairwise_cons.mpr ⟨hfirst, ih (some c) (i + 1)⟩

/-- No match begins at one of the first `skip` characters of a text. -/
def ClearFor (pattern : Pattern) (before : Option Char) (skip : Nat) (text : List Char) : Prop :=
  ∀ pre rest, text = pre ++ rest → pre.length < skip → pattern (pre.getLast?.or before) rest = none

/-- No match begins inside another. -/
def Apart (pattern : Pattern) : Prop :=
  ∀ before c text word length, pattern before (c :: text) = some (word, length) →
    pattern.ClearFor (some c) (length - 1) text

theorem clearFor_zero : pattern.ClearFor before 0 text :=
  fun _ _ _ hlt => absurd hlt (Nat.not_lt_zero _)

theorem ClearFor.tail (h : pattern.ClearFor before (skip + 1) (c :: text)) :
    pattern.ClearFor (some c) skip text := by
  intro pre rest htext hlt
  rw [← getLast?_cons_or c pre before]
  exact h (c :: pre) rest (by rw [htext, List.cons_append]) (Nat.succ_lt_succ hlt)

/-- **A search finds every match** of a pattern of which no match begins inside another. -/
theorem Apart.indexedSearch_eq (h : pattern.Apart) {i : Nat}
    (hclear : pattern.ClearFor before skip text) :
    pattern.indexedSearch before skip i text = pattern.tryEach before i text := by
  induction text generalizing before skip i with
  | nil => cases skip <;> rfl
  | cons c text ih =>
    cases skip with
    | succ skip =>
      have hhere : pattern before (c :: text) = none := hclear [] _ rfl (Nat.succ_pos skip)
      rw [indexedSearch, ih hclear.tail, tryEach, hhere]
      rfl
    | zero =>
      rw [indexedSearch, tryEach]
      cases hmatch : pattern before (c :: text) with
      | none => exact ih clearFor_zero
      | some found =>
        -- what the search skips is inside the match, where no other begins
        obtain ⟨word, length⟩ := found
        exact congrArg (List.cons _) (ih (h before c text word length hmatch))

end Pattern

/-! ### Runs -/

section Runs

variable {α : Type} {p : Char → Bool} {next : List Char → Option α}

/-- A run of characters that pass a test, with what `next` reads behind it. The run is as long as
possible; if `next` reads nothing there, the run is tried with one character less, down to none. -/
def greedy (p : Char → Bool) (next : List Char → Option α) : List Char → Option (List Char × α)
  | [] => (next []).map ([], ·)
  | c :: rest =>
    let longer := if p c then greedy p next rest else none
    match longer with
    | some (run, a) => some (c :: run, a)
    | none => (next (c :: rest)).map ([], ·)

/-- **Only the longest run counts** if what is read behind it begins with no character that could
belong to the run. -/
theorem greedy_eq (hnext : ∀ c rest, p c = true → next (c :: rest) = none) (text : List Char) :
    greedy p next text = (next (text.dropWhile p)).map (text.takeWhile p, ·) := by
  induction text with
  | nil => rfl
  | cons c rest ih =>
    cases hc : p c with
    | false => simp [greedy, hc]
    | true =>
      rw [greedy, if_pos hc, ih, List.dropWhile_cons_of_pos hc, List.takeWhile_cons_of_pos hc,
        hnext c rest hc]
      cases next (rest.dropWhile p) <;> rfl

end Runs

end TweeLint.Text
