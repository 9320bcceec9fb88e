import Mathlib.Data.List.Induction
import TweeLint.Proofs.MacroCall
import TweeLint.Proofs.NameSet
import TweeLint.Proofs.Text.Blank
import TweeLint.Proofs.Text.Matches
import TweeLint.Vocabulary.Load

/-!
# What a reference manual lists

The vocabulary of a manual, said without the scan that reads it.

* **The section** runs from the first occurrence of the one heading to the first of the other
  (`section?_eq_some_iff`).
* **The names** are those that stand in a bulleted entry or alone on an indented line
  (`Lists`, `mem_listedNames_iff`). What the scan knows of the text in front of a parenthesis is
  whether blanks lead back from there to the start of a line (`lead_iff`).
* **Two searches find them too**, one for entries and one for aliases, each of which goes on behind
  its last match (`mem_search_iff_lists`).
-/

namespace TweeLint

namespace Vocabulary.Reference

open Text

/-! ### The section -/

/-- The first occurrence of a pattern in a text is at index `i`. -/
def FirstAt (pattern text : List Char) (i : Nat) : Prop :=
  pattern <+: text.drop i ∧ ∀ j < i, ¬ pattern <+: text.drop j

theorem FirstAt.unique {pattern text : List Char} {i j : Nat} (hi : FirstAt pattern text i)
    (hj : FirstAt pattern text j) : i = j := by
  rcases Nat.lt_trichotomy i j with hlt | heq | hlt
  · exact absurd hi.1 (hj.2 i hlt)
  · exact heq
  · exact absurd hj.1 (hi.2 j hlt)

theorem firstAt_succ {pattern text : List Char} {c : Char} {i : Nat}
    (h : ¬ pattern <+: c :: text) :
    FirstAt pattern (c :: text) (i + 1) ↔ FirstAt pattern text i := by
  constructor
  · intro hfirst
    exact ⟨hfirst.1, fun j hj => hfirst.2 (j + 1) (by omega)⟩
  · intro hfirst
    refine ⟨hfirst.1, fun j hj => ?_⟩
    cases j with
    | zero => exact h
    | succ j => exact hfirst.2 j (by omega)

theorem findFrom_eq_some_iff {pattern text : List Char} {k i : Nat} :
    findFrom pattern k text = some i ↔ ∃ j, i = k + j ∧ FirstAt pattern text j := by
  induction text generalizing k with
  | nil =>
    rw [findFrom]
    constructor
    · intro h
      split at h
      · next hempty =>
        obtain rfl := List.isEmpty_iff.mp hempty
        exact ⟨0, (Option.some.inj h).symm, List.nil_prefix, by simp⟩
      · exact absurd h (by simp)
    · intro hfirst
      obtain ⟨j, rfl, hpre, hbefore⟩ := hfirst
      obtain rfl : pattern = [] := by simpa using hpre
      cases j with
      | zero => rfl
      | succ j => exact absurd List.nil_prefix (hbefore 0 (by omega))
  | cons c text ih =>
    rw [findFrom]
    by_cases hpre : pattern <+: c :: text
    · rw [if_pos (List.isPrefixOf_iff_prefix.mpr hpre)]
      have hzero : FirstAt pattern (c :: text) 0 := ⟨hpre, by simp⟩
      constructor
      · intro h
        exact ⟨0, (Option.some.inj h).symm, hzero⟩
      · intro hfirst
        obtain ⟨j, rfl, hj⟩ := hfirst
        rw [hj.unique hzero]
        rfl
    · rw [if_neg fun h => hpre (List.isPrefixOf_iff_prefix.mp h), ih]
      constructor
      · intro hfirst
        obtain ⟨j, rfl, hj⟩ := hfirst
        exact ⟨j + 1, by omega, (firstAt_succ hpre).mpr hj⟩
      · intro hfirst
        obtain ⟨j, rfl, hj⟩ := hfirst
        cases j with
        | zero => exact absurd hj.1 hpre
        | succ j => exact ⟨j, by omega, (firstAt_succ hpre).mp hj⟩

theorem find?_eq_some_iff {pattern text : List Char} {i : Nat} :
    find? pattern text = some i ↔ FirstAt pattern text i := by
  rw [find?, findFrom_eq_some_iff]
  simp

/-- A pattern that occurs has a first occurrence. -/
theorem find?_eq_none_iff {pattern text : List Char} :
    find? pattern text = none ↔ ¬ pattern <:+: text := by
  constructor
  · intro hnone hin
    obtain ⟨pre, post, htext⟩ := hin
    have hoccurs : ∃ i, pattern <+: text.drop i := by
      refine ⟨pre.length, post, ?_⟩
      rw [← htext, List.append_assoc, List.drop_left]
    have hfirst : FirstAt pattern text (Nat.find hoccurs) :=
      ⟨Nat.find_spec hoccurs, fun j hj => Nat.find_min hoccurs hj⟩
    rw [← find?_eq_some_iff, hnone] at hfirst
    exact absurd hfirst (by simp)
  · intro hnot
    cases hfind : find? pattern text with
    | none => rfl
    | some i =>
      have hpre := (find?_eq_some_iff.mp hfind).1
      exact absurd (hpre.isInfix.trans (List.drop_suffix i text).isInfix) hnot

/-- A text has no section with names. -/
def NoSection (text : List Char) : Prop :=
  ¬ sectionStart <:+: text ∨ ¬ sectionEnd <:+: text ∨
    ∃ first last, FirstAt sectionStart text first ∧ FirstAt sectionEnd text last ∧ last < first

/-- The section of a text with names. -/
def IsSection (text names : List Char) : Prop :=
  ∃ first last, FirstAt sectionStart text first ∧ FirstAt sectionEnd text last ∧ first ≤ last ∧
    names = (text.take last).drop first

theorem section?_eq_some_iff {text names : List Char} : section? text = some names ↔
    IsSection text names := by
  rw [section?]
  constructor
  · intro h
    split at h
    · next first last hfirst hlast =>
      split at h
      · exact absurd h (by simp)
      · next hle =>
        exact ⟨first, last, find?_eq_some_iff.mp hfirst, find?_eq_some_iff.mp hlast, by omega,
          (Option.some.inj h).symm⟩
    · exact absurd h (by simp)
  · intro hsection
    obtain ⟨first, last, hfirst, hlast, hle, rfl⟩ := hsection
    rw [find?_eq_some_iff.mpr hfirst, find?_eq_some_iff.mpr hlast]
    exact if_neg (by omega)

theorem section?_eq_none_iff {text : List Char} : section? text = none ↔ NoSection text := by
  rw [section?]
  cases hfirst : find? sectionStart text with
  | none => simp [NoSection, ← find?_eq_none_iff, hfirst]
  | some first =>
    cases hlast : find? sectionEnd text with
    | none => simp [NoSection, ← find?_eq_none_iff, hlast]
    | some last => simp [NoSection, ← find?_eq_none_iff, ← find?_eq_some_iff, hfirst, hlast]

/-! ### Names -/

theorem isNameChar_iff {c : Char} :
    isNameChar c = true ↔ c.isAlphanum = true ∨ c = '-' ∨
      c = '\u0130' ∨ c = '\u0131' ∨ c = '\u017F' ∨ c = '\u212A' := by
  simp only [isNameChar, MacroCall.isNameChar, isFoldedNameChar, Bool.or_eq_true, beq_iff_eq]
  simp only [or_assoc]

/-- A word that can be listed: ASCII letters, digits, hyphens, and the four characters that are
taken for a letter of another case. -/
def IsName (name : List Char) : Prop :=
  name ≠ [] ∧ ∀ c ∈ name, c.isAlphanum = true ∨ c = '-' ∨
    c = '\u0130' ∨ c = '\u0131' ∨ c = '\u017F' ∨ c = '\u212A'

theorem isName_iff {name : List Char} :
    IsName name ↔ name ≠ [] ∧ ∀ c ∈ name, isNameChar c = true := by
  simp only [IsName, isNameChar_iff]

/-- What can stand in no name stands in none. -/
theorem IsName.not_mem {name : List Char} (h : IsName name) {c : Char} (hc : isNameChar c = false) :
    c ∉ name := by
  intro hmem
  rw [(isName_iff.mp h).2 c hmem] at hc
  exact absurd hc (by decide)

theorem isBlank_of_isNameChar {c : Char} (h : isNameChar c = true) : isBlank c = false := by
  rw [isNameChar, Bool.or_eq_true] at h
  rcases h with h | h
  · exact MacroCall.isBlank_of_isNameChar h
  · simp only [isFoldedNameChar, Bool.or_eq_true, beq_iff_eq] at h
    rcases h with ((rfl | rfl) | rfl) | rfl <;> decide

/-- The name at the front of a text is the one that the next character ends. -/
theorem leadingName?_eq_some_iff {text name rest : List Char} {c : Char}
    (hc : isNameChar c = false) :
    leadingName? text = some (name, c :: rest) ↔ IsName name ∧ text = name ++ c :: rest := by
  rw [leadingName?, isName_iff]
  constructor
  · intro h
    split at h
    · exact absurd h (by simp)
    · next hne =>
      obtain ⟨rfl, hrest⟩ := Prod.mk.inj (Option.some.inj h)
      rw [← hrest, List.takeWhile_append_dropWhile]
      exact ⟨⟨by simpa using hne, fun d hd => List.mem_takeWhile_imp hd⟩, rfl⟩
  · intro hname
    obtain ⟨⟨hne, hall⟩, rfl⟩ := hname
    have hstop : ∀ d ∈ (c :: rest).head?, isNameChar d = false := stops_cons hc rest
    rw [takeWhile_stretch hall hstop, dropWhile_stretch hall hstop]
    simp [hne]

/-! ### Entries and aliases -/

/-- A text that begins with a bulleted entry. -/
def BeginsEntry (name text : List Char) : Prop :=
  IsName name ∧ ∃ blanks rest, AllBlank blanks ∧ blanks ≠ [] ∧
    text = '*' :: (blanks ++ '[' :: '(' :: (name ++ ':' :: rest))

/-- A text that begins with an alias in parentheses. -/
def BeginsAlias (name text : List Char) : Prop :=
  IsName name ∧ ∃ rest, text = '(' :: (name ++ ':' :: ')' :: rest)

/-- A text that is empty or ends a line: what follows begins a line. -/
def EndsLine (text : List Char) : Prop :=
  text = [] ∨ text.getLast? = some '\n'

/-- A text at the end of which only blanks, and some, stand behind the start of a line. -/
def EndsIndented (text : List Char) : Prop :=
  ∃ lines blanks, text = lines ++ blanks ∧ EndsLine lines ∧ AllBlank blanks ∧ blanks ≠ []

theorem BeginsEntry.isName {name text : List Char} (h : BeginsEntry name text) : IsName name := h.1

theorem BeginsAlias.isName {name text : List Char} (h : BeginsAlias name text) : IsName name := h.1

/-- **What a section lists**: the names of its bulleted entries, and those that stand in parentheses
with only blanks between the start of a line and the parenthesis. -/
def Lists (text name : List Char) : Prop :=
  (∃ pre rest, text = pre ++ rest ∧ BeginsEntry name rest) ∨
    ∃ pre rest, text = pre ++ rest ∧ EndsIndented pre ∧ BeginsAlias name rest

theorem Lists.isName {text name : List Char} (h : Lists text name) : IsName name := by
  rcases h with ⟨pre, rest, -, hentry⟩ | ⟨pre, rest, -, -, halias⟩
  · exact hentry.isName
  · exact halias.isName

theorem entryBehind?_eq_some_iff {text name : List Char} :
    entryBehind? text = some name ↔ BeginsEntry name ('*' :: text) := by
  constructor
  · intro h
    unfold entryBehind? at h
    split at h
    · exact absurd h (by simp)
    · next c tail =>
      split at h
      · next hblank =>
        split at h
        · next rest hrest =>
          split at h
          · next name' rest' hname =>
            obtain rfl := Option.some.inj h
            obtain ⟨hisName, hcut⟩ := (leadingName?_eq_some_iff (by decide)).mp hname
            refine ⟨hisName, (c :: tail).takeWhile isBlank, rest', allBlank_takeWhile _,
              by simp [hblank], ?_⟩
            rw [← hcut, ← hrest, List.takeWhile_append_dropWhile]
          · exact absurd h (by simp)
        · exact absurd h (by simp)
      · exact absurd h (by simp)
  · intro hentry
    obtain ⟨hname, blanks, rest, hblanks, hne, htext⟩ := hentry
    obtain rfl : text = blanks ++ '[' :: '(' :: (name ++ ':' :: rest) := by simpa using htext
    have hstop : ∀ c ∈ ('[' :: '(' :: (name ++ ':' :: rest)).head?, isBlank c = false :=
      stops_cons (by decide) _
    have hdrop := dropWhile_stretch hblanks hstop
    obtain ⟨b, blanks, rfl⟩ := List.exists_cons_of_ne_nil hne
    have hb : isBlank b = true := hblanks b List.mem_cons_self
    rw [List.cons_append] at hdrop ⊢
    simp only [entryBehind?, if_pos hb, hdrop,
      (leadingName?_eq_some_iff (c := ':') (by decide)).mpr ⟨hname, rfl⟩]

theorem aliasBehind?_eq_some_iff {text name : List Char} :
    aliasBehind? text = some name ↔ BeginsAlias name ('(' :: text) := by
  constructor
  · intro h
    unfold aliasBehind? at h
    split at h
    · next name' rest hname =>
      obtain rfl := Option.some.inj h
      obtain ⟨hisName, rfl⟩ := (leadingName?_eq_some_iff (by decide)).mp hname
      exact ⟨hisName, rest, rfl⟩
    · exact absurd h (by simp)
  · intro halias
    obtain ⟨hname, rest, htext⟩ := halias
    obtain rfl : text = name ++ ':' :: ')' :: rest := by simpa using htext
    simp only [aliasBehind?, (leadingName?_eq_some_iff (c := ':') (by decide)).mpr ⟨hname, rfl⟩]

/-! ### The scan -/

/-- What the scan holds behind a text. -/
def lead (text : List Char) : Lead :=
  text.foldl Lead.next .lineStart

theorem lead_concat (text : List Char) (c : Char) : lead (text ++ [c]) = (lead text).next c := by
  simp [lead, List.foldl_append]

theorem endsLine_concat {text : List Char} {c : Char} : EndsLine (text ++ [c]) ↔ c = '\n' := by
  simp [EndsLine]

theorem not_endsIndented_nil : ¬ EndsIndented [] := by
  intro hindented
  obtain ⟨lines, blanks, htext, -, -, hne⟩ := hindented
  exact hne (List.append_eq_nil_iff.mp htext.symm).2

theorem endsIndented_concat {text : List Char} {c : Char} :
    EndsIndented (text ++ [c]) ↔ isBlank c = true ∧ (EndsLine text ∨ EndsIndented text) := by
  constructor
  · intro hindented
    obtain ⟨lines, blanks, htext, hlines, hblanks, hne⟩ := hindented
    rcases List.eq_nil_or_concat blanks with rfl | ⟨blanks, b, rfl⟩
    · exact absurd rfl hne
    · rw [List.concat_eq_append, ← List.append_assoc] at htext
      obtain ⟨rfl, hcb⟩ := List.append_inj' htext rfl
      obtain rfl : c = b := by simpa using hcb
      refine ⟨hblanks c (by simp), ?_⟩
      by_cases hnil : blanks = []
      · subst hnil
        exact Or.inl (by simpa using hlines)
      · exact Or.inr ⟨lines, blanks, rfl, hlines, fun d hd => hblanks d (by simp [hd]), hnil⟩
  · intro hc
    obtain ⟨hblank, hline | ⟨lines, blanks, rfl, hlines, hblanks, -⟩⟩ := hc
    · exact ⟨text, [c], rfl, hline, by simpa [AllBlank] using hblank, by simp⟩
    · refine ⟨lines, blanks ++ [c], by simp, hlines, hblanks.append ?_, by simp⟩
      simpa [AllBlank] using hblank

/-- **What the scan holds** says how the text behind it stands to the start of a line. -/
theorem lead_iff (text : List Char) :
    (lead text = .indented ↔ EndsIndented text) ∧
      (lead text = .text ↔ ¬ EndsLine text ∧ ¬ EndsIndented text) := by
  induction text using List.reverseRecOn with
  | nil => simp [lead, EndsLine, not_endsIndented_nil]
  | append_singleton text c ih =>
    obtain ⟨ihindented, ihtext⟩ := ih
    rw [lead_concat, endsLine_concat, endsIndented_concat, Lead.next]
    by_cases hlead : lead text = .text
    · -- a line with text on it: only its line feed ends that
      obtain ⟨hline, hindented⟩ := ihtext.mp hlead
      by_cases hc : c = '\n' <;> simp [hlead, hline, hindented, hc]
    · have hfront : EndsLine text ∨ EndsIndented text := by
        by_contra hnot
        exact hlead (ihtext.mpr (not_or.mp hnot))
      cases hblank : isBlank c with
      | true => simp [hlead, hfront]
      | false =>
        have hc : c ≠ '\n' := by
          rintro rfl
          exact absurd hblank (by decide)
        simp [hlead, hc]

theorem foldl_next_eq_indented_iff {text : List Char} :
    text.foldl Lead.next .lineStart = .indented ↔ EndsIndented text :=
  (lead_iff text).1

theorem nameAt?_eq_some_iff {l : Lead} {c : Char} {rest name : List Char} :
    nameAt? l c rest = some name ↔
      BeginsEntry name (c :: rest) ∨ (l = .indented ∧ BeginsAlias name (c :: rest)) := by
  have hentry : BeginsEntry name (c :: rest) → c = '*' := by
    intro hbegins
    obtain ⟨-, blanks, tail, -, -, htext⟩ := hbegins
    exact (List.cons.inj htext).1
  have halias : BeginsAlias name (c :: rest) → c = '(' := by
    intro hbegins
    obtain ⟨-, tail, htext⟩ := hbegins
    exact (List.cons.inj htext).1
  by_cases hstar : c = '*'
  · subst hstar
    have hno : ¬ BeginsAlias name ('*' :: rest) := fun h => absurd (halias h) (by decide)
    simp [nameAt?, entryBehind?_eq_some_iff, hno]
  · have hno : ¬ BeginsEntry name (c :: rest) := fun h => hstar (hentry h)
    by_cases hopen : c = '('
    · subst hopen
      by_cases hl : l = .indented <;> simp [nameAt?, hl, aliasBehind?_eq_some_iff, hno]
    · have hno' : ¬ BeginsAlias name (c :: rest) := fun h => hopen (halias h)
      simp [nameAt?, hstar, hopen, hno, hno']

/-- The names that are collected from a text, besides those found before it. -/
theorem mem_collect_iff {l : Lead} {found : List (List Char)} {text name : List Char} :
    name ∈ collect l found text ↔
      name ∈ found ∨ ∃ pre c rest, text = pre ++ c :: rest ∧
        nameAt? (pre.foldl Lead.next l) c rest = some name := by
  induction text generalizing l found with
  | nil => simp [collect]
  | cons c text ih =>
    rw [collect, ih, List.mem_append, Option.mem_toList]
    constructor
    · intro hmem
      rcases hmem with (hhere | hfound) | ⟨pre, d, rest, rfl, hname⟩
      · exact Or.inr ⟨[], c, text, rfl, hhere⟩
      · exact Or.inl hfound
      · exact Or.inr ⟨c :: pre, d, rest, rfl, hname⟩
    · intro hmem
      rcases hmem with hfound | ⟨pre, d, rest, htext, hname⟩
      · exact Or.inl (Or.inr hfound)
      · cases pre with
        | nil =>
          obtain ⟨rfl, rfl⟩ := List.cons.inj htext
          exact Or.inl (Or.inl hname)
        | cons e pre =>
          obtain ⟨rfl, rfl⟩ := List.cons.inj htext
          exact Or.inr ⟨pre, d, rest, rfl, hname⟩

theorem BeginsEntry.ne_nil {name text : List Char} (h : BeginsEntry name text) : text ≠ [] := by
  obtain ⟨-, blanks, rest, -, -, rfl⟩ := h
  simp

theorem BeginsAlias.ne_nil {name text : List Char} (h : BeginsAlias name text) : text ≠ [] := by
  obtain ⟨-, rest, rfl⟩ := h
  simp

/-- **The names in a section.** -/
theorem mem_listedNames_iff {text name : List Char} : name ∈ listedNames text ↔ Lists text name := by
  rw [listedNames, mem_collect_iff]
  simp only [nameAt?_eq_some_iff, foldl_next_eq_indented_iff, List.not_mem_nil, false_or]
  constructor
  · intro hlisted
    obtain ⟨pre, c, rest, htext, hentry | ⟨hindented, halias⟩⟩ := hlisted
    · exact Or.inl ⟨pre, c :: rest, htext, hentry⟩
    · exact Or.inr ⟨pre, c :: rest, htext, hindented, halias⟩
  · intro hlists
    rcases hlists with ⟨pre, rest, htext, hentry⟩ | ⟨pre, rest, htext, hindented, halias⟩
    · obtain ⟨c, rest, rfl⟩ := List.exists_cons_of_ne_nil hentry.ne_nil
      exact ⟨pre, c, rest, htext, Or.inl hentry⟩
    · obtain ⟨c, rest, rfl⟩ := List.exists_cons_of_ne_nil halias.ne_nil
      exact ⟨pre, c, rest, htext, Or.inr ⟨hindented, halias⟩⟩

/-! ### Two searches -/

/-- The pattern of a bulleted entry. -/
def entryPattern : Pattern := fun _ text =>
  match text with
  | '*' :: rest =>
    (entryBehind? rest).map fun name => (name, (rest.takeWhile isBlank).length + name.length + 4)
  | _ => none

/-- The pattern of an alias with the blanks in front of it, at the start of a line. -/
def aliasPattern : Pattern := fun before text =>
  if before = none ∨ before = some '\n' then
    match text.takeWhile isBlank, text.dropWhile isBlank with
    | b :: blanks, '(' :: rest =>
      (aliasBehind? rest).map fun name => (name, (b :: blanks).length + name.length + 3)
    | _, _ => none
  else none

theorem entryPattern_eq_some_iff {before : Option Char} {text name : List Char} {length : Nat} :
    entryPattern before text = some (name, length) ↔
      IsName name ∧ ∃ blanks rest, AllBlank blanks ∧ blanks ≠ [] ∧
        text = '*' :: (blanks ++ '[' :: '(' :: (name ++ ':' :: rest)) ∧
        length = blanks.length + name.length + 4 := by
  have htake : ∀ {blanks : List Char} (rest : List Char), AllBlank blanks →
      (blanks ++ '[' :: rest).takeWhile isBlank = blanks :=
    fun rest hblanks => takeWhile_stretch hblanks (stops_cons (by decide) rest)
  unfold entryPattern
  constructor
  · intro h
    split at h
    · next rest =>
      obtain ⟨name', hentry, hpair⟩ := Option.map_eq_some_iff.mp h
      obtain ⟨rfl, rfl⟩ := Prod.mk.inj hpair
      obtain ⟨hname, blanks, tail, hblanks, hne, htext⟩ := entryBehind?_eq_some_iff.mp hentry
      obtain rfl : rest = blanks ++ '[' :: '(' :: (name' ++ ':' :: tail) := by simpa using htext
      exact ⟨hname, blanks, tail, hblanks, hne, rfl, by rw [htake _ hblanks]⟩
    · exact absurd h (by simp)
  · intro hmatch
    obtain ⟨hname, blanks, tail, hblanks, hne, rfl, rfl⟩ := hmatch
    have hentry : entryBehind? (blanks ++ '[' :: '(' :: (name ++ ':' :: tail)) = some name :=
      entryBehind?_eq_some_iff.mpr ⟨hname, blanks, tail, hblanks, hne, rfl⟩
    simp only [hentry, htake _ hblanks, Option.map_some]

theorem aliasPattern_eq_some_iff {before : Option Char} {text name : List Char} {length : Nat} :
    aliasPattern before text = some (name, length) ↔
      (before = none ∨ before = some '\n') ∧ ∃ blanks rest, AllBlank blanks ∧ blanks ≠ [] ∧
        text = blanks ++ rest ∧ BeginsAlias name rest ∧
        length = blanks.length + name.length + 3 := by
  unfold aliasPattern
  constructor
  · intro h
    split at h
    · next hbefore =>
      split at h
      · next b blanks rest hblanks hrest =>
        obtain ⟨name', halias, hpair⟩ := Option.map_eq_some_iff.mp h
        obtain ⟨rfl, rfl⟩ := Prod.mk.inj hpair
        refine ⟨hbefore, b :: blanks, '(' :: rest, ?_, by simp, ?_,
          aliasBehind?_eq_some_iff.mp halias, rfl⟩
        · rw [← hblanks]
          exact allBlank_takeWhile text
        · rw [← hblanks, ← hrest, List.takeWhile_append_dropWhile]
      · exact absurd h (by simp)
    · exact absurd h (by simp)
  · intro hmatch
    obtain ⟨hbefore, blanks, rest, hblanks, hne, rfl, halias, rfl⟩ := hmatch
    obtain ⟨tail, rfl⟩ : ∃ tail, rest = '(' :: tail := by
      obtain ⟨-, tail, rfl⟩ := halias
      exact ⟨_, rfl⟩
    have hstop : ∀ c ∈ ('(' :: tail).head?, isBlank c = false := stops_cons (by decide) tail
    obtain ⟨b, blanks, rfl⟩ := List.exists_cons_of_ne_nil hne
    rw [if_pos hbefore, takeWhile_stretch hblanks hstop, dropWhile_stretch hblanks hstop]
    simp only [aliasBehind?_eq_some_iff.mpr halias, Option.map_some]

/-- An entry has its bullet at the front only. -/
theorem coherent_entryPattern : entryPattern.Coherent := by
  intro before pre rest outer length inner length' hpre hlt houter hinner
  obtain ⟨hname, blanks, tail, hblanks, -, htext, rfl⟩ := entryPattern_eq_some_iff.mp houter
  obtain ⟨-, blanks', tail', -, -, hrest, -⟩ := entryPattern_eq_some_iff.mp hinner
  -- behind the first bullet the match has no other, and `rest` would begin with one
  have hbody : '*' ∉ blanks ++ '[' :: '(' :: (outer ++ [':']) := by
    intro hmem
    simp only [List.mem_append, List.mem_cons, List.not_mem_nil, or_false] at hmem
    rcases hmem with hmem | hmem | hmem | hmem | hmem
    · exact absurd (hblanks _ hmem) (by decide)
    · exact absurd hmem (by decide)
    · exact absurd hmem (by decide)
    · exact absurd ((isName_iff.mp hname).2 _ hmem) (by decide)
    · exact absurd hmem (by decide)
  obtain ⟨c, pre, rfl⟩ := List.exists_cons_of_ne_nil hpre
  have hsplit : pre ++ rest = (blanks ++ '[' :: '(' :: (outer ++ [':'])) ++ tail := by
    simpa using (List.cons.inj htext).2
  rw [List.length_cons] at hlt
  rw [hrest] at hsplit
  exact absurd (Pattern.mem_of_append_eq hsplit (by simp; omega)) hbody

/-- A second match inside an alias begins in the blanks in front of it. -/
theorem coherent_aliasPattern : aliasPattern.Coherent := by
  intro before pre rest outer length inner length' hpre hlt houter hinner
  obtain ⟨-, blanks, tail, hblanks, -, htext, hout, rfl⟩ := aliasPattern_eq_some_iff.mp houter
  obtain ⟨-, blanks', tail', hblanks', hne', rfl, hin, -⟩ := aliasPattern_eq_some_iff.mp hinner
  obtain ⟨hname, more, rfl⟩ := id hout
  obtain ⟨-, more', rfl⟩ := id hin
  rcases List.append_eq_append_iff.mp htext with ⟨mid, hmid, hrest⟩ | ⟨mid, rfl, hrest⟩
  · -- both matches have the same parenthesis, the first that the blanks lead to
    have hmidBlank : AllBlank mid := fun c hc => hblanks c (by simp [hmid, hc])
    have hdrop := congrArg (List.dropWhile isBlank) hrest
    rw [dropWhile_stretch hblanks' (stops_cons (by decide) _),
      dropWhile_stretch hmidBlank (stops_cons (by decide) _)] at hdrop
    have hsame : inner ++ ':' :: ')' :: more' = outer ++ ':' :: ')' :: more := by simpa using hdrop
    have hinName := aliasBehind?_eq_some_iff.mpr hin
    rw [hsame, aliasBehind?_eq_some_iff.mpr hout] at hinName
    exact (Option.some.inj hinName).symm
  · -- the second match would begin with a blank that the first does not have there
    have hbody : ∀ c ∈ '(' :: (outer ++ [':', ')']), isBlank c = false := by
      intro c hc
      simp only [List.mem_append, List.mem_cons, List.not_mem_nil, or_false] at hc
      rcases hc with rfl | hc | rfl | rfl
      · decide
      · exact isBlank_of_isNameChar ((isName_iff.mp hname).2 c hc)
      · decide
      · decide
    obtain ⟨b, blanks', rfl⟩ := List.exists_cons_of_ne_nil hne'
    have hsplit : mid ++ b :: (blanks' ++ '(' :: (inner ++ ':' :: ')' :: more')) =
        ('(' :: (outer ++ [':', ')'])) ++ more := by
      simpa using hrest.symm
    rw [List.length_append] at hlt
    have hb := hbody b (Pattern.mem_of_append_eq hsplit (by simp; omega))
    rw [hblanks' b List.mem_cons_self] at hb
    exact absurd hb (by decide)

theorem finds_entryPattern_iff {text name : List Char} :
    entryPattern.Finds none 0 text name ↔
      ∃ pre rest, text = pre ++ rest ∧ BeginsEntry name rest := by
  constructor
  · intro hfinds
    obtain ⟨pre, rest, length, htext, -, -, hmatch⟩ := hfinds
    obtain ⟨hname, blanks, tail, hblanks, hne, hrest, -⟩ := entryPattern_eq_some_iff.mp hmatch
    exact ⟨pre, rest, htext, hname, blanks, tail, hblanks, hne, hrest⟩
  · intro hentry
    obtain ⟨pre, rest, htext, hbegins⟩ := hentry
    obtain ⟨hname, blanks, tail, hblanks, hne, hrest⟩ := id hbegins
    exact ⟨pre, rest, _, htext, hbegins.ne_nil, Nat.zero_le _,
      entryPattern_eq_some_iff.mpr ⟨hname, blanks, tail, hblanks, hne, hrest, rfl⟩⟩

theorem finds_aliasPattern_iff {text name : List Char} :
    aliasPattern.Finds none 0 text name ↔
      ∃ pre rest, text = pre ++ rest ∧ EndsIndented pre ∧ BeginsAlias name rest := by
  have hline : ∀ pre : List Char, EndsLine pre ↔
      pre.getLast?.or none = none ∨ pre.getLast?.or none = some '\n' := by
    intro pre
    rw [Option.or_none, List.getLast?_eq_none_iff]
    exact Iff.rfl
  constructor
  · intro hfinds
    obtain ⟨lines, rest, length, rfl, -, -, hmatch⟩ := hfinds
    obtain ⟨hbefore, blanks, tail, hblanks, hne, rfl, halias, -⟩ :=
      aliasPattern_eq_some_iff.mp hmatch
    exact ⟨lines ++ blanks, tail, by simp,
      ⟨lines, blanks, rfl, (hline lines).mpr hbefore, hblanks, hne⟩, halias⟩
  · intro halias
    obtain ⟨pre, rest, rfl, ⟨lines, blanks, rfl, hlines, hblanks, hne⟩, hbegins⟩ := halias
    exact ⟨lines, blanks ++ rest, _, by simp, by simp [hne], Nat.zero_le _,
      aliasPattern_eq_some_iff.mpr
        ⟨(hline lines).mp hlines, blanks, rest, hblanks, hne, rfl, hbegins, rfl⟩⟩

/-- **Two searches find all that is listed**, though each goes on behind its last match. -/
theorem mem_search_iff_lists {text name : List Char} :
    name ∈ entryPattern.search none 0 text ++ aliasPattern.search none 0 text ↔
      Lists text name := by
  rw [List.mem_append, coherent_entryPattern.mem_search_iff, coherent_aliasPattern.mem_search_iff,
    finds_entryPattern_iff, finds_aliasPattern_iff]
  rfl

/-! ### The vocabulary -/

theorem vocabulary?_eq_some_iff {markdown : String} {v : Vocabulary} :
    vocabulary? markdown = some v ↔
      ∃ names, IsSection markdown.toList names ∧ ∀ name : String, name ∈ v ↔
        Lists names name.toList := by
  have hmem : ∀ (names : List Char) (name : String),
      name ∈ NameSet.ofList ((listedNames names).map String.ofList) ↔ Lists names name.toList := by
    intro names name
    rw [NameSet.mem_ofList, ← mem_listedNames_iff, List.mem_map]
    constructor
    · intro hlisted
      obtain ⟨word, hword, rfl⟩ := hlisted
      rwa [String.toList_ofList]
    · intro hlisted
      exact ⟨name.toList, hlisted, String.ofList_toList⟩
  rw [vocabulary?, Option.map_eq_some_iff]
  constructor
  · intro hsome
    obtain ⟨names, hnames, rfl⟩ := hsome
    exact ⟨names, section?_eq_some_iff.mp hnames, hmem names⟩
  · intro hsome
    obtain ⟨names, hnames, hlists⟩ := hsome
    refine ⟨names, section?_eq_some_iff.mpr hnames, NameSet.ext_of_mem_iff fun name => ?_⟩
    rw [hmem, hlists]

end Vocabulary.Reference

open Vocabulary.Reference

theorem Vocabulary.ofReference_eq_ok_iff {markdown : String} {v : Vocabulary} :
    ofReference markdown = .ok v ↔
      ∃ names, IsSection markdown.toList names ∧ ∀ name : String, name ∈ v ↔
        Lists names name.toList := by
  rw [← vocabulary?_eq_some_iff, ofReference]
  cases vocabulary? markdown <;> simp

/-- **The vocabulary of a manual.** There is none if a heading is missing or the second comes first;
otherwise it has the names that the section between the headings lists, which are those that the two
searches find. -/
theorem Vocabulary.ofReference_lists (markdown : String) :
    ((∃ e, ofReference markdown = .error e) ↔ NoSection markdown.toList) ∧
      ∀ v, ofReference markdown = .ok v ↔
        ∃ names, IsSection markdown.toList names ∧ ∀ name : String,
          (name ∈ v ↔ Lists names name.toList) ∧
          (name ∈ v ↔
            name.toList ∈ entryPattern.search none 0 names ++ aliasPattern.search none 0 names) := by
  have hnone : vocabulary? markdown = none ↔ NoSection markdown.toList := by
    rw [vocabulary?, Option.map_eq_none_iff, section?_eq_none_iff]
  simp only [mem_search_iff_lists, and_self, ← vocabulary?_eq_some_iff, ← hnone]
  unfold ofReference
  cases vocabulary? markdown <;> simp

end TweeLint
