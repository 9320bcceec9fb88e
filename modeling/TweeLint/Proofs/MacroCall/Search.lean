import TweeLint.Proofs.Checks
import TweeLint.Proofs.Text.Matches

/-!
# Every call is found

The calls that are found in a text are those at the indices where its characters spell one
(`CallAt`), each once, from left to right, with the longest name and the position of its parenthesis
(`findChecked_every_call`).

* **Slices and rests.** What a call looks like at an index is the grammar of calls, read from that
  index on (`beginsCall_drop_iff`).
* **A search that goes on behind each match finds the same calls** (`indexedSearch_callPattern`),
  also one that reads runs as long as possible and shortens them if no colon follows
  (`callPattern`). Shortening is in vain, since blanks and colons belong to no name and colons are
  not blank, and nothing is skipped, since behind its first character a match has no parenthesis.
-/

namespace TweeLint.MacroCall

theorem isNameChar_iff {c : Char} : isNameChar c = true ↔ c.isAlphanum = true ∨ c = '-' := by
  simp [isNameChar]

/-! ### Calls by index -/

/-- At index `i` of a text stands a call: a parenthesis, a name up to index `j`, blanks up to index
`k`, and there a colon. -/
structure CallAt (text : List Char) (i j k : Nat) : Prop where
  opening : text[i]? = some '('
  named : i + 1 < j
  name : ∀ c ∈ (text.take j).drop (i + 1), c.isAlphanum = true ∨ c = '-'
  order : j ≤ k
  blanks : ∀ c ∈ (text.take k).drop j, Text.isBlank c = true
  colon : text[k]? = some ':'

section Slices

variable {text mid rest : List Char} {i j : Nat} {c : Char}

theorem drop_of_getElem? (h : text[i]? = some c) : text.drop i = c :: text.drop (i + 1) := by
  obtain ⟨hlt, hget⟩ := List.getElem?_eq_some_iff.mp h
  rw [List.drop_eq_getElem_cons hlt, hget]

theorem drop_eq_slice_append (text : List Char) (h : i ≤ j) :
    text.drop i = (text.take j).drop i ++ text.drop j := by
  have hsplit := List.take_append_drop (j - i) (text.drop i)
  rwa [List.drop_drop, Nat.add_sub_cancel' h, ← List.drop_take, eq_comm] at hsplit

theorem getElem?_of_drop (h : text.drop i = c :: rest) : text[i]? = some c := by
  rw [← List.head?_drop, h]
  rfl

theorem drop_add_of_drop (h : text.drop i = mid ++ rest) : text.drop (i + mid.length) = rest := by
  rw [← List.drop_drop, h, List.drop_left]

theorem slice_of_drop (h : text.drop i = mid ++ rest) :
    (text.take (i + mid.length)).drop i = mid := by
  rw [List.drop_take, Nat.add_sub_cancel_left, h, List.take_left]

end Slices

/-- **A call at an index** is what the grammar of calls says of the text from there on. -/
theorem beginsCall_drop_iff {text name : List Char} {i : Nat} :
    BeginsCall name (text.drop i) ↔
      ∃ j k, CallAt text i j k ∧ name = (text.take j).drop (i + 1) := by
  constructor
  · intro hbegins
    obtain ⟨hne, hname, blanks, rest, hblanks, hopening⟩ := hbegins
    have hbehind : text.drop (i + 1) = name ++ (blanks ++ ':' :: rest) := by
      rw [← List.tail_drop, hopening, List.tail_cons]
    have hend := drop_add_of_drop hbehind
    have hslice := slice_of_drop hbehind
    refine ⟨i + 1 + name.length, i + 1 + name.length + blanks.length, ?_, hslice.symm⟩
    refine ⟨getElem?_of_drop hopening, ?_, ?_, Nat.le_add_right _ _, ?_,
      getElem?_of_drop (drop_add_of_drop hend)⟩
    · exact Nat.lt_add_of_pos_right (List.length_pos_iff.mpr hne)
    · intro c hc
      rw [hslice] at hc
      exact isNameChar_iff.mp (hname c hc)
    · rw [slice_of_drop hend]
      exact hblanks
  · intro hcall
    obtain ⟨j, k, ⟨hopening, hnamed, hname, horder, hblanks, hcolon⟩, rfl⟩ := hcall
    have hk := (List.getElem?_eq_some_iff.mp hcolon).1
    refine ⟨List.ne_nil_of_length_pos ?_, fun c hc => isNameChar_iff.mpr (hname c hc),
      (text.take k).drop j, text.drop (k + 1), hblanks, ?_⟩
    · rw [List.length_drop, List.length_take]
      omega
    · rw [drop_of_getElem? hopening, drop_eq_slice_append text (Nat.le_of_lt hnamed),
        drop_eq_slice_append text horder, drop_of_getElem? hcolon]

/-- The name of a call goes as far as it can. -/
theorem CallAt.maximal {text : List Char} {i j k : Nat} (h : CallAt text i j k) :
    ∀ c ∈ text[j]?, isNameChar c = false := by
  intro c hc
  have hstop := isNameChar_of_head_blanks h.blanks (text.drop (k + 1))
  rw [← drop_of_getElem? h.colon, ← drop_eq_slice_append text h.order, List.head?_drop] at hstop
  exact hstop c hc

/-- A parenthesis has one name behind it. -/
theorem BeginsCall.unique {name name' text : List Char} (h : BeginsCall name text)
    (h' : BeginsCall name' text) : name = name' := by
  obtain ⟨-, -, blanks, rest, -, rfl⟩ := id h
  have hname := nameBehind?_eq_some_iff.mpr h
  rw [nameBehind?_eq_some_iff.mpr h'] at hname
  exact (Option.some.inj hname).symm

/-! ### A search for calls -/

/-- The text behind a colon. -/
def behindColon? : List Char → Option (List Char)
  | ':' :: rest => some rest
  | _ => none

/-- The pattern of a call: a parenthesis, a run of one or more characters of names, a run of blanks
and a colon. -/
def callPattern : Text.Pattern := fun _ text =>
  match text with
  | '(' :: c :: rest =>
    if isNameChar c then
      (Text.greedy isNameChar (Text.greedy Text.isBlank behindColon?) rest).map
        fun (run, blanks, _) => (c :: run, run.length + blanks.length + 3)
    else none
  | _ => none

theorem callPattern_of_ne {before : Option Char} {c : Char} (hc : c ≠ '(') (rest : List Char) :
    callPattern before (c :: rest) = none := by
  unfold callPattern
  split
  · next heq => exact absurd (List.cons.inj heq).1 hc
  · rfl

theorem behindColon?_of_ne {c : Char} (hc : c ≠ ':') (rest : List Char) :
    behindColon? (c :: rest) = none := by
  unfold behindColon?
  split
  · next heq => exact absurd (List.cons.inj heq).1 hc
  · rfl

/-- Runs of blanks and of name characters are never shortened. -/
theorem greedy_behindColon? (text : List Char) :
    Text.greedy isNameChar (Text.greedy Text.isBlank behindColon?) text =
      (behindColon? ((text.dropWhile isNameChar).dropWhile Text.isBlank)).map fun rest =>
        (text.takeWhile isNameChar, (text.dropWhile isNameChar).takeWhile Text.isBlank, rest) := by
  have hcolon : ∀ c rest, Text.isBlank c = true → behindColon? (c :: rest) = none := by
    intro c rest hc
    refine behindColon?_of_ne ?_ rest
    rintro rfl
    exact absurd hc (by decide)
  have hblanks : ∀ c rest, isNameChar c = true →
      Text.greedy Text.isBlank behindColon? (c :: rest) = none := by
    intro c rest hc
    have hne : c ≠ ':' := by
      rintro rfl
      exact absurd hc (by decide)
    rw [Text.greedy_eq hcolon, List.dropWhile_cons_of_neg (by simp [isBlank_of_isNameChar hc]),
      behindColon?_of_ne hne]
    rfl
  rw [Text.greedy_eq hblanks, Text.greedy_eq hcolon, Option.map_map]
  rfl

theorem nameBehind?_eq (text : List Char) :
    nameBehind? text =
      (behindColon? ((text.dropWhile isNameChar).dropWhile Text.isBlank)).bind fun _ =>
        if (text.takeWhile isNameChar).isEmpty then none else some (text.takeWhile isNameChar) := by
  unfold nameBehind?
  dsimp only
  generalize (text.dropWhile isNameChar).dropWhile Text.isBlank = behind
  split
  · rfl
  · next hno =>
    cases behind with
    | nil => rfl
    | cons c rest =>
      rw [behindColon?_of_ne (fun hc => hno rest (by rw [hc]))]
      rfl

/-- **The pattern finds what the reader finds** behind a parenthesis. -/
theorem callPattern_open (before : Option Char) (text : List Char) :
    callPattern before ('(' :: text) = (nameBehind? text).map fun name =>
      (name, name.length + ((text.dropWhile isNameChar).takeWhile Text.isBlank).length + 2) := by
  rw [nameBehind?_eq]
  cases text with
  | nil => rfl
  | cons c rest =>
    cases hc : isNameChar c with
    | false => simp [callPattern, hc]
    | true =>
      rw [callPattern, if_pos hc, greedy_behindColon?, List.takeWhile_cons_of_pos hc,
        List.dropWhile_cons_of_pos hc]
      cases behindColon? ((rest.dropWhile isNameChar).dropWhile Text.isBlank) with
      | none => rfl
      | some behind =>
        simp only [Option.map_some, Option.bind_some, List.isEmpty_cons, Bool.false_eq_true,
          ↓reduceIte, List.length_cons, Option.some.injEq, Prod.mk.injEq, true_and]
        omega

/-- What a match takes of a text, up to the colon. -/
theorem exists_of_callPattern {before : Option Char} {c : Char} {text name : List Char}
    {length : Nat} (h : callPattern before (c :: text) = some (name, length)) :
    ∃ blanks rest, (∀ d ∈ name, isNameChar d = true) ∧ Text.AllBlank blanks ∧
      text = (name ++ (blanks ++ [':'])) ++ rest ∧ length = name.length + blanks.length + 2 := by
  obtain rfl : c = '(' := by
    by_contra hc
    rw [callPattern_of_ne hc] at h
    exact absurd h (by simp)
  rw [callPattern_open, Option.map_eq_some_iff] at h
  obtain ⟨name', hname', hpair⟩ := h
  obtain ⟨rfl, rfl⟩ := Prod.mk.inj hpair
  obtain ⟨-, hname, blanks, rest, hblanks, htext⟩ := nameBehind?_eq_some_iff.mp hname'
  obtain rfl : text = name' ++ (blanks ++ ':' :: rest) := (List.cons.inj htext).2
  refine ⟨blanks, rest, hname, hblanks, by simp, ?_⟩
  rw [Text.dropWhile_stretch hname (isNameChar_of_head_blanks hblanks rest),
    Text.takeWhile_stretch hblanks (Text.stops_cons (by decide) rest)]

/-- Behind its first character a match has no parenthesis. -/
theorem apart_callPattern : callPattern.Apart := by
  intro before c text word length hmatch pre rest htext hlt
  obtain ⟨blanks, behind, hname, hblanks, rfl, rfl⟩ := exists_of_callPattern hmatch
  cases rest with
  | nil => rfl
  | cons d rest =>
    refine callPattern_of_ne ?_ rest
    rintro rfl
    have hmem := Text.Pattern.mem_of_append_eq htext.symm (by simp; omega)
    simp only [List.mem_append, List.mem_singleton] at hmem
    rcases hmem with hmem | hmem | hmem
    · exact absurd (hname _ hmem) (by decide)
    · exact absurd (hblanks _ hmem) (by decide)
    · exact absurd hmem (by decide)

/-- The index and the name of a call. -/
def indexed (call : MacroCall) : Nat × List Char :=
  (call.offset, call.name.toList)

theorem map_startingAt? (before : Option Char) (site : Site) (c : Char) (rest : List Char) :
    (startingAt? site c rest).map indexed =
      (callPattern before (c :: rest)).map fun found => (site.offset, found.1) := by
  by_cases hc : c = '('
  · subst hc
    rw [startingAt?, if_pos rfl, callPattern_open, Option.map_map, Option.map_map]
    simp [Function.comp_def, indexed]
  · rw [startingAt?, if_neg hc, callPattern_of_ne hc]
    rfl

/-- The calls that are collected are the matches of the pattern at each character. -/
theorem map_collect (before : Option Char) (site : Site) (found : List MacroCall)
    (text : List Char) :
    (collect site found text).map indexed =
      found.reverse.map indexed ++ callPattern.tryEach before site.offset text := by
  induction text generalizing before site found with
  | nil => simp [collect, Text.Pattern.tryEach]
  | cons c text ih =>
    rw [collect, ih (some c), Text.Pattern.tryEach, ← map_startingAt?, List.reverse_append,
      List.map_append, List.append_assoc]
    cases startingAt? site c text <;> rfl

theorem map_find (start : Position) (content : String) :
    (find start content).map indexed = callPattern.tryEach none 0 content.toList := by
  rw [find, map_collect none]
  rfl

/-- **A search that goes on behind each match finds every call.** -/
theorem indexedSearch_callPattern (start : Position) (content : String) :
    callPattern.indexedSearch none 0 0 content.toList = (find start content).map indexed := by
  rw [apart_callPattern.indexedSearch_eq Text.Pattern.clearFor_zero, map_find]

/-! ### All calls -/

theorem pairwise_offset_find (start : Position) (content : String) :
    ((find start content).map (·.offset)).Pairwise (· < ·) := by
  have hindices : (find start content).map (·.offset) =
      (callPattern.tryEach none 0 content.toList).map Prod.fst := by
    rw [← map_find start, List.map_map]
    rfl
  rw [hindices]
  exact Text.Pattern.pairwise_tryEach _ _ _ _

/-- The calls of a text, each with the text in front of it. -/
theorem mem_find_iff_drop {start : Position} {content : String} {call : MacroCall} :
    call ∈ find start content ↔
      ∃ i name, i ≤ content.toList.length ∧ BeginsCall name (content.toList.drop i) ∧
        call = ⟨String.ofList name, start.after (content.toList.take i), i⟩ := by
  rw [mem_find_iff]
  constructor
  · intro hcall
    obtain ⟨pre, rest, name, hcontent, hbegins, rfl⟩ := hcall
    rw [hcontent]
    refine ⟨pre.length, name, by simp, ?_, ?_⟩
    · rwa [List.drop_left]
    · rw [List.take_left]
  · intro hcall
    obtain ⟨i, name, hi, hbegins, rfl⟩ := hcall
    exact ⟨content.toList.take i, content.toList.drop i, name, (List.take_append_drop _ _).symm,
      hbegins, by rw [List.length_take_of_le hi]⟩

theorem mem_offsets_find_iff {start : Position} {content : String} {i : Nat} :
    i ∈ (find start content).map (·.offset) ↔ ∃ j k, CallAt content.toList i j k := by
  rw [List.mem_map]
  constructor
  · intro hi
    obtain ⟨call, hcall, rfl⟩ := hi
    obtain ⟨i, name, -, hbegins, rfl⟩ := mem_find_iff_drop.mp hcall
    obtain ⟨j, k, hat, -⟩ := beginsCall_drop_iff.mp hbegins
    exact ⟨j, k, hat⟩
  · intro hat
    obtain ⟨j, k, hat⟩ := hat
    have hi := (List.getElem?_eq_some_iff.mp hat.opening).1
    exact ⟨_, mem_find_iff_drop.mpr ⟨i, _, Nat.le_of_lt hi,
      beginsCall_drop_iff.mpr ⟨j, k, hat, rfl⟩, rfl⟩, rfl⟩

/-- **Every call is found**, whatever stands in front of it. The search for calls succeeds in every
text that starts at line and column 1 or above. It finds them from left to right, none twice, at
just the indices where one stands, each with the longest run of characters behind its parenthesis as
its name and with the position of the parenthesis; and these are the matches of a search that goes
on behind each match. -/
theorem findChecked_every_call {start : Position} (hline : 1 ≤ start.line)
    (hcolumn : 1 ≤ start.column) (content : String) :
    ∃ calls, findChecked start content = .ok calls ∧
      (calls.map (·.offset)).Pairwise (· < ·) ∧
      (∀ i, i ∈ calls.map (·.offset) ↔ ∃ j k, CallAt content.toList i j k) ∧
      (∀ call ∈ calls, start.CountsTo content.toList call.offset call.position ∧
        ∀ j k, CallAt content.toList call.offset j k →
          call.name.toList = (content.toList.take j).drop (call.offset + 1) ∧
            ∀ c ∈ content.toList[j]?, isNameChar c = false) ∧
      callPattern.indexedSearch none 0 0 content.toList = calls.map indexed := by
  refine ⟨find start content, findChecked_eq_ok ⟨hline, hcolumn⟩ content,
    pairwise_offset_find start content, fun i => mem_offsets_find_iff, fun call hcall => ?_,
    indexedSearch_callPattern start content⟩
  obtain ⟨i, name, hi, hbegins, rfl⟩ := mem_find_iff_drop.mp hcall
  refine ⟨start.countsTo_after hi, fun j k hat => ⟨?_, hat.maximal⟩⟩
  have hslice := beginsCall_drop_iff.mpr ⟨j, k, hat, rfl⟩
  rw [String.toList_ofList]
  exact hbegins.unique hslice

/-- Calls behind a parenthesis that begins none, and over the end of a line. -/
theorem findChecked_every_call_nested :
    (1 : Int) ≤ (Position.mk 4 3).line ∧ (1 : Int) ≤ (Position.mk 4 3).column ∧
      ∃ calls, findChecked ⟨4, 3⟩ "((a:(b (c-1\n :(d:" = .ok calls ∧
        calls = [⟨"a", ⟨4, 4⟩, 1⟩, ⟨"c-1", ⟨4, 10⟩, 7⟩, ⟨"d", ⟨5, 3⟩, 14⟩] ∧
        ∀ i, i ∈ calls.map (·.offset) ↔
          ∃ j k, CallAt "((a:(b (c-1\n :(d:".toList i j k := by
  have hline : (1 : Int) ≤ (Position.mk 4 3).line := by decide
  have hcolumn : (1 : Int) ≤ (Position.mk 4 3).column := by decide
  obtain ⟨calls, hok, -, hindices, -⟩ := findChecked_every_call hline hcolumn "((a:(b (c-1\n :(d:"
  have hcalls := hok.symm.trans (findChecked_eq_ok ⟨hline, hcolumn⟩ _)
  exact ⟨hline, hcolumn, calls, hok, (Except.ok.inj hcalls).trans (by decide), hindices⟩

end TweeLint.MacroCall
