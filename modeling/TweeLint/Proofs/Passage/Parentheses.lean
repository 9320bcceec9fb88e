import TweeLint.Lint
import TweeLint.Proofs.Balance.Scan
import TweeLint.Proofs.MacroCall

/-!
# What the checks see of a passage

The two checks of a passage look at its parentheses and at nothing else: where each stands, whether
it opens or closes, and which name a call has that begins there. The list of these (`parens`) is all
that the diagnostics depend on (`Passage.lint_eq_lintParens`), so two texts with the same list are
reported on alike, and whatever is done to the positions in the list is done to those in the report
(`Vocabulary.filterMap_verdictAt?_move`, `Balance.ofParens_move`).

A list of parentheses is made character by character, each with a view of the text behind it. So it
is put together of the lists of parts (`parens_append`), and since blanks have no part in it, the
parentheses of a section are those of its raw body (`Section.lint_passage`).
-/

namespace TweeLint

/-- What a parenthesis is: an opening one, with the name of the call that begins there, if one
does, or a closing one. -/
inductive ParenKind where
  | opening (name? : Option (List Char))
  | closing
deriving DecidableEq

/-- A parenthesis at its position in the document. -/
structure Paren where
  position : Position
  kind : ParenKind
deriving DecidableEq

namespace Paren

/-- The parenthesis that a character is, if it is one, in front of the text `rest`. -/
def at? (p : Position) (c : Char) (rest : List Char) : Option Paren :=
  if c = '(' then some ⟨p, .opening (MacroCall.nameBehind? rest)⟩
  else if c = ')' then some ⟨p, .closing⟩
  else none

/-- The parenthesis at another position. -/
def move (f : Position → Position) (m : Paren) : Paren :=
  { m with position := f m.position }

end Paren

/-- The diagnostic at another position. -/
def Diagnostic.move (f : Position → Position) (d : Diagnostic) : Diagnostic :=
  { d with position := f d.position }

/-- The parentheses of a text that starts at `p` and has the text `behind` behind it. -/
def parens (p : Position) (behind : List Char) : List Char → List Paren
  | [] => []
  | c :: cs => (Paren.at? p c (cs ++ behind)).toList ++ parens (p.advance c) behind cs

/-- The positions of the open parentheses, the innermost first, and of the stray ones, the latest
first, behind one more parenthesis. -/
def leaveOpen (s : List Position × List Position) (m : Paren) : List Position × List Position :=
  match m.kind, s.1 with
  | .opening _, _ => (m.position :: s.1, s.2)
  | .closing, [] => ([], m.position :: s.2)
  | .closing, _ :: os => (os, s.2)

/-- The diagnostics for parentheses that have no counterpart. -/
def Balance.ofParens (passage : String) (ms : List Paren) : List Diagnostic :=
  let left := ms.foldl leaveOpen ([], [])
  left.2.reverse.map (.unmatched passage) ++ left.1.reverse.map (.unclosed passage)

/-- The diagnostic for the name of the call that begins at a parenthesis. -/
def Vocabulary.verdictAt? (v : Vocabulary) (passage : String) (m : Paren) : Option Diagnostic :=
  match m.kind with
  | .opening (some name) => v.verdict? passage ⟨String.ofList name, m.position, 0⟩
  | _ => none

/-- The diagnostics of a passage with the given parentheses. -/
def lintParens (v : Vocabulary) (passage : String) (ms : List Paren) : List Diagnostic :=
  ms.filterMap (v.verdictAt? passage) ++ Balance.ofParens passage ms

/-! ### Names in front of other text -/

namespace MacroCall

/-- A text that can stand neither in a name nor behind one ends the search for a name. -/
theorem nameBehind?_append_stop {xs ys : List Char}
    (h : ∀ c ∈ ys.head?, isNameChar c = false ∧ Text.isBlank c = false ∧ c ≠ ':') :
    nameBehind? (xs ++ ys) = nameBehind? xs := by
  have hname : ∀ c ∈ ys.head?, isNameChar c = false := fun c hc => (h c hc).1
  have hblank : ∀ c ∈ ys.head?, Text.isBlank c = false := fun c hc => (h c hc).2.1
  simp only [nameBehind?]
  rw [Text.takeWhile_append_stop hname, Text.dropWhile_append_stop hname,
    Text.dropWhile_append_stop hblank]
  cases (xs.dropWhile isNameChar).dropWhile Text.isBlank with
  | cons d ds => by_cases hd : d = ':' <;> simp [hd]
  | nil =>
    cases ys with
    | nil => rfl
    | cons c ys => simp [(h c rfl).2.2]

theorem nameBehind?_append_blank (xs : List Char) {back : List Char} (hb : Text.AllBlank back) :
    nameBehind? (xs ++ back) = nameBehind? xs := by
  ext name
  rw [nameBehind?_eq_some_iff, nameBehind?_eq_some_iff]
  constructor
  · intro hbegins
    rw [← List.cons_append] at hbegins
    exact hbegins.of_append_blank hb
  · intro hbegins
    exact hbegins.append back

end MacroCall

/-! ### Lists of parentheses -/

section Parens

variable {p : Position} {behind : List Char}

theorem parens_append (p : Position) (behind xs ys : List Char) :
    parens p behind (xs ++ ys) =
      parens p (ys ++ behind) xs ++ parens (p.after xs) behind ys := by
  induction xs generalizing p with
  | nil => rfl
  | cons c xs ih =>
    rw [List.cons_append, parens, parens, ih, List.append_assoc, List.append_assoc,
      Position.after_cons]

theorem Paren.at?_eq_none {c : Char} (ho : c ≠ '(') (hc : c ≠ ')') (p : Position)
    (rest : List Char) : Paren.at? p c rest = none := by
  rw [at?, if_neg ho, if_neg hc]

/-- Blanks have no parentheses in them. -/
theorem parens_of_allBlank {xs : List Char} (h : Text.AllBlank xs) : parens p behind xs = [] := by
  induction xs generalizing p with
  | nil => rfl
  | cons c xs ih =>
    have hblank : Text.isBlank c = true := h c List.mem_cons_self
    have ho : c ≠ '(' := by
      rintro rfl
      exact absurd hblank (by decide)
    have hc : c ≠ ')' := by
      rintro rfl
      exact absurd hblank (by decide)
    rw [parens, Paren.at?_eq_none ho hc, ih fun d hd => h d (List.mem_cons_of_mem _ hd)]
    rfl

/-- What stands behind a text counts only for the names of its calls. -/
theorem parens_congr {behind' xs : List Char}
    (h : ∀ cs, MacroCall.nameBehind? (cs ++ behind) = MacroCall.nameBehind? (cs ++ behind')) :
    parens p behind xs = parens p behind' xs := by
  induction xs generalizing p with
  | nil => rfl
  | cons c xs ih => rw [parens, parens, ih, Paren.at?, Paren.at?, h]

theorem parens_before_blank {xs : List Char} (h : Text.AllBlank behind) :
    parens p behind xs = parens p [] xs :=
  parens_congr fun cs => by rw [MacroCall.nameBehind?_append_blank cs h, List.append_nil]

/-- **Blanks around a text do not count.** -/
theorem parens_pad {front back : List Char} (hf : Text.AllBlank front) (hb : Text.AllBlank back)
    (xs : List Char) : parens p [] (front ++ (xs ++ back)) = parens (p.after front) [] xs := by
  rw [parens_append, parens_of_allBlank hf, List.nil_append, parens_append, List.append_nil,
    parens_before_blank hb, parens_of_allBlank hb, List.append_nil]

/-- Where the parentheses of a text stand. -/
theorem mem_parens_iff {m : Paren} {text : List Char} :
    m ∈ parens p behind text ↔
      ∃ pre c rest, text = pre ++ c :: rest ∧
        Paren.at? (p.after pre) c (rest ++ behind) = some m := by
  induction text generalizing p with
  | nil => simp [parens]
  | cons c text ih =>
    rw [parens, List.mem_append, Option.mem_toList, ih]
    constructor
    · intro hmem
      rcases hmem with hhere | ⟨pre, d, rest, rfl, hm⟩
      · exact ⟨[], c, text, rfl, hhere⟩
      · exact ⟨c :: pre, d, rest, rfl, hm⟩
    · intro hmem
      obtain ⟨pre, d, rest, htext, hm⟩ := hmem
      cases pre with
      | nil =>
        obtain ⟨rfl, rfl⟩ := List.cons.inj htext
        exact Or.inl hm
      | cons e pre =>
        obtain ⟨rfl, rfl⟩ := List.cons.inj htext
        exact Or.inr ⟨pre, d, rest, rfl, hm⟩

theorem Paren.position_of_at? {c : Char} {rest : List Char} {m : Paren}
    (h : Paren.at? p c rest = some m) : m.position = p := by
  unfold at? at h
  split at h
  · obtain rfl := Option.some.inj h
    rfl
  · split at h
    · obtain rfl := Option.some.inj h
      rfl
    · exact absurd h (by simp)

/-! ### Parentheses in order -/

theorem lt_position_of_mem_parens {q : Position} {text : List Char} {m : Paren} (h : q < p)
    (hm : m ∈ parens p behind text) : q < m.position := by
  obtain ⟨pre, c, rest, -, hat⟩ := mem_parens_iff.mp hm
  rw [Paren.position_of_at? hat]
  exact Position.lt_after h pre

theorem position_lt_of_mem_parens {text : List Char} {m : Paren} (hm : m ∈ parens p behind text) :
    m.position < p.after text := by
  obtain ⟨pre, c, rest, htext, hat⟩ := mem_parens_iff.mp hm
  rw [Paren.position_of_at? hat, htext, Position.after_append]
  exact Position.lt_after_cons _ c rest

end Parens

/-! ### Names -/

/-- The calls of a text begin at its parentheses. -/
theorem Vocabulary.verdicts_collect (v : Vocabulary) (passage : String) (site : Site)
    (found : List MacroCall) (text : List Char) :
    v.verdicts passage (MacroCall.collect site found text) =
      v.verdicts passage found.reverse ++
        (parens site.position [] text).filterMap (v.verdictAt? passage) := by
  induction text generalizing site found with
  | nil => simp [MacroCall.collect, parens]
  | cons c text ih =>
    have hhere : v.verdicts passage (MacroCall.startingAt? site c text).toList =
        (Paren.at? site.position c text).toList.filterMap (v.verdictAt? passage) := by
      by_cases ho : c = '('
      · subst ho
        simp only [MacroCall.startingAt?, Paren.at?, ↓reduceIte]
        cases MacroCall.nameBehind? text with
        | none => rfl
        | some name => rfl
      · by_cases hc : c = ')' <;> simp [MacroCall.startingAt?, Paren.at?, ho, hc, verdicts,
          verdictAt?]
    rw [MacroCall.collect, ih, List.reverse_append, verdicts, List.filterMap_append, parens,
      List.filterMap_append, List.append_nil, ← hhere, List.append_assoc]
    cases MacroCall.startingAt? site c text <;> rfl

theorem Vocabulary.verdicts_find (v : Vocabulary) (passage : String) (start : Position)
    (content : String) :
    v.verdicts passage (MacroCall.find start content) =
      (parens start [] content.toList).filterMap (v.verdictAt? passage) :=
  v.verdicts_collect passage (.first start) [] content.toList

/-! ### Balance -/

namespace Balance

namespace State

/-- The positions of the open and the stray parentheses. -/
def left (s : State) : List Position × List Position :=
  (s.openers.map Site.position, s.strays.map Site.position)

theorem left_step {s : State} (h : s.Coherent) (c : Char) (rest : List Char) :
    (s.step c).left = (Paren.at? s.site.position c rest).toList.foldl leaveOpen s.left := by
  by_cases ho : c = '('
  · subst ho
    rfl
  · by_cases hc : c = ')'
    · subst hc
      cases hs : s.openers with
      | nil =>
        rw [step_stray h hs]
        simp [left, hs, Paren.at?, leaveOpen]
      | cons o os =>
        rw [step_close h hs]
        simp [left, hs, Paren.at?, leaveOpen]
    · rw [step_other ho hc, Paren.at?_eq_none ho hc]
      rfl

/-- **A run of the scan** leaves what the parentheses that it reads leave. -/
theorem left_foldl_step {s : State} (h : s.Coherent) (behind text : List Char) :
    (text.foldl step s).left = (parens s.site.position behind text).foldl leaveOpen s.left := by
  induction text generalizing s with
  | nil => rfl
  | cons c text ih =>
    rw [List.foldl_cons, ih (h.step c), left_step h c (text ++ behind), step_site, parens,
      List.foldl_append]
    rfl

end State

theorem check_eq_ofParens (passage : String) (start : Position) (content : String) :
    check passage start content = ofParens passage (parens start [] content.toList) := by
  have hleft : (parens start [] content.toList).foldl leaveOpen ([], []) =
      (scan start content.toList).left :=
    (State.left_foldl_step (s := .initial start) rfl [] content.toList).symm
  simp only [check, ofParens, hleft, State.left]
  simp [Function.comp_def]

/-- The balance has nothing to do with names. -/
theorem kind_of_mem_ofParens {passage : String} {ms : List Paren} {d : Diagnostic}
    (h : d ∈ ofParens passage ms) : d.kind ≠ .invalidMacro := by
  rw [ofParens, List.mem_append, List.mem_map, List.mem_map] at h
  rcases h with ⟨p, -, rfl⟩ | ⟨p, -, rfl⟩
  · simp [Diagnostic.unmatched]
  · simp [Diagnostic.unclosed]

end Balance

/-! ### Passages -/

/-- **The diagnostics of a passage** depend on its parentheses only. -/
theorem Passage.lint_eq_lintParens (v : Vocabulary) (p : Passage) :
    p.lint v = lintParens v p.name (parens p.contentStart [] p.content.toList) := by
  rw [lint, calls, Vocabulary.verdicts_find, Balance.check_eq_ofParens]
  rfl

/-- **The diagnostics of a section** are those of the parentheses of its raw body. -/
theorem Section.lint_passage (v : Vocabulary) (s : Section) :
    s.passage.lint v = lintParens v (String.ofList s.name)
      (parens ((Position.mk s.line 1).after s.header) [] s.body) := by
  obtain ⟨back, hback, hbody⟩ := Text.exists_eq_trim s.body
  rw [Passage.lint_eq_lintParens]
  simp only [passage, contentStart, String.toList_ofList]
  conv_rhs => rw [hbody]
  rw [parens_pad (Text.allBlank_takeWhile s.body) hback, Position.after_append]

/-! ### Other positions -/

section Move

variable (f : Position → Position)

theorem Vocabulary.verdictAt?_move (v : Vocabulary) (passage : String) (m : Paren) :
    v.verdictAt? passage (m.move f) = (v.verdictAt? passage m).map (·.move f) := by
  obtain ⟨position, kind⟩ := m
  cases kind with
  | closing => rfl
  | opening name? =>
    cases name? with
    | none => rfl
    | some name =>
      simp only [verdictAt?, Paren.move, verdict?]
      split <;> rfl

theorem leaveOpen_move (s : List Position × List Position) (m : Paren) :
    leaveOpen (s.1.map f, s.2.map f) (m.move f) =
      ((leaveOpen s m).1.map f, (leaveOpen s m).2.map f) := by
  obtain ⟨position, kind⟩ := m
  obtain ⟨openers, strays⟩ := s
  cases kind with
  | opening name? => rfl
  | closing => cases openers <;> rfl

theorem foldl_leaveOpen_move (s : List Position × List Position) (ms : List Paren) :
    (ms.map (·.move f)).foldl leaveOpen (s.1.map f, s.2.map f) =
      ((ms.foldl leaveOpen s).1.map f, (ms.foldl leaveOpen s).2.map f) := by
  induction ms generalizing s with
  | nil => rfl
  | cons m ms ih => rw [List.map_cons, List.foldl_cons, leaveOpen_move, ih, List.foldl_cons]

theorem Balance.ofParens_move (passage : String) (ms : List Paren) :
    ofParens passage (ms.map (·.move f)) = (ofParens passage ms).map (·.move f) := by
  have hfold := foldl_leaveOpen_move f ([], []) ms
  simp only [List.map_nil] at hfold
  simp only [ofParens, hfold, List.map_append, List.map_reverse, List.map_map]
  rfl

theorem Vocabulary.filterMap_verdictAt?_move (v : Vocabulary) (passage : String)
    (ms : List Paren) :
    (ms.map (·.move f)).filterMap (v.verdictAt? passage) =
      (ms.filterMap (v.verdictAt? passage)).map (·.move f) := by
  rw [List.filterMap_map, List.map_filterMap]
  congr 1
  funext m
  exact v.verdictAt?_move f passage m

end Move

end TweeLint
