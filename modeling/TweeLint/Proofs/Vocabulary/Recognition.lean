import TweeLint.Proofs.MacroCall.Search
import TweeLint.Proofs.Verdict
import TweeLint.Proofs.Vocabulary.Reference

/-!
# Listed names in stories

What becomes of the names that a reference manual lists when a story calls them
(`ofReference_recognises`). A document that calls a listed name is valid. The call is found, with
that name, if the name is made of ASCII characters; the four other characters that can stand in a
listed name can stand in no call, and then nothing is found (`nameBehind?_of_folded`). So a manual
can list a name that no story can use (`ofReference_lists_unseen`).
-/

namespace TweeLint

/-! ### A single call -/

namespace MacroCall

theorem collect_of_not_mem {text : List Char} (h : '(' ∉ text) (site : Site)
    (found : List MacroCall) : collect site found text = found.reverse := by
  induction text generalizing site found with
  | nil => rfl
  | cons c text ih =>
    have hc : c ≠ '(' := fun hc => h (hc ▸ List.mem_cons_self)
    rw [collect, startingAt?, if_neg hc, ih (fun hmem => h (List.mem_cons_of_mem c hmem))]
    rfl

/-- A text with one parenthesis, at its front, has the call that begins there, if any. -/
theorem find_lone (start : Position) {text : List Char} (h : '(' ∉ text) :
    find start (String.ofList ('(' :: text)) =
      ((nameBehind? text).map fun name => ⟨String.ofList name, start, 0⟩).toList := by
  rw [find, String.toList_ofList, collect, collect_of_not_mem h, startingAt?, if_pos rfl]
  cases nameBehind? text <;> rfl

end MacroCall

namespace Vocabulary.Reference

variable {name : List Char}

theorem isFoldedNameChar_iff {c : Char} : isFoldedNameChar c = true ↔
    c ∈ ['\u0130', '\u0131', '\u017F', '\u212A'] := by
  simp [isFoldedNameChar, or_assoc]

/-- The text behind the parenthesis of a call of `name` with nothing in it. -/
def behindOpen (name : List Char) : List Char :=
  name ++ [':', ')']

theorem not_mem_behindOpen (hname : IsName name) {d : Char} (hd : isNameChar d = false)
    (hcolon : d ≠ ':') (hclose : d ≠ ')') : d ∉ behindOpen name := by
  simp [behindOpen, hname.not_mem hd, hcolon, hclose]

/-- **A listed name without folded characters** is read behind a parenthesis. -/
theorem nameBehind?_of_plain (hname : IsName name)
    (hplain : ∀ c ∈ name, isFoldedNameChar c = false) :
    MacroCall.nameBehind? (behindOpen name) = some name := by
  obtain ⟨hne, hall⟩ := isName_iff.mp hname
  refine MacroCall.nameBehind?_eq_some_iff.mpr ⟨hne, fun c hc => ?_, [], [')'], ?_, rfl⟩
  · have hchar := hall c hc
    rwa [isNameChar, hplain c hc, Bool.or_false] at hchar
  · exact fun _ h => absurd h List.not_mem_nil

/-- **A folded character ends a name and is neither a blank nor a colon**, so nothing is read. -/
theorem nameBehind?_of_folded (hname : IsName name)
    (hfolded : ∃ c ∈ name, isFoldedNameChar c = true) :
    MacroCall.nameBehind? (behindOpen name) = none := by
  have hnot : ∀ c, isFoldedNameChar c = true → MacroCall.isNameChar c = false := by
    intro c hc
    rw [isFoldedNameChar_iff] at hc
    simp only [List.mem_cons, List.not_mem_nil, or_false] at hc
    rcases hc with rfl | rfl | rfl | rfl <;> decide
  obtain ⟨d, ds, hdrop⟩ : ∃ d ds, name.dropWhile MacroCall.isNameChar = d :: ds := by
    refine List.exists_cons_of_ne_nil fun hnil => ?_
    obtain ⟨c, hc, hcfolded⟩ := hfolded
    have hcname := List.dropWhile_eq_nil_iff.mp hnil c hc
    rw [hnot c hcfolded] at hcname
    exact absurd hcname (by decide)
  have hd : isNameChar d = true :=
    (isName_iff.mp hname).2 d ((List.dropWhile_sublist _).subset (by rw [hdrop]; simp))
  have hcolon : d ≠ ':' := by
    rintro rfl
    exact absurd hd (by decide)
  have hrest : (behindOpen name).dropWhile MacroCall.isNameChar = d :: (ds ++ [':', ')']) := by
    rw [behindOpen, List.dropWhile_append, hdrop]
    rfl
  rw [MacroCall.nameBehind?_eq, hrest,
    List.dropWhile_cons_of_neg (by simp [isBlank_of_isNameChar hd]),
    MacroCall.behindColon?_of_ne hcolon]
  rfl

/-- The calls of a text that only calls a listed name: that one, or none. -/
theorem find_call (hname : IsName name) (start : Position) :
    MacroCall.find start (String.ofList ('(' :: behindOpen name)) =
      if name.any isFoldedNameChar then []
      else [⟨String.ofList name, start, 0⟩] := by
  have hopen : '(' ∉ behindOpen name :=
    not_mem_behindOpen hname (by decide) (by decide) (by decide)
  rw [MacroCall.find_lone start hopen]
  split
  · next hfolded =>
    rw [nameBehind?_of_folded hname (List.any_eq_true.mp hfolded)]
    rfl
  · next hplain =>
    rw [nameBehind?_of_plain hname (by simpa using hplain)]
    rfl

/-! ### A document with a single call -/

theorem balanced_of_no_parens {text : List Char} (ho : '(' ∉ text) (hc : ')' ∉ text) :
    Balance.Balanced text := by
  induction text with
  | nil => exact .nil
  | cons c text ih =>
    rw [List.mem_cons, not_or] at ho hc
    exact .cons (Ne.symm ho.1) (Ne.symm hc.1) (ih ho.2 hc.2)

/-- A vocabulary accepts a call of a name that it has. -/
theorem accepts_call {v : Vocabulary} (hname : IsName name) (hmem : String.ofList name ∈ v) :
    v.Accepts ('(' :: behindOpen name) := by
  refine ⟨?_, fun i called hcalled => ?_⟩
  · have hnot : ∀ d, isNameChar d = false → d ≠ ':' → d ∉ name ++ [':'] := by
      intro d hd hcolon
      simp [hname.not_mem hd, hcolon]
    have hinside := balanced_of_no_parens (hnot '(' (by decide) (by decide))
      (hnot ')' (by decide) (by decide))
    have hnest := Balance.Balanced.nest hinside .nil
    rwa [List.append_assoc] at hnest
  · -- every call in the text is among those that are found
    have hfound : (⟨String.ofList called, Position.start.after (('(' :: behindOpen name).take i),
        (('(' :: behindOpen name).take i).length⟩ : MacroCall) ∈
          MacroCall.find .start (String.ofList ('(' :: behindOpen name)) :=
      MacroCall.mem_find_iff.mpr ⟨_, _, called,
        by rw [String.toList_ofList, List.take_append_drop], hcalled, rfl⟩
    rw [find_call hname] at hfound
    split at hfound
    · exact absurd hfound List.not_mem_nil
    · rw [(MacroCall.mk.inj (List.mem_singleton.mp hfound)).1]
      exact hmem

end Vocabulary.Reference

open Section

/-- A document of a header line and one more line that is no header is valid if the vocabulary
accepts the latter. -/
theorem Report.isValid_lint_of_accepts {v : Vocabulary} {header line : List Char}
    (hheader : isHeader header = true) (hline : isHeader line = false) (hfeed : '\n' ∉ header)
    (hfeed' : '\n' ∉ line) (haccepts : v.Accepts line) (source : String) :
    (Report.lint v source (String.ofList (header ++ '\n' :: line))).isValid = true := by
  have hlines : documentLines (String.ofList (header ++ '\n' :: line)) = [header, line] := by
    obtain ⟨title, rfl⟩ := isHeader_iff.mp hheader
    have hmark : Text.dropMark ([':', ':'] ++ title ++ '\n' :: line) =
        [':', ':'] ++ title ++ '\n' :: line := by
      simp [Text.dropMark, Text.mark]
    rw [documentLines, String.toList_ofList, hmark, Text.splitLines_append_feed,
      Text.splitLines_of_not_mem hfeed, Text.splitLines_of_not_mem hfeed']
    rfl
  have hnone : ∀ h, ¬ HeaderAt [header, line] (h + 1) := by
    intro h hat
    rw [headerAt_succ] at hat
    cases h with
    | zero =>
      rw [headerAt_zero, hline] at hat
      exact absurd hat (by decide)
    | succ h =>
      obtain ⟨l, hl, -⟩ := headerAt_succ.mp hat
      exact absurd hl (by simp)
  rw [isValid_lint_iff_headersAccepted, hlines]
  intro h h' hat hnext
  obtain rfl : h = 0 := by
    cases h with
    | zero => rfl
    | succ h => exact absurd hat (hnone h)
  -- no header follows, so the body goes to the end
  obtain ⟨k, rfl⟩ : ∃ k, h' = k + 1 := ⟨h' - 1, by have := hnext.lt; omega⟩
  have hend : ¬ k + 1 < [header, line].length := fun hlt => hnone k (hnext.header hlt)
  obtain rfl : k = 1 := by
    have hle := hnext.le
    simp only [List.length_cons, List.length_nil] at hle hend
    omega
  have hbody : bodyBetween [header, line] 0 (1 + 1) = line := by simp [bodyBetween, between]
  rw [hbody]
  exact haccepts

/-! ### What stories can use -/

open Vocabulary.Reference

theorem call_eq (name : String) :
    s!"({name}:)" = String.ofList ('(' :: behindOpen name.toList) := by
  rw [← String.toList_inj, String.toList_ofList]
  show ("(" ++ name ++ ":)").toList = _
  simp [behindOpen]

theorem document_eq (name : String) :
    s!":: P\n({name}:)" =
      String.ofList (":: P".toList ++ '\n' :: '(' :: behindOpen name.toList) := by
  rw [← String.toList_inj, String.toList_ofList]
  show (":: P\n(" ++ name ++ ":)").toList = _
  simp [behindOpen]

/-- **What becomes of a listed name in a story.** Every listed name is accepted in a document. A call
of it is found, and no other, if none of its characters is one of the four that stand for an ASCII
letter of the other case; otherwise no call is found. -/
theorem Vocabulary.ofReference_recognises {markdown : String} {v : Vocabulary}
    (h : ofReference markdown = .ok v) {name : String} (hname : name ∈ v) :
    ((∀ c ∈ name.toList, c ∉ ['\u0130', '\u0131', '\u017F', '\u212A']) →
        MacroCall.findChecked .start s!"({name}:)" = .ok [⟨name, .start, 0⟩]) ∧
      ((∃ c ∈ name.toList, c ∈ ['\u0130', '\u0131', '\u017F', '\u212A']) →
        MacroCall.findChecked .start s!"({name}:)" = .ok []) ∧
      ∀ source, (Report.lint v source s!":: P\n({name}:)").isValid = true := by
  obtain ⟨names, -, hlists⟩ := ofReference_eq_ok_iff.mp h
  have hisName : IsName name.toList := ((hlists name).mp hname).isName
  have hfind := find_call hisName .start
  rw [← call_eq, String.ofList_toList] at hfind
  have hstart : Position.start.InBounds := ⟨by decide, by decide⟩
  have hchecked := MacroCall.findChecked_eq_ok hstart s!"({name}:)"
  rw [hfind] at hchecked
  have hany : name.toList.any isFoldedNameChar = true ↔
      ∃ c ∈ name.toList, c ∈ ['\u0130', '\u0131', '\u017F', '\u212A'] := by
    simp only [List.any_eq_true, isFoldedNameChar_iff]
  refine ⟨fun hplain => ?_, fun hfolded => ?_, fun source => ?_⟩
  · have hnone : ¬ name.toList.any isFoldedNameChar = true := by
      rw [hany]
      rintro ⟨c, hc, hfolded⟩
      exact hplain c hc hfolded
    rwa [if_neg hnone] at hchecked
  · rwa [if_pos (hany.mpr hfolded)] at hchecked
  · have hfeed : '\n' ∉ '(' :: behindOpen name.toList := by
      rw [List.mem_cons, not_or]
      exact ⟨by decide, not_mem_behindOpen hisName (by decide) (by decide) (by decide)⟩
    have haccepts : v.Accepts ('(' :: behindOpen name.toList) :=
      accepts_call hisName (by rwa [String.ofList_toList])
    rw [document_eq]
    exact Report.isValid_lint_of_accepts rfl rfl (by decide) hfeed haccepts source

/-- A listed name of letters and a digit. -/
theorem Vocabulary.ofReference_recognises_t8n :
    ofReference "##### List of macros\n* [(t8n: x)\n##### Special keywords" =
        .ok (.ofList ["t8n"]) ∧
      "t8n" ∈ NameSet.ofList ["t8n"] ∧
      MacroCall.findChecked .start "(t8n:)" = .ok [⟨"t8n", .start, 0⟩] ∧
      (Report.lint (.ofList ["t8n"]) "doc" ":: P\n(t8n:)").isValid = true := by
  have hmanual : ofReference "##### List of macros\n* [(t8n: x)\n##### Special keywords" =
      .ok (.ofList ["t8n"]) := rfl
  have hname : "t8n" ∈ NameSet.ofList ["t8n"] := by decide
  obtain ⟨hfound, -, hvalid⟩ := ofReference_recognises hmanual hname
  exact ⟨hmanual, hname, hfound (by simp), hvalid "doc"⟩

/-- A manual that lists a name with a long s, of which no call is found. -/
theorem Vocabulary.ofReference_lists_unseen :
    ∃ v, ofReference "##### List of macros\n* [(\u017Fet: x)\n##### Special keywords" = .ok v ∧
      "\u017Fet" ∈ v ∧ MacroCall.findChecked .start "(\u017Fet:)" = .ok [] :=
  ⟨.ofList ["\u017Fet"], rfl, by decide, rfl⟩

end TweeLint
