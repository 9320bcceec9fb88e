import TweeLint.Proofs.Passage.Findings
import TweeLint.Proofs.Passage.Parentheses

/-!
# A name spelled in another way

Where the name of a call is replaced by another name, the parentheses of the text stay what they are
and where they are, except for two things. The call has the other name, and what follows it on its
line is pushed along by the difference in length (`Position.push`, `parens_push`).

The balance of a text has nothing to do with names. So if the vocabulary has the new name and not the
old one, the diagnostics stay the same, pushed along with their parentheses, but for the one for the
old name (`lintParens_respelled`).
-/

namespace TweeLint

/-! ### Pushing along a line -/

namespace Position

/-- The position `q` with `k` columns more in front of it, if it is behind `p` on the same line. -/
def push (p : Position) (k : Int) (q : Position) : Position :=
  if q.line = p.line ∧ p.column < q.column then ⟨q.line, q.column + k⟩ else q

variable {p q : Position} {k : Int}

theorem push_of_line_ne (h : q.line ≠ p.line) : push p k q = q :=
  if_neg fun hq => h hq.1

theorem push_of_not_lt (h : ¬ p < q) : push p k q = q :=
  if_neg fun hq => h (Or.inr ⟨hq.1.symm, hq.2⟩)

theorem push_mk {column : Int} (h : p.column < column) :
    push p k ⟨p.line, column⟩ = ⟨p.line, column + k⟩ :=
  if_pos ⟨rfl, h⟩

theorem push_advance (h : p < q) (c : Char) :
    push p k (q.advance c) = (push p k q).advance c := by
  obtain ⟨line, column⟩ := q
  simp only [lt_iff] at h
  by_cases hline : line = p.line
  · subst hline
    have hcolumn : p.column < column := by omega
    rw [push_mk hcolumn]
    by_cases hc : c = '\n'
    · -- the next line starts where it did
      have hbelow : (⟨p.line + 1, 1⟩ : Position).line ≠ p.line := by
        dsimp only
        omega
      simp only [advance, if_pos hc, push_of_line_ne hbelow]
    · have hcolumn' : p.column < column + 1 := by omega
      simp only [advance, if_neg hc, push_mk hcolumn', Position.mk.injEq, true_and]
      omega
  · have hlower : (advance ⟨line, column⟩ c).line ≠ p.line := by
      rw [advance]
      split <;> dsimp only <;> omega
    rw [push_of_line_ne hlower, push_of_line_ne hline]

end Position

/-! ### Parentheses pushed -/

section Pushed

variable {p q : Position} {behind text : List Char}

/-- **What starts behind a position is pushed as a whole.** -/
theorem parens_push (k : Int) (h : q < p) (behind text : List Char) :
    parens (Position.push q k p) behind text =
      (parens p behind text).map (·.move (Position.push q k)) := by
  induction text generalizing p with
  | nil => rfl
  | cons c text ih =>
    have hhere : (Paren.at? (Position.push q k p) c (text ++ behind)).toList =
        (Paren.at? p c (text ++ behind)).toList.map (·.move (Position.push q k)) := by
      by_cases ho : c = '('
      · subst ho
        rfl
      · by_cases hc : c = ')'
        · subst hc
          rfl
        · rw [Paren.at?_eq_none ho hc, Paren.at?_eq_none ho hc]
          rfl
    rw [parens, parens, List.map_append, ← ih (Position.lt_advance h c), Position.push_advance h,
      hhere]

/-- What ends at a position is not pushed. -/
theorem parens_push_before (k : Int) :
    (parens p behind text).map (·.move (Position.push (p.after text) k)) =
      parens p behind text := by
  refine (List.map_congr_left fun m hm => ?_).trans (List.map_id _)
  have hlt := position_lt_of_mem_parens hm
  have hnot : ¬ p.after text < m.position := fun h =>
    Position.lt_irrefl _ (Position.lt_trans h hlt)
  rw [Paren.move, Position.push_of_not_lt hnot]
  rfl

end Pushed

/-! ### One call in a text -/

theorem MacroCall.parens_name {name : List Char} (h : ∀ c ∈ name, isNameChar c = true)
    (p : Position) (behind : List Char) : parens p behind name = [] := by
  induction name generalizing p with
  | nil => rfl
  | cons c name ih =>
    have hc : isNameChar c = true := h c List.mem_cons_self
    have hopening : c ≠ '(' := by
      rintro rfl
      exact absurd hc (by decide)
    have hclosing : c ≠ ')' := by
      rintro rfl
      exact absurd hc (by decide)
    rw [parens, Paren.at?_eq_none hopening hclosing,
      ih fun d hd => h d (List.mem_cons_of_mem _ hd)]
    rfl

theorem MacroCall.feed_not_mem_name {name : List Char} (h : ∀ c ∈ name, isNameChar c = true) :
    '\n' ∉ name :=
  fun hmem => absurd (h _ hmem) (by decide)

theorem MacroCall.after_name {name : List Char} (h : ∀ c ∈ name, isNameChar c = true)
    (p : Position) : p.after name = ⟨p.line, p.column + name.length⟩ := by
  have hfeed := feed_not_mem_name h
  rw [Position.after_eq, if_neg hfeed, List.count_eq_zero_of_not_mem hfeed,
    Text.lastLine_of_not_mem hfeed]
  simp

/-- The parentheses of a text around one call: those in front, the one of the call, and those behind
its name. -/
theorem parens_around {name : List Char} (h : ∀ c ∈ name, MacroCall.isNameChar c = true)
    (p : Position) (pre rest : List Char) :
    parens p [] (pre ++ '(' :: (name ++ rest)) =
      parens p [] pre ++
        ⟨p.after pre, .opening (MacroCall.nameBehind? (name ++ rest))⟩ ::
          parens (((p.after pre).advance '(').after name) [] rest := by
  have hpre : parens p ('(' :: (name ++ rest)) pre = parens p [] pre := by
    refine parens_congr fun cs => ?_
    rw [List.append_nil]
    refine MacroCall.nameBehind?_append_stop fun c hc => ?_
    obtain rfl : '(' = c := Option.some.inj hc
    decide
  have hat : Paren.at? (p.after pre) '(' (name ++ rest) =
      some ⟨p.after pre, .opening (MacroCall.nameBehind? (name ++ rest))⟩ := rfl
  rw [parens_append, List.append_nil, hpre, parens, List.append_nil, hat, parens_append,
    MacroCall.parens_name h, List.nil_append]
  rfl

/-- Around one call, whose name is of no account for the balance. -/
theorem lintParens_around (v : Vocabulary) (passage : String) (ms ns : List Paren) (p : Position)
    (name? : Option (List Char)) :
    lintParens v passage (ms ++ ⟨p, .opening name?⟩ :: ns) =
      ms.filterMap (v.verdictAt? passage) ++
        ((v.verdictAt? passage ⟨p, .opening name?⟩).toList ++
          (ns.filterMap (v.verdictAt? passage) ++
            Balance.ofParens passage (ms ++ ⟨p, .opening none⟩ :: ns))) := by
  have hbalance : Balance.ofParens passage (ms ++ ⟨p, .opening name?⟩ :: ns) =
      Balance.ofParens passage (ms ++ ⟨p, .opening none⟩ :: ns) := by
    simp only [Balance.ofParens, List.foldl_append, List.foldl_cons]
    rfl
  rw [lintParens, hbalance, List.filterMap_append, List.filterMap_cons, List.append_assoc]
  cases v.verdictAt? passage ⟨p, .opening name?⟩ <;> rfl

theorem Vocabulary.position_of_verdictAt? {v : Vocabulary} {passage : String} {m : Paren}
    {d : Diagnostic} (h : v.verdictAt? passage m = some d) : d.position = m.position := by
  obtain ⟨position, kind⟩ := m
  unfold verdictAt? at h
  split at h
  · rw [verdict?_eq_some_iff] at h
    rw [h.2]
    rfl
  · exact absurd h (by simp)

theorem Vocabulary.verdictAt?_opening_of_mem {v : Vocabulary} {name : List Char}
    (h : String.ofList name ∈ v) (passage : String) (p : Position) :
    v.verdictAt? passage ⟨p, .opening (some name)⟩ = none :=
  verdict?_eq_none_iff.mpr h

theorem Vocabulary.verdictAt?_opening_of_not_mem {v : Vocabulary} {name : List Char}
    (h : String.ofList name ∉ v) (passage : String) (p : Position) :
    v.verdictAt? passage ⟨p, .opening (some name)⟩ =
      some (.unknownCall passage ⟨String.ofList name, p, 0⟩ (v.suggest? (String.ofList name))) :=
  verdict?_eq_some_iff.mpr ⟨h, rfl⟩

theorem Vocabulary.position_ne_of_mem_verdicts {v : Vocabulary} {passage : String} {ms : List Paren}
    {p : Position} (h : ∀ m ∈ ms, m.position ≠ p) {d : Diagnostic}
    (hd : d ∈ ms.filterMap (v.verdictAt? passage)) : d.position ≠ p := by
  obtain ⟨m, hm, hverdict⟩ := List.mem_filterMap.mp hd
  rw [position_of_verdictAt? hverdict]
  exact h m hm

/-- What is reported of names around one parenthesis is about other ones. -/
theorem position_ne_of_mem_around {v : Vocabulary} {passage : String} {ms ns : List Paren}
    {p : Position} (hms : ∀ m ∈ ms, m.position ≠ p) (hns : ∀ m ∈ ns, m.position ≠ p)
    {all : List Paren} {d : Diagnostic}
    (hd : d ∈ ms.filterMap (v.verdictAt? passage) ++
      (ns.filterMap (v.verdictAt? passage) ++ Balance.ofParens passage all))
    (hkind : d.kind = .invalidMacro) : d.position ≠ p := by
  simp only [List.mem_append] at hd
  rcases hd with hd | hd | hd
  · exact Vocabulary.position_ne_of_mem_verdicts hms hd
  · exact Vocabulary.position_ne_of_mem_verdicts hns hd
  · exact absurd hkind (Balance.kind_of_mem_ofParens hd)

/-- What is reported around one parenthesis, where what follows it is pushed and what stands in front
of it is not. -/
theorem map_push_around (v : Vocabulary) (passage : String) {ms : List Paren} {p : Position} {k : Int}
    (hms : ms.map (·.move (p.push k)) = ms) (ns : List Paren) :
    (ms.filterMap (v.verdictAt? passage) ++ (ns.filterMap (v.verdictAt? passage) ++
        Balance.ofParens passage (ms ++ ⟨p, .opening none⟩ :: ns))).map (·.move (p.push k)) =
      ms.filterMap (v.verdictAt? passage) ++
        ((ns.map (·.move (p.push k))).filterMap (v.verdictAt? passage) ++
          Balance.ofParens passage (ms ++ ⟨p, .opening none⟩ :: ns.map (·.move (p.push k)))) := by
  have hhere : (⟨p, .opening none⟩ : Paren).move (p.push k) = ⟨p, .opening none⟩ := by
    rw [Paren.move, Position.push_of_not_lt (Position.lt_irrefl p)]
  have hall : (ms ++ ⟨p, .opening none⟩ :: ns).map (·.move (p.push k)) =
      ms ++ ⟨p, .opening none⟩ :: ns.map (·.move (p.push k)) := by
    rw [List.map_append, List.map_cons, hms, hhere]
  have hfront := Vocabulary.filterMap_verdictAt?_move (p.push k) v passage ms
  rw [hms] at hfront
  rw [List.map_append, List.map_append, ← hfront, ← Vocabulary.filterMap_verdictAt?_move,
    ← Balance.ofParens_move, hall]

/-- The position behind a name leads to the one behind another name in its place. -/
theorem Position.push_after_name {name spelling : List Char}
    (hname : ∀ c ∈ name, MacroCall.isNameChar c = true)
    (hspelling : ∀ c ∈ spelling, MacroCall.isNameChar c = true) (p : Position) :
    push p ((spelling.length : Int) - name.length) ((p.advance '(').after name) =
      (p.advance '(').after spelling := by
  have hcolumn : p.column < p.column + 1 + name.length := by omega
  rw [MacroCall.after_name hname, MacroCall.after_name hspelling, advance, if_neg (by decide)]
  simp only [push_mk hcolumn, Position.mk.injEq, true_and]
  omega

/-- **A known name in place of an unknown one** takes its diagnostic away, and pushes those for what
follows on the line. -/
theorem lintParens_respelled {v : Vocabulary} {name spelling rest : List Char}
    (hbegins : MacroCall.BeginsCall name ('(' :: (name ++ rest))) (hname : String.ofList name ∉ v)
    (hne : spelling ≠ []) (hchars : ∀ c ∈ spelling, MacroCall.isNameChar c = true)
    (hspelling : String.ofList spelling ∈ v) (passage : String) (p : Position) (pre : List Char) :
    ∃ front back,
      lintParens v passage (parens p [] (pre ++ '(' :: (name ++ rest))) =
          front ++ .unknownCall passage ⟨String.ofList name, p.after pre, 0⟩
            (v.suggest? (String.ofList name)) :: back ∧
        lintParens v passage (parens p [] (pre ++ '(' :: (spelling ++ rest))) =
          (front ++ back).map
            (·.move (Position.push (p.after pre) ((spelling.length : Int) - name.length))) ∧
        ∀ d ∈ front ++ back, d.kind = .invalidMacro → d.position ≠ p.after pre := by
  obtain ⟨-, hnamechars, blanks, tail, hblanks, htext⟩ := id hbegins
  have hrespelled : MacroCall.BeginsCall spelling ('(' :: (spelling ++ rest)) := by
    have hrest : rest = blanks ++ ':' :: tail := by simpa using htext
    exact ⟨hne, hchars, blanks, tail, hblanks, by rw [hrest]⟩
  rw [parens_around hnamechars, parens_around hchars,
    MacroCall.nameBehind?_eq_some_iff.mpr hbegins, MacroCall.nameBehind?_eq_some_iff.mpr hrespelled,
    lintParens_around, lintParens_around, Vocabulary.verdictAt?_opening_of_mem hspelling,
    Vocabulary.verdictAt?_opening_of_not_mem hname, ← Position.push_after_name hnamechars hchars]
  have hlt : p.after pre < ((p.after pre).advance '(').after name :=
    Position.lt_after (Position.lt_advance_self _ '(') name
  rw [parens_push _ hlt, Option.toList_some, Option.toList_none, List.singleton_append,
    List.nil_append]
  refine ⟨_, _, rfl, (map_push_around v passage (parens_push_before _) _).symm, fun d hd =>
    position_ne_of_mem_around (fun m hm => Position.ne_of_lt (position_lt_of_mem_parens hm))
      (fun m hm => (Position.ne_of_lt (lt_position_of_mem_parens hlt hm)).symm) hd⟩

namespace Section

variable {v : Vocabulary} {s : Section}

/-- A diagnostic for a name comes from a call in the body of the section. -/
theorem exists_call_of_mem_lint {d : Diagnostic} (hd : d ∈ s.passage.lint v)
    (hkind : d.kind = .invalidMacro) :
    ∃ (pre rest : List Char) (name : String), s.body = pre ++ '(' :: (name.toList ++ rest) ∧
      MacroCall.BeginsCall name.toList ('(' :: (name.toList ++ rest)) ∧ name ∉ v ∧
      d = .unknownCall (String.ofList s.name)
        ⟨name, (Position.mk s.line 1).after (s.header ++ pre), 0⟩ (v.suggest? name) := by
  rw [lint_passage, lintParens, List.mem_append] at hd
  rcases hd with hd | hd
  · obtain ⟨m, hm, hverdict⟩ := List.mem_filterMap.mp hd
    obtain ⟨pre, c, text, hbody, hat⟩ := mem_parens_iff.mp hm
    rw [← Position.after_append, List.append_nil] at hat
    unfold Paren.at? at hat
    split at hat
    · next hc =>
      subst hc
      obtain rfl := Option.some.inj hat
      cases hname : MacroCall.nameBehind? text with
      | none =>
        rw [hname] at hverdict
        exact absurd hverdict (by simp [Vocabulary.verdictAt?])
      | some name =>
        rw [hname] at hverdict
        obtain ⟨hunknown, rfl⟩ := Vocabulary.verdict?_eq_some_iff.mp hverdict
        have hbegins := MacroCall.nameBehind?_eq_some_iff.mp hname
        obtain ⟨-, -, blanks, tail, -, htext⟩ := id hbegins
        obtain rfl : text = name ++ (blanks ++ ':' :: tail) := (List.cons.inj htext).2
        refine ⟨pre, blanks ++ ':' :: tail, String.ofList name, ?_, ?_, hunknown, rfl⟩
        · rw [String.toList_ofList, hbody]
        · rwa [String.toList_ofList]
    · split at hat
      · obtain rfl := Option.some.inj hat
        exact absurd hverdict (by simp [Vocabulary.verdictAt?])
      · exact absurd hat (by simp)
  · exact absurd hkind (Balance.kind_of_mem_ofParens hd)

/-- **A section with another name** in place of an unknown one. -/
theorem exists_lint_respelled {pre rest : List Char} {name spelling : String}
    (hbody : s.body = pre ++ '(' :: (name.toList ++ rest))
    (hbegins : MacroCall.BeginsCall name.toList ('(' :: (name.toList ++ rest))) (hname : name ∉ v)
    (hne : spelling ≠ "") (hchars : ∀ c ∈ spelling.toList, MacroCall.isNameChar c = true)
    (hspelling : spelling ∈ v) {p : Position}
    (hp : p = (Position.mk s.line 1).after (s.header ++ pre)) :
    ∃ front back,
      s.passage.lint v = front ++ .unknownCall (String.ofList s.name) ⟨name, p, 0⟩
        (v.suggest? name) :: back ∧
      (Section.mk s.line s.header (pre ++ '(' :: (spelling.toList ++ rest))).passage.lint v =
        (front ++ back).map (·.move (p.push ((spelling.length : Int) - name.length))) ∧
      ∀ d ∈ front ++ back, d.kind = .invalidMacro → d.position ≠ p := by
  have hname' : String.ofList name.toList ∉ v := by rwa [String.ofList_toList]
  have hspelling' : String.ofList spelling.toList ∈ v := by rwa [String.ofList_toList]
  obtain ⟨front, back, hold, hnew, hothers⟩ := lintParens_respelled hbegins hname'
    (by simpa using hne) hchars hspelling' (String.ofList s.name)
    ((Position.mk s.line 1).after s.header) pre
  rw [← Position.after_append, ← hp, String.ofList_toList] at hold
  rw [← Position.after_append, ← hp, String.length_toList, String.length_toList] at hnew
  rw [← Position.after_append, ← hp] at hothers
  refine ⟨front, back, ?_, ?_, hothers⟩
  · rw [lint_passage, hbody, hold]
  · rw [lint_passage]
    exact hnew

end Section

end TweeLint
