import TweeLint.MacroCall
import TweeLint.Proofs.Position
import TweeLint.Proofs.Text.Blank

/-!
# Where calls begin

A call is what its grammar says it is (`BeginsCall`): an opening parenthesis, a name, blanks and a
colon. The reader asks at each parenthesis for the longest name behind it; since a name has no blank
and no colon in it, what the grammar allows behind a parenthesis is that name and no other
(`nameBehind?_eq_some_iff`).

* **The calls of a text are those of its grammar** (`mem_find_iff`), each at the site of its
  parenthesis.
* **Blanks around a text hold no call** (`exists_beginsCall_pad`).
* **Further down, the same is found** (`find_down`).
-/

namespace TweeLint.MacroCall

/-- A text begins with a call of `name`. -/
def BeginsCall (name text : List Char) : Prop :=
  name ≠ [] ∧ (∀ c ∈ name, isNameChar c = true) ∧
    ∃ blanks rest, Text.AllBlank blanks ∧ text = '(' :: (name ++ (blanks ++ ':' :: rest))

/-- The call `k` lines further down. -/
def down (k : Nat) (c : MacroCall) : MacroCall :=
  ⟨c.name, c.position.down k, c.offset⟩

/-! ### Names -/

/-- The characters of names are between the hyphen and the last small letter. -/
theorem toNat_of_isNameChar {c : Char} (h : isNameChar c = true) :
    0x2D ≤ c.toNat ∧ c.toNat ≤ 0x7A := by
  rcases Bool.or_eq_true_iff.mp h with halnum | hhyphen
  · rcases Bool.or_eq_true_iff.mp halnum with halpha | hdigit
    · rcases Bool.or_eq_true_iff.mp halpha with hupper | hlower
      · obtain ⟨h₁, h₂⟩ := of_decide_eq_true hupper
        exact ⟨Nat.le_trans (by decide) h₁, Nat.le_trans h₂ (by decide)⟩
      · obtain ⟨h₁, h₂⟩ := Bool.and_eq_true_iff.mp hlower
        exact ⟨Nat.le_trans (by decide) (of_decide_eq_true h₁),
          Nat.le_trans (of_decide_eq_true h₂) (by decide)⟩
    · obtain ⟨h₁, h₂⟩ := Char.isDigit_iff_toNat.mp hdigit
      exact ⟨Nat.le_trans (by decide) h₁, Nat.le_trans h₂ (by decide)⟩
  · obtain rfl := beq_iff_eq.mp hhyphen
    decide

/-- No character of a name is a blank. -/
theorem isBlank_of_isNameChar {c : Char} (h : isNameChar c = true) : Text.isBlank c = false := by
  obtain ⟨hlow, hhigh⟩ := toNat_of_isNameChar h
  have hcontrol : ¬ c.toNat ≤ 0x20 := by omega
  simp only [Text.isBlank, if_neg hcontrol]
  simp only [Bool.or_eq_false_iff, Bool.and_eq_false_iff, decide_eq_false_iff_not, beq_eq_false_iff_ne]
  omega

/-- What follows a name in a call does not continue it. -/
theorem isNameChar_of_head_blanks {blanks : List Char} (hb : Text.AllBlank blanks)
    (rest : List Char) :
    ∀ c ∈ (blanks ++ ':' :: rest).head?, isNameChar c = false := by
  cases blanks with
  | nil => exact Text.stops_cons (by decide) rest
  | cons b blanks =>
    have hblank : Text.isBlank b = true := hb b List.mem_cons_self
    refine Text.stops_cons ?_ _
    by_contra hname
    rw [Bool.not_eq_false] at hname
    rw [isBlank_of_isNameChar hname] at hblank
    exact absurd hblank (by decide)

/-- **The name that is read behind a parenthesis is the one that the grammar allows.** -/
theorem nameBehind?_eq_some_iff {name text : List Char} :
    nameBehind? text = some name ↔ BeginsCall name ('(' :: text) := by
  constructor
  · intro h
    simp only [nameBehind?] at h
    split at h
    · next rest hrest =>
      split at h
      · exact absurd h (by simp)
      · next hne =>
        obtain rfl : text.takeWhile isNameChar = name := by simpa using h
        refine ⟨by simpa using hne, fun c hc => List.mem_takeWhile_imp hc,
          (text.dropWhile isNameChar).takeWhile Text.isBlank, rest, Text.allBlank_takeWhile _, ?_⟩
        rw [← hrest, List.takeWhile_append_dropWhile, List.takeWhile_append_dropWhile]
    · exact absurd h (by simp)
  · intro hbegins
    obtain ⟨hne, hname, blanks, rest, hb, htext⟩ := hbegins
    obtain rfl : text = name ++ (blanks ++ ':' :: rest) := by simpa using htext
    have hstop := isNameChar_of_head_blanks hb rest
    have hcolon : ∀ c ∈ (':' :: rest).head?, Text.isBlank c = false :=
      Text.stops_cons (by decide) rest
    simp only [nameBehind?]
    rw [Text.dropWhile_stretch hname hstop, Text.takeWhile_stretch hname hstop,
      Text.dropWhile_stretch hb hcolon]
    simp [hne]

theorem startingAt?_eq_some_iff {site : Site} {c : Char} {rest : List Char} {call : MacroCall} :
    startingAt? site c rest = some call ↔
      ∃ name, BeginsCall name (c :: rest) ∧
        call = ⟨String.ofList name, site.position, site.offset⟩ := by
  by_cases hc : c = '('
  · subst hc
    simp only [startingAt?, ↓reduceIte, Option.map_eq_some_iff, nameBehind?_eq_some_iff]
    simp only [eq_comm]
  · simp only [startingAt?, if_neg hc, BeginsCall]
    constructor
    · intro h
      exact absurd h (by simp)
    · intro hbegins
      obtain ⟨name, ⟨-, -, blanks, rest', -, htext⟩, -⟩ := hbegins
      exact absurd (List.cons.inj htext).1 hc

/-! ### All calls of a text -/

/-- The calls that are collected from a text, behind those found before it. -/
theorem mem_collect_iff {site : Site} {found : List MacroCall} {text : List Char}
    {call : MacroCall} :
    call ∈ collect site found text ↔
      call ∈ found ∨ ∃ pre rest name, text = pre ++ rest ∧ BeginsCall name rest ∧
        call = ⟨String.ofList name, site.position.after pre, site.offset + pre.length⟩ := by
  induction text generalizing site found with
  | nil =>
    rw [collect, List.mem_reverse]
    constructor
    · exact Or.inl
    · intro hcall
      rcases hcall with h | ⟨pre, rest, name, htext, ⟨-, -, blanks, tail, -, hrest⟩, -⟩
      · exact h
      · rw [hrest] at htext
        simp at htext
  | cons c text ih =>
    rw [collect, ih, List.mem_append, Option.mem_toList, startingAt?_eq_some_iff]
    constructor
    · intro hcall
      rcases hcall with (⟨name, hname, rfl⟩ | h) | ⟨pre, rest, name, rfl, hname, rfl⟩
      · exact Or.inr ⟨[], c :: text, name, rfl, hname, rfl⟩
      · exact Or.inl h
      · -- the site has moved on by `c`, which now is the front of `pre`
        refine Or.inr ⟨c :: pre, rest, name, rfl, hname, ?_⟩
        simp only [Site.advance, Position.after_cons, List.length_cons, MacroCall.mk.injEq, true_and]
        omega
    · intro hcall
      rcases hcall with h | ⟨pre, rest, name, htext, hname, rfl⟩
      · exact Or.inl (Or.inr h)
      · cases pre with
        | nil =>
          obtain rfl : c :: text = rest := htext
          exact Or.inl (Or.inl ⟨name, hname, rfl⟩)
        | cons d pre =>
          obtain ⟨rfl, rfl⟩ := List.cons.inj htext
          refine Or.inr ⟨pre, rest, name, rfl, hname, ?_⟩
          simp only [Site.advance, Position.after_cons, List.length_cons, MacroCall.mk.injEq, true_and]
          omega

/-- **The calls of a text are those of its grammar.** -/
theorem mem_find_iff {start : Position} {content : String} {call : MacroCall} :
    call ∈ find start content ↔
      ∃ pre rest name, content.toList = pre ++ rest ∧ BeginsCall name rest ∧
        call = ⟨String.ofList name, start.after pre, pre.length⟩ := by
  rw [find, mem_collect_iff]
  simp [Site.first]

theorem collect_down (k : Nat) (site : Site) (found : List MacroCall) (text : List Char) :
    collect (site.down k) (found.map (·.down k)) text =
      (collect site found text).map (·.down k) := by
  induction text generalizing site found with
  | nil => rw [collect, collect, List.map_reverse]
  | cons c text ih =>
    have hhere : startingAt? (site.down k) c text = (startingAt? site c text).map (·.down k) := by
      unfold startingAt?
      split
      · rw [Option.map_map]
        rfl
      · rfl
    rw [collect, collect, ← ih, Site.advance_down, hhere, List.map_append]
    cases startingAt? site c text <;> rfl

theorem find_down (k : Nat) (start : Position) (content : String) :
    find (start.down k) content = (find start content).map (·.down k) :=
  collect_down k (.first start) [] content.toList

/-! ### Blanks around a text -/

theorem BeginsCall.append {name text : List Char} (h : BeginsCall name text) (more : List Char) :
    BeginsCall name (text ++ more) := by
  obtain ⟨hne, hname, blanks, rest, hblanks, rfl⟩ := h
  exact ⟨hne, hname, blanks, rest ++ more, hblanks, by simp⟩

/-- The end of a call is not blank, so the call stands before any blanks at the end of a text. -/
theorem BeginsCall.of_append_blank {name text back : List Char} (hb : Text.AllBlank back)
    (h : BeginsCall name (text ++ back)) : BeginsCall name text := by
  obtain ⟨hne, hname, blanks, rest, hblanks, htext⟩ := h
  have hcolon : ':' ∉ back := fun hmem => absurd (hb ':' hmem) (by decide)
  have hsplit : text ++ back = ('(' :: (name ++ blanks)) ++ ':' :: rest := by simp [htext]
  obtain ⟨rest', rfl⟩ := Text.exists_of_append_eq hsplit hcolon
  exact ⟨hne, hname, blanks, rest', hblanks, by simp⟩

theorem not_beginsCall_of_isBlank {name text : List Char} {c : Char}
    (hc : Text.isBlank c = true) : ¬ BeginsCall name (c :: text) := by
  intro hbegins
  obtain ⟨-, -, blanks, rest, -, htext⟩ := hbegins
  obtain ⟨rfl, -⟩ := List.cons.inj htext
  exact absurd hc (by decide)

/-- **Blanks around a text hold no call.** -/
theorem exists_beginsCall_pad {front back : List Char} (hf : Text.AllBlank front)
    (hb : Text.AllBlank back) (name text : List Char) :
    (∃ i, BeginsCall name ((front ++ (text ++ back)).drop i)) ↔
      ∃ i, BeginsCall name (text.drop i) := by
  constructor
  · intro hcall
    obtain ⟨i, h⟩ := hcall
    -- a call does not begin in the blanks in front, and does not reach those behind
    by_cases hi : i < front.length
    · rw [List.drop_append, List.drop_eq_getElem_cons hi] at h
      exact absurd h (not_beginsCall_of_isBlank (hf _ (List.getElem_mem hi)))
    · refine ⟨i - front.length, ?_⟩
      rw [List.drop_append, List.drop_eq_nil_of_le (by omega), List.nil_append,
        List.drop_append] at h
      exact h.of_append_blank fun c hc => hb c (List.mem_of_mem_drop hc)
  · intro hcall
    obtain ⟨i, h⟩ := hcall
    refine ⟨front.length + i, ?_⟩
    rw [List.drop_length_add_append, List.drop_append]
    exact h.append _

end TweeLint.MacroCall
