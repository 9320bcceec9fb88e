import TweeLint.Proofs.Text.Blank

/-!
# Balanced texts

When the parentheses of a text are balanced, said without a scan: by a grammar (`Balanced`). The
bridge to any scan is the *tally* of a text, which counts the closing parentheses that close nothing
and the opening ones that stay open, and forgets where they are.

* **A balanced text leaves every tally alone** (`foldl_tallyStep_of_balanced`).
* **A text that leaves nothing behind is balanced** (`balanced_iff_tally`). The induction goes
  through texts that close `n` parentheses opened before them (`Closes`), since a suffix of a
  balanced text is one of those.
-/

namespace TweeLint.Balance

/-- The texts whose parentheses are balanced. -/
inductive Balanced : List Char → Prop
  | nil : Balanced []
  | cons {c : Char} {cs : List Char} : c ≠ '(' → c ≠ ')' → Balanced cs → Balanced (c :: cs)
  | nest {cs ds : List Char} : Balanced cs → Balanced ds → Balanced ('(' :: (cs ++ ')' :: ds))

/-- The tally behind one more character. -/
def tallyStep (t : Nat × Nat) (c : Char) : Nat × Nat :=
  if c = '(' then (t.1, t.2 + 1)
  else if c = ')' then
    match t.2 with
    | 0 => (t.1 + 1, 0)
    | n + 1 => (t.1, n)
  else t

/-- How many closing parentheses of a text close nothing, and how many opening ones stay open. -/
def tally (text : List Char) : Nat × Nat :=
  text.foldl tallyStep (0, 0)

@[simp] theorem tallyStep_open (a n : Nat) : tallyStep (a, n) '(' = (a, n + 1) := rfl

@[simp] theorem tallyStep_stray (a : Nat) : tallyStep (a, 0) ')' = (a + 1, 0) := rfl

@[simp] theorem tallyStep_close (a n : Nat) : tallyStep (a, n + 1) ')' = (a, n) := rfl

theorem tally_concat (text : List Char) (c : Char) :
    tally (text ++ [c]) = tallyStep (tally text) c := by
  rw [tally, List.foldl_append]
  rfl

theorem tallyStep_other {c : Char} (ho : c ≠ '(') (hc : c ≠ ')') (t : Nat × Nat) :
    tallyStep t c = t := by
  rw [tallyStep, if_neg ho, if_neg hc]

/-! ### From the grammar to the tally -/

theorem foldl_tallyStep_of_balanced {text : List Char} (h : Balanced text) (t : Nat × Nat) :
    text.foldl tallyStep t = t := by
  induction h generalizing t with
  | nil => rfl
  | cons ho hc _ ih => rw [List.foldl_cons, tallyStep_other ho hc, ih]
  | nest _ _ ih₁ ih₂ =>
    rw [List.foldl_cons, List.foldl_append, ih₁, List.foldl_cons, ih₂]
    rfl

/-! ### From the tally to the grammar -/

/-- The texts that close `n` parentheses opened before them and are balanced otherwise. -/
inductive Closes : Nat → List Char → Prop
  | balanced {cs : List Char} : Balanced cs → Closes 0 cs
  | close {n : Nat} {cs ds : List Char} : Balanced cs → Closes n ds → Closes (n + 1) (cs ++ ')' :: ds)

theorem Closes.cons {n : Nat} {c : Char} {cs : List Char} (ho : c ≠ '(') (hc : c ≠ ')')
    (h : Closes n cs) : Closes n (c :: cs) := by
  cases h with
  | balanced hcs => exact .balanced (.cons ho hc hcs)
  | close hcs hds => exact .close (.cons ho hc hcs) hds

/-- An opening parenthesis takes the first of those that the text closes. -/
theorem Closes.open {n : Nat} {cs : List Char} (h : Closes (n + 1) cs) :
    Closes n ('(' :: cs) := by
  cases h with
  | close hcs hds =>
    -- what the text closes next is then the first that the longer text closes
    cases hds with
    | balanced hds => exact .balanced (.nest hcs hds)
    | close hds hes =>
      have hnest := Closes.close (.nest hcs hds) hes
      simpa using hnest

theorem Closes.stop {n : Nat} {cs : List Char} (h : Closes n cs) : Closes (n + 1) (')' :: cs) :=
  .close .nil h

/-- Stray parentheses are never taken back. -/
theorem le_foldl_tallyStep (text : List Char) (t : Nat × Nat) :
    t.1 ≤ (text.foldl tallyStep t).1 := by
  induction text generalizing t with
  | nil => exact Nat.le_refl _
  | cons c text ih =>
    obtain ⟨a, n⟩ := t
    refine Nat.le_trans ?_ (ih _)
    by_cases ho : c = '('
    · subst ho
      simp
    · by_cases hc : c = ')'
      · subst hc
        cases n <;> simp
      · simp [tallyStep_other ho hc]

/-- A text that adds no stray parenthesis and leaves none open closes what was open before. -/
theorem closes_of_foldl {text : List Char} {a n : Nat}
    (h : text.foldl tallyStep (a, n) = (a, 0)) : Closes n text := by
  induction text generalizing n with
  | nil =>
    obtain rfl : n = 0 := by simpa using h
    exact .balanced .nil
  | cons c text ih =>
    rw [List.foldl_cons] at h
    by_cases ho : c = '('
    · subst ho
      exact (ih h).open
    · by_cases hc : c = ')'
      · subst hc
        cases n with
        | zero =>
          -- a stray parenthesis, which would still be counted at the end
          have hle := le_foldl_tallyStep text (a + 1, 0)
          rw [tallyStep_stray] at h
          rw [h] at hle
          exact absurd hle (by simp)
        | succ n => exact (ih h).stop
      · rw [tallyStep_other ho hc] at h
        exact (ih h).cons ho hc

/-- **A text is balanced if and only if its tally is empty.** -/
theorem balanced_iff_tally {text : List Char} : Balanced text ↔ tally text = (0, 0) := by
  constructor
  · intro h
    exact foldl_tallyStep_of_balanced h (0, 0)
  · intro h
    cases closes_of_foldl h with
    | balanced hb => exact hb

theorem Balanced.append {cs ds : List Char} (hcs : Balanced cs) (hds : Balanced ds) :
    Balanced (cs ++ ds) := by
  rw [balanced_iff_tally, tally, List.foldl_append, foldl_tallyStep_of_balanced hcs,
    foldl_tallyStep_of_balanced hds]

instance : DecidablePred Balanced :=
  fun _ => decidable_of_iff _ balanced_iff_tally.symm

/-! ### One parenthesis in front of a balanced text -/

/-- A parenthesis that is opened behind a text, and not closed. -/
theorem tally_append_open (cs : List Char) {ds : List Char} (hds : Balanced ds) :
    tally (cs ++ '(' :: ds) = ((tally cs).1, (tally cs).2 + 1) := by
  rw [tally, List.foldl_append, List.foldl_cons, foldl_tallyStep_of_balanced hds]
  rfl

/-- A parenthesis that is closed behind a text in which none is open. -/
theorem tally_append_stray {cs ds : List Char} (hcs : (tally cs).2 = 0) (hds : Balanced ds) :
    tally (cs ++ ')' :: ds) = ((tally cs).1 + 1, 0) := by
  rw [tally, List.foldl_append, List.foldl_cons, foldl_tallyStep_of_balanced hds, ← tally,
    tallyStep, hcs]
  rfl

/-! ### Blanks -/

theorem foldl_tallyStep_of_allBlank {text : List Char} (h : Text.AllBlank text) (t : Nat × Nat) :
    text.foldl tallyStep t = t := by
  induction text generalizing t with
  | nil => rfl
  | cons c text ih =>
    have hblank : Text.isBlank c = true := h c List.mem_cons_self
    have ho : c ≠ '(' := by
      rintro rfl
      exact absurd hblank (by decide)
    have hc : c ≠ ')' := by
      rintro rfl
      exact absurd hblank (by decide)
    rw [List.foldl_cons, tallyStep_other ho hc]
    exact ih (fun d hd => h d (List.mem_cons_of_mem _ hd)) t

/-- **Blanks around a text do not count.** -/
theorem balanced_pad {front back : List Char} (hf : Text.AllBlank front)
    (hb : Text.AllBlank back) (text : List Char) :
    Balanced (front ++ (text ++ back)) ↔ Balanced text := by
  rw [balanced_iff_tally, balanced_iff_tally, tally, List.foldl_append,
    foldl_tallyStep_of_allBlank hf, List.foldl_append, foldl_tallyStep_of_allBlank hb, tally]

end TweeLint.Balance
