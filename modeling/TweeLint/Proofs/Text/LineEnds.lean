import TweeLint.Proofs.Position
import TweeLint.Proofs.Text.Blank

/-!
# Line ends of two characters

Some texts end their lines with a carriage return and a line feed. Where carriage returns stand
nowhere else (`Returns`), the two characters are read as one, and the induction over such a text has
a case of its own for them (`Paired`).

`plainEnds` leaves the line feed of each such end. It agrees with what is done to the texts of files
(`unifyLineEnds_eq`), cuts into the same lines (`lines_plainEnds`) and leads to the same positions
(`Position.after_plainEnds`), since nothing stands between the return that is left out and the start
of the next line.

In other texts a carriage return may stand alone. It is a line end of its own then, and the texts
of files have a line feed in its place as well (`unifyLineEnds_eq_feedEnds`).
-/

namespace TweeLint

namespace Text

/-- Every carriage return of a text has a line feed directly behind it. -/
def Returns (cs : List Char) : Prop :=
  ∀ pre rest, cs = pre ++ '\r' :: rest → ∃ tail, rest = '\n' :: tail

/-- The text with a line feed in place of every line end of two characters. -/
def plainEnds : List Char → List Char
  | '\r' :: '\n' :: cs => '\n' :: plainEnds cs
  | c :: cs => c :: plainEnds cs
  | [] => []

/-- A text read from the left, each line end of two characters as one. -/
inductive Paired : List Char → Prop
  | nil : Paired []
  | cons {c : Char} {cs : List Char} : c ≠ '\r' → Paired cs → Paired (c :: cs)
  | pair {cs : List Char} : Paired cs → Paired ('\r' :: '\n' :: cs)

@[simp] theorem plainEnds_nil : plainEnds [] = [] := rfl

@[simp] theorem plainEnds_pair (cs : List Char) :
    plainEnds ('\r' :: '\n' :: cs) = '\n' :: plainEnds cs := rfl

theorem plainEnds_cons {c : Char} (h : c ≠ '\r') (cs : List Char) :
    plainEnds (c :: cs) = c :: plainEnds cs :=
  plainEnds.eq_2 c cs fun _ hc _ => h hc

/-! ### Reading in pairs -/

theorem Returns.tail {c : Char} {cs : List Char} (h : Returns (c :: cs)) : Returns cs :=
  fun pre rest hcs => h (c :: pre) rest (by rw [hcs]; rfl)

theorem Paired.of_returns {cs : List Char} (h : Returns cs) : Paired cs := by
  match cs, h with
  | [], _ => exact .nil
  | c :: cs, h =>
    by_cases hc : c = '\r'
    · subst hc
      obtain ⟨tail, rfl⟩ := h [] cs rfl
      exact .pair (of_returns h.tail.tail)
    · exact .cons hc (of_returns h.tail)
termination_by cs.length

/-- Read off the text, place by place. -/
theorem returns_iff {cs : List Char} :
    Returns cs ↔ ∀ i < cs.length, cs[i]? = some '\r' → cs[i + 1]? = some '\n' := by
  constructor
  · intro h i _ hi
    obtain ⟨hlen, hget⟩ := List.getElem?_eq_some_iff.mp hi
    have hcs : cs = cs.take i ++ '\r' :: cs.drop (i + 1) := by
      rw [← hget, ← List.drop_eq_getElem_cons hlen, List.take_append_drop]
    obtain ⟨tail, htail⟩ := h _ _ hcs
    rw [← List.head?_drop, htail]
    rfl
  · intro h pre rest hcs
    subst hcs
    have hfeed := h pre.length (by simp) (by simp)
    rw [List.getElem?_append_right (by omega)] at hfeed
    have hindex : pre.length + 1 - pre.length = 1 := by omega
    rw [hindex, List.getElem?_cons_succ, ← List.head?_eq_getElem?] at hfeed
    exact List.head?_eq_some_iff.mp hfeed

instance (cs : List Char) : Decidable (Returns cs) := decidable_of_iff _ returns_iff.symm

theorem Paired.append {xs ys : List Char} (hx : Paired xs) (hy : Paired ys) :
    Paired (xs ++ ys) := by
  induction hx with
  | nil => exact hy
  | cons hc _ ih => exact .cons hc ih
  | pair _ ih => exact .pair ih

theorem Paired.flatten {ls : List (List Char)} (h : ∀ l ∈ ls, Paired l) : Paired ls.flatten := by
  induction ls with
  | nil => exact .nil
  | cons l ls ih =>
    exact (h l List.mem_cons_self).append (ih fun m hm => h m (List.mem_cons_of_mem _ hm))

theorem plainEnds_append {xs : List Char} (h : Paired xs) (ys : List Char) :
    plainEnds (xs ++ ys) = plainEnds xs ++ plainEnds ys := by
  induction h with
  | nil => rfl
  | cons hc _ ih => rw [List.cons_append, plainEnds_cons hc, plainEnds_cons hc, ih]; rfl
  | pair _ ih => simp [ih]

theorem plainEnds_flatten {ls : List (List Char)} (h : ∀ l ∈ ls, Paired l) :
    plainEnds ls.flatten = (ls.map plainEnds).flatten := by
  induction ls with
  | nil => rfl
  | cons l ls ih =>
    rw [List.flatten_cons, plainEnds_append (h l List.mem_cons_self),
      ih fun m hm => h m (List.mem_cons_of_mem _ hm)]
    rfl

/-! ### Line ends of files -/

/-- One character in front of a text whose line ends are written as line feeds, where the flag says
whether the text begins with a line feed. -/
def unifyStep (c : Char) (t : Bool × List Char) : Bool × List Char :=
  if c = '\r' then (false, if t.1 then t.2 else '\n' :: t.2) else (c == '\n', c :: t.2)

theorem unifyLineEnds_def (cs : List Char) :
    unifyLineEnds cs = (cs.foldr unifyStep (false, [])).2 := rfl

/-- **Reading a file** writes the line ends of two characters as line feeds. -/
theorem unifyLineEnds_eq {cs : List Char} (h : Paired cs) : unifyLineEnds cs = plainEnds cs := by
  rw [unifyLineEnds_def]
  induction h with
  | nil => rfl
  | cons hc _ ih => rw [List.foldr_cons, unifyStep, if_neg hc, ih, plainEnds_cons hc]
  | pair _ ih =>
    -- the line feed sets the flag, so the return in front of it is left out
    rw [List.foldr_cons, List.foldr_cons, plainEnds_pair, ← ih]
    rfl

/-- The text with a line feed in place of every line end of two characters, and of every other
carriage return. -/
def feedEnds (cs : List Char) : List Char :=
  (plainEnds cs).map fun c => if c = '\r' then '\n' else c

theorem return_not_mem_feedEnds (cs : List Char) : '\r' ∉ feedEnds cs := by
  intro h
  obtain ⟨c, _, hc⟩ := List.mem_map.mp h
  split at hc
  · contradiction
  · next hreturn => exact hreturn hc

theorem foldr_unifyStep_fst (cs : List Char) :
    (cs.foldr unifyStep (false, [])).1 = (cs.head? == some '\n') := by
  cases cs with
  | nil => rfl
  | cons c cs =>
    rw [List.foldr_cons, unifyStep]
    split
    · next hc => rw [hc]; rfl
    · rfl

/-- **Reading any file** writes every line end as a line feed. -/
theorem unifyLineEnds_eq_feedEnds (cs : List Char) : unifyLineEnds cs = feedEnds cs := by
  rw [unifyLineEnds_def]
  induction cs using plainEnds.induct with
  | case1 cs ih =>
    rw [List.foldr_cons, List.foldr_cons, feedEnds, plainEnds_pair, List.map_cons, ← feedEnds, ← ih]
    rfl
  | case2 c cs hpair ih =>
    rw [List.foldr_cons, unifyStep, feedEnds, plainEnds.eq_2 c cs hpair, List.map_cons, ← feedEnds,
      ← ih, foldr_unifyStep_fst]
    by_cases hc : c = '\r'
    · -- the return stands alone, so no line feed is behind it
      have halone : cs.head? ≠ some '\n' := fun h => by
        obtain ⟨tail, rfl⟩ := List.head?_eq_some_iff.mp h
        exact hpair tail hc rfl
      rw [if_pos hc, if_pos hc, if_neg (by simpa using halone)]
    · rw [if_neg hc, if_neg hc]
  | case3 => rfl

/-! ### Lines -/

theorem lines_pair (cs : List Char) :
    lines ('\r' :: '\n' :: cs) = ['\r', '\n'] :: lines cs := by
  rw [lines_cons, lines_cons]
  rfl

/-- No line end is cut in two. -/
theorem Paired.of_mem_lines {cs : List Char} (h : Paired cs) : ∀ l ∈ lines cs, Paired l := by
  induction h with
  | nil => simp
  | @cons c cs hc _ ih =>
    intro l hl
    rw [lines_cons] at hl
    unfold consLine at hl
    split at hl
    · rcases List.mem_cons.mp hl with rfl | hl
      · exact .cons (by decide) .nil
      · exact ih l hl
    · split at hl
      · obtain rfl := List.mem_singleton.mp hl
        exact .cons hc .nil
      · next m ms hms =>
        rcases List.mem_cons.mp hl with rfl | hl
        · exact .cons hc (ih m (by rw [hms]; exact List.mem_cons_self))
        · exact ih l (by rw [hms]; exact List.mem_cons_of_mem _ hl)
  | pair _ ih =>
    intro l hl
    rw [lines_pair] at hl
    rcases List.mem_cons.mp hl with rfl | hl
    · exact .pair .nil
    · exact ih l hl

/-- **The lines are the same**, each with the other line end. -/
theorem lines_plainEnds {cs : List Char} (h : Paired cs) :
    lines (plainEnds cs) = (lines cs).map plainEnds := by
  induction h with
  | nil => rfl
  | @cons c cs hc _ ih =>
    rw [plainEnds_cons hc, lines_cons, lines_cons, ih]
    by_cases hfeed : c = '\n'
    · subst hfeed
      rfl
    · cases lines cs with
      | nil => simp [consLine, hfeed, plainEnds_cons hc]
      | cons l ls => simp [consLine, hfeed, plainEnds_cons hc]
  | pair _ ih =>
    rw [plainEnds_pair, lines_cons, lines_pair, ih]
    rfl

/-! ### Stretches -/

/-- A stretch that a carriage return ends, and that a line feed ends too. -/
theorem takeWhile_plainEnds {p : Char → Bool} (hr : p '\r' = false) (hf : p '\n' = false)
    {cs : List Char} (h : Paired cs) : (plainEnds cs).takeWhile p = cs.takeWhile p := by
  induction h with
  | nil => rfl
  | cons hc _ ih => rw [plainEnds_cons hc, List.takeWhile_cons, List.takeWhile_cons, ih]
  | pair _ _ => simp [hr, hf]

theorem dropWhile_plainEnds {p : Char → Bool} (hr : p '\r' = false) (hf : p '\n' = false)
    {cs : List Char} (h : Paired cs) :
    (plainEnds cs).dropWhile p = plainEnds (cs.dropWhile p) := by
  induction h with
  | nil => rfl
  | @cons c cs hc _ ih =>
    rw [plainEnds_cons hc, List.dropWhile_cons, List.dropWhile_cons]
    split
    · exact ih
    · rw [plainEnds_cons hc]
  | pair _ _ => simp [hr, hf]

theorem Paired.dropWhile {p : Char → Bool} (hr : p '\r' = false) {cs : List Char}
    (h : Paired cs) : Paired (cs.dropWhile p) := by
  induction h with
  | nil => exact .nil
  | @cons c cs hc hcs ih =>
    rw [List.dropWhile_cons]
    split
    · exact ih
    · exact .cons hc hcs
  | @pair cs hcs _ =>
    rw [List.dropWhile_cons_of_neg (by simp [hr])]
    exact .pair hcs

/-- Both characters of a line end are blanks. -/
theorem dropWhile_isBlank_plainEnds {cs : List Char} (h : Paired cs) :
    (plainEnds cs).dropWhile isBlank = plainEnds (cs.dropWhile isBlank) := by
  induction h with
  | nil => rfl
  | @cons c cs hc _ ih =>
    rw [plainEnds_cons hc, List.dropWhile_cons, List.dropWhile_cons]
    split
    · exact ih
    · rw [plainEnds_cons hc]
  | pair _ ih =>
    rw [plainEnds_pair, List.dropWhile_cons_of_pos isBlank_feed,
      List.dropWhile_cons_of_pos (by decide), List.dropWhile_cons_of_pos isBlank_feed, ih]

theorem Paired.dropMark {cs : List Char} (h : Paired cs) : Paired (dropMark cs) := by
  cases h with
  | nil => exact .nil
  | @cons c cs hc hcs =>
    rw [Text.dropMark]
    split
    · exact hcs
    · exact .cons hc hcs
  | pair h => exact .pair h

theorem head?_plainEnds {cs : List Char} {c : Char} (hc : c ≠ '\n') (h : Paired cs)
    (hhead : (plainEnds cs).head? = some c) : cs.head? = some c := by
  cases h with
  | nil => exact hhead
  | cons hd _ => rwa [plainEnds_cons hd] at hhead
  | pair _ => exact absurd (Option.some.inj hhead) (Ne.symm hc)

end Text

/-! ### Positions -/

theorem Position.after_plainEnds {cs : List Char} (h : Text.Paired cs) (p : Position) :
    p.after (Text.plainEnds cs) = p.after cs := by
  induction h generalizing p with
  | nil => rfl
  | cons hc _ ih => rw [Text.plainEnds_cons hc, after_cons, after_cons, ih]
  | pair _ ih =>
    -- the line feed leads to the start of the next line from either column
    rw [Text.plainEnds_pair, after_cons, after_cons, after_cons, ih]
    rfl

end TweeLint
