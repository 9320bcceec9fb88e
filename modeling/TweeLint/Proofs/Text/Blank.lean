import Mathlib.Data.List.TakeWhile
import TweeLint.Text.Blank

/-!
# Blanks around and between words

What the two operations on blanks do, said without their scans.

* **Stretches.** What `takeWhile` and `dropWhile` cut off is fixed by where the stretch stops
  (`takeWhile_stretch`, `dropWhile_stretch`).
* **Trimming** takes blanks away at both ends and nothing else (`exists_eq_trim`), and all of them:
  blanks put around a text do not change its trimmed form (`trim_pad`), which begins with no blank
  (`isBlank_of_head_trim`).
* **Words** are the stretches without blanks that have blanks or the ends of the text on both sides
  (`mem_words`). Words with a blank between each two are the words of what they make up
  (`words_intercalate`).
-/

namespace TweeLint.Text

/-- A text of blanks only. -/
def AllBlank (cs : List Char) : Prop :=
  ∀ c ∈ cs, isBlank c = true

/-- `w` is the word at the front of a text. -/
def BeginsWord (w cs : List Char) : Prop :=
  w ≠ [] ∧ (∀ c ∈ w, isBlank c = false) ∧
    ∃ post, cs = w ++ post ∧ ∀ b ∈ post.head?, isBlank b = true

/-- `w` is a word of a text: it begins at the front or behind a blank. -/
def IsWord (w cs : List Char) : Prop :=
  ∃ pre rest, cs = pre ++ rest ∧ (∀ b ∈ pre.getLast?, isBlank b = true) ∧ BeginsWord w rest

/-- `w` is a word of a text and has a blank in front of it. -/
def BehindBlank (w cs : List Char) : Prop :=
  ∃ pre b rest, cs = pre ++ b :: rest ∧ isBlank b = true ∧ BeginsWord w rest

theorem isBlank_feed : isBlank '\n' = true := by decide

/-! ### Stretches -/

section Stretches

variable {α : Type} {p : α → Bool} {xs ys : List α}

/-- A text stops a stretch in front of it by its first character. -/
theorem stops_cons {x : α} (h : p x = false) (xs : List α) : ∀ c ∈ (x :: xs).head?, p c = false := by
  intro c hc
  obtain rfl : x = c := by simpa using hc
  exact h

theorem takeWhile_stretch (hxs : ∀ c ∈ xs, p c = true) (hys : ∀ c ∈ ys.head?, p c = false) :
    (xs ++ ys).takeWhile p = xs := by
  rw [List.takeWhile_append_of_pos hxs]
  cases ys with
  | nil => simp
  | cons c ys => simp [hys c rfl]

theorem dropWhile_stretch (hxs : ∀ c ∈ xs, p c = true) (hys : ∀ c ∈ ys.head?, p c = false) :
    (xs ++ ys).dropWhile p = ys := by
  rw [List.dropWhile_append_of_pos hxs]
  cases ys with
  | nil => rfl
  | cons c ys => simp [hys c rfl]

/-- What stops a stretch does not belong to it. -/
theorem not_of_head_dropWhile {c : α} (h : c ∈ (xs.dropWhile p).head?) : p c = false := by
  have hhead := List.head?_dropWhile_not p xs
  rw [Option.mem_def.mp h] at hhead
  simpa using hhead

/-- Whether a stretch goes on is all that counts, character by character. -/
theorem takeWhile_congr {q : α → Bool} (h : ∀ x ∈ xs, p x = q x) :
    xs.takeWhile p = xs.takeWhile q := by
  induction xs with
  | nil => rfl
  | cons x xs ih =>
    have hx : p x = q x := h x List.mem_cons_self
    rw [List.takeWhile_cons, List.takeWhile_cons, hx, ih fun y hy => h y (List.mem_cons_of_mem _ hy)]

/-- A stretch does not reach into what it cannot contain. -/
theorem takeWhile_append_stop (hys : ∀ y ∈ ys.head?, p y = false) :
    (xs ++ ys).takeWhile p = xs.takeWhile p := by
  have hnil : ys.takeWhile p = [] := takeWhile_stretch (fun _ h => absurd h List.not_mem_nil) hys
  rw [List.takeWhile_append, hnil, List.append_nil]
  split
  · next hlen => exact ((List.takeWhile_prefix p).eq_of_length hlen).symm
  · rfl

theorem dropWhile_append_stop (hys : ∀ y ∈ ys.head?, p y = false) :
    (xs ++ ys).dropWhile p = xs.dropWhile p ++ ys := by
  have hsplit := List.takeWhile_append_dropWhile (p := p) (l := xs ++ ys)
  rw [takeWhile_append_stop hys] at hsplit
  refine List.append_cancel_left (hsplit.trans ?_)
  rw [← List.append_assoc, List.takeWhile_append_dropWhile]

/-- Where an element stands that a suffix does not have. -/
theorem exists_of_append_eq {zs ws : List α} {x : α} (h : xs ++ ys = zs ++ x :: ws)
    (hx : x ∉ ys) : ∃ rest, xs = zs ++ x :: rest := by
  rcases List.append_eq_append_iff.mp h with ⟨mid, -, hys⟩ | ⟨mid, hxs, hws⟩
  · exact absurd (by simp [hys]) hx
  · cases mid with
    | nil =>
      obtain rfl : x :: ws = ys := hws
      exact absurd List.mem_cons_self hx
    | cons y mid =>
      obtain ⟨rfl, -⟩ := List.cons.inj hws
      exact ⟨mid, hxs⟩

/-- A text is cut at the last place where an element stands. -/
theorem exists_last {x : α} (h : x ∈ xs) : ∃ front back, xs = front ++ x :: back ∧ x ∉ back := by
  obtain ⟨behind, before, hreverse, hno⟩ := List.eq_append_cons_of_mem (List.mem_reverse.mpr h)
  refine ⟨before.reverse, behind.reverse, ?_, by simpa using hno⟩
  rw [← List.reverse_reverse xs, hreverse]
  simp

/-- Behind a stretch stands what stops it. -/
theorem getElem?_length_takeWhile (p : α → Bool) (xs : List α) :
    xs[(xs.takeWhile p).length]? = (xs.dropWhile p).head? := by
  have h : (xs.takeWhile p ++ xs.dropWhile p)[(xs.takeWhile p).length]? = _ :=
    List.getElem?_append_right (Nat.le_refl _)
  rw [List.takeWhile_append_dropWhile, Nat.sub_self, ← List.head?_eq_getElem?] at h
  exact h

/-- Before the end of a stretch nothing stops it. -/
theorem of_lt_length_takeWhile {i : Nat} {x : α} (hi : i < (xs.takeWhile p).length)
    (hx : xs[i]? = some x) : p x = true := by
  have h : (xs.takeWhile p ++ xs.dropWhile p)[i]? = _ := List.getElem?_append_left hi
  rw [List.takeWhile_append_dropWhile, hx] at h
  exact List.mem_takeWhile_imp (List.mem_of_getElem? h.symm)

end Stretches

theorem AllBlank.append {xs ys : List Char} (hx : AllBlank xs) (hy : AllBlank ys) :
    AllBlank (xs ++ ys) := by
  intro c hc
  rcases List.mem_append.mp hc with h | h
  · exact hx c h
  · exact hy c h

theorem allBlank_takeWhile (cs : List Char) : AllBlank (cs.takeWhile isBlank) :=
  fun _ hc => List.mem_takeWhile_imp hc

/-! ### Trimming -/

/-- Trimming takes the leading blanks away, and some trailing ones. -/
theorem exists_eq_trim (cs : List Char) :
    ∃ back, AllBlank back ∧ cs = cs.takeWhile isBlank ++ (trim cs ++ back) := by
  refine ⟨((trimLeft cs).reverse.takeWhile isBlank).reverse, ?_, ?_⟩
  · intro c hc
    exact allBlank_takeWhile _ c (List.mem_reverse.mp hc)
  · have hright : trim cs ++ ((trimLeft cs).reverse.takeWhile isBlank).reverse = trimLeft cs := by
      rw [trim, trimRight, ← List.reverse_append, List.takeWhile_append_dropWhile,
        List.reverse_reverse]
    rw [hright, trimLeft, List.takeWhile_append_dropWhile]

theorem trim_eq_nil_iff {cs : List Char} : trim cs = [] ↔ AllBlank cs := by
  constructor
  · intro h
    obtain ⟨back, hback, hcs⟩ := exists_eq_trim cs
    rw [hcs, h]
    exact (allBlank_takeWhile cs).append hback
  · intro h
    have hdrop : cs.dropWhile isBlank = [] := List.dropWhile_eq_nil_iff.mpr h
    simp [trim, trimLeft, trimRight, hdrop]

theorem trimRight_append_blank (cs : List Char) {back : List Char} (h : AllBlank back) :
    trimRight (cs ++ back) = trimRight cs := by
  have hback : ∀ c ∈ back.reverse, isBlank c = true := fun c hc => h c (List.mem_reverse.mp hc)
  rw [trimRight, List.reverse_append, List.dropWhile_append_of_pos hback, trimRight]

/-- **Blanks around a text do not count.** -/
theorem trim_pad {front back : List Char} (hf : AllBlank front) (hb : AllBlank back)
    (cs : List Char) : trim (front ++ (cs ++ back)) = trim cs := by
  have hleft : trimLeft (front ++ (cs ++ back)) = trimLeft (cs ++ back) :=
    List.dropWhile_append_of_pos hf
  by_cases h : AllBlank cs
  · rw [trim_eq_nil_iff.mpr h, trim_eq_nil_iff]
    exact hf.append (h.append hb)
  · have hne : (cs.dropWhile isBlank).isEmpty = false := by
      rw [List.isEmpty_eq_false_iff]
      exact fun hnil => h (List.dropWhile_eq_nil_iff.mp hnil)
    rw [trim, hleft, trimLeft, List.dropWhile_append, hne]
    exact trimRight_append_blank _ hb

/-- A trimmed text begins with no blank. -/
theorem isBlank_of_head_trim {cs ds : List Char} {c : Char} (h : trim cs = c :: ds) :
    isBlank c = false := by
  obtain ⟨back, hback, hcs⟩ := exists_eq_trim cs
  have hrest : cs.dropWhile isBlank = c :: (ds ++ back) := by
    have hsplit := List.takeWhile_append_dropWhile (p := isBlank) (l := cs)
    rw [h] at hcs
    exact List.append_cancel_left (hsplit.trans hcs)
  exact not_of_head_dropWhile (by rw [hrest]; rfl)

/-! ### Words -/

/-- The word that a text begins with, if any, and the words behind it: what the scan of `words`
holds before the last word is put down. -/
def cutWord (cs : List Char) : List Char × List (List Char) :=
  cs.foldr
    (fun c (word, rest) => if isBlank c then ([], consWord word rest) else (c :: word, rest))
    ([], [])

theorem words_eq (cs : List Char) : words cs = consWord (cutWord cs).1 (cutWord cs).2 := rfl

theorem cutWord_cons (c : Char) (cs : List Char) :
    cutWord (c :: cs) =
      if isBlank c then ([], words cs) else (c :: (cutWord cs).1, (cutWord cs).2) := rfl

theorem cutWord_fst (cs : List Char) : (cutWord cs).1 = cs.takeWhile (! isBlank ·) := by
  induction cs with
  | nil => rfl
  | cons c cs ih =>
    rw [cutWord_cons]
    by_cases hc : isBlank c = true <;> simp [hc, ih]

theorem mem_consWord {w word : List Char} {rest : List (List Char)} :
    w ∈ consWord word rest ↔ (w = word ∧ w ≠ []) ∨ w ∈ rest := by
  cases word with
  | nil => simp [consWord]
  | cons c cs =>
    constructor
    · intro h
      rcases List.mem_cons.mp h with rfl | h
      · exact Or.inl ⟨rfl, by simp⟩
      · exact Or.inr h
    · intro h
      rcases h with ⟨rfl, -⟩ | h
      · exact List.mem_cons_self
      · exact List.mem_cons_of_mem _ h

/-- The word at the front is the longest stretch without blanks there. -/
theorem beginsWord_iff {w cs : List Char} :
    BeginsWord w cs ↔ w = cs.takeWhile (! isBlank ·) ∧ w ≠ [] := by
  constructor
  · intro hbegins
    obtain ⟨hne, hw, post, rfl, hpost⟩ := hbegins
    have hall : ∀ c ∈ w, (! isBlank c) = true := fun c hc => by simp [hw c hc]
    have hstop : ∀ b ∈ post.head?, (! isBlank b) = false := fun b hb => by simp [hpost b hb]
    exact ⟨(takeWhile_stretch hall hstop).symm, hne⟩
  · intro hbegins
    obtain ⟨hw, hne⟩ := hbegins
    refine ⟨hne, ?_, cs.dropWhile (! isBlank ·), ?_, ?_⟩
    · intro c hc
      have hmem := List.mem_takeWhile_imp (hw ▸ hc)
      simpa using hmem
    · rw [hw, List.takeWhile_append_dropWhile]
    · intro b hb
      simpa using not_of_head_dropWhile hb

/-- A word with a blank in front of it, at the head of a longer text. -/
theorem behindBlank_cons {w cs : List Char} {c : Char} :
    BehindBlank w (c :: cs) ↔ (isBlank c = true ∧ BeginsWord w cs) ∨ BehindBlank w cs := by
  constructor
  · intro hbehind
    obtain ⟨pre, b, rest, hcs, hb, hw⟩ := hbehind
    cases pre with
    | nil =>
      obtain ⟨rfl, rfl⟩ : c = b ∧ cs = rest := by simpa using hcs
      exact Or.inl ⟨hb, hw⟩
    | cons d pre =>
      obtain ⟨rfl, rfl⟩ : c = d ∧ cs = pre ++ b :: rest := by simpa using hcs
      exact Or.inr ⟨pre, b, rest, rfl, hb, hw⟩
  · intro hbehind
    rcases hbehind with ⟨hc, hw⟩ | ⟨pre, b, rest, rfl, hb, hw⟩
    · exact ⟨[], c, cs, rfl, hc, hw⟩
    · exact ⟨c :: pre, b, rest, rfl, hb, hw⟩

theorem isWord_iff {w cs : List Char} : IsWord w cs ↔ BeginsWord w cs ∨ BehindBlank w cs := by
  constructor
  · intro hword
    obtain ⟨pre, rest, rfl, hpre, hw⟩ := hword
    rcases List.eq_nil_or_concat pre with rfl | ⟨pre, b, rfl⟩
    · exact Or.inl hw
    · exact Or.inr ⟨pre, b, rest, by simp, hpre b (by simp), hw⟩
  · intro hword
    rcases hword with hw | ⟨pre, b, rest, rfl, hb, hw⟩
    · exact ⟨[], cs, rfl, by simp, hw⟩
    · exact ⟨pre ++ [b], rest, by simp, by simpa using hb, hw⟩

/-- The words that the scan has put down are those with a blank in front of them. -/
theorem mem_cutWord_snd {w cs : List Char} : w ∈ (cutWord cs).2 ↔ BehindBlank w cs := by
  induction cs with
  | nil => simp [cutWord, BehindBlank]
  | cons c cs ih =>
    rw [behindBlank_cons, cutWord_cons, ← ih]
    by_cases hc : isBlank c = true
    · -- a blank puts down the word behind it
      simp only [if_pos hc]
      rw [words_eq, mem_consWord, cutWord_fst, ← beginsWord_iff]
      simp [hc]
    · simp [hc]

/-- **The words of a text.** -/
theorem mem_words {w cs : List Char} : w ∈ words cs ↔ IsWord w cs := by
  rw [words_eq, mem_consWord, cutWord_fst, ← beginsWord_iff, mem_cutWord_snd, isWord_iff]

/-- A stretch without blanks goes to the word behind it. -/
theorem cutWord_append {w : List Char} (h : ∀ c ∈ w, isBlank c = false) (cs : List Char) :
    cutWord (w ++ cs) = (w ++ (cutWord cs).1, (cutWord cs).2) := by
  induction w with
  | nil => rfl
  | cons c w ih =>
    rw [List.cons_append, cutWord_cons, h c List.mem_cons_self,
      ih fun d hd => h d (List.mem_cons_of_mem _ hd)]
    rfl

theorem eq_or_mem_of_mem_intercalate {ws : List (List Char)} {c : Char}
    (h : c ∈ [' '].intercalate ws) : c = ' ' ∨ ∃ w ∈ ws, c ∈ w := by
  induction ws with
  | nil => exact absurd h List.not_mem_nil
  | cons w ws ih =>
    by_cases hws : ws = []
    · subst hws
      rw [List.intercalate_singleton] at h
      exact Or.inr ⟨w, List.mem_cons_self, h⟩
    · rw [List.intercalate_cons_of_ne_nil hws, List.mem_append, List.mem_append,
        List.mem_singleton] at h
      rcases h with (hw | hblank) | hrest
      · exact Or.inr ⟨w, List.mem_cons_self, hw⟩
      · exact Or.inl hblank
      · exact (ih hrest).imp_right fun ⟨w, hw, hc⟩ => ⟨w, List.mem_cons_of_mem _ hw, hc⟩

/-- **Words with a blank between each two** are read back. -/
theorem words_intercalate {ws : List (List Char)}
    (h : ∀ w ∈ ws, w ≠ [] ∧ ∀ c ∈ w, isBlank c = false) : words ([' '].intercalate ws) = ws := by
  induction ws with
  | nil => rfl
  | cons w ws ih =>
    obtain ⟨hne, hw⟩ := h w List.mem_cons_self
    have hword : ∀ rest, consWord w rest = w :: rest := fun rest => by simp [consWord, hne]
    by_cases hws : ws = []
    · subst hws
      have hcut := cutWord_append hw []
      rw [List.append_nil] at hcut
      rw [words_eq, List.intercalate_singleton, hcut]
      simpa [cutWord] using hword []
    · have hcut := cutWord_append hw (' ' :: [' '].intercalate ws)
      rw [cutWord_cons, if_pos (by decide), List.append_nil,
        ih fun w hw => h w (List.mem_cons_of_mem _ hw)] at hcut
      rw [words_eq, List.intercalate_cons_of_ne_nil hws, List.append_assoc, List.singleton_append,
        hcut, hword]

end TweeLint.Text
