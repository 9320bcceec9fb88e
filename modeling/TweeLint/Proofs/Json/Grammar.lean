import Mathlib.Data.Bool.AllAny
import TweeLint.Json.Reader

/-!
# The grammar of JSON texts

Which texts stand for a value, said without a reader. A character of a string may be written as it
is or escaped, blanks may stand around every token, and a value with parts is made of the texts of
its parts (`Spells`). Numbers with a fraction or an exponent are left out.

The depth of arrays and objects and the digits of integers are bounded, as a reader bounds them; the
relation goes down by the depth, one layer of brackets at a time (`SpellsParts`).

* **A value begins with one of a few characters** (`Spells.begins`): none of them is blank, and none
  closes an array or an object.
* **No control character stands in a text** but blanks (`IsText.clear`).
-/

namespace TweeLint.Json

/-! ### Strings -/

/-- The hexadecimal digits with their values, in both letter cases. -/
def hexDigits : List (Char × Nat) :=
  "0123456789abcdef".toList.zipIdx ++ "0123456789ABCDEF".toList.zipIdx

/-- Four hexadecimal digits and the number that they make up. -/
inductive SpellsUnit : Nat → List Char → Prop
  | digits {i j k l : Nat} {a b c d : Char} :
    (a, i) ∈ hexDigits → (b, j) ∈ hexDigits → (c, k) ∈ hexDigits → (d, l) ∈ hexDigits →
      SpellsUnit (((i * 16 + j) * 16 + k) * 16 + l) [a, b, c, d]

/-- The letters that may stand behind a backslash, and the characters that they then stand for. -/
def letterEscapes : List (Char × Char) :=
  [('"', '"'), ('\\', '\\'), ('/', '/'), ('b', '\x08'), ('f', '\x0C'), ('n', '\n'), ('r', '\r'),
    ('t', '\t')]

/-- The ways to write a character inside a string: as it is, by a letter, by its number, and if that
needs more than four digits, by the halves of a surrogate pair. -/
inductive SpellsChar : Char → List Char → Prop
  | raw {c : Char} : c ≠ '"' → c ≠ '\\' → 0x20 ≤ c.toNat → SpellsChar c [c]
  | letter {e c : Char} : (e, c) ∈ letterEscapes → SpellsChar c ['\\', e]
  | unit {c : Char} {ds : List Char} :
    SpellsUnit c.toNat ds → SpellsChar c ('\\' :: 'u' :: ds)
  | pair {c : Char} {ds es : List Char} : 0x10000 ≤ c.toNat →
    SpellsUnit (0xD800 + (c.toNat - 0x10000) / 0x400) ds →
    SpellsUnit (0xDC00 + (c.toNat - 0x10000) % 0x400) es →
      SpellsChar c ('\\' :: 'u' :: (ds ++ '\\' :: 'u' :: es))

/-- The ways to write characters inside a string, each in a way of its own. -/
inductive SpellsChars : List Char → List Char → Prop
  | nil : SpellsChars [] []
  | cons {c : Char} {cs word text : List Char} :
    SpellsChar c word → SpellsChars cs text → SpellsChars (c :: cs) (word ++ text)

/-- The ways to write a string. -/
inductive SpellsString (s : String) : List Char → Prop
  | quoted {inner : List Char} :
    SpellsChars s.toList inner → SpellsString s ('"' :: (inner ++ ['"']))

/-! ### Values -/

/-- Nothing but blanks. -/
def Blanks (text : List Char) : Prop :=
  ∀ c ∈ text, c ∈ [' ', '\t', '\n', '\r']

/-- The ways to write a value without parts. -/
inductive SpellsScalar (digits : Nat) : Json → List Char → Prop
  | null : SpellsScalar digits .null "null".toList
  | true : SpellsScalar digits (.bool true) "true".toList
  | false : SpellsScalar digits (.bool false) "false".toList
  | nat {n : Nat} : (Nat.toDigits 10 n).length ≤ digits →
    SpellsScalar digits (.int n) (Nat.toDigits 10 n)
  | neg {n : Nat} : (Nat.toDigits 10 n).length ≤ digits →
    SpellsScalar digits (.int (-n)) ('-' :: Nat.toDigits 10 n)
  | string {s : String} {text : List Char} :
    SpellsString s text → SpellsScalar digits (.string s) text

/-- Parts with a comma between any two of them, and blanks behind each and behind the commas. -/
inductive Separated {α : Type} (part : α → List Char → Prop) : List α → List Char → Prop
  | last {a : α} {word after : List Char} :
    part a word → Blanks after → Separated part [a] (word ++ after)
  | more {a : α} {as : List α} {word after before text : List Char} :
    part a word → Blanks after → Blanks before → Separated part as text →
      Separated part (a :: as) (word ++ (after ++ ',' :: (before ++ text)))

/-- A name and a value with a colon between them. -/
inductive SpellsMember (value : Json → List Char → Prop) : String × Json → List Char → Prop
  | named {name : String} {j : Json} {word before after text : List Char} :
    SpellsString name word → Blanks before → Blanks after → value j text →
      SpellsMember value (name, j) (word ++ (before ++ ':' :: (after ++ text)))

/-- The ways to write an array or an object, given those to write the values in it. -/
inductive SpellsParts (value : Json → List Char → Prop) : Json → List Char → Prop
  | noItems {before : List Char} :
    Blanks before → SpellsParts value (.array []) ('[' :: (before ++ [']']))
  | items {js : List Json} {before text : List Char} : Blanks before → Separated value js text →
    SpellsParts value (.array js) ('[' :: (before ++ (text ++ [']'])))
  | noMembers {before : List Char} :
    Blanks before → SpellsParts value (.object []) ('\x7b' :: (before ++ ['\x7d']))
  | members {ms : List (String × Json)} {before text : List Char} :
    Blanks before → Separated (SpellsMember value) ms text →
      SpellsParts value (.object ms) ('\x7b' :: (before ++ (text ++ ['\x7d'])))

/-- **The ways to write a value** with integers of up to a number of digits, and arrays and objects
up to a depth. -/
def Spells (digits : Nat) : Nat → Json → List Char → Prop
  | 0, j, text => SpellsScalar digits j text
  | depth + 1, j, text =>
    SpellsScalar digits j text ∨ SpellsParts (Spells digits depth) j text

/-- The whole texts that stand for a value. -/
inductive IsText (limits : ReadLimits) (j : Json) : List Char → Prop
  | padded {before text after : List Char} :
    Blanks before → Spells limits.digits limits.depth j text → Blanks after →
      IsText limits j (before ++ (text ++ after))

theorem Blanks.nil : Blanks [] := fun _ hmem => nomatch hmem

theorem Spells.of_scalar {digits depth : Nat} {j : Json} {text : List Char}
    (h : SpellsScalar digits j text) : Spells digits depth j text := by
  cases depth with
  | zero => exact h
  | succ depth => exact .inl h

/-! ### How texts begin -/

/-- The characters with which a value without parts may begin. -/
def scalarChars : List Char := "\"-0123456789fnt".toList

/-- The characters with which a value may begin. -/
def firstChars : List Char := '[' :: '\x7b' :: scalarChars

/-- A text that begins like a value. -/
def Begins (text : List Char) : Prop :=
  ∃ c ∈ text.head?, c ∈ firstChars

theorem Begins.append {text : List Char} (h : Begins text) (rest : List Char) :
    Begins (text ++ rest) := by
  obtain ⟨c, hc, hfirst⟩ := h
  exact ⟨c, by rw [List.head?_append, hc]; rfl, hfirst⟩

theorem mem_digits_of_isDigit {c : Char} (h : c.isDigit = true) : c ∈ "0123456789".toList := by
  have hdigit : ∀ n < 58, 48 ≤ n → Char.ofNat n ∈ "0123456789".toList := by decide
  have hrange : 48 ≤ c.toNat ∧ c.toNat ≤ 57 := Char.isDigit_iff_toNat.mp h
  have hmem := hdigit c.toNat (by omega) hrange.1
  rwa [Char.ofNat_toNat] at hmem

/-- The digits of a number begin with one, which is zero only if it is all there is. -/
theorem toDigits_eq_cons (n : Nat) :
    ∃ c cs, Nat.toDigits 10 n = c :: cs ∧ c.isDigit = true ∧ (c = '0' → cs = [] ∧ n = 0) := by
  induction n using Nat.strongRecOn with
  | _ n ih =>
    rw [Nat.toDigits_eq_if (by decide)]
    split
    · next h =>
      exact ⟨n.digitChar, [], rfl, by rw [Nat.isDigit_digitChar]; exact decide_eq_true h,
        fun hzero => ⟨rfl, Nat.digitChar_eq_zero.mp hzero⟩⟩
    · next h =>
      obtain ⟨c, cs, hcons, hdigit, hzero⟩ := ih (n / 10) (by omega)
      refine ⟨c, cs ++ [(n % 10).digitChar], by rw [hcons]; rfl, hdigit, fun hc => ?_⟩
      have hsmall := (hzero hc).2
      omega

theorem SpellsScalar.begins {digits : Nat} {j : Json} {text : List Char}
    (h : SpellsScalar digits j text) : ∃ c ∈ text.head?, c ∈ scalarChars := by
  have hdigits : "0123456789".toList ⊆ scalarChars := by decide
  cases h with
  | null => exact ⟨'n', rfl, by decide⟩
  | true => exact ⟨'t', rfl, by decide⟩
  | false => exact ⟨'f', rfl, by decide⟩
  | @nat n _ =>
    obtain ⟨c, cs, hcons, hdigit, -⟩ := toDigits_eq_cons n
    exact ⟨c, by rw [hcons]; rfl, hdigits (mem_digits_of_isDigit hdigit)⟩
  | neg => exact ⟨'-', rfl, by decide⟩
  | string h =>
    cases h
    exact ⟨'"', rfl, by decide⟩

theorem Begins.of_scalar {digits : Nat} {j : Json} {text : List Char}
    (h : SpellsScalar digits j text) : Begins text := by
  obtain ⟨c, hc, hmem⟩ := h.begins
  exact ⟨c, hc, List.mem_cons_of_mem _ (List.mem_cons_of_mem _ hmem)⟩

/-- **A value begins** with one of a few characters. -/
theorem Spells.begins {digits depth : Nat} {j : Json} {text : List Char}
    (h : Spells digits depth j text) : Begins text := by
  cases depth with
  | zero => exact .of_scalar h
  | succ depth =>
    rcases h with h | h
    · exact .of_scalar h
    · cases h with
      | noItems => exact ⟨'[', rfl, by decide⟩
      | items => exact ⟨'[', rfl, by decide⟩
      | noMembers => exact ⟨'\x7b', rfl, by decide⟩
      | members => exact ⟨'\x7b', rfl, by decide⟩

theorem SpellsMember.begins {value : Json → List Char → Prop} {m : String × Json}
    {text : List Char} (h : SpellsMember value m text) : Begins text := by
  cases h with
  | named hname =>
    cases hname
    exact ⟨'"', rfl, by decide⟩

theorem Separated.begins {α : Type} {part : α → List Char → Prop} {as : List α} {text : List Char}
    (hbegins : ∀ {a word}, part a word → Begins word) (h : Separated part as text) :
    Begins text := by
  cases h with
  | last hword => exact (hbegins hword).append _
  | more hword => exact (hbegins hword).append _

/-- Parts take at least the commas between them. -/
theorem Separated.length_le {α : Type} {part : α → List Char → Prop} {as : List α}
    {text : List Char} (h : Separated part as text) : as.length ≤ text.length + 1 := by
  induction h with
  | last => simp
  | more _ _ _ _ ih =>
    simp only [List.length_cons, List.length_append]
    omega

/-- **A whole text begins** with a blank or like a value. -/
theorem IsText.begins {limits : ReadLimits} {j : Json} {text : List Char}
    (h : IsText limits j text) :
    ∃ c ∈ text.head?, c ∈ [' ', '\t', '\n', '\r'] ∨ c ∈ firstChars := by
  cases h with
  | @padded before text after hbefore h _ =>
    cases before with
    | nil =>
      obtain ⟨c, hc, hfirst⟩ := h.begins.append after
      exact ⟨c, hc, .inr hfirst⟩
    | cons c before => exact ⟨c, rfl, .inl (hbefore c List.mem_cons_self)⟩

/-! ### Strings and objects of strings -/

theorem SpellsChar.length_pos {c : Char} {word : List Char} (h : SpellsChar c word) :
    1 ≤ word.length := by
  cases h with
  | raw => exact Nat.le_refl 1
  | letter => exact Nat.le_add_left 1 1
  | unit => exact Nat.le_add_left 1 _
  | pair => exact Nat.le_add_left 1 _

theorem SpellsChars.length_le {cs text : List Char} (h : SpellsChars cs text) :
    cs.length ≤ text.length := by
  induction h with
  | nil => exact Nat.le_refl 0
  | cons hword _ ih =>
    have hpos := hword.length_pos
    rw [List.length_cons, List.length_append]
    omega

/-- A string is not longer than its text. -/
theorem SpellsString.length_le {s : String} {text : List Char} (h : SpellsString s text) :
    s.length ≤ text.length := by
  cases h with
  | quoted h =>
    have hlength := h.length_le
    rw [String.length_toList] at hlength
    simp only [List.length_cons, List.length_append]
    omega

theorem spells_string_iff {digits depth : Nat} {s : String} {text : List Char} :
    Spells digits depth (.string s) text ↔ SpellsString s text := by
  refine ⟨fun h => ?_, fun h => .of_scalar (.string h)⟩
  cases depth with
  | zero =>
    cases h with
    | string h => exact h
  | succ depth =>
    rcases h with h | h
    · cases h with
      | string h => exact h
    · cases h

/-- Each part has its text within the whole. -/
theorem Separated.exists_word {α : Type} {part : α → List Char → Prop} {as : List α}
    {text : List Char} (h : Separated part as text) :
    ∀ a ∈ as, ∃ word, part a word ∧ word.length ≤ text.length := by
  induction h with
  | last hword =>
    refine List.forall_mem_singleton.mpr ⟨_, hword, ?_⟩
    rw [List.length_append]
    exact Nat.le_add_right _ _
  | more hword _ _ _ ih =>
    simp only [List.length_append, List.length_cons]
    refine List.forall_mem_cons.mpr ⟨⟨_, hword, Nat.le_add_right _ _⟩, fun a ha => ?_⟩
    obtain ⟨word, hpart, hlength⟩ := ih a ha
    exact ⟨word, hpart, by omega⟩

theorem Separated.imp_of_mem {α : Type} {part part' : α → List Char → Prop} {as : List α}
    {text : List Char} (h : Separated part as text)
    (himp : ∀ a ∈ as, ∀ word, part a word → part' a word) : Separated part' as text := by
  induction h with
  | last hword hafter => exact .last (himp _ List.mem_cons_self _ hword) hafter
  | more hword hafter hbefore _ ih =>
    exact .more (himp _ List.mem_cons_self _ hword) hafter hbefore
      (ih fun a ha => himp a (List.mem_cons_of_mem _ ha))

section Objects

variable {value value' : Json → List Char → Prop} {ms : List (String × Json)} {text : List Char}
  (h : SpellsParts value (.object ms) text)

include h

theorem SpellsParts.exists_member :
    ∀ m ∈ ms, ∃ word, SpellsMember value m word ∧ word.length ≤ text.length := by
  cases h with
  | noMembers => exact fun _ hmem => nomatch hmem
  | members hblanks h =>
    intro m hm
    obtain ⟨word, hword, hlength⟩ := h.exists_word m hm
    refine ⟨word, hword, ?_⟩
    simp only [List.length_cons, List.length_append]
    omega

theorem SpellsParts.imp_object
    (himp : ∀ m ∈ ms, ∀ word, SpellsMember value m word → SpellsMember value' m word) :
    SpellsParts value' (.object ms) text := by
  cases h with
  | noMembers hblanks => exact .noMembers hblanks
  | members hblanks h => exact .members hblanks (h.imp_of_mem himp)

end Objects

/-- An object whose members are strings. -/
def ofFields (fields : List (String × String)) : Json :=
  .object (fields.map fun f => (f.1, .string f.2))

/-- An object is one layer of brackets. -/
theorem spells_object {digits depth : Nat} {ms : List (String × Json)} {text : List Char}
    (h : Spells digits depth (.object ms) text) :
    ∃ inner, SpellsParts (Spells digits inner) (.object ms) text := by
  cases depth with
  | zero => cases h
  | succ depth =>
    rcases h with h | h
    · cases h
    · exact ⟨depth, h⟩

section Fields

variable {limits : ReadLimits} {fields : List (String × String)} {text : List Char}
  (h : IsText limits (ofFields fields) text)

include h

/-- A field is not longer than the text of its object. -/
theorem length_le_of_mem_fields {f : String × String} (hf : f ∈ fields) :
    f.2.length ≤ text.length := by
  cases h with
  | padded _ h _ =>
    obtain ⟨inner, h⟩ := spells_object h
    obtain ⟨word, hword, hlength⟩ := h.exists_member (f.1, .string f.2) (List.mem_map_of_mem hf)
    cases hword with
    | named _ _ _ hvalue =>
      have hstring := (spells_string_iff.mp hvalue).length_le
      simp only [List.length_append, List.length_cons] at hlength ⊢
      omega

/-- An object of strings is not too deep and has no integer that is too long, for limits that take
objects at all. -/
theorem IsText.of_fields {limits' : ReadLimits} (hdepth : 0 < limits'.depth) :
    IsText limits' (ofFields fields) text := by
  cases h with
  | padded hbefore h hafter =>
    obtain ⟨inner, h⟩ := spells_object h
    obtain ⟨depth, hdepth⟩ : ∃ depth, limits'.depth = depth + 1 := Nat.exists_eq_add_one.mpr hdepth
    refine .padded hbefore ?_ hafter
    rw [hdepth]
    refine .inr (h.imp_object fun m hm word hword => ?_)
    obtain ⟨f, hf, rfl⟩ := List.mem_map.mp hm
    cases hword with
    | named hname hbefore hafter hvalue =>
      exact .named hname hbefore hafter (spells_string_iff.mpr (spells_string_iff.mp hvalue))

end Fields

/-! ### What stands in texts -/

/-- No control characters below the space. -/
def Plain (text : List Char) : Prop :=
  ∀ c ∈ text, 0x20 ≤ c.toNat

namespace Plain

theorem nil : Plain [] := fun _ hmem => nomatch hmem

theorem cons {c : Char} {cs : List Char} (hc : 0x20 ≤ c.toNat) (hcs : Plain cs) : Plain (c :: cs) :=
  List.forall_mem_cons.mpr ⟨hc, hcs⟩

theorem append {cs ds : List Char} (hcs : Plain cs) (hds : Plain ds) : Plain (cs ++ ds) :=
  List.forall_mem_append.mpr ⟨hcs, hds⟩

theorem of_all {cs : List Char} (h : (cs.all fun c => 0x20 ≤ c.toNat) = true) : Plain cs :=
  List.all_iff_forall_prop.mp h

/-- A plain text is one line. -/
theorem feed_not_mem {cs : List Char} (h : Plain cs) : '\n' ∉ cs :=
  fun hmem => absurd (h _ hmem) (by decide)

end Plain

/-- Blanks, and characters that are no control characters below the space. -/
def Clear (text : List Char) : Prop :=
  ∀ c ∈ text, c ∈ [' ', '\t', '\n', '\r'] ∨ 0x20 ≤ c.toNat

namespace Clear

theorem cons {c : Char} {cs : List Char} (hc : 0x20 ≤ c.toNat) (hcs : Clear cs) : Clear (c :: cs) :=
  List.forall_mem_cons.mpr ⟨.inr hc, hcs⟩

theorem append {cs ds : List Char} (hcs : Clear cs) (hds : Clear ds) : Clear (cs ++ ds) :=
  List.forall_mem_append.mpr ⟨hcs, hds⟩

end Clear

theorem Plain.clear {text : List Char} (h : Plain text) : Clear text :=
  fun c hc => .inr (h c hc)

theorem Blanks.clear {text : List Char} (h : Blanks text) : Clear text :=
  fun c hc => .inl (h c hc)

theorem SpellsUnit.plain {n : Nat} {ds : List Char} (h : SpellsUnit n ds) : Plain ds := by
  have hdigits : ∀ p ∈ hexDigits, 0x20 ≤ p.1.toNat := List.all_iff_forall_prop.mp (by decide)
  cases h with
  | digits ha hb hc hd =>
    exact .cons (hdigits _ ha) (.cons (hdigits _ hb) (.cons (hdigits _ hc)
      (.cons (hdigits _ hd) .nil)))

theorem SpellsChar.plain {c : Char} {word : List Char} (h : SpellsChar c word) : Plain word := by
  have hletters : ∀ p ∈ letterEscapes, 0x20 ≤ p.1.toNat :=
    List.all_iff_forall_prop.mp (by decide)
  have hescape {cs : List Char} (hcs : Plain cs) : Plain ('\\' :: 'u' :: cs) :=
    .cons (by decide) (.cons (by decide) hcs)
  cases h with
  | raw _ _ hspace => exact .cons hspace .nil
  | letter h => exact .cons (by decide) (.cons (hletters _ h) .nil)
  | unit h => exact hescape h.plain
  | pair _ hhigh hlow => exact hescape (hhigh.plain.append (hescape hlow.plain))

theorem SpellsChars.plain {cs text : List Char} (h : SpellsChars cs text) : Plain text := by
  induction h with
  | nil => exact .nil
  | cons hword _ ih => exact hword.plain.append ih

theorem SpellsString.plain {s : String} {text : List Char} (h : SpellsString s text) :
    Plain text := by
  cases h with
  | quoted h => exact .cons (by decide) (h.plain.append (.cons (by decide) .nil))

theorem plain_toDigits (n : Nat) : Plain (Nat.toDigits 10 n) := by
  intro c hc
  have hdigit := Nat.isDigit_of_mem_toDigits (by decide) (by decide) hc
  exact Nat.le_trans (by decide) (Char.isDigit_iff_toNat.mp hdigit).1

/-- A value without parts has no control character in it. -/
theorem SpellsScalar.plain {digits : Nat} {j : Json} {text : List Char}
    (h : SpellsScalar digits j text) : Plain text := by
  cases h with
  | null => exact .of_all (by decide)
  | true => exact .of_all (by decide)
  | false => exact .of_all (by decide)
  | nat => exact plain_toDigits _
  | neg => exact .cons (by decide) (plain_toDigits _)
  | string h => exact h.plain

theorem Separated.clear {α : Type} {part : α → List Char → Prop} {as : List α} {text : List Char}
    (hpart : ∀ a word, part a word → Clear word) (h : Separated part as text) : Clear text := by
  induction h with
  | last hword hafter => exact (hpart _ _ hword).append hafter.clear
  | more hword hafter hbefore _ ih =>
    exact (hpart _ _ hword).append
      (hafter.clear.append (.cons (by decide) (hbefore.clear.append ih)))

section Values

variable {value : Json → List Char → Prop} (hvalue : ∀ j text, value j text → Clear text)

include hvalue

theorem SpellsMember.clear {m : String × Json} {text : List Char} (h : SpellsMember value m text) :
    Clear text := by
  cases h with
  | named hname hbefore hafter htext =>
    exact hname.plain.clear.append (hbefore.clear.append
      (.cons (by decide) (hafter.clear.append (hvalue _ _ htext))))

theorem SpellsParts.clear {j : Json} {text : List Char} (h : SpellsParts value j text) :
    Clear text := by
  have hbracket : Clear [']'] := Plain.clear (.of_all (by decide))
  have hbrace : Clear ['\x7d'] := Plain.clear (.of_all (by decide))
  cases h with
  | noItems hblanks => exact .cons (by decide) (hblanks.clear.append hbracket)
  | items hblanks h =>
    exact .cons (by decide) (hblanks.clear.append ((h.clear hvalue).append hbracket))
  | noMembers hblanks => exact .cons (by decide) (hblanks.clear.append hbrace)
  | members hblanks h =>
    have hmembers := h.clear fun _ _ => SpellsMember.clear hvalue
    exact .cons (by decide) (hblanks.clear.append (hmembers.append hbrace))

end Values

theorem Spells.clear {digits depth : Nat} {j : Json} {text : List Char}
    (h : Spells digits depth j text) : Clear text := by
  induction depth generalizing j text with
  | zero => exact (SpellsScalar.plain h).clear
  | succ depth ih =>
    rcases h with h | h
    · exact h.plain.clear
    · exact h.clear fun _ _ => ih

/-- **No control character stands in a text** but blanks. -/
theorem IsText.clear {limits : ReadLimits} {j : Json} {text : List Char}
    (h : IsText limits j text) : Clear text := by
  cases h with
  | padded hbefore h hafter => exact hbefore.clear.append (h.clear.append hafter.clear)

end TweeLint.Json
