import TweeLint.Proofs.Json.Reading

/-!
# What is written is read back

The text that is written for a value stands for it (`spells_write`), and so it is read back as the
same value by every reader whose limits the value keeps to (`read_write`). No blank is written
outside of strings and no control character inside, so the text is a single line (`plain_write`).
Numbers with a fraction or an exponent are written as they were read, and nothing is said of them.
-/

namespace TweeLint.Json

/-! ### Strings -/

theorem digitChar_mem_hexDigits : ∀ k < 16, (Nat.digitChar k, k) ∈ hexDigits := by decide

/-- A control character in the form in which it is written if no letter stands for it. -/
theorem spellsUnit_control {n : Nat} (h : n < 0x20) :
    SpellsUnit n ['0', '0', Nat.digitChar (n / 16), Nat.digitChar (n % 16)] := by
  have hzero : ('0', 0) ∈ hexDigits := by decide
  have hunit := SpellsUnit.digits hzero hzero (digitChar_mem_hexDigits (n / 16) (by omega))
    (digitChar_mem_hexDigits (n % 16) (by omega))
  have hvalue : ((0 * 16 + 0) * 16 + n / 16) * 16 + n % 16 = n := by omega
  rwa [hvalue] at hunit

theorem spellsChar_writeChar (c : Char) : SpellsChar c (writeChar c) := by
  unfold writeChar
  repeat' split
  all_goals first
    | exact .raw ‹_› ‹_› (by omega)
    | exact .unit (spellsUnit_control ‹_›)
    | subst c; exact .letter (by decide)

theorem spellsString_write (s : String) : SpellsString s (writeString s) := by
  have hchars : ∀ cs : List Char, SpellsChars cs (cs.flatMap writeChar) := by
    intro cs
    induction cs with
    | nil => exact .nil
    | cons c cs ih => exact .cons (spellsChar_writeChar c) ih
  exact .quoted (hchars s.toList)

/-! ### Values -/

/-- Values that keep to bounds: integers of up to a number of digits, arrays and objects up to a
depth, and no other numbers. -/
def Within (digits : Nat) : Nat → Json → Prop
  | _, .null | _, .bool _ | _, .string _ => True
  | _, .int n => (Nat.toDigits 10 n.natAbs).length ≤ digits
  | _, .real _ | 0, .array _ | 0, .object _ => False
  | depth + 1, .array js => ∀ j ∈ js, Within digits depth j
  | depth + 1, .object ms => ∀ m ∈ ms, Within digits depth m.2

theorem spellsScalar_int {digits : Nat} {n : Int} (h : (Nat.toDigits 10 n.natAbs).length ≤ digits) :
    SpellsScalar digits (.int n) (toString n).toList := by
  cases n with
  | ofNat n =>
    have htext : (toString (Int.ofNat n)).toList = Nat.toDigits 10 n := Nat.toList_repr
    rw [htext]
    exact .nat h
  | negSucc n =>
    have htext : (toString (Int.negSucc n)).toList = '-' :: Nat.toDigits 10 (n + 1) := by
      show ("-" ++ (n + 1).repr).toList = _
      rw [String.toList_append, Nat.toList_repr]
      rfl
    rw [htext]
    exact .neg h

theorem separated_commaSeparated {α : Type} {part : α → List Char → Prop} {write : α → List Char}
    {as : List α} (hne : as ≠ []) (h : ∀ a ∈ as, part a (write a)) :
    Separated part as (commaSeparated (as.map write)) := by
  match as with
  | [] => exact absurd rfl hne
  | [a] =>
    have hlast := Separated.last (h a List.mem_cons_self) .nil
    rw [List.append_nil] at hlast
    rw [List.map_singleton, commaSeparated, List.intercalate_singleton]
    exact hlast
  | a :: b :: as =>
    have hrest := separated_commaSeparated (List.cons_ne_nil b as)
      fun c hc => h c (List.mem_cons_of_mem _ hc)
    have hmore := Separated.more (h a List.mem_cons_self) .nil .nil hrest
    rw [List.map_cons, List.map_cons, commaSeparated, List.intercalate_cons_cons,
      List.append_assoc]
    exact hmore

theorem spellsScalar_write {digits : Nat} {j : Json} (h : Within digits 0 j) :
    SpellsScalar digits j j.write := by
  cases j with
  | null => simpa only [write] using .null
  | bool b =>
    cases b with
    | false => simpa only [write] using .false
    | true => simpa only [write] using .true
  | int n => simpa only [write] using spellsScalar_int h
  | real text => exact h.elim
  | string s => simpa only [write] using .string (spellsString_write s)
  | array js => exact h.elim
  | object ms => exact h.elim

section Parts

variable {value : Json → List Char → Prop}

theorem spellsParts_array {js : List Json} (h : ∀ j ∈ js, value j j.write) :
    SpellsParts value (.array js) (write (.array js)) := by
  rw [write]
  cases js with
  | nil => exact .noItems .nil
  | cons j js => exact .items .nil (separated_commaSeparated (List.cons_ne_nil j js) h)

theorem spellsParts_object {ms : List (String × Json)} (h : ∀ m ∈ ms, value m.2 m.2.write) :
    SpellsParts value (.object ms) (write (.object ms)) := by
  have hmember : ∀ m ∈ ms, SpellsMember value m (writeString m.1 ++ ':' :: m.2.write) :=
    fun m hm => .named (spellsString_write m.1) .nil .nil (h m hm)
  rw [write]
  cases ms with
  | nil => exact .noMembers .nil
  | cons m ms => exact .members .nil (separated_commaSeparated (List.cons_ne_nil m ms) hmember)

end Parts

/-- **A value is written as one of its texts.** -/
theorem spells_write {digits depth : Nat} {j : Json} (h : Within digits depth j) :
    Spells digits depth j j.write := by
  induction depth generalizing j with
  | zero => exact spellsScalar_write h
  | succ depth ih =>
    cases j with
    | null => exact .inl (spellsScalar_write h)
    | bool b => exact .inl (spellsScalar_write h)
    | int n => exact .inl (spellsScalar_write h)
    | real text => exact h.elim
    | string s => exact .inl (spellsScalar_write h)
    | array js => exact .inr (spellsParts_array fun j hj => ih (h j hj))
    | object ms => exact .inr (spellsParts_object fun m hm => ih (h m hm))

theorem isText_write {limits : ReadLimits} {j : Json} (h : Within limits.digits limits.depth j) :
    IsText limits j j.write := by
  have htext := IsText.padded .nil (spells_write h) .nil
  rwa [List.nil_append, List.append_nil] at htext

/-- **What is written is read back.** -/
theorem read_write {limits : ReadLimits} {j : Json} (h : Within limits.digits limits.depth j) :
    read limits j.write = .ok j :=
  read_of_isText (isText_write h)

/-! ### One line -/

theorem plain_commaSeparated {parts : List (List Char)} (h : ∀ part ∈ parts, Plain part) :
    Plain (commaSeparated parts) := by
  match parts with
  | [] => exact .nil
  | [part] =>
    rw [commaSeparated, List.intercalate_singleton]
    exact h part List.mem_cons_self
  | part :: next :: parts =>
    have hrest := plain_commaSeparated fun other hother => h other (List.mem_cons_of_mem part hother)
    rw [commaSeparated, List.intercalate_cons_cons]
    exact ((h part List.mem_cons_self).append (.of_all (by decide))).append hrest

/-- **No control character is written.** -/
theorem plain_write {digits depth : Nat} {j : Json} (h : Within digits depth j) : Plain j.write := by
  have hscalar : ∀ {j : Json}, Within digits 0 j → Plain j.write :=
    fun h => (spellsScalar_write h).plain
  induction depth generalizing j with
  | zero => exact hscalar h
  | succ depth ih =>
    cases j with
    | null => exact hscalar h
    | bool b => exact hscalar h
    | int n => exact hscalar h
    | real text => exact h.elim
    | string s => exact hscalar h
    | array js =>
      have hitems : Plain (commaSeparated (js.map write)) :=
        plain_commaSeparated (List.forall_mem_map.mpr fun j hj => ih (h j hj))
      rw [write]
      exact (Plain.cons (by decide) hitems).append (.of_all (by decide))
    | object ms =>
      have hmembers : Plain (commaSeparated (ms.map fun m => writeString m.1 ++ ':' :: m.2.write)) :=
        plain_commaSeparated (List.forall_mem_map.mpr fun m hm =>
          (spellsString_write m.1).plain.append (.cons (by decide) (ih (h m hm))))
      rw [write]
      exact (Plain.cons (by decide) hmembers).append (.of_all (by decide))

end TweeLint.Json
