import Mathlib.Data.List.TakeWhile
import TweeLint.Proofs.Json.Grammar

/-!
# Texts are read

Every text that stands for a value is read as that value (`read_of_isText`).

The reader takes a value from the front of a text, so each step is about a text with a rest behind
it. What may stand behind a value is a blank, a comma or a closing bracket, or nothing (`Ends`):
none of them can be taken for a part of a number. The induction goes down by the depth, as grammar
and reader do, and within a layer along its parts.
-/

namespace TweeLint.Json

namespace Reader

variable {opened done rest : List Char}

/-! ### Strings -/

theorem unit?_append {n : Nat} {ds : List Char} (h : SpellsUnit n ds) (hrest : rest ≠ []) :
    unit? (ds ++ rest) = some (n, rest) := by
  have hdigits : ∀ p ∈ hexDigits, hexDigit? p.1 = some p.2 :=
    List.all_iff_forall_prop.mp (by decide)
  obtain ⟨next, tail, rfl⟩ := List.exists_cons_of_ne_nil hrest
  cases h with
  | digits ha hb hc hd =>
    simp only [List.cons_append, List.nil_append, unit?, hdigits _ ha, hdigits _ hb, hdigits _ hc,
      hdigits _ hd]
    rfl

theorem chars_raw {c : Char} (hquote : c ≠ '"') (hback : c ≠ '\\') (hspace : 0x20 ≤ c.toNat) :
    chars opened done (c :: rest) = chars opened (c :: done) rest := by
  have hcontrol : ¬ c.toNat ≤ 0x1F := by omega
  rw [chars]
  · rw [if_neg hcontrol]
  all_goals simp_all

theorem chars_letter {e c : Char} (h : (e, c) ∈ letterEscapes) :
    chars opened done ('\\' :: e :: rest) = chars opened (c :: done) rest := by
  have hletters : ∀ p ∈ letterEscapes, p.1 ≠ 'u' ∧ escaped? p.1 = some p.2 :=
    List.all_iff_forall_prop.mp (by decide)
  obtain ⟨hu, hescaped⟩ := hletters _ h
  rw [chars]
  · simp only [hescaped]
  all_goals simp_all

theorem chars_unit {n : Nat} {ds : List Char} (h : SpellsUnit n ds) (hrest : rest ≠ [])
    (hhigh : Text.isHighHalf n = false) :
    chars opened done ('\\' :: 'u' :: (ds ++ rest)) =
      chars opened (Text.ofUnit n :: done) rest := by
  rw [chars]
  split
  · next hnone => simp [unit?_append h hrest] at hnone
  · next m behind hsome =>
    rw [unit?_append h hrest] at hsome
    cases hsome
    simp [hhigh]

theorem lowHalf?_append {n : Nat} {ds : List Char} (h : SpellsUnit n ds) (hrest : rest ≠ [])
    (hlow : Text.isLowHalf n = true) :
    lowHalf? ('\\' :: 'u' :: (ds ++ rest)) = .ok (some (n, rest)) := by
  have hlength : ds.length = 4 := by
    cases h
    rfl
  have hdrop : (ds ++ rest).drop 4 = rest := List.drop_left' hlength
  have hempty : rest.isEmpty = false := List.isEmpty_eq_false_iff.mpr hrest
  simp only [lowHalf?, hdrop, hempty, unit?_append h hrest, hlow]
  rfl

theorem chars_pair {high low : Nat} {ds es : List Char} (hds : SpellsUnit high ds)
    (hes : SpellsUnit low es) (hrest : rest ≠ []) (hhigh : Text.isHighHalf high = true)
    (hlow : Text.isLowHalf low = true) :
    chars opened done ('\\' :: 'u' :: (ds ++ '\\' :: 'u' :: (es ++ rest))) =
      chars opened (Text.joinHalves high low :: done) rest := by
  have hunit : unit? (ds ++ '\\' :: 'u' :: (es ++ rest)) =
      some (high, '\\' :: 'u' :: (es ++ rest)) := unit?_append hds (List.cons_ne_nil _ _)
  have hhalf := lowHalf?_append hes hrest hlow
  rw [chars]
  split
  · next hnone => simp [hunit] at hnone
  · next m behind hsome =>
    rw [hunit] at hsome
    cases hsome
    rw [if_pos hhigh]
    split
    · next herror => simp [hhalf] at herror
    · next hnone => simp [hhalf] at hnone
    · next hpair =>
      rw [hhalf] at hpair
      cases hpair
      rfl

/-- The halves of the pair of a character make it up. -/
theorem joinHalves_of_char {c : Char} (h : 0x10000 ≤ c.toNat) :
    Text.isHighHalf (0xD800 + (c.toNat - 0x10000) / 0x400) = true ∧
      Text.isLowHalf (0xDC00 + (c.toNat - 0x10000) % 0x400) = true ∧
      Text.joinHalves (0xD800 + (c.toNat - 0x10000) / 0x400)
        (0xDC00 + (c.toNat - 0x10000) % 0x400) = c := by
  have hmax : c.toNat < 0xD800 ∨ 0xDFFF < c.toNat ∧ c.toNat < 0x110000 := c.valid
  have hsum : 0x10000 + (0xD800 + (c.toNat - 0x10000) / 0x400 - 0xD800) * 0x400 +
      (0xDC00 + (c.toNat - 0x10000) % 0x400 - 0xDC00) = c.toNat := by omega
  refine ⟨?_, ?_, ?_⟩
  · simp only [Text.isHighHalf, Bool.and_eq_true, decide_eq_true_eq]
    omega
  · simp only [Text.isLowHalf, Bool.and_eq_true, decide_eq_true_eq]
    omega
  · rw [Text.joinHalves, hsum, Char.ofNat_toNat]

/-- A character is no half of a pair. -/
theorem isHalf_toNat (c : Char) :
    Text.isHighHalf c.toNat = false ∧ Text.isLowHalf c.toNat = false := by
  have hvalid : c.toNat < 0xD800 ∨ 0xDFFF < c.toNat ∧ c.toNat < 0x110000 := c.valid
  simp only [Text.isHighHalf, Text.isLowHalf, Bool.and_eq_false_iff, decide_eq_false_iff_not]
  omega

/-- **A written character is read**, however it is written. -/
theorem chars_word {c : Char} {word : List Char} (h : SpellsChar c word) (hrest : rest ≠ []) :
    chars opened done (word ++ rest) = chars opened (c :: done) rest := by
  cases h with
  | raw hquote hback hspace => exact chars_raw hquote hback hspace
  | letter h => exact chars_letter h
  | unit h =>
    obtain ⟨hhigh, hlow⟩ := isHalf_toNat c
    have hunit : Text.ofUnit c.toNat = c := by
      rw [Text.ofUnit, hhigh, hlow]
      exact Char.ofNat_toNat c
    rw [List.cons_append, List.cons_append, chars_unit h hrest hhigh, hunit]
  | pair hlarge hds hes =>
    obtain ⟨hhigh, hlow, hjoin⟩ := joinHalves_of_char hlarge
    simp only [List.cons_append, List.append_assoc]
    rw [chars_pair hds hes hrest hhigh hlow, hjoin]

/-- **A written string is read** up to its closing quote. -/
theorem chars_quoted {cs inner : List Char} (h : SpellsChars cs inner) :
    chars opened done (inner ++ '"' :: rest) = .ok (done.reverse ++ cs, rest) := by
  induction h generalizing done with
  | nil =>
    rw [List.nil_append, chars, List.append_nil]
  | cons hword _ ih =>
    rw [List.append_assoc, chars_word hword (by simp), ih, List.reverse_cons, List.append_assoc]
    rfl

/-! ### Numbers and words -/

/-- What may stand behind a value. -/
def Ends (rest : List Char) : Prop :=
  ∀ c ∈ rest.head?, c ∈ [' ', '\t', '\n', '\r', ',', ']', '\x7d']

theorem ends_append {cs ds : List Char} (hcs : Blanks cs) (hds : Ends ds) : Ends (cs ++ ds) := by
  cases cs with
  | nil => exact hds
  | cons c cs =>
    intro d hd
    obtain rfl := Option.some.inj hd
    exact List.mem_append_left [',', ']', '\x7d'] (hcs c List.mem_cons_self)

theorem integer_toDigits (n : Nat) : integer false (Nat.toDigits 10 n) = n := by
  have hfold : (Nat.toDigits 10 n).foldl (fun n c => 10 * n + (c.toNat - '0'.toNat)) 0 = n := by
    rw [← Nat.ofDigitChars_eq_foldl, Nat.ofDigitChars_ten_toDigits]
  rw [integer, hfold]
  rfl

theorem fraction_of_ends (h : Ends rest) : fraction rest = ([], rest) := by
  unfold fraction
  split
  · exact absurd (h '.' rfl) (by decide)
  · rfl

theorem exponent_of_ends (h : Ends rest) : exponent rest = ([], rest) := by
  unfold exponent
  split
  · rfl
  · next c tail =>
    have hletter : ¬ (c = 'e' ∨ c = 'E') := by
      rintro (rfl | rfl)
      · exact absurd (h 'e' rfl) (by decide)
      · exact absurd (h 'E' rfl) (by decide)
    rw [if_neg (by simpa using hletter)]

theorem digits_append {ds : List Char} (hds : ∀ c ∈ ds, c.isDigit = true) (h : Ends rest) :
    digits (ds ++ rest) = (ds, rest) := by
  have hends : ∀ c ∈ [' ', '\t', '\n', '\r', ',', ']', '\x7d'], c.isDigit = false :=
    List.all_iff_forall_prop.mp (by decide)
  have hhead : ∀ c ∈ rest.head?, c.isDigit = false := fun c hc => hends c (h c hc)
  rw [digits, List.takeWhile_append_of_pos hds, List.dropWhile_append_of_pos hds]
  cases rest with
  | nil => simp
  | cons c rest => simp [hhead c rfl]

theorem integerPart?_toDigits (n : Nat) (h : Ends rest) :
    integerPart? (Nat.toDigits 10 n ++ rest) = some (Nat.toDigits 10 n, rest) := by
  have hall : ∀ c ∈ Nat.toDigits 10 n, c.isDigit = true :=
    fun c hc => Nat.isDigit_of_mem_toDigits (by decide) (by decide) hc
  obtain ⟨c, cs, hcons, hdigit, hzero⟩ := toDigits_eq_cons n
  rw [hcons] at hall ⊢
  rw [List.cons_append, integerPart?]
  by_cases hc : c = '0'
  · rw [if_pos hc, (hzero hc).1, hc]
    rfl
  · rw [if_neg hc, if_pos hdigit, ← List.cons_append, digits_append hall h]

section Integers

variable {maxDigits n : Nat} (hdigits : (Nat.toDigits 10 n).length ≤ maxDigits) (h : Ends rest)

include hdigits h

theorem number_nat : number maxDigits (Nat.toDigits 10 n ++ rest) = .ok (.int n, rest) := by
  obtain ⟨c, cs, hcons, hdigit, -⟩ := toDigits_eq_cons n
  have hsign : c ≠ '-' := by
    rintro rfl
    exact absurd hdigit (by decide)
  unfold number
  split
  next negative unsigned hmatch =>
    split at hmatch
    · next tail htext =>
      rw [hcons] at htext
      exact absurd (List.cons.inj htext).1 hsign
    · cases hmatch
      simp only [integerPart?_toDigits n h, fraction_of_ends h, exponent_of_ends h,
        integer_toDigits, if_neg (Nat.not_lt.mpr hdigits)]
      rfl

theorem number_neg :
    number maxDigits ('-' :: (Nat.toDigits 10 n ++ rest)) = .ok (.int (-n), rest) := by
  have hinteger : integer true (Nat.toDigits 10 n) = -n := by
    rw [← integer_toDigits n]
    rfl
  simp only [number, integerPart?_toDigits n h, fraction_of_ends h, exponent_of_ends h, hinteger,
    if_neg (Nat.not_lt.mpr hdigits)]
  rfl

end Integers

/-- What is neither a string nor a word is read as a number. -/
theorem scalar_eq_number {maxDigits : Nat} {text : List Char} (hquote : ∀ rest, text ≠ '"' :: rest)
    (hwords : words.find? (fun w => w.1.isPrefixOf text) = none) :
    scalar maxDigits text = number maxDigits text := by
  unfold scalar
  split
  · next rest => exact absurd rfl (hquote rest)
  · rw [hwords]

theorem scalar_digit (maxDigits : Nat) {c : Char} (hc : c.isDigit = true) (cs : List Char) :
    scalar maxDigits (c :: cs) = number maxDigits (c :: cs) ∧
      scalar maxDigits ('-' :: c :: cs) = number maxDigits ('-' :: c :: cs) := by
  have hne : ∀ d : Char, d.isDigit = false → d ≠ c := by
    rintro d hd rfl
    rw [hc] at hd
    contradiction
  constructor
  · refine scalar_eq_number (fun rest heq => hne '"' rfl (List.cons.inj heq).1.symm) ?_
    simp [words, hne 'n' rfl, hne 't' rfl, hne 'f' rfl, hne 'N' rfl, hne 'I' rfl, hne '-' rfl]
  · refine scalar_eq_number (fun rest heq => absurd (List.cons.inj heq).1 (by decide)) ?_
    simp [words, hne 'I' rfl]

/-- **A value without parts is read**, whatever may stand behind it. -/
theorem scalar_append {maxDigits : Nat} {j : Json} {text : List Char}
    (h : SpellsScalar maxDigits j text) (hrest : Ends rest) :
    scalar maxDigits (text ++ rest) = .ok (j, rest) := by
  cases h with
  | null => rfl
  | true => rfl
  | false => rfl
  | @nat n hdigits =>
    obtain ⟨c, cs, hcons, hdigit, -⟩ := toDigits_eq_cons n
    have hscalar := (scalar_digit maxDigits hdigit (cs ++ rest)).1
    rw [← List.cons_append, ← hcons] at hscalar
    rw [hscalar, number_nat hdigits hrest]
  | @neg n hdigits =>
    obtain ⟨c, cs, hcons, hdigit, -⟩ := toDigits_eq_cons n
    have hscalar := (scalar_digit maxDigits hdigit (cs ++ rest)).2
    rw [← List.cons_append, ← hcons] at hscalar
    rw [List.cons_append, hscalar, number_neg hdigits hrest]
  | string h =>
    cases h with
    | quoted h =>
      simp only [List.cons_append, List.append_assoc, scalar, List.nil_append, chars_quoted h]
      simp only [Except.map, List.reverse_nil, List.nil_append, String.ofList_toList]

/-! ### Arrays and objects -/

theorem skip_blanks {cs text : List Char} (hcs : Blanks cs)
    (htext : ∀ c ∈ text.head?, isBlank c = false) : skip (cs ++ text) = text := by
  have hblank : ∀ c ∈ [' ', '\t', '\n', '\r'], isBlank c = true :=
    List.all_iff_forall_prop.mp (by decide)
  rw [skip, List.dropWhile_append_of_pos fun c hc => hblank c (hcs c hc)]
  cases text with
  | nil => rfl
  | cons c text => rw [List.dropWhile_cons, htext c rfl, if_neg Bool.false_ne_true]

theorem skip_blanks_begins {cs text : List Char} (hcs : Blanks cs) (htext : Begins text) :
    skip (cs ++ text) = text := by
  have hfirst : ∀ c ∈ firstChars, isBlank c = false := List.all_iff_forall_prop.mp (by decide)
  obtain ⟨c, hc, hmem⟩ := htext
  refine skip_blanks hcs fun d hd => ?_
  rw [Option.mem_unique hd hc]
  exact hfirst c hmem

/-- A reader takes the texts of parts, up to a size, from the front of a text. -/
structure Takes {α : Type} (size : Nat) (part : α → List Char → Prop)
    (read : List Char → Except Stop (α × List Char)) : Prop where
  begins : ∀ {a word}, part a word → Begins word
  reads : ∀ {a word rest}, part a word → word.length ≤ size → Ends rest →
    read (word ++ rest) = .ok (a, rest)

/-- A loop over parts that adds each to those already read, until a bracket closes them. -/
structure Loop {α : Type} (read : List Char → Except Stop (α × List Char)) (close : Char)
    (build : List α → Json)
    (loop : List α → Nat → List Char → Except Stop (Json × List Char)) : Prop where
  ends : Ends [close]
  notBlank : isBlank close = false
  closes : ∀ {done fuel text a behind rest}, read text = .ok (a, behind) →
    skip behind = close :: rest →
      loop done (fuel + 1) text = .ok (build (done.reverse ++ [a]), rest)
  goesOn : ∀ {done fuel text a behind rest}, read text = .ok (a, behind) →
    skip behind = ',' :: rest → loop done (fuel + 1) text = loop (a :: done) fuel (skip rest)

/-- **Parts are read in their order.** -/
theorem Loop.append {α : Type} {size : Nat} {part : α → List Char → Prop}
    {read : List Char → Except Stop (α × List Char)} {close : Char} {build : List α → Json}
    {loop : List α → Nat → List Char → Except Stop (Json × List Char)}
    (hloop : Loop read close build loop) (htakes : Takes size part read) {as : List α}
    {text : List Char} (h : Separated part as text) {done : List α} {fuel : Nat}
    (hfuel : as.length ≤ fuel) (hsize : text.length ≤ size) :
    loop done fuel (text ++ close :: rest) = .ok (build (done.reverse ++ as), rest) := by
  induction h generalizing fuel done with
  | @last a word after hword hafter =>
    obtain ⟨fuel, rfl⟩ : ∃ k, fuel = k + 1 := Nat.exists_eq_add_one.mpr hfuel
    rw [List.length_append] at hsize
    have hends : Ends (after ++ close :: rest) := ends_append hafter hloop.ends
    have hread := htakes.reads hword (by omega) hends
    have hskip : skip (after ++ close :: rest) = close :: rest :=
      skip_blanks hafter fun c hc => Option.some.inj hc ▸ hloop.notBlank
    rw [List.append_assoc, hloop.closes hread hskip]
  | @more a as word after before text hword hafter hbefore htext ih =>
    obtain ⟨fuel, rfl⟩ : ∃ k, fuel = k + 1 := Nat.exists_eq_add_one.mpr (by
      simp only [List.length_cons] at hfuel
      omega)
    simp only [List.length_append, List.length_cons] at hsize hfuel
    have hends : Ends (after ++ ',' :: (before ++ (text ++ close :: rest))) :=
      ends_append hafter (by simp [Ends])
    have hread := htakes.reads hword (by omega) hends
    have hskip : skip (after ++ ',' :: (before ++ (text ++ close :: rest))) =
        ',' :: (before ++ (text ++ close :: rest)) := skip_blanks hafter (by simp [isBlank])
    have hnext : skip (before ++ (text ++ close :: rest)) = text ++ close :: rest :=
      skip_blanks_begins hbefore ((htext.begins htakes.begins).append _)
    simp only [List.append_assoc, List.cons_append]
    rw [hloop.goesOn hread hskip, hnext, ih (by omega) (by omega), List.reverse_cons,
      List.append_assoc]
    rfl

/-- The member at the front of a text. -/
def member (item : List Char → Except Stop (Json × List Char)) (text : List Char) :
    Except Stop ((String × Json) × List Char) := do
  let (name, front) ← memberName text
  let (value, behind) ← item front
  return ((name, value), behind)

section Parts

variable {item : List Char → Except Stop (Json × List Char)} {text behind : List Char}

theorem memberName_append {name : String} {word before after value : List Char}
    (hword : SpellsString name word) (hbefore : Blanks before) (hafter : Blanks after)
    (hvalue : Begins value) :
    memberName (word ++ (before ++ ':' :: (after ++ value))) = .ok (name, value) := by
  cases hword with
  | quoted h =>
    have hskip : skip (before ++ ':' :: (after ++ value)) = ':' :: (after ++ value) :=
      skip_blanks hbefore (by simp [isBlank])
    simp only [List.cons_append, List.append_assoc, List.nil_append, memberName, chars_quoted h,
      bind, Except.bind, hskip, skip_blanks_begins hafter hvalue]
    simp

/-- A member is a name and a value in front of what is behind it. -/
theorem member_eq_ok {m : String × Json} (h : member item text = .ok (m, behind)) :
    ∃ front, memberName text = .ok (m.1, front) ∧ item front = .ok (m.2, behind) := by
  unfold member at h
  cases hname : memberName text with
  | error e =>
    rw [hname] at h
    cases h
  | ok named =>
    cases hitem : item named.2 with
    | error e =>
      simp only [hname, bind, Except.bind, hitem] at h
      cases h
    | ok read =>
      simp only [hname, bind, Except.bind, hitem] at h
      cases h
      exact ⟨named.2, rfl, hitem⟩

theorem loop_items : Loop item ']' .array (items item) where
  ends := by simp [Ends]
  notBlank := by decide
  closes hread hskip := by simp only [items, hread, bind, Except.bind, hskip, List.reverse_cons]
  goesOn hread hskip := by simp only [items, hread, bind, Except.bind, hskip]

theorem loop_members : Loop (member item) '\x7d' .object (members item) where
  ends := by simp [Ends]
  notBlank := by decide
  closes hread hskip := by
    obtain ⟨front, hname, hitem⟩ := member_eq_ok hread
    simp only [members, hname, hitem, bind, Except.bind, hskip, List.reverse_cons]
  goesOn hread hskip := by
    obtain ⟨front, hname, hitem⟩ := member_eq_ok hread
    simp only [members, hname, hitem, bind, Except.bind, hskip]

theorem takes_member {size : Nat} {value : Json → List Char → Prop}
    (htakes : Takes size value item) : Takes size (SpellsMember value) (member item) where
  begins := SpellsMember.begins
  reads {m word rest} h hsize hrest := by
    cases h with
    | @named name j word before after text hname hbefore hafter htext =>
      simp only [List.length_append, List.length_cons] at hsize
      have hname := memberName_append hname hbefore hafter ((htakes.begins htext).append rest)
      have hitem := htakes.reads htext (by omega) hrest
      simp only [List.append_assoc, List.cons_append, member, hname, bind, Except.bind, hitem]
      rfl

end Parts

/-! ### Values -/

variable {maxDigits size depth : Nat} {text : List Char}

theorem value_eq_scalar (h : ∃ c ∈ text.head?, c ∈ scalarChars) :
    value maxDigits size depth text = scalar maxDigits text := by
  have hnot : '[' ∉ scalarChars ∧ '\x7b' ∉ scalarChars := by decide
  obtain ⟨c, hc, hmem⟩ := h
  cases depth with
  | zero | succ =>
    unfold value
    split
    · exact absurd (Option.some.inj hc ▸ hmem) hnot.1
    · exact absurd (Option.some.inj hc ▸ hmem) hnot.2
    · rfl

theorem value_scalar {j : Json} (h : SpellsScalar maxDigits j text) (hrest : Ends rest) :
    value maxDigits size depth (text ++ rest) = .ok (j, rest) := by
  obtain ⟨c, hc, hmem⟩ := h.begins
  rw [value_eq_scalar ⟨c, by rw [List.head?_append, hc]; rfl, hmem⟩, scalar_append h hrest]

/-- An array that is not empty goes to the loop over its items. -/
theorem value_items {before : List Char} (hbefore : Blanks before) (htext : Begins text) :
    value maxDigits size (depth + 1) ('[' :: (before ++ text)) =
      items (value maxDigits size depth) [] size text := by
  obtain ⟨c, hc, hmem⟩ := htext
  simp only [value, skip_blanks_begins hbefore ⟨c, hc, hmem⟩]
  split
  · exact absurd (Option.some.inj hc ▸ hmem) (by decide)
  · rfl

/-- An object that is not empty goes to the loop over its members. -/
theorem value_members {before : List Char} (hbefore : Blanks before) (htext : Begins text) :
    value maxDigits size (depth + 1) ('\x7b' :: (before ++ text)) =
      members (value maxDigits size depth) [] size text := by
  obtain ⟨c, hc, hmem⟩ := htext
  simp only [value, skip_blanks_begins hbefore ⟨c, hc, hmem⟩]
  split
  · exact absurd (Option.some.inj hc ▸ hmem) (by decide)
  · rfl

/-- One layer of brackets around values that are read. -/
theorem value_parts {inner : Json → List Char → Prop}
    (htakes : Takes size inner (value maxDigits size depth)) {j : Json}
    (h : SpellsParts inner j text) (hsize : text.length ≤ size) :
    value maxDigits size (depth + 1) (text ++ rest) = .ok (j, rest) := by
  cases h with
  | @noItems before hbefore =>
    have hskip : skip (before ++ ']' :: rest) = ']' :: rest :=
      skip_blanks hbefore (by simp [isBlank])
    simp only [List.cons_append, List.append_assoc, List.nil_append, value, hskip]
  | @noMembers before hbefore =>
    have hskip : skip (before ++ '\x7d' :: rest) = '\x7d' :: rest :=
      skip_blanks hbefore (by simp [isBlank])
    simp only [List.cons_append, List.append_assoc, List.nil_append, value, hskip]
  | @items js before text hbefore h =>
    simp only [List.length_cons, List.length_append, List.length_nil] at hsize
    have hlength := h.length_le
    have hread : items (value maxDigits size depth) [] size (text ++ ']' :: rest) =
        .ok (.array js, rest) := loop_items.append htakes h (by omega) (by omega)
    simp only [List.cons_append, List.append_assoc, List.nil_append]
    rw [value_items hbefore ((h.begins htakes.begins).append _), hread]
  | @members ms before text hbefore h =>
    simp only [List.length_cons, List.length_append, List.length_nil] at hsize
    have hlength := h.length_le
    have hread : members (value maxDigits size depth) [] size (text ++ '\x7d' :: rest) =
        .ok (.object ms, rest) :=
      loop_members.append (takes_member htakes) h (by omega) (by omega)
    simp only [List.cons_append, List.append_assoc, List.nil_append]
    rw [value_members hbefore ((h.begins SpellsMember.begins).append _), hread]

/-- **A written value is read** from the front of a text. -/
theorem takes_value (maxDigits size depth : Nat) :
    Takes size (Spells maxDigits depth) (value maxDigits size depth) := by
  refine ⟨Spells.begins, fun {j text rest} h hsize hrest => ?_⟩
  induction depth generalizing j text rest with
  | zero => exact value_scalar h hrest
  | succ depth ih =>
    rcases h with h | h
    · exact value_scalar h hrest
    · exact value_parts ⟨Spells.begins, ih⟩ h hsize

end Reader

open Reader

/-- **Every text that stands for a value is read as that value.** -/
theorem read_of_isText {limits : ReadLimits} {j : Json} {text : List Char}
    (h : IsText limits j text) : read limits text = .ok j := by
  cases h with
  | @padded before text after hbefore h hafter =>
    have hskip : skip (before ++ (text ++ after)) = text ++ after :=
      skip_blanks_begins hbefore (h.begins.append after)
    have hsize : text.length ≤ (before ++ (text ++ after)).length := by
      simp only [List.length_append]
      omega
    have hends : Ends after := by
      rw [← List.append_nil after]
      exact ends_append hafter (by simp [Ends])
    have hread := (takes_value limits.digits _ limits.depth).reads h hsize hends
    have hrest : skip after = [] := by
      rw [← List.append_nil after]
      exact skip_blanks hafter (by simp)
    simp only [read, hskip, hread, hrest]

end TweeLint.Json
