import Mathlib.Algebra.Group.Nat.Defs
import TweeLint.Proofs.Text.Utf8

/-!
# Bytes that are no text

Bytes are well formed if they are those of some text. Others are refused, and the fault that is
reported starts where the longest well-formed part in front of them ends
(`longestWellFormed_of_decode`).

Where a character may begin, either one does or decoding stops there (`encode_or_refused`). For a
sequence of several bytes this is an induction over the bytes: while it is open, every number that
has the bits read so far, and whose next bits are in range, is a character whose bytes begin with
those read so far (`Pending.Opened`). A first byte opens a sequence in this sense
(`opened_of_first`), and a byte in range carries it on (`Pending.Opened.opened_of_more`) or
completes it (`Pending.Opened.encode_of_char`).
-/

namespace TweeLint.Text.Utf8

/-- The bytes of some text. -/
def WellFormed (bytes : List UInt8) : Prop :=
  ∃ cs, bytes = encode cs

/-- The first `n` bytes are well formed, and so are no more of them. -/
structure LongestWellFormed (bytes : List UInt8) (n : Nat) : Prop where
  le : n ≤ bytes.length
  wellFormed : WellFormed (bytes.take n)
  longest : ∀ m ≤ bytes.length, WellFormed (bytes.take m) → m ≤ n

/-! ### Characters of several bytes -/

/-- A byte of a character with `k` more behind it, as a number; the first byte is another. -/
def furtherByte (v k : Nat) : Nat :=
  v / 64 ^ k % 64 + 128

/-- The last `k` bytes of a character, where these are not all of them. -/
def furtherBytes (v : Nat) : Nat → List UInt8
  | 0 => []
  | k + 1 => UInt8.ofNat (furtherByte v k) :: furtherBytes v k

section Characters

variable {v : Nat}

theorem val_ofNat (h : v < 0xD800 ∨ 0xDFFF < v ∧ v < 0x110000) :
    (Char.ofNat v).val.toNat = v := by
  rw [Char.ofNat, dif_pos h]
  rfl

theorem utf8EncodeChar_one (hhigh : v < 0x80) :
    String.utf8EncodeChar (Char.ofNat v) = [UInt8.ofNat v] := by
  rw [String.utf8EncodeChar, val_ofNat (by omega)]
  exact if_pos (by omega)

theorem utf8EncodeChar_two (hlow : 0x80 ≤ v) (hhigh : v < 0x800) :
    String.utf8EncodeChar (Char.ofNat v) =
      UInt8.ofNat (v / 64 + 0xC0) :: furtherBytes v 1 := by
  have hfirst : v / 64 % 32 = v / 64 := by omega
  have hlast : v / 64 ^ 0 = v := by omega
  simp only [String.utf8EncodeChar, val_ofNat (v := v) (by omega), furtherBytes, furtherByte,
    hfirst, hlast]
  rw [if_neg (by omega), if_pos (by omega)]

theorem utf8EncodeChar_three (hlow : 0x800 ≤ v) (hhigh : v < 0x10000)
    (hvalid : v < 0xD800 ∨ 0xDFFF < v) :
    String.utf8EncodeChar (Char.ofNat v) =
      UInt8.ofNat (v / 64 ^ 2 + 0xE0) :: furtherBytes v 2 := by
  have hfirst : v / 4096 % 16 = v / 64 ^ 2 := by omega
  have hmiddle : v / 64 ^ 1 = v / 64 := by omega
  have hlast : v / 64 ^ 0 = v := by omega
  simp only [String.utf8EncodeChar, val_ofNat (v := v) (by omega), furtherBytes, furtherByte,
    hfirst, hmiddle, hlast]
  rw [if_neg (by omega), if_neg (by omega), if_pos (by omega)]

theorem utf8EncodeChar_four (hlow : 0x10000 ≤ v) (hhigh : v < 0x110000) :
    String.utf8EncodeChar (Char.ofNat v) =
      UInt8.ofNat (v / 64 ^ 3 + 0xF0) :: furtherBytes v 3 := by
  have hfirst : v / 262144 % 8 = v / 64 ^ 3 := by omega
  have hsecond : v / 64 ^ 2 = v / 4096 := by omega
  have hthird : v / 64 ^ 1 = v / 64 := by omega
  have hlast : v / 64 ^ 0 = v := by omega
  simp only [String.utf8EncodeChar, val_ofNat (v := v) (by omega), furtherBytes, furtherByte,
    hfirst, hsecond, hthird, hlast]
  rw [if_neg (by omega), if_neg (by omega), if_neg (by omega)]

end Characters

/-! ### Open sequences -/

/-- The sequence that began with the bytes of `part` needs `k` more behind its next one, and
completing it leads to characters that begin with these bytes. -/
structure Pending.Opened (p : Pending) (part : List UInt8) (k : Nat) : Prop where
  owed : p.owed = k + 1
  seen : p.seen = part.length
  low : 0x80 ≤ p.low.toNat
  high : p.high.toNat ≤ 0xBF
  completes : ∀ v, v / 64 ^ (k + 1) = p.value → p.low.toNat ≤ furtherByte v k →
    furtherByte v k ≤ p.high.toNat →
      String.utf8EncodeChar (Char.ofNat v) = part ++ furtherBytes v (k + 1)

section Opened

variable {n value : Nat}

theorem opened_two (hn : n = value + 0xC0) (hlow : 2 ≤ value) (hhigh : value < 0x20) :
    Pending.Opened ⟨1, 0x80, 0xBF, value, 1⟩ [UInt8.ofNat n] 0 where
  owed := rfl
  seen := rfl
  low := Nat.le_refl 0x80
  high := Nat.le_refl 0xBF
  completes := by
    intro v (hv : v / 64 = value) _ _
    rw [hn, ← hv]
    exact utf8EncodeChar_two (by omega) (by omega)

variable {low high : UInt8} (h80 : 0x80 ≤ low.toNat) (hBF : high.toNat ≤ 0xBF)

include h80 hBF

/-- Where the range is as narrow as it has to be, the number needs all three bytes and is no
surrogate. -/
theorem opened_three (hn : n = value + 0xE0) (hvalue : value < 0x10)
    (hlow : value = 0 → 0xA0 ≤ low.toNat) (hhigh : value = 0xD → high.toNat ≤ 0x9F) :
    Pending.Opened ⟨2, low, high, value, 1⟩ [UInt8.ofNat n] 1 where
  owed := rfl
  seen := rfl
  low := h80
  high := hBF
  completes := by
    intro v (hv : v / 64 ^ 2 = value) (hvlow : low.toNat ≤ v / 64 % 64 + 128)
      (hvhigh : v / 64 % 64 + 128 ≤ high.toNat)
    rw [hn, ← hv]
    exact utf8EncodeChar_three (by omega) (by omega) (by omega)

/-- Where the range is as narrow as it has to be, the number needs all four bytes and is not above
the greatest character. -/
theorem opened_four (hn : n = value + 0xF0) (hvalue : value < 5)
    (hlow : value = 0 → 0x90 ≤ low.toNat) (hhigh : value = 4 → high.toNat ≤ 0x8F) :
    Pending.Opened ⟨3, low, high, value, 1⟩ [UInt8.ofNat n] 2 where
  owed := rfl
  seen := rfl
  low := h80
  high := hBF
  completes := by
    intro v (hv : v / 64 ^ 3 = value) (hvlow : low.toNat ≤ v / 4096 % 64 + 128)
      (hvhigh : v / 4096 % 64 + 128 ≤ high.toNat)
    rw [hn, ← hv]
    exact utf8EncodeChar_four (by omega) (by omega)

end Opened

/-- A first byte is a character, or opens a sequence. -/
theorem encode_of_first {b : UInt8} {c : Char} (h : first b = .char c) :
    String.utf8EncodeChar c = [b] := by
  have hb : UInt8.ofNat b.toNat = b := UInt8.ofNat_toNat
  rw [← hb, first_ofNat b.toNat_lt] at h
  repeat' split at h
  all_goals cases h
  rw [utf8EncodeChar_one ‹_›, hb]

theorem opened_of_first {b : UInt8} {p : Pending} (h : first b = .more p) :
    ∃ k, p.Opened [b] k := by
  have hb : UInt8.ofNat b.toNat = b := UInt8.ofNat_toNat
  have h80 : (0x80 : UInt8).toNat = 128 := rfl
  have h8F : (0x8F : UInt8).toNat = 143 := rfl
  have h90 : (0x90 : UInt8).toNat = 144 := rfl
  have h9F : (0x9F : UInt8).toNat = 159 := rfl
  have hA0 : (0xA0 : UInt8).toNat = 160 := rfl
  have hBF : (0xBF : UInt8).toNat = 191 := rfl
  rw [← hb, first_ofNat b.toNat_lt] at h
  rw [← hb]
  generalize b.toNat = n at h
  repeat' split at h
  all_goals cases h
  · exact ⟨0, opened_two (by omega) (by omega) (by omega)⟩
  -- three bytes: the narrow ranges behind `E0` and `ED`, then the full one
  · exact ⟨1, opened_three (by omega) (by omega) (by omega) (by omega) (by omega) (by omega)⟩
  · exact ⟨1, opened_three (by omega) (by omega) (by omega) (by omega) (by omega) (by omega)⟩
  · exact ⟨1, opened_three (by omega) (by omega) (by omega) (by omega) (by omega) (by omega)⟩
  -- four bytes: `F0`, the full range, and `F4`
  · exact ⟨2, opened_four (by omega) (by omega) (by omega) (by omega) (by omega) (by omega)⟩
  · exact ⟨2, opened_four (by omega) (by omega) (by omega) (by omega) (by omega) (by omega)⟩
  · exact ⟨2, opened_four (by omega) (by omega) (by omega) (by omega) (by omega) (by omega)⟩

namespace Pending.Opened

variable {p : Pending} {part : List UInt8} {k : Nat} {b : UInt8} (hp : p.Opened part k)

include hp

/-- A byte in range holds the six bits of the numbers that it leads to. -/
theorem furtherByte_eq {v : Nat} (hlow : p.low ≤ b) (hhigh : b ≤ p.high)
    (hv : v / 64 ^ k = p.value * 64 + (b.toNat - 0x80)) :
    v / 64 ^ (k + 1) = p.value ∧ furtherByte v k = b.toNat := by
  have h80 := Nat.le_trans hp.low (UInt8.le_iff_toNat_le.mp hlow)
  have hBF := Nat.le_trans (UInt8.le_iff_toNat_le.mp hhigh) hp.high
  rw [furtherByte, Nat.pow_succ, ← Nat.div_div_eq_div_mul, hv]
  omega

/-- The bytes of every number that a byte in range leads to. -/
theorem encode_of_next {v : Nat} (hlow : p.low ≤ b) (hhigh : b ≤ p.high)
    (hv : v / 64 ^ k = p.value * 64 + (b.toNat - 0x80)) :
    String.utf8EncodeChar (Char.ofNat v) = part ++ [b] ++ furtherBytes v k := by
  obtain ⟨hvalue, hbyte⟩ := hp.furtherByte_eq hlow hhigh hv
  have hcompletes := hp.completes v hvalue (hbyte ▸ UInt8.le_iff_toNat_le.mp hlow)
    (hbyte ▸ UInt8.le_iff_toNat_le.mp hhigh)
  rw [hcompletes, furtherBytes, hbyte, UInt8.ofNat_toNat, List.append_assoc]
  rfl

/-- The last byte completes the character. -/
theorem encode_of_char {c : Char} (h : p.next b = .char c) :
    String.utf8EncodeChar c = part ++ [b] := by
  simp only [next, hp.owed] at h
  split at h
  · next hrange =>
    split at h
    · next hk =>
      obtain rfl : k = 0 := by omega
      rw [← Step.char.inj h, hp.encode_of_next hrange.1 hrange.2 (Nat.div_one _), furtherBytes,
        List.append_nil]
    · cases h
  · cases h

/-- Every other byte in range carries the sequence on. -/
theorem opened_of_more {q : Pending} (h : p.next b = .more q) :
    ∃ j, q.Opened (part ++ [b]) j := by
  simp only [next, hp.owed] at h
  split at h
  · next hrange =>
    split at h
    · cases h
    · next hk =>
      cases h
      obtain ⟨j, rfl⟩ : ∃ j, k = j + 1 := ⟨k - 1, by omega⟩
      exact ⟨j, rfl, by rw [List.length_append, ← hp.seen]; rfl, Nat.le_refl 0x80,
        Nat.le_refl 0xBF, fun v hv _ _ => hp.encode_of_next hrange.1 hrange.2 hv⟩
  · cases h

end Pending.Opened

/-! ### Decoding -/

/-- Decoding stops where it begins, whatever was read before. -/
def Refused (bytes : List UInt8) : Prop :=
  ∀ i done, ∃ f, decodeFrom i none done bytes = .error f ∧ f.start = i

/-- An open sequence is completed, or decoding stops where it began. -/
theorem decodeFrom_opened (lead : UInt8) {p : Pending} {part : List UInt8} {k : Nat}
    (hp : p.Opened part k) (bytes : List UInt8) :
    (∃ c rest, part ++ bytes = String.utf8EncodeChar c ++ rest) ∨
      ∀ i done, ∃ f,
        decodeFrom (i + part.length) (some (lead, p)) done bytes = .error f ∧ f.start = i := by
  induction bytes generalizing p part k with
  | nil => exact Or.inr fun i done => ⟨_, rfl, by rw [hp.seen]; exact Nat.add_sub_cancel i _⟩
  | cons b bytes ih =>
    cases hnext : p.next b with
    | char c =>
      refine Or.inl ⟨c, bytes, ?_⟩
      rw [hp.encode_of_char hnext, List.append_assoc]
      rfl
    | more q =>
      obtain ⟨j, hq⟩ := hp.opened_of_more hnext
      rcases ih hq with hchar | hrefused
      · rw [List.append_assoc] at hchar
        exact Or.inl hchar
      · refine Or.inr fun i done => ?_
        simp only [List.length_append] at hrefused
        simp only [decodeFrom, hnext]
        exact hrefused i done
    | bad =>
      refine Or.inr fun i done => ?_
      simp only [decodeFrom, hnext, hp.seen]
      exact ⟨_, rfl, Nat.add_sub_cancel i _⟩

/-- **Bytes begin with those of a character**, or they are refused. -/
theorem encode_or_refused (b : UInt8) (bytes : List UInt8) :
    (∃ c rest, b :: bytes = String.utf8EncodeChar c ++ rest) ∨ Refused (b :: bytes) := by
  cases hfirst : first b with
  | char c => exact Or.inl ⟨c, bytes, by rw [encode_of_first hfirst]; rfl⟩
  | more p =>
    obtain ⟨k, hp⟩ := opened_of_first hfirst
    rcases decodeFrom_opened b hp bytes with hchar | hrefused
    · exact Or.inl hchar
    · refine Or.inr fun i done => ?_
      rw [decodeFrom, hfirst]
      exact hrefused i done
  | bad =>
    refine Or.inr fun i done => ?_
    simp only [decodeFrom, hfirst]
    exact ⟨_, rfl, rfl⟩

/-- Bytes are those of a text up to where they are refused. -/
theorem exists_text_in_front (bytes : List UInt8) :
    ∃ cs rest, bytes = encode cs ++ rest ∧ (rest = [] ∨ Refused rest) := by
  match bytes with
  | [] => exact ⟨[], [], rfl, Or.inl rfl⟩
  | b :: bytes =>
    rcases encode_or_refused b bytes with ⟨c, rest, hchar⟩ | hrefused
    · obtain ⟨cs, last, hrest, hlast⟩ := exists_text_in_front rest
      refine ⟨c :: cs, last, ?_, hlast⟩
      rw [hchar, hrest, ← List.append_assoc]
      rfl
    · exact ⟨[], b :: bytes, rfl, Or.inr hrefused⟩
termination_by bytes.length
decreasing_by
  rw [hchar, List.length_append, String.length_utf8EncodeChar]
  exact Nat.lt_add_of_pos_left c.utf8Size_pos

/-- A fault is found behind the text in front of it. -/
theorem start_of_decodeFrom_error {i : Nat} {done : List Char} {bytes : List UInt8} {f : Fault}
    (h : decodeFrom i none done bytes = .error f) :
    ∃ cs rest, bytes = encode cs ++ rest ∧ f.start = i + (encode cs).length := by
  obtain ⟨cs, rest, hbytes, hend | hrefused⟩ := exists_text_in_front bytes
  · subst hbytes
    rw [hend, decodeFrom_encode_append] at h
    contradiction
  · obtain ⟨g, herror, hstart⟩ := hrefused (i + (encode cs).length) (cs.reverse ++ done)
    rw [hbytes, decodeFrom_encode_append, herror] at h
    cases h
    exact ⟨cs, rest, hbytes, hstart⟩

/-- **The fault that is found** starts behind the longest well-formed part in front. -/
theorem longestWellFormed_of_decode {bytes : List UInt8} {f : Fault}
    (h : decode bytes = .error f) : LongestWellFormed bytes f.start := by
  obtain ⟨cs, rest, rfl, hstart⟩ := start_of_decodeFrom_error h
  rw [Nat.zero_add] at hstart
  rw [hstart]
  refine ⟨?_, ⟨cs, List.take_left⟩, ?_⟩
  · rw [List.length_append]
    exact Nat.le_add_right _ _
  · intro m hm ⟨ds, hds⟩
    -- decoding gets past the longer text, and no fault is found in front of where it is
    rw [decode, ← List.take_append_drop m (encode cs ++ rest), hds, decodeFrom_encode_append] at h
    obtain ⟨es, _, _, hlater⟩ := start_of_decodeFrom_error h
    have hlength : (encode ds).length = m := by rw [← hds, List.length_take_of_le hm]
    omega

/-- **Exactly the bytes of a text** are read as it. -/
theorem decode_eq_ok_iff {bytes : List UInt8} {cs : List Char} :
    decode bytes = .ok cs ↔ bytes = encode cs := by
  constructor
  · intro h
    obtain ⟨ds, rest, rfl, hend | hrefused⟩ := exists_text_in_front bytes
    · rw [hend, List.append_nil, decode_encode] at h
      rw [hend, List.append_nil, Except.ok.inj h]
    · obtain ⟨f, herror, _⟩ := hrefused (0 + (encode ds).length) (ds.reverse ++ [])
      rw [decode, decodeFrom_encode_append, herror] at h
      contradiction
  · intro h
    rw [h, decode_encode]

theorem wellFormed_iff {bytes : List UInt8} : WellFormed bytes ↔ (decode bytes).isOk := by
  simp only [WellFormed, ← decode_eq_ok_iff]
  cases decode bytes with
  | ok cs => simp [Except.isOk, Except.toBool]
  | error f => simp [Except.isOk, Except.toBool]

instance (bytes : List UInt8) : Decidable (WellFormed bytes) :=
  decidable_of_iff _ wellFormed_iff.symm

end TweeLint.Text.Utf8
