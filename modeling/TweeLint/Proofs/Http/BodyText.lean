import Mathlib.Data.List.Chain
import TweeLint.Http.BodyText
import TweeLint.Proofs.Text.WellFormed

/-!
# Bodies in UTF-8

A text without a byte-order mark in front and without a NUL is read from its bytes as it is
(`ofBytes_encode_of_clean`). The bytes of such a text have no zero byte and none that no character
has, so they are not taken for another encoding (`detect_encode`). And nothing in them is taken for
half of a surrogate pair: the first byte of a half is the first byte of some characters too, but the
byte behind it tells them apart (`withoutHalves_encode`).
-/

namespace TweeLint.Text.Utf8

/-! ### The bytes of a character -/

/-- The first byte of a character and those behind it. -/
structure CharBytes (c : Char) (first : UInt8) (more : List UInt8) : Prop where
  eq : String.utf8EncodeChar c = first :: more
  small : first < 0xF8
  zero : first = 0x00 → c = '\x00'
  further : ∀ b ∈ more, 0x80 ≤ b ∧ b < 0xC0
  noHalf : first = 0xED → ∃ b ∈ more.head?, b < 0xA0

theorem further_furtherBytes (v k : Nat) : ∀ b ∈ furtherBytes v k, 0x80 ≤ b ∧ b < 0xC0 := by
  induction k with
  | zero => exact fun _ hmem => nomatch hmem
  | succ k ih =>
    refine List.forall_mem_cons.mpr ⟨?_, ih⟩
    have hbyte : furtherByte v k < 192 := by
      rw [furtherByte]
      omega
    have h80 : (0x80 : UInt8).toNat = 128 := rfl
    have hC0 : (0xC0 : UInt8).toNat = 192 := rfl
    rw [UInt8.le_iff_toNat_le, UInt8.lt_iff_toNat_lt,
      UInt8.toNat_ofNat_of_lt' (show furtherByte v k < 256 by omega), h80, hC0]
    exact ⟨Nat.le_add_left _ _, hbyte⟩

/-- A character of one byte. -/
theorem charBytes_of_small {c : Char} (h : c.toNat < 0x80) :
    CharBytes c (UInt8.ofNat c.toNat) [] where
  eq := by
    have hencode := utf8EncodeChar_one h
    rwa [Char.ofNat_toNat] at hencode
  small := (ofNat_lt_iff (by omega)).mpr (Nat.lt_trans h (by decide))
  zero hzero := by
    have hnul : c.toNat = 0 := (ofNat_eq_iff (by omega)).mp hzero
    rw [← Char.ofNat_toNat c, hnul]
  further := fun _ hmem => nomatch hmem
  noHalf hED := by
    have hlarge : c.toNat = 0xED := (ofNat_eq_iff (by omega)).mp hED
    omega

/-- A character of several bytes. -/
theorem charBytes_of_further {c : Char} {n k : Nat}
    (hencode : String.utf8EncodeChar c = UInt8.ofNat n :: furtherBytes c.toNat (k + 1))
    (hlow : 0xC0 ≤ n) (hhigh : n < 0xF8) (hnoHalf : n = 0xED → furtherByte c.toNat k < 0xA0) :
    CharBytes c (UInt8.ofNat n) (furtherBytes c.toNat (k + 1)) where
  eq := hencode
  small := (ofNat_lt_iff (by omega)).mpr hhigh
  zero h := by
    have hzero : n = 0 := (ofNat_eq_iff (by omega)).mp h
    omega
  further := further_furtherBytes _ _
  noHalf h := by
    have hsmall := hnoHalf ((ofNat_eq_iff (by omega)).mp h)
    exact ⟨_, rfl, (ofNat_lt_iff (by omega)).mpr hsmall⟩

theorem exists_charBytes (c : Char) : ∃ first more, CharBytes c first more := by
  have hvalid : c.toNat < 0xD800 ∨ 0xDFFF < c.toNat ∧ c.toNat < 0x110000 := c.valid
  have hchar : Char.ofNat c.toNat = c := Char.ofNat_toNat c
  by_cases h1 : c.toNat < 0x80
  · exact ⟨_, _, charBytes_of_small h1⟩
  by_cases h2 : c.toNat < 0x800
  · have hencode := utf8EncodeChar_two (v := c.toNat) (by omega) h2
    rw [hchar] at hencode
    exact ⟨_, _, charBytes_of_further hencode (by omega) (by omega) (by omega)⟩
  by_cases h3 : c.toNat < 0x10000
  · have hencode := utf8EncodeChar_three (v := c.toNat) (by omega) h3 (by omega)
    rw [hchar] at hencode
    refine ⟨_, _, charBytes_of_further hencode (by omega) (by omega) fun h => ?_⟩
    simp only [furtherByte]
    omega
  · have hencode := utf8EncodeChar_four (v := c.toNat) (by omega) (by omega)
    rw [hchar] at hencode
    exact ⟨_, _, charBytes_of_further hencode (by omega) (by omega) (by omega)⟩

theorem CharBytes.encode_cons {c : Char} {first : UInt8} {more : List UInt8}
    (h : CharBytes c first more) (cs : List Char) :
    encode (c :: cs) = first :: more ++ encode cs := by
  rw [← h.eq]
  rfl

/-- Every byte of a text is below those that no character has, and zero only for a NUL. -/
theorem mem_encode {cs : List Char} {b : UInt8} (h : b ∈ encode cs) :
    b < 0xF8 ∧ (b = 0x00 → '\x00' ∈ cs) := by
  obtain ⟨c, hc, hb⟩ := List.mem_flatMap.mp h
  obtain ⟨first, more, hbytes⟩ := exists_charBytes c
  rw [hbytes.eq, List.mem_cons] at hb
  rcases hb with rfl | hb
  · exact ⟨hbytes.small, fun hzero => hbytes.zero hzero ▸ hc⟩
  · obtain ⟨hlow, hhigh⟩ := hbytes.further b hb
    exact ⟨UInt8.lt_trans hhigh (by decide), fun hzero => absurd (hzero ▸ hlow) (by decide)⟩

theorem length_le_encode (cs : List Char) : cs.length ≤ (encode cs).length := by
  induction cs with
  | nil => exact Nat.le_refl 0
  | cons c cs ih =>
    obtain ⟨first, more, hbytes⟩ := exists_charBytes c
    rw [hbytes.encode_cons]
    simp only [List.cons_append, List.length_cons, List.length_append]
    omega

/-- Bytes in which no half of a surrogate pair begins. -/
def WithoutHalves (bytes : List UInt8) : Prop :=
  bytes.IsChain fun a b => a = 0xED → b < 0xA0

/-- **No half of a surrogate pair begins in the bytes of a text.** -/
theorem withoutHalves_encode (cs : List Char) : WithoutHalves (encode cs) := by
  induction cs with
  | nil => exact .nil
  | cons c cs ih =>
    obtain ⟨first, more, hbytes⟩ := exists_charBytes c
    have hne : ∀ b ∈ more, b ≠ 0xED := by
      rintro b hb rfl
      exact absurd (hbytes.further _ hb).2 (by decide)
    have hmore : WithoutHalves more :=
      (List.pairwise_of_forall_mem_list fun a ha _ _ h => absurd h (hne a ha)).isChain
    have hlast : ∀ b ∈ (first :: more).getLast?, b ≠ 0xED := by
      rintro b hb rfl
      cases more with
      | nil =>
        obtain ⟨d, hd, -⟩ := hbytes.noHalf (Option.some.inj hb)
        exact nomatch hd
      | cons d more =>
        rw [List.getLast?_cons_cons] at hb
        exact hne _ (List.mem_of_mem_getLast? hb) rfl
    rw [hbytes.encode_cons]
    refine List.IsChain.append (List.isChain_cons.mpr ⟨fun b hb h => ?_, hmore⟩) ih
      fun b hb _ _ h => absurd h (hlast b hb)
    obtain ⟨d, hd, hsmall⟩ := hbytes.noHalf h
    rwa [Option.mem_unique hb hd]

end TweeLint.Text.Utf8

namespace TweeLint.Http.BodyText

open Text

/-- Where no half begins, none is replaced. -/
theorem replaceHalves_of_withoutHalves {done bytes : List UInt8} (h : Utf8.WithoutHalves bytes) :
    replaceHalves done bytes = done.reverse ++ bytes := by
  fun_induction replaceHalves done bytes with
  | case1 done a b c rest hhalf =>
    obtain ⟨hb, -⟩ := List.isChain_cons_cons.mp h
    simp only [Bool.and_eq_true, decide_eq_true_eq] at hhalf
    obtain ⟨⟨⟨⟨hED, hA0⟩, -⟩, -⟩, -⟩ := hhalf
    exact absurd (hb hED) (UInt8.not_lt.mpr hA0)
  | case2 done a b c rest hhalf ih =>
    rw [ih (List.isChain_cons_cons.mp h).2, List.reverse_cons, List.append_assoc]
    rfl
  | case3 done rest => rfl

section Encoded

variable {cs : List Char} (hmark : cs.head? ≠ some mark) (hnul : '\x00' ∉ cs)

include hnul

theorem ne_zero_of_mem_encode {b : UInt8} (hb : b ∈ Utf8.encode cs) : b ≠ 0x00 :=
  fun hzero => hnul ((Utf8.mem_encode hb).2 hzero)

/-- Bytes without a zero among them are taken for UTF-8. -/
theorem guess_encode : guess (Utf8.encode cs) = .utf8 := by
  have hzero : ∀ b ∈ Utf8.encode cs, b ≠ 0x00 := fun _ => ne_zero_of_mem_encode hnul
  unfold guess
  split
  · next a b c d rest heq =>
    rw [heq] at hzero
    rw [if_neg (hzero a (by simp)), if_neg (hzero b (by simp))]
  · next a b heq =>
    rw [heq] at hzero
    rw [if_neg (hzero a (by simp)), if_neg (hzero b (by simp))]
  · rfl

include hmark

theorem detect_encode : detect (Utf8.encode cs) = (.utf8, Utf8.encode cs) := by
  have hfirst : ∀ {first rest}, Utf8.encode cs = first :: rest → first ≠ 0x00 ∧ first < 0xF8 :=
    fun {first rest} heq =>
      have hmem : first ∈ Utf8.encode cs := heq ▸ List.mem_cons_self
      ⟨ne_zero_of_mem_encode hnul hmem, (Utf8.mem_encode hmem).1⟩
  unfold detect
  split
  · next heq => exact absurd rfl (hfirst heq).1
  · next heq => exact absurd (hfirst heq).2 (by decide)
  · next heq => exact absurd (hfirst heq).2 (by decide)
  · next heq => exact absurd (hfirst heq).2 (by decide)
  · next rest heq => exact absurd (Utf8.head?_of_markBytes_prefix ⟨rest, heq.symm⟩) hmark
  · rw [guess_encode hnul]

/-- **A text is read from its bytes as it is**, unless it begins with a byte-order mark or has a NUL
in it. -/
theorem ofBytes_encode_of_clean : ofBytes (Utf8.encode cs) = some cs := by
  have hread : replaceHalves [] (Utf8.encode cs) = Utf8.encode cs :=
    replaceHalves_of_withoutHalves (Utf8.withoutHalves_encode cs)
  simp only [ofBytes, detect_encode hmark hnul, hread, Utf8.decode_encode]
  rfl

end Encoded

end TweeLint.Http.BodyText
