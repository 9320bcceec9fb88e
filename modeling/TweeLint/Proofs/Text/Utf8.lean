import TweeLint.Document

/-!
# Reading what was encoded

The decoder reads the bytes of a text back as that text (`decode_encode`). A character of several
bytes is read byte by byte: its first byte says how many more there are and in which range the next
one is (`first_two`, `first_three`, `first_four`), and each further byte puts six more bits below
those read so far (`next_more`, `next_last`). The narrow ranges behind some first bytes are those
that a character leads to: it is no surrogate, and its bytes are not more than it needs.

A byte-order mark is three bytes like any character's, and no other text begins with them
(`ofBytes_encode`).
-/

namespace TweeLint.Text

namespace Utf8

/-! ### Bytes -/

theorem ofNat_lt_iff {n : Nat} (hn : n < 256) {b : UInt8} : UInt8.ofNat n < b ↔ n < b.toNat := by
  rw [UInt8.lt_iff_toNat_lt, UInt8.toNat_ofNat_of_lt' hn]

theorem ofNat_eq_iff {n : Nat} (hn : n < 256) {b : UInt8} : UInt8.ofNat n = b ↔ n = b.toNat := by
  rw [← UInt8.toNat_inj, UInt8.toNat_ofNat_of_lt' hn]

/-- The first byte of a character, as a number. -/
theorem first_ofNat {n : Nat} (hn : n < 256) :
    first (UInt8.ofNat n) =
      if n < 0x80 then .char (Char.ofNat n)
      else if n < 0xC2 then .bad
      else if n < 0xE0 then .more ⟨1, 0x80, 0xBF, n - 0xC0, 1⟩
      else if n = 0xE0 then .more ⟨2, 0xA0, 0xBF, 0, 1⟩
      else if n = 0xED then .more ⟨2, 0x80, 0x9F, 0xD, 1⟩
      else if n < 0xF0 then .more ⟨2, 0x80, 0xBF, n - 0xE0, 1⟩
      else if n = 0xF0 then .more ⟨3, 0x90, 0xBF, 0, 1⟩
      else if n < 0xF4 then .more ⟨3, 0x80, 0xBF, n - 0xF0, 1⟩
      else if n = 0xF4 then .more ⟨3, 0x80, 0x8F, 4, 1⟩
      else .bad := by
  simp only [first, ofNat_lt_iff hn, ofNat_eq_iff hn, UInt8.toNat_ofNat_of_lt' hn]
  rfl

/-- A further byte, as a number. -/
theorem next_ofNat {p : Pending} {n : Nat} (hn : n < 256) (hlow : p.low.toNat ≤ n)
    (hhigh : n ≤ p.high.toNat) :
    p.next (UInt8.ofNat n) =
      if p.owed ≤ 1 then .char (Char.ofNat (p.value * 64 + (n - 0x80)))
      else .more ⟨p.owed - 1, 0x80, 0xBF, p.value * 64 + (n - 0x80), p.seen + 1⟩ := by
  have hrange : p.low ≤ UInt8.ofNat n ∧ UInt8.ofNat n ≤ p.high := by
    rw [UInt8.le_iff_toNat_le, UInt8.le_iff_toNat_le, UInt8.toNat_ofNat_of_lt' hn]
    exact ⟨hlow, hhigh⟩
  simp only [Pending.next, if_pos hrange, UInt8.toNat_ofNat_of_lt' hn]

/-! ### Sequences -/

section Sequences

variable {v : Nat}

theorem next_last (low high : UInt8) (seen : Nat) (hlow : low.toNat ≤ v % 64 + 128)
    (hhigh : v % 64 + 128 ≤ high.toNat) :
    Pending.next ⟨1, low, high, v / 64, seen⟩ (UInt8.ofNat (v % 64 + 128)) =
      .char (Char.ofNat v) := by
  have hvalue : v / 64 * 64 + (v % 64 + 128 - 0x80) = v := by omega
  rw [next_ofNat (by omega) hlow hhigh, if_pos (Nat.le_refl 1), hvalue]

theorem next_more (low high : UInt8) (seen k : Nat) (hlow : low.toNat ≤ v % 64 + 128)
    (hhigh : v % 64 + 128 ≤ high.toNat) :
    Pending.next ⟨k + 2, low, high, v / 64, seen⟩ (UInt8.ofNat (v % 64 + 128)) =
      .more ⟨k + 1, 0x80, 0xBF, v, seen + 1⟩ := by
  have hvalue : v / 64 * 64 + (v % 64 + 128 - 0x80) = v := by omega
  have howed : ¬ k + 2 ≤ 1 := by omega
  rw [next_ofNat (by omega) hlow hhigh, if_neg howed, hvalue]
  rfl

theorem first_two (hlow : 0x80 ≤ v) (hhigh : v < 0x800) :
    first (UInt8.ofNat (v / 64 % 32 + 192)) = .more ⟨1, 0x80, 0xBF, v / 64, 1⟩ := by
  rw [first_ofNat (by omega), if_neg (by omega), if_neg (by omega), if_pos (by omega)]
  simp only [Step.more.injEq, Pending.mk.injEq, and_true, true_and]
  omega

/-- The first of three bytes. Behind it the range is narrow where the character would need less, and
where it would be a surrogate. -/
theorem first_three (hlow : 0x800 ≤ v) (hhigh : v < 0x10000)
    (hvalid : v < 0xD800 ∨ 0xDFFF < v) :
    ∃ low high, first (UInt8.ofNat (v / 4096 % 16 + 224)) = .more ⟨2, low, high, v / 4096, 1⟩ ∧
      low.toNat ≤ v / 64 % 64 + 128 ∧ v / 64 % 64 + 128 ≤ high.toNat := by
  have h80 : (0x80 : UInt8).toNat = 128 := rfl
  have hA0 : (0xA0 : UInt8).toNat = 160 := rfl
  have h9F : (0x9F : UInt8).toNat = 159 := rfl
  have hBF : (0xBF : UInt8).toNat = 191 := rfl
  rw [first_ofNat (by omega), if_neg (by omega), if_neg (by omega), if_neg (by omega)]
  by_cases hE0 : v / 4096 = 0
  · rw [if_pos (by omega), hE0]
    exact ⟨0xA0, 0xBF, rfl, by omega, by omega⟩
  · rw [if_neg (by omega)]
    by_cases hED : v / 4096 = 13
    · rw [if_pos (by omega), hED]
      exact ⟨0x80, 0x9F, rfl, by omega, by omega⟩
    · rw [if_neg (by omega), if_pos (by omega)]
      have hvalue : v / 4096 % 16 + 224 - 224 = v / 4096 := by omega
      rw [hvalue]
      exact ⟨0x80, 0xBF, rfl, by omega, by omega⟩

/-- The first of four bytes. Behind it the range is narrow where the character would need less, and
where it would be none. -/
theorem first_four (hlow : 0x10000 ≤ v) (hhigh : v < 0x110000) :
    ∃ low high, first (UInt8.ofNat (v / 262144 % 8 + 240)) = .more ⟨3, low, high, v / 262144, 1⟩ ∧
      low.toNat ≤ v / 4096 % 64 + 128 ∧ v / 4096 % 64 + 128 ≤ high.toNat := by
  have h80 : (0x80 : UInt8).toNat = 128 := rfl
  have h90 : (0x90 : UInt8).toNat = 144 := rfl
  have h8F : (0x8F : UInt8).toNat = 143 := rfl
  have hBF : (0xBF : UInt8).toNat = 191 := rfl
  rw [first_ofNat (by omega), if_neg (by omega), if_neg (by omega), if_neg (by omega),
    if_neg (by omega), if_neg (by omega), if_neg (by omega)]
  by_cases hF0 : v / 262144 = 0
  · rw [if_pos (by omega), hF0]
    exact ⟨0x90, 0xBF, rfl, by omega, by omega⟩
  · rw [if_neg (by omega)]
    by_cases hF4 : v / 262144 = 4
    · rw [if_neg (by omega), if_pos (by omega), hF4]
      exact ⟨0x80, 0x8F, rfl, by omega, by omega⟩
    · rw [if_pos (by omega)]
      have hvalue : v / 262144 % 8 + 240 - 240 = v / 262144 := by omega
      rw [hvalue]
      exact ⟨0x80, 0xBF, rfl, by omega, by omega⟩

end Sequences

/-! ### Texts -/

/-- **The bytes of a character** are read as that character. -/
theorem decodeFrom_utf8EncodeChar (c : Char) (i : Nat) (done : List Char) (rest : List UInt8) :
    decodeFrom i none done (String.utf8EncodeChar c ++ rest) =
      decodeFrom (i + (String.utf8EncodeChar c).length) none (c :: done) rest := by
  have h80 : (0x80 : UInt8).toNat = 128 := rfl
  have hBF : (0xBF : UInt8).toNat = 191 := rfl
  have hvalid : c.val.toNat < 0xD800 ∨ 0xDFFF < c.val.toNat ∧ c.val.toNat < 0x110000 := c.valid
  have hchar : Char.ofNat c.val.toNat = c := Char.ofNat_toNat c
  unfold String.utf8EncodeChar
  generalize c.val.toNat = v at hvalid hchar ⊢
  simp only
  split
  · next h1 =>
    have hfirst : first (UInt8.ofNat v) = .char (Char.ofNat v) := by
      rw [first_ofNat (by omega), if_pos (by omega)]
    simp only [List.cons_append, List.nil_append, decodeFrom, hfirst, hchar, List.length_cons,
      List.length_nil]
  · split
    · next h1 h2 =>
      have hfirst := first_two (v := v) (by omega) (by omega)
      have hlast := next_last (v := v) 0x80 0xBF 1 (by omega) (by omega)
      simp only [List.cons_append, List.nil_append, decodeFrom, hfirst, hlast, hchar,
        List.length_cons, List.length_nil]
    · have h4096 : v / 4096 = v / 64 / 64 := by omega
      split
      · next h1 h2 h3 =>
        obtain ⟨low, high, hfirst, hlow, hhigh⟩ :=
          first_three (v := v) (by omega) (by omega) (by omega)
        have hmore := next_more (v := v / 64) low high 1 0 hlow hhigh
        have hlast := next_last (v := v) 0x80 0xBF 2 (by omega) (by omega)
        rw [h4096] at hfirst ⊢
        simp only [List.cons_append, List.nil_append, decodeFrom, hfirst, hmore, hlast, hchar,
          List.length_cons, List.length_nil]
      · next h1 h2 h3 =>
        have h262144 : v / 262144 = v / 4096 / 64 := by omega
        obtain ⟨low, high, hfirst, hlow, hhigh⟩ := first_four (v := v) (by omega) (by omega)
        have hmore := next_more (v := v / 4096) low high 1 1 hlow hhigh
        have hmore' := next_more (v := v / 64) 0x80 0xBF 2 0 (by omega) (by omega)
        have hlast := next_last (v := v) 0x80 0xBF 3 (by omega) (by omega)
        rw [h262144] at hfirst ⊢
        rw [h4096] at hfirst hmore ⊢
        simp only [List.cons_append, List.nil_append, decodeFrom, hfirst, hmore, hmore', hlast,
          hchar, List.length_cons, List.length_nil]

/-- A text in front is read, whatever is behind it. -/
theorem decodeFrom_encode_append (cs : List Char) (i : Nat) (done : List Char)
    (rest : List UInt8) :
    decodeFrom i none done (encode cs ++ rest) =
      decodeFrom (i + (encode cs).length) none (cs.reverse ++ done) rest := by
  induction cs generalizing i done with
  | nil => rfl
  | cons c cs ih =>
    have hencode : encode (c :: cs) = String.utf8EncodeChar c ++ encode cs := rfl
    rw [hencode, List.append_assoc, decodeFrom_utf8EncodeChar, ih, List.length_append,
      Nat.add_assoc, List.reverse_cons, List.append_assoc]
    rfl

/-- **What was encoded is read back.** -/
theorem decode_encode (cs : List Char) : decode (encode cs) = .ok cs := by
  rw [decode, ← List.append_nil (encode cs), decodeFrom_encode_append, decodeFrom, List.append_nil,
    List.reverse_reverse]

/-! ### The mark in front -/

/-- What was read stays in front. -/
theorem decodeFrom_prefix {i : Nat} {open? : Option (UInt8 × Pending)} {done : List Char}
    {bytes : List UInt8} {out : List Char} (h : decodeFrom i open? done bytes = .ok out) :
    done.reverse <+: out := by
  induction bytes generalizing i open? done with
  | nil =>
    cases open? with
    | none => exact (Except.ok.inj h) ▸ List.prefix_rfl
    | some lead => exact absurd h (by simp [decodeFrom])
  | cons b rest ih =>
    have hread : ∀ {c}, (c :: done).reverse <+: out → done.reverse <+: out := by
      intro c hc
      rw [List.reverse_cons] at hc
      exact (List.prefix_append _ _).trans hc
    cases open? with
    | none =>
      simp only [decodeFrom] at h
      split at h
      · exact hread (ih h)
      · exact ih h
      · exact absurd h (by simp)
    | some lead =>
      simp only [decodeFrom] at h
      split at h
      · exact hread (ih h)
      · exact ih h
      · exact absurd h (by simp)

theorem head?_of_markBytes_prefix {cs : List Char} (h : markBytes <+: encode cs) :
    cs.head? = some mark := by
  obtain ⟨rest, hrest⟩ := h
  have hread : decodeFrom 3 none [mark] rest = .ok cs := by
    rw [← decode_encode cs, ← hrest]
    rfl
  obtain ⟨tail, rfl⟩ := decodeFrom_prefix hread
  rfl

/-- The beginnings of a mark. -/
theorem prefix_markBytes {bytes : List UInt8} (h : bytes <+: markBytes) :
    bytes = [] ∨ bytes = [0xEF] ∨ bytes = [0xEF, 0xBB] ∨ bytes = markBytes := by
  simp only [markBytes, List.prefix_cons_iff, List.prefix_nil] at h
  rcases h with rfl | ⟨t, rfl, rfl | ⟨u, rfl, rfl | ⟨w, rfl, rfl⟩⟩⟩
  · exact Or.inl rfl
  · exact Or.inr (Or.inl rfl)
  · exact Or.inr (Or.inr (Or.inl rfl))
  · exact Or.inr (Or.inr (Or.inr rfl))

/-- The bytes of a text are not the beginning of a mark without being all of it. -/
theorem eq_of_prefix_markBytes {cs : List Char} (h : encode cs <+: markBytes) :
    cs = [] ∨ cs = [mark] := by
  have hread := decode_encode cs
  rcases prefix_markBytes h with h | h | h | h
  · rw [h] at hread
    exact Or.inl (Except.ok.inj hread).symm
  · have hcut : decode [0xEF] = .error ⟨0, 1, 0xEF, .unexpectedEnd⟩ := rfl
    rw [h, hcut] at hread
    contradiction
  · have hcut : decode [0xEF, 0xBB] = .error ⟨0, 2, 0xEF, .unexpectedEnd⟩ := rfl
    rw [h, hcut] at hread
    contradiction
  · rw [h] at hread
    exact Or.inr (Except.ok.inj hread).symm

end Utf8

theorem dropMark_of_head? {cs : List Char} (h : cs.head? ≠ some mark) : dropMark cs = cs := by
  cases cs with
  | nil => rfl
  | cons c cs => exact if_neg fun hc => h (congrArg some hc)

/-- **Bytes of a text** hold it without a mark in front and with line feeds at its line ends. -/
theorem ofBytes_encode (cs : List Char) :
    ofBytes (Utf8.encode cs) = .ok (unifyLineEnds (dropMark cs)) := by
  unfold ofBytes
  split
  · next h =>
    rcases Utf8.eq_of_prefix_markBytes (List.isPrefixOf_iff_prefix.mp h) with rfl | rfl
    · rfl
    · rfl
  · by_cases hmark : cs.head? = some mark
    · obtain ⟨tail, rfl⟩ : ∃ tail, cs = mark :: tail := List.head?_eq_some_iff.mp hmark
      have hmarked : Utf8.markBytes.isPrefixOf (Utf8.encode (mark :: tail)) = true :=
        List.isPrefixOf_iff_prefix.mpr ⟨Utf8.encode tail, rfl⟩
      have hdrop : (Utf8.encode (mark :: tail)).drop 3 = Utf8.encode tail := rfl
      simp only [hmarked, if_true, hdrop, Utf8.decode_encode]
      rfl
    · have hmarked : ¬ Utf8.markBytes.isPrefixOf (Utf8.encode cs) = true := fun h =>
        hmark (Utf8.head?_of_markBytes_prefix (List.isPrefixOf_iff_prefix.mp h))
      simp only [if_neg hmarked, Utf8.decode_encode, dropMark_of_head? hmark]
      rfl

end TweeLint.Text
