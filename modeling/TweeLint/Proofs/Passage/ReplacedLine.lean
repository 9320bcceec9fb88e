import Mathlib.Data.List.Nodup
import TweeLint.Proofs.Passage.Headers

/-!
# One line replaced

Where a line that is no header is replaced by another one that is none, the document has the same
headers (`headers_set`) and each section reaches as far as before (`nextHeader_set`). Only the
section with the line is another one (`sectionAt_set_of_ne`), and it keeps all but its body
(`Spans.set`).

Where the line is replaced in part, that body is known too: a stretch of the text is a stretch of one
line (`Spans.exists_set`), and what is around the section is the same before and after, so the text
between is the new body (`Spans.eq_of_set`).
-/

namespace TweeLint.Section

/-- Line `i` is no header, and neither is `m`. -/
structure NoHeaders (ls : List (List Char)) (i : Nat) (m : List Char) : Prop where
  old : ¬ HeaderAt ls i
  new : isHeader m = false

theorem eq_of_parts {s t : Section} (hline : t.line = s.line) (hheader : t.header = s.header)
    (hbody : t.body = s.body) : t = s := by
  cases s
  cases t
  cases hline
  cases hheader
  cases hbody
  rfl

section Replaced

variable {ls : List (List Char)} {i : Nat} {m : List Char} {h h' : Nat}

theorem headerAt_set (hno : NoHeaders ls i m) (k : Nat) :
    HeaderAt (ls.set i m) k ↔ HeaderAt ls k := by
  by_cases hk : i = k
  · subst hk
    refine iff_of_false (fun hnew => ?_) hno.old
    obtain ⟨l, hl, hheader⟩ := hnew
    obtain rfl : m = l := by
      rw [List.getElem?_set_self'] at hl
      cases hget : ls[i]? with
      | none => simp [hget] at hl
      | some _ => simpa [hget] using hl
    have hnew := isHeader_iff.mpr hheader
    rw [hno.new] at hnew
    exact absurd hnew (by decide)
  · rw [HeaderAt, List.getElem?_set_ne hk, HeaderAt]

/-- **The headers are the same.** -/
theorem headers_set (hno : NoHeaders ls i m) : headers (ls.set i m) = headers ls := by
  rw [headers, headers, List.length_set]
  refine List.filter_congr fun k _ => ?_
  rw [Bool.eq_iff_iff, ← headerAt_iff, ← headerAt_iff]
  exact headerAt_set hno k

theorem nextHeader_set (hno : NoHeaders ls i m) :
    NextHeader (ls.set i m) h h' ↔ NextHeader ls h h' := by
  constructor
  · intro hnext
    refine ⟨hnext.lt, by simpa using hnext.le, fun hlt => ?_, fun k hk hk' => ?_⟩
    · exact (headerAt_set hno h').mp (hnext.header (by simpa using hlt))
    · exact fun hk'' => hnext.between k hk hk' ((headerAt_set hno k).mpr hk'')
  · intro hnext
    refine ⟨hnext.lt, by simpa using hnext.le, fun hlt => ?_, fun k hk hk' => ?_⟩
    · exact (headerAt_set hno h').mpr (hnext.header (by simpa using hlt))
    · exact fun hk'' => hnext.between k hk hk' ((headerAt_set hno k).mp hk'')

/-- A header and all others. -/
theorem exists_headers_eq (hh : HeaderAt ls h) :
    ∃ above below, headers ls = above ++ h :: below ∧
      ∀ g ∈ above ++ below, HeaderAt ls g ∧ g ≠ h := by
  obtain ⟨above, below, hsplit⟩ := List.append_of_mem (mem_headers.mpr hh)
  have hnodup : (headers ls).Nodup := List.nodup_range.filter _
  rw [hsplit, List.nodup_middle, List.nodup_cons] at hnodup
  refine ⟨above, below, hsplit, fun g hg => ⟨mem_headers.mp ?_, fun hgh => hnodup.1 (hgh ▸ hg)⟩⟩
  rw [hsplit]
  simp only [List.mem_append, List.mem_cons] at hg ⊢
  exact hg.imp_right Or.inr

/-- A line has one nearest header above it. -/
theorem NextHeader.eq_of_between {j j' : Nat} (hh : HeaderAt ls h) (hj : HeaderAt ls j)
    (hnext : NextHeader ls h h') (hnext' : NextHeader ls j j') (hi : h < i) (hi' : i < h')
    (hji : j < i) (hji' : i < j') : h = j := by
  rcases Nat.lt_trichotomy h j with hlt | heq | hlt
  · exact absurd hj (hnext.between j hlt (by omega))
  · exact heq
  · exact absurd hh (hnext'.between h hlt (by omega))

/-- What the sections of a header have in common before and after. -/
theorem Spans.set {s t : Section} (hno : NoHeaders ls i m) (hs : Spans ls h h' s) {j : Nat}
    (ht : Spans (ls.set i m) h j t) : j = h' ∧ t.line = s.line ∧ t.header = s.header := by
  have hj : j = h' := ((nextHeader_set hno).mp ht.next).unique hs.next
  have hne : i ≠ h := by
    rintro rfl
    exact hno.old hs.headerAt
  obtain ⟨l, hl, hheader⟩ := hs.header
  obtain ⟨l', hl', hheader'⟩ := ht.header
  rw [List.getElem?_set_ne hne, hl] at hl'
  obtain rfl := Option.some.inj hl'
  refine ⟨hj, by rw [ht.line, hs.line], ?_⟩
  rw [hheader, hheader', List.length_set]

/-- **A section that the line is no part of** is the same. -/
theorem sectionAt_set_of_outside (hno : NoHeaders ls i m) (hh : HeaderAt ls h)
    (hnext : NextHeader ls h h') (hout : ¬ (h < i ∧ i < h')) :
    sectionAt 1 (Text.endLines (ls.set i m)) h = sectionAt 1 (Text.endLines ls) h := by
  obtain ⟨j, hs⟩ := spans_at hh
  obtain ⟨j', ht⟩ := spans_at ((headerAt_set hno h).mpr hh)
  obtain rfl : j = h' := hs.next.unique hnext
  obtain ⟨rfl, hline, hheader⟩ := hs.set hno ht
  have hbetween : between (ls.set i m) h j' = between ls h j' := by
    by_cases hi : h < i
    · rw [between, between, List.take_set_of_le (by omega)]
    · rw [between, between, List.take_set, List.drop_set_of_lt (by omega)]
  have hbody : (sectionAt 1 (Text.endLines (ls.set i m)) h).body =
      (sectionAt 1 (Text.endLines ls) h).body := by
    rw [hs.body, ht.body, bodyBetween, bodyBetween, hbetween, List.length_set]
  exact eq_of_parts hline hheader hbody

/-- **Only the section with the line** is another one. -/
theorem sectionAt_set_of_ne (hno : NoHeaders ls i m) (hh : HeaderAt ls h) (hnext : NextHeader ls h h')
    (hi : h < i) (hi' : i < h') {g : Nat} (hg : HeaderAt ls g) (hne : g ≠ h) :
    sectionAt 1 (Text.endLines (ls.set i m)) g = sectionAt 1 (Text.endLines ls) g := by
  obtain ⟨g', hspans⟩ := spans_at hg
  refine sectionAt_set_of_outside hno hg hspans.next fun hin => hne ?_
  exact hspans.next.eq_of_between hg hh hnext hin.1 hin.2 hi hi'

end Replaced

/-! ### A stretch of a line replaced -/

namespace Spans

variable {u : List Char} {h h' : Nat} {s : Section}

/-- What stands in front of a character of the body ends on a line of the section. -/
theorem count_between (hs : Spans (Text.splitLines u) h h' s) {pre rest : List Char} {c : Char}
    (hbody : s.body = pre ++ c :: rest) (hc : c ≠ '\n') :
    h < (Text.feedLines ((Text.splitLines u).take h) ++ (s.header ++ pre)).count '\n' ∧
      (Text.feedLines ((Text.splitLines u).take h) ++ (s.header ++ pre)).count '\n' < h' := by
  obtain ⟨i, j, -, hplace, hi, hi', -⟩ := hs.exists_place hbody hc
  rw [hs.after_header, Position.start_after] at hplace
  have hline := congrArg Position.line hplace
  dsimp only at hline
  omega

/-- **A stretch of a section's body replaced.** In the text `u`, `name` stands behind a parenthesis of
the section; in the text `t` it is `spelling` instead. This replaces one line of the section. -/
theorem exists_set (hs : Spans (Text.splitLines u) h h' s) {pre rest name spelling t : List Char}
    (hbody : s.body = pre ++ '(' :: (name ++ rest)) (hname : '\n' ∉ name)
    (hspelling : '\n' ∉ spelling)
    (ht : t = Text.feedLines ((Text.splitLines u).take h) ++ (s.header ++ pre) ++
      '(' :: (spelling ++ (rest ++ Text.joinLines ((Text.splitLines u).drop h')))) :
    ∃ i m, h < i ∧ i < h' ∧ NoHeaders (Text.splitLines u) i m ∧
      Text.splitLines t = (Text.splitLines u).set i m := by
  obtain ⟨hi, hi'⟩ := hs.count_between hbody (by decide)
  have hu := hs.eq_append_below
  rw [hbody] at hu
  generalize Text.joinLines ((Text.splitLines u).drop h') = below at ht hu
  generalize Text.feedLines ((Text.splitLines u).take h) = above at ht hu hi hi'
  have hu' : u = above ++ (s.header ++ pre) ++ (('(' :: name) ++ (rest ++ below)) := by
    rw [hu]
    simp
  have ht' : t = above ++ (s.header ++ pre) ++ (('(' :: spelling) ++ (rest ++ below)) := by
    rw [ht]
    simp
  have hname' : '\n' ∉ '(' :: name := by simpa using hname
  have hspelling' : '\n' ∉ '(' :: spelling := by simpa using hspelling
  obtain ⟨l, hl, hset⟩ := Text.exists_splitLines_set (above ++ (s.header ++ pre)) (rest ++ below)
    hname' hspelling'
  rw [← hu', ← ht'] at hset
  rw [← hu'] at hl
  refine ⟨_, _, hi, hi', ⟨hs.next.between _ hi hi', ?_⟩, hset⟩
  have hnot : isHeader (Text.lastLine (above ++ (s.header ++ pre)) ++ ('(' :: name ++ l)) = false := by
    have hbetween := hs.next.between _ hi hi'
    rw [headerAt_iff, hl] at hbetween
    simpa using hbetween
  rw [List.cons_append, isHeader_append_stop (by decide)] at hnot ⊢
  exact hnot

/-- The section in which a stretch of the body was replaced. -/
theorem eq_of_set (hs : Spans (Text.splitLines u) h h' s) {pre rest spelling t : List Char}
    (ht : t = Text.feedLines ((Text.splitLines u).take h) ++ (s.header ++ pre) ++
      '(' :: (spelling ++ (rest ++ Text.joinLines ((Text.splitLines u).drop h')))) {i : Nat}
    {m : List Char} (hi : h < i) (hi' : i < h') (hno : NoHeaders (Text.splitLines u) i m)
    (hset : Text.splitLines t = (Text.splitLines u).set i m) {j : Nat} {s' : Section}
    (hs' : Spans (Text.splitLines t) h j s') :
    s' = ⟨s.line, s.header, pre ++ '(' :: (spelling ++ rest)⟩ := by
  have hbelow := hs'.eq_append_below
  rw [hset] at hs'
  obtain ⟨rfl, hline, hheader⟩ := hs.set hno hs'
  rw [hset, List.take_set_of_le (by omega), List.drop_set_of_lt hi', hheader] at hbelow
  refine eq_of_parts hline hheader ?_
  have hcut := ht.symm.trans hbelow
  rw [List.append_assoc, List.append_assoc] at hcut
  have hrest := List.append_cancel_left (List.append_cancel_left hcut)
  have hbody : (pre ++ '(' :: (spelling ++ rest)) ++ Text.joinLines ((Text.splitLines u).drop j) =
      s'.body ++ Text.joinLines ((Text.splitLines u).drop j) := by
    rw [← hrest]
    simp
  exact (List.append_cancel_right hbody).symm

end Spans

end TweeLint.Section
