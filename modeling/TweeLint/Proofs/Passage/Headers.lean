import TweeLint.Passage
import TweeLint.Proofs.Position
import TweeLint.Proofs.Text.Blank

/-!
# Header lines and what is between them

A document seen as a list of lines has its header lines at certain indices. A section belongs to one
of these indices and reaches to the next, or to the end of the document if there is no next one
(`Spans`); all that the sections of a document are is one of these for each header line, in order
(`sections_eq`, `spans_at`).

* **From the line list to the text.** `Spans` fixes the characters of header and body, and where the
  text up to the section's end leads.
* **From the text to the line list.** A character of a section's body stands in a line that is below
  the header and above the next one (`Spans.exists_place`).
-/

namespace TweeLint

/-- The lines of a document, of which one leading byte-order mark is no part. -/
def documentLines (document : String) : List (List Char) :=
  Text.splitLines (Text.dropMark document.toList)

namespace Section

/-- There is a header at line `h`. -/
def HeaderAt (ls : List (List Char)) (h : Nat) : Prop :=
  ∃ l, ls[h]? = some l ∧ [':', ':'] <+: l

/-- The indices of the header lines, in order. -/
def headers (ls : List (List Char)) : List Nat :=
  (List.range ls.length).filter fun h => ls[h]?.any isHeader

/-- `h'` is the header line that follows line `h`, or the number of lines if there is none. -/
structure NextHeader (ls : List (List Char)) (h h' : Nat) : Prop where
  lt : h < h'
  le : h' ≤ ls.length
  header : h' < ls.length → HeaderAt ls h'
  between : ∀ k, h < k → k < h' → ¬ HeaderAt ls k

/-- The lines between line `h` and line `h'`. -/
def between (ls : List (List Char)) (h h' : Nat) : List (List Char) :=
  (ls.take h').drop (h + 1)

/-- The text between header line `h` and line `h'`, to the last character before the latter. -/
def bodyBetween (ls : List (List Char)) (h h' : Nat) : List Char :=
  if h' < ls.length then Text.feedLines (between ls h h') else Text.joinLines (between ls h h')

/-- The section of header line `h`, which reaches to line `h'`. -/
structure Spans (ls : List (List Char)) (h h' : Nat) (s : Section) : Prop where
  headerAt : HeaderAt ls h
  next : NextHeader ls h h'
  line : s.line = h + 1
  header : ∃ l, ls[h]? = some l ∧ s.header = l ++ if h + 1 < ls.length then ['\n'] else []
  body : s.body = bodyBetween ls h h'
  upTo : Text.feedLines (ls.take h) ++ (s.header ++ s.body) =
    if h' < ls.length then Text.feedLines (ls.take h') else Text.joinLines ls

/-! ### Headers -/

theorem isHeader_iff {l : List Char} : isHeader l = true ↔ [':', ':'] <+: l := by
  constructor
  · intro h
    unfold isHeader at h
    split at h
    · next rest => exact ⟨rest, rfl⟩
    · exact absurd h (by simp)
  · intro hprefix
    obtain ⟨rest, rfl⟩ := hprefix
    rfl

theorem headerAt_iff {ls : List (List Char)} {h : Nat} :
    HeaderAt ls h ↔ ls[h]?.any isHeader = true := by
  unfold HeaderAt
  cases ls[h]? with
  | none => simp
  | some l => simp [isHeader_iff]

theorem mem_headers {ls : List (List Char)} {h : Nat} : h ∈ headers ls ↔ HeaderAt ls h := by
  rw [headers, List.mem_filter, List.mem_range, headerAt_iff]
  constructor
  · exact fun hh => hh.2
  · intro hh
    refine ⟨?_, hh⟩
    by_contra hlen
    rw [List.getElem?_eq_none (by omega)] at hh
    exact absurd hh (by simp)

theorem headers_cons (l : List Char) (ls : List (List Char)) :
    headers (l :: ls) = (if isHeader l then [0] else []) ++ (headers ls).map (· + 1) := by
  rw [headers, List.length_cons, List.range_succ_eq_map, List.filter_cons, List.filter_map]
  by_cases hl : isHeader l = true <;> simp [hl, headers, Function.comp_def]

/-- A character that is no colon keeps what follows it from making a line a header. -/
theorem isHeader_append_stop {c : Char} (hc : c ≠ ':') (xs ys : List Char) :
    isHeader (xs ++ c :: ys) = isHeader xs := by
  match xs with
  | [] => simp [isHeader, hc]
  | [x] => by_cases hx : x = ':' <;> simp [isHeader, hx, hc]
  | x :: y :: xs => by_cases hx : x = ':' <;> by_cases hy : y = ':' <;> simp [isHeader, hx, hy]

/-- A line feed at the end makes no line a header and no header another line. -/
theorem isHeader_append_feed (l : List Char) : isHeader (l ++ ['\n']) = isHeader l :=
  isHeader_append_stop (by decide) l []

theorem headers_endLines (ls : List (List Char)) :
    headers (Text.endLines ls) = headers ls := by
  induction ls with
  | nil => rfl
  | cons l ls ih =>
    by_cases hls : ls = []
    · subst hls
      rfl
    · rw [Text.endLines_cons l hls, headers_cons, headers_cons, ih, isHeader_append_feed]

theorem NextHeader.unique {ls : List (List Char)} {h h₁ h₂ : Nat} (hn₁ : NextHeader ls h h₁)
    (hn₂ : NextHeader ls h h₂) : h₁ = h₂ := by
  rcases Nat.lt_trichotomy h₁ h₂ with hlt | heq | hlt
  · exact absurd (hn₁.header (Nat.lt_of_lt_of_le hlt hn₂.le)) (hn₂.between h₁ hn₁.lt hlt)
  · exact heq
  · exact absurd (hn₂.header (Nat.lt_of_lt_of_le hlt hn₁.le)) (hn₁.between h₂ hn₂.lt hlt)

/-! ### Gathering -/

/-- The body lines before the first header, and the sections, of lines that are numbered from
`k`. -/
def gathered (k : Nat) (ls : List (List Char)) : List (List Char) × List Section :=
  (ls.zipIdx k).foldr gather ([], [])

theorem ofLines_eq (ls : List (List Char)) : ofLines ls = (gathered 1 ls).2 := rfl

theorem gathered_cons (k : Nat) (l : List Char) (ls : List (List Char)) :
    gathered k (l :: ls) = gather (l, k) (gathered (k + 1) ls) := rfl

theorem gathered_fst (k : Nat) (ls : List (List Char)) :
    (gathered k ls).1 = ls.takeWhile (! isHeader ·) := by
  induction ls generalizing k with
  | nil => rfl
  | cons l ls ih =>
    rw [gathered_cons, gather]
    by_cases hl : isHeader l = true <;> simp [hl, ih]

/-- An empty line at the end adds nothing to any section. -/
theorem gathered_append_nil (k : Nat) (ls : List (List Char)) :
    (gathered k (ls ++ [[]])).1.flatten = (gathered k ls).1.flatten ∧
      (gathered k (ls ++ [[]])).2 = (gathered k ls).2 := by
  -- sections flatten the body lines, so the two lists of body lines need not be equal
  induction ls generalizing k with
  | nil => exact ⟨rfl, rfl⟩
  | cons l ls ih =>
    obtain ⟨ih₁, ih₂⟩ := ih (k + 1)
    rw [List.cons_append, gathered_cons, gathered_cons, gather, gather]
    by_cases hl : isHeader l = true <;> simp [hl, ih₁, ih₂]

/-- The section of header line `h`, of lines that are numbered from `k`. -/
def sectionAt (k : Nat) (ls : List (List Char)) (h : Nat) : Section :=
  ⟨k + h, ls[h]?.getD [], ((ls.drop (h + 1)).takeWhile (! isHeader ·)).flatten⟩

theorem gathered_snd (k : Nat) (ls : List (List Char)) :
    (gathered k ls).2 = (headers ls).map (sectionAt k ls) := by
  induction ls generalizing k with
  | nil => rfl
  | cons l ls ih =>
    -- one line in front: each header is one index further, and numbered the same
    have hshift : (headers ls).map (sectionAt (k + 1) ls) =
        ((headers ls).map (· + 1)).map (sectionAt k (l :: ls)) := by
      rw [List.map_map]
      refine List.map_congr_left fun h _ => ?_
      simp only [sectionAt, Function.comp_apply, List.getElem?_cons_succ, List.drop_succ_cons,
        Section.mk.injEq, and_self, and_true]
      omega
    rw [gathered_cons, gather, headers_cons, List.map_append, ← hshift, ih]
    by_cases hl : isHeader l = true
    · simp [hl, sectionAt, gathered_fst]
    · simp [hl]

/-- **The sections of a document**, one for each header line. -/
theorem sections_eq (document : String) :
    sections document =
      (headers (documentLines document)).map
        (sectionAt 1 (Text.endLines (documentLines document))) := by
  have hcut : ofLines (Text.lines (Text.dropMark document.toList)) =
      ofLines (Text.endLines (documentLines document)) := by
    rcases Text.endLines_splitLines (Text.dropMark document.toList) with h | h
    · rw [documentLines, h]
    · rw [documentLines, h, ofLines_eq, ofLines_eq, (gathered_append_nil 1 _).2]
  rw [sections, hcut, ofLines_eq, gathered_snd, headers_endLines]

/-! ### The text of a section -/

theorem takeWhile_endLines (ls : List (List Char)) :
    (Text.endLines ls).takeWhile (! isHeader ·) =
      (Text.endLines ls).take (ls.takeWhile (! isHeader ·)).length := by
  induction ls with
  | nil => rfl
  | cons l ls ih =>
    by_cases hls : ls = []
    · subst hls
      by_cases hl : isHeader l = true <;> simp [Text.endLines, hl]
    · rw [Text.endLines_cons l hls]
      by_cases hl : isHeader l = true <;> simp [isHeader_append_feed, hl, ih]

/-- The lines of a text up to a line, put together. -/
theorem flatten_take_endLines_eq (ls : List (List Char)) (k : Nat) :
    ((Text.endLines ls).take k).flatten =
      if k < ls.length then Text.feedLines (ls.take k) else Text.joinLines ls := by
  split
  · next h => exact Text.flatten_take_endLines h
  · next h => rw [List.take_of_length_le (by simpa using h), Text.flatten_endLines]

/-- The next header is behind the longest stretch of lines that are none. -/
theorem nextHeader_takeWhile {ls : List (List Char)} {h : Nat} (hh : h < ls.length) :
    NextHeader ls h (h + 1 + ((ls.drop (h + 1)).takeWhile (! isHeader ·)).length) := by
  have hle := (List.takeWhile_prefix (l := ls.drop (h + 1)) (! isHeader ·)).length_le
  rw [List.length_drop] at hle
  refine ⟨by omega, by omega, fun hlt => ?_, fun k hk hk' hheader => ?_⟩
  · -- the line behind the stretch stopped it
    obtain ⟨l, hl⟩ : ∃ l, ls[h + 1 + ((ls.drop (h + 1)).takeWhile (! isHeader ·)).length]? =
        some l := ⟨_, List.getElem?_eq_getElem hlt⟩
    have hstop := hl
    rw [← List.getElem?_drop, Text.getElem?_length_takeWhile] at hstop
    have hnot := Text.not_of_head_dropWhile (Option.mem_def.mpr hstop)
    rw [headerAt_iff, hl]
    simpa using hnot
  · obtain ⟨l, hl, hheader⟩ := hheader
    have hdrop : (ls.drop (h + 1))[k - (h + 1)]? = some l := by
      rw [List.getElem?_drop, ← hl]
      congr 1
      omega
    have hnot := Text.of_lt_length_takeWhile (p := (! isHeader ·)) (by omega) hdrop
    rw [isHeader_iff.mpr hheader] at hnot
    exact absurd hnot (by simp)

/-- The body of a section is made of the lines up to the next header. -/
theorem body_sectionAt (ls : List (List Char)) (h : Nat) :
    (sectionAt 1 (Text.endLines ls) h).body =
      (((Text.endLines ls).drop (h + 1)).take
        ((ls.drop (h + 1)).takeWhile (! isHeader ·)).length).flatten := by
  rw [sectionAt, Text.drop_endLines, takeWhile_endLines]

/-- **Each header line has its section.** -/
theorem spans_at {ls : List (List Char)} {h : Nat} (hh : HeaderAt ls h) :
    ∃ h', Spans ls h h' (sectionAt 1 (Text.endLines ls) h) := by
  obtain ⟨l, hl, -⟩ := id hh
  obtain ⟨hlen, -⟩ := List.getElem?_eq_some_iff.mp hl
  have hnext := nextHeader_takeWhile hlen
  have hbody := body_sectionAt ls h
  generalize ((ls.drop (h + 1)).takeWhile (! isHeader ·)).length = m at hnext hbody
  have hheader := Text.getElem?_endLines hl
  refine ⟨h + 1 + m, hh, hnext, ?_, ⟨l, hl, ?_⟩, ?_, ?_⟩
  · simp only [sectionAt]
    omega
  · simp [sectionAt, hheader]
  · have hslice : between ls h (h + 1 + m) = (ls.drop (h + 1)).take m := by
      rw [between, List.drop_take]
      congr 1
      omega
    rw [hbody, bodyBetween, hslice, Text.drop_endLines, flatten_take_endLines_eq, List.length_drop]
    by_cases hlt : h + 1 + m < ls.length
    · rw [if_pos hlt, if_pos (by omega)]
    · rw [if_neg hlt, if_neg (by omega), List.take_of_length_le]
      rw [List.length_drop]
      omega
  · -- the lines up to the next header: those above, the header, and the body
    rw [← flatten_take_endLines_eq, ← Text.flatten_take_endLines hlen, hbody, List.take_add,
      List.take_add_one, hheader]
    simp [sectionAt, hheader]

/-- A section of a document reaches from a header line to the next. -/
theorem exists_spans_of_mem {document : String} {s : Section} (hs : s ∈ sections document) :
    ∃ h h', Spans (documentLines document) h h' s := by
  rw [sections_eq] at hs
  obtain ⟨h, hh, rfl⟩ := List.mem_map.mp hs
  exact ⟨h, spans_at (mem_headers.mp hh)⟩

/-- Each header line of a document opens a section. -/
theorem exists_mem_sections {document : String} {h : Nat}
    (hh : HeaderAt (documentLines document) h) :
    ∃ s ∈ sections document, ∃ h', Spans (documentLines document) h h' s := by
  refine ⟨_, ?_, spans_at hh⟩
  rw [sections_eq]
  exact List.mem_map_of_mem (mem_headers.mpr hh)

namespace Spans

variable {u : List Char} {h h' : Nat} {s : Section}

theorem length_lt (hs : Spans (Text.splitLines u) h h' s) : h < (Text.splitLines u).length :=
  Nat.lt_of_lt_of_le hs.next.lt hs.next.le

/-- The body is made of the lines up to the next header; a last line feed may follow. -/
theorem exists_body_eq {ls : List (List Char)} (hs : Spans ls h h' s) :
    ∃ feed, Text.AllBlank feed ∧ s.body = Text.joinLines (between ls h h') ++ feed := by
  rw [hs.body, bodyBetween]
  by_cases hnil : between ls h h' = []
  · exact ⟨[], by simp [Text.AllBlank], by simp [hnil]⟩
  · split
    · exact ⟨['\n'], by simp [Text.AllBlank, Text.isBlank_feed], Text.feedLines_eq hnil⟩
    · exact ⟨[], by simp [Text.AllBlank], by simp⟩

/-- Text behind a header is on lines of its own. -/
theorem succ_lt_of_body {ls : List (List Char)} (hs : Spans ls h h' s) (hne : s.body ≠ []) :
    h + 1 < h' := by
  have hlt := hs.next.lt
  by_contra hge
  obtain rfl : h' = h + 1 := by omega
  have hnil : between ls h (h + 1) = [] := by
    rw [between, List.drop_eq_nil_of_le]
    rw [List.length_take]
    omega
  rw [hs.body, bodyBetween, hnil] at hne
  simp at hne

/-- The text in front of a section leads to the start of its header line. -/
theorem start_after_take (hs : Spans (Text.splitLines u) h h' s) :
    Position.start.after (Text.feedLines ((Text.splitLines u).take h)) = ⟨s.line, 1⟩ := by
  have hlen := hs.length_lt
  rw [Position.start_after_feedLines fun l => Text.not_mem_of_mem_take_splitLines, hs.line,
    List.length_take, Nat.min_eq_left (by omega)]
  rfl

/-- Where the text of a section leads, in terms of the whole text in front of it. -/
theorem after_header (hs : Spans (Text.splitLines u) h h' s) (cs : List Char) :
    (Position.mk s.line 1).after (s.header ++ cs) =
      Position.start.after
        (Text.feedLines ((Text.splitLines u).take h) ++ (s.header ++ cs)) := by
  rw [Position.after_append Position.start, hs.start_after_take]

/-- The text that a section is a part of: the lines above, the section, and the lines below. -/
theorem eq_append_below (hs : Spans (Text.splitLines u) h h' s) :
    u = Text.feedLines ((Text.splitLines u).take h) ++
      (s.header ++ (s.body ++ Text.joinLines ((Text.splitLines u).drop h'))) := by
  have hupTo := hs.upTo
  split at hupTo
  · next hlt =>
    have hcut := Text.joinLines_eq_append hlt
    rw [Text.joinLines_splitLines, ← hupTo] at hcut
    simpa using hcut
  · next hge =>
    rw [Text.joinLines_splitLines] at hupTo
    rw [List.drop_eq_nil_of_le (by omega)]
    simpa using hupTo.symm

theorem exists_eq_append (hs : Spans (Text.splitLines u) h h' s) :
    ∃ tail, u = Text.feedLines ((Text.splitLines u).take h) ++ (s.header ++ (s.body ++ tail)) :=
  ⟨_, hs.eq_append_below⟩

/-- The header of a section with a body is a whole line. -/
theorem header_of_body (hs : Spans (Text.splitLines u) h h' s) (hne : s.body ≠ []) :
    ∃ l, '\n' ∉ l ∧ (Text.splitLines u)[h]? = some l ∧ s.header = l ++ ['\n'] := by
  obtain ⟨l, hl, hheader⟩ := hs.header
  have hlt := hs.succ_lt_of_body hne
  rw [if_pos (Nat.lt_of_lt_of_le hlt hs.next.le)] at hheader
  exact ⟨l, Text.not_mem_of_mem_splitLines (List.mem_of_getElem? hl), hl, hheader⟩

/-- A character of the body is on a line before the next header. -/
theorem count_lt (hs : Spans (Text.splitLines u) h h' s) {pre rest : List Char} {c : Char}
    (hbody : s.body = pre ++ c :: rest) (hc : c ≠ '\n') : h + 1 + pre.count '\n' < h' := by
  have hlt : h + 1 < h' := hs.succ_lt_of_body (by simp [hbody])
  have hle := hs.next.le
  have hlen : (between (Text.splitLines u) h h').length = h' - (h + 1) := by
    rw [between, List.length_drop, List.length_take, Nat.min_eq_left hle]
  have hfeed : ∀ l ∈ between (Text.splitLines u) h h', '\n' ∉ l := fun l hl =>
    Text.not_mem_of_mem_take_splitLines (List.mem_of_mem_drop hl)
  have hne : between (Text.splitLines u) h h' ≠ [] := List.ne_nil_of_length_pos (by omega)
  -- the body has as many line feeds as lines if it ends in one, and one less if not
  have hcount : s.body.count '\n' = pre.count '\n' + rest.count '\n' := by
    rw [hbody, List.count_append, List.count_cons_of_ne hc]
  have htext := hs.body
  unfold bodyBetween at htext
  split at htext
  · -- the body ends in a line feed, which is behind `c`
    have hlast : s.body.getLast? = some '\n' := by
      rw [htext, Text.feedLines_eq hne]
      simp
    obtain ⟨d, hd⟩ : ∃ d, (c :: rest).getLast? = some d :=
      ⟨_, List.getLast?_eq_some_getLast (by simp)⟩
    rw [hbody, List.getLast?_append, hd, Option.some_or] at hlast
    rw [hlast] at hd
    have hmem : '\n' ∈ rest :=
      (List.mem_cons.mp (List.mem_of_getLast? hd)).resolve_left (Ne.symm hc)
    have hpos := List.count_pos_iff.mpr hmem
    rw [htext, Text.count_feedLines hfeed] at hcount
    omega
  · have htotal := Text.count_joinLines hfeed hne
    rw [← htext] at htotal
    omega

/-- The lines below a header are its section's body and what follows. -/
theorem textFrom_succ (hs : Spans (Text.splitLines u) h h' s) (hne : s.body ≠ []) {tail : List Char}
    (htail : u = Text.feedLines ((Text.splitLines u).take h) ++ (s.header ++ (s.body ++ tail))) :
    Text.textFrom (Text.splitLines u) (h + 1) 0 = s.body ++ tail := by
  obtain ⟨l, -, hget, hheader⟩ := hs.header_of_body hne
  have hlt := hs.succ_lt_of_body hne
  have hfeed : Text.feedLines ((Text.splitLines u).take (h + 1)) =
      Text.feedLines ((Text.splitLines u).take h) ++ s.header := by
    rw [List.take_add_one, hget, hheader]
    simp [Text.feedLines]
  have hcut := Text.joinLines_eq_append
    (show h + 1 < (Text.splitLines u).length from Nat.lt_of_lt_of_le hlt hs.next.le)
  rw [Text.joinLines_splitLines, hfeed, List.append_assoc] at hcut
  rw [Text.textFrom, List.drop_zero]
  -- both cuts of the text begin with the lines down to the header
  have hrest := List.append_cancel_left (hcut.symm.trans htail)
  exact List.append_cancel_left hrest

/-- **A character of a section's body stands in a line** below the header and above the next one, and
the text around it is the text of the section. -/
theorem exists_place (hs : Spans (Text.splitLines u) h h' s) {pre rest : List Char} {c : Char}
    (hbody : s.body = pre ++ c :: rest) (hc : c ≠ '\n') :
    ∃ (i j : Nat) (tail : List Char), (Position.mk s.line 1).after (s.header ++ pre) = ⟨i + 1, j + 1⟩ ∧
      h < i ∧ i < h' ∧ Text.charAt? (Text.splitLines u) i j = some c ∧
      Text.textFrom (Text.splitLines u) i j = c :: (rest ++ tail) ∧
      Text.textFrom (Text.splitLines u) (h + 1) 0 = pre ++ c :: (rest ++ tail) := by
  have hne : s.body ≠ [] := by simp [hbody]
  obtain ⟨tail, htail⟩ := hs.exists_eq_append
  obtain ⟨l, hl, -, hheader⟩ := hs.header_of_body hne
  generalize hP : Text.feedLines ((Text.splitLines u).take h) ++ (s.header ++ pre) = P
  have hu : u = P ++ c :: (rest ++ tail) := by
    rw [htail, hbody, ← hP]
    simp
  -- the line of the character counts the line feeds in front of it
  have hcount : P.count '\n' = h + 1 + pre.count '\n' := by
    have hlen := hs.length_lt
    rw [← hP, List.count_append,
      Text.count_feedLines fun l => Text.not_mem_of_mem_take_splitLines, hheader, List.length_take,
      Nat.min_eq_left (by omega)]
    simp [List.count_eq_zero_of_not_mem hl]
    omega
  have hlt := hs.count_lt hbody hc
  refine ⟨P.count '\n', (Text.lastLine P).length, tail, ?_, by omega, by omega, ?_, ?_, ?_⟩
  · rw [hs.after_header, hP, Position.start_after]
  · rw [hu]
    exact Text.charAt?_splitLines P (rest ++ tail) hc
  · rw [hu]
    exact Text.textFrom_splitLines P (c :: (rest ++ tail))
  · rw [hs.textFrom_succ hne htail, hbody]
    simp

/-- The same of a character of the trimmed body, which is found by counting on from the start of the
content. -/
theorem exists_contentPlace (hs : Spans (Text.splitLines u) h h' s) {pre rest : List Char} {c : Char}
    (hcontent : Text.trim s.body = pre ++ c :: rest) (hc : c ≠ '\n') :
    ∃ (i j : Nat) (tail : List Char), s.contentStart.after pre = ⟨i + 1, j + 1⟩ ∧
      h < i ∧ i < h' ∧ Text.charAt? (Text.splitLines u) i j = some c ∧
      Text.textFrom (Text.splitLines u) i j = c :: (rest ++ tail) ∧
      Text.textFrom (Text.splitLines u) (h + 1) 0 =
        s.body.takeWhile Text.isBlank ++ (pre ++ c :: (rest ++ tail)) := by
  obtain ⟨back, -, hbody⟩ := Text.exists_eq_trim s.body
  have hsplit : s.body = (s.body.takeWhile Text.isBlank ++ pre) ++ c :: (rest ++ back) := by
    rw [hcontent] at hbody
    simpa using hbody
  obtain ⟨i, j, tail, hplace, hi, hi', hchar, hfrom, hbelow⟩ := hs.exists_place hsplit hc
  refine ⟨i, j, back ++ tail, ?_, hi, hi', hchar, ?_, ?_⟩
  · rw [← hplace, ← List.append_assoc, Position.after_append]
    rfl
  · rw [hfrom, List.append_assoc]
  · rw [hbelow, List.append_assoc, List.append_assoc]

/-- Where the text of a section as a whole leads. -/
theorem after_body (hs : Spans (Text.splitLines u) h h' s) :
    (Position.mk s.line 1).after (s.header ++ s.body) =
      if h' < (Text.splitLines u).length then ⟨h' + 1, 1⟩
      else ⟨(Text.splitLines u).length, (Text.lastLine u).length + 1⟩ := by
  rw [hs.after_header, hs.upTo]
  split
  · next hlt =>
    rw [Position.start_after_feedLines fun l => Text.not_mem_of_mem_take_splitLines,
      List.length_take, Nat.min_eq_left (by omega)]
  · rw [Text.joinLines_splitLines, Position.start_after, Text.length_splitLines]
    rfl

end Spans

end Section

end TweeLint
