import Mathlib.Data.List.Forall2
import TweeLint.Proofs.Passage.Headers

/-!
# Passages, read line by line

What the passages of a document are, said on its lines alone: each header line opens one, which
takes its name and tags from the header line and its content from the lines between that and the
next header (`Passage.OfLines`). The name ends where the first bracket or brace stands, and tags are
listed only in brackets that open there and are closed again (`headerName`, `ListsTag`).

The main statement is that `passages` gives exactly these passages, in order
(`passages_forall₂_ofLines`). It rests on the section of each header line (`Section.Spans`): the
line feed that a section's header keeps changes neither name nor tags, and the one that its body may
keep is trimmed away.
-/

namespace TweeLint

namespace Section

/-! ### Names and tags -/

/-- The name in a header line. -/
def headerName (l : List Char) : List Char :=
  Text.trim ((l.drop 2).takeWhile fun c => c != '[' && c != '\x7b')

/-- A header line lists a tag, in the brackets behind the name. -/
def ListsTag (l tag : List Char) : Prop :=
  ∃ name list rest, l = ':' :: ':' :: (name ++ '[' :: (list ++ ']' :: rest)) ∧
    (∀ c ∈ name, c ≠ '[' ∧ c ≠ '\x7b') ∧ ']' ∉ list ∧ Text.IsWord tag list

section Header

variable {s : Section} {l feed : List Char}

theorem name_eq_headerName (hs : s.header = l ++ feed) (hl : '\n' ∉ l)
    (hheader : [':', ':'] <+: l) (hfeed : ∀ c ∈ feed, c = '\n') : s.name = headerName l := by
  obtain ⟨r, rfl⟩ := hheader
  have hstop : ∀ c ∈ feed.head?, isNameChar c = false := by
    intro c hc
    rw [hfeed c (List.mem_of_head? hc)]
    decide
  have hsame : ∀ c ∈ r, isNameChar c = (c != '[' && c != '\x7b') := by
    intro c hc
    have hne : c ≠ '\n' := ne_of_mem_of_not_mem (List.mem_append_right _ hc) hl
    simp [isNameChar, hne]
  have hdrop : s.header.drop 2 = r ++ feed := by rw [hs]; rfl
  rw [name, hdrop, Text.takeWhile_append_stop hstop, Text.takeWhile_congr hsame]
  rfl

/-- The tags that are read in a header are listed in its line. -/
theorem listsTag_of_mem_tags (hs : s.header = l ++ feed) (hheader : [':', ':'] <+: l)
    (hfeed : ∀ c ∈ feed, c = '\n') {tag : List Char} (h : tag ∈ s.tags) : ListsTag l tag := by
  obtain ⟨r, rfl⟩ := hheader
  have hdrop : s.header.drop 2 = r ++ feed := by rw [hs]; rfl
  simp only [tags, hdrop] at h
  split at h
  · next rest hrest =>
    split at h
    · next rest' hrest' =>
      have hcut : r ++ feed = ((r ++ feed).takeWhile isNameChar ++
          '[' :: rest.takeWhile isTagChar) ++ ']' :: rest' := by
        rw [List.append_assoc, List.cons_append, ← hrest', List.takeWhile_append_dropWhile,
          ← hrest, List.takeWhile_append_dropWhile]
      -- the closing bracket stands before the line feed
      have hclose : ']' ∉ feed := fun hmem => absurd (hfeed _ hmem) (by decide)
      obtain ⟨tail, htail⟩ := Text.exists_of_append_eq hcut hclose
      rw [List.append_assoc, List.cons_append] at htail
      refine ⟨(r ++ feed).takeWhile isNameChar, rest.takeWhile isTagChar, tail, ?_, ?_, ?_,
        Text.mem_words.mp h⟩
      · exact congrArg (':' :: ':' :: ·) htail
      · intro c hc
        have hchar := List.mem_takeWhile_imp hc
        simp only [isNameChar, Bool.and_eq_true, bne_iff_ne] at hchar
        exact hchar.1
      · intro hmem
        exact absurd (List.mem_takeWhile_imp hmem) (by decide)
    · exact absurd h List.not_mem_nil
  · exact absurd h List.not_mem_nil

/-- The tags that a header line lists are read. -/
theorem ListsTag.mem_tags (hs : s.header = l ++ feed) (hl : '\n' ∉ l) {tag : List Char}
    (h : ListsTag l tag) : tag ∈ s.tags := by
  obtain ⟨name, list, rest, rfl, hname, hlist, htag⟩ := h
  have hnames : ∀ c ∈ name, isNameChar c = true := by
    intro c hc
    have hne : c ≠ '\n' := ne_of_mem_of_not_mem (by simp [hc]) hl
    simp [isNameChar, hname c hc, hne]
  have htags : ∀ c ∈ list, isTagChar c = true := by
    intro c hc
    have hne : c ≠ '\n' := ne_of_mem_of_not_mem (by simp [hc]) hl
    have hclose : c ≠ ']' := ne_of_mem_of_not_mem hc hlist
    simp [isTagChar, hclose, hne]
  have hdrop : s.header.drop 2 = name ++ '[' :: (list ++ ']' :: (rest ++ feed)) := by
    rw [hs]
    simp
  -- the name ends at the one bracket, the list at the other
  have hopen : ∀ c ∈ ('[' :: (list ++ ']' :: (rest ++ feed))).head?, isNameChar c = false :=
    Text.stops_cons (by decide) _
  have hclose : ∀ c ∈ (']' :: (rest ++ feed)).head?, isTagChar c = false :=
    Text.stops_cons (by decide) _
  simp only [tags, hdrop, Text.dropWhile_stretch hnames hopen, Text.dropWhile_stretch htags hclose,
    Text.takeWhile_stretch htags hclose]
  exact Text.mem_words.mpr htag

end Header

end Section

/-! ### Passages -/

namespace Passage

open Section

/-- A passage is what the lines of a document say at header line `h`, where `h'` is the next one. -/
structure OfLines (ls : List (List Char)) (h h' : Nat) (p : Passage) : Prop where
  headerLine : p.headerLine = h + 1
  header : ∃ l, ls[h]? = some l ∧ p.name.toList = headerName l ∧
    ∀ tag, tag ∈ p.tags ↔ ListsTag l tag.toList
  content : p.content.toList = Text.trim (Text.joinLines (between ls h h'))
  /-- The content stands at the place that the passage names, and only blanks come between it and
  the header line. -/
  place : p.content ≠ "" → ∃ (i j : Nat) (front : List Char),
    h < i ∧ i < h' ∧ p.contentStart = ⟨i + 1, j + 1⟩ ∧
      Text.charAt? ls i j = p.content.toList.head? ∧ p.content.toList <+: Text.textFrom ls i j ∧
      Text.AllBlank front ∧ Text.textFrom ls (h + 1) 0 = front ++ Text.textFrom ls i j
  /-- A passage without content is placed where its lines end. -/
  empty : p.content = "" → p.contentStart =
    if h' < ls.length then ⟨h' + 1, 1⟩ else ⟨ls.length, (ls.getLast?.getD []).length + 1⟩

/-- The body of a section and the lines that it is made of have the same content. -/
theorem trim_body {ls : List (List Char)} {h h' : Nat} {s : Section} (hs : Spans ls h h' s) :
    Text.trim s.body = Text.trim (Text.joinLines (between ls h h')) := by
  obtain ⟨feed, hfeed, hbody⟩ := hs.exists_body_eq
  rw [hbody]
  exact Text.trim_pad (fun c hc => absurd hc List.not_mem_nil) hfeed _

theorem mem_tags_passage {s : Section} {tag : String} :
    tag ∈ s.passage.tags ↔ tag.toList ∈ s.tags := by
  rw [Section.passage, NameSet.mem_ofList, List.mem_map]
  constructor
  · intro hmem
    obtain ⟨w, hw, rfl⟩ := hmem
    rwa [String.toList_ofList]
  · intro h
    exact ⟨tag.toList, h, String.ofList_toList⟩

theorem content_eq_empty_iff {s : Section} :
    s.passage.content = "" ↔ Text.AllBlank s.body := by
  rw [← Text.trim_eq_nil_iff, Section.passage, ← String.toList_inj, String.toList_ofList]
  rfl

/-- **A section is read as the passage of its lines.** -/
theorem ofLines_of_spans {u : List Char} {h h' : Nat} {s : Section}
    (hs : Spans (Text.splitLines u) h h' s) :
    s.passage.OfLines (Text.splitLines u) h h' := by
  obtain ⟨l, hl, hheader⟩ := hs.header
  have hfeed : '\n' ∉ l := Text.not_mem_of_mem_splitLines (List.mem_of_getElem? hl)
  have hcolons : [':', ':'] <+: l := by
    obtain ⟨l', hl', hcolons⟩ := hs.headerAt
    obtain rfl : l = l' := Option.some.inj (hl.symm.trans hl')
    exact hcolons
  have hend : ∀ c ∈ (if h + 1 < (Text.splitLines u).length then ['\n'] else []), c = '\n' := by
    split <;> simp
  refine ⟨?_, ⟨l, hl, ?_, fun tag => ?_⟩, ?_, ?_, ?_⟩
  · simp [Section.passage, hs.line]
  · simp [Section.passage, name_eq_headerName hheader hfeed hcolons hend]
  · rw [mem_tags_passage]
    exact ⟨listsTag_of_mem_tags hheader hcolons hend, ListsTag.mem_tags hheader hfeed⟩
  · simp [Section.passage, trim_body hs]
  · intro hne
    rw [Ne, content_eq_empty_iff, ← Text.trim_eq_nil_iff] at hne
    obtain ⟨c, content, hcontent⟩ := List.exists_cons_of_ne_nil hne
    have hc : c ≠ '\n' := by
      intro hfeed
      rw [hfeed] at hcontent
      exact absurd (Text.isBlank_of_head_trim hcontent) (by decide)
    have hfirst : Text.trim s.body = [] ++ c :: content := hcontent
    obtain ⟨i, j, tail, hplace, hi, hi', hchar, hfrom, hbelow⟩ := hs.exists_contentPlace hfirst hc
    refine ⟨i, j, s.body.takeWhile Text.isBlank, hi, hi', hplace, ?_, ?_,
      Text.allBlank_takeWhile _, ?_⟩
    · rw [hchar, Section.passage, String.toList_ofList, hcontent]
      rfl
    · rw [hfrom, Section.passage, String.toList_ofList, hcontent]
      exact ⟨tail, rfl⟩
    · rw [hbelow, hfrom]
      rfl
  · intro hnil
    -- the leading blanks are the whole body, and the content starts behind them
    have hblank : s.body.takeWhile Text.isBlank = s.body := by
      rw [List.takeWhile_eq_self_iff]
      exact content_eq_empty_iff.mp hnil
    rw [← Text.lastLine, ← hs.after_body]
    simp only [Section.passage, Section.contentStart]
    rw [hblank]

/-- **The passages of a document are those of its header lines, in order.** -/
theorem passages_forall₂_ofLines (document : String) :
    ∃ hs : List Nat, hs.Pairwise (· < ·) ∧
      (∀ h, h ∈ hs ↔ HeaderAt (documentLines document) h) ∧
      List.Forall₂
        (fun h p => ∃ h', NextHeader (documentLines document) h h' ∧
          p.OfLines (documentLines document) h h')
        hs (passages document) := by
  refine ⟨headers (documentLines document), ?_, fun h => mem_headers, ?_⟩
  · exact List.pairwise_lt_range.filter _
  · rw [passages, sections_eq, List.map_map, List.forall₂_map_right_iff, List.forall₂_same]
    intro h hh
    obtain ⟨h', hs⟩ := spans_at (mem_headers.mp hh)
    exact ⟨h', hs.next, ofLines_of_spans hs⟩

end Passage

end TweeLint
