import TweeLint.Proofs.Composition
import TweeLint.Proofs.Passage.LineReading

/-!
# Reading what was written

Passages can be written down one after the other, each with its header on one line and its content
on the lines below (`Draft.render`). Where no name, tag or content has in it what ends it
(`Draft.Canonical`), reading gives back what was written, and each passage stands where the ones
before it end (`passages_renderAll`).

A draft is whole lines and begins with a header, so the sections of several drafts are those of each
one, further down (`sections_renderAll`). What is left is a single section, whose header and body
are known character by character (`Draft.asSection`).
-/

namespace TweeLint

/-- Lines without a header among them are no section. -/
theorem Section.gathered_of_no_header {ls : List (List Char)} (h : ∀ l ∈ ls, isHeader l = false)
    (k : Nat) : gathered k ls = (ls, []) := by
  induction ls generalizing k with
  | nil => rfl
  | cons l ls ih =>
    rw [gathered_cons, ih fun m hm => h m (List.mem_cons_of_mem _ hm), gather,
      h l List.mem_cons_self]
    rfl

/-- What is written down of a passage. -/
structure Draft where
  name : String
  tags : List String
  content : String

namespace Draft

/-- The tags as they stand in a header. -/
def tagList (d : Draft) : String :=
  if d.tags = [] then "" else " [" ++ " ".intercalate d.tags ++ "]"

/-- A draft as text: a header line, and the content with a line feed behind it. -/
def render (d : Draft) : String :=
  ":: " ++ d.name ++ d.tagList ++ "\n" ++ d.content ++ "\n"

/-- Drafts as one document. -/
def renderAll (ds : List Draft) : String :=
  String.join (ds.map render)

/-- Nothing in a draft is trimmed away or taken for the end of something. -/
structure Canonical (d : Draft) : Prop where
  nameTrimmed : Text.trim d.name.toList = d.name.toList
  nameChars : ∀ c ∈ d.name.toList, c ≠ '\n' ∧ c ≠ '[' ∧ c ≠ '\x7b'
  tagWords : ∀ tag ∈ d.tags, tag ≠ "" ∧ ∀ c ∈ tag.toList, Text.isBlank c = false ∧ c ≠ ']'
  contentTrimmed : Text.trim d.content.toList = d.content.toList
  contentLines : ∀ l ∈ Text.splitLines d.content.toList, ¬ [':', ':'] <+: l

/-- A passage is what a draft says that was written from line `line` on. -/
structure ReadAs (line : Nat) (d : Draft) (p : Passage) : Prop where
  name : p.name = d.name
  tags : ∀ tag, tag ∈ p.tags ↔ tag ∈ d.tags
  content : p.content = d.content
  headerLine : p.headerLine = line
  contentStart : d.content ≠ "" → p.contentStart = ⟨line + 1, 1⟩

/-- How many lines a draft takes up. -/
def height (d : Draft) : Nat :=
  2 + d.content.toList.count '\n'

/-- Passages are what drafts say that were written one below the other, from line `line` on. -/
inductive AllReadAs : Nat → List Draft → List Passage → Prop
  | nil {line : Nat} : AllReadAs line [] []
  | cons {line : Nat} {d : Draft} {p : Passage} {ds : List Draft} {ps : List Passage} :
      d.ReadAs line p → AllReadAs (line + d.height) ds ps → AllReadAs line (d :: ds) (p :: ps)

/-- The conditions as runs over the characters. -/
theorem canonical_iff {d : Draft} :
    d.Canonical ↔ Text.trim d.name.toList = d.name.toList ∧
      d.name.toList.all (fun c => c ≠ '\n' ∧ c ≠ '[' ∧ c ≠ '\x7b') ∧
      d.tags.all (fun tag => tag ≠ "" ∧
        tag.toList.all fun c => Text.isBlank c = false ∧ c ≠ ']') ∧
      Text.trim d.content.toList = d.content.toList ∧
      (Text.splitLines d.content.toList).all fun l => ¬ [':', ':'] <+: l := by
  simp only [List.all_eq_true, decide_eq_true_eq]
  exact ⟨fun h => ⟨h.nameTrimmed, h.nameChars, h.tagWords, h.contentTrimmed, h.contentLines⟩,
    fun ⟨h₁, h₂, h₃, h₄, h₅⟩ => ⟨h₁, h₂, h₃, h₄, h₅⟩⟩

instance (d : Draft) : Decidable d.Canonical := decidable_of_iff _ canonical_iff.symm

/-! ### One draft as a section -/

/-- The header line of a draft, without its line feed. -/
def headerChars (d : Draft) : List Char :=
  ':' :: ':' :: ' ' :: (d.name.toList ++ d.tagList.toList)

/-- The section of a draft that is written from line `line` on. -/
def asSection (line : Nat) (d : Draft) : Section :=
  ⟨line, d.headerChars ++ ['\n'], d.content.toList ++ ['\n']⟩

theorem toList_render (d : Draft) :
    d.render.toList = (d.headerChars ++ ['\n']) ++ (d.content.toList ++ ['\n']) := by
  have hcolons : ":: ".toList = [':', ':', ' '] := rfl
  have hfeed : "\n".toList = ['\n'] := rfl
  simp [render, headerChars, hcolons, hfeed]

theorem toList_tagList (d : Draft) :
    d.tagList.toList =
      if d.tags = [] then []
      else ' ' :: '[' :: ([' '].intercalate (d.tags.map String.toList) ++ [']']) := by
  have hopen : " [".toList = [' ', '['] := rfl
  have hclose : "]".toList = [']'] := rfl
  have hblank : " ".toList = [' '] := rfl
  rw [tagList]
  split <;> simp [hopen, hclose, hblank]

variable {d : Draft}

/-- What stands between the brackets of a tag list ends neither the list nor the line. -/
theorem Canonical.ne_of_mem_tagList (hd : d.Canonical) {c : Char}
    (hc : c ∈ [' '].intercalate (d.tags.map String.toList)) : c ≠ '\n' ∧ c ≠ ']' := by
  rcases Text.eq_or_mem_of_mem_intercalate hc with rfl | ⟨w, hw, hcw⟩
  · decide
  · obtain ⟨tag, htag, rfl⟩ := List.mem_map.mp hw
    obtain ⟨hblank, hclose⟩ := (hd.tagWords tag htag).2 c hcw
    refine ⟨?_, hclose⟩
    rintro rfl
    exact absurd hblank (by decide)

theorem Canonical.feed_not_mem_headerChars (hd : d.Canonical) : '\n' ∉ d.headerChars := by
  have hname : '\n' ∉ d.name.toList := fun h => (hd.nameChars _ h).1 rfl
  have htags : '\n' ∉ [' '].intercalate (d.tags.map String.toList) := fun h =>
    (hd.ne_of_mem_tagList h).1 rfl
  rw [headerChars, toList_tagList]
  split <;> simp [hname, htags]

theorem Canonical.isNameChar_of_mem (hd : d.Canonical) :
    ∀ c ∈ ' ' :: d.name.toList, Section.isNameChar c = true := by
  intro c hc
  rcases List.mem_cons.mp hc with rfl | hc
  · decide
  · obtain ⟨hfeed, hopen, hbrace⟩ := hd.nameChars c hc
    simp [Section.isNameChar, hfeed, hopen, hbrace]

/-- **Where the name of a written header ends**: at the line feed, or with a blank at the tags. -/
theorem Canonical.exists_header_eq (hd : d.Canonical) (line : Nat) :
    ∃ pad stop, (d.asSection line).header.drop 2 = ' ' :: d.name.toList ++ pad ++ stop ∧
      (∀ c ∈ ' ' :: d.name.toList ++ pad, Section.isNameChar c = true) ∧ Text.AllBlank pad ∧
      (∀ c ∈ stop.head?, Section.isNameChar c = false) ∧
      stop = if d.tags = [] then ['\n']
        else '[' :: ([' '].intercalate (d.tags.map String.toList) ++ [']', '\n']) := by
  by_cases htags : d.tags = []
  · refine ⟨[], ['\n'], ?_, ?_, by simp [Text.AllBlank], by simp [Section.isNameChar], ?_⟩
    · simp [asSection, headerChars, toList_tagList, htags]
    · simpa using hd.isNameChar_of_mem
    · rw [if_pos htags]
  · refine ⟨[' '], '[' :: ([' '].intercalate (d.tags.map String.toList) ++ [']', '\n']), ?_, ?_, ?_,
      Text.stops_cons (by decide) _, ?_⟩
    · simp [asSection, headerChars, toList_tagList, htags]
    · exact List.forall_mem_append.mpr ⟨hd.isNameChar_of_mem, by simp [Section.isNameChar]⟩
    · simp only [Text.AllBlank, List.forall_mem_singleton]
      decide
    · rw [if_neg htags]

theorem Canonical.name_asSection (hd : d.Canonical) (line : Nat) :
    (d.asSection line).name = d.name.toList := by
  obtain ⟨pad, stop, hheader, hname, hpad, hstop, -⟩ := hd.exists_header_eq line
  have hfront : Text.AllBlank [' '] := by
    simp only [Text.AllBlank, List.forall_mem_singleton]
    decide
  calc (d.asSection line).name
      = Text.trim ([' '] ++ (d.name.toList ++ pad)) := by
        rw [Section.name, hheader, Text.takeWhile_stretch hname hstop]
        rfl
    _ = Text.trim d.name.toList := Text.trim_pad hfront hpad _
    _ = d.name.toList := hd.nameTrimmed

theorem Canonical.tags_asSection (hd : d.Canonical) (line : Nat) :
    (d.asSection line).tags = d.tags.map String.toList := by
  obtain ⟨pad, stop, hheader, hname, -, hstop, heq⟩ := hd.exists_header_eq line
  rw [Section.tags, hheader, Text.dropWhile_stretch hname hstop, heq]
  by_cases htags : d.tags = []
  · simp [htags]
  · have hlist : ∀ c ∈ [' '].intercalate (d.tags.map String.toList), Section.isTagChar c = true := by
      intro c hc
      obtain ⟨hfeed, hclose⟩ := hd.ne_of_mem_tagList hc
      simp [Section.isTagChar, hfeed, hclose]
    have hclose : ∀ c ∈ [']', '\n'].head?, Section.isTagChar c = false :=
      Text.stops_cons (by decide) _
    have hwords : ∀ w ∈ d.tags.map String.toList, w ≠ [] ∧ ∀ c ∈ w, Text.isBlank c = false := by
      intro w hw
      obtain ⟨tag, htag, rfl⟩ := List.mem_map.mp hw
      obtain ⟨hne, hchars⟩ := hd.tagWords tag htag
      exact ⟨by simpa using hne, fun c hc => (hchars c hc).1⟩
    simp only [if_neg htags, Text.dropWhile_stretch hlist hclose,
      Text.takeWhile_stretch hlist hclose]
    exact Text.words_intercalate hwords

theorem Canonical.trim_body_asSection (hd : d.Canonical) (line : Nat) :
    Text.trim (d.asSection line).body = d.content.toList := by
  have hfeed : Text.AllBlank ['\n'] := by
    simp only [Text.AllBlank, List.forall_mem_singleton]
    decide
  have hpad := Text.trim_pad (fun c hc => absurd hc List.not_mem_nil) hfeed d.content.toList
  rw [hd.contentTrimmed] at hpad
  exact hpad

/-- The content begins on the line below the header. -/
theorem Canonical.contentStart_asSection (hd : d.Canonical) (line : Nat) (hne : d.content ≠ "") :
    (d.asSection line).contentStart = ⟨line + 1, 1⟩ := by
  obtain ⟨c, cs, hcontent⟩ : ∃ c cs, d.content.toList = c :: cs :=
    List.exists_cons_of_ne_nil (by simpa using hne)
  have hc : Text.isBlank c = false :=
    Text.isBlank_of_head_trim (hd.contentTrimmed.trans hcontent)
  have hblanks : (d.asSection line).body.takeWhile Text.isBlank = [] := by
    simp [asSection, hcontent, hc]
  have hline : ((Position.mk line 1).after d.headerChars).line = line := by
    rw [Position.after_eq, List.count_eq_zero_of_not_mem hd.feed_not_mem_headerChars]
    simp
  rw [Section.contentStart, hblanks, List.append_nil]
  show (Position.mk line 1).after (d.headerChars ++ ['\n']) = ⟨line + 1, 1⟩
  rw [Position.after_append, Position.after_cons, Position.after_nil, Position.advance, if_pos rfl,
    hline]

/-- **A single draft is read back.** -/
theorem Canonical.readAs_asSection (hd : d.Canonical) (line : Nat) :
    d.ReadAs line (d.asSection line).passage where
  name := by
    show String.ofList (d.asSection line).name = d.name
    rw [hd.name_asSection, String.ofList_toList]
  tags tag := by
    rw [Passage.mem_tags_passage, hd.tags_asSection]
    exact List.mem_map_of_injective fun _ _ h => String.toList_inj.mp h
  content := by
    show String.ofList (Text.trim (d.asSection line).body) = d.content
    rw [hd.trim_body_asSection, String.ofList_toList]
  headerLine := rfl
  contentStart := hd.contentStart_asSection line

/-! ### Drafts as sections -/

/-- The sections of drafts that are written one below the other, from line `line` on. -/
def asSections : Nat → List Draft → List Section
  | _, [] => []
  | line, d :: ds => d.asSection line :: asSections (line + d.height) ds

theorem asSections_down (k line : Nat) (ds : List Draft) :
    (asSections line ds).map (·.down k) = asSections (line + k) ds := by
  induction ds generalizing line with
  | nil => rfl
  | cons d ds ih =>
    have hline : line + d.height + k = line + k + d.height := by omega
    rw [asSections, List.map_cons, ih, hline]
    rfl

/-- **The section of a single draft.** -/
theorem Canonical.sections_render (hd : d.Canonical) : sections d.render = [d.asSection 1] := by
  have hbody : ∀ l ∈ Text.lines (d.content.toList ++ ['\n']), Section.isHeader l = false := by
    intro l hl
    rw [Text.lines_append_feed] at hl
    obtain ⟨m, hm, rfl⟩ := List.mem_map.mp hl
    rw [Section.isHeader_append_feed, Bool.eq_false_iff]
    exact fun h => hd.contentLines m hm (Section.isHeader_iff.mp h)
  have hlines : Text.lines (Text.dropMark d.render.toList) =
      (d.headerChars ++ ['\n']) :: Text.lines (d.content.toList ++ ['\n']) := by
    have hmark : Text.dropMark d.render.toList = d.render.toList := by
      rw [toList_render]
      rfl
    rw [hmark, toList_render, Text.lines_append (Or.inr ⟨_, rfl⟩), Text.lines_append_feed,
      Text.splitLines_of_not_mem hd.feed_not_mem_headerChars]
    rfl
  rw [sections, hlines, Section.ofLines_eq, Section.gathered_cons, Section.gathered_of_no_header hbody]
  show [Section.mk 1 _ (Text.lines (d.content.toList ++ ['\n'])).flatten] = [d.asSection 1]
  rw [Text.flatten_lines]
  rfl

theorem Canonical.count_render (hd : d.Canonical) : d.render.toList.count '\n' = d.height := by
  rw [toList_render, List.count_append, List.count_append, List.count_append,
    List.count_eq_zero_of_not_mem hd.feed_not_mem_headerChars, height]
  simp only [List.count_singleton_self]
  omega

/-- **The sections of several drafts** are those of each one, at its place. -/
theorem sections_renderAll {ds : List Draft} (h : ∀ d ∈ ds, d.Canonical) :
    sections (renderAll ds) = asSections 1 ds := by
  induction ds with
  | nil => rfl
  | cons d ds ih =>
    have hd : d.Canonical := h d List.mem_cons_self
    have hjoin : renderAll (d :: ds) = d.render ++ renderAll ds := String.join_cons
    rw [hjoin]
    cases ds with
    | nil => exact (congrArg sections (String.append_empty)).trans hd.sections_render
    | cons e es =>
      have hupper : Text.WholeLines d.render.toList :=
        Or.inr ⟨d.headerChars ++ ['\n'] ++ d.content.toList, by rw [toList_render]; simp⟩
      have hlower : [':', ':'] <+: (renderAll (e :: es)).toList := by
        have hjoin : renderAll (e :: es) = e.render ++ renderAll es := String.join_cons
        rw [hjoin, String.toList_append, toList_render]
        exact ⟨_, rfl⟩
      rw [sections_append hupper hlower, ih fun d hd => h d (List.mem_cons_of_mem _ hd),
        asSections_down, hd.sections_render, hd.count_render]
      rfl

theorem allReadAs_asSections {ds : List Draft} (h : ∀ d ∈ ds, d.Canonical) (line : Nat) :
    AllReadAs line ds ((asSections line ds).map Section.passage) := by
  induction ds generalizing line with
  | nil => exact .nil
  | cons d ds ih =>
    exact .cons ((h d List.mem_cons_self).readAs_asSection line)
      (ih (fun e he => h e (List.mem_cons_of_mem _ he)) _)

/-- **Reading undoes writing.** Of a document of drafts there is one passage for each, in order, with
its name, tags and content; the first header is on line 1 and each next one stands behind what was
written of the passage before; and a content begins on the line below its header. -/
theorem passages_renderAll {ds : List Draft} (h : ∀ d ∈ ds, d.Canonical) :
    AllReadAs 1 ds (passages (renderAll ds)) := by
  rw [passages, sections_renderAll h]
  exact allReadAs_asSections h 1

/-- Delimiters where they delimit nothing, a passage without content and one without a name. -/
theorem passages_renderAll_delimiters :
    let ds : List Draft := [⟨":x ]", ["[a\x7b", "b("], ""⟩, ⟨"", [], "(if:)[\n :: b]"⟩]
    (∀ d ∈ ds, d.Canonical) ∧
      renderAll ds = ":: :x ] [[a\x7b b(]\n\n:: \n(if:)[\n :: b]\n" ∧
      ∃ p q, passages (renderAll ds) = [p, q] ∧
        p.name = ":x ]" ∧ (∀ tag, tag ∈ p.tags ↔ tag ∈ ["[a\x7b", "b("]) ∧ p.content = "" ∧
        p.headerLine = 1 ∧ q.name = "" ∧ (∀ tag, tag ∈ q.tags ↔ tag ∈ []) ∧
        q.content = "(if:)[\n :: b]" ∧ q.headerLine = 3 ∧ q.contentStart = ⟨4, 1⟩ := by
  intro ds
  have hds : ∀ d ∈ ds, d.Canonical := by decide
  refine ⟨hds, by decide, ?_⟩
  have hread := passages_renderAll hds
  generalize passages (renderAll ds) = ps at hread
  simp only [ds] at hread
  cases hread with
  | cons hp hrest =>
    cases hrest with
    | cons hq hnil =>
      cases hnil
      exact ⟨_, _, rfl, hp.name, hp.tags, hp.content, hp.headerLine, hq.name, hq.tags, hq.content,
        hq.headerLine, hq.contentStart (by decide)⟩

end Draft

end TweeLint
