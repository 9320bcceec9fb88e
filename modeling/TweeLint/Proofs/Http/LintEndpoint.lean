import TweeLint.Proofs.Checks
import TweeLint.Proofs.Http.BodyLimit
import TweeLint.Proofs.Http.BodyText
import TweeLint.Proofs.ReportText

/-!
# Linting over HTTP

A document that is sent is linted as if it had been handed over directly: whatever JSON text the
request is written as, whatever the bytes are cut into, the answer is the report of the document
(`respond_lint`).

On the way in, the bytes are put together again (`BodyLimit.limitedAt_of_not_oversized`) and read as
text (`BodyText.ofBytes_encode_of_clean`), the text is read as a value (`Json.read_of_isText`), and
the members of the value are looked up by their names (`LintRequest.ofJson_ofFields`). On the way out
the report is written as JSON, which is read back as the report (`Report.read_write_lint`,
`Report.ofJson_toJson`).
-/

namespace TweeLint

namespace Json

/-! ### Members -/

variable {members : List (String × Json)} {name : String} {j : Json}

/-- A member is found by its name if no other of that name has another value. -/
theorem get?_eq_some (hmem : (name, j) ∈ members) (hall : ∀ i, (name, i) ∈ members → i = j) :
    (object members).get? name = some j := by
  show members.reverse.lookup name = some j
  cases hlookup : members.reverse.lookup name with
  | none =>
    have hnone := List.lookup_eq_none_iff.mp hlookup (name, j) (List.mem_reverse.mpr hmem)
    exact absurd hnone (by simp)
  | some i =>
    obtain ⟨front, back, hsplit, -⟩ := List.lookup_eq_some_iff.mp hlookup
    have hi : (name, i) ∈ members.reverse := hsplit ▸ List.mem_append_cons_self
    rw [hall i (List.mem_reverse.mp hi)]

theorem get?_eq_none (h : ∀ i, (name, i) ∉ members) : (object members).get? name = none := by
  refine List.lookup_eq_none_iff.mpr fun m hm => bne_iff_ne.mpr ?_
  rintro rfl
  exact h m.2 (List.mem_reverse.mp hm)

variable {fields : List (String × String)} {value : String}

theorem get?_ofFields (hmem : (name, value) ∈ fields)
    (hall : ∀ other, (name, other) ∈ fields → other = value) :
    (ofFields fields).get? name = some (.string value) := by
  refine get?_eq_some (List.mem_map.mpr ⟨_, hmem, rfl⟩) fun i hi => ?_
  obtain ⟨f, hf, heq⟩ := List.mem_map.mp hi
  cases heq
  rw [hall f.2 hf]

theorem get?_ofFields_eq_none (h : ∀ other, (name, other) ∉ fields) :
    (ofFields fields).get? name = none := by
  refine get?_eq_none fun i hi => ?_
  obtain ⟨f, hf, heq⟩ := List.mem_map.mp hi
  cases heq
  exact h f.2 hf

end Json

namespace Http

/-! ### Requests -/

/-- The fields of a request to lint. -/
def requestFields (content : String) (source? : Option String) : List (String × String) :=
  ("content", content) :: source?.toList.map fun source => ("source", source)

theorem content_mem_requestFields {content other : String} {source? : Option String} :
    ("content", other) ∈ requestFields content source? ↔ other = content := by
  simp [requestFields]

theorem source_mem_requestFields {content other : String} {source? : Option String} :
    ("source", other) ∈ requestFields content source? ↔ source? = some other := by
  simp [requestFields]

namespace LintRequest

variable {content : String} {source? : Option String} {fields : List (String × String)}
  (hfields : ∀ f, f ∈ fields ↔ f ∈ requestFields content source?)

include hfields

/-- **The fields of a request** are found in whatever order they come, and the source has a value
without one. -/
theorem ofJson_ofFields :
    ofJson (Json.ofFields fields) = .valid ⟨content, source?.getD defaultSource⟩ := by
  have hcontent : ∀ other, ("content", other) ∈ fields ↔ other = content :=
    fun other => (hfields _).trans content_mem_requestFields
  have hsource : ∀ other, ("source", other) ∈ fields ↔ source? = some other :=
    fun other => (hfields _).trans source_mem_requestFields
  have hrequired : Record.required "content" Record.text (Json.ofFields fields) = .valid content :=
    Record.required_valid (Json.get?_ofFields ((hcontent _).mpr rfl) fun _ => (hcontent _).mp) rfl
  have hoptional : Record.optional "source" defaultSource Record.text (Json.ofFields fields) =
      .valid (source?.getD defaultSource) := by
    cases source? with
    | none =>
      have hnone : (Json.ofFields fields).get? "source" = none :=
        Json.get?_ofFields_eq_none fun other hother => nomatch (hsource other).mp hother
      rw [Record.optional, hnone]
      rfl
    | some source =>
      exact Record.optional_valid (Json.get?_ofFields ((hsource source).mpr rfl) fun other hother =>
        (Option.some.inj ((hsource other).mp hother)).symm) rfl
  show LintRequest.mk <$> Record.required "content" Record.text (Json.ofFields fields) <*>
    Record.optional "source" defaultSource Record.text (Json.ofFields fields) = _
  rw [hrequired, hoptional]
  rfl

variable {textLimits : Json.ReadLimits} {text : List Char}
  (htext : Json.IsText textLimits (Json.ofFields fields) text)

include htext

omit hfields in
/-- **The JSON value of a body** is that of its text. -/
theorem jsonOf_encode : jsonOf (Text.Utf8.encode text) = .ok (Json.ofFields fields) := by
  have hmark : text.head? ≠ some Text.mark := by
    obtain ⟨c, hc, hbegins⟩ := htext.begins
    intro hmark
    obtain rfl := Option.mem_unique hmark hc
    exact absurd hbegins (by decide)
  have hnul : '\x00' ∉ text := fun hmem => absurd (htext.clear _ hmem) (by decide)
  have hread : Json.read limits text = .ok (Json.ofFields fields) :=
    Json.read_of_isText (htext.of_fields (by decide))
  simp only [jsonOf, BodyText.ofBytes_encode_of_clean hmark hnul, hread]

/-- **A request is read** from the bytes of whatever text it is written as. -/
theorem ofBody_encode {contentType : Option String}
    (htype : contentType.map isJsonType = some true) :
    ofBody contentType (Text.Utf8.encode text) = .ok ⟨content, source?.getD defaultSource⟩ := by
  have hbytes : (Text.Utf8.encode text).isEmpty = false := by
    obtain ⟨c, hc, -⟩ := htext.begins
    have hlength := Text.Utf8.length_le_encode text
    cases text with
    | nil => exact nomatch hc
    | cons c text =>
      exact List.isEmpty_eq_false_iff.mpr (List.ne_nil_of_length_pos
        (Nat.lt_of_lt_of_le (Nat.succ_pos _) hlength))
  rw [ofBody, hbytes, if_neg Bool.false_ne_true, htype, Option.getD_some, if_pos rfl,
    jsonOf_encode htext]
  show ((ofJson (Json.ofFields fields)).under (.field "body")).toExcept.mapError
    BodyError.invalid = _
  rw [ofJson_ofFields hfields]
  rfl

end LintRequest

/-! ### Answers -/

theorem lint_of_ofBody {s : Service} {r : Request} {q : LintRequest}
    (h : LintRequest.ofBody (r.header? "content-type") r.bytes = .ok q) :
    lint s r = .json 200 (s.lintText q.source q.content).toJson := by
  rw [lint, h]

/-- A request to lint goes to the linter in one piece, unless it is refused for its size. -/
theorem limitedAt_route_lint (s : Service) {r : Request} {address : List Char}
    (hmethod : r.method = "POST") (hpath : r.path = "/lint")
    (hsize : ¬ BodyLimit.Oversized (BodyLimit.limitAt address) r) :
    BodyLimit.limitedAt address (route s) r = lint s { r with body := [r.body.flatten] } := by
  have hcounted : r.method ∈ BodyLimit.countedMethods := by
    rw [hmethod]
    decide
  have hendpoint : Endpoint.atPath? r.path = some .lint := by
    rw [hpath]
    rfl
  rw [BodyLimit.limitedAt_of_not_oversized hsize, if_pos hcounted]
  simp only [route, hendpoint, hmethod]
  rfl

theorem not_oversized_of_le {r : Request} {limit : Nat} (hsize : r.body.flatten.length ≤ limit)
    (hannounced : ∀ n, BodyLimit.announced? r = some n → n ≤ limit) :
    ¬ BodyLimit.Oversized limit r := by
  rw [BodyLimit.Oversized, ← List.length_flatten]
  rintro (⟨n, hn, hlarge⟩ | ⟨-, hlarge⟩)
  · have hle := hannounced n hn
    omega
  · omega

/-- **A document that is sent is linted** as if it had been handed over directly. The request may be
written as any JSON text of an object with these fields: in any order, with any blanks, each
character as it is or escaped in any way; and its bytes may come in any chunks, as long as neither
they nor the length announced for them are above the limit of the address, which is that of the path
if the request is plain. The answer is the report, which is read back from its JSON value as it was,
and that value from the text that is written for it. -/
theorem respond_lint (s : Service) (tenths : Nat) (r : Request) {content : String}
    {source? : Option String} {fields : List (String × String)} {textLimits : Json.ReadLimits}
    {text address : List Char} (hmethod : r.method = "POST") (hpath : r.path = "/lint")
    (haddress : r.addressPath? = some address)
    (htype : (r.header? "content-type").map LintRequest.isJsonType = some true)
    (hfields : ∀ f, f ∈ fields ↔ f ∈ requestFields content source?)
    (htext : Json.IsText textLimits (Json.ofFields fields) text)
    (hbody : r.body.flatten = Text.Utf8.encode text)
    (hsize : r.body.flatten.length ≤ BodyLimit.limitAt address)
    (hannounced : ∀ n, BodyLimit.announced? r = some n → n ≤ BodyLimit.limitAt address) :
    let report := s.lintText (source?.getD "<string>") content
    respond s tenths r = ⟨200, [(durationHeader, durationText tenths)], .json report.toJson⟩ ∧
      Report.ofJson report.toJson = .valid report ∧
      report.toJson.get? "is_valid" = some (.bool report.isValid) ∧
      (∀ limits : Json.ReadLimits, 3 ≤ limits.depth → 7 ≤ limits.digits →
        Json.read limits report.toJson.write = .ok report.toJson) ∧
      (r.Plain → BodyLimit.limitAt address = 5 * 1024 * 1024) := by
  intro report
  have hlint : BodyLimit.limitedAt address (route s) r = .json 200 report.toJson := by
    rw [limitedAt_route_lint s hmethod hpath (not_oversized_of_le hsize hannounced)]
    refine lint_of_ofBody (q := ⟨content, source?.getD "<string>"⟩) ?_
    rw [Request.bytes, List.flatten_singleton, hbody]
    exact LintRequest.ofBody_encode hfields htext htype
  have hlength : content.length ≤ text.length :=
    Json.length_le_of_mem_fields htext ((hfields _).mpr List.mem_cons_self)
  refine ⟨?_, Report.ofJson_toJson fun d hd => ?_, rfl, fun limits hdepth hdigits => ?_,
    fun hplain => ?_⟩
  · rw [respond_of_address s tenths haddress, hlint]
    rfl
  · obtain ⟨p, hp, hd⟩ := List.mem_flatMap.mp hd
    exact Passage.inBounds_of_mem_lint (inBounds_of_mem_passages hp).2 hd
  · have hbytes := Text.Utf8.length_le_encode text
    have hpow : 10 ^ 7 ≤ 10 ^ limits.digits := Nat.pow_le_pow_right (by decide) hdigits
    have hlimit := BodyLimit.limitAt_le address
    refine Report.read_write_lint s.vocabulary _ content hdepth (Nat.lt_of_lt_of_le ?_ hpow)
    rw [hbody] at hsize
    omega
  · obtain rfl : r.path.toList = address :=
      Option.some.inj (hplain.addressPath?_eq.symm.trans haddress)
    rw [hpath, BodyLimit.limitAt_eq, if_pos List.suffix_rfl]

/-- The source in front, a blank, a character written as the halves of a pair, and a cut between
them. -/
theorem respond_lint_pair :
    let s : Service := ⟨.empty, 0, 1⟩
    let fields := [("source", "s"), ("content", "😀")]
    let text := "\x7b\"source\": \"s\",\"content\":\"\\ud83D\\uDe00\"\x7d\n".toList
    let bytes := Text.Utf8.encode text
    let r : Request := ⟨"POST", .http, some ("127.0.0.1", 8000), "/lint", [],
      [("Host", "localhost:8000"), ("Content-Type", "application/json; charset=utf-8")],
      [bytes.take 34, [], bytes.drop 34]⟩
    (Json.IsText ⟨1, 0⟩ (Json.ofFields fields) text ∧ r.Plain) ∧
      respond s 3 r =
        ⟨200, [("x-request-duration-ms", "0.3")], .json (s.lintText "s" "😀").toJson⟩ := by
  intro s fields text bytes r
  have hhigh : Json.SpellsUnit 0xD83D ['d', '8', '3', 'D'] :=
    .digits (i := 0xD) (j := 8) (k := 3) (l := 0xD) (by decide) (by decide) (by decide) (by decide)
  have hlow : Json.SpellsUnit 0xDE00 ['D', 'e', '0', '0'] :=
    .digits (i := 0xD) (j := 0xE) (k := 0) (l := 0) (by decide) (by decide) (by decide) (by decide)
  have hpair : Json.SpellsChars "😀".toList "\\ud83D\\uDe00".toList :=
    .cons (.pair (c := '😀') (by decide) hhigh hlow) .nil
  have hblank : Json.Blanks [' '] := List.forall_mem_singleton.mpr (by decide)
  have hfeed : Json.Blanks ['\n'] := List.forall_mem_singleton.mpr (by decide)
  have hsource : Json.SpellsMember (Json.Spells 0 0) ("source", .string "s") _ :=
    .named (Json.spellsString_write "source") .nil hblank (.string (Json.spellsString_write "s"))
  have hmember : Json.SpellsMember (Json.Spells 0 0) ("content", .string "😀") _ :=
    .named (Json.spellsString_write "content") .nil .nil (.string (.quoted hpair))
  have hobject : Json.Spells 0 1 (Json.ofFields fields) _ :=
    Or.inr (.members .nil (.more hsource .nil .nil (.last hmember .nil)))
  have hpadded : Json.IsText ⟨1, 0⟩ (Json.ofFields fields) _ := .padded .nil hobject hfeed
  have htext : Json.IsText ⟨1, 0⟩ (Json.ofFields fields) text := hpadded
  have htype : (r.header? "content-type").map LintRequest.isJsonType = some true := by decide
  have hfields : ∀ f, f ∈ fields ↔ f ∈ requestFields "😀" (some "s") := by
    intro f
    simp [fields, requestFields, or_comm]
  have hbody : r.body.flatten = bytes := by simp [r]
  have hplain : r.Plain :=
    ⟨⟨"localhost:8000", by decide, by decide, by decide⟩, by decide, by decide, ⟨[], rfl⟩⟩
  have hsize : r.body.flatten.length ≤ BodyLimit.limitAt r.path.toList := by
    rw [hbody]
    decide
  have hannounced : ∀ n, BodyLimit.announced? r = some n → n ≤ BodyLimit.limitAt r.path.toList := by
    have hnone : BodyLimit.announced? r = none := by decide
    exact fun n hn => nomatch hnone.symm.trans hn
  exact ⟨⟨htext, hplain⟩, (respond_lint s 3 r rfl rfl hplain.addressPath?_eq htype hfields htext
    hbody hsize hannounced).1⟩

end Http

end TweeLint
