import TweeLint.Interchange
import TweeLint.Proofs.NameSet
import TweeLint.Proofs.Position

/-!
# Records that are read back

A passage, call, diagnostic or report that was written as JSON is read back as it was, and no check
of any of its members fails (`Passage.ofJson_toJson`, `MacroCall.ofJson_toJson`,
`Diagnostic.ofJson_toJson`, `Report.ofJson_toJson`). The one condition is that its lines and columns
are at least 1; the numbers that count from 0 are so by their type.

Each member is read on its own (`Record.required_valid`, `Record.optional_valid`), and lists item by
item (`Checked.list_map`).
-/

namespace TweeLint

variable {α β : Type}

/-! ### Members -/

namespace Checked

/-- A list of which every item is valid. -/
theorem list_map {check : β → Checked α} {write : α → β} {as : List α}
    (h : ∀ a ∈ as, check (write a) = .valid a) : list check (as.map write) = .valid as := by
  have hfrom : ∀ k, ((as.map write).zipIdx k).foldr
      (fun item rest => consItem ((check item.1).under (.index item.2)) rest) (.valid []) =
        (.valid as : Checked (List α)) := by
    intro k
    induction as generalizing k with
    | nil => rfl
    | cons a as ih =>
      rw [List.map_cons, List.zipIdx_cons, List.foldr_cons, ih fun b hb => h b (List.mem_cons_of_mem _ hb)]
      show consItem ((check (write a)).under (.index k)) (.valid as) = .valid (a :: as)
      rw [h a List.mem_cons_self]
      rfl
  exact hfrom 0

end Checked

namespace Record

variable {name : String} {read : Json → Checked α} {record j : Json} {a : α}

theorem required_valid (hget : record.get? name = some j) (hread : read j = .valid a) :
    required name read record = .valid a := by
  simp only [required, hget, hread, Checked.under]

theorem optional_valid {default : α} (hget : record.get? name = some j) (hread : read j = .valid a) :
    optional name default read record = .valid a := by
  simp only [optional, hget, hread, Checked.under]

theorem integerFrom_valid {least n : Int} (h : least ≤ n) :
    integerFrom least (.int n) = .valid n := by
  show Checked.atLeast least n = .valid n
  rw [Checked.atLeast, if_neg (Int.not_lt.mpr h)]

theorem textSet_names (s : NameSet) : textSet (.array (s.names.map .string)) = .valid s := by
  have hlist : Checked.list text (s.names.map .string) = .valid s.names :=
    Checked.list_map fun _ _ => rfl
  show NameSet.ofList <$> Checked.list text (s.names.map .string) = .valid s
  rw [hlist]
  exact congrArg Checked.valid s.ofList_names

theorem textOrNull_ofOption (s? : Option String) : textOrNull (.ofOption s?) = .valid s? := by
  cases s? with
  | none => rfl
  | some s => rfl

end Record

open Record

/-! ### Records -/

/-- **A call is read back.** -/
theorem MacroCall.ofJson_toJson {c : MacroCall} (h : c.position.InBounds) :
    ofJson c.toJson = .valid c := by
  have hname : required "name" text c.toJson = .valid c.name := required_valid rfl rfl
  have hline : required "line" (integerFrom 1) c.toJson = .valid c.position.line :=
    required_valid rfl (integerFrom_valid h.line)
  have hcolumn : required "column" (integerFrom 1) c.toJson = .valid c.position.column :=
    required_valid rfl (integerFrom_valid h.column)
  have hoffset : required "offset" (integerFrom 0) c.toJson = .valid (c.offset : Int) :=
    required_valid rfl (integerFrom_valid (Int.natCast_nonneg c.offset))
  rw [ofJson, hname, hline, hcolumn, hoffset]
  rfl

/-- **A passage is read back.** -/
theorem Passage.ofJson_toJson {p : Passage} (hheader : 1 ≤ p.headerLine)
    (h : p.contentStart.InBounds) : ofJson p.toJson = .valid p := by
  have hname : required "name" text p.toJson = .valid p.name := required_valid rfl rfl
  have htags : optional "tags" .empty textSet p.toJson = .valid p.tags :=
    optional_valid rfl (textSet_names p.tags)
  have hcontent : optional "content" "" text p.toJson = .valid p.content := optional_valid rfl rfl
  have hstart : required "start_line" (integerFrom 1) p.toJson = .valid p.headerLine :=
    required_valid rfl (integerFrom_valid hheader)
  have hline : required "content_line" (integerFrom 1) p.toJson = .valid p.contentStart.line :=
    required_valid rfl (integerFrom_valid h.line)
  have hcolumn : optional "content_column" 1 (integerFrom 1) p.toJson =
      .valid p.contentStart.column :=
    optional_valid rfl (integerFrom_valid h.column)
  rw [ofJson, hname, htags, hcontent, hstart, hline, hcolumn]
  rfl

theorem DiagnosticKind.ofJson_label (kind : DiagnosticKind) :
    ofJson (.string kind.label) = .valid kind := by
  cases kind <;> rfl

/-- **A diagnostic is read back.** -/
theorem Diagnostic.ofJson_toJson {d : Diagnostic} (h : d.position.InBounds) :
    ofJson d.toJson = .valid d := by
  have hkind : required "kind" DiagnosticKind.ofJson d.toJson = .valid d.kind :=
    required_valid rfl d.kind.ofJson_label
  have hpassage : required "passage" text d.toJson = .valid d.passage := required_valid rfl rfl
  have hline : required "line" (integerFrom 1) d.toJson = .valid d.position.line :=
    required_valid rfl (integerFrom_valid h.line)
  have hcolumn : required "column" (integerFrom 1) d.toJson = .valid d.position.column :=
    required_valid rfl (integerFrom_valid h.column)
  have hmessage : required "message" text d.toJson = .valid d.message := required_valid rfl rfl
  have hsuggestion : optional "suggestion" none textOrNull d.toJson = .valid d.suggestion :=
    optional_valid rfl (textOrNull_ofOption d.suggestion)
  rw [ofJson, hkind, hpassage, hline, hcolumn, hmessage, hsuggestion]
  rfl

/-- **A report is read back.** -/
theorem Report.ofJson_toJson {r : Report} (h : ∀ d ∈ r.diagnostics, d.position.InBounds) :
    ofJson r.toJson = .valid r := by
  have hsource : required "source" Record.text r.toJson = .valid r.source := required_valid rfl rfl
  have hcount : required "passage_count" (integerFrom 0) r.toJson = .valid (r.passageCount : Int) :=
    required_valid rfl (integerFrom_valid (Int.natCast_nonneg r.passageCount))
  have hlist : diagnosticList (.array (r.diagnostics.map Diagnostic.toJson)) =
      .valid r.diagnostics :=
    Checked.list_map fun d hd => Diagnostic.ofJson_toJson (h d hd)
  have hdiagnostics : optional "diagnostics" [] diagnosticList r.toJson = .valid r.diagnostics :=
    optional_valid rfl hlist
  rw [ofJson, hsource, hcount, hdiagnostics]
  rfl

end TweeLint
