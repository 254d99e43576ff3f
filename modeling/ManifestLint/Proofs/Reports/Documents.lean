import ManifestLint.Proofs.Json.Printing
import ManifestLint.Proofs.Runs.AllOrNothing
import ManifestLint.Report.Format
import ManifestLint.Report.Reading

/-!
# Documents give back their reports

A report that is printed as a document can be read back from it, so no two reports have one document.
Main statement: `render_faithful`.
-/

namespace ManifestLint

open Json (Tree)

/-! ## Parts of a report -/

theorem Severity.ofName?_name (severity : Severity) : ofName? severity.name = some severity := by
  cases severity <;> rfl

theorem Json.natural?_toDigits (n : Nat) : (Tree.number (Nat.toDigits 10 n)).natural? = some n := by
  have digits : (Nat.toDigits 10 n).all Char.isDigit = true :=
    List.all_eq_true.2 fun c mem => Nat.isDigit_of_mem_toDigits (by decide) (by decide) mem
  unfold Tree.natural?
  dsimp only
  rw [if_pos digits, Nat.ofDigitChars_ten_toDigits]

/-- Items that can each be read back are read back together. -/
theorem mapM_itemTrees {α : Type} {toJson : α → Json} {read? : Tree → Option α}
    (back : ∀ a, read? (toJson a).tree = some a) (items : List α) :
    (Json.itemTrees (items.map toJson)).mapM read? = some items := by
  induction items with
  | nil => rfl
  | cons a rest ih =>
    rw [List.map_cons, Json.itemTrees, List.mapM_cons, back, ih]
    rfl

namespace Finding

theorem lineOfTree?_tree (line : Option Nat) :
    lineOfTree? ((line.map Json.number).getD .null).tree = some line := by
  cases line with
  | none => rfl
  | some n => exact congrArg (Option.map some) (Json.natural?_toDigits n)

theorem ofTree?_toJson (finding : Finding) : ofTree? finding.toJson.tree = some finding := by
  have line := lineOfTree?_tree finding.line
  simp [ofTree?, toJson, Json.tree, Json.memberTrees, Tree.member?, Tree.text?, List.lookup_cons,
    Severity.ofName?_name, line]

end Finding

theorem ManifestReport.ofTree?_toJson (report : ManifestReport) :
    ofTree? report.toJson.tree = some report := by
  have findings := mapM_itemTrees Finding.ofTree?_toJson report.findings
  simp [ofTree?, toJson, Json.tree, Json.memberTrees, Tree.member?, Tree.text?, Tree.items?,
    List.lookup_cons, findings]

theorem Summary.ofTree?_toJson (summary : Summary) : ofTree? summary.toJson.tree = some summary := by
  simp [ofTree?, toJson, Json.tree, Json.memberTrees, Tree.member?, List.lookup_cons,
    Json.natural?_toDigits]

namespace Report

theorem ofTree?_toJson (report : Report) : ofTree? report.toJson.tree = some report := by
  have manifests := mapM_itemTrees ManifestReport.ofTree?_toJson report.manifests
  have summary := Summary.ofTree?_toJson report.summary
  simp [ofTree?, toJson, Json.tree, Json.memberTrees, Tree.member?, Tree.items?, List.lookup_cons,
    manifests, summary]

theorem parse?_toDocument (report : Report) :
    Json.parse? report.toDocument.toList = some report.toJson.tree := by
  have lineFeed : Json.Blank ['\n'] := by simp [Json.Blank, Json.isBlank]
  have read := Json.parse?_pretty report.toJson Json.blank_nil lineFeed
  have split : report.toDocument.toList = [] ++ report.toJson.pretty.toList ++ ['\n'] := by
    rw [toDocument, String.toList_append, List.nil_append]
    rfl
  rw [split, read]

theorem ofDocument?_toDocument (report : Report) : ofDocument? report.toDocument = some report := by
  unfold ofDocument?
  rw [parse?_toDocument, Option.bind_some, ofTree?_toJson]

theorem toDocument_inj {a b : Report} (h : a.toDocument = b.toDocument) : a = b := by
  have first := ofDocument?_toDocument a
  rw [h, ofDocument?_toDocument] at first
  exact (Option.some.inj first).symm

/-- A document is one JSON text and a line feed, and the text says one thing only. -/
theorem spells_toDocument_iff (report : Report) :
    ∃ text tree, report.toDocument = text ++ "\n" ∧
      (∀ other, Json.Spells other text.toList ↔ other = tree) ∧
      Json.parse? report.toDocument.toList = some tree ∧ ofTree? tree = some report := by
  have spelled : Json.Spells report.toJson.tree report.toJson.pretty.toList := by
    rw [Json.pretty, String.toList_ofList]
    exact Json.spells_chars 0 report.toJson
  refine ⟨report.toJson.pretty, report.toJson.tree, by rw [toDocument], ?_, parse?_toDocument report,
    ofTree?_toJson report⟩
  intro other
  constructor
  · exact Json.spells_unique spelled
  · intro same
    rw [same]
    exact spelled

/-- **A document gives back its report.** It is one JSON text and a line feed behind it, and the text
says one thing only. What is read from it are the manifests with all their findings, and the totals
of those. So no two reports are printed alike. -/
theorem render_faithful (manifests : List ManifestReport) (color : Bool) :
    let printed := (ofManifests manifests).render color .json
    (∃ text tree, printed = text ++ "\n" ∧ (∀ other, Json.Spells other text.toList ↔ other = tree) ∧
      Json.parse? printed.toList = some tree ∧ ofTree? tree = some (ofManifests manifests)) ∧
    (∃ report, ofDocument? printed = some report ∧ report.manifests = manifests ∧
      report.summary = ⟨tally .warning report.manifests, tally .info report.manifests,
        report.manifests.length⟩) ∧
    ∀ others shade, (ofManifests others).render shade .json = printed ↔ others = manifests := by
  intro printed
  refine ⟨spells_toDocument_iff (ofManifests manifests), ?_, ?_⟩
  · refine ⟨ofManifests manifests, ofDocument?_toDocument _, rfl, ?_⟩
    simp only [ofManifests, count_eq_tally]
  · intro others shade
    constructor
    · intro same
      exact congrArg Report.manifests (toDocument_inj same)
    · intro same
      rw [same]
      rfl

end Report

end ManifestLint
