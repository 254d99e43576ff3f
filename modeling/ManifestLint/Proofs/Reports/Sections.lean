import ManifestLint.Proofs.Paths.Components
import ManifestLint.Report.Human

/-!
# Reports for people give back their sections

A plain report on several manifests can be read back line by line: each line says by how it begins
whether it opens the section of a manifest or tells a finding, and of which severity. So no two reports
that tell different things have one text. Main statement: `toHuman_unambiguous`.

* `Section`, `sections`: what a report tells, without the rules and line numbers that it leaves out;
* `Entry`: a line below the title as its mark and the words behind it, and `ofLine?_text` to read it;
* `gather`: lines put together to sections again;
* `Lacks`: a character that no label and no message holds.
-/

namespace ManifestLint.Report

/-- What a report for people tells of a manifest: its label, and of each finding the severity and the
words. -/
structure Section where
  label : String
  findings : List (Severity × String)
  deriving DecidableEq, Repr

def sectionOf (manifest : ManifestReport) : Section :=
  ⟨manifest.label, manifest.findings.map fun finding => (finding.severity, finding.message)⟩

def sections (report : Report) : List Section := report.manifests.map sectionOf

/-- No label of a manifest and no message of a finding holds the character. -/
def Lacks (c : Char) (report : Report) : Prop :=
  ∀ manifest ∈ report.manifests, c ∉ manifest.label.toList ∧
    ∀ finding ∈ manifest.findings, c ∉ finding.message.toList

/-! ## Lines -/

/-- What a line tells: the label of the manifest that comes next, or a finding of some severity. -/
inductive Mark where
  | label
  | finding (severity : Severity)
  deriving DecidableEq, Repr

namespace Mark

/-- How the lines with a mark begin. -/
def text : Mark → String
  | label => "==> "
  | finding severity => "[" ++ severity.name ++ "] "

def all : List Mark := [label, finding .warning, finding .info]

end Mark

/-- A line of a report below its title. -/
structure Entry where
  mark : Mark
  words : String
  deriving DecidableEq, Repr

namespace Entry

def text (entry : Entry) : String := entry.mark.text ++ entry.words

/-- The entry that a line is, by the mark that it begins with. -/
def ofLine? (line : List Char) : Option Entry :=
  (Mark.all.find? fun mark => mark.text.toList.isPrefixOf line).map fun mark =>
    ⟨mark, String.ofList (line.drop mark.text.toList.length)⟩

/-- No line begins with two marks. -/
theorem find?_mark (mark : Mark) (words : List Char) :
    (Mark.all.find? fun other => other.text.toList.isPrefixOf (mark.text.toList ++ words)) = some mark := by
  cases mark with
  | label => rfl
  | finding severity => cases severity <;> rfl

theorem ofLine?_text (entry : Entry) : ofLine? entry.text.toList = some entry := by
  obtain ⟨mark, words⟩ := entry
  rw [text, ofLine?, String.toList_append, find?_mark, Option.map_some, List.drop_left,
    String.ofList_toList]

theorem mapM_ofLine?_text (entries : List Entry) :
    (entries.map fun entry => entry.text.toList).mapM ofLine? = some entries := by
  induction entries with
  | nil => rfl
  | cons entry rest ih =>
    rw [List.map_cons, List.mapM_cons, ofLine?_text, ih]
    rfl

theorem not_mem_text {entry : Entry} (unbroken : '\n' ∉ entry.words.toList) :
    '\n' ∉ entry.text.toList := by
  obtain ⟨mark, words⟩ := entry
  have marked : '\n' ∉ mark.text.toList := by
    cases mark with
    | label => decide
    | finding severity => cases severity <;> decide
  rw [text, String.toList_append, List.mem_append]
  exact not_or.2 ⟨marked, unbroken⟩

end Entry

/-! ## Sections as lines, and lines as sections -/

def Section.entries (part : Section) : List Entry :=
  ⟨.label, part.label⟩ :: part.findings.map fun (severity, message) => ⟨.finding severity, message⟩

/-- The findings told above the first label of some entries, and the sections below. -/
def gather : List Entry → List (Severity × String) × List Section
  | [] => ([], [])
  | ⟨.label, label⟩ :: rest =>
    let (findings, sections) := gather rest
    ([], ⟨label, findings⟩ :: sections)
  | ⟨.finding severity, message⟩ :: rest =>
    let (findings, sections) := gather rest
    ((severity, message) :: findings, sections)

theorem gather_findings (findings : List (Severity × String)) (rest : List Entry) :
    gather ((findings.map fun (severity, message) => ⟨.finding severity, message⟩) ++ rest) =
      (findings ++ (gather rest).1, (gather rest).2) := by
  induction findings with
  | nil => rfl
  | cons finding more ih => rw [List.map_cons, List.cons_append, gather, ih]; rfl

/-- Each finding is gathered below the label of its own section. -/
theorem gather_flatMap_entries (sections : List Section) :
    gather (sections.flatMap Section.entries) = ([], sections) := by
  induction sections with
  | nil => rfl
  | cons part rest ih =>
    rw [List.flatMap_cons, Section.entries, List.cons_append, gather, gather_findings, ih,
      List.append_nil]

/-- The sections that a text tells, below a title between blank lines. -/
def sections? (text : String) : Option (List Section) :=
  (((Text.segments '\n' text.toList).drop 3).dropLast.mapM Entry.ofLine?).map fun entries =>
    (gather entries).2

/-! ## The text of a report -/

/-- The lines of a section are the label and the findings of its manifest. -/
theorem map_text_entries (manifest : ManifestReport) :
    (sectionOf manifest).entries.map Entry.text =
      ("==> " ++ manifest.label) :: manifest.findings.map Finding.text := by
  have told (finding : Finding) :
      Entry.text ⟨.finding finding.severity, finding.message⟩ = finding.text := by
    apply String.toList_injective
    simp [Entry.text, Mark.text, Finding.text, Finding.tag]
  rw [Section.entries, List.map_cons]
  refine congrArg (_ :: ·) ?_
  simp [sectionOf, told]

theorem humanLines_of_several {report : Report} (several : 1 < report.manifests.length) :
    report.humanLines false =
      ["", title, ""] ++ (report.sections.flatMap Section.entries).map Entry.text := by
  have rendered : renderManifest false true = fun manifest =>
      (sectionOf manifest).entries.map Entry.text := by
    funext manifest
    rw [map_text_entries, renderManifest, if_pos rfl, List.singleton_append]
    rfl
  rw [humanLines, decide_eq_true several, rendered, sections, List.map_flatMap, List.flatMap_map]
  rfl

/-- Lines that are each ended by a line feed are cut apart again, and nothing stands behind the last. -/
theorem segments_lines {lines : List String} (unbroken : ∀ line ∈ lines, '\n' ∉ line.toList) :
    Text.segments '\n' (String.join (lines.map (· ++ "\n"))).toList =
      lines.map String.toList ++ [[]] := by
  induction lines with
  | nil => rfl
  | cons line rest ih =>
    have first := Text.segments_of_not_mem (unbroken line List.mem_cons_self)
    have written : (String.join ((line :: rest).map (· ++ "\n"))).toList =
        line.toList ++ '\n' :: (String.join (rest.map (· ++ "\n"))).toList := by
      simp [String.toList_join]
    rw [written, Text.segments_append_separator, first,
      ih fun other mem => unbroken other (List.mem_cons_of_mem _ mem)]
    rfl

theorem Lacks.words {c : Char} {report : Report} (lacks : report.Lacks c) :
    ∀ entry ∈ report.sections.flatMap Section.entries, c ∉ entry.words.toList := by
  intro entry mem
  obtain ⟨part, shown, own⟩ := List.mem_flatMap.1 mem
  obtain ⟨manifest, listed, rfl⟩ := List.mem_map.1 shown
  obtain ⟨label, messages⟩ := lacks manifest listed
  simp only [Section.entries, sectionOf, List.map_map, List.mem_cons, List.mem_map] at own
  obtain rfl | ⟨finding, found, rfl⟩ := own
  · exact label
  · exact messages finding found

theorem segments_toHuman {report : Report} (several : 1 < report.manifests.length)
    (unbroken : report.Lacks '\n') :
    Text.segments '\n' (report.toHuman false).toList =
      (["", title, ""] ++ (report.sections.flatMap Section.entries).map Entry.text).map String.toList ++
        [[]] := by
  rw [toHuman, humanLines_of_several several]
  apply segments_lines
  intro line mem
  obtain opening | told := List.mem_append.1 mem
  · have plain : ∀ line ∈ ["", title, ""], '\n' ∉ line.toList := by decide
    exact plain line opening
  · obtain ⟨entry, listed, rfl⟩ := List.mem_map.1 told
    exact Entry.not_mem_text (unbroken.words entry listed)

theorem sections?_toHuman {report : Report} (several : 1 < report.manifests.length)
    (unbroken : report.Lacks '\n') : sections? (report.toHuman false) = some report.sections := by
  have lines : ((Text.segments '\n' (report.toHuman false).toList).drop 3).dropLast =
      (report.sections.flatMap Section.entries).map fun entry => entry.text.toList := by
    rw [segments_toHuman several unbroken]
    simp
  rw [sections?, lines, Entry.mapM_ofLine?_text, Option.map_some, gather_flatMap_entries]

/-- **Plain reports on several manifests are unambiguous.** Below the title, each label and each finding
stands on a line of its own, in order and the findings below their label. What is told can be read back
from the text, so two reports have one text if they tell the same of the same manifests, and only then. -/
theorem toHuman_unambiguous {a b : Report} (several : 1 < a.manifests.length)
    (several' : 1 < b.manifests.length) (unbroken : a.Lacks '\n') (unbroken' : b.Lacks '\n') :
    Text.segments '\n' (a.toHuman false).toList =
      (["", title, ""] ++ a.manifests.flatMap fun manifest =>
        ("==> " ++ manifest.label) :: manifest.findings.map Finding.text).map String.toList ++ [[]] ∧
    sections? (a.toHuman false) = some a.sections ∧
    (a.toHuman false = b.toHuman false ↔ a.sections = b.sections) := by
  refine ⟨?_, sections?_toHuman several unbroken, ?_, ?_⟩
  · rw [segments_toHuman several unbroken, sections, List.flatMap_map, List.map_flatMap]
    simp only [map_text_entries]
  · intro same
    have read := sections?_toHuman several unbroken
    rw [same, sections?_toHuman several' unbroken'] at read
    exact (Option.some.inj read).symm
  · intro same
    rw [toHuman, toHuman, humanLines_of_several several, humanLines_of_several several', same]

/-- Labels and messages that begin like lines of another kind, and a manifest without findings between
two others. The rules and line numbers differ, and are not told. -/
theorem toHuman_unambiguous_disguised :
    let a := ofManifests [⟨"==> a", [⟨.info, "r", some 1, "==> a"⟩]⟩, ⟨"[INFO] b", []⟩,
      ⟨"", [⟨.warning, "r", none, "[INFO] \r"⟩, ⟨.info, "s", none, ""⟩]⟩]
    let b := ofManifests [⟨"==> a", [⟨.info, "s", none, "==> a"⟩]⟩, ⟨"[INFO] b", []⟩,
      ⟨"", [⟨.warning, "s", some 7, "[INFO] \r"⟩, ⟨.info, "r", some 8, ""⟩]⟩]
    a ≠ b ∧ a.toHuman false = b.toHuman false ∧ sections? (a.toHuman false) = some b.sections := by
  intro a b
  have unbroken : a.Lacks '\n' := by unfold Lacks; decide
  have unbroken' : b.Lacks '\n' := by unfold Lacks; decide
  obtain ⟨-, read, same⟩ := toHuman_unambiguous (by decide) (by decide) unbroken unbroken'
  have told : a.sections = b.sections := by decide
  exact ⟨by decide, same.2 told, told ▸ read⟩

end ManifestLint.Report
