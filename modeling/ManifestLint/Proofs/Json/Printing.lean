import ManifestLint.Json.Printer
import ManifestLint.Proofs.Json.Parsing
import Mathlib.Data.List.Forall2

/-!
# Printed values are JSON

The text of a value is JSON, on whatever level of indent it begins, and says that value. Main
statement: `spells_chars`.
-/

namespace ManifestLint.Json

mutual

/-- What the text of a value is to say. -/
def tree : Json → Tree
  | .null => .null
  | .number value => .number (Nat.toDigits 10 value)
  | .string value => .string value
  | .array items => .array (itemTrees items)
  | .object members => .object (memberTrees members)

def itemTrees : List Json → List Tree
  | [] => []
  | item :: rest => item.tree :: itemTrees rest

def memberTrees : List (String × Json) → List (String × Tree)
  | [] => []
  | (key, value) :: rest => (key, value.tree) :: memberTrees rest

end

/-! ## Numbers and strings -/

theorem head?_toDigits_ne_zero {n : Nat} (h : n ≠ 0) : (Nat.toDigits 10 n).head? ≠ some '0' := by
  induction n using Nat.strongRecOn with
  | ind n ih =>
    rw [Nat.toDigits_eq_if (by decide)]
    split
    · next small =>
      intro zero
      cases Nat.digitChar_eq_zero.1 (Option.some.inj zero)
      exact h rfl
    · next large =>
      have higher := ih (n / 10) (by omega) (by omega)
      cases first : (Nat.toDigits 10 (n / 10)).head? with
      | none => exact absurd (List.head?_eq_none_iff.1 first) Nat.toDigits_ne_nil
      | some c =>
        rw [List.head?_append, first]
        rw [first] at higher
        exact higher

theorem number_toDigits (n : Nat) : Number (Nat.toDigits 10 n) := by
  have whole : Whole (Nat.toDigits 10 n) := by
    by_cases zero : n = 0
    · rw [zero]
      exact .zero
    · have digits : IsDigits (Nat.toDigits 10 n) :=
        ⟨Nat.toDigits_ne_nil, fun c mem => Nat.isDigit_of_mem_toDigits (by decide) (by decide) mem⟩
      exact .digits digits (head?_toDigits_ne_zero zero)
  have number : Number ([] ++ Nat.toDigits 10 n ++ [] ++ []) := .mk (by decide) whole .none .none
  simpa using number

theorem written_ite {c escaped letter : Char} {text : List Char}
    (listed : (letter, escaped) ∈ shortEscapes) (other : c ≠ escaped → Written c text) :
    Written c (if c = escaped then ['\\', letter] else text) := by
  by_cases same : c = escaped
  · rw [if_pos same, same]
    exact .short listed
  · rw [if_neg same]
    exact other same

/-- A character is escaped as the grammar allows. -/
theorem written_escapeChar (c : Char) : Written c (escapeChar c) := by
  unfold escapeChar
  refine written_ite (by decide) fun quote => ?_
  refine written_ite (by decide) fun backslash => ?_
  iterate 5 refine written_ite (by decide) fun _ => ?_
  split
  · next control =>
    have codes : ∀ n < 0x20, Text.ofDigits? 16 ['0', '0', hexDigit (n / 16), hexDigit (n % 16)] = some n := by
      decide
    exact .code ⟨rfl, codes _ control⟩
  · next plain =>
    exact .itself (by simp [standsForItself, quote, backslash]; omega)

theorem characters_flatMap (content : List Char) : Characters content (content.flatMap escapeChar) := by
  induction content with
  | nil => exact .nil
  | cons c rest ih => exact .cons (written_escapeChar c) ih

theorem quoted_quote (text : String) : Quoted text (quote text) := .mk (characters_flatMap text.toList)

/-! ## Arrays and objects -/

theorem blank_lineAt (level : Nat) : Blank (lineAt level) := by
  intro c mem
  obtain rfl | mem := List.mem_cons.1 mem
  · rfl
  · rw [List.eq_of_mem_replicate mem]
    rfl

section

variable {α : Type} {P : α → List Char → Prop}

/-- Parts on lines of their own are listed as the grammar allows. -/
theorem listed_lines {before after : List Char} (blankBefore : Blank before) (blankAfter : Blank after)
    {part : α} {parts : List α} {text : List Char} {texts : List (List Char)} (first : P part text)
    (more : List.Forall₂ P parts texts) :
    Listed P (part :: parts)
      (before ++ text ++ texts.flatMap (fun text => ',' :: before ++ text) ++ after) := by
  induction more generalizing part text with
  | nil =>
    simpa using Listed.last blankBefore first blankAfter
  | @cons next nextText parts texts second _ ih =>
    simpa using Listed.cons blankBefore first blank_nil (ih second)

theorem bracketed_block {opening closing : Char} (level : Nat) {parts : List α}
    {texts : List (List Char)} (h : List.Forall₂ P parts texts) :
    Bracketed P opening closing parts (block opening closing level texts) := by
  cases h with
  | nil => exact .empty blank_nil
  | @cons part text parts texts first more =>
    have listed := listed_lines (blank_lineAt (level + 1)) (blank_lineAt level) first more
    simpa [block] using Bracketed.full listed

end

/-! ## Values -/

mutual

/-- **A printed value is JSON and says that value,** on every level of indent. -/
theorem spells_chars (level : Nat) : (value : Json) → Spells value.tree (value.chars level)
  | .null => .null
  | .number value => .number (number_toDigits value)
  | .string value => .string (quoted_quote value)
  | .array items => .array (bracketed_block level (spells_itemChars (level + 1) items))
  | .object members => .object (bracketed_block level (spells_memberChars (level + 1) members))

theorem spells_itemChars (level : Nat) :
    (items : List Json) → List.Forall₂ Spells (itemTrees items) (itemChars level items)
  | [] => .nil
  | item :: rest => .cons (spells_chars level item) (spells_itemChars level rest)

theorem spells_memberChars (level : Nat) : (members : List (String × Json)) →
    List.Forall₂ (Member Spells) (memberTrees members) (memberChars level members)
  | [] => .nil
  | (key, value) :: rest => by
    have space : Blank [' '] := by simp [Blank, isBlank]
    have member := Member.mk (quoted_quote key) blank_nil space (spells_chars level value)
    exact .cons (by simpa using member) (spells_memberChars level rest)

end

theorem parse?_pretty (value : Json) {before after : List Char} (blankBefore : Blank before)
    (blankAfter : Blank after) :
    parse? (before ++ value.pretty.toList ++ after) = some value.tree := by
  rw [pretty, String.toList_ofList]
  exact parse?_of_spells blankBefore (spells_chars 0 value) blankAfter

end ManifestLint.Json
