import Mathlib.Algebra.GroupWithZero.Nat
import ManifestLint.CommandLine.Parse

/-!
# Pieces of a command line

What may stand behind the command `check`, piece by piece, how each piece is written, and what the
reader makes of it. A setting takes effect only with what follows it, so what is kept after each
piece is what the draft settles to.

* `Piece`, `Piece.Once`: pieces as they may be mixed, the options among them given once at most;
* `Draft.ofPieces`: what some pieces come to, with no regard to how they are mixed;
* `Draft.readAll_piece`: one piece is read, and so are several (`Draft.readAll_pieces`).
-/

namespace ManifestLint.CommandLine

/-- A text that is no option: it does not begin with a dash, or is nothing but one. -/
def IsWord (text : String) : Prop := text = "-" ∨ text.toList.head? ≠ some '-'

instance (text : String) : Decidable (IsWord text) :=
  inferInstanceAs (Decidable (text = "-" ∨ text.toList.head? ≠ some '-'))

theorem IsWord.ne_dashes {text : String} (h : IsWord text) : text ≠ "--" := by
  rintro rfl
  revert h
  decide

/-- The flag that asks for more of the log, in full or as one letter or more behind one dash. -/
inductive Flag where
  | long
  | short (more : Nat)
  deriving DecidableEq, Repr

namespace Flag

def text : Flag → String
  | .long => "--verbose"
  | .short more => String.ofList ('-' :: List.replicate (more + 1) 'v')

/-- How many times it is given. -/
def count : Flag → Nat
  | .long => 1
  | .short more => more + 1

theorem text_short (more : Nat) :
    (Flag.short more).text.toList = '-' :: 'v' :: List.replicate more 'v' := by
  rw [text, String.toList_ofList, List.replicate_succ]

theorem text_ne_dashes (flag : Flag) : flag.text ≠ "--" := by
  cases flag with
  | long => decide
  | short more =>
    intro same
    have letters := congrArg String.toList same
    rw [text_short] at letters
    cases letters

end Flag

/-- The name behind the two dashes of a setting. -/
def Setting.longName : Setting → String
  | .projectRoot => "project-root"
  | .output => "output"

/-- One piece behind the command `check`. The value of a setting stands behind an equals sign, or is
the next argument. -/
inductive Piece where
  | flag (which : Flag)
  | attached (setting : Setting) (value : String)
  | apart (setting : Setting) (value : String) (isWord : IsWord value)
  | noColor
  | path (text : String) (isWord : IsWord text)
  deriving DecidableEq

namespace Piece

/-- The arguments that a piece is written as. -/
def texts : Piece → List String
  | .flag which => [which.text]
  | .attached setting value => ["--" ++ setting.longName ++ "=" ++ value]
  | .apart setting value _ => ["--" ++ setting.longName, value]
  | .noColor => ["--no-color"]
  | .path text _ => [text]

/-- How many times a piece asks for the log. -/
def count : Piece → Nat
  | .flag which => which.count
  | _ => 0

def path? : Piece → Option String
  | .path text _ => some text
  | _ => none

/-- The value that a piece gives to a setting. -/
def value? (setting : Setting) : Piece → Option String
  | .attached named value | .apart named value _ => if named = setting then some value else none
  | _ => none

def isNoColor : Piece → Bool
  | .noColor => true
  | _ => false

/-- How many times the log is asked for in all. -/
def total (pieces : List Piece) : Nat := (pieces.map count).sum

def paths (pieces : List Piece) : List String := pieces.filterMap path?

def values (setting : Setting) (pieces : List Piece) : List String :=
  pieces.filterMap (value? setting)

/-- Each option but the one for the log is given once at most. -/
structure Once (pieces : List Piece) : Prop where
  setting : ∀ setting, (values setting pieces).length ≤ 1
  noColor : pieces.countP isNoColor ≤ 1

/-! ## Pieces that are told in order -/

variable {done : List Piece} {piece : Piece}

theorem Once.of_append {rest : List Piece} (once : Once (done ++ rest)) : Once done := by
  constructor
  · intro setting
    have all := once.setting setting
    rw [values, List.filterMap_append, List.length_append] at all
    exact Nat.le_trans (Nat.le_add_right _ _) all
  · have all := once.noColor
    rw [List.countP_append] at all
    omega

/-- What is given now was not given before. -/
theorem Once.values_eq_nil {setting : Setting} {value : String} (once : Once (done ++ [piece]))
    (given : piece.value? setting = some value) : values setting done = [] := by
  have all := once.setting setting
  rw [values, List.filterMap_append, List.length_append, List.filterMap_cons_some given] at all
  apply List.eq_nil_of_length_eq_zero
  change (values setting done).length + _ ≤ 1 at all
  rw [List.length_cons] at all
  omega

theorem Once.any_eq_false (once : Once (done ++ [piece])) (given : piece.isNoColor = true) :
    done.any isNoColor = false := by
  have all := once.noColor
  rw [List.countP_append, List.countP_singleton, if_pos given] at all
  have none : done.countP isNoColor = 0 := by omega
  rw [List.any_eq_false]
  exact List.countP_eq_zero.mp none

end Piece

namespace Draft

open Piece

/-- What pieces come to. -/
def ofPieces (pieces : List Piece) : Draft where
  verbosity := min 255 (total pieces)
  paths := Piece.paths pieces
  projectRoot := (values .projectRoot pieces).head?
  output := (values .output pieces).head?
  noColor := pieces.any isNoColor
  pending := none

theorem pending_ofPieces (pieces : List Piece) : (ofPieces pieces).pending = none := rfl

theorem value?_ofPieces (pieces : List Piece) (setting : Setting) :
    (ofPieces pieces).value? setting = (values setting pieces).head? := by
  cases setting <;> rfl

/-- What one more piece adds. -/
theorem ofPieces_append (done : List Piece) (piece : Piece) :
    ofPieces (done ++ [piece]) =
      { verbosity := min 255 ((ofPieces done).verbosity + piece.count)
        paths := (ofPieces done).paths ++ piece.path?.toList
        projectRoot := (ofPieces done).projectRoot.or (piece.value? .projectRoot)
        output := (ofPieces done).output.or (piece.value? .output)
        noColor := (ofPieces done).noColor || piece.isNoColor
        pending := none } := by
  have counts : total (done ++ [piece]) = total done + piece.count := by
    rw [total, List.map_append, List.sum_append]
    simp [total]
  have heads (setting : Setting) : (values setting (done ++ [piece])).head? =
      (values setting done).head?.or (piece.value? setting) := by
    rw [values, List.filterMap_append, List.head?_append]
    cases given : piece.value? setting <;> simp [values, given]
  have texts : Piece.paths (done ++ [piece]) = Piece.paths done ++ piece.path?.toList := by
    rw [Piece.paths, List.filterMap_append]
    cases given : piece.path? <;> simp [Piece.paths, given]
  unfold ofPieces
  rw [counts, heads, heads, texts, List.any_append]
  congr 1
  · dsimp only
    omega
  · simp

/-! ## Settling -/

theorem settle_of_settled {draft : Draft} (h : draft.pending = none) : draft.settle = .ok draft := by
  unfold settle
  rw [h]

theorem pending_of_settle {draft settled : Draft} (h : draft.settle = .ok settled) :
    settled.pending = none := by
  unfold settle at h
  split at h
  · next none => cases h; exact none
  · cases h
  · next setting value _ =>
    split at h
    · cases h
    · cases h
      cases setting <;> rfl

/-- A draft that settles does not wait for a value. -/
theorem pending_ne_of_settle {draft settled : Draft} (h : draft.settle = .ok settled)
    (setting : Setting) : draft.pending ≠ some (setting, none) := by
  intro waiting
  unfold settle at h
  rw [waiting] at h
  cases h

theorem settle_assigned {draft : Draft} {setting : Setting} {value : String}
    (unset : draft.value? setting = none) :
    ({ draft with pending := some (setting, some value) } : Draft).settle =
      .ok ({ draft with pending := none }.assign value setting) := by
  have free : ({ draft with pending := some (setting, some value) } : Draft).value? setting = none := by
    cases setting <;> exact unset
  unfold settle
  dsimp only
  rw [free]
  rfl

/-! ## Flags -/

variable {draft settled : Draft} (scope : Scope)

theorem turnOn_verbose (h : draft.settle = .ok settled) (long : Bool) :
    draft.turnOn scope .verbose long =
      .ok { settled with verbosity := min 255 (settled.verbosity + 1) } := by
  unfold turnOn
  rw [h]
  rfl

theorem readShorts_replicate (h : draft.settle = .ok settled) (more : Nat) :
    draft.readShorts scope (List.replicate (more + 1) 'v') =
      .ok { settled with verbosity := min 255 (settled.verbosity + (more + 1)) } := by
  induction more generalizing draft settled with
  | zero =>
    have first := turnOn_verbose scope h false
    simp only [List.replicate, readShorts, Scope.shortOption?, first]
    rfl
  | succ more ih =>
    have first := turnOn_verbose scope h false
    have idle := pending_of_settle h
    have again : ({ settled with verbosity := min 255 (settled.verbosity + 1) } : Draft).settle =
        .ok { settled with verbosity := min 255 (settled.verbosity + 1) } := settle_of_settled idle
    rw [List.replicate_succ, readShorts]
    simp only [Scope.shortOption?, first]
    refine (ih again).trans ?_
    dsimp only
    congr 2
    omega

theorem readArgument_flag (h : draft.settle = .ok settled) (flag : Flag) :
    draft.readArgument scope flag.text =
      .ok { settled with verbosity := min 255 (settled.verbosity + flag.count) } := by
  cases flag with
  | long => exact turnOn_verbose scope h true
  | short more =>
    unfold readArgument
    rw [Flag.text_short]
    exact readShorts_replicate scope h more

theorem readArgument_noColor (h : draft.settle = .ok settled) (unset : settled.noColor = false) :
    draft.readArgument (.command .check) "--no-color" = .ok { settled with noColor := true } := by
  change draft.turnOn (.command .check) .noColor true = _
  rw [turnOn, h]
  change (if settled.noColor then _ else _) = _
  rw [if_neg (by rw [unset]; decide)]
  rfl

/-! ## Settings and words -/

theorem splitValue_append (name value : List Char) (plain : '=' ∉ name) :
    splitValue (name ++ '=' :: value) = (String.ofList name, some (String.ofList value)) := by
  have all : ∀ c ∈ name, (c != '=') = true := by
    intro c hc
    rw [bne_iff_ne]
    rintro rfl
    exact plain hc
  have behind : (name ++ '=' :: value).dropWhile (· != '=') = '=' :: value := by
    rw [List.dropWhile_append_of_pos all]
    rfl
  have upTo : (name ++ '=' :: value).takeWhile (· != '=') = name := by
    rw [List.takeWhile_append_of_pos all]
    simp
  unfold splitValue
  rw [behind, upTo]

theorem toList_attached (setting : Setting) (value : String) :
    ("--" ++ setting.longName ++ "=" ++ value).toList =
      '-' :: '-' :: (setting.longName.toList ++ '=' :: value.toList) := by
  simp [String.toList_append]

theorem attached_ne_dashes (setting : Setting) (value : String) :
    "--" ++ setting.longName ++ "=" ++ value ≠ "--" := by
  intro same
  have letters := congrArg String.toList same
  rw [toList_attached] at letters
  cases setting <;> cases letters

theorem readArgument_attached (draft : Draft) (setting : Setting) (value : String) :
    draft.readArgument (.command .check) ("--" ++ setting.longName ++ "=" ++ value) =
      draft.name setting (some value) := by
  have cut := splitValue_append setting.longName.toList value.toList
    (by cases setting <;> decide)
  rw [String.ofList_toList, String.ofList_toList] at cut
  unfold readArgument
  rw [toList_attached]
  change draft.readLong _ (splitValue _).1 (splitValue _).2 = _
  rw [cut]
  cases setting <;> rfl

theorem readArgument_named (draft : Draft) (setting : Setting) :
    draft.readArgument (.command .check) ("--" ++ setting.longName) = draft.name setting none := by
  cases setting <;> rfl

theorem readArgument_word (draft : Draft) {text : String} (h : IsWord text) :
    draft.readArgument scope text = draft.readWord scope text := by
  unfold readArgument
  cases h with
  | inl dash => rw [dash]; rfl
  | inr plain =>
    cases letters : text.toList with
    | nil => rfl
    | cons first rest =>
      rw [letters, List.head?_cons, ne_eq, Option.some.injEq] at plain
      split
      · next same => cases same; exact absurd rfl plain
      · next same => cases same; exact absurd rfl plain
      · rfl

theorem readWord_path (h : draft.settle = .ok settled) (text : String) :
    draft.readWord (.command .check) text =
      .ok { settled with paths := settled.paths ++ [text] } := by
  unfold readWord
  split
  · next setting waiting => exact absurd waiting (pending_ne_of_settle h setting)
  · rw [h]
    rfl

theorem readAll_cons_of_ok {next : Draft} {argument : String} (further : argument ≠ "--")
    (h : draft.readArgument scope argument = .ok next) (rest : List String) :
    draft.readAll scope (argument :: rest) = next.readAll scope rest := by
  rw [readAll, if_neg further, h]
  rfl

/-- A setting whose value is the next argument waits for what follows that. -/
theorem readAll_apart (h : draft.settle = .ok settled) (setting : Setting) {value : String}
    (isWord : IsWord value) (rest : List String) :
    draft.readAll (.command .check) (("--" ++ setting.longName) :: value :: rest) =
      ({ settled with pending := some (setting, some value) } : Draft).readAll (.command .check)
        rest := by
  have named : draft.readArgument (.command .check) ("--" ++ setting.longName) =
      .ok { settled with pending := some (setting, none) } := by
    rw [readArgument_named, name, h]
    rfl
  have valued : ({ settled with pending := some (setting, none) } : Draft).readArgument
      (.command .check) value = .ok { settled with pending := some (setting, some value) } := by
    rw [readArgument_word _ _ isWord]
    rfl
  rw [readAll_cons_of_ok _ (by cases setting <;> decide) named]
  exact readAll_cons_of_ok _ isWord.ne_dashes valued rest

/-! ## Several pieces -/

theorem ofPieces_apart (done : List Piece) (setting : Setting) (value : String)
    (isWord : IsWord value) :
    ofPieces (done ++ [.apart setting value isWord]) =
      ofPieces (done ++ [.attached setting value]) := by
  rw [ofPieces_append, ofPieces_append]
  rfl

theorem min_verbosity_ofPieces (pieces : List Piece) :
    min 255 (ofPieces pieces).verbosity = (ofPieces pieces).verbosity :=
  Nat.min_eq_right (Nat.min_le_left 255 (total pieces))

/-- A setting that was not given before takes effect with its value. -/
theorem settle_given {done : List Piece} {setting : Setting} (unset : values setting done = [])
    (value : String) :
    ({ ofPieces done with pending := some (setting, some value) } : Draft).settle =
      .ok (ofPieces (done ++ [.attached setting value])) := by
  have free : (ofPieces done).value? setting = none := by
    rw [value?_ofPieces, unset]
    rfl
  have bounded := min_verbosity_ofPieces done
  rw [settle_assigned free, ofPieces_append]
  cases setting with
  | projectRoot =>
    change (ofPieces done).projectRoot = none at free
    simp [assign, count, path?, Piece.value?, isNoColor, free, bounded]
  | output =>
    change (ofPieces done).output = none at free
    simp [assign, count, path?, Piece.value?, isNoColor, free, bounded]

/-- One piece is read, and what the draft then settles to is what the pieces so far come to. -/
theorem readAll_piece {done : List Piece} {piece : Piece} (h : draft.settle = .ok (ofPieces done))
    (once : Once (done ++ [piece])) (rest : List String) :
    ∃ next : Draft, draft.readAll (.command .check) (piece.texts ++ rest) =
        next.readAll (.command .check) rest ∧
      next.settle = .ok (ofPieces (done ++ [piece])) := by
  have settled (next : Draft) (same : next = ofPieces (done ++ [piece])) :
      next.settle = .ok (ofPieces (done ++ [piece])) := by
    rw [same]
    exact settle_of_settled rfl
  have bounded := min_verbosity_ofPieces done
  cases piece with
  | flag which =>
    have read := readArgument_flag (.command .check) h which
    refine ⟨_, readAll_cons_of_ok _ which.text_ne_dashes read rest, settled _ ?_⟩
    rw [ofPieces_append]
    simp [count, path?, Piece.value?, isNoColor, pending_ofPieces]
  | attached setting value =>
    have unset : values setting done = [] := once.values_eq_nil (if_pos rfl)
    have read : draft.readArgument (.command .check) ("--" ++ setting.longName ++ "=" ++ value) =
        .ok (ofPieces (done ++ [.attached setting value])) := by
      rw [readArgument_attached, name, h]
      exact settle_given unset value
    exact ⟨_, readAll_cons_of_ok _ (attached_ne_dashes setting value) read rest, settled _ rfl⟩
  | apart setting value isWord =>
    have unset : values setting done = [] := once.values_eq_nil (if_pos rfl)
    refine ⟨_, readAll_apart h setting isWord rest, ?_⟩
    rw [ofPieces_apart]
    exact settle_given unset value
  | noColor =>
    have read := readArgument_noColor h (once.any_eq_false rfl)
    refine ⟨_, readAll_cons_of_ok _ (by decide) read rest, settled _ ?_⟩
    rw [ofPieces_append]
    simp [count, path?, Piece.value?, isNoColor, bounded, pending_ofPieces]
  | path text isWord =>
    have read : draft.readArgument (.command .check) text =
        .ok { ofPieces done with paths := (ofPieces done).paths ++ [text] } := by
      rw [readArgument_word _ _ isWord]
      exact readWord_path h text
    refine ⟨_, readAll_cons_of_ok _ isWord.ne_dashes read rest, settled _ ?_⟩
    rw [ofPieces_append]
    simp [count, path?, Piece.value?, isNoColor, bounded, pending_ofPieces]

/-- Several pieces are read one by one. -/
theorem readAll_pieces {done pieces : List Piece} (h : draft.settle = .ok (ofPieces done))
    (once : Once (done ++ pieces)) (rest : List String) :
    ∃ next : Draft, draft.readAll (.command .check) (pieces.flatMap texts ++ rest) =
        next.readAll (.command .check) rest ∧
      next.settle = .ok (ofPieces (done ++ pieces)) := by
  -- `done` grows as `pieces` shrinks; what is read stays tied to it by what the draft settles to.
  induction pieces generalizing draft done with
  | nil => exact ⟨draft, rfl, by rwa [List.append_nil]⟩
  | cons piece pieces ih =>
    have along : done ++ piece :: pieces = (done ++ [piece]) ++ pieces := by
      rw [List.append_assoc, List.singleton_append]
    rw [along] at once ⊢
    obtain ⟨next, read, settles⟩ :=
      readAll_piece h once.of_append (pieces.flatMap texts ++ rest)
    obtain ⟨last, readOn, settlesOn⟩ := ih settles once
    refine ⟨last, ?_, settlesOn⟩
    rw [List.flatMap_cons, List.append_assoc, read, readOn]

end Draft

end ManifestLint.CommandLine
