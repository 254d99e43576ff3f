import ManifestLint.Proofs.CommandLine.Pieces

/-!
# Asking for a check

An argument list for the command `check` means what its pieces mean, however they are mixed.

* `CheckLine`: such an argument list, in its parts;
* `parse_check`: it is read as the request that the parts make, and the request stays the same when
  pieces change places and the paths keep their order; every request for a check can be written so.
-/

namespace ManifestLint.CommandLine

/-- An argument list for the command `check`: the flags of the program before it, the pieces behind
it, and the words behind two dashes, if those are there. -/
structure CheckLine where
  before : List Flag
  pieces : List Piece
  rest : Option (List String)

namespace CheckLine

/-- The end of the options, and the words behind it. -/
def closing : Option (List String) → List String
  | none => []
  | some words => "--" :: words

def arguments (line : CheckLine) : List String :=
  line.before.map Flag.text ++ "check" :: (line.pieces.flatMap Piece.texts ++ closing line.rest)

/-- How much to log: as much as the command is asked for, and if it is not asked, the program. -/
def verbosity (line : CheckLine) : Nat :=
  if Piece.total line.pieces = 0 then min 255 (line.before.map Flag.count).sum
  else min 255 (Piece.total line.pieces)

def options (line : CheckLine) : CheckOptions where
  paths := Piece.paths line.pieces ++ line.rest.getD []
  projectRoot := (Piece.values .projectRoot line.pieces).head?
  output := (Piece.values .output line.pieces).head?
  noColor := line.pieces.any Piece.isNoColor

end CheckLine

/-! ## Before the command -/

theorem Keyword.ofName?_flag (flag : Flag) : Keyword.ofName? flag.text = none := by
  cases flag with
  | long => rfl
  | short more =>
    have letters := Flag.text_short more
    unfold Keyword.ofName?
    split
    case h_5 => rfl
    all_goals
      next same =>
      rw [same] at letters
      cases letters

theorem readProgram_flags (flags : List Flag) (given : Nat) (rest : List String) :
    readProgram { Draft.empty with verbosity := min 255 given } (flags.map Flag.text ++ "check" :: rest) =
      readCommand (min 255 (given + (flags.map Flag.count).sum)) .check rest := by
  induction flags generalizing given with
  | nil => rfl
  | cons flag flags ih =>
    have read : ({ Draft.empty with verbosity := min 255 given } : Draft).readArgument .program flag.text =
        .ok { Draft.empty with verbosity := min 255 (given + flag.count) } := by
      rw [Draft.readArgument_flag .program (Draft.settle_of_settled rfl) flag]
      dsimp only
      congr 2
      omega
    rw [List.map_cons, List.cons_append, readProgram, Keyword.ofName?_flag]
    dsimp only
    rw [if_neg flag.text_ne_dashes, read]
    refine (ih (given + flag.count)).trans ?_
    rw [List.map_cons, List.sum_cons, Nat.add_assoc]

/-! ## Behind the command -/

theorem Draft.readAll_closing {draft settled : Draft} (h : draft.settle = .ok settled)
    (rest : Option (List String)) :
    draft.readAll (.command .check) (CheckLine.closing rest) =
      .ok { settled with paths := settled.paths ++ rest.getD [] } := by
  have nothing : draft.settle = .ok { settled with paths := settled.paths ++ [] } := by
    rw [h, List.append_nil]
  cases rest with
  | none => exact nothing
  | some words =>
    rw [CheckLine.closing, Draft.readAll, if_pos rfl]
    cases words with
    | nil => exact nothing
    | cons word words =>
      rw [Draft.readRest, h]
      rfl

theorem readCommand_check {pieces : List Piece} (once : Piece.Once pieces) (outer : Nat)
    (rest : Option (List String)) :
    readCommand outer .check (pieces.flatMap Piece.texts ++ CheckLine.closing rest) =
      .ok ⟨if Piece.total pieces = 0 then outer else min 255 (Piece.total pieces),
        .check (CheckLine.options ⟨[], pieces, rest⟩)⟩ := by
  obtain ⟨next, read, settles⟩ :=
    Draft.readAll_pieces (show Draft.empty.settle = .ok (Draft.ofPieces []) from rfl) once
      (CheckLine.closing rest)
  have unasked : min 255 (Piece.total pieces) = 0 ↔ Piece.total pieces = 0 := by omega
  rw [readCommand, read, Draft.readAll_closing settles, List.nil_append]
  change Except.ok (⟨if min 255 (Piece.total pieces) = 0 then _ else _, _⟩ : Request) = _
  simp only [unasked]
  rfl

theorem CheckLine.parse_arguments (line : CheckLine) (once : Piece.Once line.pieces) :
    parse line.arguments = .ok ⟨line.verbosity, .check line.options⟩ := by
  have start := readProgram_flags line.before 0
  rw [Nat.zero_add] at start
  exact (start _).trans (readCommand_check once _ line.rest)

/-! ## Pieces that change places -/

namespace Piece

theorem total_perm {pieces moved : List Piece} (h : moved.Perm pieces) : total moved = total pieces :=
  (h.map count).sum_nat

theorem any_perm {pieces moved : List Piece} (h : moved.Perm pieces) :
    moved.any isNoColor = pieces.any isNoColor := by
  rw [Bool.eq_iff_iff, List.any_eq_true, List.any_eq_true]
  simp only [h.mem_iff]

theorem Once.values_perm {pieces moved : List Piece} (once : Once pieces) (h : moved.Perm pieces)
    (setting : Setting) : values setting moved = values setting pieces := by
  have same : (values setting moved).Perm (values setting pieces) := h.filterMap _
  have few := once.setting setting
  cases given : values setting pieces with
  | nil =>
    rw [given] at same
    exact same.eq_nil
  | cons value others =>
    rw [given, List.length_cons] at few
    have alone : others = [] := List.eq_nil_of_length_eq_zero (by omega)
    rw [given, alone] at same
    rw [alone]
    exact same.eq_singleton

theorem Once.perm {pieces moved : List Piece} (once : Once pieces) (h : moved.Perm pieces) :
    Once moved := by
  constructor
  · intro setting
    rw [once.values_perm h]
    exact once.setting setting
  · rw [h.countP_eq]
    exact once.noColor

end Piece

theorem CheckLine.parse_moved (line : CheckLine) (once : Piece.Once line.pieces)
    {moved : List Piece} (h : moved.Perm line.pieces)
    (inOrder : Piece.paths moved = Piece.paths line.pieces) :
    parse (CheckLine.arguments { line with pieces := moved }) = parse line.arguments := by
  rw [line.parse_arguments once, parse_arguments _ (once.perm h)]
  unfold verbosity options
  dsimp only
  rw [Piece.total_perm h, Piece.any_perm h, once.values_perm h, once.values_perm h, inOrder]

/-! ## Every request -/

namespace CheckLine

/-- The flags that ask for a verbosity. -/
def flagsFor : Nat → List Piece
  | 0 => []
  | more + 1 => [.flag (.short more)]

/-- One way to write a request for a check: the settings with their values attached, and all paths
behind two dashes. -/
def ofRequest (verbosity : Nat) (options : CheckOptions) : CheckLine where
  before := []
  pieces := flagsFor verbosity ++ options.projectRoot.toList.map (.attached .projectRoot) ++
    options.output.toList.map (.attached .output) ++ if options.noColor then [.noColor] else []
  rest := some options.paths

theorem values_ofRequest (verbosity : Nat) (options : CheckOptions) (setting : Setting) :
    Piece.values setting (ofRequest verbosity options).pieces =
      (match setting with
        | .projectRoot => options.projectRoot
        | .output => options.output).toList := by
  obtain ⟨paths, projectRoot, output, noColor⟩ := options
  cases setting <;> cases verbosity <;> cases projectRoot <;> cases output <;> cases noColor <;> rfl

theorem once_ofRequest (verbosity : Nat) (options : CheckOptions) :
    Piece.Once (ofRequest verbosity options).pieces := by
  constructor
  · intro setting
    rw [values_ofRequest]
    exact Option.length_toList_le
  · obtain ⟨paths, projectRoot, output, noColor⟩ := options
    cases verbosity <;> cases projectRoot <;> cases output <;> cases noColor <;>
      simp [ofRequest, flagsFor, Piece.isNoColor]

theorem options_ofRequest (verbosity : Nat) (options : CheckOptions) :
    (ofRequest verbosity options).options = options := by
  obtain ⟨paths, projectRoot, output, noColor⟩ := options
  cases verbosity <;> cases projectRoot <;> cases output <;> cases noColor <;> rfl

theorem verbosity_ofRequest {verbosity : Nat} (few : verbosity ≤ 255) (options : CheckOptions) :
    (ofRequest verbosity options).verbosity = verbosity := by
  have all : Piece.total (ofRequest verbosity options).pieces = verbosity := by
    obtain ⟨paths, projectRoot, output, noColor⟩ := options
    cases verbosity <;> cases projectRoot <;> cases output <;> cases noColor <;> rfl
  rw [CheckLine.verbosity, all, Nat.min_eq_right few]
  split
  · next none => exact none.symm
  · rfl

end CheckLine

/-- **The grammar of `check` is unambiguous.** An argument list that gives each option once at most is
read as the request that its parts make. Options may change places with each other and with the paths,
as long as the paths keep their order. Every request for a check that a count up to 255 can hold is
written in some way. -/
theorem parse_check (line : CheckLine) (once : Piece.Once line.pieces) :
    parse line.arguments = .ok ⟨line.verbosity, .check line.options⟩ ∧
    (∀ moved : List Piece, moved.Perm line.pieces → Piece.paths moved = Piece.paths line.pieces →
      parse (CheckLine.arguments { line with pieces := moved }) = parse line.arguments) ∧
    ∀ verbosity ≤ 255, ∀ options : CheckOptions, ∃ other : CheckLine, Piece.Once other.pieces ∧
      parse other.arguments = .ok ⟨verbosity, .check options⟩ := by
  refine ⟨line.parse_arguments once, ?_, ?_⟩
  · intro moved h inOrder
    exact line.parse_moved once h inOrder
  · intro verbosity few options
    have written := CheckLine.once_ofRequest verbosity options
    refine ⟨.ofRequest verbosity options, written, ?_⟩
    rw [CheckLine.parse_arguments _ written, CheckLine.verbosity_ofRequest few,
      CheckLine.options_ofRequest]

/-- Flags on both sides of the command, a value of either kind, a single dash, and words behind two
dashes that look like options and commands. -/
theorem parse_check_mixed :
    parse ["-vv", "--verbose", "check", "a", "--output=json", "-", "-v", "--project-root", "p",
        "--no-color", "--", "--output", "check"] =
      .ok ⟨1, .check ⟨["a", "-", "--output", "check"], some "p", some "json", true⟩⟩ ∧
    parse ["-vv", "--verbose", "check", "--no-color", "--output=json", "a", "--project-root", "p", "-",
        "-v", "--", "--output", "check"] =
      .ok ⟨1, .check ⟨["a", "-", "--output", "check"], some "p", some "json", true⟩⟩ := by
  obtain ⟨read, moves, -⟩ := parse_check
    ⟨[.short 1, .long], [.path "a" (by decide), .attached .output "json", .path "-" (by decide),
      .flag (.short 0), .apart .projectRoot "p" (by decide), .noColor], some ["--output", "check"]⟩
    ⟨by intro setting; cases setting <;> decide, by decide⟩
  have moved := moves [.noColor, .attached .output "json", .path "a" (by decide),
    .apart .projectRoot "p" (by decide), .path "-" (by decide), .flag (.short 0)]
    (by decide) (by decide)
  exact ⟨read, moved.trans read⟩

end ManifestLint.CommandLine
