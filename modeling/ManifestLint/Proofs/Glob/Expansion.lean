import ManifestLint.Glob.Expand
import ManifestLint.Proofs.FileTree.Names
import ManifestLint.Proofs.Paths.Components

/-!
# Where an expansion leads

Segments are followed from a path by going on from it, name by name. `Visits` are the paths that are
looked at on the way, found or not; what is found is among them (`visits_of_mem_expandSegments`). So
what an absolute path keeps when it goes on by a name holds of all that a pattern stands for
(`Visits.keeps`), and how long such paths get hangs on how many segments there are
(`Visits.utf8ByteSize_le`).
-/

namespace ManifestLint.Glob

/-- The paths that are looked at while some segments are followed from a path. -/
inductive Visits (workspace : Workspace) : List Segment → Path → Path → Prop
  | here (segments : List Segment) (path : Path) : Visits workspace segments path path
  | name {text : List Char} {rest : List Segment} {path visited : Path}
      (later : Visits workspace rest (below path (String.ofList text)) visited) :
      Visits workspace (.name text :: rest) path visited
  | dots {tokens : List Token} {rest : List Segment} {path visited : Path} {name : String}
      (mem : name ∈ dotNames tokens) (later : Visits workspace rest (path.entry name) visited) :
      Visits workspace (.wild tokens :: rest) path visited
  | wild {tokens : List Token} {rest : List Segment} {path visited : Path} {entry : String × FileTree}
      (mem : entry ∈ workspace.entriesAt path)
      (accepted : matchesTokens tokens entry.1.toList = true)
      (later : Visits workspace rest (below path entry.1) visited) :
      Visits workspace (.wild tokens :: rest) path visited
  | depth {path : Path} {next : Path × String × FileTree} (mem : next ∈ subtree workspace path) :
      Visits workspace [.anyDepth] path next.1
  | deep {segment : Segment} {rest : List Segment} {path visited : Path}
      {next : Path × String × FileTree} (mem : next ∈ subtree workspace path)
      (accepted : segment.accepts next.2.1 = true) (later : Visits workspace rest next.1 visited) :
      Visits workspace (.anyDepth :: segment :: rest) path visited

theorem visits_of_mem_expandSegments {workspace : Workspace} {directoriesOnly : Bool}
    {segments : List Segment} {path found : Path}
    (mem : found ∈ expandSegments workspace directoriesOnly segments path) :
    Visits workspace segments path found := by
  induction segments, path using expandSegments.induct workspace directoriesOnly with
  | case1 path outside => simp [expandSegments, outside] at mem
  | case2 path inside =>
    rw [expandSegments, if_neg inside, List.mem_singleton] at mem
    rw [mem]
    exact .here [] path
  | case3 text rest path name next there held ih =>
    rw [expandSegments, if_pos held] at mem
    exact .name (ih mem)
  | case4 text rest path name next there missing =>
    rw [expandSegments, if_neg missing] at mem
    cases mem
  | case5 tokens rest path inside ihDots ihNames =>
    rw [expandSegments, if_pos inside] at mem
    obtain mem | mem := List.mem_append.1 mem
    · obtain ⟨name, dotted, mem⟩ := List.mem_flatMap.1 mem
      exact .dots dotted (ihDots name mem)
    · obtain ⟨entry, listed, mem⟩ := List.mem_flatMap.1 mem
      dsimp only at mem
      split at mem
      · next accepted => exact .wild listed accepted (ihNames entry.1 mem)
      · cases mem
  | case6 tokens rest path outside =>
    rw [expandSegments, if_neg outside] at mem
    cases mem
  | case7 path =>
    rw [expandSegments] at mem
    obtain ⟨next, kept, rfl⟩ := List.mem_map.1 mem
    exact .depth (List.mem_filter.1 kept).1
  | case8 segment rest path ih =>
    rw [expandSegments] at mem
    obtain ⟨next, below, mem⟩ := List.mem_flatMap.1 mem
    dsimp only at mem
    split at mem
    · next accepted => exact .deep below accepted (ih next.1 mem)
    · cases mem

/-- Wildcards stand for a directory itself or for the one above it if they match its name. -/
theorem of_mem_dotNames {tokens : List Token} {name : String} (h : name ∈ dotNames tokens) :
    (name = "." ∨ name = "..") ∧ matchesTokens tokens name.toList = true := by
  unfold dotNames at h
  split at h
  · obtain ⟨mem, accepted⟩ := List.mem_filter.1 h
    exact ⟨by simpa [or_comm] using mem, accepted⟩
  · cases h

/-- The working directory is the only path that is left out of those below it. -/
theorem below_of_isAbsolute {path : Path} (h : path.isAbsolute = true) (name : String) :
    below path name = path.entry name := by
  obtain ⟨segments, -, slashless, rfl⟩ := Path.exists_eq_absolute h
  refine if_neg ?_
  rw [Path.components_absolute slashless]
  simp

section

variable {N : String → Prop} {P : Path → Prop} (absolute : ∀ path, P path → path.isAbsolute = true)
  (goesOn : ∀ path name, P path → N name → P (path.entry name))
include absolute goesOn

theorem forall_mem_descendants {tree : FileTree} (named : tree.AllNames N) {path : Path}
    (start : P path) : ∀ found ∈ descendants path tree, P found.1 := by
  induction named generalizing path with
  | file content => simp [descendants]
  | @directory entries names trees ih =>
    rw [descendants]
    induction entries with
    | nil => simp [descendantEntries]
    | cons entry rest rest_ih =>
      have next := goesOn path entry.1 start (names entry List.mem_cons_self)
      rw [← below_of_isAbsolute (absolute path start)] at next
      rw [descendantEntries]
      intro found mem
      obtain mem | mem := List.mem_append.1 mem
      · obtain rfl | mem := List.mem_cons.1 mem
        · exact next
        · exact ih entry List.mem_cons_self next found mem
      · exact rest_ih (fun other mem => names other (List.mem_cons_of_mem _ mem))
          (fun other mem => trees other (List.mem_cons_of_mem _ mem))
          (fun other mem => ih other (List.mem_cons_of_mem _ mem)) found mem

variable {workspace : Workspace} (named : workspace.tree.AllNames N)
include named

theorem forall_mem_subtree {path : Path} (start : P path) :
    ∀ found ∈ subtree workspace path, P found.1 := by
  unfold subtree
  split
  · next tree located =>
    exact forall_mem_descendants absolute goesOn (workspace.allNames_of_locate named located) start
  · simp

/-- What an absolute path keeps when it goes on by a name is kept by all that is visited from it. -/
theorem Visits.keeps (dots : N "." ∧ N "..") {segments : List Segment}
    (literal : ∀ text, .name text ∈ segments → N (String.ofList text)) {path visited : Path}
    (start : P path) (visits : Visits workspace segments path visited) : P visited := by
  induction visits with
  | here => exact start
  | @name text rest path visited later ih =>
    refine ih (fun other mem => literal other (List.mem_cons_of_mem _ mem)) ?_
    rw [below_of_isAbsolute (absolute path start)]
    exact goesOn path _ start (literal text List.mem_cons_self)
  | @dots tokens rest path visited name mem later ih =>
    refine ih (fun other mem => literal other (List.mem_cons_of_mem _ mem)) (goesOn path name start ?_)
    obtain ⟨rfl | rfl, -⟩ := of_mem_dotNames mem
    · exact dots.1
    · exact dots.2
  | @wild tokens rest path visited entry mem accepted later ih =>
    refine ih (fun other mem => literal other (List.mem_cons_of_mem _ mem)) ?_
    rw [below_of_isAbsolute (absolute path start)]
    exact goesOn path _ start (workspace.allNames_entriesAt named path entry mem)
  | depth mem => exact forall_mem_subtree absolute goesOn named start _ mem
  | deep mem accepted later ih =>
    exact ih
      (fun other mem => literal other (List.mem_cons_of_mem _ (List.mem_cons_of_mem _ mem)))
      (forall_mem_subtree absolute goesOn named start _ mem)

end

theorem isAbsolute_of_visits {workspace : Workspace} {segments : List Segment} {path visited : Path}
    (start : path.isAbsolute = true) (visits : Visits workspace segments path visited) :
    visited.isAbsolute = true :=
  Visits.keeps (N := fun _ => True) (fun _ h => h) (fun _ name h _ => Path.isAbsolute_entry h name)
    (FileTree.allNames_of_forall (fun _ => trivial) _) ⟨trivial, trivial⟩ (fun _ _ => trivial) start
    visits

/-! ## How long paths get -/

theorem utf8ByteSize_entry_le (path : Path) (name : String) :
    (path.entry name).text.utf8ByteSize ≤ path.text.utf8ByteSize + (name.utf8ByteSize + 1) := by
  unfold Path.entry Path.join
  split
  · dsimp only
    omega
  · split
    · simp only [String.utf8ByteSize_append]
      omega
    · have slash : "/".utf8ByteSize = 1 := by decide
      simp only [String.utf8ByteSize_append, slash]
      omega

theorem utf8ByteSize_below_le (path : Path) (name : String) :
    (below path name).text.utf8ByteSize ≤ path.text.utf8ByteSize + (name.utf8ByteSize + 1) := by
  unfold below
  split
  · dsimp only
    omega
  · exact utf8ByteSize_entry_le path name

/-- A segment that stands for one name, and for none that is too long. -/
def Segment.Shallow : Segment → Prop
  | .name text => (String.ofList text).utf8ByteSize ≤ FileTree.nameLimit
  | .wild _ => True
  | .anyDepth => False

instance : DecidablePred Segment.Shallow
  | .name text => inferInstanceAs (Decidable ((String.ofList text).utf8ByteSize ≤ FileTree.nameLimit))
  | .wild _ => .isTrue trivial
  | .anyDepth => .isFalse id

/-- Where each segment stands for one name, a path gets longer by as many names as there are
segments. -/
theorem Visits.utf8ByteSize_le {workspace : Workspace} (named : workspace.tree.AllNames IsEntryName)
    {segments : List Segment} (shallow : ∀ segment ∈ segments, segment.Shallow) {path visited : Path}
    (visits : Visits workspace segments path visited) :
    visited.text.utf8ByteSize ≤
      path.text.utf8ByteSize + segments.length * (FileTree.nameLimit + 1) := by
  have step {start next name reached : Nat} {rest : List Segment} (one : next ≤ start + (name + 1))
      (bounded : name ≤ FileTree.nameLimit)
      (later : reached ≤ next + rest.length * (FileTree.nameLimit + 1)) :
      reached ≤ start + (rest.length + 1) * (FileTree.nameLimit + 1) := by
    rw [Nat.add_mul]
    omega
  induction visits with
  | here => exact Nat.le_add_right _ _
  | @name text rest path visited later ih =>
    obtain ⟨short, tail⟩ := List.forall_mem_cons.1 shallow
    exact step (utf8ByteSize_below_le path _) short (ih tail)
  | @dots tokens rest path visited name mem later ih =>
    obtain ⟨-, tail⟩ := List.forall_mem_cons.1 shallow
    refine step (utf8ByteSize_entry_le path name) ?_ (ih tail)
    obtain ⟨rfl | rfl, -⟩ := of_mem_dotNames mem <;> decide
  | @wild tokens rest path visited entry mem accepted later ih =>
    obtain ⟨-, tail⟩ := List.forall_mem_cons.1 shallow
    exact step (utf8ByteSize_below_le path entry.1)
      (workspace.allNames_entriesAt named path entry mem).short (ih tail)
  | depth mem => exact (shallow _ List.mem_cons_self).elim
  | deep mem accepted later ih => exact (shallow _ List.mem_cons_self).elim

end ManifestLint.Glob
