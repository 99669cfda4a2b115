import OraDesktop.Lib.Delimited
import OraDesktop.Text
import Mathlib.Data.List.Forall2

/-!
# The worktrees Git lists

`git worktree list --porcelain` prints a block of lines for each worktree, ended by an empty line.
The parser trims every line before it looks at it, so a path or branch that ends with white space
comes back shorter. Paths are those of Unix: two texts are the same path if their components agree,
so the repository root is recognised under every spelling of it.

## Main results

* `parseWorktreeList_print_iff` — when parsing gives back the worktrees
-/

namespace OraDesktop.Git

open List Delimited Text

def lines (text : List Char) : List (List Char) :=
  let pieces := text.splitOn '\n'
  pieces.dropLast.map (fun line => if line.getLast? = some '\r' then line.dropLast else line) ++
    (pieces.getLast?.filter (· ≠ [])).toList

def trimEnd (text : List Char) : List Char := text.rdropWhile isWhitespace

def trim (text : List Char) : List Char := (trimEnd text).dropWhile isWhitespace

theorem trimEnd_append (word text : List Char) (h : word.getLast?.any (!isWhitespace ·)) :
    trimEnd (word ++ text) = word ++ trimEnd text := by
  obtain ⟨c, hc, hspace⟩ := (Option.any_eq_true _ _).mp h
  obtain ⟨start, rfl⟩ := getLast?_eq_some_iff.mp hc
  exact rdropWhile_append_of_last (by simpa using hspace)

theorem trim_append {word : List Char} (hfirst : word.head?.any (!isWhitespace ·))
    (hlast : word.getLast?.any (!isWhitespace ·)) (text : List Char) :
    trim (word ++ text) = word ++ trimEnd text := by
  obtain ⟨c, hc, hspace⟩ := (Option.any_eq_true _ _).mp hfirst
  obtain ⟨rest, rfl⟩ := head?_eq_some_iff.mp hc
  rw [trim, trimEnd_append _ _ hlast, cons_append, dropWhile_cons_of_neg (by simpa using hspace)]

namespace Path

/-- The components of a Unix path after its root. Repeated slashes and `.` do not count, except for
a `.` that a relative path begins with. -/
def components (path : List Char) : List (List Char) :=
  let parts := path.splitOn '/'
  let kept := parts.filter fun part => part ≠ [] ∧ part ≠ ['.']
  if parts.head? = some ['.'] then ['.'] :: kept else kept

def isAbsolute (path : List Char) : Bool := path.head? == some '/'

/-- Equality of paths: `/a/` and `/a` are the same. -/
def same (path other : List Char) : Bool :=
  isAbsolute path == isAbsolute other && components path == components other

def fileName (path : List Char) : Option (List Char) :=
  (components path).getLast?.filter fun name => name ≠ ['.'] ∧ name ≠ ['.', '.']

def join (path other : List Char) : List Char :=
  if isAbsolute other then other
  else if path = [] ∨ path.getLast? = some '/' then path ++ other else path ++ '/' :: other

end Path

inductive WorktreeKind where
  | main
  | linked (name : List Char)

structure WorktreeHandle where
  repoRoot : List Char
  worktreeRoot : List Char
  gitDir : List Char
  kind : WorktreeKind
  branchName : Option (List Char)

section

variable (repoRoot : List Char)

def deriveLinkedWorktreeName (worktreeRoot : List Char) : List Char :=
  (Path.fileName worktreeRoot).getD worktreeRoot

def buildWorktreeHandle (worktreeRoot : List Char) (branchName : Option (List Char)) :
    WorktreeHandle where
  repoRoot := repoRoot
  worktreeRoot := worktreeRoot
  gitDir := Path.join worktreeRoot ".git".toList
  kind := if Path.same worktreeRoot repoRoot then .main
    else .linked (deriveLinkedWorktreeName worktreeRoot)
  branchName := branchName

/-- The variables of the loop: what was read, and the block that is being read. -/
structure Listing where
  worktrees : List WorktreeHandle := []
  currentPath : Option (List Char) := none
  currentBranch : Option (List Char) := none

def Listing.push (listing : Listing) : List WorktreeHandle :=
  listing.worktrees ++ (listing.currentPath.map fun worktreeRoot =>
    buildWorktreeHandle repoRoot worktreeRoot listing.currentBranch).toList

/-- The body of the loop. The branch is only taken together with a path. -/
def Listing.readLine (listing : Listing) (line : List Char) : Listing :=
  match (trim line).dropPrefix? "worktree ".toList with
  | some path =>
    { worktrees := listing.push repoRoot
      currentPath := some path
      currentBranch := if listing.currentPath.isSome then none else listing.currentBranch }
  | none =>
    match (trim line).dropPrefix? "branch refs/heads/".toList with
    | some branch => { listing with currentBranch := some branch }
    | none => listing

inductive ParseError where
  | invalidWorktreeList

def parseWorktreeList (stdout : List Char) : Except ParseError (List WorktreeHandle) :=
  let worktrees := ((lines stdout).foldl (Listing.readLine repoRoot) {}).push repoRoot
  if worktrees.isEmpty then .error .invalidWorktreeList else .ok worktrees

/-! ### What Git prints -/

/-- What the other lines of a block begin with. -/
inductive Word where
  | head
  | bare
  | detached
  | locked
  | prunable

def Word.text : Word → List Char
  | head => "HEAD".toList
  | bare => "bare".toList
  | detached => "detached".toList
  | locked => "locked".toList
  | prunable => "prunable".toList

/-- A line that is neither a path nor a branch: a word, then perhaps a hash or a reason. -/
structure Attribute where
  word : Word
  rest : List Char

def Attribute.line (a : Attribute) : List Char := a.word.text ++ a.rest

structure Worktree where
  path : List Char
  before : List Attribute
  branch : Option (List Char)
  after : List Attribute

def Worktree.lines (worktree : Worktree) : List (List Char) :=
  ("worktree ".toList ++ worktree.path) :: (worktree.before.map Attribute.line ++
    ((worktree.branch.map ("branch refs/heads/".toList ++ ·)).toList ++
      (worktree.after.map Attribute.line ++ [[]])))

/-- Lines are lines, and an absolute path begins with a slash or a letter. -/
abbrev Worktree.Listed (worktree : Worktree) : Prop :=
  (∀ line ∈ worktree.lines, '\n' ∉ line) ∧ worktree.path.head?.any (!isWhitespace ·)

def printWorktrees (worktrees : List Worktree) : List Char :=
  delimit '\n' (worktrees.flatMap Worktree.lines)

/-! ### Reading a line -/

section

variable {repoRoot} {listing : Listing}

theorem readLine_attribute (a : Attribute) : listing.readLine repoRoot a.line = listing := by
  rw [Attribute.line, Listing.readLine, trim_append]
  · cases a.word <;> rfl
  · cases a.word <;> decide
  · cases a.word <;> decide

theorem foldl_attributes (attributes : List Attribute) :
    (attributes.map Attribute.line).foldl (Listing.readLine repoRoot) listing = listing := by
  rw [foldl_map]
  exact foldl_fixed' readLine_attribute attributes

theorem readLine_worktree {path : List Char} (h : path.head?.any (!isWhitespace ·)) :
    listing.readLine repoRoot ("worktree ".toList ++ path) =
      { worktrees := listing.push repoRoot
        currentPath := some (trimEnd path)
        currentBranch := if listing.currentPath.isSome then none else listing.currentBranch } := by
  obtain ⟨c, hc, hspace⟩ := (Option.any_eq_true _ _).mp h
  obtain ⟨rest, rfl⟩ := head?_eq_some_iff.mp hc
  have hend : trimEnd (c :: rest) = c :: trimEnd rest := trimEnd_append [c] rest h
  have htrim : trim ("worktree ".toList ++ c :: rest) =
      "worktree ".toList ++ trimEnd (c :: rest) := by
    rw [hend, append_cons, trim_append rfl (by simpa using hspace), ← append_cons]
  rw [Listing.readLine, htrim, dropPrefix?_append_of_beq _ (by simp)]

theorem readLine_branch (branch : List Char) :
    listing.readLine repoRoot ("branch refs/heads/".toList ++ branch) =
      { listing with currentBranch := some (trimEnd branch) } := by
  have hother : ("branch refs/heads/".toList ++ trimEnd branch).dropPrefix? "worktree ".toList =
      none := rfl
  rw [Listing.readLine, trim_append rfl rfl, hother, dropPrefix?_append_of_beq _ (by simp)]

/-- After a block the worktree is being read. A branch that was read belongs to a path. -/
theorem foldl_lines {worktree : Worktree} (h : worktree.Listed)
    (hpaired : listing.currentPath = none → listing.currentBranch = none) :
    worktree.lines.foldl (Listing.readLine repoRoot) listing =
      ⟨listing.push repoRoot, trimEnd worktree.path, worktree.branch.map trimEnd⟩ := by
  have hnone : (if listing.currentPath.isSome then none else listing.currentBranch) = none := by
    cases hcurrent : listing.currentPath with
    | none => exact hpaired hcurrent
    | some path => rfl
  rw [Worktree.lines, foldl_cons, foldl_append, foldl_append, foldl_append, foldl_attributes,
    foldl_attributes, readLine_worktree h.2, hnone]
  cases worktree.branch with
  | none => rfl
  | some branch => exact readLine_branch branch

theorem push_foldl {worktrees : List Worktree} (h : ∀ worktree ∈ worktrees, worktree.Listed)
    (hpaired : listing.currentPath = none → listing.currentBranch = none) :
    ((worktrees.flatMap Worktree.lines).foldl (Listing.readLine repoRoot) listing).push repoRoot =
      listing.push repoRoot ++ worktrees.map fun worktree =>
        buildWorktreeHandle repoRoot (trimEnd worktree.path) (worktree.branch.map trimEnd) := by
  induction worktrees generalizing listing with
  | nil => simp
  | cons worktree worktrees ih =>
    obtain ⟨hworktree, hworktrees⟩ := forall_mem_cons.mp h
    rw [flatMap_cons, foldl_append, foldl_lines hworktree hpaired, ih hworktrees (by simp),
      map_cons, append_cons]
    rfl

theorem readLine_ite (line : List Char) :
    listing.readLine repoRoot (if line.getLast? = some '\r' then line.dropLast else line) =
      listing.readLine repoRoot line := by
  split
  · rename_i h
    obtain ⟨init, rfl⟩ := getLast?_eq_some_iff.mp h
    have htrim : trim (init ++ ['\r']) = trim init := by
      rw [trim, trimEnd, rdropWhile_concat_pos _ _ _ rfl]
      rfl
    rw [dropLast_concat, Listing.readLine, Listing.readLine, htrim]
  · rfl

end

/-- What a caller sees of a worktree. Whether it is the main one is decided on paths, not on their
texts. -/
structure Shows (handle : WorktreeHandle) (worktree : Worktree) : Prop where
  path : handle.worktreeRoot = worktree.path
  branch : handle.branchName = worktree.branch
  main : handle.kind = .main ↔ Path.same worktree.path repoRoot = true

section

variable {worktrees : List Worktree} (h : ∀ worktree ∈ worktrees, worktree.Listed)
  (hne : worktrees ≠ [])

include h hne

/-- What parsing gives: paths and branches without the white space at their ends. -/
theorem parseWorktreeList_print :
    parseWorktreeList repoRoot (printWorktrees worktrees) =
      .ok (worktrees.map fun worktree =>
        buildWorktreeHandle repoRoot (trimEnd worktree.path) (worktree.branch.map trimEnd)) := by
  have hsplit : (printWorktrees worktrees).splitOn '\n' =
      worktrees.flatMap Worktree.lines ++ [[]] := by
    rw [printWorktrees, ← append_nil (delimit _ _)]
    exact splitOnP_delimit (forall_mem_flatMap.mpr fun worktree hworktree =>
      (h worktree hworktree).1) []
  have hpush : ((worktrees.flatMap Worktree.lines).foldl (Listing.readLine repoRoot) {}).push
      repoRoot = _ := push_foldl h fun _ => rfl
  have hlast : (some ([] : List Char)).filter (· ≠ []) = none := rfl
  simp only [parseWorktreeList, lines, hsplit, getLast?_concat, hlast, Option.toList_none,
    append_nil, dropLast_concat, foldl_map, readLine_ite, hpush]
  rw [if_neg (by simpa [Listing.push] using hne)]
  rfl

/-- Parsing gives back the worktrees if and only if no path or branch ends with white space. -/
theorem parseWorktreeList_print_iff :
    (∃ handles, parseWorktreeList repoRoot (printWorktrees worktrees) = .ok handles ∧
        List.Forall₂ (Shows repoRoot) handles worktrees) ↔
      ∀ worktree ∈ worktrees, trimEnd worktree.path = worktree.path ∧
        worktree.branch.map trimEnd = worktree.branch := by
  simp only [parseWorktreeList_print repoRoot h hne, Except.ok.injEq, exists_eq_left',
    forall₂_map_left_iff, forall₂_same]
  refine forall₂_congr fun worktree _ => ⟨fun hshows => ⟨hshows.path, hshows.branch⟩, ?_⟩
  rintro ⟨hpath, hbranch⟩
  refine ⟨hpath, hbranch, ?_⟩
  rw [buildWorktreeHandle, hpath]
  split <;> simp [*]

end

end

/-- The repository and a locked checkout of a commit. -/
def lockedAt (path : String) : List Worktree :=
  [⟨"/r".toList, [⟨.head, " 0".toList⟩], some "main".toList, []⟩,
    ⟨path.toList, [⟨.head, " 0".toList⟩, ⟨.detached, []⟩], none, [⟨.locked, []⟩]⟩]

theorem parseWorktreeList_inner_space :
    ∃ handles, parseWorktreeList "/r/".toList (printWorktrees (lockedAt "/a b")) = .ok handles ∧
      List.Forall₂ (Shows "/r/".toList) handles (lockedAt "/a b") :=
  (parseWorktreeList_print_iff _ (by decide) (by decide)).mpr (by decide)

theorem parseWorktreeList_final_space :
    (parseWorktreeList "/r".toList (printWorktrees (lockedAt "/a "))).toOption.map
      (·.map (·.worktreeRoot)) = some ["/r".toList, "/a".toList] := by
  decide +kernel

end OraDesktop.Git
