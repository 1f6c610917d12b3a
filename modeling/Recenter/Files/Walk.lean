import Recenter.Files.Tree

/-! The source files below a directory: regular files with one of the wanted endings, in all real
directories whose names are not excluded. Links are passed over. In each directory the entries come
in the order of their names. -/

namespace Recenter.Files

structure Selection where
  endings : List String
  excluded : List String
deriving DecidableEq, Repr

namespace Selection

def takesFile (s : Selection) (name : String) : Bool :=
  s.endings.any fun ending => ending.toList.isSuffixOf name.toList

def entersDir (s : Selection) (name : String) : Bool :=
  !s.excluded.contains name

end Selection

def sortByName {α : Type} (entries : List (String × α)) : List (String × α) :=
  entries.mergeSort fun a b => decide (a.1 ≤ b.1)

mutual

/-- The files that an entry at this path adds to a walk. -/
def filesOf (s : Selection) (path : Path) : Entry → List Path
  | .file _ => if s.takesFile path.name then [path] else []
  | .link _ => []
  | .dir entries =>
    if s.entersDir path.name then (sortByName (filesOfAll s path entries)).flatMap Prod.snd
    else []

def filesOfAll (s : Selection) (path : Path) : List (String × Entry) → List (String × List Path)
  | [] => []
  | (name, e) :: rest => (name, filesOf s (path.child name) e) :: filesOfAll s path rest

end

/-- The source files below a directory whose own name does not matter, in a tree that stays as it is
and whose paths are short enough. The root alone is looked up by its path; a run looks at every
entry by its own. -/
def sourceFiles (t : FileTree) (s : Selection) (root : Path) : Except AccessError (List Path) := do
  .ok ((sortByName (filesOfAll s root (← t.entries root))).flatMap Prod.snd)

end Recenter.Files
