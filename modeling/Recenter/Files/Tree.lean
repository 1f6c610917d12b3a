import Recenter.Files.Path
import Recenter.Text.Quoted
import Recenter.Text.Split

/-! A file system as a value: files, directories and symbolic links below one top, and the current
directory. Paths are followed name by name; a link is replaced by its target, and no path may
cross more than forty of them. Unlike a path, a target keeps its dots and the slash at its end: both
ask for a directory.

There are no permissions: what is there can be looked up, listed, read and written by everyone. Nor
does a file have two names, or anything but a run change it. -/

namespace Recenter.Files

inductive Entry
  | file (octets : List UInt8)
  | link (target : String)
  | dir (entries : List (String × Entry))
deriving Repr

inductive AccessError
  | missing
  | notDirectory
  | isDirectory
  | tooManyLinks
  | nameTooLong
  | nul
deriving DecidableEq, Repr

def AccessError.message (e : AccessError) (path : Path) : String :=
  let at' := ": " ++ String.ofList (Text.quoted path.toString.toList)
  match e with
  | missing => "[Errno 2] No such file or directory" ++ at'
  | notDirectory => "[Errno 20] Not a directory" ++ at'
  | isDirectory => "[Errno 21] Is a directory" ++ at'
  | tooManyLinks => "[Errno 40] Too many levels of symbolic links" ++ at'
  | nameTooLong => "[Errno 36] File name too long" ++ at'
  | nul => "embedded null byte"

namespace Entry

def find? : List String → Entry → Option Entry
  | [], e => some e
  | name :: rest, dir entries =>
    match entries.lookup name with
    | some e => find? rest e
    | none => none
  | _ :: _, _ => none

def put (name : String) (e : Entry) : List (String × Entry) → List (String × Entry)
  | [] => [(name, e)]
  | (other, old) :: rest =>
    if other = name then (name, e) :: rest else (other, old) :: put name e rest

/-- Puts an entry where names lead to, in directories that exist. -/
def replace (new : Entry) : List String → Entry → Entry
  | [], _ => new
  | name :: rest, dir entries =>
    match entries.lookup name with
    | some e => dir (put name (replace new rest e) entries)
    | none => if rest.isEmpty then dir (put name new entries) else dir entries
  | _ :: _, e => e

end Entry

/-- Where a path leads: to an entry that is no link, or to a free name in a directory. Names count
from the top on. -/
inductive Place
  | found (names : List String) (entry : Entry)
  | vacant (names : List String)

def maxLinks : Nat := 40

def maxNameSize : Nat := 255

def maxPathSize : Nat := 4095

/-- Whether a name stands for the directory that it is looked up in: a dot does, and so does the
nothing between two slashes or behind the last one. -/
def staysPut (name : String) : Bool := name.isEmpty || name == "."

/-- Follows the names in `todo` from the directory `here` on. -/
def follow (top : Entry) (creating : Bool) (links : Nat) (here todo : List String) :
    Except AccessError Place :=
  match todo with
  | [] =>
    match top.find? here with
    | some e => .ok (.found here e)
    | none => .error .missing
  | name :: rest =>
    match top.find? here with
    | some (.dir entries) =>
      if staysPut name then follow top creating links here rest
      else if name = ".." then follow top creating links here.dropLast rest
      -- A file that may be created must not have a slash behind its name.
      else if creating && !rest.isEmpty && rest.all String.isEmpty then .error .isDirectory
      else if maxNameSize < name.utf8ByteSize then .error .nameTooLong
      else
        match entries.lookup name with
        | none => if rest.isEmpty then .ok (.vacant (here ++ [name])) else .error .missing
        | some (.link target) =>
          match links with
          | 0 => .error .tooManyLinks
          | links + 1 =>
            let names := (Text.splitAt '/' target.toList).map String.ofList
            let start := if names.head? == some "" then [] else here
            follow top creating links start (names ++ rest)
        | some _ => follow top creating links (here ++ [name]) rest
    | some _ => .error .notDirectory
    | none => .error .missing
termination_by (links, todo.length)

/-- A file system, and the names of the current directory from the top on. -/
structure FileTree where
  top : Entry
  current : List String
deriving Repr

namespace FileTree

def place (t : FileTree) (p : Path) (creating : Bool) : Except AccessError Place :=
  if p.hasNul then .error .nul
  else if maxPathSize < p.toString.utf8ByteSize then .error .nameTooLong
  else follow t.top creating maxLinks (if p.slashes = 0 then t.current else []) p.names

def entry (t : FileTree) (p : Path) : Except AccessError Entry := do
  match ← t.place p false with
  | .found _ e => .ok e
  | .vacant _ => .error .missing

/-- The entry that a path leads to, or nothing if it leads nowhere. Only too long a name leaves
that open. -/
def entry? (t : FileTree) (p : Path) : Except AccessError (Option Entry) :=
  match t.entry p with
  | .ok e => .ok (some e)
  | .error .nameTooLong => .error .nameTooLong
  | .error _ => .ok none

def isDir (t : FileTree) (p : Path) : Except AccessError Bool := do
  match ← t.entry? p with
  | some (.dir _) => .ok true
  | _ => .ok false

def file? (t : FileTree) (p : Path) : Except AccessError (Option (List UInt8)) := do
  match ← t.entry? p with
  | some (.file octets) => .ok (some octets)
  | _ => .ok none

def entries (t : FileTree) (p : Path) : Except AccessError (List (String × Entry)) := do
  match ← t.entry p with
  | .dir entries => .ok entries
  | _ => .error .notDirectory

def read (t : FileTree) (p : Path) : Except AccessError (List UInt8) := do
  match ← t.entry p with
  | .file octets => .ok octets
  | _ => .error .isDirectory

/-- Makes these the octets of a file; a file that is not there is created. -/
def write (t : FileTree) (p : Path) (octets : List UInt8) : Except AccessError FileTree := do
  match ← t.place p true with
  | .found _ (.dir _) => .error .isDirectory
  | .found names _ | .vacant names =>
    .ok { t with top := Entry.replace (.file octets) names t.top }

end FileTree

end Recenter.Files
