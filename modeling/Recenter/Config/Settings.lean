import Recenter.Banner.Section
import Recenter.Datum.Document

/-! What a run is told to do: which files to take, how the borders of region banners begin, the
comment token of section banners, and the encoding of the files. -/

namespace Recenter.Config

/-- `excludeDirs` stands for a set; `source` is the file that the settings come from. -/
structure Settings where
  extensions : List String := [".ts"]
  excludeDirs : List String := ["node_modules", ".git"]
  regionStart : String := String.ofList Banner.Region.Borders.standard.top
  regionEnd : String := String.ofList Banner.Region.Borders.standard.bottom
  lineComment : String := String.ofList Banner.Section.Token.slashes.text
  encoding : String := "utf-8"
  source : Option String := none
deriving DecidableEq, Repr

namespace Settings

def borders (s : Settings) : Banner.Region.Borders :=
  ⟨s.regionStart.toList, s.regionEnd.toList⟩

def texts (d : Document) : Datum → List String
  | .list items => items.filterMap fun item =>
    match d.resolve item with
    | .text s => some s
    | _ => none
  | _ => []

def text : Datum → String
  | .text s => s
  | _ => ""

/-- Settings from the table of a document; what it leaves out keeps its default. -/
def ofDocument (d : Document) (source : Option String) : Settings :=
  let standard : Settings := {}
  { extensions := ((d.get? "extensions").map (texts d)).getD standard.extensions
    excludeDirs := ((d.get? "exclude_dirs").map (texts d)).getD standard.excludeDirs
    regionStart := ((d.get? "region_start").map text).getD standard.regionStart
    regionEnd := ((d.get? "region_end").map text).getD standard.regionEnd
    lineComment := ((d.get? "line_comment").map text).getD standard.lineComment
    encoding := ((d.get? "encoding").map text).getD standard.encoding
    source := source }

/-- Extensions that are given replace those of the settings, directory names come on top. -/
def override (s : Settings) (extensions excludeDirs : List String) : Settings :=
  { s with
    extensions := if extensions.isEmpty then s.extensions else extensions
    excludeDirs := s.excludeDirs ++ excludeDirs }

/-- The excluded names, each once and in ascending order. -/
def sortedExcludeDirs (s : Settings) : List String :=
  s.excludeDirs.eraseDups.mergeSort fun a b => decide (a ≤ b)

def record (extensions excludeDirs : List Json) (regionStart regionEnd lineComment encoding : Json)
    (source : Option String) : Json :=
  .object [
    ("extensions", .array extensions),
    ("exclude_dirs", .array excludeDirs),
    ("region_start", regionStart),
    ("region_end", regionEnd),
    ("line_comment", lineComment),
    ("encoding", encoding),
    ("source", (source.map .text).getD .null)]

def toJson (s : Settings) : Json :=
  record (s.extensions.map .text) (s.sortedExcludeDirs.map .text) (.text s.regionStart)
    (.text s.regionEnd) (.text s.lineComment) (.text s.encoding) s.source

end Settings

end Recenter.Config
