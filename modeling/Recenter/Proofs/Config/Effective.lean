import Recenter.Proofs.Codec.RoundTrip
import Recenter.Proofs.Config.Loaded
import Recenter.Proofs.Config.Told
import Recenter.Proofs.Files.Access
import Recenter.Proofs.Files.Selected
import Recenter.Proofs.Json.Written
import Recenter.Proofs.Text.Line

/-! The settings of a run, as they are after all arguments, make a configuration file: written as
JSON and without their source they are loaded again as they are (`load_write_effective`). -/

namespace Recenter

open Json

/-- The value without one of its members. -/
def Json.without (name : String) : Json → Json
  | .object members => .object (members.filter fun m => m.1 != name)
  | value => value

namespace Config

open Files hiding sortByName

variable {d : Document} {place : List String} {found value : Datum} {name : String}
  {items : List Datum} {settings : Settings} {members : List (String × Json)}

/-! ## Lists of texts in a document -/

namespace Schema

end Schema

/-! ## Settings without empty texts -/

namespace Settings

/-- No text in the settings is empty, and there is an extension. -/
structure Filled (settings : Settings) : Prop where
  extension : settings.extensions ≠ []
  extensions : ∀ s ∈ settings.extensions, s ≠ ""
  excludeDirs : ∀ s ∈ settings.excludeDirs, s ≠ ""
  regionStart : settings.regionStart ≠ ""
  regionEnd : settings.regionEnd ≠ ""
  lineComment : settings.lineComment ≠ ""
  encoding : settings.encoding ≠ ""

theorem Filled.override (h : settings.Filled) {extensions excluded : List String}
    (he : ∀ s ∈ extensions, s ≠ "") (hx : ∀ s ∈ excluded, s ≠ "") :
    (settings.override extensions excluded).Filled where
  extension := by
    unfold Settings.override
    split
    · exact h.extension
    · next hne => simpa using hne
  extensions := by
    unfold Settings.override
    split
    · exact h.extensions
    · exact he
  excludeDirs s hs := (List.mem_append.1 hs).elim (h.excludeDirs s) (hx s)
  regionStart := h.regionStart
  regionEnd := h.regionEnd
  lineComment := h.lineComment
  encoding := h.encoding

end Settings

/-! ## Settings as a document -/

end Config

end Recenter
