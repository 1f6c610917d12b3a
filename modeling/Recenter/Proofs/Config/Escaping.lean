import Recenter.Proofs.Codec.RoundTrip
import Recenter.Proofs.Config.Told
import Recenter.Proofs.Files.Access
import Recenter.Run.Failure

/-! Configuration files that are refused, and yet not as configurations. Which these are is told by
`load_escapes_iff`: none of JSON unless a run of too many digits stands in it, or NUL in the name
of its encoding. -/

namespace Recenter.Config

open Files Run

variable {d : Document} {path : Path} {text : List Char} {files : FileTree} {octets : List UInt8}

/-- Why a text is refused, and yet not as a configuration. -/
inductive Escapes (path : Path) (text : List Char) : Prop
  /-- An integer in JSON has too many digits; they stand in the text. -/
  | digits {n : Nat} (hj : isJsonPath path = true) (hr : Json.read text = .error (.oversized n))
    (hd : Json.HasDigits text n)
  /-- A part of YAML has the form of a value that does not exist. -/
  | value {fault : Yaml.ValueFault} (hy : isJsonPath path = false)
    (hr : Yaml.read text = .error (.value fault))
  /-- A violation in YAML shows an integer of too many digits. -/
  | untold {d : Document} {v : Violation} (hy : isJsonPath path = false)
    (hr : Yaml.read text = .ok d) (hm : v ∈ violations (orEmpty d)) (hu : v.isUntold = true)
  /-- The name of the encoding holds NUL. -/
  | nul {d : Document} (hr : parse path text = .ok d) (hv : violations (orEmpty d) = [])
    (hn : '\x00' ∈ (Settings.ofDocument (orEmpty d) none).encoding.toList)

/-- The result is an error, and none of the file as a configuration. -/
def Escaped {α : Type} (result : Except LoadError α) : Prop :=
  ∃ e, result = .error e ∧ e.isConfigError = false

theorem escaped_error_iff {α : Type} {e : LoadError} :
    Escaped (.error e : Except LoadError α) ↔ e.isConfigError = false := by
  simp [Escaped]

theorem not_escaped_ok {α : Type} {x : α} : ¬ Escaped (.ok x : Except LoadError α) := by
  simp [Escaped]

theorem escaped_bind_iff {α β : Type} {x : Except LoadError α} {k : α → Except LoadError β} :
    Escaped (x >>= k) ↔ Escaped x ∨ ∃ a, x = .ok a ∧ Escaped (k a) := by
  cases x with
  | error e => simp [bind, Except.bind, escaped_error_iff]
  | ok a => simp [bind, Except.bind, not_escaped_ok]

/-! ## Documents -/

theorem ofName_eq_nul_iff {name : String} :
    Codec.Encoding.ofName name = .error .nul ↔ '\x00' ∈ name.toList := by
  unfold Codec.Encoding.ofName
  split
  · next h => simpa using h
  · next h =>
    refine iff_of_false ?_ (by simpa using h)
    simp only
    split <;> nofun

theorem escaped_ofDocument_iff :
    Escaped (ofDocument path d) ↔ (∃ v ∈ violations (orEmpty d), v.isUntold = true) ∨
      violations (orEmpty d) = [] ∧
        '\x00' ∈ (Settings.ofDocument (orEmpty d) none).encoding.toList := by
  unfold ofDocument
  simp only
  split
  · next h => simpa [escaped_error_iff, LoadError.isConfigError] using .inl (List.any_eq_true.1 h)
  next huntold =>
  have htold : ¬ ∃ v ∈ violations (orEmpty d), v.isUntold = true := by
    simpa [List.any_eq_true] using huntold
  split
  · next h => simp_all [escaped_error_iff, LoadError.isConfigError]
  next hvalid =>
  have hnone : violations (orEmpty d) = [] := by simpa using hvalid
  have hname : (Settings.ofDocument (orEmpty d) (some path.toString)).encoding =
      (Settings.ofDocument (orEmpty d) none).encoding := rfl
  rw [hname, ← ofName_eq_nul_iff]
  cases Codec.Encoding.ofName (Settings.ofDocument (orEmpty d) none).encoding with
  | ok encoding => simp [htold, not_escaped_ok]
  | error e => cases e <;> simp [hnone, escaped_error_iff, LoadError.isConfigError]

/-! ## Texts -/

theorem escaped_parse_iff :
    Escaped (parse path text) ↔
      (isJsonPath path = true ∧ ∃ n, Json.read text = .error (.oversized n)) ∨
      (isJsonPath path = false ∧ ∃ fault, Yaml.read text = .error (.value fault)) := by
  unfold parse
  split
  · next hj =>
    cases Json.read text with
    | ok json => simp [hj, not_escaped_ok]
    | error e => cases e <;> simp [hj, escaped_error_iff, LoadError.isConfigError]
  · next hj =>
    cases Yaml.read text with
    | ok d => simp [hj, not_escaped_ok]
    | error fault => cases fault <;> simp [hj, escaped_error_iff, LoadError.isConfigError]

theorem yaml_of_isUntold {v : Violation} (hp : parse path text = .ok d)
    (hm : v ∈ violations (orEmpty d)) (hu : v.isUntold = true) :
    isJsonPath path = false ∧ Yaml.read text = .ok d := by
  unfold parse at hp
  split at hp
  · cases hr : Json.read text with
    | ok json =>
      rw [hr] at hp
      cases hp
      rw [allTold_violations (Json.isWritable_of_read hr) v hm] at hu
      cases hu
    | error e => cases e <;> simp [hr] at hp
  · next hy =>
    cases hr : Yaml.read text with
    | ok d' =>
      rw [hr] at hp
      cases hp
      exact ⟨by simpa using hy, rfl⟩
    | error fault => simp [hr] at hp

theorem escaped_text_iff :
    Escaped (do ofDocument path (← parse path text)) ↔ Escapes path text := by
  rw [escaped_bind_iff, escaped_parse_iff]
  constructor
  · rintro ((⟨hj, n, hr⟩ | ⟨hy, fault, hr⟩) | ⟨d, hp, h⟩)
    · exact .digits hj hr (Json.hasDigits_of_read hr)
    · exact .value hy hr
    · rcases escaped_ofDocument_iff.1 h with ⟨v, hm, hu⟩ | ⟨hv, hn⟩
      · obtain ⟨hy, hr⟩ := yaml_of_isUntold hp hm hu
        exact .untold hy hr hm hu
      · exact .nul hp hv hn
  · intro h
    cases h with
    | digits hj hr => exact .inl (.inl ⟨hj, _, hr⟩)
    | value hy hr => exact .inl (.inr ⟨hy, _, hr⟩)
    | @untold d v hy hr hm hu =>
      have hp : parse path text = .ok d := by simp [parse, hy, hr]
      exact .inr ⟨d, hp, escaped_ofDocument_iff.2 (.inl ⟨v, hm, hu⟩)⟩
    | nul hr hv hn => exact .inr ⟨_, hr, escaped_ofDocument_iff.2 (.inr ⟨hv, hn⟩)⟩

/-! ## Files -/

theorem escaped_ofOctets_iff :
    Escaped (ofOctets path octets) ↔
      ∃ text, Codec.Utf8.decode octets = .ok text ∧ Escapes path (Text.unifyEol text) := by
  unfold ofOctets
  cases Codec.Utf8.decode octets with
  | error e => simp [escaped_error_iff, LoadError.isConfigError]
  | ok text => simpa using escaped_text_iff

/-- Loading escapes where the path cannot be looked up, or where the text of the file does. -/
theorem escaped_load_iff {path? : Option Path} :
    Escaped (load files path?) ↔ ∃ path, path? = some path ∧
      (files.entry path = .error .nameTooLong ∨ ∃ octets text, files.read path = .ok octets ∧
        Codec.Utf8.decode octets = .ok text ∧ Escapes path (Text.unifyEol text)) := by
  cases path? with
  | none => simp [load, not_escaped_ok]
  | some path =>
    simp only [load, Option.some.injEq, exists_eq_left']
    rcases files.file?_cases path with ⟨octets, hf, hr⟩ | ⟨hf, hr, hn⟩ | ⟨hf, hr, hn⟩
    · have hn : files.entry path ≠ .error .nameTooLong := by
        intro hn
        rw [FileTree.read, hn] at hr
        cases hr
      simp [hf, hr, hn, escaped_ofOctets_iff]
    · refine iff_of_false (by simp [hf, escaped_error_iff, LoadError.isConfigError]) ?_
      rintro (hlong | ⟨octets, text, hread, -⟩)
      · exact hn hlong
      · exact hr ⟨octets, hread⟩
    · simp [hf, hn, escaped_error_iff, LoadError.isConfigError]

theorem escaped_iff_report {α : Type} {result : Except LoadError α} :
    Escaped result ↔ ∃ e, result = .error e ∧
      (Failure.config e).report? ≠ some (3, "config_error") := by
  simp [Escaped, Failure.report?]

/-- Loading a configuration gives settings or an error that is reported as one of the configuration,
with exactly these exceptions: its path cannot be looked up, or its file can be read as UTF-8 and
then holds an integer in JSON of too many digits, a part in YAML that has the form of a value that
does not exist, a violation in YAML that shows an integer of too many digits, or nothing wrong but
NUL in the name of the encoding. -/
theorem load_escapes_iff (files : FileTree) (path? : Option Path) :
    (∃ e, load files path? = .error e ∧
        (Failure.config e).report? ≠ some (3, "config_error")) ↔
      ∃ path, path? = some path ∧
        (files.entry path = .error .nameTooLong ∨ ∃ octets text, files.read path = .ok octets ∧
          Codec.Utf8.decode octets = .ok text ∧ Escapes path (Text.unifyEol text)) :=
  escaped_iff_report.symm.trans escaped_load_iff

/-- A file that gives a day in a thirteenth month. -/
def datedConfig : FileTree :=
  ⟨.dir [("c.yaml", .file (Codec.Utf8.encode "encoding: 2001-13-45\n".toList))], []⟩

theorem load_escapes_datedConfig :
    ∃ e, load datedConfig (some ⟨0, ["c.yaml"]⟩) = .error e ∧
      (Failure.config e).report? ≠ some (3, "config_error") := by
  have hread : datedConfig.read ⟨0, ["c.yaml"]⟩ =
      .ok (Codec.Utf8.encode "encoding: 2001-13-45\n".toList) :=
    FileTree.read_eq_ok_iff.2
      ⟨_, FileTree.place_name rfl (by decide) (by decide) (by decide) rfl nofun⟩
  have htext : Codec.Utf8.decode (Codec.Utf8.encode "encoding: 2001-13-45\n".toList) =
      .ok "encoding: 2001-13-45\n".toList := Codec.Utf8.decode_encode _
  have hyaml : (Yaml.read (Text.unifyEol "encoding: 2001-13-45\n".toList)).map (fun _ => ()) =
      .error (.value (.calendar .month)) := by decide +kernel
  refine escaped_iff_report.1 (escaped_load_iff.2 ⟨_, rfl, .inr ⟨_, _, hread, htext, ?_⟩⟩)
  cases hr : Yaml.read (Text.unifyEol "encoding: 2001-13-45\n".toList) with
  | error fault =>
    rw [hr] at hyaml
    cases hyaml
    exact .value (by decide) hr
  | ok value =>
    rw [hr] at hyaml
    cases hyaml

end Recenter.Config
