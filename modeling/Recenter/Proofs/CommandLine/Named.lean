import Recenter.Proofs.CommandLine.Ends
import Recenter.Proofs.Run.Traced

/-! No file is rewritten in silence. In text the program names a file as soon as it has changed it,
so that nothing is missing however it ends; in JSON it names all of them at once in the end, or none
if it is cut off before (`program_names_changed`). What cuts it off is something in the tree, the
configuration or the arguments. A write that breaks off halfway is none of the ways in which a run
fails, so that nothing is said of it. -/

namespace Recenter.CommandLine

open Recenter.Files Recenter.Run Recenter.Run.Action

variable {i : Invocation} {a : Arguments} {c : Context} {s : Config.Settings} {f : Failure}
  {w w' : World} {files : FileTree}

/-- What is printed names the path: one of its lines is for it, or it is the document of a report in
which it is listed. -/
inductive Names (out : String) (path : Path) : Prop
  | line {paths : List Path} (hout : out = String.join (paths.map updatedLine))
    (hm : path ∈ paths)
  | listed {report : Report} {c : Context} {s : Config.Settings}
    (hout : out = Json.write .compact (document report c s) ++ "\n")
    (hm : path ∈ report.updates.map Update.path)

/-- Each file that is not as it was at the start is named. -/
def NamesChanged (i : Invocation) (o : Outcome) : Prop :=
  ∀ names octets, i.files.top.find? names = some (.file octets) →
    o.files.top.find? names ≠ some (.file octets) →
      ∃ path, i.files.Leads path names ∧ Names o.stdout path

theorem rejected_files (asJson : Bool) (files : FileTree) (f : Failure) :
    (rejected asJson files f).files = files := by
  unfold rejected
  split <;> rfl

theorem rejected_stdout (asJson : Bool) (files : FileTree) (f : Failure) :
    (rejected asJson files f).stdout = "" := by
  unfold rejected
  split <;> rfl

theorem namesChanged_of_files_eq {o : Outcome} (h : o.files = i.files) : NamesChanged i o :=
  fun _ _ hf hne => absurd (h ▸ hf) hne

theorem asJson_of_context
    (hc : (options a i.files).context i.files i.environment i.now = .ok c) :
    c.asJson = asksJson i a := by
  unfold Options.context at hc
  split at hc
  · cases hc
  · cases hc
  · cases hc
    rfl

theorem usable_of_settings {vars : Variables} (h : settings a vars files = .ok s) :
    Config.Usable s := by
  obtain ⟨loaded, endings, excluded, hload, -, -, rfl⟩ := settings_eq_ok_iff.1 h
  exact (Config.usable_of_load hload).override endings excluded

/-! ## What a run has printed -/

/-- Without a document to come, what is printed names all that has been announced. -/
theorem names_of_prints (hp : Prints (some updatedLine) { files := files } w) {path : Path}
    (hm : path ∈ w.announced) : Names w.stdout path := by
  obtain ⟨paths, ha, hout⟩ := hp
  rw [ha] at hm
  rw [hout]
  exact .line String.empty_append hm

/-- A run in text names what it has changed, however it ends. -/
theorem names_of_covers {report : Report} {path : Path}
    (hp : Prints (some updatedLine) { files := files } w)
    (hc : Covers (some updatedLine) { files := files } report w)
    (hm : path ∈ report.updates.map Update.path) : Names w.stdout path := by
  obtain ⟨update, hu, rfl⟩ := List.mem_map.1 hm
  exact names_of_prints hp (hc.announced rfl update hu)

theorem stdout_of_prints_none (hp : Prints none { files := files } w) : w.stdout = "" := by
  obtain ⟨paths, -, hout⟩ := hp
  exact hout

theorem completes_centerAndPrint
    (h : Completes (centerAndPrint c s) w () w') :
    ∃ report w₁, Completes (runCenter c s) w report w₁ ∧ w'.files = w₁.files ∧
      w'.stdout = w₁.stdout ++
        if c.asJson then Json.write .compact (document report c s) ++ "\n" else "" := by
  obtain ⟨report, w₁, hrun, hprint⟩ := completes_bind_iff.1 h
  refine ⟨report, w₁, hrun, ?_⟩
  split at hprint
  · next hj =>
    rw [completes_modify_iff.1 hprint, if_pos hj]
    exact ⟨rfl, rfl⟩
  · next hj =>
    obtain ⟨-, rfl⟩ := completes_pure_iff.1 hprint
    rw [if_neg hj, String.append_empty]
    exact ⟨rfl, rfl⟩

theorem fails_runCenter (h : Fails (centerAndPrint c s) w f w') : Fails (runCenter c s) w f w' := by
  rcases fails_bind_iff.1 h with h | ⟨report, w₁, -, h⟩
  · exact h
  · split at h
    · cases h
    · cases h

theorem not_names_empty (path : Path) : ¬ Names "" path := by
  intro h
  cases h with
  | line hout hm =>
    have hline : updatedLine path = "" := by
      obtain ⟨before, after, rfl⟩ := List.append_of_mem hm
      have hempty := congrArg String.toList hout
      simp only [List.map_append, List.map_cons, String.toList_join] at hempty
      simp_all
    simp [updatedLine] at hline
  | listed hout hm => simp at hout

/-- A run that is to end with a document prints nothing before it. -/
theorem stdout_of_fails (h : Fails (centerAndPrint c s) { files := files } f w)
    (hj : c.asJson = true) : w.stdout = "" := by
  have hprints := confined_runCenter.of_fails (fails_runCenter h)
  rw [hj] at hprints
  exact stdout_of_prints_none hprints

theorem namesChanged_of_covers {report : Report} {reporter : Reporter} {out : Outcome}
    (hc : Covers reporter { files := i.files } report w) (hfiles : out.files = w.files)
    (hnames : ∀ path ∈ report.updates.map Update.path, Names out.stdout path) :
    NamesChanged i out := by
  intro names octets hf hne
  rw [hfiles] at hne
  obtain ⟨path, hm, hl⟩ := hc.traced.leads names octets hf hne
  exact ⟨path, hl, hnames path hm⟩

/-- A run of the program writes to files that are there, and creates and removes none. It names each
one that it has changed, in text however it ends, and in JSON if it ends with an exit code. A
run in JSON that ends without one has printed nothing. -/
theorem program_names_changed (h : Request.ofArguments i.arguments = .ok (.run a)) :
    i.files.SameOutline (program i).files ∧
    (asksJson i a = false ∨ (∃ code, (program i).exit = .ok code) → NamesChanged i (program i)) ∧
    (asksJson i a = true → (∃ f, (program i).exit = .error f) → (program i).stdout = "") := by
  rw [program_eq_perform h]
  have hends := ends_perform i a
  generalize perform i a = o at hends ⊢
  cases hends with
  | rootless hc | unsettled hc hs =>
    rw [rejected_files, rejected_stdout]
    exact ⟨.refl _, fun _ => namesChanged_of_files_eq (rejected_files _ _ _), fun _ _ => rfl⟩
  | completed hc hs h =>
    obtain ⟨report, w₁, hrun, hfiles, hout⟩ := completes_centerAndPrint h
    have hcovers := (ensures_runCenter (usable_of_settings hs) _).completes hrun
    have hprints := confined_runCenter.of_completes hrun
    rw [asJson_of_context hc] at hcovers hprints hout
    refine ⟨hfiles ▸ hcovers.traced.outline, fun _ => ?_, fun _ hx => nomatch hx⟩
    refine namesChanged_of_covers hcovers hfiles fun path hm => ?_
    cases hj : asksJson i a with
    | true =>
      rw [hj] at hprints hout
      rw [stdout_of_prints_none hprints, String.empty_append] at hout
      exact .listed hout hm
    | false =>
      rw [hj] at hcovers hprints hout
      rw [hout]
      simpa using names_of_covers hprints hcovers hm
  | aborted hc hs h hf =>
    obtain ⟨report, hcovers⟩ :=
      (ensures_runCenter (usable_of_settings hs) _).fails (fails_runCenter h)
    have hprints := confined_runCenter.of_fails (fails_runCenter h)
    have hjson := asJson_of_context hc
    refine ⟨hcovers.traced.outline, fun hx => ?_, fun hj _ => stdout_of_fails h (hjson.trans hj)⟩
    rw [hjson, hx.resolve_right nofun] at hcovers hprints
    exact namesChanged_of_covers hcovers rfl fun path hm => names_of_covers hprints hcovers hm

/-! ## A run that is cut off -/

/-- A run on a tree in which a file that is not UTF-8 comes behind a banner off center. -/
def cutOff (format : String) : Invocation where
  arguments := ["--format", format, "--quiet", "--run-id", "r", "."]
  environment := []
  files := brokenTree.files
  now := ⟨⟨2001, 1, 1⟩, 0, 0, 0, 0, none⟩

def cutOffArguments (format : String) : Arguments where
  root := some "."
  format := some format
  runId := some "r"
  quiet := true

def cutOffContext (format : String) : Context where
  runId := "r"
  root := ⟨0, []⟩
  outputFormat := format
  verbose := false
  quiet := true
  logJson := false
  now := ⟨⟨2001, 1, 1⟩, 0, 0, 0, 0, none⟩

def cutOffFiles : FileTree :=
  brokenTree.files.rewrite ["a.ts"] (Codec.Utf8.encode "// -- d -- //".toList)

theorem find?_cutOffFiles :
    cutOffFiles.top.find? ["a.ts"] ≠
      some (.file (Codec.Utf8.encode "// - d --- //".toList)) := by
  have hnew : cutOffFiles.top.find? ["a.ts"] =
      some (.file (Codec.Utf8.encode "// -- d -- //".toList)) := by cbv
  rw [hnew]
  simp only [ne_eq, Option.some.injEq, Entry.file.injEq]
  decide +kernel

theorem context_cutOff (format : String) (h : format ≠ "") :
    (options (cutOffArguments format) (cutOff format).files).context (cutOff format).files
      (cutOff format).environment (cutOff format).now = .ok (cutOffContext format) := by
  have hdir : (cutOff format).files.isDir ⟨0, []⟩ = .ok true := by cbv
  have hroot : (options (cutOffArguments format) (cutOff format).files).root = ⟨0, []⟩ := by cbv
  rw [Options.context, hroot, hdir]
  simp [options, cutOffArguments, cutOffContext, outputFormat, nonempty, h, cutOff, Option.filter]

theorem settings_cutOff (format : String) :
    settings (cutOffArguments format) (cutOff format).environment (cutOff format).files =
      .ok {} := rfl

/-- The failure with the octet that no text in UTF-8 begins with. -/
def cutOffFailure : Failure := .decoding (.malformed "utf-8" 0xFF 0 1 .startByte)

theorem fails_cutOff_text :
    Fails (centerAndPrint (cutOffContext "text") {}) { files := (cutOff "text").files }
      cutOffFailure
      { files := cutOffFiles, stdout := "Updated: a.ts\n", announced := [⟨0, ["a.ts"]⟩] } := by
  unfold Fails
  cbv

theorem fails_cutOff_json :
    Fails (centerAndPrint (cutOffContext "json") {}) { files := (cutOff "json").files }
      cutOffFailure { files := cutOffFiles } := by
  unfold Fails
  cbv

theorem ofArguments_cutOff_text :
    Request.ofArguments (cutOff "text").arguments = .ok (.run (cutOffArguments "text")) := by
  decide +kernel

theorem ofArguments_cutOff_json :
    Request.ofArguments (cutOff "json").arguments = .ok (.run (cutOffArguments "json")) := by
  decide +kernel

theorem program_names_changed_cutOff_text :
    Request.ofArguments (cutOff "text").arguments = .ok (.run (cutOffArguments "text")) ∧
      ∃ path, (cutOff "text").files.Leads path ["a.ts"] ∧
        Names (program (cutOff "text")).stdout path := by
  refine ⟨ofArguments_cutOff_text, ?_⟩
  obtain ⟨-, hnames, -⟩ := program_names_changed ofArguments_cutOff_text
  refine hnames (.inl rfl) ["a.ts"] _ rfl ?_
  have hp := perform_of_fails (context_cutOff "text" (by decide)) (settings_cutOff "text")
    fails_cutOff_text
  rw [program_eq_perform ofArguments_cutOff_text, hp]
  exact find?_cutOffFiles

/-- In JSON the run has changed a file and names none. -/
theorem program_names_changed_cutOff_json :
    Request.ofArguments (cutOff "json").arguments = .ok (.run (cutOffArguments "json")) ∧
      ¬ NamesChanged (cutOff "json") (program (cutOff "json")) := by
  refine ⟨ofArguments_cutOff_json, ?_⟩
  have hp := perform_of_fails (context_cutOff "json" (by decide)) (settings_cutOff "json")
    fails_cutOff_json
  rw [program_eq_perform ofArguments_cutOff_json, hp]
  intro h
  obtain ⟨path, -, hn⟩ := h ["a.ts"] _ rfl find?_cutOffFiles
  exact not_names_empty path hn

end Recenter.CommandLine
