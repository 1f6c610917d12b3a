import Recenter.CommandLine.Program
import Recenter.Proofs.Run.Confined

/-! How the program ends. Arguments are refused, or settings are, before anything is looked at; else
the run completes, or a failure that no exit code stands for ends it (`ends_perform`). So an exit
code other than zero says that nothing has been done, and which of two things was wrong
(`program_exit`). -/

namespace Recenter.CommandLine

open Recenter.Files Recenter.Run Recenter.Run.Action

/-! ## Four ends -/

def asksJson (i : Invocation) (a : Arguments) : Bool :=
  (options a i.files).outputFormat == "json"

def logged (c : Context) (w : World) : String := String.join (w.events.map (Event.line c))

/-- How a run that arguments ask for can end. -/
inductive Ends (i : Invocation) (a : Arguments) : Outcome → Prop
  | rootless {f : Failure}
    (hc : (options a i.files).context i.files i.environment i.now = .error f) :
    Ends i a (rejected (asksJson i a) i.files f)
  | unsettled {c : Context} {f : Failure}
    (hc : (options a i.files).context i.files i.environment i.now = .ok c)
    (hs : settings a i.environment i.files = .error f) :
    Ends i a (rejected (asksJson i a) i.files f)
  | completed {c : Context} {s : Config.Settings} {w : World}
    (hc : (options a i.files).context i.files i.environment i.now = .ok c)
    (hs : settings a i.environment i.files = .ok s)
    (h : Completes (centerAndPrint c s) { files := i.files } () w) :
    Ends i a ⟨.ok 0, w.stdout, logged c w, w.files⟩
  | aborted {c : Context} {s : Config.Settings} {f : Failure} {w : World}
    (hc : (options a i.files).context i.files i.environment i.now = .ok c)
    (hs : settings a i.environment i.files = .ok s)
    (h : Fails (centerAndPrint c s) { files := i.files } f w) (hf : IsUnreported f) :
    Ends i a ⟨.error f, w.stdout, logged c w, w.files⟩

variable {i : Invocation} {a : Arguments} {c : Context} {s : Config.Settings} {f : Failure}
  {w w' : World} {vars : Variables} {files : FileTree}

/-- Once a run has begun, it fails in no way that has an exit code of its own. -/
theorem isUnreported_of_fails (h : Fails (centerAndPrint c s) w f w') : IsUnreported f := by
  rcases fails_bind_iff.1 h with h | ⟨report, w₁, -, h⟩
  · exact confined_runCenter.failure h
  · split at h
    · cases h
    · cases h

theorem ends_perform (i : Invocation) (a : Arguments) : Ends i a (perform i a) := by
  unfold perform
  simp only
  cases hc : (options a i.files).context i.files i.environment i.now with
  | error f => exact .rootless hc
  | ok c =>
    cases hs : settings a i.environment i.files with
    | error f => exact .unsettled hc hs
    | ok s =>
      simp only
      cases h : (centerAndPrint c s).run { files := i.files } with
      | mk result w =>
        cases result with
        | ok _ => exact .completed hc hs h
        | error f =>
          have hf := isUnreported_of_fails h
          simp only
          split
          · next hr => rw [hf] at hr; cases hr
          · exact .aborted hc hs h hf

theorem perform_of_fails (hc : (options a i.files).context i.files i.environment i.now = .ok c)
    (hs : settings a i.environment i.files = .ok s)
    (h : Fails (centerAndPrint c s) { files := i.files } f w) :
    perform i a = ⟨.error f, w.stdout, logged c w, w.files⟩ := by
  have hf : f.report? = none := isUnreported_of_fails h
  have hrun : (centerAndPrint c s).run { files := i.files } = (.error f, w) := h
  unfold perform
  simp only [hc, hs, hrun, hf]
  rfl

/-! ## What is refused before a run -/

/-- A context is there if its root is a directory; else it is refused for its root. -/
theorem context_cases (o : Options) (files : FileTree) (vars : Variables)
    (now : Calendar.Moment) :
    ((∃ c, o.context files vars now = .ok c) ∧ ∃ entries, files.entries o.root = .ok entries) ∨
    (o.context files vars now = .error (.invalidRoot o.root) ∧
      (¬ ∃ entries, files.entries o.root = .ok entries) ∧
        files.entry o.root ≠ .error .nameTooLong) ∨
    (o.context files vars now = .error (.access .nameTooLong o.root) ∧
      (¬ ∃ entries, files.entries o.root = .ok entries) ∧
        files.entry o.root = .error .nameTooLong) := by
  unfold Options.context
  rcases files.isDir_cases o.root with ⟨h, hentries⟩ | ⟨h, hrest⟩ | ⟨h, hrest⟩
  · exact .inl ⟨by simp [h], hentries⟩
  · exact .inr (.inl ⟨by simp [h], hrest⟩)
  · exact .inr (.inr ⟨by simp [h], hrest⟩)

/-- Settings are refused because the configuration is, or because of an argument. -/
theorem settings_eq_error (h : settings a vars files = .error f) :
    (∃ e, Config.load files (configPath a vars) = .error e ∧ f = .config e) ∨
      ((∃ loaded, Config.load files (configPath a vars) = .ok loaded) ∧ IsUnreported f) := by
  unfold settings at h
  cases hl : Config.load files (configPath a vars) with
  | error e =>
    rw [hl] at h
    cases h
    exact .inl ⟨e, rfl, rfl⟩
  | ok loaded =>
    rw [hl] at h
    refine .inr ⟨⟨loaded, rfl⟩, ?_⟩
    cases hx : given a.excluded with
    | error index =>
      rw [hx] at h
      cases h
      rfl
    | ok names =>
      cases he : given a.endings with
      | error index =>
        rw [hx, he] at h
        cases h
        rfl
      | ok endings =>
        rw [hx, he] at h
        cases h

theorem given_eq_ok_iff {values : List (Option String)} {texts : List String} :
    given values = .ok texts ↔ values = texts.map some := by
  unfold given
  constructor
  · intro h
    split at h
    · cases h
    · next hall =>
      cases h
      rw [List.findIdx?_eq_none_iff] at hall
      rw [List.map_filterMap, List.filterMap_congr fun value hm => ?_, List.filterMap_some]
      have hsome := Option.isNone_eq_false_iff.1 (hall value hm)
      obtain ⟨text, rfl⟩ := Option.isSome_iff_exists.1 hsome
      rfl
  · rintro rfl
    have hall : (texts.map some).findIdx? Option.isNone = none := by
      simp [List.findIdx?_eq_none_iff]
    rw [hall]
    simp

/-- The settings of a run are those of the configuration, with what the arguments give. -/
theorem settings_eq_ok_iff :
    settings a vars files = .ok s ↔
      ∃ loaded endings excluded, Config.load files (configPath a vars) = .ok loaded ∧
        a.endings = endings.map some ∧ a.excluded = excluded.map some ∧
          s = loaded.override endings excluded := by
  constructor
  · intro h
    unfold settings at h
    cases hl : Config.load files (configPath a vars) with
    | error e =>
      rw [hl] at h
      cases h
    | ok loaded =>
      cases hx : given a.excluded with
      | error index =>
        rw [hl, hx] at h
        cases h
      | ok names =>
        cases he : given a.endings with
        | error index =>
          rw [hl, hx, he] at h
          cases h
        | ok endings =>
          rw [hl, hx, he] at h
          cases h
          exact ⟨loaded, endings, names, rfl, given_eq_ok_iff.1 he, given_eq_ok_iff.1 hx, rfl⟩
  · intro hx
    obtain ⟨loaded, endings, excluded, hl, he, hx, rfl⟩ := hx
    rw [settings, hl, given_eq_ok_iff.2 he, given_eq_ok_iff.2 hx]
    rfl

/-! ## Exit codes -/

theorem rejected_of_report {asJson : Bool} {code : Nat} {kind : String}
    (h : f.report? = some (code, kind)) : rejected asJson files f =
      ⟨.ok code, "", renderError asJson f.message code kind ++ "\n", files⟩ := by
  rw [rejected, h]

theorem rejected_of_isUnreported {asJson : Bool} (h : IsUnreported f) :
    rejected asJson files f = ⟨.error f, "", "", files⟩ := by
  rw [rejected, h]

def HasRoot (i : Invocation) (a : Arguments) : Prop :=
  ∃ entries, i.files.entries (options a i.files).root = .ok entries

/-- The configuration of a run is refused as one. -/
def IsMisconfigured (i : Invocation) (a : Arguments) (e : Config.LoadError) : Prop :=
  Config.load i.files (configPath a i.environment) = .error e ∧ e.isConfigError = true

/-- Before a run begins its root is looked at, and then its configuration. Each is refused with its
exit code. Where neither is, the program ends with exit code zero or with a failure that has none,
and so it does where the root cannot be looked up. -/
theorem perform_cases (i : Invocation) (a : Arguments) :
    (¬ HasRoot i a ∧ i.files.entry (options a i.files).root ≠ .error .nameTooLong ∧
      perform i a = rejected (asksJson i a) i.files (.invalidRoot (options a i.files).root)) ∨
    (∃ e, HasRoot i a ∧ IsMisconfigured i a e ∧
      perform i a = rejected (asksJson i a) i.files (.config e)) ∨
    ((HasRoot i a ∧ (∀ e, ¬ IsMisconfigured i a e) ∨
        ¬ HasRoot i a ∧ i.files.entry (options a i.files).root = .error .nameTooLong) ∧
      ((perform i a).exit = .ok 0 ∨ ∃ f, (perform i a).exit = .error f ∧ IsUnreported f)) := by
  have hroot : ∀ {c}, (options a i.files).context i.files i.environment i.now = .ok c →
      HasRoot i a := by
    intro c hc
    rcases context_cases (options a i.files) i.files i.environment i.now with
      ⟨-, h⟩ | ⟨h, -⟩ | ⟨h, -⟩
    · exact h
    · rw [h] at hc
      cases hc
    · rw [h] at hc
      cases hc
  have hload : ∀ {s}, settings a i.environment i.files = .ok s → ∀ e, ¬ IsMisconfigured i a e := by
    intro s hs e he
    obtain ⟨loaded, -, -, hl, -⟩ := settings_eq_ok_iff.1 hs
    rw [IsMisconfigured, hl] at he
    cases he.1
  have hends := ends_perform i a
  generalize perform i a = o at hends ⊢
  cases hends with
  | rootless hc =>
    rcases context_cases (options a i.files) i.files i.environment i.now with
      ⟨⟨c, h⟩, -⟩ | ⟨h, hroot, hlong⟩ | ⟨h, hroot, hlong⟩
    · rw [h] at hc
      cases hc
    · obtain rfl := Except.error.inj (h.symm.trans hc)
      exact .inl ⟨hroot, hlong, rfl⟩
    · -- The failure to look up the root is not reported as that of a root that is no directory.
      obtain rfl := Except.error.inj (h.symm.trans hc)
      have hf : IsUnreported (.access .nameTooLong (options a i.files).root) := rfl
      refine .inr (.inr ⟨.inr ⟨hroot, hlong⟩, .inr ⟨_, ?_, hf⟩⟩)
      rw [rejected_of_isUnreported hf]
  | unsettled hc hs =>
    rcases settings_eq_error hs with ⟨e, hl, rfl⟩ | ⟨⟨loaded, hl⟩, hf⟩
    · by_cases he : e.isConfigError = true
      · exact .inr (.inl ⟨e, hroot hc, ⟨hl, he⟩, rfl⟩)
      · have hf : IsUnreported (.config e) := by simp [IsUnreported, Failure.report?, he]
        refine .inr (.inr ⟨.inl ⟨hroot hc, fun e' he' => ?_⟩, .inr ⟨_, ?_, hf⟩⟩)
        · rw [IsMisconfigured, hl] at he'
          obtain ⟨⟨⟩, he'⟩ := he'
          exact he he'
        · rw [rejected_of_isUnreported hf]
    · refine .inr (.inr ⟨.inl ⟨hroot hc, fun e he => ?_⟩, .inr ⟨_, ?_, hf⟩⟩)
      · rw [IsMisconfigured, hl] at he
        cases he.1
      · rw [rejected_of_isUnreported hf]
  | completed hc hs h => exact .inr (.inr ⟨.inl ⟨hroot hc, hload hs⟩, .inl rfl⟩)
  | aborted hc hs h hf => exact .inr (.inr ⟨.inl ⟨hroot hc, hload hs⟩, .inr ⟨_, rfl, hf⟩⟩)

theorem not_hasRoot_of_entry {e : AccessError}
    (h : i.files.entry (options a i.files).root = .error e) : ¬ HasRoot i a := by
  rintro ⟨entries, he⟩
  obtain ⟨names, hplace⟩ := FileTree.entries_eq_ok_iff.1 he
  rw [FileTree.entry_eq_ok_iff.2 ⟨names, hplace⟩] at h
  cases h

/-- An argument that begins with no minus sign is the root. -/
theorem ofArguments_operand {root : String} (h : root.toList.head? ≠ some '-') :
    Request.ofArguments [root] = .ok (.run { root := some root }) := by
  have hword : Word.ofArgument root = .ok (.operand root) := by simp [Word.ofArgument, h]
  have hclass : classify [root] = .ok [.operand root] := by
    rw [classify, hword]
    · rfl
    · intro hr
      subst hr
      exact h rfl
  rw [Request.ofArguments, hclass]
  rfl

theorem program_eq_perform (h : Request.ofArguments i.arguments = .ok (.run a)) :
    program i = perform i a := by
  rw [program, h]

/-- A program that ends with an exit code other than zero has done nothing but tell why: it has
changed no file, printed nothing and logged nothing. The code is three exactly if the root is a
directory and the configuration is refused. It is two exactly if the root is no directory, whatever
the configuration, but for a root that cannot be looked up at all; in a tree without permissions
that is one with too long a name or path. Else the code is zero, or a failure that has no code of
its own ends the program. -/
theorem program_exit (h : Request.ofArguments i.arguments = .ok (.run a)) :
    (∀ code, (program i).exit = .ok code → code ≠ 0 →
      (program i).files = i.files ∧ (program i).stdout = "" ∧
      ∃ (f : Failure) (kind : String), (f = .invalidRoot (options a i.files).root ∨
          ∃ e, IsMisconfigured i a e ∧ f = .config e) ∧
        f.report? = some (code, kind) ∧
        (program i).stderr = renderError (asksJson i a) f.message code kind ++ "\n") ∧
    ((program i).exit = .ok 2 ↔
      ¬ HasRoot i a ∧ i.files.entry (options a i.files).root ≠ .error .nameTooLong) ∧
    ((program i).exit = .ok 3 ↔ HasRoot i a ∧ ∃ e, IsMisconfigured i a e) ∧
    ((program i).exit = .ok 2 ∨ (program i).exit = .ok 3 ∨ (program i).exit = .ok 0 ∨
      ∃ f, (program i).exit = .error f ∧ IsUnreported f) := by
  rw [program_eq_perform h]
  rcases perform_cases i a with ⟨hroot, hlong, hp⟩ | ⟨e, hroot, he, hp⟩ | ⟨hbegun, hend⟩
  · have hreport : Failure.report? (.invalidRoot (options a i.files).root) =
      some (2, "invalid_root") := rfl
    rw [hp, rejected_of_report hreport]
    refine ⟨?_, by simp [hroot, hlong], by simp [hroot], .inl rfl⟩
    rintro code ⟨⟩ -
    exact ⟨rfl, rfl, _, _, .inl rfl, hreport, rfl⟩
  · have hreport : Failure.report? (.config e) = some (3, "config_error") := by
      rw [Failure.report?, if_pos he.2]
    rw [hp, rejected_of_report hreport]
    refine ⟨?_, by simp [hroot], by simpa [hroot] using ⟨e, he⟩, .inr (.inl rfl)⟩
    rintro code ⟨⟩ -
    exact ⟨rfl, rfl, _, _, .inr ⟨e, he, rfl⟩, hreport, rfl⟩
  · have hnonzero : ∀ code, (perform i a).exit = .ok code → code = 0 := by
      intro code hcode
      rcases hend with hzero | ⟨f, hf, -⟩
      · rw [hzero] at hcode
        exact (Except.ok.inj hcode).symm
      · rw [hf] at hcode
        cases hcode
    refine ⟨fun code hcode hne => absurd (hnonzero code hcode) hne, ?_, ?_, .inr (.inr hend)⟩
    · refine iff_of_false (fun hcode => absurd (hnonzero 2 hcode) (by decide)) ?_
      rintro ⟨hroot, hlong⟩
      exact hbegun.elim (fun h => hroot h.1) (fun h => hlong h.2)
    · refine iff_of_false (fun hcode => absurd (hnonzero 3 hcode) (by decide)) ?_
      rintro ⟨hroot, e, he⟩
      exact hbegun.elim (fun h => h.2 e he) (fun h => h.1 hroot)

/-- A run in a directory `r` that holds a banner to be centered, with the directory itself as the
configuration file. -/
def unconfigured : Invocation where
  arguments := ["r"]
  environment := [("BANNERCTL_CONFIG", "r")]
  files := ⟨.dir [("r", .dir [("a.ts", .file "// - d --- //".toUTF8.data.toList)])], []⟩
  now := ⟨⟨2025, 1, 1⟩, 0, 0, 0, 0, none⟩

theorem program_exit_unconfigured :
    (program unconfigured).exit = .ok 3 ∧ (program unconfigured).files = unconfigured.files ∧
      (program unconfigured).stdout = "" := by
  have h : Request.ofArguments unconfigured.arguments = .ok (.run { root := some "r" }) :=
    ofArguments_operand (by decide)
  have hpath : Path.ofString "r" = ⟨0, ["r"]⟩ := Path.ofString_name (by decide) (by simp)
  have hdir : unconfigured.files.place (Path.ofString "r") false =
      .ok (.found ["r"] (.dir [("a.ts", .file "// - d --- //".toUTF8.data.toList)])) :=
    hpath ▸ FileTree.place_name rfl (by decide) (by decide) (by decide) rfl nofun
  have hroot : HasRoot unconfigured { root := some "r" } :=
    ⟨_, FileTree.entries_eq_ok_iff.2 ⟨_, hdir⟩⟩
  have hfile : unconfigured.files.file? (Path.ofString "r") = .ok none := by
    simp [FileTree.file?, FileTree.entry?, FileTree.entry_eq_ok_iff.2 ⟨_, hdir⟩, bind, Except.bind]
  have hsource : configPath { root := some "r" } unconfigured.environment =
      some (Path.ofString "r") := by decide +kernel
  have hconfig : IsMisconfigured unconfigured { root := some "r" }
      (.notFound (Path.ofString "r")) :=
    ⟨by rw [hsource, Config.load, hfile], rfl⟩
  obtain ⟨hnothing, -, hthree, -⟩ := program_exit h
  have hexit := hthree.2 ⟨hroot, _, hconfig⟩
  obtain ⟨hfiles, hout, -⟩ := hnothing 3 hexit (by decide)
  exact ⟨hexit, hfiles, hout⟩

/-- A name that no entry of a directory can have. -/
def overlong : String := String.ofList (List.replicate 300 'r')

theorem toList_overlong : overlong.toList = List.replicate 300 'r' := String.toList_ofList

theorem eq_of_mem_overlong {d : Char} (h : d ∈ overlong.toList) : d = 'r' :=
  List.eq_of_mem_replicate (toList_overlong ▸ h)

/-- A root whose name is too long is no directory, and yet the exit code is not two. -/
theorem program_exit_overlong :
    ∃ (i : Invocation) (a : Arguments), Request.ofArguments i.arguments = .ok (.run a) ∧
      ¬ HasRoot i a ∧ (program i).exit ≠ .ok 2 := by
  have hproper : IsProper overlong := by decide +kernel
  have hpath : Path.ofString overlong = ⟨0, [overlong]⟩ :=
    Path.ofString_name hproper fun d hd => by rw [eq_of_mem_overlong hd]; decide
  let a : Arguments := { root := some overlong }
  let i : Invocation := { unconfigured with arguments := [overlong] }
  have hi : Request.ofArguments i.arguments = .ok (.run a) :=
    ofArguments_operand (by rw [toList_overlong]; decide)
  have hentry : i.files.entry ⟨0, [overlong]⟩ = .error .nameTooLong :=
    FileTree.entry_of_overlong rfl hproper (fun hz => absurd (eq_of_mem_overlong hz) (by decide))
      (by decide +kernel)
  have hroot : i.files.entry (options a i.files).root = .error .nameTooLong := by
    simpa [options, a, hpath] using hentry
  refine ⟨i, a, hi, not_hasRoot_of_entry hroot, ?_⟩
  rw [program_eq_perform hi]
  rcases perform_cases i a with ⟨-, hlong, -⟩ | ⟨e, hdir, -⟩ | ⟨-, hzero | ⟨f, hf, -⟩⟩
  · exact absurd hroot hlong
  · exact absurd hdir (not_hasRoot_of_entry hroot)
  · rw [hzero]
    nofun
  · rw [hf]
    nofun

end Recenter.CommandLine
