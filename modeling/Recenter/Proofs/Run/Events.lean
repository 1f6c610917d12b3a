import Recenter.Proofs.Run.Again
import Recenter.Proofs.Run.Alike

/-! What a run logs. Centering a file logs nothing (`silent_centerFile`), so a visit logs the scan
of its file and behind it the update, if there is one. The visits of a run log their events one
after the other (`addsUp_recorded`), whether the run completes (`logs_of_completes`) or breaks off
with a file or on the way to one (`logs_of_fails`). What a context lets through of them is what has
been logged: all of it where the run is verbose, and nothing where it is quiet
(`runCenter_events`). -/

namespace Recenter.Run.Action

open Recenter.Files Recenter.Banner Recenter.Config

variable {w w' w₁ : World} {path : Path} {settings : Settings} {reporter : Reporter} {c : Context}
  {visits : List Update} {report : Report} {f : Failure} {events more : List Event}
  {visit : Update}

def Silent (w w' : World) : Prop := w'.events = w.events

instance : IsPreorder World Silent where
  refl _ := rfl
  trans _ _ _ h h' := Eq.trans h' h

theorem silent_centerFile :
    Confined Silent IsUnreported (centerFile path settings reporter) :=
  confined_centerFile ⟨fun _ _ => rfl, fun _ _ _ _ => rfl⟩

/-- These events have come to pass, and the context has let through what has been logged of them. -/
def Logs (c : Context) (w : World) (events : List Event) (w' : World) : Prop :=
  w'.events = w.events ++ events.filter fun e => c.logs e.level

namespace Logs

theorem nil (h : Silent w w') : Logs c w [] w' := by
  rw [Logs, h, List.filter_nil, List.append_nil]

theorem append (h : Logs c w events w₁) (h' : Logs c w₁ more w') :
    Logs c w (events ++ more) w' := by
  rw [Logs, h', h, List.filter_append, List.append_assoc]

/-- What is logged before comes to it. -/
theorem begun (h : Logs c (logged c events w) more w') : Logs c w (events ++ more) w' := by
  have hevents : Logs c w events (logged c events w) := rfl
  exact hevents.append h

/-- What is logged after comes to it. -/
theorem ended (h : Logs c w events w₁) (more : List Event) :
    Logs c w (events ++ more) (logged c more w₁) := h.append rfl

theorem of_silent (h : Logs c w events w₁) (hs : Silent w₁ w') : Logs c w events w' := hs.trans h

end Logs

/-! ## The visits -/

/-- The events of a visit: its file is scanned, and is updated if a pass has changed it. -/
def eventsOf (visit : Update) : List Event :=
  scanEvent visit.path :: if visit.passes.isEmpty then [] else [updatedEvent visit]

theorem eventsOf_eq (path : Path) (passes : List Pass) :
    eventsOf ⟨path, passes⟩ = [scanEvent path] ++ (updateOf path passes).map updatedEvent := by
  unfold eventsOf updateOf
  split <;> rfl

/-- What the visits have done and logged. -/
def Recorded (c : Context) (settings : Settings) (reporter : Reporter) (w : World)
    (visits : List Update) (w' : World) : Prop :=
  Pointwise settings reporter w visits w' ∧ Logs c w (visits.flatMap eventsOf) w'

/-- The visits log their events one after the other. -/
theorem addsUp_recorded : AddsUp c settings reporter (Recorded c settings reporter) where
  nil _ := ⟨.nil rfl rfl, .nil rfl⟩
  append h h' hapart := by
    refine ⟨h.1.append h'.1 hapart, ?_⟩
    rw [List.flatMap_append]
    exact h.2.append h'.2
  visit {_ path w _ _} h := by
    obtain ⟨passes, w₁, hfile, rfl, rfl⟩ := exists_centerFile_of_centerNext h
    refine ⟨passes, ⟨(completes_centerFile_pointwise hfile).of_logged _, ?_⟩, rfl⟩
    rw [List.flatMap_singleton, eventsOf_eq]
    have hscan : Logs c w [scanEvent path] (logged c [scanEvent path] w) := rfl
    exact (hscan.of_silent (silent_centerFile.of_completes hfile)).ended _

/-- A run on a tree that completes has logged the visits of all selected files. -/
theorem logs_centerTree (hw : w.files.top.WellFormed)
    (h : Completes (centerTree c settings reporter) w report w') :
    ∃ visits, sourceFiles w.files (selection settings) c.root = .ok (visits.map Update.path) ∧
      Recorded c settings reporter w visits w' ∧
      report = ⟨c.root, visits.length, changes visits⟩ := by
  obtain ⟨selected, hselected, hp, hrun⟩ := completes_forSourceFiles keepsOutline_centerNext hw h
  obtain ⟨visits, rfl, hrecorded, rfl⟩ := addsUp_recorded.completes_foldlM hp hrun
  refine ⟨visits, hselected, hrecorded, ?_⟩
  rw [Nat.zero_add, List.nil_append, List.length_map]

/-! ## Both ends of a run -/

def finishEvent (filesScanned filesUpdated : Nat) : Event :=
  ⟨.info, "center", "finish", [
    ("files_scanned", .int filesScanned), ("files_updated", .int filesUpdated)]⟩

/-- A run that completes has logged its start, the visits of all selected files, and in the end how
many they were and how many of them have changed their files. -/
theorem logs_of_completes (hw : w.files.top.WellFormed)
    (h : Completes (runCenter c settings) w report w') :
    ∃ visits, sourceFiles w.files (selection settings) c.root = .ok (visits.map Update.path) ∧
      Pointwise settings (reporterOf c) w visits w' ∧
      Logs c w ([startEvent c settings] ++ visits.flatMap eventsOf ++
        [finishEvent visits.length (changes visits).length]) w' := by
  unfold runCenter at h
  obtain ⟨_, w₁, hstart, h⟩ := completes_bind_iff.1 h
  obtain ⟨report₁, w₂, hrun, h⟩ := completes_bind_iff.1 h
  obtain ⟨_, w₃, hfinish, h⟩ := completes_bind_iff.1 h
  obtain ⟨-, rfl⟩ := completes_pure_iff.1 h
  rw [completes_log hstart] at hrun
  obtain ⟨visits, hselected, ⟨hpointwise, hlogs⟩, rfl⟩ :=
    logs_centerTree (w := logged c [startEvent c settings] w) hw hrun
  rw [completes_log hfinish]
  exact ⟨visits, hselected, hpointwise.of_logged _, hlogs.begun.ended _⟩

/-- A run that fails has logged its start and the visits of the first selected files. Then it has
scanned the next one and failed with it, or it could not use a path to go on. -/
theorem logs_of_fails (hw : w.files.top.WellFormed) (h : Fails (runCenter c settings) w f w') :
    ∃ visits w₁, Pointwise settings (reporterOf c) w visits w₁ ∧
      ((∃ path after, sourceFiles w.files (selection settings) c.root =
          .ok (visits.map Update.path ++ path :: after) ∧
        Fails (centerFile path settings (reporterOf c)) w₁ f w' ∧
        Logs c w ([startEvent c settings] ++ visits.flatMap eventsOf ++ [scanEvent path]) w') ∨
      (w' = w₁ ∧ (∃ e q, f = .access e q) ∧
        (∀ selected, sourceFiles w.files (selection settings) c.root = .ok selected →
          visits.map Update.path <+: selected) ∧
        Logs c w ([startEvent c settings] ++ visits.flatMap eventsOf) w')) := by
  have hw : (logged c [startEvent c settings] w).files.top.WellFormed := hw
  obtain ⟨visits, w₁, ⟨hpointwise, hlogs⟩, hselection, hend⟩ :=
    addsUp_recorded.exists_of_fails hw (fails_centerTree_of_runCenter h)
  rcases hend with ⟨path, after, report, hselected, hvisit⟩ | ⟨rfl, haccess⟩
  · have hfail := fails_centerFile_of_centerNext hvisit
    refine ⟨visits, _, hpointwise.of_logged [scanEvent path],
      .inl ⟨path, after, hselected, hfail, ?_⟩⟩
    exact (hlogs.begun.ended _).of_silent (silent_centerFile.of_fails hfail)
  · have hpointwise := hpointwise.of_logged []
    rw [logged_nil] at hpointwise
    refine ⟨visits, w', hpointwise, .inr ⟨rfl, haccess, fun selected hs => ?_, hlogs.begun⟩⟩
    exact (hselection selected hs).1

/-! ## What the events tell -/

/-- The passes of the visit are those that have changed the lines of its file, and so its octets. -/
structure Rewrites (settings : Settings) (w : World) (visit : Update) (w' : World) : Prop where
  passes_eq : ∃ token lines, Section.Token.ofList? settings.lineComment.toList = some token ∧
    Completes (readLines visit.path settings.encoding) w lines w ∧
    visit.passes = passesOn settings.borders token lines
  changed_iff : visit.passes ≠ [] ↔ w'.files.read visit.path ≠ w.files.read visit.path

theorem Pointwise.rewrites (h : Pointwise settings reporter w visits w') (hm : visit ∈ visits) :
    Rewrites settings w visit w' := by
  obtain ⟨octets, octets', hr, hcenters, hr'⟩ := h.centered visit hm
  obtain ⟨w₁, hrun, hr₁⟩ := hcenters w visit.path none hr
  obtain ⟨token, lines, houtcome⟩ := completes_centerFile hrun
  refine ⟨⟨token, lines, houtcome.token_eq, houtcome.before, houtcome.passes_eq⟩, ?_⟩
  rw [← houtcome.read_ne_iff, hr', hr₁]

def countOf (action : String) (events : List Event) : Nat :=
  events.countP fun e => e.action == action

theorem countOf_append (action : String) (events more : List Event) :
    countOf action (events ++ more) = countOf action events + countOf action more :=
  List.countP_append

theorem countOf_scan (visits : List Update) :
    countOf "scan" (visits.flatMap eventsOf) = visits.length := by
  induction visits with
  | nil => rfl
  | cons visit rest ih =>
    have hone : countOf "scan" (eventsOf visit) = 1 := by
      unfold eventsOf
      split <;> rfl
    rw [List.flatMap_cons, countOf_append, hone, ih, List.length_cons, Nat.add_comm]

theorem countOf_updated (visits : List Update) :
    countOf "file_updated" (visits.flatMap eventsOf) = (changes visits).length := by
  induction visits with
  | nil => rfl
  | cons visit rest ih =>
    have hone : countOf "file_updated" (eventsOf visit) = (changes [visit]).length := by
      cases hv : visit.passes <;>
        simp [eventsOf, changes, hv, countOf, scanEvent, updatedEvent]
    rw [List.flatMap_cons, countOf_append, hone, ih, ← List.length_append, ← changes_append]
    rfl

/-- The events of a run are of the two lower levels. -/
theorem level_of_mem_begun (c : Context) (settings : Settings) (visits : List Update) :
    ∀ e ∈ [startEvent c settings] ++ visits.flatMap eventsOf,
      e.level = .debug ∨ e.level = .info := by
  intro e he
  rcases List.mem_append.1 he with hstart | hvisit
  · exact .inr (List.mem_singleton.1 hstart ▸ rfl)
  obtain ⟨visit, -, he⟩ := List.mem_flatMap.1 hvisit
  unfold eventsOf at he
  rcases List.mem_cons.1 he with rfl | he
  · exact .inl rfl
  · split at he
    · cases he
    · exact .inr (List.mem_singleton.1 he ▸ rfl)

theorem level_of_mem_ended {last : Event} (h : last.level = .debug ∨ last.level = .info)
    (c : Context) (settings : Settings) (visits : List Update) :
    ∀ e ∈ [startEvent c settings] ++ visits.flatMap eventsOf ++ [last],
      e.level = .debug ∨ e.level = .info :=
  List.forall_mem_append.2 ⟨level_of_mem_begun c settings visits, List.forall_mem_singleton.2 h⟩

theorem Logs.events_eq (h : Logs c w events w') (hv : c.verbose = true) (hq : c.quiet = false)
    (hl : ∀ e ∈ events, e.level = .debug ∨ e.level = .info) : w'.events = w.events ++ events := by
  have hall : ∀ e ∈ events, c.logs e.level = true := by
    intro e he
    rcases hl e he with hd | hi
    · rw [hd, Context.logs, hv]
    · rw [hi, Context.logs, hq, Bool.not_false]
  rw [h, List.filter_eq_self.2 hall]

theorem Logs.silent (h : Logs c w events w') (hv : c.verbose = false) (hq : c.quiet = true)
    (hl : ∀ e ∈ events, e.level = .debug ∨ e.level = .info) : w'.events = w.events := by
  have hnone : ∀ e ∈ events, ¬ c.logs e.level = true := by
    intro e he
    rcases hl e he with hd | hi
    · simp [hd, Context.logs, hv]
    · simp [hi, Context.logs, hq]
  rw [h, List.filter_eq_nil_iff.2 hnone, List.append_nil]

/-- The log of a verbose run follows the run. If it completes, it has logged its start, then for
each selected file in their order a scan, with an update behind it exactly if a pass has changed
this file, and in the end how many scans and updates it has logged. If it fails with a file, the log
ends with the scan of this file, and if it could not use a path to go on, with the events of the
file before. A quiet run that is not verbose logs nothing, however it ends. -/
theorem runCenter_events (hw : w.files.top.WellFormed) (c : Context) (settings : Settings) :
    (c.verbose = true → c.quiet = false →
      (∀ report w', Completes (runCenter c settings) w report w' → ∃ visits : List Update,
        sourceFiles w.files (selection settings) c.root = .ok (visits.map Update.path) ∧
        (∀ visit ∈ visits, Rewrites settings w visit w') ∧
        let events := [startEvent c settings] ++ visits.flatMap eventsOf
        w'.events = w.events ++ (events ++
          [finishEvent (countOf "scan" events) (countOf "file_updated" events)])) ∧
      ∀ f w', Fails (runCenter c settings) w f w' → ∃ (visits : List Update) (w₁ : World),
        (∀ visit ∈ visits, Rewrites settings w visit w₁) ∧
        let events := [startEvent c settings] ++ visits.flatMap eventsOf
        ((∃ path after, sourceFiles w.files (selection settings) c.root =
            .ok (visits.map Update.path ++ path :: after) ∧
          Fails (centerFile path settings (reporterOf c)) w₁ f w' ∧
          w'.events = w.events ++ (events ++ [scanEvent path])) ∨
        (w' = w₁ ∧ (∃ e q, f = .access e q) ∧
          (∀ selected, sourceFiles w.files (selection settings) c.root = .ok selected →
            visits.map Update.path <+: selected) ∧
          w'.events = w.events ++ events))) ∧
    (c.verbose = false → c.quiet = true →
      (∀ report w', Completes (runCenter c settings) w report w' → w'.events = w.events) ∧
      ∀ f w', Fails (runCenter c settings) w f w' → w'.events = w.events) := by
  refine ⟨fun hv hq => ⟨fun report w' h => ?_, fun f w' h => ?_⟩,
    fun hv hq => ⟨fun report w' h => ?_, fun f w' h => ?_⟩⟩
  · obtain ⟨visits, hselected, hpointwise, hlogs⟩ := logs_of_completes hw h
    refine ⟨visits, hselected, fun visit hm => hpointwise.rewrites hm, ?_⟩
    have hstart : countOf "scan" [startEvent c settings] = 0 ∧
        countOf "file_updated" [startEvent c settings] = 0 := ⟨rfl, rfl⟩
    simp only [countOf_append, countOf_scan, countOf_updated, hstart, Nat.zero_add]
    exact hlogs.events_eq hv hq (level_of_mem_ended (.inr rfl) c settings visits)
  · obtain ⟨visits, w₁, hpointwise, hend⟩ := logs_of_fails hw h
    refine ⟨visits, w₁, fun visit hm => hpointwise.rewrites hm, ?_⟩
    rcases hend with ⟨path, after, hselected, hfail, hlogs⟩ | ⟨hsame, haccess, hprefix, hlogs⟩
    · refine .inl ⟨path, after, hselected, hfail, ?_⟩
      exact hlogs.events_eq hv hq (level_of_mem_ended (.inl rfl) c settings visits)
    · refine .inr ⟨hsame, haccess, hprefix, ?_⟩
      exact hlogs.events_eq hv hq (level_of_mem_begun c settings visits)
  · obtain ⟨visits, -, -, hlogs⟩ := logs_of_completes hw h
    exact hlogs.silent hv hq (level_of_mem_ended (.inr rfl) c settings visits)
  · obtain ⟨visits, w₁, -, hend⟩ := logs_of_fails hw h
    rcases hend with ⟨path, after, -, -, hlogs⟩ | ⟨-, -, -, hlogs⟩
    · exact hlogs.silent hv hq (level_of_mem_ended (.inl rfl) c settings visits)
    · exact hlogs.silent hv hq (level_of_mem_begun c settings visits)

/-- A verbose run that completes, one that fails at the file that is not UTF-8, and the same one
quiet. -/
theorem runCenter_events_of_trees :
    let oneBanner := oneFile "// - d --- //".toList
    let f : Failure := .decoding (.malformed "utf-8" 0xFF 0 1 .startByte)
    (oneBanner.files.top.WellFormed ∧ brokenTree.files.top.WellFormed) ∧
      (∃ report w', ∃ visits : List Update, Completes (runCenter talkative {}) oneBanner report w' ∧
        visits.map Update.path = [⟨0, ["a.ts"]⟩] ∧
        let events := [startEvent talkative {}] ++ visits.flatMap eventsOf
        w'.events = events ++
          [finishEvent (countOf "scan" events) (countOf "file_updated" events)]) ∧
      (∃ w', ∃ (visits : List Update) (path : Path),
        Fails (runCenter talkative {}) brokenTree f w' ∧
        w'.events = [startEvent talkative {}] ++ visits.flatMap eventsOf ++ [scanEvent path]) ∧
      ∃ w', Fails (runCenter taciturn {}) brokenTree f w' ∧ w'.events = [] := by
  intro oneBanner f
  have hone : oneBanner.files.top.WellFormed := by decide
  have hbroken : brokenTree.files.top.WellFormed := by decide
  have hcompletes : ((runCenter talkative {}).run.run (oneFile "// - d --- //".toList)).1 =
      .ok ⟨⟨0, []⟩, 1, [⟨⟨0, ["a.ts"]⟩, [.sections]⟩]⟩ := by cbv
  have hfails : ((runCenter talkative {}).run.run brokenTree).1 =
      .error (.decoding (.malformed "utf-8" 0xFF 0 1 .startByte)) := by cbv
  refine ⟨⟨hone, hbroken⟩, ?_, ?_, ?_⟩
  · have hrun := Completes.of_run hcompletes
    obtain ⟨visits, hselected, -, hevents⟩ :=
      ((runCenter_events hone talkative {}).1 rfl rfl).1 _ _ hrun
    have hwalk : sourceFiles oneBanner.files (selection {}) talkative.root =
        .ok [⟨0, ["a.ts"]⟩] := by cbv
    exact ⟨_, _, visits, hrun, Except.ok.inj (hselected.symm.trans hwalk), hevents⟩
  · have hrun := Fails.of_run hfails
    obtain ⟨visits, w₁, -, hend⟩ := ((runCenter_events hbroken talkative {}).1 rfl rfl).2 _ _ hrun
    rcases hend with ⟨path, -, -, -, hevents⟩ | ⟨-, ⟨e, q, he⟩, -⟩
    · exact ⟨_, visits, path, hrun, hevents⟩
    · cases he
  · -- The quiet run ends as the verbose one does.
    have hroot : taciturn.root = talkative.root := rfl
    obtain ⟨hsame, -⟩ := agree_runCenter hroot {} brokenTree brokenTree (.refl _ _)
    have hrun := Fails.of_run (hsame.trans hfails)
    exact ⟨_, hrun, ((runCenter_events hbroken taciturn {}).2 rfl rfl).2 _ _ hrun⟩

end Recenter.Run.Action
