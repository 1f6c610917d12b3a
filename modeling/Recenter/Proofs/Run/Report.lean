import Mathlib
import Recenter.Proofs.Run.OneFile
import Recenter.Proofs.Run.Walk

/-! The report of a run on a tree. Each visit accounts for one file: the file is in the report if
its octets have changed, and no other file has changed (`completes_centerNext`). Accounts of
different files add up (`Accounted.append`), so the report of a run is what happened to the files
(`centerTree_accounted`). -/

namespace Recenter.Run.Action

open Recenter.Files Recenter.Banner Recenter.Config

variable {w w' w₁ : World} {path : Path} {settings : Settings} {reporter : Reporter} {c : Context}
  {passes : List Pass} {paths more : List Path} {updates others : List Update}
  {report report' : Report}

/-- The paths that the announcements of updates add. -/
def announcements (reporter : Reporter) (updates : List Update) : List Path :=
  updates.flatMap fun update => update.passes.flatMap fun _ => announcement reporter update.path

/-- The updates are what has happened to the files at these paths, and to no others. -/
structure Accounted (reporter : Reporter) (w : World) (paths : List Path) (updates : List Update)
    (w' : World) : Prop where
  sublist : (updates.map Update.path).Sublist paths
  passes : ∀ update ∈ updates, update.passes ≠ [] ∧ update.passes.Sublist [.regions, .sections]
  announced : w'.announced = w.announced ++ announcements reporter updates
  leads : ∀ path ∈ paths, ∃ names, w.files.Leads path names
  outline : w.files.SameOutline w'.files
  changed_iff : ∀ names octets, w.files.top.find? names = some (.file octets) →
    (w'.files.top.find? names ≠ some (.file octets) ↔
      ∃ update ∈ updates, w.files.Leads update.path names)

/-! ## Accounts add up -/

theorem Accounted.nil (hf : w'.files = w.files) (ha : w'.announced = w.announced) :
    Accounted reporter w [] [] w' where
  sublist := List.Sublist.refl _
  passes := nofun
  announced := by rw [ha, announcements, List.flatMap_nil, List.append_nil]
  leads := nofun
  outline := hf ▸ .refl _
  changed_iff names octets h := by
    rw [hf, h]
    simp

/-- An account of more files that leads to no file of the first one. -/
theorem Accounted.append (h : Accounted reporter w paths updates w₁)
    (h' : Accounted reporter w₁ more others w')
    (hapart : ∀ p ∈ paths, ∀ q ∈ more, w.files.Apart p q) :
    Accounted reporter w (paths ++ more) (updates ++ others) w' where
  sublist := by
    rw [List.map_append]
    exact h.sublist.append h'.sublist
  passes update hm := (List.mem_append.1 hm).elim (h.passes update) (h'.passes update)
  announced := by
    rw [h'.announced, h.announced, announcements, announcements, announcements,
      List.flatMap_append, List.append_assoc]
  leads path hm := by
    rcases List.mem_append.1 hm with hm | hm
    · exact h.leads path hm
    · obtain ⟨names, hl⟩ := h'.leads path hm
      exact ⟨names, h.outline.leads_iff.1 hl⟩
  outline := h.outline.trans h'.outline
  changed_iff names octets hf := by
    simp only [List.mem_append, or_and_right, exists_or]
    have hfirst := h.changed_iff names octets hf
    by_cases hc : w₁.files.top.find? names = some (.file octets)
    · have hsecond := h'.changed_iff names octets hc
      simp only [h.outline.leads_iff] at hsecond
      rw [hsecond, ← hfirst]
      exact ⟨.inr, fun hor => hor.resolve_left (not_not_intro hc)⟩
    · -- A file that the first account has changed is out of the reach of the second.
      obtain ⟨update, hm, hl⟩ := hfirst.1 hc
      obtain ⟨octets₁, hf₁⟩ := h.outline.exists_find? hf
      have hstay : w'.files.top.find? names = some (.file octets₁) := by
        by_contra hne
        obtain ⟨other, hm', hl'⟩ := (h'.changed_iff names octets₁ hf₁).1 hne
        have hin := h.sublist.subset (List.mem_map_of_mem hm)
        have hin' := h'.sublist.subset (List.mem_map_of_mem hm')
        exact hapart _ hin _ hin' names hl (h.outline.leads_iff.1 hl')
      rw [hstay, ← hf₁]
      exact ⟨fun _ => .inl ⟨update, hm, hl⟩, fun _ => hc⟩

/-! ## One file -/

/-- What a visit adds to the report. -/
def updateOf (path : Path) (passes : List Pass) : List Update :=
  if passes.isEmpty then [] else [⟨path, passes⟩]

/-- The octets of the file have changed exactly if a pass is named. -/
theorem Outcome.read_ne_iff {token : Section.Token} {lines : List Text.Line}
    (h : Outcome path settings reporter w passes w' token lines) :
    w'.files.read path ≠ w.files.read path ↔ passes ≠ [] := by
  constructor
  · intro hne hnil
    rw [h.unchanged hnil] at hne
    exact hne rfl
  · intro hne hsame
    have hround := lines_eq_of_read_eq h.before h.after hsame
    rw [h.passes_eq, ne_eq, passesOn_eq_nil_iff (not_mem_of_readLines h.before)] at hne
    exact hne hround

theorem mem_updateOf_iff {update : Update} :
    update ∈ updateOf path passes ↔ update = ⟨path, passes⟩ ∧ passes ≠ [] := by
  unfold updateOf
  cases passes <;> simp

theorem exists_mem_updateOf_iff {names : List String} :
    (∃ update ∈ updateOf path passes, w.files.Leads update.path names) ↔
      passes ≠ [] ∧ w.files.Leads path names := by
  simp only [mem_updateOf_iff, and_assoc, exists_eq_left]

theorem Outcome.accounted {token : Section.Token} {lines : List Text.Line}
    (h : Outcome path settings reporter w passes w' token lines) :
    Accounted reporter w [path] (updateOf path passes) w' := by
  obtain ⟨names, hl⟩ := exists_leads h.before
  have htouches := h.touches names hl
  refine ⟨?_, ?_, ?_, ?_, htouches.outline, ?_⟩
  · unfold updateOf
    cases passes <;> simp
  · intro update hm
    obtain ⟨rfl, hne⟩ := mem_updateOf_iff.1 hm
    exact ⟨hne, h.passes_eq ▸ sublist_passesOn _ _ _⟩
  · rw [h.announced, announcements, updateOf]
    cases passes <;> simp
  · intro p hm
    rw [List.mem_singleton.1 hm]
    exact ⟨names, hl⟩
  · intro other octets hf
    rw [exists_mem_updateOf_iff]
    by_cases ho : other = names
    · subst ho
      have hread := h.read_ne_iff
      have hl' := htouches.outline.leads hl
      rw [hl.read_eq_ok_iff.2 hf, ne_eq, hl'.read_eq_ok_iff] at hread
      rw [ne_eq, hread]
      exact (and_iff_left hl).symm
    · have hsame := (htouches.find?_iff other ho octets).2 hf
      exact ⟨fun hne => absurd hsame hne, fun ⟨_, hlo⟩ => absurd (hlo.unique hl) ho⟩

/-- The world once events have been logged, as far as the context lets them through. -/
def logged (c : Context) (events : List Event) (w : World) : World :=
  { w with events := w.events ++ events.filter fun e => c.logs e.level }

theorem logged_nil (c : Context) (w : World) : logged c [] w = w := by
  simp [logged]

theorem completes_log {level : Level} {component action : String} {fields : List (String × Json)}
    {u : Unit} (h : Completes (log c level component action fields) w u w') :
    w' = logged c [⟨level, component, action, fields⟩] w := by
  unfold log at h
  split at h
  · next hl => simp [completes_modify_iff.1 h, logged, hl]
  · next hl => simp [(completes_pure_iff.1 h).2, logged, hl]

/-- What is logged leaves no trace in the files. -/
theorem Accounted.of_logged {events : List Event}
    (h : Accounted reporter (logged c events w) paths updates w₁) (more : List Event) :
    Accounted reporter w paths updates (logged c more w₁) :=
  ⟨h.sublist, h.passes, h.announced, h.leads, h.outline, h.changed_iff⟩

def scanEvent (path : Path) : Event :=
  ⟨.debug, "center", "scan", [("path", .text path.toString)]⟩

def updatedEvent (update : Update) : Event :=
  ⟨.info, "center", "file_updated", [
    ("path", .text update.path.toString),
    ("passes", .text (",".intercalate (update.passes.map Pass.name)))]⟩

/-- A visit centers the file and counts it. In front of that it logs a scan, and behind it the
update that it adds to the report. -/
theorem exists_centerFile_of_centerNext
    (h : Completes (centerNext c settings reporter report path) w report' w') :
    ∃ passes w₁,
      Completes (centerFile path settings reporter) (logged c [scanEvent path] w) passes w₁ ∧
      w' = logged c ((updateOf path passes).map updatedEvent) w₁ ∧
      report' =
        ⟨report.root, report.filesScanned + 1, report.updates ++ updateOf path passes⟩ := by
  unfold centerNext at h
  obtain ⟨_, w₁, hscan, h⟩ := completes_bind_iff.1 h
  obtain ⟨passes, w₂, hfile, h⟩ := completes_bind_iff.1 h
  rw [completes_log hscan] at hfile
  refine ⟨passes, w₂, hfile, ?_⟩
  unfold updateOf
  simp only at h
  split at h
  · next hnil =>
    obtain ⟨rfl, rfl⟩ := completes_pure_iff.1 h
    rw [if_pos hnil, List.append_nil, List.map_nil, logged_nil]
    exact ⟨rfl, rfl⟩
  · next hne =>
    obtain ⟨_, w₃, hlog, h⟩ := completes_bind_iff.1 h
    obtain ⟨rfl, rfl⟩ := completes_pure_iff.1 h
    rw [if_neg hne]
    exact ⟨completes_log hlog, rfl⟩

/-- A visit counts the file and accounts for it. -/
theorem completes_centerNext
    (h : Completes (centerNext c settings reporter report path) w report' w') :
    ∃ passes, Accounted reporter w [path] (updateOf path passes) w' ∧ report' =
      ⟨report.root, report.filesScanned + 1, report.updates ++ updateOf path passes⟩ := by
  obtain ⟨passes, w₁, hfile, rfl, rfl⟩ := exists_centerFile_of_centerNext h
  obtain ⟨token, lines, houtcome⟩ := completes_centerFile hfile
  exact ⟨passes, houtcome.accounted.of_logged _, rfl⟩

/-! ## All files -/

theorem keepsOutline_centerNext : KeepsOutline (centerNext c settings reporter) := by
  intro report path w report' w' h
  obtain ⟨passes, haccount, -⟩ := completes_centerNext h
  exact haccount.outline

/-- The visits that have changed their files. -/
def changes (visits : List Update) : List Update :=
  visits.filter fun visit => !visit.passes.isEmpty

theorem changes_singleton (path : Path) (passes : List Pass) :
    changes [⟨path, passes⟩] = updateOf path passes := by
  unfold changes updateOf
  cases passes <;> rfl

theorem changes_append (visits more : List Update) :
    changes (visits ++ more) = changes visits ++ changes more := List.filter_append visits more

/-- It holds of no visits, of visits to different files together if it holds of each part, and of
each visit that completes. -/
structure AddsUp (c : Context) (settings : Settings) (reporter : Reporter)
    (R : World → List Update → World → Prop) : Prop where
  nil : ∀ w, R w [] w
  append : ∀ {w us w₁ vs w'}, R w us w₁ → R w₁ vs w' →
    (∀ u ∈ us, ∀ v ∈ vs, w.files.Apart u.path v.path) → R w (us ++ vs) w'
  visit : ∀ {report path w report' w'},
    Completes (centerNext c settings reporter report path) w report' w' →
      ∃ passes, R w [⟨path, passes⟩] w' ∧ report' =
        ⟨report.root, report.filesScanned + 1, report.updates ++ updateOf path passes⟩

theorem AddsUp.completes_foldlM {R : World → List Update → World → Prop}
    (hR : AddsUp c settings reporter R) (hp : paths.Pairwise (w.files.Apart · ·))
    (h : Completes (paths.foldlM (centerNext c settings reporter) report) w report' w') :
    ∃ visits, visits.map Update.path = paths ∧ R w visits w' ∧ report' =
      ⟨report.root, report.filesScanned + paths.length, report.updates ++ changes visits⟩ := by
  -- By the paths: those that are left are still apart once the first one has been visited.
  induction paths generalizing report w with
  | nil =>
    obtain ⟨rfl, rfl⟩ := completes_pure_iff.1 h
    exact ⟨[], rfl, hR.nil w', by simp [changes]⟩
  | cons path rest ih =>
    rw [List.pairwise_cons] at hp
    rw [List.foldlM_cons] at h
    obtain ⟨report₁, w₁, hvisit, hrest⟩ := completes_bind_iff.1 h
    have hp₁ : rest.Pairwise (w₁.files.Apart · ·) :=
      hp.2.imp fun ha => (keepsOutline_centerNext hvisit).apart_iff.2 ha
    obtain ⟨passes, hfirst, rfl⟩ := hR.visit hvisit
    obtain ⟨visits, rfl, hvisits, rfl⟩ := ih hp₁ hrest
    refine ⟨[⟨path, passes⟩] ++ visits, rfl, hR.append hfirst hvisits ?_, ?_⟩
    · intro u hu v hv
      rw [List.mem_singleton.1 hu]
      exact hp.1 v.path (List.mem_map_of_mem hv)
    · rw [changes_append, changes_singleton, List.append_assoc, List.length_cons, Nat.add_assoc,
        Nat.add_comm 1]

theorem addsUp_accounted : AddsUp c settings reporter
    fun w visits w' => Accounted reporter w (visits.map Update.path) (changes visits) w' where
  nil _ := .nil rfl rfl
  append {w us w₁ vs w'} hus hvs hapart := by
    rw [List.map_append, changes_append]
    refine hus.append hvs fun p hm q hq => ?_
    obtain ⟨u, hu, rfl⟩ := List.mem_map.1 hm
    obtain ⟨v, hv, rfl⟩ := List.mem_map.1 hq
    exact hapart u hu v hv
  visit h := by
    obtain ⟨passes, haccount, rfl⟩ := completes_centerNext h
    rw [← changes_singleton] at haccount
    exact ⟨passes, haccount, rfl⟩

theorem completes_foldlM_centerNext (hp : paths.Pairwise (w.files.Apart · ·))
    (h : Completes (paths.foldlM (centerNext c settings reporter) report) w report' w') :
    ∃ updates, Accounted reporter w paths updates w' ∧
      report' = ⟨report.root, report.filesScanned + paths.length, report.updates ++ updates⟩ := by
  obtain ⟨visits, rfl, haccount, rfl⟩ := addsUp_accounted.completes_foldlM hp h
  exact ⟨changes visits, haccount, rfl⟩

/-! ## What the report says -/

theorem Accounted.nodup (h : Accounted reporter w paths updates w')
    (hp : paths.Pairwise (w.files.Apart · ·)) : (updates.map Update.path).Nodup := by
  refine h.sublist.nodup (hp.imp_of_mem fun {p q} hm _ hapart he => ?_)
  obtain ⟨names, hl⟩ := h.leads p hm
  exact hapart names hl (he ▸ hl)

/-- A path is in the report exactly if the octets that it leads to have changed. -/
theorem Accounted.mem_iff (h : Accounted reporter w paths updates w')
    (hp : paths.Pairwise (w.files.Apart · ·)) (hm : path ∈ paths) :
    path ∈ updates.map Update.path ↔ w'.files.read path ≠ w.files.read path := by
  obtain ⟨names, hl⟩ := h.leads path hm
  obtain ⟨octets, hf⟩ := hl.exists_find?
  have hl' := h.outline.leads hl
  rw [hl.read_eq_ok_iff.2 hf, ne_eq, hl'.read_eq_ok_iff, ← ne_eq, h.changed_iff names octets hf]
  rw [List.mem_map]
  constructor
  · intro hx
    obtain ⟨update, hu, rfl⟩ := hx
    exact ⟨update, hu, hl⟩
  · intro hx
    obtain ⟨update, hu, hlu⟩ := hx
    refine ⟨update, hu, ?_⟩
    have hin := h.sublist.subset (List.mem_map_of_mem hu)
    have hsymm : Std.Symm (w.files.Apart · ·) := ⟨fun _ _ ha => ha.symm⟩
    by_contra hne
    exact hp.forall hin hm hne names hlu hl

theorem announcements_some (text : Path → String) (updates : List Update) :
    announcements (some text) updates =
      updates.flatMap fun update => List.replicate update.passes.length update.path := by
  unfold announcements announcement
  simp only [← List.map_eq_flatMap, List.map_const']

/-- A run on a tree that completes reports what it has done: it names the files whose octets it has
changed and no others, each once and in the order of the walk, with the passes that changed it. Each
of them is announced once for each pass, and every source file is counted. -/
theorem centerTree_accounted {text : Path → String} (hw : w.files.top.WellFormed)
    (h : Completes (centerTree c settings (some text)) w report w') :
    ∃ selected, sourceFiles w.files (selection settings) c.root = .ok selected ∧
      (∀ path ∈ selected, path ∈ report.updates.map Update.path ↔
        w'.files.read path ≠ w.files.read path) ∧
      (∀ names octets, w.files.top.find? names = some (.file octets) →
        (w'.files.top.find? names ≠ some (.file octets) ↔
          ∃ update ∈ report.updates, w.files.Leads update.path names)) ∧
      w.files.SameOutline w'.files ∧
      (report.updates.map Update.path).Nodup ∧
      (report.updates.map Update.path).Sublist selected ∧
      (∀ update ∈ report.updates,
        update.passes ≠ [] ∧ update.passes.Sublist [.regions, .sections]) ∧
      w'.announced = w.announced ++
        report.updates.flatMap (fun u => List.replicate u.passes.length u.path) ∧
      report.filesScanned = selected.length ∧ report.updates.length ≤ report.filesScanned ∧
      ∀ runId, ("files_scanned", .int selected.length) ∈ report.members runId ∧
        ("files_updated", .int report.updates.length) ∈ report.members runId := by
  obtain ⟨selected, hselected, hp, hrun⟩ := completes_forSourceFiles keepsOutline_centerNext hw h
  obtain ⟨updates, haccount, rfl⟩ := completes_foldlM_centerNext hp hrun
  have hcount := haccount.sublist.length_le
  rw [List.length_map] at hcount
  simp only [List.nil_append, Nat.zero_add, Report.members, summary, List.length_map]
  refine ⟨selected, hselected, fun path hm => haccount.mem_iff hp hm, haccount.changed_iff,
    haccount.outline, haccount.nodup hp, haccount.sublist, haccount.passes, ?_, rfl, hcount, ?_⟩
  · rw [haccount.announced, announcements_some]
  · intro runId
    simp

/-! ## A small tree -/

/-- A file with a region banner, one with a section banner, and others to be left alone: a file
without a banner, one with another ending, one in an excluded directory, and a link. -/
def smallTree : World :=
  let file (text : String) : Entry := .file (Codec.Utf8.encode text.toList)
  { files := ⟨.dir [
      ("b.ts", file "<------\nx\n>"),
      ("lib", .dir [("c.ts", file "// - d --- //"), ("e.txt", file "// - d --- //")]),
      ("node_modules", .dir [("f.ts", file "// - d --- //")]),
      ("a.ts", file "no banner"),
      ("g.ts", .link "a.ts")], []⟩ }

theorem centerTree_accounted_smallTree :
    let c : Context :=
      { runId := "", root := ⟨0, []⟩, outputFormat := "text", verbose := false, quiet := false,
        logJson := false, now := ⟨⟨2001, 1, 1⟩, 0, 0, 0, 0, none⟩ }
    let settings : Settings := { regionStart := "<", regionEnd := ">" }
    let updates : List Update :=
      [⟨⟨0, ["b.ts"]⟩, [.regions]⟩, ⟨⟨0, ["lib", "c.ts"]⟩, [.sections]⟩]
    smallTree.files.top.WellFormed ∧
      ∃ w', Completes (centerTree c settings (some updatedLine)) smallTree
          ⟨⟨0, []⟩, 3, updates⟩ w' ∧
        w'.announced = [⟨0, ["b.ts"]⟩, ⟨0, ["lib", "c.ts"]⟩] ∧
        ∀ names octets, smallTree.files.top.find? names = some (.file octets) →
          (w'.files.top.find? names ≠ some (.file octets) ↔
            ∃ update ∈ updates, smallTree.files.Leads update.path names) := by
  intro c settings updates
  have hwell : smallTree.files.top.WellFormed := by decide
  have hrun : ((centerTree c settings (some updatedLine)).run.run smallTree).1 =
      .ok ⟨⟨0, []⟩, 3, updates⟩ := by cbv
  have hcompletes : Completes (centerTree c settings (some updatedLine)) smallTree
      ⟨⟨0, []⟩, 3, updates⟩ ((centerTree c settings (some updatedLine)).run.run smallTree).2 :=
    Prod.ext hrun rfl
  obtain ⟨selected, -, -, hchanged, -, -, -, -, hannounced, -, -, -⟩ :=
    centerTree_accounted hwell hcompletes
  exact ⟨hwell, _, hcompletes, hannounced, hchanged⟩

end Recenter.Run.Action
