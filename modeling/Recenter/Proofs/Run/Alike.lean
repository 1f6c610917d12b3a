import Recenter.Proofs.Run.Traced

/-! Two runs side by side, on the same files and with the same settings and root. Steps agree if
they end in the same way and leave the same files, wherever they start from the same files; steps
that print the same agree on what is printed, too. What a run is told about its output and its log
decides only what is printed and logged: every step of one run agrees with that of the other
(`agree_runCenter`), so both end alike (`runCenter_alike`). -/

namespace Recenter.Run.Action

open Recenter.Files Recenter.Text Recenter.Banner Recenter.Config

variable {α β σ : Type} {P : Prop} {x y : Action α} {k l : α → Action β} {w v w' v' : World} {a : α}
  {f : Failure} {s : Selection} {visit visit' : σ → Path → Action σ}

/-- The files are the same, and what has been printed is, if `P` holds. -/
structure Alike (P : Prop) (w v : World) : Prop where
  files : v.files = w.files
  stdout : P → v.stdout = w.stdout

/-- From worlds that are alike both steps end in the same way, and in worlds that are alike. -/
def Agree (P : Prop) (x y : Action α) : Prop :=
  ∀ w v, Alike P w v →
    (y.run.run v).1 = (x.run.run w).1 ∧ Alike P (x.run.run w).2 (y.run.run v).2

theorem Alike.refl (P : Prop) (w : World) : Alike P w w := ⟨rfl, fun _ => rfl⟩

theorem Alike.of_files (h : v.files = w.files) (hP : ¬ P) : Alike P w v :=
  ⟨h, fun hp => absurd hp hP⟩

namespace Agree

/-- However the first step ends, the second one ends in the same way. -/
theorem exists_run (h : Agree P x y) (hw : Alike P w v) {result : Except Failure α}
    (hx : x.run.run w = (result, w')) :
    ∃ v', y.run.run v = (result, v') ∧ Alike P w' v' := by
  obtain ⟨hresult, hworld⟩ := h w v hw
  rw [hx] at hresult hworld
  exact ⟨(y.run.run v).2, Prod.ext hresult rfl, hworld⟩

theorem pure (a : α) : Agree P (pure a) (pure a) := fun _ _ hw => ⟨rfl, hw⟩

theorem fail (f : Failure) : Agree P (fail f : Action α) (fail f) := fun _ _ hw => ⟨rfl, hw⟩

theorem modify {g g' : World → World} (h : ∀ w v, Alike P w v → Alike P (g w) (g' v)) :
    Agree P (modify g : Action Unit) (modify g') := fun w v hw => ⟨rfl, h w v hw⟩

theorem bind (hx : Agree P x y) (hk : ∀ a, Agree P (k a) (l a)) :
    Agree P (x >>= k) (y >>= l) := by
  intro w v hw
  obtain ⟨hresult, hworld⟩ := hx w v hw
  rw [run_bind, run_bind]
  generalize x.run.run w = here at hresult hworld ⊢
  generalize y.run.run v = there at hresult hworld ⊢
  obtain ⟨result, w₁⟩ := here
  obtain ⟨result', v₁⟩ := there
  obtain rfl : result' = result := hresult
  cases result' with
  | ok a => exact hk a w₁ v₁ hworld
  | error f => exact ⟨rfl, hworld⟩

/-- Steps that look at the world agree if they agree in all worlds that are alike. -/
theorem get_bind {g g' : World → Action α} (h : ∀ w v, Alike P w v → Agree P (g w) (g' v)) :
    Agree P (get >>= g) (get >>= g') := fun w v hw => h w v hw w v hw

/-! ## Walks -/

theorem foldlM {step step' : σ → β → Action σ} (h : ∀ acc b, Agree P (step acc b) (step' acc b))
    (items : List β) (acc : σ) : Agree P (items.foldlM step acc) (items.foldlM step' acc) := by
  induction items generalizing acc with
  | nil => exact .pure acc
  | cons b rest ih =>
    rw [List.foldlM_cons, List.foldlM_cons]
    exact (h acc b).bind ih

theorem listing (dir : Path) : Agree P (listing dir) (listing dir) := by
  refine .get_bind fun w v hw => ?_
  rw [hw.files]
  split
  · exact .pure _
  · exact .fail _

theorem look (dir : Path) (name : String) : Agree P (look dir name) (look dir name) := by
  unfold Action.look
  dsimp only
  split
  · exact .fail _
  · refine .get_bind fun w v hw => ?_
    rw [hw.files]
    split
    · exact .pure _
    · exact .pure _

theorem walk (hv : ∀ acc path, Agree P (visit acc path) (visit' acc path)) (fuel : Nat) (acc : σ)
    (dir : Path) : Agree P (walk s visit fuel acc dir) (walk s visit' fuel acc dir) := by
  -- By the fuel: both walks find the same names, and the same entries at them.
  induction fuel generalizing acc dir with
  | zero => exact .pure acc
  | succ fuel ih =>
    rw [walk_succ, walk_succ]
    refine (listing dir).bind fun names => foldlM (fun acc name => ?_) names acc
    refine (look dir name).bind fun e => ?_
    split
    · split
      · exact ih acc _
      · exact .pure acc
    · split
      · exact hv acc _
      · exact .pure acc
    · exact .pure acc

theorem forSourceFiles (hv : ∀ acc path, Agree P (visit acc path) (visit' acc path)) (acc : σ)
    (root : Path) :
    Agree P (forSourceFiles s visit acc root) (forSourceFiles s visit' acc root) := by
  refine .get_bind fun w v hw => ?_
  rw [hw.files]
  exact walk hv _ acc root

end Agree

/-! ## One file -/

variable {path : Path} {name : String} {settings : Settings} {reporter reporter' : Reporter}
  {c c' : Context}

theorem agree_readOctets : Agree P (readOctets path) (readOctets path) := by
  refine .get_bind fun w v hw => ?_
  rw [hw.files]
  split
  · exact .pure _
  · exact .fail _

theorem agree_writeOctets {octets : List UInt8} :
    Agree P (writeOctets path octets) (writeOctets path octets) := by
  refine .get_bind fun w v hw => ?_
  rw [hw.files]
  split
  · exact .modify fun w v hw => ⟨rfl, hw.stdout⟩
  · exact .fail _

theorem agree_openWith {openFile : Action α} (h : Agree P openFile openFile) :
    Agree P (openWith name openFile) (openWith name openFile) := by
  unfold openWith
  split
  · exact .fail _
  · exact h.bind fun _ => .pure _
  · exact h.bind fun _ => .fail _

theorem agree_readLines : Agree P (readLines path name) (readLines path name) := by
  unfold readLines
  refine (agree_openWith agree_readOctets).bind fun (octets, encoding) => ?_
  simp only
  split
  · exact .pure _
  · exact .fail _

theorem agree_writeLines {lines : List Line} :
    Agree P (writeLines path lines name) (writeLines path lines name) := by
  unfold writeLines
  refine (agree_openWith agree_writeOctets).bind fun (_, encoding) => ?_
  simp only
  split
  · exact agree_writeOctets
  · exact .fail _

theorem agree_reviseFile {pass : List Line → Revision} :
    Agree P (reviseFile path name pass) (reviseFile path name pass) := by
  unfold reviseFile
  refine agree_readLines.bind fun lines => ?_
  simp only
  split
  · exact agree_writeLines.bind fun _ => .pure _
  · exact .pure _

theorem agree_sectionPass {token : List Char} :
    Agree P (sectionPass path token name) (sectionPass path token name) := by
  unfold sectionPass
  split
  · exact .fail _
  · exact agree_reviseFile

/-- Whether a file is announced and in which words matters to nothing but what is printed. -/
theorem agree_announce (hr : P → reporter' = reporter) :
    Agree P (announce reporter path) (announce reporter' path) := by
  intro w v hw
  by_cases hP : P
  · rw [hr hP]
    cases reporter with
    | none => exact Agree.pure () w v hw
    | some text => exact ⟨rfl, hw.files, fun hp => congrArg (· ++ text path) (hw.stdout hp)⟩
  · cases reporter <;> cases reporter' <;> exact ⟨rfl, .of_files hw.files hP⟩

theorem agree_announced {changed : Bool} {k k' : Action α} (hr : P → reporter' = reporter)
    (h : Agree P k k') :
    Agree P
      (do
        if changed then announce reporter path
        k)
      (do
        if changed then announce reporter' path
        k') := by
  cases changed with
  | false => exact h
  | true => exact (agree_announce hr).bind fun _ => h

theorem agree_centerFile (hr : P → reporter' = reporter) :
    Agree P (centerFile path settings reporter) (centerFile path settings reporter') :=
  agree_reviseFile.bind fun _ => agree_announced hr <|
    agree_sectionPass.bind fun _ => agree_announced hr (.pure _)

/-! ## A run -/

/-- What is logged, and whether it is, changes neither the files nor what is printed. -/
theorem agree_log {level : Level} {component action : String}
    {fields fields' : List (String × Json)} :
    Agree P (log c level component action fields) (log c' level component action fields') := by
  intro w v hw
  unfold log
  split <;> split <;> exact ⟨rfl, hw.files, hw.stdout⟩

theorem agree_centerNext (hr : P → reporter' = reporter) (report : Report) (path : Path) :
    Agree P (centerNext c settings reporter report path)
      (centerNext c' settings reporter' report path) := by
  refine agree_log.bind fun _ => (agree_centerFile hr).bind fun passes => ?_
  simp only
  split
  · exact .pure _
  · exact agree_log.bind fun _ => .pure _

theorem agree_centerTree (hr : P → reporter' = reporter) (hroot : c'.root = c.root) :
    Agree P (centerTree c settings reporter) (centerTree c' settings reporter') := by
  unfold centerTree
  rw [hroot]
  exact .forSourceFiles (agree_centerNext hr) _ _

/-- How a run announces files. -/
def reporterOf (c : Context) : Reporter := if c.asJson then none else some updatedLine

theorem reporterOf_eq (h : c'.outputFormat = c.outputFormat) : reporterOf c' = reporterOf c := by
  rw [reporterOf, reporterOf, Context.asJson, Context.asJson, h]

theorem agree_runCenter (hroot : c'.root = c.root) (settings : Settings) :
    Agree (c'.outputFormat = c.outputFormat) (runCenter c settings) (runCenter c' settings) :=
  agree_log.bind fun _ => (agree_centerTree reporterOf_eq hroot).bind fun _ =>
    agree_log.bind fun _ => .pure _

/-! ## Where a run fails -/

/-- The visits of the files in `before` complete, and the next one, of the file at `path`, fails. -/
def FailsAt (c : Context) (settings : Settings) (w : World) (before : List Path) (path : Path)
    (f : Failure) : Prop :=
  ∃ report w₁ w₂,
    Completes (before.foldlM (centerNext c settings (reporterOf c)) { root := c.root }) w
        report w₁ ∧
      Fails (centerNext c settings (reporterOf c) report path) w₁ f w₂

variable {before : List Path} {report : Report}

theorem FailsAt.of_root_eq (hroot : c'.root = c.root) (hw : v.files = w.files)
    (h : FailsAt c settings w before path f) : FailsAt c' settings v before path f := by
  obtain ⟨report, w₁, w₂, hbefore, hfails⟩ := h
  have hvisits : Agree False
      (before.foldlM (centerNext c settings (reporterOf c)) ⟨c.root, 0, []⟩)
      (before.foldlM (centerNext c' settings (reporterOf c')) ⟨c.root, 0, []⟩) :=
    .foldlM (agree_centerNext nofun) before _
  obtain ⟨v₁, hbefore', hv₁⟩ := hvisits.exists_run (.of_files hw nofun) hbefore
  obtain ⟨v₂, hfails', -⟩ := (agree_centerNext nofun report path).exists_run hv₁ hfails
  exact ⟨report, v₁, v₂, hroot ▸ hbefore', hfails'⟩

def startEvent (c : Context) (settings : Settings) : Event :=
  ⟨.info, "center", "start", [
    ("root", .text c.root.toString),
    ("extensions", .text (",".intercalate settings.extensions)),
    ("config", .text ((nonempty settings.source).getD "defaults"))]⟩

/-- A run that fails does so after it has logged its start, and before it logs its end. -/
theorem fails_centerTree_of_runCenter (h : Fails (runCenter c settings) w f w') :
    Fails (centerTree c settings (reporterOf c)) (logged c [startEvent c settings] w) f w' := by
  unfold runCenter at h
  rcases fails_bind_iff.1 h with hstart | ⟨_, w₁, hstart, h⟩
  · exact absurd hstart not_fails_log
  rcases fails_bind_iff.1 h with h | ⟨report, w₂, -, h⟩
  · rw [completes_log hstart] at h
    exact h
  rcases fails_bind_iff.1 h with h | ⟨_, _, -, h⟩
  · exact absurd h not_fails_log
  · exact absurd h not_fails_pure

/-- A run fails with one of the source files that were there at its start, or because a path cannot
be used, and then the failure names it. -/
theorem exists_failsAt_of_fails (hw : w.files.top.WellFormed)
    (h : Fails (runCenter c settings) w f w') :
    (∃ e q, f = .access e q) ∨ ∃ before path after,
      sourceFiles w.files (selection settings) c.root = .ok (before ++ path :: after) ∧
        FailsAt c settings w before path f := by
  have hw : (logged c [startEvent c settings] w).files.top.WellFormed := hw
  rcases fails_forSourceFiles keepsOutline_centerNext hw (fails_centerTree_of_runCenter h) with
    ⟨e, -, rfl, -⟩ | ⟨selected, hs, -, before, after, report, w₂, rfl, hbefore, hend⟩
  · exact .inl ⟨e, c.root, rfl⟩
  rcases hend with ⟨path, rest, rfl, hfails⟩ | ⟨-, hend⟩
  · have hat : FailsAt c settings (logged c [startEvent c settings] w) before path f :=
      ⟨report, w₂, w', hbefore, hfails⟩
    have hsame : w.files = (logged c [startEvent c settings] w).files := rfl
    exact .inr ⟨before, path, rest, hs, hat.of_root_eq rfl hsame⟩
  · exact .inl hend

/-! ## What a run prints -/

/-- Since a run began in the first world, the updates of the report have been announced, and nothing
else has. -/
def Announces (reporter : Reporter) (w : World) (report : Report) (w' : World) : Prop :=
  w'.announced = w.announced ++ announcements reporter report.updates

theorem announces_empty (reporter : Reporter) (w : World) (root : Path) :
    Announces reporter w { root := root } w := (List.append_nil _).symm

theorem Announces.ensures_centerNext (h : Announces reporter w report w') (path : Path) :
    Ensures (Announces reporter w) (fun _ _ => True) (centerNext c settings reporter report path)
      w' where
  completes hx := by
    obtain ⟨passes, haccount, rfl⟩ := completes_centerNext hx
    rw [Announces, haccount.announced, h, announcements, announcements, announcements,
      List.flatMap_append, List.append_assoc]
  fails _ := trivial

theorem ensures_announces_runCenter (c : Context) (settings : Settings) (w : World) :
    Ensures (Announces (reporterOf c) w) (fun _ _ => True) (runCenter c settings) w :=
  .runCenter (fun _ ha h => ha.trans h) (fun _ _ _ => trivial)
    (fun path h => h.ensures_centerNext path) (announces_empty _ w c.root)

/-- The lines that announce updates in text, one for each pass. -/
def updatedLines (updates : List Update) : List String :=
  updates.flatMap fun u => List.replicate u.passes.length (updatedLine u.path)

theorem printed_announcements (updates : List Update) :
    printed (some updatedLine) (announcements (some updatedLine) updates) =
      String.join (updatedLines updates) := by
  rw [announcements_some, printed, updatedLines, List.map_flatMap]
  simp only [List.map_replicate]

/-- A run in text prints a line for each pass that has changed a file. -/
theorem stdout_of_completes (hj : c.asJson = false)
    (h : Completes (runCenter c settings) w report w') :
    w'.stdout = w.stdout ++ String.join (updatedLines report.updates) := by
  have hannounces := (ensures_announces_runCenter c settings w).completes h
  obtain ⟨paths, ha, hout⟩ := confined_runCenter.of_completes h
  have hr : reporterOf c = some updatedLine := by simp [reporterOf, hj]
  rw [Announces, hr, ha, List.append_cancel_left_eq] at hannounces
  rw [hout, hj, hannounces]
  exact congrArg _ (printed_announcements _)

/-- Two runs with the same settings and root, whatever they are told of their name, their output,
their log and the time, leave the same files, and both complete with the same report or both fail in
the same way at the same file. If their output has the same form it is the same, and in text it is a
line for each pass that is in the report. -/
theorem runCenter_alike (hroot : c'.root = c.root) (settings : Settings) (w : World) :
    let here := (runCenter c settings).run.run w
    let there := (runCenter c' settings).run.run w
    there.1 = here.1 ∧ there.2.files = here.2.files ∧
    (∀ f, here.1 = .error f → w.files.top.WellFormed →
      (∃ e q, f = .access e q) ∨ ∃ before path after,
        sourceFiles w.files (selection settings) c.root = .ok (before ++ path :: after) ∧
          FailsAt c settings w before path f ∧ FailsAt c' settings w before path f) ∧
    (c'.outputFormat = c.outputFormat → there.2.stdout = here.2.stdout) ∧
    (c.asJson = false → ∀ report, here.1 = .ok report →
      here.2.stdout = w.stdout ++ String.join (updatedLines report.updates)) := by
  intro here there
  obtain ⟨hresult, hfiles, hout⟩ := agree_runCenter hroot settings w w (.refl _ w)
  refine ⟨hresult, hfiles, fun f hf hw => ?_, hout, fun hj report hr => ?_⟩
  · refine (exists_failsAt_of_fails hw (Prod.ext hf rfl)).imp_right ?_
    intro hx
    obtain ⟨before, path, after, hs, hat⟩ := hx
    exact ⟨before, path, after, hs, hat, hat.of_root_eq hroot rfl⟩
  · exact stdout_of_completes hj (Prod.ext hr rfl)

/-- Two contexts that differ in all but the root. -/
def talkative : Context where
  runId := "r"
  root := ⟨0, []⟩
  outputFormat := "text"
  verbose := true
  quiet := false
  logJson := false
  now := ⟨⟨2001, 1, 1⟩, 0, 0, 0, 0, none⟩

def taciturn : Context where
  runId := ""
  root := ⟨0, []⟩
  outputFormat := "json"
  verbose := false
  quiet := true
  logJson := true
  now := ⟨⟨2002, 2, 2⟩, 0, 0, 0, 0, none⟩

/-- Both fail at the file that is not UTF-8, after the one in front of it. -/
theorem runCenter_alike_brokenTree :
    let here := (runCenter talkative {}).run.run brokenTree
    let there := (runCenter taciturn {}).run.run brokenTree
    let f : Failure := .decoding (.malformed "utf-8" 0xFF 0 1 .startByte)
    taciturn.root = talkative.root ∧ there.1 = .error f ∧ there.2.files = here.2.files ∧
      here.2.stdout = "Updated: a.ts\n" ∧
      ∃ before path, FailsAt talkative {} brokenTree before path f ∧
        FailsAt taciturn {} brokenTree before path f := by
  intro here there f
  -- One evaluation for both: what the run ends with and what it prints.
  have hend : (fun r : Except Failure Report × World => (r.1, r.2.stdout))
      ((runCenter talkative {}).run.run brokenTree) =
        (.error (.decoding (.malformed "utf-8" 0xFF 0 1 .startByte)), "Updated: a.ts\n") := by cbv
  have hrun : here.1 = .error f := congrArg Prod.fst hend
  have hout : here.2.stdout = "Updated: a.ts\n" := congrArg Prod.snd hend
  have hroot : taciturn.root = talkative.root := rfl
  obtain ⟨hresult, hfiles, hat, -⟩ := runCenter_alike hroot {} brokenTree
  rcases hat f hrun (by decide) with ⟨e, q, he⟩ | ⟨before, path, -, -, hhere, hthere⟩
  · simp [f] at he
  · exact ⟨hroot, hresult.trans hrun, hfiles, hout, before, path, hhere, hthere⟩

end Recenter.Run.Action
