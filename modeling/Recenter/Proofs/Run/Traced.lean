import Recenter.Proofs.Run.Abort
import Recenter.Proofs.Run.Confined

/-! What the visits of a run keep up the whole run does (`Ensures.runCenter`), as long as logging
does not touch it. So it is with the trace that a change leaves: at every point of a run each file
that has changed is led to by a path in the report, and that path has been announced if there is a
reporter. A visit keeps this up (`ensures_centerNext`), and so does a run, also where it fails
(`ensures_runCenter`). -/

namespace Recenter.Run.Action

open Recenter.Files Recenter.Config

section

variable {I : Report → World → Prop} {Q : Failure → World → Prop} {c : Context}
  {settings : Settings} {report : Report} {w : World}

theorem Ensures.log {J : World → Prop}
    (hlog : ∀ {w w'}, w'.files = w.files → w'.announced = w.announced → J w → J w')
    {level : Level} {component action : String} {fields : List (String × Json)} (h : J w) :
    Ensures (fun _ => J) Q (log c level component action fields) w where
  completes hx := by
    rw [completes_log hx]
    exact hlog (w := w) rfl rfl h
  fails hx := absurd hx not_fails_log

/-- What holds of the empty report, is kept up by the visits and does not depend on what is logged,
holds of the report of a run. -/
theorem Ensures.runCenter
    (hlog : ∀ {report w w'}, w'.files = w.files → w'.announced = w.announced → I report w →
      I report w')
    (hQ : ∀ {report w} e p, I report w → Q (.access e p) w)
    (hv : ∀ {report w} path, I report w → Ensures I Q
      (centerNext c settings (if c.asJson then none else some updatedLine) report path) w)
    (h : I { root := c.root } w) : Ensures I Q (runCenter c settings) w := by
  refine (Ensures.log (J := I { root := c.root }) hlog h).bind fun h => ?_
  refine (Ensures.forSourceFiles hQ hv c.root h).bind fun {report _} h => ?_
  exact (Ensures.log (J := I report) hlog h).bind fun h => .pure h

end

/-- The trees differ in nothing but what files hold to which one of the paths leads. -/
structure Traced (paths : List Path) (t t' : FileTree) : Prop where
  outline : t.SameOutline t'
  leads : ∀ names octets, t.top.find? names = some (.file octets) →
    t'.top.find? names ≠ some (.file octets) → ∃ path ∈ paths, t.Leads path names

variable {paths more : List Path} {t t' t'' : FileTree} {settings : Settings} {reporter : Reporter}
  {c : Context} {report : Report} {w w' w₀ : World} {updates : List Update} {path : Path}

theorem Traced.refl (paths : List Path) (t : FileTree) : Traced paths t t :=
  ⟨.refl t, fun _ _ h hne => absurd h hne⟩

theorem Traced.trans (h : Traced paths t t') (h' : Traced more t' t'') :
    Traced (paths ++ more) t t'' where
  outline := h.outline.trans h'.outline
  leads names octets hf hne := by
    by_cases hf' : t'.top.find? names = some (.file octets)
    · obtain ⟨path, hm, hl⟩ := h'.leads names octets hf' hne
      exact ⟨path, List.mem_append_right _ hm, h.outline.leads_iff.1 hl⟩
    · obtain ⟨path, hm, hl⟩ := h.leads names octets hf hf'
      exact ⟨path, List.mem_append_left _ hm, hl⟩

theorem Accounted.traced (h : Accounted reporter w paths updates w') :
    Traced (updates.map Update.path) w.files w'.files where
  outline := h.outline
  leads names octets hf hne := by
    obtain ⟨update, hm, hl⟩ := (h.changed_iff names octets hf).1 hne
    exact ⟨update.path, List.mem_map_of_mem hm, hl⟩

/-- Each update of an account is announced, if anything is. -/
theorem Accounted.mem_announced {text : Path → String}
    (h : Accounted (some text) w paths updates w') {update : Update} (hm : update ∈ updates) :
    update.path ∈ w'.announced := by
  rw [h.announced, announcements_some]
  refine List.mem_append_right _ (List.mem_flatMap.2 ⟨update, hm, ?_⟩)
  have hne : update.passes.length ≠ 0 := fun hz =>
    (h.passes update hm).1 (List.length_eq_zero_iff.1 hz)
  exact List.mem_replicate.2 ⟨hne, rfl⟩

/-- The report covers what has changed since a run began, and has been announced. -/
structure Covers (reporter : Reporter) (w₀ : World) (report : Report) (w : World) : Prop where
  traced : Traced (report.updates.map Update.path) w₀.files w.files
  announced : reporter.isSome = true → ∀ update ∈ report.updates, update.path ∈ w.announced

theorem covers_empty (reporter : Reporter) (w₀ : World) (root : Path) :
    Covers reporter w₀ { root := root } w₀ := ⟨.refl _ _, nofun⟩

theorem Covers.of_eq (h : Covers reporter w₀ report w) (hf : w'.files = w.files)
    (ha : w'.announced = w.announced) : Covers reporter w₀ report w' :=
  ⟨hf ▸ h.traced, fun hs update hm => ha ▸ h.announced hs update hm⟩

theorem Covers.append {scanned : Nat} (h : Covers reporter w₀ report w)
    (h' : Accounted reporter w paths updates w') :
    Covers reporter w₀ ⟨report.root, scanned, report.updates ++ updates⟩ w' where
  traced := by
    rw [List.map_append]
    exact h.traced.trans h'.traced
  announced hs update hm := by
    rcases List.mem_append.1 hm with hm | hm
    · rw [h'.announced]
      exact List.mem_append_left _ (h.announced hs update hm)
    · obtain ⟨text, rfl⟩ := Option.isSome_iff_exists.1 hs
      exact h'.mem_announced hm

/-- A visit brings its file into the report if it has changed it, and a visit that fails has changed
none. -/
theorem ensures_centerNext (hu : Usable settings) (h : Covers reporter w₀ report w) (path : Path) :
    Ensures (Covers reporter w₀) (fun _ w' => ∃ report, Covers reporter w₀ report w')
      (centerNext c settings reporter report path) w where
  completes hx := by
    obtain ⟨passes, haccount, rfl⟩ := completes_centerNext hx
    exact h.append haccount
  fails hx := by
    obtain ⟨⟨token, ht⟩, ⟨encoding, he⟩⟩ := hu
    obtain ⟨hf, ha, -⟩ := fails_centerNext he ht hx
    exact ⟨report, h.of_eq hf ha⟩

/-- However a run ends, a report covers what has changed: the one that it returns, if it
completes. -/
theorem ensures_runCenter (hu : Usable settings) (w₀ : World) :
    Ensures (Covers (if c.asJson then none else some updatedLine) w₀)
      (fun _ w' => ∃ report, Covers (if c.asJson then none else some updatedLine) w₀ report w')
      (runCenter c settings) w₀ :=
  .runCenter (fun hf ha h => h.of_eq hf ha) (fun _ _ h => ⟨_, h⟩)
    (fun path h => ensures_centerNext hu h path) (covers_empty _ w₀ c.root)

end Recenter.Run.Action
