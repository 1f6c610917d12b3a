import Mathlib.Order.Defs.Unbundled
import Recenter.Proofs.Run.Failing

/-! What holds of a step of a run however it ends. `Ensures` says it of one start: what is true of
the value and the world if the step completes, and of the failure and the world if it fails. What
the visits of a walk keep up between them, the walk keeps up (`Ensures.forSourceFiles`). A step is
confined to a relation between worlds and to some failures if from every start it leaves a world in
that relation, and fails in no other way. A run prints nothing but the lines of its announcements,
and never fails in one of the ways that are reported with an exit code (`confined_runCenter`). -/

namespace Recenter.Run.Action

open Recenter.Files Recenter.Text Recenter.Banner Recenter.Config

variable {α β σ : Type} {P : α → World → Prop} {P' : β → World → Prop}
  {Q : Failure → World → Prop} {R : World → World → Prop} {F : Failure → Prop} {x : Action α}
  {k : α → Action β} {w w' : World} {a : α} {f : Failure} {s : Selection}
  {visit : σ → Path → Action σ} {I : σ → World → Prop}

/-- Started in this world, the step completes with a value and in a world of which `P` holds, or
fails in a way and in a world of which `Q` does. -/
structure Ensures (P : α → World → Prop) (Q : Failure → World → Prop) (x : Action α) (w : World) :
    Prop where
  completes : ∀ {a w'}, Completes x w a w' → P a w'
  fails : ∀ {f w'}, Fails x w f w' → Q f w'

namespace Ensures

theorem imp {P' : α → World → Prop} {Q' : Failure → World → Prop} (h : Ensures P Q x w)
    (hP : ∀ {a w'}, P a w' → P' a w') (hQ : ∀ {f w'}, Q f w' → Q' f w') : Ensures P' Q' x w :=
  ⟨fun hx => hP (h.completes hx), fun hx => hQ (h.fails hx)⟩

theorem pure (h : P a w) : Ensures P Q (pure a) w where
  completes hx := by
    obtain ⟨rfl, rfl⟩ := completes_pure_iff.1 hx
    exact h
  fails hx := absurd hx not_fails_pure

theorem fail (h : Q f w) : Ensures P Q (fail f : Action α) w where
  completes hx := absurd hx not_completes_fail
  fails hx := by
    obtain ⟨rfl, rfl⟩ := fails_fail_iff.1 hx
    exact h

theorem modify {P : Unit → World → Prop} {g : World → World} (h : P () (g w)) :
    Ensures P Q (modify g : Action Unit) w where
  completes hx := completes_modify_iff.1 hx ▸ h
  fails hx := nomatch hx

theorem bind (h : Ensures P Q x w) (hk : ∀ {a w₁}, P a w₁ → Ensures P' Q (k a) w₁) :
    Ensures P' Q (x >>= k) w where
  completes hx := by
    obtain ⟨a, w₁, hfirst, hrest⟩ := completes_bind_iff.1 hx
    exact (hk (h.completes hfirst)).completes hrest
  fails hx := by
    rcases fails_bind_iff.1 hx with hfirst | ⟨a, w₁, hfirst, hrest⟩
    · exact h.fails hfirst
    · exact (hk (h.completes hfirst)).fails hrest

theorem get_bind {g : World → Action α} (h : Ensures P Q (g w) w) :
    Ensures P Q (get >>= g) w where
  completes hx := h.completes (completes_get_bind_iff.1 hx)
  fails hx := h.fails (fails_get_bind_iff.1 hx)

/-! ## What is kept up from step to step -/

theorem foldlM {step : σ → β → Action σ} {acc : σ}
    (hs : ∀ {acc w} b, I acc w → Ensures I Q (step acc b) w) (items : List β) (h : I acc w) :
    Ensures I Q (items.foldlM step acc) w := by
  induction items generalizing acc w with
  | nil => exact .pure h
  | cons b rest ih =>
    rw [List.foldlM_cons]
    exact (hs b h).bind ih

theorem listing {J : World → Prop} (hQ : ∀ {w} e p, J w → Q (.access e p) w) (dir : Path)
    (h : J w) : Ensures (fun _ => J) Q (listing dir) w := by
  refine .get_bind ?_
  split
  · exact .pure h
  · exact .fail (hQ _ _ h)

theorem look {J : World → Prop} (hQ : ∀ {w} e p, J w → Q (.access e p) w) (dir : Path)
    (name : String) (h : J w) : Ensures (fun _ => J) Q (look dir name) w := by
  unfold Action.look
  dsimp only
  split
  · exact .fail (hQ _ _ h)
  · refine .get_bind ?_
    split <;> exact .pure h

theorem walk {acc : σ} (hQ : ∀ {acc w} e p, I acc w → Q (.access e p) w)
    (hv : ∀ {acc w} path, I acc w → Ensures I Q (visit acc path) w) (fuel : Nat) (dir : Path)
    (h : I acc w) : Ensures I Q (walk s visit fuel acc dir) w := by
  -- By the fuel: a name in a directory is passed over, visited, or walked below with less of it.
  induction fuel generalizing acc w dir with
  | zero => exact .pure h
  | succ fuel ih =>
    rw [walk_succ]
    refine (listing hQ dir h).bind fun h => foldlM (fun name h => ?_) _ h
    refine (look hQ dir name h).bind fun {e w₁} h => ?_
    split
    · split
      · exact ih _ h
      · exact .pure h
    · split
      · exact hv _ h
      · exact .pure h
    · exact .pure h

theorem forSourceFiles {acc : σ} (hQ : ∀ {acc w} e p, I acc w → Q (.access e p) w)
    (hv : ∀ {acc w} path, I acc w → Ensures I Q (visit acc path) w) (root : Path) (h : I acc w) :
    Ensures I Q (forSourceFiles s visit acc root) w :=
  .get_bind (walk hQ hv _ root h)

end Ensures

/-- From every start, the step leaves a world in this relation to the start and fails in no other
than these ways. -/
def Confined (R : World → World → Prop) (F : Failure → Prop) (x : Action α) : Prop :=
  ∀ w, Ensures (fun _ => R w) (fun f w' => R w w' ∧ F f) x w

namespace Confined

theorem of_completes (h : Confined R F x) (hx : Completes x w a w') : R w w' :=
  (h w).completes hx

theorem of_fails (h : Confined R F x) (hx : Fails x w f w') : R w w' := ((h w).fails hx).1

theorem failure (h : Confined R F x) (hx : Fails x w f w') : F f := ((h w).fails hx).2

theorem modify {g : World → World} (hg : ∀ w, R w (g w)) :
    Confined R F (modify g : Action Unit) := fun w => .modify (hg w)

theorem get_bind {g : World → Action α} (hg : ∀ w, Confined R F (g w)) :
    Confined R F (get >>= g) := fun w => .get_bind (hg w w)

/-! ## Steps in a row -/

variable [IsPreorder World R]

theorem pure (a : α) : Confined R F (pure a) := fun w => .pure (refl_of R w)

theorem fail {f : Failure} (h : F f) : Confined R F (fail f : Action α) :=
  fun w => .fail ⟨refl_of R w, h⟩

/-- What has been reached is gone on from. -/
theorem ensures_of_rel (h : Confined R F x) {w₁ : World} (hR : R w w₁) :
    Ensures (fun _ => R w) (fun f w' => R w w' ∧ F f) x w₁ :=
  (h w₁).imp (trans_of R hR) fun hx => ⟨trans_of R hR hx.1, hx.2⟩

theorem bind (hx : Confined R F x) (hk : ∀ a, Confined R F (k a)) : Confined R F (x >>= k) :=
  fun w => (hx w).bind fun {a _} hR => (hk a).ensures_of_rel hR

theorem forSourceFiles (hF : ∀ e p, F (.access e p))
    (hv : ∀ acc path, Confined R F (visit acc path)) (acc : σ) (root : Path) :
    Confined R F (forSourceFiles s visit acc root) :=
  fun w => .forSourceFiles (fun e p hR => ⟨hR, hF e p⟩)
    (fun {acc _} path hR => (hv acc path).ensures_of_rel hR) root (refl_of R w)

end Confined

/-! ## What a run prints, and how it fails -/

def printed (reporter : Reporter) (paths : List Path) : String :=
  match reporter with
  | none => ""
  | some text => String.join (paths.map text)

/-- What has been printed are the lines of what has been announced. -/
def Prints (reporter : Reporter) (w w' : World) : Prop :=
  ∃ paths, w'.announced = w.announced ++ paths ∧ w'.stdout = w.stdout ++ printed reporter paths

theorem printed_nil (reporter : Reporter) : printed reporter [] = "" := by
  cases reporter <;> rfl

theorem printed_append (reporter : Reporter) (paths more : List Path) :
    printed reporter (paths ++ more) = printed reporter paths ++ printed reporter more := by
  cases reporter with
  | none => rfl
  | some text => simp [printed]

theorem prints_of_eq {reporter : Reporter} {w w' : World} (ha : w'.announced = w.announced)
    (hs : w'.stdout = w.stdout) : Prints reporter w w' :=
  ⟨[], by rw [ha, List.append_nil], by rw [hs, printed_nil, String.append_empty]⟩

instance (reporter : Reporter) : IsPreorder World (Prints reporter) where
  refl _ := prints_of_eq rfl rfl
  trans _ _ _ h h' := by
    obtain ⟨paths, ha, hs⟩ := h
    obtain ⟨more, ha', hs'⟩ := h'
    exact ⟨paths ++ more, by rw [ha', ha, List.append_assoc],
      by rw [hs', hs, printed_append, String.append_assoc]⟩

/-- The failure is not one of those that are reported with an exit code. -/
def IsUnreported (f : Failure) : Prop := f.report? = none

variable {reporter : Reporter} {path : Path} {name : String} {c : Context} {settings : Settings}

/-- Neither writing files nor announcing them leads out of the relation. -/
structure Tolerates (R : World → World → Prop) (reporter : Reporter) : Prop where
  files : ∀ w files, R w { w with files := files }
  announced : ∀ w path text, reporter = some text →
    R w { w with announced := w.announced ++ [path], stdout := w.stdout ++ text path }

theorem tolerates_prints (reporter : Reporter) : Tolerates (Prints reporter) reporter where
  files _ _ := prints_of_eq rfl rfl
  announced w path text hr := ⟨[path], rfl, by simp [hr, printed]⟩

section

variable [IsPreorder World R]

theorem confined_announce (h : Tolerates R reporter) :
    Confined R IsUnreported (announce reporter path) := by
  cases reporter with
  | none => exact .pure ()
  | some text => exact .modify fun w => h.announced w path text rfl

theorem confined_readOctets : Confined R IsUnreported (readOctets path) := by
  refine .get_bind fun w => ?_
  split
  · exact .pure _
  · exact .fail rfl

theorem confined_writeOctets (h : Tolerates R reporter) {octets : List UInt8} :
    Confined R IsUnreported (writeOctets path octets) := by
  refine .get_bind fun w => ?_
  split
  · exact .modify fun w => h.files w _
  · exact .fail rfl

theorem confined_openWith {openFile : Action α} (h : Confined R IsUnreported openFile) :
    Confined R IsUnreported (openWith name openFile) := by
  unfold openWith
  split
  · exact .fail rfl
  · exact .bind h fun _ => .pure _
  · exact .bind h fun _ => .fail rfl

theorem confined_readLines : Confined R IsUnreported (readLines path name) := by
  unfold readLines
  refine .bind (confined_openWith confined_readOctets) fun (octets, encoding) => ?_
  simp only
  split
  · exact .pure _
  · exact .fail rfl

theorem confined_writeLines (h : Tolerates R reporter) {lines : List Line} :
    Confined R IsUnreported (writeLines path lines name) := by
  unfold writeLines
  refine .bind (confined_openWith (confined_writeOctets h)) fun (_, encoding) => ?_
  simp only
  split
  · exact confined_writeOctets h
  · exact .fail rfl

theorem confined_reviseFile (h : Tolerates R reporter) {pass : List Line → Revision} :
    Confined R IsUnreported (reviseFile path name pass) := by
  unfold reviseFile
  refine .bind confined_readLines fun lines => ?_
  simp only
  split
  · exact .bind (confined_writeLines h) fun _ => .pure _
  · exact .pure _

theorem confined_sectionPass (h : Tolerates R reporter) {token : List Char} :
    Confined R IsUnreported (sectionPass path token name) := by
  unfold sectionPass
  split
  · exact .fail rfl
  · exact confined_reviseFile h

/-- A pass that has changed the file is announced before the run goes on. -/
theorem confined_announced (h : Tolerates R reporter) {changed : Bool} {k : Action α}
    (hk : Confined R IsUnreported k) :
    Confined R IsUnreported (do
      if changed then announce reporter path
      k) := by
  cases changed with
  | false => exact hk
  | true => exact .bind (confined_announce h) fun _ => hk

theorem confined_centerFile (h : Tolerates R reporter) :
    Confined R IsUnreported (centerFile path settings reporter) :=
  .bind (confined_reviseFile h) fun _ => confined_announced h <|
    .bind (confined_sectionPass h) fun _ => confined_announced h (.pure _)

end

theorem confined_log {level : Level} {component action : String} {fields : List (String × Json)} :
    Confined (Prints reporter) IsUnreported (log c level component action fields) := by
  unfold log
  split
  · exact .modify fun _ => prints_of_eq rfl rfl
  · exact .pure ()

theorem confined_centerNext {report : Report} :
    Confined (Prints reporter) IsUnreported (centerNext c settings reporter report path) := by
  refine .bind confined_log fun _ =>
    .bind (confined_centerFile (tolerates_prints reporter)) fun passes => ?_
  simp only
  split
  · exact .pure _
  · exact .bind confined_log fun _ => .pure _

theorem confined_centerTree :
    Confined (Prints reporter) IsUnreported (centerTree c settings reporter) :=
  .forSourceFiles (fun _ _ => rfl) (fun _ _ => confined_centerNext) _ _

/-- A run prints the lines of its announcements, or nothing where its output is to be one
document, and fails in no way that has an exit code of its own. -/
theorem confined_runCenter :
    Confined (Prints (if c.asJson then none else some updatedLine)) IsUnreported
      (runCenter c settings) :=
  .bind confined_log fun _ => .bind confined_centerTree fun _ => .bind confined_log fun _ =>
    .pure _

end Recenter.Run.Action
