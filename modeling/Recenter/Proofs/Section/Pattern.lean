import Recenter.Proofs.Section.Inner

/-! The pattern of a section banner, read with backtracking. A repetition offers its cuts in order,
the longest run first or, for the title, the shortest, and what follows is tried behind each of
them. The readings of a line are listed in the order in which they are found, and `split?` takes the
first of them (`split?_eq_head?_readings`): opening and closing leave no choice, the left run and
the gap behind it are as long as a title lets them be, and the title ends where the gap in front of
the right run begins. -/

namespace Recenter.Banner.Section

open Recenter.Text

variable {token line opening closing inner left before title after right gap s : List Char}
  {c : Char}

/-! ## The pattern -/

/-- A text cut in two. -/
abbrev Cut := List Char × List Char

/-- The cuts behind a run of `p`, the longest run first. -/
def greedy (p : Char → Bool) : List Char → List Cut
  | [] => [([], [])]
  | c :: s =>
    if p c then (greedy p s).map (fun cut => (c :: cut.1, cut.2)) ++ [([], c :: s)]
    else [([], c :: s)]

/-- The cuts behind a run that is not empty, the longest first. -/
def greedyPlus (p : Char → Bool) (s : List Char) : List Cut :=
  (greedy p s).filter fun cut => !cut.1.isEmpty

/-- The cuts behind a run that is not empty, the shortest first. -/
def lazyPlus (p : Char → Bool) (s : List Char) : List Cut :=
  (greedyPlus p s).reverse

def literal (token s : List Char) : List Cut :=
  ((token.isPrefixOf? s).map fun rest => (token, rest)).toList

/-- The cuts behind two parts. -/
def andThen (first second : List Char → List Cut) (s : List Char) : List Cut :=
  (first s).flatMap fun a => (second a.2).map fun b => (a.1 ++ b.1, b.2)

/-- Blanks, the token and at least one blank. -/
def openings (token : List Char) : List Char → List Cut :=
  andThen (greedy isBlank) (andThen (literal token) (greedyPlus isBlank))

/-- At least one blank, the token and blanks. -/
def closings (token : List Char) : List Char → List Cut :=
  andThen (greedyPlus isBlank) (andThen (literal token) (greedy isBlank))

/-- Right run and closing, behind blanks and in front of nothing. -/
def endings (token s : List Char) : List (List Char × List Char) :=
  (greedy isBlank s).flatMap fun after =>
    (greedyPlus isDash after.2).flatMap fun right =>
      ((closings token right.2).filter fun closing => closing.2.isEmpty).map fun closing =>
        (right.1, closing.1)

/-- Title, right run and closing. A title holds no line feed. -/
def titlings (token opening left s : List Char) : List Parts :=
  (lazyPlus (· != '\n') s).flatMap fun title =>
    (endings token title.2).map fun ending => ⟨opening, left, title.1, ending.1, ending.2⟩

/-- Left run, blanks, title, right run and closing. -/
def bodies (token opening s : List Char) : List Parts :=
  (greedyPlus isDash s).flatMap fun left =>
    (greedy isBlank left.2).flatMap fun before => titlings token opening left.1 before.2

/-- The readings of a line, in the order in which they are found. -/
def readings (token line : List Char) : List Parts :=
  (openings token line).flatMap fun opening => bodies token opening.1 opening.2

/-! ## What is read -/

theorem mem_greedy_iff {p : Char → Bool} {run rest : List Char} :
    (run, rest) ∈ greedy p s ↔ s = run ++ rest ∧ ∀ c ∈ run, p c = true := by
  induction s generalizing run with
  | nil =>
    cases run with
    | nil =>
      simp only [greedy, List.mem_singleton, Prod.mk.injEq, true_and, List.nil_append,
        List.not_mem_nil, IsEmpty.forall_iff, implies_true, and_true]
      exact eq_comm
    | cons c run => simp [greedy]
  | cons c s ih =>
    cases run with
    | nil =>
      have hself : ([], rest) ∈ greedy p (c :: s) ↔ rest = c :: s := by
        rw [greedy]
        split <;> simp
      rw [hself]
      simp only [List.nil_append, List.not_mem_nil, IsEmpty.forall_iff, implies_true, and_true]
      exact eq_comm
    | cons d run =>
      rw [greedy]
      split
      · next hc =>
        simp only [List.mem_append, List.mem_map, Prod.exists, Prod.mk.injEq, List.cons.injEq]
        constructor
        · intro h
          rcases h with ⟨run', rest', hm, ⟨rfl, rfl⟩, rfl⟩ | hm
          · obtain ⟨rfl, hrun⟩ := ih.1 hm
            refine ⟨by simp, fun e he => ?_⟩
            rcases List.mem_cons.1 he with rfl | he
            exacts [hc, hrun e he]
          · simp at hm
        · intro h
          obtain ⟨⟨rfl, rfl⟩, hrun⟩ := h
          exact .inl ⟨run, rest, ih.2 ⟨rfl, fun e he => hrun e (by simp [he])⟩, ⟨rfl, rfl⟩, rfl⟩
      · next hc =>
        simp only [List.mem_singleton, Prod.mk.injEq, List.cons_ne_nil, false_and, false_iff]
        intro h
        obtain ⟨he, hrun⟩ := h
        cases he
        exact hc (hrun c (by simp))

theorem mem_greedyPlus_iff {p : Char → Bool} {run rest : List Char} :
    (run, rest) ∈ greedyPlus p s ↔ s = run ++ rest ∧ (∀ c ∈ run, p c = true) ∧ run ≠ [] := by
  simp [greedyPlus, mem_greedy_iff, and_assoc]

theorem mem_lazyPlus_iff {run rest : List Char} :
    (run, rest) ∈ lazyPlus (· != '\n') s ↔ s = run ++ rest ∧ '\n' ∉ run ∧ run ≠ [] := by
  have hlf : (∀ c ∈ run, (c != '\n') = true) ↔ '\n' ∉ run := by
    simp only [bne_iff_ne]
    exact ⟨fun h hm => h _ hm rfl, fun h c hc he => h (he ▸ hc)⟩
  rw [lazyPlus, List.mem_reverse, mem_greedyPlus_iff, hlf]

theorem mem_literal_iff {run rest : List Char} :
    (run, rest) ∈ literal token s ↔ run = token ∧ s = token ++ rest := by
  simp only [literal, Option.mem_toList, Option.map_eq_some_iff, Prod.mk.injEq,
    isPrefixOf?_eq_some_iff]
  constructor
  · intro h
    obtain ⟨_, rfl, rfl, rfl⟩ := h
    exact ⟨rfl, rfl⟩
  · intro h
    obtain ⟨rfl, rfl⟩ := h
    exact ⟨rest, rfl, rfl, rfl⟩

theorem mem_andThen_iff {first second : List Char → List Cut} {run rest : List Char} :
    (run, rest) ∈ andThen first second s ↔
      ∃ a b between, (a, between) ∈ first s ∧ (b, rest) ∈ second between ∧ run = a ++ b := by
  simp only [andThen, List.mem_flatMap, List.mem_map, Prod.exists, Prod.mk.injEq]
  constructor
  · intro h
    obtain ⟨a, between, ha, b, _, hb, rfl, rfl⟩ := h
    exact ⟨a, b, between, ha, hb, rfl⟩
  · intro h
    obtain ⟨a, b, between, ha, hb, rfl⟩ := h
    exact ⟨a, between, ha, b, rest, hb, rfl, rfl⟩

theorem mem_openings_iff {rest : List Char} :
    (opening, rest) ∈ openings token s ↔ IsOpening token opening ∧ s = opening ++ rest := by
  simp only [openings, mem_andThen_iff, mem_greedy_iff, mem_literal_iff, mem_greedyPlus_iff]
  constructor
  · intro h
    obtain ⟨indent, _, _, ⟨rfl, hi⟩, ⟨_, gap, _, ⟨rfl, rfl⟩, ⟨rfl, hg, hne⟩, rfl⟩, rfl⟩ := h
    exact ⟨⟨indent, gap, hi, hg, hne, by simp⟩, by simp⟩
  · intro h
    obtain ⟨⟨indent, gap, hi, hg, hne, rfl⟩, rfl⟩ := h
    exact ⟨indent, token ++ gap, token ++ (gap ++ rest), ⟨by simp, hi⟩,
      ⟨token, gap, gap ++ rest, ⟨rfl, rfl⟩, ⟨rfl, hg, hne⟩, rfl⟩, by simp⟩

theorem mem_closings_iff {rest : List Char} :
    (closing, rest) ∈ closings token s ↔ IsClosing token closing ∧ s = closing ++ rest := by
  simp only [closings, mem_andThen_iff, mem_greedy_iff, mem_literal_iff, mem_greedyPlus_iff]
  constructor
  · intro h
    obtain ⟨gap, _, _, ⟨rfl, hg, hne⟩, ⟨_, trail, _, ⟨rfl, rfl⟩, ⟨rfl, ht⟩, rfl⟩, rfl⟩ := h
    exact ⟨⟨gap, trail, hg, hne, ht, by simp⟩, by simp⟩
  · intro h
    obtain ⟨⟨gap, trail, hg, hne, ht, rfl⟩, rfl⟩ := h
    exact ⟨gap, token ++ trail, token ++ (trail ++ rest), ⟨by simp, hg, hne⟩,
      ⟨token, trail, trail ++ rest, ⟨rfl, rfl⟩, ⟨rfl, ht⟩, rfl⟩, by simp⟩

theorem mem_endings_iff :
    (right, closing) ∈ endings token s ↔
      ∃ after, Blank after ∧ Dashes right ∧ right ≠ [] ∧ IsClosing token closing ∧
        s = after ++ right ++ closing := by
  simp only [endings, List.mem_flatMap, List.mem_map, List.mem_filter, Prod.exists, Prod.mk.injEq,
    mem_greedy_iff, mem_greedyPlus_iff, mem_closings_iff, List.isEmpty_iff]
  constructor
  · intro h
    obtain ⟨after, _, ⟨rfl, ha⟩, _, _, ⟨rfl, hr, hne⟩, _, _, ⟨⟨hc, rfl⟩, rfl⟩, rfl, rfl⟩ := h
    exact ⟨after, ha, hr, hne, hc, by simp⟩
  · intro h
    obtain ⟨after, ha, hr, hne, hc, rfl⟩ := h
    exact ⟨after, _, ⟨List.append_assoc .., ha⟩, right, _, ⟨rfl, hr, hne⟩, closing, [],
      ⟨⟨hc, (List.append_nil _).symm⟩, rfl⟩, rfl, rfl⟩

theorem mem_titlings {p : Parts} (h : p ∈ titlings token opening left s) :
    ∃ after, p.opening = opening ∧ p.left = left ∧ '\n' ∉ p.title ∧ p.title ≠ [] ∧ Blank after ∧
      Dashes p.right ∧ p.right ≠ [] ∧ IsClosing token p.closing ∧
      s = p.title ++ after ++ p.right ++ p.closing := by
  simp only [titlings, List.mem_flatMap, List.mem_map, Prod.exists, mem_lazyPlus_iff,
    mem_endings_iff] at h
  obtain ⟨title, _, ⟨rfl, hlf, ht⟩, right, closing, ⟨after, ha, hr, hr', hc, rfl⟩, rfl⟩ := h
  exact ⟨after, rfl, rfl, hlf, ht, ha, hr, hr', hc, by simp⟩

theorem mem_bodies {p : Parts} (h : p ∈ bodies token opening s) :
    ∃ before after, p.opening = opening ∧ Dashes p.left ∧ p.left ≠ [] ∧ Dashes p.right ∧
      p.right ≠ [] ∧ IsClosing token p.closing ∧
      s = p.left ++ before ++ p.title ++ after ++ p.right ++ p.closing := by
  simp only [bodies, List.mem_flatMap, Prod.exists, mem_greedy_iff, mem_greedyPlus_iff] at h
  obtain ⟨left, _, ⟨rfl, hl, hl'⟩, before, _, ⟨rfl, -⟩, ht⟩ := h
  obtain ⟨after, ho, rfl, -, -, -, hr, hr', hc, rfl⟩ := mem_titlings ht
  exact ⟨before, after, ho, hl, hl', hr, hr', hc, by simp⟩

/-! ## What is read first -/

/-- What no cut before the first fitting one leads to is found behind that one. -/
theorem head?_flatMap_of_first {α β : Type} {f : α → List β} {pre post : List α} {a : α} {b : β}
    (hpre : ∀ x ∈ pre, f x = []) (ha : (f a).head? = some b) :
    ((pre ++ a :: post).flatMap f).head? = some b := by
  rw [List.flatMap_append, List.flatMap_eq_nil_iff.2 hpre, List.nil_append, List.flatMap_cons,
    List.head?_append, ha, Option.some_or]

theorem head?_flatMap_of_head {α β : Type} {f : α → List β} {post : List α} {a : α} {b : β}
    (ha : (f a).head? = some b) : ((a :: post).flatMap f).head? = some b := by
  rw [List.flatMap_cons, List.head?_append, ha, Option.some_or]

/-- Where one cut alone leads on, it does not matter when its turn comes. -/
theorem head?_flatMap_of_only {α β : Type} {f : α → List β} {l : List α} {a : α} (ha : a ∈ l)
    (h : ∀ x ∈ l, f x ≠ [] → x = a) : (l.flatMap f).head? = (f a).head? := by
  cases hf : f a with
  | nil =>
    rw [List.flatMap_eq_nil_iff.2]
    intro x hx
    by_contra hne
    exact hne (h x hx hne ▸ hf)
  | cons b rest =>
    obtain ⟨pre, post, rfl, hpre⟩ := List.eq_append_cons_of_mem ha
    refine head?_flatMap_of_first (fun x hx => ?_) (by rw [hf]; rfl)
    by_contra hne
    exact hpre (h x (by simp [hx]) hne ▸ hx)

/-- In front of a run's cut stand those behind longer runs. -/
theorem greedy_append {p : Char → Bool} {run : List Char} (h : ∀ c ∈ run, p c = true)
    (rest : List Char) :
    ∃ longer shorter, greedy p (run ++ rest) = longer ++ (run, rest) :: shorter ∧
      (∀ cut ∈ longer, ∃ more, more ≠ [] ∧ (∀ c ∈ more, p c = true) ∧ rest = more ++ cut.2) ∧
      ∀ cut ∈ shorter, ∃ more, more ≠ [] ∧ run = cut.1 ++ more ∧ cut.2 = more ++ rest := by
  induction run with
  | nil =>
    cases rest with
    | nil => exact ⟨[], [], rfl, by simp, by simp⟩
    | cons c s =>
      rw [List.nil_append, greedy]
      split
      · next hc =>
        refine ⟨_, [], rfl, fun cut hm => ?_, by simp⟩
        obtain ⟨⟨more, rest⟩, hm', rfl⟩ := List.mem_map.1 hm
        obtain ⟨rfl, hmore⟩ := mem_greedy_iff.1 hm'
        refine ⟨c :: more, by simp, fun d hd => ?_, rfl⟩
        rcases List.mem_cons.1 hd with rfl | hd
        exacts [hc, hmore d hd]
      · exact ⟨[], [], rfl, by simp, by simp⟩
  | cons c run ih =>
    obtain ⟨longer, shorter, he, hlonger, hshorter⟩ := ih fun d hd => h d (by simp [hd])
    have hcons : greedy p (c :: run ++ rest) =
        longer.map (fun cut => (c :: cut.1, cut.2)) ++ (c :: run, rest) ::
          (shorter.map (fun cut => (c :: cut.1, cut.2)) ++ [([], c :: run ++ rest)]) := by
      rw [List.cons_append, greedy, if_pos (h c (by simp)), he]
      simp
    refine ⟨_, _, hcons, fun cut hm => ?_, fun cut hm => ?_⟩
    · obtain ⟨cut, hm', rfl⟩ := List.mem_map.1 hm
      exact hlonger cut hm'
    · rcases List.mem_append.1 hm with hm | hm
      · obtain ⟨cut, hm', rfl⟩ := List.mem_map.1 hm
        obtain ⟨more, hne, rfl, hr⟩ := hshorter cut hm'
        exact ⟨more, hne, rfl, hr⟩
      · rw [List.mem_singleton] at hm
        subst hm
        exact ⟨c :: run, by simp, rfl, rfl⟩

/-- A run that cannot be longer comes first. -/
theorem greedy_eq_cons {p : Char → Bool} {run rest : List Char} (h : ∀ c ∈ run, p c = true)
    (hr : ∀ c, rest.head? = some c → p c = false) :
    ∃ shorter, greedy p (run ++ rest) = (run, rest) :: shorter := by
  obtain ⟨longer, shorter, he, hlonger, -⟩ := greedy_append h rest
  have hnil : longer = [] := by
    rw [List.eq_nil_iff_forall_not_mem]
    intro cut hm
    obtain ⟨more, hne, hmore, hrest⟩ := hlonger cut hm
    obtain ⟨c, more, rfl⟩ := List.exists_cons_of_ne_nil hne
    have hc := hr c (by rw [hrest]; rfl)
    rw [hmore c (by simp)] at hc
    cases hc
  exact ⟨shorter, by rw [he, hnil, List.nil_append]⟩

theorem greedyPlus_eq_cons {p : Char → Bool} {run rest : List Char} (h : ∀ c ∈ run, p c = true)
    (hne : run ≠ []) (hr : ∀ c, rest.head? = some c → p c = false) :
    ∃ shorter, greedyPlus p (run ++ rest) = (run, rest) :: shorter := by
  obtain ⟨shorter, he⟩ := greedy_eq_cons h hr
  refine ⟨shorter.filter fun cut => !cut.1.isEmpty, ?_⟩
  rw [greedyPlus, he, List.filter_cons_of_pos (by simpa using hne)]

/-- In front of a title's cut stand those behind shorter titles. -/
theorem lazyPlus_append {p : Char → Bool} {run : List Char} (h : ∀ c ∈ run, p c = true)
    (hne : run ≠ []) (rest : List Char) :
    ∃ shorter longer, lazyPlus p (run ++ rest) = shorter ++ (run, rest) :: longer ∧
      ∀ cut ∈ shorter, cut.1 ≠ [] ∧
        ∃ more, more ≠ [] ∧ run = cut.1 ++ more ∧ cut.2 = more ++ rest := by
  obtain ⟨longer, shorter, he, -, hshorter⟩ := greedy_append h rest
  refine ⟨(shorter.filter fun cut => !cut.1.isEmpty).reverse,
    (longer.filter fun cut => !cut.1.isEmpty).reverse, ?_, fun cut hm => ?_⟩
  · rw [lazyPlus, greedyPlus, he, List.filter_append, List.filter_cons_of_pos (by simpa using hne)]
    simp
  · obtain ⟨hm, hcut⟩ := List.mem_filter.1 (List.mem_reverse.1 hm)
    exact ⟨by simpa using hcut, hshorter cut hm⟩

/-! ## The ending -/

theorem mem_endings_append {closing' : List Char} (hc : IsClosing token closing)
    (hl : s.getLast? = some '-') (h : (right, closing') ∈ endings token (s ++ closing)) :
    closing' = closing ∧ ∃ after, Blank after ∧ Dashes right ∧ s = after ++ right := by
  obtain ⟨after, ha, hr, hr', hc', he⟩ := mem_endings_iff.1 h
  have hlast : (after ++ right).getLast? = some '-' := by
    rw [List.getLast?_append_of_ne_nil _ hr', hr.last hr']
  obtain ⟨hs, hclosing⟩ := isClosing_unique hc hc' hl hlast he
  exact ⟨hclosing.symm, after, ha, hr, hs⟩

theorem head?_endings (ha : Blank after) (hr : Dashes right) (hr' : right ≠ [])
    (hc : IsClosing token closing) :
    (endings token (after ++ right ++ closing)).head? = some (right, closing) := by
  have hm : (right, closing) ∈ endings token (after ++ right ++ closing) :=
    mem_endings_iff.2 ⟨after, ha, hr, hr', hc, rfl⟩
  have hl : (after ++ right).getLast? = some '-' := by
    rw [List.getLast?_append_of_ne_nil _ hr', hr.last hr']
  have honly : ∀ e ∈ endings token (after ++ right ++ closing), e = (right, closing) := by
    intro h hm'
    obtain ⟨right', closing'⟩ := h
    obtain ⟨rfl, after', ha', hd, he⟩ := mem_endings_append hc hl hm'
    have hright' : right' ≠ [] := by
      obtain ⟨_, -, -, hne, -, -⟩ := mem_endings_iff.1 hm'
      exact hne
    have hdrop := congrArg (List.dropWhile isBlank) he
    rw [dropWhile_append_of_head ha (head_not_blank (hr.head hr')),
      dropWhile_append_of_head ha' (head_not_blank (hd.head hright'))] at hdrop
    rw [hdrop]
  cases he : endings token (after ++ right ++ closing) with
  | nil => exact absurd (he ▸ hm) List.not_mem_nil
  | cons e rest => rw [List.head?_cons, honly e (he ▸ List.mem_cons_self)]

/-- No ending begins inside of a title. -/
theorem endings_eq_nil {more : List Char} (hne : more ≠ [])
    (hmore : ∀ c, more.getLast? = some c → isBlank c = false)
    (hlast : after = [] → more.getLast? ≠ some '-') (ha : Blank after) (hr : Dashes right)
    (hr' : right ≠ []) (hc : IsClosing token closing) :
    endings token (more ++ (after ++ right ++ closing)) = [] := by
  rw [List.eq_nil_iff_forall_not_mem]
  intro h hm
  obtain ⟨right', closing'⟩ := h
  rw [← List.append_assoc] at hm
  have hl : (more ++ (after ++ right)).getLast? = some '-' := by
    rw [List.getLast?_append_of_ne_nil _ (by simp [hr']), List.getLast?_append_of_ne_nil _ hr',
      hr.last hr']
  obtain ⟨-, after', ha', hd, he⟩ := mem_endings_append hc hl hm
  -- without the dashes at its end the text would be blank
  have hcut : more ++ after = after' := by
    have hend := congrArg (dropEndWhile isDash) he
    rw [← List.append_assoc, dropEndWhile_append hr, dropEndWhile_append hd,
      dropEndWhile_eq_self, dropEndWhile_eq_self] at hend
    · exact hend
    · exact last_not_dash (last_ne_dash_of_blank ha')
    · apply last_not_dash
      by_cases hnil : after = []
      · rw [hnil, List.append_nil]
        exact hlast hnil
      · rw [List.getLast?_append_of_ne_nil _ hnil]
        exact last_ne_dash_of_blank ha
  have hmem : more.getLast hne ∈ after' := by
    rw [← hcut]
    exact List.mem_append_left _ (List.getLast_mem hne)
  have hblank := hmore _ (List.getLast?_eq_some_getLast hne)
  rw [ha' _ hmem] at hblank
  cases hblank

/-! ## The reading of each shape -/

/-- The title that is found is the first with an ending behind it. -/
theorem head?_titlings {rest : List Char} (hlf : '\n' ∉ title) (hne : title ≠ [])
    (hend : (endings token rest).head? = some (right, closing))
    (hnone : ∀ cut more, cut ≠ [] → more ≠ [] → title = cut ++ more →
      endings token (more ++ rest) = []) :
    (titlings token opening left (title ++ rest)).head? =
      some ⟨opening, left, title, right, closing⟩ := by
  have htitle : ∀ c ∈ title, (c != '\n') = true := by
    intro c hc
    rw [bne_iff_ne]
    exact fun he => hlf (he ▸ hc)
  obtain ⟨shorter, longer, he, hshorter⟩ := lazyPlus_append htitle hne rest
  rw [titlings, he]
  refine head?_flatMap_of_first (fun cut hm => ?_) (by rw [List.head?_map, hend]; rfl)
  obtain ⟨hcut, more, hmore, ht, hr⟩ := hshorter cut hm
  rw [hr, hnone _ _ hcut hmore ht, List.map_nil]

/-- The left run is the whole run of dashes if a title is found behind it. -/
theorem head?_bodies {p : Parts} (hl : Dashes left) (hl' : left ≠ [])
    (hs : ∀ c, s.head? = some c → isDash c = false)
    (h : ((greedy isBlank s).flatMap fun before => titlings token opening left before.2).head? =
      some p) : (bodies token opening (left ++ s)).head? = some p := by
  obtain ⟨shorter, he⟩ := greedyPlus_eq_cons hl hl' hs
  rw [bodies, he]
  exact head?_flatMap_of_head h

theorem head?_bodies_titled (h : IsTitled left before title after right) (hlf : '\n' ∉ title)
    (hc : IsClosing token closing) :
    (bodies token opening (left ++ before ++ title ++ after ++ right ++ closing)).head? =
      some ⟨opening, left, title, right, closing⟩ := by
  have hassoc : left ++ before ++ title ++ after ++ right ++ closing =
      left ++ (before ++ (title ++ (after ++ right ++ closing))) := by simp
  have hhead : ∀ c, (title ++ (after ++ right ++ closing)).head? = some c → isBlank c = false := by
    rw [List.head?_append_of_ne_nil _ h.title_ne_nil]
    exact h.tight.head
  rw [hassoc]
  refine head?_bodies h.dashes_left h.left_ne_nil ?_ ?_
  · apply head_not_dash
    by_cases hb : before = []
    · rw [hb, List.nil_append, List.head?_append_of_ne_nil _ h.title_ne_nil]
      exact h.head_ne hb
    · rw [List.head?_append_of_ne_nil _ hb]
      exact head_ne_dash_of_blank h.blank_before
  · obtain ⟨shorter, he⟩ := greedy_eq_cons h.blank_before hhead
    rw [he]
    refine head?_flatMap_of_head (head?_titlings hlf h.title_ne_nil
      (head?_endings h.blank_after h.dashes_right h.right_ne_nil hc) fun cut more _ hmore ht => ?_)
    have hlast : more.getLast? = title.getLast? := by
      rw [ht, List.getLast?_append_of_ne_nil _ hmore]
    exact endings_eq_nil hmore (hlast ▸ h.tight.last) (hlast ▸ h.last_ne) h.blank_after
      h.dashes_right h.right_ne_nil hc

theorem singleton_ne_append {cut more : List Char} (hcut : cut ≠ []) (hmore : more ≠ []) :
    [c] ≠ cut ++ more := by
  intro he
  have hlen := congrArg List.length he
  have hcutlen := List.length_pos_iff.2 hcut
  have hmorelen := List.length_pos_iff.2 hmore
  simp only [List.length_append, List.length_singleton] at hlen
  omega

theorem head?_bodies_gap_more (hl : Dashes left) (hl' : left ≠ []) (hg : Blank gap) (hg' : gap ≠ [])
    (hr : Dashes right) (hr' : right ≠ []) (hc : IsClosing token closing) :
    (bodies token opening (left ++ gap ++ ('-' :: right) ++ closing)).head? =
      some ⟨opening, left, ['-'], right, closing⟩ := by
  have hassoc : left ++ gap ++ ('-' :: right) ++ closing =
      left ++ (gap ++ (['-'] ++ ([] ++ right ++ closing))) := by simp
  rw [hassoc]
  refine head?_bodies hl hl' ?_ ?_
  · rw [List.head?_append_of_ne_nil _ hg']
    exact head_not_dash (head_ne_dash_of_blank hg)
  · have hhead : ∀ c, (['-'] ++ ([] ++ right ++ closing)).head? = some c → isBlank c = false :=
      head_not_blank rfl
    obtain ⟨shorter, he⟩ := greedy_eq_cons hg hhead
    rw [he]
    refine head?_flatMap_of_head (head?_titlings (by decide) (by simp)
      (head?_endings Blank.nil hr hr' hc) fun cut more hcut hmore ht => ?_)
    exact absurd ht (singleton_ne_append hcut hmore)

/-- Behind the whole gap one dash is not enough for a title and a run. -/
theorem titlings_eq_nil (hc : IsClosing token closing) :
    titlings token opening left ('-' :: closing) = [] := by
  rw [List.eq_nil_iff_forall_not_mem]
  intro p hp
  obtain ⟨after, -, -, -, ht, -, hr, hr', hc', he⟩ := mem_titlings hp
  have hlast : (p.title ++ after ++ p.right).getLast? = some '-' := by
    rw [List.getLast?_append_of_ne_nil _ hr', hr.last hr']
  have hdash : ['-'].getLast? = some '-' := rfl
  obtain ⟨hone, -⟩ := isClosing_unique hc hc' hdash hlast he
  have hlen := congrArg List.length hone
  have htitle := List.length_pos_iff.2 ht
  have hright := List.length_pos_iff.2 hr'
  simp only [List.length_append, List.length_singleton] at hlen
  omega

theorem head?_bodies_gap_one (hl : Dashes left) (hl' : left ≠ []) (hg : Blank (gap ++ [c]))
    (hlf : c ≠ '\n') (hc : IsClosing token closing) :
    (bodies token opening (left ++ (gap ++ [c]) ++ ['-'] ++ closing)).head? =
      some ⟨opening, left, [c], ['-'], closing⟩ := by
  have hassoc : left ++ (gap ++ [c]) ++ ['-'] ++ closing =
      left ++ (gap ++ ([c] ++ ([] ++ ['-'] ++ closing))) := by simp
  have hgap : Blank gap := fun d hd => hg d (by simp [hd])
  rw [hassoc]
  refine head?_bodies hl hl' ?_ ?_
  · have hhead : gap ++ ([c] ++ ([] ++ ['-'] ++ closing)) = gap ++ [c] ++ (['-'] ++ closing) := by
      simp
    rw [hhead, List.head?_append_of_ne_nil _ (by simp)]
    exact head_not_dash (head_ne_dash_of_blank hg)
  · obtain ⟨longer, shorter, he, hlonger, -⟩ := greedy_append hgap ([c] ++ ([] ++ ['-'] ++ closing))
    rw [he]
    refine head?_flatMap_of_first (fun cut hm => ?_) (head?_titlings (by simpa using Ne.symm hlf)
      (by simp) (head?_endings Blank.nil (dashes_replicate 1) (by simp) hc)
      fun cut more hcut hmore ht => absurd ht (singleton_ne_append hcut hmore))
    obtain ⟨run, rest⟩ := cut
    obtain ⟨more, hne, hmore, hr⟩ := hlonger _ hm
    -- a longer run ends in front of the dash
    match more, hne with
    | [d], _ =>
      cases hr
      exact titlings_eq_nil hc
    | d :: e :: more, _ =>
      cases hr
      exact absurd (hmore '-' (by simp)) (by decide)

/-! ## The reading of a line -/

theorem framed_of_mem_readings {p : Parts} (h : p ∈ readings token line) :
    ∃ inner, Framed token line p.opening inner p.closing ∧ ∀ c ∈ p.title, c ∈ inner := by
  obtain ⟨⟨opening, s⟩, ho, hp⟩ := List.mem_flatMap.1 h
  obtain ⟨hopen, rfl⟩ := mem_openings_iff.1 ho
  obtain ⟨before, after, rfl, hl, hl', hr, hr', hc, rfl⟩ := mem_bodies hp
  have hb : Bounded (p.left ++ before ++ p.title ++ after ++ p.right) := by
    simpa using bounded_append (before ++ p.title ++ after) hl hl' hr hr'
  exact ⟨_, ⟨by simp, hopen, hc, hb⟩, fun c hm => by simp [hm]⟩

theorem head?_readings (h : Framed token line opening inner closing) :
    (readings token line).head? = (bodies token opening (inner ++ closing)).head? := by
  obtain ⟨rfl, ho, hc, hb⟩ := h
  have hm : (opening, inner ++ closing) ∈ openings token (opening ++ inner ++ closing) :=
    mem_openings_iff.2 ⟨ho, by simp⟩
  refine head?_flatMap_of_only hm fun x hx hne => ?_
  obtain ⟨opening', s⟩ := x
  obtain ⟨p, hp⟩ := List.exists_mem_of_ne_nil _ hne
  obtain ⟨ho', he⟩ := mem_openings_iff.1 hx
  obtain ⟨before, after, -, hl, hl', -, -, -, rfl⟩ := mem_bodies hp
  have hdash : (p.left ++ before ++ p.title ++ after ++ p.right ++ p.closing).head? = some '-' := by
    simp only [List.append_assoc]
    rw [List.head?_append, hl.head hl', Option.some_or]
  rw [List.append_assoc] at he
  obtain ⟨rfl, hrest⟩ := isOpening_unique ho ho' (hb.head_append closing) hdash he
  rw [hrest]

/-- What is read first is what `inner?` finds, but for dividers. -/
theorem head?_bodies_of_bounded (hb : Bounded inner) (hlf : '\n' ∉ inner)
    (hc : IsClosing token closing) :
    ((bodies token opening (inner ++ closing)).head?.filter fun p => !p.title.all isDash) =
      ((inner? inner).map fun found =>
        ⟨opening, found.1, found.2.1, found.2.2, closing⟩).filter fun p => !p.title.all isDash := by
  cases shape_of_bounded hb with
  | @titled left before title after right h =>
    have htlf : '\n' ∉ title := fun hm => hlf (by simp [hm])
    rw [head?_bodies_titled h htlf hc, inner?_titled h htlf, Option.map_some]
  | @gap left gap right hl hl' hg hg' hr hr' =>
    rcases gap_cases hg' hr hr' with ⟨gap, c, rfl, rfl⟩ | ⟨right, rfl, hr, hr'⟩
    · have hclf : c ≠ '\n' := by
        rintro rfl
        exact hlf (by simp)
      rw [head?_bodies_gap_one hl hl' hg hclf hc, inner?_gap_one hl hl' hg hclf, Option.map_some]
    · rw [head?_bodies_gap_more hl hl' hg hg' hr hr' hc, inner?_gap_more hl hl' hg hg' hr hr',
        Option.map_some]
  | rule hd =>
    -- every title there is consists of dashes
    have hleft : ((bodies token opening (inner ++ closing)).head?.filter
        fun p => !p.title.all isDash) = none := by
      rw [Option.filter_eq_none_iff]
      intro p hp
      obtain ⟨before, after, -, hl, hl', hr, hr', hc', he⟩ :=
        mem_bodies (List.mem_of_head? hp)
      have hlast : (p.left ++ before ++ p.title ++ after ++ p.right).getLast? = some '-' := by
        rw [List.getLast?_append_of_ne_nil _ hr', hr.last hr']
      obtain ⟨rfl, -⟩ := isClosing_unique hc hc' hb.last hlast he
      have htitle : p.title.all isDash = true := List.all_eq_true.2 fun c hm => hd c (by simp [hm])
      simp [htitle]
    rw [hleft, eq_comm, Option.filter_eq_none_iff]
    intro p hp
    obtain ⟨⟨left, title, right⟩, hi, rfl⟩ := Option.map_eq_some_iff.1 hp
    have htitle : title.all isDash = true :=
      List.all_eq_true.2 fun c hm => hd c (mem_of_inner? hi c hm)
    simp [htitle]

/-- A line is taken apart as its first reading says. -/
theorem split?_eq_head?_readings {token : Token} (hlf : '\n' ∉ line) :
    split? token line = (readings token.text line).head?.filter fun p => !p.title.all isDash := by
  by_cases hf : ∃ opening inner closing, Framed token.text line opening inner closing
  · obtain ⟨opening, inner, closing, h⟩ := hf
    have hin : '\n' ∉ inner := by
      intro hm
      exact hlf (by simp [h.eq, hm])
    rw [split?_framed h, head?_readings h, head?_bodies_of_bounded h.bounded hin h.closing]
  · have hnone : split? token line = none := by
      rw [Option.eq_none_iff_forall_ne_some]
      intro p hp
      obtain ⟨inner, h, -⟩ := split?_eq_some_iff.1 hp
      exact hf ⟨_, _, _, h⟩
    have hnil : readings token.text line = [] := by
      rw [List.eq_nil_iff_forall_not_mem]
      intro p hp
      obtain ⟨inner, h, -⟩ := framed_of_mem_readings hp
      exact hf ⟨_, _, _, h⟩
    rw [hnone, hnil]
    rfl

end Recenter.Banner.Section
