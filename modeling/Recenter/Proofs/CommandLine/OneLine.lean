import Recenter.Proofs.CommandLine.Ends
import Recenter.Proofs.Datum.Shown
import Recenter.Proofs.Json.Written
import Recenter.Proofs.Run.Alike

/-! Whether an event is logged on one line. In JSON it always is: all that is written there is
printed ASCII. In text it is exactly if nothing that is put into the line as it is holds a line feed
(`log_isLine_iff`): the name of the run, the component, the action, the names of the fields, and
texts among their values. A log then has as many lines as events, and otherwise more
(`lineCount_logged_eq_iff`). -/

namespace Recenter

open Json Text

namespace Run

variable {c : Context} {e : Event} {ch : Char} {width n : Nat} {value : Json}

theorem isPrinted_of_mem_padded (h : ch ∈ (Calendar.padded width n).toList) : IsPrinted ch := by
  rw [Calendar.padded, String.toList_append, List.mem_append, String.toList_ofList,
    Nat.toString_eq_repr, Nat.toList_repr] at h
  rcases h with h | h
  · exact isPrinted_of_mem_zeros h
  · exact isPrinted_of_isDigit (isDigit_of_mem_toDigits h)

theorem lineFeed_notMem_padded : '\n' ∉ (Calendar.padded width n).toList :=
  lineFeed_notMem_of_isPrinted fun _ => isPrinted_of_mem_padded

theorem lineFeed_notMem_timestamp (m : Calendar.Moment) : '\n' ∉ (timestamp m).toList := by
  simp [timestamp, Calendar.Date.text, lineFeed_notMem_padded]

theorem Level.lineFeed_notMem_name (level : Level) : '\n' ∉ level.name.toList := by
  cases level <;> decide

namespace Event

/-- Nothing that a line of text takes as it is holds a line feed. -/
structure Unbroken (c : Context) (e : Event) : Prop where
  runId : '\n' ∉ c.runId.toList
  component : '\n' ∉ e.component.toList
  action : '\n' ∉ e.action.toList
  names : ∀ field ∈ e.fields, '\n' ∉ field.1.toList
  texts : ∀ field ∈ e.fields, ∀ s, field.2 = .text s → '\n' ∉ s.toList

theorem lineFeed_mem_plain_iff :
    '\n' ∈ (plain value).toList ↔ ∃ s, value = .text s ∧ '\n' ∈ s.toList := by
  rw [plain, String.toList_ofList, Datum.lineFeed_mem_plain_iff]

def fieldText (field : String × Json) : String := field.1 ++ "=" ++ plain field.2

theorem lineFeed_mem_fieldText_iff {field : String × Json} :
    '\n' ∈ (fieldText field).toList ↔
      '\n' ∈ field.1.toList ∨ ∃ s, field.2 = .text s ∧ '\n' ∈ s.toList := by
  simp [fieldText, lineFeed_mem_plain_iff]

def extras (e : Event) : String := " ".intercalate ((sortByName e.fields).map fieldText)

/-- The time in front of a line of text. -/
def shownTime (c : Context) (e : Event) : String :=
  ((get? "ts" e.fields).map plain).getD (timestamp c.now)

theorem textLine_eq (c : Context) (e : Event) :
    e.textLine c =
      "ts=" ++ e.shownTime c ++ " level=" ++ e.level.name ++ " run_id=" ++ c.runId ++
        " component=" ++ e.component ++ " action=" ++ e.action ++
        (if e.extras.isEmpty then "" else " " ++ e.extras) := by
  change (if e.extras.isEmpty then _ else _) = _
  split
  · exact String.append_empty.symm
  · exact String.append_assoc

/-- Their order does not matter. -/
theorem lineFeed_mem_extras_iff :
    '\n' ∈ e.extras.toList ↔ ∃ field ∈ e.fields, '\n' ∈ (fieldText field).toList := by
  have hmem : ∀ {field}, field ∈ sortByName e.fields ↔ field ∈ e.fields :=
    (sortByName_perm e.fields).mem_iff
  rw [extras, String.toList_intercalate, List.map_map]
  constructor
  · intro h
    obtain ⟨part, hp, h⟩ | h := mem_of_mem_intercalate h
    · obtain ⟨field, hf, rfl⟩ := List.mem_map.1 hp
      exact ⟨field, hmem.1 hf, h⟩
    · exact absurd h (by decide)
  · intro hx
    obtain ⟨field, hf, h⟩ := hx
    exact mem_intercalate_of_mem (List.mem_map_of_mem (hmem.2 hf)) h

/-- A field that has taken the place of the time stands among the others, too. -/
theorem lineFeed_mem_extras_of_shownTime (h : '\n' ∈ (e.shownTime c).toList) :
    '\n' ∈ e.extras.toList := by
  unfold shownTime at h
  cases hts : get? "ts" e.fields with
  | none =>
    rw [hts] at h
    exact absurd h (lineFeed_notMem_timestamp c.now)
  | some value =>
    rw [hts] at h
    obtain ⟨before, after, he, -⟩ := List.lookup_eq_some_iff.1 hts
    refine lineFeed_mem_extras_iff.2 ⟨("ts", value), by rw [he]; simp, ?_⟩
    exact lineFeed_mem_fieldText_iff.2 (.inr (lineFeed_mem_plain_iff.1 h))

theorem lineFeed_mem_textLine_iff :
    '\n' ∈ (e.textLine c).toList ↔
      '\n' ∈ c.runId.toList ∨ '\n' ∈ e.component.toList ∨ '\n' ∈ e.action.toList ∨
        '\n' ∈ e.extras.toList := by
  have htime := lineFeed_mem_extras_of_shownTime (c := c) (e := e)
  have hlevel := e.level.lineFeed_notMem_name
  have hextras : '\n' ∈ (if e.extras.isEmpty then "" else " " ++ e.extras).toList ↔
      '\n' ∈ e.extras.toList := by
    split
    · next h => rw [String.isEmpty_iff.1 h]
    · simp
  -- What stands between the parts is fixed.
  have hparts : '\n' ∈ (e.textLine c).toList ↔
      '\n' ∈ (e.shownTime c).toList ∨ '\n' ∈ c.runId.toList ∨ '\n' ∈ e.component.toList ∨
        '\n' ∈ e.action.toList ∨ '\n' ∈ e.extras.toList := by
    simp only [textLine_eq, String.toList_append, List.mem_append, hextras]
    simp [hlevel, or_assoc]
  rw [hparts]
  exact or_iff_right_of_imp fun h => .inr (.inr (.inr (htime h)))

theorem unbroken_iff : e.Unbroken c ↔ '\n' ∉ (e.textLine c).toList := by
  simp only [lineFeed_mem_textLine_iff, lineFeed_mem_extras_iff, lineFeed_mem_fieldText_iff]
  constructor
  · intro h
    rintro (hm | hm | hm | ⟨field, hf, hm | ⟨s, hs, hm⟩⟩)
    · exact h.runId hm
    · exact h.component hm
    · exact h.action hm
    · exact h.names field hf hm
    · exact h.texts field hf s hs hm
  · intro h
    exact ⟨fun hm => h (.inl hm), fun hm => h (.inr (.inl hm)),
      fun hm => h (.inr (.inr (.inl hm))),
      fun field hf hm => h (.inr (.inr (.inr ⟨field, hf, .inl hm⟩))),
      fun field hf s hs hm => h (.inr (.inr (.inr ⟨field, hf, .inr ⟨s, hs, hm⟩⟩)))⟩

end Event

end Run

namespace CommandLine

open Run Run.Action Files

variable {c : Context} {e : Event} {s : String}

/-! ## Lines -/

/-- One line, with the line feed at its end. -/
def IsLine (s : String) : Prop := ∃ line, '\n' ∉ line ∧ s.toList = line ++ ['\n']

theorem isLine_append_lineFeed : IsLine (s ++ "\n") ↔ '\n' ∉ s.toList := by
  have happend : (s ++ "\n").toList = s.toList ++ ['\n'] := String.toList_append
  rw [IsLine, happend]
  constructor
  · intro hx
    obtain ⟨line, hline, he⟩ := hx
    rwa [List.append_cancel_right he]
  · exact fun h => ⟨s.toList, h, rfl⟩

/-- In JSON an event is one line in any case. -/
theorem isLine_line_iff : IsLine (e.line c) ↔ c.logJson = true ∨ e.Unbroken c := by
  rw [Event.line, isLine_append_lineFeed]
  split
  · next h =>
    refine iff_of_true ?_ (.inl h)
    exact lineFeed_notMem_of_isPrinted fun _ => isPrinted_of_mem_write_compact
  · next h => rw [or_iff_right h, Event.unbroken_iff]

/-- A context that lets an event through writes its line behind all that has been logged. -/
theorem exists_log (c : Context) (e : Event) (w : World) :
    ∃ w', Completes (log c e.level e.component e.action e.fields) w () w' ∧
      logged c w' = logged c w ++ if c.logs e.level then e.line c else "" := by
  unfold log
  cases c.logs e.level with
  | true => exact ⟨_, completes_modify_iff.2 rfl, by simp [logged, String.join_append]⟩
  | false => exact ⟨w, completes_pure_iff.2 ⟨rfl, rfl⟩, String.append_empty.symm⟩

/-- What an event writes is one line exactly if the log is in JSON or the event is unbroken. -/
theorem log_isLine_iff (c : Context) (e : Event) (w : World) :
    (∃ w', Completes (log c e.level e.component e.action e.fields) w () w' ∧
      logged c w' = logged c w ++ if c.logs e.level then e.line c else "") ∧
    (IsLine (e.line c) ↔ c.logJson = true ∨ e.Unbroken c) :=
  ⟨exists_log c e w, isLine_line_iff⟩

/-- A file whose name passes for the end of one event and the whole of another. -/
def forger : Path where
  slashes := 0
  names := ["a.ts\nts=2001-01-01T00:00:00Z level=info run_id=r component=center " ++
    "action=file_updated passes=region path=b.ts"]

/-- What tells of the scan of one file and the update of another. -/
def forged : String :=
  (scanEvent ⟨0, ["a.ts"]⟩).line talkative ++
    (updatedEvent ⟨⟨0, ["b.ts"]⟩, [.regions]⟩).line talkative

theorem line_scanEvent_forger : (scanEvent forger).line talkative = forged := by
  cbv

/-- No file has been updated, and still the log says so. -/
theorem log_forges_update :
    let e := scanEvent forger
    talkative.logs e.level = true ∧ ¬ IsLine (e.line talkative) ∧
      ∀ w, ∃ w', Completes (log talkative e.level e.component e.action e.fields) w () w' ∧
        logged talkative w' = logged talkative w ++ forged := by
  intro e
  have hlogs : talkative.logs e.level = true := rfl
  refine ⟨hlogs, ?_, fun w => ?_⟩
  · rw [isLine_line_iff]
    rintro (hj | hu)
    · cases hj
    · exact hu.texts _ List.mem_cons_self _ rfl (by decide)
  · have hlog := exists_log talkative e w
    rwa [if_pos hlogs, line_scanEvent_forger] at hlog

/-! ## Logs -/

def lineCount (s : String) : Nat := s.toList.count '\n'

theorem lineCount_append (s t : String) : lineCount (s ++ t) = lineCount s + lineCount t := by
  rw [lineCount, String.toList_append, List.count_append]
  rfl

theorem lineCount_line_pos (c : Context) (e : Event) : 0 < lineCount (e.line c) := by
  rw [Event.line, lineCount_append]
  exact Nat.succ_pos _

theorem lineCount_line_eq_one_iff : lineCount (e.line c) = 1 ↔ IsLine (e.line c) := by
  have hone : lineCount "\n" = 1 := rfl
  rw [Event.line, lineCount_append, isLine_append_lineFeed, hone, Nat.add_eq_right, lineCount,
    List.count_eq_zero]

/-- No fewer lines are written than there are events, and no more exactly if each event is one. -/
theorem lineCount_lines (c : Context) (events : List Event) :
    events.length ≤ lineCount (String.join (events.map (Event.line c))) ∧
      (lineCount (String.join (events.map (Event.line c))) = events.length ↔
        ∀ e ∈ events, IsLine (e.line c)) := by
  induction events with
  | nil => exact ⟨Nat.le_refl _, iff_of_true rfl nofun⟩
  | cons e rest ih =>
    obtain ⟨hle, hiff⟩ := ih
    have hpos := lineCount_line_pos c e
    rw [List.map_cons, String.join_cons, lineCount_append, List.length_cons,
      List.forall_mem_cons, ← lineCount_line_eq_one_iff, ← hiff]
    omega

/-- A log has one line for each event exactly if it is in JSON or all its events are unbroken. -/
theorem lineCount_logged_eq_iff (c : Context) (w : World) :
    lineCount (logged c w) = w.events.length ↔
      c.logJson = true ∨ ∀ e ∈ w.events, e.Unbroken c := by
  rw [logged, (lineCount_lines c w.events).2]
  simp only [isLine_line_iff]
  cases c.logJson with
  | true => simp
  | false => simp

end CommandLine

end Recenter
