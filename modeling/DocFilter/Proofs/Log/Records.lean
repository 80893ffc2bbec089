import DocFilter.Log.Session
import DocFilter.Proofs.Outcome
import Mathlib.Data.List.Induction

/-!
Which files a log record is written to.

The loggers of a session are those that have been asked for, each set up as it was asked for first
(`asked_run`): so its file is called after the first name that led to it, without the component and
in lower case. All levels are equal, and a record is let through by comparing two numbers
(`Asked.effectiveLevel_eq`). A record is taken by its own logger and by those above it (`takers`),
and each of them writes it with its two handlers (`Asked.content_perform`). If no logger is above
its own, these are the two of its own logger. By induction on the session, a file then holds the
records of the loggers that it belongs to, each of them once, and the file of errors one entry for
each error (`records_written_once`).

So a logger above another takes its records as well, to its own file and once more to the file of
errors, and a file can belong to several loggers, or be the file of errors
(`records_written_elsewhere`).
-/

namespace DocFilter

open Outcome

namespace LogState

/-! ### Contents of files -/

/-- What is in a file, nothing if it is not there. -/
def contentOf (files : List (String × String)) (file : String) : String :=
  (files.lookup file).getD ""

def content (s : LogState) (file : String) : String := contentOf s.files file

variable {s : LogState} {name file full : String}

theorem contentOf_cons (other content : String) (rest : List (String × String)) :
    contentOf ((other, content) :: rest) file =
      if file = other then content else contentOf rest file := by
  unfold contentOf
  rw [List.lookup_cons]
  by_cases h : file = other
  · simp [h]
  · have hbeq : (file == other) = false := beq_false_of_ne h
    simp [h, hbeq]

theorem contentOf_append (files : List (String × String)) (text : String) :
    contentOf (append files name text) file =
      contentOf files file ++ if name = file then text else "" := by
  induction files with
  | nil =>
      rw [append, contentOf_cons]
      by_cases h : name = file
      · simp [h, contentOf]
      · simp [h, Ne.symm h, contentOf]
  | cons head rest ih =>
      obtain ⟨other, content⟩ := head
      unfold append
      by_cases hother : other = name
      · subst hother
        rw [if_pos rfl, contentOf_cons, contentOf_cons]
        by_cases h : file = other
        · simp [h]
        · simp [h, Ne.symm h]
      · rw [if_neg hother, contentOf_cons, contentOf_cons, ih]
        by_cases h : file = other
        · simp [h, Ne.symm hother]
        · simp [h]

/-- What handlers write goes to their files, in the order of the handlers. -/
theorem contentOf_foldl (text : LogHandler → String) (handlers : List LogHandler)
    (files : List (String × String)) :
    contentOf (handlers.foldl (fun files handler => append files handler.file (text handler)) files)
        file =
      contentOf files file ++ String.join ((handlers.filter (·.file = file)).map text) := by
  induction handlers generalizing files with
  | nil => simp
  | cons handler rest ih =>
      rw [List.foldl_cons, ih, contentOf_append, List.filter_cons]
      by_cases h : handler.file = file
      · simp [h, String.append_assoc]
      · simp [h]

theorem content_get (s : LogState) (name : String) (component : Option String) (file : String) :
    (s.get name component).2.content file = s.content file := by
  unfold get
  dsimp only
  split
  · rfl
  · rename_i hnone
    have hempty (handlers : List LogHandler) :
        String.join (handlers.map fun _ => "") = "" := by
      induction handlers with
      | nil => rfl
      | cons handler rest ih => rw [List.map_cons, String.join_cons, ih]; rfl
    rw [content, contentOf_foldl (fun _ => ""), hempty, String.append_empty]
    rfl

/-- A record that a logger lets through is written once for each handler that takes it, at the
logger and at those above it. -/
theorem content_write (s : LogState) (site : LogSite) (logger : String) (record : LogRecord)
    (withFailure : Bool) (file : String) :
    (s.write site logger record withFailure).content file =
      s.content file ++
        if s.effectiveLevel logger ≤ record.level.number then
          String.join (((((s.chain logger).flatMap (·.handlers)).filter fun handler =>
            handler.threshold ≤ record.level.number).filter (·.file = file)).map fun handler =>
              render site logger handler.layout record withFailure)
        else "" := by
  unfold write
  split
  · exact contentOf_foldl _ _ _
  · rw [String.append_empty]

/-! ### Loggers above a logger -/

/-- No logger is above the name. -/
def IsTop (s : LogState) (full : String) : Prop := s.above full.toList.reverse = []

/-- What is above a name is called what stands before one of its points. -/
theorem mem_above {cs : List Char} {logger : Logger} (h : logger ∈ s.above cs) :
    s.find? logger.name = some logger ∧ ('.' :: logger.name.toList.reverse) <:+ cs := by
  fun_induction above s cs with
  | case1 => cases h
  | case2 => cases h
  | case3 d rest found hfound ih =>
      have hname : found.name = String.ofList (d :: rest).reverse := by
        simpa using List.find?_some hfound
      obtain rfl | h := List.mem_cons.mp h
      · rw [hname]
        exact ⟨hfound, by simp⟩
      · obtain ⟨hfind, hsuffix⟩ := ih h
        exact ⟨hfind, hsuffix.trans (List.suffix_cons _ _)⟩
  | case4 d rest hnone ih =>
      obtain ⟨hfind, hsuffix⟩ := ih h
      exact ⟨hfind, hsuffix.trans ((List.suffix_cons _ _).trans (List.suffix_cons _ _))⟩
  | case5 c d rest hpoint ih =>
      obtain ⟨hfind, hsuffix⟩ := ih h
      exact ⟨hfind, hsuffix.trans (List.suffix_cons _ _)⟩

theorem mem_chain {logger : Logger} (h : logger ∈ s.chain full) :
    ∃ other, s.find? other = some logger := by
  obtain h | h := List.mem_append.mp h
  · exact ⟨full, Option.mem_toList.mp h⟩
  · exact ⟨logger.name, (mem_above h).1⟩

end LogState

/-! ### Loggers that have been asked for -/

namespace LogHandler

/-- The handler for the file of a logger that is asked for by a name. -/
def own (debug : Bool) (name : String) : LogHandler :=
  ⟨Text.lower name ++ ".log", if debug then .located else .brief, 0⟩

def errors : LogHandler := ⟨LogState.errorFile, .block, LogLevel.error.number⟩

end LogHandler

namespace LogStep

def fullName (step : LogStep) : String := LogState.fullName step.name step.component

def logger (debug : Bool) (step : LogStep) : Logger :=
  ⟨step.fullName, if debug then LogLevel.debug.number else 0, [.own debug step.name, .errors]⟩

end LogStep

namespace LogState

def start (debug : Bool) : LogState := { debug, writesFiles := true }

/-- The loggers are those that steps have asked for, each as it was asked for first. -/
structure Asked (debug : Bool) (steps : List LogStep) (s : LogState) : Prop where
  isDebug : s.debug = debug
  writesFiles : s.writesFiles = true
  find? (full : String) :
    s.find? full = (steps.find? (·.fullName = full)).map (·.logger debug)

def leastLevel (debug : Bool) : Nat :=
  if debug then LogLevel.debug.number else LogLevel.warning.number

variable {s : LogState} {debug : Bool} {steps : List LogStep} {full : String}

/-- A step changes nothing but files once its logger is there. -/
theorem perform_eq (s : LogState) (step : LogStep) :
    ∃ files, (s.perform step).2 = { (s.get step.name step.component).2 with files } := by
  unfold perform
  dsimp only
  cases step.call with
  | none => exact ⟨_, rfl⟩
  | some call =>
      dsimp only
      split
      · rename_i next hlog
        obtain ⟨text, -, rfl⟩ := map_eq_ok_iff.mp hlog
        unfold write
        split
        · exact ⟨_, rfl⟩
        · exact ⟨_, rfl⟩
      · exact ⟨_, rfl⟩

namespace Asked

theorem nil (debug : Bool) : Asked debug [] (start debug) := ⟨rfl, rfl, fun _ => rfl⟩

/-- Asking for a logger makes it, unless an earlier step has asked for it. -/
theorem get (h : Asked debug steps s) (step : LogStep) :
    Asked debug (steps ++ [step]) (s.get step.name step.component).2 ∧
      (s.get step.name step.component).1.name = step.fullName := by
  have hfull : LogState.fullName step.name step.component = step.fullName := rfl
  unfold LogState.get
  dsimp only
  rw [hfull]
  cases hfind : s.find? step.fullName with
  -- The logger was made for an earlier step, so the new one is not the first to ask for it.
  | some logger =>
      refine ⟨⟨h.isDebug, h.writesFiles, fun full => ?_⟩, by simpa using List.find?_some hfind⟩
      rw [h.find?] at hfind
      obtain ⟨first, hfirst, -⟩ := Option.map_eq_some_iff.mp hfind
      rw [h.find?, List.find?_append]
      by_cases hsame : step.fullName = full
      · rw [← hsame, hfirst, Option.some_or]
      · rw [List.find?_singleton, if_neg (by simpa using hsame), Option.or_none]
  | none =>
      refine ⟨⟨h.isDebug, h.writesFiles, fun full => ?_⟩, rfl⟩
      have hhandlers : s.newHandlers step.name = [.own debug step.name, .errors] := by
        rw [newHandlers, if_pos h.writesFiles, h.isDebug]
        rfl
      rw [List.find?_append, Option.map_or, ← h.find?, h.isDebug, hhandlers]
      unfold LogState.find?
      dsimp only
      rw [List.find?_append, List.find?_singleton, List.find?_singleton]
      by_cases hsame : step.fullName = full
      · simp [hsame, LogStep.logger]
      · simp [hsame]

theorem perform (h : Asked debug steps s) (step : LogStep) :
    Asked debug (steps ++ [step]) (s.perform step).2 := by
  obtain ⟨files, hfiles⟩ := perform_eq s step
  obtain ⟨hdebug, hwrites, hfind⟩ := (h.get step).1
  rw [hfiles]
  exact ⟨hdebug, hwrites, hfind⟩

/-- All loggers let through records of the same levels. -/
theorem effectiveLevel_eq (h : Asked debug steps s) (hthere : (s.find? full).isSome) :
    s.effectiveLevel full = leastLevel debug := by
  have hlevel : ∀ logger ∈ s.chain full,
      logger.level = if debug then LogLevel.debug.number else 0 := by
    intro logger hlogger
    obtain ⟨other, hother⟩ := mem_chain hlogger
    rw [h.find?] at hother
    obtain ⟨step, -, rfl⟩ := Option.map_eq_some_iff.mp hother
    rfl
  obtain ⟨logger, hlogger⟩ := Option.isSome_iff_exists.mp hthere
  have hchain : s.chain full = logger :: s.above full.toList.reverse := by
    rw [chain, hlogger]
    rfl
  unfold effectiveLevel
  cases debug with
  | true =>
      have hfirst := hlevel logger (hchain ▸ List.mem_cons_self)
      rw [hchain, List.find?_cons_of_pos (by simp [hfirst, LogLevel.debug])]
      exact hfirst
  | false =>
      rw [List.find?_eq_none.mpr fun logger hlogger => by simp [hlevel logger hlogger]]
      rfl

end Asked

end LogState

/-! ### What is written -/

namespace LogStep

/-- The record that a step gets let through: its message can be written, and it is grave enough. -/
def record? (debug : Bool) (step : LogStep) : Option LogRecord :=
  step.call.bind fun call =>
    (contextMessage call.message call.context).toOption.bind fun text =>
      if LogState.leastLevel debug ≤ call.level.number then some ⟨call.level, text⟩ else none

def written? (debug : Bool) (handler : LogHandler) (step : LogStep) : Option String :=
  step.call.bind fun call => (step.record? debug).bind fun record =>
    if handler.threshold ≤ record.level.number then
      some (LogState.render call.site step.fullName handler.layout record call.withFailure)
    else none

end LogStep

/-- The handler for the file of a logger, which is called after the name by which the logger was
asked for first. -/
def LogHandler.ofLogger (debug : Bool) (steps : List LogStep) (full : String) : LogHandler :=
  .own debug (((steps.find? (·.fullName = full)).map (·.name)).getD "")

namespace LogStep

/-- The entries that some loggers write to a file for a step, each with its two handlers. -/
def entriesOf (debug : Bool) (steps : List LogStep) (takers : List String) (file : String)
    (step : LogStep) : List String :=
  ((takers.flatMap fun taker => [.ofLogger debug steps taker, .errors]).filter
    (·.file = file)).filterMap (step.written? debug ·)

/-- The entries that its logger alone writes to a file for a step. -/
def entries (debug : Bool) (steps : List LogStep) (file : String) (step : LogStep) : List String :=
  step.entriesOf debug steps [step.fullName] file

variable {debug : Bool} {step : LogStep} {record : LogRecord}

theorem record?_eq_some (h : step.record? debug = some record) :
    ∃ call, step.call = some call ∧
      contextMessage call.message call.context = .ok record.message ∧
      call.level = record.level ∧ LogState.leastLevel debug ≤ record.level.number := by
  obtain ⟨call, hcall, h⟩ := Option.bind_eq_some_iff.mp h
  obtain ⟨text, htext, h⟩ := Option.bind_eq_some_iff.mp h
  split_ifs at h with hlevel
  cases h
  exact ⟨call, hcall, eq_ok_of_toOption htext, rfl, hlevel⟩

theorem written?_of_record? {call : LogCall} (hcall : step.call = some call)
    (hrecord : step.record? debug = some record) (handler : LogHandler) :
    step.written? debug handler =
      if handler.threshold ≤ record.level.number then
        some (LogState.render call.site step.fullName handler.layout record call.withFailure)
      else none := by
  rw [written?, hcall, hrecord]
  rfl

theorem written?_of_none (hrecord : step.record? debug = none) (handler : LogHandler) :
    step.written? debug handler = none := by
  simp [written?, hrecord]

theorem entries_eq (debug : Bool) (steps : List LogStep) (file : String) (step : LogStep) :
    step.entries debug steps file =
      ([.ofLogger debug steps step.fullName, .errors].filter (·.file = file)).filterMap
        (step.written? debug ·) := by
  simp [entries, entriesOf]

theorem entriesOf_of_none (hrecord : step.record? debug = none) (steps : List LogStep)
    (takers : List String) (file : String) : step.entriesOf debug steps takers file = [] := by
  simp [entriesOf, written?_of_none hrecord]

end LogStep

namespace LogState

variable {s t : LogState} {debug : Bool} {steps : List LogStep} {step : LogStep}

theorem above_congr (h : s.loggers = t.loggers) (cs : List Char) : s.above cs = t.above cs := by
  have hfind (name : String) : s.find? name = t.find? name := by rw [find?, find?, h]
  fun_induction above s cs with
  | case1 => rfl
  | case2 => rfl
  | case3 d rest found hfound ih => rw [above, if_pos rfl, ← hfind, hfound, ih]
  | case4 d rest hnone ih => rw [above, if_pos rfl, ← hfind, hnone, ih]
  | case5 c d rest hpoint ih => rw [above, if_neg hpoint, ih]

/-- The names of the loggers that a record of a logger reaches. -/
def takers (s : LogState) (full : String) : List String := (s.chain full).map (·.name)

theorem takers_congr (h : s.loggers = t.loggers) (full : String) : s.takers full = t.takers full := by
  rw [takers, takers, chain, chain, above_congr h, find?, find?, h]

theorem exists_first (h : step ∈ steps) :
    ∃ first, steps.find? (·.fullName = step.fullName) = some first :=
  Option.isSome_iff_exists.mp (List.find?_isSome.mpr ⟨step, h, by simp⟩)

theorem perform_of_record? {record : LogRecord} {call : LogCall} (hcall : step.call = some call)
    (hmessage : contextMessage call.message call.context = .ok record.message)
    (hlevel : call.level = record.level)
    (hname : (s.get step.name step.component).1.name = step.fullName) :
    (s.perform step).2 = (s.get step.name step.component).2.write call.site step.fullName record
      call.withFailure := by
  simp only [perform, hcall, log, hmessage, hlevel, hname, Except.map]

namespace Asked

/-- A logger of which there is a file was asked for, and has a handler for that file and one for the
file of errors. -/
theorem handlers_of_mem_chain (h : Asked debug steps s) {full : String} {logger : Logger}
    (hlogger : logger ∈ s.chain full) :
    (∃ first ∈ steps, first.fullName = logger.name) ∧
      logger.handlers = [.ofLogger debug steps logger.name, .errors] := by
  obtain ⟨other, hother⟩ := mem_chain hlogger
  rw [h.find?] at hother
  obtain ⟨first, hfirst, rfl⟩ := Option.map_eq_some_iff.mp hother
  have hname : first.fullName = other := by simpa using List.find?_some hfirst
  refine ⟨⟨first, List.mem_of_find?_eq_some hfirst, rfl⟩, ?_⟩
  show _ = [LogHandler.ofLogger debug steps first.fullName, _]
  rw [LogHandler.ofLogger, hname, hfirst]
  rfl

theorem handlers_chain (h : Asked debug steps s) (full : String) :
    (s.chain full).flatMap (·.handlers) =
      (s.takers full).flatMap fun taker => [.ofLogger debug steps taker, .errors] := by
  rw [takers, List.flatMap_map]
  exact List.flatMap_congr fun logger hlogger => (h.handlers_of_mem_chain hlogger).2

theorem effectiveLevel_of_mem (h : Asked debug steps s) (hstep : step ∈ steps) :
    s.effectiveLevel step.fullName = leastLevel debug := by
  obtain ⟨first, hfirst⟩ := exists_first hstep
  refine h.effectiveLevel_eq ?_
  rw [h.find?, hfirst]
  rfl

theorem content_perform_of_none (h : Asked debug steps s) (hrecord : step.record? debug = none)
    (file : String) : (s.perform step).2.content file = s.content file := by
  obtain ⟨hasked, hname⟩ := h.get step
  have hget := content_get s step.name step.component file
  cases hcall : step.call with
  | none => simp only [LogState.perform, hcall, hget]
  | some call =>
      cases hmessage : contextMessage call.message call.context with
      | error failure => simp only [LogState.perform, hcall, log, hmessage, Except.map, hget]
      | ok text =>
          have hlevel : ¬ leastLevel debug ≤ call.level.number := by
            simpa [LogStep.record?, hcall, hmessage, Except.toOption] using hrecord
          have hrecord : contextMessage call.message call.context =
            .ok (⟨call.level, text⟩ : LogRecord).message := hmessage
          rw [perform_of_record? hcall hrecord rfl hname, content_write,
            hasked.effectiveLevel_of_mem (by simp), if_neg hlevel, hget, String.append_empty]

/-- A record goes to the two handlers of each logger that takes it. -/
theorem content_perform (h : Asked debug steps s) (step : LogStep) (file : String) :
    (s.perform step).2.content file = s.content file ++ String.join
      (step.entriesOf debug (steps ++ [step]) ((s.perform step).2.takers step.fullName) file) := by
  cases hrecord : step.record? debug with
  | none =>
      rw [h.content_perform_of_none hrecord, LogStep.entriesOf_of_none hrecord]
      exact (String.append_empty).symm
  | some record =>
      obtain ⟨hasked, hname⟩ := h.get step
      obtain ⟨call, hcall, hmessage, hlevel, hgrave⟩ := LogStep.record?_eq_some hrecord
      obtain ⟨files, hfiles⟩ := perform_eq s step
      have htakers : (s.get step.name step.component).2.takers step.fullName =
          (s.perform step).2.takers step.fullName := takers_congr (by rw [hfiles]) _
      rw [perform_of_record? hcall hmessage hlevel hname, content_write,
        hasked.effectiveLevel_of_mem (by simp), if_pos hgrave, content_get, hasked.handlers_chain,
        htakers, perform_of_record? hcall hmessage hlevel hname, List.filter_comm,
        ← List.filterMap_eq_map, List.filterMap_filter, LogStep.entriesOf]
      simp only [LogStep.written?_of_record? hcall hrecord, Function.comp_apply, decide_eq_true_eq]

end Asked

/-! ### Sessions -/

theorem run_snoc (s : LogState) (steps : List LogStep) (step : LogStep) :
    (s.run (steps ++ [step])).2 = ((s.run steps).2.perform step).2 := by
  rw [run_append]
  rfl

theorem asked_run (debug : Bool) (steps : List LogStep) :
    Asked debug steps ((start debug).run steps).2 := by
  induction steps using List.reverseRecOn with
  | nil => exact .nil debug
  | append_singleton before step ih =>
      rw [run_snoc]
      exact ih.perform step

/-- The steps of a session, each with the loggers that take its record. -/
def taken (s : LogState) : List LogStep → List (LogStep × List String)
  | [] => []
  | step :: rest =>
    let next := (s.perform step).2
    (step, next.takers step.fullName) :: taken next rest

theorem taken_append (s : LogState) (before after : List LogStep) :
    s.taken (before ++ after) = s.taken before ++ (s.run before).2.taken after := by
  induction before generalizing s with
  | nil => rfl
  | cons step rest ih =>
      rw [List.cons_append, taken, taken, List.cons_append, ih]
      rfl

theorem map_taken (s : LogState) (steps : List LogStep) : (s.taken steps).map (·.1) = steps := by
  induction steps generalizing s with
  | nil => rfl
  | cons step rest ih => rw [taken, List.map_cons, ih]

theorem taken_snoc (debug : Bool) (before : List LogStep) (step : LogStep) :
    (start debug).taken (before ++ [step]) = (start debug).taken before ++
      [(step, ((start debug).run (before ++ [step])).2.takers step.fullName)] := by
  rw [taken_append, run_snoc]
  rfl

theorem asked_of_mem_taken {p : LogStep × List String} {taker : String}
    (hp : p ∈ (start debug).taken steps) (htaker : taker ∈ p.2) :
    ∃ first ∈ steps, first.fullName = taker := by
  induction steps using List.reverseRecOn with
  | nil => cases hp
  | append_singleton before step ih =>
      rw [taken_snoc] at hp
      obtain hp | hp := List.mem_append.mp hp
      · obtain ⟨first, hfirst, hname⟩ := ih hp
        exact ⟨first, List.mem_append_left _ hfirst, hname⟩
      · obtain rfl := List.mem_singleton.mp hp
        obtain ⟨logger, hlogger, rfl⟩ := List.mem_map.mp htaker
        exact ((asked_run debug _).handlers_of_mem_chain hlogger).1

/-- Later steps do not give a logger another file. -/
theorem entriesOf_append (step : LogStep) (file : String) {before : List LogStep}
    {takers : List String} (h : ∀ taker ∈ takers, ∃ first ∈ before, first.fullName = taker)
    (after : List LogStep) :
    step.entriesOf debug (before ++ after) takers file = step.entriesOf debug before takers file := by
  have hhandler : ∀ taker ∈ takers, LogHandler.ofLogger debug (before ++ after) taker =
      .ofLogger debug before taker := by
    intro taker htaker
    obtain ⟨other, hother, rfl⟩ := h taker htaker
    obtain ⟨first, hfirst⟩ := exists_first hother
    rw [LogHandler.ofLogger, LogHandler.ofLogger, List.find?_append, hfirst, Option.some_or]
  rw [LogStep.entriesOf, LogStep.entriesOf,
    List.flatMap_congr fun taker htaker => by rw [hhandler taker htaker]]

/-- A file holds what the loggers that have taken a record have written to it, step after step. -/
theorem content_run (debug : Bool) (steps : List LogStep) (file : String) :
    ((start debug).run steps).2.content file = String.join (((start debug).taken steps).flatMap
      fun p => p.1.entriesOf debug steps p.2 file) := by
  induction steps using List.reverseRecOn with
  | nil => rfl
  | append_singleton before step ih =>
      rw [taken_snoc, List.flatMap_append, String.join_append, List.flatMap_singleton, run_snoc,
        (asked_run debug before).content_perform, ih]
      congr 2
      refine (List.flatMap_congr fun p hp => ?_).symm
      exact entriesOf_append p.1 file (fun taker => asked_of_mem_taken hp) [step]

/-! ### Who takes a record -/

theorem length_of_mem_above {cs : List Char} {logger : Logger} (h : logger ∈ s.above cs) :
    logger.name.toList.length < cs.length := by
  have hlength := (mem_above h).2.length_le
  rwa [List.length_cons, List.length_reverse] at hlength

theorem nodup_above (s : LogState) (cs : List Char) : ((s.above cs).map (·.name)).Nodup := by
  fun_induction above s cs with
  | case1 => exact .nil
  | case2 => exact .nil
  | case3 d rest found hfound ih =>
      have hname : found.name = String.ofList (d :: rest).reverse := by
        simpa using List.find?_some hfound
      refine List.nodup_cons.mpr ⟨fun hmem => ?_, ih⟩
      obtain ⟨logger, hlogger, hsame : logger.name = found.name⟩ := List.mem_map.mp hmem
      have hlength := length_of_mem_above hlogger
      rw [hsame, hname, String.toList_ofList, List.length_reverse] at hlength
      exact Nat.lt_irrefl _ hlength
  | case4 d rest hnone ih => exact ih
  | case5 c d rest hpoint ih => exact ih

namespace Asked

/-- A record is taken by its own logger first, and by loggers whose names stand before one of the
points of its name. -/
theorem exists_takers (h : Asked debug steps s) (hstep : step ∈ steps) :
    ∃ others, s.takers step.fullName = step.fullName :: others ∧
      (s.takers step.fullName).Nodup ∧
      ∀ other ∈ others, (other ++ ".").toList <+: step.fullName.toList := by
  obtain ⟨first, hfirst⟩ := exists_first hstep
  have hlogger : s.find? step.fullName = some (first.logger debug) := by
    rw [h.find?, hfirst]
    rfl
  have hname : (first.logger debug).name = step.fullName := by
    simpa using List.find?_some hlogger
  have htakers : s.takers step.fullName =
      step.fullName :: (s.above step.fullName.toList.reverse).map (·.name) := by
    rw [takers, chain, hlogger, Option.toList_some, List.singleton_append, List.map_cons, hname]
  refine ⟨_, htakers, ?_, List.forall_mem_map.mpr fun other hother => ?_⟩
  · rw [htakers]
    refine List.nodup_cons.mpr ⟨fun hmem => ?_, s.nodup_above _⟩
    obtain ⟨other, hother, hsame : other.name = _⟩ := List.mem_map.mp hmem
    have hlength := length_of_mem_above hother
    rw [hsame, List.length_reverse] at hlength
    exact Nat.lt_irrefl _ hlength
  · refine List.reverse_suffix.mp ?_
    simpa using (mem_above hother).2

/-- Nothing is above a logger if no logger is asked for whose name stands before one of its
points. -/
theorem isTop (h : Asked debug steps s) {full : String}
    (hapart : ∀ step ∈ steps, ¬ (step.fullName ++ ".").toList <+: full.toList) : s.IsTop full := by
  refine List.eq_nil_iff_forall_not_mem.mpr fun logger hlogger => ?_
  obtain ⟨hfind, hsuffix⟩ := mem_above hlogger
  rw [h.find?] at hfind
  obtain ⟨step, hstep, -⟩ := Option.map_eq_some_iff.mp hfind
  have hname : step.fullName = logger.name := by simpa using List.find?_some hstep
  refine hapart step (List.mem_of_find?_eq_some hstep) (List.reverse_suffix.mp ?_)
  simpa [hname] using hsuffix

theorem takers_of_isTop (h : Asked debug steps s) (hstep : step ∈ steps)
    (htop : s.IsTop step.fullName) : s.takers step.fullName = [step.fullName] := by
  obtain ⟨first, hfirst⟩ := exists_first hstep
  have hname : first.fullName = step.fullName := by simpa using List.find?_some hfirst
  rw [takers, chain, htop, List.append_nil, h.find?, hfirst]
  exact congrArg (fun name => [name]) hname

end Asked

/-- Where no logger is above that of a record, a file holds what the loggers of the records have
written to it. -/
theorem content_run_of_isTop
    (htop : ∀ before step, before ++ [step] <+: steps → (step.record? debug).isSome →
      ((start debug).run (before ++ [step])).2.IsTop step.fullName) (file : String) :
    ((start debug).run steps).2.content file =
      String.join (steps.flatMap (·.entries debug steps file)) := by
  have halone : ∀ p ∈ (start debug).taken steps, (p.1.record? debug).isSome →
      p.2 = [p.1.fullName] := by
    clear file
    induction steps using List.reverseRecOn with
    | nil => exact fun _ hp => nomatch hp
    | append_singleton before step ih =>
        rw [taken_snoc]
        refine List.forall_mem_append.mpr ⟨?_, List.forall_mem_singleton.mpr fun hrecord => ?_⟩
        · exact ih fun first other hbefore =>
            htop first other (hbefore.trans (List.prefix_append _ _))
        · exact (asked_run debug _).takers_of_isTop (by simp)
            (htop before step (List.prefix_refl _) hrecord)
  conv_rhs => rw [← map_taken (start debug) steps, List.flatMap_map]
  rw [content_run]
  refine congrArg String.join (List.flatMap_congr fun p hp => ?_)
  cases hrecord : p.1.record? debug with
  | none => rw [LogStep.entries, LogStep.entriesOf_of_none hrecord, LogStep.entriesOf_of_none hrecord]
  | some record => rw [LogStep.entries, halone p hp (by rw [hrecord]; rfl), map_taken]

/-- A file holds, step after step, what the loggers that take a record write to it: each writes the
record once to its own file and, if it is an error or graver, once to the file of errors. A record
is taken by its own logger and by those above it, which have been asked for and are called what
stands before one of the points of its name. So where no logger is above its own, a record is
written once to the file of its logger and to no other file, and the file of errors has one entry
for each record that is an error or graver, and nothing else unless it is the file of a logger as
well. A file belongs to all loggers that were first asked for by its name, whatever their components
and in whatever letters. -/
theorem records_written_once (debug : Bool) (steps : List LogStep) :
    (∀ before step, before ++ [step] <+: steps →
        let now := ((start debug).run (before ++ [step])).2
        now.effectiveLevel step.fullName = leastLevel debug ∧
          ∃ others, now.takers step.fullName = step.fullName :: others ∧
            (now.takers step.fullName).Nodup ∧
            ∀ other ∈ others, (other ++ ".").toList <+: step.fullName.toList) ∧
      (∀ file, ((start debug).run steps).2.content file =
        String.join (((start debug).taken steps).flatMap fun p =>
          p.1.entriesOf debug steps p.2 file)) ∧
      ((∀ before step, before ++ [step] <+: steps → (step.record? debug).isSome →
          ((start debug).run (before ++ [step])).2.IsTop step.fullName) →
        (∀ file, file ≠ errorFile →
          ((start debug).run steps).2.content file = String.join (steps.filterMap fun step =>
            if (LogHandler.ofLogger debug steps step.fullName).file = file then
              step.written? debug (.ofLogger debug steps step.fullName)
            else none)) ∧
        ((∀ step ∈ steps, (step.record? debug).isSome →
            (LogHandler.ofLogger debug steps step.fullName).file ≠ errorFile) →
          ((start debug).run steps).2.content errorFile =
            String.join (steps.filterMap (·.written? debug .errors)))) := by
  refine ⟨fun before step _ => ?_, content_run debug steps, fun htop => ⟨fun file hfile => ?_,
    fun hown => ?_⟩⟩
  · have hasked := asked_run debug (before ++ [step])
    exact ⟨hasked.effectiveLevel_of_mem (by simp), hasked.exists_takers (by simp)⟩
  · rw [content_run_of_isTop htop, List.filterMap_eq_flatMap_toList]
    refine congrArg String.join (List.flatMap_congr fun step _ => ?_)
    have herrors : decide (LogHandler.errors.file = file) = false := decide_eq_false (Ne.symm hfile)
    rw [LogStep.entries_eq, List.filter_cons, List.filter_singleton, herrors]
    by_cases hown : (LogHandler.ofLogger debug steps step.fullName).file = file
    · cases hentry : step.written? debug (.ofLogger debug steps step.fullName) <;>
        simp [hown, hentry]
    · simp [hown]
  · rw [content_run_of_isTop htop, List.filterMap_eq_flatMap_toList]
    refine congrArg String.join (List.flatMap_congr fun step hstep => ?_)
    have herrors : decide (LogHandler.errors.file = errorFile) = true := rfl
    rw [LogStep.entries_eq, List.filter_cons, List.filter_singleton, herrors]
    cases hrecord : step.record? debug with
    | some record =>
        have hother := hown step hstep (by rw [hrecord]; rfl)
        cases hentry : step.written? debug .errors <;> simp [hother, hentry]
    | none => simp [LogStep.written?_of_none hrecord]

/-- Two loggers side by side, of which only one has an error to report. -/
theorem records_written_once_apart :
    let site : LogSite := ⟨"12:00", "[query:1]"⟩
    let steps : List LogStep := [
      { name := "Store", component := some "db",
        call := some { site, level := .warning, message := "slow" } },
      { name := "page", call := some { site, level := .error, message := "lost" } },
      { name := "Store", component := some "db",
        call := some { site, level := .info, message := "closed" } }]
    let now := ((start false).run steps).2
    (∀ other ∈ steps, ∀ step ∈ steps,
        ¬ (other.fullName ++ ".").toList <+: step.fullName.toList) ∧
      now.content "store.log" = String.join (steps.filterMap fun step =>
        if (LogHandler.ofLogger false steps step.fullName).file = "store.log" then
          step.written? false (.ofLogger false steps step.fullName)
        else none) ∧
      now.content "store.log" = "12:00 - docstore-query.db.Store - WARNING - slow\n" ∧
      now.content errorFile = String.join (steps.filterMap (·.written? false .errors)) ∧
      now.content errorFile = "12:00 - docstore-query.page - ERROR - [query:1]\nlost\n\n" := by
  intro site steps now
  have hapart : ∀ other ∈ steps, ∀ step ∈ steps,
      ¬ (other.fullName ++ ".").toList <+: step.fullName.toList := by decide +kernel
  have htop : ∀ before step, before ++ [step] <+: steps → (step.record? false).isSome →
      ((start false).run (before ++ [step])).2.IsTop step.fullName := by
    intro before step hbefore _
    have hmem : step ∈ steps := hbefore.subset (by simp)
    exact (asked_run false (before ++ [step])).isTop fun other hother =>
      hapart other (hbefore.subset hother) step hmem
  obtain ⟨hfiles, herrors⟩ := (records_written_once false steps).2.2 htop
  exact ⟨hapart, hfiles "store.log" (by decide), by decide +kernel,
    herrors (by decide +kernel), by decide +kernel⟩

/-- The records of a logger below another are in both files, and its errors are twice in the file of
errors. A logger can have the file of errors as its own, and two loggers can have one file. -/
theorem records_written_elsewhere :
    let site : LogSite := ⟨"12:00", "[query:1]"⟩
    let logs (name : String) (component : Option String) (level : LogLevel) : LogStep :=
      { name, component, call := some { site, level, message := "lost" } }
    let now (steps : List LogStep) : LogState := ((start false).run steps).2
    let below := now [{ name := "a" }, logs "a.b" none .error]
    let named := now [logs "error" none .warning]
    let shared := now [{ name := "x", component := some "a" }, logs "X" (some "b") .warning]
    below.content "a.b.log" = "12:00 - docstore-query.a.b - ERROR - lost\n" ∧
      below.content "a.log" = "12:00 - docstore-query.a.b - ERROR - lost\n" ∧
      below.content errorFile =
        "12:00 - docstore-query.a.b - ERROR - [query:1]\nlost\n\n" ++
          "12:00 - docstore-query.a.b - ERROR - [query:1]\nlost\n\n" ∧
      named.content errorFile = "12:00 - docstore-query.error - WARNING - lost\n" ∧
      (shared.find? "docstore-query.a.x").map (fun logger => logger.handlers.map (·.file)) =
        some ["x.log", errorFile] ∧
      shared.content "x.log" = "12:00 - docstore-query.b.X - WARNING - lost\n" := by
  decide +kernel

end LogState

end DocFilter
