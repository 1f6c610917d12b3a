import Recenter.Run.Failure

/-! What a run is done with beside its settings: its root and its name, the form of its output, what
it tells about itself, and the time. The time is one moment for a whole run: it names the run, and
is the time of every event. -/

namespace Recenter.Run

open Recenter.Files

abbrev Variables := List (String × String)

/-- A variable's value; one that is empty counts as not set. -/
def Variables.get (vars : Variables) (name : String) (default : Option String) : Option String :=
  match vars.lookup name with
  | some value => if value.isEmpty then default else some value
  | none => default

def Variables.configPath (vars : Variables) : Option String :=
  vars.get "BANNERCTL_CONFIG" none

def Variables.runId (vars : Variables) : Option String :=
  vars.get "RUN_ID" none

/-- A text, or nothing if it is empty. -/
def nonempty (s : Option String) : Option String :=
  s.filter fun s => !s.isEmpty

structure Context where
  runId : String
  root : Path
  outputFormat : String
  verbose : Bool
  quiet : Bool
  logJson : Bool
  now : Calendar.Moment
deriving DecidableEq, Repr

namespace Context

def asJson (c : Context) : Bool := c.outputFormat == "json"

end Context

/-- The form of the output: JSON if it is asked for in either way, text if nothing is. -/
def outputFormat (json : Bool) (format : Option String) : String :=
  if json then "json" else (nonempty format).getD "text"

structure Options where
  root : Path := ⟨0, []⟩
  runId : Option String := none
  outputFormat : String := "text"
  verbose : Bool := false
  quiet : Bool := false
  logJson : Bool := false
deriving DecidableEq, Repr

def runStamp (m : Calendar.Moment) : String :=
  open Calendar in
  padded 4 m.date.year ++ padded 2 m.date.month ++ padded 2 m.date.day ++ "-" ++
    padded 2 m.hour ++ padded 2 m.minute ++ padded 2 m.second

/-- The context of a run, if its root is a directory. A run without a name of its own is named by
the environment, or else by the time. -/
def Options.context (o : Options) (files : FileTree) (vars : Variables) (now : Calendar.Moment) :
    Except Failure Context :=
  match files.isDir o.root with
  | .error e => .error (.access e o.root)
  | .ok false => .error (.invalidRoot o.root)
  | .ok true =>
    .ok
      { runId := ((nonempty o.runId).or vars.runId).getD ("bannerctl-" ++ runStamp now)
        root := o.root
        outputFormat := o.outputFormat
        verbose := o.verbose
        quiet := o.quiet
        logJson := o.logJson
        now := now }

end Recenter.Run
