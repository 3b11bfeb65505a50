import OscMonitor.Log.System

/-!
# Sessions with the log

What a program does with the log while it runs: it sets the log up, obtains loggers, which sets the
log up from the environment when nothing else has, logs with them, and conducts exchanges.

* `Session.step` does one thing, or fails: a set-up may be refused, and a call that logs may fail.
* `Session.run` does one thing after the other, whatever fails on the way.
-/

namespace OscMonitor.Log

/-- Fields that are given to a call by their names. None has the name of a parameter of the call:
that would be given twice, and there is no such call. -/
structure Fields (parameters : List Text) where
  members : Object
  free : ∀ name ∈ parameters, members.has name = false

/-- No fields. -/
def Fields.none {parameters : List Text} : Fields parameters := ⟨[], fun _ _ => rfl⟩

/-- The parameters of a call that obtains a logger, those of the calls within it included. -/
def obtainParameters : List Text := ["component", "self"]

/-- The parameters of a call that logs, those of the calls within it included. -/
def logParameters : List Text := ["self", "method_name", "event"]

/-- Something that is done with the log. -/
inductive Deed where
  -- A set-up, where only some files can be opened.
  | configure (setup : Setup) (opens : Text → Bool)
  -- A logger, where the environment has a level and a format.
  | obtain (component : Text) (fields : Fields obtainParameters) (level format : Option Text)
  -- An event of the logger with a number, counted from the first that was obtained. The loss of the
  -- event can be reported or not.
  | log (logger : Nat) (m : Moment) (reports : Bool) (level : Level) (name : Text)
    (fields : Fields logParameters)
  | enter (x : Exchange)
  | leave

/-- Why a deed fails. -/
inductive DeedFault where
  -- A set-up is refused.
  | setUp (fault : SetupFault)
  -- A call that logs fails.
  | call (fault : CallFault)
  deriving DecidableEq, Repr

/-- The log in use: its system and the loggers that have been obtained. -/
structure Session where
  system : System
  loggers : List Logger

namespace Session

def step (s : Session) : Deed → Except DeedFault Unit × Session
  | .configure setup opens =>
    let (outcome, system) := s.system.setUp opens setup
    (outcome.mapError .setUp, { s with system })
  | .obtain component fields level format =>
    match s.system.ensure level format with
    | (.error fault, system) => (.error (.setUp (.threshold fault)), { s with system })
    | (.ok (), system) =>
      (.ok (), { system, loggers := s.loggers ++ [.of component fields.members] })
  | .log logger m reports level name fields =>
    match s.loggers[logger]? with
    | some l =>
      let (outcome, system) := System.log reports m (l.event level name fields.members) s.system
      (outcome.mapError .call, { s with system })
    | none => (.ok (), s)
  | .enter x => (.ok (), { s with system := s.system.enter x })
  | .leave => (.ok (), { s with system := s.system.leave })

def run (s : Session) (deeds : List Deed) : Session := deeds.foldl (fun s d => (s.step d).2) s

end Session

end OscMonitor.Log
