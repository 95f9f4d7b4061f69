import Lifecycle.Log.Record

/-!
# The console at boot

Console text goes to a sink. Until one is registered text is lost, and once one is registered no
other can take its place. Log records, in addition, are held back until output is turned on.
`Boot.ofFreshConsole` walks through these rules once.
-/

namespace Lifecycle.Log

/-- Where console text ends up. -/
inductive Sink where
  | capturing
  | dropping
  deriving DecidableEq, Repr

structure Console where
  sink : Option Sink
  /-- Whether log records are printed. -/
  canLog : Bool
  threshold : Threshold
  /-- What a capturing sink has received. -/
  captured : String
  deriving DecidableEq, Repr

namespace Console

def fresh : Console := ⟨none, false, none, ""⟩

/-- Registers a sink unless there is one already. -/
def register (console : Console) (sink : Sink) : Console :=
  { console with sink := some (console.sink.getD sink) }

def print (console : Console) (text : String) : Console :=
  match console.sink with
  | some .capturing => { console with captured := console.captured ++ text }
  | _ => console

/-- Logs a record: it is printed if its level passes the threshold and output is on. -/
def log (console : Console) (record : Record) : Console :=
  if console.canLog then console.print (console.threshold.output record) else console

/-- Forgets what was captured so far. -/
def clear (console : Console) : Console := { console with captured := "" }

end Console

/-- What can be seen of a console while the system boots. -/
structure Boot where
  /-- Captured text of something printed before there was a sink. -/
  beforeSink : String
  /-- Captured text of something printed after two sinks were registered, the second dropping. -/
  afterSink : String
  /-- Captured text of an error logged before output was turned on. -/
  muted : String
  /-- Whether records are printed before output is turned on. -/
  canLogBefore : Bool
  /-- Whether records are printed after output is turned on. -/
  canLogAfter : Bool
  deriving DecidableEq, Repr

/-- The boot sequence on a fresh console. -/
def Boot.ofFreshConsole : Boot :=
  let silent := Console.fresh.print (paint "a" 31)
  let listening := ((silent.register .capturing).register .dropping).clear
  let printed := listening.print (paint "b" 31)
  let muted := { printed.clear with threshold := some .trace }.log ⟨.error, none, none, "muted"⟩
  let enabled := { muted with canLog := true }
  { beforeSink := silent.captured
    afterSink := printed.captured
    muted := muted.captured
    canLogBefore := muted.canLog
    canLogAfter := enabled.canLog }

end Lifecycle.Log
