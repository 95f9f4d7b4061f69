import Lifecycle.Log.Level

/-!
# Log records on the console

A record is printed in the colour of its level: the level's name in five columns, the place it
was logged from, and the message.
-/

namespace Lifecycle.Log

/-- Text between the escape sequence of a colour and the one that ends it. -/
def paint (text : String) (colour : Nat) : String :=
  s!"\x1b[{colour}m{text}\x1b[0m"

structure Record where
  level : Level
  file : Option String
  line : Option Nat
  message : String
  deriving DecidableEq, Repr

namespace Record

/-- A name moved to the right end of five columns. -/
def columns (name : String) : String :=
  String.ofList (List.replicate (5 - name.length) ' ') ++ name

/-- The console text of a record. A missing place shows as an unknown file and line 0. -/
def render (record : Record) : String :=
  let level := columns record.level.name
  let file := record.file.getD "<unknown>"
  let line := record.line.getD 0
  paint s!"[{level}][{file}:{line}] {record.message}\n" record.level.colour

end Record

/-- What reaches the console when a record is logged under a threshold. -/
def Threshold.output (threshold : Threshold) (record : Record) : String :=
  if threshold.allows record.level then record.render else ""

end Lifecycle.Log
