import GraphClient.Logging.Mask
import GraphClient.Logging.Record

/-!
# Filters of log records

`LogRecord.masked` hides the secrets of a record's message. A `ComponentFilter` lets the records
of a component pass, all of them or those of some levels.
-/

namespace GraphClient

/-- The record with the secrets of its message masked; the message needs no arguments any more. -/
def LogRecord.masked (r : LogRecord) : Except Failure LogRecord :=
  r.message.map fun message => r.withMessage (Mask.apply message)

/-- A filter by component and, if levels are given, by the names of levels. -/
structure ComponentFilter where
  component : String
  levels? : Option (List String)
deriving DecidableEq, Inhabited

namespace ComponentFilter

/-- Whether a logger belongs to the component: it has its name, or a longer one behind a dot. -/
def covers (f : ComponentFilter) (logger : String) : Bool :=
  logger = f.component || (f.component ++ ".").toList.isPrefixOf logger.toList

/-- Whether a record of a logger and a level passes. -/
def passes (f : ComponentFilter) (logger : String) (level : Int) : Bool :=
  f.covers logger && match f.levels? with
    | none => true
    | some levels => levels.contains (levelName level)

end ComponentFilter

end GraphClient
