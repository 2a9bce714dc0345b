/-
Records of what happened, for whoever watches.

Nothing in the library depends on the log.  The functions that have something to report
return records or events from which records can be read off, and the outer layer drops
those that are not severe enough.
-/

namespace Mailroom.Log

/-- How severe a record is, the most severe first. -/
inductive Level where
  | error
  | warn
  | info
  | debug
  | trace
  deriving DecidableEq

namespace Level

/-- Position in the order of severity. -/
def rank : Level → Nat
  | error => 0
  | warn => 1
  | info => 2
  | debug => 3
  | trace => 4

/-- Does a log with this threshold keep records of the other level? -/
def keeps (threshold level : Level) : Bool :=
  level.rank ≤ threshold.rank

def name : Level → String
  | error => "ERROR"
  | warn => "WARN"
  | info => "INFO"
  | debug => "DEBUG"
  | trace => "TRACE"

/-- The threshold that a count of `v` flags on the command line asks for. -/
def ofVerbosity : Nat → Level
  | 0 => warn
  | 1 => info
  | 2 => debug
  | _ => trace

end Level

/-- One line of the log. -/
structure Record where
  level : Level
  text : String
  deriving DecidableEq

/-- The records that a log with this threshold keeps. -/
def kept (threshold : Level) (records : List Record) : List Record :=
  records.filter fun record => threshold.keeps record.level

end Mailroom.Log
