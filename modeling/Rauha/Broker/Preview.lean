import Rauha.Broker.Decisions

/-!
# A log of decisions that is read in part

The daemon reads the first bytes of a log, and parses what it has read line by line.  Which lines a
log has, and which of them lie within a limit, is said here without the reader: a `LogLine` is a
record as the broker writes it, or a line that is none.

The lines that lie within the limit are read one by one (`parseLines_flatten`), but what is there of
the next line is read as well (`parseLines_cutLine`).  `honest_iff` says when that does no harm.
-/

namespace Rauha.Decisions

open List

variable {J : JsonFormat Evidence.readerDepth}

/-! ## Lines -/

/-- A complete line of a log: a record of the broker's, or a line that is no record. -/
inductive LogLine where
  | record (r : Record)
  | malformed (text : List UInt8)
  deriving DecidableEq, Repr

/-- The bytes of a line, without its end. -/
def LogLine.text (J : JsonFormat Evidence.readerDepth) : LogLine → List UInt8
  | .record r => Utf8.encode (J.write r.toJson)
  | .malformed text => text

def LogLine.bytes (J : JsonFormat Evidence.readerDepth) (line : LogLine) : List UInt8 :=
  line.text J ++ [10]

/-- The decision that a line tells. -/
def LogLine.decision : LogLine → Option BrokerDecision
  | .record r => some r.toBrokerDecision
  | .malformed _ => none

/-- The bytes of a whole log. -/
def logFile (J : JsonFormat Evidence.readerDepth) (ls : List LogLine) : List UInt8 :=
  (ls.map (LogLine.bytes J)).flatten

/-- The lines that lie within the first `n` bytes. -/
def within (J : JsonFormat Evidence.readerDepth) : ℕ → List LogLine → List LogLine
  | _, [] => []
  | n, line :: rest =>
    if (line.bytes J).length ≤ n then line :: within J (n - (line.bytes J).length) rest else []

/-- **What is to be told of a log** of which the first `n` bytes are read: whether there are more,
    whether one of the lines within is no record, and all the records within. -/
structure Honest (J : JsonFormat Evidence.readerDepth) (n : ℕ) (ls : List LogLine)
    (result : List String × List BrokerDecision) : Prop where
  truncated : "broker.preview_truncated" ∈ result.1 ↔ n < (logFile J ls).length
  malformed : "broker.malformed_records" ∈ result.1 ↔ ∃ text, .malformed text ∈ within J n ls
  returned : result.2 = (within J n ls).filterMap LogLine.decision

end Rauha.Decisions
