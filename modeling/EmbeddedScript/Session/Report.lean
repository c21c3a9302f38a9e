import EmbeddedScript.World

/-!
# Reports

What a step of a session shows of its result, or of its failure. A report holds
values as they looked at the end of the step, so it can be read without the
engine that they belong to.
-/

namespace EmbeddedScript

/-- **What a step shows.** -/
inductive Report where
  /-- Done. -/
  | ok
  /-- There is no result. -/
  | none
  /-- A part that does not apply. -/
  | null
  /-- A boolean. -/
  | bool (b : Bool)
  /-- An integer. -/
  | int (i : Int)
  /-- A number of script. -/
  | double (d : Double)
  /-- A text. -/
  | text (s : String)
  /-- A value as it looked. -/
  | value (v : View)
  /-- A value by itself, an object without its kind. -/
  | bare (v : Value)
  /-- A native value as it looked. -/
  | native (v : NativeView)
  /-- Several reports. -/
  | list (l : List Report)
  /-- Reports under names. -/
  | record (fields : List (String × Report))
  /-- The step could not be taken as it was asked. -/
  | mistake (reason : String)

namespace Report

/-- A count. -/
def count (n : Nat) : Report := .int n

/-- Several texts. -/
def texts (l : List String) : Report := .list (l.map .text)

/-- A result that may be missing. -/
def option (r : Option Report) : Report := r.getD .none

/-- A part that may not apply. -/
def part (r : Option Report) : Report := r.getD .null

/-- A failure, with whatever more is known about it. -/
def failure (kind message : String) (more : List (String × Report)) : Report :=
  .record ([("error", .text kind), ("message", .text message)] ++ more)

/-- The name of a native error's cause. -/
def nativeCause : NativeError → String
  | .invocationFailed _ => "InvocationFailed"
  | .notCallable => "NotCallable"
  | .notFound _ => "NotFound"
  | .typeMismatch _ _ => "TypeMismatch"
  | .argumentError _ => "ArgumentError"

/-- A native error, with whatever more is known about it. -/
def ofNativeError (err : NativeError) (more : List (String × Report)) : Report :=
  failure (nativeCause err) err.message more

/-- The name of an engine error's cause. -/
def engineCause : EngineError → String
  | .staleHandle _ => "StaleHandle"
  | .typeError _ => "TypeError"
  | .heapLimit _ => "HeapLimitExceeded"
  | .exception _ => "Exception"

/-- An engine error by its cause and wording alone. -/
def ofFault (err : EngineError) : Report := failure (engineCause err) err.message []

/-- An item of a note. -/
def ofNoteItem : NoteItem → Report
  | .text s => .text s
  | .count n => count n
  | .value v => .value v
  | .values vs => .list (vs.map .value)
  | .native v => .native v
  | .natives vs => .list (vs.map .native)

/-- A note. -/
def ofNote (n : Note) : Report := .list (n.map ofNoteItem)

/-- The collector's statistics. -/
def ofStats (s : GcStats) : Report :=
  .record [("collections", count s.collections), ("objects_freed", count s.freedInAll),
    ("marked", count s.marked), ("freed", count s.freed), ("live", count s.live)]

end Report

end EmbeddedScript
