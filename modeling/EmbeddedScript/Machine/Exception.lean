import EmbeddedScript.Machine.Conversion

/-!
# Exceptions

A thrown error is a plain object with a `name` and a `message`. When there is no
room for it, the failure to allocate takes its place. An exception is described
by those two properties if it has them, and otherwise by its string form;
reporting one appends its description to the engine's list.
-/

namespace EmbeddedScript.Machine

variable {κ : Type}

/-- The error object of a class with a message. -/
def errorObject (cls : ThrownClass) (message : String) : HeapObject :=
  .plain ((Properties.empty.set "name" (Value.string cls.name)).set "message" (.string message))

/-- **Build a thrown error.** -/
def raise (m : Machine κ) (e : EngineId) (cls : ThrownClass) (message : String) :
    Act κ EngineError := do
  match ← (m.allocate e (errorObject cls message)).run with
  | .ok v => pure (.exception v)
  | .error err => pure err

/-- The description that an error object gives of itself: it needs a `message`
that is a string, and goes by `Error` without a `name` that is one. -/
def ownDescription? : HeapObject → Option String
  | .plain props =>
    match props.get? "message" with
    | some (.string message) =>
      let name := match props.get? "name" with
        | some (.string name) => name
        | _ => "Error"
      some s!"{name}: {message}"
    | _ => none
  | _ => none

/-- **Describe an error** as a report of an uncaught exception would. -/
def describe (m : Machine κ) (e : EngineId) (err : EngineError) : Act κ String := do
  match err with
  | .exception thrown =>
    let own ← match thrown.handle? with
      | some h => Act.readHeap e fun heap => (heap.get? h).bind ownDescription?
      | none => pure none
    match own with
    | some text => pure text
    | none =>
      let text ← m.display e thrown
      pure s!"Uncaught {text}"
  | err => pure err.message

/-- **Report an exception.** -/
def report (m : Machine κ) (e : EngineId) (err : EngineError) : Act κ Unit := do
  let text ← m.describe e err
  Act.update (·.modifyEngine e fun s => { s with reported := s.reported ++ [text] })

/-- Take the descriptions of all reported exceptions. -/
def takeReported (e : EngineId) : Act κ (List String) :=
  Act.extract fun w =>
    ((w.engine e).reported, w.modifyEngine e fun s => { s with reported := [] })

end EmbeddedScript.Machine
