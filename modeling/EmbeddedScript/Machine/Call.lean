import EmbeddedScript.Machine.Exception

/-!
# Calls and primitive forms

Functions, host methods and the wrappers of callable hosts can be called. The
callee, the receiver and the arguments are pinned for the length of the call, and
the lock is held. Calling anything else throws an error object.
-/

namespace EmbeddedScript.Machine

variable {κ : Type}

/-- **What a call resolves to.** -/
inductive CallTarget where
  /-- The native that is the body of a function. -/
  | body (id : NativeId)
  /-- A method of the host behind a wrapper. -/
  | hostMethod (wrapper : Handle) (name : String)
  /-- A host that can be called. -/
  | host (id : NativeId)
  /-- Nothing that can be called. -/
  | notCallable
deriving DecidableEq

/-- What calling a value resolves to. A host says itself whether it can be called,
and is asked while the heap is being read. -/
def callTarget (m : Machine κ) (e : EngineId) (callee : Value) : Attempt κ CallTarget :=
  match callee.handle? with
  | none => pure .notCallable
  | some h => do
    match ← Act.object e h with
    | .function _ body _ => pure (.body body)
    | .hostMethod wrapper name => pure (.hostMethod wrapper name)
    | .host id _ =>
      let callable ← Act.attempt (Act.reading e (m.askHost e id .isCallable))
      pure (if callable then .host id else .notCallable)
    | _ => pure .notCallable

/-- **Call a value.** -/
def call (m : Machine κ) (e : EngineId) (callee this : Value) (args : List Value) :
    Attempt κ Value :=
  ExceptT.mk <| Act.locked e <| Act.pinning e (callee :: this :: args) <| ExceptT.run do
    match ← m.callTarget e callee with
    | .body id => ExceptT.mk (m.sharing id (m.request id (.run e this args)))
    | .hostMethod wrapper name =>
      match ← Act.attempt (host? e (.object wrapper)) with
      | none => throw (.staleHandle wrapper)
      | some id => ExceptT.mk (m.sharing id (m.askHost e id (.invokeMethod name args)))
    | .host id => ExceptT.mk (m.sharing id (m.askHost e id (.call args)))
    | .notCallable =>
      throw (← Act.attempt <| m.raise e .typeError s!"{callee.typeName} is not a function")

/-- **Convert to a primitive.** A host gives its own primitive form; any other
object is no number, and otherwise its string form. -/
def toPrimitive (m : Machine κ) (e : EngineId) (v : Value) (hint : Hint) : Attempt κ Value :=
  if !v.isObject then pure v
  else
    ExceptT.mk <| Act.locked e <| ExceptT.run do
      match ← Act.attempt (host? e v) with
      | some id =>
        ExceptT.mk (m.sharing id (Act.pinning e [v] (m.askHost e id (.toPrimitive hint))))
      | none =>
        match hint with
        | .number => pure (.number Double.nan)
        | _ => return .string (← Act.attempt (m.display e v))

end EmbeddedScript.Machine
