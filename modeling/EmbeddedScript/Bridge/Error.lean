import EmbeddedScript.Error

/-!
# Bridge errors

What the bridge reports: a bound object that failed, a script call that threw, or
a failure of the engine. What a bound object said about its failure does not
cross into script; the message only says what was being invoked.
-/

namespace EmbeddedScript

/-- **What was being invoked** when a bound object failed. -/
inductive InvocationFault where
  /-- The object itself, as a function. -/
  | function
  /-- A method that was not resolved. -/
  | unresolved
  /-- A method of this name. -/
  | method (name : String)
deriving DecidableEq

/-- The message that script sees. -/
def InvocationFault.message : InvocationFault → String
  | function => "error invoking object as function"
  | unresolved => "error invoking method"
  | method name => s!"error invoking method '{name}'"

/-- **Why a bridge operation failed.** -/
inductive BridgeError where
  /-- A bound object reported failure. -/
  | invocation (fault : InvocationFault)
  /-- A script call threw, and the exception was reported with this description. -/
  | exception (description : String)
  /-- The engine failed. -/
  | engine (err : EngineError)
deriving DecidableEq

/-- The wording of a bridge error. -/
def BridgeError.message : BridgeError → String
  | invocation fault => fault.message
  | exception description => s!"Uncaught exception: {description}"
  | engine err => err.message

end EmbeddedScript
