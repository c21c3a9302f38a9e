import EmbeddedScript.Program

/-!
# Scripted function bodies

A routine is a function body given as data: one engine operation on the receiver
and the arguments, or a fixed outcome. Missing arguments are `undefined`.
-/

namespace EmbeddedScript

/-- **A function body.** -/
inductive Routine where
  /-- The first argument. -/
  | argument
  /-- The receiver. -/
  | receiver
  /-- The number of arguments. -/
  | count
  /-- A fixed value, which the function neither roots nor references. -/
  | constant (v : Value)
  /-- Throw an error object. -/
  | throwNew (cls : ThrownClass) (message : String)
  /-- Throw the first argument. -/
  | throwArgument
  /-- Fail. -/
  | fail (err : EngineError)
  /-- The sum of the arguments that are numbers. -/
  | sum
  /-- The depth of the lock. -/
  | lockDepth
  /-- The depth of the lock while it is released. -/
  | unlockedDepth
  /-- Collect; the number of objects freed. -/
  | collect
  /-- Read a property of the first argument. -/
  | get (name : String)
  /-- Write the second argument to a property of the first. -/
  | set (name : String)
  /-- Read a property of the receiver. -/
  | getReceiver (name : String)
  /-- Write the first argument to a property of the receiver. -/
  | setReceiver (name : String)
  /-- Call the first argument with the receiver and the other arguments. -/
  | call
  /-- The same with the lock released. -/
  | unlockedCall
  /-- The same, but a thrown exception becomes the thrown value. -/
  | tryCall
  /-- A new plain object. -/
  | object
  /-- A new array of the arguments. -/
  | array
  /-- The string form of the first argument. -/
  | display
  /-- Whether the first argument is the receiver. -/
  | sameReceiver
  /-- The value `undefined`. -/
  | nothing

namespace Routine

variable {κ : Type}

open Program

/-- A natural number as a value. -/
def numeral (n : Nat) : Value := .number (Double.ofNat n)

/-- A successful write yields `undefined`. -/
def voided (r : Except EngineError Unit) : Except EngineError Value :=
  r.map fun _ => .undefined

/-- **Run a routine.** -/
def run (e : EngineId) (this : Value) (args : List Value) :
    Routine → Program κ (Except EngineError Value)
  | argument => pure (.ok (args.getD 0 .undefined))
  | receiver => pure (.ok this)
  | count => pure (.ok (numeral args.length))
  | constant v => pure (.ok v)
  | throwNew cls message => do return .error (← op (.raise e cls message))
  | throwArgument => pure (.error (.exception (args.getD 0 .undefined)))
  | fail err => pure (.error err)
  | sum => pure (.ok (.number ((args.filterMap Value.number?).foldl Double.add Double.zero)))
  | lockDepth => do return .ok (numeral (← op (.lockDepth e)))
  | unlockedDepth => do return .ok (numeral (← unlocked e (op (.lockDepth e))))
  | collect => do return .ok (numeral (← op (.collect e)).freed)
  | get name => op (.get e (args.getD 0 .undefined) name)
  | set name => do
    return voided (← op (.set e (args.getD 0 .undefined) name (args.getD 1 .undefined)))
  | getReceiver name => op (.get e this name)
  | setReceiver name => do return voided (← op (.set e this name (args.getD 0 .undefined)))
  | call => op (.call e (args.getD 0 .undefined) this (args.drop 1))
  | unlockedCall => unlocked e (op (.call e (args.getD 0 .undefined) this (args.drop 1)))
  | tryCall => do
    match ← op (.call e (args.getD 0 .undefined) this (args.drop 1)) with
    | .error (.exception thrown) => return .ok thrown
    | outcome => return outcome
  | object => op (.createObject e)
  | array => op (.createArrayOf e args)
  | display => do return .ok (.string (← op (.display e (args.getD 0 .undefined))))
  | sameReceiver => pure (.ok (.bool ((args.getD 0 .undefined).sameValue this)))
  | nothing => pure (.ok .undefined)

end Routine

end EmbeddedScript
