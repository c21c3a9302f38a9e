import EmbeddedScript.Engine
import EmbeddedScript.NativeValue

/-!
# Requests to natives

Three kinds of native answer to the engine and to each other. A **body** is run
by a function object. A **host** answers for a host wrapper: it is asked about
properties, methods, calls, names and primitive forms, and may decline a property
so that the wrapper's own are used. A **bound object** is what an embedder
exposes: it is asked by name what members it has and to read, write or invoke
them.

A request says what is asked; `Request.Reply` is the type of the answer.
-/

namespace EmbeddedScript

/-- **What a host is asked** on behalf of an engine. -/
inductive HostRequest where
  /-- Read a property; no value means that the host does not answer for it. -/
  | getProperty (name : String)
  /-- Write a property; `false` means that the host does not answer for it. -/
  | setProperty (name : String) (value : Value)
  /-- Whether the name is a method. -/
  | hasMethod (name : String)
  /-- Invoke a method. -/
  | invokeMethod (name : String) (args : List Value)
  /-- Whether the wrapper itself can be called. -/
  | isCallable
  /-- Call the wrapper. -/
  | call (args : List Value)
  /-- The property names the host contributes. -/
  | propertyNames
  /-- The primitive form. -/
  | toPrimitive (hint : Hint)
deriving DecidableEq

/-- The type of a host's answer. -/
@[reducible] def HostRequest.Reply : HostRequest → Type
  | getProperty _ => Except EngineError (Option Value)
  | setProperty _ _ => Except EngineError Bool
  | hasMethod _ => Bool
  | invokeMethod _ _ => Except EngineError Value
  | isCallable => Bool
  | call _ => Except EngineError Value
  | propertyNames => List String
  | toPrimitive _ => Except EngineError Value

/-- **What a bound object is asked.** Arguments are lent; a value that is written
and a value that is returned change owner. -/
inductive BoundRequest where
  /-- Whether a member of this name can be invoked. -/
  | hasMethod (name : String)
  /-- Whether a property of this name can be read and written. -/
  | hasProperty (name : String)
  /-- Invoke a member. -/
  | invokeMethod (name : String) (args : List NativeValue)
  /-- Invoke the object itself. -/
  | invoke (args : List NativeValue)
  /-- Whether the object itself can be invoked. -/
  | isFunction
  /-- Read a property. -/
  | getProperty (name : String)
  /-- Write a property. -/
  | setProperty (name : String) (value : NativeValue)
  /-- The string form. -/
  | stringValue
  /-- The object's own property names. -/
  | properties
deriving DecidableEq

/-- The type of a bound object's answer. -/
@[reducible] def BoundRequest.Reply : BoundRequest → Type
  | hasMethod _ => Bool
  | hasProperty _ => Bool
  | invokeMethod _ _ => Except NativeError NativeValue
  | invoke _ => Except NativeError NativeValue
  | isFunction => Bool
  | getProperty _ => NativeValue
  | setProperty _ _ => Unit
  | stringValue => String
  | properties => List String

/-- **What a native is asked.** -/
inductive Request where
  /-- Run as the body of a function. -/
  | run (engine : EngineId) (this : Value) (args : List Value)
  /-- Answer for a host wrapper. -/
  | host (engine : EngineId) (request : HostRequest)
  /-- Answer as a bound object. -/
  | bound (request : BoundRequest)
deriving DecidableEq

/-- The type of the answer. -/
@[reducible] def Request.Reply : Request → Type
  | run _ _ _ => Except EngineError Value
  | host _ request => request.Reply
  | bound request => request.Reply

end EmbeddedScript
