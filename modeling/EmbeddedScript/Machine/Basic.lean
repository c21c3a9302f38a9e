import EmbeddedScript.Program

/-!
# The machine

Engine operations call natives and natives call engine operations. The knot is
cut here: a `Machine` says **how natives are run**, and every engine operation is
an action that is given a machine. What an operation guarantees whatever natives
do is then a statement about all machines, and what it guarantees if natives keep
some property is a statement about the machines that keep it.

An action either finishes or is cut short, by a panic or because natives are
nested too deeply. Either way it leaves a world behind, and everything an
operation has set up – a level of the lock, stack roots, a loan of the heap, a
share of a native – is taken down again on the way out.
-/

namespace EmbeddedScript

/-- **Why an action was cut short.** -/
inductive Abort where
  /-- Native code panicked. -/
  | panicked (p : Panic)
  /-- Natives were nested more deeply than the machine allows. -/
  | tooDeep
deriving DecidableEq

/-- **An action on the world.** -/
abbrev Act (κ α : Type) := EStateM Abort (World κ) α

/-- An engine operation that can fail. -/
abbrev Attempt (κ α : Type) := ExceptT EngineError (Act κ) α

/-- **A machine**: how natives are run. -/
structure Machine (κ : Type) where
  /-- Ask a native. -/
  ask : NativeId → (request : Request) → Act κ request.Reply
  /-- Run what a native does when its last owner lets go of it. -/
  finalise : Native κ → Act κ Unit

namespace Act

variable {κ α β : Type}

/-- Change the world. -/
def update (f : World κ → World κ) : Act κ Unit := fun w => .ok () (f w)

/-- Look at the world. -/
def view (f : World κ → α) : Act κ α := fun w => .ok (f w) w

/-- Change the world and take something from the change. -/
def extract (f : World κ → α × World κ) : Act κ α := fun w => let (a, w) := f w; .ok a w

/-- Panic. -/
def panic (p : Panic) : Act κ α := throw (.panicked p)

/-- An action that cannot fail, as one that can. -/
def attempt (body : Act κ α) : Attempt κ α := ExceptT.lift body

/-- **Run an action and then another**, also when the first was cut short. -/
def ensuring (body : Act κ α) (exit : Act κ Unit) : Act κ α := fun w =>
  match body w with
  | .ok a w =>
    match exit w with
    | .ok _ w => .ok a w
    | .error x w => .error x w
  | .error x w =>
    match exit w with
    | .ok _ w => .error x w
    | .error y w => .error y w

/-- **Run an action in a changed world** and change it back afterwards. -/
def within (enter exit : World κ → World κ) (body : Act κ α) : Act κ α := fun w =>
  ensuring body (update exit) (enter w)

/-! ## The heap -/

/-- Read the heap, if it is not lent to a writer. -/
def readHeap (e : EngineId) (f : Heap → α) : Act κ α := fun w =>
  if (w.engine e).loan.allowsRead then .ok (f (w.engine e).heap) w
  else .error (.panicked .heapLent) w

/-- Change the heap, if it is not lent out. -/
def writeHeap (e : EngineId) (f : Heap → α × Heap) : Act κ α := fun w =>
  if (w.engine e).loan.allowsWrite then
    let (heap, w) := w.exchangeHeap e {}
    let (a, heap) := f heap
    .ok a (w.exchangeHeap e heap).2
  else .error (.panicked .heapLent) w

/-- A heap that is not lent out is changed where it is, and nothing else is. -/
theorem writeHeap_of_allowsWrite {e : EngineId} {w : World κ}
    (h : (w.engine e).loan.allowsWrite = true) (f : Heap → α × Heap) :
    writeHeap e f w =
      .ok (f (w.engine e).heap).1
        (w.modifyEngine e fun s => { s with heap := (f (w.engine e).heap).2 }) := by
  simp only [writeHeap, h, if_true, World.exchangeHeap, World.modifyEngine_modifyEngine]
  rfl

/-- **Change the heap by putting values into an object**, if it is not lent out. With
which outcomes they were put there is for `stored` to say, and then the stale ones among
them go on record. -/
def storeHeap (e : EngineId) (vs : List Value) (stored : α → Bool) (f : Heap → α × Heap) :
    Act κ α := do
  let (a, stale) ← writeHeap e fun heap =>
    let (stale, heap) := heap.staleAmong vs
    let (a, heap) := f heap
    ((a, stale), heap)
  update (·.recordStale e (if stored a then stale else []))
  pure a

/-- Run an action while the heap is lent to one more reader. -/
def reading (e : EngineId) (body : Act κ α) : Act κ α :=
  within (·.modifyEngine e fun s => { s with loan := s.loan.withReader })
    (·.modifyEngine e fun s => { s with loan := s.loan.withoutReader }) body

/-- Run an action while the heap is lent to a writer. -/
def writing (e : EngineId) (body : Act κ α) : Act κ α :=
  within (·.modifyEngine e fun s => { s with loan := .exclusive })
    (·.modifyEngine e fun s => { s with loan := .none }) body

/-- The object that a handle denotes. -/
def object (e : EngineId) (h : Handle) : Attempt κ HeapObject :=
  ExceptT.mk (readHeap e (·.get h))

/-- The handle of an object, or the fault of a value that is none. -/
def expectHandle (v : Value) : Attempt κ Handle :=
  match v.handle? with
  | some h => pure h
  | none => throw (.typeError (.notObject v.typeName))

/-! ## The lock and the stack -/

/-- **Run an action with one more level of the lock taken.** -/
def locked (e : EngineId) (body : Act κ α) : Act κ α :=
  within (·.modifyEngine e fun s => { s with lock := s.lock.take })
    (·.modifyEngine e fun s => { s with lock := s.lock.undo .level }) body

/-- **Run an action with some values on the stack of roots.** Afterwards the
stack has the height it had before. -/
def pinning (e : EngineId) (vs : List Value) (body : Act κ α) : Act κ α := fun w =>
  let height := (w.engine e).roots.height
  within (·.modifyEngine e fun s => { s with roots := s.roots.push vs })
    (·.modifyEngine e fun s => { s with roots := s.roots.truncate height }) body w

end Act

namespace Machine

variable {κ α : Type}

/-- **Ask a native**, which goes on record. -/
def request (m : Machine κ) (id : NativeId) (r : Request) : Act κ r.Reply := do
  Act.update fun w => w.record (.asked id r w.postures)
  m.ask id r

/-- Ask a host on behalf of an engine. -/
def askHost (m : Machine κ) (e : EngineId) (host : NativeId) (r : HostRequest) :
    Act κ r.Reply :=
  m.request host (.host e r)

/-- **Let go of a share of a native.** The last owner's letting go finalises the
native; one that has no owner any more is left alone. -/
def release (m : Machine κ) (id : NativeId) : Act κ Unit := fun w =>
  match w.natives[id.index]? with
  | none => .ok () w
  | some entry =>
    let w := w.modifyOwners id (· - 1)
    if entry.owners = 1 then
      m.finalise entry.native (w.record (.finalised id w.postures))
    else .ok () w

/-- Run an action while owning one more share of a native. -/
def sharing (m : Machine κ) (id : NativeId) (body : Act κ α) : Act κ α := fun w =>
  Act.ensuring body (m.release id) (w.modifyOwners id (· + 1))

/-- Let go of what some freed objects own, in order. -/
def releaseAll (m : Machine κ) : List HeapObject → Act κ Unit
  | [] => pure ()
  | o :: rest => do
    match o.native? with
    | some id => m.release id
    | none => pure ()
    m.releaseAll rest

end Machine

end EmbeddedScript
