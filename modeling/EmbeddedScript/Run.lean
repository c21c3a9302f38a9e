import EmbeddedScript.Machine.Call
import EmbeddedScript.Bridge.Adapter
import EmbeddedScript.Bridge.Proxy

/-!
# Running programs

Running a program performs its operations in order, in one frame. The natives of
an embedder are given by a `Behaviour`: for every native and request a program
that computes the answer. Adapters and proxies are programs as well.

The knot between operations and natives is tied by depth: a machine of depth
`n + 1` runs a native's program with operations that run natives by the machine
of depth `n`. Only how deeply natives may be nested is bounded, and at depth zero
asking a native cuts the action short.
-/

namespace EmbeddedScript

/-- **What an embedder's natives do.** -/
structure Behaviour (κ : Type) where
  /-- The program that answers a request to a native in some state. -/
  answer : NativeId → κ → (r : Request) → Program κ r.Reply
  /-- The program that runs when a native in some state has lost its last
  owner: it lets go of what the native owned. -/
  finaliser : κ → Program κ Unit

variable {κ α : Type}

namespace Machine

/-- Drop something that a frame owned. -/
def dropLocal (m : Machine κ) : Local → Act κ Unit
  | .guard e g => Act.update (·.modifyEngine e fun s => { s with lock := s.lock.undo g })
  | .root r => Act.update (·.dropRoot r)
  | .native id => m.release id

/-- **Drop everything that a frame owns**, innermost first. What is left is dropped
also when dropping something was cut short. -/
def unwind (m : Machine κ) : List Local → Act κ Unit
  | [] => pure ()
  | l :: rest => Act.ensuring (m.dropLocal l) (m.unwind rest)

/-- **Perform an operation.** -/
def perform (m : Machine κ) : (o : Op κ) → Act κ o.Reply
  | .newEngine options => Act.extract (·.addEngine options)
  | .options e => Act.view fun w => (w.engine e).options
  | .createObject e => (m.createObject e).run
  | .createArray e length => (m.createArray e length).run
  | .createArrayOf e items => (m.createArrayOf e items).run
  | .createFunction e name body => (m.createFunction e name body).run
  | .createHost e host => (m.createHost e host).run
  | .get e target name => (m.get e target name).run
  | .set e target name value => (m.set e target name value).run
  | .names e target => (m.names e target).run
  | .arrayLength e v => (arrayLength e v).run
  | .arrayGet e v i => (arrayGet e v i).run
  | .arraySet e v i value => (arraySet e v i value).run
  | .arrayPush e v value => (arrayPush e v value).run
  | .arrayPop e v => (arrayPop e v).run
  | .call e callee this args => (m.call e callee this args).run
  | .toPrimitive e v hint => (m.toPrimitive e v hint).run
  | .display e v => m.display e v
  | .kind e v => m.kind e v
  | .hostOf e v => hostOf e v
  | .boundOf e v => boundOf e v
  | .isLive e v => isLive e v
  | .liveObjects e => Act.readHeap e (·.live)
  | .protect e v => Act.update fun w =>
      (w.modifyEngine e fun s => { s with roots := s.roots.protect v }).record (.pinned e v)
  | .unprotect e v => Act.update fun w =>
      (w.modifyEngine e fun s => { s with roots := s.roots.unprotect v }).record (.unpinned e v)
  | .protectCount e v => Act.view fun w => (w.engine e).roots.protectCount v
  | .root e v => Act.extract (·.addRoot e v)
  | .unroot r => Act.update (·.dropRoot r)
  | .collect e => m.collect e
  | .safepoint e => m.safepoint e
  | .stats e => Act.view fun w => (w.engine e).stats
  | .raise e cls message => m.raise e cls message
  | .describe e err => m.describe e err
  | .report e err => m.report e err
  | .takeReported e => takeReported e
  | .lockDepth e => Act.view fun w => (w.engine e).lock.depth
  | .lock e => Act.update (·.modifyEngine e fun s => { s with lock := s.lock.take })
  | .releaseLock e => Act.extract fun w =>
      ((w.engine e).lock.depth, w.modifyEngine e fun s => { s with lock := s.lock.dropAll })
  | .spawn n => Act.extract (·.addNative n)
  | .retain id => Act.update (·.modifyOwners id (· + 1))
  | .release id => m.release id
  | .ask id r => m.request id r
  | .look id => Act.view (·.native? id)
  | .become id state => Act.update (·.become id state)
  | .newRegistry room => Act.extract (·.addRegistry room)
  | .classFor r bound => Act.extract (·.classFor r bound)
  | .finalizeRegistry r => Act.update (·.modifyRegistry r Registry.finalize)
  | .registrySize r => Act.view fun w => (w.registry r).size
  | .newClass => Act.extract (·.addClass)
  | .adapterClass id => do
    match ← Act.view (·.native? id) with
    | some (.adapter a) => Act.extract (·.adapterClass id a)
    | _ => Act.panic .noAnswer
  | .reflected c => Act.view (·.reflectedClass c)
  | .cached c kind name => Act.view fun w => (w.reflectedClass c).cached? kind name
  | .intern c kind name => Act.extract (·.intern c kind name)
  | .note n => Act.update fun w => { w with notes := n :: w.notes }
  | .takeNotes => Act.extract fun w => (w.notes.reverse, { w with notes := [] })

/-- **Run a program** in a frame that owns some things already. -/
def run (m : Machine κ) : Program κ α → List Local → Act κ α
  | .done a, owned => do
    m.unwind owned
    pure a
  | .panic p, owned => do
    m.unwind owned
    Act.panic p
  | .perform op next, owned => fun w =>
    match m.perform op w with
    | .ok r w => m.run (next r) owned w
    | .error x w => Act.ensuring (throw x) (m.unwind owned) w
  | .hold l next, owned => m.run next (l :: owned)
  | .drop next, owned => fun w =>
    match owned with
    | [] => m.run next [] w
    | l :: owned =>
      match m.dropLocal l w with
      | .ok _ w => m.run next owned w
      | .error x w => Act.ensuring (throw x) (m.unwind owned) w
  | .forget next, owned => m.run next owned.tail

end Machine

namespace Behaviour

/-- **The program that answers a request to a native.** A native that is asked in
a role it does not play panics. -/
def program (b : Behaviour κ) (id : NativeId) (n : Native κ) (r : Request) :
    Program κ r.Reply :=
  match n, r with
  | .custom state, r => b.answer id state r
  | .adapter a, .host e r => a.answer id e r
  | .proxy p, .bound r => p.answer r
  | _, _ => .panic .noAnswer

/-- **The program that runs when a native has lost its last owner.** -/
def finalProgram (b : Behaviour κ) : Native κ → Program κ Unit
  | .custom state => b.finaliser state
  | .adapter a => Program.op (.release a.bound)
  | .proxy p => Program.op (.unroot p.root)

/-- **The machine that nests natives to some depth.** -/
def machine (b : Behaviour κ) : Nat → Machine κ
  | 0 => { ask := fun _ _ => throw .tooDeep, finalise := fun _ => throw .tooDeep }
  | depth + 1 =>
    { ask := fun id r => do
        match ← Act.view (·.native? id) with
        | some n => (b.machine depth).run (b.program id n r) []
        | none => Act.panic .noAnswer
      finalise := fun n => (b.machine depth).run (b.finalProgram n) [] }

end Behaviour

end EmbeddedScript
