import EmbeddedScript.Proofs.World.Persistence
import EmbeddedScript.Proofs.Bridge.RoundTrip

/-!
# Native values on their way through script

A native value that is handed to script may come back much later, after any number of
calls and collections. **It comes back as itself**: what stands for it in script is either
a primitive or a host wrapper, and a wrapper that stays live is one object, around one
host, for as long as it does. The host is an adapter, and an adapter never becomes the
adapter of another bound object (`World.bound?_of_staysLive`).

The heap may refuse the wrapper. Then the adapter that was made for it is dropped again
together with its share of the bound object, and no engine notices.
-/

namespace EmbeddedScript

open Act

variable {κ : Type} {m : Machine κ} {w w' : World κ} {e : EngineId}

/-- **A native value as it comes back from script**, where all numbers are of one kind: an
integer comes back as the number of the same value. -/
def NativeValue.widened : NativeValue → NativeValue
  | .int32 i => .double (Double.ofInt i.toInt)
  | n => n

/-- **A wrapper that stays live keeps its bound object.** -/
theorem World.bound?_of_staysLive {h : Handle} {b : Nat} {host : NativeId} {a : Adapter}
    (hw : w.Sound) (hr : StaysLive e h w w')
    (hi : w.identity? e h = some ⟨b, .host host .empty⟩)
    (hn : w.native? host = some (.adapter a)) : w'.bound? e (.object h) = some a.bound := by
  obtain ⟨cls, hn'⟩ := (retains_of_reaches (reaches_of_staysLive hr)).adapter hn
  obtain ⟨expandos, hg⟩ := Heap.get?_of_host (identity?_of_staysLive hw hr hi)
  exact bound?_of_host (a := { a with cls := cls }) hg hn'

/-- A new adapter has one owner, and its bound object has one more than before. -/
theorem World.natives_withAdapter {bound : NativeId} (registry : RegistryId) {n : Native κ}
    {k : Nat} (hb : w.natives[bound.index]? = some ⟨n, k⟩) :
    (w.withAdapter bound registry).2.natives[(w.withAdapter bound registry).1.index]?
        = some ⟨.adapter { bound := bound, registry := registry }, 1⟩
      ∧ (w.withAdapter bound registry).2.natives[bound.index]? = some ⟨n, k + 1⟩ := by
  unfold withAdapter
  have hnew : bound ≠ ((w.modifyOwners bound (· + 1)).addNative
      (.adapter { bound := bound, registry := registry })).1 := by
    intro h
    have hnone := native?_addNative_fst (w.modifyOwners bound (· + 1))
      (.adapter { bound := bound, registry := registry })
    rw [← h, native?_modifyOwners, native?_eq_some_iff.2 ⟨k, hb⟩] at hnone
    cases hnone
  refine ⟨by rw [natives_addNative, if_pos rfl], ?_⟩
  rw [natives_addNative, if_neg hnew, natives_modifyOwners, if_pos rfl, hb]
  rfl

namespace Machine

/-! ## A wrapper that the heap refuses -/

/-- The last owner of an adapter lets go of a share of its bound object, which is not the
last one of that. -/
theorem release_adapter (b : Behaviour κ) (depth : Nat) {id : NativeId} {a : Adapter}
    {n : Native κ} {k : Nat} (hid : w.natives[id.index]? = some ⟨.adapter a, 1⟩)
    (hbound : w.natives[a.bound.index]? = some ⟨n, k + 2⟩) :
    ∃ w', (b.machine (depth + 1)).release id w = .ok () w'
      ∧ ∀ e, w'.engine e = w.engine e := by
  have hne : id ≠ a.bound := by
    rintro rfl
    rw [hid, Option.some.injEq, NativeEntry.mk.injEq] at hbound
    omega
  rw [release_of_last _ hid]
  have hbound' : ((w.modifyOwners id (· - 1)).record (.finalised id
      (w.modifyOwners id (· - 1)).postures)).natives[a.bound.index]? = some ⟨n, k + 2⟩ := by
    show (w.modifyOwners id (· - 1)).natives[a.bound.index]? = _
    rw [World.natives_modifyOwners, if_neg hne, hbound]
  have hrelease := release_of_ne_one (b.machine depth) hbound' (by omega)
  refine ⟨_, run_eq_ok.2 ⟨[], _, eval_op_eq_ok.2 ⟨rfl, hrelease⟩, rfl⟩, fun e => rfl⟩

/-- **If there is no room, the bound object is not exposed**, and every engine is as it
was. -/
theorem toScript_of_refusal (b : Behaviour κ) (depth : Nat) (hl : (w.engine e).loan = .none)
    {err : EngineError} (hr : (w.engine e).heap.refusal? = some err) {bound : NativeId}
    (hp : ∀ p, w.native? bound ≠ some (.proxy p)) (ha : w.isAlive bound = true)
    (registry : RegistryId) (owned : List Local) :
    ∃ w', (b.machine (depth + 1)).eval (Program.toScript e registry (.object bound)) owned w
        = .ok (.error err, owned) w'
      ∧ ∀ e', w'.engine e' = w.engine e' := by
  obtain ⟨n, k, hbound⟩ := World.exists_of_isAlive ha
  obtain ⟨hadapter, hbound₁⟩ := World.natives_withAdapter registry hbound
  -- with the heap lent out, the adapter is let go
  obtain ⟨w₂, hrelease, hw₂⟩ := release_adapter
    (w := (w.withAdapter bound registry).2.lend e .exclusive) b depth hadapter hbound₁
  have hcreate := allocate_of_refusal (m := b.machine (depth + 1))
    (w := (w.withAdapter bound registry).2) (o := .host (w.withAdapter bound registry).1 .empty)
    hl hr (bind_eq_ok.2 ⟨(), w₂, hrelease, rfl⟩)
  refine ⟨_, toScript_of_createHost hp hcreate owned, fun e' => ?_⟩
  rw [World.lend, World.engine_modifyEngine, hw₂, hw₂, World.lend, World.engine_modifyEngine,
    World.engine_modifyEngine]
  split
  case isTrue he => rw [if_pos rfl, ← he, ← hl]; rfl
  case isFalse => rfl

end Machine

/-! ## The way in and the way back -/

namespace Machine

variable {n : NativeValue} {bound : NativeId}

/-- What is a primitive in script comes back as it went in. -/
theorem run_toScript_of_primitive (m : Machine κ) (registry : RegistryId)
    (hn : ∀ id, n ≠ .object id) (w : World κ) :
    ∃ v, m.run (Program.toScript e registry n) [] w = .ok (.ok v) w
      ∧ ∀ (m' : Machine κ) (registry' : RegistryId) (w' : World κ),
        m'.run (Program.toNative e registry' v) [] w' = .ok n.widened w' := by
  cases n with
  | object id => exact absurd rfl (hn id)
  | void => exact ⟨.undefined, rfl, fun _ _ _ => rfl⟩
  | null => exact ⟨.null, rfl, fun _ _ _ => rfl⟩
  | bool b => exact ⟨.bool b, rfl, fun _ _ _ => rfl⟩
  | int32 i => exact ⟨.number (Double.ofInt i.toInt), rfl, fun _ _ _ => rfl⟩
  | double d => exact ⟨.number d, rfl, fun _ _ _ => rfl⟩
  | string s => exact ⟨.string s, rfl, fun _ _ _ => rfl⟩

/-- **A new wrapper keeps its bound object** as long as it stays live. -/
theorem bound?_of_wrapping {registry : RegistryId} (hw : w.Reachable)
    (hr : ((w.wrapping e bound registry).2).Sound)
    (hlive : World.StaysLive e (w.wrapping e bound registry).1
      (w.wrapping e bound registry).2 w') :
    w'.bound? e (.object (w.wrapping e bound registry).1) = some bound := by
  have hi : (w.wrapping e bound registry).2.identity? e (w.wrapping e bound registry).1
      = some ⟨(w.engine e).heap.births, .host (w.withAdapter bound registry).1 .empty⟩ := by
    unfold World.identity?
    rw [World.heap_wrapping, Heap.identity?_place (hw.sound e).wellFormed]
    exact if_pos rfl
  exact World.bound?_of_staysLive hr hlive hi (w.native?_wrapping e bound registry)

/-- An object that goes into script in a new wrapper comes out of it as itself. -/
theorem run_toScript_of_room (b : Behaviour κ) (depth : Nat) (hw : w.Reachable)
    (hl : (w.engine e).loan = .none) (hr : (w.engine e).heap.refusal? = none)
    (hp : ∀ p, w.native? bound ≠ some (.proxy p)) (registry : RegistryId) :
    ∃ k w₁, (b.machine depth).run (Program.toScript e registry (.object bound)) [] w
        = .ok (.ok (.object k)) w₁
      ∧ ∀ w', World.StaysLive e k w₁ w' → (w'.engine e).loan.allowsRead = true →
        ∀ (m : Machine κ) (registry' : RegistryId), ∃ w'',
          m.run (Program.toNative e registry' (.object k)) [] w' = .ok (.object bound) w'' := by
  have hrun : (b.machine depth).run (Program.toScript e registry (.object bound)) [] w
      = .ok (.ok (.object (w.wrapping e bound registry).1)) (w.wrapping e bound registry).2 :=
    run_eq_ok.2 ⟨[], _, toScript_of_bound hl hr hp registry [], rfl⟩
  have hreach := (b.reachable_run depth (Program.toScript e registry (.object bound)) [] hw).1
  rw [after_of_ok hrun] at hreach
  refine ⟨_, _, hrun, fun w' hlive hread m registry' => ?_⟩
  have hbound := bound?_of_wrapping hw hreach.sound hlive
  exact ⟨_, run_eq_ok.2 ⟨[], _, toNative_of_bound hread hbound registry' [], rfl⟩⟩

end Machine

/-- Natives without members. -/
def Behaviour.barren : Behaviour Unit where
  answer _ _
    | .bound (.hasProperty _) => .done false
    | _ => .panic .noAnswer
  finaliser _ := .done ()

/-- The world with one native, which nothing in script refers to yet. -/
def World.unexposed : World Unit :=
  ((Behaviour.barren.machine 2).run (Program.op (.spawn (.custom ()))) []).after {}

/-- The world after the native was exposed. -/
def World.handedOver : World Unit :=
  ((Behaviour.barren.machine 2).run (Program.toScript ⟨0⟩ ⟨0⟩ (.object ⟨0⟩)) []).after
    World.unexposed

/-- The world after the wrapper was rooted and given a property of its own, the registry
was emptied and the heap collected. -/
def World.wornIn : World Unit :=
  ((Behaviour.barren.machine 2).run (do
    let _ ← Program.op (.root ⟨0⟩ (.object ⟨0, 0⟩))
    let _ ← Program.op (.set ⟨0⟩ (.object ⟨0, 0⟩) "mark" (.bool true))
    Program.op (.finalizeRegistry ⟨0⟩)
    Program.op (.collect ⟨0⟩)) []).after World.handedOver

end EmbeddedScript
