import EmbeddedScript.Bridge.Context
import EmbeddedScript.Proofs.Bridge.Balance
import EmbeddedScript.Proofs.Bridge.RoundTrip

/-!
# Values and the engines they were taken from

A handle says nothing about the engine that made it: the same handle may denote one
object in each engine. A script value says it, by its root, so two script values are
equal only if they are of one engine.

Three operations take the value out of a script value or a proxy and use it with an
engine of their own: assignment keeps the engine of the script value that is assigned to,
a bridge looks behind the value in the engine that the bridge serves, and a proxy on its
way into script is its value in whatever engine asks. **Each gives a view of what it was
given exactly if the two engines are the same.** Otherwise the value changes engine, and
what it denotes there is unrelated to the object it denoted before.
-/

namespace EmbeddedScript

open Act

variable {κ : Type} {m : Machine κ} {w : World κ}

namespace ScriptValue

/-- Script values of one value are equal exactly if they are of one engine. -/
theorem equals_of_value_eq {s t : ScriptValue} (h : s.value = t.value) :
    s.equals t = true ↔ s.engine = t.engine := by
  have same : s.value.sameValue t.value = true := Value.sameValue_iff.2 h
  rw [equals, same, Bool.and_true, decide_eq_true_iff]

/-- The world in which a script value has been replaced: the new value is rooted before
the old root is dropped. -/
theorem run_replace_of_ne (m : Machine κ) {s : ScriptValue} {v : Value} (h : s.value ≠ v)
    (w : World κ) :
    m.run (s.replace v) [] w
      = .ok { root := (w.addRoot s.engine v).1 } ((w.addRoot s.engine v).2.dropRoot s.root) := by
  have differ : ¬ s.value.sameValue v = true := fun hs => h (Value.sameValue_iff.1 hs)
  unfold replace
  rw [if_neg differ]
  rfl

/-- **A script value keeps its engine** whatever value it comes to hold. -/
theorem run_replace (m : Machine κ) (s : ScriptValue) (v : Value) (w : World κ) :
    ∃ s' w', m.run (s.replace v) [] w = .ok s' w' ∧ s'.engine = s.engine ∧ s'.value = v := by
  by_cases h : s.value = v
  · exact ⟨s, w, run_assign m s { s with root := { s.root with value := v } } h.symm w, rfl, h⟩
  · exact ⟨_, _, run_replace_of_ne m h w, rfl, rfl⟩

end ScriptValue

namespace Bridge

variable {b : Bridge} {s : ScriptValue}

/-- **A bridge makes a proxy of what its own engine has no bound object behind.** -/
theorem run_toNative_of_none (m : Machine κ) (hl : (w.engine b.engine).loan.allowsRead = true)
    {h : Handle} (hs : s.value = .object h) (hb : w.bound? b.engine s.value = none) :
    ∃ id p w', m.run (b.toNative s) [] w = .ok (.object id) w'
      ∧ w'.native? id = some (.proxy p) ∧ p.engine = b.engine ∧ p.value = s.value := by
  have heval := Machine.toNative_of_object (m := m) hl (hs ▸ hb) b.registry []
  have hrun := Machine.run_eq_ok.2 ⟨[], _, heval, rfl⟩
  refine ⟨_, ⟨(w.addRoot b.engine (.object h)).1, b.registry⟩, _, ?_,
    World.native?_addNative (w.addRoot b.engine (.object h)).2 _, rfl, hs.symm⟩
  unfold toNative
  rwa [hs]

/-- Otherwise it gives what it found there. -/
theorem run_toNative_of_bound (m : Machine κ) (hl : (w.engine b.engine).loan.allowsRead = true)
    {bound : NativeId} (hb : w.bound? b.engine s.value = some bound) :
    m.run (b.toNative s) [] w = .ok (.object bound) (w.modifyOwners bound (· + 1)) :=
  Machine.run_eq_ok.2 ⟨[], _, Machine.toNative_of_bound hl hb b.registry [], rfl⟩

end Bridge

/-! ## What a value denotes -/

namespace World

/-- **The object that a value denotes in an engine**: the engine it is in, and the number
of objects allocated there before it. -/
def denoted? (w : World κ) (e : EngineId) : Value → Option (EngineId × Nat)
  | .object h => (w.identity? e h).map fun object => (e, object.birth)
  | _ => none

/-- **A value that is taken to another engine denotes another object** there, or nothing. -/
theorem denoted?_of_engine_ne {e e' : EngineId} {v : Value} (h : e ≠ e')
    {object : EngineId × Nat} (hd : w.denoted? e v = some object) :
    w.denoted? e' v ≠ some object := by
  intro hd'
  cases v with
  | object k =>
    obtain ⟨_, -, here⟩ := Option.map_eq_some_iff.1 hd
    obtain ⟨_, -, there⟩ := Option.map_eq_some_iff.1 hd'
    exact h (congrArg Prod.fst (here.trans there.symm))
  | _ => cases hd

end World

/-- **A view of another value, exactly if the engines are the same.** Assignment gives a
script value of the engine it had and of the value assigned, and it equals what was
assigned if and only if that is of the same engine. A bridge that finds no bound object
behind a value in its own engine gives a proxy of that engine, which equals the script
value that was converted if and only if that is of the engine of the bridge; otherwise it
gives the bound object that it finds there. A proxy on its way into script is its value,
whatever the engine, and what that denotes there is the proxied object or nothing if and
only if the engine is the proxy's or the value denotes nothing there. -/
theorem Bridge.views_iff_same_engine (m : Machine κ) :
    (∀ (s other : ScriptValue) (w : World κ), ∃ s' w',
        m.run (s.assign other) [] w = .ok s' w'
          ∧ s'.engine = s.engine ∧ s'.value = other.value
          ∧ (s'.equals other = true ↔ s.engine = other.engine))
      ∧ (∀ (b : Bridge) (s : ScriptValue) (h : Handle) (w : World κ), s.value = .object h →
        (w.engine b.engine).loan.allowsRead = true →
          (w.bound? b.engine s.value = none → ∃ id p w',
            m.run (b.toNative s) [] w = .ok (.object id) w'
              ∧ w'.native? id = some (.proxy p)
              ∧ p.engine = b.engine ∧ p.value = s.value
              ∧ (p.subject.equals s = true ↔ b.engine = s.engine))
            ∧ ∀ bound, w.bound? b.engine s.value = some bound → ∃ w',
              m.run (b.toNative s) [] w = .ok (.object bound) w')
      ∧ ∀ (e : EngineId) (registry : RegistryId) (id : NativeId) (p : Proxy) (w : World κ),
        w.native? id = some (.proxy p) →
          m.run (Program.toScript e registry (.object id)) [] w = .ok (.ok p.value) w
            ∧ ((∀ object, w.denoted? e p.value = some object →
                  w.denoted? p.engine p.value = some object)
                ↔ e = p.engine ∨ w.denoted? e p.value = none) := by
  refine ⟨fun s other w => ?_, fun b s h w hs hl => ⟨fun hb => ?_, fun bound hb => ?_⟩,
    fun e registry id p w hp => ⟨?_, fun hsame => ?_, ?_⟩⟩
  · obtain ⟨s', w', hrun, he, hv⟩ := ScriptValue.run_replace m s other.value w
    refine ⟨s', w', hrun, he, hv, ?_⟩
    rw [ScriptValue.equals_of_value_eq hv, he]
  · obtain ⟨id, p, w', hrun, hp, he, hv⟩ := Bridge.run_toNative_of_none m hl hs hb
    refine ⟨id, p, w', hrun, hp, he, hv, ?_⟩
    rw [ScriptValue.equals_of_value_eq (s := p.subject) hv, ← he]
    rfl
  · exact ⟨_, Bridge.run_toNative_of_bound m hl hb⟩
  · exact Machine.run_eq_ok.2 ⟨[], w, Machine.toScript_of_proxy hp registry [], rfl⟩
  · by_cases h : e = p.engine
    · exact .inl h
    · refine .inr (Option.eq_none_iff_forall_ne_some.2 fun object hd => ?_)
      exact World.denoted?_of_engine_ne h hd (hsame object hd)
  · rintro (rfl | hnone) object hd
    · exact hd
    · rw [hnone] at hd
      cases hd

/-- The world with two engines of one object each, the handles of which are the same. Each
object is held by a script value, and a proxy stands for the first. -/
def World.bilingual : World Unit :=
  ((Behaviour.idle.machine 1).run (do
    let e ← Program.op (.newEngine {})
    let _ ← Program.op (.createObject ⟨0⟩)
    let _ ← Program.op (.createObject e)
    let s ← ScriptValue.adopt ⟨0⟩ (.object ⟨0, 0⟩)
    let _ ← ScriptValue.adopt e .undefined
    let _ ← Program.op (.spawn (.proxy ⟨s.root, ⟨0⟩⟩))) []).after {}

/-- The script value of the first engine. -/
def ScriptValue.home : ScriptValue := { root := ⟨0, ⟨0⟩, .object ⟨0, 0⟩⟩ }

/-- The script value of the second engine. -/
def ScriptValue.abroad : ScriptValue := { root := ⟨1, ⟨1⟩, .undefined⟩ }

/-- Converted by a bridge of its own engine, a script value gives an equal proxy. -/
theorem Bridge.views_iff_same_engine_home : ∃ id p w',
    (Behaviour.idle.machine 1).run ((⟨⟨0⟩, ⟨0⟩, 64⟩ : Bridge).toNative .home) []
        World.bilingual = .ok (.object id) w'
      ∧ w'.native? id = some (.proxy p) ∧ p.subject.equals .home = true := by
  obtain ⟨-, hout, -⟩ := views_iff_same_engine (Behaviour.idle.machine 1)
  obtain ⟨id, p, w', hrun, hp, -, -, heq⟩ :=
    (hout ⟨⟨0⟩, ⟨0⟩, 64⟩ .home ⟨0, 0⟩ World.bilingual rfl (by decide +kernel)).1
      (by decide +kernel)
  exact ⟨id, p, w', hrun, hp, heq.2 rfl⟩

/-- Across engines a script value is not the view that it was assigned, and a proxy turns
into a handle of an unrelated object. -/
theorem ScriptValue.not_views_across_engines :
    ScriptValue.home.root ∈ World.bilingual.roots
      ∧ ScriptValue.abroad.root ∈ World.bilingual.roots
      ∧ ((Behaviour.idle.machine 1).run (abroad.assign home) []).finishes World.bilingual
          (fun s _ => !s.equals home) = true
      ∧ ((Behaviour.idle.machine 1).run (Program.toScript ⟨1⟩ ⟨0⟩ (.object ⟨0⟩)) []).finishes
          World.bilingual (fun r w => r.toOption = some (.object ⟨0, 0⟩)
            && w.denoted? ⟨1⟩ (.object ⟨0, 0⟩) = some (⟨1⟩, 0)
            && w.denoted? ⟨0⟩ (.object ⟨0, 0⟩) = some (⟨0⟩, 0)) = true := by
  decide +kernel

end EmbeddedScript
