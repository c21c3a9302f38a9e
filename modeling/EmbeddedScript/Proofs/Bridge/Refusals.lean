import EmbeddedScript.Proofs.Bridge.Iteration
import EmbeddedScript.Proofs.Machine.Refusals

/-!
# Operations that fail

All that a failed operation can set off is what dropping a rejected object sets off
(`Machine.reject`): if the object was to own a share of a native, that is let go of, and if it
was the last one, the native is finalised. Otherwise everything is as it was.

A wrapper is not spoken of, since its host is asked before the operation can fail.
-/

namespace EmbeddedScript

open Act Machine

variable {κ α : Type} {m : Machine κ} {w w' w₁ : World κ} {e : EngineId} {id : NativeId}

/-! ## Operations -/

/-- **No native has a say in the operation**: it makes an object, works on an array, or reads,
writes or lists a value that is no wrapper. -/
def Op.IsDirect (w : World κ) : Op κ → Prop
  | .createObject _ | .createArray _ _ | .createArrayOf _ _ | .createFunction _ _ _
  | .createHost _ _ | .arrayLength _ _ | .arrayGet _ _ _ | .arraySet _ _ _ _ | .arrayPush _ _ _
  | .arrayPop _ _ => True
  | .get e v _ | .set e v _ _ | .names e v => w.host? e v = none
  | _ => False

/-- Such an operation answered with this error. -/
def Op.FailsWith (err : EngineError) : (o : Op κ) → o.Reply → Prop
  | .createObject _, r => r = .error err
  | .createArray _ _, r => r = .error err
  | .createArrayOf _ _, r => r = .error err
  | .createFunction _ _ _, r => r = .error err
  | .createHost _ _, r => r = .error err
  | .get _ _ _, r => r = .error err
  | .set _ _ _ _, r => r = .error err
  | .names _ _, r => r = .error err
  | .arrayLength _ _, r => r = .error err
  | .arrayGet _ _ _, r => r = .error err
  | .arraySet _ _ _ _, r => r = .error err
  | .arrayPush _ _ _, r => r = .error err
  | .arrayPop _ _, r => r = .error err
  | _, _ => False

/-- The engine to whose heap an operation offers a share of a native, and the native. -/
def Op.offered? : Op κ → Option (EngineId × NativeId)
  | .createFunction e _ body => some (e, body)
  | .createHost e host => some (e, host)
  | _ => none

/-- **What dropping a rejected object does**: the share of a native that it was to own is let go
of, while the heap is still lent to its writer. -/
def Machine.reject (m : Machine κ) (o : Op κ) : Act κ Unit :=
  match o.offered? with
  | some (e, id) => Act.writing e (m.release id)
  | none => pure ()

namespace Op

variable {o : Op κ} {r : o.Reply} {err : EngineError}

/-- **An operation that offers no native changes nothing when it fails.** -/
theorem unchanged_of_failsWith (ho : o.IsDirect w) (hn : o.offered? = none)
    (hr : m.perform o w = .ok r w') (herr : o.FailsWith err r) : w.Unchanged w' := by
  cases o with
  | createObject e => exact failsCleanly_allocate rfl _ _ (herr ▸ hr)
  | createArray e length => exact failsCleanly_createArray m length _ _ (herr ▸ hr)
  | createArrayOf e items => exact failsCleanly_createArrayOf m items _ _ (herr ▸ hr)
  | createFunction e name body => cases hn
  | createHost e host => cases hn
  | get e v name => exact failsCleanly_get m ho name _ _ (herr ▸ hr)
  | set e v name value => exact failsCleanly_set m ho name value _ _ (herr ▸ hr)
  | names e v => exact failsCleanly_names m ho _ _ (herr ▸ hr)
  | arrayLength e v => exact failsCleanly_withArray _ _ _ (herr ▸ hr)
  | arrayGet e v i => exact failsCleanly_withArray _ _ _ (herr ▸ hr)
  | arraySet e v i value => exact failsCleanly_storeElement _ _ _ _ (herr ▸ hr)
  | arrayPush e v value => exact failsCleanly_storeElement _ _ _ _ (herr ▸ hr)
  | arrayPop e v => exact failsCleanly_withArray _ _ _ (herr ▸ hr)
  | _ => exact ho.elim

/-- **One that offers a native lets go of it when it fails.** -/
theorem writing_of_failsWith (hn : o.offered? = some (e, id)) (hr : m.perform o w = .ok r w')
    (herr : o.FailsWith err r) :
    (w.engine e).loan = .none ∧ Act.writing e (m.release id) w = .ok () w' := by
  cases o with
  | createFunction e name body =>
    cases hn
    obtain ⟨hl, hd⟩ := writing_of_allocate (herr ▸ hr)
    exact ⟨hl, writing_release rfl hd⟩
  | createHost e host =>
    cases hn
    obtain ⟨hl, hd⟩ := writing_of_allocate (herr ▸ hr)
    exact ⟨hl, writing_release rfl hd⟩
  | _ => cases hn

end Op

/-! ## Script values -/

namespace ScriptValue

variable {s : ScriptValue} {r : Except EngineError Value} {err : EngineError}

/-- Nothing is held if there is nothing to hold. -/
theorem eq_of_run_held (hr : m.run (s.held r) [] w = .ok (.error err) w') :
    r = .error err ∧ w = w' := by
  cases r with
  | error err' =>
    obtain ⟨herr, rfl⟩ := run_pure_eq_ok.1 hr
    exact ⟨congrArg _ (Except.error.inj herr).symm, rfl⟩
  | ok v =>
    obtain ⟨s₁, -, hs⟩ := run_map_eq_ok.1 hr
    cases hs

/-- **A script value that could not be given a new object** has changed nothing. -/
theorem unchanged_of_run_setObjectType (hr : m.run s.setObjectType [] w = .ok (.error err) w') :
    w.Unchanged w' := by
  rw [setObjectType_eq] at hr
  obtain ⟨r, w₁, hcreate, hheld⟩ := run_op_bind_eq_ok.1 hr
  obtain ⟨rfl, rfl⟩ := eq_of_run_held hheld
  exact Op.unchanged_of_failsWith (o := .createObject s.engine) trivial rfl hcreate rfl

theorem unchanged_of_run_setArrayType {length : Nat}
    (hr : m.run (s.setArrayType length) [] w = .ok (.error err) w') : w.Unchanged w' := by
  rw [setArrayType_eq] at hr
  obtain ⟨r, w₁, hcreate, hheld⟩ := run_op_bind_eq_ok.1 hr
  obtain ⟨rfl, rfl⟩ := eq_of_run_held hheld
  exact Op.unchanged_of_failsWith (o := .createArray s.engine length) trivial rfl hcreate rfl

end ScriptValue

/-! ## The result -/

/-- The script value that its holder has afterwards: if what he did failed, the one he had. -/
def ScriptValue.afterwards (s : ScriptValue) : Except EngineError ScriptValue → ScriptValue
  | .ok s' => s'
  | .error _ => s

/-- **A failed operation changes nothing.** It may have been to make an object, to work on an
array, or to read, write or list a value that is no wrapper; whatever it failed for, the world
that it leaves behind is the one in which only the rejected object was dropped. Unless that owned a
native, it is the world as it was; and if somebody else owns the native too, the native has one
owner fewer and nothing else is different.

So it is when the holder of a script value asks for a new array or object to hold instead: he
still holds the same value, with its root and its cursor. -/
theorem Machine.failure_changes_nothing (m : Machine κ) :
    (∀ (w w' : World κ) (o : Op κ) (r : o.Reply) (err : EngineError), o.IsDirect w →
        m.perform o w = .ok r w' → o.FailsWith err r →
        (∃ w₁, m.reject o w = .ok () w₁ ∧ w₁.Unchanged w')
          ∧ (o.offered? = none → w.Unchanged w')
          ∧ ∀ e id, o.offered? = some (e, id) → w.owners id ≠ 1 →
            (w.modifyOwners id (· - 1)).Unchanged w')
      ∧ ∀ (w w' : World κ) (s : ScriptValue) (r : Except EngineError ScriptValue)
        (err : EngineError),
        (m.run s.setObjectType [] w = .ok r w'
          ∨ ∃ length, m.run (s.setArrayType length) [] w = .ok r w') → r = .error err →
        w.Unchanged w' ∧ s.afterwards r = s
          ∧ (w'.engine s.engine).roots.protectCount s.value
            = (w.engine s.engine).roots.protectCount s.value := by
  refine ⟨fun w w' o r err ho hr herr => ?_, fun w w' s r err hrun herr => ?_⟩
  · cases hn : o.offered? with
    | none =>
      have hsame : w.Unchanged w' := Op.unchanged_of_failsWith ho hn hr herr
      refine ⟨⟨w, by rw [reject, hn]; rfl, hsame⟩, fun _ => hsame, fun e id h => ?_⟩
      cases h
    | some offer =>
      obtain ⟨e, id⟩ := offer
      obtain ⟨hl, hd⟩ := Op.writing_of_failsWith hn hr herr
      refine ⟨⟨w', by rw [reject, hn]; exact hd, .refl w'⟩, (nomatch ·), fun e' id' h howned => ?_⟩
      cases h
      exact unchanged_of_release hl howned hd
  · subst herr
    have hsame : w.Unchanged w' := by
      rcases hrun with hrun | ⟨length, hrun⟩
      · exact ScriptValue.unchanged_of_run_setObjectType hrun
      · exact ScriptValue.unchanged_of_run_setArrayType hrun
    exact ⟨hsame, rfl, by rw [hsame.engine]⟩

/-- The world with an engine for one object, which is an array that is held, and with one
native. -/
def World.cramped : World Unit :=
  ((Behaviour.idle.machine 1).run (do
    let e ← Program.op (.newEngine { maxHeapObjects := 1 })
    let _ ← Program.op (.createArray e 2)
    let _ ← Program.op (.root e (.object ⟨0, 0⟩))
    Program.op (.spawn (.custom ()))) []).after {}

/-- An action fails if it finishes with what is no success. -/
theorem Act.exists_error_of_finishes {a : Act κ (Except EngineError α)}
    (h : a.finishes w (fun r _ => !r.isOk) = true) : ∃ err w', a w = .ok (.error err) w' := by
  obtain ⟨r, w', hr, hfails⟩ := exists_of_finishes h
  cases r with
  | error err => exact ⟨err, w', hr⟩
  | ok x => cases hfails

/-- There is no room for a wrapper of the native, and the native goes; the array has no element
so far up; and a script value cannot be given another array to hold. -/
theorem Machine.failure_changes_nothing_cramped :
    (∃ err w₁ w', (Behaviour.idle.machine 1).perform (.createHost ⟨1⟩ ⟨0⟩) World.cramped
          = .ok (.error err) w'
        ∧ (Behaviour.idle.machine 1).reject (.createHost ⟨1⟩ ⟨0⟩) World.cramped = .ok () w₁
        ∧ w₁.Unchanged w')
      ∧ (∃ err w', (Behaviour.idle.machine 1).perform
            (.arraySet ⟨1⟩ (.object ⟨0, 0⟩) 4294967295 .null) World.cramped = .ok (.error err) w'
          ∧ World.cramped.Unchanged w')
      ∧ ∃ err w', (Behaviour.idle.machine 1).run
            (({ root := ⟨0, ⟨1⟩, .object ⟨0, 0⟩⟩ } : ScriptValue).setArrayType 3) [] World.cramped
            = .ok (.error err) w'
          ∧ World.cramped.Unchanged w' := by
  obtain ⟨hops, hheld⟩ := failure_changes_nothing (Behaviour.idle.machine 1)
  refine ⟨?_, ?_, ?_⟩
  · obtain ⟨err, w', hr⟩ := Act.exists_error_of_finishes (w := World.cramped)
      (a := (Behaviour.idle.machine 1).perform (.createHost ⟨1⟩ ⟨0⟩)) (by decide +kernel)
    obtain ⟨⟨w₁, hreject, hsame⟩, -⟩ := hops _ _ (.createHost ⟨1⟩ ⟨0⟩) _ err trivial hr rfl
    exact ⟨err, w₁, w', hr, hreject, hsame⟩
  · obtain ⟨err, w', hr⟩ := Act.exists_error_of_finishes (w := World.cramped)
      (a := (Behaviour.idle.machine 1).perform (.arraySet ⟨1⟩ (.object ⟨0, 0⟩) 4294967295 .null))
      (by decide +kernel)
    obtain ⟨-, hsame, -⟩ :=
      hops _ _ (.arraySet ⟨1⟩ (.object ⟨0, 0⟩) 4294967295 .null) _ err trivial hr rfl
    exact ⟨err, w', hr, hsame rfl⟩
  · obtain ⟨err, w', hr⟩ := Act.exists_error_of_finishes (w := World.cramped)
      (a := (Behaviour.idle.machine 1).run
        (({ root := ⟨0, ⟨1⟩, .object ⟨0, 0⟩⟩ } : ScriptValue).setArrayType 3) [])
      (by decide +kernel)
    exact ⟨err, w', hr, (hheld _ _ _ _ err (.inr ⟨3, hr⟩) rfl).1⟩

end EmbeddedScript
