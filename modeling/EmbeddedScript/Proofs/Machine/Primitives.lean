import EmbeddedScript.Proofs.Machine.Refusals
import EmbeddedScript.Proofs.Machine.StringForms

/-!
# Primitive forms

There are two ways to the string form of an object: to ask for it, and to ask for a primitive
form of it with a preference for strings. They take different paths to the host of a wrapper.
The string form looks at what the host says, and puts a text of its own in the place of an
object. The primitive form is **whatever the host says**, and if the host says an object, it is
that object (`Machine.primitive_form`).

So the two agree for every value whose primitive form is a primitive. Only a host can spoil it.
-/

namespace EmbeddedScript

open Act Machine

variable {κ : Type} {m : Machine κ} {e : EngineId} {heap : Heap} {u v p : Value}
  {w w' : World κ} {hint : Hint} {tells : NativeId → Except EngineError Value}
  {Among : World κ → Prop}

namespace Machine

/-! ## What a value is converted to -/

/-- A primitive is its own primitive form. -/
theorem toPrimitive_of_primitive (m : Machine κ) (e : EngineId) (hint : Hint)
    (hv : v.isObject = false) (w : World κ) :
    (m.toPrimitive e v hint).run w = .ok (.ok v) w := by
  unfold toPrimitive
  rw [hv]
  rfl

/-- Looking for the host of an object finds it, if the heap can be looked at. -/
theorem eq_host?_of_ok {r : Option NativeId} (hr : Machine.host? e v w = .ok r w') :
    r = w.host? e v ∧ w' = w := by
  cases hl : (w.engine e).loan.allowsRead with
  | true =>
    obtain ⟨rfl, rfl⟩ := EStateM.Result.ok.inj (hr.symm.trans (host?_eq hl v))
    exact ⟨rfl, rfl⟩
  | false =>
    cases v with
    | object h =>
      obtain ⟨o, w₁, hread, -⟩ := bind_eq_ok.1 hr
      rw [readHeap_of_lent hl] at hread
      cases hread
    | _ =>
      obtain ⟨rfl, rfl⟩ := pure_eq_ok.1 hr
      exact ⟨rfl, rfl⟩

/-- What an object comes to that has this host, or none. -/
def primitiveOf (m : Machine κ) (e : EngineId) (v : Value) (hint : Hint) :
    Option NativeId → Attempt κ Value
  | some id => ExceptT.mk (m.sharing id (Act.pinning e [v] (m.askHost e id (.toPrimitive hint))))
  | none =>
    match hint with
    | .number => pure (.number Double.nan)
    | _ => return .string (← Act.attempt (m.display e v))

/-- **An object is converted with the lock held**, when its host has been looked for. -/
theorem toPrimitive_eq_ok (hv : v.isObject = true)
    (hp : (m.toPrimitive e v hint).run w = .ok (.ok p) w') :
    ∃ w₁, (m.primitiveOf e v hint (w.host? e v)).run (w.relock e Lock.take) = .ok (.ok p) w₁
      ∧ w₁.relock e (·.undo .level) = w' := by
  unfold toPrimitive at hp
  rw [hv] at hp
  obtain ⟨w₁, hrun, hback⟩ := locked_eq_ok.1 hp
  obtain ⟨r, w₂, hhost, hrest⟩ := attempt_andThen hrun
  obtain ⟨rfl, rfl⟩ := eq_host?_of_ok hhost
  have hsame : (w.relock e Lock.take).host? e v = w.host? e v := by
    unfold World.host? World.relock
    rw [World.engine_modifyEngine_self]
  refine ⟨w₁, ?_, hback⟩
  rw [← hsame]
  cases hh : (w.relock e Lock.take).host? e v with
  | some id =>
    change World.host? (w.modifyEngine e _) e v = some id at hh
    rw [hh] at hrest
    exact hrest
  | none =>
    change World.host? (w.modifyEngine e _) e v = none at hh
    rw [hh] at hrest
    exact hrest

/-- **What has no host is converted to a primitive**: a number, or its string form. -/
theorem primitiveOf_none_eq_ok (hp : (m.primitiveOf e v hint none).run w = .ok (.ok p) w') :
    p.isObject = false
      ∧ (hint = .string → ∃ text, p = .string text ∧ m.display e v w = .ok text w') := by
  have hstring : ((return .string (← Act.attempt (m.display e v))) : Attempt κ Value).run w
      = .ok (.ok p) w' → ∃ text, p = .string text ∧ m.display e v w = .ok text w' := by
    intro hp
    obtain ⟨text, w₁, hdisplay, hreturn⟩ := attempt_andThen hp
    obtain ⟨hsame, rfl⟩ := pure_eq_ok.1 hreturn
    exact ⟨text, (Except.ok.inj hsame).symm, hdisplay⟩
  cases hint with
  | number =>
    obtain ⟨hnan, -⟩ := pure_eq_ok.1 hp
    obtain rfl := Except.ok.inj hnan
    exact ⟨rfl, nofun⟩
  | string =>
    obtain ⟨text, rfl, hdisplay⟩ := hstring hp
    exact ⟨rfl, fun _ => ⟨text, rfl, hdisplay⟩⟩
  | default =>
    obtain ⟨text, rfl, -⟩ := hstring hp
    exact ⟨rfl, nofun⟩

/-- **What has a host is converted to what the host says.** -/
theorem exists_askHost_of_primitiveOf {host : NativeId}
    (hp : (m.primitiveOf e v hint (some host)).run (w.relock e Lock.take) = .ok (.ok p) w') :
    ∃ w₁, m.askHost e host (.toPrimitive hint) (w.entered e host [v]) = .ok (.ok p) w₁ := by
  obtain ⟨w₂, hpin, -⟩ := sharing_eq_ok.1 hp
  obtain ⟨w₁, hask, -⟩ := pinning_eq_ok.1 hpin
  exact ⟨w₁, hask⟩

/-- A primitive is written as it is, without anybody being asked. -/
theorem display_of_display? {text : String} (hp : p.display? = some text) (w : World κ) :
    m.display e p w = .ok text w := by
  unfold display displayAt
  rw [hp]
  rfl

/-- **The string form of a value is that of its primitive form**, or what any host looks like. -/
theorem textAt_of_toPrimitive (hp : (m.toPrimitive e v .string).run w = .ok (.ok p) w')
    (ht : m.Telling e (w.engine e).heap v tells Among)
    (htells : ∀ host, w.host? e v = some host → tells host = .ok p)
    (hlocked : w.host? e v = none → Among (w.relock e Lock.take)) :
    (w.engine e).heap.textAt tells displayLevels v = p.display?.getD "[object Host]" := by
  cases hv : v.isObject with
  | false =>
    obtain ⟨hsame, -⟩ := EStateM.Result.ok.inj ((toPrimitive_of_primitive m e _ hv w).symm.trans hp)
    obtain rfl := Except.ok.inj hsame
    cases v with
    | object h => cases hv
    | _ => exact Heap.textAt_of_display? rfl _ _ _
  | true =>
    obtain ⟨w₁, hform, -⟩ := toPrimitive_eq_ok hv hp
    cases hh : w.host? e v with
    | none =>
      rw [hh] at hform
      obtain ⟨text, rfl, hdisplay⟩ := (primitiveOf_none_eq_ok hform).2 rfl
      -- the conversion has been through here already, with the lock held
      obtain ⟨w₂, hagain, -⟩ := ht.displayAt displayLevels v (fun _ => id) (hlocked hh)
      exact (EStateM.Result.ok.inj (hagain.symm.trans hdisplay)).1
    | some host =>
      obtain ⟨h, expandos, rfl, hg⟩ := exists_get?_of_host? hh
      rw [displayLevels, Heap.textAt_object, hg]
      simp only [htells host hh, hostText]

end Machine

/-! ## The result -/

/-- **The primitive form of a value** without a host is a primitive. A host gives what it says,
whatever that is.

If the hosts that are met in the value say the same whenever they are asked, the primitive form
with a preference for strings has the string form of the value – unless the host said an object,
in which case there is no telling what that looks like, and the value itself looks like any
host. -/
theorem Machine.primitive_form (m : Machine κ) :
    (∀ (e : EngineId) (v p : Value) (hint : Hint) (w w' : World κ),
        (m.toPrimitive e v hint).run w = .ok (.ok p) w' →
        (w.host? e v = none → p.isObject = false)
          ∧ ∀ host, w.host? e v = some host →
            ∃ w₁, m.askHost e host (.toPrimitive hint) (w.entered e host [v]) = .ok (.ok p) w₁)
      ∧ ∀ (e : EngineId) (v p : Value) (w w' : World κ)
        (tells : NativeId → Except EngineError Value) (Among : World κ → Prop),
        (m.toPrimitive e v .string).run w = .ok (.ok p) w' →
        m.Telling e (w.engine e).heap v tells Among →
        (∀ host, w.host? e v = some host → tells host = .ok p) →
        (w.host? e v = none → Among (w.relock e Lock.take)) →
        ∀ w₁, Among w₁ → ∃ text w₂, m.display e v w₁ = .ok text w₂ ∧ Among w₂
          ∧ (p.isObject = false → m.display e p w₁ = .ok text w₁)
          ∧ (p.isObject = true → text = "[object Host]") := by
  refine ⟨fun e v p hint w w' hp => ⟨fun hh => ?_, fun host hh => ?_⟩,
    fun e v p w w' tells Among hp ht htells hlocked w₁ hw₁ => ?_⟩
  · cases hv : v.isObject with
    | false =>
      obtain ⟨hsame, -⟩ := EStateM.Result.ok.inj
        ((toPrimitive_of_primitive m e hint hv w).symm.trans hp)
      exact Except.ok.inj hsame ▸ hv
    | true =>
      obtain ⟨w₁, hform, -⟩ := toPrimitive_eq_ok hv hp
      rw [hh] at hform
      exact (primitiveOf_none_eq_ok hform).1
  · obtain ⟨h, expandos, rfl, -⟩ := exists_get?_of_host? hh
    obtain ⟨w₁, hform, -⟩ := toPrimitive_eq_ok rfl hp
    rw [hh] at hform
    exact exists_askHost_of_primitiveOf hform
  · have htext := textAt_of_toPrimitive hp ht htells hlocked
    obtain ⟨w₂, hdisplay, hw₂⟩ := ht.displayAt displayLevels v (fun _ => id) hw₁
    refine ⟨_, w₂, hdisplay, hw₂, fun hprimitive => ?_, fun hobject => ?_⟩
    · rw [htext]
      cases p with
      | object h => cases hprimitive
      | _ => exact display_of_display? rfl w₁
    · rw [htext]
      cases p with
      | object h => rfl
      | _ => cases hobject

/-- Hosts that say an object when they are asked for a primitive. -/
def Behaviour.evasive : Behaviour Unit where
  answer _ _
    | .host _ (.toPrimitive _) => .done (.ok (.object ⟨0, 0⟩))
    | _ => .panic .noAnswer
  finaliser _ := .done ()

/-- The world with an object and a wrapper of such a host. -/
def World.evaded : World Unit :=
  ((Behaviour.evasive.machine 2).run (do
    let _ ← Program.op (.createObject ⟨0⟩)
    let host ← Program.op (.spawn (.custom ()))
    Program.op (.createHost ⟨0⟩ host)) []).after {}

/-- **A primitive form that is an object**: it looks like one, and the value that it is the
primitive form of looks like a host, although the host says the same when it is asked again. -/
theorem Machine.primitive_form_evaded :
    ∃ w w₁ w₂ w₃, World.evaded.Reachable
      ∧ ((Behaviour.evasive.machine 2).toPrimitive ⟨0⟩ (.object ⟨1, 0⟩) .string).run World.evaded
        = .ok (.ok (.object ⟨0, 0⟩)) w
      ∧ (Behaviour.evasive.machine 2).hostForm ⟨0⟩ ⟨0⟩ w = .ok (.ok (.object ⟨0, 0⟩)) w₁
      ∧ (Behaviour.evasive.machine 2).display ⟨0⟩ (.object ⟨0, 0⟩) w = .ok "[object Object]" w₂
      ∧ (Behaviour.evasive.machine 2).display ⟨0⟩ (.object ⟨1, 0⟩) w = .ok "[object Host]" w₃ := by
  have htest : ((Behaviour.evasive.machine 2).toPrimitive ⟨0⟩ (.object ⟨1, 0⟩) .string).run.finishes
      World.evaded (fun r w =>
        decide (r.toOption = some (.object ⟨0, 0⟩))
        && ((Behaviour.evasive.machine 2).hostForm ⟨0⟩ ⟨0⟩).finishes w
          (fun r _ => r.toOption = some (.object ⟨0, 0⟩))
        && ((Behaviour.evasive.machine 2).display ⟨0⟩ (.object ⟨0, 0⟩)).finishes w
          (fun text _ => text = "[object Object]")
        && ((Behaviour.evasive.machine 2).display ⟨0⟩ (.object ⟨1, 0⟩)).finishes w
          (fun text _ => text = "[object Host]")) = true := by decide +kernel
  obtain ⟨r, w, hform, htests⟩ := exists_of_finishes htest
  simp only [Bool.and_eq_true] at htests
  obtain ⟨⟨⟨hr, hasked⟩, hobject⟩, hwrapper⟩ := htests
  obtain ⟨r', w₁, hasked, hr'⟩ := exists_of_finishes hasked
  obtain ⟨text, w₂, hobject, htext⟩ := exists_of_finishes hobject
  obtain ⟨text', w₃, hwrapper, htext'⟩ := exists_of_finishes hwrapper
  obtain rfl : r = .ok (.object ⟨0, 0⟩) := by cases r <;> simp_all [Except.toOption]
  obtain rfl : r' = .ok (.object ⟨0, 0⟩) := by cases r' <;> simp_all [Except.toOption]
  obtain rfl : text = "[object Object]" := of_decide_eq_true htext
  obtain rfl : text' = "[object Host]" := of_decide_eq_true htext'
  exact ⟨w, w₁, w₂, w₃, (Behaviour.evasive.reaches_run 2 _ [] .init).1, hform, hasked, hobject,
    hwrapper⟩

/-- A host that says a text is converted to that text, and so is its wrapper. -/
theorem Machine.primitive_form_greeted :
    ∃ p w text w' w'', ((Behaviour.greeting.machine 2).toPrimitive ⟨0⟩ (.object ⟨0, 0⟩)
          .string).run World.greeted = .ok (.ok p) w
      ∧ (Behaviour.greeting.machine 2).askHost ⟨0⟩ ⟨0⟩ (.toPrimitive .string)
          (World.greeted.entered ⟨0⟩ ⟨0⟩ [.object ⟨0, 0⟩]) = .ok (.ok p) w''
      ∧ (Behaviour.greeting.machine 2).display ⟨0⟩ (.object ⟨0, 0⟩) World.greeted = .ok text w'
      ∧ (Behaviour.greeting.machine 2).display ⟨0⟩ p World.greeted = .ok text World.greeted := by
  have htest : ((Behaviour.greeting.machine 2).toPrimitive ⟨0⟩ (.object ⟨0, 0⟩)
      .string).run.finishes World.greeted
        (fun r _ => r.toOption = some (.string "hello")) = true := by decide +kernel
  obtain ⟨r, w, hform, hr⟩ := exists_of_finishes htest
  obtain rfl : r = .ok (.string "hello") := by cases r <;> simp_all [Except.toOption]
  have hhost : World.greeted.host? ⟨0⟩ (.object ⟨0, 0⟩) = some ⟨0⟩ := by decide +kernel
  have harray : (World.greeted.engine ⟨0⟩).heap.get? ⟨1, 0⟩
      = some (.array #[some (.object ⟨0, 0⟩), some .null, some (.bool true)]) := by decide +kernel
  have ht := Behaviour.telling_greeted.narrow (u := .object ⟨0, 0⟩)
    fun h hs => .element harray (by simp) hs
  obtain ⟨hgives, hagree⟩ := primitive_form (Behaviour.greeting.machine 2)
  obtain ⟨w'', hask⟩ := (hgives ⟨0⟩ (.object ⟨0, 0⟩) _ _ _ _ hform).2 ⟨0⟩ hhost
  obtain ⟨text, w', hdisplay, -, hsame, -⟩ := hagree ⟨0⟩ (.object ⟨0, 0⟩) _ _ _ _ _ hform ht
    (fun _ _ => rfl) (fun hnone => absurd (hhost.symm.trans hnone) (Option.some_ne_none _)) _
    World.greets_greeted
  exact ⟨_, w, text, w', w'', hform, hask, hdisplay, hsame rfl⟩

end EmbeddedScript
