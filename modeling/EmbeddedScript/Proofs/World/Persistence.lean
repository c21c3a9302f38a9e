import EmbeddedScript.Proofs.World.Step

/-!
# Objects do not come back

A handle can be stale and then denote something again: its slot is used by another object
once the generation has come round. It never denotes **the same object** again. A birth
is given to one object only, and every birth given from here on is later than those given
so far; so an object that is there at two moments was there all the time between them
(`World.staysLive_of_identity?`).

That turns what holds of one step into something about two moments however far apart. A
handle that stays live denotes one object all the time (`World.identity?_of_staysLive`),
and as long as a host method is the object that it is, **so is its wrapper**
(`World.identity?_wrapper`).
-/

namespace EmbeddedScript

namespace Heap

variable {heap heap' : Heap} {h k t : Handle} {i : Identity} {collects : Prop}
  {roots : RootSet}

/-- Births are given one after another. -/
theorem Change.births_le (hc : Change collects roots heap heap') :
    heap.births ≤ heap'.births := by
  cases hc with
  | placed _ _ =>
    rw [births_place]
    exact Nat.le_succ _
  | stored _ => exact Nat.le_of_eq (births_put _ _ _).symm
  | collected _ stats => exact Nat.le_of_eq (births_collect _ _ _).symm
  | opened limit he => exact he ▸ Nat.zero_le _

/-- **What was born before a change was there before it**, under the same handle. -/
theorem Change.identity?_of_old (hc : Change collects roots heap heap') (hs : heap.Sound)
    (hi : heap'.identity? h = some i) (hold : i.birth < heap.births) :
    heap.identity? h = some i := by
  cases hc with
  | @placed o _ _ =>
    rw [identity?_place hs.wellFormed] at hi
    split at hi
    · -- the object that was placed is born with the change
      rw [← Option.some.inj hi] at hold
      exact absurd hold (Nat.lt_irrefl _)
    · exact hi
  | stored ho => rwa [identity?_put ho] at hi
  | collected _ stats =>
    rw [identity?_collect] at hi
    split at hi
    · exact hi
    · exact nomatch hi
  | opened limit he =>
    rw [identity?_of_limit] at hi
    exact nomatch hi

/-- **A live handle that stays live** denotes what it denoted: no change both frees a slot
and fills it. -/
theorem Change.identity?_of_isLive (hc : Change collects roots heap heap') (hs : heap.Sound)
    (hi : heap.identity? h = some i) (hl : heap'.isLive h = true) :
    heap'.identity? h = some i := by
  rcases hc.quiet_or_collected with hquiet | ⟨stats, rfl⟩
  · exact hquiet.identity?_of_some hs hi
  · obtain ⟨j, hj⟩ := isLive_iff_exists_identity?.1 hl
    rw [identity?_collect] at hj ⊢
    split at hj
    case isTrue hk => rw [if_pos hk, hi]
    case isFalse => exact nomatch hj

/-- **A host method takes its wrapper along**: whatever change it outlives, its wrapper
outlives, as the object that it is. -/
theorem Change.identity?_wrapper (hc : Change collects roots heap heap') (hs : heap.Sound)
    (hm : heap.IsMethodOf k t) (hk : heap'.isLive k = true) :
    heap'.identity? t = heap.identity? t := by
  obtain ⟨j, hj⟩ := isLive_iff_exists_identity?.1 (hs.isHost k t hm).isLive
  rcases hc.quiet_or_collected with hquiet | ⟨stats, rfl⟩
  · rw [hquiet.identity?_of_some hs hj, hj]
  · obtain ⟨i, hi⟩ := isLive_iff_exists_identity?.1 hk
    rw [identity?_collect] at hi
    split at hi
    case isTrue hsurvives =>
      rw [identity?_collect,
        if_pos (survives_of_edge hsurvives hm.mem_edgesAt (hs.isHost k t hm).isLive)]
    case isFalse => exact nomatch hi

end Heap

namespace World

variable {κ : Type} {w w' : World κ} {e : EngineId} {h k t : Handle} {i : Identity}

/-! ## Natives -/

/-- **Natives do not become others**, however many steps are taken. -/
theorem retains_of_reaches (hr : Reaches w w') : w.Retains w' := by
  induction hr with
  | refl => exact .of_natives rfl
  | tail _ hs ih => exact ih.trans hs.retains

/-! ## Births -/

/-- A step gives births one after another. -/
theorem Step.births_le (hs : Step w w') (e : EngineId) :
    (w.engine e).heap.births ≤ (w'.engine e).heap.births := by
  rcases hs.heap e with he | hc
  · exact Nat.le_of_eq (congrArg Heap.births he).symm
  · exact hc.births_le

/-- What was born before a step was there before it. -/
theorem Step.identity?_of_old (hs : Step w w') (hw : w.Sound)
    (hi : w'.identity? e h = some i) (hold : i.birth < (w.engine e).heap.births) :
    w.identity? e h = some i := by
  rcases hs.heap e with he | hc
  · rwa [identity?, he] at hi
  · exact hc.identity?_of_old (hw e) hi hold

theorem births_le_of_reaches (hr : Reaches w w') (e : EngineId) :
    (w.engine e).heap.births ≤ (w'.engine e).heap.births := by
  induction hr with
  | refl => exact Nat.le_refl _
  | tail _ hs ih => exact Nat.le_trans ih (hs.births_le e)

/-! ## Handles that stay live -/

/-- **The handle has stayed live** all the way from the earlier world to the later one. -/
def StaysLive (e : EngineId) (h : Handle) : World κ → World κ → Prop :=
  Relation.ReflTransGen fun w w' => Step w w' ∧ (w'.engine e).heap.isLive h = true

theorem reaches_of_staysLive (hr : StaysLive e h w w') : Reaches w w' :=
  Relation.ReflTransGen.mono (fun _ _ hs => hs.1) _ _ hr

/-- **A handle that stays live denotes one object all the time.** -/
theorem identity?_of_staysLive (hw : w.Sound) (hr : StaysLive e h w w')
    (hi : w.identity? e h = some i) : w'.identity? e h = some i := by
  induction hr with
  | refl => exact hi
  | @tail w₁ w₂ hr hs ih =>
    rcases hs.1.heap e with he | hc
    · rw [identity?, he, ← identity?, ih]
    · exact hc.identity?_of_isLive (hw.reaches (reaches_of_staysLive hr) e) ih hs.2

/-- An object that is there at two moments has stayed live between them. -/
theorem staysLive_of_identity? (hw : w.Sound) (hr : Reaches w w')
    (hi : w.identity? e h = some i) (hi' : w'.identity? e h = some i) : StaysLive e h w w' := by
  have hold := (hw e).birth_lt h i hi
  induction hr with
  | refl => exact .refl
  | tail hr hs ih =>
    have hmid := hs.identity?_of_old (hw.reaches hr) hi'
      (Nat.lt_of_lt_of_le hold (births_le_of_reaches hr e))
    exact (ih hmid).tail ⟨hs, Heap.isLive_iff_exists_identity?.2 ⟨i, hi'⟩⟩

/-! ## Wrappers of host methods -/

/-- **A host method that stays live keeps its wrapper** the object that it is. -/
theorem identity?_wrapper_of_staysLive (hw : w.Sound) (hr : StaysLive e k w w')
    (hm : (w.engine e).heap.IsMethodOf k t) : w'.identity? e t = w.identity? e t := by
  obtain ⟨b, name, hi⟩ := hm
  induction hr with
  | refl => rfl
  | @tail w₁ w₂ hr hs ih =>
    have hmid : (w₁.engine e).heap.IsMethodOf k t := ⟨b, name, identity?_of_staysLive hw hr hi⟩
    rcases hs.1.heap e with he | hc
    · rw [identity?, he, ← identity?, ih]
    · exact (hc.identity?_wrapper (hw.reaches (reaches_of_staysLive hr) e) hmid hs.2).trans ih

/-- **As long as a host method is the object that it is, so is its wrapper.** -/
theorem identity?_wrapper (hw : w.Sound) (hr : Reaches w w') {b : Nat} {name : String}
    (hi : w.identity? e k = some ⟨b, .hostMethod t name⟩)
    (hi' : w'.identity? e k = some ⟨b, .hostMethod t name⟩) :
    w'.identity? e t = w.identity? e t :=
  identity?_wrapper_of_staysLive hw (staysLive_of_identity? hw hr hi hi') ⟨b, name, hi⟩

end World

end EmbeddedScript
