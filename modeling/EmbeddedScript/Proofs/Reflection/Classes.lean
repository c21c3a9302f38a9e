import Mathlib.Logic.Function.Basic
import Std.Data.TreeMap.Lemmas
import EmbeddedScript.World

/-!
# One class for each bound object

A registry knows a bound object by its address alone, and addresses are used again. What
a class stands for is an object all the same: **no class is ever handed out for two
objects** (`Scene.one_class_per_object`), however objects are made and die at the same
address, and as long as the registry is not finalised **an object keeps its class**,
whatever is purged or entered for others.

The table behind a registry purges the entries of dead objects when it is about to grow,
and how soon that is the table decides. So a lookup of a scene may purge or not
(`Scene.ask`), one as well as the other at any time, and no law depends on which.

In a world no name is ever used again, so a native's name is an address that no other
native comes to have. The laws here are about more than that: a `Scene` is a registry
among objects whose addresses are free again when they die, and the lookup of a world is
the lookup of the scene in which every object lives at its own name, purging when the
registry is full (`World.classFor_eq_ask`).

Nothing is asked of the addresses that entries of dead objects still refer to. An
allocator keeps these reserved; the laws hold without that, because an entry is handed
out only while its own object is alive.
-/

namespace EmbeddedScript

/-! ## Scenes -/

/-- **A registry among the objects that it serves.** -/
@[ext] structure Scene where
  /-- The registry. -/
  registry : Registry
  /-- The address of each object that was ever made. -/
  address? : NativeId → Option Nat
  /-- The object is alive. -/
  alive : NativeId → Bool
  /-- How many classes were made so far, here and by other registries. -/
  made : Nat

/-- **What happens in a scene.** -/
inductive Incident where
  /-- An object came to life at an address. -/
  | created (object : NativeId) (address : Nat)
  /-- An object died. -/
  | died (object : NativeId)
  /-- The class of an object was looked up, and this is the answer. -/
  | asked (object : NativeId) (answer : ClassId)
  /-- The registry was finalised. -/
  | finalized
  /-- Another registry made a class. -/
  | elsewhere
deriving DecidableEq

namespace Scene

/-- A new registry with room for some classes, before any object is made. -/
def opened (capacity made : Nat) : Scene where
  registry := .withRoom capacity
  address? _ := none
  alive _ := false
  made := made

/-- **Look up the class** of the object at an address, entered when it has none yet, after
a purge or without one. -/
def ask (s : Scene) (purges : Bool) (o : NativeId) (address : Nat) : ClassId × Scene :=
  match s.registry.find? s.alive address with
  | some c => (c, s)
  | none =>
    (⟨s.made⟩, { s with
      registry := s.registry.enter purges s.alive address ⟨o, ⟨s.made⟩⟩
      made := s.made + 1 })

/-- **One thing happens.** An object may come to life at any address at which no object
lives. -/
inductive Step : Scene → Incident → Scene → Prop
  /-- An object that never was before comes to life. -/
  | created (s : Scene) (o : NativeId) (a : Nat) (new : s.address? o = none)
      (unused : ∀ o', s.alive o' = true → s.address? o' ≠ some a) :
    Step s (.created o a) { s with
      address? := Function.update s.address? o (some a)
      alive := Function.update s.alive o true }
  /-- A living object dies, for good. -/
  | died (s : Scene) (o : NativeId) (alive : s.alive o = true) :
    Step s (.died o) { s with alive := Function.update s.alive o false }
  /-- The class of a living object is looked up at its address; a purge may come first. -/
  | asked (s : Scene) (purges : Bool) (o : NativeId) (a : Nat) (alive : s.alive o = true)
      (address : s.address? o = some a) :
    Step s (.asked o (s.ask purges o a).1) (s.ask purges o a).2
  /-- The registry is finalised. -/
  | finalized (s : Scene) : Step s .finalized { s with registry := s.registry.finalize }
  /-- Another registry makes a class. -/
  | elsewhere (s : Scene) : Step s .elsewhere { s with made := s.made + 1 }

/-- **One thing happens after the other.** -/
inductive Runs : Scene → List Incident → Scene → Prop
  /-- Nothing happens. -/
  | nil (s : Scene) : Runs s [] s
  /-- One thing, and then the rest. -/
  | cons {s s' s'' : Scene} {e : Incident} {es : List Incident} (step : Step s e s')
      (rest : Runs s' es s'') : Runs s (e :: es) s''

variable {s s' s'' : Scene} {e : Incident} {es fs : List Incident} {o o' : NativeId}
  {c c' : ClassId} {a : Nat}

/-- A run of two parts passes through a scene between them. -/
theorem runs_append : Runs s (es ++ fs) s'' ↔ ∃ s', Runs s es s' ∧ Runs s' fs s'' := by
  constructor
  · intro run
    induction es generalizing s with
    | nil => exact ⟨s, .nil s, run⟩
    | cons e es ih =>
      cases run with
      | cons step rest =>
        obtain ⟨s', first, last⟩ := ih rest
        exact ⟨s', .cons step first, last⟩
  · rintro ⟨s', first, last⟩
    induction first with
    | nil => exact last
    | cons step _ ih => exact .cons step (ih last)

end Scene

/-- **The registry of a world in its surroundings**: the world's natives, each at its own
name. -/
def World.scene {κ : Type} (w : World κ) (r : RegistryId) : Scene where
  registry := w.registry r
  address? o := if o.index < w.natives.size then some o.index else none
  alive := w.isAlive
  made := w.classes.size

/-- **The world's lookup is the scene's**, with a purge when the registry is full. -/
theorem World.classFor_eq_ask {κ : Type} (w : World κ) (r : RegistryId) (o : NativeId) :
    ((w.classFor r o).1, (w.classFor r o).2.scene r)
      = (w.scene r).ask (w.registry r).isFull o o.index := by
  have hfind : (w.scene r).registry.find? (w.scene r).alive o.index
      = (w.registry r).find? w.isAlive o.index := rfl
  unfold World.classFor Scene.ask
  rw [hfind]
  cases (w.registry r).find? w.isAlive o.index with
  | some c => rfl
  | none =>
    have hentered : (w.addClass.2.modifyRegistry r fun s =>
          s.enter s.isFull w.addClass.2.isAlive o.index ⟨o, w.addClass.1⟩).registry r
        = (w.registry r).enter (w.registry r).isFull w.isAlive o.index
            ⟨o, ⟨w.classes.size⟩⟩ := by
      unfold World.registry World.modifyRegistry
      rw [World.getD_alter, if_pos rfl]
      rfl
    show (_, World.scene _ r) = (_, _)
    unfold World.scene
    rw [hentered]
    refine Prod.ext rfl (Scene.ext rfl rfl rfl ?_)
    exact Array.size_push _

namespace Registry

variable {r : Registry} {purges : Bool} {alive : NativeId → Bool} {a b : Nat}
  {entry : RegistryEntry}

/-- What is found is the class of an entry whose object is alive. -/
theorem find?_eq_some {c : ClassId} :
    r.find? alive a = some c
      ↔ ∃ entry, r.entries[a]? = some entry ∧ alive entry.object = true ∧ entry.cls = c := by
  unfold find?
  simp only [Option.map_eq_some_iff, Option.filter_eq_some_iff, and_assoc]

/-- **A purge takes no entry of a living object**, and adds none. -/
theorem getElem?_kept (h : (r.kept purges alive)[a]? = some entry) :
    r.entries[a]? = some entry := by
  unfold kept at h
  split at h
  · rw [Std.TreeMap.getElem?_filter'] at h
    exact (Option.filter_eq_some_iff.1 h).1
  · exact h

theorem getElem?_kept_of_alive (halive : alive entry.object = true)
    (h : r.entries[a]? = some entry) : (r.kept purges alive)[a]? = some entry := by
  unfold kept
  split
  · rw [Std.TreeMap.getElem?_filter', h]
    exact Option.filter_eq_some_iff.2 ⟨rfl, halive⟩
  · exact h

/-- Entering stores the new entry at its address. -/
theorem getElem?_enter_self : (r.enter purges alive a entry).entries[a]? = some entry := by
  unfold enter
  simp

/-- Entering leaves of the other addresses what a purge leaves. -/
theorem getElem?_enter_of_ne (h : a ≠ b) :
    (r.enter purges alive a entry).entries[b]? = (r.kept purges alive)[b]? := by
  unfold enter
  rw [Std.TreeMap.getElem?_insert, if_neg]
  simpa using h

/-- A registry that is new or finalised remembers nothing. -/
theorem getElem?_empty : (∅ : Std.TreeMap Nat RegistryEntry)[a]? ≠ some entry := by
  rw [Std.TreeMap.getElem?_emptyc]
  simp

end Registry

namespace Scene

variable {s s' s'' : Scene} {e : Incident} {es fs : List Incident} {o o' : NativeId}
  {c c' : ClassId} {a : Nat}

/-! ## What was asked, and what the registry remembers -/

/-- **The scene agrees with its past.** -/
structure Consistent (past : List Incident) (s : Scene) : Prop where
  /-- An object that lives has an address. -/
  housed : ∀ o, s.alive o = true → ∃ a, s.address? o = some a
  /-- Objects that live at one address are one. -/
  alone : ∀ o o' a, s.alive o = true → s.alive o' = true →
    s.address? o = some a → s.address? o' = some a → o = o'
  /-- An entry was made when its object was asked. -/
  entered : ∀ (a : Nat) (entry : RegistryEntry), s.registry.entries[a]? = some entry →
    .asked entry.object entry.cls ∈ past
  /-- An entry is at the address of its object. -/
  placed : ∀ (a : Nat) (entry : RegistryEntry), s.registry.entries[a]? = some entry →
    s.address? entry.object = some a
  /-- A class that was handed out was made. -/
  minted : ∀ o c, .asked o c ∈ past → c.index < s.made
  /-- **A class was handed out for one object.** -/
  single : ∀ o o' c, .asked o c ∈ past → .asked o' c ∈ past → o = o'

/-- What is found for a living object is its own entry. -/
theorem Consistent.entry_of_find? {past : List Incident} (hs : s.Consistent past)
    (halive : s.alive o = true) (haddress : s.address? o = some a)
    (hfind : s.registry.find? s.alive a = some c) :
    s.registry.entries[a]? = some ⟨o, c⟩ := by
  obtain ⟨⟨o', c'⟩, hentry, halive', rfl⟩ := Registry.find?_eq_some.1 hfind
  rw [hs.alone o o' a halive halive' haddress (hs.placed a _ hentry)]
  exact hentry

/-- A new scene has no past. -/
theorem consistent_opened (capacity made : Nat) : (opened capacity made).Consistent [] where
  housed _ halive := by cases halive
  alone _ _ _ halive := by cases halive
  entered a entry hentry := absurd hentry Registry.getElem?_empty
  placed a entry hentry := absurd hentry Registry.getElem?_empty
  minted _ _ hmem := by cases hmem
  single _ _ _ hmem := by cases hmem

/-- A lookup changes nothing about the objects. -/
@[simp] theorem address?_ask (s : Scene) (purges : Bool) (o : NativeId) (a : Nat) :
    (s.ask purges o a).2.address? = s.address? := by
  unfold ask
  split <;> rfl

@[simp] theorem alive_ask (s : Scene) (purges : Bool) (o : NativeId) (a : Nat) :
    (s.ask purges o a).2.alive = s.alive := by
  unfold ask
  split <;> rfl

/-- **What a lookup does.** Either the object has an entry, and nothing changes; or what
is at its address is no entry of a living object, and a new class is entered there. -/
theorem ask_cases (s : Scene) (purges : Bool) (o : NativeId) (a : Nat) :
    (s.registry.find? s.alive a = some (s.ask purges o a).1 ∧ (s.ask purges o a).2 = s)
    ∨ (s.registry.find? s.alive a = none
      ∧ s.ask purges o a = (⟨s.made⟩, { s with
          registry := s.registry.enter purges s.alive a ⟨o, ⟨s.made⟩⟩
          made := s.made + 1 })) := by
  unfold ask
  cases s.registry.find? s.alive a with
  | some c => exact .inl ⟨rfl, rfl⟩
  | none => exact .inr ⟨rfl, rfl⟩

/-- What the registry remembers after a new class was entered is the new entry, or was
remembered before and is at another address. -/
theorem entry_of_enter {r : Registry} {purges : Bool} {alive : NativeId → Bool}
    {entry new : RegistryEntry} {b : Nat}
    (h : (r.enter purges alive a new).entries[b]? = some entry) :
    (a = b ∧ entry = new) ∨ (a ≠ b ∧ r.entries[b]? = some entry) := by
  by_cases hab : a = b
  · subst hab
    rw [Registry.getElem?_enter_self] at h
    exact .inl ⟨rfl, (Option.some.inj h).symm⟩
  · rw [Registry.getElem?_enter_of_ne hab] at h
    exact .inr ⟨hab, Registry.getElem?_kept h⟩

/-! ## One step keeps the agreement -/

section Step

variable {past : List Incident}

/-- What the past says about classes, when the latest incident is no lookup. -/
private theorem asked_of_append (hmem : Incident.asked o c ∈ past ++ [e])
    (he : ∀ o c, e ≠ .asked o c) : .asked o c ∈ past := by
  rcases List.mem_append.1 hmem with h | h
  · exact h
  · exact absurd (List.mem_singleton.1 h).symm (he o c)

/-- **An object comes to life.** No other object lives at its address, and it was never
asked. -/
theorem Consistent.created (hs : s.Consistent past) (new : s.address? o = none)
    (unused : ∀ o', s.alive o' = true → s.address? o' ≠ some a) :
    Consistent (past ++ [.created o a]) { s with
      address? := Function.update s.address? o (some a)
      alive := Function.update s.alive o true } where
  housed o' halive := by
    by_cases ho : o' = o
    · exact ⟨a, by simp [ho]⟩
    · simpa [ho] using hs.housed o' (by simpa [ho] using halive)
  alone o₁ o₂ b halive₁ halive₂ hat₁ hat₂ := by
    by_cases h₁ : o₁ = o <;> by_cases h₂ : o₂ = o
    · rw [h₁, h₂]
    · simp only [h₁, h₂, Function.update_self, Function.update_of_ne, ne_eq,
        not_false_eq_true, Option.some.injEq] at halive₂ hat₁ hat₂
      exact absurd hat₂ (hat₁ ▸ unused o₂ halive₂)
    · simp only [h₁, h₂, Function.update_self, Function.update_of_ne, ne_eq,
        not_false_eq_true, Option.some.injEq] at halive₁ hat₁ hat₂
      exact absurd hat₁ (hat₂ ▸ unused o₁ halive₁)
    · simp only [h₁, h₂, Function.update_of_ne, ne_eq, not_false_eq_true] at *
      exact hs.alone o₁ o₂ b halive₁ halive₂ hat₁ hat₂
  entered b entry hentry := List.mem_append_left _ (hs.entered b entry hentry)
  placed b entry hentry := by
    have hat := hs.placed b entry hentry
    have hne : entry.object ≠ o := by
      rintro rfl
      rw [new] at hat
      cases hat
    simpa [hne] using hat
  minted o' c hmem := hs.minted o' c (asked_of_append hmem (by simp))
  single o₁ o₂ c h₁ h₂ :=
    hs.single o₁ o₂ c (asked_of_append h₁ (by simp)) (asked_of_append h₂ (by simp))

/-- An object dies. -/
theorem Consistent.died (hs : s.Consistent past) :
    Consistent (past ++ [.died o]) { s with alive := Function.update s.alive o false } where
  housed o' halive := by
    by_cases ho : o' = o
    · simp [ho] at halive
    · exact hs.housed o' (by simpa [ho] using halive)
  alone o₁ o₂ b halive₁ halive₂ hat₁ hat₂ := by
    have hlives : ∀ o', Function.update s.alive o false o' = true → s.alive o' = true := by
      intro o' halive
      by_cases ho : o' = o
      · simp [ho] at halive
      · simpa [ho] using halive
    exact hs.alone o₁ o₂ b (hlives o₁ halive₁) (hlives o₂ halive₂) hat₁ hat₂
  entered b entry hentry := List.mem_append_left _ (hs.entered b entry hentry)
  placed := hs.placed
  minted o' c hmem := hs.minted o' c (asked_of_append hmem (by simp))
  single o₁ o₂ c h₁ h₂ :=
    hs.single o₁ o₂ c (asked_of_append h₁ (by simp)) (asked_of_append h₂ (by simp))

/-- The registry is finalised. -/
theorem Consistent.finalized (hs : s.Consistent past) :
    Consistent (past ++ [.finalized]) { s with registry := s.registry.finalize } where
  housed := hs.housed
  alone := hs.alone
  entered b entry hentry := absurd hentry Registry.getElem?_empty
  placed b entry hentry := absurd hentry Registry.getElem?_empty
  minted o' c hmem := hs.minted o' c (asked_of_append hmem (by simp))
  single o₁ o₂ c h₁ h₂ :=
    hs.single o₁ o₂ c (asked_of_append h₁ (by simp)) (asked_of_append h₂ (by simp))

/-- Another registry makes a class. -/
theorem Consistent.elsewhere (hs : s.Consistent past) :
    Consistent (past ++ [.elsewhere]) { s with made := s.made + 1 } where
  housed := hs.housed
  alone := hs.alone
  entered b entry hentry := List.mem_append_left _ (hs.entered b entry hentry)
  placed := hs.placed
  minted o' c hmem := Nat.lt_succ_of_lt (hs.minted o' c (asked_of_append hmem (by simp)))
  single o₁ o₂ c h₁ h₂ :=
    hs.single o₁ o₂ c (asked_of_append h₁ (by simp)) (asked_of_append h₂ (by simp))

/-- A lookup that finds the object's entry says what was said before. -/
theorem Consistent.asked_again (hs : s.Consistent past) (hagain : .asked o c ∈ past) :
    s.Consistent (past ++ [.asked o c]) := by
  have hback : ∀ o' c', .asked o' c' ∈ past ++ [.asked o c] → .asked o' c' ∈ past := by
    intro o' c' hmem
    rcases List.mem_append.1 hmem with h | h
    · exact h
    · exact (List.mem_singleton.1 h).symm ▸ hagain
  exact { hs with
    entered := fun b entry hentry => List.mem_append_left _ (hs.entered b entry hentry)
    minted := fun o' c' hmem => hs.minted o' c' (hback o' c' hmem)
    single := fun o₁ o₂ c' h₁ h₂ => hs.single o₁ o₂ c' (hback o₁ c' h₁) (hback o₂ c' h₂) }

/-- **A lookup that enters a new class** hands out one that nobody was given. -/
theorem Consistent.asked_first (hs : s.Consistent past) (purges : Bool)
    (haddress : s.address? o = some a) :
    Consistent (past ++ [.asked o ⟨s.made⟩]) { s with
      registry := s.registry.enter purges s.alive a ⟨o, ⟨s.made⟩⟩
      made := s.made + 1 } where
  housed := hs.housed
  alone := hs.alone
  entered b entry hentry := by
    rcases entry_of_enter hentry with ⟨-, rfl⟩ | ⟨-, hold⟩
    · exact List.mem_append_right _ (List.mem_singleton.2 rfl)
    · exact List.mem_append_left _ (hs.entered b entry hold)
  placed b entry hentry := by
    rcases entry_of_enter hentry with ⟨rfl, rfl⟩ | ⟨-, hold⟩
    · exact haddress
    · exact hs.placed b entry hold
  minted o' c hmem := by
    rcases List.mem_append.1 hmem with h | h
    · exact Nat.lt_succ_of_lt (hs.minted o' c h)
    · cases List.mem_singleton.1 h
      exact Nat.lt_succ_self _
  single o₁ o₂ c h₁ h₂ := by
    -- The new class is not among those of the past, whose numbers are lower.
    have hnew : ∀ o', .asked o' ⟨s.made⟩ ∉ past := fun o' h =>
      Nat.lt_irrefl _ (hs.minted o' _ h)
    rcases List.mem_append.1 h₁ with h₁ | h₁ <;> rcases List.mem_append.1 h₂ with h₂ | h₂
    · exact hs.single o₁ o₂ c h₁ h₂
    · cases List.mem_singleton.1 h₂
      exact absurd h₁ (hnew o₁)
    · cases List.mem_singleton.1 h₁
      exact absurd h₂ (hnew o₂)
    · cases List.mem_singleton.1 h₁
      cases List.mem_singleton.1 h₂
      rfl

/-- **Whatever happens, the scene agrees with its past.** -/
theorem Consistent.step (hs : s.Consistent past) (step : Step s e s') :
    s'.Consistent (past ++ [e]) := by
  cases step with
  | created o a new unused => exact hs.created new unused
  | died o alive => exact hs.died
  | asked purges o a alive address =>
    rcases s.ask_cases purges o a with ⟨hfind, hsame⟩ | ⟨-, hask⟩
    · rw [hsame]
      exact hs.asked_again (hs.entered a _ (hs.entry_of_find? alive address hfind))
    · rw [hask]
      exact hs.asked_first purges address
  | finalized => exact hs.finalized
  | elsewhere => exact hs.elsewhere

/-- **Every run keeps the agreement.** -/
theorem Consistent.runs (hs : s.Consistent past) (run : Runs s es s') :
    s'.Consistent (past ++ es) := by
  induction run generalizing past with
  | nil => rw [List.append_nil]; exact hs
  | cons step _ ih =>
    have hs' := ih (hs.step step)
    rwa [List.append_assoc] at hs'

end Step

/-! ## An object keeps its class -/

/-- **While it lives, the object has this class**: it has its entry, at its address. -/
def Keeps (s : Scene) (o : NativeId) (c : ClassId) : Prop :=
  ∃ a, s.address? o = some a ∧ (s.alive o = true → s.registry.entries[a]? = some ⟨o, c⟩)

/-- Once it was asked, an object has its class. -/
theorem keeps_of_asked {past : List Incident} (hs : s.Consistent past)
    (step : Step s (.asked o c) s') : s'.Keeps o c := by
  cases step with
  | asked purges o a alive address =>
    rcases s.ask_cases purges o a with ⟨hfind, hsame⟩ | ⟨-, hask⟩
    · rw [hsame]
      exact ⟨a, address, fun _ => hs.entry_of_find? alive address hfind⟩
    · rw [hask]
      exact ⟨a, address, fun _ => Registry.getElem?_enter_self⟩

/-- **A lookup for one object leaves every living object its class.** The entry survives
the purge because its object is alive, and where it is found nothing else is entered. -/
theorem Keeps.ask (h : s.Keeps o c) (purges : Bool) (o' : NativeId) (a : Nat) :
    (s.ask purges o' a).2.Keeps o c := by
  rcases s.ask_cases purges o' a with ⟨-, hsame⟩ | ⟨hmiss, hask⟩
  · rw [hsame]
    exact h
  · rw [hask]
    obtain ⟨b, hb, hentry⟩ := h
    refine ⟨b, hb, fun alive => ?_⟩
    have hab : a ≠ b := by
      rintro rfl
      have hfound : s.registry.find? s.alive a = some c :=
        Registry.find?_eq_some.2 ⟨⟨o, c⟩, hentry alive, alive, rfl⟩
      rw [hmiss] at hfound
      cases hfound
    show (s.registry.enter purges s.alive a ⟨o', ⟨s.made⟩⟩).entries[b]? = some ⟨o, c⟩
    rw [Registry.getElem?_enter_of_ne hab]
    exact Registry.getElem?_kept_of_alive alive (hentry alive)

/-- **Only a finalisation takes an object's class away.** -/
theorem Keeps.step (h : s.Keeps o c) (step : Step s e s') (he : e ≠ .finalized) :
    s'.Keeps o c := by
  cases step with
  | created o' a new unused =>
    obtain ⟨b, hb, hentry⟩ := h
    have hne : o ≠ o' := by
      rintro rfl
      rw [new] at hb
      cases hb
    exact ⟨b, by simpa [hne] using hb, fun alive => hentry (by simpa [hne] using alive)⟩
  | died o' alive' =>
    obtain ⟨b, hb, hentry⟩ := h
    refine ⟨b, hb, fun alive => hentry ?_⟩
    by_cases ho : o = o'
    · simp [ho] at alive
    · simpa [ho] using alive
  | asked purges o' a alive' address' => exact h.ask purges o' a
  | finalized => exact absurd rfl he
  | elsewhere => exact h

theorem Keeps.runs (h : s.Keeps o c) (run : Runs s es s') (hes : .finalized ∉ es) :
    s'.Keeps o c := by
  induction run with
  | nil => exact h
  | cons step _ ih =>
    rw [List.mem_cons, not_or] at hes
    exact ih (h.step step (Ne.symm hes.1)) hes.2

/-- What an object is told is the class that it has. -/
theorem Keeps.eq_of_asked (h : s.Keeps o c) (step : Step s (.asked o c') s') : c = c' := by
  obtain ⟨b, hb, hentry⟩ := h
  generalize hanswer : Incident.asked o c' = e at step
  cases step with
  | asked purges o a alive address =>
    cases hanswer
    have hab : b = a := Option.some.inj (hb.symm.trans address)
    have hfound : s.registry.find? s.alive a = some c :=
      Registry.find?_eq_some.2 ⟨⟨o, c⟩, hab ▸ hentry alive, alive, rfl⟩
    unfold Scene.ask
    rw [hfound]
  | _ => cases hanswer

/-! ## A finalised registry starts afresh -/

/-- **The registry remembers no class from before**: nothing below a number. -/
def Afresh (s : Scene) (n : Nat) : Prop :=
  n ≤ s.made ∧ ∀ (a : Nat) (entry : RegistryEntry),
    s.registry.entries[a]? = some entry → n ≤ entry.cls.index

/-- What is handed out from then on is none of the classes from before. -/
theorem Afresh.le_of_asked {n : Nat} (h : s.Afresh n) (step : Step s (.asked o c) s') :
    n ≤ c.index := by
  cases step with
  | asked purges o a alive address =>
    rcases s.ask_cases purges o a with ⟨hfind, -⟩ | ⟨-, hask⟩
    · obtain ⟨entry, hentry, -, hcls⟩ := Registry.find?_eq_some.1 hfind
      exact hcls ▸ h.2 a entry hentry
    · rw [hask]
      exact h.1

theorem Afresh.step {n : Nat} (h : s.Afresh n) (step : Step s e s') : s'.Afresh n := by
  cases step with
  | created => exact h
  | died => exact h
  | asked purges o a alive address =>
    rcases s.ask_cases purges o a with ⟨-, hsame⟩ | ⟨-, hask⟩
    · rw [hsame]
      exact h
    · rw [hask]
      refine ⟨Nat.le_succ_of_le h.1, fun b entry hentry => ?_⟩
      rcases entry_of_enter hentry with ⟨-, rfl⟩ | ⟨-, hold⟩
      · exact h.1
      · exact h.2 b entry hold
  | finalized =>
    exact ⟨h.1, fun b entry hentry => absurd hentry Registry.getElem?_empty⟩
  | elsewhere => exact ⟨Nat.le_succ_of_le h.1, h.2⟩

theorem Afresh.runs {n : Nat} (h : s.Afresh n) (run : Runs s es s')
    (hmem : .asked o c ∈ es) : n ≤ c.index := by
  induction run with
  | nil => cases hmem
  | cons step _ ih =>
    rcases List.mem_cons.1 hmem with rfl | hrest
    · exact h.le_of_asked step
    · exact ih (h.step step) hrest

/-! ## The law -/

/-- A run passes an incident from a scene that agrees with what happened before. -/
theorem exists_step_of_runs {past : List Incident} (hs : s.Consistent past)
    (run : Runs s (es ++ e :: fs) s'') :
    ∃ m m', m.Consistent (past ++ es) ∧ Step m e m' ∧ Runs m' fs s'' := by
  obtain ⟨m, first, last⟩ := runs_append.1 run
  cases last with
  | cons step rest =>
    exact ⟨m, _, hs.runs first, step, rest⟩

/-- **One class for each object.** Whatever the registry's capacity and whenever it is
purged, in every run of objects that come to life and die, of lookups and of finalisations:

* a living object is always given a class;
* it is given the same class as long as the registry is not finalised between;
* what was given for one object is given for no other, dead or alive, even one at the
  same address;
* what is given after a finalisation is none of the classes given before it. -/
theorem one_class_per_object {capacity made : Nat} (run : Runs (opened capacity made) es s) :
    (∀ o, s.alive o = true → ∃ c s', Step s (.asked o c) s')
    ∧ (∀ before mid after o c c',
        es = before ++ .asked o c :: (mid ++ .asked o c' :: after) →
        .finalized ∉ mid → c = c')
    ∧ (∀ o o' c, .asked o c ∈ es → .asked o' c ∈ es → o = o')
    ∧ (∀ before after o o' c c', es = before ++ .finalized :: after →
        .asked o c ∈ before → .asked o' c' ∈ after → c ≠ c') := by
  have hnew := consistent_opened capacity made
  have hs : s.Consistent es := hnew.runs run
  refine ⟨fun o alive => ?_, fun before mid after o c c' hes hmid => ?_, hs.single,
    fun before after o o' c c' hes hbefore hafter => ?_⟩
  · obtain ⟨a, address⟩ := hs.housed o alive
    exact ⟨_, _, .asked s false o a alive address⟩
  · rw [hes] at run
    obtain ⟨m, m₁, hm, first, rest⟩ := exists_step_of_runs hnew run
    obtain ⟨m₂, between, last⟩ := runs_append.1 rest
    have hkeeps := (keeps_of_asked hm first).runs between hmid
    cases last with
    | cons again _ => exact hkeeps.eq_of_asked again
  · rw [hes] at run
    obtain ⟨m, m₁, hm, fin, rest⟩ := exists_step_of_runs hnew run
    have hfresh : m₁.Afresh m.made := by
      cases fin with
      | finalized =>
        exact ⟨Nat.le_refl _, fun b entry hentry => absurd hentry Registry.getElem?_empty⟩
    have hold : c.index < m.made := hm.minted o c hbefore
    have hyoung : m.made ≤ c'.index := hfresh.runs rest hafter
    rintro rfl
    omega

/-- **An address used again.** The first object dies, the registry lets go of it, and the
object that comes to its address is given a class of its own, twice the same. -/
theorem one_class_per_object_reused :
    ∃ s, Runs (opened 0 0) [.created ⟨0⟩ 1, .asked ⟨0⟩ ⟨0⟩, .died ⟨0⟩, .finalized,
          .created ⟨1⟩ 1, .asked ⟨1⟩ ⟨1⟩, .asked ⟨1⟩ ⟨1⟩] s
      ∧ s.address? ⟨0⟩ = some 1 ∧ s.address? ⟨1⟩ = some 1
      ∧ ∃ c s', Step s (.asked ⟨1⟩ c) s' := by
  have hrun : ∃ s, Runs (opened 0 0) [.created ⟨0⟩ 1, .asked ⟨0⟩ ⟨0⟩, .died ⟨0⟩, .finalized,
        .created ⟨1⟩ 1, .asked ⟨1⟩ ⟨1⟩, .asked ⟨1⟩ ⟨1⟩] s
      ∧ s.address? ⟨0⟩ = some 1 ∧ s.address? ⟨1⟩ = some 1 ∧ s.alive ⟨1⟩ = true :=
    ⟨_, .cons (.created _ ⟨0⟩ 1 rfl (by simp [opened])) <|
      .cons (.asked _ true ⟨0⟩ 1 rfl rfl) <|
      .cons (.died _ ⟨0⟩ rfl) <|
      .cons (.finalized _) <|
      .cons (.created _ ⟨1⟩ 1 rfl (by simp [opened])) <|
      .cons (.asked _ true ⟨1⟩ 1 rfl rfl) <|
      .cons (.asked _ false ⟨1⟩ 1 rfl rfl) <|
      .nil _, rfl, rfl, rfl⟩
  obtain ⟨s, run, hat, hat', halive⟩ := hrun
  exact ⟨s, run, hat, hat', (one_class_per_object run).1 ⟨1⟩ halive⟩

end Scene

end EmbeddedScript
