import EmbeddedScript.Proofs.Reflection.Classes
import EmbeddedScript.Proofs.World.Natives

/-!
# The classes of adapters

An adapter looks its class up once and keeps it. The registry that it was looked up in
may be emptied afterwards, and its entries purged or replaced: the adapter does not go
back to it. So **an adapter with a class is the same adapter for good**
(`World.Adheres`), while a lookup by an adapter without one gives a class that there is,
because registries hand out no other (`World.RegistriesKnown`).
-/

namespace EmbeddedScript

variable {κ : Type}

namespace World

variable {w w' w'' : World κ} {id : NativeId} {a : Adapter}

/-- **Registries hand out classes that there are.** -/
def RegistriesKnown (w : World κ) : Prop :=
  ∀ (r : RegistryId) (address : Nat) (entry : RegistryEntry),
    (w.registry r).entries[address]? = some entry → entry.cls.index < w.classes.size

/-- The class is there, if one was looked up. -/
def IsKnown (w : World κ) (cls : Option ClassId) : Prop :=
  ∀ c, cls = some c → c.index < w.classes.size

/-- **Adapters adhere to their classes.** -/
structure Adheres (w w' : World κ) : Prop where
  /-- Registries go on to hand out classes that there are. -/
  known : w.RegistriesKnown → w'.RegistriesKnown
  /-- An adapter with a class keeps it, and one without may come to have a class that is
  there. -/
  adapter : ∀ id a, w.native? id = some (.adapter a) →
    ∃ cls, w'.native? id = some (.adapter { a with cls := cls })
      ∧ (a.cls = none ∨ cls = a.cls)
      ∧ (w.RegistriesKnown → w.IsKnown a.cls → w'.IsKnown cls)

/-- A class that is there stays there as long as the table does not shrink. -/
theorem IsKnown.mono {cls : Option ClassId} (h : w.IsKnown cls)
    (hc : w.classes.size ≤ w'.classes.size) : w'.IsKnown cls :=
  fun c hcls => Nat.lt_of_lt_of_le (h c hcls) hc

theorem RegistriesKnown.of_registries (h : w.RegistriesKnown)
    (hr : w'.registries = w.registries) (hc : w.classes.size ≤ w'.classes.size) :
    w'.RegistriesKnown := by
  intro r address entry hentry
  rw [registry, hr, ← registry] at hentry
  exact Nat.lt_of_lt_of_le (h r address entry hentry) hc

theorem Adheres.trans (h : w.Adheres w') (h' : w'.Adheres w'') : w.Adheres w'' := by
  refine ⟨fun hw => h'.known (h.known hw), fun id a hn => ?_⟩
  obtain ⟨cls, hn', hkept, hknown⟩ := h.adapter id a hn
  obtain ⟨cls', hn'', hkept', hknown'⟩ := h'.adapter id _ hn'
  refine ⟨cls', hn'', ?_, fun hw ha => hknown' (h.known hw) (hknown hw ha)⟩
  rcases hkept with hnone | rfl
  · exact .inl hnone
  · exact hkept'

/-- Adapters that are left alone adhere, if registries hand out classes as before. -/
theorem Adheres.of_adapters (hk : w.RegistriesKnown → w'.RegistriesKnown)
    (hn : ∀ id a, w.native? id = some (.adapter a) → w'.native? id = some (.adapter a))
    (hc : w.classes.size ≤ w'.classes.size) : w.Adheres w' :=
  ⟨hk, fun id a ha => ⟨a.cls, hn id a ha, .inr rfl, fun _ hcls => hcls.mono hc⟩⟩

/-- So they do where natives and registries are the same and no class goes. -/
theorem Adheres.of_tables (hn : w'.natives = w.natives) (hr : w'.registries = w.registries)
    (hc : w.classes.size ≤ w'.classes.size) : w.Adheres w' := by
  refine .of_adapters (fun hw => hw.of_registries hr hc) (fun id a ha => ?_) hc
  rwa [native?, hn, ← native?]

/-! ## Operations on natives -/

theorem adheres_modifyOwners (w : World κ) (id : NativeId) (f : Nat → Nat) :
    w.Adheres (w.modifyOwners id f) :=
  .of_adapters (fun hw => hw.of_registries rfl (Nat.le_refl _))
    (fun i a ha => by rwa [native?_modifyOwners]) (Nat.le_refl _)

theorem adheres_addNative (w : World κ) (n : Native κ) : w.Adheres (w.addNative n).2 := by
  refine .of_adapters (fun hw => hw.of_registries rfl (Nat.le_refl _)) (fun i a ha => ?_)
    (Nat.le_refl _)
  rw [native?, natives_addNative, if_neg, ← native?, ha]
  rintro rfl
  rw [native?_addNative_fst] at ha
  cases ha

/-- The state of an embedder's own native is no matter of adapters. -/
theorem adheres_setNative_custom {s : κ} (hs : w.native? id = some (.custom s)) (n : Native κ) :
    w.Adheres (w.setNative id n) := by
  refine .of_adapters (fun hw => hw.of_registries rfl (Nat.le_refl _)) (fun i a ha => ?_)
    (Nat.le_refl _)
  rw [native?, natives_setNative, if_neg, ← native?, ha]
  rintro rfl
  rw [hs] at ha
  cases ha

/-! ## Operations on registries -/

@[simp] theorem registries_dropRoot (w : World κ) (r : Root) :
    (w.dropRoot r).registries = w.registries := by
  unfold World.dropRoot
  split <;> rfl

/-- A registry is emptied. -/
theorem adheres_finalize (w : World κ) (r : RegistryId) :
    w.Adheres (w.modifyRegistry r Registry.finalize) := by
  refine .of_adapters (fun hw r' address entry hentry => ?_) (fun _ _ ha => ha) (Nat.le_refl _)
  unfold registry modifyRegistry at hentry
  rw [getD_alter] at hentry
  split at hentry
  · exact absurd hentry Registry.getElem?_empty
  · exact hw r' address entry hentry

/-- A registry is made. -/
theorem adheres_addRegistry (w : World κ) (room : Nat) : w.Adheres (w.addRegistry room).2 := by
  refine .of_adapters (fun hw r' address entry hentry => ?_) (fun _ _ ha => ha) (Nat.le_refl _)
  have hold : (w.registries ++ [Registry.withRoom room]).getD r'.index default
      = w.registry r' ∨ (w.registries ++ [Registry.withRoom room]).getD r'.index default
        = .withRoom room := by
    unfold registry
    rw [List.getD_eq_getElem?_getD, List.getD_eq_getElem?_getD, List.getElem?_append]
    split
    case isTrue => exact .inl rfl
    case isFalse hlt =>
      rw [List.getElem?_eq_none (Nat.le_of_not_lt hlt)]
      cases hnew : [Registry.withRoom room][r'.index - w.registries.length]? with
      | none => exact .inl rfl
      | some new =>
        exact .inr (List.mem_singleton.1 (List.mem_of_getElem? hnew))
  unfold registry addRegistry at hentry
  rcases hold with h | h
  · rw [h] at hentry
    exact hw r' address entry hentry
  · rw [h] at hentry
    exact absurd hentry Registry.getElem?_empty

/-! ## Looking up a class -/

/-- **The class that a lookup gives is there.** -/
theorem index_classFor_lt (hw : w.RegistriesKnown) (r : RegistryId) (bound : NativeId) :
    (w.classFor r bound).1.index < (w.classFor r bound).2.classes.size := by
  unfold classFor
  split
  case h_1 c hfind =>
    obtain ⟨entry, hentry, -, rfl⟩ := Registry.find?_eq_some.1 hfind
    exact hw r _ entry hentry
  case h_2 =>
    show w.classes.size < (w.classes.push {}).size
    rw [Array.size_push]
    exact Nat.lt_succ_self _

theorem size_classes_classFor_le (w : World κ) (r : RegistryId) (bound : NativeId) :
    w.classes.size ≤ (w.classFor r bound).2.classes.size := by
  unfold classFor
  split
  case h_1 => exact Nat.le_refl _
  case h_2 =>
    show w.classes.size ≤ (w.classes.push {}).size
    rw [Array.size_push]
    exact Nat.le_succ _

@[simp] theorem natives_classFor (w : World κ) (r : RegistryId) (bound : NativeId) :
    (w.classFor r bound).2.natives = w.natives := by
  unfold classFor
  split <;> rfl

/-- What is entered is a class that was just made. -/
theorem RegistriesKnown.classFor (hw : w.RegistriesKnown) (r : RegistryId) (bound : NativeId) :
    (w.classFor r bound).2.RegistriesKnown := by
  unfold World.classFor
  split
  case h_1 => exact hw
  case h_2 =>
    intro r' address entry hentry
    show _ < (w.classes.push {}).size
    rw [Array.size_push]
    unfold registry modifyRegistry at hentry
    rw [getD_alter] at hentry
    split at hentry
    case isTrue =>
      rcases Scene.entry_of_enter hentry with ⟨-, rfl⟩ | ⟨-, hold⟩
      · exact Nat.lt_succ_self _
      · exact Nat.lt_succ_of_lt (hw r address entry hold)
    case isFalse => exact Nat.lt_succ_of_lt (hw r' address entry hentry)

theorem adheres_classFor (w : World κ) (r : RegistryId) (bound : NativeId) :
    w.Adheres (w.classFor r bound).2 := by
  refine .of_adapters (fun hw => hw.classFor r bound) (fun i a ha => ?_)
    (size_classes_classFor_le w r bound)
  rwa [native?, natives_classFor, ← native?]

/-- **An adapter has the class that it looks up** from then on. -/
theorem native?_adapterClass (hn : w.native? id = some (.adapter a)) :
    (w.adapterClass id a).2.native? id
      = some (.adapter { a with cls := some (w.adapterClass id a).1 }) := by
  unfold adapterClass
  cases hcls : a.cls with
  | some c =>
    show w.native? id = some (.adapter { a with cls := some c })
    rw [← hcls]
    exact hn
  | none =>
    obtain ⟨k, hk⟩ := native?_eq_some_iff.1 hn
    show ((w.classFor a.registry a.bound).2.setNative id _).native? id = _
    rw [native?, natives_setNative, if_pos rfl, natives_classFor, hk]
    rfl

/-- The other natives are what they were. -/
theorem native?_adapterClass_of_ne {i : NativeId} (hi : id ≠ i) :
    (w.adapterClass id a).2.native? i = w.native? i := by
  unfold adapterClass
  cases a.cls with
  | some c => rfl
  | none =>
    show ((w.classFor a.registry a.bound).2.setNative id _).native? i = _
    rw [native?, natives_setNative, if_neg hi, natives_classFor, ← native?]

theorem size_classes_adapterClass_le (w : World κ) (id : NativeId) (a : Adapter) :
    w.classes.size ≤ (w.adapterClass id a).2.classes.size := by
  unfold adapterClass
  cases a.cls with
  | some c => exact Nat.le_refl _
  | none => exact size_classes_classFor_le w a.registry a.bound

/-- **The class that an adapter has is there.** -/
theorem index_adapterClass_lt (hw : w.RegistriesKnown) (hcls : w.IsKnown a.cls)
    (id : NativeId) : (w.adapterClass id a).1.index < (w.adapterClass id a).2.classes.size := by
  unfold adapterClass
  cases hc : a.cls with
  | some c => exact hcls c hc
  | none => exact index_classFor_lt hw a.registry a.bound

theorem RegistriesKnown.adapterClass (hw : w.RegistriesKnown) (id : NativeId) (a : Adapter) :
    (w.adapterClass id a).2.RegistriesKnown := by
  unfold World.adapterClass
  cases a.cls with
  | some c => exact hw
  | none => exact (hw.classFor a.registry a.bound).of_registries rfl (Nat.le_refl _)

/-- An adapter with a class does not look it up again. -/
theorem adapterClass_of_some {c : ClassId} (hc : a.cls = some c) :
    w.adapterClass id a = (c, w) := by
  rw [adapterClass, hc]

/-- **An adapter looks its class up once.** -/
theorem adheres_adapterClass (hn : w.native? id = some (.adapter a)) :
    w.Adheres (w.adapterClass id a).2 := by
  refine ⟨fun hw => hw.adapterClass id a, fun i a' ha' => ?_⟩
  by_cases hi : id = i
  · subst hi
    obtain rfl : a = a' := by simpa using hn.symm.trans ha'
    refine ⟨_, native?_adapterClass hn, ?_, fun hw hcls c hc => ?_⟩
    · cases hcls : a.cls with
      | none => exact .inl rfl
      | some c => exact .inr (congrArg some (congrArg Prod.fst (adapterClass_of_some hcls)))
    · obtain rfl := Option.some.inj hc
      exact index_adapterClass_lt hw hcls id
  · exact ⟨a'.cls, (native?_adapterClass_of_ne hi).trans ha', .inr rfl, fun _ h =>
      h.mono (size_classes_adapterClass_le w id a)⟩

/-! ## Interning -/

theorem adheres_intern (w : World κ) (c : ClassId) (kind : MemberKind) (name : String) :
    w.Adheres (w.intern c kind name).2 :=
  .of_tables rfl rfl (Nat.le_of_eq Array.size_setIfInBounds.symm)

theorem adheres_addClass (w : World κ) : w.Adheres w.addClass.2 := by
  refine .of_tables rfl rfl ?_
  show w.classes.size ≤ (w.classes.push {}).size
  rw [Array.size_push]
  exact Nat.le_succ _

end World

end EmbeddedScript
