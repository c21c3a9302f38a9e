import EmbeddedScript.World

/-!
# The table of natives

Natives are looked up by name, and a lookup sees the last change under its own name
only. What a native is to the bridge is settled when it is made: **a name denotes the same
native for good** (`World.Retains`). An adapter stays the adapter of its bound object and
a proxy the proxy of its value, even when nobody owns them any more; only the class that
an adapter has looked up and the states of an embedder's own natives may change.
-/

namespace EmbeddedScript

variable {κ : Type}

/-- **The same native at two moments.** -/
inductive Native.Continues : Native κ → Native κ → Prop
  /-- An adapter may have looked up its class. -/
  | adapter (a : Adapter) (cls : Option ClassId) :
      Continues (.adapter a) (.adapter { a with cls := cls })
  /-- A proxy stays as it is. -/
  | proxy (p : Proxy) : Continues (.proxy p) (.proxy p)
  /-- The state of any other native is up to the embedder. -/
  | custom (s s' : κ) : Continues (.custom s) (.custom s')

namespace Native.Continues

variable {n n' n'' : Native κ}

theorem refl (n : Native κ) : n.Continues n := by
  cases n with
  | adapter a => exact .adapter a a.cls
  | proxy p => exact .proxy p
  | custom s => exact .custom s s

theorem trans (h : n.Continues n') (h' : n'.Continues n'') : n.Continues n'' := by
  cases h with
  | adapter a cls =>
    cases h' with
    | adapter _ cls' => exact .adapter a cls'
  | proxy p => exact h'
  | custom s s' =>
    cases h' with
    | custom _ s'' => exact .custom s s''

end Native.Continues

namespace World

variable {w w' w'' : World κ} {id : NativeId}

/-! ## Lookups -/

theorem native?_eq_some_iff {n : Native κ} :
    w.native? id = some n ↔ ∃ k, w.natives[id.index]? = some ⟨n, k⟩ := by
  unfold native?
  cases h : w.natives[id.index]? with
  | none => simp
  | some entry =>
    obtain ⟨n', k⟩ := entry
    simp

theorem owners_of_some {n : Native κ} {k : Nat} (h : w.natives[id.index]? = some ⟨n, k⟩) :
    w.owners id = k := by
  rw [owners, h]
  rfl

/-- A native that is alive is there and has an owner. -/
theorem exists_of_isAlive (ha : w.isAlive id = true) :
    ∃ n k, w.natives[id.index]? = some ⟨n, k + 1⟩ := by
  have ho : 0 < w.owners id := of_decide_eq_true ha
  unfold owners at ho
  cases hn : w.natives[id.index]? with
  | none =>
    rw [hn] at ho
    exact absurd ho (Nat.lt_irrefl 0)
  | some entry =>
    obtain ⟨n, k⟩ := entry
    rw [hn] at ho
    cases k with
    | zero => exact absurd ho (Nat.lt_irrefl 0)
    | succ k => exact ⟨n, k, rfl⟩

/-- Looked up anywhere, only the changed entry reads differently. -/
theorem natives_modifyOwners (w : World κ) (id : NativeId) (f : Nat → Nat) (i : NativeId) :
    (w.modifyOwners id f).natives[i.index]? =
      if id = i then w.natives[i.index]?.map fun n => { n with owners := f n.owners }
      else w.natives[i.index]? := by
  obtain ⟨i⟩ := i
  obtain ⟨j⟩ := id
  rw [modifyOwners, Array.getElem?_modify]
  simp only [NativeId.mk.injEq]

/-- A native keeps what it is when its owners change. -/
theorem native?_modifyOwners (w : World κ) (id : NativeId) (f : Nat → Nat) (i : NativeId) :
    (w.modifyOwners id f).native? i = w.native? i := by
  rw [native?, natives_modifyOwners]
  split
  · rw [Option.map_map]
    rfl
  · rfl

theorem natives_setNative (w : World κ) (id : NativeId) (n : Native κ) (i : NativeId) :
    (w.setNative id n).natives[i.index]? =
      if id = i then w.natives[i.index]?.map fun entry => { entry with native := n }
      else w.natives[i.index]? := by
  obtain ⟨i⟩ := i
  obtain ⟨j⟩ := id
  rw [setNative, Array.getElem?_modify]
  simp only [NativeId.mk.injEq]

theorem natives_addNative (w : World κ) (n : Native κ) (i : NativeId) :
    (w.addNative n).2.natives[i.index]? =
      if i = (w.addNative n).1 then some ⟨n, 1⟩ else w.natives[i.index]? := by
  obtain ⟨i⟩ := i
  show (w.natives.push ⟨n, 1⟩)[i]? = if (⟨i⟩ : NativeId) = ⟨w.natives.size⟩ then _ else _
  rw [Array.getElem?_push]
  simp only [NativeId.mk.injEq]

theorem native?_addNative (w : World κ) (n : Native κ) :
    (w.addNative n).2.native? (w.addNative n).1 = some n := by
  rw [native?, natives_addNative, if_pos rfl]
  rfl

/-- The name of a new native denoted nothing before. -/
theorem native?_addNative_fst (w : World κ) (n : Native κ) :
    w.native? (w.addNative n).1 = none := by
  show w.natives[w.natives.size]?.map _ = none
  rw [Array.getElem?_eq_none (Nat.le_refl _)]
  rfl

@[simp] theorem natives_dropRoot (w : World κ) (r : Root) :
    (w.dropRoot r).natives = w.natives := by
  unfold World.dropRoot
  split <;> rfl

/-! ## What natives stay -/

/-- **Names denote the natives that they denoted.** -/
def Retains (w w' : World κ) : Prop :=
  ∀ id n, w.native? id = some n → ∃ n', w'.native? id = some n' ∧ n.Continues n'

theorem Retains.of_native? (h : ∀ id, w'.native? id = w.native? id) : w.Retains w' :=
  fun id n hn => ⟨n, (h id).trans hn, .refl n⟩

/-- Where the table is the same, so are the natives. -/
theorem Retains.of_natives (h : w'.natives = w.natives) : w.Retains w' :=
  .of_native? fun id => by rw [native?, h, native?]

theorem Retains.trans (h : w.Retains w') (h' : w'.Retains w'') : w.Retains w'' := by
  intro id n hn
  obtain ⟨n', hn', hc⟩ := h id n hn
  obtain ⟨n'', hn'', hc'⟩ := h' id n' hn'
  exact ⟨n'', hn'', hc.trans hc'⟩

/-- Owners come and go. -/
theorem retains_modifyOwners (w : World κ) (id : NativeId) (f : Nat → Nat) :
    w.Retains (w.modifyOwners id f) :=
  .of_native? (native?_modifyOwners w id f)

/-- A new native takes no other's name. -/
theorem retains_addNative (w : World κ) (n : Native κ) : w.Retains (w.addNative n).2 := by
  intro i n' hn'
  refine ⟨n', ?_, .refl n'⟩
  rw [native?, natives_addNative, if_neg, ← native?, hn']
  rintro rfl
  rw [native?_addNative_fst] at hn'
  cases hn'

/-- **A native may be replaced by what continues it.** -/
theorem retains_setNative {n n' : Native κ} (hn : w.native? id = some n)
    (hc : n.Continues n') : w.Retains (w.setNative id n') := by
  intro i m hm
  rw [native?, natives_setNative]
  by_cases hi : id = i
  · obtain rfl : n = m := Option.some.inj (hn.symm.trans (hi ▸ hm))
    obtain ⟨k, hk⟩ := native?_eq_some_iff.1 hm
    exact ⟨n', by rw [if_pos hi, hk]; rfl, hc⟩
  · rw [if_neg hi]
    exact ⟨m, hm, .refl m⟩

/-- **An adapter stays the adapter of its bound object.** -/
theorem Retains.adapter (h : w.Retains w') {a : Adapter}
    (hn : w.native? id = some (.adapter a)) :
    ∃ cls, w'.native? id = some (.adapter { a with cls := cls }) := by
  obtain ⟨n', hn', hc⟩ := h id _ hn
  cases hc with
  | adapter _ cls => exact ⟨cls, hn'⟩

end World

end EmbeddedScript
