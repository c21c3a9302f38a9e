import EmbeddedScript.World

/-!
# The table of classes

A class remembers descriptors by the kind and the name of a member, and what it remembers
first it keeps: interning a name that is remembered stores nothing, and interning any
other leaves what is remembered alone. So there are only two ways in which classes change
(`World.Learns`): classes are added, which remember nothing, or **one name is interned**.
Whatever a class remembers, it remembers ever after, and it was interned there.
-/

namespace EmbeddedScript

namespace ReflectedClass

/-- An insertion shows under its own kind and name only. -/
theorem cached?_insert (c : ReflectedClass) (kind kind' : MemberKind) (d : Descriptor)
    (name : String) :
    (c.insert kind d).cached? kind' name =
      if kind = kind' ∧ d.name = name then some d else c.cached? kind' name := by
  unfold insert cached? members
  by_cases hname : d.name = name
  · subst hname
    cases kind <;> cases kind' <;> simp
  · cases kind <;> cases kind' <;> simp [hname, Properties.get?_set_of_ne _ hname]

/-- **What is interned is remembered**, and nothing else changes. -/
theorem cached?_intern (c : ReflectedClass) (kind kind' : MemberKind) (fresh : Descriptor)
    (name : String) :
    (c.intern kind fresh).2.cached? kind' name =
      if kind = kind' ∧ fresh.name = name then some (c.intern kind fresh).1
      else c.cached? kind' name := by
  unfold intern
  cases hd : c.cached? kind fresh.name with
  | none => exact cached?_insert c kind kind' fresh name
  | some d =>
    by_cases hsame : kind = kind' ∧ fresh.name = name
    · rw [if_pos hsame, ← hsame.1, ← hsame.2, hd]
    · rw [if_neg hsame]

end ReflectedClass

namespace World

variable {κ : Type} {w w' : World κ} {c c' : ClassId} {kind kind' : MemberKind}
  {name name' : String} {d : Descriptor}

/-- **What a class remembers** for a name. -/
def recalls? (w : World κ) (c : ClassId) (kind : MemberKind) (name : String) :
    Option Descriptor :=
  (w.reflectedClass c).cached? kind name

@[simp] theorem classes_dropRoot (w : World κ) (r : Root) :
    (w.dropRoot r).classes = w.classes := by
  unfold World.dropRoot
  split <;> rfl

/-- Only a class that exists is changed by interning. -/
theorem reflectedClass_intern (w : World κ) (c c' : ClassId) (kind : MemberKind)
    (name : String) :
    (w.intern c kind name).2.reflectedClass c' =
      if c = c' ∧ c.index < w.classes.size then
        ((w.reflectedClass c).intern kind ⟨w.descriptorsMade, name⟩).2
      else w.reflectedClass c' := by
  obtain ⟨i⟩ := c
  obtain ⟨j⟩ := c'
  unfold intern
  generalize (w.reflectedClass ⟨i⟩).intern kind ⟨w.descriptorsMade, name⟩ = interned
  show (w.classes.setIfInBounds i interned.2).getD j {} = _
  rw [Array.getD_eq_getD_getElem?, Array.getElem?_setIfInBounds]
  by_cases hij : i = j
  · subst hij
    by_cases hi : i < w.classes.size
    · simp [hi]
    · simp [hi, reflectedClass]
  · simp [hij, reflectedClass]

/-- **What is interned is remembered**, in a class that exists, and nothing else
changes. -/
theorem recalls?_intern (w : World κ) (c c' : ClassId) (kind kind' : MemberKind)
    (name name' : String) :
    (w.intern c kind name).2.recalls? c' kind' name' =
      if (c = c' ∧ c.index < w.classes.size) ∧ kind = kind' ∧ name = name' then
        some (w.intern c kind name).1
      else w.recalls? c' kind' name' := by
  rw [recalls?, reflectedClass_intern]
  by_cases hc : c = c' ∧ c.index < w.classes.size
  · rw [if_pos hc, ReflectedClass.cached?_intern]
    obtain ⟨rfl, hlt⟩ := hc
    simp only [hlt, true_and]
    rfl
  · rw [if_neg hc, if_neg fun h => hc h.1]
    rfl

/-- **Interning a name that is remembered** gives what is remembered. -/
theorem intern_of_recalls? (hd : w.recalls? c kind name = some d) :
    (w.intern c kind name).1 = d := by
  have hcached : (w.reflectedClass c).cached? kind name = some d := hd
  show ((w.reflectedClass c).intern kind ⟨w.descriptorsMade, name⟩).1 = d
  rw [ReflectedClass.intern, hcached]

/-- **How classes change.** -/
inductive Learns (w w' : World κ) : Prop
  /-- Classes may be added, and those that there are stay as they are. -/
  | added (hsize : w.classes.size ≤ w'.classes.size)
      (hsame : ∀ c, w'.reflectedClass c = w.reflectedClass c)
  /-- A name is interned in a class. -/
  | interned (c : ClassId) (kind : MemberKind) (name : String)
      (hclasses : w'.classes = (w.intern c kind name).2.classes)

/-- What a class remembers is a matter of the table. -/
theorem reflectedClass_congr (h : w'.classes = w.classes) (c : ClassId) :
    w'.reflectedClass c = w.reflectedClass c := by
  rw [reflectedClass, h, reflectedClass]

theorem recalls?_congr (h : w'.classes = w.classes) (c : ClassId) (kind : MemberKind)
    (name : String) : w'.recalls? c kind name = w.recalls? c kind name := by
  rw [World.recalls?, reflectedClass_congr h, World.recalls?]

/-- Where the table is the same, nothing is learned. -/
theorem Learns.of_classes (h : w'.classes = w.classes) : w.Learns w' :=
  .added (Nat.le_of_eq (by rw [h])) (reflectedClass_congr h)

theorem Learns.congr {w'' : World κ} (h : w.Learns w') (hc : w''.classes = w'.classes) :
    w.Learns w'' := by
  cases h with
  | added hsize hsame =>
    exact .added (by rwa [hc]) fun c => (reflectedClass_congr hc c).trans (hsame c)
  | interned c kind name hclasses => exact .interned c kind name (hc.trans hclasses)

/-- A class that is added remembers nothing, like one that was never made. -/
theorem learns_addClass (w : World κ) : w.Learns w.addClass.2 := by
  refine .added ?_ fun c => ?_
  · show w.classes.size ≤ (w.classes.push {}).size
    rw [Array.size_push]
    exact Nat.le_succ _
  · show (w.classes.push {}).getD c.index {} = w.classes.getD c.index {}
    rw [Array.getD_eq_getD_getElem?, Array.getD_eq_getD_getElem?, Array.getElem?_push]
    split
    case isTrue hc => simp [hc]
    case isFalse => rfl

/-- No class goes away. -/
theorem Learns.size_le (h : w.Learns w') : w.classes.size ≤ w'.classes.size := by
  cases h with
  | added hsize _ => exact hsize
  | interned c kind name hclasses =>
    rw [hclasses]
    exact Nat.le_of_eq Array.size_setIfInBounds.symm

/-- **What is remembered stays remembered.** -/
theorem Learns.recalls? (h : w.Learns w') (hd : w.recalls? c kind name = some d) :
    w'.recalls? c kind name = some d := by
  cases h with
  | added _ hsame => rwa [World.recalls?, hsame]
  | interned c' kind' name' hclasses =>
    rw [recalls?_congr hclasses, recalls?_intern]
    split
    case isTrue hsame =>
      obtain ⟨⟨rfl, -⟩, rfl, rfl⟩ := hsame
      rw [intern_of_recalls? hd]
    case isFalse => exact hd

/-- **What is remembered was remembered before, or is being interned**: this very
descriptor, under this very name. -/
theorem Learns.recalls?_before (h : w.Learns w') (hd : w'.recalls? c kind name = some d) :
    w.recalls? c kind name = some d
      ∨ w.recalls? c kind name = none ∧ w'.classes = (w.intern c kind name).2.classes
        ∧ (w.intern c kind name).1 = d := by
  cases h with
  | added _ hsame => exact .inl (by rwa [World.recalls?, hsame] at hd)
  | interned c' kind' name' hclasses =>
    rw [recalls?_congr hclasses, recalls?_intern] at hd
    split at hd
    case isTrue hsame =>
      obtain ⟨⟨rfl, -⟩, rfl, rfl⟩ := hsame
      cases hbefore : w.recalls? c' kind' name' with
      | none => exact .inr ⟨rfl, hclasses, Option.some.inj hd⟩
      | some d' => exact .inl (by rw [← intern_of_recalls? hbefore, ← hd])
    case isFalse => exact .inl hd

/-- A descriptor is interned under the name that it has. -/
theorem name_intern_of_none (hnone : w.recalls? c kind name = none) :
    (w.intern c kind name).1.name = name := by
  have hcached : (w.reflectedClass c).cached? kind name = none := hnone
  show ((w.reflectedClass c).intern kind ⟨w.descriptorsMade, name⟩).1.name = name
  rw [ReflectedClass.intern, hcached]

end World

end EmbeddedScript
