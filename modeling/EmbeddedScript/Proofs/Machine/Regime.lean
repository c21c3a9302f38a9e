import EmbeddedScript.Proofs.Machine.Results

/-!
# Actions side by side

What an operation does depends on what natives do when it asks them. To say what it
guarantees, two machines are run side by side. The second does what the first does in
some worlds, and may do anything elsewhere; if an operation comes out the same on both,
then what natives do elsewhere does not matter to it: it asks them in worlds of that kind
only.

A **regime** says which worlds those are, and how the world after an action relates to
the world before it. `Act.Abides` is about a pair of actions: the second does what the
first does, and the first leads where the regime allows. It is closed under every way of
putting actions together.
-/

namespace EmbeddedScript

variable {κ α β : Type}

/-- **Which worlds actions are followed in**, and where they may lead. -/
structure Regime (κ : Type) where
  /-- The worlds that actions are followed in. -/
  Holds : World κ → Prop
  /-- Where an action may lead. -/
  Rel : World κ → World κ → Prop
  /-- Nothing need happen. -/
  refl : ∀ w, Rel w w
  /-- One thing may happen after another. -/
  trans : ∀ {w w' w''}, Rel w w' → Rel w' w'' → Rel w w''
  /-- What may happen does not lead out of these worlds. -/
  after : ∀ {w w'}, Holds w → Rel w w' → Holds w'

/-- **The first action leads where it may, and the second does the same**, in a world of
the regime. -/
def Act.Abides (R : Regime κ) (a a' : Act κ α) (w : World κ) : Prop :=
  R.Holds w → a' w = a w ∧ R.Rel w (a.after w)

namespace Act

variable {R : Regime κ} {a a' : Act κ α} {w w' : World κ} {e : EngineId}

/-! ## Single actions -/

/-- The same action twice, if it leads where it may. -/
theorem Abides.of_rel (hx : R.Holds w → R.Rel w (a.after w)) : Abides R a a w :=
  fun hw => ⟨rfl, hx hw⟩

/-- An action that leaves the world alone. -/
theorem Abides.of_after_eq (ha : a.after w = w) : Abides R a a w :=
  .of_rel fun _ => by
    rw [ha]
    exact R.refl w

theorem Abides.pure (x : α) : Abides R (Pure.pure x : Act κ α) (Pure.pure x) w :=
  .of_after_eq rfl

theorem Abides.throw (x : Abort) :
    Abides R (MonadExcept.throw x : Act κ α) (MonadExcept.throw x) w :=
  .of_after_eq rfl

theorem Abides.panic (p : Panic) : Abides R (Act.panic p : Act κ α) (Act.panic p) w :=
  .of_after_eq rfl

theorem Abides.view (f : World κ → α) : Abides R (Act.view f) (Act.view f) w :=
  .of_after_eq rfl

/-- A change of the world that may happen. -/
theorem Abides.update {f : World κ → World κ} (hf : R.Rel w (f w)) :
    Abides R (Act.update f) (Act.update f) w :=
  .of_rel fun _ => hf

/-- A change of the world that may happen, with an answer. -/
theorem Abides.extract {f : World κ → α × World κ} (hf : R.Rel w (f w).2) :
    Abides R (Act.extract f) (Act.extract f) w :=
  .of_rel fun _ => hf

theorem Abides.readHeap (f : Heap → α) :
    Abides R (Act.readHeap e f) (Act.readHeap e f) w := by
  refine .of_after_eq ?_
  cases hl : (w.engine e).loan.allowsRead with
  | true => exact after_of_ok (readHeap_of_allowsRead hl f)
  | false => exact after_of_error (readHeap_of_lent hl f)

theorem Abides.object (h : Handle) :
    Abides R (Act.object e h).run (Act.object e h).run w :=
  Abides.readHeap (Heap.get · h)

theorem Abides.expectHandle (v : Value) :
    Abides R (Act.expectHandle v : Attempt κ Handle).run (Act.expectHandle v).run w := by
  cases v <;> exact .pure _

/-! ## Sequences -/

/-- **One action after another**: the second may use what the first came to. -/
theorem Abides.bind {f f' : α → Act κ β} (ha : Abides R a a' w)
    (hf : ∀ x w', a w = .ok x w' → R.Holds w' → R.Rel w w' → Abides R (f x) (f' x) w') :
    Abides R (a >>= f) (a' >>= f') w := by
  intro hw
  obtain ⟨he, hx⟩ := ha hw
  show EStateM.bind a' f' w = EStateM.bind a f w ∧ R.Rel w (after (EStateM.bind a f) w)
  cases hr : a w with
  | ok x w' =>
    -- the first action led to a world of the regime, in which the second is followed
    rw [after_of_ok hr] at hx
    have hw' := R.after hw hx
    obtain ⟨he', hx'⟩ := hf x w' hr hw' hx hw'
    have hafter : after (EStateM.bind a f) w = (f x).after w' := by
      simp only [after, EStateM.bind, hr]
    rw [hafter]
    exact ⟨by simp only [EStateM.bind, he, hr, he'], R.trans hx hx'⟩
  | error x w' =>
    rw [after_of_error hr] at hx
    have hafter : after (EStateM.bind a f) w = w' := by simp only [after, EStateM.bind, hr]
    rw [hafter]
    exact ⟨by simp only [EStateM.bind, he, hr], hx⟩

/-- An action whose result is changed. -/
theorem Abides.map {f : α → β} (ha : Abides R a a' w) : Abides R (f <$> a) (f <$> a') w := by
  have hb : ∀ b : Act κ α, f <$> b = b >>= fun x => Pure.pure (f x) := fun b => by
    funext w
    show EStateM.map f b w = EStateM.bind b (fun x => Pure.pure (f x)) w
    simp only [EStateM.map, EStateM.bind]
    cases b w <;> rfl
  rw [hb, hb]
  exact ha.bind fun x w' _ _ _ => .pure _

/-- The same action for every item of a list. -/
theorem Abides.mapM {f f' : β → Act κ α} (hf : ∀ b w, Abides R (f b) (f' b) w) (l : List β) :
    Abides R (l.mapM f) (l.mapM f') w := by
  induction l generalizing w with
  | nil => exact .pure _
  | cons b l ih =>
    rw [List.mapM_cons, List.mapM_cons]
    exact (hf b w).bind fun _ _ _ _ _ => ih.bind fun _ _ _ _ _ => .pure _

/-- **An action and what follows it in any case.** -/
theorem Abides.ensuring {exit exit' : Act κ Unit} (ha : Abides R a a' w)
    (hx : ∀ w', R.Holds w' → R.Rel w w' → Abides R exit exit' w') :
    Abides R (Act.ensuring a exit) (Act.ensuring a' exit') w := by
  intro hw
  obtain ⟨he, hxa⟩ := ha hw
  have hw' := R.after hw hxa
  obtain ⟨he', hxe⟩ := hx _ hw' hxa hw'
  -- the exit runs from where the action ended, whether it finished or was cut short
  refine ⟨?_, after_ensuring a exit w ▸ R.trans hxa hxe⟩
  simp only [Act.ensuring, he]
  cases hr : a w with
  | ok x w' => rw [after_of_ok hr] at he'; simp only [he']
  | error x w' => rw [after_of_error hr] at he'; simp only [he']

/-- **An action in a changed world**, if it may lead there and back. -/
theorem Abides.within {enter exit : World κ → World κ} (hT : R.Holds w → R.Holds (enter w))
    (ha : Abides R a a' (enter w))
    (hx : R.Rel (enter w) (a.after (enter w)) → R.Rel w (exit (a.after (enter w)))) :
    Abides R (Act.within enter exit a) (Act.within enter exit a') w := by
  intro hw
  obtain ⟨he, hxa⟩ := ha (hT hw)
  refine ⟨?_, after_within enter exit a w ▸ hx hxa⟩
  simp only [Act.within, Act.ensuring, he]

/-! ## Operations that can fail -/

/-- An action that reports failure in its result. -/
theorem Abides.mk {x x' : Act κ (Except EngineError α)} (hx : Abides R x x' w) :
    Abides R (ExceptT.mk x).run (ExceptT.mk x').run w :=
  hx

/-- **One operation after another that did not fail.** -/
theorem Abides.andThen {x x' : Attempt κ α} {f f' : α → Attempt κ β}
    (hx : Abides R x.run x'.run w)
    (hf : ∀ b w', x.run w = .ok (.ok b) w' → R.Holds w' → R.Rel w w' →
      Abides R (f b).run (f' b).run w') :
    Abides R (x >>= f).run (x' >>= f').run w := by
  refine Abides.bind hx fun r w' hr hw' hxw => ?_
  cases r with
  | ok b => exact hf b w' hr hw' hxw
  | error err => exact .pure _

theorem Abides.return (x : α) :
    Abides R (Pure.pure x : Attempt κ α).run (Pure.pure x : Attempt κ α).run w :=
  .pure _

theorem Abides.fail (err : EngineError) :
    Abides R (MonadExcept.throw err : Attempt κ α).run (MonadExcept.throw err : Attempt κ α).run
      w :=
  .pure _

/-- An operation that cannot fail. -/
theorem Abides.attempt (ha : Abides R a a' w) :
    Abides R (Act.attempt a).run (Act.attempt a').run w :=
  ha.map

end Act

end EmbeddedScript
