import EmbeddedScript.Proofs.Machine.Running

/-!
# What programs come to

A run unwinds its frame wherever it is cut short, which makes it awkward to follow one
piece by piece. A run that comes to a result is never cut short, though, and is easy to
follow: the program is **evaluated** up to its return, and then the frame is unwound
(`Machine.run_eq_ok`). Evaluation distributes over sequences (`Machine.eval_bind_eq_ok`),
so each piece of a program can be given its own account.
-/

namespace EmbeddedScript.Machine

open Act

variable {κ α β : Type} {m : Machine κ} {w w' : World κ}

/-- **Run a program up to its return**: its result, and what its frame owns then. -/
def eval (m : Machine κ) : Program κ α → List Local → Act κ (α × List Local)
  | .done a, owned => pure (a, owned)
  | .panic p, _ => Act.panic p
  | .perform op next, owned => m.perform op >>= fun r => m.eval (next r) owned
  | .hold l next, owned => m.eval next (l :: owned)
  | .drop next, owned =>
    match owned with
    | [] => m.eval next []
    | l :: owned => m.dropLocal l >>= fun _ => m.eval next owned
  | .forget next, owned => m.eval next owned.tail

/-- What was cut short comes to no result when the frame is unwound. -/
theorem ensuring_throw_ne_ok {x : Abort} {exit : Act κ Unit} {a : α} :
    Act.ensuring (throw x) exit w ≠ .ok a w' := by
  intro h
  obtain ⟨w₁, h, -⟩ := ensuring_eq_ok.1 h
  cases h

/-- **A run came to a result** when its program did and its frame was unwound. -/
theorem run_eq_ok {p : Program κ α} {owned : List Local} {a : α} :
    m.run p owned w = .ok a w' ↔
      ∃ rest w₁, m.eval p owned w = .ok (a, rest) w₁ ∧ m.unwind rest w₁ = .ok () w' := by
  -- an action inside a program: cut short, it comes to no result on either side
  have hcut : ∀ {γ : Type} (o : List Local) (x : Act κ γ) (f : γ → Act κ α)
      (g : γ → Act κ (α × List Local)),
      (∀ c w, f c w = .ok a w' ↔
        ∃ rest w₁, g c w = .ok (a, rest) w₁ ∧ m.unwind rest w₁ = .ok () w') →
      ∀ w, m.orUnwind o x f w = .ok a w' ↔
        ∃ rest w₁, (x >>= g) w = .ok (a, rest) w₁ ∧ m.unwind rest w₁ = .ok () w' := by
    intro γ o x f g hfg w
    unfold orUnwind
    cases hx : x w with
    | ok c w₁ =>
      have hg : (x >>= g) w = g c w₁ := by
        show EStateM.bind x g w = _
        simp only [EStateM.bind, hx]
      rw [hg]
      exact hfg c w₁
    | error y w₁ =>
      have hg : (x >>= g) w = .error y w₁ := by
        show EStateM.bind x g w = _
        simp only [EStateM.bind, hx]
      simp only [hg, reduceCtorEq, false_and, exists_false, iff_false]
      exact ensuring_throw_ne_ok
  induction p generalizing owned w with
  | done b =>
    show (m.unwind owned >>= fun _ => pure b) w = _
      ↔ ∃ rest w₁, (pure (b, owned) : Act κ (α × List Local)) w = .ok (a, rest) w₁ ∧ _
    rw [bind_eq_ok]
    constructor
    · rintro ⟨u, w₁, hu, hb⟩
      obtain ⟨rfl, rfl⟩ := pure_eq_ok.1 hb
      exact ⟨owned, w, rfl, hu⟩
    · rintro ⟨rest, w₁, hb, hu⟩
      obtain ⟨hresult, rfl⟩ := pure_eq_ok.1 hb
      obtain ⟨rfl, rfl⟩ := Prod.mk.inj hresult
      exact ⟨(), w', hu, rfl⟩
  | panic p =>
    show (m.unwind owned >>= fun _ => Act.panic p) w = _
      ↔ ∃ rest w₁, Act.panic p w = .ok (a, rest) w₁ ∧ _
    rw [bind_eq_ok]
    constructor
    · rintro ⟨u, w₁, -, hp⟩
      cases hp
    · rintro ⟨rest, w₁, hp, -⟩
      cases hp
  | perform op next ih =>
    rw [run_perform]
    exact hcut owned _ _ _ (fun r w => ih r) w
  | hold l next ih => exact ih
  | drop next ih =>
    cases owned with
    | nil => exact ih
    | cons l owned =>
      rw [run_drop]
      exact hcut owned _ _ _ (fun _ w => ih) w
  | forget next ih => exact ih

/-- **One piece after another**: a sequence came to what its second piece came to, where
the first had left it. -/
theorem eval_bind_eq_ok {p : Program κ α} {f : α → Program κ β} {owned : List Local}
    {r : β × List Local} :
    m.eval (p >>= f) owned w = .ok r w' ↔
      ∃ a rest w₁, m.eval p owned w = .ok (a, rest) w₁ ∧ m.eval (f a) rest w₁ = .ok r w' := by
  show m.eval (p.bind f) owned w = _ ↔ _
  induction p generalizing owned w with
  | done b =>
    show m.eval (f b) owned w = _ ↔ ∃ a rest w₁,
      (pure (b, owned) : Act κ (α × List Local)) w = .ok (a, rest) w₁ ∧ _
    constructor
    · intro h
      exact ⟨b, owned, w, rfl, h⟩
    · rintro ⟨a, rest, w₁, hb, h⟩
      obtain ⟨hresult, rfl⟩ := pure_eq_ok.1 hb
      obtain ⟨rfl, rfl⟩ := Prod.mk.inj hresult
      exact h
  | panic p =>
    show Act.panic p w = _ ↔ ∃ a rest w₁, Act.panic p w = .ok (a, rest) w₁ ∧ _
    constructor
    · intro h
      cases h
    · rintro ⟨a, rest, w₁, hp, -⟩
      cases hp
  | perform op next ih =>
    show (m.perform op >>= fun r => m.eval ((next r).bind f) owned) w = _
      ↔ ∃ a rest w₁, (m.perform op >>= fun r => m.eval (next r) owned) w = _ ∧ _
    simp only [bind_eq_ok, ih]
    constructor
    · rintro ⟨c, w₂, hc, a, rest, w₁, ha, h⟩
      exact ⟨a, rest, w₁, ⟨c, w₂, hc, ha⟩, h⟩
    · rintro ⟨a, rest, w₁, ⟨c, w₂, hc, ha⟩, h⟩
      exact ⟨c, w₂, hc, a, rest, w₁, ha, h⟩
  | hold l next ih => exact ih
  | drop next ih =>
    cases owned with
    | nil => exact ih
    | cons l owned =>
      show (m.dropLocal l >>= fun _ => m.eval (next.bind f) owned) w = _
        ↔ ∃ a rest w₁, (m.dropLocal l >>= fun _ => m.eval next owned) w = _ ∧ _
      simp only [bind_eq_ok, ih]
      constructor
      · rintro ⟨c, w₂, hc, a, rest, w₁, ha, h⟩
        exact ⟨a, rest, w₁, ⟨c, w₂, hc, ha⟩, h⟩
      · rintro ⟨a, rest, w₁, ⟨c, w₂, hc, ha⟩, h⟩
        exact ⟨c, w₂, hc, a, rest, w₁, ha, h⟩
  | forget next ih => exact ih

/-- **A sequence runs on from where its first piece is evaluated**, in the frame that is
left there, however the rest of it ends. -/
theorem run_bind_of_eval {p : Program κ α} {f : α → Program κ β} {owned rest : List Local}
    {a : α} (h : m.eval p owned w = .ok (a, rest) w') :
    m.run (p >>= f) owned w = m.run (f a) rest w' := by
  show m.run (p.bind f) owned w = _
  induction p generalizing owned w with
  | done b =>
    obtain ⟨hresult, rfl⟩ := pure_eq_ok.1 h
    obtain ⟨rfl, rfl⟩ := Prod.mk.inj hresult
    rfl
  | panic p => cases h
  | perform op next ih =>
    obtain ⟨r, w₁, hr, h⟩ := bind_eq_ok.1 h
    rw [Program.bind, run_perform, orUnwind, hr]
    exact ih r h
  | hold l next ih => exact ih h
  | drop next ih =>
    cases owned with
    | nil => exact ih h
    | cons l owned =>
      obtain ⟨u, w₁, hu, h⟩ := bind_eq_ok.1 h
      rw [Program.bind, run_drop, orUnwind, hu]
      exact ih h
  | forget next ih => exact ih h

/-- A single operation came to what performing it came to. -/
theorem eval_op_eq_ok {o : Op κ} {owned : List Local} {x : o.Reply} {rest : List Local} :
    m.eval (Program.op o) owned w = .ok (x, rest) w' ↔
      rest = owned ∧ m.perform o w = .ok x w' := by
  show (m.perform o >>= fun r => pure (r, owned)) w = _ ↔ _
  rw [bind_eq_ok]
  constructor
  · rintro ⟨y, w₁, hy, h⟩
    obtain ⟨hxy, rfl⟩ := pure_eq_ok.1 h
    obtain ⟨rfl, rfl⟩ := Prod.mk.inj hxy
    exact ⟨rfl, hy⟩
  · rintro ⟨rfl, hx⟩
    exact ⟨x, w', hx, rfl⟩

/-- A return comes to its result. -/
theorem eval_pure_eq_ok {a b : α} {owned rest : List Local} :
    m.eval (pure a : Program κ α) owned w = .ok (b, rest) w' ↔
      b = a ∧ rest = owned ∧ w' = w := by
  show (pure (a, owned) : Act κ (α × List Local)) w = _ ↔ _
  rw [pure_eq_ok, Prod.mk.injEq]
  constructor
  · rintro ⟨⟨rfl, rfl⟩, rfl⟩
    exact ⟨rfl, rfl, rfl⟩
  · rintro ⟨rfl, rfl, rfl⟩
    exact ⟨⟨rfl, rfl⟩, rfl⟩

/-- A result that is converted comes to what is made of it. -/
theorem eval_map_eq_ok {f : α → β} {p : Program κ α} {owned rest : List Local} {y : β} :
    m.eval (f <$> p) owned w = .ok (y, rest) w' ↔
      ∃ x, m.eval p owned w = .ok (x, rest) w' ∧ y = f x := by
  refine (eval_bind_eq_ok (f := Program.done ∘ f)).trans ⟨?_, ?_⟩
  · rintro ⟨x, rest₁, w₁, hx, hy⟩
    obtain ⟨rfl, rfl, rfl⟩ := eval_pure_eq_ok.1 hy
    exact ⟨x, hx, rfl⟩
  · rintro ⟨x, hx, rfl⟩
    exact ⟨x, rest, w', hx, eval_pure_eq_ok.2 ⟨rfl, rfl, rfl⟩⟩

/-- A program that owns something came to what it comes to in the larger frame; what lies
on top of that in the end is dropped. -/
theorem eval_owning_eq_ok {l : Local} {p : Program κ α} {owned rest : List Local} {a : α} :
    m.eval (Program.owning l p) owned w = .ok (a, rest) w' ↔
      ∃ left w₁, m.eval p (l :: owned) w = .ok (a, left) w₁
        ∧ m.eval (Program.drop (.done a)) left w₁ = .ok (a, rest) w' := by
  show m.eval (p >>= fun y => Program.drop (.done y)) (l :: owned) w = _ ↔ _
  rw [eval_bind_eq_ok]
  constructor
  · rintro ⟨y, left, w₁, hy, hdrop⟩
    obtain rfl : a = y := by
      cases left with
      | nil =>
        obtain ⟨hresult, -⟩ := pure_eq_ok.1 hdrop
        exact (Prod.mk.inj hresult).1.symm
      | cons l' left =>
        obtain ⟨_, w₂, -, hdone⟩ := bind_eq_ok.1 hdrop
        obtain ⟨hresult, -⟩ := pure_eq_ok.1 hdone
        exact (Prod.mk.inj hresult).1.symm
    exact ⟨left, w₁, hy, hdrop⟩
  · rintro ⟨left, w₁, hy, hdrop⟩
    exact ⟨a, left, w₁, hy, hdrop⟩

/-! ## Runs, piece by piece -/

/-- A sequence came to a result when its first piece is evaluated and the rest came to it in
the frame that is left. -/
theorem run_bind_eq_ok {p : Program κ α} {f : α → Program κ β} {owned : List Local} {b : β} :
    m.run (p >>= f) owned w = .ok b w' ↔
      ∃ a rest w₁, m.eval p owned w = .ok (a, rest) w₁ ∧ m.run (f a) rest w₁ = .ok b w' := by
  constructor
  · intro h
    obtain ⟨rest, w₂, heval, hunwind⟩ := run_eq_ok.1 h
    obtain ⟨a, rest₁, w₁, hp, hf⟩ := eval_bind_eq_ok.1 heval
    exact ⟨a, rest₁, w₁, hp, run_eq_ok.2 ⟨rest, w₂, hf, hunwind⟩⟩
  · rintro ⟨a, rest, w₁, hp, hf⟩
    exact (run_bind_of_eval hp).trans hf

/-- The run of an operation that is not the last came to a result when the rest did. -/
theorem run_op_bind_eq_ok {o : Op κ} {f : o.Reply → Program κ β} {owned : List Local} {b : β} :
    m.run (Program.op o >>= f) owned w = .ok b w' ↔
      ∃ x w₁, m.perform o w = .ok x w₁ ∧ m.run (f x) owned w₁ = .ok b w' := by
  rw [run_bind_eq_ok]
  constructor
  · rintro ⟨x, rest, w₁, hop, hf⟩
    obtain ⟨rfl, hperform⟩ := eval_op_eq_ok.1 hop
    exact ⟨x, w₁, hperform, hf⟩
  · rintro ⟨x, w₁, hperform, hf⟩
    exact ⟨x, owned, w₁, eval_op_eq_ok.2 ⟨rfl, hperform⟩, hf⟩

/-- A return in an empty frame comes to its result. -/
theorem run_pure_eq_ok {a b : α} :
    m.run (pure a : Program κ α) [] w = .ok b w' ↔ b = a ∧ w' = w := by
  show (pure a : Act κ α) w = _ ↔ _
  rw [pure_eq_ok, eq_comm, and_congr_right fun _ => eq_comm]

/-- The last operation of a program in an empty frame came to what performing it came to. -/
theorem run_op_eq_ok {o : Op κ} {x : o.Reply} :
    m.run (Program.op o) [] w = .ok x w' ↔ m.perform o w = .ok x w' := by
  rw [run_eq_ok]
  constructor
  · rintro ⟨rest, w₁, hop, hunwind⟩
    obtain ⟨rfl, hperform⟩ := eval_op_eq_ok.1 hop
    obtain ⟨-, rfl⟩ := pure_eq_ok.1 hunwind
    exact hperform
  · exact fun hperform => ⟨[], w', eval_op_eq_ok.2 ⟨rfl, hperform⟩, rfl⟩

/-- A result that is converted comes to what is made of it. -/
theorem run_map_eq_ok {f : α → β} {p : Program κ α} {owned : List Local} {y : β} :
    m.run (f <$> p) owned w = .ok y w' ↔ ∃ x, m.run p owned w = .ok x w' ∧ y = f x := by
  rw [run_eq_ok]
  constructor
  · rintro ⟨rest, w₁, hmap, hunwind⟩
    obtain ⟨x, hp, rfl⟩ := eval_map_eq_ok.1 hmap
    exact ⟨x, run_eq_ok.2 ⟨rest, w₁, hp, hunwind⟩, rfl⟩
  · rintro ⟨x, hp, rfl⟩
    obtain ⟨rest, w₁, heval, hunwind⟩ := run_eq_ok.1 hp
    exact ⟨rest, w₁, eval_map_eq_ok.2 ⟨x, heval, rfl⟩, hunwind⟩

end EmbeddedScript.Machine
