import EmbeddedScript.Proofs.Machine.Evaluation
import EmbeddedScript.Proofs.Roots.Books

/-!
# Programs that settle their accounts

A piece of native code is given some things that its caller held, and owes some things
to its caller when it returns. It **settles its accounts** (`Program.Settles`) when,
once it has paid what it owes, the books are what they would have been without it. The
accounts of a program are put together from those of its pieces: a sequence passes on
what its first piece owes, and what a frame owns for the length of a piece is dropped
after it.

How natives behave is an assumption here. A bound object **keeps nothing** when it
settles its accounts itself: it gives back what it was lent, and passes on what it
returns (`Machine.Thrifty`). The other natives that lose their last owner while a
program runs must leave the books alone; only proxies hold roots.
-/

namespace EmbeddedScript

open Act

variable {κ α β : Type}

/-! ## Debts -/

/-- The shares that native values own. -/
def NativeValue.debts (vs : List NativeValue) : List Local :=
  (vs.filterMap NativeValue.object?).map .native

theorem NativeValue.debts_cons (v : NativeValue) (vs : List NativeValue) :
    debts (v :: vs) = debts [v] ++ debts vs := by
  cases v <;> rfl

/-- What changes owner when a bound object is asked. -/
def BoundRequest.given : BoundRequest → List Local
  | .setProperty _ v => NativeValue.debts [v]
  | _ => []

/-- What changes owner when a bound object answers. -/
def BoundRequest.returned : (r : BoundRequest) → r.Reply → List Local
  | .invokeMethod _ _, .ok v => NativeValue.debts [v]
  | .invoke _, .ok v => NativeValue.debts [v]
  | .getProperty _, v => NativeValue.debts [v]
  | _, _ => []

/-- **The accounts are settled** between two worlds: once what is owed in the later one
is dropped, the books are those of the earlier one without what was given. -/
structure World.Settles (w w' : World κ) (given owed : List Local) : Prop where
  /-- The later world is tidy. -/
  tidy : w'.Tidy
  /-- The books agree. -/
  books : w'.books.settled owed = w.books.settled given

theorem World.Settles.refl {w : World κ} (hw : w.Tidy) : w.Settles w [] [] := ⟨hw, rfl⟩

theorem World.Settles.trans {w w' w'' : World κ} {given mid owed : List Local}
    (h : w.Settles w' given mid) (h' : w'.Settles w'' mid owed) : w.Settles w'' given owed :=
  ⟨h'.tidy, h'.books.trans h.books⟩

/-- What neither was given nor is owed can be held besides. -/
theorem World.Settles.frame {w w' : World κ} {given owed : List Local}
    (h : w.Settles w' given owed) (ls : List Local) :
    w.Settles w' (given ++ ls) (owed ++ ls) := by
  refine ⟨h.tidy, ?_⟩
  rw [Books.settled_append, h.books, ← Books.settled_append]

theorem World.Settles.perm {w w' : World κ} {given given' owed owed' : List Local}
    (h : w.Settles w' given owed) (hg : given.Perm given') (ho : owed.Perm owed') :
    w.Settles w' given' owed' := by
  refine ⟨h.tidy, ?_⟩
  rw [← Books.settled_perm _ hg, ← Books.settled_perm _ ho]
  exact h.books

/-- A change that the books do not show. -/
theorem World.Settles.of_books_eq {w w' : World κ} (hw : w'.Tidy) (hb : w'.books = w.books) :
    w.Settles w' [] [] := ⟨hw, hb⟩

/-! ## Natives that keep nothing -/

/-- **A machine on which nothing is kept**: it comes to a result only where the first
machine comes to that result, and where moreover the bound object has settled its
accounts. A native that is no proxy has nothing to drop when it is finalised. -/
structure Machine.Thrifty (m m' : Machine κ) (bound : NativeId) : Prop where
  /-- What a native answers it answers on the first machine. -/
  ask : ∀ id r w x w', m'.ask id r w = .ok x w' → m.ask id r w = .ok x w'
  /-- What a native does in the end it does on the first machine. -/
  finalise : ∀ n w w', m'.finalise n w = .ok () w' → m.finalise n w = .ok () w'
  /-- The bound object settles its accounts. -/
  asked : ∀ (r : BoundRequest) w x w', w.Reachable → w.Tidy →
    m'.ask bound (.bound r) w = .ok x w' → w.Settles w' r.given (r.returned x)
  /-- A native that is no proxy leaves the books alone in the end. -/
  finalised : ∀ n w w', (∀ p, n ≠ .proxy p) → w.Reachable → w.Tidy →
    m'.finalise n w = .ok () w' → w.Settles w' [] []

/-- A proxy drops its root in the end. -/
theorem Behaviour.eq_of_finalise_proxy {b : Behaviour κ} {depth : Nat} {p : Proxy}
    {w w' : World κ} (h : (b.machine depth).finalise (.proxy p) w = .ok () w') :
    w' = w.dropRoot p.root := by
  cases depth with
  | zero => cases h
  | succ depth =>
    obtain ⟨rest, w₁, hop, hrest⟩ := Machine.run_eq_ok.1 h
    obtain ⟨rfl, hdrop⟩ := Machine.eval_op_eq_ok.1 hop
    cases hdrop
    cases hrest
    rfl

variable {b : Behaviour κ} {depth : Nat} {m' : Machine κ} {bound : NativeId} {w w' : World κ}

/-- An operation leads to a world that can come about. -/
theorem Behaviour.reachable_perform {o : Op κ} {x : o.Reply} (hw : w.Reachable)
    (h : (b.machine depth).perform o w = .ok x w') : w'.Reachable := by
  have hx := (b.roams depth).perform o hw.sound
  rw [after_of_ok h] at hx
  exact hw.trans hx.reaches

theorem Behaviour.reachable_dropLocal {l : Local} (hw : w.Reachable)
    (h : (b.machine depth).dropLocal l w = .ok () w') : w'.Reachable := by
  have hx := (b.roams depth).dropLocal l hw.sound
  rw [after_of_ok h] at hx
  exact hw.trans hx.reaches

namespace Machine.Thrifty

variable (ht : (b.machine depth).Thrifty m' bound)

include ht

/-- **Letting go of a share settles it.** -/
theorem release {id : NativeId} (hw : w.Reachable) (hy : w.Tidy)
    (h : m'.release id w = .ok () w') :
    (b.machine depth).release id w = .ok () w' ∧ w.Settles w' [.native id] [] := by
  unfold Machine.release at h ⊢
  cases hid : w.natives[id.index]? with
  | none =>
    simp only [hid] at h ⊢
    cases h
    have hnone : w.books.proxies id = none := by
      show World.proxyEntry w.natives[id.index]? = none
      rw [hid]
      rfl
    exact ⟨rfl, hy, (Books.letGo_of_none hnone).symm⟩
  | some entry =>
    obtain ⟨n, k⟩ := entry
    simp only [hid] at h ⊢
    have hentry : w.books.proxies id = World.proxyEntry (some ⟨n, k⟩) := by
      show World.proxyEntry w.natives[id.index]? = _
      rw [hid]
    by_cases hk : k = 1
    · subst hk
      simp only [if_true] at h ⊢
      refine ⟨ht.finalise _ _ _ h, ?_⟩
      have hnopin : (Event.finalised id (w.modifyOwners id (· - 1)).postures).IsNoPin := trivial
      -- the last owner: a proxy drops its root, and any other native leaves the books alone
      by_cases hn : ∃ p, n = .proxy p
      · obtain ⟨p, rfl⟩ := hn
        obtain rfl := Behaviour.eq_of_finalise_proxy (ht.finalise _ _ _ h)
        rw [World.dropRoot_record]
        refine ⟨(hy.letGo_last hw.numbered hid).record _, ?_⟩
        rw [Books.settled_nil, World.books_record _ hnopin,
          World.books_dropRoot (hw.numbered.modifyOwners id _), World.books_letGo_last hid]
        rfl
      · have hn : ∀ p, n ≠ .proxy p := fun p h => hn ⟨p, h⟩
        have hnone : w.books.proxies id = none := hentry.trans (World.proxyEntry_eq_none hn 1)
        have hone : ∀ r, w.books.proxies id ≠ some (r, 1) := fun r hr => by
          rw [hnone] at hr
          cases hr
        have hw₁ : (w.modifyOwners id (· - 1)).Reachable :=
          hw.tail (.move (.aside (.modifyOwners w id _)))
        have hend := ht.finalised n _ w' hn (hw₁.tail (.move (.recorded hnopin)))
          ((hy.letGo hone).record _) h
        refine ⟨hend.tidy, hend.books.trans ?_⟩
        rw [Books.settled_nil, World.books_record _ hnopin]
        exact World.books_letGo hone
    · simp only [hk, if_false] at h ⊢
      cases h
      have hone : ∀ r, w.books.proxies id ≠ some (r, 1) := by
        intro r hr
        rw [hentry] at hr
        cases n with
        | proxy p => cases k <;> simp_all [World.proxyEntry]
        | _ => cases hr
      exact ⟨rfl, hy.letGo hone, World.books_letGo hone⟩

/-- **Dropping what a frame owned settles it.** -/
theorem dropLocal {l : Local} (hw : w.Reachable) (hy : w.Tidy)
    (h : m'.dropLocal l w = .ok () w') :
    (b.machine depth).dropLocal l w = .ok () w' ∧ w.Settles w' [l] [] := by
  cases l with
  | guard e g =>
    cases h
    exact ⟨rfl, hy.modifyEngine e _, World.books_modifyEngine w e _⟩
  | root r =>
    cases h
    exact ⟨rfl, hy.dropRoot r, World.books_dropRoot hw.numbered r⟩
  | native id => exact ht.release hw hy h

/-- Letting go of what an object owns leaves the books alone, if that is no proxy. -/
theorem releaseAll {o : HeapObject} (hw : w.Reachable) (hy : w.Tidy)
    (ho : ∀ id, o.native? = some id → w.books.proxies id = none)
    (h : m'.releaseAll [o] w = .ok () w') :
    (b.machine depth).releaseAll [o] w = .ok () w' ∧ w.Settles w' [] [] := by
  unfold Machine.releaseAll at h ⊢
  cases hid : o.native? with
  | none =>
    simp only [hid] at h ⊢
    cases h
    exact ⟨rfl, .refl hy⟩
  | some id =>
    simp only [hid] at h ⊢
    obtain ⟨u, w₁, hrelease, hrest⟩ := bind_eq_ok.1 h
    obtain ⟨hfirst, hs⟩ := ht.release hw hy hrelease
    cases hrest
    refine ⟨bind_eq_ok.2 ⟨(), _, hfirst, rfl⟩, hs.tidy, hs.books.trans ?_⟩
    exact Books.letGo_of_none (ho id hid)

/-- **An allocation leaves the books alone**, also when it is refused and the object is
dropped. -/
theorem allocate {e : EngineId} {o : HeapObject} {x : Except EngineError Value}
    (hw : w.Reachable) (hy : w.Tidy)
    (ho : ∀ id, o.native? = some id → w.books.proxies id = none)
    (h : (m'.allocate e o).run w = .ok x w') :
    ((b.machine depth).allocate e o).run w = .ok x w' ∧ w.Settles w' [] [] := by
  obtain ⟨r, w₁, hwrite, h⟩ := bind_eq_ok.1 h
  obtain ⟨hr, hw₁⟩ := eq_of_writeHeap hwrite
  cases r with
  | ok k =>
    obtain ⟨rfl, rfl⟩ := pure_eq_ok.1 h
    refine ⟨bind_eq_ok.2 ⟨_, _, hwrite, rfl⟩, ?_⟩
    rw [hw₁]
    exact .of_books_eq (hy.modifyEngine e _) (World.books_modifyEngine w e _)
  | error err =>
    obtain ⟨u, w₂, hdropped, h⟩ := bind_eq_ok.1 h
    obtain ⟨rfl, rfl⟩ := pure_eq_ok.1 h
    obtain ⟨w₃, hrelease, rfl⟩ := within_eq_ok.1 hdropped
    -- the heap refused the object, so it is the heap that it was
    have hrefused := offer_of_refusal (refusal?_of_offer hr.symm) o
    have hreach : (w₁.lend e .exclusive).Reachable := by
      refine (hw.tail (.move ?_)).tail (.lent e .exclusive)
      rw [hw₁, hrefused]
      exact .tended e _ ⟨.inl rfl, rfl, rfl⟩ fun _ => .refl _
    have hbooks : (w₁.lend e .exclusive).books = w.books := by
      rw [World.lend, World.books_modifyEngine, hw₁, World.books_modifyEngine]
    have hy₁ : (w₁.lend e .exclusive).Tidy := by
      rw [World.lend, hw₁]
      exact (hy.modifyEngine e _).modifyEngine e _
    obtain ⟨hfirst, hs⟩ := ht.releaseAll hreach hy₁ (fun id hid => hbooks ▸ ho id hid) hrelease
    refine ⟨bind_eq_ok.2 ⟨_, _, hwrite, bind_eq_ok.2 ⟨(), _, within_eq_ok.2 ⟨_, hfirst, rfl⟩,
      rfl⟩⟩, hs.tidy.modifyEngine e _, ?_⟩
    rw [World.books_modifyEngine]
    exact hs.books.trans hbooks

end Machine.Thrifty

/-! ## Programs -/

/-- **The program settles its accounts**: it is given some things and owes some. It comes
to nothing on the second machine that it does not come to on the first, and leaves its
frame as it found it. -/
def Program.Settles (m m' : Machine κ) (given : List Local) (p : Program κ α)
    (owed : α → List Local) : Prop :=
  ∀ owned w x rest w', w.Reachable → w.Tidy → m'.eval p owned w = .ok (x, rest) w' →
    m.eval p owned w = .ok (x, rest) w' ∧ rest = owned ∧ w'.Reachable
      ∧ w.Settles w' given (owed x)

namespace Program.Settles

variable {m m' : Machine κ} {p : Program κ α} {f : α → Program κ β} {given mid : List Local}
  {owed : α → List Local} {owed' : β → List Local}

/-- **A single operation** settles its accounts if performing it does. -/
theorem op {o : Op κ} {owed : o.Reply → List Local} {m' : Machine κ}
    (h : ∀ w x w', w.Reachable → w.Tidy → m'.perform o w = .ok x w' →
      (b.machine depth).perform o w = .ok x w' ∧ w.Settles w' given (owed x)) :
    Settles (b.machine depth) m' given (Program.op o) owed := by
  intro owned w x rest w' hw hy hx
  obtain ⟨rfl, hdone⟩ := Machine.eval_op_eq_ok.1 hx
  obtain ⟨hx', hs⟩ := h w x w' hw hy hdone
  exact ⟨Machine.eval_op_eq_ok.2 ⟨rfl, hx'⟩, rfl, Behaviour.reachable_perform hw hx', hs⟩

theorem pure {a : α} (h : (owed a).Perm given) : Settles m m' given (Pure.pure a) owed := by
  intro owned w x rest w' hw hy hx
  obtain ⟨rfl, rfl, rfl⟩ := Machine.eval_pure_eq_ok.1 hx
  exact ⟨rfl, rfl, hw, hy, Books.settled_perm _ h⟩

/-- A panic comes to nothing. -/
theorem panic {reason : Panic} : Settles m m' given (.panic reason) owed := by
  intro owned w x rest w' _ _ hx
  cases hx

/-- **One piece after another**: what the first owes is given to the second. -/
theorem bind (hp : Settles m m' given p owed) (hf : ∀ a, Settles m m' (owed a) (f a) owed') :
    Settles m m' given (p >>= f) owed' := by
  intro owned w x rest w' hw hy hx
  obtain ⟨a, rest₁, w₁, ha, hb⟩ := Machine.eval_bind_eq_ok.1 hx
  obtain ⟨ha', rfl, hw₁, hs₁⟩ := hp _ _ _ _ _ hw hy ha
  obtain ⟨hb', rfl, hw', hs⟩ := hf a _ _ _ _ _ hw₁ hs₁.tidy hb
  exact ⟨Machine.eval_bind_eq_ok.2 ⟨a, _, w₁, ha', hb'⟩, rfl, hw', hs₁.trans hs⟩

/-- The result is changed, and as much is owed for it. -/
theorem map {g : α → β} (hp : Settles m m' given p owed) (h : ∀ a, owed' (g a) = owed a) :
    Settles m m' given (g <$> p) owed' :=
  bind hp fun a => .pure (.of_eq (h a))

/-- **Something can be held besides.** -/
theorem frame (hp : Settles m m' given p owed) (ls : List Local) :
    Settles m m' (given ++ ls) p fun a => owed a ++ ls := by
  intro owned w x rest w' hw hy hx
  obtain ⟨hx', hrest, hw', hs⟩ := hp _ _ _ _ _ hw hy hx
  exact ⟨hx', hrest, hw', hs.frame ls⟩

/-- A guard is not in the books. -/
theorem guarded {e : EngineId} {g : Guard} (hp : Settles m m' (.guard e g :: given) p owed) :
    Settles m m' given p owed := by
  intro owned w x rest w' hw hy hx
  obtain ⟨hx', hrest, hw', hs⟩ := hp _ _ _ _ _ hw hy hx
  exact ⟨hx', hrest, hw', hs.tidy, hs.books⟩

end Program.Settles

namespace Machine.Thrifty

open Program (Settles)

variable (ht : (b.machine depth).Thrifty m' bound) {given : List Local}
  {p : Program κ α} {owed : α → List Local}

include ht

/-- **What a frame owns for the length of a program** is dropped after it. -/
theorem owning (l : Local) (hp : Settles (b.machine depth) m' given p owed) :
    Settles (b.machine depth) m' (l :: given) (Program.owning l p) owed := by
  intro owned w x rest w' hw hy hx
  obtain ⟨a, rest₁, w₁, ha, hx⟩ := Machine.eval_bind_eq_ok.1
    (show m'.eval (p >>= fun a => .drop (.done a)) (l :: owned) w = _ from hx)
  obtain ⟨ha', rfl, hw₁, hs₁⟩ := hp _ _ _ _ _ hw hy ha
  obtain ⟨u, w₂, hdrop, hend⟩ := bind_eq_ok.1
    (show (m'.dropLocal l >>= fun _ => Pure.pure (a, owned)) w₁ = _ from hx)
  obtain ⟨hresult, rfl⟩ := pure_eq_ok.1 hend
  obtain ⟨rfl, rfl⟩ := Prod.mk.inj hresult
  obtain ⟨hdrop', hs₂⟩ := ht.dropLocal hw₁ hs₁.tidy hdrop
  refine ⟨?_, rfl, Behaviour.reachable_dropLocal hw₁ hdrop', ?_⟩
  · exact Machine.eval_bind_eq_ok.2 ⟨a, _, w₁, ha', bind_eq_ok.2 ⟨(), w₂, hdrop', rfl⟩⟩
  · refine ((hs₁.frame [l]).perm List.perm_append_comm List.perm_append_comm).trans ?_
    exact hs₂.frame (owed a)

/-- **What a frame owns besides** is dropped in the order in which it is listed. -/
theorem dropping (ls : List Local) (a : α) {owned : List Local} {x : α} {rest : List Local}
    (hw : w.Reachable) (hy : w.Tidy)
    (hx : m'.eval (Program.dropping a ls.length) (ls ++ owned) w = .ok (x, rest) w') :
    (b.machine depth).eval (Program.dropping a ls.length) (ls ++ owned) w = .ok (x, rest) w'
      ∧ x = a ∧ rest = owned ∧ w'.Reachable ∧ w.Settles w' ls [] := by
  induction ls generalizing w with
  | nil =>
    obtain ⟨rfl, rfl, rfl⟩ := Machine.eval_pure_eq_ok.1 hx
    exact ⟨rfl, rfl, rfl, hw, .refl hy⟩
  | cons l ls ih =>
    obtain ⟨u, w₁, hdrop, hx⟩ := bind_eq_ok.1
      (show (m'.dropLocal l >>= fun _ =>
        m'.eval (Program.dropping a ls.length) (ls ++ owned)) w = _ from hx)
    obtain ⟨hdrop', hs₁⟩ := ht.dropLocal hw hy hdrop
    have hw₁ := Behaviour.reachable_dropLocal hw hdrop'
    obtain ⟨hx', rfl, rfl, hw', hs⟩ := ih hw₁ hs₁.tidy hx
    exact ⟨bind_eq_ok.2 ⟨(), w₁, hdrop', hx'⟩, rfl, rfl, hw', (hs₁.frame ls).trans hs⟩

/-- **What a frame owns for the length of a program**, when that is several things. -/
theorem owningEach (ls : List Local) (hp : Settles (b.machine depth) m' given p owed) :
    Settles (b.machine depth) m' (ls ++ given) (Program.owningEach ls p) owed := by
  have hhold : ∀ (m : Machine κ) (ls : List Local) (q : Program κ α) (owned : List Local),
      m.eval (ls.foldl (fun body l => .hold l body) q) owned = m.eval q (ls ++ owned) := by
    intro m ls
    induction ls with
    | nil => exact fun q owned => rfl
    | cons l ls ih => exact fun q owned => ih (.hold l q) owned
  intro owned w x rest w' hw hy hx
  unfold Program.owningEach at hx ⊢
  rw [hhold] at hx ⊢
  obtain ⟨a, rest₁, w₁, ha, hx⟩ := Machine.eval_bind_eq_ok.1
    (show m'.eval (p >>= fun a => Program.dropping a ls.length) (ls ++ owned) w = _ from hx)
  obtain ⟨ha', rfl, hw₁, hs₁⟩ := hp _ _ _ _ _ hw hy ha
  obtain ⟨hx', rfl, rfl, hw', hs₂⟩ := ht.dropping ls a hw₁ hs₁.tidy hx
  refine ⟨Machine.eval_bind_eq_ok.2 ⟨x, _, w₁, ha', hx'⟩, rfl, hw', ?_⟩
  refine ((hs₁.frame ls).perm List.perm_append_comm List.perm_append_comm).trans ?_
  exact hs₂.frame (owed x)

end Machine.Thrifty

end EmbeddedScript
