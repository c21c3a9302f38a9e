import EmbeddedScript.Machine.Basic
import EmbeddedScript.Proofs.World.Step

/-!
# What actions come to

An action comes to a result or is cut short, and leaves a world behind in either case
(`Act.after`). A composite action came to a result exactly when its pieces did, one where
the other had left off; this module says so for each way of composing, which lets a run
that is known to have come to a result be followed piece by piece.
-/

namespace EmbeddedScript

variable {κ α β : Type}

/-- **The world that an action leaves behind**, whether it finished or was cut
short. -/
def Act.after (a : Act κ α) (w : World κ) : World κ :=
  match a w with
  | .ok _ w' => w'
  | .error _ w' => w'

/-- The action comes to a result, and the result and the world it leaves behind pass a
test. -/
def Act.finishes (a : Act κ α) (w : World κ) (test : α → World κ → Bool) : Bool :=
  match a w with
  | .ok x w' => test x w'
  | .error _ _ => false

theorem Act.exists_of_finishes {a : Act κ α} {w : World κ} {test : α → World κ → Bool}
    (h : a.finishes w test = true) : ∃ x w', a w = .ok x w' ∧ test x w' = true := by
  unfold Act.finishes at h
  cases hr : a w with
  | ok x w' =>
    rw [hr] at h
    exact ⟨x, w', rfl, h⟩
  | error x w' =>
    rw [hr] at h
    cases h

namespace Act

variable {a a' : Act κ α} {w w' : World κ} {e : EngineId}

theorem after_of_ok {x : α} (h : a w = .ok x w') : a.after w = w' := by simp [after, h]

theorem after_of_error {x : Abort} (h : a w = .error x w') : a.after w = w' := by
  simp [after, h]

/-! ## Results -/

/-- **A sequence came to a result** when its first action came to one from which the
second came to that result. -/
theorem bind_eq_ok {f : α → Act κ β} {y : β} :
    (a >>= f) w = .ok y w' ↔ ∃ x w₁, a w = .ok x w₁ ∧ f x w₁ = .ok y w' := by
  show EStateM.bind a f w = .ok y w' ↔ _
  cases hr : a w with
  | ok x w₁ => simp [EStateM.bind, hr]
  | error x w₁ => simp [EStateM.bind, hr]

/-- It goes on from the result of its first action. -/
theorem bind_of_ok {f : α → Act κ β} {x : α} (ha : a w = .ok x w') : (a >>= f) w = f x w' := by
  show EStateM.bind a f w = _
  rw [EStateM.bind, ha]

theorem pure_eq_ok {x y : α} : (Pure.pure x : Act κ α) w = .ok y w' ↔ x = y ∧ w = w' := by
  show (.ok x w : EStateM.Result Abort (World κ) α) = .ok y w' ↔ _
  simp

/-- An operation that cannot fail comes to what its action comes to. -/
theorem attempt_eq_ok {x : Except EngineError α} :
    (Act.attempt a).run w = .ok x w' ↔ ∃ y, a w = .ok y w' ∧ x = .ok y := by
  show (EStateM.map Except.ok a) w = .ok x w' ↔ _
  cases hr : a w with
  | ok y w₁ =>
    simp only [EStateM.map, hr, EStateM.Result.ok.injEq]
    constructor
    · rintro ⟨rfl, rfl⟩
      exact ⟨y, ⟨rfl, rfl⟩, rfl⟩
    · rintro ⟨y', ⟨rfl, rfl⟩, rfl⟩
      exact ⟨rfl, rfl⟩
  | error y w₁ => simp [EStateM.map, hr]

/-- **A sequence of operations failed** when its first operation did, or when it did
not and the second failed. -/
theorem andThen_eq_error {x : Attempt κ α} {f : α → Attempt κ β} {err : EngineError} :
    (x >>= f).run w = .ok (.error err) w' ↔
      x.run w = .ok (.error err) w'
        ∨ ∃ b w₁, x.run w = .ok (.ok b) w₁ ∧ (f b).run w₁ = .ok (.error err) w' := by
  show (x.run >>= ExceptT.bindCont f) w = .ok (.error err) w' ↔ _
  rw [bind_eq_ok]
  constructor
  · rintro ⟨r, w₁, hr, hf⟩
    cases r with
    | ok b => exact .inr ⟨b, w₁, hr, hf⟩
    | error err' =>
      obtain ⟨herr, rfl⟩ := pure_eq_ok.1 hf
      obtain rfl := Except.error.inj herr
      exact .inl hr
  · rintro (hr | ⟨b, w₁, hr, hf⟩)
    · exact ⟨_, _, hr, pure_eq_ok.2 ⟨rfl, rfl⟩⟩
    · exact ⟨_, _, hr, hf⟩

/-- **A sequence of operations succeeded** when both did. -/
theorem andThen_eq_ok {x : Attempt κ α} {f : α → Attempt κ β} {y : β} :
    (x >>= f).run w = .ok (.ok y) w' ↔
      ∃ b w₁, x.run w = .ok (.ok b) w₁ ∧ (f b).run w₁ = .ok (.ok y) w' := by
  show (x.run >>= ExceptT.bindCont f) w = .ok (.ok y) w' ↔ _
  rw [bind_eq_ok]
  constructor
  · rintro ⟨r, w₁, hr, hf⟩
    cases r with
    | ok b => exact ⟨b, w₁, hr, hf⟩
    | error err' => exact absurd (pure_eq_ok.1 hf).1 (by simp)
  · rintro ⟨b, w₁, hr, hf⟩
    exact ⟨_, _, hr, hf⟩

/-- **How a sequence of operations came to its result**: its first operation failed, or it did
not and the second came to that. -/
theorem andThen_cases {x : Attempt κ α} {f : α → Attempt κ β} {r : Except EngineError β}
    (h : (x >>= f).run w = .ok r w') :
    ∃ y w₁, x.run w = .ok y w₁ ∧ ((∃ err, y = .error err ∧ r = .error err ∧ w' = w₁)
      ∨ ∃ b, y = .ok b ∧ (f b).run w₁ = .ok r w') := by
  cases r with
  | ok c =>
    obtain ⟨b, w₁, hb, hc⟩ := andThen_eq_ok.1 h
    exact ⟨_, w₁, hb, .inr ⟨b, rfl, hc⟩⟩
  | error err =>
    rcases andThen_eq_error.1 h with herr | ⟨b, w₁, hb, hc⟩
    · exact ⟨_, w', herr, .inl ⟨err, rfl, rfl, rfl⟩⟩
    · exact ⟨_, w₁, hb, .inr ⟨b, rfl, hc⟩⟩

/-- What cannot fail does not, and a sequence goes on with what it came to. -/
theorem attempt_andThen {f : α → Attempt κ β} {r : Except EngineError β}
    (h : (Act.attempt a >>= f).run w = .ok r w') :
    ∃ x w₁, a w = .ok x w₁ ∧ (f x).run w₁ = .ok r w' := by
  obtain ⟨y, w₁, hy, hrest⟩ := andThen_cases h
  obtain ⟨x, hx, rfl⟩ := attempt_eq_ok.1 hy
  obtain ⟨_, herr, -⟩ | ⟨_, hok, hf⟩ := hrest
  · cases herr
  · cases hok
    exact ⟨x, w₁, hx, hf⟩

/-- An action and what follows it in any case came to a result when both did. -/
theorem ensuring_eq_ok {exit : Act κ Unit} {x : α} :
    Act.ensuring a exit w = .ok x w' ↔ ∃ w₁, a w = .ok x w₁ ∧ exit w₁ = .ok () w' := by
  cases hr : a w with
  | ok y w₁ =>
    cases he : exit w₁ with
    | ok u w₂ =>
      simp only [Act.ensuring, hr, he, EStateM.Result.ok.injEq]
      constructor
      · rintro ⟨rfl, rfl⟩
        exact ⟨w₁, ⟨rfl, rfl⟩, he⟩
      · rintro ⟨w₃, ⟨rfl, rfl⟩, h⟩
        obtain ⟨-, rfl⟩ : u = () ∧ w₂ = w' := by simpa [he] using h
        exact ⟨rfl, rfl⟩
    | error z w₂ =>
      simp only [Act.ensuring, hr, he, reduceCtorEq, false_iff]
      rintro ⟨w₃, h, h'⟩
      obtain ⟨-, rfl⟩ : y = x ∧ w₁ = w₃ := by simpa using h
      simp [he] at h'
  | error y w₁ =>
    simp only [Act.ensuring, hr, reduceCtorEq, false_and, exists_false, iff_false]
    split <;> simp

/-- An action in a changed world came to what it came to there. -/
theorem within_eq_ok {enter exit : World κ → World κ} {x : α} :
    Act.within enter exit a w = .ok x w' ↔ ∃ w₁, a (enter w) = .ok x w₁ ∧ exit w₁ = w' := by
  refine ensuring_eq_ok.trans (exists_congr fun w₁ => and_congr_right fun _ => ?_)
  simp [Act.update]

/-- An action with the lock held came to what it came to there. -/
theorem locked_eq_ok {x : α} :
    Act.locked e a w = .ok x w' ↔
      ∃ w₁, a (w.modifyEngine e fun s => { s with lock := s.lock.take }) = .ok x w₁
        ∧ (w₁.modifyEngine e fun s => { s with lock := s.lock.undo .level }) = w' :=
  within_eq_ok

/-- An action with values pinned came to what it came to there. -/
theorem pinning_eq_ok {vs : List Value} {x : α} :
    Act.pinning e vs a w = .ok x w' ↔
      ∃ w₁, a (w.push e vs) = .ok x w₁
        ∧ w₁.truncate e (w.engine e).roots.height = w' := by
  show Act.within (·.push e vs) (·.truncate e (w.engine e).roots.height) a w = .ok x w' ↔ _
  exact within_eq_ok

/-- An action with a share of a native came to a result when it did, and the share was let
go. -/
theorem sharing_eq_ok {m : Machine κ} {id : NativeId} {x : α} :
    m.sharing id a w = .ok x w' ↔
      ∃ w₁, a (w.modifyOwners id (· + 1)) = .ok x w₁ ∧ m.release id w₁ = .ok () w' :=
  ensuring_eq_ok

/-- After an operation that did not fail comes what follows it. -/
theorem andThen_of_ok {x : Attempt κ α} {f : α → Attempt κ β} {b : α}
    (hx : x.run w = .ok (.ok b) w') : (x >>= f).run w = (f b).run w' := by
  show EStateM.bind x.run (ExceptT.bindCont f) w = _
  rw [EStateM.bind, hx]
  rfl

/-- After an operation that was cut short comes nothing. -/
theorem andThen_of_cut {x : Attempt κ α} {f : α → Attempt κ β} {y : Abort}
    (hx : x.run w = .error y w') : (x >>= f).run w = .error y w' := by
  show EStateM.bind x.run (ExceptT.bindCont f) w = _
  rw [EStateM.bind, hx]

/-- What follows an action in any case depends on what the action came to only. -/
theorem ensuring_congr {exit : Act κ Unit} (ha : a w = a' w') :
    Act.ensuring a exit w = Act.ensuring a' exit w' := by
  simp only [Act.ensuring, ha]

/-- What is done with the lock held depends on what the action comes to there only. -/
theorem locked_congr
    (h : a (w.modifyEngine e fun s => { s with lock := s.lock.take })
      = a' (w.modifyEngine e fun s => { s with lock := s.lock.take })) :
    Act.locked e a w = Act.locked e a' w := by
  unfold Act.locked Act.within
  exact ensuring_congr h

/-- What is done with values pinned depends on what the action comes to there only. -/
theorem pinning_congr {vs : List Value} (h : a (w.push e vs) = a' (w.push e vs)) :
    Act.pinning e vs a w = Act.pinning e vs a' w := by
  unfold Act.pinning Act.within
  exact ensuring_congr h

/-- After an action that came to a result comes what follows it in any case. -/
theorem ensuring_of_ok {exit : Act κ Unit} {x : α} (ha : a w = .ok x w') :
    Act.ensuring a exit w = Act.ensuring (Pure.pure x) exit w' := by
  simp only [Act.ensuring, ha]
  rfl

/-! ## Worlds left behind -/

/-- What follows an action in any case starts where the action ended. -/
theorem after_ensuring (a : Act κ α) (exit : Act κ Unit) (w : World κ) :
    (Act.ensuring a exit).after w = exit.after (a.after w) := by
  cases hr : a w with
  | ok x w' =>
    cases he : exit w' with
    | ok u w'' => simp [after, Act.ensuring, hr, he]
    | error y w'' => simp [after, Act.ensuring, hr, he]
  | error x w' =>
    cases he : exit w' with
    | ok u w'' => simp [after, Act.ensuring, hr, he]
    | error y w'' => simp [after, Act.ensuring, hr, he]

/-- The world after an action in a changed world is changed back. -/
theorem after_within (enter exit : World κ → World κ) (a : Act κ α) (w : World κ) :
    (within enter exit a).after w = exit (a.after (enter w)) := by
  simp only [after, within, Act.ensuring, Act.update]
  cases a (enter w) <;> rfl

/-! ## The heap -/

/-- The heap can only be changed while nobody has it. -/
theorem loan_of_writeHeap {f : Heap → α × Heap} {x : α}
    (h : Act.writeHeap e f w = .ok x w') : (w.engine e).loan = .none := by
  cases hl : (w.engine e).loan.allowsWrite with
  | true => simpa [Loan.allowsWrite] using hl
  | false => simp [Act.writeHeap, hl] at h

/-- A heap that was changed was changed where it is. -/
theorem eq_of_writeHeap {f : Heap → α × Heap} {x : α} (h : Act.writeHeap e f w = .ok x w') :
    x = (f (w.engine e).heap).1
      ∧ w' = w.modifyEngine e fun s => { s with heap := (f (w.engine e).heap).2 } := by
  have hl : (w.engine e).loan.allowsWrite = true := by
    simp [Loan.allowsWrite, loan_of_writeHeap h]
  rw [writeHeap_of_allowsWrite hl, EStateM.Result.ok.injEq] at h
  exact ⟨h.1.symm, h.2.symm⟩

/-- A heap that is lent out cannot be changed. -/
theorem writeHeap_of_lent (hl : (w.engine e).loan.allowsWrite = false) (f : Heap → α × Heap) :
    Act.writeHeap e f w = .error (.panicked .heapLent) w := by
  simp [Act.writeHeap, hl]

/-- **Storing changes the heap where it is**, with what was stale on record. -/
theorem storeHeap_of_allowsWrite (hl : (w.engine e).loan.allowsWrite = true) (vs : List Value)
    (stored : α → Bool) (f : Heap → α × Heap) :
    Act.storeHeap e vs stored f w =
      .ok (f (w.engine e).heap).1
        ((w.recordStale e (if stored (f (w.engine e).heap).1 then
            ((w.engine e).heap.staleAmong vs).1 else [])).modifyEngine e fun s =>
          { s with heap := (f (w.engine e).heap).2 }) := by
  refine bind_eq_ok.2 ⟨_, _, writeHeap_of_allowsWrite hl _, ?_⟩
  rw [← World.recordStale_modifyEngine]
  rfl

/-- A heap that is lent out cannot be stored into. -/
theorem storeHeap_of_lent (hl : (w.engine e).loan.allowsWrite = false) (vs : List Value)
    (stored : α → Bool) (f : Heap → α × Heap) :
    Act.storeHeap e vs stored f w = .error (.panicked .heapLent) w := by
  show EStateM.bind _ _ w = _
  simp only [EStateM.bind, writeHeap_of_lent hl]

/-- A heap that was stored into was changed where it is, and nothing stale is on record if
nothing was put there. -/
theorem eq_of_storeHeap {vs : List Value} {stored : α → Bool} {f : Heap → α × Heap} {x : α}
    (h : Act.storeHeap e vs stored f w = .ok x w') :
    (w.engine e).loan = .none ∧ x = (f (w.engine e).heap).1 ∧ (stored x = false →
      w' = w.modifyEngine e fun s => { s with heap := (f (w.engine e).heap).2 }) := by
  cases hl : (w.engine e).loan.allowsWrite with
  | true =>
    rw [storeHeap_of_allowsWrite hl, EStateM.Result.ok.injEq] at h
    obtain ⟨rfl, rfl⟩ := h
    refine ⟨by simpa [Loan.allowsWrite] using hl, rfl, fun hnot => ?_⟩
    rw [hnot]
    rfl
  | false =>
    rw [storeHeap_of_lent hl] at h
    cases h

/-- **What is current is stored without further ado.** -/
theorem storeHeap_of_isCurrent {vs : List Value} {stored : α → Bool} {f : Heap → α × Heap}
    (hv : stored (f (w.engine e).heap).1 = true →
      ∀ v ∈ vs, (w.engine e).heap.isCurrent v = true) :
    Act.storeHeap e vs stored f w = Act.writeHeap e f w := by
  cases hl : (w.engine e).loan.allowsWrite with
  | true =>
    have hnil : (if stored (f (w.engine e).heap).1 then
        ((w.engine e).heap.staleAmong vs).1 else []) = [] := by
      split
      case isTrue hs => exact Heap.staleAmong_eq_nil_iff.2 (hv hs)
      case isFalse => rfl
    rw [storeHeap_of_allowsWrite hl, writeHeap_of_allowsWrite hl, hnil]
    rfl
  | false => rw [storeHeap_of_lent hl, writeHeap_of_lent hl]

/-- A heap that is not lent to a writer can be read. -/
theorem readHeap_of_allowsRead (hl : (w.engine e).loan.allowsRead = true) (f : Heap → α) :
    Act.readHeap e f w = .ok (f (w.engine e).heap) w := by
  unfold Act.readHeap
  rw [if_pos hl]

/-- A heap that is lent to a writer cannot. -/
theorem readHeap_of_lent (hl : (w.engine e).loan.allowsRead = false) (f : Heap → α) :
    Act.readHeap e f w = .error (.panicked .heapLent) w := by
  unfold Act.readHeap
  rw [hl]
  rfl

/-- What is read off the heap is read off the heap as it is. -/
theorem eq_of_readHeap {f : Heap → α} {x : α} (h : Act.readHeap e f w = .ok x w') :
    x = f (w.engine e).heap ∧ w' = w := by
  cases hl : (w.engine e).loan.allowsRead with
  | true =>
    obtain ⟨rfl, rfl⟩ : f (w.engine e).heap = x ∧ w = w' := by simpa [Act.readHeap, hl] using h
    exact ⟨rfl, rfl⟩
  | false => simp [Act.readHeap, hl] at h

end Act

namespace Machine

variable {w : World κ} {id : NativeId}

/-! ## Shares that are let go -/

/-- A native that is not there is left alone. -/
theorem release_of_none (m : Machine κ) (hn : w.natives[id.index]? = none) :
    m.release id w = .ok () w := by
  unfold release
  rw [hn]

/-- **Who lets go last finalises the native.** -/
theorem release_of_last (m : Machine κ) {n : Native κ}
    (hn : w.natives[id.index]? = some ⟨n, 1⟩) :
    m.release id w = m.finalise n ((w.modifyOwners id (· - 1)).record
      (.finalised id (w.modifyOwners id (· - 1)).postures)) := by
  unfold release
  rw [hn]
  exact if_pos rfl

/-- Nobody else finalises it. -/
theorem release_of_ne_one (m : Machine κ) {n : Native κ} {k : Nat}
    (hn : w.natives[id.index]? = some ⟨n, k⟩) (hk : k ≠ 1) :
    m.release id w = .ok () (w.modifyOwners id (· - 1)) := by
  unfold release
  rw [hn]
  exact if_neg hk

/-- A share that is not the last is let go without further ado. -/
theorem release_of_lt_owners (m : Machine κ) (ho : 1 < w.owners id) :
    m.release id w = .ok () (w.modifyOwners id (· - 1)) := by
  unfold World.owners at ho
  cases hn : w.natives[id.index]? with
  | none =>
    rw [hn] at ho
    exact absurd ho (Nat.not_lt_zero 1)
  | some entry =>
    rw [hn] at ho
    exact release_of_ne_one m hn (Nat.ne_of_gt ho)

end Machine

end EmbeddedScript
