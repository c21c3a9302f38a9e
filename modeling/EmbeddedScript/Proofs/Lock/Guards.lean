import EmbeddedScript.Lock
import Mathlib.Algebra.Order.BigOperators.Group.List
import Mathlib.Algebra.Order.Ring.Nat

/-!
# Guards in any order

Guards are ordinary values: nothing makes their holder drop them in the order
opposite to the one they were taken in. Here a lock is followed through turns
that take guards and drop them at any place of the list of those alive.

What the turns conserve is a sum. Each level alive stands for one unit, and a
unit is in one of three places: in the depth, in the depth that a release alive
will restore, or lost. Units are lost only when a release is dropped while the
lock is held, because it then writes over a depth that was taken in between.
So the depth falls short of the levels alive by what was lost, and it never
exceeds them. Nor does a depth that a release alive will restore, so that none of
them outgrows a word that can count the levels.
-/

namespace EmbeddedScript

/-- **A lock with the guards that are alive**, the latest first. -/
structure Guarded where
  /-- The lock. -/
  lock : Lock := {}
  /-- The guards that are alive. -/
  alive : List Guard := []
deriving DecidableEq

/-- **One use of a lock with its guards.** -/
inductive Turn where
  /-- A level is taken. -/
  | take
  /-- Every level is released. -/
  | dropAll
  /-- The guard at a place among those alive is dropped. -/
  | drop (place : Nat)
deriving DecidableEq

namespace Guarded

variable {s : Guarded} {t : Turn}

/-- The guard that a turn drops. -/
def dropped? (s : Guarded) : Turn → Option Guard
  | .drop i => s.alive[i]?
  | _ => none

/-- The lock and the guards alive after a turn. -/
def turn (s : Guarded) : Turn → Guarded
  | .take => ⟨s.lock.take, .level :: s.alive⟩
  | .dropAll => ⟨s.lock.dropAll, .release s.lock.depth :: s.alive⟩
  | .drop i => ⟨(s.alive[i]?.map s.lock.undo).getD s.lock, s.alive.eraseIdx i⟩

/-- The lock and the guards alive after some turns. -/
def run (s : Guarded) (ts : List Turn) : Guarded := ts.foldl turn s

/-- Every turn of a list is one that `P` allows in the state it is made in. -/
def Always (P : Guarded → Turn → Prop) (s : Guarded) : List Turn → Prop
  | [] => True
  | t :: ts => P s t ∧ Always P (s.turn t) ts

/-- How many of some guards are levels. -/
def levels (gs : List Guard) : Nat := gs.countP (· = .level)

/-- The depths that the releases among some guards will restore. -/
def saved (gs : List Guard) : List Nat := gs.filterMap Guard.saved?

/-- **A turn is fair** if it drops no level of a lock that is not held. -/
def Fair (s : Guarded) (t : Turn) : Prop := s.dropped? t = some .level → s.lock.isHeld

/-- **A turn has unwound** if it drops no release of a lock that was taken again. -/
def Unwound (s : Guarded) (t : Turn) : Prop :=
  ∀ depth, s.dropped? t = some (.release depth) → s.lock.isHeld = false

instance : Decidable (s.Fair t) := inferInstanceAs (Decidable (_ → _))

instance instDecidableAlways {P : Guarded → Turn → Prop} [∀ s t, Decidable (P s t)] :
    ∀ (s : Guarded) (ts : List Turn), Decidable (s.Always P ts)
  | _, [] => inferInstanceAs (Decidable True)
  | s, t :: ts =>
    have : Decidable (Always P (s.turn t) ts) := instDecidableAlways (s.turn t) ts
    inferInstanceAs (Decidable (P s t ∧ Always P (s.turn t) ts))

/-! ## What a turn loses -/

/-- The depth that a turn writes over. -/
def forfeits (s : Guarded) (t : Turn) : Nat :=
  match s.dropped? t with
  | some (.release _) => s.lock.depth
  | _ => 0

/-- The depths that some turns write over, all together. -/
def forfeited (s : Guarded) : List Turn → Nat
  | [] => 0
  | t :: ts => s.forfeits t + (s.turn t).forfeited ts

theorem forfeits_eq_zero : s.forfeits t = 0 ↔ s.Unwound t := by
  unfold forfeits Unwound
  split
  case h_1 depth h =>
    simp [h, Lock.isHeld]
  case h_2 h =>
    exact ⟨fun _ depth hd => (h depth hd).elim, fun _ => rfl⟩

instance : Decidable (s.Unwound t) := decidable_of_iff _ forfeits_eq_zero

theorem forfeited_eq_zero {ts : List Turn} : s.forfeited ts = 0 ↔ s.Always Unwound ts := by
  induction ts generalizing s with
  | nil => simp [forfeited, Always]
  | cons t ts ih => rw [forfeited, Nat.add_eq_zero_iff, forfeits_eq_zero, ih, Always]

/-! ## The guards alive, up to their order

Neither the levels nor what is saved depends on the order of the guards, so the guard that
a turn drops may as well have been the latest. -/

@[simp] theorem levels_level (gs : List Guard) : levels (.level :: gs) = levels gs + 1 := by
  simp [levels]

@[simp] theorem levels_release (depth : Nat) (gs : List Guard) :
    levels (.release depth :: gs) = levels gs := by
  simp [levels]

@[simp] theorem saved_level (gs : List Guard) : saved (.level :: gs) = saved gs := rfl

@[simp] theorem saved_release (depth : Nat) (gs : List Guard) :
    saved (.release depth :: gs) = depth :: saved gs :=
  rfl

theorem saved_eq_nil {gs : List Guard} : saved gs = [] ↔ ∀ depth, .release depth ∉ gs := by
  rw [saved, List.filterMap_eq_nil_iff]
  constructor
  · intro h depth mem
    exact Option.some_ne_none _ (h _ mem)
  · intro h g mem
    cases g with
    | level => rfl
    | release depth => exact (h depth mem).elim

theorem levels_eq_of_perm {gs gs' : List Guard} (h : gs.Perm gs') : levels gs = levels gs' :=
  h.countP_eq _

theorem sum_saved_eq_of_perm {gs gs' : List Guard} (h : gs.Perm gs') :
    (saved gs).sum = (saved gs').sum :=
  (h.filterMap _).sum_eq

theorem alive_perm {i : Nat} {g : Guard} (h : s.alive[i]? = some g) :
    s.alive.Perm (g :: s.alive.eraseIdx i) := by
  obtain ⟨lt, rfl⟩ := List.getElem?_eq_some_iff.mp h
  exact (List.getElem_cons_eraseIdx_perm lt).symm

/-! ## The sum that is conserved -/

/-- **Every level alive is accounted for** in the depth, in what the releases alive will
restore, or among `lost` units. -/
def Accounted (s : Guarded) (lost : Nat) : Prop :=
  levels s.alive = s.lock.depth + (saved s.alive).sum + lost

variable {lost : Nat}

theorem Accounted.take (h : s.Accounted lost) : (s.turn .take).Accounted lost := by
  unfold Accounted at h ⊢
  simp only [turn, Lock.take, levels_level, saved_level]
  omega

theorem Accounted.dropAll (h : s.Accounted lost) : (s.turn .dropAll).Accounted lost := by
  unfold Accounted at h ⊢
  simp only [turn, Lock.dropAll, levels_release, saved_release, List.sum_cons]
  omega

theorem Accounted.drop {i : Nat} (h : s.Accounted lost) (fair : s.Fair (.drop i)) :
    (s.turn (.drop i)).Accounted (lost + s.forfeits (.drop i)) := by
  unfold Accounted at h ⊢
  cases hg : s.alive[i]? with
  | none =>
    have same : s.alive.eraseIdx i = s.alive :=
      List.eraseIdx_of_length_le (List.getElem?_eq_none_iff.mp hg)
    simpa [turn, hg, same, forfeits, dropped?] using h
  | some g =>
    rw [levels_eq_of_perm (alive_perm hg), sum_saved_eq_of_perm (alive_perm hg)] at h
    simp only [turn, forfeits, dropped?, hg, Option.map_some, Option.getD_some]
    cases g with
    | level =>
      -- the level takes one unit of the depth with it: there is one, by fairness
      have held : 0 < s.lock.depth := by simpa [Lock.isHeld] using fair hg
      rw [levels_level, saved_level] at h
      simp only [Lock.undo]
      omega
    | release depth =>
      rw [levels_release, saved_release, List.sum_cons] at h
      simp only [Lock.undo]
      omega

theorem Accounted.turn (h : s.Accounted lost) (fair : s.Fair t) :
    (s.turn t).Accounted (lost + s.forfeits t) := by
  cases t with
  | take => exact h.take
  | dropAll => exact h.dropAll
  | drop i => exact h.drop fair

theorem Accounted.run {ts : List Turn} (h : s.Accounted lost) (fair : s.Always Fair ts) :
    (s.run ts).Accounted (lost + s.forfeited ts) := by
  induction ts generalizing s lost with
  | nil => exact h
  | cons t ts ih =>
    have rest : ((s.turn t).run ts).Accounted (lost + s.forfeits t + (s.turn t).forfeited ts) :=
      ih (h.turn fair.1) fair.2
    rwa [Nat.add_assoc] at rest

/-- **Whatever fair turns are taken, every level alive is accounted for**; the units that
are lost are those that the turns wrote over. -/
theorem accounted_run (ts : List Turn) (fair : Always Fair {} ts) :
    (run {} ts).Accounted (forfeited {} ts) := by
  have start : Accounted {} 0 := rfl
  have sum : (run {} ts).Accounted (0 + forfeited {} ts) := start.run fair
  rwa [Nat.zero_add] at sum

/-! ## Depth and levels -/

/-- The lock is never deeper than there are levels alive. -/
theorem Accounted.depth_le (h : s.Accounted lost) : s.lock.depth ≤ levels s.alive := by
  unfold Accounted at h
  omega

/-- No release alive will restore more than there are levels alive. -/
theorem Accounted.saved_le {depth : Nat} (h : s.Accounted lost)
    (mem : .release depth ∈ s.alive) : depth ≤ levels s.alive := by
  have restored : depth ∈ saved s.alive := List.mem_filterMap.mpr ⟨_, mem, rfl⟩
  have part : depth ≤ (saved s.alive).sum := List.le_sum_of_mem restored
  unfold Accounted at h
  omega

/-- **No depth overflows a word that counts the levels.** While fewer than `2 ^ 32` levels
are alive, a word of 32 bits holds the depth of the lock and every depth that a release
alive will restore. -/
theorem depths_lt_of_levels_lt (ts : List Turn) (fair : Always Fair {} ts)
    (few : levels (run {} ts).alive < 2 ^ 32) :
    (run {} ts).lock.depth < 2 ^ 32
      ∧ ∀ depth, .release depth ∈ (run {} ts).alive → depth < 2 ^ 32 := by
  have sum := accounted_run ts fair
  exact ⟨Nat.lt_of_le_of_lt sum.depth_le few,
    fun _ mem => Nat.lt_of_le_of_lt (sum.saved_le mem) few⟩

/-- **The depth counts the levels alive exactly if every release had unwound.** Guards are
taken and dropped in any order, but no level is dropped while the lock is not held. Then
the lock never has more depth than there are levels alive, so that it is never held
without a holder. Where no release is alive the depth is the number of levels alive if and
only if no release was dropped while the lock was held; and then the lock is held
exactly if it has a holder. -/
theorem depth_eq_levels_iff (ts : List Turn) (fair : Always Fair {} ts) :
    (run {} ts).lock.depth ≤ levels (run {} ts).alive
      ∧ ((run {} ts).lock.isHeld → 0 < levels (run {} ts).alive)
      ∧ ((∀ depth, .release depth ∉ (run {} ts).alive) →
          ((run {} ts).lock.depth = levels (run {} ts).alive ↔ Always Unwound {} ts)
            ∧ (Always Unwound {} ts →
                ((run {} ts).lock.isHeld ↔ 0 < levels (run {} ts).alive))) := by
  have sum := accounted_run ts fair
  have held : (run {} ts).lock.isHeld ↔ 0 < (run {} ts).lock.depth := by simp [Lock.isHeld]
  refine ⟨sum.depth_le, fun h => Nat.lt_of_lt_of_le (held.mp h) sum.depth_le, fun none => ?_⟩
  · unfold Accounted at sum
    rw [saved_eq_nil.mpr none, List.sum_nil] at sum
    have exact : (run {} ts).lock.depth = levels (run {} ts).alive ↔ Always Unwound {} ts := by
      rw [← forfeited_eq_zero]
      omega
    refine ⟨exact, fun unwound => ?_⟩
    rw [held, exact.mpr unwound]

/-- A level taken while the lock is released may outlive the one it was taken over, and
the release between them. -/
theorem depth_eq_levels_of_exchange :
    (run {} [.take, .dropAll, .take, .drop 2, .drop 1]).lock.depth = 1
      ∧ levels (run {} [.take, .dropAll, .take, .drop 2, .drop 1]).alive = 1 := by
  have exact := ((depth_eq_levels_iff [.take, .dropAll, .take, .drop 2, .drop 1]
    (by decide)).2.2 (saved_eq_nil.mp (by decide))).1.mpr (by decide)
  exact ⟨rfl, exact.symm⟩

/-- A release that is dropped under a level taken in the meantime leaves the lock free,
although the level is alive. -/
theorem free_of_retaken :
    Always Fair {} [.dropAll, .take, .drop 1]
      ∧ (run {} [.dropAll, .take, .drop 1]).alive = [.level]
      ∧ (run {} [.dropAll, .take, .drop 1]).lock.depth = 0 := by
  decide

end Guarded

end EmbeddedScript
