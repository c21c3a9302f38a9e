import Mathlib.Data.List.Count
import EmbeddedScript.Proofs.World.Step

/-!
# The accounts of the persistent roots

Of every handle four numbers are kept apart: how often it is in the table of
persistent roots, how many live roots hold it, and how often native code protected it
without a root or took such a protection away. **They balance**
(`World.Reachable.balanced`): the table has the roots and the protections, less what
was taken away.

Taking away what was never given would let the table forget a root. So the balance is
that of handles for which the ends of protections never outnumbered the protections
(`World.Matched`).

Live roots are told apart by their serial numbers, which are never used again: a root
that was dropped does not come back (`World.Step.mem_roots_of_mem`).
-/

namespace EmbeddedScript.World

variable {κ : Type} {w w' : World κ} {e : EngineId} {h : Handle}

/-! ## The numbers -/

/-- The number of live roots that hold the handle. -/
def holders (w : World κ) (e : EngineId) (h : Handle) : Nat :=
  w.roots.countP fun r => r.engine = e ∧ r.value = .object h

/-- How often the handle was protected without a root. -/
def pins (w : World κ) (e : EngineId) (h : Handle) : Nat :=
  w.journal.count (.pinned e (.object h))

/-- How often such a protection was taken away. -/
def unpins (w : World κ) (e : EngineId) (h : Handle) : Nat :=
  w.journal.count (.unpinned e (.object h))

/-- **No protection was taken away that was not there**: at no time had more been
taken away than given. -/
def Matched (w : World κ) (e : EngineId) (h : Handle) : Prop :=
  ∀ past, past <:+ w.journal →
    past.count (.unpinned e (.object h)) ≤ past.count (.pinned e (.object h))

/-- **The table of persistent roots balances** for a handle. -/
def Balanced (w : World κ) (e : EngineId) (h : Handle) : Prop :=
  (w.engine e).roots.protectCount (.object h) + w.unpins e h = w.holders e h + w.pins e h

/-- In a matched world no more is taken away than was given. -/
theorem Matched.unpins_le (hm : w.Matched e h) : w.unpins e h ≤ w.pins e h :=
  hm w.journal (List.suffix_refl _)

/-- What is matched was matched before. -/
theorem Matched.of_suffix (hm : w'.Matched e h) (hs : w.journal <:+ w'.journal) :
    w.Matched e h :=
  fun past hp => hm past (hp.trans hs)

/-! ## The table -/

/-- A persistent root more counts for its handle only. -/
theorem protectCount_protect (r : RootSet) (v : Value) (h : Handle) :
    (r.protect v).protectCount (.object h)
      = r.protectCount (.object h) + if v = .object h then 1 else 0 := by
  cases v with
  | object k =>
    by_cases hk : k = h
    · simp [RootSet.protect, RootSet.protectCount, hk]
    · simp [RootSet.protect, RootSet.protectCount, hk]
  | _ => simp [RootSet.protect, RootSet.protectCount, Value.handle?]

/-- A persistent root fewer counts for its handle only. -/
theorem protectCount_unprotect (r : RootSet) (v : Value) (h : Handle) :
    (r.unprotect v).protectCount (.object h)
      = r.protectCount (.object h) - if v = .object h then 1 else 0 := by
  cases v with
  | object k =>
    by_cases hk : k = h
    · simp [RootSet.unprotect, RootSet.protectCount, hk]
    · simp [RootSet.unprotect, RootSet.protectCount, hk, List.count_erase]
  | _ => simp [RootSet.unprotect, RootSet.protectCount, Value.handle?]

/-- A live root more counts for what it holds only. -/
theorem holders_addRoot (w : World κ) (e' : EngineId) (v : Value) (e : EngineId) (h : Handle) :
    (w.addRoot e' v).2.holders e h
      = w.holders e h + if e' = e ∧ v = .object h then 1 else 0 := by
  simp [holders, addRoot, List.countP_cons]

/-- A live root fewer counts for what it held only. -/
theorem holders_dropRoot (w : World κ) (r : Root) (e : EngineId) (h : Handle) :
    (w.dropRoot r).holders e h
      = w.holders e h - if r ∈ w.roots ∧ r.engine = e ∧ r.value = .object h then 1 else 0 := by
  unfold dropRoot
  split
  case isTrue hr => simp [holders, List.countP_erase, hr]
  case isFalse hr => simp [hr]

/-- A dropped root shows in the journal as nothing. -/
@[simp] theorem journal_dropRoot (w : World κ) (r : Root) :
    (w.dropRoot r).journal = w.journal := by
  unfold dropRoot
  split <;> rfl

/-! ## The balance -/

/-- Worlds with the same numbers balance alike. -/
theorem Balanced.congr (hb : w.Balanced e h)
    (hc : (w'.engine e).roots.protectCount (.object h)
      = (w.engine e).roots.protectCount (.object h))
    (hr : w'.roots = w.roots) (hj : w'.journal = w.journal) : w'.Balanced e h := by
  unfold Balanced at hb ⊢
  rw [hc, unpins, hj, holders, hr, pins, hj]
  exact hb

/-- What goes on record besides protections is not counted among them. -/
theorem count_record (w : World κ) {event : Event} (hn : event.IsNoPin) (ev : Event)
    (hev : ¬ ev.IsNoPin) : (w.record event).journal.count ev = w.journal.count ev := by
  have hne : ¬ event = ev := fun h => hev (h ▸ hn)
  simp [record, hne]

theorem Balanced.record (hb : w.Balanced e h) {event : Event} (hn : event.IsNoPin) :
    (w.record event).Balanced e h := by
  have hunpins : (w.record event).unpins e h = w.unpins e h := count_record w hn _ not_false
  have hpins : (w.record event).pins e h = w.pins e h := count_record w hn _ not_false
  have hroots : (w.record event).holders e h = w.holders e h := rfl
  unfold Balanced at hb ⊢
  rw [engine_record, hunpins, hpins, hroots]
  exact hb

/-- A new root is one holder more, and one entry more in the table. -/
theorem Balanced.addRoot (hb : w.Balanced e h) (e' : EngineId) (v : Value) :
    (w.addRoot e' v).2.Balanced e h := by
  have hj : (w.addRoot e' v).2.journal = w.journal := rfl
  unfold Balanced at hb ⊢
  rw [engine_addRoot, holders_addRoot, unpins, pins, hj, ← unpins, ← pins]
  by_cases he : e' = e
  · subst he
    simp only [if_true, true_and, protectCount_protect]
    omega
  · simpa [he] using hb

/-- A root that is dropped is one holder fewer, and one entry fewer in the table. -/
theorem Balanced.dropRoot (hb : w.Balanced e h) (hle : w.unpins e h ≤ w.pins e h) (r : Root) :
    (w.dropRoot r).Balanced e h := by
  unfold Balanced at hb ⊢
  rw [engine_dropRoot, holders_dropRoot, unpins, pins, journal_dropRoot, ← unpins, ← pins]
  by_cases hr : r ∈ w.roots ∧ r.engine = e
  · obtain ⟨hr, rfl⟩ := hr
    by_cases hv : r.value = .object h
    · -- the root counts among the holders, so the table has something to give
      have hpos : 0 < w.holders r.engine h :=
        List.countP_pos_iff.2 ⟨r, hr, by simp [hv]⟩
      simp only [hr, hv, and_self, if_true, protectCount_unprotect]
      omega
    · simpa [hr, hv, protectCount_unprotect] using hb
  · have hn : ¬ (r ∈ w.roots ∧ r.engine = e ∧ r.value = .object h) := fun hc =>
      hr ⟨hc.1, hc.2.1⟩
    simpa [hr, hn] using hb

/-- A protection is one entry more in the table. -/
theorem Balanced.protect (hb : w.Balanced e h) (e' : EngineId) (v : Value) :
    (w.protect e' v).Balanced e h := by
  have hroots : (w.protect e' v).holders e h = w.holders e h := rfl
  have hunpins : (w.protect e' v).unpins e h = w.unpins e h := by
    simp [unpins, World.protect, World.record]
  have hpins : (w.protect e' v).pins e h
      = w.pins e h + if e' = e ∧ v = .object h then 1 else 0 := by
    simp [pins, World.protect, World.record, List.count_cons]
  unfold Balanced at hb ⊢
  rw [hroots, hunpins, hpins, World.protect, engine_record, engine_modifyEngine]
  by_cases he : e' = e
  · subst he
    simp only [if_true, true_and, protectCount_protect]
    omega
  · simpa [he] using hb

/-- **The end of a protection is one entry fewer**, which the table has if it was
protected. -/
theorem Balanced.unprotect (hb : w.Balanced e h) (e' : EngineId) (v : Value)
    (hle : (w.unprotect e' v).unpins e h ≤ (w.unprotect e' v).pins e h) :
    (w.unprotect e' v).Balanced e h := by
  have hroots : (w.unprotect e' v).holders e h = w.holders e h := rfl
  have hunpins : (w.unprotect e' v).unpins e h
      = w.unpins e h + if e' = e ∧ v = .object h then 1 else 0 := by
    simp [unpins, World.unprotect, World.record, List.count_cons]
  have hpins : (w.unprotect e' v).pins e h = w.pins e h := by
    simp [pins, World.unprotect, World.record]
  rw [hunpins, hpins] at hle
  unfold Balanced at hb ⊢
  rw [hroots, hunpins, hpins, World.unprotect, engine_record, engine_modifyEngine]
  by_cases he : e' = e
  · subst he
    by_cases hv : v = .object h
    · simp only [hv, and_self, if_true, protectCount_unprotect] at hle ⊢
      omega
    · simpa [hv, protectCount_unprotect] using hb
  · simpa [he] using hb

/-- **A move keeps the balance**, as long as it takes no protection away that was not
there. -/
theorem Move.balanced {collects : Prop} (hv : Move collects w w') (hm : w'.Matched e h)
    (hb : w.Balanced e h) : w'.Balanced e h := by
  cases hv with
  | tended e' f hf =>
    refine hb.congr ?_ rfl rfl
    rw [engine_modifyEngine]
    split
    case isTrue he => rw [hf.roots, he]
    case isFalse => rfl
  | opened options =>
    refine hb.congr ?_ rfl rfl
    rw [engine_addEngine]
    split
    case isTrue he => simp [World.engine, he]; rfl
    case isFalse => rfl
  | rooted e' v => exact hb.addRoot e' v
  | unrooted r => exact hb.dropRoot (hm.of_suffix (w := w) (by simp)).unpins_le r
  | pinned e' v => exact hb.protect e' v
  | unpinned e' v => exact hb.unprotect e' v hm.unpins_le
  | recorded hn => exact hb.record hn
  | aside ha =>
    refine hb.congr ?_ ha.roots ha.journal
    rw [World.engine, ha.engines, ← World.engine]

/-- A step puts on record what it puts on record. -/
theorem Step.journal_suffix (hs : Step w w') : w.journal <:+ w'.journal := by
  cases hs with
  | move hm =>
    cases hm with
    | pinned e v => exact List.suffix_cons _ _
    | unpinned e v => exact List.suffix_cons _ _
    | recorded hn => exact List.suffix_cons _ _
    | unrooted r => simp [journal_dropRoot]
    | aside ha => simp [ha.journal]
    | _ => exact List.suffix_refl _
  | _ => exact List.suffix_refl _

/-- A run of steps forgets nothing. -/
theorem journal_suffix_of_reaches (hr : Reaches w w') : w.journal <:+ w'.journal := by
  induction hr with
  | refl => exact List.suffix_refl _
  | tail _ hs ih => exact ih.trans hs.journal_suffix

/-- A step keeps the balance. -/
theorem Step.balanced (hs : Step w w') (hm : w'.Matched e h) (hb : w.Balanced e h) :
    w'.Balanced e h := by
  cases hs with
  | move hv => exact hv.balanced hm hb
  | pushed e' vs => exact hb.congr (rel_modifyEngine (R := fun s s' =>
      s'.roots.protectCount (.object h) = s.roots.protectCount (.object h))
      (fun _ => rfl) rfl e) rfl rfl
  | truncated e' height => exact hb.congr (rel_modifyEngine (R := fun s s' =>
      s'.roots.protectCount (.object h) = s.roots.protectCount (.object h))
      (fun _ => rfl) rfl e) rfl rfl
  | lent e' loan =>
    refine hb.congr ?_ rfl rfl
    rw [roots_lend]

/-- **The table of persistent roots balances in every world that can come about**: it
has a handle as often as live roots hold it and protections of it were not taken away. -/
theorem Reachable.balanced (hw : w.Reachable) (hm : w.Matched e h) : w.Balanced e h := by
  induction hw with
  | refl =>
    have he : ({} : World κ).engine e = default := by
      obtain ⟨i⟩ := e
      cases i <;> simp [World.engine]
    unfold Balanced
    rw [he]
    rfl
  | tail _ hs ih => exact hs.balanced hm (ih (hm.of_suffix hs.journal_suffix))

/-- **What a live root holds is in the table.** -/
theorem Reachable.mem_handles (hw : w.Reachable) (hm : w.Matched e h) {r : Root}
    (hr : r ∈ w.roots) (he : r.engine = e) (hv : r.value = .object h) :
    h ∈ (w.engine e).roots.handles := by
  have hb := hw.balanced hm
  have hle := hm.unpins_le
  have hpos : 0 < w.holders e h := List.countP_pos_iff.2 ⟨r, hr, by simp [he, hv]⟩
  unfold Balanced at hb
  have hcount : 0 < (w.engine e).roots.protectCount (.object h) := by omega
  exact RootSet.mem_handles.2 (.inl (List.count_pos_iff.1 hcount))

/-! ## Roots do not come back -/

/-- **Live roots are told apart** by serial numbers that were given out. -/
structure Numbered (w : World κ) : Prop where
  /-- No root is live twice. -/
  nodup : w.roots.Nodup
  /-- The numbers of live roots were given out. -/
  lt : ∀ r ∈ w.roots, r.serial < w.rootsMade

/-- **A step makes a root, drops one, or leaves them as they are.** -/
theorem Step.roots (hs : Step w w') :
    (w'.roots = w.roots ∧ w'.rootsMade = w.rootsMade)
      ∨ (∃ r : Root, r.serial = w.rootsMade ∧ w'.roots = r :: w.roots
          ∧ w'.rootsMade = w.rootsMade + 1)
      ∨ ∃ r ∈ w.roots, w'.roots = w.roots.erase r ∧ w'.rootsMade = w.rootsMade := by
  cases hs with
  | move hm =>
    cases hm with
    | rooted e v => exact .inr (.inl ⟨⟨w.rootsMade, e, v⟩, rfl, rfl, rfl⟩)
    | unrooted r =>
      unfold dropRoot
      split
      case isTrue hr => exact .inr (.inr ⟨r, hr, rfl, rfl⟩)
      case isFalse => exact .inl ⟨rfl, rfl⟩
    | aside ha => exact .inl ⟨ha.roots, ha.rootsMade⟩
    | _ => exact .inl ⟨rfl, rfl⟩
  | _ => exact .inl ⟨rfl, rfl⟩

/-- A step keeps the roots told apart. -/
theorem Numbered.step (hn : w.Numbered) (hs : Step w w') : w'.Numbered := by
  rcases hs.roots with ⟨hr, hm⟩ | ⟨r, hserial, hr, hm⟩ | ⟨r, hmem, hr, hm⟩
  · exact ⟨hr ▸ hn.nodup, fun s hs => hm ▸ hn.lt s (hr ▸ hs)⟩
  · refine ⟨?_, fun s hs => ?_⟩
    · rw [hr, List.nodup_cons]
      exact ⟨fun hmem => absurd (hn.lt r hmem) (by omega), hn.nodup⟩
    · rw [hm]
      rcases List.mem_cons.1 (hr ▸ hs) with rfl | hs
      · omega
      · exact Nat.lt_succ_of_lt (hn.lt s hs)
  · exact ⟨hr ▸ hn.nodup.erase r, fun s hs =>
      hm ▸ hn.lt s (List.mem_of_mem_erase (hr ▸ hs))⟩

/-- The roots of a world that can come about are told apart. -/
theorem Reachable.numbered (hw : w.Reachable) : w.Numbered := by
  induction hw with
  | refl => exact ⟨List.nodup_nil, by simp⟩
  | tail _ hs ih => exact ih.step hs

/-- **A root that was dropped does not come back.** -/
theorem Step.mem_roots_of_mem (hs : Step w w') {r : Root} (hlt : r.serial < w.rootsMade)
    (hr : r ∈ w'.roots) : r ∈ w.roots := by
  rcases hs.roots with ⟨hroots, -⟩ | ⟨r', hserial, hroots, -⟩ | ⟨r', -, hroots, -⟩
  · exact hroots ▸ hr
  · rcases List.mem_cons.1 (hroots ▸ hr) with rfl | hr
    · omega
    · exact hr
  · exact List.mem_of_mem_erase (hroots ▸ hr)

/-- Serial numbers are given out and not taken back. -/
theorem Step.rootsMade_le (hs : Step w w') : w.rootsMade ≤ w'.rootsMade := by
  rcases hs.roots with ⟨-, hm⟩ | ⟨_, -, -, hm⟩ | ⟨_, -, -, hm⟩ <;> omega

theorem rootsMade_le_of_reaches (hr : w.Reaches w') : w.rootsMade ≤ w'.rootsMade := by
  induction hr with
  | refl => exact Nat.le_refl _
  | tail _ hs ih => exact Nat.le_trans ih hs.rootsMade_le

end EmbeddedScript.World
