import EmbeddedScript.Proofs.Bridge.Ledger

/-!
# Root balance

The table of persistent roots has a handle as often as live roots hold it and as it was
protected without a root and not released. This is an invariant of every step
(`World.Reachable.balanced`), so it holds wherever programs come to; and since it
determines the table from what native code holds, a piece of code that leaves the books
as they were leaves the table as it was (`World.Reachable.persistent_perm`). That is so
of every host request to an adapter whose bound object keeps nothing, and of a script
value that is assigned a view of its own value.
-/

namespace EmbeddedScript

variable {κ : Type} {w w' : World κ}

namespace World

/-- The table counts live roots, and protections that were not taken away. -/
theorem Reachable.protectCount (hw : w.Reachable) {e : EngineId} {h : Handle}
    (hm : w.Matched e h) :
    ((w.engine e).roots.protectCount (.object h) : Int) = w.holders e h + w.books.net e h := by
  have hb := hw.balanced hm
  unfold Balanced at hb
  show _ = (w.holders e h : Int) + ((w.pins e h : Int) - w.unpins e h)
  omega

/-- **The books determine the table** of persistent roots. -/
theorem Reachable.persistent_perm (hw : w.Reachable) (hw' : w'.Reachable)
    (hm : ∀ e h, w.Matched e h) (hm' : ∀ e h, w'.Matched e h) (hb : w'.books = w.books)
    (e : EngineId) : (w'.engine e).roots.persistent.Perm (w.engine e).roots.persistent := by
  have hroots : w'.roots.Perm w.roots := by
    rw [List.perm_ext_iff_of_nodup hw'.numbered.nodup hw.numbered.nodup]
    intro r
    exact iff_of_eq (congrFun (congrArg Books.live hb) r)
  rw [List.perm_iff_count]
  intro h
  -- both tables count what the same roots and the same protections put there
  have hholders : w'.holders e h = w.holders e h := hroots.countP_eq _
  have hcount := hw.protectCount (hm e h)
  have hcount' := hw'.protectCount (hm' e h)
  rw [hholders, hb, ← hcount] at hcount'
  exact Int.ofNat.inj hcount'

end World

/-- **Assigning a view of its own value** to a script value does nothing. -/
theorem ScriptValue.run_assign (m : Machine κ) (s other : ScriptValue)
    (h : other.value = s.value) (w : World κ) : m.run (s.assign other) [] w = .ok s w := by
  have hsame : s.value.sameValue other.value = true := Value.sameValue_iff.2 h.symm
  unfold ScriptValue.assign ScriptValue.replace
  rw [if_pos hsame]
  rfl

/-- **A proxy takes its root along** when its last share is let go. -/
theorem Behaviour.mem_roots_release (b : Behaviour κ) (depth : Nat) (hw : w.Reachable)
    {id : NativeId} {p : Proxy} (hp : w.native? id = some (.proxy p)) (ho : w.owners id = 1)
    (h : (b.machine depth).release id w = .ok () w') (r : Root) :
    r ∈ w'.roots ↔ r ∈ w.roots ∧ r ≠ p.root := by
  obtain ⟨k, hid⟩ := World.native?_eq_some_iff.1 hp
  obtain rfl : k = 1 := (World.owners_of_some hid).symm.trans ho
  simp only [Machine.release, hid, if_true] at h
  obtain rfl := Behaviour.eq_of_finalise_proxy h
  rw [World.dropRoot_record]
  exact World.mem_roots_dropRoot (hw.numbered.modifyOwners id (· - 1))

/-- **A host request to an adapter leaves the whole table as it found it**, whatever the
outcome, if its bound object keeps nothing. -/
theorem Machine.Thrifty.persistent_perm {b : Behaviour κ} {depth : Nat} {m' : Machine κ}
    {a : Adapter} (ht : (b.machine depth).Thrifty m' a.bound) (hw : w.Reachable) (hy : w.Tidy)
    {self : NativeId} {e : EngineId} {r : HostRequest} {x : r.Reply}
    (hx : m'.run (a.answer self e r) [] w = .ok x w') (hm : ∀ e h, w'.Matched e h) :
    (b.machine depth).run (a.answer self e r) [] w = .ok x w'
      ∧ ∀ e, (w'.engine e).roots.persistent.Perm (w.engine e).roots.persistent := by
  obtain ⟨rest, w₁, heval, hunwind⟩ := Machine.run_eq_ok.1 hx
  obtain ⟨heval', rfl, hw', hs⟩ := ht.answer self e r _ _ _ _ _ hw hy heval
  cases hunwind
  have hrun : (b.machine depth).run (a.answer self e r) [] w = .ok x w' :=
    Machine.run_eq_ok.2 ⟨[], w', heval', rfl⟩
  have hreach := (b.reaches_run depth (a.answer self e r) [] hw.sound).1
  rw [Act.after_of_ok hrun] at hreach
  have hsuffix := World.journal_suffix_of_reaches hreach
  exact ⟨hrun, hw.persistent_perm hw' (fun e h => (hm e h).of_suffix hsuffix) hm hs.books⟩

/-- A bound object with one kind of member, which gives back its argument. -/
def Behaviour.echo : Behaviour Unit where
  answer _ _
    | .bound (.hasMethod _) => .done true
    | .bound (.invokeMethod _ [v]) => (Program.share v).bind fun v => .done (.ok v)
    | _ => .panic .noAnswer
  finaliser _ := .done ()

/-- The machine of the embedder's natives and of proxies, and of nothing else. -/
def Behaviour.echoing : Machine Unit where
  ask id r := fun w =>
    match w.native? id with
    | some (.custom ()) => (echo.machine 2).ask id r w
    | _ => .error .tooDeep w
  finalise
    | .proxy p => (echo.machine 2).finalise (.proxy p)
    | _ => throw .tooDeep

theorem Behaviour.thrifty_echoing (bound : NativeId) :
    (echo.machine 2).Thrifty echoing bound := by
  have hask : ∀ {id r w x w'}, echoing.ask id r w = .ok x w' →
      (echo.machine 2).ask id r w = .ok x w'
        ∧ (echo.machine 1).run (echo.answer id () r) [] w = .ok x w' := by
    intro id r w x w' h
    have hcustom : w.native? id = some (.custom ()) := by
      simp only [echoing] at h
      split at h
      · assumption
      · cases h
    have hanswer : (echo.machine 2).ask id r w = .ok x w' := by
      simpa only [echoing, hcustom] using h
    obtain ⟨n, w₁, hn, hrun⟩ := Act.bind_eq_ok.1 hanswer
    obtain ⟨rfl, rfl⟩ : some (.custom ()) = n ∧ w = w₁ := by
      simpa only [Act.view, hcustom, EStateM.Result.ok.injEq] using hn
    exact ⟨hanswer, hrun⟩
  refine ⟨fun id r w x w' h => (hask h).1, fun n w w' h => ?_, fun r w x w' hw hy h => ?_,
    fun n w w' hn _ _ h => ?_⟩
  · cases n with
    | proxy p => exact h
    | _ => cases h
  · have hrun := (hask h).2
    cases r with
    | hasMethod name =>
      cases hrun
      exact .refl hy
    | invokeMethod name args =>
      rcases args with - | ⟨v, - | ⟨v', rest⟩⟩
      · cases hrun
      · cases v with
        | object id =>
          cases hrun
          exact ⟨hy.retain id, World.letGo_books_retain hy id⟩
        | _ =>
          cases hrun
          exact .refl hy
      · cases hrun
    | _ => cases hrun
  · cases n with
    | proxy p => exact absurd rfl (hn p)
    | _ => cases h

/-- The world in which an object is rooted, and an adapter has a bound object that gives
back its argument. -/
def World.adapted : World Unit :=
  ((Behaviour.echo.machine 2).run (do
    let bound ← Program.op (.spawn (.custom ()))
    let _ ← Program.op (.spawn (.adapter ⟨bound, ⟨0⟩, none⟩))
    let v ← Program.op (.createObject ⟨0⟩)
    match v with
    | .ok v => Program.op (.root ⟨0⟩ v)
    | .error _ => .panic .noAnswer) []).after {}

end EmbeddedScript
