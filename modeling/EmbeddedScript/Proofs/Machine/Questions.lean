import EmbeddedScript.Proofs.Machine.Presence
import EmbeddedScript.Proofs.Machine.Refusals

/-!
# Questions

Reading a name, listing the names and looking at the kind of a value change nothing, as long as
the hosts that are asked on the way change nothing (`Machine.Tactful`). The lock is given back,
the pins are taken off and the share of the host is let go of.

There is one exception. What is read of a method of a host is an object, which is made for the
occasion: **a read that finds a method puts an object into the heap**, and fails if the heap
takes none (`Machine.get_of_tactful`).

A host need not be discreet wherever it is asked, since it may be another native there. What is
assumed of hosts is assumed among some worlds, and those are only taken to include, with a world,
the ones that differ from it by what the engine does around a question (`World.Resembles`).
-/

namespace EmbeddedScript

open Act Machine

variable {κ α β : Type} {m : Machine κ} {w w' w₁ : World κ} {e : EngineId} {v : Value}
  {h : Handle} {host : NativeId} {expandos : Properties Value} {name : String}
  {Among : World κ → Prop}

/-- An object has no host or is a wrapper. -/
theorem HeapObject.hostless_or (o : HeapObject) :
    o.hostless = true ∨ ∃ host expandos, o = .host host expandos := by
  cases o with
  | host host expandos => exact .inr ⟨host, expandos, rfl⟩
  | _ => exact .inl rfl

/-! ## Worlds that differ in one heap -/

/-- **Only the heap of one engine is another one.** What happened is on record. -/
structure World.Reheaped (w : World κ) (e : EngineId) (heap : Heap) (w' : World κ) : Prop where
  /-- The engine has this heap, and the other engines are as they were. -/
  engine : ∀ e', w'.engine e' = if e = e' then { w.engine e with heap := heap } else w.engine e'
  /-- Natives have the owners that they had. -/
  owners : ∀ id, w'.owners id = w.owners id

/-- **No engine has changed**, and nothing has another number of owners. -/
structure World.Untouched (w w' : World κ) : Prop where
  /-- Every engine is as it was. -/
  engine : ∀ e, w'.engine e = w.engine e
  /-- Natives have the owners that they had. -/
  owners : ∀ id, w'.owners id = w.owners id

namespace World

theorem Untouched.refl (w : World κ) : w.Untouched w := ⟨fun _ => rfl, fun _ => rfl⟩

theorem Untouched.trans (h : w.Untouched w₁) (h₁ : w₁.Untouched w') : w.Untouched w' :=
  ⟨fun e => (h₁.engine e).trans (h.engine e), fun id => (h₁.owners id).trans (h.owners id)⟩

theorem Unchanged.untouched (hu : w.Unchanged w') : w.Untouched w' := by
  refine ⟨hu.engine, fun id => ?_⟩
  rw [hu.beside]
  rfl

/-- A heap that is replaced by itself is not replaced. -/
theorem Reheaped.untouched (hr : w.Reheaped e (w.engine e).heap w') : w.Untouched w' := by
  refine ⟨fun e' => ?_, hr.owners⟩
  rw [hr.engine]
  split
  case isTrue he => rw [← he]
  case isFalse => rfl

theorem Untouched.reheaped (hu : w.Untouched w') (e : EngineId) :
    w.Reheaped e (w.engine e).heap w' := by
  refine ⟨fun e' => ?_, hu.owners⟩
  rw [hu.engine]
  split
  case isTrue he => rw [← he]
  case isFalse => rfl

/-- A share of one native is none of another. -/
theorem owners_modifyOwners_of_ne {id : NativeId} (hne : host ≠ id) (f : Nat → Nat) :
    (w.modifyOwners host f).owners id = w.owners id := by
  rw [owners, natives_modifyOwners, if_neg hne]
  rfl

/-- Whoever was asked is let go of again. -/
theorem owners_left_of_entered {vs : List Value} {height : Nat} (ha : w.isAlive host = true)
    (id : NativeId) (ho : ∀ id, w₁.owners id = (w.entered e host vs).owners id) :
    (w₁.left e host height).owners id = w.owners id := by
  by_cases hid : host = id
  · subst hid
    have hmore : w₁.owners host = w.owners host + 1 := (ho host).trans (owners_entered ha e vs)
    rw [owners_left (decide_eq_true (by omega)), hmore, Nat.add_sub_cancel]
  · have hleft : (w₁.left e host height).owners id = w₁.owners id :=
      owners_modifyOwners_of_ne (w := w₁.truncate e height) hid (· - 1)
    have hentered : (w.entered e host vs).owners id = w.owners id :=
      owners_modifyOwners_of_ne (w := w.modifyEngine e _) hid (· + 1)
    rw [hleft, ho, hentered]

end World

/-! ## Worlds that differ by what is done around a question -/

/-- **The worlds differ by what an engine does around a question** at most: by locks, roots and
loans, by how many shares of a native are owned, and by methods of hosts that became objects. -/
structure World.Resembles (w w' : World κ) : Prop where
  /-- Natives are in the states that they were in. -/
  native? : ∀ id, w'.native? id = w.native? id
  /-- Those that have an owner are those that had one. -/
  isAlive : ∀ id, w'.isAlive id = w.isAlive id
  /-- Beside engines and natives, everything is as it was. -/
  beside : w' = { w with engines := w'.engines, natives := w'.natives }
  /-- An object that was there is there. -/
  keeps : ∀ {e h o}, (w.engine e).heap.get? h = some o → (w'.engine e).heap.get? h = some o
  /-- An object that is there was there, or is a method of a host. -/
  adds : ∀ {e h o}, (w'.engine e).heap.get? h = some o →
    (w.engine e).heap.get? h = some o ∨ ∃ target method, o = .hostMethod target method

namespace World

theorem Resembles.trans (h : w.Resembles w₁) (h₁ : w₁.Resembles w') : w.Resembles w' where
  native? id := (h₁.native? id).trans (h.native? id)
  isAlive id := (h₁.isAlive id).trans (h.isAlive id)
  beside := by rw [h₁.beside, h.beside]
  keeps hg := h₁.keeps (h.keeps hg)
  adds hg := (h₁.adds hg).elim h.adds .inr

/-- A wrapper that is there was there. -/
theorem Resembles.get?_host (hr : w.Resembles w')
    (hg : (w'.engine e).heap.get? h = some (.host host expandos)) :
    (w.engine e).heap.get? h = some (.host host expandos) := by
  obtain hg | ⟨_, _, hmethod⟩ := hr.adds hg
  · exact hg
  · cases hmethod

theorem Unchanged.resembles (hu : w.Unchanged w') : w.Resembles w' where
  native? id := by rw [hu.beside]; rfl
  isAlive id := by rw [hu.beside]; rfl
  beside := by rw [hu.beside]
  keeps hg := by rwa [hu.engine]
  adds hg := .inl (by rwa [← hu.engine])

/-- An engine may do what it likes with everything but its heap. -/
theorem resembles_modifyEngine {f : Engine → Engine}
    (hf : (f (w.engine e)).heap = (w.engine e).heap) : w.Resembles (w.modifyEngine e f) := by
  have hheap : ∀ e', ((w.modifyEngine e f).engine e').heap = (w.engine e').heap := by
    intro e'
    rw [engine_modifyEngine]
    split
    case isTrue he => rw [hf, he]
    case isFalse => rfl
  exact ⟨fun _ => rfl, fun _ => rfl, rfl, fun hg => by rwa [hheap],
    fun hg => .inl (by rwa [← hheap])⟩

/-- Shares may be taken and let go of, but for the last one. -/
theorem resembles_modifyOwners {f : Nat → Nat} (ha : w.isAlive host = true)
    (hf : 0 < f (w.owners host)) : w.Resembles (w.modifyOwners host f) where
  native? := native?_modifyOwners w host f
  isAlive id := by
    by_cases hid : host = id
    · subst hid
      rw [ha, isAlive, owners_modifyOwners ha]
      exact decide_eq_true hf
    · rw [isAlive, isAlive, owners_modifyOwners_of_ne hid]
  beside := rfl
  keeps := id
  adds := .inl

/-- A method of a host may become an object. -/
theorem resembles_placed (hw : (w.engine e).heap.WellFormed) (target : Handle) (name : String) :
    w.Resembles (w.modifyEngine e fun s =>
      { s with heap := ((w.engine e).heap.place (.hostMethod target name)).2 }) where
  native? _ := rfl
  isAlive _ := rfl
  beside := rfl
  keeps {e' h o} hg := by
    rw [engine_modifyEngine]
    split
    case isTrue he =>
      subst he
      exact Heap.get?_place_of_some hw _ hg
    case isFalse => exact hg
  adds {e' h o} hg := by
    rw [engine_modifyEngine] at hg
    split at hg
    case isTrue he =>
      subst he
      rw [Heap.get?_place hw] at hg
      split at hg
      case isTrue => exact .inr ⟨target, name, (Option.some.inj hg).symm⟩
      case isFalse => exact .inl hg
    case isFalse => exact .inl hg

/-- A host is asked in such a world. -/
theorem resembles_entered (ha : w.isAlive host = true) (vs : List Value) :
    w.Resembles (w.entered e host vs) :=
  have htake : w.Resembles (w.modifyEngine e fun s => { s with lock := s.lock.take }) :=
    resembles_modifyEngine rfl
  (htake.trans (resembles_modifyOwners ha (Nat.succ_pos _))).trans (resembles_modifyEngine rfl)

/-- So is the world in which the operation goes on. -/
theorem resembles_left {height : Nat} (ho : 1 < w.owners host) :
    w.Resembles (w.left e host height) :=
  have htruncate : w.Resembles (w.truncate e height) := resembles_modifyEngine rfl
  (htruncate.trans (resembles_modifyOwners (f := (· - 1)) (decide_eq_true (Nat.lt_of_succ_lt ho))
    (Nat.sub_pos_of_lt ho))).trans (resembles_modifyEngine rfl)

/-- What was there is there while a host is asked. -/
theorem get?_entered {o : HeapObject} {vs : List Value}
    (hg : (w.engine e).heap.get? h = some o) :
    ((w.entered e host vs).engine e).heap.get? h = some o := by
  rwa [engine_entered, if_pos rfl]

end World

/-! ## Hosts that change nothing -/

/-- **The request asks about the host** and orders nothing. -/
def HostRequest.IsQuestion : HostRequest → Prop
  | .getProperty _ | .hasMethod _ | .isCallable | .propertyNames => True
  | _ => False

/-- **Nothing was touched**, and the world is still among these. -/
structure World.Calm (Among : World κ → Prop) (w w' : World κ) : Prop where
  /-- No engine has changed. -/
  untouched : w.Untouched w'
  /-- The world is among them. -/
  among : Among w'

/-- **Hosts are discreet** among these worlds: a host that is behind a wrapper there changes
nothing when it answers a question. -/
structure Machine.Tactful (m : Machine κ) (e : EngineId) (Among : World κ → Prop) : Prop where
  /-- A host touches nothing. -/
  discreet : ∀ {w h host expandos w'} {r : HostRequest} {x : r.Reply}, Among w →
    (w.engine e).heap.get? h = some (.host host expandos) → r.IsQuestion →
    m.askHost e host r w = .ok x w' → w.Calm Among w'
  /-- Hosts have owners. -/
  alive : ∀ {w h host expandos}, Among w →
    (w.engine e).heap.get? h = some (.host host expandos) → w.isAlive host = true
  /-- What is done around a question does not lead out of these worlds. -/
  stays : ∀ {w w'}, Among w → w.Resembles w' → Among w'

namespace World

theorem Calm.refl (hw : Among w) : w.Calm Among w := ⟨.refl w, hw⟩

theorem Calm.trans (h : w.Calm Among w₁) (h₁ : w₁.Calm Among w') : w.Calm Among w' :=
  ⟨h.untouched.trans h₁.untouched, h₁.among⟩

end World

namespace Machine

/-! ## What is done with a host -/

/-- **What is done with a host is undone**, and a heap that was replaced meanwhile stays
replaced. -/
theorem reheaped_of_hosted {vs : List Value} {body : Act κ α} {x : α} {heap : Heap}
    (ht : m.Tactful e Among) (ha : w.isAlive host = true)
    (hbody : body (w.entered e host vs) = .ok x w₁) (hw₁ : Among w₁)
    (hr : (w.entered e host vs).Reheaped e heap w₁)
    (hrun : m.hosted e host vs body w = .ok x w') : w.Reheaped e heap w' ∧ Among w' := by
  have howned : 1 < w₁.owners host := by
    rw [hr.owners, World.owners_entered ha]
    exact Nat.succ_lt_succ (of_decide_eq_true ha)
  obtain ⟨-, rfl⟩ := EStateM.Result.ok.inj ((hosted_of_ok hbody howned).symm.trans hrun)
  refine ⟨⟨fun e' => ?_, fun id => World.owners_left_of_entered ha id hr.owners⟩,
    ht.stays hw₁ (World.resembles_left howned)⟩
  rw [World.engine_left, hr.engine, if_pos rfl, World.engine_entered, if_pos rfl]
  split
  case isTrue => simp
  case isFalse he => rw [hr.engine, if_neg he, World.engine_entered, if_neg he]

/-- If nothing is touched meanwhile, nothing has been touched. -/
theorem calm_of_hosted {vs : List Value} {body : Act κ α} {x : α} (ht : m.Tactful e Among)
    (ha : w.isAlive host = true) (hbody : body (w.entered e host vs) = .ok x w₁)
    (hc : (w.entered e host vs).Calm Among w₁) (hrun : m.hosted e host vs body w = .ok x w') :
    w.Calm Among w' := by
  have hheap : ((w.entered e host vs).engine e).heap = (w.engine e).heap := by
    rw [World.engine_entered, if_pos rfl]
  have hr := hc.untouched.reheaped e
  rw [hheap] at hr
  obtain ⟨hr, hw'⟩ := reheaped_of_hosted ht ha hbody hc.among hr hrun
  exact ⟨hr.untouched, hw'⟩

/-- What is done with an object has read the heap. -/
theorem allowsRead_of_locked {f : Handle → HeapObject → Attempt κ α} {r : Except EngineError α}
    (hrun : Act.locked e (do
      let k ← Act.expectHandle (.object h)
      let o ← Act.object e k
      f k o : Attempt κ α).run w = .ok r w') : (w.engine e).loan.allowsRead = true := by
  obtain ⟨w₁, hbody, -⟩ := locked_eq_ok.1 hrun
  rw [andThen_of_ok (x := Act.expectHandle (.object h)) (b := h) rfl] at hbody
  cases hl : (w.engine e).loan.allowsRead with
  | true => rfl
  | false =>
    have hlent : (Act.object e h).run (w.modifyEngine e fun s => { s with lock := s.lock.take })
        = .error (.panicked .heapLent) _ :=
      readHeap_of_lent (by rwa [World.engine_modifyEngine_self]) (Heap.get · h)
    rw [andThen_of_cut hlent] at hbody
    cases hbody

/-- What was done with an object without an error was done with one that is there. -/
theorem exists_get?_of_locked {f : Handle → HeapObject → Attempt κ α} {x : α}
    (hrun : Act.locked e (do
      let k ← Act.expectHandle v
      let o ← Act.object e k
      f k o : Attempt κ α).run w = .ok (.ok x) w') :
    ∃ h o, v = .object h ∧ (w.engine e).heap.get? h = some o := by
  obtain ⟨w₁, hbody, -⟩ := locked_eq_ok.1 hrun
  obtain ⟨h, w₂, hk, hbody⟩ := andThen_eq_ok.1 hbody
  obtain ⟨hv, rfl⟩ := eq_of_expectHandle hk
  obtain ⟨o, w₃, ho, -⟩ := andThen_eq_ok.1 hbody
  obtain ⟨hg, -⟩ := eq_of_object ho
  rw [World.engine_modifyEngine_self] at hg
  exact ⟨h, o, hv, hg⟩

/-! ## Reading -/

/-- **Looking for a name of a wrapper touches nothing.** -/
theorem calm_of_inspect (ht : m.Tactful e Among) (hw : Among w)
    (hg : (w.engine e).heap.get? h = some (.host host expandos)) {f : Except EngineError Finding}
    (hf : (m.inspect e h host name).run w = .ok f w') : w.Calm Among w' := by
  obtain ⟨p, w₁, hp, hrest⟩ := andThen_cases hf
  have hc := ht.discreet (r := .getProperty name) hw hg trivial hp
  obtain ⟨_, -, -, rfl⟩ | ⟨p, rfl, hf⟩ := hrest
  · exact hc
  · cases p with
    | some v =>
      obtain ⟨-, rfl⟩ := pure_eq_ok.1 hf
      exact hc
    | none =>
      have hg₁ : (w₁.engine e).heap.get? h = some (.host host expandos) := by
        rw [hc.untouched.engine, hg]
      obtain ⟨q, w₂, hq, hf⟩ := attempt_andThen hf
      have hc₁ := ht.discreet (r := .hasMethod name) hc.among hg₁ trivial hq
      refine hc.trans (hc₁.trans ?_)
      cases q with
      | true =>
        obtain ⟨-, rfl⟩ := pure_eq_ok.1 hf
        exact .refl hc₁.among
      | false =>
        obtain ⟨-, rfl⟩ :=
          pure_eq_ok.1 (object_andThen (by rw [hc₁.untouched.engine, hg₁]) hf)
        exact .refl hc₁.among

/-- An object is refused for the reason that the heap has. -/
theorem refusal?_of_allocate {o : HeapObject} {err : EngineError}
    (hrun : (m.allocate e o).run w = .ok (.error err) w') :
    (w.engine e).heap.refusal? = some err := by
  obtain ⟨outcome, w₁, hoffer, ht⟩ := bind_eq_ok.1 hrun
  obtain ⟨ho, -⟩ := eq_of_writeHeap hoffer
  cases outcome with
  | ok k => exact nomatch (pure_eq_ok.1 ht).1
  | error err' =>
    obtain ⟨_, w₂, -, hfail⟩ := bind_eq_ok.1 ht
    obtain rfl := Except.error.inj (pure_eq_ok.1 hfail).1
    exact refusal?_of_offer ho.symm

/-- **A method was found, and there was room for an object of it**: the read has made one. -/
structure Materialised (e : EngineId) (h : Handle) (name : String) (Among : World κ → Prop)
    (w : World κ) (g : Except EngineError Value) (w' : World κ) : Prop where
  /-- There was room. -/
  room : (w.engine e).heap.refusal? = none
  /-- The object is what was read. -/
  read : g = .ok (.object ((w.engine e).heap.place (.hostMethod h name)).1)
  /-- The heap has one object more. -/
  placed : w.Reheaped e ((w.engine e).heap.place (.hostMethod h name)).2 w'
  /-- The world is among them. -/
  among : Among w'

/-- **Reading a wrapper touches nothing, unless it finds a method** and there is room for an
object of it. -/
theorem get_of_wrapper {g : Except EngineError Value} (ht : m.Tactful e Among) (hw : Among w)
    (hwf : (w.engine e).heap.WellFormed)
    (hg : (w.engine e).heap.get? h = some (.host host expandos))
    (hget : (m.get e (.object h) name).run w = .ok g w') :
    ∃ f u, (m.inspect e h host name).run (w.entered e host [.object h]) = .ok f u
      ∧ Finding.Gives f g
      ∧ (f = .ok .method ∧ Materialised e h name Among w g w'
        ∨ w.Calm Among w' ∧ (f = .ok .method →
          ∃ err, (w.engine e).heap.refusal? = some err ∧ g = .error err)) := by
  have ha := ht.alive hw hg
  have hl := allowsRead_of_locked hget
  rw [get_of_host m hl hg] at hget
  obtain ⟨w₁, -, hread, -⟩ := hosted_eq_ok.1 hget
  have hbody := hread
  rw [readThrough_eq] at hread
  -- the question is asked in a world with the same heap
  have hheap : ((w.entered e host [.object h]).engine e).heap = (w.engine e).heap := by
    rw [World.engine_entered, if_pos rfl]
  have hentered : Among (w.entered e host [.object h]) :=
    ht.stays hw (World.resembles_entered ha _)
  have hcalm : (w.entered e host [.object h]).Calm Among w₁ → w.Calm Among w' :=
    fun hc => calm_of_hosted ht ha hbody hc hget
  have hinspect : ∀ {f u}, (m.inspect e h host name).run (w.entered e host [.object h]) = .ok f u →
      (w.entered e host [.object h]).Calm Among u :=
    calm_of_inspect ht hentered (World.get?_entered hg)
  obtain ⟨f, u, hf, ⟨err, rfl, rfl, rfl⟩ | ⟨finding, rfl, hdeliver⟩⟩ := andThen_cases hread
  · exact ⟨_, _, hf, rfl, .inr ⟨hcalm (hinspect hf), nofun⟩⟩
  · have hc := hinspect hf
    refine ⟨_, u, hf, gives_of_deliver hdeliver, ?_⟩
    cases finding with
    | field x =>
      obtain ⟨-, rfl⟩ := pure_eq_ok.1 hdeliver
      exact .inr ⟨hcalm hc, nofun⟩
    | own entry =>
      obtain ⟨-, rfl⟩ := pure_eq_ok.1 hdeliver
      exact .inr ⟨hcalm hc, nofun⟩
    | method =>
      have hsame : (u.engine e).heap = (w.engine e).heap := by rw [hc.untouched.engine, hheap]
      cases g with
      | ok x =>
        obtain ⟨hroom, rfl, rfl⟩ := eq_of_allocate hdeliver
        have hplaced := ht.stays hc.among (World.resembles_placed (hsame ▸ hwf) h name)
        have hr : (w.entered e host [.object h]).Reheaped e
            ((w.engine e).heap.place (.hostMethod h name)).2 (u.modifyEngine e fun s =>
              { s with heap := ((u.engine e).heap.place (.hostMethod h name)).2 }) :=
          ⟨fun e' => by simp only [World.engine_modifyEngine, hc.untouched.engine, hheap],
            hc.untouched.owners⟩
        obtain ⟨hr, hw'⟩ := reheaped_of_hosted ht ha hbody hplaced hr hget
        rw [hsame] at hroom ⊢
        exact .inl ⟨rfl, hroom, rfl, hr, hw'⟩
      | error err =>
        have hrefused := refusal?_of_allocate hdeliver
        rw [hsame] at hrefused
        have hclean : u.Unchanged w₁ := failsCleanly_allocate rfl err w₁ hdeliver
        have hw₁ : u.Calm Among w₁ := ⟨hclean.untouched, ht.stays hc.among hclean.resembles⟩
        exact .inr ⟨hcalm (hc.trans hw₁), fun _ => ⟨err, hrefused, rfl⟩⟩

/-- What can be read of a value without a host is there, and is read off it. -/
theorem exists_get?_of_get {x : Value} (hh : w.host? e v = none)
    (hget : (m.get e v name).run w = .ok (.ok x) w') :
    ∃ h o, v = .object h ∧ (w.engine e).heap.get? h = some o ∧ o.hostless = true
      ∧ x = ownProperty o name ∧ w' = w := by
  obtain ⟨h, o, rfl, hg⟩ := exists_get?_of_locked hget
  have hhostless := hostless_of_host? hh hg
  have hexact := get_of_hostless m name (allowsRead_of_locked hget) hg hhostless
  obtain ⟨hx, rfl⟩ := EStateM.Result.ok.inj (hget.symm.trans hexact)
  exact ⟨h, o, rfl, hg, hhostless, Except.ok.inj hx, rfl⟩

/-- **Reading any value** of an engine whose hosts are discreet. -/
theorem get_of_tactful {g : Except EngineError Value} (ht : m.Tactful e Among) (hw : Among w)
    (hwf : (w.engine e).heap.WellFormed) (hget : (m.get e v name).run w = .ok g w') :
    w.Calm Among w' ∨ ∃ h host expandos, v = .object h
      ∧ (w.engine e).heap.get? h = some (.host host expandos)
      ∧ (∃ u, (m.inspect e h host name).run (w.entered e host [v]) = .ok (.ok .method) u)
      ∧ Materialised e h name Among w g w' := by
  cases hh : w.host? e v with
  | none =>
    cases g with
    | error err =>
      have hclean : w.Unchanged w' := failsCleanly_get m hh name err w' hget
      exact .inl ⟨hclean.untouched, ht.stays hw hclean.resembles⟩
    | ok x =>
      obtain ⟨-, -, -, -, -, -, rfl⟩ := exists_get?_of_get hh hget
      exact .inl (.refl hw)
  | some host =>
    obtain ⟨h, expandos, rfl, hg⟩ := exists_get?_of_host? hh
    obtain ⟨f, u, hf, -, ⟨rfl, hm⟩ | ⟨hc, -⟩⟩ := get_of_wrapper ht hw hwf hg hget
    · exact .inr ⟨h, host, expandos, rfl, hg, ⟨u, hf⟩, hm⟩
    · exact .inl hc

/-! ## Listing -/

/-- What can be listed of a value without a host is there, and is listed off it. -/
theorem exists_get?_of_names {l : List String} (hh : w.host? e v = none)
    (hn : (m.names e v).run w = .ok (.ok l) w') :
    ∃ h o, v = .object h ∧ (w.engine e).heap.get? h = some o ∧ o.hostless = true
      ∧ l = ownNames o ∧ w' = w := by
  obtain ⟨h, o, rfl, hg⟩ := exists_get?_of_locked hn
  have hhostless := hostless_of_host? hh hg
  have hexact := names_of_hostless m (allowsRead_of_locked hn) hg hhostless
  obtain ⟨hl, rfl⟩ := EStateM.Result.ok.inj (hn.symm.trans hexact)
  exact ⟨h, o, rfl, hg, hhostless, Except.ok.inj hl, rfl⟩

/-- **Listing a wrapper touches nothing.** -/
theorem calm_of_listThrough {l : Except EngineError (List String)} (ht : m.Tactful e Among)
    (hw : Among w) (hg : (w.engine e).heap.get? h = some (.host host expandos))
    (hl : (m.listThrough e h host).run w = .ok l w') : w.Calm Among w' := by
  obtain ⟨contributed, w₁, hask, hl⟩ := attempt_andThen hl
  have hc := ht.discreet (r := .propertyNames) hw hg trivial hask
  obtain ⟨-, rfl⟩ := pure_eq_ok.1 (object_andThen (by rw [hc.untouched.engine, hg]) hl)
  exact hc

/-- **Listing any value** of an engine whose hosts are discreet. -/
theorem names_of_tactful {l : Except EngineError (List String)} (ht : m.Tactful e Among)
    (hw : Among w) (hn : (m.names e v).run w = .ok l w') : w.Calm Among w' := by
  cases hh : w.host? e v with
  | none =>
    cases l with
    | error err =>
      have hclean : w.Unchanged w' := failsCleanly_names m hh err w' hn
      exact ⟨hclean.untouched, ht.stays hw hclean.resembles⟩
    | ok l =>
      obtain ⟨-, -, -, -, -, -, rfl⟩ := exists_get?_of_names hh hn
      exact .refl hw
  | some host =>
    obtain ⟨h, expandos, rfl, hg⟩ := exists_get?_of_host? hh
    have ha := ht.alive hw hg
    rw [names_of_host m (allowsRead_of_locked hn) hg] at hn
    obtain ⟨w₁, -, hlist, -⟩ := hosted_eq_ok.1 hn
    exact calm_of_hosted ht ha hlist (calm_of_listThrough ht
      (ht.stays hw (World.resembles_entered ha _)) (World.get?_entered hg) hlist) hn

/-! ## Looking at the kind -/

/-- A heap is given back as it was lent. -/
theorem withoutReader_withReader (l : Loan) : l.withReader.withoutReader = l := by
  cases l <;> rfl

/-- **What a host is asked while its heap is read** touches nothing. -/
theorem calm_of_reading {r : HostRequest} {x : r.Reply} (ht : m.Tactful e Among) (hw : Among w)
    (hg : (w.engine e).heap.get? h = some (.host host expandos)) (hr : r.IsQuestion)
    (hrun : Act.reading e (m.askHost e host r) w = .ok x w') : w.Calm Among w' := by
  obtain ⟨w₁, hask, rfl⟩ := within_eq_ok.1 hrun
  have hc := ht.discreet (ht.stays hw (World.resembles_modifyEngine rfl))
    (by rw [World.engine_modifyEngine_self]; exact hg) hr hask
  refine ⟨⟨fun e' => ?_, hc.untouched.owners⟩,
    ht.stays hc.among (World.resembles_modifyEngine rfl)⟩
  rw [World.engine_modifyEngine, hc.untouched.engine, World.engine_modifyEngine_self,
    hc.untouched.engine, World.engine_modifyEngine, withoutReader_withReader]
  split
  case isTrue he => rw [← he]
  case isFalse => rfl

/-- **How looking at the kind of a value came to its result**: nothing was there, or an object
without a host, or a wrapper whose host was asked. -/
theorem kind_cases {t : Option ObjectKind} (hk : m.kind e v w = .ok t w') :
    (t = none ∧ w' = w ∧ ∀ h o, v = .object h → (w.engine e).heap.get? h ≠ some o)
      ∨ (∃ h o, v = .object h ∧ (w.engine e).heap.get? h = some o ∧ o.hostless = true
        ∧ t = some (o.kind false) ∧ w' = w)
      ∨ ∃ h host expandos callable, v = .object h
        ∧ (w.engine e).heap.get? h = some (.host host expandos)
        ∧ Act.reading e (m.askHost e host .isCallable) w = .ok callable w'
        ∧ t = some ((HeapObject.host host expandos).kind callable) := by
  cases v with
  | object h =>
    obtain ⟨o?, w₁, hread, hk⟩ := bind_eq_ok.1 hk
    obtain ⟨rfl, rfl⟩ := eq_of_readHeap hread
    cases hg : (w₁.engine e).heap.get? h with
    | none =>
      rw [hg] at hk
      obtain ⟨rfl, rfl⟩ := pure_eq_ok.1 hk
      refine .inl ⟨rfl, rfl, ?_⟩
      rintro _ o ⟨⟩ hsome
      cases hg.symm.trans hsome
    | some o =>
      rw [hg] at hk
      obtain hh | ⟨host, expandos, rfl⟩ := o.hostless_or
      · refine .inr (.inl ⟨h, o, rfl, hg, hh, ?_⟩)
        cases o with
        | host host expandos => cases hh
        | _ =>
          obtain ⟨rfl, rfl⟩ := pure_eq_ok.1 hk
          exact ⟨rfl, rfl⟩
      · obtain ⟨callable, w₂, hask, hk⟩ := bind_eq_ok.1 hk
        obtain ⟨rfl, rfl⟩ := pure_eq_ok.1 hk
        exact .inr (.inr ⟨h, host, expandos, callable, rfl, hg, hask, rfl⟩)
  | _ =>
    obtain ⟨rfl, rfl⟩ := pure_eq_ok.1 hk
    exact .inl ⟨rfl, rfl, nofun⟩

/-- **Looking at the kind of any value** of an engine whose hosts are discreet. -/
theorem kind_of_tactful {t : Option ObjectKind} (ht : m.Tactful e Among) (hw : Among w)
    (hk : m.kind e v w = .ok t w') : w.Calm Among w' := by
  obtain ⟨-, rfl, -⟩ | ⟨h, o, -, -, -, -, rfl⟩ | ⟨h, host, expandos, callable, -, hg, hask, -⟩ :=
    kind_cases hk
  · exact .refl hw
  · exact .refl hw
  · exact calm_of_reading (r := .isCallable) ht hw hg trivial hask

/-- What a read has made an object of is a function. -/
theorem Materialised.kind {g : Except EngineError Value} {x : Value} {t : Option ObjectKind}
    (hm : Materialised e h name Among w g w₁) (hwf : (w.engine e).heap.WellFormed)
    (hx : g = .ok x) (hk : m.kind e x w₁ = .ok t w') : t = some .function ∧ w' = w₁ := by
  obtain rfl : .object ((w.engine e).heap.place (.hostMethod h name)).1 = x :=
    Except.ok.inj (hm.read.symm.trans hx)
  have hplaced : (w₁.engine e).heap.get? ((w.engine e).heap.place (.hostMethod h name)).1
      = some (.hostMethod h name) := by
    rw [hm.placed.engine, if_pos rfl, Heap.get?_place hwf, if_pos rfl]
  obtain ⟨-, -, hnone⟩ | ⟨k, o, hv, ho, -, rfl, rfl⟩ | ⟨k, _, _, _, hv, ho, -⟩ := kind_cases hk
  · exact absurd hplaced (hnone _ _ rfl)
  · obtain rfl := Value.object.inj hv
    cases hplaced.symm.trans ho
    exact ⟨rfl, rfl⟩
  · obtain rfl := Value.object.inj hv
    cases hplaced.symm.trans ho

end Machine

end EmbeddedScript
