import EmbeddedScript.Proofs.Machine.Objects

/-!
# Operations on wrappers

On a wrapper every operation on properties goes through its host, and in the same way:
with the lock held, a share of the host owned and the operands pinned
(`Machine.hosted`). What is different is what the host is asked and what is made of its
answers: `Machine.readThrough`, `Machine.writeThrough`, `Machine.listThrough`.
-/

namespace EmbeddedScript

variable {κ α : Type} {m : Machine κ} {w w' : World κ} {e : EngineId} {h : Handle}
  {host : NativeId} {expandos : Properties Value}

namespace World

/-! ## Entering and leaving -/

/-- Only the lock and the stack of the one engine are different when a host is asked. -/
theorem engine_entered (w : World κ) (e : EngineId) (host : NativeId) (vs : List Value)
    (e' : EngineId) :
    (w.entered e host vs).engine e' =
      if e = e' then
        { w.engine e with lock := (w.engine e).lock.take, roots := (w.engine e).roots.push vs }
      else w.engine e' := by
  rw [entered, push, engine_modifyEngine, engine_modifyOwners, engine_modifyOwners,
    engine_modifyEngine, engine_modifyEngine, if_pos rfl]
  split <;> rfl

/-- **The world that an operation leaves behind** when its host has been asked: the pins are
off, the host is let go of and the lock is given back. -/
def left (w : World κ) (e : EngineId) (host : NativeId) (height : Nat) : World κ :=
  ((w.truncate e height).modifyOwners host (· - 1)).modifyEngine e fun s =>
    { s with lock := s.lock.undo .level }

theorem engine_left (w : World κ) (e : EngineId) (host : NativeId) (height : Nat)
    (e' : EngineId) :
    (w.left e host height).engine e' =
      if e = e' then
        { w.engine e with
          lock := (w.engine e).lock.undo .level
          roots := (w.engine e).roots.truncate height }
      else w.engine e' := by
  rw [left, engine_modifyEngine, engine_modifyOwners, engine_modifyOwners, truncate,
    engine_modifyEngine, engine_modifyEngine, if_pos rfl]
  split <;> rfl

/-- A share that is taken or let go counts. -/
theorem owners_modifyOwners (ha : w.isAlive host = true) (f : Nat → Nat) :
    (w.modifyOwners host f).owners host = f (w.owners host) := by
  obtain ⟨n, k, hn⟩ := exists_of_isAlive ha
  rw [owners_of_some hn]
  refine owners_of_some (n := n) ?_
  rw [natives_modifyOwners, if_pos rfl, hn]
  rfl

/-- While a host is asked, its wrapper is not its only owner. -/
theorem owners_entered (ha : w.isAlive host = true) (e : EngineId) (vs : List Value) :
    (w.entered e host vs).owners host = w.owners host + 1 :=
  owners_modifyOwners (w := w.modifyEngine e fun s => { s with lock := s.lock.take }) ha (· + 1)

/-- The share that was taken is let go. -/
theorem owners_left (ha : w.isAlive host = true) (e : EngineId) (height : Nat) :
    (w.left e host height).owners host = w.owners host - 1 :=
  owners_modifyOwners (w := w.truncate e height) ha (· - 1)

end World

namespace Machine

open Act

/-! ## Asking -/

/-- **Run something that asks a host** on behalf of an engine, with these operands. -/
def hosted (m : Machine κ) (e : EngineId) (host : NativeId) (vs : List Value)
    (body : Act κ α) : Act κ α :=
  Act.locked e (m.sharing host (Act.pinning e vs body))

/-- **What is left to do when the host was asked** is to let go of it and to give the lock
back. -/
theorem hosted_of_body {vs : List Value} {body : Act κ α} {x : α} {w₁ : World κ}
    (hbody : body (w.entered e host vs) = .ok x w₁) :
    m.hosted e host vs body w =
      Act.ensuring (Act.ensuring (pure x) (m.release host))
        (Act.update (·.modifyEngine e fun s => { s with lock := s.lock.undo .level }))
        (w₁.truncate e (w.engine e).roots.height) := by
  have hheight : (((w.modifyEngine e fun s => { s with lock := s.lock.take }).modifyOwners host
      (· + 1)).engine e).roots.height = (w.engine e).roots.height := by simp
  show Act.ensuring _ (Act.update fun w =>
    w.modifyEngine e fun s => { s with lock := s.lock.undo .level }) _ = _
  refine ensuring_congr (ensuring_of_ok ?_)
  rw [← hheight]
  exact pinning_eq_ok.2 ⟨w₁, hbody, rfl⟩

/-- It comes to what it comes to in the world in which the host is asked. What is left to do
then is to take the pins off, to let go of the host and to give the lock back. -/
theorem hosted_eq_ok {vs : List Value} {body : Act κ α} {x : α} :
    m.hosted e host vs body w = .ok x w' ↔
      ∃ w₁ w₂, body (w.entered e host vs) = .ok x w₁
        ∧ m.release host (w₁.truncate e (w.engine e).roots.height) = .ok () w₂
        ∧ (w₂.modifyEngine e fun s => { s with lock := s.lock.undo .level }) = w' := by
  have hheight : (((w.modifyEngine e fun s => { s with lock := s.lock.take }).modifyOwners host
      (· + 1)).engine e).roots.height = (w.engine e).roots.height := by simp
  unfold hosted
  rw [locked_eq_ok]
  simp only [sharing_eq_ok, pinning_eq_ok, hheight]
  constructor
  · rintro ⟨w₂, ⟨-, ⟨w₁, hbody, rfl⟩, hrelease⟩, hback⟩
    exact ⟨w₁, w₂, hbody, hrelease, hback⟩
  · rintro ⟨w₁, w₂, hbody, hrelease, hback⟩
    exact ⟨w₂, ⟨_, ⟨w₁, hbody, rfl⟩, hrelease⟩, hback⟩

/-- If the host has another owner by then, nothing more happens. -/
theorem hosted_of_ok {vs : List Value} {body : Act κ α} {x : α} {w₁ : World κ}
    (hbody : body (w.entered e host vs) = .ok x w₁) (ho : 1 < w₁.owners host) :
    m.hosted e host vs body w = .ok x (w₁.left e host (w.engine e).roots.height) :=
  hosted_eq_ok.2 ⟨w₁, _, hbody, release_of_lt_owners m ho, rfl⟩

/-! ## What the host is asked -/

/-- **Read**: the host is asked for the property, and then for a method; last come the
wrapper's own properties. -/
def readThrough (m : Machine κ) (e : EngineId) (h : Handle) (host : NativeId) (name : String) :
    Attempt κ Value := do
  match ← ExceptT.mk (m.askHost e host (.getProperty name)) with
  | some v => pure v
  | none =>
    if ← Act.attempt (m.askHost e host (.hasMethod name)) then
      m.allocate e (.hostMethod h name)
    else
      match ← Act.object e h with
      | .host _ expandos => pure ((expandos.get? name).getD .undefined)
      | _ => pure .undefined

/-- **Write**: the host is asked to, and otherwise the wrapper has the property. -/
def writeThrough (m : Machine κ) (e : EngineId) (h : Handle) (host : NativeId) (name : String)
    (value : Value) : Attempt κ Unit := do
  if ← ExceptT.mk (m.askHost e host (.setProperty name value)) then pure ()
  else ExceptT.mk (Act.storeHeap e [value] (·.isOk) (storeExpando h name value))

/-- **List**: the names that the host contributes, and then the wrapper's own. -/
def listThrough (m : Machine κ) (e : EngineId) (h : Handle) (host : NativeId) :
    Attempt κ (List String) := do
  let contributed ← Act.attempt (m.askHost e host .propertyNames)
  match ← Act.object e h with
  | .host _ expandos => pure (contributed ++ expandos.keys.filter (!contributed.contains ·))
  | _ => pure contributed

/-- Reading a wrapper. -/
theorem get_of_host (m : Machine κ) (hl : (w.engine e).loan.allowsRead = true)
    (hg : (w.engine e).heap.get? h = some (.host host expandos)) (name : String) :
    (m.get e (.object h) name).run w
      = m.hosted e host [.object h] (m.readThrough e h host name).run w := by
  refine locked_congr ?_
  refine (andThen_of_ok (x := Act.expectHandle (.object h)) (b := h) rfl).trans ?_
  exact (andThen_of_ok (object_of_get? (o := .host host expandos) (by simpa using hl)
    (by simpa using hg))).trans rfl

/-- Writing to a wrapper. -/
theorem set_of_host (m : Machine κ) (hl : (w.engine e).loan = .none)
    (hg : (w.engine e).heap.get? h = some (.host host expandos)) (name : String)
    (value : Value) :
    (m.set e (.object h) name value).run w
      = m.hosted e host [.object h, value] (m.writeThrough e h host name value).run w := by
  -- the wrapper hands its host back, and nothing is stored before the host was asked
  have hfirst : storeHeap e [value] storedOwn (storeOwn h name value)
      (w.modifyEngine e fun s => { s with lock := s.lock.take })
        = .ok (.ok (some host)) (w.modifyEngine e fun s => { s with lock := s.lock.take }) := by
    rw [storeHeap_of_isCurrent (by simp [storeOwn_host hg, storedOwn]),
      writeHeap_of_allowsWrite (by simp [Loan.allowsWrite, hl]),
      World.engine_modifyEngine_self, storeOwn_host hg, World.modifyEngine_modifyEngine,
      World.modifyEngine_congr]
    rfl
  refine locked_congr ?_
  refine (andThen_of_ok (x := Act.expectHandle (.object h)) (b := h) rfl).trans ?_
  exact andThen_of_ok
    (x := ExceptT.mk (storeHeap e [value] storedOwn (storeOwn h name value))) hfirst

/-- **A declined write is stored in the wrapper** as the host leaves it. -/
theorem writeThrough_of_declined {w₁ : World κ} {name : String} {value : Value}
    (hask : m.askHost e host (.setProperty name value) w = .ok (.ok false) w₁)
    (hl : (w₁.engine e).loan.allowsWrite = true)
    (hg : (w₁.engine e).heap.get? h = some (.host host expandos)) :
    (m.writeThrough e h host name value).run w
      = .ok (.ok ()) (w₁.storing e h (.host host (expandos.set name value)) value) := by
  have hstore : (ExceptT.mk (storeHeap e [value] (·.isOk) (storeExpando h name value)) :
      Attempt κ Unit).run w₁
        = .ok (.ok ()) (w₁.storing e h (.host host (expandos.set name value)) value) := by
    refine (storeHeap_of_allowsWrite hl [value] (·.isOk) (storeExpando h name value)).trans ?_
    rw [storeExpando_host hg]
    refine congrArg _ (World.modifyEngine_congr ?_)
    rw [World.engine_recordStale]
  exact (andThen_of_ok (f := fun taken : Bool => if taken then pure ()
    else ExceptT.mk (storeHeap e [value] (·.isOk) (storeExpando h name value)))
    (x := ExceptT.mk (m.askHost e host (.setProperty name value))) hask).trans hstore

/-- **A wrapper lists the names that the host contributes**, and after them those of its own,
when the host has answered, that are not among these. -/
theorem listThrough_of_asked {w₁ : World κ} {contributed : List String}
    (hask : m.askHost e host .propertyNames w = .ok contributed w₁)
    (hl : (w₁.engine e).loan.allowsRead = true)
    (hg : (w₁.engine e).heap.get? h = some (.host host expandos)) :
    (m.listThrough e h host).run w
      = .ok (.ok (contributed ++ expandos.keys.filter (· ∉ contributed))) w₁ := by
  have hfilter : expandos.keys.filter (!contributed.contains ·)
      = expandos.keys.filter (· ∉ contributed) :=
    List.filter_congr fun k _ => by rw [List.contains_eq_mem, decide_not]
  refine (andThen_of_ok (attempt_eq_ok.2 ⟨contributed, hask, rfl⟩)).trans ?_
  exact hfilter ▸ andThen_of_ok (object_of_get? hl hg)

/-- Listing a wrapper. -/
theorem names_of_host (m : Machine κ) (hl : (w.engine e).loan.allowsRead = true)
    (hg : (w.engine e).heap.get? h = some (.host host expandos)) :
    (m.names e (.object h)).run w
      = m.hosted e host [.object h] (m.listThrough e h host).run w := by
  refine locked_congr ?_
  refine (andThen_of_ok (x := Act.expectHandle (.object h)) (b := h) rfl).trans ?_
  exact (andThen_of_ok (object_of_get? (o := .host host expandos) (by simpa using hl)
    (by simpa using hg))).trans rfl

end Machine

end EmbeddedScript
