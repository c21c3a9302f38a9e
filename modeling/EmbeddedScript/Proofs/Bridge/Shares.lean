import EmbeddedScript.Proofs.Bridge.Arguments
import EmbeddedScript.Proofs.Bridge.Ledger
import EmbeddedScript.Proofs.Machine.Wrappers

/-!
# The shares of arguments

The arguments of an invocation own shares while the bound object runs: one of the bound
object behind each wrapper, and one of the new proxy that stands for any other object. They
are taken when the arguments are converted, and let go of when the bound object is done.

**Neither runs anybody's code**, provided that what is behind a wrapper has an owner
besides, as it has while the wrapper is pinned. So each of the two changes nothing but
owners, and the roots that proxies own; how these change is one equation of the books
(`World.Converts`, `World.LetsGo`).
-/

namespace EmbeddedScript

open Act Machine

variable {κ α : Type} {w w' w'' : World κ} {e : EngineId}

/-! ## Engines beside their persistent roots -/

/-- An engine without its persistent roots. -/
def Engine.rootless (s : Engine) : Engine :=
  { s with roots := { s.roots with persistent := [] } }

theorem Engine.rootless_protect (s : Engine) (v : Value) :
    { s with roots := s.roots.protect v }.rootless = s.rootless := by
  cases v <;> rfl

theorem Engine.rootless_unprotect (s : Engine) (v : Value) :
    { s with roots := s.roots.unprotect v }.rootless = s.rootless := by
  cases v <;> rfl

namespace World

theorem rootless_addRoot (w : World κ) (e e' : EngineId) (v : Value) :
    ((w.addRoot e v).2.engine e').rootless = (w.engine e').rootless := by
  rw [engine_addRoot]
  split
  · next he => rw [Engine.rootless_protect, he]
  · rfl

theorem rootless_dropRoot (w : World κ) (r : Root) (e : EngineId) :
    ((w.dropRoot r).engine e).rootless = (w.engine e).rootless := by
  rw [engine_dropRoot]
  split
  · exact Engine.rootless_unprotect _ _
  · rfl

end World

/-! ## Taking them -/

/-- **What a conversion of arguments leaves behind**: something that stands for each of
them, and shares and roots that are owned by that. -/
structure World.Converts (w w' : World κ) (e : EngineId) (registry : RegistryId)
    (args : List Value) (ns : List NativeValue) : Prop where
  /-- Each argument has what stands for it. -/
  standsFor : args.Forall₂ (w'.StandsFor e registry) ns
  /-- What conversions read is as it was, and nobody was asked. -/
  alike : w.ConvertsAlike w' e
  /-- Engines change in their persistent roots only. -/
  rootless : ∀ e', (w'.engine e').rootless = (w.engine e').rootless
  /-- Once the shares are let go of, the books are as before. -/
  settled : w.Tidy → w'.books.settled (NativeValue.shares ns) = w.books

namespace Machine

variable {m : Machine κ}

theorem rootless_of_toNative (hl : (w.engine e).loan.allowsRead = true)
    {registry : RegistryId} {v : Value} {owned rest : List Local} {n : NativeValue}
    (h : m.eval (Program.toNative e registry v) owned w = .ok (n, rest) w') (e' : EngineId) :
    (w'.engine e').rootless = (w.engine e').rootless := by
  cases v with
  | object k =>
    cases hb : w.bound? e (.object k) with
    | some bound =>
      obtain ⟨-, rfl⟩ :=
        EStateM.Result.ok.inj ((toNative_of_bound hl hb registry owned).symm.trans h)
      rfl
    | none =>
      obtain ⟨-, rfl⟩ :=
        EStateM.Result.ok.inj ((toNative_of_object hl hb registry owned).symm.trans h)
      exact World.rootless_addRoot w e e' _
  | _ =>
    obtain ⟨-, rfl⟩ := pure_eq_ok.1 h
    rfl

theorem rootless_of_toNatives (hl : (w.engine e).loan.allowsRead = true)
    {registry : RegistryId} {vs : List Value} {owned rest : List Local} {ns : List NativeValue}
    (h : m.eval (Program.toNatives e registry vs) owned w = .ok (ns, rest) w')
    (e' : EngineId) : (w'.engine e').rootless = (w.engine e').rootless := by
  induction vs generalizing w owned rest ns with
  | nil =>
    obtain ⟨-, rfl⟩ := pure_eq_ok.1 h
    rfl
  | cons v vs ih =>
    obtain ⟨n, rest₁, w₁, hfirst, h⟩ := eval_bind_eq_ok.1 h
    obtain ⟨others, rest₂, w₂, hothers, h⟩ := eval_bind_eq_ok.1 h
    obtain ⟨-, rfl⟩ := pure_eq_ok.1 h
    have hsame := rootless_of_toNative hl hfirst
    have hloan : (w₁.engine e).loan = (w.engine e).loan :=
      show (w₁.engine e).rootless.loan = (w.engine e).rootless.loan by rw [hsame e]
    exact (ih (hloan ▸ hl) hothers).trans (hsame e')

end Machine

/-- **Arguments are converted**, whatever natives do. -/
theorem World.Reachable.exists_converts (hw : w.Reachable)
    (hl : (w.engine e).loan.allowsRead = true) (registry : RegistryId) (args : List Value) :
    ∃ ns w', (∀ (m : Machine κ) (owned : List Local),
        m.eval (Program.toNatives e registry args) owned w = .ok (ns, owned) w')
      ∧ w'.Reachable ∧ w.Converts w' e registry args ns := by
  obtain ⟨ns, w', hconvert, hs, halike⟩ := exists_toNatives hl registry args
  -- any natives will do to say what came of the worlds
  let b : Behaviour κ := ⟨fun _ _ _ => .panic .noAnswer, fun _ => .done ()⟩
  have heval := hconvert (b.machine 0) []
  have hreach := (b.reaches_run 0 (Program.toNatives e registry args) [] hw.sound).1
  rw [after_of_ok (run_eq_ok.2 ⟨[], w', heval, rfl⟩)] at hreach
  refine ⟨ns, w', hconvert, hw.trans hreach, hs, halike,
    rootless_of_toNatives hl heval, fun hy => ?_⟩
  have hsettles : Program.Settles (b.machine 0) (b.machine 0) []
      (Program.toNatives e registry args) NativeValue.debts := Thrifty.toNatives e registry args
  obtain ⟨-, -, -, hbooks⟩ := hsettles _ _ _ _ _ hw hy heval
  exact hbooks.books

/-! ## Letting go of them -/

/-- **What letting go of some shares leaves behind**, if nobody but proxies lost the last
owner. -/
structure World.LetsGo (w w' : World κ) (ids : List NativeId) : Prop where
  /-- It takes steps to do. -/
  reaches : w.Reaches w'
  /-- Engines change in their persistent roots only. -/
  rootless : ∀ e, (w'.engine e).rootless = (w.engine e).rootless
  /-- Natives are what they were. -/
  native : ∀ id, w'.native? id = w.native? id
  /-- Each share is one owner. -/
  owners : ∀ id, w'.owners id = w.owners id - ids.count id
  /-- And the last share of a proxy takes the proxy's root along. -/
  books : w'.books = w.books.settled (ids.map .native)

/-- **These shares can be let go of**: whoever owns them is not the only owner, or they are
shares of proxies. -/
def World.Spares (w : World κ) (ids : List NativeId) : Prop :=
  ∀ id ∈ ids, ids.count id < w.owners id ∨ ∃ p, w.native? id = some (.proxy p)

instance (w : World κ) (ids : List NativeId) : Decidable (w.Spares ids) :=
  decidable_of_iff (∀ id ∈ ids, ids.count id < w.owners id
      ∨ (w.native? id).any Native.isProxy = true) <|
    forall₂_congr fun id _ => or_congr_right <| by
      cases w.native? id with
      | none => simp
      | some n => cases n <;> simp [Native.isProxy]

namespace World

theorem LetsGo.cons {id : NativeId} {ids : List NativeId} (h : w.LetsGo w' [id])
    (h' : w'.LetsGo w'' ids) : w.LetsGo w'' (id :: ids) where
  reaches := h.reaches.trans h'.reaches
  rootless e := (h'.rootless e).trans (h.rootless e)
  native i := (h'.native i).trans (h.native i)
  owners i := by
    rw [h'.owners, h.owners, Nat.sub_sub, ← List.count_append]
    rfl
  books := by
    rw [h'.books, h.books, ← Books.settled_append]
    rfl

/-- Who does not let go of a share that is there leaves the number of its owners. -/
theorem owners_letGo (w : World κ) (id i : NativeId) :
    (w.modifyOwners id (· - 1)).owners i = w.owners i - [id].count i := by
  rw [World.owners, natives_modifyOwners, World.owners, List.count_singleton]
  by_cases hi : id = i
  · subst hi
    cases w.natives[id.index]? with
    | none => simp
    | some entry => simp
  · simp [hi]

end World

/-- A proxy that loses its last owner drops its root. -/
theorem Behaviour.finalise_proxy (b : Behaviour κ) (depth : Nat) (p : Proxy) (w : World κ) :
    (b.machine (depth + 1)).finalise (.proxy p) w = .ok () (w.dropRoot p.root) := rfl

variable {b : Behaviour κ} {depth : Nat}

/-- **A share is let go of**, and nobody is finalised but a proxy. -/
theorem Behaviour.exists_release (b : Behaviour κ) (depth : Nat) (hw : w.Reachable)
    {id : NativeId} (h : 1 < w.owners id ∨ ∃ p, w.native? id = some (.proxy p)) :
    ∃ w', (b.machine (depth + 1)).release id w = .ok () w' ∧ w.LetsGo w' [id] := by
  have hstep : w.Reaches (w.modifyOwners id (· - 1)) :=
    .single (.move (.aside (.modifyOwners w id _)))
  obtain ⟨n, k, hn⟩ : ∃ n k, w.natives[id.index]? = some ⟨n, k⟩ := by
    rcases h with h | ⟨p, h⟩
    · obtain ⟨n, k, hn⟩ := World.exists_of_isAlive (decide_eq_true (Nat.lt_of_succ_lt h))
      exact ⟨n, k + 1, hn⟩
    · obtain ⟨k, hn⟩ := World.native?_eq_some_iff.1 h
      exact ⟨.proxy p, k, hn⟩
  by_cases hk : k = 1
  · -- the last owner, so it is a proxy that is finalised
    subst hk
    obtain ⟨p, rfl⟩ : ∃ p, n = .proxy p := by
      rcases h with h | ⟨p, h⟩
      · rw [World.owners_of_some hn] at h
        exact absurd h (Nat.lt_irrefl 1)
      · exact ⟨p, Option.some.inj ((World.native?_eq_some_iff.2 ⟨1, hn⟩).symm.trans h)⟩
    have hnopin : (Event.finalised id (w.modifyOwners id (· - 1)).postures).IsNoPin := trivial
    refine ⟨_, (release_of_last _ hn).trans (b.finalise_proxy depth p _), ?_, fun e => ?_,
      fun i => ?_, fun i => ?_, ?_⟩
    · exact (hstep.tail (.move (.recorded hnopin))).tail (.move (.unrooted _))
    · exact World.rootless_dropRoot _ _ e
    · rw [World.native?, World.natives_dropRoot]
      exact World.native?_modifyOwners w id (· - 1) i
    · rw [World.owners, World.natives_dropRoot]
      exact w.owners_letGo id i
    · rw [World.dropRoot_record, World.books_record _ hnopin,
        World.books_dropRoot (hw.numbered.modifyOwners id _), World.books_letGo_last hn]
      rfl
  · refine ⟨_, release_of_ne_one _ hn hk, hstep, fun e => rfl, World.native?_modifyOwners w id _,
      w.owners_letGo id, World.books_letGo fun r hr => hk ?_⟩
    have hentry : World.proxyEntry (some ⟨n, k⟩) = some (r, 1) := hn ▸ hr
    cases n with
    | proxy p => cases k <;> simp_all [World.proxyEntry]
    | _ => cases hentry

/-- **Shares that a frame owns are dropped**, the first of them first. -/
theorem Behaviour.exists_dropping (b : Behaviour κ) (depth : Nat) (hw : w.Reachable)
    {ids : List NativeId} (h : w.Spares ids) (x : α) :
    ∃ w', (b.machine (depth + 1)).eval (Program.dropping x ids.length) (ids.map .native) w
        = .ok (x, []) w' ∧ w.LetsGo w' ids := by
  induction ids generalizing w with
  | nil => exact ⟨w, rfl, .refl, fun _ => rfl, fun _ => rfl, fun _ => rfl, rfl⟩
  | cons id ids ih =>
    have hfirst : 1 < w.owners id ∨ ∃ p, w.native? id = some (.proxy p) := by
      refine (h id List.mem_cons_self).imp_left fun hlt => Nat.lt_of_le_of_lt ?_ hlt
      rw [List.count_cons_self]
      exact Nat.succ_le_succ (Nat.zero_le _)
    obtain ⟨w₁, hrelease, hone⟩ := b.exists_release depth hw hfirst
    have hothers : w₁.Spares ids := by
      intro i hi
      refine (h i (List.mem_cons_of_mem id hi)).imp (fun hlt => ?_) fun hp => ?_
      · rw [hone.owners]
        rw [← List.singleton_append, List.count_append] at hlt
        omega
      · rwa [hone.native]
    obtain ⟨w', hdropped, hrest⟩ := ih (hw.trans hone.reaches) hothers
    exact ⟨w', bind_eq_ok.2 ⟨(), w₁, hrelease, hdropped⟩, hone.cons hrest⟩

end EmbeddedScript
