import Mathlib.Logic.Function.Basic
import EmbeddedScript.Program
import EmbeddedScript.Proofs.Roots.Accounts

/-!
# What native code holds

Live roots and shares of proxies pass from hand to hand while a bridge call is under
way: an argument is rooted by its proxy, the proxy is lent to a bound object, a result
is rooted and unrooted again. `World.books` lists what is held at some moment, and
`Books.settle` says what is left of it when something that a frame owns is dropped. A
piece of a program is then accounted for by one equation: **once what it owes is settled,
the books are what they were once what it was given is settled**. In what order things
are settled makes no difference (`Books.settled_perm`).

What a proxy without an owner holds must be gone: otherwise a share of it that is taken
and let go again would drop a root that somebody else holds (`World.Tidy`).
-/

namespace EmbeddedScript

/-! ## Books -/

/-- **What native code holds.** -/
@[ext]
structure Books where
  /-- The live roots. -/
  live : Root → Prop
  /-- The proxies that have owners: the root of each, and the number of its owners. -/
  proxies : NativeId → Option (Root × Nat)
  /-- How often a handle is protected without a root. -/
  net : EngineId → Handle → Int

namespace Books

variable {b : Books} {id id' : NativeId}

/-- The books without a root. -/
def dropRoot (b : Books) (r : Root) : Books := { b with live := fun s => b.live s ∧ s ≠ r }

/-- A proxy with one owner fewer, which is gone with its last owner. -/
def fewer : Option (Root × Nat) → Option (Root × Nat)
  | some (r, n + 2) => some (r, n + 1)
  | _ => none

/-- **The books with one share of a native fewer.** The last share of a proxy takes the
proxy's root along. -/
def letGo (b : Books) (id : NativeId) : Books :=
  { b with
    live := fun s => b.live s ∧ b.proxies id ≠ some (s, 1)
    proxies := Function.update b.proxies id (fewer (b.proxies id)) }

/-- **The books after something that a frame owns is dropped.** -/
def settle (b : Books) : Local → Books
  | .guard _ _ => b
  | .root r => b.dropRoot r
  | .native id => b.letGo id

/-- The books after several things are dropped. -/
def settled (b : Books) (ls : List Local) : Books := ls.foldl settle b

@[simp] theorem settled_nil (b : Books) : b.settled [] = b := rfl

theorem settled_append (b : Books) (ls ls' : List Local) :
    b.settled (ls ++ ls') = (b.settled ls).settled ls' := List.foldl_append

/-- A native that is no proxy has no share in the books. -/
theorem letGo_of_none (h : b.proxies id = none) : b.letGo id = b := by
  refine Books.ext ?_ ?_ rfl
  · funext s
    simp [letGo, h]
  · show Function.update b.proxies id (fewer (b.proxies id)) = b.proxies
    rw [h]
    exact (Function.update_eq_self_iff.2 h.symm)

theorem letGo_comm (b : Books) (id id' : NativeId) :
    (b.letGo id).letGo id' = (b.letGo id').letGo id := by
  by_cases h : id = id'
  · rw [h]
  · refine Books.ext ?_ ?_ rfl
    · funext s
      show ((b.live s ∧ _) ∧ Function.update _ _ _ id' ≠ _)
        = ((b.live s ∧ _) ∧ Function.update _ _ _ id ≠ _)
      rw [Function.update_of_ne (Ne.symm h), Function.update_of_ne h]
      exact propext ⟨fun hs => ⟨⟨hs.1.1, hs.2⟩, hs.1.2⟩, fun hs => ⟨⟨hs.1.1, hs.2⟩, hs.1.2⟩⟩
    · unfold letGo
      simp only [Function.update_of_ne (Ne.symm h), Function.update_of_ne h]
      exact Function.update_comm h _ _ _

theorem settle_comm (b : Books) (l l' : Local) :
    (b.settle l).settle l' = (b.settle l').settle l := by
  have hswap : ∀ {p q r : Prop}, ((p ∧ q) ∧ r) = ((p ∧ r) ∧ q) := by
    intro p q r
    exact propext ⟨fun h => ⟨⟨h.1.1, h.2⟩, h.1.2⟩, fun h => ⟨⟨h.1.1, h.2⟩, h.1.2⟩⟩
  cases l with
  | guard e g => rfl
  | root r =>
    cases l' with
    | guard e g => rfl
    | root r' => exact Books.ext (funext fun s => hswap) rfl rfl
    | native id => exact Books.ext (funext fun s => hswap) rfl rfl
  | native id =>
    cases l' with
    | guard e g => rfl
    | root r => exact Books.ext (funext fun s => hswap) rfl rfl
    | native id' => exact letGo_comm b id id'

/-- **In what order things are dropped makes no difference.** -/
theorem settled_perm (b : Books) {ls ls' : List Local} (hp : ls.Perm ls') :
    b.settled ls = b.settled ls' :=
  hp.foldl_eq' (fun l _ l' _ b => settle_comm b l l') b

end Books

variable {κ : Type} {w w' : World κ} {e : EngineId} {id : NativeId}

namespace World

/-- A proxy that has owners: its root and the number of its owners. -/
def proxyEntry (entry : Option (NativeEntry κ)) : Option (Root × Nat) :=
  match entry with
  | some ⟨.proxy p, n + 1⟩ => some (p.root, n + 1)
  | _ => none

/-- **The books of a world.** -/
def books (w : World κ) : Books where
  live r := r ∈ w.roots
  proxies id := proxyEntry w.natives[id.index]?
  net e h := (w.pins e h : Int) - w.unpins e h

/-- **Proxies hold what was handed out to them**, and nothing any more once they have no
owner. -/
structure Tidy (w : World κ) : Prop where
  /-- Their roots were made. -/
  made : ∀ id p, w.native? id = some (.proxy p) → p.root.serial < w.rootsMade
  /-- The roots of those without an owner are not live. -/
  dropped : ∀ id p, w.native? id = some (.proxy p) → w.owners id = 0 → p.root ∉ w.roots

/-! ## Where the books stay as they are -/

/-- Worlds that differ beside natives and roots only have the same books. -/
theorem books_congr (hn : w'.natives = w.natives) (hr : w'.roots = w.roots)
    (hj : ∀ event : Event, ¬ event.IsNoPin → w'.journal.count event = w.journal.count event) :
    w'.books = w.books := by
  refine Books.ext ?_ ?_ ?_
  · show (fun r => r ∈ w'.roots) = fun r => r ∈ w.roots
    rw [hr]
  · show (fun id : NativeId => proxyEntry w'.natives[id.index]?) = _
    rw [hn]
    rfl
  · funext e h
    show ((w'.journal.count _ : Nat) : Int) - (w'.journal.count _ : Nat) = _
    rw [hj (.pinned e (.object h)) not_false, hj (.unpinned e (.object h)) not_false]
    rfl

theorem Tidy.congr (hw : w.Tidy) (hn : w'.natives = w.natives) (hr : w'.roots = w.roots)
    (hm : w'.rootsMade = w.rootsMade) : w'.Tidy := by
  have hnative : ∀ id, w'.native? id = w.native? id := fun id => by
    rw [native?, hn, native?]
  have howners : ∀ id, w'.owners id = w.owners id := fun id => by
    rw [owners, hn, owners]
  refine ⟨fun id p hp => ?_, fun id p hp ho => ?_⟩
  · rw [hm]
    exact hw.made id p (hnative id ▸ hp)
  · rw [hr]
    exact hw.dropped id p (hnative id ▸ hp) (howners id ▸ ho)

theorem books_record (w : World κ) {event : Event} (hn : event.IsNoPin) :
    (w.record event).books = w.books :=
  books_congr rfl rfl (count_record w hn)

theorem Tidy.record (hw : w.Tidy) (event : Event) : (w.record event).Tidy :=
  hw.congr rfl rfl rfl

theorem Tidy.modifyEngine (hw : w.Tidy) (e : EngineId) (f : Engine → Engine) :
    (w.modifyEngine e f).Tidy :=
  hw.congr rfl rfl rfl

theorem books_modifyEngine (w : World κ) (e : EngineId) (f : Engine → Engine) :
    (w.modifyEngine e f).books = w.books :=
  books_congr rfl rfl fun _ _ => rfl

/-! ## Natives -/

end World

/-- The native is a proxy. -/
def Native.isProxy : Native κ → Bool
  | .proxy _ => true
  | _ => false

namespace World

/-- Of a native it matters to the books only whether it is a proxy. -/
theorem proxyEntry_eq_none {n : Native κ} (hn : ∀ p, n ≠ .proxy p) (k : Nat) :
    proxyEntry (some ⟨n, k⟩) = none := by
  cases n with
  | proxy p => exact absurd rfl (hn p)
  | _ => rfl

/-- What a change of owners does to the books is seen at the native itself. -/
theorem proxies_modifyOwners (w : World κ) (id : NativeId) (f : Nat → Nat) :
    (w.modifyOwners id f).books.proxies = Function.update w.books.proxies id
      (proxyEntry (w.natives[id.index]?.map fun n => { n with owners := f n.owners })) := by
  funext i
  show proxyEntry (w.modifyOwners id f).natives[i.index]? = _
  rw [natives_modifyOwners]
  by_cases h : id = i
  · rw [if_pos h, h, Function.update_self]
  · rw [if_neg h, Function.update_of_ne (Ne.symm h)]
    rfl

/-- **A share that is taken and let go again leaves no trace** in the books. -/
theorem letGo_books_retain (hw : w.Tidy) (id : NativeId) :
    (w.modifyOwners id (· + 1)).books.letGo id = w.books := by
  have hlive : (w.modifyOwners id (· + 1)).books.live = w.books.live := rfl
  have hself : ∀ o, Function.update (Function.update w.books.proxies id o) id
      (w.books.proxies id) = w.books.proxies := fun o => by
    rw [Function.update_idem, Function.update_eq_self]
  cases hid : w.natives[id.index]? with
  | none =>
    have hnone : w.books.proxies id = none := by
      show proxyEntry w.natives[id.index]? = none
      rw [hid]
      rfl
    have hsame : (w.modifyOwners id (· + 1)).books = w.books := by
      refine Books.ext rfl ?_ rfl
      rw [proxies_modifyOwners, hid]
      exact Function.update_eq_self_iff.2 hnone.symm
    rw [hsame, Books.letGo_of_none hnone]
  | some entry =>
    obtain ⟨n, k⟩ := entry
    have hentry : w.books.proxies id = proxyEntry (some ⟨n, k⟩) := by
      show proxyEntry w.natives[id.index]? = _
      rw [hid]
    have hafter : (w.modifyOwners id (· + 1)).books.proxies id
        = proxyEntry (some ⟨n, k + 1⟩) := by
      rw [proxies_modifyOwners, Function.update_self, hid]
      rfl
    refine Books.ext ?_ ?_ rfl
    · funext r
      show (r ∈ w.roots ∧ (w.modifyOwners id (· + 1)).books.proxies id ≠ some (r, 1))
        = (r ∈ w.roots)
      rw [hafter]
      refine propext ⟨fun h => h.1, fun hr => ⟨hr, fun hone => ?_⟩⟩
      -- a proxy whose only owner is the new one had none, and its root was dropped
      cases n with
      | proxy p =>
        obtain ⟨rfl, hk⟩ : p.root = r ∧ k = 0 := by simpa [proxyEntry] using hone
        exact hw.dropped id p (native?_eq_some_iff.2 ⟨k, hid⟩) (by rw [owners_of_some hid, hk]) hr
      | _ => cases hone
    · show Function.update (w.modifyOwners id (· + 1)).books.proxies id
        (Books.fewer ((w.modifyOwners id (· + 1)).books.proxies id)) = w.books.proxies
      have hfewer : Books.fewer (proxyEntry (some ⟨n, k + 1⟩)) = w.books.proxies id := by
        rw [hentry]
        cases n with
        | proxy p => cases k <;> rfl
        | _ => rfl
      rw [hafter, hfewer, proxies_modifyOwners]
      exact hself _

/-- A share more of a native that is no proxy is not in the books. -/
theorem books_retain (hw : w.Tidy) (h : ∀ p, w.native? id ≠ some (.proxy p)) :
    (w.modifyOwners id (· + 1)).books = w.books := by
  rw [← letGo_books_retain hw id, Books.letGo_of_none]
  rw [proxies_modifyOwners, Function.update_self]
  cases hid : w.natives[id.index]? with
  | none => rfl
  | some entry =>
    obtain ⟨n, k⟩ := entry
    refine proxyEntry_eq_none (fun p hp => ?_) (k + 1)
    obtain rfl : n = .proxy p := hp
    exact h p (native?_eq_some_iff.2 ⟨k, hid⟩)

theorem Tidy.retain (hw : w.Tidy) (id : NativeId) : (w.modifyOwners id (· + 1)).Tidy := by
  have hnative := native?_modifyOwners w id (· + 1)
  refine ⟨fun i p hp => hw.made i p (hnative i ▸ hp), fun i p hp ho => ?_⟩
  refine hw.dropped i p (hnative i ▸ hp) ?_
  rw [owners, natives_modifyOwners] at ho
  rw [owners]
  by_cases h : id = i
  · rw [if_pos h] at ho
    cases hi : w.natives[i.index]? with
    | none => rfl
    | some entry =>
      rw [hi] at ho
      exact absurd ho (Nat.succ_ne_zero _)
  · rwa [if_neg h] at ho

/-! ## Roots -/

/-- **A root that is made and dropped again leaves no trace** in the books. -/
theorem dropRoot_books_addRoot (hw : w.Numbered) (e : EngineId) (v : Value) :
    (w.addRoot e v).2.books.dropRoot (w.addRoot e v).1 = w.books := by
  refine Books.ext ?_ rfl rfl
  funext r
  show (r ∈ (w.addRoot e v).1 :: w.roots ∧ r ≠ (w.addRoot e v).1) = (r ∈ w.roots)
  refine propext ⟨fun h => (List.mem_cons.1 h.1).resolve_left h.2, fun hr =>
    ⟨List.mem_cons_of_mem _ hr, ?_⟩⟩
  rintro rfl
  exact Nat.lt_irrefl _ (hw.lt _ hr)

theorem Tidy.addRoot (hw : w.Tidy) (e : EngineId) (v : Value) : (w.addRoot e v).2.Tidy := by
  refine ⟨fun i p hp => Nat.lt_succ_of_lt (hw.made i p hp), fun i p hp ho hr => ?_⟩
  rcases List.mem_cons.1 hr with hr | hr
  · have hlt := hw.made i p hp
    rw [hr] at hlt
    exact Nat.lt_irrefl _ hlt
  · exact hw.dropped i p hp ho hr

@[simp] theorem rootsMade_dropRoot (w : World κ) (r : Root) :
    (w.dropRoot r).rootsMade = w.rootsMade := by
  unfold World.dropRoot
  split <;> rfl

/-- A root that is dropped is live no more, and the others are. -/
theorem mem_roots_dropRoot (hw : w.Numbered) {r s : Root} :
    s ∈ (w.dropRoot r).roots ↔ s ∈ w.roots ∧ s ≠ r := by
  unfold World.dropRoot
  split
  case isTrue hr =>
    show s ∈ w.roots.erase r ↔ _
    rw [hw.nodup.mem_erase_iff, and_comm]
  case isFalse hr => exact ⟨fun hs => ⟨hs, fun h => hr (h ▸ hs)⟩, fun hs => hs.1⟩

/-- **Dropping a root strikes it out** of the books. -/
theorem books_dropRoot (hw : w.Numbered) (r : Root) :
    (w.dropRoot r).books = w.books.dropRoot r := by
  refine Books.ext (funext fun s => propext (mem_roots_dropRoot hw)) ?_ ?_
  · show (fun id : NativeId => proxyEntry (w.dropRoot r).natives[id.index]?) = _
    rw [natives_dropRoot]
    rfl
  · funext e h
    show ((w.dropRoot r).journal.count _ : Int) - (w.dropRoot r).journal.count _ = _
    rw [journal_dropRoot]
    rfl

theorem Tidy.dropRoot (hw : w.Tidy) (r : Root) : (w.dropRoot r).Tidy := by
  unfold World.dropRoot
  split
  case isTrue hr =>
    refine ⟨hw.made, fun i p hp ho hmem => ?_⟩
    exact hw.dropped i p hp ho (List.mem_of_mem_erase hmem)
  case isFalse => exact hw

/-! ## New natives -/

theorem proxies_addNative (w : World κ) (n : Native κ) :
    (w.addNative n).2.books.proxies
      = Function.update w.books.proxies (w.addNative n).1 (proxyEntry (some ⟨n, 1⟩)) := by
  funext i
  show proxyEntry (w.addNative n).2.natives[i.index]? = _
  rw [natives_addNative]
  by_cases h : i = (w.addNative n).1
  · rw [if_pos h, h, Function.update_self]
  · rw [if_neg h, Function.update_of_ne h]
    rfl

/-- The name of a new native was not in use. -/
theorem proxies_addNative_fst (w : World κ) (n : Native κ) :
    w.books.proxies (w.addNative n).1 = none := by
  show proxyEntry w.natives[w.natives.size]? = none
  rw [Array.getElem?_eq_none (Nat.le_refl _)]
  rfl

/-- **A new proxy that is let go takes its root along**, and nothing else. -/
theorem letGo_books_addNative (w : World κ) (p : Proxy) :
    (w.addNative (.proxy p)).2.books.letGo (w.addNative (.proxy p)).1
      = w.books.dropRoot p.root := by
  have hentry : (w.addNative (.proxy p)).2.books.proxies (w.addNative (.proxy p)).1
      = some (p.root, 1) := by
    rw [proxies_addNative, Function.update_self]
    rfl
  refine Books.ext ?_ ?_ rfl
  · funext r
    show (r ∈ w.roots ∧ (w.addNative (.proxy p)).2.books.proxies _ ≠ some (r, 1))
      = (r ∈ w.roots ∧ r ≠ p.root)
    rw [hentry]
    exact propext (and_congr_right fun _ => by simp [eq_comm])
  · show Function.update (w.addNative (.proxy p)).2.books.proxies (w.addNative (.proxy p)).1
      (Books.fewer ((w.addNative (.proxy p)).2.books.proxies (w.addNative (.proxy p)).1))
        = w.books.proxies
    rw [hentry, proxies_addNative, Function.update_idem]
    exact Function.update_eq_self_iff.2 (proxies_addNative_fst w _).symm

/-- Any other new native is not in the books. -/
theorem books_addNative (w : World κ) {n : Native κ} (hn : ∀ p, n ≠ .proxy p) :
    (w.addNative n).2.books = w.books := by
  refine Books.ext rfl ?_ rfl
  rw [proxies_addNative, proxyEntry_eq_none hn]
  exact Function.update_eq_self_iff.2 (proxies_addNative_fst w _).symm

theorem Tidy.addNative (hw : w.Tidy) {n : Native κ}
    (hn : ∀ p, n = .proxy p → p.root.serial < w.rootsMade) : (w.addNative n).2.Tidy := by
  have hcases : ∀ i p, (w.addNative n).2.native? i = some (.proxy p) →
      (i = (w.addNative n).1 ∧ n = .proxy p) ∨ (i ≠ (w.addNative n).1
        ∧ w.native? i = some (.proxy p)) := by
    intro i p hp
    rw [native?, natives_addNative] at hp
    by_cases h : i = (w.addNative n).1
    · rw [if_pos h] at hp
      exact .inl ⟨h, by simpa using hp⟩
    · rw [if_neg h] at hp
      exact .inr ⟨h, hp⟩
  refine ⟨fun i p hp => ?_, fun i p hp ho => ?_⟩
  · rcases hcases i p hp with ⟨-, hp⟩ | ⟨-, hp⟩
    · exact hn p hp
    · exact hw.made i p hp
  · rw [owners, natives_addNative] at ho
    rcases hcases i p hp with ⟨h, -⟩ | ⟨h, hp⟩
    · rw [if_pos h] at ho
      exact absurd ho Nat.one_ne_zero
    · rw [if_neg h] at ho
      exact hw.dropped i p hp ho

/-- **A native that is no proxy gives way to another one.** -/
theorem books_setNative {n n' : Native κ} (h : w.native? id = some n) (hn : ∀ p, n ≠ .proxy p)
    (hn' : ∀ p, n' ≠ .proxy p) : (w.setNative id n').books = w.books := by
  obtain ⟨k, hk⟩ := native?_eq_some_iff.1 h
  refine Books.ext rfl (funext fun i => ?_) rfl
  show proxyEntry (w.setNative id n').natives[i.index]? = proxyEntry w.natives[i.index]?
  rw [natives_setNative]
  by_cases hi : id = i
  · rw [if_pos hi, ← hi, hk, proxyEntry_eq_none hn]
    exact proxyEntry_eq_none hn' k
  · rw [if_neg hi]

theorem Tidy.setNative (hw : w.Tidy) (id : NativeId) {n : Native κ} (hn : ∀ p, n ≠ .proxy p) :
    (w.setNative id n).Tidy := by
  have hproxy : ∀ i p, (w.setNative id n).native? i = some (.proxy p) →
      id ≠ i ∧ w.native? i = some (.proxy p) := by
    intro i p hp
    rw [native?, natives_setNative] at hp
    by_cases hi : id = i
    · rw [if_pos hi, Option.map_map, Option.map_eq_some_iff] at hp
      obtain ⟨entry, -, hp⟩ := hp
      exact absurd hp (hn p)
    · rw [if_neg hi] at hp
      exact ⟨hi, hp⟩
  refine ⟨fun i p hp => hw.made i p (hproxy i p hp).2, fun i p hp ho => ?_⟩
  obtain ⟨hi, hp⟩ := hproxy i p hp
  rw [owners, natives_setNative, if_neg hi] at ho
  exact hw.dropped i p hp ho

/-! ## Shares that are let go -/

theorem proxies_letGo (w : World κ) (id : NativeId) :
    (w.modifyOwners id (· - 1)).books.proxies
      = Function.update w.books.proxies id (Books.fewer (w.books.proxies id)) := by
  rw [proxies_modifyOwners]
  refine congrArg (Function.update w.books.proxies id) ?_
  show _ = Books.fewer (proxyEntry w.natives[id.index]?)
  cases w.natives[id.index]? with
  | none => rfl
  | some entry =>
    obtain ⟨n, k⟩ := entry
    cases n with
    | proxy p => rcases k with - | - | k <;> rfl
    | _ => rfl

/-- **A share is let go that was not the last one of a proxy.** -/
theorem books_letGo (h : ∀ r, w.books.proxies id ≠ some (r, 1)) :
    (w.modifyOwners id (· - 1)).books = w.books.letGo id := by
  refine Books.ext ?_ (proxies_letGo w id) rfl
  funext r
  show (r ∈ w.roots) = (r ∈ w.roots ∧ w.books.proxies id ≠ some (r, 1))
  exact propext ⟨fun hr => ⟨hr, h r⟩, fun hr => hr.1⟩

/-- Of a proxy that is left without an owner the root must go, if it is to be tidy. -/
theorem dropped_letGo (hw : w.Tidy) {i : NativeId} {p : Proxy}
    (hp : w.native? i = some (.proxy p)) (ho : (w.modifyOwners id (· - 1)).owners i = 0)
    (hone : id = i → w.books.proxies id ≠ some (p.root, 1)) : p.root ∉ w.roots := by
  refine hw.dropped i p hp ?_
  obtain ⟨k, hk⟩ := native?_eq_some_iff.1 hp
  rw [owners, natives_modifyOwners, hk] at ho
  rw [owners_of_some hk]
  by_cases h : id = i
  · rw [if_pos h] at ho
    have hk₁ : k ≠ 1 := by
      rintro rfl
      refine hone h ?_
      show proxyEntry w.natives[id.index]? = _
      rw [h, hk]
      rfl
    have hle : k - 1 = 0 := ho
    omega
  · rwa [if_neg h] at ho

theorem Tidy.letGo (hw : w.Tidy) (h : ∀ r, w.books.proxies id ≠ some (r, 1)) :
    (w.modifyOwners id (· - 1)).Tidy := by
  refine ⟨fun i p hp => ?_, fun i p hp ho => ?_⟩
  · rw [native?_modifyOwners] at hp
    exact hw.made i p hp
  · rw [native?_modifyOwners] at hp
    exact dropped_letGo hw hp ho fun _ => h _

/-- **The last share of a proxy takes its root along.** -/
theorem books_letGo_last {p : Proxy} (h : w.natives[id.index]? = some ⟨.proxy p, 1⟩) :
    (w.modifyOwners id (· - 1)).books.dropRoot p.root = w.books.letGo id := by
  have hentry : w.books.proxies id = some (p.root, 1) := by
    show proxyEntry w.natives[id.index]? = _
    rw [h]
    rfl
  refine Books.ext ?_ (proxies_letGo w id) rfl
  funext r
  show (r ∈ w.roots ∧ r ≠ p.root) = (r ∈ w.roots ∧ w.books.proxies id ≠ some (r, 1))
  rw [hentry]
  exact propext (and_congr_right fun _ => by simp [eq_comm])

/-- Going on record makes no difference to a root that is dropped. -/
theorem dropRoot_record (w : World κ) (event : Event) (r : Root) :
    (w.record event).dropRoot r = (w.dropRoot r).record event := by
  unfold World.dropRoot
  split
  case isTrue hr => rw [if_pos (show r ∈ w.roots from hr)]; rfl
  case isFalse hr => rw [if_neg (show r ∉ w.roots from hr)]

/-- Live roots are told apart whoever owns natives. -/
theorem Numbered.modifyOwners (hw : w.Numbered) (id : NativeId) (f : Nat → Nat) :
    (w.modifyOwners id f).Numbered :=
  ⟨hw.nodup, hw.lt⟩

theorem Tidy.letGo_last (hw : w.Tidy) (hn : w.Numbered) {p : Proxy}
    (h : w.natives[id.index]? = some ⟨.proxy p, 1⟩) :
    ((w.modifyOwners id (· - 1)).dropRoot p.root).Tidy := by
  have hnative : ∀ i, ((w.modifyOwners id (· - 1)).dropRoot p.root).native? i
      = w.native? i := by
    intro i
    rw [native?, natives_dropRoot, ← native?, native?_modifyOwners]
  refine ⟨fun i q hq => ?_, fun i q hq ho hr => ?_⟩
  · rw [rootsMade_dropRoot]
    exact hw.made i q (hnative i ▸ hq)
  · obtain ⟨hr, hne⟩ := (mem_roots_dropRoot (hn.modifyOwners id _)).1 hr
    rw [owners, natives_dropRoot, ← owners] at ho
    refine dropped_letGo hw (hnative i ▸ hq) ho (fun _ hone => ?_) hr
    have hentry : w.books.proxies id = some (p.root, 1) := by
      show proxyEntry w.natives[id.index]? = _
      rw [h]
      rfl
    rw [hentry, Option.some.injEq, Prod.mk.injEq] at hone
    exact hne hone.1.symm

end World

end EmbeddedScript
