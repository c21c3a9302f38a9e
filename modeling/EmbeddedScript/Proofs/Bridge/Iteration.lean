import EmbeddedScript.Proofs.Bridge.Engines
import EmbeddedScript.Proofs.Bridge.Presence
import EmbeddedScript.Proofs.Roots.Lifetime

/-!
# Iteration

A script value iterates over the names that its object had when the iteration started. What
is left of an iteration is a list of names (`ScriptValue.remaining`): going on takes the first
of them away, and nothing that happens to the object adds, removes or moves one.

The cursor has no root of its own. It is sound because it is **always one of the value that
is held** (`ScriptValue.Coherent`): whatever its holder does to a script value keeps its root,
and then the cursor's object too, or makes a new root, and then the cursor is gone
(`ScriptValue.Outcome`). So the object under a cursor stays the live object that it was when
the iteration started, for as long as nobody takes a protection away that he did not give.
-/

namespace EmbeddedScript

open Act Machine ScriptValue

variable {κ : Type} {w w' w₁ : World κ} {e : EngineId} {h : Handle} {m : Machine κ}
  {s s' s₁ : ScriptValue} {name : String}

/-! ## Cursors -/

namespace ScriptValue

/-- **The names that are still to be visited**, the current one first. -/
def remaining (s : ScriptValue) : List String :=
  match s.cursor with
  | some c => c.names.drop c.position
  | none => []

/-- A cursor that is handed out stands at a name of its snapshot. -/
theorem current?_eq_some_iff {c : Cursor} :
    s.current? = some (c, name) ↔ s.cursor = some c ∧ c.names[c.position]? = some name := by
  rw [current?, Option.bind_eq_some_iff]
  simp [Cursor.name?, Option.map_eq_some_iff]

/-- It stands at the first of the names that are left. -/
theorem map_current? (s : ScriptValue) : s.current?.map Prod.snd = s.remaining.head? := by
  cases hc : s.cursor with
  | none => simp [current?, remaining, hc]
  | some c =>
    simp [current?, remaining, hc, Cursor.name?, List.head?_drop, Function.comp_def]

/-- **Going on takes the first name away**, and nothing when there is none. -/
theorem remaining_next (s : ScriptValue) : s.next.remaining = s.remaining.tail := by
  cases hc : s.cursor with
  | none => simp [next, remaining, hc]
  | some c =>
    -- past the end nothing is left, so it does not matter that the position stays there
    have hdrop : c.names.drop (min (c.position + 1) c.names.length)
        = c.names.drop (c.position + 1) := by
      rcases Nat.le_total (c.position + 1) c.names.length with hle | hle
      · rw [Nat.min_eq_left hle]
      · rw [Nat.min_eq_right hle, List.drop_length, List.drop_eq_nil_of_le hle]
    simp [next, remaining, hc, Cursor.advance, hdrop]

end ScriptValue

namespace Cursor

variable {c : Cursor}

/-- What was read is rooted. -/
def Roots (e : EngineId) (g : Except EngineError Value) (w : World κ)
    (r : Except EngineError Root) (w' : World κ) : Prop :=
  match g with
  | .error err => r = .error err ∧ w' = w
  | .ok v => r = .ok (w.addRoot e v).1 ∧ w' = (w.addRoot e v).2

/-- **What a cursor reads is read off its object then**, and rooted. -/
theorem run_value_eq_ok {r : Except EngineError Root} :
    m.run (c.value name) [] w = .ok r w' ↔
      ∃ g w₁, (m.get c.engine c.subject name).run w = .ok g w₁ ∧ Roots c.engine g w₁ r w' := by
  rw [value, run_op_bind_eq_ok]
  refine exists_congr fun g => exists_congr fun w₁ => and_congr_right fun _ => ?_
  cases g with
  | error err => exact run_pure_eq_ok
  | ok v =>
    rw [run_map_eq_ok]
    constructor
    · rintro ⟨root, hroot, rfl⟩
      obtain ⟨rfl, rfl⟩ := EStateM.Result.ok.inj (run_op_eq_ok.1 hroot)
      exact ⟨rfl, rfl⟩
    · rintro ⟨rfl, rfl⟩
      exact ⟨_, run_op_eq_ok.2 rfl, rfl⟩

/-- **What a cursor writes is written to its object then.** -/
theorem run_setValue_eq_ok {v : Value} {r : Except EngineError Unit} :
    m.run (c.setValue name v) [] w = .ok r w' ↔
      (m.set c.engine c.subject name v).run w = .ok r w' :=
  run_op_eq_ok

end Cursor

/-! ## Starting -/

/-- Values that have a kind are live objects. -/
theorem Machine.exists_get?_of_kind {v : Value} {k : ObjectKind}
    (hk : m.kind e v w = .ok (some k) w') :
    ∃ h o, v = .object h ∧ (w.engine e).heap.get? h = some o := by
  unfold Machine.kind at hk
  cases v with
  | object h =>
    obtain ⟨o?, w₁, hread, hkind⟩ := bind_eq_ok.1 hk
    cases hl : (w.engine e).loan.allowsRead with
    | false => rw [readHeap_of_lent hl] at hread; cases hread
    | true =>
      rw [readHeap_of_allowsRead hl] at hread
      obtain ⟨rfl, rfl⟩ := EStateM.Result.ok.inj hread
      cases hg : (w.engine e).heap.get? h with
      | some o => exact ⟨h, o, rfl, hg⟩
      | none => rw [hg] at hkind; cases (pure_eq_ok.1 hkind).1
  | _ => cases (pure_eq_ok.1 hk).1

/-- What has properties is an object with a kind. -/
theorem ValueType.exists_of_isObjectLike {v : Value} {k? : Option ObjectKind}
    (hlike : (ValueType.of v k?).isObjectLike = true) : ∃ k, k? = some k := by
  cases k? with
  | some k => exact ⟨k, rfl⟩
  | none => cases v <;> cases hlike

namespace ScriptValue

/-- The script value at the start of an iteration over these names. -/
def starting (s : ScriptValue) (names : List String) : ScriptValue :=
  { s with cursor := some { engine := s.engine, subject := s.value, names := names } }

theorem remaining_starting (s : ScriptValue) (names : List String) :
    (s.starting names).remaining = names := rfl

/-- **An iteration starts with the names that are listed then**, once the type of the held
value has been looked at. -/
theorem run_first_eq_ok {r : Except EngineError ScriptValue} :
    m.run s.first [] w = .ok r w' ↔
      ∃ t w₁ l, m.perform (.kind s.engine s.value) w = .ok t w₁
        ∧ (ValueType.of s.value t).isObjectLike = true
        ∧ (m.names s.engine s.value).run w₁ = .ok l w' ∧ r = l.map s.starting := by
  rw [first, run_bind_eq_ok]
  constructor
  · rintro ⟨u, rest, w₁, hexpect, hlist⟩
    obtain ⟨rfl, t, hkind, hlike⟩ := eval_expectObject_eq_ok.1 hexpect
    obtain ⟨l, w₂, hnames, hstart⟩ := run_op_bind_eq_ok.1 hlist
    refine ⟨t, w₁, l, hkind, hlike, ?_⟩
    cases l <;> obtain ⟨rfl, rfl⟩ := run_pure_eq_ok.1 hstart <;> exact ⟨hnames, rfl⟩
  · rintro ⟨t, w₁, l, hkind, hlike, hnames, rfl⟩
    refine ⟨(), [], w₁, eval_expectObject_eq_ok.2 ⟨rfl, t, hkind, hlike⟩, ?_⟩
    refine run_op_bind_eq_ok.2 ⟨l, w', hnames, ?_⟩
    cases l <;> exact run_pure_eq_ok.2 ⟨rfl, rfl⟩

/-- **The names of an object that has no host are its own.** -/
theorem run_first_of_hostless {o : HeapObject} (m : Machine κ) (hs : s.value = .object h)
    (hl : (w.engine s.engine).loan.allowsRead = true)
    (hg : (w.engine s.engine).heap.get? h = some o) (ho : o.hostless = true) :
    m.run s.first [] w = .ok (.ok (s.starting (ownNames o))) w := by
  refine run_first_eq_ok.2 ⟨some (o.kind false), w, .ok (ownNames o), ?_, ?_, ?_, rfl⟩
  · rw [hs]
    exact kind_of_hostless m hl hg ho
  · rw [hs]
    exact ValueType.isObjectLike_of_kind h _
  · rw [hs]
    exact names_of_hostless m hl hg ho

/-- The script value starts an iteration only while it holds a live object. -/
theorem exists_of_run_first (hf : m.run s.first [] w = .ok (.ok s') w') :
    ∃ names h i, s' = s.starting names ∧ s.value = .object h
      ∧ w.identity? s.engine h = some i := by
  obtain ⟨t, w₁, l, hkind, hlike, -, hstart⟩ := run_first_eq_ok.1 hf
  obtain ⟨k, rfl⟩ := ValueType.exists_of_isObjectLike hlike
  obtain ⟨h, o, hv, hg⟩ := exists_get?_of_kind hkind
  obtain ⟨birth, hi⟩ := Heap.identity?_of_get? hg
  cases l with
  | error err => cases hstart
  | ok names => exact ⟨names, h, _, Except.ok.inj hstart, hv, hi⟩

/-! ## What its holder does -/

/-- **What the holder of a script value does to it.** To assign another script value, or a
value of a given type, is to hold its value instead. -/
inductive Deed where
  /-- Start an iteration. -/
  | first
  /-- Go on with it. -/
  | next
  /-- Hold another value instead. -/
  | hold (v : Value)
  /-- Hold a new array. -/
  | setArrayType (length : Nat)
  /-- Hold a new object. -/
  | setObjectType
deriving DecidableEq

/-- The program that does it. -/
def Deed.program (s : ScriptValue) : Deed → Program κ (Except EngineError ScriptValue)
  | .first => s.first
  | .next => pure (.ok s.next)
  | .hold v => Except.ok <$> s.replace v
  | .setArrayType length => s.setArrayType length
  | .setObjectType => s.setObjectType

/-- The deed is to hold another value. -/
def Deed.Replaces : Deed → Prop
  | .first | .next => False
  | .hold _ | .setArrayType _ | .setObjectType => True

/-- **What comes of a deed** that is done in a world: an iteration is started with some names
while a live object is held, or goes on; or the script value is the same as before; or it has a
new root and no cursor. -/
inductive Outcome (w : World κ) (s : ScriptValue) : Deed → ScriptValue → Prop
  /-- An iteration is started. -/
  | started (names : List String) {h : Handle} {i : Identity} (hv : s.value = .object h)
      (hi : w.identity? s.engine h = some i) : Outcome w s .first (s.starting names)
  /-- It goes on. -/
  | advanced : Outcome w s .next s.next
  /-- The value that was to be held was held already. -/
  | kept {d : Deed} (hd : d.Replaces) : Outcome w s d s
  /-- It was not. -/
  | replaced {d : Deed} {s' : ScriptValue} (hd : d.Replaces)
      (hroot : w.rootsMade ≤ s'.root.serial) (hcursor : s'.cursor = none) : Outcome w s d s'

/-- To replace a value is to keep the script value, or to make one with a root that is new. -/
theorem eq_or_new_of_run_replace {v : Value} (hr : m.run (s.replace v) [] w = .ok s' w') :
    s' = s ∨ (s'.root.serial = w.rootsMade ∧ s'.cursor = none) := by
  by_cases hsame : s.value = v
  · have hkept : m.run (s.replace v) [] w = .ok s w :=
      run_assign m s { s with root := { s.root with value := v } } hsame.symm w
    exact .inl (EStateM.Result.ok.inj (hr.symm.trans hkept)).1
  · obtain ⟨rfl, -⟩ := EStateM.Result.ok.inj (hr.symm.trans (run_replace_of_ne m hsame w))
    exact .inr ⟨rfl, rfl⟩

/-- Hold the value of a result, if there is one. -/
def held (s : ScriptValue) :
    Except EngineError Value → Program κ (Except EngineError ScriptValue)
  | .ok v => .ok <$> s.replace v
  | .error err => pure (.error err)

theorem setArrayType_eq (s : ScriptValue) (length : Nat) :
    (s.setArrayType length : Program κ _)
      = Program.op (.createArray s.engine length) >>= s.held :=
  congrArg (Program.op (.createArray s.engine length) >>= ·) (funext fun r => by cases r <;> rfl)

theorem setObjectType_eq (s : ScriptValue) :
    (s.setObjectType : Program κ _) = Program.op (.createObject s.engine) >>= s.held :=
  congrArg (Program.op (.createObject s.engine) >>= ·) (funext fun r => by cases r <;> rfl)

theorem exists_of_run_held {r : Except EngineError Value}
    (hr : m.run (s.held r) [] w = .ok (.ok s') w') :
    ∃ v, r = .ok v ∧ m.run (s.replace v) [] w = .ok s' w' := by
  cases r with
  | error err => cases (run_pure_eq_ok.1 hr).1
  | ok v =>
    obtain ⟨s₁, hr, hs⟩ := run_map_eq_ok.1 hr
    obtain rfl := Except.ok.inj hs
    exact ⟨v, rfl, hr⟩

/-- So it is when the value is made first. -/
theorem Outcome.of_replace {d : Deed} {v : Value} (hd : d.Replaces)
    (hmade : w.rootsMade ≤ w₁.rootsMade) (hr : m.run (s.replace v) [] w₁ = .ok s' w') :
    Outcome w s d s' := by
  rcases eq_or_new_of_run_replace hr with rfl | ⟨hroot, hcursor⟩
  · exact .kept hd
  · exact .replaced hd (hroot ▸ hmade) hcursor

end ScriptValue

/-- **Whatever its holder does comes to one of these.** -/
theorem ScriptValue.Deed.outcome (b : Behaviour κ) (depth : Nat) (hw : w.Sound) {d : Deed}
    (hd : (b.machine depth).run (d.program s) [] w = .ok (.ok s') w') : Outcome w s d s' := by
  -- a value that is to be held is made first, and that takes steps
  have hmade : ∀ {o : Op κ} {r : o.Reply} {w₁ : World κ},
      (b.machine depth).perform o w = .ok r w₁ → w.rootsMade ≤ w₁.rootsMade := by
    intro o r w₁ ho
    have hx := (b.roams depth).perform o hw
    rw [after_of_ok ho] at hx
    exact World.rootsMade_le_of_reaches hx.reaches
  cases d with
  | first =>
    obtain ⟨names, h, i, rfl, hv, hi⟩ := exists_of_run_first hd
    exact .started names hv hi
  | next =>
    obtain ⟨hnext, -⟩ := run_pure_eq_ok.1 hd
    obtain rfl := Except.ok.inj hnext
    exact .advanced
  | hold v =>
    obtain ⟨v', hv, hr⟩ := exists_of_run_held (r := .ok v) hd
    obtain rfl := Except.ok.inj hv
    exact .of_replace trivial (Nat.le_refl _) hr
  | setArrayType length =>
    rw [Deed.program, setArrayType_eq] at hd
    obtain ⟨r, w₁, hcreate, hheld⟩ := run_op_bind_eq_ok.1 hd
    obtain ⟨v, rfl, hr⟩ := exists_of_run_held hheld
    exact .of_replace trivial (hmade hcreate) hr
  | setObjectType =>
    rw [Deed.program, setObjectType_eq] at hd
    obtain ⟨r, w₁, hcreate, hheld⟩ := run_op_bind_eq_ok.1 hd
    obtain ⟨v, rfl, hr⟩ := exists_of_run_held hheld
    exact .of_replace trivial (hmade hcreate) hr

/-- It takes steps to do it. -/
theorem ScriptValue.Deed.reaches (b : Behaviour κ) (depth : Nat) (hw : w.Sound) {d : Deed}
    {r : Except EngineError ScriptValue}
    (hd : (b.machine depth).run (d.program s) [] w = .ok r w') : w.Reaches w' :=
  after_of_ok hd ▸ (b.reaches_run depth (d.program s) [] hw).1

/-! ## Histories -/

/-- **A history of a script value**: now its holder does something to it, and now steps are
taken that are not his, on whatever paths. All the while its root is live, since nobody else
can drop it. -/
inductive ScriptValue.History (b : Behaviour κ) (w : World κ) (s : ScriptValue) :
    List Deed → World κ → ScriptValue → Prop
  /-- Nothing has happened yet. -/
  | start (hs : s.root ∈ w.roots) : History b w s [] w s
  /-- Others take steps. -/
  | meanwhile {ds : List Deed} {w₁ w₂ : World κ} {s₁ : ScriptValue}
      (before : History b w s ds w₁ s₁) (hr : w₁.Reaches w₂) (hs : s₁.root ∈ w₂.roots) :
      History b w s ds w₂ s₁
  /-- Its holder does something to it. -/
  | did {ds : List Deed} {d : Deed} {depth : Nat} {w₁ w₂ : World κ} {s₁ s₂ : ScriptValue}
      (before : History b w s ds w₁ s₁)
      (hd : (b.machine depth).run (d.program s₁) [] w₁ = .ok (.ok s₂) w₂)
      (hs : s₂.root ∈ w₂.roots) : History b w s (ds ++ [d]) w₂ s₂

namespace ScriptValue

variable {b : Behaviour κ} {ds : List Deed}

theorem History.reaches (hw : w.Sound) (hh : History b w s ds w' s') : w.Reaches w' := by
  induction hh with
  | start hs => exact .refl
  | meanwhile before hr hs ih => exact ih.trans hr
  | @did ds d depth w₁ w₂ s₁ s₂ before hd hs ih =>
    exact ih.trans (Deed.reaches b depth (hw.reaches ih) hd)

theorem History.mem_roots (hh : History b w s ds w' s') : s'.root ∈ w'.roots := by
  cases hh with
  | start hs | meanwhile _ _ hs | did _ _ hs => exact hs

/-- **What is left of an iteration.** Until another one is started, either the script value
has the root that it had, and every time it went on one name was taken away; or it has got a
new root, and no cursor is left. -/
theorem History.remaining (hw : w.Reachable) (hh : History b w s ds w' s')
    (hds : Deed.first ∉ ds) :
    (s'.root = s.root ∧ s'.remaining = s.remaining.drop (ds.count .next))
      ∨ (s.root.serial < s'.root.serial ∧ s'.cursor = none) := by
  induction hh with
  | start hs => exact .inl ⟨rfl, rfl⟩
  | meanwhile before hr hs ih => exact ih hds
  | @did ds d depth w₁ w₂ s₁ s₂ before hd hs ih =>
    have hw₁ : w₁.Reachable := hw.trans (before.reaches hw.sound)
    have hserial : s₁.root.serial < w₁.rootsMade := hw₁.numbered.lt _ before.mem_roots
    have hbefore := ih fun hmem => hds (List.mem_append_left _ hmem)
    rw [List.count_append, List.count_singleton]
    cases Deed.outcome b depth hw₁.sound hd with
    | started names hv hi => exact absurd (List.mem_append_right ds List.mem_cons_self) hds
    | advanced =>
      rcases hbefore with ⟨hroot, hleft⟩ | ⟨hlt, hnone⟩
      · exact .inl ⟨hroot, by rw [remaining_next, hleft, List.tail_drop]; rfl⟩
      · exact .inr ⟨hlt, by rw [next, hnone]; rfl⟩
    | kept hreplaces =>
      have hnext : d ≠ .next := by
        rintro rfl
        exact hreplaces
      rwa [if_neg (by simpa using hnext)]
    | replaced hreplaces hroot hcursor =>
      refine .inr ⟨Nat.lt_of_lt_of_le ?_ hroot, hcursor⟩
      rcases hbefore with ⟨hsame, -⟩ | ⟨hlt, -⟩
      · exact hsame ▸ hserial
      · exact Nat.lt_trans hlt hserial

/-- **A cursor that is stored is one of the value that is held**: its object is the held one,
which is rooted, and is live unless a protection of it was taken away that was not there. -/
structure Coherent (w : World κ) (s : ScriptValue) (c : Cursor) : Prop where
  /-- It is in the same engine. -/
  engine : c.engine = s.engine
  /-- It is the same value. -/
  subject : c.subject = s.value
  /-- It is rooted. -/
  rooted : s.root ∈ w.roots
  /-- It is a live object. -/
  live : ∃ h, s.value = .object h ∧ (w.Matched s.engine h → ∃ i, w.identity? s.engine h = some i)

/-- That stays so for as long as the root is live. -/
theorem Coherent.of_reaches {c : Cursor} (hc : Coherent w s c) (hw : w.Reachable)
    (hr : w.Reaches w') (hs : s.root ∈ w'.roots) : Coherent w' s c where
  engine := hc.engine
  subject := hc.subject
  rooted := hs
  live := by
    obtain ⟨h, hv, hlive⟩ := hc.live
    refine ⟨h, hv, fun hm => ?_⟩
    obtain ⟨i, hi⟩ := hlive (hm.of_suffix (World.journal_suffix_of_reaches hr))
    exact ⟨i, World.identity?_of_root hw hr hc.rooted hs hv hm hi⟩

/-- **So it is throughout a history.** -/
theorem History.coherent (hw : w.Reachable) (hh : History b w s ds w' s')
    (hs : ∀ c, s.cursor = some c → Coherent w s c) :
    ∀ c, s'.cursor = some c → Coherent w' s' c := by
  induction hh with
  | start _ => exact hs
  | meanwhile before hr hs ih =>
    exact fun c hc => (ih c hc).of_reaches (hw.trans (before.reaches hw.sound)) hr hs
  | @did ds d depth w₁ w₂ s₁ s₂ before hd hs ih =>
    have hw₁ : w₁.Reachable := hw.trans (before.reaches hw.sound)
    have hr : w₁.Reaches w₂ := Deed.reaches b depth hw₁.sound hd
    intro c hc
    cases Deed.outcome b depth hw₁.sound hd with
    | @started names h i hv hi =>
      obtain rfl := Option.some.inj hc
      have hstarted : Coherent w₁ s₁ ⟨s₁.engine, s₁.value, names, 0⟩ :=
        ⟨rfl, rfl, before.mem_roots, h, hv, fun _ => ⟨i, hi⟩⟩
      exact { hstarted.of_reaches hw₁ hr hs with }
    | advanced =>
      obtain ⟨c₁, hc₁, rfl⟩ := Option.map_eq_some_iff.1 hc
      exact { (ih c₁ hc₁).of_reaches hw₁ hr hs with }
    | kept hreplaces => exact (ih c hc).of_reaches hw₁ hr hs
    | replaced hreplaces hroot hcursor =>
      rw [hcursor] at hc
      cases hc

end ScriptValue

/-! ## New objects -/

/-- An object that is made is put where nothing is. -/
theorem Machine.exists_of_allocate {o : HeapObject} {v : Value} (hw : w.Sound)
    (ha : (m.allocate e o).run w = .ok (.ok v) w') :
    ∃ k, v = .object k ∧ (w.engine e).heap.get? k = none := by
  obtain ⟨outcome, w₁, hoffer, htaken⟩ := bind_eq_ok.1 ha
  cases hl : (w.engine e).loan.allowsWrite with
  | false =>
    rw [writeHeap_of_lent hl] at hoffer
    cases hoffer
  | true =>
    rw [writeHeap_of_allowsWrite hl] at hoffer
    obtain ⟨rfl, -⟩ := EStateM.Result.ok.inj hoffer
    unfold offer at htaken
    cases hr : (w.engine e).heap.refusal? with
    | none =>
      rw [hr] at htaken
      obtain ⟨hv, -⟩ := pure_eq_ok.1 htaken
      exact ⟨_, (Except.ok.inj hv).symm, Heap.get?_place_fst (hw e).wellFormed o⟩
    | some err =>
      rw [hr] at htaken
      obtain ⟨_, w₂, -, hfault⟩ := bind_eq_ok.1 htaken
      cases (pure_eq_ok.1 hfault).1

theorem Machine.exists_of_createArray {length : Nat} {v : Value} (hw : w.Sound)
    (ha : (m.createArray e length).run w = .ok (.ok v) w') :
    ∃ k, v = .object k ∧ (w.engine e).heap.get? k = none := by
  unfold Machine.createArray at ha
  cases hels : Elements.create length with
  | ok els =>
    rw [hels] at ha
    exact exists_of_allocate hw ha
  | error fault =>
    rw [hels] at ha
    cases (pure_eq_ok.1 ha).1

/-- **To hold a new object ends the iteration**, since the object of a cursor is there. -/
theorem ScriptValue.cursor_eq_none_of_made (b : Behaviour κ) (depth : Nat) (hw : w.Sound)
    {c : Cursor} (hc : Coherent w s c) (hm : ∀ h, s.value = .object h → w.Matched s.engine h)
    {d : Deed} (hnew : d = .setObjectType ∨ ∃ length, d = .setArrayType length)
    (hd : (b.machine depth).run (d.program s) [] w = .ok (.ok s') w') : s'.cursor = none := by
  obtain ⟨h, hv, hlive⟩ := hc.live
  obtain ⟨i, hi⟩ := hlive (hm h hv)
  obtain ⟨o, hg, -⟩ := Heap.exists_get?_of_identity? hi
  have hother : ∀ {v : Value} {w₁ : World κ},
      (∃ k, v = .object k ∧ (w.engine s.engine).heap.get? k = none) →
      (b.machine depth).run (s.replace v) [] w₁ = .ok s' w' → s'.cursor = none := by
    rintro v w₁ ⟨k, rfl, hk⟩ hr
    have hne : s.value ≠ .object k := by
      rintro heq
      obtain rfl := Value.object.inj (hv.symm.trans heq)
      rw [hk] at hg
      cases hg
    obtain ⟨rfl, -⟩ := EStateM.Result.ok.inj (hr.symm.trans (run_replace_of_ne _ hne w₁))
    rfl
  rcases hnew with rfl | ⟨length, rfl⟩
  · rw [Deed.program, setObjectType_eq] at hd
    obtain ⟨r, w₁, hcreate, hheld⟩ := run_op_bind_eq_ok.1 hd
    obtain ⟨v, rfl, hr⟩ := exists_of_run_held hheld
    exact hother (exists_of_allocate hw hcreate) hr
  · rw [Deed.program, setArrayType_eq] at hd
    obtain ⟨r, w₁, hcreate, hheld⟩ := run_op_bind_eq_ok.1 hd
    obtain ⟨v, rfl, hr⟩ := exists_of_run_held hheld
    exact hother (exists_of_createArray hw hcreate) hr

/-! ## The result -/

/-- **An iteration is a snapshot that is gone through once.**

It starts with the names that are listed then; of an object without a host these are its own
names. From then on, whatever else happens, the script value stands at the first of the names,
and at the one after it each time it goes on, and at none when it has gone past the last one –
until another iteration is started, or another value is held, which leaves no cursor. A name
that it stands at is one of the snapshot.

A cursor that is stored after any history is one of the value that is held: what it reads is
read off the held object as it is then, and so with what it writes, and the object is live.
To hold the same value again changes nothing; to hold another one, as a new object is,
discards the cursor; and a clone has none. -/
theorem Behaviour.iteration_is_snapshot (b : Behaviour κ) (depth : Nat) :
    (∀ w : World κ, w.Reachable → ∀ (α : Type) (p : Program κ α) (owned : List Local),
        w.Reaches (((b.machine depth).run p owned).after w))
      ∧ (∀ (w w' : World κ) (s : ScriptValue) (r : Except EngineError ScriptValue),
        (b.machine depth).run s.first [] w = .ok r w' ↔
          ∃ t w₁ l, (b.machine depth).perform (.kind s.engine s.value) w = .ok t w₁
            ∧ (ValueType.of s.value t).isObjectLike = true
            ∧ ((b.machine depth).names s.engine s.value).run w₁ = .ok l w'
            ∧ r = l.map s.starting)
      ∧ (∀ (w : World κ) (s : ScriptValue) (h : Handle) (o : HeapObject), s.value = .object h →
        (w.engine s.engine).loan.allowsRead = true →
        (w.engine s.engine).heap.get? h = some o → o.hostless = true →
        (b.machine depth).run s.first [] w = .ok (.ok (s.starting (ownNames o))) w)
      ∧ (∀ (w w' : World κ) (s s' : ScriptValue) (names : List String) (ds : List Deed),
        w.Reachable → ScriptValue.History b w (s.starting names) ds w' s' → Deed.first ∉ ds →
        (s'.root = s.root ∧ s'.current?.map Prod.snd = names[ds.count .next]?)
          ∨ (s.root.serial < s'.root.serial ∧ s'.current? = none))
      ∧ (∀ (s : ScriptValue) (c : Cursor) (name : String), s.current? = some (c, name) →
        s.cursor = some c ∧ c.names[c.position]? = some name)
      ∧ (∀ (w w' : World κ) (s s' : ScriptValue) (ds : List Deed) (c : Cursor),
        w.Reachable → s.cursor = none → ScriptValue.History b w s ds w' s' →
        s'.cursor = some c →
        ScriptValue.Coherent w' s' c
          ∧ (∀ (name : String) (r : Except EngineError Root) (w₂ : World κ),
            (b.machine depth).run (c.value name) [] w' = .ok r w₂ ↔
              ∃ g w₁, ((b.machine depth).get s'.engine s'.value name).run w' = .ok g w₁
                ∧ Cursor.Roots s'.engine g w₁ r w₂)
          ∧ (∀ (name : String) (v : Value) (r : Except EngineError Unit) (w₂ : World κ),
            (b.machine depth).run (c.setValue name v) [] w' = .ok r w₂ ↔
              ((b.machine depth).set s'.engine s'.value name v).run w' = .ok r w₂)
          ∧ ((∀ h, s'.value = .object h → w'.Matched s'.engine h) →
            ∀ (d : Deed) (s₂ : ScriptValue) (w₂ : World κ),
            (d = .setObjectType ∨ ∃ length, d = .setArrayType length) →
            (b.machine depth).run (d.program s') [] w' = .ok (.ok s₂) w₂ → s₂.cursor = none))
      ∧ (∀ (w : World κ) (s : ScriptValue) (v : Value),
        (s.value = v → (b.machine depth).run (s.replace v) [] w = .ok s w)
          ∧ (s.value ≠ v → ∃ s' w', (b.machine depth).run (s.replace v) [] w = .ok s' w'
            ∧ s'.engine = s.engine ∧ s'.value = v ∧ s'.cursor = none)
          ∧ ∃ s' w', (b.machine depth).run s.clone [] w = .ok s' w'
            ∧ s'.engine = s.engine ∧ s'.value = s.value ∧ s'.cursor = none) := by
  refine ⟨fun w hw α p owned => (b.reaches_run depth p owned hw.sound).1,
    fun w w' s r => run_first_eq_ok, fun w s h o => run_first_of_hostless _,
    fun w w' s s' names ds hw hh hds => ?_, fun s c name => current?_eq_some_iff.1,
    fun w w' s s' ds c hw hs hh hc => ?_, fun w s v => ⟨?_, fun hne => ?_, ?_⟩⟩
  · rcases hh.remaining hw hds with ⟨hroot, hleft⟩ | ⟨hlt, hnone⟩
    · refine .inl ⟨hroot, ?_⟩
      rw [map_current?, hleft, remaining_starting, List.head?_drop]
    · exact .inr ⟨hlt, by rw [current?, hnone]; rfl⟩
  · have hcoherent : Coherent w' s' c :=
      hh.coherent hw (fun c hc => by rw [hs] at hc; cases hc) c hc
    have hw' : w'.Reachable := hw.trans (hh.reaches hw.sound)
    refine ⟨hcoherent, fun name r w₂ => ?_, fun name v r w₂ => ?_,
      fun hm d s₂ w₂ hnew hd => cursor_eq_none_of_made b depth hw'.sound hcoherent hm hnew hd⟩
    · rw [← hcoherent.engine, ← hcoherent.subject]
      exact Cursor.run_value_eq_ok
    · rw [← hcoherent.engine, ← hcoherent.subject]
      exact Cursor.run_setValue_eq_ok
  · exact fun hv => run_assign _ s { s with root := { s.root with value := v } } hv.symm w
  · exact ⟨_, _, run_replace_of_ne _ hne w, rfl, rfl, rfl⟩
  · exact ⟨_, _, rfl, rfl, rfl, rfl⟩

/-- The world with an object of two properties, which a script value holds. -/
def World.listed : World Unit :=
  ((Behaviour.idle.machine 1).run (do
    let _ ← Program.op (.createObject ⟨0⟩)
    let _ ← Program.op (.set ⟨0⟩ (.object ⟨0, 0⟩) "a" .null)
    let _ ← Program.op (.set ⟨0⟩ (.object ⟨0, 0⟩) "b" .null)
    Program.op (.root ⟨0⟩ (.object ⟨0, 0⟩))) []).after {}

/-- That script value. -/
def ScriptValue.listed : ScriptValue := { root := ⟨0, ⟨0⟩, .object ⟨0, 0⟩⟩ }

/-- The world in which a third property has been written and the heap has been collected. -/
def World.extended : World Unit :=
  ((Behaviour.idle.machine 1).run (do
    let _ ← Program.op (.set ⟨0⟩ (.object ⟨0, 0⟩) "c" .null)
    Program.op (.collect ⟨0⟩)) []).after World.listed

/-- An iteration over such an object visits two names, although there are three by then. -/
theorem Behaviour.iteration_is_snapshot_extended :
    ∃ s : ScriptValue,
      (idle.machine 1).run listed.first [] World.listed = .ok (.ok s) World.listed
        ∧ s.current?.map Prod.snd = some "a" ∧ s.next.current?.map Prod.snd = some "b"
        ∧ s.next.next.current?.map Prod.snd = none
        ∧ ((World.extended.engine ⟨0⟩).heap.get? ⟨0, 0⟩).map ownNames = some ["a", "b", "c"]
        ∧ ∃ c, s.next.next.cursor = some c ∧ Coherent World.extended s.next.next c := by
  obtain ⟨hsteps, -, hstart, hleft, -, hcoherent, -⟩ := idle.iteration_is_snapshot 1
  have hw : World.listed.Reachable := hsteps {} .refl _ _ _
  have hrun := hstart World.listed listed ⟨0, 0⟩ (.plain ⟨[("a", .null), ("b", .null)]⟩) rfl
    (by decide +kernel) (by decide +kernel) rfl
  have hroot : listed.root ∈ World.listed.roots := by decide +kernel
  have hroot' : listed.root ∈ World.extended.roots := by decide +kernel
  have hlater : World.listed.Reaches World.extended := hsteps _ hw _ _ _
  have hnext : ∀ s : ScriptValue, (idle.machine 1).run (Deed.next.program s) [] World.extended
      = .ok (.ok s.next) World.extended := fun s => rfl
  -- the script value keeps its root, so it has kept its cursor
  have hname : ∀ {w : World Unit} {s : ScriptValue} {ds : List Deed},
      History idle World.listed (listed.starting ["a", "b"]) ds w s → Deed.first ∉ ds →
      s.root = listed.root → s.current?.map Prod.snd = ["a", "b"][ds.count .next]? := by
    intro w s ds hh hds hkept
    rcases hleft _ _ _ _ _ _ hw hh hds with ⟨-, hcurrent⟩ | ⟨hlt, -⟩
    · exact hcurrent
    · rw [hkept] at hlt
      exact absurd hlt (Nat.lt_irrefl _)
  have hstarted : History idle World.listed (listed.starting ["a", "b"]) [] World.listed
      (listed.starting ["a", "b"]) := .start hroot
  have hbegun : History idle World.listed listed [.first] World.listed
      (listed.starting ["a", "b"]) := (History.start hroot).did (d := .first) hrun hroot
  refine ⟨_, hrun, hname hstarted (by decide) rfl,
    hname ((hstarted.meanwhile hlater hroot').did (hnext _) hroot') (by decide) rfl,
    hname (((hstarted.meanwhile hlater hroot').did (hnext _) hroot').did (hnext _) hroot')
      (by decide) rfl, by decide +kernel, _, rfl, ?_⟩
  exact (hcoherent _ _ _ _ _ _ hw rfl
    (((hbegun.meanwhile hlater hroot').did (hnext _) hroot').did (hnext _) hroot') rfl).1

end EmbeddedScript
