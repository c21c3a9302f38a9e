import EmbeddedScript.Proofs.Heap.Histories
import EmbeddedScript.Proofs.Heap.Rows
import EmbeddedScript.Proofs.Machine.Laws
import EmbeddedScript.Proofs.Machine.Wrappers

/-!
# What is listed

An object without a host lists what it stores: a plain object and a function their names, in
the order in which they were first written, an array the numerals of its elements. A wrapper
lists what its host contributes, and then those of its own names that are not among that. Its
host can write to the wrapper while it is asked, and collect; so what is listed are the names
that the wrapper has **when the host has answered**.

That the listing is complete, and has no name twice, is a matter of all that happened before.
Nothing ever takes a name away or moves it: an object is made without properties, or with two
if it is an error, and is written to after that. So `HeapObject.Grows` is a course that
engines are on at all times, and a name that a wrapper had once is listed for as long as it is
the same wrapper.
-/

namespace EmbeddedScript

open Act

variable {κ α : Type}

/-! ## One write after another -/

namespace Properties

variable {α : Type} {k : String}

/-- **Names are set one after another.** -/
def setAll (p : Properties α) (writes : List (String × α)) : Properties α :=
  writes.foldl (fun p write => p.set write.1 write.2) p

theorem setAll_append (p : Properties α) (writes writes' : List (String × α)) :
    p.setAll (writes ++ writes') = (p.setAll writes).setAll writes' :=
  List.foldl_append

theorem setAll_concat (p : Properties α) (writes : List (String × α)) (k : String) (a : α) :
    p.setAll (writes ++ [(k, a)]) = (p.setAll writes).set k a :=
  p.setAll_append writes [(k, a)]

/-- **The names are those that were set**, each where it was set first. -/
theorem keys_setAll_empty (writes : List (String × α)) :
    (empty.setAll writes).keys = (writes.map (·.1)).eraseDups := by
  induction writes using List.reverseRecOn with
  | nil => rfl
  | append_singleton writes write ih =>
    rw [setAll_concat, keys_set, ih, List.map_append, List.map_singleton, List.eraseDups_append]
    by_cases hmem : write.1 ∈ writes.map (·.1)
    · rw [if_pos (List.mem_eraseDups.2 hmem)]
      simp [List.removeAll, hmem]
    · rw [if_neg fun h => hmem (List.mem_eraseDups.1 h)]
      simp [List.removeAll, hmem, List.eraseDups_cons]

/-- Setting names takes none away, and puts none before those that there are. -/
theorem keys_prefix_setAll (p : Properties α) (writes : List (String × α)) :
    p.keys <+: (p.setAll writes).keys := by
  induction writes using List.reverseRecOn with
  | nil => exact List.prefix_rfl
  | append_singleton writes write ih =>
    rw [setAll_concat]
    exact ih.trans (keys_prefix_set _ _ _)

theorem nodup_keys_setAll_empty (writes : List (String × α)) :
    (empty.setAll writes).keys.Nodup := by
  induction writes using List.reverseRecOn with
  | nil => exact List.nodup_nil
  | append_singleton writes write ih =>
    rw [setAll_concat]
    exact nodup_keys_set ih _ _

theorem mem_keys_set_self (p : Properties α) (k : String) (a : α) : k ∈ (p.set k a).keys :=
  mem_keys.2 ⟨a, get?_set_self p k a⟩

end Properties

/-! ## How objects grow -/

namespace HeapObject

/-- **The object was written to**: names were set one after another, or the elements of an
array became others. -/
inductive Grows : HeapObject → HeapObject → Prop
  /-- A plain object. -/
  | plain (props : Properties Value) (writes : List (String × Value)) :
      Grows (.plain props) (.plain (props.setAll writes))
  /-- An array. -/
  | array (els els' : Array (Option Value)) : Grows (.array els) (.array els')
  /-- A function. -/
  | function (name : String) (body : NativeId) (props : Properties Value)
      (writes : List (String × Value)) :
      Grows (.function name body props) (.function name body (props.setAll writes))
  /-- A host method, which takes no properties. -/
  | hostMethod (target : Handle) (name : String) :
      Grows (.hostMethod target name) (.hostMethod target name)
  /-- A wrapper. -/
  | host (host : NativeId) (expandos : Properties Value) (writes : List (String × Value)) :
      Grows (.host host expandos) (.host host (expandos.setAll writes))

variable {o o' o'' : HeapObject}

theorem Grows.refl (o : HeapObject) : o.Grows o := by
  cases o with
  | plain props => exact .plain props []
  | array els => exact .array els els
  | function name body props => exact .function name body props []
  | hostMethod target name => exact .hostMethod target name
  | host host expandos => exact .host host expandos []

theorem Grows.trans (h : o.Grows o') (h' : o'.Grows o'') : o.Grows o'' := by
  cases h with
  | plain props writes =>
    cases h' with
    | plain _ writes' =>
      rw [← Properties.setAll_append]
      exact .plain props _
  | array els _ =>
    cases h' with
    | array _ els'' => exact .array els els''
  | function name body props writes =>
    cases h' with
    | function _ _ _ writes' =>
      rw [← Properties.setAll_append]
      exact .function name body props _
  | hostMethod target name => exact h'
  | host host expandos writes =>
    cases h' with
    | host _ _ writes' =>
      rw [← Properties.setAll_append]
      exact .host host expandos _

theorem Grows.shell_eq (h : o.Grows o') : o'.shell = o.shell := by
  cases h <;> rfl

/-- **What operations make of an object is the object written to.** -/
theorem Becomes.grows (h : o.Becomes o') : o.Grows o' := by
  cases h with
  | elements _ => exact .array _ _
  | @property _ _ name v hp =>
    cases o with
    | plain props =>
      obtain rfl := Except.ok.inj hp
      exact .plain props [(name, v)]
    | array els =>
      obtain ⟨els', -, rfl⟩ := Machine.eq_array_of_withProperty hp
      exact .array els els'
    | function functionName body props =>
      obtain rfl := Except.ok.inj hp
      exact .function functionName body props [(name, v)]
    | hostMethod target method => cases hp
    | host host expandos =>
      obtain rfl := Except.ok.inj hp
      exact .host host expandos [(name, v)]

/-- **What the engine makes is written to from the start**: it has no properties, but for an
error, which has two. -/
theorem Fresh.grows (h : o.Fresh) : o.shell.Grows o := by
  cases h with
  | array _ => exact .array _ _
  | arrayOf _ => exact .array _ _
  | error cls message =>
    exact .plain .empty [("name", .string cls.name), ("message", .string message)]
  | _ => exact .refl _

end HeapObject

/-! ## How heaps grow -/

namespace Heap

variable {heap heap' heap'' : Heap} {h : Handle} {o o' : HeapObject}

/-- **Every object was written to** since it was made, and nothing else happened to it. -/
def Written (heap : Heap) : Prop := ∀ h o, heap.get? h = some o → o.shell.Grows o

/-- **The heap has grown into another one**: what was made before and is there still has been
written to, and nothing else happened to it. -/
structure Grows (heap heap' : Heap) : Prop where
  /-- Births are counted on. -/
  births : heap.births ≤ heap'.births
  /-- Whatever was born before is an object that was there. -/
  occupant : ∀ h a', heap'.occupant? h = some a' → a'.birth < heap.births →
    ∃ a, heap.occupant? h = some a ∧ a.birth = a'.birth ∧ a.object.Grows a'.object

theorem Grows.refl (heap : Heap) : heap.Grows heap :=
  ⟨Nat.le_refl _, fun _ a ha _ => ⟨a, ha, rfl, .refl _⟩⟩

theorem Grows.trans (hg : heap.Grows heap') (hg' : heap'.Grows heap'') :
    heap.Grows heap'' := by
  refine ⟨Nat.le_trans hg.births hg'.births, fun h a'' ha'' hb => ?_⟩
  obtain ⟨a', ha', hb', ho'⟩ := hg'.occupant h a'' ha'' (Nat.lt_of_lt_of_le hb hg.births)
  obtain ⟨a, ha, hb₀, ho⟩ := hg.occupant h a' ha' (hb' ▸ hb)
  exact ⟨a, ha, hb₀.trans hb', ho.trans ho'⟩

/-- **The same object has been written to.** -/
theorem Grows.of_identity? (hg : heap.Grows heap') (hs : heap.Sound)
    (ho : heap.get? h = some o) (ho' : heap'.get? h = some o')
    (hi : heap'.identity? h = heap.identity? h) : o.Grows o' := by
  obtain ⟨a, ha, rfl⟩ := get?_eq_some_iff.1 ho
  obtain ⟨a', ha', rfl⟩ := get?_eq_some_iff.1 ho'
  rw [identity?, identity?, ha, ha'] at hi
  have hbirth : a'.birth = a.birth := congrArg Identity.birth (Option.some.inj hi)
  have hlt : a.birth < heap.births := hs.birth_lt h a.identity (by rw [identity?, ha]; rfl)
  obtain ⟨b, hb, -, hgrows⟩ := hg.occupant h a' ha' (hbirth ▸ hlt)
  rw [ha] at hb
  exact Option.some.inj hb ▸ hgrows

theorem written_of_limit (limit : Nat) : ({ limit := limit } : Heap).Written := fun h o ho => by
  simp [get?, occupant?, slot?] at ho

theorem grows_of_limit (heap' : Heap) (limit : Nat) :
    ({ limit := limit } : Heap).Grows heap' :=
  ⟨Nat.zero_le _, fun _ _ _ hb => absurd hb (Nat.not_lt_zero _)⟩

/-- A fresh object is as it was made, and the others are as they were. -/
theorem Written.place (hw : heap.Written) (hwf : heap.WellFormed) (ho : o.Fresh) :
    (heap.place o).2.Written := fun k p hp => by
  rw [get?_place hwf] at hp
  split at hp
  · obtain rfl := Option.some.inj hp
    exact ho.grows
  · exact hw k p hp

theorem grows_place (hwf : heap.WellFormed) (o : HeapObject) :
    heap.Grows (heap.place o).2 := by
  refine ⟨by rw [births_place]; exact Nat.le_succ _, fun k a' ha' hb => ?_⟩
  rw [occupant?_place hwf] at ha'
  split at ha'
  · obtain rfl := Option.some.inj ha'
    exact absurd hb (Nat.lt_irrefl _)
  · exact ⟨a', ha', rfl, .refl _⟩

/-- An object that is written to is written to. -/
theorem Written.put (hw : heap.Written) (hg : heap.get? h = some o) (ho : o.Grows o') :
    (heap.put h o').Written := fun k p hp => by
  by_cases hk : k = h
  · subst hk
    rw [get?_put_self hg] at hp
    obtain rfl := Option.some.inj hp
    rw [ho.shell_eq]
    exact (hw k o hg).trans ho
  · rw [get?_put_of_ne heap o' hk] at hp
    exact hw k p hp

theorem grows_put (hg : heap.get? h = some o) (ho : o.Grows o') :
    heap.Grows (heap.put h o') := by
  refine ⟨by rw [births_put], fun k a' ha' _ => ?_⟩
  by_cases hk : k = h
  · subst hk
    obtain ⟨a, ha, rfl⟩ := get?_eq_some_iff.1 hg
    rw [occupant?_put_self, ha] at ha'
    obtain rfl := Option.some.inj ha'
    exact ⟨a, ha, rfl, ho⟩
  · rw [occupant?_put_of_ne heap o' hk] at ha'
    exact ⟨a', ha', rfl, .refl _⟩

/-- A collection leaves an object as it is or takes it away. -/
theorem Written.collect (hw : heap.Written) (roots : RootSet) (stats : GcStats) :
    (heap.collect roots stats).2.1.Written := fun k p hp => by
  obtain ⟨a, ha, rfl⟩ := get?_eq_some_iff.1 hp
  rw [occupant?_collect] at ha
  split at ha
  · exact hw k a.object (get?_eq_some_iff.2 ⟨a, ha, rfl⟩)
  · cases ha

theorem grows_collect (heap : Heap) (roots : RootSet) (stats : GcStats) :
    heap.Grows (heap.collect roots stats).2.1 := by
  refine ⟨by rw [births_collect], fun k a' ha' _ => ?_⟩
  rw [occupant?_collect] at ha'
  split at ha'
  · exact ⟨a', ha', rfl, .refl _⟩
  · cases ha'

end Heap

/-- **To grow is a course of engines.** -/
def Engine.growth : Engine.Course where
  Leads s s' := (s.heap.Written → s'.heap.Written) ∧ s.heap.Grows s'.heap
  trans h h' := ⟨fun hw => h'.1 (h.1 hw), h.2.trans h'.2⟩
  new _ := ⟨fun _ => Heap.written_of_limit _, Heap.grows_of_limit _ _⟩
  congr _ hh _ := hh ▸ ⟨id, .refl _⟩
  placed hs _ ho := ⟨fun hw => hw.place hs.wellFormed ho, Heap.grows_place hs.wellFormed _⟩
  stored _ hg ho := ⟨fun hw => hw.put (Heap.get_eq_ok_iff.1 hg) ho.grows,
    Heap.grows_put (Heap.get_eq_ok_iff.1 hg) ho.grows⟩
  collected {s} _ := ⟨fun hw => hw.collect s.roots s.stats, Heap.grows_collect _ s.roots s.stats⟩

/-! ## How worlds grow -/

/-- **Every heap is sound, and every object in it was made and written to**, and nothing else
happened to it. -/
structure World.Neat (w : World κ) : Prop where
  /-- Heaps are sound. -/
  sound : w.Sound
  /-- Objects were written to. -/
  written : ∀ e, (w.engine e).heap.Written

/-- **The world has grown into another one**, which is neat. -/
structure World.Grows (w w' : World κ) : Prop where
  /-- It is neat. -/
  neat : w'.Neat
  /-- Its heaps are those that there were, grown. -/
  heap : ∀ e, (w.engine e).heap.Grows (w'.engine e).heap

/-- Storing is a course. -/
theorem World.led_storing {C : Engine.Course} {w : World κ} {e : EngineId} {h : Handle}
    {o o' : HeapObject} (hg : (w.engine e).heap.get? h = some o) (ho : o.Becomes o')
    (v : Value) : w.Led C (w.storing e h o' v) := fun e' hs => by
  rw [World.engine_storing]
  split
  case isTrue he =>
    subst he
    exact Machine.admits_put (Heap.get_eq_ok_iff.2 hg) ho hs
  case isFalse => exact ⟨hs, C.congr rfl rfl rfl⟩

/-- So is what an operation does when its host has been asked. -/
theorem Behaviour.led_left (b : Behaviour κ) {depth : Nat} (C : Engine.Course) {w w' : World κ}
    (hw : w.Sound) {e : EngineId} {host : NativeId} {height : Nat}
    (hrelease : (b.machine depth).release host (w.truncate e height) = .ok () w') :
    w.Led C (w'.modifyEngine e fun s => { s with lock := s.lock.undo .level }) := by
  have htruncated : w.Led C (w.truncate e height) := World.led_kept rfl rfl rfl
  have hreleased := ((b.stays C w depth).serves.release host _
    ⟨htruncated.sound hw, htruncated⟩).2
  rw [after_of_ok hrelease] at hreleased
  exact (htruncated.trans hreleased).trans (World.led_kept rfl rfl rfl)

section Growth

variable {w w' w₁ : World κ} {e : EngineId} {h : Handle} {host : NativeId}
  {expandos : Properties Value}

/-- In the first world there are no objects. -/
theorem World.neat_init : ({} : World κ).Neat :=
  ⟨.init, fun e => by
    rw [World.engine_init]
    exact Heap.written_of_limit _⟩

/-- Growth leads from a neat world into what it has grown into. -/
theorem World.Neat.grows (hw : w.Neat) (h : w.Led Engine.growth w') : w.Grows w' where
  neat := ⟨h.sound hw.sound, fun e => (h e (hw.sound e)).2.1 (hw.written e)⟩
  heap e := (h e (hw.sound e)).2.2

/-- **The worlds that programs come to are neat.** -/
theorem Behaviour.Visits.neat {b : Behaviour κ} (hw : b.Visits w) : w.Neat :=
  (World.neat_init.grows (hw.led Engine.growth)).neat

variable (b : Behaviour κ) (depth : Nat)

/-- **Programs let a neat world grow**, and run natives in what it has grown into by then. -/
theorem Behaviour.grows_run (hw : w.Neat) (p : Program κ α) (owned : List Local) :
    w.Grows (((b.machine depth).run p owned).after w)
      ∧ ∀ m', (b.machine depth).Agrees m' (fun w₁ w₂ => w.Grows w₁ ∧ w.Grows w₂)
            (fun w₁ w₂ => w.Grows w₁ ∧ w.Grows w₂) →
          m'.run p owned w = (b.machine depth).run p owned w := by
  obtain ⟨hled, hagrees⟩ := b.led_run Engine.growth hw.sound depth p owned
  refine ⟨hw.grows hled, fun m' ha => hagrees m' ⟨fun id r w₁ hr => ?_, fun n w₁ hr => ?_⟩⟩
  · exact ha.ask id r w₁ ⟨hw.grows hr.1, hw.grows hr.2⟩
  · exact ha.finalise n w₁ ⟨hw.grows hr.1, hw.grows hr.2⟩

variable {b depth}

/-- **A wrapper whose host was asked is the same wrapper still**, written to in the meantime,
and its heap is lent out as it was. -/
theorem Behaviour.exists_grown (hw : w.Neat)
    (hg : (w.engine e).heap.get? h = some (.host host expandos)) {vs : List Value}
    (hv : Value.object h ∈ vs) {r : HostRequest} {x : r.Reply}
    (hask : (b.machine depth).askHost e host r (w.entered e host vs) = .ok x w₁) :
    w.Grows w₁ ∧ (w₁.engine e).loan = (w.engine e).loan
      ∧ w₁.identity? e h = w.identity? e h
      ∧ ∃ writes, (w₁.engine e).heap.get? h = some (.host host (expandos.setAll writes)) := by
  obtain ⟨hpinned, hx⟩ :=
    (b.roams depth).asked (Terrain.holds_entered hw.sound e host vs) hask
  obtain ⟨birth, hi⟩ := Heap.identity?_of_get? hg
  have hi₁ : w₁.identity? e h = w.identity? e h :=
    (Terrain.identity?_of_pinned hpinned hv hi).trans hi.symm
  have hentered : w.Led Engine.growth (w.entered e host vs) := World.led_entered w e host vs
  have hasked := ((b.stays Engine.growth w depth).serves.askHost e host r (w.entered e host vs)
    ⟨hentered.sound hw.sound, hentered⟩).2
  rw [after_of_ok hask] at hasked
  have hgrows := hw.grows (hentered.trans hasked)
  obtain ⟨expandos₁, hg₁⟩ := Heap.get?_of_host (hi₁.trans hi)
  refine ⟨hgrows, ?_, hi₁, ?_⟩
  · rw [(hx.engine e).2, World.engine_entered, if_pos rfl]
  · have hgrown := (hgrows.heap e).of_identity? (hw.sound e) hg hg₁ hi₁
    cases hgrown with
    | host _ _ writes => exact ⟨writes, hg₁⟩

end Growth

/-! ## What is listed -/

/-- **What an object without a host lists**: the names that were set, each where it was set
first, the numerals of the elements that are there, ascending, or nothing. -/
inductive HeapObject.Lists : HeapObject → List String → Prop
  /-- A plain object. -/
  | plain (writes : List (String × Value)) :
      Lists (.plain (.setAll .empty writes)) (writes.map (·.1)).eraseDups
  /-- An array. -/
  | array {els : Elements} {is : List Nat} (hsorted : is.Pairwise (· < ·))
      (hpresent : ∀ i, i ∈ is ↔ ∃ v, els[i]? = some (some v)) :
      Lists (.array els) (is.map Numeral.write)
  /-- A function. -/
  | function (name : String) (body : NativeId) (writes : List (String × Value)) :
      Lists (.function name body (.setAll .empty writes)) (writes.map (·.1)).eraseDups
  /-- A host method. -/
  | hostMethod (target : Handle) (name : String) : Lists (.hostMethod target name) []

namespace HeapObject

variable {o : HeapObject} {names : List String}

/-- It lists nothing twice. -/
theorem Lists.nodup (h : o.Lists names) : names.Nodup := by
  cases h with
  | plain writes => exact Properties.keys_setAll_empty writes ▸ Properties.nodup_keys_setAll_empty _
  | array hsorted _ =>
    have hinjective : Function.Injective Numeral.write := fun i j hij =>
      Option.some.inj ((Numeral.parse?_write i).symm.trans (hij ▸ Numeral.parse?_write j))
    exact List.Nodup.map hinjective (hsorted.imp Nat.ne_of_lt)
  | function name body writes =>
    exact Properties.keys_setAll_empty writes ▸ Properties.nodup_keys_setAll_empty _
  | hostMethod target name => exact List.nodup_nil

/-- An object that was written to since it was made lists what was written. -/
theorem lists_of_grows (hgrows : o.shell.Grows o) (ho : o.hostless = true) :
    o.Lists (Machine.ownNames o) := by
  cases o with
  | plain props =>
    cases hgrows with
    | plain _ writes =>
      have hnames : Machine.ownNames (.plain (Properties.setAll .empty writes))
          = (writes.map (·.1)).eraseDups := Properties.keys_setAll_empty writes
      exact hnames ▸ .plain writes
  | array els =>
    obtain ⟨is, hnames, hsorted, hpresent⟩ := (Elements.row els).exists_sorted_names
    have hlisted : Machine.ownNames (.array els) = is.map Numeral.write := hnames
    refine hlisted ▸ .array hsorted fun i => (hpresent i).trans (exists_congr fun v => ?_)
    exact Option.join_eq_some_iff
  | function name body props =>
    cases hgrows with
    | function _ _ _ writes =>
      have hnames : Machine.ownNames (.function name body (Properties.setAll .empty writes))
          = (writes.map (·.1)).eraseDups := Properties.keys_setAll_empty writes
      exact hnames ▸ .function name body writes
  | hostMethod target name => exact .hostMethod target name
  | host host expandos => cases ho

end HeapObject

section Wrappers

variable {b : Behaviour κ} {depth : Nat} {w w' w₁ : World κ} {e : EngineId} {h : Handle}
  {host : NativeId} {expandos : Properties Value}

/-- **A name that a host declines is one of the wrapper's own** when the write is done, as long
as it is the same wrapper then. -/
theorem Behaviour.stored_of_declined (hw : w.Neat) (hl : (w.engine e).loan = .none)
    (hg : (w.engine e).heap.get? h = some (.host host expandos)) {name : String} {value : Value}
    (hask : (b.machine depth).askHost e host (.setProperty name value)
      (w.entered e host [.object h, value]) = .ok (.ok false) w₁)
    {r : Except EngineError Unit}
    (hset : ((b.machine depth).set e (.object h) name value).run w = .ok r w')
    (hi : w'.identity? e h = w.identity? e h) :
    ∃ own, (w'.engine e).heap.get? h = some (.host host own) ∧ name ∈ own.keys := by
  obtain ⟨hgrows₁, hl₁, hi₁, writes, hg₁⟩ := exists_grown hw hg (List.mem_cons_self ..) hask
  have hallows : (w₁.engine e).loan.allowsWrite = true := decide_eq_true (hl₁.trans hl)
  have hbecomes : HeapObject.Becomes (.host host (expandos.setAll writes))
      (.host host ((expandos.setAll writes).set name value)) :=
    @HeapObject.Becomes.property _ _ name value rfl
  have hg₂ := World.get?_storing hg₁ (.host host ((expandos.setAll writes).set name value)) value
  have hi₂ : (w₁.storing e h (.host host ((expandos.setAll writes).set name value))
      value).identity? e h = w.identity? e h := by
    rw [← hi₁, World.identity?, World.engine_storing, if_pos rfl]
    exact Heap.identity?_put (fun a ha => by
      rw [hg₁] at ha
      exact Option.some.inj ha ▸ hbecomes.shell_eq) h
  have hneat₂ := (hgrows₁.neat.grows (World.led_storing hg₁ hbecomes value)).neat
  -- what is left to do lets the heap grow from there
  rw [Machine.set_of_host _ hl hg] at hset
  obtain ⟨w₂, w₃, hbody, hrelease, rfl⟩ := Machine.hosted_eq_ok.1 hset
  rw [Machine.writeThrough_of_declined hask hallows hg₁] at hbody
  obtain ⟨-, rfl⟩ := EStateM.Result.ok.inj hbody
  have hgrows := hneat₂.grows (b.led_left Engine.growth hneat₂.sound hrelease)
  obtain ⟨birth, hbirth⟩ := Heap.identity?_of_get? hg
  obtain ⟨own, hg'⟩ := Heap.get?_of_host (hi.trans hbirth)
  have hgrown := (hgrows.heap e).of_identity? (hneat₂.sound e) hg₂ hg' (hi.trans hi₂.symm)
  cases hgrown with
  | host _ _ later =>
    exact ⟨_, hg', (Properties.keys_prefix_setAll _ later).subset
      (Properties.mem_keys_set_self _ name value)⟩

/-- **What a wrapper lists** whose host contributes these names, and which has these properties
of its own: after what is contributed its own names that are not among that. -/
def Machine.listing (contributed : List String) (own : Properties Value) : List String :=
  contributed ++ own.keys.filter (· ∉ contributed)

/-- All of its own names are listed. -/
theorem Machine.mem_listing {contributed : List String} {own : Properties Value} {k : String}
    (hk : k ∈ own.keys) : k ∈ Machine.listing contributed own :=
  List.mem_append.2 (or_iff_not_imp_left.2 fun hnot =>
    List.mem_filter.2 ⟨hk, decide_eq_true hnot⟩)

/-- Nothing is listed twice that is not contributed twice. -/
theorem Machine.nodup_listing {contributed : List String} {own : Properties Value}
    (hown : own.keys.Nodup) (hnodup : contributed.Nodup) :
    (Machine.listing contributed own).Nodup := by
  refine List.nodup_append.2 ⟨hnodup, hown.filter _, fun k hk l hl heq => ?_⟩
  exact of_decide_eq_true (List.mem_filter.1 hl).2 (heq ▸ hk)

/-- **A wrapper lists what its host contributes and what it has of its own when the host has
answered**, which is what it had and what was written to it in the meantime. -/
theorem Behaviour.names_of_wrapper (hw : w.Neat) (hl : (w.engine e).loan.allowsRead = true)
    (hg : (w.engine e).heap.get? h = some (.host host expandos)) {contributed : List String}
    (hask : (b.machine depth).askHost e host .propertyNames (w.entered e host [.object h])
      = .ok contributed w₁) :
    ∃ (earlier later : List (String × Value)) (own : Properties Value),
      expandos = .setAll .empty earlier ∧ own = .setAll .empty (earlier ++ later)
      ∧ (w₁.engine e).heap.get? h = some (.host host own)
      ∧ (∀ r w', ((b.machine depth).names e (.object h)).run w = .ok r w' →
        r = .ok (Machine.listing contributed own))
      ∧ (1 < w₁.owners host → ∃ w', ((b.machine depth).names e (.object h)).run w
        = .ok (.ok (Machine.listing contributed own)) w') := by
  obtain ⟨-, hl₁, -, later, hg₁⟩ := exists_grown hw hg (List.mem_singleton.2 rfl) hask
  obtain ⟨earlier, rfl⟩ : ∃ earlier, expandos = .setAll .empty earlier := by
    have hwritten := hw.written e h _ hg
    cases hwritten with
    | host _ _ earlier => exact ⟨earlier, rfl⟩
  have hlisted := Machine.listThrough_of_asked hask
    ((congrArg Loan.allowsRead hl₁).trans hl) hg₁
  have hnames := Machine.names_of_host (b.machine depth) hl hg
  refine ⟨earlier, later, _, rfl, (Properties.setAll_append _ earlier later).symm, hg₁,
    fun r w' hr => ?_, fun ho => ⟨_, hnames.trans (Machine.hosted_of_ok hlisted ho)⟩⟩
  rw [hnames] at hr
  obtain ⟨_, _, hbody, -, -⟩ := Machine.hosted_eq_ok.1 hr
  exact (EStateM.Result.ok.inj (hbody.symm.trans hlisted)).1

end Wrappers

/-! ## The result -/

/-- **Listing is complete, and lists nothing twice.** The worlds that programs come to are
neat, and from a neat world programs go on, and run natives, in neat worlds only, into which
it has grown: an object that was there before and is there still has been written to, one
name after another, and nothing else happened to it. A name that a host declines is among
those of its wrapper when the write is done.

In a neat world, with the heap readable,

* an object without a host lists the names that it stores, each where it was written first,
  or the numerals of its elements, or nothing, and leaves the world as it is;
* a wrapper whose host contributes some names when it is asked, whatever it does to the
  wrapper and the heap until it has, lists these and then the names of its own, those that it
  has by then, each where it was written first, if it is not among them. So all that it ever
  had are listed, and nothing twice that the host does not contribute twice. -/
theorem Behaviour.listings_complete (b : Behaviour κ) :
    (∀ w, b.Visits w → w.Neat)
      ∧ (∀ w : World κ, w.Neat →
        ∀ (α : Type) (depth : Nat) (p : Program κ α) (owned : List Local),
          w.Grows (((b.machine depth).run p owned).after w)
            ∧ ∀ m', (b.machine depth).Agrees m' (fun w₁ w₂ => w.Grows w₁ ∧ w.Grows w₂)
                (fun w₁ w₂ => w.Grows w₁ ∧ w.Grows w₂) →
              m'.run p owned w = (b.machine depth).run p owned w)
      ∧ (∀ (w w' : World κ) (e : EngineId) (h : Handle) (o o' : HeapObject), w.Neat →
        w.Grows w' → (w.engine e).heap.get? h = some o → (w'.engine e).heap.get? h = some o' →
          w'.identity? e h = w.identity? e h → o.Grows o')
      ∧ (∀ (depth : Nat) (w w₁ w' : World κ) (e : EngineId) (h : Handle) (host : NativeId)
        (expandos : Properties Value) (name : String) (value : Value)
        (r : Except EngineError Unit), w.Neat → (w.engine e).loan = .none →
          (w.engine e).heap.get? h = some (.host host expandos) →
          (b.machine depth).askHost e host (.setProperty name value)
            (w.entered e host [.object h, value]) = .ok (.ok false) w₁ →
          ((b.machine depth).set e (.object h) name value).run w = .ok r w' →
          w'.identity? e h = w.identity? e h →
        ∃ own, (w'.engine e).heap.get? h = some (.host host own) ∧ name ∈ own.keys)
      ∧ ∀ (depth : Nat) (w : World κ) (e : EngineId) (h : Handle) (o : HeapObject), w.Neat →
        (w.engine e).loan.allowsRead = true → (w.engine e).heap.get? h = some o →
        (o.hostless = true → o.Lists (Machine.ownNames o) ∧ (Machine.ownNames o).Nodup
            ∧ ((b.machine depth).names e (.object h)).run w
              = .ok (.ok (Machine.ownNames o)) w)
          ∧ ∀ (host : NativeId) (expandos : Properties Value), o = .host host expandos →
            ∀ (contributed : List String) (w₁ : World κ),
            (b.machine depth).askHost e host .propertyNames (w.entered e host [.object h])
              = .ok contributed w₁ →
            ∃ (earlier later : List (String × Value)) (own : Properties Value),
              expandos = .setAll .empty earlier ∧ own = .setAll .empty (earlier ++ later)
              ∧ own.keys = ((earlier ++ later).map (·.1)).eraseDups
              ∧ (w₁.engine e).heap.get? h = some (.host host own)
              ∧ (∀ r w', ((b.machine depth).names e (.object h)).run w = .ok r w' →
                r = .ok (Machine.listing contributed own))
              ∧ (1 < w₁.owners host → ∃ w', ((b.machine depth).names e (.object h)).run w
                = .ok (.ok (Machine.listing contributed own)) w')
              ∧ (∀ k, k ∈ expandos.keys ∨ k ∈ own.keys → k ∈ Machine.listing contributed own)
              ∧ (contributed.Nodup → (Machine.listing contributed own).Nodup) := by
  refine ⟨fun w hw => hw.neat, fun w hw α depth p owned => b.grows_run depth hw p owned,
    fun w w' e h o o' hw hgrows ho ho' hi => ?_,
    fun depth w w₁ w' e h host expandos name value r hw hl hg hask hset hi => ?_,
    fun depth w e h o hw hl hg => ⟨fun ho => ?_, ?_⟩⟩
  · exact (hgrows.heap e).of_identity? (hw.sound e) ho ho' hi
  · exact stored_of_declined hw hl hg hask hset hi
  · have hlists := HeapObject.lists_of_grows (hw.written e h o hg) ho
    exact ⟨hlists, hlists.nodup, Machine.names_of_hostless (b.machine depth) hl hg ho⟩
  · rintro host expandos rfl contributed w₁ hask
    obtain ⟨earlier, later, own, rfl, rfl, hg₁, hfinished, hfinishes⟩ :=
      names_of_wrapper hw hl hg hask
    refine ⟨earlier, later, _, rfl, rfl, Properties.keys_setAll_empty _, hg₁, hfinished,
      hfinishes, fun k hk => Machine.mem_listing (hk.elim (fun hk => ?_) id),
      Machine.nodup_listing (Properties.nodup_keys_setAll_empty _)⟩
    rw [Properties.setAll_append]
    exact (Properties.keys_prefix_setAll _ later).subset hk

/-- A host that takes no property, and when it is asked for names writes to its wrapper and
collects before it contributes two. -/
def Behaviour.inserting : Behaviour Unit where
  answer _ _
    | .host e .propertyNames => do
      let _ ← Program.op (.set e (.object ⟨0, 0⟩) "late" .null)
      let _ ← Program.op (.collect e)
      pure ["a", "b"]
    | .host _ (.setProperty _ _) => .done (.ok false)
    | _ => .panic .noAnswer
  finaliser _ := .done ()

/-- The world in which it has a wrapper with two names, one of which it contributes. -/
def World.labelled : World Unit :=
  ((Behaviour.inserting.machine 2).run (do
    let host ← Program.op (.spawn (.custom ()))
    let _ ← Program.op (.createHost ⟨0⟩ host)
    let _ ← Program.op (.set ⟨0⟩ (.object ⟨0, 0⟩) "early" .null)
    Program.op (.set ⟨0⟩ (.object ⟨0, 0⟩) "a" .null)) []).after {}

/-- What it contributes is listed, then what was written to the wrapper before, and then what
the host wrote while it was asked. -/
theorem Behaviour.listings_complete_inserting :
    ∃ w', ((inserting.machine 3).names ⟨0⟩ (.object ⟨0, 0⟩)).run World.labelled
      = .ok (.ok ["a", "b", "early", "late"]) w' := by
  obtain ⟨hvisits, -, -, -, hlists⟩ := inserting.listings_complete
  have hneat : World.labelled.Neat := hvisits _ (.run .first 2 _ [])
  have hask : ((inserting.machine 3).askHost ⟨0⟩ ⟨0⟩ .propertyNames).finishes
      (World.labelled.entered ⟨0⟩ ⟨0⟩ [.object ⟨0, 0⟩])
      (fun contributed w₁ => decide (contributed = ["a", "b"] ∧ 1 < w₁.owners ⟨0⟩
        ∧ (w₁.engine ⟨0⟩).heap.get? ⟨0, 0⟩
          = some (.host ⟨0⟩ ⟨[("early", .null), ("a", .null), ("late", .null)]⟩))) = true := by
    decide +kernel
  obtain ⟨contributed, w₁, hasked, htest⟩ := Act.exists_of_finishes hask
  obtain ⟨rfl, ho, hg₁⟩ := of_decide_eq_true htest
  obtain ⟨-, hwrapper⟩ := hlists 3 World.labelled ⟨0⟩ ⟨0, 0⟩
    (.host ⟨0⟩ ⟨[("early", .null), ("a", .null)]⟩) hneat (by decide +kernel) (by decide +kernel)
  obtain ⟨_, _, own, -, -, -, hg, -, hfinishes, -⟩ := hwrapper ⟨0⟩ _ rfl _ w₁ hasked
  obtain ⟨-, rfl⟩ := HeapObject.host.inj (Option.some.inj (hg.symm.trans hg₁))
  exact hfinishes ho

end EmbeddedScript
