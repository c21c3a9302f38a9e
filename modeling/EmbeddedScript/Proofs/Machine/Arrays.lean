import EmbeddedScript.Proofs.Heap.Rows
import EmbeddedScript.Proofs.Machine.Evaluation
import EmbeddedScript.Proofs.Machine.Objects
import EmbeddedScript.Proofs.Roots.Lifetime

/-!
# Arrays are rows

Arrays are used by index and by name, and both change the same elements. Whatever calls
are made on a live array, one after another, **what is observed is what a row would
give**: a length and a map defined at some indices below it, of which the elements are one
representation. Each call does to the row of the elements what `ArrayCall.onRow` says, and
answers what it says; the rest is induction on the calls.

By name an array has its elements, under the canonical numerals of the indices, and its
length. A numeral therefore does what its index does, and **any other name is refused**.
-/

namespace EmbeddedScript

open Act Machine

variable {κ : Type} {m : Machine κ} {w w' : World κ} {e : EngineId} {h : Handle} {r : Row}

/-! ## Calls -/

/-- **A call on an array.** -/
inductive ArrayCall where
  /-- The length. -/
  | length
  /-- Read at an index. -/
  | get (i : Nat)
  /-- Write at an index. -/
  | set (i : Nat) (v : Value)
  /-- Append. -/
  | push (v : Value)
  /-- Remove the last element. -/
  | pop
  /-- List the names. -/
  | names
  /-- Read by the numeral of an index. -/
  | getByName (i : Nat)
  /-- Write by the numeral of an index. -/
  | setByName (i : Nat) (v : Value)
  /-- Read `length` by name. -/
  | getLength
  /-- Write `length` by name. -/
  | setLength (v : Value)

/-- **What is observed of a call.** -/
inductive Observation where
  /-- It succeeded. -/
  | done
  /-- It came to a number. -/
  | count (n : Nat)
  /-- It came to a value. -/
  | value (v : Value)
  /-- It came to some names. -/
  | names (names : List String)
  /-- It failed. -/
  | refused (err : EngineError)
deriving DecidableEq

/-- What is observed of an answer that may be an error. -/
def Observation.of {α : Type} (observe : α → Observation) : Except EngineError α → Observation
  | .ok a => observe a
  | .error err => .refused err

/-- **Make a call** on an array of an engine. -/
def ArrayCall.program (e : EngineId) (array : Value) : ArrayCall → Program κ Observation
  | length => do return .of .count (← Program.op (.arrayLength e array))
  | get i => do return .of .value (← Program.op (.arrayGet e array i))
  | set i v => do return .of (fun _ => .done) (← Program.op (.arraySet e array i v))
  | push v => do return .of .count (← Program.op (.arrayPush e array v))
  | pop => do return .of .value (← Program.op (.arrayPop e array))
  | names => do return .of .names (← Program.op (.names e array))
  | getByName i => do return .of .value (← Program.op (.get e array (Numeral.write i)))
  | setByName i v => do
    return .of (fun _ => .done) (← Program.op (.set e array (Numeral.write i) v))
  | getLength => do return .of .value (← Program.op (.get e array "length"))
  | setLength v => do return .of (fun _ => .done) (← Program.op (.set e array "length" v))

/-- **Make some calls**, one after another. -/
def Program.arrayCalls (e : EngineId) (array : Value) :
    List ArrayCall → Program κ (List Observation)
  | [] => pure []
  | call :: calls => do
    let o ← call.program e array
    let os ← arrayCalls e array calls
    pure (o :: os)

/-- **What a call does to a row**, and what it answers. An index that an array cannot have
is refused, unless the row is that long already; by name it is refused in any case. -/
def ArrayCall.onRow (r : Row) : ArrayCall → Observation × Row
  | length => (.count r.length, r)
  | get i => (.value (r.read i), r)
  | set i v =>
    if i < r.length ∨ i < Elements.maxLength then (.done, r.store i v)
    else (.refused (.typeError (.indexOutOfRange i)), r)
  | push v => (.count (r.length + 1), r.push v)
  | pop => (.value r.pop.1, r.pop.2)
  | names => (.names r.names, r)
  | getByName i => (.value (if i < Elements.maxLength then r.read i else .undefined), r)
  | setByName i v =>
    if i < Elements.maxLength then (.done, r.store i v)
    else (.refused (.typeError (.notIndex (Numeral.write i))), r)
  | getLength => (.value (.number (Double.ofNat r.length)), r)
  | setLength v =>
    match Elements.length? v with
    | some k => (.done, r.resize k)
    | none => (.refused (.typeError .invalidNewLength), r)

/-- What some calls do to a row, and what they answer. -/
def Row.answers (r : Row) : List ArrayCall → List Observation × Row
  | [] => ([], r)
  | call :: calls =>
    (((call.onRow r).1 :: ((call.onRow r).2.answers calls).1), ((call.onRow r).2.answers calls).2)

/-- **A live array stands for the row**, and nobody has its heap. -/
def World.HoldsRow (w : World κ) (e : EngineId) (h : Handle) (r : Row) : Prop :=
  (w.engine e).loan = .none
    ∧ ∃ els : Elements, (w.engine e).heap.get? h = some (.array els) ∧ els.row = r

namespace World

/-- Another array in its place. -/
theorem HoldsRow.put {els els' : Elements} (hl : (w.engine e).loan = .none)
    (hg : (w.engine e).heap.get? h = some (.array els)) (hr : els'.row = r) :
    (w.modifyEngine e fun s => { s with heap := s.heap.put h (.array els') }).HoldsRow e h r := by
  refine ⟨?_, els', ?_, hr⟩
  · rw [engine_modifyEngine_self]
    exact hl
  · rw [engine_modifyEngine_self]
    exact Heap.get?_put_self hg _

/-- Another array in its place, into which a value was put. -/
theorem HoldsRow.storing {els els' : Elements} (hl : (w.engine e).loan = .none)
    (hg : (w.engine e).heap.get? h = some (.array els)) (hr : els'.row = r) (v : Value) :
    (w.storing e h (.array els') v).HoldsRow e h r := by
  refine ⟨?_, els', ?_, hr⟩
  · rw [engine_storing, if_pos rfl]
    exact hl
  · rw [engine_storing, if_pos rfl]
    exact Heap.get?_put_self hg _

/-- What was just placed is there. -/
theorem HoldsRow.place {els : Elements} (vs : List Value) (hw : w.Sound)
    (hl : (w.engine e).loan = .none) (hr : els.row = r) :
    ((w.recordStale e vs).modifyEngine e fun s =>
      { s with heap := ((w.engine e).heap.place (.array els)).2 }).HoldsRow e
        ((w.engine e).heap.place (.array els)).1 r := by
  refine ⟨?_, els, ?_, hr⟩
  · rw [engine_modifyEngine_self, engine_recordStale]
    exact hl
  · rw [engine_modifyEngine_self, Heap.get?_place (hw e).wellFormed, if_pos rfl]

end World

namespace Machine

/-! ## Names and indices -/

section Names

variable {els els' : Elements} {i : Nat}

/-- Reading by index. -/
theorem arrayGet_eq (hl : (w.engine e).loan = .none)
    (hg : (w.engine e).heap.get? h = some (.array els)) (i : Nat) :
    (arrayGet e (.object h) i).run w = .ok (.ok (els.read i)) w :=
  withArray_of_read hl hg rfl

/-- Writing by index. -/
theorem arraySet_eq (hl : (w.engine e).loan = .none)
    (hg : (w.engine e).heap.get? h = some (.array els)) {v : Value}
    (hs : els.store i v = .ok els') :
    (arraySet e (.object h) i v).run w = .ok (.ok ()) (w.storing e h (.array els') v) :=
  storeElement_of_ok v hl hg (by rw [hs]; rfl)

/-- An index that is out of range. -/
theorem arraySet_of_le (hl : (w.engine e).loan = .none)
    (hg : (w.engine e).heap.get? h = some (.array els)) (hsize : els.size ≤ i)
    (hmax : Elements.maxLength ≤ i) (v : Value) :
    (arraySet e (.object h) i v).run w = .ok (.error (.typeError (.indexOutOfRange i))) w :=
  storeElement_of_error v hl hg (by rw [Elements.store_of_le v hsize hmax]; rfl)

/-- **Reading by name.** -/
theorem get_array_eq (m : Machine κ) (hl : (w.engine e).loan = .none)
    (hg : (w.engine e).heap.get? h = some (.array els)) (name : String) :
    (m.get e (.object h) name).run w = .ok (.ok (els.property name)) w :=
  get_of_hostless m name (by rw [hl]; rfl) hg rfl

/-- **Writing by name.** -/
theorem set_array_eq (m : Machine κ) (hl : (w.engine e).loan = .none)
    (hg : (w.engine e).heap.get? h = some (.array els)) {name : String} {v : Value}
    (hs : els.setProperty name v = .ok els') :
    (m.set e (.object h) name v).run w = .ok (.ok ()) (w.storing e h (.array els') v) :=
  set_of_hostless m name v hl hg rfl (by rw [withProperty, hs]; rfl)

/-- A name that is refused. -/
theorem set_array_of_error (m : Machine κ) (hl : (w.engine e).loan = .none)
    (hg : (w.engine e).heap.get? h = some (.array els)) {name : String} {v : Value}
    {fault : TypeFault} (hs : els.setProperty name v = .error fault) :
    (m.set e (.object h) name v).run w = .ok (.error (.typeError fault)) w :=
  set_of_refusal m name v hl hg rfl (by rw [withProperty, hs]; rfl)

end Names

/-! ## Calls one after another -/

/-- A program of one operation comes to what is observed of its answer. -/
theorem eval_observe (o : Op κ) {x : o.Reply} (observe : o.Reply → Observation)
    (hx : m.perform o w = .ok x w') (owned : List Local) :
    m.eval (do return observe (← Program.op o)) owned w = .ok (observe x, owned) w' :=
  eval_bind_eq_ok.2 ⟨x, owned, w', eval_op_eq_ok.2 ⟨rfl, hx⟩, rfl⟩

/-- **One call** does to the array what it does to the row. -/
theorem eval_arrayCall (hw : w.HoldsRow e h r) (call : ArrayCall) (owned : List Local) :
    ∃ w', m.eval (call.program e (.object h)) owned w = .ok ((call.onRow r).1, owned) w'
      ∧ w'.HoldsRow e h (call.onRow r).2 := by
  have hw' := hw
  obtain ⟨hl, els, hg, rfl⟩ := hw
  cases call with
  | length =>
    have hrun : (arrayLength e (.object h)).run w = .ok (.ok els.size) w :=
      withArray_of_read hl hg rfl
    exact ⟨w, eval_observe (.arrayLength e (.object h)) _ hrun owned, hw'⟩
  | get i => exact ⟨w, eval_observe (.arrayGet e (.object h) i) _ (arrayGet_eq hl hg i) owned, hw'⟩
  | set i v =>
    simp only [ArrayCall.onRow]
    split
    case isTrue hi =>
      obtain ⟨els', hs, hr⟩ := Elements.row_store v hi
      exact ⟨_, eval_observe (.arraySet e (.object h) i v) _ (arraySet_eq hl hg hs) owned,
        .storing hl hg hr v⟩
    case isFalse hi =>
      obtain ⟨hsize, hmax⟩ := not_or.1 hi
      have hrun := arraySet_of_le hl hg (Nat.not_lt.1 hsize) (Nat.not_lt.1 hmax) v
      exact ⟨w, eval_observe (.arraySet e (.object h) i v) _ hrun owned, hw'⟩
  | push v =>
    have hrun : (arrayPush e (.object h) v).run w = .ok (.ok (els.size + 1)) _ :=
      storeElement_of_ok v hl hg rfl
    exact ⟨_, eval_observe (.arrayPush e (.object h) v) _ hrun owned,
      .storing hl hg (els.row_push v) v⟩
  | pop =>
    obtain ⟨hlast, hrest⟩ := Prod.ext_iff.1 els.row_pop
    have hrun : (arrayPop e (.object h)).run w = .ok (.ok els.pop.1) _ :=
      withArray_of_ok hl hg rfl
    simp only [ArrayCall.onRow, ← hlast]
    exact ⟨_, eval_observe (.arrayPop e (.object h)) _ hrun owned, .put hl hg hrest⟩
  | names =>
    have hrun := names_of_hostless m (by rw [hl]; rfl) hg rfl
    exact ⟨w, eval_observe (.names e (.object h)) _ hrun owned, hw'⟩
  | getByName i =>
    have hrun := get_array_eq m hl hg (Numeral.write i)
    refine ⟨w, ?_, hw'⟩
    simp only [ArrayCall.onRow]
    split
    case isTrue hi =>
      rw [els.property_write hi] at hrun
      exact eval_observe (.get e (.object h) (Numeral.write i)) _ hrun owned
    case isFalse hi =>
      rw [els.property_of_not_index (Elements.write_ne_length i)
        (Elements.index?_write_of_le (Nat.not_lt.1 hi))] at hrun
      exact eval_observe (.get e (.object h) (Numeral.write i)) _ hrun owned
  | setByName i v =>
    simp only [ArrayCall.onRow]
    split
    case isTrue hi =>
      obtain ⟨els', hs, hr⟩ := Elements.row_store v (.inr hi)
      have hrun := set_array_eq m hl hg ((els.setProperty_write hi v).trans hs)
      exact ⟨_, eval_observe (.set e (.object h) (Numeral.write i) v) _ hrun owned,
        .storing hl hg hr v⟩
    case isFalse hi =>
      have hrun := set_array_of_error m hl hg (els.setProperty_of_not_index
        (Elements.write_ne_length i) (Elements.index?_write_of_le (Nat.not_lt.1 hi)) v)
      exact ⟨w, eval_observe (.set e (.object h) (Numeral.write i) v) _ hrun owned, hw'⟩
  | getLength =>
    have hrun := get_array_eq m hl hg "length"
    rw [els.property_length] at hrun
    exact ⟨w, eval_observe (.get e (.object h) "length") _ hrun owned, hw'⟩
  | setLength v =>
    simp only [ArrayCall.onRow]
    split
    case h_1 k hk =>
      have hrun := set_array_eq m hl hg (els.setProperty_length hk)
      exact ⟨_, eval_observe (.set e (.object h) "length" v) _ hrun owned,
        .storing hl hg (els.row_resize k) v⟩
    case h_2 hk =>
      have hrun := set_array_of_error m hl hg (els.setProperty_length_of_none hk)
      exact ⟨w, eval_observe (.set e (.object h) "length" v) _ hrun owned, hw'⟩

/-- **Calls one after another** do to the array what they do to the row. The induction is
on the calls, with the row that the first of them leaves. -/
theorem run_arrayCalls (hw : w.HoldsRow e h r) (calls : List ArrayCall) :
    ∃ w', m.run (Program.arrayCalls e (.object h) calls) [] w = .ok (r.answers calls).1 w'
      ∧ w'.HoldsRow e h (r.answers calls).2 := by
  have key : ∀ (calls : List ArrayCall) (r : Row) (w : World κ), w.HoldsRow e h r →
      ∃ w', m.eval (Program.arrayCalls e (.object h) calls) [] w
          = .ok ((r.answers calls).1, []) w' ∧ w'.HoldsRow e h (r.answers calls).2 := by
    intro calls
    induction calls with
    | nil => exact fun r w hw => ⟨w, rfl, hw⟩
    | cons call calls ih =>
      intro r w hw
      obtain ⟨w₁, hfirst, hw₁⟩ := eval_arrayCall (m := m) hw call []
      obtain ⟨w₂, hrest, hw₂⟩ := ih _ w₁ hw₁
      exact ⟨w₂, eval_bind_eq_ok.2 ⟨_, [], w₁, hfirst,
        eval_bind_eq_ok.2 ⟨_, [], w₂, hrest, rfl⟩⟩, hw₂⟩
  obtain ⟨w', hrun, hw'⟩ := key calls r w hw
  exact ⟨w', run_eq_ok.2 ⟨[], w', hrun, rfl⟩, hw'⟩

/-! ## New arrays -/

/-- **A new array of holes**, in a heap that has room. -/
theorem createArray_of_room (hw : w.Sound) (hl : (w.engine e).loan = .none)
    (hr : (w.engine e).heap.refusal? = none) {n : Nat} (hn : n ≤ Elements.maxLength) :
    ∃ h w', (m.createArray e n).run w = .ok (.ok (.object h)) w'
      ∧ w'.HoldsRow e h (.holes n) := by
  have hrun : (m.createArray e n).run w
      = (m.allocate e (.array (Elements.holes n))).run w := by
    unfold createArray Elements.create
    rw [if_neg (Nat.not_lt.2 hn)]
  exact ⟨_, _, hrun.trans (allocate_of_room hl hr _),
    .place [] hw hl (Elements.row_holes n)⟩

/-- A length that is too long is refused. -/
theorem createArray_of_lt {n : Nat} (hn : Elements.maxLength < n) :
    (m.createArray e n).run w = .ok (.error (.typeError (.invalidLength n))) w := by
  unfold createArray Elements.create
  rw [if_pos hn]
  rfl

/-- **A new array of items**, in a heap that has room. -/
theorem createArrayOf_of_room (hw : w.Sound) (hl : (w.engine e).loan = .none)
    (hr : (w.engine e).heap.refusal? = none) (items : List Value) :
    ∃ h w', (m.createArrayOf e items).run w = .ok (.ok (.object h)) w'
      ∧ w'.HoldsRow e h (.ofList items) := by
  have hstore := storeHeap_of_allowsWrite (e := e) (w := w) (by simp [hl, Loan.allowsWrite])
    items (·.isOk) (offer (.array (Elements.ofList items)))
  rw [offer_of_room hr] at hstore
  exact ⟨_, _, bind_eq_ok.2 ⟨_, _, hstore, rfl⟩, .place _ hw hl (Elements.row_ofList items)⟩

/-! ## The results -/

/-- **Arrays are rows.** Whatever calls are made on a live array whose heap nobody has, they
all come to what they would come to on the row of its elements, and leave an array of the
row that they would leave. A new array is a row of holes, or of the items it was made of. Of
rows it is to be known that what they were cut off does not come back, that they list the
indices at which they are defined in ascending order, and that a value written to `length`
is the length that it is numerically equal to. -/
theorem arrays_are_rows (m : Machine κ) (e : EngineId) :
    (∀ (w : World κ) (h : Handle) (els : Elements), (w.engine e).loan = .none →
        (w.engine e).heap.get? h = some (.array els) → ∀ calls : List ArrayCall,
        ∃ w', m.run (Program.arrayCalls e (.object h) calls) [] w
            = .ok (els.row.answers calls).1 w'
          ∧ w'.HoldsRow e h (els.row.answers calls).2)
      ∧ (∀ w : World κ, w.Reachable → (w.engine e).loan = .none →
          (w.engine e).heap.refusal? = none →
          (∀ n, n ≤ Elements.maxLength → ∃ h w',
              (m.createArray e n).run w = .ok (.ok (.object h)) w'
                ∧ w'.HoldsRow e h (.holes n))
            ∧ (∀ n, Elements.maxLength < n →
              (m.createArray e n).run w = .ok (.error (.typeError (.invalidLength n))) w)
            ∧ ∀ items, ∃ h w', (m.createArrayOf e items).run w = .ok (.ok (.object h)) w'
                ∧ w'.HoldsRow e h (.ofList items))
      ∧ (∀ (r : Row) (k n i : Nat), k ≤ i → ((r.resize k).resize n).value? i = none)
      ∧ (∀ r : Row, ∃ is : List Nat, r.names = is.map Numeral.write ∧ is.Pairwise (· < ·)
          ∧ ∀ i, i ∈ is ↔ ∃ v, r.value? i = some v)
      ∧ ∀ (v : Value) (k : Nat), Elements.length? v = some k
          ↔ k ≤ Elements.maxLength ∧ (Value.number (Double.ofNat k)).looseEq v = true := by
  refine ⟨fun w h els hl hg calls => run_arrayCalls ⟨hl, els, hg, rfl⟩ calls, ?_, ?_, ?_, ?_⟩
  · intro w hw hl hr
    exact ⟨fun n hn => createArray_of_room hw.sound hl hr hn, fun n hn => createArray_of_lt hn,
      fun items => createArrayOf_of_room hw.sound hl hr items⟩
  · exact fun r k n i hi => r.value?_resize_resize hi n
  · exact Row.exists_sorted_names
  · exact fun v k => Elements.length?_eq_some_iff

/-- An array of two holes is stored into beyond its end, made shorter and made longer
again: what was cut off is a hole, and a stored `undefined` is listed where a hole is not. -/
theorem arrays_are_rows_regrown :
    ∃ h w w', ((Behaviour.idle.machine 0).createArray ⟨0⟩ 2).run ({} : World Unit)
        = .ok (.ok (.object h)) w
      ∧ (Behaviour.idle.machine 0).run (Program.arrayCalls ⟨0⟩ (.object h)
          [.set 4 .null, .setByName 1 .undefined, .length, .setLength (.number (Double.ofNat 2)),
            .push .null, .setLength (.number (Double.ofNat 5)), .get 4, .names, .pop, .length])
          [] w
        = .ok [.done, .done, .count 5, .done, .count 3, .done, .value .undefined,
            .names [Numeral.write 1, Numeral.write 2], .value .undefined, .count 4] w' := by
  obtain ⟨hcalls, hnew, -⟩ := arrays_are_rows (Behaviour.idle.machine 0) ⟨0⟩
  obtain ⟨hholes, -⟩ := hnew {} .refl rfl (by decide)
  obtain ⟨h, w, hcreate, hl, els, hg, hrow⟩ := hholes 2 (by decide)
  obtain ⟨w', hrun, -⟩ := hcalls w h els hl hg _
  refine ⟨h, w, w', hcreate, hrun.trans ?_⟩
  rw [hrow]
  exact congrArg (EStateM.Result.ok · w') (by decide +kernel)

/-- **Numerals are indices.** A name is read as an index exactly when it is the canonical
numeral of an index below the longest length – the name of which is read back as it, and
which is what a reader of machine words comes to that then compares the name with what it
would write. On a live array whose heap nobody has, and which is not longer than an array
can be, the numeral of an index reads what the index reads, and writes what the index
writes; both writes fail, and change nothing, exactly when the index is not below the
longest length. A name that is neither an index nor `length` reads as `undefined`, and to
write it fails and changes nothing. -/
theorem numerals_are_indices (m : Machine κ) (e : EngineId) :
    (∀ name i, Elements.index? name = some i
        ↔ i < Elements.maxLength ∧ Numeral.Canonical name.toList
          ∧ Numeral.value name.toList = i)
      ∧ (∀ name i, Elements.index? name = some i
        ↔ i < Elements.maxLength ∧ name = Numeral.write i)
      ∧ (∀ name, Elements.index? name = (Numeral.readWord? name).filter fun i =>
          i < Elements.maxLength ∧ Numeral.write i = name)
      ∧ ∀ (w : World κ) (h : Handle) (els : Elements), (w.engine e).loan = .none →
        (w.engine e).heap.get? h = some (.array els) → els.size ≤ Elements.maxLength →
        (∀ i, (m.get e (.object h) (Numeral.write i)).run w = .ok (.ok (els.read i)) w
            ∧ (arrayGet e (.object h) i).run w = .ok (.ok (els.read i)) w)
          ∧ (∀ i v, i < Elements.maxLength →
            ∃ w', (m.set e (.object h) (Numeral.write i) v).run w = .ok (.ok ()) w'
              ∧ (arraySet e (.object h) i v).run w = .ok (.ok ()) w')
          ∧ (∀ i v, Elements.maxLength ≤ i →
            (m.set e (.object h) (Numeral.write i) v).run w
                = .ok (.error (.typeError (.notIndex (Numeral.write i)))) w
              ∧ (arraySet e (.object h) i v).run w
                = .ok (.error (.typeError (.indexOutOfRange i))) w)
          ∧ ∀ name v, name ≠ "length" → Elements.index? name = none →
            (m.get e (.object h) name).run w = .ok (.ok .undefined) w
              ∧ (m.set e (.object h) name v).run w
                = .ok (.error (.typeError (.notIndex name))) w := by
  refine ⟨fun name i => ?_, fun _ _ => Elements.index?_eq_some_iff,
    Numeral.filter_parse?_eq_filter_readWord? (by decide), fun w h els hl hg hsize =>
    ⟨fun i => ?_, fun i v hi => ?_, fun i v hi => ?_, fun name v hn hindex => ?_⟩⟩
  · rw [Elements.index?_eq_some_iff, ← Numeral.parse?_eq_some_iff,
      Numeral.parse?_eq_some_iff_canonical]
  · rw [get_array_eq m hl hg, els.property_write_of_size_le hsize]
    exact ⟨rfl, arrayGet_eq hl hg i⟩
  · obtain ⟨els', hs, -⟩ := Elements.row_store v (.inr hi)
    exact ⟨_, set_array_eq m hl hg ((els.setProperty_write hi v).trans hs),
      arraySet_eq hl hg hs⟩
  · have hrefused := els.setProperty_of_not_index (Elements.write_ne_length i)
      (Elements.index?_write_of_le hi) v
    exact ⟨set_array_of_error m hl hg hrefused,
      arraySet_of_le hl hg (Nat.le_trans hsize hi) hi v⟩
  · rw [get_array_eq m hl hg, els.property_of_not_index hn hindex]
    exact ⟨rfl, set_array_of_error m hl hg (els.setProperty_of_not_index hn hindex v)⟩

/-- An array of one item: its index and the numeral of its index read the same and write the
same, and a leading zero or the longest length makes no index. -/
theorem numerals_are_indices_single :
    ∃ h w, ((Behaviour.idle.machine 0).createArrayOf ⟨0⟩ [.null]).run ({} : World Unit)
        = .ok (.ok (.object h)) w
      ∧ ((Behaviour.idle.machine 0).get ⟨0⟩ (.object h) "0").run w = .ok (.ok .null) w
      ∧ (∃ w', ((Behaviour.idle.machine 0).set ⟨0⟩ (.object h) "3" .null).run w = .ok (.ok ()) w'
        ∧ (arraySet ⟨0⟩ (.object h) 3 .null).run w = .ok (.ok ()) w')
      ∧ ((Behaviour.idle.machine 0).set ⟨0⟩ (.object h) "4294967295" .null).run w
        = .ok (.error (.typeError (.notIndex "4294967295"))) w
      ∧ ((Behaviour.idle.machine 0).get ⟨0⟩ (.object h) "00").run w = .ok (.ok .undefined) w := by
  obtain ⟨-, -, -, harray⟩ := numerals_are_indices (Behaviour.idle.machine 0) ⟨0⟩
  obtain ⟨h, w, hcreate, hl, els, hg, hrow⟩ :=
    createArrayOf_of_room (m := Behaviour.idle.machine 0) .init (e := ⟨0⟩) rfl (by decide) [.null]
  have hsize : els.size = 1 := congrArg Row.length hrow
  obtain ⟨hread, hwrite, hbeyond, hother⟩ :=
    harray w h els hl hg (hsize ▸ (by decide : 1 ≤ Elements.maxLength))
  refine ⟨h, w, hcreate, ?_, hwrite 3 .null (by decide), (hbeyond _ .null (Nat.le_refl _)).1,
    (hother "00" .null (by decide) (by decide)).1⟩
  have hzero : els.read 0 = .null := by
    rw [Elements.read_eq, hrow]
    rfl
  exact hzero ▸ (hread 0).1

end Machine

end EmbeddedScript
