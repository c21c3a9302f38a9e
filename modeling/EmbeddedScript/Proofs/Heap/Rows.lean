import EmbeddedScript.Heap.Elements
import EmbeddedScript.Proofs.Text.Numerals
import EmbeddedScript.Proofs.Number.Whole

/-!
# Rows

The elements of an array stand for a **row**: a length, and a map that is defined at some
indices below it. This module says what a row becomes when it is read and written, without
mention of how the elements are kept, and that the operations on elements do just that.

A row forgets what it is cut off. That is not said of elements, which are a row of
optional values in the memory of the heap, but it is what keeps an element from coming
back when an array is made shorter and then longer again (`Row.resize`).
-/

namespace EmbeddedScript

/-- **A length, and a map defined at some indices below it.** -/
@[ext] structure Row where
  /-- The length. -/
  length : Nat
  /-- The element at an index, if there is one. -/
  value? : Nat → Option Value
  /-- Elements lie below the length. -/
  value?_of_le : ∀ i, length ≤ i → value? i = none

namespace Row

/-- No element at all. -/
def holes (length : Nat) : Row := ⟨length, fun _ => none, fun _ _ => rfl⟩

/-- Every element is there. -/
def ofList (items : List Value) : Row :=
  ⟨items.length, fun i => items[i]?, fun _ h => List.getElem?_eq_none h⟩

/-- The element at an index, or `undefined`. -/
def read (r : Row) (i : Nat) : Value := (r.value? i).getD .undefined

/-- **Put an element at an index**, which the row grows to reach. Nothing else becomes
defined. -/
def store (r : Row) (i : Nat) (v : Value) : Row where
  length := max r.length (i + 1)
  value? := Function.update r.value? i (some v)
  value?_of_le j hj := by
    rw [Function.update_of_ne (by omega)]
    exact r.value?_of_le j (by omega)

/-- The element that was stored is read. -/
theorem read_store (r : Row) (i : Nat) (v : Value) : (r.store i v).read i = v := by
  simp [read, store]

/-- **Put an element at the end.** -/
def push (r : Row) (v : Value) : Row := r.store r.length v

/-- **Another length**; the elements beyond it are forgotten. -/
def resize (r : Row) (length : Nat) : Row where
  length := length
  value? i := if i < length then r.value? i else none
  value?_of_le _ hi := if_neg (Nat.not_lt.2 hi)

/-- **Take the last element away**, if there is one: what it was, and what is left. -/
def pop (r : Row) : Value × Row :=
  match r.length with
  | 0 => (.undefined, r)
  | n + 1 => (r.read n, r.resize n)

/-- An element beyond the end is put at the end, once there are holes up to there. -/
theorem push_resize (r : Row) {i : Nat} (hi : r.length ≤ i) (v : Value) :
    (r.resize i).push v = r.store i v := by
  refine Row.ext ?_ (funext fun j => ?_)
  · simp only [push, store, resize]
    omega
  · by_cases hj : j = i
    · subst hj
      simp [push, store, resize]
    · simp only [push, store, resize, Function.update_of_ne hj]
      split
      case isTrue => rfl
      case isFalse hlt => exact (r.value?_of_le j (by omega)).symm

/-- The numerals of the indices where the row is defined, ascending. -/
def names (r : Row) : List String :=
  ((List.range r.length).filter fun i => (r.value? i).isSome).map Numeral.write

/-- **What the row is made longer by are holes**, whatever was there before. -/
theorem value?_resize_resize (r : Row) {k i : Nat} (hi : k ≤ i) (length : Nat) :
    ((r.resize k).resize length).value? i = none := by
  simp [resize, Nat.not_lt.2 hi]

/-- **The names are those of the indices where the row is defined**, each once and in
ascending order. A hole is told apart from an element that is `undefined`. -/
theorem exists_sorted_names (r : Row) :
    ∃ is : List Nat, r.names = is.map Numeral.write ∧ is.Pairwise (· < ·)
      ∧ ∀ i, i ∈ is ↔ ∃ v, r.value? i = some v := by
  refine ⟨(List.range r.length).filter fun i => (r.value? i).isSome, rfl,
    List.pairwise_lt_range.filter _, fun i => ?_⟩
  rw [List.mem_filter, List.mem_range, Option.isSome_iff_exists]
  refine ⟨And.right, fun ⟨v, hv⟩ => ⟨Nat.lt_of_not_le fun hle => ?_, v, hv⟩⟩
  simp [r.value?_of_le i hle] at hv

end Row

namespace Elements

variable {els : Elements} {i : Nat} {v : Value}

/-- **The row that the elements stand for.** -/
def row (els : Elements) : Row where
  length := els.size
  value? i := els[i]?.join
  value?_of_le i hi := by rw [Array.getElem?_eq_none hi, Option.join_none]

theorem row_holes (length : Nat) : (holes length).row = Row.holes length := by
  ext i v
  · exact Array.size_replicate
  · simp only [row, holes, Row.holes, Array.getElem?_replicate]
    split <;> simp

theorem row_ofList (items : List Value) : (ofList items).row = Row.ofList items := by
  ext i v
  · simp [row, ofList, Row.ofList]
  · cases h : items[i]? <;> simp [row, ofList, Row.ofList, h]

theorem read_eq (els : Elements) (i : Nat) : els.read i = els.row.read i := rfl

theorem names_eq (els : Elements) : els.names = els.row.names := rfl

/-- **What is listed is there.** -/
theorem mem_names {name : String} :
    name ∈ els.names ↔ ∃ i v, name = Numeral.write i ∧ els.row.value? i = some v := by
  obtain ⟨is, hnames, -, his⟩ := els.row.exists_sorted_names
  rw [names_eq, hnames, List.mem_map]
  constructor
  · rintro ⟨i, hi, rfl⟩
    obtain ⟨v, hv⟩ := (his i).1 hi
    exact ⟨i, v, rfl, hv⟩
  · rintro ⟨i, v, rfl, hv⟩
    exact ⟨i, (his i).2 ⟨v, hv⟩, rfl⟩

theorem size_resize (els : Elements) (length : Nat) : (els.resize length).size = length := by
  simp only [resize, Array.take, holes, Array.size_append, Array.size_replicate,
    Array.size_extract]
  omega

/-- Elements below the new length are left where they are. -/
theorem getElem?_resize (els : Elements) (length i : Nat) :
    (els.resize length)[i]?.join = if i < length then els[i]?.join else none := by
  split
  case isTrue hi =>
    simp only [resize, Array.take, holes, Array.getElem?_append, Array.size_extract,
      Array.getElem?_extract, Array.getElem?_replicate, Nat.sub_zero, Nat.zero_add]
    rcases Nat.lt_or_ge i els.size with h | h
    · rw [if_pos (Nat.lt_min.2 ⟨hi, h⟩), if_pos (Nat.lt_min.2 ⟨hi, h⟩)]
    · -- what was beyond the end is a hole
      rw [if_neg fun hlt => Nat.not_lt.2 h (Nat.lt_min.1 hlt).2, Array.getElem?_eq_none h]
      split <;> rfl
  case isFalse hi =>
    rw [Array.getElem?_eq_none (by rw [size_resize]; exact Nat.not_lt.1 hi), Option.join_none]

theorem row_resize (els : Elements) (length : Nat) :
    (els.resize length).row = els.row.resize length :=
  Row.ext (size_resize els length) (funext (getElem?_resize els length))

theorem row_push (els : Elements) (v : Value) :
    row (els.push (some v)) = els.row.push v := by
  refine Row.ext ?_ (funext fun i => ?_)
  · simp [row, Row.push, Row.store]
  · by_cases hi : i = els.size
    · subst hi
      simp [row, Row.push, Row.store]
    · simp [row, Row.push, Row.store, Array.getElem?_push, hi]

/-- **A store below the longest length**, or at an index that is there already, puts the
element into the row. -/
theorem row_store (v : Value) (h : i < els.size ∨ i < maxLength) :
    ∃ els', els.store i v = .ok els' ∧ els'.row = els.row.store i v := by
  unfold store
  split
  case isTrue hi =>
    refine ⟨_, rfl, Row.ext ?_ (funext fun j => ?_)⟩
    · simp only [row, Row.store, Array.size_setIfInBounds]
      omega
    · by_cases hj : j = i
      · subst hj
        simp [row, Row.store, hi]
      · simp [row, Row.store, Array.getElem?_setIfInBounds_ne (Ne.symm hj), hj]
  case isFalse hi =>
    rw [if_neg (Nat.not_lt.2 (h.resolve_left hi))]
    refine ⟨_, rfl, ?_⟩
    rw [row_push, row_resize]
    exact Row.push_resize _ (Nat.not_lt.1 hi) v

/-- **Any other store is refused.** -/
theorem store_of_le (v : Value) (h : els.size ≤ i) (hmax : maxLength ≤ i) :
    els.store i v = .error (.indexOutOfRange i) := by
  rw [store, if_neg (Nat.not_lt.2 h), if_pos (Nat.lt_succ_of_le hmax)]

theorem row_pop (els : Elements) : (els.pop.1, els.pop.2.row) = els.row.pop := by
  unfold Row.pop
  split
  case h_1 h =>
    obtain rfl : els = #[] := Array.eq_empty_of_size_eq_zero h
    rfl
  case h_2 n h =>
    have hsize : els.size = n + 1 := h
    refine Prod.ext ?_ (Row.ext ?_ (funext fun i => ?_))
    · simp only [pop, hsize, read_eq, Nat.add_sub_cancel]
    · simp [pop, row, Row.resize, hsize]
    · simp only [pop, row, Row.resize, Array.getElem?_pop, hsize, Nat.add_sub_cancel]
      split <;> rfl

/-! ## Names -/

/-- **The names of the elements are the numerals below the longest length.** -/
theorem index?_eq_some_iff {name : String} :
    index? name = some i ↔ i < maxLength ∧ name = Numeral.write i := by
  rw [index?, Option.filter_eq_some_iff, Numeral.parse?_eq_some_iff, decide_eq_true_iff,
    and_comm]

theorem index?_write (hi : i < maxLength) : index? (Numeral.write i) = some i :=
  index?_eq_some_iff.2 ⟨hi, rfl⟩

/-- The numeral of another index names nothing. -/
theorem index?_write_of_le (hi : maxLength ≤ i) : index? (Numeral.write i) = none := by
  rw [index?, Numeral.parse?_write, Option.filter_some, if_neg]
  simpa using hi

/-- No numeral is the name of the length. -/
theorem write_ne_length (i : Nat) : Numeral.write i ≠ "length" := by
  intro h
  have hp := Numeral.parse?_write i
  rw [h, show Numeral.parse? "length" = none by decide] at hp
  cases hp

/-- **A value asks for a length** when it is the number of that length. -/
theorem length?_eq_some_iff {length : Nat} :
    length? v = some length
      ↔ length ≤ maxLength ∧ (Value.number (Double.ofNat length)).looseEq v = true := by
  rw [length?, Option.filter_eq_some_iff, decide_eq_true_iff, and_comm]
  refine and_congr_right fun hle => ?_
  have hlt : length < 2 ^ 53 := Nat.lt_of_le_of_lt hle (by decide)
  cases v with
  | number x => exact Double.toNat?_eq_some_iff_numEq hlt
  | _ => simp [Value.number?, Value.looseEq]

theorem property_length (els : Elements) :
    els.property "length" = .number (Double.ofNat els.size) := if_pos rfl

/-- **Reading by the numeral** of an index that an array can have. -/
theorem property_write (els : Elements) (hi : i < maxLength) :
    els.property (Numeral.write i) = els.read i := by
  rw [property, if_neg (write_ne_length i), index?_write hi]
  rfl

/-- Any other name but `length` reads as `undefined`. -/
theorem property_of_not_index {name : String} (hn : name ≠ "length")
    (hindex : index? name = none) : els.property name = .undefined := by
  rw [property, if_neg hn, hindex]
  rfl

/-- Beyond the longest length there is nothing to read, by name or by index. -/
theorem property_write_of_size_le (els : Elements) (hsize : els.size ≤ maxLength) (i : Nat) :
    els.property (Numeral.write i) = els.read i := by
  rcases Nat.lt_or_ge i maxLength with hi | hi
  · exact els.property_write hi
  · rw [els.property_of_not_index (write_ne_length i) (index?_write_of_le hi), read,
      Array.getElem?_eq_none (Nat.le_trans hsize hi)]
    rfl

/-- **Writing by the numeral** of an index that an array can have. -/
theorem setProperty_write (els : Elements) (hi : i < maxLength) (v : Value) :
    els.setProperty (Numeral.write i) v = els.store i v := by
  rw [setProperty, if_neg (write_ne_length i), index?_write hi]

/-- Writing a length. -/
theorem setProperty_length (els : Elements) {length : Nat} (hv : length? v = some length) :
    els.setProperty "length" v = .ok (els.resize length) := by
  simp only [setProperty, if_true, hv]

theorem setProperty_length_of_none (els : Elements) (hv : length? v = none) :
    els.setProperty "length" v = .error .invalidNewLength := by
  simp only [setProperty, if_true, hv]

/-- Any other name is refused. -/
theorem setProperty_of_not_index {name : String} (hn : name ≠ "length")
    (hindex : index? name = none) (v : Value) :
    els.setProperty name v = .error (.notIndex name) := by
  rw [setProperty, if_neg hn, hindex]

end Elements

end EmbeddedScript
