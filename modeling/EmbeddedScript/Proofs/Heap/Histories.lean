import Mathlib.Data.List.Induction
import Mathlib.Data.List.Nodup
import Mathlib.Data.Nat.SuccPred
import Mathlib.Order.SuccPred.Archimedean
import EmbeddedScript.Properties

/-!
# Ordered properties over their histories

A map of properties is a list that is searched from the front, and looking for the first
entry of a name is right only while **no name has two**. Every map that is built by setting
and removing is like that: setting a name that is there replaces its entry, and one that is
new goes to the end.

What such a map holds can be said without the list. In the history of its changes, a setting
of a name **counts** until the name is removed after it (`Properties.counting`). The name
has the value of the last setting that counts, and stands where the first one put it: so
setting a name again leaves it in its place, while removing it and setting it again moves it
to the end. The history is read from its end, one change at a time: a setting adds its
position to those that count for its name, and a removal takes them all away.
-/

namespace EmbeddedScript

namespace Properties

variable {α : Type} {p : Properties α} {k l : String} {a : α}

/-! ## One change -/

theorem mem_keys {name : String} : name ∈ p.keys ↔ ∃ a, p.get? name = some a := by
  simp only [keys, get?, List.mem_map, Option.map_eq_some_iff]
  constructor
  · rintro ⟨entry, hmem, rfl⟩
    obtain ⟨found, hfound⟩ := Option.isSome_iff_exists.1
      (List.find?_isSome (p := (·.1 = entry.1)).2 ⟨entry, hmem, by simp⟩)
    exact ⟨found.2, found, hfound, rfl⟩
  · rintro ⟨a, entry, hfind, -⟩
    exact ⟨entry, List.mem_of_find?_eq_some hfind, by simpa using List.find?_some hfind⟩

theorem not_mem_keys : k ∉ p.keys ↔ p.get? k = none := by
  rw [mem_keys, ← Option.isSome_iff_exists, Bool.not_eq_true, Option.isSome_eq_false_iff,
    Option.isNone_iff_eq_none]

/-- **Setting a name** leaves the names as they are if it is among them, and appends it if
it is not. -/
theorem keys_set (p : Properties α) (k : String) (a : α) :
    (p.set k a).keys = if k ∈ p.keys then p.keys else p.keys ++ [k] := by
  suffices h : ∀ entries : List (String × α), (setEntries k a entries).map (·.1)
      = if k ∈ entries.map (·.1) then entries.map (·.1) else entries.map (·.1) ++ [k] from
    h p.entries
  intro entries
  induction entries with
  | nil => rfl
  | cons entry rest ih =>
    by_cases hk : entry.1 = k
    · simp [setEntries, hk]
    · rw [setEntries, if_neg hk, List.map_cons, ih, List.map_cons]
      by_cases hmem : k ∈ rest.map (·.1)
      · rw [if_pos hmem, if_pos (List.mem_cons_of_mem _ hmem)]
      · rw [if_neg hmem, if_neg (by rw [List.mem_cons]; exact not_or.2 ⟨Ne.symm hk, hmem⟩),
          List.cons_append]

/-- **Removing a name** takes its first occurrence out of the names. -/
theorem keys_remove (p : Properties α) (k : String) : (p.remove k).keys = p.keys.erase k := by
  unfold remove keys
  have hname : (fun entry : String × α => decide (entry.1 = k)) = (k == ·) ∘ (·.1) :=
    funext fun entry => by simp only [Function.comp_apply, beq_eq_decide, eq_comm]
  rw [List.erase_eq_eraseP, List.eraseP_map, hname]

/-- Setting a name never takes a name away, and puts none before those that are there. -/
theorem keys_prefix_set (p : Properties α) (k : String) (a : α) :
    p.keys <+: (p.set k a).keys := by
  rw [keys_set]
  split
  · exact List.prefix_rfl
  · exact List.prefix_append _ _

theorem nodup_keys_set (hp : p.keys.Nodup) (k : String) (a : α) : (p.set k a).keys.Nodup := by
  rw [keys_set]
  split
  · exact hp
  next hk => exact List.nodup_append_comm.1 (List.nodup_cons.2 ⟨hk, hp⟩)

theorem nodup_keys_remove (hp : p.keys.Nodup) (k : String) : (p.remove k).keys.Nodup :=
  p.keys_remove k ▸ hp.erase k

theorem get?_remove_self (hp : p.keys.Nodup) (k : String) : (p.remove k).get? k = none := by
  rw [← not_mem_keys, keys_remove]
  exact hp.not_mem_erase

/-- Removing one name leaves every other as it was. -/
theorem get?_remove_of_ne (p : Properties α) (h : l ≠ k) : (p.remove k).get? l = p.get? l := by
  suffices hfind : ∀ entries : List (String × α),
      (entries.eraseP (·.1 = k)).find? (·.1 = l) = entries.find? (·.1 = l) from
    congrArg (Option.map _) (hfind p.entries)
  intro entries
  induction entries with
  | nil => rfl
  | cons entry rest ih =>
    by_cases hk : entry.1 = k
    · rw [List.eraseP_cons_of_pos (by simpa using hk),
        List.find?_cons_of_neg (by simpa [hk] using Ne.symm h)]
    · rw [List.eraseP_cons_of_neg (by simpa using hk), List.find?_cons, List.find?_cons, ih]

/-- **Names and values correspond position by position**: while no name occurs twice, the
value of a name is the one that stands where the name does. -/
theorem get?_eq_some_iff (hp : p.keys.Nodup) :
    p.get? k = some a ↔ ∃ i : Nat, p.keys[i]? = some k ∧ p.values[i]? = some a := by
  have hentry : ∀ i : Nat, (p.keys[i]? = some k ∧ p.values[i]? = some a)
      ↔ p.entries[i]? = some (k, a) := by
    intro i
    simp only [keys, values, List.getElem?_map, Option.map_eq_some_iff]
    constructor
    · rintro ⟨⟨entry, hentry, rfl⟩, other, hother, rfl⟩
      rw [hentry] at hother ⊢
      cases hother
      rfl
    · exact fun h => ⟨⟨_, h, rfl⟩, _, h, rfl⟩
  simp only [hentry, ← List.mem_iff_getElem?]
  constructor
  · intro hget
    obtain ⟨entry, hfind, rfl⟩ := Option.map_eq_some_iff.1 hget
    have hname : entry.1 = k := by simpa using List.find?_some hfind
    exact hname ▸ List.mem_of_find?_eq_some hfind
  · intro hmem
    obtain ⟨b, hb⟩ := mem_keys.1 (List.mem_map_of_mem (f := (·.1)) hmem)
    obtain ⟨entry, hfind, rfl⟩ := Option.map_eq_some_iff.1 hb
    have hname : entry.1 = k := by simpa using List.find?_some hfind
    rw [hb, List.inj_on_of_nodup_map hp (List.mem_of_find?_eq_some hfind) hmem hname]

/-! ## Histories -/

/-- **A change of a map of properties.** -/
inductive Change (α : Type)
  /-- A name is set to a value. -/
  | set (name : String) (a : α)
  /-- A name is removed. -/
  | remove (name : String)
deriving DecidableEq

/-- The map after a change. -/
def Change.apply (p : Properties α) : Change α → Properties α
  | .set name a => p.set name a
  | .remove name => p.remove name

/-- **The map after a history of changes**, which begins with no entries. -/
def after (es : List (Change α)) : Properties α := es.foldl Change.apply empty

/-- **The settings of a name that count**: their positions in the history, of which none is
followed by a removal of the name. -/
def counting (es : List (Change α)) (k : String) : Set Nat :=
  {i | (∃ a, es[i]? = some (.set k a)) ∧ ∀ j, i < j → es[j]? ≠ some (.remove k)}

/-- **The one name was there first**: its first setting that counts is earlier than that of
the other. -/
def Precedes (es : List (Change α)) (k l : String) : Prop :=
  ∃ i j, IsLeast (counting es k) i ∧ IsLeast (counting es l) j ∧ i < j

variable {es : List (Change α)} {c : Change α} {i : Nat}

theorem after_concat (es : List (Change α)) (c : Change α) :
    after (es ++ [c]) = c.apply (after es) := by
  simp [after]

theorem lt_length_of_mem_counting (hi : i ∈ counting es k) : i < es.length :=
  have ⟨⟨_, ha⟩, _⟩ := hi
  (List.getElem?_eq_some_iff.1 ha).1

/-- **One more change**: what counted still does unless the change removes the name, and the
change counts if it sets it. -/
theorem mem_counting_concat : i ∈ counting (es ++ [c]) k
    ↔ i ∈ counting es k ∧ c ≠ .remove k ∨ i = es.length ∧ ∃ a, c = .set k a := by
  have hold : ∀ {j}, j < es.length → (es ++ [c])[j]? = es[j]? := List.getElem?_append_left
  have hnew : (es ++ [c])[es.length]? = some c := List.getElem?_concat_length
  constructor
  · rintro ⟨⟨a, ha⟩, hlasts⟩
    have hlt := (List.getElem?_eq_some_iff.1 ha).1
    rw [List.length_append, List.length_singleton] at hlt
    rcases Nat.lt_succ_iff_lt_or_eq.1 hlt with hlt | rfl
    · refine .inl ⟨⟨⟨a, hold hlt ▸ ha⟩, fun j hj hremove => ?_⟩, fun hc => ?_⟩
      · exact hlasts j hj (hold (List.getElem?_eq_some_iff.1 hremove).1 ▸ hremove)
      · exact hlasts es.length hlt (hc ▸ hnew)
    · exact .inr ⟨rfl, a, Option.some.inj (hnew ▸ ha)⟩
  · rintro (⟨hi, hc⟩ | ⟨rfl, a, rfl⟩)
    · have hlt := lt_length_of_mem_counting hi
      obtain ⟨⟨a, ha⟩, hlasts⟩ := hi
      refine ⟨⟨a, (hold hlt).trans ha⟩, fun j hj hremove => ?_⟩
      have hjlt := (List.getElem?_eq_some_iff.1 hremove).1
      rw [List.length_append, List.length_singleton] at hjlt
      rcases Nat.lt_succ_iff_lt_or_eq.1 hjlt with hjlt | rfl
      · exact hlasts j hj (hold hjlt ▸ hremove)
      · exact hc (Option.some.inj (hnew ▸ hremove))
    · refine ⟨⟨a, hnew⟩, fun j hj hremove => ?_⟩
      have hjlt := (List.getElem?_eq_some_iff.1 hremove).1
      rw [List.length_append, List.length_singleton] at hjlt
      omega

/-- A removal undoes every setting of its name. -/
theorem counting_remove_self (es : List (Change α)) (k : String) :
    counting (es ++ [.remove k]) k = ∅ := by
  ext i
  simp [mem_counting_concat]

theorem counting_remove_of_ne (h : l ≠ k) : counting (es ++ [.remove k]) l = counting es l := by
  ext i
  simp [mem_counting_concat, Ne.symm h]

theorem counting_set_self (es : List (Change α)) (k : String) (a : α) :
    counting (es ++ [.set k a]) k = insert es.length (counting es k) := by
  ext i
  simp [mem_counting_concat, or_comm]

theorem counting_set_of_ne (h : l ≠ k) : counting (es ++ [.set k a]) l = counting es l := by
  ext i
  simp [mem_counting_concat, Ne.symm h]

/-- No name occurs twice. -/
theorem nodup_keys_after (es : List (Change α)) : (after es).keys.Nodup := by
  induction es using List.reverseRecOn with
  | nil => exact List.nodup_nil
  | append_singleton es c ih =>
    rw [after_concat]
    cases c with
    | set name a => exact nodup_keys_set ih name a
    | remove name => exact nodup_keys_remove ih name

/-- **A name has the value of the last setting that counts.** -/
theorem get?_after : (after es).get? k = some a
    ↔ ∃ i, IsGreatest (counting es k) i ∧ es[i]? = some (.set k a) := by
  induction es using List.reverseRecOn with
  | nil => simp [after]
  | append_singleton es c ih =>
    have hold : ∀ {s : Set Nat}, (∀ i ∈ s, i < es.length) →
        ((∃ i, IsGreatest s i ∧ (es ++ [c])[i]? = some (.set k a))
          ↔ ∃ i, IsGreatest s i ∧ es[i]? = some (.set k a)) := fun hs =>
      exists_congr fun i => and_congr_right fun hi => by
        rw [List.getElem?_append_left (hs i hi.1)]
    rw [after_concat]
    cases c with
    | set name b =>
      by_cases hk : k = name
      · subst hk
        have hlast : IsGreatest (counting (es ++ [.set k b]) k) es.length := by
          rw [counting_set_self]
          exact ⟨Set.mem_insert _ _, fun i hi => hi.elim le_of_eq fun hi =>
            (lt_length_of_mem_counting hi).le⟩
        rw [Change.apply, get?_set_self]
        constructor
        · rintro ⟨⟩
          exact ⟨_, hlast, List.getElem?_concat_length⟩
        · rintro ⟨i, hi, hset⟩
          rw [hi.unique hlast, List.getElem?_concat_length] at hset
          cases hset
          rfl
      · rw [Change.apply, get?_set_of_ne _ (Ne.symm hk), ih, counting_set_of_ne hk,
          hold fun i => lt_length_of_mem_counting]
    | remove name =>
      by_cases hk : k = name
      · subst hk
        rw [Change.apply, get?_remove_self (nodup_keys_after es), counting_remove_self]
        simp [IsGreatest]
      · rw [Change.apply, get?_remove_of_ne _ hk, ih, counting_remove_of_ne hk,
          hold fun i => lt_length_of_mem_counting]

/-- The names are those with a setting that counts. -/
theorem mem_keys_after : k ∈ (after es).keys ↔ (counting es k).Nonempty := by
  rw [mem_keys]
  constructor
  · rintro ⟨a, ha⟩
    obtain ⟨i, hi, -⟩ := get?_after.1 ha
    exact ⟨i, hi.1⟩
  · intro hne
    obtain ⟨i, hi⟩ := BddAbove.exists_isGreatest_of_nonempty
      ⟨es.length, fun _ hi => (lt_length_of_mem_counting hi).le⟩ hne
    obtain ⟨a, ha⟩ := hi.1.1
    exact ⟨a, get?_after.2 ⟨i, hi, ha⟩⟩

/-- The first setting that counts stays the first whatever is set later. -/
theorem isLeast_counting_set (hi : IsLeast (counting es l) i) (k : String) (a : α) :
    IsLeast (counting (es ++ [.set k a]) l) i := by
  by_cases hl : l = k
  · subst hl
    rw [counting_set_self]
    exact ⟨Set.mem_insert_of_mem _ hi.1, fun j hj => hj.elim
      (fun hj => hj ▸ (lt_length_of_mem_counting hi.1).le) fun hj => hi.2 hj⟩
  · rwa [counting_set_of_ne hl]

/-- A setting that removes no name leaves the order of the names as it was. -/
theorem Precedes.set (h : Precedes es k l) (name : String) (a : α) :
    Precedes (es ++ [.set name a]) k l :=
  have ⟨i, j, hi, hj, hij⟩ := h
  ⟨i, j, isLeast_counting_set hi name a, isLeast_counting_set hj name a, hij⟩

/-- **The names stand in the order in which the first settings that count put them there.** -/
theorem pairwise_keys_after (es : List (Change α)) :
    (after es).keys.Pairwise (Precedes es) := by
  induction es using List.reverseRecOn with
  | nil => exact List.Pairwise.nil
  | append_singleton es c ih =>
    rw [after_concat]
    cases c with
    | set name a =>
      have hold := ih.imp fun h => h.set name a
      rw [Change.apply, keys_set]
      split
      · exact hold
      next hname =>
        rw [mem_keys_after, Set.not_nonempty_iff_eq_empty] at hname
        refine List.pairwise_append.2 ⟨hold, List.pairwise_singleton _ _, fun k hk l hl => ?_⟩
        obtain rfl := List.mem_singleton.1 hl
        obtain ⟨i, hi⟩ := BddBelow.exists_isLeast_of_nonempty (OrderBot.bddBelow _)
          (mem_keys_after.1 hk)
        refine ⟨i, es.length, isLeast_counting_set hi _ a, ?_, lt_length_of_mem_counting hi.1⟩
        rw [counting_set_self, hname]
        exact ⟨Set.mem_insert _ _, fun j hj => hj.elim ge_of_eq False.elim⟩
    | remove name =>
      rw [Change.apply, keys_remove]
      refine (ih.sublist List.erase_sublist).imp_of_mem fun hk hl h => ?_
      have hne : ∀ {l}, l ∈ (after es).keys.erase name → l ≠ name := fun hl heq =>
        (nodup_keys_after es).not_mem_erase (heq ▸ hl)
      rwa [Precedes, counting_remove_of_ne (hne hk), counting_remove_of_ne (hne hl)]

/-- **A map of properties is what its history says.** After any changes:

* no name occurs twice, and the names are those with a setting that counts;
* a name has the value of the last one that counts, and no value if there is none;
* the names are in the order of the first ones that count;
* taking a name out answers the value it has, and afterwards it has none, the others have
  theirs, and the names left are in the same order;
* the number of entries is that of the names and that of the values, the names are those
  that the map says it contains, and a name's value stands where the name does. -/
theorem after_history (es : List (Change α)) :
    (after es).keys.Nodup
      ∧ (∀ k, k ∈ (after es).keys ↔ (counting es k).Nonempty)
      ∧ (∀ k a, (after es).get? k = some a
        ↔ ∃ i, IsGreatest (counting es k) i ∧ es[i]? = some (.set k a))
      ∧ (after es).keys.Pairwise (Precedes es)
      ∧ (∀ k, (after es).take k = ((after es).get? k, after (es ++ [.remove k]))
        ∧ (after (es ++ [.remove k])).get? k = none
        ∧ (∀ l, l ≠ k → (after (es ++ [.remove k])).get? l = (after es).get? l)
        ∧ (after (es ++ [.remove k])).keys = (after es).keys.filter (· ≠ k))
      ∧ (after es).size = (after es).keys.length
      ∧ (after es).size = (after es).values.length
      ∧ (∀ k, (after es).contains k = true ↔ k ∈ (after es).keys)
      ∧ ∀ k a, (after es).get? k = some a
        ↔ ∃ i : Nat, (after es).keys[i]? = some k ∧ (after es).values[i]? = some a := by
  have hnodup := nodup_keys_after es
  refine ⟨hnodup, fun _ => mem_keys_after, fun _ _ => get?_after, pairwise_keys_after es,
    fun k => ?_, (List.length_map _).symm, (List.length_map _).symm,
    fun k => by rw [mem_keys, ← Option.isSome_iff_exists, contains],
    fun _ _ => get?_eq_some_iff hnodup⟩
  have hremove : after (es ++ [.remove k]) = (after es).remove k := after_concat es _
  rw [hremove]
  exact ⟨take_eq _ k, get?_remove_self hnodup k, fun l => get?_remove_of_ne _,
    ((keys_remove _ k).trans (hnodup.erase_eq_filter k)).trans
      (by simp only [bne, beq_eq_decide, decide_not])⟩

/-- Setting a name again leaves it where it is; after it was removed, it goes to the end. -/
example : (after [.set "b" 1, .set "a" 2, .set "b" 3]).entries = [("b", 3), ("a", 2)]
    ∧ (after [.set "b" 1, .set "a" 2, .remove "b", .set "b" 3]).entries = [("a", 2), ("b", 3)] := by
  decide

end Properties

end EmbeddedScript
