import EmbeddedScript.Proofs.Machine.Descriptions
import EmbeddedScript.Proofs.Machine.Writes

/-!
# String forms of nested arrays

An array may contain itself, so there is no string form of every value that takes all its
elements into account. What there is without a limit is a **relation** between values and texts
(`Heap.Reads`): an array reads as the texts of its elements, joined by commas, and a value that
contains itself reads as nothing at all. With a limit, whatever object is met at that depth is
left out, and every value has one text again.

The conversion goes down a fixed number of levels. It is the relation with that limit, and the
relation without one wherever no object is nested that deeply (`Heap.reads_iff`).
-/

namespace EmbeddedScript

variable {κ : Type}

/-! ## The texts of values -/

/-- **Texts joined by commas**: one fewer than there are texts. -/
def commaJoined : List String → String
  | [] => ""
  | [text] => text
  | text :: next :: rest => text ++ "," ++ commaJoined (next :: rest)

theorem intercalate_eq_commaJoined (texts : List String) :
    ",".intercalate texts = commaJoined texts := by
  induction texts using commaJoined.induct with
  | case1 => exact String.intercalate_nil
  | case2 text => exact String.intercalate_singleton
  | case3 text next rest ih => rw [String.intercalate_cons_cons, ih, commaJoined]

/-- **The commas of a joined text** are those of its parts, and one between each two of them. -/
theorem count_commaJoined (texts : List String) :
    (commaJoined texts).toList.count ','
      = (texts.map fun text => text.toList.count ',').sum + (texts.length - 1) := by
  induction texts using commaJoined.induct with
  | case1 => rfl
  | case2 text => simp [commaJoined]
  | case3 text next rest ih =>
    have hcomma : (",".toList).count ',' = 1 := by decide
    rw [commaJoined, String.toList_append, String.toList_append, List.count_append,
      List.count_append, ih, hcomma]
    simp only [List.map_cons, List.sum_cons, List.length_cons]
    omega

namespace Heap

variable {heap : Heap} {tells : NativeId → Except EngineError Value} {limit : Option Nat}
  {depth levels : Nat} {v : Value} {h : Handle} {text : String}

/-- **The object is met in the value with this many arrays above it.** -/
inductive Nests (heap : Heap) : Value → Nat → Handle → Prop
  /-- An object is met in itself. -/
  | self (h : Handle) : Nests heap (.object h) 0 h
  /-- What is met in an element is met in the array, one deeper. -/
  | element {h k : Handle} {els : Elements} {u : Value} {above : Nat}
      (hg : heap.get? h = some (.array els)) (hu : some u ∈ els) (hk : Nests heap u above k) :
      Nests heap (.object h) (above + 1) k

/-- What a value shows is met in it. -/
theorem Shows.nests (hs : heap.Shows v h) : ∃ above, heap.Nests v above h := by
  induction hs with
  | self h => exact ⟨0, .self h⟩
  | element hg hu _ ih =>
    obtain ⟨above, hk⟩ := ih
    exact ⟨above + 1, .element hg hu hk⟩

/-- **The value reads as the text**, if hosts say these things, the value is met at some depth
and objects are left out at the limit. -/
inductive Reads (heap : Heap) (tells : NativeId → Except EngineError Value)
    (limit : Option Nat) : Nat → Value → String → Prop
  /-- A primitive is its text. -/
  | primitive {depth : Nat} {v : Value} {text : String} (hv : v.display? = some text) :
      Reads heap tells limit depth v text
  /-- An object at the limit is left out. -/
  | omitted {depth : Nat} {h : Handle} (hd : limit = some depth) :
      Reads heap tells limit depth (.object h) ""
  /-- A handle whose object is gone. -/
  | stale {depth : Nat} {h : Handle} (hd : limit ≠ some depth) (hg : heap.get? h = none) :
      Reads heap tells limit depth (.object h) "[stale object]"
  /-- A plain object. -/
  | plain {depth : Nat} {h : Handle} {props : Properties Value} (hd : limit ≠ some depth)
      (hg : heap.get? h = some (.plain props)) :
      Reads heap tells limit depth (.object h) "[object Object]"
  /-- A function. -/
  | function {depth : Nat} {h : Handle} {name : String} {body : NativeId}
      {props : Properties Value} (hd : limit ≠ some depth)
      (hg : heap.get? h = some (.function name body props)) :
      Reads heap tells limit depth (.object h) (Machine.displayFunction name)
  /-- A method of a host. -/
  | hostMethod {depth : Nat} {h target : Handle} {name : String} (hd : limit ≠ some depth)
      (hg : heap.get? h = some (.hostMethod target name)) :
      Reads heap tells limit depth (.object h) (Machine.displayFunction name)
  /-- A wrapper, which reads as what its host says. -/
  | host {depth : Nat} {h : Handle} {host : NativeId} {expandos : Properties Value}
      (hd : limit ≠ some depth) (hg : heap.get? h = some (.host host expandos)) :
      Reads heap tells limit depth (.object h) (hostText (tells host))
  /-- An array: a text for each element, the blank ones empty, joined by commas. -/
  | array {depth : Nat} {h : Handle} {els : Elements} {texts : List String}
      (hd : limit ≠ some depth) (hg : heap.get? h = some (.array els))
      (hlength : texts.length = els.size)
      (hblank : ∀ (i : Nat) element text, els[i]? = some element → texts[i]? = some text →
        Machine.isBlankElement element = true → text = "")
      (htext : ∀ (i : Nat) u text, els[i]? = some (some u) → texts[i]? = some text →
        Machine.isBlankElement (some u) = false →
        Reads heap tells limit (depth + 1) u text) :
      Reads heap tells limit depth (.object h) (commaJoined texts)

/-- The texts of the elements of an array, with some levels of nesting left below them. -/
def elementTexts (heap : Heap) (tells : NativeId → Except EngineError Value) (levels : Nat)
    (els : Elements) : List String :=
  els.toList.map fun element =>
    if Machine.isBlankElement element then ""
    else heap.textAt tells levels (element.getD .undefined)

/-- The conversion goes by the kind of object, as long as there are levels left. -/
theorem textAt_object (heap : Heap) (tells : NativeId → Except EngineError Value) (levels : Nat)
    (h : Handle) :
    heap.textAt tells (levels + 1) (.object h) =
      match heap.get? h with
      | none => "[stale object]"
      | some (.plain _) => "[object Object]"
      | some (.function name _ _) => Machine.displayFunction name
      | some (.hostMethod _ name) => Machine.displayFunction name
      | some (.host host _) => hostText (tells host)
      | some (.array els) => commaJoined (heap.elementTexts tells levels els) := by
  conv_lhs => unfold textAt
  cases hg : heap.get? h with
  | none => simp only [Value.display?, Value.handle?_object, hg]
  | some o =>
    cases o with
    | array els =>
      simp only [Value.display?, Value.handle?_object, hg]
      exact intercalate_eq_commaJoined _
    | _ => simp only [Value.display?, Value.handle?_object, hg]

/-- **Each kind of object reads in its own way**, above the limit. -/
theorem reads_object_iff (hd : limit ≠ some depth) :
    heap.Reads tells limit depth (.object h) text ↔
      match heap.get? h with
      | none => text = "[stale object]"
      | some (.plain _) => text = "[object Object]"
      | some (.function name _ _) => text = Machine.displayFunction name
      | some (.hostMethod _ name) => text = Machine.displayFunction name
      | some (.host host _) => text = hostText (tells host)
      | some (.array els) => ∃ texts, text = commaJoined texts ∧ texts.length = els.size
          ∧ (∀ (i : Nat) element text, els[i]? = some element → texts[i]? = some text →
            Machine.isBlankElement element = true → text = "")
          ∧ ∀ (i : Nat) u text, els[i]? = some (some u) → texts[i]? = some text →
            Machine.isBlankElement (some u) = false →
            heap.Reads tells limit (depth + 1) u text := by
  constructor
  · intro hr
    cases hr with
    | primitive hv => cases hv
    | omitted hd' => exact absurd hd' hd
    | stale _ hg => rw [hg]
    | plain _ hg => rw [hg]
    | function _ hg => rw [hg]
    | hostMethod _ hg => rw [hg]
    | host _ hg => rw [hg]
    | array _ hg hlength hblank htext =>
      rw [hg]
      exact ⟨_, rfl, hlength, hblank, htext⟩
  · intro hr
    cases hg : heap.get? h with
    | none =>
      rw [hg] at hr
      exact hr ▸ .stale hd hg
    | some o =>
      rw [hg] at hr
      cases o with
      | plain props => exact hr ▸ .plain hd hg
      | function name body props => exact hr ▸ .function hd hg
      | hostMethod target name => exact hr ▸ .hostMethod hd hg
      | host host expandos => exact hr ▸ .host hd hg
      | array els =>
        obtain ⟨texts, rfl, hlength, hblank, htext⟩ := hr
        exact .array hd hg hlength hblank htext

/-- Texts are those of the elements if each of them is. -/
theorem eq_elementTexts_iff {els : Elements} {texts : List String} :
    texts = heap.elementTexts tells levels els ↔ texts.length = els.size
      ∧ (∀ (i : Nat) element text, els[i]? = some element → texts[i]? = some text →
        Machine.isBlankElement element = true → text = "")
      ∧ ∀ (i : Nat) u text, els[i]? = some (some u) → texts[i]? = some text →
        Machine.isBlankElement (some u) = false → text = heap.textAt tells levels u := by
  constructor
  · rintro rfl
    refine ⟨by simp [elementTexts], fun i element text hi ht hblank => ?_,
      fun i u text hi ht hblank => ?_⟩
    · simp only [elementTexts, List.getElem?_map, Array.getElem?_toList, hi, Option.map_some,
        hblank, if_true, Option.some.injEq] at ht
      exact ht.symm
    · simp only [elementTexts, List.getElem?_map, Array.getElem?_toList, hi, Option.map_some,
        hblank, Bool.false_eq_true, if_false, Option.some.injEq] at ht
      exact ht.symm
  · rintro ⟨hlength, hblank, htext⟩
    refine List.ext_getElem (by simpa [elementTexts] using hlength) fun i hi hi' => ?_
    have hbound : i < els.size := hlength ▸ hi
    have hat : els[i]? = some els[i] := Array.getElem?_eq_getElem _
    have ht : texts[i]? = some texts[i] := List.getElem?_eq_getElem hi
    simp only [elementTexts, List.getElem_map, Array.getElem_toList]
    cases hx : els[i] with
    | none => exact hblank i none _ (hx ▸ hat) ht rfl
    | some u =>
      rw [hx] at hat
      split
      case isTrue hb => exact hblank i _ _ hat ht hb
      case isFalse hb => exact htext i u _ hat ht (Bool.eq_false_iff.2 hb)

/-- A primitive reads as its text, at whatever depth. -/
theorem reads_primitive_iff {known : String} (hv : v.display? = some known) :
    heap.Reads tells limit depth v text ↔ text = known := by
  constructor
  · intro hr
    cases hr with
    | primitive hv' => exact Option.some.inj (hv'.symm.trans hv)
    | _ => cases hv
  · rintro rfl
    exact .primitive hv

/-- **What a value reads as is what the conversion makes of it**, as long as the objects that are
met below are left out just where the conversion runs out of levels. -/
theorem reads_iff
    (hv : ∀ above h, heap.Nests v above h → above ≤ levels →
      (limit = some (depth + above) ↔ above = levels)) :
    heap.Reads tells limit depth v text ↔ text = heap.textAt tells levels v := by
  induction levels generalizing depth v text with
  | zero =>
    cases hd : v.display? with
    | some known => rw [reads_primitive_iff hd, textAt_of_display? hd]
    | none =>
      cases v with
      | object h =>
        have hlimit : limit = some depth := (hv 0 h (.self h) (Nat.le_refl 0)).2 rfl
        constructor
        · intro hr
          cases hr with
          | primitive hv' => cases hv'
          | omitted _ => rfl
          | _ => contradiction
        · rintro rfl
          exact .omitted hlimit
      | _ => cases hd
  | succ levels ih =>
    cases hd : v.display? with
    | some known => rw [reads_primitive_iff hd, textAt_of_display? hd]
    | none =>
      cases v with
      | object h =>
        have hlimit : limit ≠ some depth := fun hlimit =>
          nomatch (hv 0 h (.self h) (Nat.zero_le _)).1 hlimit
        rw [reads_object_iff hlimit, textAt_object]
        cases hg : heap.get? h with
        | none => exact Iff.rfl
        | some o =>
          cases o with
          | array els =>
            -- what is met in an element is met one deeper in the array
            have helement : ∀ {i : Nat} {u : Value} {text : String}, els[i]? = some (some u) →
                (heap.Reads tells limit (depth + 1) u text
                  ↔ text = heap.textAt tells levels u) := by
              intro i u text hi
              refine ih fun above k hk hle => ?_
              have hin := hv (above + 1) k (.element hg (Array.mem_of_getElem? hi) hk)
                (Nat.succ_le_succ hle)
              rw [Nat.add_right_comm, Nat.add_assoc, hin, Nat.succ_inj]
            constructor
            · rintro ⟨texts, rfl, hlength, hblank, htext⟩
              refine congrArg commaJoined (eq_elementTexts_iff.2 ⟨hlength, hblank, ?_⟩)
              exact fun i u text hi ht hb => (helement hi).1 (htext i u text hi ht hb)
            · rintro rfl
              obtain ⟨hlength, hblank, htext⟩ := eq_elementTexts_iff.1
                (rfl : heap.elementTexts tells levels els = _)
              refine ⟨_, rfl, hlength, hblank, ?_⟩
              exact fun i u text hi ht hb => (helement hi).2 (htext i u text hi ht hb)
          | _ => exact Iff.rfl
      | _ => cases hd

end Heap

/-! ## The result -/

open Act Machine

variable {m : Machine κ} {e : EngineId} {heap : Heap} {v : Value} {w w' : World κ}
  {tells : NativeId → Except EngineError Value} {Among : World κ → Prop}

/-- What holds of a value holds of whatever it shows. -/
theorem Machine.Telling.narrow (ht : m.Telling e heap v tells Among) {u : Value}
    (hu : ∀ h, heap.Shows u h → heap.Shows v h) : m.Telling e heap u tells Among where
  reads := ht.reads
  sees hw hs := ht.sees hw (hu _ hs)
  asks hw hs hg := ht.asks hw (hu _ hs) hg

/-- A share that is taken and let go again leaves no trace. -/
theorem World.modifyOwners_back (w : World κ) (id : NativeId) :
    (w.modifyOwners id (· + 1)).modifyOwners id (· - 1) = w := by
  have hnatives : ((w.natives.modify id.index fun n => { n with owners := n.owners + 1 }).modify
      id.index fun n => { n with owners := n.owners - 1 }) = w.natives := by
    refine Array.ext_getElem? fun i => ?_
    rw [Array.getElem?_modify, Array.getElem?_modify]
    split
    case isTrue hi => cases w.natives[i]? <;> simp
    case isFalse => rfl
  exact congrArg (fun natives => { w with natives := natives }) hnatives

/-- **A host of the embedder's that just answers** is asked, which goes on record, and nothing
else happens. -/
theorem Behaviour.hostForm_of_done (b : Behaviour κ) (depth : Nat) (e : EngineId)
    {host : NativeId} {state : κ} {r : Except EngineError Value}
    (hn : w.native? host = some (.custom state)) (ha : w.isAlive host = true)
    (hr : b.answer host state (.host e (.toPrimitive .string)) = .done r) :
    (b.machine (depth + 1)).hostForm e host w
      = .ok r (w.record (.asked host (.host e (.toPrimitive .string)) w.postures)) := by
  have hn' : (w.modifyOwners host (· + 1)).native? host = some (.custom state) := by
    rw [World.native?_modifyOwners, hn]
  have hask := b.askHost_of_custom depth e (.toPrimitive .string) hn'
  rw [hr] at hask
  -- whoever asks is not the only owner
  have howned : 1 < ((w.modifyOwners host (· + 1)).record (.asked host
      (.host e (.toPrimitive .string)) w.postures)).owners host := by
    have hpos : 0 < w.owners host := of_decide_eq_true ha
    have hmore := World.owners_modifyOwners ha (· + 1)
    exact Nat.lt_of_lt_of_eq (Nat.succ_lt_succ hpos) hmore.symm
  refine sharing_eq_ok.2 ⟨_, hask, (release_of_lt_owners _ howned).trans (congrArg _ ?_)⟩
  exact congrArg (World.record · _) (World.modifyOwners_back w host)

/-- Natives that say the same whenever they are asked. -/
def Behaviour.greeting : Behaviour Unit where
  answer _ _
    | .host _ (.toPrimitive _) => .done (.ok (.string "hello"))
    | _ => .panic .noAnswer
  finaliser _ := .done ()

/-- The world with a wrapper of such a host, and an array that contains it. -/
def World.greeted : World Unit :=
  ((Behaviour.greeting.machine 2).run (do
    let host ← Program.op (.spawn (.custom ()))
    let _ ← Program.op (.createHost ⟨0⟩ host)
    Program.op (.createArrayOf ⟨0⟩ [.object ⟨0, 0⟩, .null, .bool true])) []).after {}

/-- In the array its host is met, and nothing below that. -/
theorem World.nests_greeted {above : Nat} {h : Handle}
    (hn : (World.greeted.engine ⟨0⟩).heap.Nests (.object ⟨1, 0⟩) above h) :
    above < 64 ∧ (h = ⟨1, 0⟩ ∨ h = ⟨0, 0⟩) := by
  have harray : (World.greeted.engine ⟨0⟩).heap.get? ⟨1, 0⟩
      = some (.array #[some (.object ⟨0, 0⟩), some .null, some (.bool true)]) := by decide +kernel
  have hhost : (World.greeted.engine ⟨0⟩).heap.get? ⟨0, 0⟩ = some (.host ⟨0⟩ .empty) := by
    decide +kernel
  cases hn with
  | self _ => exact ⟨by decide, .inl rfl⟩
  | element hg hu hk =>
    cases harray.symm.trans hg
    cases hk with
    | self k => exact ⟨by decide, .inr (by simpa using hu)⟩
    | @element k _ _ _ _ hg' _ _ =>
      obtain rfl : k = ⟨0, 0⟩ := by simpa using hu
      cases hhost.symm.trans hg'

/-- The heap is the one with that array, and its host is still there. -/
structure World.Greets (w : World Unit) : Prop where
  /-- The heap is that one. -/
  heap : (w.engine ⟨0⟩).heap = (World.greeted.engine ⟨0⟩).heap
  /-- It can be read. -/
  loan : (w.engine ⟨0⟩).loan.allowsRead = true
  /-- The host is one of those. -/
  native : (w.native? ⟨0⟩).any Native.isCustom = true
  /-- It has an owner. -/
  alive : w.isAlive ⟨0⟩ = true

/-- Asked in such a world, the host says the same. -/
theorem Behaviour.telling_greeted :
    (Behaviour.greeting.machine 2).Telling ⟨0⟩ (World.greeted.engine ⟨0⟩).heap (.object ⟨1, 0⟩)
      (fun _ => .ok (.string "hello")) World.Greets where
  reads hw := hw.loan
  sees hw _ := by rw [hw.heap]
  asks {w h host expandos} hw hs hg := by
    obtain ⟨above, hn⟩ := hs.nests
    obtain ⟨-, rfl | rfl⟩ := World.nests_greeted hn
    · have hno : World.greeted.host? ⟨0⟩ (.object ⟨1, 0⟩) = none := by decide +kernel
      cases hno.symm.trans (World.host?_of_get? hg)
    · have hhost : World.greeted.host? ⟨0⟩ (.object ⟨0, 0⟩) = some ⟨0⟩ := by decide +kernel
      obtain rfl : ⟨0⟩ = host := Option.some.inj (hhost.symm.trans (World.host?_of_get? hg))
      have hcustom := World.native?_of_isCustom hw.native
      exact ⟨_, Behaviour.greeting.hostForm_of_done 1 ⟨0⟩ hcustom hw.alive rfl, { hw with }⟩

theorem World.greets_greeted : World.greeted.Greets where
  heap := rfl
  loan := by decide +kernel
  native := by decide +kernel
  alive := by decide +kernel

end EmbeddedScript
