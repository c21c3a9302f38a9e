import EmbeddedScript.Proofs.Machine.Reports

/-!
# Descriptions

A thrown value is described by its own properties or by its string form, and both are read
off the heap – up to the hosts that the value shows, which say themselves what they look
like. A host may say something else when it is asked again, and it may change or free what
the rest of the description is about: nothing roots a thrown value while it is described.

So a description is a function of a heap **and of what hosts say** (`Heap.description`), and
describing a value twice comes to the same text where hosts repeat themselves and leave what
the value shows as it is (`Machine.Steady.describe`). Where the value shows no host there
is nobody to ask, and nothing more is needed (`Machine.Steady.of_hostless`).
-/

namespace EmbeddedScript

variable {κ : Type}

/-! ## What a string form looks at -/

/-- **The value shows the object**: it is the object, or an array with an element that
shows it. -/
inductive Heap.Shows (heap : Heap) : Value → Handle → Prop
  /-- An object shows itself. -/
  | self (h : Handle) : Shows heap (.object h) h
  /-- An array shows what its elements show. -/
  | element {h k : Handle} {els : Elements} {v : Value}
      (hg : heap.get? h = some (.array els)) (hv : some v ∈ els) (hk : Shows heap v k) :
      Shows heap (.object h) k

/-- The text of a host that answers like this when it is asked for its string form. -/
def hostText : Except EngineError Value → String
  | .ok primitive => primitive.display?.getD "[object Host]"
  | .error _ => "[object Host]"

/-- **The string form** of a value in a heap, with some levels of nesting left, if hosts
say these things. -/
def Heap.textAt (heap : Heap) (tells : NativeId → Except EngineError Value) (levels : Nat)
    (v : Value) : String :=
  match v.display? with
  | some text => text
  | none =>
    match levels, v.handle? with
    | 0, _ => ""
    | _, none => ""
    | levels + 1, some h =>
      match heap.get? h with
      | none => "[stale object]"
      | some (.plain _) => "[object Object]"
      | some (.function name _ _) => Machine.displayFunction name
      | some (.hostMethod _ name) => Machine.displayFunction name
      | some (.array els) =>
        ",".intercalate (els.toList.map fun element =>
          if Machine.isBlankElement element then ""
          else heap.textAt tells levels (element.getD .undefined))
      | some (.host host _) => hostText (tells host)

/-- A primitive is its text. -/
theorem Heap.textAt_of_display? {v : Value} {text : String} (h : v.display? = some text)
    (heap : Heap) (tells : NativeId → Except EngineError Value) (levels : Nat) :
    heap.textAt tells levels v = text := by
  unfold textAt
  rw [h]

/-- **The description** of a thrown value in a heap, if hosts say these things. -/
def Heap.description (heap : Heap) (tells : NativeId → Except EngineError Value)
    (thrown : Value) : String :=
  match thrown.handle?.bind fun h => (heap.get? h).bind Machine.ownDescription? with
  | some text => text
  | none => s!"Uncaught {heap.textAt tells Machine.displayLevels thrown}"

namespace Machine

open Act

variable {m : Machine κ} {e : EngineId} {v : Value} {w w' : World κ}
  {tells : NativeId → Except EngineError Value} {Among : World κ → Prop}

/-- Ask a host for its string form, with a share of it owned. -/
def hostForm (m : Machine κ) (e : EngineId) (host : NativeId) :
    Act κ (Except EngineError Value) :=
  m.sharing host (m.askHost e host (.toPrimitive .string))

/-- **Hosts repeat themselves** while a value is converted. Among the worlds that conversions of
it come through, what the value shows is what it is in this heap, and each host that it shows
tells the same whenever it is asked. -/
structure Telling (m : Machine κ) (e : EngineId) (heap : Heap) (v : Value)
    (tells : NativeId → Except EngineError Value) (Among : World κ → Prop) : Prop where
  /-- The heap can be read. -/
  reads : ∀ {w'}, Among w' → (w'.engine e).loan.allowsRead = true
  /-- What the value shows is what it was. -/
  sees : ∀ {w' h}, Among w' → heap.Shows v h → (w'.engine e).heap.get? h = heap.get? h
  /-- A host tells what it tells. -/
  asks : ∀ {w' h host expandos}, Among w' → heap.Shows v h →
    heap.get? h = some (.host host expandos) →
    ∃ w'', m.hostForm e host w' = .ok (tells host) w'' ∧ Among w''

/-- **Hosts repeat themselves** while a value is described, from this world on. Among the
worlds that descriptions of it come through, each host that the value shows tells the same
whenever it is asked, and leaves what the value shows, and the list of reports, alone. -/
structure Steady (m : Machine κ) (e : EngineId) (v : Value)
    (tells : NativeId → Except EngineError Value) (Among : World κ → Prop) (w : World κ) :
    Prop where
  /-- Descriptions set out from here. -/
  here : Among w
  /-- The heap can be read. -/
  reads : ∀ {w'}, Among w' → (w'.engine e).loan.allowsRead = true
  /-- What the value shows is what it was. -/
  sees : ∀ {w' h}, Among w' → (w.engine e).heap.Shows v h →
    (w'.engine e).heap.get? h = (w.engine e).heap.get? h
  /-- A host tells what it tells. -/
  asks : ∀ {w' h host expandos}, Among w' → (w.engine e).heap.Shows v h →
    (w.engine e).heap.get? h = some (.host host expandos) →
    ∃ w'', m.hostForm e host w' = .ok (tells host) w'' ∧ Among w''
      ∧ w''.reported e = w'.reported e
  /-- It makes no difference what was reported. -/
  reports : ∀ {w'} text, Among w' → Among (w'.addReport e text)

/-- **A value that shows no host** is steady wherever the heap can be read. -/
theorem Steady.of_hostless (hl : (w.engine e).loan.allowsRead = true)
    (hv : ∀ h host expandos, (w.engine e).heap.Shows v h →
      (w.engine e).heap.get? h ≠ some (.host host expandos)) :
    m.Steady e v tells
      (fun w' => (w'.engine e).heap = (w.engine e).heap
        ∧ (w'.engine e).loan = (w.engine e).loan) w where
  here := ⟨rfl, rfl⟩
  reads h := by rw [h.2, hl]
  sees h _ := by rw [h.1]
  asks _ hs hg := absurd hg (hv _ _ _ hs)
  reports text h := by
    rw [World.addReport, World.engine_modifyEngine_self]
    exact h

/-- What is described is converted, and nothing is reported meanwhile. -/
theorem Steady.telling (hs : m.Steady e v tells Among w) (reported : List String) :
    m.Telling e (w.engine e).heap v tells
      fun w' => Among w' ∧ w'.reported e = reported where
  reads hw' := hs.reads hw'.1
  sees hw' hshown := hs.sees hw'.1 hshown
  asks hw' hshown hg := by
    obtain ⟨w'', hform, hw'', hr⟩ := hs.asks hw'.1 hshown hg
    exact ⟨w'', hform, hw'', hr.trans hw'.2⟩

/-! ## The string form -/

/-- **A joined array** comes to its texts, each where the last one has led. -/
theorem exists_mapM {f : Option Value → Act κ String} {g : Option Value → String}
    (els : List (Option Value))
    (hf : ∀ x ∈ els, ∀ w, Among w → ∃ w', f x w = .ok (g x) w' ∧ Among w') (hw : Among w) :
    ∃ w', els.mapM f w = .ok (els.map g) w' ∧ Among w' := by
  induction els generalizing w with
  | nil => exact ⟨w, rfl, hw⟩
  | cons x els ih =>
    obtain ⟨w₁, hx, hw₁⟩ := hf x List.mem_cons_self w hw
    obtain ⟨w₂, hrest, hw₂⟩ := ih (fun y hy => hf y (List.mem_cons_of_mem x hy)) hw₁
    refine ⟨w₂, ?_, hw₂⟩
    rw [List.mapM_cons]
    exact bind_eq_ok.2 ⟨_, w₁, hx, bind_eq_ok.2 ⟨_, w₂, hrest, rfl⟩⟩

/-- A host is asked, and its text made of what it tells. -/
theorem displayAt_host {host : NativeId} {r : Except EngineError Value} (levels : Nat)
    (hr : m.hostForm e host w = .ok r w') :
    (m.sharing host do
      match ← m.askHost e host (.toPrimitive .string) with
      | .ok primitive =>
        if primitive.isObject then pure "[object Host]"
        else m.displayAt e levels primitive
      | .error _ => pure "[object Host]") w = .ok (hostText r) w' := by
  obtain ⟨w₁, hask, hrelease⟩ := sharing_eq_ok.1 hr
  refine sharing_eq_ok.2 ⟨w₁, bind_eq_ok.2 ⟨r, w₁, hask, ?_⟩, hrelease⟩
  rcases r with err | primitive
  · rfl
  · cases primitive <;> first | rfl | (unfold displayAt; rfl)

/-- **The string form of whatever the value shows** is what the heap and the hosts make
it. -/
theorem Telling.displayAt {heap : Heap} (ht : m.Telling e heap v tells Among) (levels : Nat)
    (u : Value) (hu : ∀ h, heap.Shows u h → heap.Shows v h) (hw : Among w) :
    ∃ w', m.displayAt e levels u w = .ok (heap.textAt tells levels u) w' ∧ Among w' := by
  induction levels generalizing u w with
  | zero =>
    unfold Machine.displayAt Heap.textAt
    cases u.display? with
    | some text => exact ⟨w, rfl, hw⟩
    | none => exact ⟨w, rfl, hw⟩
  | succ levels ih =>
    unfold Machine.displayAt Heap.textAt
    cases hd : u.display? with
    | some text => exact ⟨w, rfl, hw⟩
    | none =>
      cases u with
      | object h =>
        have hshown := hu h (.self h)
        have hread : Act.readHeap e (·.get? h) w = .ok (heap.get? h) w := by
          rw [readHeap_of_allowsRead (ht.reads hw), ht.sees hw hshown]
        have hgo : ∀ {f : Option HeapObject → Act κ String} {text : String},
            (∃ w', f (heap.get? h) w = .ok text w' ∧ Among w') →
            ∃ w', (Act.readHeap e (·.get? h) >>= f) w = .ok text w' ∧ Among w' := by
          rintro f text ⟨w₁, hf, hw₁⟩
          exact ⟨w₁, bind_eq_ok.2 ⟨_, w, hread, hf⟩, hw₁⟩
        refine hgo ?_
        simp only [Value.handle?_object]
        cases hg : heap.get? h with
        | none => exact ⟨w, rfl, hw⟩
        | some o =>
          cases o with
          | array els =>
            -- the elements are converted one after another, each among the same worlds
            have helement : ∀ element ∈ els.toList, ∀ w₁, Among w₁ → ∃ w₂,
                (if isBlankElement element then Pure.pure ""
                  else m.displayAt e levels (element.getD .undefined)) w₁
                  = .ok (if isBlankElement element then ""
                    else heap.textAt tells levels (element.getD .undefined)) w₂
                  ∧ Among w₂ := by
              intro element hmem w₁ hw₁
              rcases element with - | u
              · exact ⟨w₁, rfl, hw₁⟩
              · split
                · exact ⟨w₁, rfl, hw₁⟩
                · exact ih u (fun k hk => hu k (.element hg (Array.mem_toList_iff.1 hmem) hk)) hw₁
            obtain ⟨w₁, htexts, hw₁⟩ := exists_mapM els.toList helement hw
            exact ⟨w₁, bind_eq_ok.2 ⟨_, w₁, htexts, rfl⟩, hw₁⟩
          | host host expandos =>
            obtain ⟨w₁, hform, hw₁⟩ := ht.asks hw hshown hg
            exact ⟨w₁, displayAt_host levels hform, hw₁⟩
          | _ => exact ⟨w, rfl, hw⟩
      | _ => cases hd

/-- What is described is said where one has come to, and where one goes on. -/
def Comes (e : EngineId) (Among : World κ → Prop) (a : Act κ String) (text : String)
    (w : World κ) : Prop :=
  ∃ w', a w = .ok text w' ∧ Among w' ∧ w'.reported e = w.reported e

/-- So it is while the value is described. -/
theorem Steady.displayAt (hs : m.Steady e v tells Among w) (levels : Nat) (u : Value)
    (hu : ∀ h, (w.engine e).heap.Shows u h → (w.engine e).heap.Shows v h) {w₁ : World κ}
    (hw₁ : Among w₁) :
    Comes e Among (m.displayAt e levels u) ((w.engine e).heap.textAt tells levels u) w₁ :=
  (hs.telling (w₁.reported e)).displayAt levels u hu ⟨hw₁, rfl⟩

/-! ## Descriptions -/

/-- **A description is what the heap and the hosts make it**, whenever it is given. -/
theorem Steady.describe (hs : m.Steady e v tells Among w) {w₁ : World κ} (hw₁ : Among w₁) :
    Comes e Among (m.describe e (.exception v)) ((w.engine e).heap.description tells v) w₁ := by
  have hdisplay : Comes e Among (do let text ← m.display e v; Pure.pure s!"Uncaught {text}")
      s!"Uncaught {(w.engine e).heap.textAt tells displayLevels v}" w₁ := by
    obtain ⟨w₂, hd, hw₂⟩ := hs.displayAt displayLevels v (fun _ => id) hw₁
    exact ⟨w₂, bind_eq_ok.2 ⟨_, w₂, hd, rfl⟩, hw₂⟩
  unfold Machine.describe Heap.description
  cases v with
  | object h =>
    have hread : Act.readHeap e (fun heap => (heap.get? h).bind ownDescription?) w₁
        = .ok (((w.engine e).heap.get? h).bind ownDescription?) w₁ := by
      rw [readHeap_of_allowsRead (hs.reads hw₁), hs.sees hw₁ (.self h)]
    simp only [Value.handle?_object, Option.bind_some]
    cases hown : ((w.engine e).heap.get? h).bind ownDescription? with
    | some text => exact ⟨w₁, bind_eq_ok.2 ⟨_, w₁, hread, by rw [hown]; rfl⟩, hw₁, rfl⟩
    | none =>
      obtain ⟨w₂, hd, hw₂⟩ := hdisplay
      exact ⟨w₂, bind_eq_ok.2 ⟨_, w₁, hread, by rw [hown]; exact hd⟩, hw₂⟩
  | _ => exact hdisplay

/-- **A report** adds that description to those that were reported, and nothing else. -/
theorem Steady.report (hs : m.Steady e v tells Among w) {w₁ : World κ} (hw₁ : Among w₁) :
    ∃ w₂, m.report e (.exception v) w₁ = .ok () w₂ ∧ Among w₂
      ∧ w₂.reported e = w₁.reported e ++ [(w.engine e).heap.description tells v] := by
  obtain ⟨w₂, hd, hw₂, hr⟩ := hs.describe hw₁
  refine ⟨w₂.addReport e _, bind_eq_ok.2 ⟨_, w₂, hd, rfl⟩, hs.reports _ hw₂, ?_⟩
  rw [World.reported_addReport, hr]

end Machine

end EmbeddedScript
