import EmbeddedScript.Proofs.Bridge.Orderly
import EmbeddedScript.Proofs.Bridge.RoundTrip

/-!
# Arguments on their way to a bound object

An adapter converts the arguments of a call one after another before it invokes the bound
object, and owns what came of them until the call is done. What a value is converted to is
read off the heap and off the adapters that there are, and a conversion adds roots,
proxies and owners only. So **a conversion does not disturb the ones after it**, and after
all of them each argument still has what it was converted to (`World.StandsFor`). Nobody
is asked meanwhile: nothing goes on record.
-/

namespace EmbeddedScript

open Act

variable {κ α β : Type} {w w' w'' : World κ} {e : EngineId}
  {registry : RegistryId} {v : Value} {n : NativeValue}

namespace World

/-- **What a value is to native code**: a primitive is copied, a wrapper of an adapter is
the bound object behind it, and any other object has a proxy that stands for it. -/
inductive StandsFor (w : World κ) (e : EngineId) (registry : RegistryId) :
    Value → NativeValue → Prop
  /-- No value. -/
  | undefined : StandsFor w e registry .undefined .void
  /-- The value `null`. -/
  | null : StandsFor w e registry .null .null
  /-- A boolean. -/
  | bool (b : Bool) : StandsFor w e registry (.bool b) (.bool b)
  /-- A number. -/
  | number (d : Double) : StandsFor w e registry (.number d) (.double d)
  /-- A string. -/
  | string (s : String) : StandsFor w e registry (.string s) (.string s)
  /-- A wrapper of an adapter. -/
  | bound {h : Handle} {bound : NativeId} : w.bound? e (.object h) = some bound →
      StandsFor w e registry (.object h) (.object bound)
  /-- Any other object. -/
  | proxy {h : Handle} {id : NativeId} {p : Proxy} : w.bound? e (.object h) = none →
      w.native? id = some (.proxy p) → p.engine = e → p.value = .object h →
      p.registry = registry → StandsFor w e registry (.object h) (.object id)

/-- **All that conversions read, and all that came of them, is as it was**, and nothing
has gone on record. -/
structure ConvertsAlike (w w' : World κ) (e : EngineId) : Prop where
  /-- The heap is lent to whom it was lent to. -/
  loan : (w'.engine e).loan = (w.engine e).loan
  /-- The heap is what it was. -/
  heap : (w'.engine e).heap = (w.engine e).heap
  /-- The natives that there were are what they were. -/
  native : ∀ id n, w.native? id = some n → w'.native? id = some n
  /-- No adapter is new. -/
  adapter : ∀ id a, w'.native? id = some (.adapter a) → w.native? id = some (.adapter a)
  /-- Nothing has gone on record. -/
  journal : w'.journal = w.journal

namespace ConvertsAlike

theorem refl (w : World κ) (e : EngineId) : w.ConvertsAlike w e :=
  ⟨rfl, rfl, fun _ _ h => h, fun _ _ h => h, rfl⟩

theorem trans (h : w.ConvertsAlike w' e) (h' : w'.ConvertsAlike w'' e) :
    w.ConvertsAlike w'' e where
  loan := h'.loan.trans h.loan
  heap := h'.heap.trans h.heap
  native id n hn := h'.native id n (h.native id n hn)
  adapter id a hn := h.adapter id a (h'.adapter id a hn)
  journal := h'.journal.trans h.journal

/-- The bound object behind a value is the same. -/
theorem bound? (h : w.ConvertsAlike w' e) (v : Value) : w'.bound? e v = w.bound? e v := by
  have hhost : w'.host? e v = w.host? e v := by
    unfold host?
    rw [h.heap]
  unfold World.bound?
  rw [hhost]
  cases w.host? e v with
  | none => rfl
  | some host =>
    dsimp only
    cases hn : w.native? host with
    | some n => rw [h.native host n hn]
    | none =>
      -- a native that is there now but was not there before is no adapter
      cases hn' : w'.native? host with
      | none => rfl
      | some n =>
        cases n with
        | adapter a => exact nomatch hn.symm.trans (h.adapter host a hn')
        | _ => rfl

/-- What stood for a value stands for it still. -/
theorem standsFor (h : w.ConvertsAlike w' e) (hs : w.StandsFor e registry v n) :
    w'.StandsFor e registry v n := by
  cases hs with
  | undefined => exact .undefined
  | null => exact .null
  | bool b => exact .bool b
  | number d => exact .number d
  | string s => exact .string s
  | bound hb => exact .bound ((h.bound? _).trans hb)
  | proxy hb hn he hv hr =>
    exact .proxy ((h.bound? _).trans hb) (h.native _ _ hn) he hv hr

end ConvertsAlike

/-- To own one more share changes nothing that conversions read. -/
theorem convertsAlike_modifyOwners (w : World κ) (id : NativeId) (f : Nat → Nat)
    (e : EngineId) : w.ConvertsAlike (w.modifyOwners id f) e where
  loan := rfl
  heap := rfl
  native i _ hn := (native?_modifyOwners w id f i).trans hn
  adapter i _ hn := (native?_modifyOwners w id f i).symm.trans hn
  journal := rfl

/-- Nor does a root. -/
theorem convertsAlike_addRoot (w : World κ) (e' : EngineId) (v : Value) (e : EngineId) :
    w.ConvertsAlike (w.addRoot e' v).2 e := by
  refine ⟨?_, ?_, fun _ _ hn => hn, fun _ _ hn => hn, rfl⟩ <;> rw [engine_addRoot] <;> split
  · next he => rw [he]
  · rfl
  · next he => rw [he]
  · rfl

/-- Nor does a proxy. -/
theorem convertsAlike_addNative (w : World κ) (p : Proxy) (e : EngineId) :
    w.ConvertsAlike (w.addNative (.proxy p)).2 e where
  loan := rfl
  heap := rfl
  native i n hn := by
    have hne : i ≠ (w.addNative (.proxy p)).1 := by
      rintro rfl
      rw [native?_addNative_fst] at hn
      cases hn
    rw [native?, natives_addNative, if_neg hne]
    exact hn
  adapter i a hn := by
    rw [native?, natives_addNative] at hn
    split at hn
    · cases hn
    · exact hn
  journal := rfl

end World

namespace Machine

/-! ## Conversions -/

/-- **A value is converted**, and what came of it stands for it. No machine makes a
difference to that. -/
theorem exists_toNative (hl : (w.engine e).loan.allowsRead = true) (registry : RegistryId)
    (v : Value) :
    ∃ n w', (∀ (m : Machine κ) (owned : List Local),
        m.eval (Program.toNative e registry v) owned w = .ok (n, owned) w')
      ∧ w'.StandsFor e registry v n ∧ w.ConvertsAlike w' e := by
  cases v with
  | undefined => exact ⟨_, w, fun _ _ => rfl, .undefined, .refl w e⟩
  | null => exact ⟨_, w, fun _ _ => rfl, .null, .refl w e⟩
  | bool b => exact ⟨_, w, fun _ _ => rfl, .bool b, .refl w e⟩
  | number d => exact ⟨_, w, fun _ _ => rfl, .number d, .refl w e⟩
  | string s => exact ⟨_, w, fun _ _ => rfl, .string s, .refl w e⟩
  | object h =>
    cases hb : w.bound? e (.object h) with
    | some bound =>
      have halike := w.convertsAlike_modifyOwners bound (· + 1) e
      exact ⟨_, _, fun _ owned => toNative_of_bound hl hb registry owned,
        .bound ((halike.bound? _).trans hb), halike⟩
    | none =>
      have halike := (w.convertsAlike_addRoot e (.object h) e).trans
        (World.convertsAlike_addNative _ ⟨(w.addRoot e (.object h)).1, registry⟩ e)
      exact ⟨_, _, fun _ owned => toNative_of_object hl hb registry owned,
        .proxy ((halike.bound? _).trans hb) (World.native?_addNative _ _) rfl rfl rfl, halike⟩

/-- **Values are converted in order**, and what came of each stands for it in the end. -/
theorem exists_toNatives (hl : (w.engine e).loan.allowsRead = true) (registry : RegistryId)
    (vs : List Value) :
    ∃ ns w', (∀ (m : Machine κ) (owned : List Local),
        m.eval (Program.toNatives e registry vs) owned w = .ok (ns, owned) w')
      ∧ vs.Forall₂ (w'.StandsFor e registry) ns ∧ w.ConvertsAlike w' e := by
  induction vs generalizing w with
  | nil => exact ⟨[], w, fun _ _ => rfl, .nil, .refl w e⟩
  | cons v vs ih =>
    obtain ⟨n, w₁, hfirst, hs, halike₁⟩ := exists_toNative hl registry v
    obtain ⟨ns, w₂, hothers, hss, halike₂⟩ := ih (halike₁.loan ▸ hl)
    refine ⟨n :: ns, w₂, fun m owned => ?_, .cons (halike₂.standsFor hs) hss,
      halike₁.trans halike₂⟩
    exact eval_bind_eq_ok.2 ⟨n, owned, w₁, hfirst m owned,
      eval_bind_eq_ok.2 ⟨ns, owned, w₂, hothers m owned, rfl⟩⟩

end Machine

/-! ## Owning what came of them -/

/-- The shares that native values own. -/
def NativeValue.shares (ns : List NativeValue) : List Local :=
  (ns.filterMap NativeValue.object?).map .native

/-- Things that are owned one after another lie in the frame, the first of them innermost. -/
theorem Machine.run_foldl_hold (m : Machine κ) (ls : List Local) (p : Program κ α)
    (f : α → Program κ β) (owned : List Local) :
    m.run ((ls.foldl (fun body l => .hold l body) p).bind f) owned
      = m.run (p.bind f) (ls ++ owned) := by
  induction ls generalizing p with
  | nil => rfl
  | cons l ls ih => exact ih (.hold l p)

/-- **Shares that are owned for the length of a program** lie in the frame while it runs,
and are dropped before what comes next. -/
theorem Machine.run_owningAll (m : Machine κ) (ns : List NativeValue) (p : Program κ α)
    (f : α → Program κ β) :
    m.run ((Program.owningAll ns p).bind f) []
      = m.run (p.bind fun a => (Program.dropping a (NativeValue.shares ns).length).bind f)
          (NativeValue.shares ns) := by
  rw [Program.owningAll, Program.owningEach, run_foldl_hold, Program.bind_assoc,
    List.append_nil]
  rfl

end EmbeddedScript
