import EmbeddedScript.Proofs.Bridge.Presence
import EmbeddedScript.Proofs.Machine.Descriptions
import EmbeddedScript.Proofs.Machine.Performing
import EmbeddedScript.Proofs.Machine.Writes

/-!
# Exceptions on their way to native code

Native code calls script in two places: by the script value that holds the function, and
through a proxy. When the call throws, both report the exception and both describe it to
their caller, the one in this order and the other in the other. **Each describes the value
anew**, and describing may ask hosts. So the call itself adds one description to the
reports, but the two texts are only sure to be the same where hosts repeat themselves
(`Machine.ReportsThrown`).

What is common to the programs that call is that they make one call at most, and that a
call that throws leaves nothing to do but this (`Machine.CallsScript`). That is kept when
plain pieces are put before a program, and when it owns a root.
-/

namespace EmbeddedScript

open Machine

variable {κ α β : Type}

namespace Machine

open Act

/-! ## Reporting and describing -/

section Handling

variable {m : Machine κ} {e : EngineId} {thrown : Value} {w w' : World κ}

/-- Report an exception, and then describe it. -/
def reportFirst (m : Machine κ) (e : EngineId) (thrown : Value) : Act κ String := do
  m.report e (.exception thrown)
  m.describe e (.exception thrown)

/-- Describe an exception, and then report it. -/
def describeFirst (m : Machine κ) (e : EngineId) (thrown : Value) : Act κ String := do
  let text ← m.describe e (.exception thrown)
  m.report e (.exception thrown)
  pure text

/-- **How an action deals with thrown values**: it gives a description, and adds one to the
reports of the engine. -/
structure Handles (m : Machine κ) (e : EngineId) (a : Value → Act κ String) : Prop where
  /-- Natives may write to the list before and after, but it adds one description. -/
  once : ∀ {R : List String → List String → Prop} {thrown text w w'}, m.ReportsWithin e R →
    a thrown w = .ok text w' →
      ∃ entry l, R (w.reported e) l ∧ R (l ++ [entry]) (w'.reported e)
  /-- Where hosts repeat themselves it adds the one that it gives. -/
  same : ∀ {thrown tells Among w}, m.Steady e thrown tells Among w →
    ∃ w', a thrown w = .ok ((w.engine e).heap.description tells thrown) w'
      ∧ w'.reported e = w.reported e ++ [(w.engine e).heap.description tells thrown]

/-- Describing leaves the list to natives. -/
theorem ReportsWithin.rel_describe {R : List String → List String → Prop}
    (hm : m.ReportsWithin e R) {err : EngineError} {text : String}
    (h : m.describe e err w = .ok text w') : R (w.reported e) (w'.reported e) :=
  hm.rel_perform (o := .describe e err) id h

/-- Reporting describes, and then adds the description. -/
theorem exists_of_report {err : EngineError} (h : m.report e err w = .ok () w') :
    ∃ entry w₁, m.describe e err w = .ok entry w₁ ∧ w'.reported e = w₁.reported e ++ [entry] := by
  obtain ⟨entry, w₁, hd, hadd⟩ := bind_eq_ok.1 h
  obtain ⟨-, rfl⟩ := EStateM.Result.ok.inj hadd
  exact ⟨entry, w₁, hd, World.reported_addReport w₁ e entry⟩

theorem handles_reportFirst (m : Machine κ) (e : EngineId) : m.Handles e (m.reportFirst e) where
  once hm h := by
    obtain ⟨_, w₂, hreport, hdescribe⟩ := bind_eq_ok.1 h
    obtain ⟨entry, w₁, hd, hadd⟩ := exists_of_report hreport
    exact ⟨entry, w₁.reported e, hm.rel_describe hd, hadd ▸ hm.rel_describe hdescribe⟩
  same hs := by
    obtain ⟨w₂, hreport, hw₂, hadd⟩ := hs.report hs.here
    obtain ⟨w₃, hdescribe, -, hr⟩ := hs.describe hw₂
    exact ⟨w₃, bind_eq_ok.2 ⟨(), w₂, hreport, hdescribe⟩, hr.trans hadd⟩

theorem handles_describeFirst (m : Machine κ) (e : EngineId) :
    m.Handles e (m.describeFirst e) where
  once hm h := by
    obtain ⟨text, w₁, hdescribe, hrest⟩ := bind_eq_ok.1 h
    obtain ⟨_, w₂, hreport, hpure⟩ := bind_eq_ok.1 hrest
    obtain ⟨-, rfl⟩ := pure_eq_ok.1 hpure
    obtain ⟨entry, w₃, hd, hadd⟩ := exists_of_report hreport
    exact ⟨entry, w₃.reported e, hm.trans (hm.rel_describe hdescribe) (hm.rel_describe hd),
      hadd ▸ hm.refl _⟩
  same hs := by
    obtain ⟨w₂, hdescribe, hw₂, hr⟩ := hs.describe hs.here
    obtain ⟨w₃, hreport, -, hadd⟩ := hs.report hw₂
    exact ⟨w₃, bind_eq_ok.2 ⟨_, w₂, hdescribe, bind_eq_ok.2 ⟨(), w₃, hreport, rfl⟩⟩,
      hadd.trans (by rw [hr])⟩

end Handling

/-! ## Programs that call -/

/-- **Once a call of it threw, the program comes to what an action comes to** from there on,
wrapped up as a failure. -/
structure Continues (m : Machine κ) (e : EngineId) (p : Program κ α) (failed : String → α)
    (owned : List Local) (w : World κ) (a : Act κ String) (w₁ : World κ) : Prop where
  /-- What came before has left the reports to natives. -/
  before : ∀ {R : List String → List String → Prop}, m.ReportsWithin e R →
    R (w.reported e) (w₁.reported e)
  /-- The program comes to what the action has come to. -/
  of_eval : ∀ {x rest w'}, m.eval p owned w = .ok (x, rest) w' →
    ∃ text w₂, a w₁ = .ok text w₂ ∧ x = failed text ∧ w'.reported e = w₂.reported e
  /-- It comes to a result when the action does. -/
  eval : ∀ {text w₂}, a w₁ = .ok text w₂ →
    ∃ w', m.eval p owned w = .ok (failed text, owned) w' ∧ w'.reported e = w₂.reported e

/-- **A program that makes one call at most** and deals with what it throws. -/
structure CallsScript (m : Machine κ) (e : EngineId) (failed : String → α)
    (a : Value → Act κ String) (p : Program κ α) : Prop where
  /-- It leaves its frame as it was. -/
  frame : ∀ {owned w x rest w'}, m.eval p owned w = .ok (x, rest) w' → rest = owned
  /-- It writes to the reports only when the call threw. -/
  throws : ∀ {owned w o w'}, m.Performs o w' p owned w → o.Reports e →
    ∃ thrown w₁, m.Throws e p owned w thrown w₁
  /-- When it did, only that is left to do. -/
  continues : ∀ {owned w thrown w₁}, m.Throws e p owned w thrown w₁ →
    m.Continues e p failed owned w (a thrown) w₁

namespace CallsScript

variable {m : Machine κ} {e : EngineId} {failed : String → α} {a : Value → Act κ String}

theorem of_plain {p : Program κ α} (hp : p.Plain) : m.CallsScript e failed a p where
  frame := hp.eq_of_eval
  throws hperforms hreports := absurd hreports (hp.not_reports _ _ hperforms)
  continues ht := absurd ht hp.not_throws

/-- **A plain piece may come first.** -/
theorem bind {q : Program κ β} {f : β → Program κ α} (hq : q.Plain)
    (hf : ∀ y, m.CallsScript e failed a (f y)) : m.CallsScript e failed a (q >>= f) where
  frame h := by
    obtain ⟨y, rest₁, w₁, hy, h⟩ := eval_bind_eq_ok.1 h
    exact ((hf y).frame h).trans (hq.eq_of_eval hy)
  throws hperforms hreports := by
    rcases performs_bind.1 hperforms with h | ⟨y, rest, w₀, hy, h⟩
    · exact absurd hreports (hq.not_reports _ _ h)
    · obtain ⟨thrown, w₁, ht⟩ := (hf y).throws h hreports
      exact ⟨thrown, w₁, throws_bind.2 (.inr ⟨y, rest, w₀, hy, ht⟩)⟩
  continues ht := by
    rcases throws_bind.1 ht with h | ⟨y, rest, w₀, hy, h⟩
    · exact absurd h hq.not_throws
    · obtain rfl := hq.eq_of_eval hy
      have hc := (hf y).continues h
      refine ⟨fun hm => hm.trans (hm.eval (fun o w' => hq.not_reports o w') hy) (hc.before hm),
        fun hx => ?_, fun ha => ?_⟩
      · obtain ⟨y', rest', w₀', hy', hx⟩ := eval_bind_eq_ok.1 hx
        obtain ⟨hresult, rfl⟩ := EStateM.Result.ok.inj (hy.symm.trans hy')
        obtain ⟨rfl, rfl⟩ := Prod.mk.inj hresult
        exact hc.of_eval hx
      · obtain ⟨w', hx, hr⟩ := hc.eval ha
        exact ⟨w', eval_bind_eq_ok.2 ⟨y, _, w₀, hy, hx⟩, hr⟩

/-- **A root may be owned** for the length of the program. -/
theorem owning {p : Program κ α} (hp : m.CallsScript e failed a p) (r : Root) :
    m.CallsScript e failed a (Program.owning (.root r) p) := by
  -- what the program leaves of the larger frame is the root on top of it, to be dropped
  have heval : ∀ {owned w x rest w'},
      m.eval (Program.owning (.root r) p) owned w = .ok (x, rest) w' ↔
        ∃ w₁, m.eval p (.root r :: owned) w = .ok (x, .root r :: owned) w₁
          ∧ rest = owned ∧ w' = w₁.dropRoot r := by
    intro owned w x rest w'
    refine eval_owning_eq_ok.trans ⟨?_, ?_⟩
    · rintro ⟨left, w₁, hx, hdrop⟩
      obtain rfl := hp.frame hx
      obtain ⟨_, w₂, hroot, hdone⟩ := bind_eq_ok.1 hdrop
      obtain ⟨-, rfl⟩ := EStateM.Result.ok.inj hroot
      obtain ⟨-, rfl, rfl⟩ := eval_pure_eq_ok.1 hdone
      exact ⟨w₁, hx, rfl, rfl⟩
    · rintro ⟨w₁, hx, rfl, rfl⟩
      exact ⟨_, w₁, hx, bind_eq_ok.2 ⟨(), _, rfl, eval_pure_eq_ok.2 ⟨rfl, rfl, rfl⟩⟩⟩
  refine ⟨fun h => ?_, fun hperforms hreports => ?_, fun ht => ?_⟩
  · obtain ⟨w₁, -, hrest, -⟩ := heval.1 h
    exact hrest
  · obtain ⟨thrown, w₁, ht⟩ := hp.throws (performs_owning.1 hperforms) hreports
    exact ⟨thrown, w₁, throws_owning.2 ht⟩
  · have hc := hp.continues (throws_owning.1 ht)
    refine ⟨hc.before, fun hx => ?_, fun ha => ?_⟩
    · obtain ⟨w₁, hy, -, rfl⟩ := heval.1 hx
      obtain ⟨text, w₂, ha, hfailed, hr⟩ := hc.of_eval hy
      exact ⟨text, w₂, ha, hfailed, (World.reported_dropRoot r).trans hr⟩
    · obtain ⟨w', hx, hr⟩ := hc.eval ha
      exact ⟨_, heval.2 ⟨w', hx, rfl, rfl⟩, (World.reported_dropRoot r).trans hr⟩

/-- **A call, and what is made of it.** -/
theorem call {callee this : Value} {args : List Value}
    {k : Except EngineError Value → Program κ α}
    (hplain : ∀ r, (∀ thrown, r ≠ .error (.exception thrown)) → (k r).Plain)
    (hthrown : ∀ thrown, (∀ {owned w x rest w'},
        m.eval (k (.error (.exception thrown))) owned w = .ok (x, rest) w' ↔
          rest = owned ∧ ∃ text, a thrown w = .ok text w' ∧ x = failed text)
      ∧ ∀ {owned w thrown' w'}, ¬ m.Throws e (k (.error (.exception thrown))) owned w thrown' w') :
    m.CallsScript e failed a (Program.op (.call e callee this args) >>= k) where
  frame hwhole := by
    obtain ⟨r, rest₁, w₁, hop, h⟩ := eval_bind_eq_ok.1 hwhole
    obtain ⟨rfl, -⟩ := eval_op_eq_ok.1 hop
    by_cases hx : ∃ thrown, r = .error (.exception thrown)
    · obtain ⟨thrown, rfl⟩ := hx
      exact ((hthrown thrown).1.1 h).1
    · exact (hplain r (not_exists.1 hx)).eq_of_eval h
  throws hperforms hreports := by
    rcases performs_bind.1 hperforms with h | ⟨r, rest, w₁, hop, h⟩
    · obtain ⟨rfl, -⟩ := performs_op.1 h
      exact hreports.elim
    · obtain ⟨rfl, hr⟩ := eval_op_eq_ok.1 hop
      by_cases hx : ∃ thrown, r = .error (.exception thrown)
      · obtain ⟨thrown, rfl⟩ := hx
        exact ⟨thrown, w₁, throws_bind.2 (.inl (throws_op.2 ⟨callee, this, args, rfl, hr⟩))⟩
      · exact absurd hreports ((hplain r (not_exists.1 hx)).not_reports _ _ h)
  continues {owned w thrown w₁} ht := by
    -- what threw is the call itself: nothing that is made of it calls again
    obtain ⟨callee', this', args', heq, hr⟩ : ∃ callee' this' args',
        (.call e callee this args : Op κ) = .call e callee' this' args'
          ∧ (m.call e callee' this' args').run w = .ok (.error (.exception thrown)) w₁ := by
      rcases throws_bind.1 ht with h | ⟨r, rest, w₂, hr, h⟩
      · exact throws_op.1 h
      · by_cases hx : ∃ thrown, r = .error (.exception thrown)
        · obtain ⟨thrown', rfl⟩ := hx
          exact absurd h (hthrown thrown').2
        · exact absurd h (hplain r (not_exists.1 hx)).not_throws
    obtain ⟨-, rfl, rfl, rfl⟩ := Op.call.inj heq
    refine ⟨fun hm => hm.rel_perform (o := .call e callee this args) id hr, fun hx => ?_,
      fun ha => ?_⟩
    · obtain ⟨r, rest₁, w₂, hop, hmade⟩ := eval_bind_eq_ok.1 hx
      obtain ⟨rfl, hr'⟩ := eval_op_eq_ok.1 hop
      obtain ⟨rfl, rfl⟩ := EStateM.Result.ok.inj (hr.symm.trans hr')
      obtain ⟨-, text, ha, rfl⟩ := (hthrown thrown).1.1 hmade
      exact ⟨text, _, ha, rfl, rfl⟩
    · exact ⟨_, eval_bind_eq_ok.2 ⟨_, owned, w₁, eval_op_eq_ok.2 ⟨rfl, hr⟩,
        (hthrown thrown).1.2 ⟨rfl, _, ha, rfl⟩⟩, rfl⟩

end CallsScript

/-! ## What becomes of what was thrown -/

/-- **What becomes of a thrown value** when a program makes a call. -/
structure ReportsThrown (m : Machine κ) (e : EngineId) (failed : String → α)
    (a : Value → Act κ String) (p : Program κ α) (w : World κ) : Prop where
  /-- Where no call threw, the reports are left to natives, however the program ends. -/
  quiet : ∀ {R : List String → List String → Prop}, m.ReportsWithin e R →
    (∀ thrown w₁, ¬ m.Throws e p [] w thrown w₁) →
      R (w.reported e) (((m.run p []).after w).reported e)
  /-- Where one threw, they were until then, and then the program does this. -/
  ends : ∀ {thrown w₁}, m.Throws e p [] w thrown w₁ →
    (∀ {R : List String → List String → Prop}, m.ReportsWithin e R →
      R (w.reported e) (w₁.reported e))
      ∧ ∀ {x w'}, m.run p [] w = .ok x w' →
        ∃ text w₂, a thrown w₁ = .ok text w₂ ∧ x = failed text ∧ w'.reported e = w₂.reported e
  /-- One description is added, whatever natives add before and after. -/
  once : ∀ {R : List String → List String → Prop} {thrown w₁ x w'}, m.ReportsWithin e R →
    m.Throws e p [] w thrown w₁ → m.run p [] w = .ok x w' →
      ∃ entry l, R (w₁.reported e) l ∧ R (l ++ [entry]) (w'.reported e)
  /-- Where hosts repeat themselves, it is the one that is returned, and the last. -/
  same : ∀ {thrown w₁ tells Among}, m.Throws e p [] w thrown w₁ →
    m.Steady e thrown tells Among w₁ →
      ∃ w', m.run p [] w = .ok (failed ((w₁.engine e).heap.description tells thrown)) w'
        ∧ w'.reported e = w₁.reported e ++ [(w₁.engine e).heap.description tells thrown]
  /-- So it is when the value shows no host at all. -/
  hostless : ∀ {thrown w₁}, m.Throws e p [] w thrown w₁ →
    (∀ h host expandos, (w₁.engine e).heap.Shows thrown h →
      (w₁.engine e).heap.get? h ≠ some (.host host expandos)) →
      ∃ text w', m.run p [] w = .ok (failed text) w'
        ∧ w'.reported e = w₁.reported e ++ [text]

/-- **A program that calls and deals with what is thrown** reports it once. -/
theorem CallsScript.reportsThrown {m : Machine κ} {e : EngineId} {failed : String → α}
    {a : Value → Act κ String} {p : Program κ α} (hp : m.CallsScript e failed a p)
    (ha : m.Handles e a) (hm : m.Roams) {w : World κ} (hw : w.Sound) :
    m.ReportsThrown e failed a p w := by
  have hends : ∀ {thrown w₁ x w'}, m.Throws e p [] w thrown w₁ → m.run p [] w = .ok x w' →
      ∃ text w₂, a thrown w₁ = .ok text w₂ ∧ x = failed text
        ∧ w'.reported e = w₂.reported e := by
    intro thrown w₁ x w' ht hrun
    obtain ⟨rest, w₂, hx, hunwind⟩ := run_eq_ok.1 hrun
    obtain rfl := hp.frame hx
    obtain ⟨-, rfl⟩ := pure_eq_ok.1 hunwind
    exact (hp.continues ht).of_eval hx
  have hsame : ∀ {thrown w₁ tells Among}, m.Throws e p [] w thrown w₁ →
      m.Steady e thrown tells Among w₁ →
        ∃ w', m.run p [] w = .ok (failed ((w₁.engine e).heap.description tells thrown)) w'
          ∧ w'.reported e = w₁.reported e ++ [(w₁.engine e).heap.description tells thrown] := by
    intro thrown w₁ tells Among ht hs
    obtain ⟨w₂, htext, hadd⟩ := ha.same hs
    obtain ⟨w', hx, hr⟩ := (hp.continues ht).eval htext
    exact ⟨w', run_eq_ok.2 ⟨[], w', hx, rfl⟩, hr.trans hadd⟩
  refine ⟨fun hR hnone => ?_, fun ht => ⟨(hp.continues ht).before, hends ht⟩,
    fun hR ht hx => ?_, hsame, fun {thrown w₁} ht hv => ?_⟩
  · refine hR.run fun o w' hperforms hreports => ?_
    obtain ⟨thrown, w₁, ht⟩ := hp.throws hperforms hreports
    exact hnone thrown w₁ ht
  · obtain ⟨text, w₂, htext, -, hr⟩ := hends ht hx
    exact hr ▸ ha.once hR htext
  · -- nobody is asked, so it does not matter what hosts would tell
    obtain ⟨w', hx, hadd⟩ := hsame ht
      (Steady.of_hostless (ht.allowsRead hm hw) hv :
        m.Steady e thrown (fun _ => .ok .undefined) _ w₁)
    exact ⟨_, w', hx, hadd⟩

end Machine

/-! ## The programs of the bridge -/

namespace Program.Plain

/-- A bound object into script. -/
theorem toScript (e : EngineId) (registry : RegistryId) (v : NativeValue) :
    (Program.toScript e registry v : Program κ _).Plain := by
  cases v with
  | object bound =>
    refine (Flat.op (o := .look bound) trivial).bind fun n => ?_
    split
    · exact trivial
    · refine (Flat.op (o := .retain bound) trivial).bind fun _ => ?_
      refine (Flat.op (o := .spawn (.adapter ⟨bound, registry, none⟩)) trivial).bind
        fun adapter => ?_
      exact Flat.op (o := .createHost e adapter) trivial
  | _ => exact trivial

theorem toScripts (e : EngineId) (registry : RegistryId) (vs : List NativeValue) :
    (Program.toScripts e registry vs : Program κ _).Plain := by
  induction vs with
  | nil => exact trivial
  | cons v vs ih =>
    refine (toScript e registry v).bind fun first => ?_
    cases first with
    | error err => exact trivial
    | ok first =>
      refine ih.bind fun others => ?_
      cases others <;> exact trivial

/-- A value out of script. -/
theorem toNative (e : EngineId) (registry : RegistryId) (v : Value) :
    (Program.toNative e registry v : Program κ _).Plain := by
  cases v with
  | object h =>
    refine (Flat.op (o := .boundOf e (.object h)) trivial).bind fun bound => ?_
    cases bound with
    | some bound => exact trivial
    | none =>
      refine (Flat.op (o := .root e (.object h)) trivial).bind fun root => ?_
      exact (Flat.op (o := .spawn (.proxy ⟨root, registry⟩)) trivial).bind fun _ => trivial
  | _ => exact trivial

theorem type (s : ScriptValue) : (s.type : Program κ _).Plain :=
  (Flat.op (o := .kind s.engine s.value) trivial).map

theorem adopt (e : EngineId) (v : Value) : (ScriptValue.adopt e v : Program κ _).Plain :=
  (Flat.op (o := .root e v) trivial).bind fun _ => trivial

end Program.Plain

section Tails

variable {m : Machine κ} {e : EngineId} {err : EngineError} {failed : String → α}
  {owned rest : List Local} {w w' : World κ}

/-- Two operations that are no calls throw nothing. -/
theorem not_throws_pair {o : Op κ} {o' : o.Reply → Op κ} {f : ∀ r, (o' r).Reply → α}
    (ho : ¬ o.Calls) (ho' : ∀ r, ¬ (o' r).Calls) {thrown : Value} :
    ¬ m.Throws e (Program.op o >>= fun r => Program.op (o' r) >>= fun x => pure (f r x))
      owned w thrown w' := by
  have hflat : (Program.op o >>= fun r => Program.op (o' r) >>= fun x =>
      pure (f r x)).Flat fun o => ¬ o.Calls :=
    ⟨ho, fun r => ⟨ho' r, fun _ => trivial⟩⟩
  exact hflat.not_throws

/-- What native code does with an exception that it reports first. -/
theorem eval_reportFirst_eq_ok {thrown : Value} {x : α} :
    m.eval (do
        Program.op (.report e (.exception thrown))
        let text ← Program.op (.describe e (.exception thrown))
        pure (failed text)) owned w = .ok (x, rest) w' ↔
      rest = owned ∧ ∃ text, m.reportFirst e thrown w = .ok text w' ∧ x = failed text := by
  constructor
  · intro h
    obtain ⟨_, rest₁, w₁, hop₁, hrest⟩ := eval_bind_eq_ok.1 h
    obtain ⟨rfl, hreport⟩ := eval_op_eq_ok.1 hop₁
    obtain ⟨text, rest₂, w₂, hop₂, hpure⟩ := eval_bind_eq_ok.1 hrest
    obtain ⟨rfl, hdescribe⟩ := eval_op_eq_ok.1 hop₂
    obtain ⟨rfl, rfl, rfl⟩ := eval_pure_eq_ok.1 hpure
    exact ⟨rfl, text, Act.bind_eq_ok.2 ⟨(), w₁, hreport, hdescribe⟩, rfl⟩
  · rintro ⟨rfl, text, h, rfl⟩
    obtain ⟨_, w₁, hreport, hdescribe⟩ := Act.bind_eq_ok.1 h
    refine eval_bind_eq_ok.2 ⟨(), rest, w₁, eval_op_eq_ok.2 ⟨rfl, hreport⟩, ?_⟩
    refine eval_bind_eq_ok.2 ⟨text, rest, w', eval_op_eq_ok.2 ⟨rfl, hdescribe⟩, ?_⟩
    exact eval_pure_eq_ok.2 ⟨rfl, rfl, rfl⟩

/-- What native code does with one that it describes first. -/
theorem eval_describeFirst_eq_ok {thrown : Value} {x : α} :
    m.eval (do
        let text ← Program.op (.describe e (.exception thrown))
        Program.op (.report e (.exception thrown))
        pure (failed text)) owned w = .ok (x, rest) w' ↔
      rest = owned ∧ ∃ text, m.describeFirst e thrown w = .ok text w' ∧ x = failed text := by
  constructor
  · intro h
    obtain ⟨text, rest₁, w₁, hop₁, hrest⟩ := eval_bind_eq_ok.1 h
    obtain ⟨rfl, hdescribe⟩ := eval_op_eq_ok.1 hop₁
    obtain ⟨_, rest₂, w₂, hop₂, hpure⟩ := eval_bind_eq_ok.1 hrest
    obtain ⟨rfl, hreport⟩ := eval_op_eq_ok.1 hop₂
    obtain ⟨rfl, rfl, rfl⟩ := eval_pure_eq_ok.1 hpure
    refine ⟨rfl, text, Act.bind_eq_ok.2 ⟨text, w₁, hdescribe, ?_⟩, rfl⟩
    exact Act.bind_eq_ok.2 ⟨(), _, hreport, rfl⟩
  · rintro ⟨rfl, text, h, rfl⟩
    obtain ⟨text', w₁, hdescribe, h⟩ := Act.bind_eq_ok.1 h
    obtain ⟨_, w₂, hreport, hpure⟩ := Act.bind_eq_ok.1 h
    obtain ⟨rfl, rfl⟩ := Act.pure_eq_ok.1 hpure
    refine eval_bind_eq_ok.2 ⟨text', rest, w₁, eval_op_eq_ok.2 ⟨rfl, hdescribe⟩, ?_⟩
    refine eval_bind_eq_ok.2 ⟨(), rest, w₂, eval_op_eq_ok.2 ⟨rfl, hreport⟩, ?_⟩
    exact eval_pure_eq_ok.2 ⟨rfl, rfl, rfl⟩

end Tails

/-- **Calling a script value** reports what was thrown, and then describes it. -/
theorem ScriptValue.callsScript (m : Machine κ) (s : ScriptValue) (args : List Value) :
    m.CallsScript s.engine (fun text => .error (.exception text)) (m.reportFirst s.engine)
      (s.call args) := by
  refine .bind ((Program.Plain.type s).bind fun t => ?_) fun _ => .call (fun r hr => ?_)
    fun thrown => ⟨?_, ?_⟩
  · split <;> exact trivial
  · rcases r with err | v
    · cases err with
      | exception thrown => exact absurd rfl (hr thrown)
      | _ => exact trivial
    · exact (Program.Plain.adopt s.engine v).map
  · exact eval_reportFirst_eq_ok
  · intro owned w thrown' w'
    exact not_throws_pair id fun _ => id

/-- When the held function throws, the call of the script value does. -/
theorem ScriptValue.throws_call {m : Machine κ} {s : ScriptValue} {args : List Value}
    {owned : List Local} {kind : Option ObjectKind} {thrown : Value} {w w₀ w₁ : World κ}
    (hkind : m.kind s.engine s.value w = .ok kind w₀)
    (hf : ValueType.of s.value kind = .function)
    (hcall : (m.call s.engine s.value s.value args).run w₀ = .ok (.error (.exception thrown)) w₁) :
    m.Throws s.engine (s.call args) owned w thrown w₁ := by
  have hexpect : m.eval (s.expect (· = .function) "call") owned w = .ok ((), owned) w₀ :=
    ScriptValue.eval_expect_eq_ok.2 ⟨rfl, kind, hkind, decide_eq_true hf⟩
  refine throws_bind.2 (.inr ⟨(), owned, w₀, hexpect, throws_bind.2 (.inl ?_)⟩)
  exact throws_op.2 ⟨s.value, s.value, args, rfl, hcall⟩

/-- **Calling through a proxy** describes what was thrown, and then reports it. -/
theorem Proxy.callsScript (m : Machine κ) (p : Proxy) (callee : Value)
    (args : List NativeValue) :
    m.CallsScript p.engine (fun text => .error (.invocationFailed text))
      (m.describeFirst p.engine) (p.callWith callee args) := by
  refine .bind (Program.Plain.toScripts p.engine p.registry args) fun r => ?_
  rcases r with err | vs
  · exact .of_plain trivial
  refine .call (fun r hr => ?_) fun thrown => ⟨?_, ?_⟩
  · rcases r with err | v
    · cases err with
      | exception thrown => exact absurd rfl (hr thrown)
      | _ => exact trivial
    · exact (Program.Plain.toNative p.engine p.registry v).map
  · exact eval_describeFirst_eq_ok
  · intro owned w thrown' w'
    exact not_throws_pair id fun _ => id

theorem Proxy.callsScript_answer (m : Machine κ) (p : Proxy) :
    (∀ args, m.CallsScript p.engine (fun text => .error (.invocationFailed text))
        (m.describeFirst p.engine) (p.answer (.invoke args)))
      ∧ ∀ name args, m.CallsScript p.engine (fun text => .error (.invocationFailed text))
        (m.describeFirst p.engine) (p.answer (.invokeMethod name args)) := by
  refine ⟨fun args => ?_, fun name args => ?_⟩
  · refine .bind ((Program.Plain.type p.subject).bind fun _ => trivial) fun isFunction => ?_
    split
    · exact p.callsScript m p.value args
    · exact .of_plain trivial
  · refine .bind (Program.Flat.op (o := .get p.engine p.value name) trivial) fun r => ?_
    rcases r with err | method
    · exact .of_plain trivial
    refine .bind (Program.Flat.op (o := .kind p.engine method) trivial) fun kind => ?_
    split
    · refine .bind (Program.Flat.op (o := .root p.engine method) trivial) fun root => ?_
      exact (p.callsScript m method args).owning root
    · exact .of_plain trivial

/-! ## The result -/

/-- **What is thrown at native code is reported once.** Whenever a script value is called,
or a proxy is invoked or has a method invoked: where no call into script throws, nothing is
reported but by natives, whether the program succeeds, fails with another error or is cut
short. Where one throws, a script value reports the exception and then describes it for its
caller, and a proxy describes it and then reports it. Either way the program itself adds one
description to the reports of the engine. It is the last of them, and the text that is
returned, if the hosts that the thrown value shows repeat themselves, and in particular if it
shows none – if it is a primitive, an error object or any other object without a host, or an
array of such. -/
theorem Behaviour.thrown_reported_once (b : Behaviour κ) (depth : Nat) {w : World κ}
    (hw : w.Reachable) :
    (∀ (s : ScriptValue) (args : List Value),
        (b.machine depth).ReportsThrown s.engine (fun text => .error (.exception text))
          ((b.machine depth).reportFirst s.engine) (s.call args) w)
      ∧ (∀ (p : Proxy) (args : List NativeValue),
        (b.machine depth).ReportsThrown p.engine (fun text => .error (.invocationFailed text))
          ((b.machine depth).describeFirst p.engine) (p.answer (.invoke args)) w)
      ∧ ∀ (p : Proxy) (name : String) (args : List NativeValue),
        (b.machine depth).ReportsThrown p.engine (fun text => .error (.invocationFailed text))
          ((b.machine depth).describeFirst p.engine) (p.answer (.invokeMethod name args)) w := by
  have hm := b.roams depth
  refine ⟨fun s args => ?_, fun p args => ?_, fun p name args => ?_⟩
  · exact (s.callsScript _ args).reportsThrown (handles_reportFirst _ _) hm hw.sound
  · exact ((p.callsScript_answer _).1 args).reportsThrown (handles_describeFirst _ _) hm hw.sound
  · exact ((p.callsScript_answer _).2 name args).reportsThrown (handles_describeFirst _ _) hm
      hw.sound

/-- Functions that throw their first argument, and hosts that throw when they are asked for
their string form. -/
def Behaviour.wailing : Behaviour Unit where
  answer _ _
    | .run _ _ args => .done (.error (.exception (args.headD .undefined)))
    | .host e (.toPrimitive _) => Except.error <$> Program.op (.raise e .error "m")
    | _ => .panic .noAnswer
  finaliser _ := .done ()

/-- The world in which such a function is held, and in which an array is made of the wrapper
of such a host and, before it, an object of another engine: in this engine its handle denotes
the object that is made next. -/
def World.wailing : World Unit :=
  ((Behaviour.wailing.machine 3).run (do
    let _ ← Program.op (.createObject ⟨0⟩)
    let _ ← Program.op (.createObject ⟨0⟩)
    let _ ← Program.op (.createObject ⟨0⟩)
    let other ← Program.op (.createObject ⟨0⟩)
    let e ← Program.op (.newEngine {})
    let f ← Program.op (.createFunction e "f" (← Program.op (.spawn (.custom ()))))
    let host ← Program.op (.createHost e (← Program.op (.spawn (.custom ()))))
    let _ ← Program.op (.createArrayOf e [other.toOption.getD .null, host.toOption.getD .null])
    ScriptValue.adopt e (f.toOption.getD .null)) []).after {}

/-- **The two texts differ** where a host makes an object while the exception is described:
the array that was thrown is described once before and once after. -/
theorem Behaviour.thrown_reported_otherwise :
    ∃ w₁ w', World.wailing.Reachable
      ∧ (wailing.machine 3).Throws ⟨1⟩
          (ScriptValue.call { root := ⟨0, ⟨1⟩, .object ⟨0, 0⟩⟩ } [.object ⟨2, 0⟩]) []
          World.wailing (.object ⟨2, 0⟩) w₁
      ∧ (wailing.machine 3).run
          (ScriptValue.call { root := ⟨0, ⟨1⟩, .object ⟨0, 0⟩⟩ } [.object ⟨2, 0⟩]) []
          World.wailing
        = .ok (.error (.exception "Uncaught [object Object],[object Host]")) w'
      ∧ w₁.reported ⟨1⟩ = []
      ∧ w'.reported ⟨1⟩ = ["Uncaught [stale object],[object Host]"] := by
  have hthrows : ((wailing.machine 3).kind ⟨1⟩ (.object ⟨0, 0⟩)).finishes World.wailing
      (fun kind w₀ => decide (kind = some .function)
        && ((wailing.machine 3).call ⟨1⟩ (.object ⟨0, 0⟩) (.object ⟨0, 0⟩)
          [.object ⟨2, 0⟩]).run.finishes w₀ fun r w₁ =>
            decide (r = .error (.exception (.object ⟨2, 0⟩)) ∧ w₁.reported ⟨1⟩ = [])) = true := by
    decide +kernel
  have hrun : ((wailing.machine 3).run
      (ScriptValue.call { root := ⟨0, ⟨1⟩, .object ⟨0, 0⟩⟩ } [.object ⟨2, 0⟩]) []).finishes
        World.wailing (fun r w' =>
          decide (r = .error (.exception "Uncaught [object Object],[object Host]")
            ∧ w'.reported ⟨1⟩ = ["Uncaught [stale object],[object Host]"])) = true := by
    decide +kernel
  obtain ⟨kind, w₀, hkind, htest⟩ := Act.exists_of_finishes hthrows
  obtain ⟨hfunction, hcall⟩ := (Bool.and_eq_true _ _).mp htest
  obtain rfl := of_decide_eq_true hfunction
  obtain ⟨r, w₁, hcall, htest⟩ := Act.exists_of_finishes hcall
  obtain ⟨rfl, hnone⟩ := of_decide_eq_true htest
  obtain ⟨r, w', hrun, htest⟩ := Act.exists_of_finishes hrun
  obtain ⟨rfl, hreported⟩ := of_decide_eq_true htest
  exact ⟨w₁, w', (wailing.reaches_run 3 _ [] .init).1, ScriptValue.throws_call hkind rfl hcall,
    hrun, hnone, hreported⟩

/-- Functions that throw their first argument, and hosts that have a string form. -/
def Behaviour.mourning : Behaviour Unit where
  answer _ _
    | .run _ _ args => .done (.error (.exception (args.headD .undefined)))
    | .host _ (.toPrimitive _) => .done (.ok (.string "alas"))
    | _ => .panic .noAnswer
  finaliser _ := .done ()

/-- The world in which such a function is held, beside an array with the wrapper of such a
host in it. -/
def World.mourning : World Unit :=
  ((Behaviour.mourning.machine 3).run (do
    let f ← Program.op (.createFunction ⟨0⟩ "f" (← Program.op (.spawn (.custom ()))))
    let host ← Program.op (.createHost ⟨0⟩ (← Program.op (.spawn (.custom ()))))
    let _ ← Program.op (.createArrayOf ⟨0⟩ [host.toOption.getD .null, .bool true])
    ScriptValue.adopt ⟨0⟩ (f.toOption.getD .null)) []).after {}

/-- Such a host says the same whenever it is asked, and leaves everything else alone. -/
theorem Behaviour.hostForm_mourning {w : World Unit} {host : NativeId} (e : EngineId)
    (hn : w.native? host = some (.custom ())) (ha : w.isAlive host = true) :
    ∃ w', (mourning.machine 3).hostForm e host w = .ok (.ok (.string "alas")) w'
      ∧ w'.engines = w.engines ∧ w'.native? host = some (.custom ())
      ∧ w'.isAlive host = true := by
  have hn₁ : (w.modifyOwners host (· + 1)).native? host = some (.custom ()) :=
    (World.native?_modifyOwners w host _ host).trans hn
  have howners : (w.modifyOwners host (· + 1)).owners host = w.owners host + 1 :=
    World.owners_modifyOwners ha (· + 1)
  have hpositive : 0 < w.owners host := of_decide_eq_true ha
  have hask := mourning.askHost_of_custom 2 e (.toPrimitive .string) hn₁
  have hshared : 1 < (w.modifyOwners host (· + 1)).owners host := by
    rw [howners]
    exact Nat.succ_lt_succ hpositive
  refine ⟨_, Act.sharing_eq_ok.2 ⟨_, hask, release_of_lt_owners _ hshared⟩, rfl,
    (World.native?_modifyOwners _ host _ host).trans hn₁, decide_eq_true ?_⟩
  show 0 < ((w.modifyOwners host (· + 1)).modifyOwners host (· - 1)).owners host
  rw [World.owners_modifyOwners (decide_eq_true (Nat.lt_of_succ_lt hshared)), howners]
  exact hpositive

/-- The array that is thrown shows a host that says the same again: what is returned is what
is reported. -/
theorem Behaviour.thrown_reported_once_mourning :
    ∃ w', (mourning.machine 3).run
        (ScriptValue.call { root := ⟨0, ⟨0⟩, .object ⟨0, 0⟩⟩ } [.object ⟨2, 0⟩]) []
        World.mourning = .ok (.error (.exception "Uncaught alas,true")) w'
      ∧ w'.reported ⟨0⟩ = ["Uncaught alas,true"] := by
  have hthrows : ((mourning.machine 3).kind ⟨0⟩ (.object ⟨0, 0⟩)).finishes World.mourning
      (fun kind w₀ => decide (kind = some .function)
        && ((mourning.machine 3).call ⟨0⟩ (.object ⟨0, 0⟩) (.object ⟨0, 0⟩)
          [.object ⟨2, 0⟩]).run.finishes w₀ fun r w₁ =>
            decide (r = .error (.exception (.object ⟨2, 0⟩)) ∧ w₁.reported ⟨0⟩ = []
              ∧ (w₁.engine ⟨0⟩).loan = .none ∧ w₁.isAlive ⟨1⟩ = true
              ∧ (w₁.native? ⟨1⟩).any Native.isCustom = true
              ∧ (w₁.engine ⟨0⟩).heap.get? ⟨1, 0⟩ = some (.host ⟨1⟩ .empty)
              ∧ (w₁.engine ⟨0⟩).heap.get? ⟨2, 0⟩
                = some (.array #[some (.object ⟨1, 0⟩), some (.bool true)]))) = true := by
    decide +kernel
  obtain ⟨kind, w₀, hkind, htest⟩ := Act.exists_of_finishes hthrows
  obtain ⟨hfunction, hcall⟩ := (Bool.and_eq_true _ _).mp htest
  obtain rfl := of_decide_eq_true hfunction
  obtain ⟨r, w₁, hcall, htest⟩ := Act.exists_of_finishes hcall
  obtain ⟨rfl, hnone, hloan, halive, hcustom, hhost, harray⟩ := of_decide_eq_true htest
  -- the only host that the array shows is the one in it
  have hshows : ∀ {h host expandos}, (w₁.engine ⟨0⟩).heap.Shows (.object ⟨2, 0⟩) h →
      (w₁.engine ⟨0⟩).heap.get? h = some (.host host expandos) → host = ⟨1⟩ := by
    intro h host expandos hs hg
    cases hs with
    | self => simp [harray] at hg
    | element hels hv hk =>
      obtain rfl := HeapObject.array.inj (Option.some.inj (harray.symm.trans hels))
      cases hk with
      | self => simp_all
      | element hels' _ _ => simp_all
  have hsteady : (mourning.machine 3).Steady ⟨0⟩ (.object ⟨2, 0⟩)
      (fun _ => .ok (.string "alas"))
      (fun w => (w.engine ⟨0⟩).heap = (w₁.engine ⟨0⟩).heap ∧ (w.engine ⟨0⟩).loan = .none
        ∧ w.native? ⟨1⟩ = some (.custom ()) ∧ w.isAlive ⟨1⟩ = true) w₁ := by
    refine ⟨⟨rfl, hloan, World.native?_of_isCustom hcustom, halive⟩, fun h => ?_,
      fun h _ => by rw [h.1], fun {w h host expandos} hw hs hg => ?_, fun {w} text hw => ?_⟩
    · rw [h.2.1]
      rfl
    · obtain rfl := hshows hs hg
      obtain ⟨w', hform, hengines, hn, ha⟩ := hostForm_mourning ⟨0⟩ hw.2.2.1 hw.2.2.2
      have hengine : w'.engine ⟨0⟩ = w.engine ⟨0⟩ := by
        rw [World.engine, hengines, ← World.engine]
      refine ⟨w', hform, ⟨?_, ?_, hn, ha⟩, World.reported_of_engines_eq hengines⟩
      · rw [hengine, hw.1]
      · rw [hengine, hw.2.1]
    · rw [World.addReport, World.engine_modifyEngine_self]
      exact hw
  have htext : (w₁.engine ⟨0⟩).heap.description (fun _ => .ok (.string "alas")) (.object ⟨2, 0⟩)
      = "Uncaught alas,true" := by
    have helement := Heap.textAt_of_display? (v := .bool true) rfl (w₁.engine ⟨0⟩).heap
      (fun _ => .ok (.string "alas")) 63
    simp only [Heap.description, Value.handle?_object, Option.bind_some, harray, ownDescription?]
    unfold Heap.textAt
    simp only [Value.display?, Value.handle?_object, displayLevels, harray, List.map_cons,
      List.map_nil, isBlankElement, Option.getD_some, helement]
    unfold Heap.textAt
    simp only [Value.display?, Value.handle?_object, hhost, hostText]
    rfl
  have hw : World.mourning.Reachable := (mourning.reaches_run 3 _ [] .init).1
  obtain ⟨w', hrun, hreported⟩ := ((mourning.thrown_reported_once 3 hw).1
    { root := ⟨0, ⟨0⟩, .object ⟨0, 0⟩⟩ } [.object ⟨2, 0⟩]).same
      (ScriptValue.throws_call hkind rfl hcall) hsteady
  have hlist : w'.reported ⟨0⟩ = w₁.reported ⟨0⟩ ++
      [(w₁.engine ⟨0⟩).heap.description (fun _ => .ok (.string "alas")) (.object ⟨2, 0⟩)] :=
    hreported
  rw [hnone, htext] at hlist
  exact ⟨w', htext ▸ hrun, hlist⟩

end EmbeddedScript
