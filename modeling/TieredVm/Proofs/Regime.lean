import TieredVm.Proofs.Frame.Program
import TieredVm.Proofs.Operator.Scalar

/-!
# Regimes

A *regime* says which values may be stored, in which states the interpreter may be and which exceptions
may be pending. A machine it holds of (`Regime.Holds`) is one with such values in all of its memory and
in every captured variable. An operation keeps the regime (`Regime.Keeps`) when it leaves such a machine
whenever it begins in one, and answers only what its postcondition allows, also when it panics half way.

A regime may also compare each run with the run in which no events are recorded (`Machine.silent`).
Recording an event fails for a reference to nothing and for nothing else, so the two agree wherever
what events show can be shown; a regime that is less strict pardons the panics over such references.

* `Ends`, `Ends.bind`: one run, and runs in sequence. `Keeps` is `Ends` from every machine.
* `keeps_violate`, `keeps_emit`, `keeps_onRuntime`: the primitives.
* `Chain.keeps_enter`, `Chain.keeps_exit`, …: the frame operations keep every regime. What is asked of
  them is that the values they are given fit.
* `ObjectModel.keeps_constantOf`, …: reads of function objects keep a regime that knows what their
  constants are.
* `Regime.any`: regimes that let every value be stored.
-/

namespace TieredVm

variable {R α β : Type}

/-! ## Machines that record nothing -/

/-- The machine without a journal. -/
def Machine.silent (m : Machine R) : Machine R := { m with journal := none }

/-- The result with the journal left out of the machine it leaves. -/
def Result.silent (r : EStateM.Result Stop (Machine R) α) : EStateM.Result Stop (Machine R) α :=
  leaving r (state r).silent

/-- A panic over a reference to nothing. -/
def Result.OverNothing (r : EStateM.Result Stop (Machine R) α) : Prop :=
  ∃ t m, r = .error (Stop.violation (.nullPointer t)) m

/-- An event can be recorded, or it shows a reference to nothing. -/
theorem Event.line_cases (e : Event) :
    (∃ line, e.line = .ok line) ∨ ∃ t, e.line = .error (.nullPointer t) := by
  cases e with
  | slowPath op vs =>
    cases hd : vs.any Value.dangling with
    | false =>
      obtain ⟨ss, hs⟩ := Value.mapM_text_of_shown hd
      exact .inl ⟨_, by rw [line, Value.listText, hs]; rfl⟩
    | true =>
      obtain ⟨t, ht⟩ := Value.mapM_text_of_dangling hd
      exact .inr ⟨t, by rw [line, Value.listText, ht]; rfl⟩
  | enter depth f =>
    cases hd : f.dangling with
    | false =>
      obtain ⟨s, hs⟩ := Value.text_of_shown hd
      exact .inl ⟨_, by rw [line, hs]; rfl⟩
    | true =>
      obtain ⟨t, ht⟩ := Value.text_of_dangling hd
      exact .inr ⟨t, by rw [line, ht]; rfl⟩
  | raised e =>
    cases hd : e.dangling with
    | false =>
      obtain ⟨s, hs⟩ := Exception.report_of_shown hd
      exact .inl ⟨_, by rw [line, hs]; rfl⟩
    | true =>
      obtain ⟨t, ht⟩ := Exception.report_of_dangling hd
      exact .inr ⟨t, by rw [line, ht]; rfl⟩
  | exit depth => exact .inl ⟨_, rfl⟩
  | violation v => exact .inl ⟨_, rfl⟩
  | brokenScope depth => exact .inl ⟨_, rfl⟩

/-! ## Regimes -/

/-- What is assumed of a machine and kept. -/
structure Regime (R : Type) where
  /-- The values that may be stored. -/
  fits : Value → Prop
  /-- The states the interpreter may be in. -/
  good : R → Prop
  /-- What may be pending. -/
  waits : Option Exception → Prop
  /-- Is every run compared with the run in which no event is recorded? -/
  compared : Prop
  /-- Is a panic over a reference to nothing pardoned? -/
  pardons : Prop

namespace Regime

variable (G : Regime R)

/-- The machine stores what the regime allows. -/
structure Holds (m : Machine R) : Prop where
  memory : ∀ a, G.fits (m.memory.get a)
  owned : ∀ i v, m.captures.get i = .owned v → G.fits v
  functions : ∀ id, G.fits (m.frames.get id).function
  good : G.good m.runtime
  waits : G.waits m.pending

/-- Where it matters, a value can be shown. -/
def Shows (v : Value) : Prop := G.compared → G.pardons ∨ v.dangling = false

/-- Where it matters, an exception can be shown. -/
def Exposes (e : Exception) : Prop := G.compared → G.pardons ∨ e.dangling = false

/-- What a run comes to, next to the run without recording. -/
structure Ends (r quiet : EStateM.Result Stop (Machine R) α) (post : α → Prop) : Prop where
  holds : G.Holds (Result.state r)
  answered : ∀ a m, r = .ok a m → post a
  agrees : G.compared → (G.pardons ∧ Result.OverNothing r) ∨ Result.silent r = quiet

/-- The operation keeps the regime. -/
def Keeps (x : Run R α) (post : α → Prop) : Prop :=
  ∀ m, G.Holds m → G.Ends (x m) (x m.silent) post

variable {G} {p : α → Prop} {q : β → Prop} {m : Machine R}

/-! ### Regimes that let every value be stored -/

/-- Every value may be stored. -/
def any (good : R → Prop) (waits : Option Exception → Prop) (compared pardons : Prop) : Regime R where
  fits := fun _ => True
  good := good
  waits := waits
  compared := compared
  pardons := pardons

theorem any_holds {good : R → Prop} {waits : Option Exception → Prop} {compared pardons : Prop}
    (hgood : good m.runtime) (hwaits : waits m.pending) :
    (any good waits compared pardons).Holds m :=
  ⟨fun _ => trivial, fun _ _ _ => trivial, fun _ => trivial, hgood, hwaits⟩

/-! ### What holds of a machine -/

namespace Holds

theorem noted (h : G.Holds m) (line : String) : G.Holds (m.noted line) :=
  ⟨h.memory, h.owned, h.functions, h.good, h.waits⟩

theorem withRuntime (h : G.Holds m) {r : R} (hr : G.good r) : G.Holds { m with runtime := r } :=
  ⟨h.memory, h.owned, h.functions, hr, h.waits⟩

theorem withPending (h : G.Holds m) {e : Option Exception} (he : G.waits e) :
    G.Holds { m with pending := e } :=
  ⟨h.memory, h.owned, h.functions, h.good, he⟩

/-- A frame may be stored whose function fits, and the chain may be relinked. -/
theorem withFrame (h : G.Holds m) {f : Frame} (hf : G.fits f.function) (id : FrameId)
    (chain : Chain) : G.Holds { m with frames := m.frames.set id f, chain } where
  memory := h.memory
  owned := h.owned
  functions j := by
    show G.fits ((m.frames.set id f).get j).function
    rw [Store.get_set]
    split
    · exact hf
    · exact h.functions j
  good := h.good
  waits := h.waits

theorem captureValue (h : G.Holds m) (c : Capture) : G.fits (m.captureValue c) := by
  unfold Machine.captureValue
  cases hc : m.captures.get c.id with
  | shared slot index kind => exact h.memory slot
  | owned v => exact h.owned c.id v hc

theorem written (h : G.Holds m) {v : Value} (hv : G.fits v) (slot : Address) :
    G.Holds (m.written slot v) where
  memory a := by
    show G.fits ((m.memory.set slot v).get a)
    rw [Store.get_set]
    split
    · exact hv
    · exact h.memory a
  owned := h.owned
  functions := h.functions
  good := h.good
  waits := h.waits

/-- A captured variable may be added, or overwritten, with a value that fits. -/
theorem withCapture (h : G.Holds m) {cell : CaptureCell} (hcell : ∀ v, cell = .owned v → G.fits v)
    (i n : Nat) : G.Holds { m with captures := m.captures.set i cell, freshCapture := n } where
  memory := h.memory
  owned j v hj := by
    have hj : (m.captures.set i cell).get j = .owned v := hj
    rw [Store.get_set] at hj
    split at hj
    · exact hcell v hj
    · exact h.owned j v hj
  functions := h.functions
  good := h.good
  waits := h.waits

theorem setCapture (h : G.Holds m) {v : Value} (hv : G.fits v) (c : Capture) :
    G.Holds (m.setCapture c v) := by
  unfold Machine.setCapture
  cases m.captures.get c.id with
  | shared slot index kind => exact h.written hv slot
  | owned w =>
    refine h.withCapture (fun u hu => ?_) c.id m.freshCapture
    cases hu
    exact hv

/-- Detaching captured variables leaves them values that were stored. -/
theorem foldl_close (cs : List Capture) : ∀ {m : Machine R}, G.Holds m →
    G.Holds (cs.foldl Machine.closeCapture m) := by
  induction cs with
  | nil => exact fun h => h
  | cons c cs ih =>
    intro m h
    refine ih (h.withCapture (fun v hv => ?_) c.id m.freshCapture)
    cases hv
    exact h.captureValue c

theorem fill (h : G.Holds m) {vs : List Value} (hvs : ∀ v ∈ vs, G.fits v) (base n : Address) :
    G.Holds { m with memory := Machine.fill m.memory base vs, freshSlot := n } := by
  induction vs generalizing m base with
  | nil => exact ⟨h.memory, h.owned, h.functions, h.good, h.waits⟩
  | cons v rest ih =>
    exact ih (h.written (hvs v List.mem_cons_self) base)
      (fun w hw => hvs w (List.mem_cons_of_mem v hw)) (Machine.slotAddress base 1)

end Holds

/-! ### Runs in sequence -/

namespace Ends

variable {r quiet : EStateM.Result Stop (Machine R) α} {x : Run R α} {f : α → Run R β}

theorem mono {p' : α → Prop} (h : G.Ends r quiet p) (hp : ∀ a, p a → p' a) :
    G.Ends r quiet p' :=
  ⟨h.holds, fun a m hr => hp a (h.answered a m hr), h.agrees⟩

/-- The run without recording answers what the run answers. -/
theorem quiet_ok (h : G.Ends (x m) (x m.silent) p) (hc : G.compared) {a : α} {m' : Machine R}
    (hx : x m = .ok a m') : x m.silent = .ok a m'.silent := by
  obtain ⟨-, t, n, hn⟩ | he := h.agrees hc
  · rw [hx] at hn
    cases hn
  · rw [← he, hx]
    rfl

theorem bind (hx : G.Ends (x m) (x m.silent) p)
    (hf : ∀ a m', x m = .ok a m' → G.Holds m' → p a → G.Ends (f a m') (f a m'.silent) q) :
    G.Ends ((x >>= f) m) ((x >>= f) m.silent) q := by
  have hholds := hx.holds
  cases hm : x m with
  | ok a m' =>
    rw [hm] at hholds
    have h := hf a m' hm hholds (hx.answered a m' hm)
    rw [Run.bind_of_ok hm]
    refine ⟨h.holds, h.answered, fun hc => ?_⟩
    rw [Run.bind_of_ok (hx.quiet_ok hc hm)]
    exact h.agrees hc
  | error e m' =>
    rw [hm] at hholds
    rw [Run.bind_of_error hm]
    refine ⟨hholds, nofun, fun hc => ?_⟩
    obtain ⟨hp, t, n, hn⟩ | he := hx.agrees hc
    · rw [hm] at hn
      cases hn
      exact .inl ⟨hp, t, m', rfl⟩
    · rw [hm] at he
      rw [Run.bind_of_error he.symm]
      exact .inr rfl

end Ends

namespace Keeps

theorem mono {p' : α → Prop} {x : Run R α} (h : G.Keeps x p) (hp : ∀ a, p a → p' a) :
    G.Keeps x p' := fun m hm => (h m hm).mono hp

theorem bind {x : Run R α} {f : α → Run R β} (hx : G.Keeps x p) (hf : ∀ a, p a → G.Keeps (f a) q) :
    G.Keeps (x >>= f) q := fun m hm =>
  (hx m hm).bind fun a m' _ hm' ha => hf a ha m' hm'

/-- What is done with a machine that was read may depend on all of it but the journal. -/
theorem get_bind {f : Machine R → Run R β} (hread : ∀ m, f m.silent = f m)
    (hf : ∀ m, G.Holds m → G.Keeps (f m) q) : G.Keeps (get >>= f) q := fun m hm => by
  rw [Run.bind_of_ok (Run.get_apply m), Run.bind_of_ok (Run.get_apply m.silent), hread m]
  exact hf m hm m hm

end Keeps

/-! ### Primitives -/

/-- An operation that always goes through. -/
theorem keeps_step {x : Run R α} {a : Machine R → α} {f : Machine R → Machine R}
    (hx : ∀ m, x m = .ok (a m) (f m)) (ha : ∀ m, a m.silent = a m)
    (hf : ∀ m, f m.silent = (f m).silent) (hpost : ∀ m, G.Holds m → p (a m))
    (hholds : ∀ m, G.Holds m → G.Holds (f m)) : G.Keeps x p := fun m hm => by
  rw [hx m, hx m.silent, ha m, hf m]
  exact ⟨hholds m hm, fun _ _ h => by cases h; exact hpost m hm, fun _ => .inr rfl⟩

theorem keeps_pure {a : α} (h : p a) : G.Keeps (pure a : Run R α) p :=
  keeps_step (fun _ => rfl) (fun _ => rfl) (fun _ => rfl) (fun _ _ => h) fun _ hm => hm

theorem keeps_throw (s : Stop) : G.Keeps (throw s : Run R α) p := fun _ hm =>
  ⟨hm, nofun, fun _ => .inr rfl⟩

theorem keeps_violate (v : Violation) : G.Keeps (Run.violate v : Run R α) p := fun _ hm =>
  ⟨hm.noted _, nofun, fun _ => .inr rfl⟩

theorem keeps_expect {r : Except Violation α} (h : ∀ a, r = .ok a → p a) :
    G.Keeps (Run.expect r : Run R α) p := by
  cases r with
  | ok a => exact keeps_pure (h a rfl)
  | error v => exact keeps_violate v

theorem keeps_modify {f : Machine R → Machine R} (hf : ∀ m, f m.silent = (f m).silent)
    (hholds : ∀ m, G.Holds m → G.Holds (f m)) :
    G.Keeps (modify f : Run R PUnit) fun _ => True :=
  keeps_step (fun _ => rfl) (fun _ => rfl) hf (fun _ _ => trivial) hholds

/-- A check before an operation. -/
theorem keeps_guard {c : Prop} [Decidable c] {v : Violation} {x : Run R α} (hx : G.Keeps x p) :
    G.Keeps (if c then Run.violate v >>= fun (_ : PUnit) => x else x) p := by
  split
  · exact (keeps_violate (p := fun _ => True) v).bind fun _ _ => hx
  · exact hx

/-- An event that can be shown, where that matters. -/
theorem keeps_emit {e : Event} (h : G.compared → G.pardons ∨ ∃ line, e.line = .ok line) :
    G.Keeps (Run.emit e) fun _ => True := fun m hm => by
  obtain ⟨line, hl⟩ | ⟨t, ht⟩ := e.line_cases
  · rw [Run.emit_of_line hl, Run.emit_of_line hl]
    exact ⟨hm.noted line, fun _ _ _ => trivial, fun _ => .inr rfl⟩
  · have hquiet : Run.emit e m.silent = .ok () m.silent := by
      rw [Run.emit_of_error ht]
      rfl
    rw [hquiet, Run.emit_of_error ht]
    cases hj : m.journal with
    | none => exact ⟨hm, fun _ _ _ => trivial, fun _ => .inr rfl⟩
    | some lines =>
      refine ⟨hm.noted _, fun _ _ _ => trivial, fun hc => ?_⟩
      obtain hp | ⟨line, hl⟩ := h hc
      · exact .inl ⟨hp, t, _, rfl⟩
      · rw [ht] at hl
        cases hl

/-- An operation on the interpreter's state keeps its good states good. -/
def KeepsLocal (G : Regime R) (act : Local R α) (post : α → Prop) : Prop :=
  ∀ r, G.good r → G.good (Result.state (act r)) ∧ ∀ a r', act r = .ok a r' → post a

theorem KeepsLocal.bind {x : Local R α} {f : α → Local R β} (hx : G.KeepsLocal x p)
    (hf : ∀ a, p a → G.KeepsLocal (f a) q) : G.KeepsLocal (x >>= f) q := fun r hr => by
  obtain ⟨hgood, hpost⟩ := hx r hr
  show G.good (Result.state (EStateM.bind x f r)) ∧ ∀ b r', EStateM.bind x f r = .ok b r' → q b
  unfold EStateM.bind
  cases hm : x r with
  | ok a r' =>
    rw [hm] at hgood
    exact hf a (hpost a r' hm) r' hgood
  | error e r' =>
    rw [hm] at hgood
    exact ⟨hgood, nofun⟩

/-- What is done with a state that was read is done in that state. -/
theorem KeepsLocal.get_bind {f : R → Local R β} (hf : ∀ r, G.good r →
    G.good (Result.state (f r r)) ∧ ∀ b r', f r r = .ok b r' → q b) : G.KeepsLocal (get >>= f) q :=
  hf

theorem keeps_onRuntime {act : Local R α} (h : G.KeepsLocal act p) :
    G.Keeps (Run.onRuntime act) p := fun m hm => by
  obtain ⟨hgood, hpost⟩ := h m.runtime hm.good
  have hsilent : m.silent.runtime = m.runtime := rfl
  unfold Run.onRuntime
  rw [hsilent]
  cases hr : act m.runtime with
  | ok a r =>
    rw [hr] at hgood
    refine ⟨hm.withRuntime hgood, fun _ _ ha => ?_, fun _ => .inr rfl⟩
    cases ha
    exact hpost a r hr
  | error s r =>
    rw [hr] at hgood
    have hm' := hm.withRuntime hgood
    cases s with
    | abort a => exact ⟨hm', nofun, fun _ => .inr rfl⟩
    | panic q =>
      cases q with
      | violation v => exact keeps_violate v _ hm'
      | outOfBounds n i => exact ⟨hm', nofun, fun _ => .inr rfl⟩
      | message t => exact ⟨hm', nofun, fun _ => .inr rfl⟩

/-! ### The machine's own operations -/

theorem keeps_newFrame : G.Keeps (Machine.newFrame : Run R FrameId) fun _ => True :=
  keeps_step Machine.newFrame_apply (fun _ => rfl) (fun _ => rfl) (fun _ _ => trivial) fun _ hm =>
    ⟨hm.memory, hm.owned, hm.functions, hm.good, hm.waits⟩

theorem keeps_newBuffer {vs : List Value} (hvs : ∀ v ∈ vs, G.fits v) :
    G.Keeps (Machine.newBuffer vs : Run R Address) fun _ => True :=
  keeps_step (fun _ => rfl) (fun _ => rfl) (fun _ => rfl) (fun _ _ => trivial) fun _ hm =>
    hm.fill hvs _ _

theorem keeps_addCapture {cell : CaptureCell} (h : ∀ v, cell = .owned v → G.fits v) :
    G.Keeps (Machine.addCapture cell : Run R Capture) fun _ => True :=
  keeps_step (fun _ => rfl) (fun _ => rfl) (fun _ => rfl) (fun _ _ => trivial) fun _ hm =>
    hm.withCapture h _ _

theorem keeps_setCapture {v : Value} (hv : G.fits v) (c : Capture) :
    G.Keeps (modify fun m => m.setCapture c v : Run R PUnit) fun _ => True :=
  keeps_modify (fun m => by
    have hcaptures : m.silent.captures = m.captures := rfl
    unfold Machine.setCapture
    rw [hcaptures]
    cases m.captures.get c.id <;> rfl) fun _ hm => hm.setCapture hv c

theorem keeps_written {v : Value} (hv : G.fits v) (slot : Address) :
    G.Keeps (modify fun m => m.written slot v : Run R PUnit) fun _ => True :=
  keeps_modify (fun _ => rfl) fun _ hm => hm.written hv slot

/-! ### Frames -/

/-- A frame that is found has a function that fits. -/
theorem keeps_active (use : FrameUse) (frame : Option FrameId) :
    G.Keeps (Chain.active use frame : Run R (FrameId × Frame)) fun (_, f) => G.fits f.function := by
  cases frame with
  | none => exact keeps_violate _
  | some id =>
    refine Keeps.get_bind (fun _ => rfl) fun m hm => ?_
    dsimp only
    split
    · exact keeps_pure (hm.functions id)
    · exact keeps_violate _

theorem keeps_putFrame (id : FrameId) {f : Frame} (hf : G.fits f.function) :
    G.Keeps (Chain.putFrame id f : Run R Unit) fun _ => True :=
  keeps_modify (fun _ => rfl) fun m hm => hm.withFrame hf id m.chain

theorem keeps_attachLocals (frame : Option FrameId) (locals : Address) (count : Nat) :
    G.Keeps (Chain.attachLocals frame locals count : Run R Unit) fun _ => True :=
  (keeps_active _ frame).bind fun (_, _) hf => keeps_putFrame _ (by exact hf)

theorem keeps_setPc (frame : Option FrameId) (code : Bytecode) (pc : Nat) :
    G.Keeps (Chain.setPc frame code pc : Run R Unit) fun _ => True :=
  (keeps_active _ frame).bind fun (_, _) hf => keeps_guard (keeps_putFrame _ (by exact hf))

/-- Entering shows the function. -/
theorem keeps_enter (frame : Option FrameId) {function : Value} (hfits : G.fits function)
    (hshow : G.Shows function) (args : Address) (argCount : Nat) :
    G.Keeps (Chain.enter frame function args argCount : Run R Unit) fun _ => True := by
  cases frame with
  | none => exact keeps_violate _
  | some id =>
    intro m hm
    by_cases h : (m.frames.get id).state = .active
    · have hrefused : ∀ n : Machine R, (n.frames.get id).state = .active →
          Chain.enter (some id) function args argCount n = Run.violate .enterActive n := fun n hn => by
        simp [Chain.enter, Run.bind_apply, Run.get_apply, hn, Run.violate_apply]
      rw [hrefused m h, hrefused m.silent h]
      exact keeps_violate _ m hm
    · have hs : (m.silent.frames.get id).state ≠ .active := h
      rw [Chain.enter_idle h, Chain.enter_idle hs]
      refine keeps_emit (fun hc => ?_) (m.entered id function args argCount)
        (hm.withFrame (by exact hfits) id _)
      refine (hshow hc).imp_right fun hd => ?_
      obtain ⟨s, hs⟩ := Value.text_of_shown hd
      exact ⟨_, by rw [Event.line, hs]; rfl⟩

theorem foldl_closeCapture_silent : ∀ (cs : List Capture) (m : Machine R),
    cs.foldl Machine.closeCapture m.silent = (cs.foldl Machine.closeCapture m).silent
  | [], _ => rfl
  | c :: cs, m => foldl_closeCapture_silent cs (m.closeCapture c)

theorem keeps_exit (frame : Option FrameId) :
    G.Keeps (Chain.exit frame : Run R Unit) fun _ => True := by
  refine (keeps_active _ frame).bind fun (id, f) hf => ?_
  intro m hm
  have hchain : m.silent.chain = m.chain := rfl
  by_cases hc : m.chain.current = some id
  · simp only [Run.bind_apply, Run.get_apply, hchain, hc, Run.set_apply, ne_eq, not_true_eq_false,
      if_false, foldl_closeCapture_silent]
    exact keeps_emit (fun _ => .inr ⟨_, rfl⟩) { f.captured.foldl Machine.closeCapture m with
      frames := _
      chain := _ } ((hm.foldl_close _).withFrame (by exact hf) id _)
  · simp only [Run.bind_apply, Run.get_apply, hchain, ne_eq, hc, not_false_eq_true, if_true,
      Run.violate_apply]
    exact keeps_violate _ m hm

theorem keeps_captureOf (id : FrameId) {f : Frame} (hf : G.fits f.function) (index : Nat)
    (kind : SlotKind) : G.Keeps (Chain.captureOf id f index kind : Run R Capture) fun _ => True := by
  refine Keeps.get_bind (fun _ => rfl) fun m _ => ?_
  split
  · exact keeps_pure trivial
  · exact (keeps_expect (p := fun _ => True) fun _ _ => trivial).bind fun slot _ =>
      (keeps_addCapture fun _ h => by cases h).bind fun c _ =>
        (keeps_putFrame id (by exact hf)).bind fun _ _ => keeps_pure trivial

theorem keeps_capture (frame : Option FrameId) (index : Nat) (kind : SlotKind) :
    G.Keeps (Chain.capture frame index kind : Run R Capture) fun _ => True :=
  (keeps_active _ frame).bind fun (_, _) hf => keeps_captureOf _ hf _ _

theorem keeps_innermost (use : FrameUse) :
    G.Keeps (Chain.innermost use : Run R (FrameId × Frame)) fun (_, f) => G.fits f.function :=
  Keeps.get_bind (fun _ => rfl) fun _ _ => keeps_active _ _

theorem keeps_captureCurrent (index : Nat) (kind : SlotKind) :
    G.Keeps (Chain.captureCurrent index kind : Run R Capture) fun _ => True :=
  (keeps_innermost _).bind fun (_, _) hf => keeps_captureOf _ hf _ _

/-- What is read of a frame's slot was stored there. -/
theorem keeps_readCurrent (use : FrameUse) (kind : SlotKind) (index : Nat) :
    G.Keeps (Chain.readCurrent use kind index : Run R Value) G.fits :=
  (keeps_innermost use).bind fun _ _ => (keeps_expect (p := fun _ => True) fun _ _ => trivial).bind
    fun _ _ => Keeps.get_bind (fun _ => rfl) fun _ hm => keeps_pure (hm.memory _)

theorem keeps_setCurrentLocal (index : Nat) {v : Value} (hv : G.fits v) :
    G.Keeps (Chain.setCurrentLocal index v : Run R Unit) fun _ => True :=
  (keeps_innermost _).bind fun _ _ => (keeps_expect (p := fun _ => True) fun _ _ => trivial).bind
    fun slot _ => keeps_written hv slot

/-! ### Scopes -/

theorem keeps_openFrame {c : ScopeCall} (hfits : G.fits c.function) (hshow : G.Shows c.function) :
    G.Keeps (c.openFrame : Run R FrameId) fun _ => True :=
  keeps_newFrame.bind fun _ _ => (keeps_enter _ hfits hshow _ _).bind fun _ _ =>
    (keeps_attachLocals _ _ _).bind fun _ _ => keeps_pure trivial

theorem keeps_leaveScope (id : FrameId) :
    G.Keeps (Chain.leaveScope id : Run R Unit) fun _ => True := by
  refine Keeps.get_bind (fun _ => rfl) fun m _ => ?_
  dsimp only
  split
  · exact (keeps_emit fun _ => .inr ⟨_, rfl⟩).bind fun _ _ =>
      (keeps_throw (p := fun _ => True) _).bind fun _ _ => keeps_exit _
  · exact keeps_exit _

/-- A scope around a run leaves on every way out of it. Nothing may be pardoned: unwinding from a
pardoned panic may find frames that the other run has left. -/
theorem Ends.runScoped {body : Run R α} (id : FrameId) (hstrict : G.compared → ¬ G.pardons)
    (h : G.Ends (body m) (body m.silent) p) :
    G.Ends (Chain.runScoped id body m) (Chain.runScoped id body m.silent) p := by
  have hquiet : G.compared → Result.silent (body m) = body m.silent := fun hc =>
    (h.agrees hc).resolve_left fun hp => hstrict hc hp.1
  have hholds := h.holds
  unfold Chain.runScoped
  cases hb : body m with
  | ok a m' =>
    rw [hb] at hholds hquiet
    have hleave : G.Keeps (Chain.leaveScope id *> pure a) p := by
      rw [seqRight_eq_bind]
      exact (keeps_leaveScope id).bind fun _ _ => keeps_pure (h.answered a m' hb)
    have hends := hleave m' hholds
    refine ⟨hends.holds, hends.answered, fun hc => ?_⟩
    rw [← hquiet hc]
    exact hends.agrees hc
  | error s m' =>
    rw [hb] at hholds hquiet
    cases s with
    | abort a =>
      refine ⟨hholds, nofun, fun hc => ?_⟩
      rw [← hquiet hc]
      exact .inr rfl
    | panic e =>
      have hleave := keeps_leaveScope (G := G) id m' hholds
      have hleft : G.compared → Result.silent (Chain.leaveScope id m') =
          Chain.leaveScope id m'.silent := fun hc =>
        (hleave.agrees hc).resolve_left fun hp => hstrict hc hp.1
      have hholds' := hleave.holds
      dsimp only
      cases hl : Chain.leaveScope id m' with
      | ok _ n =>
        rw [hl] at hholds' hleft
        refine ⟨hholds', nofun, fun hc => ?_⟩
        rw [← hquiet hc]
        dsimp only [Result.silent, Result.leaving, Result.state]
        rw [← hleft hc]
        exact .inr rfl
      | error s n =>
        rw [hl] at hholds' hleft
        cases s <;> refine ⟨hholds', nofun, fun hc => ?_⟩ <;> rw [← hquiet hc]
        all_goals
          dsimp only [Result.silent, Result.leaving, Result.state]
          rw [← hleft hc]
          exact .inr rfl

/-! ### Function objects -/

section

variable (O : ObjectModel R)

/-- What is known of the constants of function objects. -/
def Knows (G : Regime R) (O : ObjectModel R) : Prop :=
  ∀ r p code v, G.good r → O.bytecode r p = some code → v ∈ code.constants → G.fits v ∧ G.Shows v

/-- The code of a function has constants that fit. -/
def Sound (G : Regime R) (code : Bytecode) : Prop := ∀ v ∈ code.constants, G.fits v ∧ G.Shows v

/-- Whoever looks for the object that a value refers to is not shown a reference to nothing. -/
theorem shown_of_asPointer? {v : Value} {t : Tag} {o : Option Pointer} (h : v.asPointer? t = .ok o) :
    v.dangling = false := by
  unfold Value.asPointer? at h
  unfold Value.dangling
  cases hk : v.kind with
  | ok k => rfl
  | error e => rw [hk] at h; exact absurd h nofun

theorem keeps_codeOf? (function : Value) :
    G.Keeps (O.codeOf? function) fun _ => function.dangling = false :=
  (keeps_expect fun _ h => shown_of_asPointer? h).bind fun _ hd =>
    Keeps.get_bind (fun _ => rfl) fun _ _ => keeps_pure hd

theorem keeps_objectOf (use : FunctionUse) (function : Value) :
    G.Keeps (ObjectModel.objectOf use function : Run R Pointer) fun _ => True :=
  (keeps_expect (p := fun _ => True) fun _ _ => trivial).bind fun p _ => by
    cases p with
    | none => exact keeps_violate _
    | some p => exact keeps_pure trivial

theorem keeps_codeOf (hO : G.Knows O) (function : Value) : G.Keeps (O.codeOf function) G.Sound := by
  refine (keeps_objectOf _ function).bind fun p _ => Keeps.get_bind (fun _ => rfl) fun m hm => ?_
  cases hcode : O.bytecode m.runtime p with
  | none =>
    exact (keeps_expect (p := fun _ => True) fun _ _ => trivial).bind fun _ _ => keeps_violate _
  | some code => exact keeps_pure fun v hv => hO m.runtime p code v hm.good hcode hv

/-- A constant of a function object is one of those that are known. -/
theorem keeps_constantOf (hO : G.Knows O) (function : Value) (index : Nat) :
    G.Keeps (O.constantOf function index) fun v => G.fits v ∧ G.Shows v :=
  (keeps_codeOf O hO function).bind fun code hcode => keeps_expect fun v hv => by
    unfold Bytecode.constant Bytecode.constant? at hv
    split at hv
    · rename_i w hw
      cases hv
      exact hcode _ (Array.mem_of_getElem? hw)
    · exact absurd hv nofun

/-- A captured variable of a function object is read and duplicated. -/
theorem keeps_capturedOf (hO : G.Knows O)
    (hduplicate : ∀ v, G.fits v → G.KeepsLocal (O.duplicate v) G.fits) (function : Value)
    (index : Nat) : G.Keeps (O.capturedOf function index) G.fits := by
  refine (keeps_objectOf _ function).bind fun p _ => (keeps_codeOf O hO function).bind fun code _ => ?_
  refine keeps_guard (Keeps.get_bind (fun _ => rfl) fun m _ => ?_)
  cases O.captures m.runtime p with
  | none =>
    exact (keeps_expect (p := fun _ => True) fun _ _ => trivial).bind fun _ _ => keeps_violate _
  | some held =>
    refine keeps_guard ?_
    cases held[index]? with
    | none => exact keeps_violate _
    | some c => exact Keeps.get_bind (fun _ => rfl) fun m hm =>
        keeps_onRuntime (hduplicate _ (hm.captureValue c))

/-- A frame that is held to a layout is never entered for a reference to nothing. -/
theorem keeps_enterHeld (frame : Option FrameId) {function : Value} (hfits : G.fits function)
    (args : Address) (argCount : Nat) : G.Keeps (O.enter frame function args argCount) fun _ => True := by
  refine (keeps_codeOf? O function).bind fun code? hd => ?_
  have henter := keeps_enter (G := G) frame hfits (fun _ => .inr hd) args argCount
  cases code? with
  | none => exact henter
  | some code => exact keeps_guard henter

theorem keeps_attachLocalsHeld (frame : Option FrameId) (locals : Address) (count : Nat) :
    G.Keeps (O.attachLocals frame locals count) fun _ => True := by
  cases frame with
  | none => exact keeps_violate _
  | some id =>
    have hattach := keeps_attachLocals (G := G) (some id) locals count
    refine Keeps.get_bind (fun _ => rfl) fun m _ => (keeps_codeOf? O _).bind fun code? _ => ?_
    cases code? with
    | none => exact hattach
    | some code => exact keeps_guard hattach

theorem keeps_setPcHeld (hO : G.Knows O) (frame : Option FrameId) (pc : Nat) :
    G.Keeps (O.setPc frame pc) fun _ => True := by
  cases frame with
  | none => exact keeps_violate _
  | some id =>
    exact Keeps.get_bind (fun _ => rfl) fun m _ => (keeps_codeOf O hO _).bind fun _ _ =>
      keeps_setPc _ _ _

theorem keeps_walk : G.Keeps (return Chain.walk (← get) : Run R (List FrameInfo)) fun infos =>
    ∀ i ∈ infos, G.fits i.function :=
  Keeps.get_bind (fun _ => rfl) fun m hm => keeps_pure fun i hi => by
    obtain ⟨id, -, rfl⟩ := List.mem_map.mp hi
    exact hm.functions id

theorem keeps_trace : G.Keeps O.trace fun _ => True :=
  Keeps.get_bind (fun _ => rfl) fun _ _ => keeps_expect fun _ _ => trivial

end

end Regime

end TieredVm
