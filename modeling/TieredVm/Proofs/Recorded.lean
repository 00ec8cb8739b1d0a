import TieredVm.Proofs.Caller
import TieredVm.Proofs.Reference.Serving

/-!
# Recording events

Whether events are recorded is decided by whether the machine keeps a journal. A run is compared with the
one on the machine without it (`Machine.silent`), up to the journal itself.

An event that shows a reference to nothing cannot be recorded and panics, and that is the only
difference recording makes. Any other request answers or panics the same, leaves the same frames, the same
pending exception and the same state of the interpreter; and so does every run in which what events show
can be shown, step by step.

* `Regime.recorded`: the regimes in which runs are compared.
* `State.Shown`: the heaps of the reference interpreter that hold nothing an event could not show.
* `recording_unseen`: for both interpreters, one request, whole runs, and where the two part.
-/

namespace TieredVm

variable {R : Type}

/-! ## Comparing runs -/

/-- Every value may be stored, and every run is compared with the one without recording. -/
abbrev Regime.recorded (good : R → Prop) (waits : Option Exception → Prop) (pardons : Prop) : Regime R :=
  Regime.any good waits True pardons

/-- Nothing that is pending is a reference to nothing. -/
def PendingShown (pending : Option Exception) : Prop := ∀ e, pending = some e → e.dangling = false

theorem Regime.recorded_admits_pardoning (good : R → Prop) :
    (Regime.recorded good (fun _ => True) True).Admits :=
  ⟨fun _ _ => trivial, fun _ _ => trivial, fun _ _ _ => .inl trivial, trivial⟩

theorem Regime.recorded_admits_strict (good : R → Prop) :
    (Regime.recorded good PendingShown False).Admits where
  canonical _ _ := trivial
  parked _ he := fun _ h => Option.some.inj h ▸ (he trivial).resolve_left id
  held _ he := fun _ => .inr (he _ rfl)
  taken := nofun

/-- What the comparison asks of an interpreter: in any state its entries differ at most by a panic over a
reference to nothing, and in a sound state not at all. -/
structure Interpreter.Unseeing (I : Interpreter R) (sound : R → Prop) : Prop where
  pardoned : (Regime.recorded (fun _ => True) (fun _ => True) True).Serves I
  strict : (Regime.recorded sound PendingShown False).Serves I

/-- A request shows no reference to nothing, and keeps the interpreter's state sound. -/
structure Request.Showable (sound : R → Prop) (r : Request R) : Prop where
  shown : ∀ v ∈ r.shown, v.dangling = false
  host : ∀ act, r = .host act → ∀ s, sound s → sound (Result.state (act s))

/-- What recording events makes of requests and of runs. -/
structure RecordingUnseen (I : Interpreter R) (sound : R → Prop) : Prop where
  /-- Any request goes as it does without recording, or panics over a reference to nothing; -/
  request : ∀ (r : Request R) m, Result.OverNothing (r.perform I m) ∨
    Result.silent (r.perform I m) = r.perform I m.silent
  /-- and so does opening a scope. -/
  opening : ∀ (s : ScopeCall) (m : Machine R), Result.OverNothing (s.openFrame m) ∨
    Result.silent (s.openFrame m) = s.openFrame m.silent
  /-- A run without such a panic goes as it does without recording. -/
  run_of_calm : ∀ (c : Caller R) m,
    c.Along I (fun m r => ¬ Result.OverNothing (r.perform I m))
      (fun m s => ¬ Result.OverNothing (s.openFrame m)) m →
    Result.silent (c.run I m) = c.run I m.silent
  /-- A run in which every value shown can be shown goes as it does without recording, step by step, when
  it starts in a sound state. It may panic over such references elsewhere, and then it does in both. -/
  run_of_shown : ∀ (c : Caller R) m, sound m.runtime → PendingShown m.pending →
    c.Along I (fun _ r => r.Showable sound) (fun _ s => s.function.dangling = false) m →
    Result.silent (c.run I m) = c.run I m.silent ∧
      c.Along I (fun m r => Result.silent (r.perform I m) = r.perform I m.silent)
        (fun m s => Result.silent (s.openFrame m) = s.openFrame m.silent) m
  /-- Where they part: an operand that cannot be shown stops an operator before its entry is called, -/
  binary_parts : ∀ (op : BinaryOp) x y m, op.answersInline x.tag y.tag = false →
    m.unrecordable [x, y] = true →
    ∃ t, I.binary op x y m = Run.violate (.nullPointer t) m ∧
      I.binary op x y m.silent = handOff op.label (op.entry I) (.pair x y) m.silent
  unary_parts : ∀ (op : UnaryOp) x m, op.answersInline x.tag = false → m.unrecordable [x] = true →
    ∃ t, I.unaryOp op x m = Run.violate (.nullPointer t) m ∧
      I.unaryOp op x m.silent = handOff op.label (I.unary op) (.single x) m.silent
  /-- a thrown value stops before it is pending, -/
  raise_parts : ∀ e (m : Machine R), m.journal.isSome = true → e.dangling = true →
    ∃ t, Machine.raise e m = Run.violate (.nullPointer t) m ∧
      Machine.raise e m.silent = .ok .exception { m.silent with pending := some e }
  /-- and a frame is entered all the same when its function stops the event. -/
  enter_parts : ∀ id function args argCount (m : Machine R), (m.frames.get id).state ≠ .active →
    m.journal.isSome = true → function.dangling = true →
    ∃ t, Chain.enter (some id) function args argCount m =
        Run.violate (.nullPointer t) (m.entered id function args argCount) ∧
      Chain.enter (some id) function args argCount m.silent =
        .ok () (m.entered id function args argCount).silent

section

open Regime

/-- Any request of such an interpreter goes as it does without recording, or panics over nothing. -/
theorem Interpreter.Unseeing.request_or {I : Interpreter R} {sound : R → Prop} (hI : I.Unseeing sound)
    (r : Request R) (m : Machine R) :
    Result.OverNothing (r.perform I m) ∨ Result.silent (r.perform I m) = r.perform I m.silent :=
  ((keeps_request (recorded_admits_pardoning _) hI.pardoned
    (fitsRequest_any fun _ _ _ _ => trivial) (fun _ _ _ => .inl trivial) m
    (any_holds trivial trivial)).agrees trivial).imp_left And.right

theorem opening_or (s : ScopeCall) (m : Machine R) :
    Result.OverNothing (s.openFrame m) ∨ Result.silent (s.openFrame m) = s.openFrame m.silent :=
  ((keeps_openFrame (G := recorded (fun _ => True) (fun _ => True) True) trivial
    (fun _ => .inl trivial) m (any_holds trivial trivial)).agrees trivial).imp_left And.right

/-- An interpreter that the comparison serves leaves recording unseen. -/
theorem Interpreter.Unseeing.recordingUnseen {I : Interpreter R} {sound : R → Prop}
    (hI : I.Unseeing sound) : RecordingUnseen I sound where
  request := hI.request_or
  opening := opening_or
  run_of_calm c m hcalm := by
    have hends := Caller.ends (G := recorded (fun _ => True) (fun _ => True) False) (I := I)
      (fun _ => id) c (any_holds trivial trivial) <| hcalm.mono
        (fun m r h _ => ⟨any_holds trivial trivial, fun _ _ _ => trivial, fun _ =>
          .inr ((hI.request_or r m).resolve_left h)⟩)
        fun m s h _ => ⟨any_holds trivial trivial, fun _ _ _ => trivial, fun _ =>
          .inr ((opening_or s m).resolve_left h)⟩
    exact (hends.1.agrees trivial).resolve_left And.left
  run_of_shown c m hs hp hc := by
    obtain ⟨hrun, halong⟩ := Caller.ends (G := recorded sound PendingShown False) (I := I)
      (fun _ => id) c (any_holds hs hp) <| hc.mono
        (fun m r h hm => (keeps_request (recorded_admits_strict sound) hI.strict
          (fitsRequest_any h.host) (fun v hv _ => .inr (h.shown v hv)) m hm).mono fun _ _ => trivial)
        fun m s h hm => keeps_openFrame trivial (fun _ => .inr h) m hm
    exact ⟨(hrun.agrees trivial).resolve_left And.left, halong.mono
      (fun m r h => (h.2.agrees trivial).resolve_left And.left)
      fun m s h => (h.2.agrees trivial).resolve_left And.left⟩
  binary_parts op x y m hop hm := by
    have hinline := (op.inline?_isSome x y).trans hop
    rw [binary_eq, inlineOr_none _ _ _ hinline]
    obtain ⟨t, ht⟩ := handOff_unrecorded op.label (op.entry I) (.pair x y) m hm
    exact ⟨t, ht, rfl⟩
  unary_parts op x m hop hm := by
    have hinline := (op.inline?_isSome x).trans hop
    rw [unaryOp_eq, inlineOr_none _ _ _ hinline]
    obtain ⟨t, ht⟩ := handOff_unrecorded op.label (I.unary op) (.single x) m hm
    exact ⟨t, ht, rfl⟩
  raise_parts e m hj hd := by
    obtain ⟨t, ht⟩ := Machine.raise_of_dangling (e := e) (m := m) (by rw [hj, hd]; rfl)
    exact ⟨t, ht, rfl⟩
  enter_parts id function args argCount m hid hj hd := by
    obtain ⟨t, ht⟩ := Chain.enter_dangling hid hd hj args argCount
    have hid' : (m.silent.frames.get id).state ≠ .active := hid
    refine ⟨t, ht, ?_⟩
    rw [Chain.enter_idle hid']
    rfl

end

/-! ## Both interpreters -/

/-- The constants of functions, and the exception prepared to fail the next entry, can be shown. -/
structure Reference.State.Shown (s : Reference.State) : Prop where
  constants : ∀ p code v, s.bytecode? p = some code → v ∈ code.constants → v.dangling = false
  prepared : PendingShown s.failNext

theorem Recording.unseeing : interpreter.Unseeing fun _ => True where
  pardoned := Regime.serves_recording (Regime.recorded_admits_pardoning _) fun _ => trivial
  strict := Regime.serves_recording (Regime.recorded_admits_strict _) fun _ => trivial

theorem Reference.unseeing (power : Double → Double → Double) :
    (interpreterWith power).Unseeing State.Shown where
  pardoned :=
    Regime.serves_reference (Regime.recorded_admits_pardoning _) (Regime.any_hosts id) power
  strict := by
    refine Regime.serves_reference (Regime.recorded_admits_strict _) ?_ power
    constructor
    case constants =>
      exact fun s p code v hs hcode hv => ⟨trivial, fun _ => .inr (hs.constants p code v hcode hv)⟩
    case texts => exact fun _ _ _ _ _ => trivial
    case prepared => exact fun s e hs he _ => .inr (hs.prepared e he)
    case noted =>
      intro s s' hs hcells _ hfail
      refine ⟨by rw [Regime.bytecode?_of_cells hcells]; exact hs.constants, ?_⟩
      obtain hsame | hnone := hfail
      · rw [hsame]
        exact hs.prepared
      · rw [hnone]
        exact nofun
    case allocated =>
      intro s t hs
      exact ⟨by rw [Regime.bytecode?_push_text]; exact hs.constants, hs.prepared⟩
    case interned => exact fun s c p hs => ⟨hs.constants, hs.prepared⟩

/-- **Recording events is seen only where an event shows a reference to nothing**, over both
interpreters. -/
theorem recording_unseen (power : Double → Double → Double) :
    RecordingUnseen Recording.interpreter (fun _ => True) ∧
      RecordingUnseen (Reference.interpreterWith power) Reference.State.Shown :=
  ⟨Recording.unseeing.recordingUnseen, (Reference.unseeing power).recordingUnseen⟩

end TieredVm
