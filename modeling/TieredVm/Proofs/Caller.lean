import TieredVm.Proofs.Frame.Lifecycle
import TieredVm.Proofs.Operator.Serving

/-!
# Callers

A caller makes requests of the machine, one after another, and decides by what it was answered what to
ask next; it may go on after a panic, give up on its own, and run another caller inside a scoped frame.
`Caller.run` runs a caller against an interpreter.

* `Request`, `Response`: operators, the pending exception, frame operations by either route, reads of
  function objects, and what the program around the machine does to the interpreter's state itself.
* `Along`: what every request made along a run meets, in the machine it is made in.
* `history`: these requests, in order.
* `keeps_request`: a request keeps a regime that its interpreter serves.
* `Caller.ends`: the run of a caller is compared request by request.
* `Caller.Passes.ends`: a caller that only passes on values that fit keeps the regime all along.
-/

namespace TieredVm

variable {R : Type}

/-! ## Requests -/

/-- What a request is answered with. -/
inductive Response where
  | done
  | value (v : Value)
  | truth (b : Bool)
  | exception (e : Option Exception)
  | frame (id : FrameId)
  | address (a : Address)
  | variable (c : Capture)
  | chain (c : Chain)
  | walk (frames : List FrameInfo)
  | trace (entries : List TraceEntry)
  | code (c : Bytecode)

/-- The values a response hands out. -/
def Response.values : Response → List Value
  | value v => [v]
  | walk frames => frames.map FrameInfo.function
  | code c => c.constants.toList
  | _ => []

/-- One request of the machine. -/
inductive Request (R : Type) where
  | binary (op : BinaryOp) (x y : Value)
  | unary (op : UnaryOp) (x : Value)
  | logicalNot (x : Value)
  | toBool (x : Value)
  | typeOf (x : Value)
  | raise (e : Exception)
  | takePending
  /-- A look at the pending exception. -/
  | pending
  | newFrame
  | newBuffer (vs : List Value)
  | transition (c : LifecycleCall)
  | capture (frame : FrameRef) (index : Nat) (kind : SlotKind)
  | captureCurrent (index : Nat) (kind : SlotKind)
  | currentArg (index : Nat)
  | currentLocal (index : Nat)
  | setCurrentLocal (index : Nat) (v : Value)
  /-- A variable that owns its value from the start. -/
  | newVariable (v : Value)
  | readVariable (c : Capture)
  | setVariable (c : Capture) (v : Value)
  /-- Writes a slot of a buffer directly. -/
  | poke (slot : Address) (v : Value)
  | chain
  | walk
  | trace
  | code (function : Value)
  | constant (function : Value) (index : Nat)
  | captured (function : Value) (index : Nat)
  /-- The program around the machine works on the interpreter's state. -/
  | host (act : Local R Response)

namespace Request

/-- Performs a request. -/
def perform (I : Interpreter R) : Request R → Run R Response
  | binary op x y => return .value (← I.binary op x y)
  | unary op x => return .value (← I.unaryOp op x)
  | logicalNot x => return .value (← I.logicalNot x)
  | toBool x => return .truth (← I.toBool x)
  | typeOf x => return .value (← I.typeOf x)
  | raise e => return .value (← Machine.raise e)
  | takePending => return .exception (← Machine.takePending)
  | pending => return .exception (← get).pending
  | newFrame => return .frame (← Machine.newFrame)
  | newBuffer vs => return .address (← Machine.newBuffer vs)
  | transition c => do
    c.perform I.toObjectModel
    return .done
  | capture frame index kind => do
    return .variable (← Chain.capture (frame.find (← get)) index kind)
  | captureCurrent index kind => return .variable (← Chain.captureCurrent index kind)
  | currentArg index => return .value (← Chain.currentArg index)
  | currentLocal index => return .value (← Chain.currentLocal index)
  | setCurrentLocal index v => do
    Chain.setCurrentLocal index v
    return .done
  | newVariable v => return .variable (← Machine.addCapture (.owned v))
  | readVariable c => return .value ((← get).captureValue c)
  | setVariable c v => do
    modify fun m => m.setCapture c v
    return .done
  | poke slot v => do
    modify fun m => m.written slot v
    return .done
  | chain => return .chain (← get).chain
  | walk => return .walk (← (return Chain.walk (← get) : Run R (List FrameInfo)))
  | trace => return .trace (← I.trace)
  | code function => return .code (← I.codeOf function)
  | constant function index => return .value (← I.constantOf function index)
  | captured function index => return .value (← I.capturedOf function index)
  | host act => Run.onRuntime act

/-- The values a request hands over to be stored or computed with. -/
def values : Request R → List Value
  | binary _ x y => [x, y]
  | unary _ x | logicalNot x | toBool x | typeOf x => [x]
  | newBuffer vs => vs
  | transition (.enter _ _ function _ _) => [function]
  | setCurrentLocal _ v | newVariable v | setVariable _ v | poke _ v => [v]
  | _ => []

/-- Is this an operator call? -/
def IsOperator : Request R → Prop
  | binary _ _ _ | unary _ _ | logicalNot _ | toBool _ | typeOf _ => True
  | _ => False

/-- Does a request decide what is pending? -/
def Settles : Request R → Prop
  | binary _ _ _ | unary _ _ | raise _ | takePending => True
  | _ => False

/-- Is the interpreter asked for more than the code of functions? -/
def AsksInterpreter : Request R → Prop
  | binary _ _ _ | unary _ _ | logicalNot _ | toBool _ | typeOf _ | captured _ _ | host _ => True
  | _ => False

/-- The values that events of a request may show, apart from those of what it calls. -/
def shown : Request R → List Value
  | binary _ x y => [x, y]
  | unary _ x => [x]
  | raise (.thrown v) => [v]
  | transition (.enter false _ function _ _) => [function]
  | _ => []

end Request

/-! ## Callers -/

/-- What a caller does, depending on what it is answered. -/
inductive Caller (R : Type) where
  | done (a : Response)
  /-- The caller panics or aborts on its own. -/
  | stop (s : Stop)
  /-- A panic is an answer too. -/
  | ask (r : Request R) (next : Except Panic Response → Caller R)
  /-- Another caller runs inside a scoped frame. -/
  | scope (c : ScopeCall) (inner : Caller R) (next : Except Panic Response → Caller R)

/-- A panic becomes an answer. -/
def Run.attempted {α : Type} (act : Run R α) : Run R (Except Panic α) := fun m =>
  match act m with
  | .ok a m => .ok (.ok a) m
  | .error (.panic p) m => .ok (.error p) m
  | .error (.abort a) m => .error (.abort a) m

/-- What is collected after an operation, if it goes through. -/
def Result.collect {α β ε σ : Type} (r : EStateM.Result ε σ α) (f : α → σ → List β) : List β :=
  match r with
  | .ok a s => f a s
  | .error _ _ => []

theorem Run.state_attempted {α : Type} (act : Run R α) (m : Machine R) :
    Result.state (attempted act m) = Result.state (act m) := by
  unfold attempted
  cases act m with
  | ok a m' => rfl
  | error s m' => cases s <;> rfl

namespace Caller

/-- Runs a caller. -/
def run (I : Interpreter R) : Caller R → Run R Response
  | done a => pure a
  | stop s => throw s
  | ask r next => do run I (next (← Run.attempted (r.perform I)))
  | scope c inner next => do run I (next (← Run.attempted (c.around (run I inner))))

/-- Does every request of a run, and every scope it opens, meet a condition in the machine it is made
in? -/
def Along (I : Interpreter R) (P : Machine R → Request R → Prop) (Q : Machine R → ScopeCall → Prop) :
    Caller R → Machine R → Prop
  | done _, _ | stop _, _ => True
  | ask r next, m => P m r ∧
    ∀ a m', Run.attempted (r.perform I) m = .ok a m' → Along I P Q (next a) m'
  | scope c inner next, m => Q m c ∧
    (∀ id m', c.openFrame m = .ok id m' → Along I P Q inner m') ∧
      ∀ a m', Run.attempted (c.around (run I inner)) m = .ok a m' → Along I P Q (next a) m'

/-- A condition may be weakened. -/
theorem Along.mono {I : Interpreter R} {P P' : Machine R → Request R → Prop}
    {Q Q' : Machine R → ScopeCall → Prop} (hP : ∀ m r, P m r → P' m r) (hQ : ∀ m c, Q m c → Q' m c)
    {c : Caller R} : ∀ {m : Machine R}, c.Along I P Q m → c.Along I P' Q' m := by
  induction c with
  | done _ => exact fun _ => trivial
  | stop _ => exact fun _ => trivial
  | ask r next ih => exact fun h => ⟨hP _ _ h.1, fun a m' hm => ih a (h.2 a m' hm)⟩
  | scope c inner next ihi ihn =>
    exact fun h => ⟨hQ _ _ h.1, fun id m' hm => ihi (h.2.1 id m' hm), fun a m' hm =>
      ihn a (h.2.2 a m' hm)⟩

/-- A condition that every request, and every scope, meets everywhere. -/
theorem along_of_forall {I : Interpreter R} {P : Machine R → Request R → Prop}
    {Q : Machine R → ScopeCall → Prop} (hP : ∀ m r, P m r) (hQ : ∀ m c, Q m c) (c : Caller R) :
    ∀ m, c.Along I P Q m := by
  induction c with
  | done _ => exact fun _ => trivial
  | stop _ => exact fun _ => trivial
  | ask r next ih => exact fun m => ⟨hP m r, fun a m' _ => ih a m'⟩
  | scope c inner next ihi ihn => exact fun m => ⟨hQ m c, fun _ m' _ => ihi m', fun a m' _ => ihn a m'⟩

/-- The requests made along a run, in order, each with the machine it was made in. -/
def history (I : Interpreter R) : Caller R → Machine R → List (Machine R × Request R)
  | done _, _ | stop _, _ => []
  | ask r next, m =>
    (m, r) :: Result.collect (Run.attempted (r.perform I) m) fun a m' => history I (next a) m'
  | scope c inner next, m =>
    Result.collect (c.openFrame m) (fun _ m' => history I inner m') ++
      Result.collect (Run.attempted (c.around (run I inner)) m) fun a m' => history I (next a) m'

end Caller

/-! ## Requests under a regime -/

namespace Regime

variable {G : Regime R} {I : Interpreter R} {m : Machine R} {α β : Type} {p : α → Prop}

/-- A response hands out values that fit. -/
def FitsResponse (G : Regime R) (a : Response) : Prop := ∀ v ∈ a.values, G.fits v

/-- A request hands over values that fit, and does no harm to the interpreter's state itself. -/
structure FitsRequest (G : Regime R) (r : Request R) : Prop where
  values : ∀ v ∈ r.values, G.fits v
  host : ∀ act, r = .host act → G.KeepsLocal act G.FitsResponse

/-- Where every value may be stored, a request only has to leave the interpreter's state good. -/
theorem fitsRequest_any {good : R → Prop} {waits : Option Exception → Prop} {compared pardons : Prop}
    {r : Request R} (hhost : ∀ act, r = .host act → ∀ s, good s → good (Result.state (act s))) :
    (any good waits compared pardons).FitsRequest r :=
  ⟨fun _ _ => trivial, fun act hr s hs => ⟨hhost act hr s hs, fun _ _ _ _ _ => trivial⟩⟩

/-- What an operation answers becomes the response. -/
theorem Keeps.respond {x : Run R α} {f : α → Response} (hx : G.Keeps x p)
    (hf : ∀ a, p a → G.FitsResponse (f a)) :
    G.Keeps (do return f (← x) : Run R Response) G.FitsResponse :=
  hx.bind fun a ha => keeps_pure (hf a ha)

theorem fitsResponse_value {v : Value} (h : G.fits v) : G.FitsResponse (.value v) := fun _ hw => by
  obtain rfl := List.mem_singleton.mp hw
  exact h

theorem keeps_transition (hknows : G.Knows I.toObjectModel) (c : LifecycleCall)
    (hfits : ∀ v ∈ (Request.transition c : Request R).values, G.fits v)
    (hshow : ∀ v ∈ (Request.transition c : Request R).shown, G.Shows v) :
    G.Keeps (c.perform I.toObjectModel) fun _ => True := by
  refine Keeps.get_bind (fun m => ?_) fun m _ => ?_
  · cases c <;> rfl
  · cases c with
    | enter held frame function args argCount =>
      have hf := hfits function List.mem_cons_self
      cases held with
      | true => exact keeps_enterHeld _ _ hf _ _
      | false => exact keeps_enter _ hf (hshow function List.mem_cons_self) _ _
    | attachLocals held frame locals count =>
      cases held with
      | true => exact keeps_attachLocalsHeld _ _ _ _
      | false => exact keeps_attachLocals _ _ _
    | setPc frame code pc => exact keeps_setPc _ _ _
    | setHeldPc frame pc => exact keeps_setPcHeld _ hknows _ _
    | exit frame => exact keeps_exit _

theorem fitsResponse_of_nil {a : Response} (h : a.values = []) : G.FitsResponse a := fun v hv => by
  rw [h] at hv
  exact absurd hv List.not_mem_nil

/-- A request that asks nothing of the interpreter but the code of functions. -/
theorem keeps_request_of_not_asks (hknows : G.Knows I.toObjectModel) {r : Request R}
    (hs : ¬ r.Settles) (hr : ¬ r.AsksInterpreter) (hv : ∀ v ∈ r.values, G.fits v)
    (hshow : ∀ v ∈ r.shown, G.Shows v) : G.Keeps (r.perform I) G.FitsResponse := by
  cases r with
  | binary op x y => exact absurd trivial hr
  | unary op x => exact absurd trivial hr
  | logicalNot x => exact absurd trivial hr
  | toBool x => exact absurd trivial hr
  | typeOf x => exact absurd trivial hr
  | raise e => exact absurd trivial hs
  | takePending => exact absurd trivial hs
  | captured function index => exact absurd trivial hr
  | host act => exact absurd trivial hr
  | pending => exact Keeps.get_bind (fun _ => rfl) fun _ _ => keeps_pure (fitsResponse_of_nil rfl)
  | newFrame => exact keeps_newFrame.respond fun _ _ => fitsResponse_of_nil rfl
  | newBuffer vs => exact (keeps_newBuffer hv).respond fun _ _ => fitsResponse_of_nil rfl
  | transition c =>
    exact (keeps_transition hknows c hv hshow).bind fun _ _ => keeps_pure (fitsResponse_of_nil rfl)
  | capture frame index kind =>
    refine Keeps.get_bind (fun m => ?_) fun m _ =>
      (keeps_capture _ _ _).respond fun _ _ => fitsResponse_of_nil rfl
    cases frame <;> rfl
  | captureCurrent index kind =>
    exact (keeps_captureCurrent _ _).respond fun _ _ => fitsResponse_of_nil rfl
  | currentArg index => exact (keeps_readCurrent _ _ _).respond fun _ => fitsResponse_value
  | currentLocal index => exact (keeps_readCurrent _ _ _).respond fun _ => fitsResponse_value
  | setCurrentLocal index v =>
    exact (keeps_setCurrentLocal _ (hv v List.mem_cons_self)).bind fun _ _ =>
      keeps_pure (fitsResponse_of_nil rfl)
  | newVariable v =>
    refine (keeps_addCapture fun w hw => ?_).respond fun _ _ => fitsResponse_of_nil rfl
    cases hw
    exact hv v List.mem_cons_self
  | readVariable c =>
    exact Keeps.get_bind (fun _ => rfl) fun m hm => keeps_pure (fitsResponse_value (hm.captureValue c))
  | setVariable c v =>
    exact (keeps_setCapture (hv v List.mem_cons_self) c).bind fun _ _ =>
      keeps_pure (fitsResponse_of_nil rfl)
  | poke slot v =>
    exact (keeps_written (hv v List.mem_cons_self) slot).bind fun _ _ =>
      keeps_pure (fitsResponse_of_nil rfl)
  | chain => exact Keeps.get_bind (fun _ => rfl) fun _ _ => keeps_pure (fitsResponse_of_nil rfl)
  | walk =>
    refine keeps_walk.respond fun infos h v hv => ?_
    obtain ⟨i, hi, rfl⟩ := List.mem_map.mp hv
    exact h i hi
  | trace => exact (keeps_trace _).respond fun _ _ => fitsResponse_of_nil rfl
  | code function =>
    refine (keeps_codeOf _ hknows function).respond fun code h v hv => ?_
    exact (h v (Array.mem_toList_iff.mp hv)).1
  | constant function index =>
    exact (keeps_constantOf _ hknows function index).respond fun _ h => fitsResponse_value h.1

/-- A request that does not decide what is pending asks nothing of the interpreter's entries. -/
theorem keeps_request_of_not_settles (hbool : ∀ b, G.fits (.ofBool b)) (hI : G.Attends I)
    {r : Request R} (hr : ¬ r.Settles) (hfits : G.FitsRequest r) (hshow : ∀ v ∈ r.shown, G.Shows v) :
    G.Keeps (r.perform I) G.FitsResponse := by
  obtain ⟨hv, hhost⟩ := hfits
  cases r with
  | binary op x y => exact absurd trivial hr
  | unary op x => exact absurd trivial hr
  | logicalNot x =>
    exact (keeps_logicalNot hI hbool (hv x List.mem_cons_self)).respond fun _ => fitsResponse_value
  | toBool x =>
    exact (keeps_toBool hI (hv x List.mem_cons_self)).respond fun _ _ => fitsResponse_of_nil rfl
  | typeOf x =>
    exact (keeps_typeOf hI (hv x List.mem_cons_self)).respond fun _ => fitsResponse_value
  | captured function index =>
    exact (keeps_capturedOf _ hI.knows hI.duplicate function index).respond fun _ =>
      fitsResponse_value
  | host act => exact keeps_onRuntime (hhost act rfl)
  | _ => exact keeps_request_of_not_asks hI.knows hr id hv hshow

/-- **A request keeps a regime that the interpreter serves.** -/
theorem keeps_request (hG : G.Admits) (hI : G.Serves I) {r : Request R} (hfits : G.FitsRequest r)
    (hshow : ∀ v ∈ r.shown, G.Shows v) : G.Keeps (r.perform I) G.FitsResponse := by
  have hv := hfits.values
  cases r with
  | binary op x y =>
    exact (keeps_binary hG hI op (hv x (by simp [Request.values])) (hv y (by simp [Request.values]))
      hshow).respond fun _ => fitsResponse_value
  | unary op x =>
    exact (keeps_unaryOp hG hI op (hv x List.mem_cons_self) (hshow x List.mem_cons_self)).respond
      fun _ => fitsResponse_value
  | raise e =>
    have he : G.Exposes e := by
      cases e with
      | error c t => exact fun _ => .inr rfl
      | thrown v => exact hshow v List.mem_cons_self
    exact (keeps_raise hG he).respond fun _ => fitsResponse_value
  | takePending => exact (keeps_takePending hG).respond fun _ _ => fitsResponse_of_nil rfl
  | _ => exact keeps_request_of_not_settles hG.ofBool hI.toAttends id hfits hshow

/-! ## Runs of callers -/

/-- A panic that becomes an answer. -/
theorem Ends.attempted {x : Run R α} (hstrict : G.compared → ¬ G.pardons)
    (h : G.Ends (x m) (x m.silent) p) :
    G.Ends (Run.attempted x m) (Run.attempted x m.silent) fun r => ∀ a, r = .ok a → p a := by
  have hquiet : G.compared → Result.silent (x m) = x m.silent := fun hc =>
    (h.agrees hc).resolve_left fun hp => hstrict hc hp.1
  have hholds := h.holds
  unfold Run.attempted
  cases hx : x m with
  | ok a m' =>
    rw [hx] at hholds hquiet
    refine ⟨hholds, fun _ _ hr b hb => ?_, fun hc => ?_⟩
    · cases hr
      cases hb
      exact h.answered a m' hx
    · rw [← hquiet hc]
      exact .inr rfl
  | error s m' =>
    rw [hx] at hholds hquiet
    cases s with
    | panic e =>
      refine ⟨hholds, fun _ _ hr b hb => ?_, fun hc => ?_⟩
      · cases hr
        cases hb
      · rw [← hquiet hc]
        exact .inr rfl
    | abort a =>
      refine ⟨hholds, fun _ _ hr => (by cases hr), fun hc => ?_⟩
      rw [← hquiet hc]
      exact .inr rfl

/-- A scope comes to what opening it and its body come to. -/
theorem Ends.around {s : ScopeCall} (body : Run R α) (hstrict : G.compared → ¬ G.pardons)
    (hopen : G.Ends (s.openFrame m) (s.openFrame m.silent) fun _ => True)
    (hbody : ∀ id m', s.openFrame m = .ok id m' → G.Holds m' →
      G.Ends (body m') (body m'.silent) p) :
    G.Ends (s.around body m) (s.around body m.silent) p := by
  rw [ScopeCall.around_eq]
  exact hopen.bind fun id m' hm hm' _ => (hbody id m' hm hm').runScoped id hstrict

end Regime

namespace Caller

open Regime

variable {G : Regime R} {I : Interpreter R}

/-- A run comes to what its requests come to, one by one, and the regime holds all along. -/
theorem ends (hstrict : G.compared → ¬ G.pardons) (c : Caller R) : ∀ {m : Machine R}, G.Holds m →
    c.Along I (fun m r => G.Holds m → G.Ends (r.perform I m) (r.perform I m.silent) fun _ => True)
      (fun m s => G.Holds m → G.Ends (s.openFrame m) (s.openFrame m.silent) fun _ => True) m →
    G.Ends (c.run I m) (c.run I m.silent) (fun _ => True) ∧
      c.Along I (fun m r => G.Holds m ∧ G.Ends (r.perform I m) (r.perform I m.silent) fun _ => True)
        (fun m s => G.Holds m ∧ G.Ends (s.openFrame m) (s.openFrame m.silent) fun _ => True) m := by
  induction c with
  | done a => exact fun hm _ => ⟨keeps_pure trivial _ hm, trivial⟩
  | stop s => exact fun hm _ => ⟨keeps_throw s _ hm, trivial⟩
  | ask r next ih =>
    intro m hm ha
    have hr := ha.1 hm
    have hasked := hr.attempted hstrict
    refine ⟨hasked.bind fun a m' h hm' _ => (ih a hm' (ha.2 a m' h)).1, ⟨hm, hr⟩, fun a m' h => ?_⟩
    have hholds := hasked.holds
    rw [h] at hholds
    exact (ih a hholds (ha.2 a m' h)).2
  | scope s inner next ihi ihn =>
    intro m hm ha
    have hopen := ha.1 hm
    have hscope := (Ends.around (inner.run I) hstrict hopen fun id m' h hm' =>
      (ihi hm' (ha.2.1 id m' h)).1).attempted hstrict
    refine ⟨hscope.bind fun a m' h hm' _ => (ihn a hm' (ha.2.2 a m' h)).1, ⟨hm, hopen⟩, ?_, ?_⟩
    · intro id m' h
      have hholds := hopen.holds
      rw [h] at hholds
      exact (ihi hholds (ha.2.1 id m' h)).2
    · intro a m' h
      have hholds := hscope.holds
      rw [h] at hholds
      exact (ihn a hholds (ha.2.2 a m' h)).2

/-- The caller hands over values that fit, as long as it is handed only such values. -/
def Passes (G : Regime R) : Caller R → Prop
  | done a => G.FitsResponse a
  | stop _ => True
  | ask r next => G.FitsRequest r ∧
    ∀ a, (∀ b, a = .ok b → G.FitsResponse b) → Passes G (next a)
  | scope s inner next => G.fits s.function ∧ Passes G inner ∧
    ∀ a, (∀ b, a = .ok b → G.FitsResponse b) → Passes G (next a)

/-- The run of a caller that passes on values that fit keeps the regime, and what it hands over and
is answered all along fits. -/
theorem Passes.ends (hG : G.Admits) (hI : G.Serves I) (hoff : ¬ G.compared) {c : Caller R} :
    ∀ {m : Machine R}, c.Passes G → G.Holds m →
      G.Ends (c.run I m) (c.run I m.silent) G.FitsResponse ∧
      c.Along I (fun m r => G.Holds m ∧ G.FitsRequest r ∧
          G.Ends (r.perform I m) (r.perform I m.silent) G.FitsResponse)
        (fun m s => G.Holds m ∧ G.fits s.function) m := by
  have hstrict : G.compared → ¬ G.pardons := fun hc => absurd hc hoff
  have hshow : ∀ v, G.Shows v := fun v hc => absurd hc hoff
  induction c with
  | done a =>
    intro m (hp : G.FitsResponse a) hm
    exact ⟨keeps_pure hp m hm, trivial⟩
  | stop s => exact fun _ hm => ⟨keeps_throw s _ hm, trivial⟩
  | ask r next ih =>
    intro m hp hm
    have hr := keeps_request hG hI hp.1 (fun v _ => hshow v) m hm
    have ha := hr.attempted hstrict
    refine ⟨ha.bind fun a m' _ hm' hfit => (ih a (hp.2 a hfit) hm').1, ⟨hm, hp.1, hr⟩, ?_⟩
    intro a m' h
    have hholds := ha.holds
    rw [h] at hholds
    exact (ih a (hp.2 a (ha.answered a m' h)) hholds).2
  | scope s inner next ihi ihn =>
    intro m hp hm
    have hopen := keeps_openFrame hp.1 (hshow s.function) m hm
    have ha := (Ends.around (inner.run I) hstrict hopen fun id m' _ hm' =>
      (ihi hp.2.1 hm').1).attempted hstrict
    refine ⟨ha.bind fun a m' _ hm' hfit => (ihn a (hp.2.2 a hfit) hm').1, ⟨hm, hp.1⟩, ?_, ?_⟩
    · intro id m' h
      have hholds := hopen.holds
      rw [h] at hholds
      exact (ihi hp.2.1 hholds).2
    · intro a m' h
      have hholds := ha.holds
      rw [h] at hholds
      exact (ihn a (hp.2.2 a (ha.answered a m' h)) hholds).2

end Caller

end TieredVm
