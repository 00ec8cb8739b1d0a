import TieredVm.Proofs.Frame.Layout
import TieredVm.Proofs.Frame.Rejected

/-!
# Callers go by moves

`Moves` are what single requests do, operators apart. A caller makes requests of every kind and opens
scopes; where the entries of its interpreter go by moves, so does all it does, and what is kept by moves
holds in every machine that a request of the caller meets.

* `Run.GoesBy`: an operation does what it does by steps of a relation.
* `Request.goesBy_of_isOperator`: operators do, if the entries behind them do (`Interpreter.OperatesBy`).
* `Caller.goesBy`: callers do, if their requests and their scopes do.
* `Caller.rejectedUnseen`, `Caller.layoutRespected`: what holds along moves holds along callers.
-/

namespace TieredVm

variable {R α β : Type} {I : Interpreter R} {S T : Machine R → Prop}
  {Rel : Machine R → Machine R → Prop} {m m' : Machine R}

/-! ## Operations that go by steps -/

/-- The frames of the machine represent some stack of activations. -/
def Machine.Stacked (m : Machine R) : Prop := ∃ rec s, Represents rec m s

/-- Steps keep a condition, and they include whatever leaves both the frames and the interpreter
alone. -/
structure StepsKeep (S : Machine R → Prop) (Rel : Machine R → Machine R → Prop) : Prop where
  keep : ∀ {m m'}, S m → Rel m m' → S m'
  quiet : ∀ {m m' : Machine R}, m.FramesKept m' → m'.runtime = m.runtime → Rel m m'

theorem StepsKeep.run (h : StepsKeep S Rel) (hm : S m) (hrun : Relation.ReflTransGen Rel m m') :
    S m' := by
  induction hrun with
  | refl => exact hm
  | tail _ hstep ih => exact h.keep ih hstep

/-- From where a condition holds, whatever an operation does it does by steps of a relation. -/
def Run.GoesBy (S : Machine R → Prop) (Rel : Machine R → Machine R → Prop) (x : Run R α) : Prop :=
  ∀ m, S m → Relation.ReflTransGen Rel m (Result.state (x m))

namespace Run

theorem goesBy_pure (a : α) : GoesBy S Rel (pure a : Run R α) := fun _ _ => .refl

theorem GoesBy.weaken {x : Run R α} (hx : GoesBy S Rel x) (hT : ∀ m, T m → S m) :
    GoesBy T Rel x := fun m hm => hx m (hT m hm)

theorem GoesBy.mono {x : Run R α} {Rel' : Machine R → Machine R → Prop} (hx : GoesBy S Rel x)
    (hRel : ∀ m m', Rel m m' → Rel' m m') : GoesBy S Rel' x := fun m hm =>
  Relation.ReflTransGen.mono hRel _ _ (hx m hm)

/-- Operations in sequence. The second one begins where the first one led. -/
theorem GoesBy.bind (hS : StepsKeep S Rel) {x : Run R α} {f : α → Run R β} (hx : GoesBy S Rel x)
    (hf : ∀ a, GoesBy S Rel (f a)) : GoesBy S Rel (x >>= f) := by
  intro m hm
  have h := hx m hm
  rw [bind_apply]
  cases hr : x m with
  | ok a n =>
    rw [hr] at h
    exact h.trans (hf a n (hS.run hm h))
  | error e n =>
    rw [hr] at h
    exact h

theorem goesBy_quiet (hS : StepsKeep S Rel) {x : Run R α} (hframes : x.KeepsFrames)
    (hruntime : ∀ m, (Result.state (x m)).runtime = m.runtime) : GoesBy S Rel x := fun m _ =>
  .single (hS.quiet (hframes m) (hruntime m))

theorem goesBy_raise (hS : StepsKeep S Rel) (e : Exception) :
    GoesBy S Rel (Machine.raise e : Run R Value) := by
  have hpark : GoesBy S Rel (modify fun m => { m with pending := some e } : Run R PUnit) :=
    goesBy_quiet hS (fun _ => ⟨rfl, rfl, rfl, Nat.le_refl _, rfl, fun _ => rfl⟩) fun _ => rfl
  exact (goesBy_quiet hS (keepsFrames_emit _) (runtime_emit _)).bind hS fun _ => hpark.bind hS fun _ =>
    goesBy_pure _

/-- A hand-off goes by what its entry goes by. -/
theorem goesBy_handOff (hS : StepsKeep S Rel) {n : Nat} (label : String) {entry : Entry R (n + 1)}
    {operands : Operands (n + 1)} (h : GoesBy S Rel (entry operands).run) :
    GoesBy S Rel (handOff label entry operands) := by
  refine (goesBy_quiet hS (keepsFrames_emit _) (runtime_emit _)).bind hS fun _ =>
    GoesBy.bind hS h fun answer => ?_
  cases answer with
  | ok answered => exact goesBy_pure _
  | error e => exact goesBy_raise hS e

end Run

/-! ## Operators -/

/-- What operators ask of the interpreter goes by steps of a relation. -/
structure Interpreter.OperatesBy (I : Interpreter R) (S : Machine R → Prop)
    (Rel : Machine R → Machine R → Prop) : Prop where
  binary : ∀ (op : BinaryOp) x y, Run.GoesBy S Rel (op.entry I (.pair x y)).run
  unary : ∀ op x, Run.GoesBy S Rel (I.unary op (.single x)).run
  truth : ∀ x, Run.GoesBy S Rel (Run.onRuntime (I.truth x))
  typeOf : ∀ x, Run.GoesBy S Rel (I.typeOf x)

theorem Interpreter.OperatesBy.mono {Rel' : Machine R → Machine R → Prop} (hI : I.OperatesBy S Rel)
    (hRel : ∀ m m', Rel m m' → Rel' m m') : I.OperatesBy S Rel' where
  binary op x y := (hI.binary op x y).mono hRel
  unary op x := (hI.unary op x).mono hRel
  truth x := (hI.truth x).mono hRel
  typeOf x := (hI.typeOf x).mono hRel

open Run in
/-- **Operators go by what the entries behind them go by.** -/
theorem Request.goesBy_of_isOperator (hS : StepsKeep S Rel) (hI : I.OperatesBy S Rel) {r : Request R}
    (hr : r.IsOperator) : GoesBy S Rel (r.perform I) := by
  have htoBool : ∀ x, GoesBy S Rel (I.toBool x) := fun x => by
    unfold Interpreter.toBool
    split
    · exact goesBy_pure _
    · exact hI.truth x
  cases r with
  | binary op x y =>
    refine GoesBy.bind hS (?_ : GoesBy S Rel (I.binary op x y)) fun _ => goesBy_pure _
    unfold Interpreter.binary
    split
    · exact goesBy_pure _
    · exact goesBy_handOff hS _ (hI.binary op x y)
  | unary op x =>
    refine GoesBy.bind hS (?_ : GoesBy S Rel (I.unaryOp op x)) fun _ => goesBy_pure _
    unfold Interpreter.unaryOp
    split
    · exact goesBy_pure _
    · exact goesBy_handOff hS _ (hI.unary op x)
  | logicalNot x =>
    refine GoesBy.bind hS (?_ : GoesBy S Rel (I.logicalNot x)) fun _ => goesBy_pure _
    unfold Interpreter.logicalNot
    split
    · exact goesBy_pure _
    · exact (htoBool x).bind hS fun _ => goesBy_pure _
  | toBool x => exact (htoBool x).bind hS fun _ => goesBy_pure _
  | typeOf x => exact (hI.typeOf x).bind hS fun _ => goesBy_pure _
  | _ => exact hr.elim

/-! ## Runs of callers -/

/-- A scope ends with what its body leaves, and closing it. -/
theorem Chain.state_runScoped (id : FrameId) (body : Run R α) (m : Machine R) :
    Result.state (runScoped id body m) = Result.state (body m) ∨
      Result.state (runScoped id body m) =
        Result.state (leaveScope id (Result.state (body m))) := by
  unfold runScoped
  cases body m with
  | ok a n =>
    refine .inr ?_
    show Result.state ((leaveScope id *> pure a) n) = Result.state (leaveScope id n)
    rw [seqRight_eq_bind, Run.bind_apply]
    cases leaveScope id n <;> rfl
  | error e n =>
    cases e with
    | abort a => exact .inl rfl
    | panic p =>
      refine .inr ?_
      simp only
      show _ = Result.state (leaveScope id n)
      cases leaveScope id n with
      | ok a k => rfl
      | error e k => cases e <;> rfl

/-- A scope goes by steps if it opens and closes by steps and its body goes by steps. -/
theorem ScopeCall.goesBy_around {s : ScopeCall} {body : Run R α} (hS : StepsKeep S Rel) (hm : S m)
    (hopen : Relation.ReflTransGen Rel m (Result.state (s.openFrame m)))
    (hbody : ∀ id n, s.openFrame m = .ok id n → S n →
      Relation.ReflTransGen Rel n (Result.state (body n)))
    (hleave : ∀ id, Run.GoesBy S Rel (Chain.leaveScope id)) :
    Relation.ReflTransGen Rel m (Result.state (s.around body m)) := by
  rw [ScopeCall.around_eq, Run.bind_apply]
  cases ho : s.openFrame m with
  | error e n =>
    rw [ho] at hopen
    exact hopen
  | ok id n =>
    rw [ho] at hopen
    have hrun := hopen.trans (hbody id n ho (hS.run hm hopen))
    show Relation.ReflTransGen Rel m (Result.state (Chain.runScoped id body n))
    rcases Chain.state_runScoped id body n with he | he
    · rw [he]
      exact hrun
    · rw [he]
      exact hrun.trans (hleave id _ (hS.run hm hrun))

/-- **A caller goes by steps** if its requests do and its scopes open and close by steps. So it meets
every request in a machine that is reached by steps. -/
theorem Caller.goesBy (hS : StepsKeep S Rel) {P : Machine R → Request R → Prop}
    {Q : Machine R → ScopeCall → Prop}
    (hP : ∀ m r, S m → P m r → Relation.ReflTransGen Rel m (Result.state (r.perform I m)))
    (hQ : ∀ m s, S m → Q m s → Relation.ReflTransGen Rel m (Result.state (s.openFrame m)))
    (hleave : (∃ m s, Q m s) → ∀ id, Run.GoesBy S Rel (Chain.leaveScope id)) (c : Caller R) :
    ∀ {m : Machine R}, S m → c.Along I P Q m →
      Relation.ReflTransGen Rel m (Result.state (c.run I m)) ∧
        ∀ x ∈ c.history I m, Relation.ReflTransGen Rel m x.1 := by
  induction c with
  | done a => exact fun _ _ => ⟨.refl, fun _ hx => absurd hx List.not_mem_nil⟩
  | stop e => exact fun _ _ => ⟨.refl, fun _ hx => absurd hx List.not_mem_nil⟩
  | ask r next ih =>
    intro m hm h
    have hr := hP m r hm h.1
    rw [← Run.state_attempted] at hr
    unfold run history
    rw [Run.bind_apply]
    cases ha : Run.attempted (r.perform I) m with
    | ok a n =>
      rw [ha] at hr
      obtain ⟨hrun, hhistory⟩ := ih a (hS.run hm hr) (h.2 a n ha)
      refine ⟨hr.trans hrun, fun x hx => ?_⟩
      rcases List.mem_cons.mp hx with rfl | hx
      · exact .refl
      · exact hr.trans (hhistory x hx)
    | error e n =>
      rw [ha] at hr
      refine ⟨hr, fun x hx => ?_⟩
      obtain rfl := List.mem_singleton.mp hx
      exact .refl
  | scope s inner next ihi ihn =>
    intro m hm h
    have hopen := hQ m s hm h.1
    have haround : Relation.ReflTransGen Rel m (Result.state (s.around (inner.run I) m)) :=
      ScopeCall.goesBy_around hS hm hopen (fun id n ho hn => (ihi hn (h.2.1 id n ho)).1)
        (hleave ⟨m, s, h.1⟩)
    rw [← Run.state_attempted] at haround
    -- Requests inside the scope are met after opening it, the others after all of it.
    have hinner : ∀ x ∈ Result.collect (s.openFrame m) fun _ n => inner.history I n,
        Relation.ReflTransGen Rel m x.1 := fun x hx => by
      cases ho : s.openFrame m with
      | ok id n =>
        rw [ho] at hx hopen
        exact hopen.trans ((ihi (hS.run hm hopen) (h.2.1 id n ho)).2 x hx)
      | error e n =>
        rw [ho] at hx
        exact absurd hx List.not_mem_nil
    unfold run history
    rw [Run.bind_apply]
    cases ha : Run.attempted (s.around (inner.run I)) m with
    | ok a n =>
      rw [ha] at haround
      obtain ⟨hrun, hhistory⟩ := ihn a (hS.run hm haround) (h.2.2 a n ha)
      refine ⟨haround.trans hrun, fun x hx => ?_⟩
      rcases List.mem_append.mp hx with hx | hx
      · exact hinner x hx
      · exact haround.trans (hhistory x hx)
    | error e n =>
      rw [ha] at haround
      refine ⟨haround, fun x hx => ?_⟩
      rcases List.mem_append.mp hx with hx | hx
      · exact hinner x hx
      · exact absurd hx List.not_mem_nil

/-! ## Moves -/

theorem Machine.AtRest.stacked (h : m.AtRest) : m.Stacked := ⟨_, _, h.represents⟩

theorem stepsKeep_moves (I : Interpreter R) (held : Prop) :
    StepsKeep Machine.Stacked (Moves I held) where
  keep := by
    rintro m m' ⟨rec, s, hs⟩ hm
    exact ⟨rec, (hm.frameStep hs).represents hs⟩
  quiet h _ := .elsewhere _ h

theorem stepsKeep_heldMove (I : Interpreter R) : StepsKeep Machine.Stacked (HeldMove I) where
  keep hm h := (stepsKeep_moves I True).keep hm h.1
  quiet h hr := ⟨.elsewhere _ h, fun id _ => by rw [hr]; rfl⟩

/-- Being held to a layout is a restriction. -/
theorem Moves.of_held {held : Prop} (h : Moves I held m m') : Moves I False m m' := by
  cases h with
  | request r ho _ => exact .request r ho False.elim
  | helper k words hk hframe => exact .helper k words hk hframe
  | elsewhere _ h => exact .elsewhere _ h

/-- A transition that is performed on the frame its reference leads to. -/
theorem Moves.transition (I : Interpreter R) {c : LifecycleCall} {frame : Option FrameId}
    (hframe : c.frame.find m = frame) :
    Moves I False m (Result.state (c.performOn I.toObjectModel frame m)) := by
  have hmove : Moves I False m (Result.state ((Request.transition c).perform I m)) :=
    .request _ id False.elim
  rwa [Request.state_transition, c.perform_apply, hframe] at hmove

/-- A scope opens by moves. -/
theorem ScopeCall.moves_openFrame (I : Interpreter R) (s : ScopeCall) (m : Machine R) :
    Relation.ReflTransGen (Moves I False) m (Result.state (s.openFrame m)) := by
  let fresh : Machine R := { m with freshFrame := m.freshFrame + 1 }
  have hnew : Moves I False m fresh := .request .newFrame id False.elim
  have hfind : (FrameRef.owned m.freshFrame).find fresh = some m.freshFrame :=
    if_pos (Nat.lt_succ_self _)
  have henter : Moves I False fresh
      (Result.state (Chain.enter (some m.freshFrame) s.function s.args s.argCount fresh)) :=
    Moves.transition I (c := .enter false (.owned m.freshFrame) s.function s.args s.argCount) hfind
  rw [openFrame, Run.bind_of_ok (Machine.newFrame_apply m), Run.bind_apply]
  cases he : Chain.enter (some m.freshFrame) s.function s.args s.argCount fresh with
  | error e n =>
    rw [he] at henter
    exact .tail (.single hnew) henter
  | ok _ n =>
    rw [he] at henter
    have hc : n.chain.current = some m.freshFrame := congrArg Chain.current (Chain.chain_of_enter he)
    have hattach : Moves I False n
        (Result.state (Chain.attachLocals (some m.freshFrame) s.locals s.localCount n)) :=
      Moves.transition I (c := .attachLocals false .current s.locals s.localCount) hc
    rw [← Run.state_bind_pure _ fun _ => m.freshFrame] at hattach
    exact .tail (.tail (.single hnew) henter) hattach

/-- A scope closes by moves. -/
theorem Chain.moves_leaveScope (I : Interpreter R) (id : FrameId) :
    Run.GoesBy S (Moves I False) (leaveScope id : Run R Unit) := fun m _ => by
  by_cases hc : m.chain.current = some id
  · rw [leaveScope_innermost hc]
    exact .single (Moves.transition I (c := .exit .current) hc)
  · rw [leaveScope_broken hc]
    exact .single (.elsewhere _ (.noted m _))

section

variable {start : Machine R}

/-- **Rejected calls change nothing, whatever a caller runs into.** -/
theorem Caller.rejectedUnseen (hI : I.OperatesBy Machine.Stacked (Moves I False))
    (hrest : start.AtRest) (hoff : start.journal = none) (c : Caller R) {r : Request R}
    (hmr : (m, r) ∈ c.history I start) (hr : r.OnFrames)
    (hdup : ∀ function index, r = .captured function index → I.Duplicates) :
    RejectedUnseen I m r := by
  have hsteps := stepsKeep_moves I False
  have hrequest : ∀ m (r : Request R), m.Stacked → True →
      Relation.ReflTransGen (Moves I False) m (Result.state (r.perform I m)) := fun m r hm _ => by
    by_cases ho : r.IsOperator
    · exact Request.goesBy_of_isOperator hsteps hI ho m hm
    · exact .single (.request r ho False.elim)
  have hall := c.along_of_forall (I := I) (P := fun _ _ => True) (Q := fun _ _ => True)
    (fun _ _ => trivial) (fun _ _ => trivial) start
  have hrun := c.goesBy hsteps hrequest (fun m s _ _ => s.moves_openFrame I m)
    (fun _ => Chain.moves_leaveScope I) hrest.stacked hall
  obtain ⟨s, hs⟩ := Moves.represents hrest.represents (hrun.2 _ hmr)
  rw [hoff] at hs
  exact hs.rejectedUnseen I hr hdup

/-- A caller whose transitions are held to the checks, and which opens no scopes since these are not,
finds the layouts respected at each of its requests and when it is done. -/
theorem Caller.layoutRespected (hI : I.OperatesBy Machine.Stacked (HeldMove I)) (hrest : start.AtRest)
    (c : Caller R) (hc : c.Along I (fun m r => (∀ t, r = .transition t → t.Held) ∧
      (¬ r.IsOperator → I.Steady m (Result.state (r.perform I m)))) (fun _ _ => False) start) :
    LayoutRespected I (Result.state (c.run I start)) ∧
      ∀ x ∈ c.history I start, LayoutRespected I x.1 := by
  have hsteps := stepsKeep_heldMove I
  have hstart : I.Layout start := fun id hid => absurd hid (hrest.idle id)
  have hrespected : ∀ m, Relation.ReflTransGen (HeldMove I) start m → LayoutRespected I m :=
    fun m hm => by
      obtain ⟨s, hs, h⟩ := HeldMove.layout hrest.represents hstart hm
      exact hs.layoutRespected h
  have hrequest : ∀ m (r : Request R), m.Stacked → ((∀ t, r = .transition t → t.Held) ∧
      (¬ r.IsOperator → I.Steady m (Result.state (r.perform I m)))) →
      Relation.ReflTransGen (HeldMove I) m (Result.state (r.perform I m)) := fun m r hm h => by
    by_cases ho : r.IsOperator
    · exact Request.goesBy_of_isOperator hsteps hI ho m hm
    · exact .single ⟨.request r ho fun _ => h.1, h.2 ho⟩
  have hrun := c.goesBy hsteps hrequest (fun _ _ _ h => h.elim) (fun ⟨_, _, h⟩ => h.elim)
    hrest.stacked hc
  exact ⟨hrespected _ hrun.1, fun x hx => hrespected _ (hrun.2 x hx)⟩

end

end TieredVm
