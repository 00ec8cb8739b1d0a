import TieredVm.Proofs.Frame.Moves

/-!
# The chronicle of a run

What a caller saw happen to the chain, in order: frames that were entered, offsets that were recorded,
frames that were left. `Caller.chronicle` reads it off the requests and the scopes of a run alone. A
request that did not take hold is not in it.

* `ChainEvent.ongoing`: the activations that were begun and not left since, as the events tell.
* `ongoing_begun`, `ongoing_moved`, `ongoing_left`: what one more event makes of them.
* `LedTo`: the linked frames of a machine are the activations that are ongoing after the events. One lemma
  for each operation says that it goes on so with the events of the operation.
* `LedTo.caller`: and so it does with the chronicle of a caller.
-/

namespace TieredVm

variable {R α : Type}

/-! ## Events -/

/-- What happens to the chain. -/
inductive ChainEvent where
  /-- A frame is entered for a function. -/
  | begun (frame : FrameId) (function : Value)
  /-- An offset is recorded for a frame. -/
  | moved (frame : FrameId) (pc : Nat)
  /-- A frame is left. -/
  | left (frame : FrameId)
deriving DecidableEq

/-- An activation, as events tell of it. -/
structure Ongoing where
  frame : FrameId
  function : Value
  /-- The offset recorded last since it was begun. -/
  pc : Option Nat := none
deriving DecidableEq

namespace ChainEvent

/-- The offset that an event records for a frame. -/
def offset? (frame : FrameId) : ChainEvent → Option Nat
  | moved f pc => if f = frame then some pc else none
  | _ => none

/-- The offset that was recorded last for a frame. -/
def lastOffset (frame : FrameId) (events : List ChainEvent) : Option Nat :=
  (events.filterMap (offset? frame)).getLast?

/-- The activations that were begun and not left since, most recent first. -/
def ongoing : List ChainEvent → List Ongoing
  | [] => []
  | begun frame function :: later => ongoing later ++
    if left frame ∈ later then [] else [{ frame, function, pc := lastOffset frame later }]
  | moved _ _ :: later | left _ :: later => ongoing later

theorem lastOffset_append (frame : FrameId) (events : List ChainEvent) (e : ChainEvent) :
    lastOffset frame (events ++ [e]) = (offset? frame e).or (lastOffset frame events) := by
  unfold lastOffset
  rw [List.filterMap_append]
  cases h : offset? frame e <;> simp [h]

/-! ### One more event -/

theorem ongoing_begun (log : List ChainEvent) (id : FrameId) (f : Value) :
    ongoing (log ++ [begun id f]) = { frame := id, function := f } :: ongoing log := by
  induction log with
  | nil => simp [ongoing, lastOffset]
  | cons e log ih => cases e <;> simp [ongoing, ih, lastOffset_append, offset?]

theorem ongoing_moved (log : List ChainEvent) (id : FrameId) (pc : Nat) :
    ongoing (log ++ [moved id pc]) =
      (ongoing log).map fun a => if a.frame = id then { a with pc := some pc } else a := by
  induction log with
  | nil => rfl
  | cons e log ih =>
    cases e with
    | begun frame function =>
      by_cases hl : left frame ∈ log
      · simp [ongoing, ih, hl]
      · by_cases hf : frame = id
        · subst hf
          simp [ongoing, ih, hl, lastOffset_append, offset?]
        · simp [ongoing, ih, hl, lastOffset_append, offset?, hf, Ne.symm hf]
    | moved frame pc => exact ih
    | left frame => exact ih

theorem ongoing_left (log : List ChainEvent) (id : FrameId) :
    ongoing (log ++ [left id]) = (ongoing log).filter fun a => a.frame ≠ id := by
  induction log with
  | nil => rfl
  | cons e log ih =>
    cases e with
    | begun frame function =>
      by_cases hl : left frame ∈ log
      · simp [ongoing, ih, hl]
      · by_cases hf : frame = id
        · simp [ongoing, ih, hf]
        · simp [ongoing, ih, hl, lastOffset_append, offset?, hf]
    | moved frame pc => exact ih
    | left frame => exact ih

/-- A frame that is entered again has no offset from before. -/
example : ongoing [begun 1 .null, moved 1 5, left 1, begun 2 .null, begun 1 .undefined] =
    [{ frame := 1, function := .undefined }, { frame := 2, function := .null }] := by decide

end ChainEvent

/-! ## What took hold -/

open ChainEvent

/-- The event that an operation is, if it took hold. -/
def ChainEvent.taken (before : Machine R) (r : EStateM.Result Stop (Machine R) Unit)
    (e : Option ChainEvent) : List ChainEvent := if TookHold before r then e.toList else []

/-- The event that a call on a frame is. Attaching locals is none. -/
def LifecycleCall.event? (id : FrameId) : LifecycleCall → Option ChainEvent
  | enter _ _ function _ _ => some (.begun id function)
  | attachLocals .. => none
  | setPc _ _ pc | setHeldPc _ pc => some (.moved id pc)
  | exit _ => some (.left id)

/-- The events of a request. -/
def Request.events (I : Interpreter R) (m : Machine R) : Request R → List ChainEvent
  | transition c => taken m (c.perform I.toObjectModel m) ((c.frame.find m).bind fun id => c.event? id)
  | _ => []

/-- The event of a scope that opens. -/
def ScopeCall.openEvents (s : ScopeCall) (m : Machine R) : List ChainEvent :=
  if (Result.state (s.openFrame m)).chain = m.chain then [] else [.begun m.freshFrame s.function]

/-- The event of a scope that closes after its body. A body that aborts leaves it open. -/
def Chain.closeEvents (id : FrameId) : EStateM.Result Stop (Machine R) α → List ChainEvent
  | .ok _ m | .error (.panic _) m => taken m (leaveScope id m) (some (.left id))
  | .error (.abort _) _ => []

/-- What happens to the chain along a run, in order. -/
def Caller.chronicle (I : Interpreter R) : Caller R → Machine R → List ChainEvent
  | done _, _ | stop _, _ => []
  | ask r next, m => r.events I m ++
    Result.collect (Run.attempted (r.perform I) m) fun a m' => chronicle I (next a) m'
  | scope s inner next, m => s.openEvents m ++
    Result.collect (s.openFrame m) (fun id m' =>
      chronicle I inner m' ++ Chain.closeEvents id (inner.run I m')) ++
      Result.collect (Run.attempted (s.around (inner.run I)) m) fun a m' => chronicle I (next a) m'

/-- An operator leaves the frames alone, whatever the interpreter does for it. Of other requests nothing
is asked. -/
def Request.LeavesFrames (I : Interpreter R) (m : Machine R) (r : Request R) : Prop :=
  r.IsOperator → m.FramesKept (Result.state (r.perform I m))

/-! ## The linked frames are the ongoing activations -/

/-- What events tell of an activation. -/
def Activation.recounted (a : Activation) : Ongoing :=
  { frame := a.frame, function := a.function, pc := a.pc }

/-- The linked frames of a machine are the activations that are ongoing after the events. -/
def LedTo (log : List ChainEvent) (m : Machine R) : Prop :=
  ∃ recording s, Represents recording m s ∧ ongoing log = s.linked.map Activation.recounted

theorem ChainEvent.taken_of_refused {m : Machine R} {r : EStateM.Result Stop (Machine R) Unit}
    (h : Refused m r) (e : Option ChainEvent) : taken m r e = [] := by
  rw [taken, h.not_tookHold]
  rfl

namespace LedTo

variable {log : List ChainEvent} {m m' : Machine R} {id : FrameId}

theorem framesKept (h : LedTo log m) (hk : m.FramesKept m') : LedTo log m' := by
  obtain ⟨rec, s, hs, hlog⟩ := h
  exact ⟨rec, s, hs.framesKept hk, hlog⟩

theorem refused {r : EStateM.Result Stop (Machine R) Unit} (h : LedTo log m) (hr : Refused m r)
    (e : Option ChainEvent) : LedTo (log ++ taken m r e) (Result.state r) := by
  rw [taken_of_refused hr, List.append_nil]
  exact h.framesKept hr.framesKept

theorem newFrame (h : LedTo log m) : LedTo log { m with freshFrame := m.freshFrame + 1 } := by
  obtain ⟨rec, s, hs, hlog⟩ := h
  exact ⟨rec, _, hs.newFrame, hlog⟩

/-- Changing what the events tell nothing of, in an activation that is linked. -/
theorem recounted_update (s : CallStack) (id : FrameId) {f : Activation → Activation}
    (hf : ∀ a, (f a).recounted = a.recounted) :
    (s.update id f).linked.map Activation.recounted = s.linked.map Activation.recounted := by
  unfold CallStack.update
  rw [List.map_map]
  refine List.map_congr_left fun a _ => ?_
  rw [Function.comp_apply]
  split
  · exact hf a
  · rfl

theorem attached (h : LedTo log m) (hs : (m.frames.get id).state = .active) (locals : Address)
    (count : Nat) :
    LedTo log (m.putFrame id { m.frames.get id with locals := locals, localCount := count }) := by
  obtain ⟨rec, s, hrep, hlog⟩ := h
  obtain ⟨a, ha, rfl⟩ := CallStack.mem_frames.mp ((hrep.active_iff id).mp hs)
  refine ⟨rec, _, hrep.attached ha locals count, ?_⟩
  rw [recounted_update, hlog]
  exact fun _ => rfl

theorem captureOf (h : LedTo log m) (hs : (m.frames.get id).state = .active) (index : Nat)
    (kind : SlotKind) :
    LedTo log (Result.state (Chain.captureOf id (m.frames.get id) index kind m)) := by
  obtain ⟨rec, s, hrep, hlog⟩ := h
  cases hq : Chain.captured? m id index kind with
  | some c =>
    rw [Chain.captureOf_again hq]
    exact ⟨rec, s, hrep, hlog⟩
  | none =>
    by_cases hi : index < (m.frames.get id).count kind
    · obtain ⟨a, ha, rfl⟩ := CallStack.mem_frames.mp ((hrep.active_iff id).mp hs)
      rw [Chain.captureOf_new hq hi]
      refine ⟨rec, _, hrep.captured ha _ index kind, ?_⟩
      rw [recounted_update, hlog]
      exact fun _ => rfl
    · exact framesKept ⟨rec, s, hrep, hlog⟩ (Chain.captureOf_refused hq hi).framesKept

/-! ### Events -/

theorem begun (h : LedTo log m) (hs : (m.frames.get id).state ≠ .active) (hid : id < m.freshFrame)
    (function : Value) (args : Address) (argCount : Nat) :
    LedTo (log ++ [.begun id function]) (m.entered id function args argCount) := by
  obtain ⟨rec, s, hrep, hlog⟩ := h
  have hn : id ∉ s.frames := fun hin => hs ((hrep.active_iff id).mpr hin)
  refine ⟨rec, _, hrep.entered hn (hrep.freshFrame ▸ hid) function args argCount, ?_⟩
  rw [ongoing_begun, hlog]
  rfl

theorem moved (h : LedTo log m) (hs : (m.frames.get id).state = .active) (pc : Nat) :
    LedTo (log ++ [.moved id pc]) (m.putFrame id { m.frames.get id with pc := some pc }) := by
  obtain ⟨rec, s, hrep, hlog⟩ := h
  obtain ⟨a, ha, rfl⟩ := CallStack.mem_frames.mp ((hrep.active_iff id).mp hs)
  refine ⟨rec, _, hrep.moved ha pc, ?_⟩
  rw [ongoing_moved, hlog]
  unfold CallStack.update
  rw [List.map_map, List.map_map]
  refine List.map_congr_left fun b _ => ?_
  by_cases hb : b.frame = a.frame <;> simp [Activation.recounted, hb]

theorem left (h : LedTo log m) (hc : m.chain.current = some id) :
    LedTo (log ++ [.left id]) (m.left id) := by
  obtain ⟨rec, s, hrep, hlog⟩ := h
  obtain ⟨a, rest, hl, rfl⟩ := hrep.exists_innermost hc
  refine ⟨rec, _, hrep.left hl, ?_⟩
  have honce := hrep.once
  rw [CallStack.frames, hl, List.map_cons, List.nodup_cons] at honce
  -- No other activation is kept in the storage of the one that is left.
  have hother : ∀ b ∈ rest, b.frame ≠ a.frame := fun b hb he =>
    honce.1 (he ▸ List.mem_map_of_mem hb)
  rw [ongoing_left, hlog, hl, List.map_cons,
    List.filter_cons_of_neg (by simp [Activation.recounted]), List.filter_map]
  congr 1
  exact List.filter_eq_self.mpr fun b hb => decide_eq_true (hother b hb)

/-! ### Transitions -/

theorem enter (h : LedTo log m) {frame : Option FrameId}
    (hfresh : ∀ id, frame = some id → id < m.freshFrame) (function : Value) (args : Address)
    (argCount : Nat) :
    LedTo (log ++ taken m (Chain.enter frame function args argCount m)
        (frame.bind fun id => some (.begun id function)))
      (Result.state (Chain.enter frame function args argCount m)) := by
  by_cases hid : ∃ id, frame = some id ∧ (m.frames.get id).state ≠ .active
  · obtain ⟨id, rfl, hs⟩ := hid
    obtain ⟨htook, line, hstate⟩ := Chain.enter_takesHold hs function args argCount
    rw [taken, if_pos htook, hstate]
    exact (h.begun hs (hfresh id rfl) function args argCount).framesKept (.noted _ line)
  · exact h.refused (Chain.enter_refused hid ..) _

theorem attachLocals (h : LedTo log m) (frame : Option FrameId) (locals : Address) (count : Nat) :
    LedTo log (Result.state (Chain.attachLocals frame locals count m)) := by
  by_cases hl : m.Linked frame
  · obtain ⟨id, rfl, hs⟩ := hl
    rw [Chain.attachLocals_linked hs]
    exact h.attached hs locals count
  · exact h.framesKept (Chain.attachLocals_refused hl ..).framesKept

theorem setPc (h : LedTo log m) (frame : Option FrameId) (code : Bytecode) (pc : Nat) :
    LedTo (log ++ taken m (Chain.setPc frame code pc m)
        (frame.bind fun id => some (.moved id pc)))
      (Result.state (Chain.setPc frame code pc m)) := by
  by_cases hl : m.Linked frame ∧ code.containsPc pc = true
  · obtain ⟨⟨id, rfl, hs⟩, hpc⟩ := hl
    rw [Chain.setPc_inside hs hpc]
    exact h.moved hs pc
  · exact h.refused (Chain.setPc_refused hl) _

theorem exit (h : LedTo log m) (frame : Option FrameId) :
    LedTo (log ++ taken m (Chain.exit frame m) (frame.bind fun id => some (.left id)))
      (Result.state (Chain.exit frame m)) := by
  by_cases hl : m.Linked frame ∧ m.chain.current = frame
  · obtain ⟨⟨id, rfl, hs⟩, hc⟩ := hl
    rw [Chain.exit_innermost hs hc]
    exact (h.left hc).framesKept (.noted _ _)
  · exact h.refused (Chain.exit_refused hl) _

/-- A transition, on the chain itself or held to the layout of the frame's function. -/
theorem transition (O : ObjectModel R) (c : LifecycleCall) (h : LedTo log m)
    {frame : Option FrameId} (hfresh : ∀ id, frame = some id → id < m.freshFrame) :
    LedTo (log ++ taken m (c.performOn O frame m) (frame.bind fun id => c.event? id))
      (Result.state (c.performOn O frame m)) := by
  cases c with
  | enter held fr function args argCount =>
    cases held with
    | false => exact h.enter hfresh function args argCount
    | true =>
      show LedTo (log ++ taken m (O.enter frame function args argCount m) _)
        (Result.state (O.enter frame function args argCount m))
      rcases O.enter_cases (m := m) frame function args argCount with he | hr
      · rw [he]
        exact h.enter hfresh function args argCount
      · exact h.refused hr _
  | attachLocals held fr locals count =>
    have hnone : ∀ r : EStateM.Result Stop (Machine R) Unit,
        taken m r (frame.bind fun _ => none) = [] := fun r => by
      unfold taken
      cases frame <;> simp
    show LedTo (log ++ taken m _ (frame.bind fun _ => none)) _
    rw [hnone, List.append_nil]
    cases held with
    | false => exact h.attachLocals frame locals count
    | true =>
      show LedTo log (Result.state (O.attachLocals frame locals count m))
      rcases O.attachLocals_cases (m := m) frame locals count with he | hr
      · rw [he]
        exact h.attachLocals frame locals count
      · exact h.framesKept hr.framesKept
  | setPc fr code pc => exact h.setPc frame code pc
  | setHeldPc fr pc =>
    show LedTo (log ++ taken m (O.setPc frame pc m) _) (Result.state (O.setPc frame pc m))
    rcases O.setPc_cases (m := m) frame pc with ⟨code, he⟩ | hr
    · rw [he]
      exact h.setPc frame code pc
    · exact h.refused hr _
  | exit fr => exact h.exit frame

/-- **A request goes on with its events.** -/
theorem request (I : Interpreter R) (r : Request R) (h : LedTo log m) (hr : r.LeavesFrames I m) :
    LedTo (log ++ r.events I m) (Result.state (r.perform I m)) := by
  have hquiet : ∀ {n : Machine R}, LedTo log n → LedTo (log ++ []) n := fun hn => by
    rwa [List.append_nil]
  by_cases ho : r.IsOperator
  · have hnone : r.events I m = [] := by cases r <;> first | rfl | exact ho.elim
    rw [hnone]
    exact hquiet (h.framesKept (hr ho))
  · by_cases hreach : r.ReachesFrames
    · cases r with
      | newFrame => exact hquiet h.newFrame
      | transition c =>
        obtain ⟨rec, s, hrep, -⟩ := id h
        rw [Request.state_transition, Request.events, c.perform_apply]
        refine h.transition _ c fun id hid => ?_
        exact hrep.freshFrame ▸ FrameRef.findOn_lt hrep ((hrep.find c.frame).symm.trans hid)
      | capture frame index kind =>
        refine hquiet ?_
        rw [Request.state_capture]
        rcases Chain.capture_cases m (frame.find m) index kind with ⟨id, hs, hc⟩ | hr
        · rw [hc]
          exact h.captureOf hs index kind
        · exact h.framesKept hr.framesKept
      | captureCurrent index kind =>
        refine hquiet ?_
        rw [Request.state_captureCurrent]
        rcases Chain.captureCurrent_cases m index kind with ⟨id, hs, hc⟩ | hr
        · rw [hc]
          exact h.captureOf hs index kind
        · exact h.framesKept hr.framesKept
      | newVariable v =>
        obtain ⟨rec, s, hrep, -⟩ := id h
        exact hquiet (h.framesKept (.addedCapture m v fun c => hrep.sharedSlot?_fresh))
      | _ => exact hreach.elim
    · have hnone : r.events I m = [] := by cases r <;> first | rfl | exact (hreach trivial).elim
      rw [hnone]
      exact hquiet (h.framesKept (Request.keepsFrames I hreach ho m))

/-! ### Scopes -/

theorem openFrame (s : ScopeCall) (h : LedTo log m) :
    LedTo (log ++ s.openEvents m) (Result.state (s.openFrame m)) := by
  let fresh : Machine R := { m with freshFrame := m.freshFrame + 1 }
  have hidle : (fresh.frames.get m.freshFrame).state ≠ .active := fun hs => by
    obtain ⟨rec, st, hrep, -⟩ := h
    exact Nat.lt_irrefl _ (hrep.freshFrame ▸ hrep.setAside _ ((hrep.active_iff _).mp hs))
  have hbegun := h.newFrame.begun hidle (Nat.lt_succ_self _) s.function s.args s.argCount
  -- The event is there as soon as the frame is linked.
  have hopened : ∀ {n : Machine R}, Result.state (s.openFrame m) = n →
      n.chain = (fresh.entered m.freshFrame s.function s.args s.argCount).chain →
      LedTo (log ++ [.begun m.freshFrame s.function]) n →
      LedTo (log ++ s.openEvents m) (Result.state (s.openFrame m)) := fun hn hc hled => by
    have hne := Machine.chain_entered_ne (m := fresh) m.freshFrame s.function s.args s.argCount
    rw [ScopeCall.openEvents, hn, hc, if_neg hne]
    exact hled
  have hopen := Run.bind_of_ok (Machine.newFrame_apply m) fun id => do
    Chain.enter (some id) s.function s.args s.argCount
    Chain.attachLocals (some id) s.locals s.localCount
    return id
  by_cases hf : m.journal.isSome = true → s.function.dangling = false
  · obtain ⟨line, hl⟩ := Chain.enter_shown (m := fresh) hidle hf s.args s.argCount
    have hs : (((fresh.entered m.freshFrame s.function s.args s.argCount).noted line).frames.get
        m.freshFrame).state = .active := by
      simp [Machine.noted, Machine.entered]
    rw [Run.bind_of_ok hl, Run.bind_of_ok (Chain.attachLocals_linked hs ..), Run.pure_apply] at hopen
    exact hopened (congrArg Result.state hopen) rfl
      ((hbegun.framesKept (.noted _ line)).attached hs s.locals s.localCount)
  · rw [Classical.not_imp, Bool.not_eq_false] at hf
    obtain ⟨t, hl⟩ := Chain.enter_dangling (m := fresh) hidle hf.2 hf.1 s.args s.argCount
    rw [Run.bind_of_error hl] at hopen
    exact hopened (congrArg Result.state hopen) rfl (hbegun.framesKept (.noted _ _))

theorem leaveScope (id : FrameId) (h : LedTo log m) :
    LedTo (log ++ taken m (Chain.leaveScope id m) (some (.left id)))
      (Result.state (Chain.leaveScope id m)) := by
  by_cases hc : m.chain.current = some id
  · rw [Chain.leaveScope_innermost hc]
    exact h.exit (some id)
  · rw [Chain.leaveScope_broken hc]
    have hnone : TookHold m (.error (.abort (.brokenScope m.chain.depth))
        (m.noted s!"ERROR frame left linked above a scoped frame depth={m.chain.depth}")) = false :=
      decide_eq_false fun hne => hne rfl
    rw [taken, hnone, if_neg Bool.false_ne_true, List.append_nil]
    exact h.framesKept (.noted m _)

theorem runScoped {id : FrameId} {body : Run R α} (h : LedTo log (Result.state (body m))) :
    LedTo (log ++ Chain.closeEvents id (body m)) (Result.state (Chain.runScoped id body m)) := by
  unfold Chain.runScoped Chain.closeEvents
  cases hb : body m with
  | ok a n =>
    rw [hb] at h
    have hleft := leaveScope (m := n) id h
    simp only [seqRight_eq_bind, Run.bind_apply]
    cases hl : Chain.leaveScope id n <;> rw [hl] at hleft <;> exact hleft
  | error e n =>
    rw [hb] at h
    cases e with
    | abort a => rwa [List.append_nil]
    | panic p =>
      have hleft := leaveScope (m := n) id h
      simp only
      cases hl : Chain.leaveScope id n with
      | ok a k => rw [hl] at hleft; exact hleft
      | error e k => cases e <;> rw [hl] at hleft <;> exact hleft

/-! ### Runs -/

/-- **A caller goes on with its chronicle.** -/
theorem caller {I : Interpreter R} (c : Caller R) : ∀ {m : Machine R} {log : List ChainEvent},
    LedTo log m → c.Along I (fun m r => r.LeavesFrames I m) (fun _ _ => True) m →
      LedTo (log ++ c.chronicle I m) (Result.state (c.run I m)) := by
  induction c with
  | done a => exact fun h _ => by rwa [Caller.chronicle, List.append_nil]
  | stop e => exact fun h _ => by rwa [Caller.chronicle, List.append_nil]
  | ask r next ih =>
    intro m log h ha
    have hr := h.request I r ha.1
    rw [← Run.state_attempted] at hr
    rw [Caller.run, Caller.chronicle, ← List.append_assoc, Run.bind_apply]
    cases hm : Run.attempted (r.perform I) m with
    | ok a n =>
      rw [hm] at hr
      exact ih a hr (ha.2 a n hm)
    | error e n =>
      rw [hm] at hr
      rwa [Result.collect, List.append_nil]
  | scope s inner next ihi ihn =>
    intro m log h ha
    have hscope : LedTo (log ++ (s.openEvents m ++ Result.collect (s.openFrame m) fun id m' =>
        inner.chronicle I m' ++ Chain.closeEvents id (inner.run I m')))
        (Result.state (s.around (inner.run I) m)) := by
      have ho := h.openFrame s
      rw [ScopeCall.around_eq, Run.bind_apply, ← List.append_assoc]
      cases hm : s.openFrame m with
      | ok id n =>
        rw [hm] at ho
        have hbody : LedTo _ (Result.state (Chain.runScoped id (inner.run I) n)) :=
          (ihi ho (ha.2.1 id n hm)).runScoped
        rwa [List.append_assoc] at hbody
      | error e n =>
        rw [hm] at ho
        rwa [Result.collect, List.append_nil]
    rw [← Run.state_attempted] at hscope
    rw [Caller.run, Caller.chronicle, ← List.append_assoc, Run.bind_apply]
    cases hm : Run.attempted (s.around (inner.run I)) m with
    | ok a n =>
      rw [hm] at hscope
      exact ihn a hscope (ha.2.2 a n hm)
    | error e n =>
      rw [hm] at hscope
      rwa [Result.collect, List.append_nil]

end LedTo

/-- Before the first call, nothing has happened. -/
theorem Machine.AtRest.ledTo {m : Machine R} (h : m.AtRest) : LedTo [] m := ⟨_, _, h.represents, rfl⟩

end TieredVm
