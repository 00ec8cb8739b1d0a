import TieredVm.Proofs.Frame.Refinement

/-!
# Scoped frames restore the chain

What a scope does with the chain, whatever its body makes of it, as long as the body does not link
the storage of the scoped frame anew (`FrameCall.Spares`). The body keeps the activations below the
scoped one as they lie, or unlinks the scoped one first (`CallStack.Keeps`); so the single look at
the innermost frame, when the scope ends, tells the two apart.

* `Program.agree_spared`: a body keeps what lies below its scope.
* `ScopeEnds`: how a scope ends, given how its body ended.
* `scope_restores_chain`: every scope ends like that, with one exception. Entering a frame while
  events are recorded shows its function, and a function that is a reference to nothing cannot be
  shown. The scope panics then before anything is there to leave its frame, which stays linked.
-/

namespace TieredVm

variable {R α : Type} {recording : Bool} {m : Machine R} {s s' : CallStack}

/-! ## What a call does to the storage in use -/

namespace CallStack

theorem frames_of_enter {frame : Option FrameId} {function : Value} {args : Address}
    {argCount : Nat} (h : s.enter frame function args argCount = some s') :
    ∃ id, frame = some id ∧ id ∉ s.frames ∧ s'.frames = id :: s.frames ∧
      s'.freshFrame = s.freshFrame := by
  cases frame with
  | none => exact absurd h (by simp [enter])
  | some id =>
    by_cases hid : id ∈ s.frames
    · exact absurd (h.symm.trans (enter_of_mem hid ..)) (by simp)
    · rw [enter_of_not_mem hid] at h
      obtain rfl := Option.some.inj h
      exact ⟨id, rfl, hid, rfl, rfl⟩

theorem frames_of_attachLocals {frame : Option FrameId} {locals : Address} {count : Nat}
    (h : s.attachLocals frame locals count = some s') :
    s'.frames = s.frames ∧ s'.freshFrame = s.freshFrame := by
  cases frame with
  | none => exact absurd h (by simp [attachLocals])
  | some id =>
    cases hf : s.find? id with
    | none => exact absurd h (by simp [attachLocals, hf])
    | some a =>
      rw [attachLocals_of_find? hf] at h
      obtain rfl := Option.some.inj h
      exact ⟨s.frames_update id fun _ => rfl, rfl⟩

theorem frames_of_setPc {frame : Option FrameId} {code : Bytecode} {pc : Nat}
    (h : s.setPc frame code pc = some s') :
    s'.frames = s.frames ∧ s'.freshFrame = s.freshFrame := by
  cases frame with
  | none => exact absurd h (by simp [setPc])
  | some id =>
    cases hf : s.find? id with
    | none => exact absurd h (by simp [setPc, hf])
    | some a =>
      rw [setPc_of_find? hf] at h
      split at h
      · obtain rfl := Option.some.inj h
        exact ⟨s.frames_update id fun _ => rfl, rfl⟩
      · exact absurd h (by simp)

theorem frames_of_capture {frame : Option FrameId} {index : Nat} {kind : SlotKind}
    (h : s.capture frame index kind = some s') :
    s'.frames = s.frames ∧ s'.freshFrame = s.freshFrame := by
  cases frame with
  | none => exact absurd h (by simp [capture])
  | some id =>
    cases hf : s.find? id with
    | none => exact absurd h (by simp [capture, hf])
    | some a =>
      rw [capture_of_find? hf] at h
      split at h
      · obtain rfl := Option.some.inj h
        exact ⟨rfl, rfl⟩
      · split at h
        · obtain rfl := Option.some.inj h
          exact ⟨s.frames_update id fun _ => rfl, rfl⟩
        · exact absurd h (by simp)

theorem frames_of_exit {frame : Option FrameId} (h : s.exit frame = some s') :
    ∃ id, s.frames = id :: s'.frames ∧ s'.freshFrame = s.freshFrame := by
  unfold exit at h
  cases hl : s.linked with
  | nil => rw [hl] at h; exact absurd h (by simp)
  | cons a rest =>
    rw [hl] at h
    simp only at h
    split at h
    · obtain rfl := Option.some.inj h
      exact ⟨a.frame, by simp [frames, hl], rfl⟩
    · exact absurd h (by simp)

/-- What a transition did to the storage in use, other than link it. -/
def Settled (s s' : CallStack) : Prop :=
  s.freshFrame ≤ s'.freshFrame ∧ (s'.frames = s.frames ∨ ∃ id, s.frames = id :: s'.frames)

theorem Settled.refl (s : CallStack) : Settled s s := ⟨Nat.le_refl _, .inl rfl⟩

theorem Settled.of_move {next : CallStack → Option CallStack}
    (h : ∀ s', next s = some s' → Settled s s') : Settled s (Result.state (Spec.move next s)) := by
  cases hn : next s with
  | none => rw [Spec.move_none hn]; exact .refl s
  | some s' => rw [Spec.move_some hn]; exact h s' hn

theorem Settled.of_frames (h : s'.frames = s.frames ∧ s'.freshFrame = s.freshFrame) :
    Settled s s' := ⟨Nat.le_of_eq h.2.symm, .inl h.1⟩

theorem Settled.of_exit {frame : Option FrameId} (h : s.exit frame = some s') : Settled s s' := by
  obtain ⟨id, hid, hfresh⟩ := frames_of_exit h
  exact ⟨Nat.le_of_eq hfresh.symm, .inr ⟨id, hid⟩⟩

theorem frames_entering (frame : CallStack → Option FrameId) (function : Value) (args : Address)
    (argCount : Nat) (s : CallStack) :
    let s' := Result.state
      (Spec.entering recording function (fun s => s.enter (frame s) function args argCount) s)
    s' = s ∨ ∃ id, frame s = some id ∧ id ∉ s.frames ∧ s'.frames = id :: s.frames ∧
      s'.freshFrame = s.freshFrame := by
  cases he : s.enter (frame s) function args argCount with
  | none => rw [Spec.entering_none he]; exact .inl rfl
  | some s' =>
    obtain ⟨id, hf, hid, hfr, hfresh⟩ := frames_of_enter he
    refine .inr ⟨id, hf, hid, ?_⟩
    rw [Spec.entering_some he]
    split <;> exact ⟨hfr, hfresh⟩

end CallStack

/-- Only entering links storage, and only storage that is not in use. -/
theorem FrameCall.onStack_frames (recording : Bool) (c : FrameCall) (s : CallStack) :
    CallStack.Settled s (Result.state (c.onStack recording s)) ∨
      ∃ fr function args argCount id, c = .enter fr function args argCount ∧
        fr.findOn s = some id ∧ id ∉ s.frames ∧
        (Result.state (c.onStack recording s)).frames = id :: s.frames ∧
        (Result.state (c.onStack recording s)).freshFrame = s.freshFrame := by
  cases c with
  | newFrame => exact .inl ⟨Nat.le_succ _, .inl rfl⟩
  | enter fr function args argCount =>
    rw [onStack]
    rcases CallStack.frames_entering fr.findOn function args argCount s with he | ⟨id, hid⟩
    · rw [he]
      exact .inl (.refl s)
    · exact .inr ⟨fr, function, args, argCount, id, rfl, hid⟩
  | attachLocals frame locals count =>
    rw [onStack]
    exact .inl (.of_move fun _ h => .of_frames (CallStack.frames_of_attachLocals h))
  | setPc frame code pc =>
    rw [onStack]
    exact .inl (.of_move fun _ h => .of_frames (CallStack.frames_of_setPc h))
  | capture frame index kind =>
    rw [onStack]
    exact .inl (.of_move fun _ h => .of_frames (CallStack.frames_of_capture h))
  | exit frame =>
    rw [onStack]
    exact .inl (.of_move fun _ h => .of_exit h)
  | captureCurrent index kind =>
    rw [onStack]
    exact .inl (.of_move fun _ h => .of_frames (CallStack.frames_of_capture h))
  | setCurrentLocal index v =>
    rw [onStack]
    refine .inl (.of_move fun s' h => ?_)
    obtain ⟨_, _, rfl⟩ := Option.map_eq_some_iff.mp h
    exact .refl s
  | setVariable c v => exact .inl (.refl s)
  | newVariable v => exact .inl (.refl s)
  | poke slot v => exact .inl (.refl s)

namespace CallStack

/-- Closing a scope at most unlinks the innermost storage. -/
theorem settled_close (id : FrameId) (s : CallStack) :
    Settled s (Result.state (close id s)) := by
  unfold close
  cases he : s.exit (some id) with
  | none => exact .refl s
  | some s' => exact .of_exit he

/-- The stack when a scope has entered its frame. -/
def withScope (s : CallStack) (c : ScopeCall) : CallStack :=
  s.newFrame.pushed s.freshFrame c.function c.args c.argCount

theorem frames_withScope (s : CallStack) (c : ScopeCall) :
    (s.withScope c).frames = s.freshFrame :: s.frames := rfl

theorem opening_eq (c : ScopeCall) (s : CallStack) :
    opening recording c s = (do
      Spec.entering recording c.function fun s' =>
        s'.enter (some s.freshFrame) c.function c.args c.argCount
      Spec.move fun s' => s'.attachLocals (some s.freshFrame) c.locals c.localCount
      return s.freshFrame : Spec CallStack FrameId) s.newFrame := rfl

theorem entering_fresh (c : ScopeCall) (h : s.freshFrame ∉ s.frames) :
    Spec.entering recording c.function
        (fun s' => s'.enter (some s.freshFrame) c.function c.args c.argCount) s.newFrame =
      if recording && c.function.dangling then .error .panic (s.withScope c)
      else .ok () (s.withScope c) :=
  Spec.entering_some (enter_of_not_mem (s := s.newFrame) h ..)

theorem opening_dangling {c : ScopeCall} (h : s.freshFrame ∉ s.frames)
    (hd : (recording && c.function.dangling) = true) :
    opening recording c s = .error .panic (s.withScope c) := by
  have hen := (entering_fresh c h).trans (if_pos hd)
  rw [opening_eq]
  show EStateM.bind _ _ _ = _
  rw [EStateM.bind, hen]

theorem opening_shown {c : ScopeCall} (h : s.freshFrame ∉ s.frames)
    (hd : ¬ (recording && c.function.dangling) = true) :
    ∃ s', s'.frames = s.freshFrame :: s.frames ∧ s'.freshFrame = s.freshFrame + 1 ∧
      opening recording c s = .ok s.freshFrame s' := by
  have hen := (entering_fresh c h).trans (if_neg hd)
  have hat := attachLocals_of_find? (find?_of_top (s := s.withScope c) rfl) c.locals c.localCount
  obtain ⟨hf, hfresh⟩ := frames_of_attachLocals hat
  refine ⟨_, hf.trans (frames_withScope s c), hfresh, ?_⟩
  rw [opening_eq]
  show EStateM.bind _ _ _ = _
  rw [EStateM.bind, hen]
  show EStateM.bind _ _ _ = _
  rw [EStateM.bind, Spec.move_some hat]
  rfl

/-- What opening a scope does to the storage in use. -/
theorem frames_opening (recording : Bool) (c : ScopeCall) (h : s.freshFrame ∉ s.frames) :
    (Result.state (opening recording c s)).frames = s.freshFrame :: s.frames ∧
      (Result.state (opening recording c s)).freshFrame = s.freshFrame + 1 := by
  by_cases hd : (recording && c.function.dangling) = true
  · rw [opening_dangling h hd]
    exact ⟨rfl, rfl⟩
  · obtain ⟨s', hf, hfresh, ho⟩ := opening_shown h hd
    rw [ho]
    exact ⟨hf, hfresh⟩

end CallStack

/-! ## What a body keeps -/

/-- The call does not link the frame anew: if it enters it at all, the frame is active, and the call
is refused. -/
def FrameCall.Spares (id : FrameId) (m : Machine R) (c : FrameCall) : Prop :=
  ∀ fr function args argCount, c = .enter fr function args argCount → fr.find m = some id →
    (m.frames.get id).state = .active

/-- The storage of a scope is still on top of what lay below it, perhaps with more above, or it was
unlinked. -/
def CallStack.Keeps (id : FrameId) (below : List FrameId) (s : CallStack) : Prop :=
  id < s.freshFrame ∧ id ∉ below ∧ ((∃ above, s.frames = above ++ id :: below) ∨ id ∉ s.frames)

namespace CallStack.Keeps

variable {id : FrameId} {below : List FrameId}

theorem settled (h : s.Keeps id below) (hs : Settled s s') : s'.Keeps id below := by
  obtain ⟨hlt, hb, hk⟩ := h
  refine ⟨Nat.lt_of_lt_of_le hlt hs.1, hb, ?_⟩
  rcases hs.2 with he | ⟨i, he⟩
  · rwa [he]
  · rcases hk with ⟨above, ha⟩ | hn
    · cases above with
      | nil =>
        obtain ⟨-, hf⟩ := List.cons.inj (he.symm.trans ha)
        exact .inr (hf ▸ hb)
      | cons j above =>
        obtain ⟨-, hf⟩ := List.cons.inj (he.symm.trans ha)
        exact .inl ⟨above, hf⟩
    · rw [he, List.mem_cons, not_or] at hn
      exact .inr hn.2

theorem linked (h : s.Keeps id below) {i : FrameId} (hi : i ≠ id)
    (hf : s'.frames = i :: s.frames) (hfresh : s.freshFrame ≤ s'.freshFrame) :
    s'.Keeps id below := by
  obtain ⟨hlt, hb, hk⟩ := h
  refine ⟨Nat.lt_of_lt_of_le hlt hfresh, hb, ?_⟩
  rcases hk with ⟨above, ha⟩ | hn
  · exact .inl ⟨i :: above, by rw [hf, ha, List.cons_append]⟩
  · exact .inr (by rw [hf]; exact fun hm => hn ((List.mem_cons.mp hm).resolve_left (Ne.symm hi)))

/-- If the storage of the scope is innermost, what lies below it is what lay there before. -/
theorem frames_of_top (h : s.Keeps id below) (honce : s.frames.Nodup) (ht : s.top = some id) :
    s.frames = id :: below := by
  obtain ⟨-, -, ⟨above, ha⟩ | hn⟩ := h
  · cases above with
    | nil => exact ha
    | cons j above =>
      rw [top, ha] at ht
      obtain rfl : j = id := Option.some.inj ht
      rw [ha, List.cons_append, List.nodup_cons] at honce
      exact absurd (List.mem_append_right _ List.mem_cons_self) honce.1
  · exact absurd (List.mem_of_mem_head? ht) hn

end CallStack.Keeps

/-- **A body keeps what lies below its scope**, unless it links the scope's own frame anew. -/
theorem Program.agree_spared {id : FrameId} {below : List FrameId} (p : Program FrameCall)
    (h : Represents recording m s) (hk : s.Keeps id below)
    (hp : p.Along FrameCall.perform (FrameCall.Spares id) m) :
    Agree (fun m s => Represents recording m s ∧ s.Keeps id below)
      (p.run FrameCall.perform m) (p.onStack recording s) := by
  refine Agree.program ?call ?opening ?close p ⟨h, hk⟩ hp
  case call =>
    intro c m s ⟨h, hk⟩ hc
    refine (c.simulates h).mono fun h' => ⟨h', ?_⟩
    rcases c.onStack_frames recording s with hs |
      ⟨fr, function, args, argCount, i, rfl, hfr, hi, hf, hfresh⟩
    · exact hk.settled hs
    · refine hk.linked ?_ hf (Nat.le_of_eq hfresh.symm)
      rintro rfl
      exact hi ((h.active_iff i).mp (hc _ _ _ _ rfl ((h.find fr).trans hfr)))
  case opening =>
    intro c m s ⟨h, hk⟩
    refine (c.openFrame_simulates h).mono fun h' => ⟨h', ?_⟩
    obtain ⟨hf, hfresh⟩ := CallStack.frames_opening recording c
      fun hm => Nat.lt_irrefl _ (h.setAside _ hm)
    exact hk.linked (Nat.ne_of_gt hk.1) hf (Nat.le_of_lt (hfresh ▸ Nat.lt_succ_self _))
  case close =>
    intro i m s ⟨h, hk⟩
    exact (Chain.leaveScope_simulates i h).mono fun h' =>
      ⟨h', hk.settled (CallStack.settled_close i s)⟩

/-! ## How a scope ends -/

/-- Did the operation abort the machine? -/
def Aborts {σ : Type} : EStateM.Result Stop σ α → Prop
  | .error (.abort _) _ => True
  | _ => False

/-- The body of a scope: a program, and an answer made from what it leaves. -/
def Program.answering (p : Program FrameCall) (answer : Machine R → α) : Run R α := do
  p.run FrameCall.perform
  return answer (← get)

theorem Program.state_answering (p : Program FrameCall) (answer : Machine R → α) (m : Machine R) :
    Result.state (p.answering answer m) = Result.state (p.run FrameCall.perform m) := by
  rw [answering, Run.bind_apply]
  cases p.run FrameCall.perform m <;> rfl

/-- A scope left the chain as it found it, and detached the variables captured from its frame. -/
structure Restored (before : Machine R) (id : FrameId) (body after : Machine R) : Prop where
  chain : after.chain = before.chain
  linked : Chain.linked after = Chain.linked before
  left : (after.frames.get id).state = .exited
  /-- Every variable captured from the frame owns the final value of its slot. -/
  closed : ∀ c ∈ (body.frames.get id).captured, ∃ slot index kind,
    body.captures.get c.id = .shared slot index kind ∧
      after.captures.get c.id = .owned (body.memory.get slot)
  /-- A variable that still shares a slot was captured from a frame that was linked before. -/
  shared : ∀ c, after.captureShared c = true →
    ∃ j ∈ Chain.linked before, c ∈ (after.frames.get j).captured
  memory : after.memory = body.memory

/-- How a scope ends that was entered in a machine and whose body ended as given. -/
structure ScopeEnds (before : Machine R) (id : FrameId)
    (body out : EStateM.Result Stop (Machine R) α) : Prop where
  aborted : Aborts body → out = body
  /-- If the scoped frame is innermost, the scope answers or panics as the body did. -/
  restored : ¬ Aborts body → (Result.state body).chain.current = some id →
    ∃ after, out = Result.leaving body after ∧ Restored before id (Result.state body) after
  /-- In every other case the machine aborts. -/
  broken : ¬ Aborts body → (Result.state body).chain.current ≠ some id →
    ∃ after, out = .error (.abort (.brokenScope (Result.state body).chain.depth)) after

namespace Chain

variable {id : FrameId} {x : Run R α} {after : Machine R}

theorem runScoped_of_aborts (h : Aborts (x m)) : runScoped id x m = x m := by
  unfold runScoped
  cases hx : x m with
  | ok a m' => rw [hx] at h; exact h.elim
  | error e m' =>
    cases e with
    | panic p => rw [hx] at h; exact h.elim
    | abort a => rfl

theorem runScoped_of_left (h : ¬ Aborts (x m))
    (hl : leaveScope id (Result.state (x m)) = .ok () after) :
    runScoped id x m = Result.leaving (x m) after := by
  unfold runScoped
  cases hx : x m with
  | ok a m' =>
    rw [hx] at hl
    simp only [Result.state] at hl
    simp only [seqRight_eq_bind]
    rw [Run.bind_of_ok hl]
    rfl
  | error e m' =>
    cases e with
    | panic p =>
      rw [hx] at hl
      simp only [Result.state] at hl
      simp only [hl]
      rfl
    | abort a => rw [hx] at h; exact absurd trivial h

theorem runScoped_of_abort {a : Abort} (h : ¬ Aborts (x m))
    (hl : leaveScope id (Result.state (x m)) = .error (.abort a) after) :
    runScoped id x m = .error (.abort a) after := by
  unfold runScoped
  cases hx : x m with
  | ok b m' =>
    rw [hx] at hl
    simp only [Result.state] at hl
    simp only [seqRight_eq_bind]
    rw [Run.bind_of_error hl]
  | error e m' =>
    cases e with
    | panic p =>
      rw [hx] at hl
      simp only [Result.state] at hl
      simp only [hl]
    | abort b => rw [hx] at h; exact absurd trivial h

end Chain

/-- Leaving the scoped frame from the top restores the chain below it. -/
theorem Represents.restored {before : Machine R} {s₀ : CallStack} {id : FrameId}
    (h₀ : Represents recording before s₀) (h : Represents recording m s)
    (hf : s.frames = id :: s₀.frames) :
    ∃ after, Chain.leaveScope id m = .ok () after ∧ Restored before id m after := by
  have ht : s.top = some id := by rw [CallStack.top, hf, List.head?_cons]
  obtain ⟨a, rest, ha, rfl⟩ := CallStack.top_eq_some ht
  have hc := h.current.trans ht
  have hs : (m.frames.get a.frame).state = .active :=
    (h.active_iff _).mpr (hf ▸ List.mem_cons_self)
  have hrest : rest.map Activation.frame = s₀.frames := by
    rw [CallStack.frames, ha, List.map_cons] at hf
    exact (List.cons.inj hf).2
  refine ⟨_, (Chain.leaveScope_innermost hc).trans (Chain.exit_innermost hs hc), ?_⟩
  have hl := (h.left ha).noted s!"TRACE frame exit depth={m.chain.depth - 1}"
  have hcurrent := hl.current.trans
    ((congrArg List.head? hrest).trans h₀.current.symm)
  have hdepth : m.chain.depth - 1 = before.chain.depth := by
    rw [h₀.depth, ← List.length_map (f := Activation.frame), ← CallStack.frames, ← hrest,
      List.length_map, h.depth, ha]
    rfl
  have hlinked : Chain.linked before = s₀.frames := h₀.linkedFrom (Nat.le_refl _)
  constructor
  case chain =>
    show (m.left a.frame).chain = before.chain
    rw [show before.chain = ⟨before.chain.current, before.chain.depth⟩ from rfl, ← hcurrent, ← hdepth]
    rfl
  case linked =>
    rw [hlinked, ← hrest]
    exact hl.linkedFrom (Nat.le_refl _)
  case left =>
    show ((m.left a.frame).frames.get a.frame).state = .exited
    rw [Machine.frames_left, Store.get_set_self]
  case closed =>
    intro c hcap
    have hcs := (h.stored a (ha ▸ List.mem_cons_self)).captured
    have hmem : m.sharedSlot? c ∈ a.captured.map some := hcs ▸ List.mem_map_of_mem hcap
    obtain ⟨⟨index, kind⟩, -, hx⟩ := List.mem_map.mp hmem
    unfold Machine.sharedSlot? at hx
    split at hx
    · rename_i slot i k hcell
      refine ⟨slot, i, k, hcell, ?_⟩
      show (m.left a.frame).captures.get c.id = _
      rw [Machine.captures_left, if_pos hcap, Machine.captureValue, hcell]
    · exact absurd hx (by simp)
  case shared =>
    intro c hc
    rw [← Machine.isSome_sharedSlot?] at hc
    obtain ⟨j, hj, hcap⟩ := hl.found c hc
    exact ⟨j, hlinked ▸ hrest ▸ hj, hcap⟩
  case memory =>
    show (m.left a.frame).memory = m.memory
    exact m.memory_left a.frame

/-- Opening a scope that can be recorded links its frame on top. -/
theorem ScopeCall.openFrame_shown (c : ScopeCall) (h : Represents recording m s)
    (hd : ¬ (recording && c.function.dangling) = true) :
    ∃ opened s', c.openFrame m = .ok m.freshFrame opened ∧ Represents recording opened s' ∧
      s'.frames = m.freshFrame :: s.frames ∧ s'.freshFrame = m.freshFrame + 1 := by
  have hfresh : s.freshFrame ∉ s.frames := fun hm => Nat.lt_irrefl _ (h.setAside _ hm)
  obtain ⟨s', hf, hn, ho⟩ := CallStack.opening_shown hfresh hd
  have ha := c.openFrame_simulates h
  rw [ho] at ha
  rw [h.freshFrame]
  cases hm : c.openFrame m with
  | ok id opened =>
    rw [hm] at ha
    obtain ⟨rfl, hr⟩ := ha
    exact ⟨opened, s', rfl, hr, hf, hn⟩
  | error e opened => rw [hm] at ha; exact ha.elim

/-- Opening one that cannot panics, with the frame linked. -/
theorem ScopeCall.openFrame_dangling (c : ScopeCall) (h : Represents recording m s)
    (hd : (recording && c.function.dangling) = true) :
    ∃ e opened, c.openFrame m = .error (.panic e) opened ∧
      opened.chain = { current := some m.freshFrame, depth := m.chain.depth + 1 } := by
  have hfresh : s.freshFrame ∉ s.frames := fun hm => Nat.lt_irrefl _ (h.setAside _ hm)
  have ha := c.openFrame_simulates h
  rw [CallStack.opening_dangling hfresh hd] at ha
  cases hm : c.openFrame m with
  | ok id opened => rw [hm] at ha; exact ha.elim
  | error e opened =>
    rw [hm] at ha
    obtain ⟨he, hr⟩ := ha
    cases e with
    | abort a => exact absurd he (by simp [Stop.ending])
    | panic p =>
      refine ⟨p, opened, rfl, ?_⟩
      have hc := hr.current
      have hdepth := hr.depth
      rw [CallStack.top, CallStack.frames_withScope, List.head?_cons, ← h.freshFrame] at hc
      show opened.chain = _
      rw [show opened.chain = ⟨opened.chain.current, opened.chain.depth⟩ from rfl, hc, hdepth,
        h.depth]
      rfl

theorem Machine.Reachable.represents (h : m.Reachable) :
    ∃ s, Represents m.journal.isSome m s := by
  obtain ⟨start, hrest, p, rfl⟩ := h
  have hr := (p.simulates hrest.represents).rel
  exact ⟨_, hr.recording ▸ hr⟩

/-- **Scopes restore the chain.** Whatever program runs in a scope, if it does not link the scoped
frame anew: when the scoped frame is innermost in the end, the scope ends as the program did, with
the chain it found and every variable captured from its frame detached; and in every other case the
machine aborts. The one exception is a function that cannot be recorded, while events are: then the
scope panics with its frame still linked. -/
theorem scope_restores_chain (m : Machine R) (hm : m.Reachable) (c : ScopeCall)
    (p : Program FrameCall) (answer : Machine R → α) :
    if m.journal.isSome ∧ c.function.dangling then
      ∃ e after, c.around (p.answering answer) m = .error (.panic e) after ∧
        after.chain = { current := some m.freshFrame, depth := m.chain.depth + 1 }
    else
      p.Along FrameCall.perform (FrameCall.Spares m.freshFrame) (Result.state (c.openFrame m)) →
        ScopeEnds m m.freshFrame (p.answering answer (Result.state (c.openFrame m)))
          (c.around (p.answering answer) m) := by
  obtain ⟨s, h⟩ := hm.represents
  split
  · rename_i hd
    obtain ⟨e, after, ho, hc⟩ := c.openFrame_dangling h (by simpa using hd)
    refine ⟨e, after, ?_, hc⟩
    rw [ScopeCall.around_eq, Run.bind_of_error ho]
  · rename_i hd
    obtain ⟨opened, s₁, ho, h₁, hf, hn⟩ := c.openFrame_shown h (by simpa using hd)
    rw [ho]
    intro hp
    have hk : s₁.Keeps m.freshFrame s.frames := by
      refine ⟨hn ▸ Nat.lt_succ_self _, fun hmem => ?_, .inl ⟨[], hf⟩⟩
      exact Nat.lt_irrefl _ (h.freshFrame ▸ h.setAside _ hmem)
    obtain ⟨h₂, hk₂⟩ := (p.agree_spared h₁ hk hp).rel
    have hout : c.around (p.answering answer) m =
        Chain.runScoped m.freshFrame (p.answering answer) opened := by
      rw [ScopeCall.around_eq, Run.bind_of_ok ho]
    rw [hout]
    constructor
    case aborted => exact Chain.runScoped_of_aborts
    case restored =>
      intro ha hc
      rw [Result.state, p.state_answering answer opened] at hc ⊢
      obtain ⟨after, hl, hr⟩ :=
        h.restored h₂ (hk₂.frames_of_top h₂.once (h₂.current.symm.trans hc))
      refine ⟨after, Chain.runScoped_of_left ha ?_, hr⟩
      rw [p.state_answering answer opened, hl]
    case broken =>
      intro ha hc
      exact ⟨_, Chain.runScoped_of_abort ha (Chain.leaveScope_broken hc)⟩

/-- A reference to an object at address zero. -/
def Value.nullObject : Value := ⟨0xfff9000000000000⟩

/-- A body that captures an argument of its scope, runs another scope, and panics. -/
def Program.panicking : Program FrameCall :=
  .seq (.call (.captureCurrent 0 .argument)) <|
    .seq (.scope { function := .null } (.call (.poke 8 .null))) <|
      .stop (.panic (.message "out of luck"))

theorem scope_restores_chain_panicking :
    Machine.Reachable ({ runtime := () } : Machine Unit) ∧
    ScopeEnds ({ runtime := () } : Machine Unit) 1
      (Program.panicking.answering (fun _ => ())
        (Result.state (ScopeCall.openFrame { function := .null, args := 8, argCount := 1 }
          ({ runtime := () } : Machine Unit))))
      (ScopeCall.around { function := .null, args := 8, argCount := 1 }
        (Program.panicking.answering fun _ => ()) { runtime := () }) ∧
    Machine.Reachable ({ runtime := (), journal := some [] } : Machine Unit) ∧
    ∃ e after, ScopeCall.around { function := .nullObject } (Program.done.answering fun _ => ())
        ({ runtime := (), journal := some [] } : Machine Unit) = .error (.panic e) after ∧
      after.chain = { current := some 1, depth := 1 } := by
  have hidle : ∀ id, ((.const {} : Store Frame).get id).state ≠ .active := fun _ =>
    (by decide : FrameState.unlinked ≠ .active)
  have hm : Machine.Reachable ({ runtime := () } : Machine Unit) :=
    ⟨{ runtime := () }, ⟨rfl, hidle, fun _ => rfl⟩, .done, rfl⟩
  have hn : Machine.Reachable ({ runtime := (), journal := some [] } : Machine Unit) :=
    ⟨{ runtime := (), journal := some [] }, ⟨rfl, hidle, fun _ => rfl⟩, .done, rfl⟩
  refine ⟨hm, ?_, hn, ?_⟩
  · have h := scope_restores_chain _ hm { function := .null, args := 8, argCount := 1 }
      Program.panicking fun _ => ()
    rw [if_neg (by decide)] at h
    exact h ⟨nofun, fun _ _ => ⟨fun _ _ _ => nofun, fun _ _ => trivial⟩⟩
  · have h := scope_restores_chain _ hn { function := .nullObject } .done fun _ => ()
    rwa [if_pos (by decide)] at h

end TieredVm
