import Mathlib.Data.List.Nodup
import TieredVm.Proofs.Frame.Simulation

/-!
# The chain represents the stack

`Represents m s` is the invariant that ties the linked frames of a machine to a stack of
activations: following `below` from the innermost frame gives the storage of the activations in
order and ends there (`Chain.Path`), the counter is their number, no storage occurs twice, the active
frames are exactly these, and each stores its activation. The variables captured from a frame share
its slots in the order the stack remembers, and no variable is captured from two frames.

What every transition keeps of it:

* `Represents.keep`: what leaves the frames alone and moves no captured variable
  (`Machine.FramesKept`);
* `Represents.update`: what changes one linked frame where it lies;
* `Represents.entered`, `Represents.left`: pushing and popping;
* `Represents.attached`, `Represents.captured` and their like: each transition by itself.

`Represents.resolve` finds the activation of the frame that a call is made on.
-/

namespace TieredVm

variable {R : Type}

/-! ## Paths -/

namespace Chain

/-- Following `below` from `start` meets exactly the listed frames and ends. -/
def Path (frames : Store Frame) : Option FrameId → List FrameId → Prop
  | none, [] => True
  | some id, i :: rest => id = i ∧ Path frames (frames.get id).below rest
  | _, _ => False

theorem Path.start {frames : Store Frame} {start : Option FrameId} {l : List FrameId}
    (h : Path frames start l) : start = l.head? := by
  cases start <;> cases l <;> simp_all [Path]

theorem Path.set_of_not_mem {frames : Store Frame} {id : FrameId} (f : Frame) :
    ∀ {l : List FrameId} {start : Option FrameId}, id ∉ l → Path frames start l →
      Path (frames.set id f) start l
  | [], none, _, _ => trivial
  | [], some _, _, h => h
  | _ :: _, none, _, h => h
  | i :: rest, some j, hn, h => by
    obtain ⟨rfl, h⟩ := h
    rw [List.mem_cons, not_or] at hn
    refine ⟨rfl, ?_⟩
    rw [Store.get_set_ne _ _ (Ne.symm hn.1)]
    exact Path.set_of_not_mem f hn.2 h

theorem Path.set_of_below {frames : Store Frame} {id : FrameId} {f : Frame}
    (hf : f.below = (frames.get id).below) :
    ∀ {l : List FrameId} {start : Option FrameId}, Path frames start l →
      Path (frames.set id f) start l
  | [], none, _ => trivial
  | [], some _, h => h
  | _ :: _, none, h => h
  | i :: rest, some j, h => by
    obtain ⟨rfl, h⟩ := h
    refine ⟨rfl, ?_⟩
    have hb : ((frames.set id f).get j).below = (frames.get j).below := by
      rw [Store.get_set]
      by_cases hj : j = id
      · rw [if_pos hj, hf, hj]
      · rw [if_neg hj]
    rw [hb]
    exact Path.set_of_below hf h

/-- A walk that is not stopped early meets the frames of the path and ends with them. -/
theorem linkedFrom_of_path {frames : Store Frame} :
    ∀ {l : List FrameId} {start : Option FrameId} {fuel : Nat}, Path frames start l →
      l.length ≤ fuel → linkedFrom frames fuel start = l
  | [], none, fuel, _, _ => by cases fuel <;> rfl
  | [], some _, _, h, _ => h.elim
  | _ :: _, none, _, h, _ => h.elim
  | i :: rest, some j, 0, _, hl => absurd hl (by simp)
  | i :: rest, some j, fuel + 1, h, hl => by
    obtain ⟨rfl, h⟩ := h
    rw [linkedFrom, linkedFrom_of_path h (by simpa using hl)]

end Chain

/-! ## The invariant -/

/-- The slot a captured variable shares with a frame. -/
def Machine.sharedSlot? (m : Machine R) (c : Capture) : Option (Nat × SlotKind) :=
  match m.captures.get c.id with
  | .shared _ index kind => some (index, kind)
  | .owned _ => none

theorem Machine.sharesSlot_iff (m : Machine R) (index : Nat) (kind : SlotKind) (c : Capture) :
    m.sharesSlot index kind c = true ↔ m.sharedSlot? c = some (index, kind) := by
  unfold sharesSlot sharedSlot?
  cases m.captures.get c.id <;> simp

theorem Machine.isSome_sharedSlot? (m : Machine R) (c : Capture) :
    (m.sharedSlot? c).isSome = m.captureShared c := by
  unfold sharedSlot? captureShared
  cases m.captures.get c.id <;> rfl

/-- The variables captured from a frame share its slots no more once it is left. -/
theorem Machine.sharedSlot?_left (m : Machine R) (id : FrameId) (c : Capture) :
    (m.left id).sharedSlot? c =
      if c ∈ (m.frames.get id).captured then none else m.sharedSlot? c := by
  unfold sharedSlot?
  rw [captures_left]
  by_cases hc : c ∈ (m.frames.get id).captured
  · rw [if_pos hc, if_pos hc]
  · rw [if_neg hc, if_neg hc]

/-- A machine stores an activation in its frame. -/
structure Activation.Stored (a : Activation) (m : Machine R) : Prop where
  function : (m.frames.get a.frame).function = a.function
  args : (m.frames.get a.frame).args = a.args
  argCount : (m.frames.get a.frame).argCount = a.argCount
  locals : (m.frames.get a.frame).locals = a.locals
  localCount : (m.frames.get a.frame).localCount = a.localCount
  pc : (m.frames.get a.frame).pc = a.pc
  captured : (m.frames.get a.frame).captured.map m.sharedSlot? = a.captured.map some

/-- A machine that leaves a frame and the variables captured from it alone still stores it. -/
theorem Activation.Stored.of_frame {a : Activation} {m m' : Machine R} (h : a.Stored m)
    (hf : m'.frames.get a.frame = m.frames.get a.frame)
    (hslots : ∀ c ∈ (m.frames.get a.frame).captured, m'.sharedSlot? c = m.sharedSlot? c) :
    a.Stored m' := by
  constructor <;> rw [hf]
  · exact h.function
  · exact h.args
  · exact h.argCount
  · exact h.locals
  · exact h.localCount
  · exact h.pc
  · rw [← h.captured]
    exact List.map_congr_left hslots

/-! ## Frames that are left alone -/

/-- The frames are as they were, and every captured variable shares what it shared. -/
structure Machine.FramesKept (m m' : Machine R) : Prop where
  chain : m'.chain = m.chain
  frames : m'.frames = m.frames
  freshFrame : m'.freshFrame = m.freshFrame
  freshCapture : m.freshCapture ≤ m'.freshCapture
  recording : m'.journal.isSome = m.journal.isSome
  slots : ∀ c, m'.sharedSlot? c = m.sharedSlot? c

namespace Machine.FramesKept

theorem refl (m : Machine R) : m.FramesKept m := ⟨rfl, rfl, rfl, Nat.le_refl _, rfl, fun _ => rfl⟩

theorem trans {m m' n : Machine R} (h : m.FramesKept m') (h' : m'.FramesKept n) : m.FramesKept n where
  chain := h'.chain.trans h.chain
  frames := h'.frames.trans h.frames
  freshFrame := h'.freshFrame.trans h.freshFrame
  freshCapture := Nat.le_trans h.freshCapture h'.freshCapture
  recording := h'.recording.trans h.recording
  slots c := (h'.slots c).trans (h.slots c)

theorem noted (m : Machine R) (line : String) : m.FramesKept (m.noted line) :=
  ⟨rfl, rfl, rfl, Nat.le_refl _, by simp [Machine.noted], fun _ => rfl⟩

theorem written (m : Machine R) (slot : Address) (v : Value) : m.FramesKept (m.written slot v) :=
  ⟨rfl, rfl, rfl, Nat.le_refl _, rfl, fun _ => rfl⟩

theorem setCapture (m : Machine R) (c : Capture) (v : Value) : m.FramesKept (m.setCapture c v) := by
  unfold Machine.setCapture
  split
  · exact ⟨rfl, rfl, rfl, Nat.le_refl _, rfl, fun _ => rfl⟩
  · rename_i hc
    refine ⟨rfl, rfl, rfl, Nat.le_refl _, rfl, fun d => ?_⟩
    unfold Machine.sharedSlot?
    by_cases hd : d.id = c.id
    · simp [hd, hc]
    · rw [Store.get_set_ne _ _ hd]

/-- A further variable that owns its value. -/
theorem addedCapture (m : Machine R) (v : Value)
    (hfresh : ∀ c : Capture, m.freshCapture ≤ c.id → m.sharedSlot? c = none) :
    m.FramesKept (m.addedCapture (.owned v)) := by
  refine ⟨rfl, rfl, rfl, Nat.le_succ _, rfl, fun c => ?_⟩
  by_cases hc : c.id = m.freshCapture
  · rw [hfresh c (Nat.le_of_eq hc.symm)]
    simp [Machine.sharedSlot?, Machine.addedCapture, hc]
  · unfold Machine.sharedSlot? Machine.addedCapture
    rw [Store.get_set_ne _ _ hc]

end Machine.FramesKept

/-! ## The representation -/

/-- The linked frames of a machine are the activations of a stack. -/
structure Represents (recording : Bool) (m : Machine R) (s : CallStack) : Prop where
  path : Chain.Path m.frames m.chain.current s.frames
  depth : m.chain.depth = s.linked.length
  once : s.frames.Nodup
  active_iff : ∀ id, (m.frames.get id).state = .active ↔ id ∈ s.frames
  stored : ∀ a ∈ s.linked, a.Stored m
  freshFrame : m.freshFrame = s.freshFrame
  setAside : ∀ id ∈ s.frames, id < s.freshFrame
  /-- The variables captured from linked frames were handed out. -/
  handedOut : ∀ id ∈ s.frames, ∀ c ∈ (m.frames.get id).captured, c.id < m.freshCapture
  /-- No variable is captured from two frames. -/
  apart : ∀ id ∈ s.frames, ∀ j ∈ s.frames, ∀ c ∈ (m.frames.get id).captured,
    c ∈ (m.frames.get j).captured → id = j
  /-- A variable that shares a slot was captured from a linked frame. -/
  found : ∀ c, (m.sharedSlot? c).isSome → ∃ id ∈ s.frames, c ∈ (m.frames.get id).captured
  recording : m.journal.isSome = recording

namespace Represents

variable {recording : Bool} {m m' : Machine R} {s : CallStack}

/-! ## What it says at once -/

theorem current (h : Represents recording m s) : m.chain.current = s.top := h.path.start

/-- Two activations in the same storage are the same. -/
theorem eq_of_frame (h : Represents recording m s) {a b : Activation} (ha : a ∈ s.linked)
    (hb : b ∈ s.linked) (hab : b.frame = a.frame) : b = a :=
  List.inj_on_of_nodup_map h.once hb ha hab

/-- A frame that a call is made on is that of an activation, or the call is refused. -/
theorem resolve (h : Represents recording m s) (frame : Option FrameId) :
    (¬ m.Linked frame ∧ frame.bind s.find? = none) ∨
      ∃ a ∈ s.linked, frame = some a.frame ∧ s.find? a.frame = some a ∧
        (m.frames.get a.frame).state = .active := by
  by_cases hl : m.Linked frame
  · obtain ⟨id, rfl, hs⟩ := hl
    obtain ⟨a, hf⟩ := CallStack.exists_find? ((h.active_iff id).mp hs)
    obtain ⟨ha, rfl⟩ := CallStack.find?_some hf
    exact .inr ⟨a, ha, rfl, hf, hs⟩
  · refine .inl ⟨hl, ?_⟩
    cases frame with
    | none => rfl
    | some id =>
      exact CallStack.find?_eq_none.mpr fun hid => hl ⟨id, rfl, (h.active_iff id).mpr hid⟩

theorem find (h : Represents recording m s) (fr : FrameRef) : fr.find m = fr.findOn s := by
  cases fr with
  | null => rfl
  | owned id => simp only [FrameRef.find, FrameRef.findOn, h.freshFrame]
  | current => exact h.current

/-- The frame of an activation is active. -/
theorem active (h : Represents recording m s) {a : Activation} (ha : a ∈ s.linked) :
    (m.frames.get a.frame).state = .active :=
  (h.active_iff _).mpr (CallStack.mem_frames.mpr ⟨a, ha, rfl⟩)

/-- A frame already shares the slot with a variable iff the stack remembers the capture. -/
theorem captured?_eq_none_iff (h : Represents recording m s) {a : Activation} (ha : a ∈ s.linked)
    (index : Nat) (kind : SlotKind) :
    Chain.captured? m a.frame index kind = none ↔ (index, kind) ∉ a.captured := by
  have hc := (h.stored a ha).captured
  unfold Chain.captured?
  rw [List.find?_eq_none]
  constructor
  · intro hn hmem
    have : some (index, kind) ∈ (m.frames.get a.frame).captured.map m.sharedSlot? := by
      rw [hc]
      exact List.mem_map_of_mem hmem
    obtain ⟨c, hcm, hs⟩ := List.mem_map.mp this
    exact hn c hcm ((m.sharesSlot_iff index kind c).mpr hs)
  · intro hn c hcm hs
    have : m.sharedSlot? c ∈ a.captured.map some := by
      rw [← hc]
      exact List.mem_map_of_mem hcm
    rw [(m.sharesSlot_iff index kind c).mp hs] at this
    obtain ⟨x, hx, he⟩ := List.mem_map.mp this
    exact hn (Option.some.inj he ▸ hx)

theorem count (h : Represents recording m s) {a : Activation} (ha : a ∈ s.linked)
    (kind : SlotKind) : (m.frames.get a.frame).count kind = a.count kind := by
  cases kind
  · exact (h.stored a ha).argCount
  · exact (h.stored a ha).localCount

theorem base (h : Represents recording m s) {a : Activation} (ha : a ∈ s.linked)
    (kind : SlotKind) : (m.frames.get a.frame).base kind = a.base kind := by
  cases kind
  · exact (h.stored a ha).args
  · exact (h.stored a ha).locals

/-- A variable yet to be handed out shares no slot. -/
theorem sharedSlot?_fresh (h : Represents recording m s) {c : Capture}
    (hc : m.freshCapture ≤ c.id) : m.sharedSlot? c = none := by
  cases hs : m.sharedSlot? c with
  | none => rfl
  | some x =>
    obtain ⟨id, hid, hmem⟩ := h.found c (by rw [hs]; rfl)
    exact absurd (h.handedOut id hid c hmem) (by omega)

/-! ## What keeps it -/

/-- Whatever leaves chain and frames alone, and what the captured variables share. -/
theorem keep (h : Represents recording m s) (hchain : m'.chain = m.chain)
    (hframes : m'.frames = m.frames) (hfresh : m'.freshFrame = m.freshFrame)
    (hcap : m.freshCapture ≤ m'.freshCapture) (hrec : m'.journal.isSome = m.journal.isSome)
    (hslots : ∀ c, m'.sharedSlot? c = m.sharedSlot? c) : Represents recording m' s where
  path := by rw [hchain, hframes]; exact h.path
  depth := by rw [hchain]; exact h.depth
  once := h.once
  active_iff := by rw [hframes]; exact h.active_iff
  stored a ha := (h.stored a ha).of_frame (by rw [hframes]) fun c _ => hslots c
  freshFrame := by rw [hfresh]; exact h.freshFrame
  setAside := h.setAside
  handedOut := by
    rw [hframes]
    exact fun id hid c hc => Nat.lt_of_lt_of_le (h.handedOut id hid c hc) hcap
  apart := by rw [hframes]; exact h.apart
  found c := by rw [hslots, hframes]; exact h.found c
  recording := by rw [hrec]; exact h.recording

theorem framesKept (h : Represents recording m s) (hk : m.FramesKept m') :
    Represents recording m' s :=
  h.keep hk.chain hk.frames hk.freshFrame hk.freshCapture hk.recording hk.slots

theorem noted (h : Represents recording m s) (line : String) :
    Represents recording (m.noted line) s := h.framesKept (.noted m line)

/-- Changing one linked frame where it lies, and its activation with it. -/
theorem update (h : Represents recording m s) {a : Activation} (ha : a ∈ s.linked) {f : Frame}
    {g : Activation → Activation} (hchain : m'.chain = m.chain)
    (hframes : m'.frames = m.frames.set a.frame f) (hfresh : m'.freshFrame = m.freshFrame)
    (hcap : m.freshCapture ≤ m'.freshCapture) (hrec : m'.journal.isSome = m.journal.isSome)
    (hbelow : f.below = (m.frames.get a.frame).below) (hstate : f.state = .active)
    (hg : ∀ b, (g b).frame = b.frame) (hstored : ∀ b ∈ s.linked, b.frame = a.frame → (g b).Stored m')
    (hslots : ∀ c, c.id < m.freshCapture → m'.sharedSlot? c = m.sharedSlot? c)
    (hshares : ∀ c, m.freshCapture ≤ c.id → (m'.sharedSlot? c).isSome → c ∈ f.captured)
    (hold : ∀ c ∈ (m.frames.get a.frame).captured, c ∈ f.captured)
    (hnew : ∀ c ∈ f.captured, c ∈ (m.frames.get a.frame).captured ∨
      (m.freshCapture ≤ c.id ∧ c.id < m'.freshCapture)) :
    Represents recording m' (s.update a.frame g) := by
  have hget : ∀ id, id ≠ a.frame → m'.frames.get id = m.frames.get id := fun id hid => by
    rw [hframes, Store.get_set_ne _ _ hid]
  have hself : m'.frames.get a.frame = f := by rw [hframes, Store.get_set_self]
  have hmem : a.frame ∈ s.frames := CallStack.mem_frames.mpr ⟨a, ha, rfl⟩
  have hfr : (s.update a.frame g).frames = s.frames := s.frames_update _ hg
  constructor
  case path =>
    rw [hfr, hchain, hframes]
    exact h.path.set_of_below hbelow
  case depth => rw [hchain, CallStack.length_update]; exact h.depth
  case once => rw [hfr]; exact h.once
  case active_iff =>
    intro id
    rw [hfr, ← h.active_iff]
    by_cases hid : id = a.frame
    · rw [hid, hself, hstate]
      simp [(h.active_iff a.frame).mpr hmem]
    · rw [hget id hid]
  case stored =>
    intro b hb
    obtain ⟨c, hc, rfl⟩ := CallStack.mem_update.mp hb
    by_cases hca : c.frame = a.frame
    · rw [if_pos hca]
      exact hstored c hc hca
    · rw [if_neg hca]
      have hcm : c.frame ∈ s.frames := CallStack.mem_frames.mpr ⟨c, hc, rfl⟩
      exact (h.stored c hc).of_frame (hget _ hca) fun d hd => hslots d (h.handedOut _ hcm d hd)
  case freshFrame => rw [hfresh]; exact h.freshFrame
  case setAside => rw [hfr]; exact h.setAside
  case handedOut =>
    rw [hfr]
    intro id hid c hc
    by_cases hia : id = a.frame
    · rw [hia, hself] at hc
      rcases hnew c hc with hc | hc
      · exact Nat.lt_of_lt_of_le (h.handedOut _ hmem c hc) hcap
      · exact hc.2
    · rw [hget id hia] at hc
      exact Nat.lt_of_lt_of_le (h.handedOut id hid c hc) hcap
  case apart =>
    rw [hfr]
    intro id hid j hj c hc hd
    -- A variable of the changed frame is an old one of it, or was handed out to no other frame.
    have hback : ∀ k ∈ s.frames, k ≠ a.frame → c ∈ (m.frames.get k).captured → c ∈ f.captured →
        c ∈ (m.frames.get a.frame).captured := fun k hk _ hck hcf => by
      rcases hnew c hcf with hc | hc
      · exact hc
      · exact absurd (h.handedOut k hk c hck) (by omega)
    by_cases hia : id = a.frame <;> by_cases hja : j = a.frame
    · rw [hia, hja]
    · rw [hia, hself] at hc
      rw [hget j hja] at hd
      rw [hia]
      exact h.apart _ hmem j hj c (hback j hj hja hd hc) hd
    · rw [hja, hself] at hd
      rw [hget id hia] at hc
      rw [hja]
      exact h.apart id hid _ hmem c hc (hback id hid hia hc hd)
    · rw [hget id hia] at hc
      rw [hget j hja] at hd
      exact h.apart id hid j hj c hc hd
  case found =>
    rw [hfr]
    intro c hc
    by_cases hlt : c.id < m.freshCapture
    · rw [hslots c hlt] at hc
      obtain ⟨id, hid, hcm⟩ := h.found c hc
      refine ⟨id, hid, ?_⟩
      by_cases hia : id = a.frame
      · rw [hia, hself]
        exact hold c (hia ▸ hcm)
      · rwa [hget id hia]
    · refine ⟨a.frame, hmem, ?_⟩
      rw [hself]
      exact hshares c (Nat.le_of_not_lt hlt) hc
  case recording => rw [hrec]; exact h.recording

/-- Changing one linked frame and no captured variable. -/
theorem put (h : Represents recording m s) {a : Activation} (ha : a ∈ s.linked) {f : Frame}
    {g : Activation → Activation} (hbelow : f.below = (m.frames.get a.frame).below)
    (hstate : f.state = .active) (hcaptured : f.captured = (m.frames.get a.frame).captured)
    (hg : ∀ b, (g b).frame = b.frame)
    (hstored : ∀ b ∈ s.linked, b.frame = a.frame → (g b).Stored (m.putFrame a.frame f)) :
    Represents recording (m.putFrame a.frame f) (s.update a.frame g) :=
  h.update ha rfl rfl rfl (Nat.le_refl _) rfl hbelow hstate hg hstored (fun _ _ => rfl)
    (fun _ hc hs => by
      have hn := h.sharedSlot?_fresh hc
      unfold Machine.sharedSlot? Machine.putFrame at *
      simp_all)
    (fun _ hc => hcaptured ▸ hc) fun _ hc => .inl (hcaptured ▸ hc)

/-! ## Each transition -/

theorem newFrame (h : Represents recording m s) :
    Represents recording { m with freshFrame := m.freshFrame + 1 } s.newFrame where
  path := h.path
  depth := h.depth
  once := h.once
  active_iff := h.active_iff
  stored a ha := (h.stored a ha).of_frame rfl fun _ _ => rfl
  freshFrame := congrArg (· + 1) h.freshFrame
  setAside id hid := Nat.lt_succ_of_lt (h.setAside id hid)
  handedOut := h.handedOut
  apart := h.apart
  found := h.found
  recording := h.recording

theorem attached (h : Represents recording m s) {a : Activation} (ha : a ∈ s.linked)
    (locals : Address) (count : Nat) :
    Represents recording (m.putFrame a.frame { m.frames.get a.frame with locals, localCount := count })
      (s.update a.frame fun a => { a with locals, localCount := count, attached := true }) := by
  refine h.put ha rfl (h.active ha) rfl (fun _ => rfl) fun b hb hba => ?_
  obtain rfl := h.eq_of_frame ha hb hba
  have hs := h.stored b hb
  constructor <;> simp only [Machine.putFrame, Store.get_set_self]
  · exact hs.function
  · exact hs.args
  · exact hs.argCount
  · exact hs.pc
  · exact hs.captured

theorem moved (h : Represents recording m s) {a : Activation} (ha : a ∈ s.linked) (pc : Nat) :
    Represents recording (m.putFrame a.frame { m.frames.get a.frame with pc := some pc })
      (s.update a.frame fun a => { a with pc := some pc }) := by
  refine h.put ha rfl (h.active ha) rfl (fun _ => rfl) fun b hb hba => ?_
  obtain rfl := h.eq_of_frame ha hb hba
  have hs := h.stored b hb
  constructor <;> simp only [Machine.putFrame, Store.get_set_self]
  · exact hs.function
  · exact hs.args
  · exact hs.argCount
  · exact hs.locals
  · exact hs.localCount
  · exact hs.captured

/-- A frame that already shares the slot answers the variable it shares it with. -/
theorem capture_again (h : Represents recording m s) {a : Activation} (ha : a ∈ s.linked)
    {index : Nat} {kind : SlotKind} (hc : (index, kind) ∈ a.captured) :
    ∃ c, Chain.captured? m a.frame index kind = some c := by
  cases hq : Chain.captured? m a.frame index kind with
  | none => exact absurd hc ((h.captured?_eq_none_iff ha index kind).mp hq)
  | some c => exact ⟨c, rfl⟩

/-- A new variable captured from a linked frame. -/
theorem captured (h : Represents recording m s) {a : Activation} (ha : a ∈ s.linked)
    (slot : Address) (index : Nat) (kind : SlotKind) :
    Represents recording
      ((m.addedCapture (.shared slot index kind)).putFrame a.frame
        { m.frames.get a.frame with
          captured := (m.frames.get a.frame).captured ++ [⟨m.freshCapture⟩] })
      (s.update a.frame fun a => { a with captured := a.captured ++ [(index, kind)] }) := by
  have hslots : ∀ c : Capture, c.id ≠ m.freshCapture →
      (m.addedCapture (.shared slot index kind)).sharedSlot? c = m.sharedSlot? c := fun c hc => by
    unfold Machine.sharedSlot? Machine.addedCapture
    rw [Store.get_set_ne _ _ hc]
  refine h.update ha rfl rfl rfl (Nat.le_succ _) rfl rfl (h.active ha)
    (fun _ => rfl) ?stored (fun c hc => hslots c (Nat.ne_of_lt hc)) ?shares
    (fun c hc => List.mem_append_left _ hc) ?new
  case stored =>
    intro b hb hba
    obtain rfl := h.eq_of_frame ha hb hba
    have hs := h.stored b hb
    constructor <;> simp only [Machine.putFrame, Store.get_set_self]
    · exact hs.function
    · exact hs.args
    · exact hs.argCount
    · exact hs.locals
    · exact hs.localCount
    · exact hs.pc
    · rw [List.map_append, List.map_append, ← hs.captured]
      congr 1
      · exact List.map_congr_left fun c hc =>
          hslots c (Nat.ne_of_lt (h.handedOut _ (CallStack.mem_frames.mpr ⟨b, hb, rfl⟩) c hc))
      · simp [Machine.sharedSlot?, Machine.addedCapture]
  case shares =>
    intro c hc hs
    by_cases he : c.id = m.freshCapture
    · rw [← he]
      exact List.mem_append_right _ (List.mem_singleton_self c)
    · have hn := (hslots c he).trans (h.sharedSlot?_fresh hc)
      exact absurd (hn ▸ hs : (none : Option (Nat × SlotKind)).isSome) (by simp)
  case new =>
    intro c hc
    rcases List.mem_append.mp hc with hc | hc
    · exact .inl hc
    · obtain rfl := List.mem_singleton.mp hc
      exact .inr ⟨Nat.le_refl _, Nat.lt_succ_self _⟩

/-- Writing through a handle moves no variable. -/
theorem setCapture (h : Represents recording m s) (c : Capture) (v : Value) :
    Represents recording (m.setCapture c v) s := h.framesKept (.setCapture m c v)

theorem addedCapture (h : Represents recording m s) (v : Value) :
    Represents recording (m.addedCapture (.owned v)) s :=
  h.framesKept (.addedCapture m v fun _ => h.sharedSlot?_fresh)

theorem written (h : Represents recording m s) (slot : Address) (v : Value) :
    Represents recording (m.written slot v) s := h.framesKept (.written m slot v)

/-! ## Pushing and popping -/

/-- Linking a frame that is not linked pushes an activation. -/
theorem entered (h : Represents recording m s) {id : FrameId} (hid : id ∉ s.frames)
    (hfresh : id < s.freshFrame) (function : Value) (args : Address) (argCount : Nat) :
    Represents recording (m.entered id function args argCount)
      (s.pushed id function args argCount) := by
  have hget : ∀ j, j ∈ s.frames →
      (m.entered id function args argCount).frames.get j = m.frames.get j := fun j hj =>
    Store.get_set_ne _ _ fun he => hid (he ▸ hj)
  have hself : (m.entered id function args argCount).frames.get id =
      { below := m.chain.current, function, args, argCount, state := .active } :=
    Store.get_set_self ..
  constructor
  case path =>
    refine ⟨rfl, ?_⟩
    rw [hself]
    exact h.path.set_of_not_mem _ hid
  case depth => exact congrArg (· + 1) h.depth
  case once => exact List.nodup_cons.mpr ⟨hid, h.once⟩
  case active_iff =>
    intro j
    show _ ↔ j ∈ id :: s.frames
    rw [List.mem_cons]
    by_cases hj : j = id
    · rw [hj, hself]
      simp
    · rw [show (m.entered id function args argCount).frames.get j = m.frames.get j from
        Store.get_set_ne _ _ hj, h.active_iff]
      simp [hj]
  case stored =>
    intro a ha
    rcases List.mem_cons.mp ha with rfl | ha
    · constructor <;> simp [hself]
    · exact (h.stored a ha).of_frame (hget _ (CallStack.mem_frames.mpr ⟨a, ha, rfl⟩)) fun _ _ => rfl
  case freshFrame => exact h.freshFrame
  case setAside =>
    intro j hj
    rcases List.mem_cons.mp hj with rfl | hj
    · exact hfresh
    · exact h.setAside j hj
  case handedOut =>
    intro j hj c hc
    rcases List.mem_cons.mp hj with rfl | hj
    · rw [hself] at hc
      exact absurd hc (by simp)
    · rw [hget j hj] at hc
      exact h.handedOut j hj c hc
  case apart =>
    intro i hi j hj c hc hd
    rcases List.mem_cons.mp hi with rfl | hi
    · rw [hself] at hc
      exact absurd hc (by simp)
    · rcases List.mem_cons.mp hj with rfl | hj
      · rw [hself] at hd
        exact absurd hd (by simp)
      · rw [hget i hi] at hc
        rw [hget j hj] at hd
        exact h.apart i hi j hj c hc hd
  case found =>
    intro c hc
    obtain ⟨j, hj, hcm⟩ := h.found c hc
    exact ⟨j, List.mem_cons_of_mem _ hj, (hget j hj).symm ▸ hcm⟩
  case recording => exact h.recording

/-- Leaving the innermost frame pops its activation. -/
theorem left (h : Represents recording m s) {a : Activation} {rest : List Activation}
    (ha : s.linked = a :: rest) :
    Represents recording (m.left a.frame) { s with linked := rest } := by
  have hframes : s.frames = a.frame :: rest.map Activation.frame := by
    rw [CallStack.frames, ha, List.map_cons]
  have hin : ∀ {j}, j ∈ rest.map Activation.frame → j ∈ s.frames := fun hj => by
    rw [hframes]
    exact List.mem_cons_of_mem _ hj
  have honce := h.once
  rw [hframes, List.nodup_cons] at honce
  have hget : ∀ j, j ∈ rest.map Activation.frame →
      (m.left a.frame).frames.get j = m.frames.get j := fun j hj => by
    rw [Machine.frames_left]
    exact Store.get_set_ne _ _ fun he => honce.1 (he ▸ hj)
  have hmem : a.frame ∈ s.frames := by simp [hframes]
  constructor
  case path =>
    have hp := h.path
    rw [hframes, h.current, CallStack.top, hframes] at hp
    rw [Machine.chain_left, Machine.frames_left]
    exact hp.2.set_of_not_mem _ honce.1
  case depth =>
    rw [Machine.chain_left]
    have hd := h.depth
    rw [ha, List.length_cons] at hd
    show m.chain.depth - 1 = rest.length
    omega
  case once => exact honce.2
  case active_iff =>
    intro j
    rw [Machine.frames_left, Store.get_set]
    by_cases hj : j = a.frame
    · rw [if_pos hj, hj]
      exact iff_of_false (by simp) honce.1
    · rw [if_neg hj, h.active_iff, hframes, List.mem_cons]
      simp [hj, CallStack.frames]
  case stored =>
    intro b hb
    have hj : b.frame ∈ rest.map Activation.frame := List.mem_map_of_mem hb
    refine (h.stored b (ha ▸ List.mem_cons_of_mem _ hb)).of_frame (hget _ hj) fun c hc => ?_
    rw [Machine.sharedSlot?_left, if_neg]
    intro hca
    exact honce.1 (h.apart _ (hin hj) _ hmem c hc hca ▸ hj)
  case freshFrame => rw [Machine.freshFrame_left]; exact h.freshFrame
  case setAside => exact fun j hj => h.setAside j (hin hj)
  case handedOut =>
    intro j hj c hc
    rw [Machine.freshCapture_left]
    rw [hget j hj] at hc
    exact h.handedOut j (hin hj) c hc
  case apart =>
    intro i hi j hj c hc hd
    rw [hget i hi] at hc
    rw [hget j hj] at hd
    exact h.apart i (hin hi) j (hin hj) c hc hd
  case found =>
    intro c hc
    rw [Machine.sharedSlot?_left] at hc
    by_cases hca : c ∈ (m.frames.get a.frame).captured
    · rw [if_pos hca] at hc
      exact absurd hc (by simp)
    · rw [if_neg hca] at hc
      obtain ⟨j, hj, hcm⟩ := h.found c hc
      rw [hframes] at hj
      rcases List.mem_cons.mp hj with rfl | hj
      · exact absurd hcm hca
      · exact ⟨j, hj, (hget j hj).symm ▸ hcm⟩
  case recording => rw [Machine.journal_left]; exact h.recording

end Represents

end TieredVm
