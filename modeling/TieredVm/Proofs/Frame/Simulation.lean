import TieredVm.Proofs.Frame.CallStack

/-!
# Simulation of programs

Two runs `Agree` when they end alike, with the same answer and in related states, and a run
`Simulates` a run of a specification when they agree from all related states. Agreement goes through
sequences, caught panics and scopes, so it goes through programs as soon as it holds of single calls
and of the opening and closing of a scope (`Agree.program`). Calls need to agree only where the
program makes them (`Program.Along`). The relation is a parameter.
-/

namespace TieredVm

variable {R S Op α β : Type} {Rel : Machine R → S → Prop}

/-- Two results end alike, with the same answer and in related states. -/
def Agree (Rel : Machine R → S → Prop) :
    EStateM.Result Stop (Machine R) α → EStateM.Result Ending S α → Prop
  | .ok a m, .ok b s => a = b ∧ Rel m s
  | .error e m, .error f s => e.ending = f ∧ Rel m s
  | _, _ => False

/-- From related states, both runs end alike, in related states. -/
def Simulates (Rel : Machine R → S → Prop) (x : Run R α) (y : Spec S α) : Prop :=
  ∀ ⦃m s⦄, Rel m s → Agree Rel (x m) (y s)

namespace Agree

theorem rel {x : EStateM.Result Stop (Machine R) α} {y : EStateM.Result Ending S α}
    (h : Agree Rel x y) : Rel (Result.state x) (Result.state y) := by
  cases x <;> cases y <;> first | exact h.elim | exact h.2

/-- Another relation between the states left. -/
theorem mono {Rel' : Machine R → S → Prop} {x : EStateM.Result Stop (Machine R) α}
    {y : EStateM.Result Ending S α} (h : Agree Rel x y)
    (hr : Rel (Result.state x) (Result.state y) → Rel' (Result.state x) (Result.state y)) :
    Agree Rel' x y := by
  cases x <;> cases y <;> first | exact h.elim | exact ⟨h.1, hr h.2⟩

/-- A refused call, where the specification rejects. -/
theorem refused {m : Machine R} {s : S} {x : EStateM.Result Stop (Machine R) α} (hx : Refused m x)
    (h : ∀ line, Rel (m.noted line) s) : Agree Rel x (.error .panic s) := by
  obtain ⟨v, rfl⟩ := hx
  exact ⟨rfl, h _⟩

/-- Entering a frame that is not linked, where the specification accepts. -/
theorem entered {recording : Bool} {next : S → Option S} {m : Machine R} {s s' : S} {id : FrameId}
    {function : Value} {args : Address} {argCount : Nat} (hs : (m.frames.get id).state ≠ .active)
    (hrec : m.journal.isSome = recording) (hn : next s = some s')
    (h : ∀ line, Rel ((m.entered id function args argCount).noted line) s') :
    Agree Rel (Chain.enter (some id) function args argCount m)
      (Spec.entering recording function next s) := by
  rw [Spec.entering_some hn, ← hrec]
  by_cases hd : (m.journal.isSome && function.dangling) = true
  · rw [if_pos hd]
    rw [Bool.and_eq_true] at hd
    obtain ⟨t, ht⟩ := Chain.enter_dangling hs hd.2 hd.1 args argCount
    rw [ht]
    exact ⟨rfl, h _⟩
  · rw [if_neg hd]
    have hshown : m.journal.isSome = true → function.dangling = false := fun hj => by
      rwa [hj, Bool.true_and, Bool.not_eq_true] at hd
    obtain ⟨line, hl⟩ := Chain.enter_shown hs hshown args argCount
    rw [hl]
    exact ⟨rfl, h line⟩

/-- What both do next starts from related states. -/
theorem bind {x : Run R α} {y : Spec S α} {f : α → Run R β} {g : α → Spec S β} {m : Machine R}
    {s : S} (hxy : Agree Rel (x m) (y s))
    (hfg : ∀ a m' s', x m = .ok a m' → Rel m' s' → Agree Rel (f a m') (g a s')) :
    Agree Rel ((x >>= f) m) ((y >>= g) s) := by
  show Agree Rel (EStateM.bind x f m) (EStateM.bind y g s)
  unfold EStateM.bind
  cases hm : x m with
  | ok a m' =>
    cases hs : y s with
    | ok b s' =>
      rw [hm, hs] at hxy
      obtain ⟨rfl, h'⟩ := hxy
      exact hfg a m' s' hm h'
    | error f s' => rw [hm, hs] at hxy; exact hxy.elim
  | error e m' =>
    cases hs : y s with
    | ok b s' => rw [hm, hs] at hxy; exact hxy.elim
    | error f s' => rw [hm, hs] at hxy; exact hxy

theorem catchPanic {x : Run R Unit} {y : Spec S Unit} {m : Machine R} {s : S}
    (hxy : Agree Rel (x m) (y s)) : Agree Rel (TieredVm.catchPanic x m) (Spec.catchPanic y s) := by
  unfold TieredVm.catchPanic Spec.catchPanic
  cases hm : x m with
  | ok a m' =>
    cases hs : y s with
    | ok b s' => rw [hm, hs] at hxy; exact hxy
    | error f s' => rw [hm, hs] at hxy; exact hxy.elim
  | error e m' =>
    cases hs : y s with
    | ok b s' => rw [hm, hs] at hxy; exact hxy.elim
    | error f s' =>
      rw [hm, hs] at hxy
      obtain ⟨rfl, h'⟩ := hxy
      cases e with
      | panic p => exact ⟨rfl, h'⟩
      | abort a => exact ⟨rfl, h'⟩

theorem runScoped {id : FrameId} {x : Run R Unit} {close y : Spec S Unit} {m : Machine R} {s : S}
    (hclose : Simulates Rel (Chain.leaveScope id) close) (hxy : Agree Rel (x m) (y s)) :
    Agree Rel (Chain.runScoped id x m) (Spec.closing close y s) := by
  unfold Chain.runScoped Spec.closing
  cases hm : x m with
  | ok a m' =>
    cases hs : y s with
    | ok b s' =>
      rw [hm, hs] at hxy
      have hl := hclose hxy.2
      simp only [seqRight_eq_bind, Run.bind_apply]
      cases hc : Chain.leaveScope id m' <;> rw [hc] at hl <;> exact hl
    | error f s' => rw [hm, hs] at hxy; exact hxy.elim
  | error e m' =>
    cases hs : y s with
    | ok b s' => rw [hm, hs] at hxy; exact hxy.elim
    | error f s' =>
      rw [hm, hs] at hxy
      obtain ⟨rfl, h'⟩ := hxy
      cases e with
      | abort a => exact ⟨rfl, h'⟩
      | panic p =>
        have hl := hclose h'
        simp only [Stop.ending]
        cases hc : Chain.leaveScope id m' with
        | ok b n =>
          cases hd : close s' with
          | ok b t => rw [hc, hd] at hl; exact ⟨rfl, hl.2⟩
          | error f t => rw [hc, hd] at hl; exact hl.elim
        | error e n =>
          cases hd : close s' with
          | ok b t => rw [hc, hd] at hl; exact hl.elim
          | error f t =>
            rw [hc, hd] at hl
            cases e <;> exact ⟨rfl, hl.2⟩

/-- **Agreement goes through programs**, if it holds of every call where it is made. -/
theorem program {perform : Op → Run R Unit} {onSpec : Op → Spec S Unit}
    {opening : ScopeCall → Spec S FrameId} {close : FrameId → Spec S Unit}
    {P : Machine R → Op → Prop}
    (hop : ∀ op m s, Rel m s → P m op → Agree Rel (perform op m) (onSpec op s))
    (hopen : ∀ c : ScopeCall, Simulates Rel c.openFrame (opening c))
    (hclose : ∀ id, Simulates Rel (Chain.leaveScope id) (close id)) (p : Program Op) :
    ∀ {m s}, Rel m s → p.Along perform P m →
      Agree Rel (p.run perform m) (p.spec onSpec opening close s) := by
  induction p with
  | done => exact fun h _ => ⟨rfl, h⟩
  | stop e => exact fun h _ => ⟨rfl, h⟩
  | call op => exact fun h ha => hop op _ _ h ha
  | seq first second ih₁ ih₂ =>
    exact fun h ha => (ih₁ h ha.1).bind fun _ _ _ hm h' => ih₂ h' (ha.2 _ hm)
  | caught inner ih => exact fun h ha => (ih h ha).catchPanic
  | scope c body ih =>
    intro m s h ha
    unfold Program.run Program.spec
    rw [ScopeCall.around_eq]
    exact (hopen c h).bind fun id _ _ hm h' => (ih h' (ha id _ hm)).runScoped (hclose id)

end Agree

/-- Simulation goes through programs. -/
theorem Simulates.program {perform : Op → Run R Unit} {onSpec : Op → Spec S Unit}
    {opening : ScopeCall → Spec S FrameId} {close : FrameId → Spec S Unit}
    (hop : ∀ op, Simulates Rel (perform op) (onSpec op))
    (hopen : ∀ c : ScopeCall, Simulates Rel c.openFrame (opening c))
    (hclose : ∀ id, Simulates Rel (Chain.leaveScope id) (close id)) (p : Program Op) :
    Simulates Rel (p.run perform) (p.spec onSpec opening close) := fun m _ h =>
  Agree.program (P := fun _ _ => True) (fun op _ _ h _ => hop op h) hopen hclose p h
    (Program.along_of_forall (fun _ _ => trivial) p m)

end TieredVm
