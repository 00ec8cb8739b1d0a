import TieredVm.Proofs.Caller

/-!
# What is observed along a run

The history of a run pairs every request with the machine it is made in. Suppose something is observed of
these machines that depends on the interpreter's state and on what is pending only, and it is known what
each request makes of it. Then it is, at every request of the history and at the end of the run, what the
requests before make of it one after another: scopes that are opened and left on the way make no
difference.

* `Follows`, `Follows.append`, `Follows.view_eq`: observations of a history.
* `Follows.advances`: what every request advances is later at every later request.
* `Caller.Along.of_mem_history`: what is met along a run is met throughout its history.
* `Caller.follows_left`: runs, by induction on the caller, also where requests panic.
* `Caller.follows`: runs in which all requests go through.
-/

namespace TieredVm

variable {R α β : Type}

/-! ## Histories -/

/-- What is observed at each request of a history is what the requests before it make of it. -/
def Follows (view : Machine R → β) (next : β → Machine R × Request R → β) :
    List (Machine R × Request R) → β → Prop
  | [], _ => True
  | asked :: rest, b => view asked.1 = b ∧ Follows view next rest (next b asked)

namespace Follows

variable {view : Machine R → β} {next : β → Machine R × Request R → β} {b : β}

theorem append {h h' : List (Machine R × Request R)} (hh : Follows view next h b)
    (hh' : Follows view next h' (h.foldl next b)) : Follows view next (h ++ h') b := by
  induction h generalizing b with
  | nil => exact hh'
  | cons asked h ih => exact ⟨hh.1, ih hh.2 hh'⟩

/-- A history that follows may be told by other means. -/
theorem congr {next' : β → Machine R × Request R → β} {h : List (Machine R × Request R)}
    (hnext : ∀ asked ∈ h, next (view asked.1) asked = next' (view asked.1) asked)
    (hh : Follows view next h b) : Follows view next' h b ∧ h.foldl next b = h.foldl next' b := by
  induction h generalizing b with
  | nil => exact ⟨trivial, rfl⟩
  | cons asked h ih =>
    obtain ⟨rfl, hrest⟩ := hh
    rw [hnext asked List.mem_cons_self] at hrest
    obtain ⟨hrest, hlast⟩ := ih (fun a ha => hnext a (List.mem_cons_of_mem asked ha)) hrest
    refine ⟨⟨rfl, hrest⟩, ?_⟩
    rw [List.foldl_cons, List.foldl_cons, hnext asked List.mem_cons_self, hlast]

/-- What every request takes of what is left is limited by what there is in the end. -/
theorem sum_le {f : Machine R × Request R → Nat} {g : β → Nat} {h : List (Machine R × Request R)}
    (hnext : ∀ asked ∈ h, f asked + g (view asked.1) ≤ g (next (view asked.1) asked))
    (hh : Follows view next h b) : (h.map f).sum + g b ≤ g (h.foldl next b) := by
  induction h generalizing b with
  | nil => simp
  | cons asked h ih =>
    obtain ⟨rfl, hrest⟩ := hh
    have hasked := hnext asked List.mem_cons_self
    have hafter := ih (fun a ha => hnext a (List.mem_cons_of_mem asked ha)) hrest
    rw [List.map_cons, List.sum_cons, List.foldl_cons]
    omega

/-- In the middle of a history, too. -/
theorem view_eq {before after : List (Machine R × Request R)} {m : Machine R} {r : Request R}
    (hh : Follows view next (before ++ (m, r) :: after) b) : view m = before.foldl next b := by
  induction before generalizing b with
  | nil => exact hh.1
  | cons asked before ih => exact ih hh.2

end Follows

/-- What is observed along a history advances: from the start to every request, from what a request leaves
to every later request, and to the end. -/
structure Advances (later : β → β → Prop) (view : Machine R → β)
    (next : β → Machine R × Request R → β) (h : List (Machine R × Request R)) (b : β) : Prop where
  started : ∀ asked ∈ h, later b (view asked.1)
  between : h.Pairwise fun earlier asked => later (next (view earlier.1) earlier) (view asked.1)
  ends : ∀ asked ∈ h, later (next (view asked.1) asked) (h.foldl next b)
  whole : later b (h.foldl next b)

theorem Advances.after {later : β → β → Prop} {view : Machine R → β}
    {next : β → Machine R × Request R → β} {h before after : List (Machine R × Request R)} {b : β}
    {asked : Machine R × Request R} (ha : Advances later view next h b)
    (hsplit : h = before ++ asked :: after) :
    ∀ a ∈ after, later (next (view asked.1) asked) (view a.1) := by
  have hbetween := ha.between
  rw [hsplit] at hbetween
  exact (List.pairwise_cons.mp (List.pairwise_append.mp hbetween).2.1).1

/-- **What every request advances is later at every later request.** -/
theorem Follows.advances {later : β → β → Prop} (hrefl : ∀ b, later b b)
    (htrans : ∀ {a b c}, later a b → later b c → later a c) {view : Machine R → β}
    {next : β → Machine R × Request R → β} {h : List (Machine R × Request R)} {b : β}
    (hh : Follows view next h b) (hnext : ∀ asked ∈ h, later (view asked.1) (next (view asked.1) asked)) :
    Advances later view next h b := by
  induction h generalizing b with
  | nil =>
    exact ⟨fun _ h => absurd h List.not_mem_nil, .nil, fun _ h => absurd h List.not_mem_nil, hrefl b⟩
  | cons asked h ih =>
    obtain ⟨rfl, hrest⟩ := hh
    have hasked := hnext asked List.mem_cons_self
    have hafter := ih hrest fun a ha => hnext a (List.mem_cons_of_mem asked ha)
    constructor
    case started =>
      refine List.forall_mem_cons.mpr ⟨hrefl _, fun a ha => htrans hasked (hafter.started a ha)⟩
    case between => exact .cons hafter.started hafter.between
    case ends => exact List.forall_mem_cons.mpr ⟨hafter.whole, hafter.ends⟩
    case whole => exact htrans hasked hafter.whole

/-- What is met along a run is met throughout its history. -/
theorem Caller.Along.of_mem_history {I : Interpreter R} {P : Machine R → Request R → Prop}
    {Q : Machine R → ScopeCall → Prop} {n : Machine R} {q : Request R} {c : Caller R} :
    ∀ {m : Machine R}, c.Along I P Q m → (n, q) ∈ c.history I m → P n q := by
  have hcollect : ∀ {γ : Type} {r : EStateM.Result Stop (Machine R) γ}
      {f : γ → Machine R → List (Machine R × Request R)}, (n, q) ∈ Result.collect r f →
      ∃ a m', r = .ok a m' ∧ (n, q) ∈ f a m' := fun {γ r f} h => by
    cases r with
    | ok a m' => exact ⟨a, m', rfl, h⟩
    | error s m' => exact absurd h List.not_mem_nil
  induction c with
  | done a => exact fun _ h => absurd h List.not_mem_nil
  | stop s => exact fun _ h => absurd h List.not_mem_nil
  | ask r next ih =>
    intro m ha h
    obtain he | h := List.mem_cons.mp h
    · cases he
      exact ha.1
    · obtain ⟨a, m', hm', h⟩ := hcollect h
      exact ih a (ha.2 a m' hm') h
  | scope s inner next ihi ihn =>
    intro m ha h
    obtain h | h := List.mem_append.mp h
    · obtain ⟨id, m', hm', h⟩ := hcollect h
      exact ihi (ha.2.1 id m' hm') h
    · obtain ⟨a, m', hm', h⟩ := hcollect h
      exact ihn a (ha.2.2 a m' hm') h

/-! ## Scopes -/

/-- The interpreter's state and what is pending are as they were. -/
def Machine.SameAside (m m' : Machine R) : Prop := m'.runtime = m.runtime ∧ m'.pending = m.pending

/-- Nothing is asked but that the interpreter's state and what is pending are these. -/
abbrev Regime.aside (m : Machine R) : Regime R :=
  Regime.any (· = m.runtime) (· = m.pending) False False

theorem ScopeCall.openFrame_aside (s : ScopeCall) (m : Machine R) :
    m.SameAside (Result.state (s.openFrame m)) := by
  have hends := Regime.keeps_openFrame (G := .aside m) (c := s) trivial False.elim m
    (Regime.any_holds rfl rfl)
  exact ⟨hends.holds.good, hends.holds.waits⟩

/-- Leaving a scope makes no difference to what its body did. -/
theorem Chain.runScoped_aside (id : FrameId) (body : Run R α) (m : Machine R) :
    (Result.state (body m)).SameAside (Result.state (runScoped id body m)) := by
  have hbody : (Regime.aside (Result.state (body m))).Ends (body m) (body m.silent) fun _ => True :=
    ⟨Regime.any_holds rfl rfl, fun _ _ _ => trivial, False.elim⟩
  have hends := hbody.runScoped id False.elim
  exact ⟨hends.holds.good, hends.holds.waits⟩

/-! ## Runs -/

namespace Caller

variable (view : Machine R → β) (next : β → Machine R × Request R → β)

/-- What a request leaves, however it ends. -/
def left (I : Interpreter R) (_ : β) (asked : Machine R × Request R) : β :=
  view (Result.state (asked.2.perform I asked.1))

/-- **What is observed along a run is what its requests leave.** -/
theorem follows_left {I : Interpreter R} (hview : ∀ {m m'}, m.SameAside m' → view m' = view m)
    (c : Caller R) : ∀ m : Machine R,
      Follows view (left view I) (c.history I m) (view m) ∧
        view (Result.state (c.run I m)) = (c.history I m).foldl (left view I) (view m) := by
  induction c with
  | done a => exact fun _ => ⟨trivial, rfl⟩
  | stop s => exact fun _ => ⟨trivial, rfl⟩
  | ask r after ih =>
    intro m
    have hleft := congrArg view (Run.state_attempted (r.perform I) m)
    rw [run, history]
    cases hasked : Run.attempted (r.perform I) m with
    | ok a n =>
      rw [hasked] at hleft
      obtain ⟨hrest, hlast⟩ := ih a n
      rw [show view n = _ from hleft] at hrest hlast
      rw [Run.bind_of_ok hasked]
      exact ⟨⟨rfl, hrest⟩, hlast⟩
    | error e n =>
      rw [hasked] at hleft
      rw [Run.bind_of_error hasked]
      exact ⟨⟨rfl, trivial⟩, hleft⟩
  | scope s inner after ihi ihn =>
    intro m
    -- The requests made inside the scope come first. Leaving it makes no difference.
    obtain ⟨hscope, hleft⟩ : Follows view (left view I)
          (Result.collect (s.openFrame m) fun _ m' => inner.history I m') (view m) ∧
        view (Result.state (s.around (inner.run I) m)) =
          (Result.collect (s.openFrame m) fun _ m' => inner.history I m').foldl (left view I)
            (view m) := by
      have hopened := hview (s.openFrame_aside m)
      rw [ScopeCall.around_eq]
      cases hopen : s.openFrame m with
      | ok id n =>
        rw [hopen] at hopened
        rw [Run.bind_of_ok hopen, hview (Chain.runScoped_aside id _ n), ← hopened]
        exact ihi n
      | error e n =>
        rw [hopen] at hopened
        rw [Run.bind_of_error hopen]
        exact ⟨trivial, hopened⟩
    rw [← Run.state_attempted] at hleft
    rw [run, history]
    cases hout : Run.attempted (s.around (inner.run I)) m with
    | ok a n =>
      rw [hout] at hleft
      obtain ⟨hrest, hlast⟩ := ihn a n
      rw [show view n = _ from hleft] at hrest hlast
      rw [Run.bind_of_ok hout, List.foldl_append]
      exact ⟨hscope.append hrest, hlast⟩
    | error e n =>
      rw [hout] at hleft
      rw [Run.bind_of_error hout]
      simp only [Result.collect, List.append_nil]
      exact ⟨hscope, hleft⟩

/-- **What is observed along a run is what its requests make of it.** -/
theorem follows {I : Interpreter R} (hview : ∀ {m m'}, m.SameAside m' → view m' = view m)
    (c : Caller R) {m : Machine R} (hc : c.Along I
        (fun m r => ∃ a m', r.perform I m = .ok a m' ∧ view m' = next (view m) (m, r))
        (fun _ _ => True) m) :
      Follows view next (c.history I m) (view m) ∧
        view (Result.state (c.run I m)) = (c.history I m).foldl next (view m) := by
  obtain ⟨hfollows, hlast⟩ := follows_left view hview c m
  have hnext : ∀ asked ∈ c.history I m,
      left view I (view asked.1) asked = next (view asked.1) asked := fun asked hasked => by
    obtain ⟨a, n, hr, hn⟩ := hc.of_mem_history hasked
    rw [left, hr]
    exact hn
  obtain ⟨hfollows, hfold⟩ := hfollows.congr hnext
  exact ⟨hfollows, hlast.trans hfold⟩

end Caller

end TieredVm
