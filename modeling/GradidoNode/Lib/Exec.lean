/-
# `GradidoNode.Lib.Exec` — stateful calls that may fail, and runs of them

A call on a mutable object is an `EStateM ε σ α`: it returns a value, or it
fails with an `ε`, and in both cases the object is left in some state.

* `Returns m s Q` — called in state `s`, `m` does return, and `Q` holds of the
  value and the state it leaves (total correctness).  The rules go forward through
  a `do` block, one bind at a time.
* `Ensures m s Q` — if `m` returns, `Q` holds of what it returns (partial
  correctness, for calls whose failures end the run anyway).
* `bind_ok` — the inversion: a `do` block that returned went through a value and
  a state of its first call.
* `Preserves E Inv m` — `m` keeps `Inv`, whether it returns or fails, except where it fails
  in a way `E` says nothing is left after.
* `Follows π P m m'` — whenever `m` returns a value with `P`, it does what `m'` does on the
  image of its state under `π`.

A *run* is a list of events played one after the other on a state by a partial
step function; `none` is the end of the run (the process is gone).  `Along P`
says that every step of a run was taken in a state and with an event that
satisfy `P`; `run_inv` is the one induction every whole-run theorem uses, and `run_keeps`
is its case of an invariant that no step can break.  `Leads n`
is its counterpart for progress: the next `n` events, whatever they are, are played
and lead to a state with a property.  `observed` is the list of what an observer sees of
the steps.

An object that answers every call has a *trace*, the list of its answers; two
objects related by a simulation have the same traces (`trace_eq_of_sim`).
-/
import Mathlib.Data.List.Basic

namespace GradidoNode.Lib

/-! ## Calls that return -/

section Calls

variable {ε σ α β : Type} {m : EStateM ε σ α} {f : α → EStateM ε σ β} {a : α} {e : ε} {s s' : σ}
  {Q Q' : α → σ → Prop}

/-- `m`, called in `s`, returns, and what it returns satisfies `Q`. -/
def Returns (m : EStateM ε σ α) (s : σ) (Q : α → σ → Prop) : Prop :=
  ∃ a s', m s = .ok a s' ∧ Q a s'

theorem Returns.pure (h : Q a s) : Returns (Pure.pure a : EStateM ε σ α) s Q :=
  ⟨a, s, rfl, h⟩

theorem Returns.bind {Q : β → σ → Prop} (h : Returns m s fun a s' => Returns (f a) s' Q) :
    Returns (m >>= f) s Q := by
  obtain ⟨a, s', hm, b, s'', hf, hQ⟩ := h
  refine ⟨b, s'', ?_, hQ⟩
  show EStateM.bind m f s = _
  simp only [EStateM.bind, hm, hf]

theorem Returns.mono (h : Returns m s Q) (hQ : ∀ a s', Q a s' → Q' a s') : Returns m s Q' := by
  obtain ⟨a, s', hm, h⟩ := h
  exact ⟨a, s', hm, hQ a s' h⟩

theorem Returns.get {Q : σ → σ → Prop} (h : Q s s) : Returns (MonadState.get : EStateM ε σ σ) s Q :=
  ⟨s, s, rfl, h⟩

theorem Returns.of_modify {f : σ → σ} {Q : PUnit → σ → Prop} (h : Q ⟨⟩ (f s)) :
    Returns (modify f : EStateM ε σ PUnit) s Q :=
  ⟨⟨⟩, f s, rfl, h⟩

/-- A `do` block whose first call returns goes on from there. -/
theorem bind_eq (h : m s = .ok a s') : (m >>= f) s = f a s' := by
  show EStateM.bind m f s = _
  simp only [EStateM.bind, h]

/-- A `do` block whose first call fails fails with it. -/
theorem bind_error (h : m s = .error e s') : (m >>= f) s = .error e s' := by
  show EStateM.bind m f s = _
  simp only [EStateM.bind, h]

/-- The state a call leaves, whether it returned or failed. -/
def stateAfter : EStateM.Result ε σ α → σ
  | .ok _ s => s
  | .error _ s => s

theorem Returns.stateAfter {R : σ → Prop} (h : Returns m s Q) (hR : ∀ a s', Q a s' → R s') :
    R (Lib.stateAfter (m s)) := by
  obtain ⟨a, s', hm, hQ⟩ := h
  rw [hm]
  exact hR a s' hQ

/-- What a call returned or failed with. -/
def outcome : EStateM.Result ε σ α → Except ε α
  | .ok a _ => .ok a
  | .error e _ => .error e

theorem outcome_ok {r : EStateM.Result ε σ α} (h : outcome r = .ok a) : ∃ s, r = .ok a s := by
  cases r with
  | ok a' s =>
    cases h
    exact ⟨s, rfl⟩
  | error e s => cases h

theorem outcome_error {r : EStateM.Result ε σ α} (h : outcome r = .error e) :
    ∃ s, r = .error e s := by
  cases r with
  | ok a s => cases h
  | error e' s =>
    cases h
    exact ⟨s, rfl⟩

theorem get_bind {f : σ → EStateM ε σ β} : ((get : EStateM ε σ σ) >>= f) s = f s s := rfl

theorem modify_bind {g : σ → σ} {f : PUnit → EStateM ε σ β} :
    ((modify g : EStateM ε σ PUnit) >>= f) s = f ⟨⟩ (g s) := rfl

theorem bind_ok {s'' : σ} {b : β} (h : (m >>= f) s = .ok b s'') :
    ∃ a s', m s = .ok a s' ∧ f a s' = .ok b s'' := by
  change EStateM.bind m f s = _ at h
  simp only [EStateM.bind] at h
  cases hm : m s with
  | ok a s' =>
    rw [hm] at h
    exact ⟨a, s', rfl, h⟩
  | error e s' =>
    rw [hm] at h
    exact absurd h (by simp)

theorem returns_bind_iff {Q : β → σ → Prop} :
    Returns (m >>= f) s Q ↔ Returns m s fun a s' => Returns (f a) s' Q := by
  refine ⟨?_, Returns.bind⟩
  rintro ⟨b, s'', h, hQ⟩
  obtain ⟨a, s', hm, hf⟩ := bind_ok h
  exact ⟨a, s', hm, b, s'', hf, hQ⟩

theorem returns_iff_of_ok (h : m s = .ok a s') : Returns m s Q ↔ Q a s' := by
  refine ⟨?_, fun hQ => ⟨a, s', h, hQ⟩⟩
  rintro ⟨a', s'', h', hQ⟩
  cases h.symm.trans h'
  exact hQ

/-- `m`, called in `s`, satisfies `Q` if it returns. -/
def Ensures (m : EStateM ε σ α) (s : σ) (Q : α → σ → Prop) : Prop :=
  ∀ a s', m s = .ok a s' → Q a s'

theorem Returns.ensures (h : Returns m s Q) : Ensures m s Q := by
  obtain ⟨a, s', hm, hQ⟩ := h
  intro a' s'' hm'
  rw [hm] at hm'
  cases hm'
  exact hQ

theorem Ensures.pure (h : Q a s) : Ensures (Pure.pure a : EStateM ε σ α) s Q :=
  (Returns.pure h).ensures

theorem Ensures.bind {Q : β → σ → Prop} (h : Ensures m s fun a s' => Ensures (f a) s' Q) :
    Ensures (m >>= f) s Q := by
  intro b s'' hb
  obtain ⟨a, s', hm, hf⟩ := bind_ok hb
  exact h a s' hm b s'' hf

theorem Ensures.mono (h : Ensures m s Q) (hQ : ∀ a s', Q a s' → Q' a s') : Ensures m s Q' := by
  intro a s' hm
  exact hQ a s' (h a s' hm)

theorem Returns.and_ensures (h : Returns m s Q) (h' : Ensures m s Q') :
    Returns m s fun a s' => Q a s' ∧ Q' a s' := by
  obtain ⟨a, s', hm, hQ⟩ := h
  exact ⟨a, s', hm, hQ, h' a s' hm⟩

theorem Ensures.get {Q : σ → σ → Prop} (h : Q s s) : Ensures (MonadState.get : EStateM ε σ σ) s Q :=
  (Returns.get h).ensures

theorem Ensures.of_modify {f : σ → σ} {Q : PUnit → σ → Prop} (h : Q ⟨⟩ (f s)) :
    Ensures (modify f : EStateM ε σ PUnit) s Q :=
  (Returns.of_modify h).ensures

theorem Ensures.throw : Ensures (throw e : EStateM ε σ α) s Q := by
  intro a s' h
  cases h

/-- The state a call leaves, unless it fails in a way after which there is none. -/
def survivor (E : ε → Bool) : EStateM.Result ε σ α → Option σ
  | .ok _ s => some s
  | .error e s => if E e then some s else none

/-- Whatever state `m` leaves, it keeps `Inv`. -/
def Preserves (E : ε → Bool) (Inv : σ → Prop) (m : EStateM ε σ α) : Prop :=
  ∀ s s', Inv s → survivor E (m s) = some s' → Inv s'

section Preserves

variable {E : ε → Bool} {Inv : σ → Prop}

theorem Preserves.pure (a : α) : Preserves E Inv (Pure.pure a : EStateM ε σ α) := by
  intro s s' hs h
  cases h
  exact hs

theorem Preserves.throw (e : ε) : Preserves E Inv (throw e : EStateM ε σ α) := by
  intro s s' hs h
  obtain ⟨-, h⟩ := Option.ite_none_right_eq_some.mp (show (if E e then some s else none) = some s' from h)
  cases h
  exact hs

theorem Preserves.get : Preserves E Inv (MonadState.get : EStateM ε σ σ) := by
  intro s s' hs h
  cases h
  exact hs

theorem Preserves.of_modify {g : σ → σ} (hg : ∀ s, Inv s → Inv (g s)) :
    Preserves E Inv (modify g : EStateM ε σ PUnit) := by
  intro s s' hs h
  cases h
  exact hg s hs

theorem Preserves.bind (hm : Preserves E Inv m) (hf : ∀ a, Preserves E Inv (f a)) :
    Preserves E Inv (m >>= f) := by
  intro s s' hs h
  have hms := fun s₁ => hm s s₁ hs
  cases hca : m s with
  | ok a s₁ =>
    rw [hca] at hms
    rw [bind_eq hca] at h
    exact hf a s₁ s' (hms s₁ rfl) h
  | error e s₁ =>
    rw [hca] at hms
    rw [bind_error hca] at h
    exact hms s' h

theorem Preserves.ite {c : Prop} [Decidable c] {m m' : EStateM ε σ α} (hm : Preserves E Inv m)
    (hm' : Preserves E Inv m') : Preserves E Inv (if c then m else m') := by
  split
  · exact hm
  · exact hm'

theorem Preserves.of_modifyGet {g : σ → α × σ} (hg : ∀ s, Inv s → Inv (g s).2) :
    Preserves E Inv (modifyGet g : EStateM ε σ α) := by
  intro s s' hs h
  cases h
  exact hg s hs

end Preserves

/-! ## One call does what another does -/

section Follows

variable {τ : Type} {E : ε → Bool} {π : σ → τ} {Inv : σ → Prop}

/-- Where `m` returns a value with `P`, `m'` returns it from the image of the state. -/
def Follows (π : σ → τ) (P : α → Prop) (m : EStateM ε σ α) (m' : EStateM ε τ α) : Prop :=
  ∀ s a s', m s = .ok a s' → P a → m' (π s) = .ok a (π s')

/-- The simplest postcondition. -/
def Any (_ : α) : Prop := True

theorem Follows.pure {P : α → Prop} (a : α) :
    Follows π P (Pure.pure a : EStateM ε σ α) (Pure.pure a : EStateM ε τ α) := by
  intro s a' s' h _
  cases h
  rfl

theorem Follows.throw {P : α → Prop} (e : ε) (m' : EStateM ε τ α) :
    Follows π P (throw e : EStateM ε σ α) m' := by
  intro s a s' h
  cases h

/-- A value without `Q` has to be one after which `f` returns nothing with `P`. -/
theorem Follows.bind {Q : α → Prop} {P : β → Prop} {m' : EStateM ε τ α} {f' : α → EStateM ε τ β}
    (hm : Follows π Q m m') (hf : ∀ a, Q a → Follows π P (f a) (f' a))
    (hno : ∀ a s b s', ¬ Q a → f a s = .ok b s' → ¬ P b) : Follows π P (m >>= f) (m' >>= f') := by
  intro s b s'' h hb
  obtain ⟨a, s', hm', hf'⟩ := bind_ok h
  by_cases ha : Q a
  · rw [bind_eq (hm s a s' hm' ha)]
    exact hf a ha s' b s'' hf' hb
  · exact absurd hb (hno a s' b s'' ha hf')

/-- After a call of which every value will do. -/
theorem Follows.andThen {P : β → Prop} {m' : EStateM ε τ α} {f' : α → EStateM ε τ β}
    (hm : Follows π Any m m') (hf : ∀ a, Follows π P (f a) (f' a)) : Follows π P (m >>= f) (m' >>= f') :=
  hm.bind (fun a _ => hf a) fun _ _ _ _ ha => absurd trivial ha

theorem Follows.ite {c : Prop} [Decidable c] {P : α → Prop} {m₁ m₂ : EStateM ε σ α}
    {m₁' m₂' : EStateM ε τ α} (h₁ : Follows π P m₁ m₁') (h₂ : Follows π P m₂ m₂') :
    Follows π P (if c then m₁ else m₂) (if c then m₁' else m₂') := by
  split
  · exact h₁
  · exact h₂

end Follows

end Calls

/-! ## Runs -/

section Runs

variable {σ ε : Type} (step : σ → ε → Option σ)

/-- Play the events of a list, one after the other. -/
def run : σ → List ε → Option σ
  | s, [] => some s
  | s, e :: es =>
    match step s e with
    | some s' => run s' es
    | none => none

/-- Whether a partial computation ends with a property can be computed. -/
instance decidableExistsSome {α : Type} {Q : α → Prop} [∀ a, Decidable (Q a)] :
    ∀ x : Option α, Decidable (∃ a, x = some a ∧ Q a)
  | none => isFalse nofun
  | some a => decidable_of_iff (Q a)
      ⟨fun h => ⟨a, rfl, h⟩, fun ⟨_, h, ha⟩ => Option.some.inj h ▸ ha⟩

instance decidableForallSome {α : Type} {Q : α → Prop} [∀ a, Decidable (Q a)] :
    ∀ x : Option α, Decidable (∀ a, x = some a → Q a)
  | none => isTrue nofun
  | some a => decidable_of_iff (Q a) ⟨fun h _ heq => Option.some.inj heq ▸ h, fun h => h a rfl⟩

/-- Every step of the run from `s` is taken in a state and with an event that satisfy `P`. -/
def Along (P : σ → ε → Prop) : σ → List ε → Prop
  | _, [] => True
  | s, e :: es => P s e ∧ ∀ s', step s e = some s' → Along P s' es

variable {step} {P : σ → ε → Prop} {es es' : List ε} {e : ε} {s t : σ}

theorem run_cons (h : run step s (e :: es) = some t) :
    ∃ s', step s e = some s' ∧ run step s' es = some t := by
  simp only [run] at h
  cases hs : step s e with
  | none => rw [hs] at h; exact absurd h (by simp)
  | some s' => rw [hs] at h; exact ⟨s', rfl, h⟩

theorem run_append (h : run step s es = some t) : run step s (es ++ es') = run step t es' := by
  induction es generalizing s with
  | nil =>
    cases h
    rfl
  | cons e es ih =>
    obtain ⟨s', hs', hre⟩ := run_cons h
    rw [List.cons_append, run, hs']
    exact ih hre

/-- A run that was played to its end was played to its last event. -/
theorem run_snoc (h : run step s (es ++ [e]) = some t) :
    ∃ s', run step s es = some s' ∧ step s' e = some t := by
  induction es generalizing s with
  | nil =>
    obtain ⟨s', hs', hre⟩ := run_cons h
    cases hre
    exact ⟨s, rfl, hs'⟩
  | cons e' es ih =>
    obtain ⟨s₁, hs₁, hre⟩ := run_cons h
    obtain ⟨s', hs', hla⟩ := ih hre
    exact ⟨s', by rw [run, hs₁]; exact hs', hla⟩

/-- The run rule: an invariant that each permitted step keeps holds at the end of
every run whose steps are all permitted. -/
theorem run_inv (Inv : σ → Prop) (hst : ∀ s e s', Inv s → P s e → step s e = some s' → Inv s') :
    ∀ {es : List ε} {s s' : σ}, Inv s → Along step P s es → run step s es = some s' → Inv s'
  | [], s, s', hs, _, h => by
    cases h
    exact hs
  | e :: es, s, s', hs, hP, h => by
    obtain ⟨t, ht, hrun⟩ := run_cons h
    exact run_inv Inv hst (hst s e t hs hP.1 ht) (hP.2 t ht) hrun

theorem along_of_forall (h : ∀ s e, P s e) : ∀ (es : List ε) (s : σ), Along step P s es
  | [], _ => trivial
  | e :: es, s => ⟨h s e, fun s' _ => along_of_forall h es s'⟩

/-- An invariant that every step keeps holds at the end of every run. -/
theorem run_keeps (Inv : σ → Prop) (hst : ∀ s e s', Inv s → step s e = some s' → Inv s')
    (hs : Inv s) (hrun : run step s es = some t) : Inv t :=
  run_inv Inv (fun s e s' h _ => hst s e s' h) hs (along_of_forall (fun _ _ => trivial) es s) hrun

/-- Where an invariant that permitted steps keep makes them satisfy `Q`, every step of a run
whose steps are permitted satisfies `Q`. -/
theorem along_of_inv {Q : σ → ε → Prop} (Inv : σ → Prop)
    (hst : ∀ s e, Inv s → P s e → Q s e ∧ ∀ s', step s e = some s' → Inv s') :
    ∀ {es : List ε} {s : σ}, Inv s → Along step P s es → Along step Q s es
  | [], _, _, _ => trivial
  | e :: _, s, hs, hP => by
    obtain ⟨hQ, hinv⟩ := hst s e hs hP.1
    exact ⟨hQ, fun s' hs' => along_of_inv Inv hst (hinv s' hs') (hP.2 s' hs')⟩

/-- Where each step keeps the invariant just if it is permitted, the invariant holds in
every state of a run just if all its steps are permitted. -/
theorem throughout_iff_along (Inv : σ → Prop)
    (hst : ∀ s e s', Inv s → step s e = some s' → (Inv s' ↔ P s e)) :
    ∀ {es : List ε} {s t : σ}, Inv s → run step s es = some t →
      ((∀ es' s', es' <+: es → run step s es' = some s' → Inv s') ↔ Along step P s es) := by
  intro es
  induction es with
  | nil =>
    intro s t hs _
    refine ⟨fun _ => trivial, fun _ es' s' hes' hrun => ?_⟩
    obtain rfl := List.prefix_nil.mp hes'
    cases hrun
    exact hs
  | cons e es ih =>
    intro s t hs hrun
    obtain ⟨s₁, hs₁, hre⟩ := run_cons hrun
    have hco : ∀ es', run step s (e :: es') = run step s₁ es' := by
      intro es'
      rw [run, hs₁]
    constructor
    · intro hall
      have hone : Inv s₁ := hall [e] s₁ (by simp) (by rw [hco]; rfl)
      refine ⟨(hst s e s₁ hs hs₁).mp hone, fun s' hs' => ?_⟩
      cases hs₁.symm.trans hs'
      refine (ih hone hre).mp fun es' s' hes' hrun' => ?_
      exact hall (e :: es') s' ((List.prefix_cons_inj e).mpr hes') (by rw [hco]; exact hrun')
    · rintro ⟨hP, hal⟩ es' s' hes' hrun'
      have hone : Inv s₁ := (hst s e s₁ hs hs₁).mpr hP
      cases es' with
      | nil =>
        cases hrun'
        exact hs
      | cons e' es' =>
        obtain ⟨rfl, hpre⟩ := List.cons_prefix_cons.mp hes'
        rw [hco] at hrun'
        exact (ih hone hre).mpr (hal s₁ hs₁) es' s' hpre hrun'

/-- Where a step that leads to `Q` is permitted and keeps the invariant, all steps of a run are
that leads from one state with `Q` to the next. -/
theorem along_of_throughout (Inv Q : σ → Prop)
    (hst : ∀ s e s', Inv s → step s e = some s' → Q s' → Inv s' ∧ P s e) :
    ∀ {es : List ε} {s t : σ}, Inv s → run step s es = some t →
      (∀ es' s', es' <+: es → run step s es' = some s' → Q s') → Along step P s es
  | [], _, _, _, _, _ => trivial
  | e :: es, s, t, hs, hrun, hall => by
    obtain ⟨s₁, hs₁, hre⟩ := run_cons hrun
    have hco : ∀ es', run step s (e :: es') = run step s₁ es' := by
      intro es'
      rw [run, hs₁]
    obtain ⟨hinv, hpe⟩ := hst s e s₁ hs hs₁ (hall [e] s₁ (by simp) (by rw [hco]; rfl))
    refine ⟨hpe, fun s' hs' => ?_⟩
    cases hs₁.symm.trans hs'
    refine along_of_throughout Inv Q hst hinv hre fun es' s' hes' hrun' => ?_
    exact hall (e :: es') s' ((List.prefix_cons_inj e).mpr hes') (by rw [hco]; exact hrun')

/-- Where a step that is not permitted leaves a mark that stays and excludes the invariant, the
invariant holds at the end of a run just if all its steps are permitted. -/
theorem end_iff_along (Inv Bad : σ → Prop)
    (hgo : ∀ s e s', Inv s → P s e → step s e = some s' → Inv s')
    (hbad : ∀ s e s', Inv s → ¬ P s e → step s e = some s' → Bad s')
    (hst : ∀ s e s', Bad s → step s e = some s' → Bad s') (hec : ∀ s, Bad s → ¬ Inv s) :
    ∀ {es : List ε} {s t : σ}, Inv s → run step s es = some t → (Inv t ↔ Along step P s es) := by
  intro es
  induction es with
  | nil =>
    intro s t hs hrun
    cases hrun
    exact ⟨fun _ => trivial, fun _ => hs⟩
  | cons e es ih =>
    intro s t hs hrun
    obtain ⟨s₁, hs₁, hre⟩ := run_cons hrun
    by_cases hP : P s e
    · rw [ih (hgo s e s₁ hs hP hs₁) hre]
      refine ⟨fun hal => ⟨hP, fun s' hs' => ?_⟩, fun hal => hal.2 s₁ hs₁⟩
      cases hs₁.symm.trans hs'
      exact hal
    · have hma : Bad t := run_keeps Bad hst (hbad s e s₁ hs hP hs₁) hre
      exact ⟨fun ht => absurd ht (hec t hma), fun hal => absurd hal.1 hP⟩

theorem along_and {Q : σ → ε → Prop} (hP : Along step P s es) (hQ : Along step Q s es) :
    Along step (fun s e => P s e ∧ Q s e) s es := by
  induction es generalizing s with
  | nil => trivial
  | cons e es ih => exact ⟨⟨hP.1, hQ.1⟩, fun s' hs' => ih (hP.2 s' hs') (hQ.2 s' hs')⟩

theorem along_append (hP : Along step P s (es ++ es')) (h : run step s es = some t) :
    Along step P s es ∧ Along step P t es' := by
  induction es generalizing s with
  | nil =>
    cases h
    exact ⟨trivial, hP⟩
  | cons e es ih =>
    obtain ⟨s', hs', hre⟩ := run_cons h
    obtain ⟨-, hP'⟩ := ih (hP.2 s' hs') hre
    refine ⟨⟨hP.1, fun s'' hs'' => ?_⟩, hP'⟩
    cases hs'.symm.trans hs''
    exact (ih (hP.2 s' hs') hre).1

/-- Two ways to step that agree all along a run. -/
theorem run_congr {step' : σ → ε → Option σ} (hst : ∀ s e, P s e → step' s e = step s e)
    (hP : Along step P s es) : run step' s es = run step s es := by
  induction es generalizing s with
  | nil => rfl
  | cons e es ih =>
    rw [run, run, hst s e hP.1]
    cases hs : step s e with
    | none => rfl
    | some s' => exact ih (hP.2 s' hs)

/-- Any `n` events lead from `s` to a state that satisfies `Q`. -/
def Leads (step : σ → ε → Option σ) (n : Nat) (s : σ) (Q : σ → Prop) : Prop :=
  ∀ es : List ε, es.length = n → ∃ s', run step s es = some s' ∧ Q s'

theorem Leads.zero {Q : σ → Prop} (h : Q s) : Leads step 0 s Q := by
  intro es hes
  rw [List.length_eq_zero_iff] at hes
  subst hes
  exact ⟨s, rfl, h⟩

theorem Leads.succ {Q : σ → Prop} {n : Nat}
    (h : ∀ e, ∃ s', step s e = some s' ∧ Leads step n s' Q) : Leads step (n + 1) s Q := by
  intro es hes
  obtain ⟨e, es, rfl⟩ := List.exists_cons_of_length_eq_add_one hes
  obtain ⟨t, ht, hre⟩ := h e
  obtain ⟨s', hs', hQ⟩ := hre es (by simpa using hes)
  exact ⟨s', by rw [run, ht]; exact hs', hQ⟩

/-- One stage after the other. -/
theorem Leads.add {Q R : σ → Prop} {m : Nat} :
    ∀ {n : Nat} {s : σ}, Leads step n s Q → (∀ t, Q t → Leads step m t R) →
      Leads step (n + m) s R := by
  intro n s h hQ es hes
  obtain ⟨t, ht, hQt⟩ := h (es.take n) (by rw [List.length_take]; omega)
  obtain ⟨s', hs', hR⟩ := hQ t hQt (es.drop n) (by rw [List.length_drop]; omega)
  refine ⟨s', ?_, hR⟩
  rw [← List.take_append_drop n es, run_append ht]
  exact hs'

/-- Whether all steps of a run are permitted, by playing it. -/
def checkAlong (step : σ → ε → Option σ) (p : σ → ε → Bool) : σ → List ε → Bool
  | _, [] => true
  | s, e :: es =>
    p s e && match step s e with
      | some s' => checkAlong step p s' es
      | none => true

theorem checkAlong_iff {p : σ → ε → Bool} (hp : ∀ s e, p s e = true ↔ P s e) (s : σ) (es : List ε) :
    checkAlong step p s es = true ↔ Along step P s es := by
  induction es generalizing s with
  | nil => simp [checkAlong, Along]
  | cons e es ih =>
    rw [checkAlong, Along, Bool.and_eq_true, hp]
    cases hs : step s e with
    | none => simp
    | some s' => simp [ih]

instance decidableAlong [∀ s e, Decidable (P s e)] (s : σ) (es : List ε) :
    Decidable (Along step P s es) :=
  decidable_of_iff _ (checkAlong_iff (p := fun s e => decide (P s e))
    (fun _ _ => decide_eq_true_iff) s es)

/-- A condition on the events alone. -/
theorem along_of_mem {Q : ε → Prop} : ∀ {es : List ε} (s : σ), (∀ e ∈ es, Q e) →
    Along step (fun _ e => Q e) s es
  | [], _, _ => trivial
  | e :: _, _, h => ⟨h e List.mem_cons_self, fun s' _ =>
    along_of_mem s' fun e' he' => h e' (List.mem_cons_of_mem _ he')⟩

/-- What an observer sees of the steps of a run, one after the other. -/
def observed {α : Type} (step : σ → ε → Option σ) (see : σ → ε → Option α) : σ → List ε → List α
  | _, [] => []
  | s, e :: es =>
    (see s e).toList ++ match step s e with
      | some s' => observed step see s' es
      | none => []

theorem mem_observed {α : Type} {see : σ → ε → Option α} {a : α} :
    ∀ {es : List ε} {s : σ}, a ∈ observed step see s es → ∃ e ∈ es, ∃ t, see t e = some a
  | [], _, h => by cases h
  | e :: es, s, h => by
    rw [observed] at h
    rcases List.mem_append.mp h with hnow | hla
    · exact ⟨e, List.mem_cons_self, s, Option.mem_toList.mp hnow⟩
    · split at hla
      · obtain ⟨e', he', t, ht⟩ := mem_observed hla
        exact ⟨e', List.mem_cons_of_mem _ he', t, ht⟩
      · cases hla

end Runs

/-! ## Traces -/

section Traces

variable {σ τ γ ρ : Type}

/-- The answers to a list of calls. -/
def trace (answer : σ → γ → ρ × σ) : σ → List γ → List ρ
  | _, [] => []
  | s, c :: cs => (answer s c).1 :: trace answer (answer s c).2 cs

/-- The state after a list of calls. -/
def after (answer : σ → γ → ρ × σ) (s : σ) (cs : List γ) : σ :=
  cs.foldl (fun s c => (answer s c).2) s

variable {answer : σ → γ → ρ × σ} {answer' : τ → γ → ρ × τ}

theorem trace_snoc (s : σ) (cs : List γ) (c : γ) :
    trace answer s (cs ++ [c]) = trace answer s cs ++ [(answer (after answer s cs) c).1] := by
  induction cs generalizing s with
  | nil => rfl
  | cons d cs ih =>
    simp only [List.cons_append, trace, ih]
    rfl

/-- The simulation rule. -/
theorem trace_eq_of_sim {R : σ → τ → Prop} (hst : ∀ s t c, R s t →
      (answer s c).1 = (answer' t c).1 ∧ R (answer s c).2 (answer' t c).2)
    {s : σ} {t : τ} (h : R s t) (cs : List γ) : trace answer s cs = trace answer' t cs := by
  induction cs generalizing s t with
  | nil => rfl
  | cons c cs ih =>
    obtain ⟨hr, hR⟩ := hst s t c h
    simp only [trace, hr, ih hR]

end Traces

end GradidoNode.Lib
