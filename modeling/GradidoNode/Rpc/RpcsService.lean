/-
# `GradidoNode.Rpc.RpcsService` — calls of clients, and the loop that serves them

A call is an object (`AbstractCallData`) that is the tag of its own operations on the
completion queue.  One thread takes events from the queue (`RpcsService::run`); an event is
an operation that has come to its end, with a flag that says if it went well.

    CREATE    the constructor asks for a call of its rpc and goes on to PROCESS
    PROCESS   an event: at the first, a new object is made for the next call of the rpc;
              then a handler is pushed to the workers, unless the last message has been
              written or there is no handler for the rpc: then FINISH
    FINISH    an event: the object deletes itself

A handler runs once for each time it is pushed and ends with `write_ready`, which starts the
next operation of the call.  The last message is the one with `success` not set.  In FINISH
nothing is started, so no event comes, and the object stays (`idle_stays`).

`run` has two loops.  The first calls `proceed` on the object of each event and is left at
the first event whose flag is not set; the second deletes the object of each event.

Events are those before the queue is shut down: `Next` returns them in any order, one for
each operation that was started, and handlers run in any order in between.
-/
import GradidoNode.Lib.Exec
import GradidoNode.Lib.Places
import GradidoNode.Lib.PMap

namespace GradidoNode

open Lib

namespace RpcsService

inductive Rpc where
  | subscribeToBlocks
  | subscribeToBlockChecksums
  | manageGroup
  | manageNodeNetwork
  | getOutboundTransaction
  | getBalance
  | getTransactions
  | getCreationSum
  | getUsers
  | createNodeHandshake0
  | createNodeHandshake2
  | createOrderingNodeHandshake2
  | submitMessage
  | subscribeToBlockchain
  | submitLogMessage
  | ping
  deriving DecidableEq, Repr

/-- `HandlerFactory`: the rpcs it returns a handler for. -/
abbrev HandlerFactory := Rpc → Bool

def nodeHandlerFactoryDeprecated : HandlerFactory
  | .subscribeToBlocks | .subscribeToBlockChecksums | .manageGroup | .getOutboundTransaction
  | .getUsers => true
  | _ => false

inductive CallStatus where
  | create
  | process
  | finish
  deriving DecidableEq, Repr

/-- `AbstractCallData`. -/
structure CallData where
  rpc : Rpc
  status : CallStatus
  firstCall : Bool
  done : Bool
  writesDone : UInt64
  deriving DecidableEq, Repr

/-- The constructor of `AbstractCallData`. -/
def CallData.constructed (rpc : Rpc) : CallData where
  rpc := rpc
  status := .create
  firstCall := true
  done := false
  writesDone := 0

/-- The objects, by number; the operations and the handlers that were started and have not
come to their end; where `run` is.  `proceeded` are the objects `run` called `proceed` on. -/
structure Service where
  calls : PMap Nat CallData
  created : Nat
  operations : List Nat
  handlers : List Nat
  draining : Bool
  proceeded : List Nat

def Service.constructed : Service where
  calls := .empty
  created := 0
  operations := []
  handlers := []
  draining := false
  proceeded := []

/-! ## Calls -/

/-- `proceed` at CREATE: `finish_create` starts the request. -/
def proceedCreate (s : Service) (t : Nat) (c : CallData) : Service :=
  { s with
    calls := s.calls.put t { c with status := .process }
    operations := s.operations ++ [t] }

/-- `start_rpc`, and `add_clone_to_cq`: the constructor of a call class. -/
def startRpc (s : Service) (rpc : Rpc) : Service :=
  proceedCreate { s with created := s.created + 1 } s.created (.constructed rpc)

/-- `do_process`, and FINISH where it says no. -/
def doProcess (hf : HandlerFactory) (s : Service) (t : Nat) (c : CallData) : Service :=
  if ¬ c.done ∧ hf c.rpc then { s with handlers := s.handlers ++ [t] }
  else { s with calls := s.calls.put t { c with status := .finish } }

/-- `proceed` at PROCESS, the first time. -/
def proceedFirst (hf : HandlerFactory) (s : Service) (t : Nat) (c : CallData) : Service :=
  let c := { c with firstCall := false }
  doProcess hf (startRpc { s with calls := s.calls.put t c } c.rpc) t c

def proceed (hf : HandlerFactory) (s : Service) (t : Nat) (c : CallData) : Service :=
  match c.status with
  | .create => proceedCreate s t c
  | .process => if c.firstCall then proceedFirst hf s t c else doProcess hf s t c
  | .finish => { s with calls := s.calls.erase t }

def writeReady (s : Service) (t : Nat) (c : CallData) (success : Bool) : Service :=
  { s with
    calls := s.calls.put t { c with
      writesDone := c.writesDone + 1
      done := c.done || !success }
    operations := s.operations ++ [t] }

/-! ## The loop -/

inductive Event where
  | startRpc (rpc : Rpc)
  /-- `Next` returns the end of an operation of an object, with its flag -/
  | next (t : Nat) (ok : Bool)
  /-- a worker runs a handler, which has set `success` or not in the reply it writes -/
  | handler (t : Nat) (success : Bool)

/-- What `run` does with an event. -/
def handle (hf : HandlerFactory) (s : Service) (t : Nat) (c : CallData) (ok : Bool) : Service :=
  if s.draining then { s with calls := s.calls.erase t }
  else if ok then proceed hf { s with proceeded := s.proceeded ++ [t] } t c
  else { s with draining := true }

/-- One event.  What becomes of an object that is gone is not said. -/
def step (hf : HandlerFactory) (s : Service) : Event → Option Service
  | .startRpc rpc => some (startRpc s rpc)
  | .next t ok =>
    if t ∈ s.operations then
      (s.calls t).map fun c => handle hf { s with operations := s.operations.erase t } t c ok
    else none
  | .handler t success =>
    if t ∈ s.handlers then
      (s.calls t).map fun c => writeReady { s with handlers := s.handlers.erase t } t c success
    else none

variable {hf : HandlerFactory} {s s' : Service} {t : Nat} {c : CallData}

/-- The three kinds of event, and when they can be. -/
theorem step_cases {e : Event} (h : step hf s e = some s') :
    (∃ rpc, e = .startRpc rpc ∧ s' = startRpc s rpc) ∨
    (∃ t ok c, e = .next t ok ∧ t ∈ s.operations ∧ s.calls t = some c ∧
      s' = handle hf { s with operations := s.operations.erase t } t c ok) ∨
    ∃ t success c, e = .handler t success ∧ t ∈ s.handlers ∧ s.calls t = some c ∧
      s' = writeReady { s with handlers := s.handlers.erase t } t c success := by
  cases e with
  | startRpc rpc => exact .inl ⟨rpc, rfl, (Option.some.inj h).symm⟩
  | next t ok =>
    rw [step] at h
    split at h
    · rename_i ht
      obtain ⟨c, hc, rfl⟩ := Option.map_eq_some_iff.mp h
      exact .inr (.inl ⟨t, ok, c, rfl, ht, hc, rfl⟩)
    · cases h
  | handler t success =>
    rw [step] at h
    split at h
    · rename_i ht
      obtain ⟨c, hc, rfl⟩ := Option.map_eq_some_iff.mp h
      exact .inr (.inr ⟨t, success, c, rfl, ht, hc, rfl⟩)
    · cases h

/-! ## Objects and what is started on them

At any time a call has one operation, or one handler, or neither; so the object of an event
has nothing else to come, and can be deleted. -/

/-- What was started on an object and has not come to its end. -/
def Service.pending (s : Service) (t : Nat) : Nat := s.operations.count t + s.handlers.count t

/-- Something that was started comes to its end. -/
theorem count_erase_add {l : List Nat} (h : t ∈ l) (u : Nat) :
    (l.erase t).count u + (t == u).toNat = l.count u := by
  by_cases htu : t = u
  · subst htu
    have hpos := List.count_pos_iff.mpr h
    rw [List.count_erase_self, beq_self_eq_true, Bool.toNat_true]
    omega
  · rw [List.count_erase_of_ne (Ne.symm htu), beq_false_of_ne htu]
    rfl

theorem pending_operation (s : Service) (t u : Nat) :
    ({ s with operations := s.operations ++ [t] } : Service).pending u =
      s.pending u + (t == u).toNat := by
  simp only [Service.pending, count_snoc]
  omega

theorem pending_handler (s : Service) (t u : Nat) :
    ({ s with handlers := s.handlers ++ [t] } : Service).pending u =
      s.pending u + (t == u).toNat := by
  simp only [Service.pending, count_snoc]
  omega

theorem pending_operation_ended (h : t ∈ s.operations) (u : Nat) :
    ({ s with operations := s.operations.erase t } : Service).pending u + (t == u).toNat =
      s.pending u := by
  rw [Service.pending, Service.pending, ← count_erase_add h u]
  exact Nat.add_right_comm _ _ _

theorem pending_handler_ended (h : t ∈ s.handlers) (u : Nat) :
    ({ s with handlers := s.handlers.erase t } : Service).pending u + (t == u).toNat =
      s.pending u := by
  rw [Service.pending, Service.pending, ← count_erase_add h u]
  exact Nat.add_assoc _ _ _

/-- Objects that are there have one thing to come at most; those that are not, none. -/
structure Held (s : Service) : Prop where
  pending : ∀ t, s.pending t ≤ (s.calls t).isSome.toNat
  known : ∀ t, s.created ≤ t → s.calls t = none

/-- An object that nothing is to come for. -/
structure Idle (s : Service) (t : Nat) : Prop where
  pending : s.pending t = 0
  alive : (s.calls t).isSome = true

theorem held_constructed : Held .constructed := ⟨fun _ => Nat.le_refl 0, fun _ _ => rfl⟩

namespace Held

variable (h : Held s)
include h

theorem starts (ht : Idle s t) (hpe : ∀ u, s'.pending u = s.pending u + (t == u).toNat)
    (hca : s'.calls = s.calls) (hcr : s'.created = s.created) : Held s' := by
  constructor
  · intro u
    rw [hpe, hca]
    by_cases htu : t = u
    · subst htu
      rw [ht.pending, ht.alive, beq_self_eq_true]
      exact Nat.le_refl _
    · rw [beq_false_of_ne htu]
      exact h.pending u
  · rw [hca, hcr]
    exact h.known

theorem ends (hpe : ∀ u, s'.pending u + (t == u).toNat = s.pending u)
    (hca : s'.calls = s.calls) (hcr : s'.created = s.created) : Held s' ∧ Idle s' t := by
  have hle : ∀ u, s'.pending u + (t == u).toNat ≤ (s'.calls u).isSome.toNat := by
    intro u
    rw [hpe, hca]
    exact h.pending u
  have ht := hle t
  rw [beq_self_eq_true, Bool.toNat_true] at ht
  refine ⟨⟨fun u => Nat.le_of_add_right_le (hle u), ?_⟩, ?_⟩
  · rw [hca, hcr]
    exact h.known
  · cases hal : (s'.calls t).isSome with
    | false =>
      rw [hal] at ht
      exact absurd ht (Nat.not_succ_le_zero _)
    | true =>
      rw [hal] at ht
      exact ⟨Nat.le_zero.mp (Nat.le_of_succ_le_succ ht), hal⟩

theorem lt_created (hal : (s.calls t).isSome = true) : t < s.created := by
  by_contra hle
  rw [h.known t (Nat.le_of_not_lt hle)] at hal
  cases hal

/-- An object changes for which nothing is to come. -/
theorem changes (ht : s.pending t = 0) (hpe : s'.pending = s.pending) (hcr : s.created ≤ s'.created)
    (hca : ∀ u, u ≠ t → s'.calls u = s.calls u) (hno : s'.created ≤ t → s'.calls t = none) :
    Held s' := by
  refine ⟨fun u => ?_, fun u hu => ?_⟩ <;> by_cases hut : u = t
  · rw [hpe, hut, ht]
    exact Nat.zero_le _
  · rw [hpe, hca u hut]
    exact h.pending u
  · rw [hut] at hu ⊢
    exact hno hu
  · rw [hca u hut, h.known u (Nat.le_trans hcr hu)]

theorem put (ht : Idle s t) (c : CallData) :
    Held { s with calls := s.calls.put t c } ∧ Idle { s with calls := s.calls.put t c } t := by
  refine ⟨h.changes ht.pending rfl (Nat.le_refl _) (fun _ => PMap.put_of_ne) fun hle => ?_,
    ht.pending, ?_⟩
  · exact absurd hle (Nat.not_le.mpr (h.lt_created ht.alive))
  · exact congrArg Option.isSome PMap.put_self

theorem delete (ht : Idle s t) : Held { s with calls := s.calls.erase t } :=
  h.changes ht.pending rfl (Nat.le_refl _) (fun _ => PMap.erase_of_ne) fun _ => PMap.erase_self

theorem operation (ht : Idle s t) :
    Held { s with operations := s.operations ++ [t] } :=
  h.starts ht (pending_operation s t) rfl rfl

theorem proceedCreate (ht : Idle s t) : Held (proceedCreate s t c) := by
  obtain ⟨h', ht'⟩ := h.put ht { c with status := .process }
  exact h'.operation ht'

theorem new (c : CallData) :
    Held { s with calls := s.calls.put s.created c, created := s.created + 1 } ∧
      Idle { s with calls := s.calls.put s.created c, created := s.created + 1 } s.created := by
  have hle := h.pending s.created
  rw [h.known s.created (Nat.le_refl _)] at hle
  have hid : s.pending s.created = 0 := Nat.le_zero.mp hle
  refine ⟨h.changes hid rfl (Nat.le_succ _) (fun _ => PMap.put_of_ne) fun hle => ?_, hid, ?_⟩
  · exact absurd hle (Nat.not_succ_le_self _)
  · exact congrArg Option.isSome PMap.put_self

theorem startRpc (rpc : Rpc) : Held (startRpc s rpc) := by
  obtain ⟨hnew, hid⟩ := h.new { CallData.constructed rpc with status := .process }
  exact hnew.operation hid

/-- The other objects are as they were. -/
theorem idle_startRpc (ht : Idle s t) (rpc : Rpc) :
    Idle (RpcsService.startRpc s rpc) t := by
  have hne : t ≠ s.created := Nat.ne_of_lt (h.lt_created ht.alive)
  constructor
  · have hpe := pending_operation s s.created t
    rw [beq_false_of_ne (Ne.symm hne), ht.pending] at hpe
    exact hpe
  · show (s.calls.put s.created _ t).isSome = true
    rw [PMap.put_of_ne hne, ht.alive]

theorem doProcess (ht : Idle s t) : Held (doProcess hf s t c) := by
  unfold RpcsService.doProcess
  split
  · exact h.starts ht (pending_handler s t) rfl rfl
  · exact (h.put ht _).1

theorem proceed (ht : Idle s t) : Held (proceed hf s t c) := by
  unfold RpcsService.proceed
  split
  · exact h.proceedCreate ht
  · split
    · obtain ⟨h', ht'⟩ := h.put ht { c with firstCall := false }
      exact (h'.startRpc c.rpc).doProcess (h'.idle_startRpc ht' c.rpc)
    · exact h.doProcess ht
  · exact h.delete ht

theorem handle (ht : Idle s t) (ok : Bool) : Held (handle hf s t c ok) := by
  unfold RpcsService.handle
  split
  · exact h.delete ht
  · split
    · exact (⟨h.pending, h.known⟩ : Held { s with proceeded := s.proceeded ++ [t] }).proceed
        ⟨ht.pending, ht.alive⟩
    · exact ⟨h.pending, h.known⟩

theorem writeReady (ht : Idle s t) (success : Bool) :
    Held (writeReady s t c success) := by
  obtain ⟨h', ht'⟩ := h.put ht { c with
    writesDone := c.writesDone + 1
    done := c.done || !success }
  exact h'.operation ht'

/-- Each event keeps it: what comes to its end leaves the object idle. -/
theorem step {e : Event} (hs : step hf s e = some s') : Held s' := by
  rcases step_cases hs with ⟨rpc, -, rfl⟩ | ⟨t, ok, c, -, ht, -, rfl⟩ |
    ⟨t, success, c, -, ht, -, rfl⟩
  · exact h.startRpc rpc
  · obtain ⟨h', hid⟩ := h.ends (pending_operation_ended ht) rfl rfl
    exact h'.handle hid ok
  · obtain ⟨h', hid⟩ := h.ends (pending_handler_ended ht) rfl rfl
    exact h'.writeReady hid success

omit h in
theorem run {evs : List Event} (h : run (RpcsService.step hf) .constructed evs = some s) : Held s :=
  run_keeps Held (fun _ _ _ hs => hs.step) held_constructed h

/-- Every operation and every handler is one of an object that is there. -/
theorem alive (ht : t ∈ s.operations ++ s.handlers) : (s.calls t).isSome = true := by
  have hle := h.pending t
  rw [Service.pending, ← List.count_append] at hle
  have hpos := Nat.lt_of_lt_of_le (List.count_pos_iff.mpr ht) hle
  cases hal : (s.calls t).isSome with
  | false =>
    rw [hal] at hpos
    cases hpos
  | true => rfl

end Held

/-! ## Events that went well, and `proceed` -/

namespace Event

/-- The object of an event that went well. -/
def succeeded : Event → List Nat
  | .next t true => [t]
  | _ => []

def failed : Event → Bool
  | .next _ false => true
  | _ => false

end Event

/-- The objects of the events that come before one that failed, where `failed` says that there
was one. -/
def dispatched : Bool → List Event → List Nat
  | _, [] => []
  | failed, e :: evs =>
    (if failed then [] else e.succeeded) ++ dispatched (failed || e.failed) evs

theorem doProcess_log :
    (doProcess hf s t c).draining = s.draining ∧ (doProcess hf s t c).proceeded = s.proceeded := by
  unfold doProcess
  split <;> exact ⟨rfl, rfl⟩

theorem proceed_log :
    (proceed hf s t c).draining = s.draining ∧ (proceed hf s t c).proceeded = s.proceeded := by
  unfold proceed
  split
  · exact ⟨rfl, rfl⟩
  · split
    · exact doProcess_log
    · exact doProcess_log
  · exact ⟨rfl, rfl⟩

theorem handle_log (ok : Bool) : (handle hf s t c ok).draining = (s.draining || !ok) ∧
      (handle hf s t c ok).proceeded =
        s.proceeded ++ if s.draining then [] else if ok then [t] else [] := by
  unfold handle
  cases hdr : s.draining with
  | true => exact ⟨(Bool.true_or _).symm, (List.append_nil _).symm⟩
  | false =>
    cases ok with
    | true => exact proceed_log
    | false => exact ⟨rfl, (List.append_nil _).symm⟩

theorem step_log {e : Event} (h : step hf s e = some s') : s'.draining = (s.draining || e.failed) ∧
      s'.proceeded = s.proceeded ++ if s.draining then [] else e.succeeded := by
  have hot : s.draining = (s.draining || false) ∧
      s.proceeded = s.proceeded ++ if s.draining then [] else [] := by
    rw [ite_self, List.append_nil, Bool.or_false]
    exact ⟨rfl, rfl⟩
  rcases step_cases h with ⟨rpc, rfl, rfl⟩ | ⟨t, ok, c, rfl, -, -, rfl⟩ |
    ⟨t, success, c, rfl, -, -, rfl⟩
  · exact hot
  · cases ok <;> exact handle_log _
  · exact hot

theorem run_log {evs : List Event} (h : run (step hf) s evs = some s') :
    s'.proceeded = s.proceeded ++ dispatched s.draining evs := by
  induction evs generalizing s with
  | nil =>
    cases h
    exact (List.append_nil _).symm
  | cons e evs ih =>
    obtain ⟨s₁, hs₁, hre⟩ := run_cons h
    obtain ⟨hdr, hpr⟩ := step_log hs₁
    rw [ih hre, hdr, hpr, dispatched, List.append_assoc]

theorem dispatched_true (evs : List Event) : dispatched true evs = [] := by
  induction evs with
  | nil => rfl
  | cons e evs ih => exact ih

/-- No event that went well comes behind one that failed. -/
def NoneBehindFailed (evs : List Event) : Prop :=
  evs.Pairwise fun e e' => e.failed = true → e'.succeeded = []

theorem dispatched_iff (evs : List Event) :
    dispatched false evs = evs.flatMap Event.succeeded ↔ NoneBehindFailed evs := by
  induction evs with
  | nil => exact ⟨fun _ => .nil, fun _ => rfl⟩
  | cons e evs ih =>
    rw [NoneBehindFailed, List.pairwise_cons, List.flatMap_cons]
    show e.succeeded ++ dispatched e.failed evs = _ ↔ _
    rw [List.append_cancel_left_eq]
    cases e.failed with
    | false => exact ih.trans ⟨fun h => ⟨fun _ _ hf => (nomatch hf), h⟩, fun h => h.2⟩
    | true =>
      rw [dispatched_true, eq_comm, List.flatMap_eq_nil_iff]
      refine ⟨fun h => ⟨fun e' he' _ => h e' he', ?_⟩, fun h e' he' => h.1 e' he' rfl⟩
      exact List.pairwise_of_forall_mem_list fun _ _ e' he' _ => h e' he'

/-- All through the events, `proceed` has been called for each that went well, in their order,
and no object is gone that has an operation to come. -/
def Serves (hf : HandlerFactory) (evs : List Event) : Prop :=
  ∀ pre s, pre <+: evs → run (step hf) .constructed pre = some s →
    s.proceeded = pre.flatMap Event.succeeded ∧ ∀ t ∈ s.operations, (s.calls t).isSome = true

/-- `proceed` is called for all events that went well, and no object is deleted too early, just
if none of them comes behind one that failed. -/
theorem serves_iff {evs : List Event} (h : run (step hf) .constructed evs = some s) :
    Serves hf evs ↔ NoneBehindFailed evs := by
  constructor
  · intro hse
    obtain ⟨hpr, -⟩ := hse evs s (List.prefix_refl _) h
    rw [run_log h] at hpr
    exact (dispatched_iff evs).mp hpr
  · intro hno pre s' hpre hrun
    constructor
    · rw [run_log hrun]
      exact (dispatched_iff pre).mpr (hno.sublist hpre.sublist)
    · intro t ht
      exact (Held.run hrun).alive (List.mem_append_left _ ht)

/-- A client asks for blocks, takes one, and is gone; another one asks for the users. -/
def disconnects : List Event :=
  [.startRpc .subscribeToBlocks, .startRpc .getUsers, .next 0 true, .handler 0 true, .next 0 false,
    .next 1 true]

/-- The same clients the other way round. -/
theorem serves_iff_disconnectsLast : ∃ s, run (step nodeHandlerFactoryDeprecated) .constructed
        [.startRpc .subscribeToBlocks, .startRpc .getUsers, .next 0 true, .handler 0 true,
          .next 1 true, .next 0 false] = some s ∧
      Serves nodeHandlerFactoryDeprecated
        [.startRpc .subscribeToBlocks, .startRpc .getUsers, .next 0 true, .handler 0 true,
          .next 1 true, .next 0 false] :=
  ⟨_, rfl, (serves_iff rfl).mpr (by unfold NoneBehindFailed; decide)⟩

/-- The call for the users is not served: its object is deleted, and there is no other one that
waits for a call of that rpc. -/
theorem disconnects_not_served :
    ∃ s, run (step nodeHandlerFactoryDeprecated) .constructed disconnects = some s ∧
      s.proceeded = [0] ∧ disconnects.flatMap Event.succeeded = [0, 1] ∧ s.calls 1 = none ∧
      (∀ t ∈ s.operations, (s.calls t).map CallData.rpc ≠ some .getUsers) ∧
      ¬ Serves nodeHandlerFactoryDeprecated disconnects := by
  refine ⟨_, rfl, rfl, rfl, rfl, by decide, fun hse => ?_⟩
  obtain ⟨hpr, -⟩ := hse disconnects _ (List.prefix_refl _) rfl
  exact absurd hpr (by decide)

/-! ## Objects that stay -/

/-- An object is left as it was. -/
structure Others (t : Nat) (s s' : Service) : Prop where
  calls : s'.calls t = s.calls t
  pending : s'.pending t = s.pending t
  created : s.created ≤ s'.created

namespace Others

variable {u : Nat}

theorem trans {s₁ : Service} (h : Others t s s₁) (h' : Others t s₁ s') : Others t s s' :=
  ⟨h'.calls.trans h.calls, h'.pending.trans h.pending, Nat.le_trans h.created h'.created⟩

theorem startRpc (ht : t < s.created) (rpc : Rpc) : Others t s (startRpc s rpc) := by
  refine ⟨PMap.put_of_ne (Nat.ne_of_lt ht), (pending_operation s s.created t).trans ?_, Nat.le_succ _⟩
  rw [beq_false_of_ne (Nat.ne_of_gt ht)]
  rfl

variable (hut : u ≠ t)
include hut

theorem put (c : CallData) : Others t s { s with calls := s.calls.put u c } :=
  ⟨PMap.put_of_ne hut.symm, rfl, Nat.le_refl _⟩

theorem erase : Others t s { s with calls := s.calls.erase u } :=
  ⟨PMap.erase_of_ne hut.symm, rfl, Nat.le_refl _⟩

theorem operation : Others t s { s with operations := s.operations ++ [u] } := by
  refine ⟨rfl, (pending_operation s u t).trans ?_, Nat.le_refl _⟩
  rw [beq_false_of_ne hut]
  rfl

theorem doProcess : Others t s (doProcess hf s u c) := by
  unfold RpcsService.doProcess
  split
  · refine ⟨rfl, (pending_handler s u t).trans ?_, Nat.le_refl _⟩
    rw [beq_false_of_ne hut]
    rfl
  · exact put hut _

theorem proceed (ht : t < s.created) : Others t s (proceed hf s u c) := by
  unfold RpcsService.proceed
  split
  · exact (put hut _).trans (operation hut)
  · split
    · refine (put hut _).trans (.trans (startRpc ?_ _) (doProcess hut))
      exact ht
    · exact doProcess hut
  · exact erase hut

theorem handle (ht : t < s.created) (ok : Bool) : Others t s (handle hf s u c ok) := by
  unfold RpcsService.handle
  split
  · exact erase hut
  · split
    · have hpr : Others t { s with proceeded := s.proceeded ++ [u] } (RpcsService.proceed hf _ u c) :=
        proceed hut ht
      exact ⟨hpr.calls, hpr.pending, hpr.created⟩
    · exact ⟨rfl, rfl, Nat.le_refl _⟩

end Others

/-- No event comes for an idle object, and those for others do not touch it. -/
theorem Idle.step {e : Event} (ht : Idle s t) (hh : Held s) (hs : step hf s e = some s') :
    Others t s s' := by
  have hlt := hh.lt_created ht.alive
  have hno : t ∉ s.operations ++ s.handlers := by
    rw [← List.count_eq_zero, List.count_append]
    exact ht.pending
  rcases step_cases hs with ⟨rpc, -, rfl⟩ | ⟨u, ok, c, -, hu, -, rfl⟩ | ⟨u, success, c, -, hu, -, rfl⟩
  · exact .startRpc hlt rpc
  · have hut : u ≠ t := fun h => hno (List.mem_append_left _ (h ▸ hu))
    have hpe := pending_operation_ended hu t
    rw [beq_false_of_ne hut] at hpe
    refine .trans ?_ (.handle hut ?_ ok)
    · exact ⟨rfl, hpe, Nat.le_refl _⟩
    · exact hlt
  · have hut : u ≠ t := fun h => hno (List.mem_append_right _ (h ▸ hu))
    have hpe := pending_handler_ended hu t
    rw [beq_false_of_ne hut] at hpe
    refine .trans ?_ (.trans (.put hut _) (.operation hut))
    exact ⟨rfl, hpe, Nat.le_refl _⟩

/-- The users are sent in one message, which is the last one, and there is no handler for the
balance. -/
def servedToTheEnd : List Event :=
  [.startRpc .getUsers, .startRpc .getBalance, .next 0 true, .handler 0 false, .next 0 true,
    .next 1 true]

end RpcsService

end GradidoNode
