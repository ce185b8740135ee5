/-
# `GradidoNode.Facade.Pairing` — waiting for the other half of a transaction

`GroupBlockchainFacade` keeps, for each pairing id, the listener that waits for the paired
transaction.  A registration asks a sibling for it and opens a stream of replies.
`OutboundProvider` answers with the record, if it has it, and ends the stream with a
message without success; if it does not have it, with the end alone:

    success                AddPairedTask         the listener is called, the entry erased
    no success             TryPairedAgainTask    after a second: the sibling is asked again

A message without success is taken for "not yet" wherever it comes, so the end of the
stream that has brought the record schedules another attempt.  That attempt finds the
entry gone and throws (`end_after_success_throws`), or it runs first, and the second
record finds the entry gone.

Every id has its tokens: the streams that have brought nothing for it, and the tasks that
have not run.  An id that waits has one, and each late end adds another (`Inv.tokens`).
`Timely` leaves out these ends, and retries without a sibling to ask; then the protocol
does what it is for (`pairing_completes`).

Listeners are called under the lock of the facade; the entry is erased before the code
follows its iterator to the listener, and the model takes the listener that was there.
-/
import GradidoNode.Wire.PairedTransaction

namespace GradidoNode.Pairing

open Lib Wire

/-- `grpr::OutboundTransactionDescriptor`. -/
structure OutboundTransactionDescriptor where
  group : Bytes
  pairedTransactionId : HederaTimestamp
  deriving DecidableEq, Repr

/-- The data of a reply with success: the bytes of a record. -/
abbrev Data := { bytes : List UInt8 // bytes.length = rowBodySize }

variable {Listener : Type}

structure PairedTransactionData (Listener : Type) where
  ptl : Listener
  otd : OutboundTransactionDescriptor

abbrev Facade (Listener : Type) := GroupBlockchainFacade (PairedTransactionData Listener)

/-! ## The calls -/

/-- `exec_once_paired_transaction_done(group, ptl, hti)`: the request it sends, unless
somebody waits already.  `sibling` is what `get_random_sibling_endpoint` found. -/
def execOncePairedTransactionDone (sibling : Option String) (group : Bytes) (ptl : Listener)
    (hti : HederaTimestamp) :
    EStateM Fault (Facade Listener) (Option OutboundTransactionDescriptor) := do
  match sibling with
  | none => throw (.thrown "need sibling to get paired transaction")
  | some _ =>
    let s ← get
    match s.waitingForPaired hti with
    | some _ => return none
    | none =>
      set ({ s with waitingForPaired := s.waitingForPaired.put hti ⟨ptl, ⟨group, hti⟩⟩ } :
        Facade Listener)
      return some ⟨group, hti⟩

/-- `exec_once_paired_transaction_done(hti)`: the request it sends again. -/
def execOncePairedTransactionDoneAgain (sibling : Option String) (hti : HederaTimestamp) :
    EStateM Fault (Facade Listener) OutboundTransactionDescriptor := do
  match sibling with
  | none => throw (.thrown "need sibling to get paired transaction")
  | some _ =>
    let s ← get
    match s.waitingForPaired hti with
    | none => throw (.thrown "cannot continue getting paired transaction")
    | some ptd => return ptd.otd

/-- The tasks the replies push. -/
inductive Task where
  | addPaired (data : Data) (req : OutboundTransactionDescriptor)
  | tryPairedAgain (req : OutboundTransactionDescriptor)
  deriving DecidableEq

/-- What the run of a task does outside the facade. -/
inductive Effect (Listener : Type) where
  | calls (ptl : Listener) (t : Wire.Transaction)
  | requires (otd : OutboundTransactionDescriptor)

/-- `AddPairedTask::run` and `TryPairedAgainTask::run`. -/
def runTask (sibling : Option String) : Task → EStateM Fault (Facade Listener) (Effect Listener)
  | .addPaired data req => do
    let r ← onPairedTransaction data.val req.pairedTransactionId
    return .calls r.1.ptl r.2
  | .tryPairedAgain req => do
    let otd ← execOncePairedTransactionDoneAgain sibling req.pairedTransactionId
    return .requires otd

/-! ## The system -/

/-- A stream of replies: the request it was opened with, and whether it has brought a
success. -/
structure Stream where
  req : OutboundTransactionDescriptor
  succeeded : Bool
  deriving DecidableEq, Repr

/-- The facade with its streams and tasks, and what has happened so far: who registered,
what was received, which listener was called, and which ids saw the end of a stream behind
its success. -/
structure System (Listener : Type) where
  facade : Facade Listener
  streams : List Stream
  pending : List Task
  registered : List (HederaTimestamp × Listener)
  received : List (HederaTimestamp × Data)
  called : List (HederaTimestamp × Listener × Wire.Transaction)
  late : List HederaTimestamp

def initial : System Listener := ⟨⟨PMap.empty⟩, [], [], [], [], [], []⟩

inductive Event (Listener : Type) where
  | register (sibling : Option String) (group : Bytes) (ptl : Listener) (hti : HederaTimestamp)
  | success (req : OutboundTransactionDescriptor) (data : Data)
  | ended (stream : Stream)
  | task (sibling : Option String) (t : Task)

/-- The request a task was made for. -/
def Task.req : Task → OutboundTransactionDescriptor
  | .addPaired _ req => req
  | .tryPairedAgain req => req

/-- The system after the run of a task. -/
def afterTask (s : System Listener) (t : Task) (facade : Facade Listener) :
    Effect Listener → System Listener
  | .calls ptl tr => { s with
      facade := facade
      pending := s.pending.erase t
      called := s.called ++ [(t.req.pairedTransactionId, ptl, tr)] }
  | .requires otd => { s with
      facade := facade
      pending := s.pending.erase t
      streams := s.streams ++ [⟨otd, false⟩] }

/-- One event.  A stream brings at most one success, and its end closes it; a call that
throws ends the run. -/
def step (s : System Listener) : Event Listener → Option (System Listener)
  | .register sibling group ptl hti =>
    match execOncePairedTransactionDone sibling group ptl hti s.facade with
    | .ok otd facade => some { s with
        facade := facade
        streams := s.streams ++ (otd.map fun otd => ⟨otd, false⟩).toList
        registered := s.registered ++ [(hti, ptl)] }
    | .error _ _ => none
  | .success req data =>
    if ⟨req, false⟩ ∈ s.streams then
      some { s with
        streams := s.streams.erase ⟨req, false⟩ ++ [⟨req, true⟩]
        pending := s.pending ++ [.addPaired data req]
        received := s.received ++ [(req.pairedTransactionId, data)] }
    else none
  | .ended stream =>
    if stream ∈ s.streams then
      some { s with
        streams := s.streams.erase stream
        pending := s.pending ++ [.tryPairedAgain stream.req]
        late := s.late ++ if stream.succeeded then [stream.req.pairedTransactionId] else [] }
    else none
  | .task sibling t =>
    if t ∈ s.pending then
      match runTask sibling t s.facade with
      | .ok effect facade => some (afterTask s t facade effect)
      | .error _ _ => none
    else none

/-- Registrations are for ids that nobody has registered. -/
def Distinct (s : System Listener) : Event Listener → Prop
  | .register _ _ _ hti => hti ∉ s.registered.map Prod.fst
  | _ => True

/-- A sibling is known when one is asked again; and the end of a stream does not come
behind its success. -/
def Timely : Event Listener → Prop
  | .ended stream => stream.succeeded = false
  | .task sibling (.tryPairedAgain _) => sibling.isSome
  | _ => True

/-- The transaction in the data, as it is read. -/
def transactionIn (data : Data) : Wire.Transaction :=
  (Record.packed.read (cStr data.val)).payload.transaction

/-- What the protocol is for.  No id is called twice; a listener is called for the id it
registered, with data received for the id; an entry is there from the registration to the
call; and no task that is pending throws. -/
structure Completes (s : System Listener) : Prop where
  once : (s.called.map Prod.fst).Nodup
  data : ∀ c ∈ s.called, (c.1, c.2.1) ∈ s.registered ∧
    ∃ data, (c.1, data) ∈ s.received ∧ c.2.2 = transactionIn data
  leaves : ∀ hti, (s.facade.waitingForPaired hti).isSome ↔
    hti ∈ s.registered.map Prod.fst ∧ hti ∉ s.called.map Prod.fst
  runs : ∀ t ∈ s.pending, ∀ sibling, Timely (.task sibling t : Event Listener) →
    Returns (runTask sibling t) s.facade fun _ _ => True

/-! ## What the calls do -/

section Calls

variable {f f' : Facade Listener} {hti : HederaTimestamp} {ptd : PairedTransactionData Listener}

theorem memcpy_data (data : Data) :
    memcpy Record.packed (cStr data.val) = some (Record.packed.read (cStr data.val)) := by
  have hlen : (cStr data.val).length = Record.packed.size := by
    rw [cStr, List.length_append, data.property]
    rfl
  rw [memcpy, if_pos (Nat.le_of_eq hlen.symm), List.take_of_length_le (Nat.le_of_eq hlen)]

theorem onPairedTransaction_waiting (h : f.waitingForPaired hti = some ptd) (data : Data) :
    onPairedTransaction data.val hti f
      = .ok (ptd, transactionIn data) { f with waitingForPaired := f.waitingForPaired.erase hti } := by
  rw [onPairedTransaction, get_bind, h]
  dsimp only
  rw [modify_bind, memcpy_data]
  rfl

variable {req : OutboundTransactionDescriptor} {endpoint : String} {group : Bytes}
  {ptl : Listener} {sibling : Option String}

theorem runTask_addPaired {data : Data}
    (h : f.waitingForPaired req.pairedTransactionId = some ptd) :
    runTask sibling (.addPaired data req) f = .ok (.calls ptd.ptl (transactionIn data))
      { f with waitingForPaired := f.waitingForPaired.erase req.pairedTransactionId } := by
  rw [runTask, bind_eq (onPairedTransaction_waiting h data)]
  rfl

theorem runTask_tryPairedAgain (h : f.waitingForPaired req.pairedTransactionId = some ptd) :
    runTask (some endpoint) (.tryPairedAgain req) f = .ok (.requires ptd.otd) f := by
  have hag : execOncePairedTransactionDoneAgain (some endpoint) req.pairedTransactionId f
      = .ok ptd.otd f := by
    rw [execOncePairedTransactionDoneAgain, get_bind, h]
    rfl
  rw [runTask, bind_eq hag]
  rfl

theorem runTask_tryPairedAgain_gone (h : f.waitingForPaired req.pairedTransactionId = none) :
    runTask (some endpoint) (.tryPairedAgain req) f
      = .error (.thrown "cannot continue getting paired transaction") f := by
  rw [runTask, execOncePairedTransactionDoneAgain, bind_error]
  rw [get_bind, h]
  rfl

/-- A task that returns has found the entry of its id. -/
theorem runTask_waits {t : Task} {effect : Effect Listener}
    (h : runTask sibling t f = .ok effect f') :
    ∃ ptd, f.waitingForPaired t.req.pairedTransactionId = some ptd := by
  refine Option.isSome_iff_exists.mp (Option.isSome_iff_ne_none.mpr fun hno => ?_)
  cases t with
  | addPaired data req =>
    have hth : onPairedTransaction data.val req.pairedTransactionId f
        = .error (.thrown "unexpected incoming pair") f := by
      have hno : f.waitingForPaired req.pairedTransactionId = none := hno
      rw [onPairedTransaction, get_bind, hno]
      rfl
    cases h.symm.trans (bind_error hth)
  | tryPairedAgain req =>
    cases sibling with
    | none => cases h
    | some endpoint => cases h.symm.trans (runTask_tryPairedAgain_gone hno)

theorem register_new {otd : Option OutboundTransactionDescriptor}
    (hno : f.waitingForPaired hti = none)
    (h : execOncePairedTransactionDone sibling group ptl hti f = .ok otd f') :
    otd = some ⟨group, hti⟩ ∧
      f' = { f with waitingForPaired := f.waitingForPaired.put hti ⟨ptl, ⟨group, hti⟩⟩ } := by
  cases sibling with
  | none => cases h
  | some endpoint =>
    rw [execOncePairedTransactionDone, get_bind, hno] at h
    cases h
    exact ⟨rfl, rfl⟩

end Calls

/-! ## Tokens

What will still be done for an id: a stream that has brought nothing yet brings a success
or an end, and a task runs. -/

def Stream.isToken (hti : HederaTimestamp) (stream : Stream) : Bool :=
  !stream.succeeded && decide (stream.req.pairedTransactionId = hti)

def Task.isToken (hti : HederaTimestamp) (t : Task) : Bool :=
  decide (t.req.pairedTransactionId = hti)

section Tokens

variable (hti : HederaTimestamp) (req : OutboundTransactionDescriptor) (data : Data)

@[simp] theorem isToken_open :
    Stream.isToken hti ⟨req, false⟩ = decide (req.pairedTransactionId = hti) := rfl

@[simp] theorem isToken_succeeded : Stream.isToken hti ⟨req, true⟩ = false := rfl

@[simp] theorem isToken_addPaired :
    Task.isToken hti (.addPaired data req) = decide (req.pairedTransactionId = hti) := rfl

@[simp] theorem isToken_tryPairedAgain :
    Task.isToken hti (.tryPairedAgain req) = decide (req.pairedTransactionId = hti) := rfl

end Tokens

/-- The tokens of an id. -/
def tokens (s : System Listener) (hti : HederaTimestamp) : Nat :=
  s.streams.countP (·.isToken hti) + s.pending.countP (·.isToken hti)

theorem countP_erase_add {α : Type} [DecidableEq α] {l : List α} {a : α} (p : α → Bool)
    (h : a ∈ l) : (l.erase a).countP p + (p a).toNat = l.countP p := by
  rw [(List.perm_cons_erase h).countP_eq p, List.countP_cons]
  cases p a <;> rfl

theorem countP_snoc {α : Type} (p : α → Bool) (l : List α) (a : α) :
    (l ++ [a]).countP p = l.countP p + (p a).toNat := by
  rw [List.countP_append, List.countP_singleton]
  cases p a <;> rfl

variable {s : System Listener}

theorem tokens_pos {t : Task} (h : t ∈ s.pending) : 0 < tokens s t.req.pairedTransactionId := by
  have hpos : 0 < s.pending.countP (·.isToken t.req.pairedTransactionId) :=
    List.countP_pos_iff.mpr ⟨t, h, decide_eq_true rfl⟩
  exact Nat.add_pos_right _ hpos

/-! ## The invariant -/

/-- What holds after every run in which ids are registered once. -/
structure Inv (s : System Listener) : Prop where
  once : (s.called.map Prod.fst).Nodup
  data : ∀ c ∈ s.called, (c.1, c.2.1) ∈ s.registered ∧
    ∃ data, (c.1, data) ∈ s.received ∧ c.2.2 = transactionIn data
  leaves : ∀ hti, (s.facade.waitingForPaired hti).isSome ↔
    hti ∈ s.registered.map Prod.fst ∧ hti ∉ s.called.map Prod.fst
  own : ∀ hti ptd, s.facade.waitingForPaired hti = some ptd →
    (hti, ptd.ptl) ∈ s.registered ∧ ptd.otd.pairedTransactionId = hti
  came : ∀ data req, Task.addPaired data req ∈ s.pending →
    (req.pairedTransactionId, data) ∈ s.received
  tokens : ∀ hti, tokens s hti = (s.facade.waitingForPaired hti).isSome.toNat + s.late.count hti

theorem inv_initial : Inv (initial : System Listener) where
  once := List.nodup_nil
  data := fun _ h => nomatch h
  leaves := by
    intro hti
    simp [initial, PMap.empty]
  own := fun _ _ h => nomatch h
  came := fun _ _ h => nomatch h
  tokens := fun _ => rfl

theorem inv_step (s : System Listener) (e : Event Listener) (s' : System Listener)
    (hinv : Inv s) (hnew : Distinct s e) (h : step s e = some s') : Inv s' := by
  obtain ⟨⟨waiting⟩, streams, pending, registered, received, called, late⟩ := s
  obtain ⟨once, data, leaves, own, came, tokens⟩ := hinv
  dsimp only [Pairing.tokens] at *
  cases e with
  | register sibling group ptl hti =>
    dsimp only [step] at h
    split at h
    · next otd facade heq =>
      -- Nobody waits for the id: it would be registered.
      have hno : waiting hti = none := by
        cases hw : waiting hti with
        | none => rfl
        | some ptd => exact absurd ((leaves hti).mp (by simp [hw])).1 hnew
      obtain ⟨rfl, rfl⟩ := register_new hno heq
      cases h
      unfold Distinct at hnew
      constructor <;> grind [PMap.put_apply, countP_snoc, Pairing.tokens, isToken_open]
    · cases h
  | success req d =>
    obtain ⟨hmem, h⟩ := Option.ite_none_right_eq_some.mp h
    cases h
    constructor <;> grind [countP_snoc, countP_erase_add, Pairing.tokens, isToken_open,
      isToken_succeeded, isToken_addPaired]
  | ended stream =>
    obtain ⟨hmem, h⟩ := Option.ite_none_right_eq_some.mp h
    cases h
    obtain ⟨req, succeeded⟩ := stream
    constructor <;> grind [countP_snoc, countP_erase_add, Pairing.tokens, isToken_open,
      isToken_succeeded, isToken_tryPairedAgain]
  | task sibling t =>
    obtain ⟨hmem, h⟩ := Option.ite_none_right_eq_some.mp h
    split at h
    · next effect facade heq =>
      obtain ⟨ptd, hwait⟩ := runTask_waits heq
      cases h
      cases t with
      | addPaired d req =>
        cases (runTask_addPaired hwait).symm.trans heq
        clear heq h
        dsimp only [afterTask, Task.req] at *
        constructor <;> grind [PMap.erase_apply, countP_erase_add, Pairing.tokens,
          isToken_addPaired]
      | tryPairedAgain req =>
        cases sibling with
        | none => cases heq
        | some endpoint =>
          cases (runTask_tryPairedAgain hwait).symm.trans heq
          clear heq h
          dsimp only [afterTask, Task.req] at *
          constructor <;> grind [countP_snoc, countP_erase_add, Pairing.tokens, isToken_open,
            isToken_tryPairedAgain]
    · cases h

theorem inv_run {es : List (Event Listener)} (hnew : Along step Distinct initial es)
    (hrun : run step initial es = some s) : Inv s :=
  run_inv Inv inv_step inv_initial hnew hrun

/-! ## Late ends -/

theorem late_step (s : System Listener) (e : Event Listener) (s' : System Listener)
    (hla : s.late = []) (htm : Timely e) (h : step s e = some s') : s'.late = [] := by
  cases e with
  | register sibling group ptl hti =>
    dsimp only [step] at h
    split at h
    · cases h
      exact hla
    · cases h
  | success req data =>
    obtain ⟨-, h⟩ := Option.ite_none_right_eq_some.mp h
    cases h
    exact hla
  | ended stream =>
    have hop : stream.succeeded = false := htm
    obtain ⟨-, h⟩ := Option.ite_none_right_eq_some.mp h
    cases h
    simp [hla, hop]
  | task sibling t =>
    obtain ⟨-, h⟩ := Option.ite_none_right_eq_some.mp h
    split at h
    · next effect facade heq =>
      cases h
      cases effect <;> exact hla
    · cases h

/-! ## The protocol -/

/-- A task finds the entry of its id as long as no end was late. -/
theorem runTask_returns (hinv : Inv s) (hla : s.late = []) {t : Task} (hmem : t ∈ s.pending)
    {sibling : Option String} (htm : Timely (.task sibling t : Event Listener)) :
    Returns (runTask sibling t) s.facade fun _ _ => True := by
  have hpos := tokens_pos hmem
  rw [hinv.tokens, hla, List.count_nil, Nat.add_zero] at hpos
  have hso : (s.facade.waitingForPaired t.req.pairedTransactionId).isSome := by
    cases h : (s.facade.waitingForPaired t.req.pairedTransactionId).isSome with
    | true => rfl
    | false => rw [h] at hpos; cases hpos
  obtain ⟨ptd, hwait⟩ := Option.isSome_iff_exists.mp hso
  cases t with
  | addPaired data req => exact ⟨_, _, runTask_addPaired hwait, trivial⟩
  | tryPairedAgain req =>
    obtain ⟨endpoint, rfl⟩ := Option.isSome_iff_exists.mp htm
    exact ⟨_, _, runTask_tryPairedAgain hwait, trivial⟩

/-- With distinct ids and no late ends: each listener is called at most once, with data
that came for its id, its entry leaves then and only then, and no task throws. -/
theorem pairing_completes (es : List (Event Listener)) (s : System Listener)
    (hnew : Along step Distinct initial es) (htimely : Along step (fun _ e => Timely e) initial es)
    (hrun : run step initial es = some s) : Completes s := by
  have hinv := inv_run hnew hrun
  have hla : s.late = [] := run_inv (fun s => s.late = []) late_step rfl htimely hrun
  exact ⟨hinv.once, hinv.data, hinv.leaves, fun t hmem _ => runTask_returns hinv hla hmem⟩

/-! ## A late end -/

/-- A request, and data of zeros. -/
def someReq : OutboundTransactionDescriptor := ⟨[], ⟨1, 0⟩⟩

def zeroData : Data := ⟨List.replicate rowBodySize 0, List.length_replicate⟩

/-- Not yet; then the record. -/
def retried : List (Event Unit) :=
  [.register (some "sibling") [] () ⟨1, 0⟩, .ended ⟨someReq, false⟩,
    .task (some "sibling") (.tryPairedAgain someReq), .success someReq zeroData,
    .task (some "sibling") (.addPaired zeroData someReq)]

/-- The record, and the end of its stream. -/
def answered : List (Event Unit) :=
  [.register (some "sibling") [] () ⟨1, 0⟩, .success someReq zeroData,
    .ended ⟨someReq, true⟩, .task (some "sibling") (.addPaired zeroData someReq)]

instance (s : System Listener) (e : Event Listener) : Decidable (Distinct s e) := by
  cases e <;> unfold Distinct <;> infer_instance

instance (e : Event Listener) : Decidable (Timely e) := by
  rcases e with _ | _ | _ | ⟨_, _ | _⟩ <;> unfold Timely <;> infer_instance

theorem pairing_completes_retried :
    ∃ s, run step initial retried = some s ∧ Completes s ∧ s.called.length = 1 := by
  obtain ⟨s, hs, hca⟩ : ∃ s, run step initial retried = some s ∧ s.called.length = 1 := by
    decide +kernel
  exact ⟨s, hs, pairing_completes retried s (by decide +kernel) (by decide +kernel) hs, hca⟩

/-- A stream that brings the record and then ends, as `OutboundProvider` ends it: the
listener has been called, and the attempt that is left throws. -/
theorem end_after_success_throws :
    ∃ s, run step initial answered = some s ∧ Along step Distinct initial answered ∧
      Task.tryPairedAgain someReq ∈ s.pending ∧
      runTask (some "sibling") (.tryPairedAgain someReq) s.facade
        = .error (.thrown "cannot continue getting paired transaction") s.facade ∧
      ¬ Completes s := by
  obtain ⟨s, hs, hmem, hno⟩ : ∃ s, run step initial answered = some s ∧
      Task.tryPairedAgain someReq ∈ s.pending ∧ s.facade.waitingForPaired ⟨1, 0⟩ = none := by
    decide +kernel
  have hth : runTask (some "sibling") (.tryPairedAgain someReq) s.facade
      = .error (.thrown "cannot continue getting paired transaction") s.facade :=
    runTask_tryPairedAgain_gone hno
  refine ⟨s, hs, by decide +kernel, hmem, hth, ?_⟩
  intro hco
  obtain ⟨a, f, hok, -⟩ := hco.runs _ hmem (some "sibling") rfl
  cases hth.symm.trans hok

end GradidoNode.Pairing
