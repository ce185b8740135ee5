/-
# `GradidoNode.Facade.Locks` — the lock of the facade and the locks of the chains

`GroupBlockchainFacade` and each group chain have a `main_lock`, a mutex that is not
recursive.  Two kinds of threads hold one and take the other:

    continue_with_transactions   under the lock of the chain: get_group_blockchain, and for a
                                 pair that is not known get_random_sibling_endpoint and the
                                 entry made by exec_once_paired_transaction_done
    on_paired_transaction        under the lock of the facade: on_paired_transaction_done of
                                 the chain that waits

The orders are opposite, and what is to keep the two apart is the flag of the chain: a
chain with an entry in the facade waits, and a chain that waits makes no calls.  That is
so for MOVE_USER_INBOUND.  An INBOUND_TRANSFER makes an entry and does not set the flag;
while the pair is handed over the chain goes on, and each thread waits for the other
(`locks_cycle`).  In runs in which no turn meets an INBOUND_TRANSFER without its pair there
is never such a cycle (`no_lock_cycle`).

**The model.**  Any number of threads and of chains.  Each `MLOCK` is a place where a
thread waits until the lock is free.  What a thread does to a chain while it holds its
lock is what `GradidoNode.Base.Waiting` says: one turn of the loop is one step here, and
the calls to the facade follow it one by one.  Nobody sees the chain in between.  A throw
ends the run.  Only what takes both locks is taken apart; `add_transaction` puts its
batch into the queue in one step, and only when the lock of the chain is free.  A thread
that holds the lock of a chain has the chain to itself (`locked_unchanged`).  The entries
are those of `GradidoNode.Facade.Pairing`, of which only the listener matters
(`listeners_execOnce`, `listeners_onPaired`).
-/
import GradidoNode.Base.Waiting
import GradidoNode.Facade.Pairing
import GradidoNode.Lib.Mutex

namespace GradidoNode.Locks

open Function Lib Blockchain Base BlockchainGradido Waiting
open Ingest (Node)

variable {F : RowFormat GradidoRecord} {calculateDecay : DecayFunction} {cfg : Conf}

/-! ## The calls to the facade -/

/-- A call to the facade from `calc_fields_and_update_indexes_for` that takes the lock of the
facade.  `get_group_blockchain` carries the request that will follow it, if one will. -/
inductive FacadeCall where
  | getGroupBlockchain (request : Option (Bytes × HederaTimestamp))
  | getRandomSiblingEndpoint (group : Bytes) (id : HederaTimestamp)
  /-- the block in `exec_once_paired_transaction_done` -/
  | insert (group : Bytes) (id : HederaTimestamp)
  deriving DecidableEq, Repr

namespace FacadeCall

/-- The call that follows. -/
def next : FacadeCall → Option FacadeCall
  | .getGroupBlockchain none => none
  | .getGroupBlockchain (some (group, id)) => some (.getRandomSiblingEndpoint group id)
  | .getRandomSiblingEndpoint group id => some (.insert group id)
  | .insert _ _ => none

/-- An entry will be made. -/
def requests : FacadeCall → Bool
  | .getGroupBlockchain request => request.isSome
  | .getRandomSiblingEndpoint _ _ => true
  | .insert _ _ => true

theorem requests_next {call call' : FacadeCall} (h : call.next = some call') :
    call.requests = true := by
  cases call with
  | getGroupBlockchain request =>
    cases request with
    | none => cases h
    | some request => rfl
  | getRandomSiblingEndpoint group id => rfl
  | insert group id => cases h

end FacadeCall

/-- The request a call of `calc_fields_and_update_indexes_for` ends with. -/
def requestOf : Calc → Option (Bytes × HederaTimestamp)
  | .waiting _ request => request
  | _ => none

/-- The case of the transaction comes to `get_group_blockchain`. -/
def looksUp (l : Ledger) : TransactionBody → Bool
  | .moveUserInbound m => (l.userIndex m.user).isNone
  | .inboundTransfer lt => (l.userIndex lt.receiver.user).isSome
  | _ => false

/-- The first call to the facade in a turn. -/
def firstCall (cfg : Conf) (env : Env) (now : Nat) (s : Node F cfg calculateDecay) :
    Option FacadeCall :=
  match calcCall cfg env now s with
  | some (tr, calculated) =>
    if s.fields.waitingForPaired = false ∧ looksUp s.fields tr.body = true then
      some (.getGroupBlockchain (requestOf calculated))
    else none
  | none => none

/-! ## Threads -/

/-- The locks. -/
inductive Lock (κ : Type) where
  | facade
  | chain (c : κ)
  deriving DecidableEq

/-- Where a thread is. -/
inductive Place (κ : Type) where
  | idle
  /-- `continue_with_transactions` at its `MLOCK` -/
  | wantsChain (c : κ)
  /-- before the next turn of its loop; so many are left -/
  | loop (c : κ) (left : Nat)
  /-- a call to the facade at its `MLOCK`; the loop goes on behind it, or is left -/
  | wantsFacade (c : κ) (call : FacadeCall) (left : Option Nat)
  | inFacade (c : κ) (call : FacadeCall) (left : Option Nat)
  /-- at the end of `continue_with_transactions` -/
  | leaves (c : κ)
  /-- `on_paired_transaction` at its `MLOCK` -/
  | wantsPairs (id : HederaTimestamp) (t : Transaction)
  | inPairs (id : HederaTimestamp) (t : Transaction)
  /-- `on_paired_transaction_done` at its `MLOCK` -/
  | wantsListener (c : κ) (t : Transaction)
  | inListener (c : κ) (t : Transaction)
  /-- at the end of `on_paired_transaction` -/
  | leavesPairs
  deriving DecidableEq

namespace Place

variable {κ : Type}

/-- The locks a thread holds. -/
def holds : Place κ → List (Lock κ)
  | .idle | .wantsChain _ | .wantsPairs _ _ => []
  | .loop c _ | .wantsFacade c _ _ | .leaves c => [.chain c]
  | .inPairs _ _ | .wantsListener _ _ | .leavesPairs => [.facade]
  | .inFacade c _ _ => [.facade, .chain c]
  | .inListener c _ => [.chain c, .facade]

/-- The lock a thread waits for. -/
def wants : Place κ → Option (Lock κ)
  | .wantsChain c | .wantsListener c _ => some (.chain c)
  | .wantsFacade _ _ _ | .wantsPairs _ _ => some .facade
  | _ => none

/-- The chain whose `on_paired_transaction_done` is being called. -/
def listener : Place κ → Option κ
  | .wantsListener c _ | .inListener c _ => some c
  | _ => none

/-- The call to the facade that is being made, for a chain. -/
def calling : Place κ → Option (κ × FacadeCall)
  | .wantsFacade c fcall _ | .inFacade c fcall _ => some (c, fcall)
  | _ => none

/-- Behind the calls of a turn. -/
def resume (c : κ) : Option Nat → Place κ
  | some left => .loop c left
  | none => .leaves c

end Place

/-! ## The system -/

variable {θ κ : Type} [DecidableEq θ] [DecidableEq κ]

/-- Chains, locks, the entries of the facade and the threads. -/
structure System (θ κ : Type) (F : RowFormat GradidoRecord) (cfg : Conf)
    (calculateDecay : DecayFunction) where
  chains : κ → Node F cfg calculateDecay
  locks : Lock κ → Option θ
  waitingForPaired : PMap HederaTimestamp κ
  place : θ → Place κ

namespace System

variable (s : System θ κ F cfg calculateDecay)

def setChain (c : κ) (node : Node F cfg calculateDecay) : System θ κ F cfg calculateDecay :=
  { s with chains := update s.chains c node }

def setLock (l : Lock κ) (hol : Option θ) : System θ κ F cfg calculateDecay :=
  { s with locks := update s.locks l hol }

def setPairs (pairs : PMap HederaTimestamp κ) : System θ κ F cfg calculateDecay :=
  { s with waitingForPaired := pairs }

def goTo (t : θ) (p : Place κ) : System θ κ F cfg calculateDecay :=
  { s with place := update s.place t p }

omit [DecidableEq θ] in
@[simp] theorem chains_setChain_self (c : κ) (node : Node F cfg calculateDecay) :
    (s.setChain c node).chains c = node :=
  update_self ..

omit [DecidableEq θ] in
theorem chains_setChain_of_ne {c c' : κ} (h : c' ≠ c) (node : Node F cfg calculateDecay) :
    (s.setChain c node).chains c' = s.chains c' :=
  update_of_ne h ..

end System

/-- Chains in any state, and nothing under way. -/
def initial (θ : Type) (chains : κ → Node F cfg calculateDecay) :
    System θ κ F cfg calculateDecay where
  chains := chains
  locks _ := none
  waitingForPaired := PMap.empty
  place _ := .idle

inductive Event (θ κ : Type) where
  /-- `add_transaction`, up to its call of `continue_with_transactions` -/
  | addTransaction (c : κ) (batch : Batch GradidoBatch)
  | continueWithTransactions (t : θ) (c : κ)
  | onPairedTransaction (t : θ) (id : HederaTimestamp) (tr : Transaction)
  /-- a thread goes on; the facade knows these chains and finds this sibling -/
  | goesOn (t : θ) (env : Env) (sibling : Option String) (now : Nat)

variable (cfg) in
/-- One step of `continue_with_transactions`, before a turn. -/
def atLoop (s : System θ κ F cfg calculateDecay) (t : θ) (env : Env) (now : Nat) (c : κ) :
    Nat → Option (System θ κ F cfg calculateDecay)
  | 0 =>
    let node := s.chains c
    if node.inbound.isEmpty then some (s.goTo t (.leaves c))
    else some ((s.setChain c { node with out := node.out ++ [.continueTransactions] }).goTo t
      (.leaves c))
  | left + 1 =>
    let node := s.chains c
    if node.inbound.isEmpty then some (s.goTo t (.leaves c))
    else
      match turn cfg env now node with
      | .error _ _ => none
      | .ok goOn node' =>
        let left := if goOn then some left else none
        match firstCall cfg env now node with
        | some fcall => some ((s.setChain c node').goTo t (.wantsFacade c fcall left))
        | none => some ((s.setChain c node').goTo t (.resume c left))

/-- A call to the facade, under both locks. -/
def atFacade (s : System θ κ F cfg calculateDecay) (t : θ) (sibling : Option String) (c : κ)
    (call : FacadeCall) (left : Option Nat) : Option (System θ κ F cfg calculateDecay) :=
  let behind : Place κ := match call.next with
    | some fcall => .wantsFacade c fcall left
    | none => .resume c left
  match call with
  | .getGroupBlockchain _ => some ((s.setLock .facade none).goTo t behind)
  | .getRandomSiblingEndpoint _ _ =>
    -- "need sibling to get paired transaction"
    if sibling.isSome then some ((s.setLock .facade none).goTo t behind) else none
  | .insert _ id =>
    -- an entry that is there stays
    some (((s.setPairs (s.waitingForPaired.insertNew id c)).setLock .facade none).goTo t behind)

variable (cfg) in
/-- The next step of a thread. -/
def goesOn (s : System θ κ F cfg calculateDecay) (t : θ) (env : Env) (sibling : Option String)
    (now : Nat) : Option (System θ κ F cfg calculateDecay) :=
  match s.place t with
  | .idle => none
  | .wantsChain c =>
    if s.locks (.chain c) = none then
      some ((s.setLock (.chain c) (some t)).goTo t
        (if (s.chains c).state = .ready then .loop c cfg.batchSize else .leaves c))
    else none
  | .loop c left => atLoop cfg s t env now c left
  | .wantsFacade c fcall left =>
    if s.locks .facade = none then
      some ((s.setLock .facade (some t)).goTo t (.inFacade c fcall left))
    else none
  | .inFacade c fcall left => atFacade s t sibling c fcall left
  | .leaves c => some ((s.setLock (.chain c) none).goTo t .idle)
  | .wantsPairs id tr =>
    if s.locks .facade = none then some ((s.setLock .facade (some t)).goTo t (.inPairs id tr))
    else none
  | .inPairs id tr =>
    match s.waitingForPaired id with
    | none => none -- "unexpected incoming pair"
    | some c => some ((s.setPairs (s.waitingForPaired.erase id)).goTo t (.wantsListener c tr))
  | .wantsListener c tr =>
    if s.locks (.chain c) = none then
      some ((s.setLock (.chain c) (some t)).goTo t (.inListener c tr))
    else none
  | .inListener c tr =>
    match onPairedTransactionDone tr (s.chains c) with
    | .ok _ node => some (((s.setChain c node).setLock (.chain c) none).goTo t .leavesPairs)
    | .error _ _ => none
  | .leavesPairs => some ((s.setLock .facade none).goTo t .idle)

variable (cfg) in
/-- One event. -/
def step (s : System θ κ F cfg calculateDecay) :
    Event θ κ → Option (System θ κ F cfg calculateDecay)
  | .addTransaction c batch =>
    if s.locks (.chain c) = none then
      match pushInbound batch (s.chains c) with
      | .ok _ node => some (s.setChain c node)
      | .error _ _ => none
    else none
  | .continueWithTransactions t c =>
    if s.place t = .idle then some (s.goTo t (.wantsChain c)) else none
  | .onPairedTransaction t id tr =>
    if s.place t = .idle then some (s.goTo t (.wantsPairs id tr)) else none
  | .goesOn t env sibling now => goesOn cfg s t env sibling now

/-! ## The entries -/

/-- Who waits, of the entries of the facade. -/
def listeners (f : Pairing.Facade κ) : PMap HederaTimestamp κ :=
  fun id => (f.waitingForPaired id).map Pairing.PairedTransactionData.ptl

omit [DecidableEq κ] in
/-- `exec_once_paired_transaction_done` needs a sibling, and makes an entry unless there is one. -/
theorem listeners_execOnce (f : Pairing.Facade κ) (sibling : Option String) (group : Bytes) (c : κ)
    (id : HederaTimestamp) :
    Ensures (Pairing.execOncePairedTransactionDone sibling group c id) f fun _ f' =>
      sibling.isSome ∧ listeners f' = (listeners f).insertNew id c := by
  cases sibling with
  | none => exact .throw
  | some endpoint =>
    refine .bind (.get ?_)
    cases hid : f.waitingForPaired id with
    | some ptd =>
      have hso : listeners f id = some ptd.ptl := by rw [listeners, hid, Option.map_some]
      exact .pure ⟨rfl, (PMap.insertNew_of_some hso).symm⟩
    | none =>
      have hno : listeners f id = none := by rw [listeners, hid, Option.map_none]
      refine .bind (.of_modify (.pure ⟨rfl, ?_⟩))
      rw [PMap.insertNew_of_none hno]
      funext id'
      dsimp only [listeners]
      rw [PMap.put_apply, PMap.put_apply]
      split
      · rfl
      · rfl

omit [DecidableEq κ] in
/-- `on_paired_transaction` erases the entry of the one it calls. -/
theorem listeners_onPaired (f : Pairing.Facade κ) (data : List UInt8) (id : HederaTimestamp) :
    Ensures (Wire.onPairedTransaction data id) f fun r f' =>
      listeners f id = some r.1.ptl ∧ listeners f' = (listeners f).erase id := by
  refine .bind (.get ?_)
  cases hid : f.waitingForPaired id with
  | none => exact .throw
  | some ptd =>
    refine .bind (.of_modify ?_)
    split
    · exact .throw
    · refine .pure ⟨by rw [listeners, hid, Option.map_some], ?_⟩
      funext id'
      dsimp only [listeners]
      by_cases hne : id' = id
      · rw [hne, PMap.erase_self, PMap.erase_self, Option.map_none]
      · rw [PMap.erase_of_ne hne, PMap.erase_of_ne hne]
        rfl

/-- A thread holds the lock of a chain and waits for that of the facade, and another one the
other way round. -/
def Cycle (s : System θ κ F cfg calculateDecay) : Prop :=
  ∃ t t' c, s.locks (.chain c) = some t ∧ (s.place t).wants = some .facade ∧
    s.locks .facade = some t' ∧ (s.place t').wants = some (.chain c)

/-! ## What a step does -/

/-- What a thread did that went on. -/
inductive Moved (env : Env) (now : Nat) (s : System θ κ F cfg calculateDecay) (t : θ) :
    System θ κ F cfg calculateDecay → Prop
  | takesChain {c : κ} {p : Place κ} (hp : s.place t = .wantsChain c)
      (hfree : s.locks (.chain c) = none) (hnext : (∃ left, p = .loop c left) ∨ p = .leaves c) :
      Moved env now s t ((s.setLock (.chain c) (some t)).goTo t p)
  | endsLoop {c : κ} {left : Nat} {node : Node F cfg calculateDecay}
      (hp : s.place t = .loop c left)
      (hends : node = s.chains c ∨ Waiting.step cfg (s.chains c) .loopEnds = some node) :
      Moved env now s t ((s.setChain c node).goTo t (.leaves c))
  | turns {c : κ} {left : Nat} {node : Node F cfg calculateDecay} {goOn : Bool} {p : Place κ}
      (hp : s.place t = .loop c left) (hturn : turn cfg env now (s.chains c) = .ok goOn node)
      (hnext : (∃ call left, firstCall cfg env now (s.chains c) = some call ∧
        p = .wantsFacade c call left) ∨ ∃ left, p = .resume c left) :
      Moved env now s t ((s.setChain c node).goTo t p)
  | takesFacade {c : κ} {call : FacadeCall} {left : Option Nat}
      (hp : s.place t = .wantsFacade c call left) (hfree : s.locks .facade = none) :
      Moved env now s t ((s.setLock .facade (some t)).goTo t (.inFacade c call left))
  | calls {c : κ} {call : FacadeCall} {left : Option Nat} {p : Place κ}
      (hp : s.place t = .inFacade c call left)
      (hnext : (∃ call', call.next = some call' ∧ p = .wantsFacade c call' left) ∨
        p = .resume c left) :
      Moved env now s t ((s.setLock .facade none).goTo t p)
  | inserts {c : κ} {group : Bytes} {id : HederaTimestamp} {left : Option Nat}
      (hp : s.place t = .inFacade c (.insert group id) left) :
      Moved env now s t (((s.setPairs (s.waitingForPaired.insertNew id c)).setLock .facade
        none).goTo t (.resume c left))
  | leavesChain {c : κ} (hp : s.place t = .leaves c) :
      Moved env now s t ((s.setLock (.chain c) none).goTo t .idle)
  | takesPairs {id : HederaTimestamp} {tr : Transaction} (hp : s.place t = .wantsPairs id tr)
      (hfree : s.locks .facade = none) :
      Moved env now s t ((s.setLock .facade (some t)).goTo t (.inPairs id tr))
  | finds {id : HederaTimestamp} {tr : Transaction} {c : κ} (hp : s.place t = .inPairs id tr)
      (hentry : s.waitingForPaired id = some c) :
      Moved env now s t ((s.setPairs (s.waitingForPaired.erase id)).goTo t (.wantsListener c tr))
  | takesListener {c : κ} {tr : Transaction} (hp : s.place t = .wantsListener c tr)
      (hfree : s.locks (.chain c) = none) :
      Moved env now s t ((s.setLock (.chain c) (some t)).goTo t (.inListener c tr))
  | listens {c : κ} {tr : Transaction} {node : Node F cfg calculateDecay}
      (hp : s.place t = .inListener c tr)
      (hdone : onPairedTransactionDone tr (s.chains c) = .ok () node) :
      Moved env now s t (((s.setChain c node).setLock (.chain c) none).goTo t .leavesPairs)
  | leavesPairs (hp : s.place t = .leavesPairs) :
      Moved env now s t ((s.setLock .facade none).goTo t .idle)

variable {s s' : System θ κ F cfg calculateDecay} {t : θ} {env : Env} {now : Nat}

omit [DecidableEq θ] in
theorem setChain_self (c : κ) : s.setChain c (s.chains c) = s := by
  rw [System.setChain, update_eq_self]

variable {c : κ}

theorem atLoop_moved {left : Nat} (hp : s.place t = .loop c left)
    (h : atLoop cfg s t env now c left = some s') : Moved env now s t s' := by
  have hem : Moved env now s t (s.goTo t (.leaves c)) := by
    have hen : Moved env now s t ((s.setChain c (s.chains c)).goTo t (.leaves c)) :=
      .endsLoop hp (.inl rfl)
    rw [setChain_self] at hen
    exact hen
  cases left with
  | zero =>
    unfold atLoop at h
    dsimp only at h
    split at h
    · cases h
      exact hem
    · cases h
      exact .endsLoop hp (.inr rfl)
  | succ left =>
    unfold atLoop at h
    dsimp only at h
    split at h
    · cases h
      exact hem
    · split at h
      · cases h
      · next goOn node htu =>
        split at h
        · next call hca =>
          cases h
          exact .turns hp htu (.inl ⟨call, _, hca, rfl⟩)
        · cases h
          exact .turns hp htu (.inr ⟨_, rfl⟩)

theorem atFacade_moved {call : FacadeCall} {left : Option Nat} {sibling : Option String}
    (hp : s.place t = .inFacade c call left) (h : atFacade s t sibling c call left = some s') :
    Moved env now s t s' := by
  cases call with
  | getGroupBlockchain request =>
    cases request with
    | none =>
      cases h
      exact .calls hp (.inr rfl)
    | some request =>
      cases h
      exact .calls hp (.inl ⟨_, rfl, rfl⟩)
  | getRandomSiblingEndpoint group id =>
    unfold atFacade at h
    dsimp only at h
    split at h
    · cases h
      exact .calls hp (.inl ⟨_, rfl, rfl⟩)
    · cases h
  | insert group id =>
    cases h
    exact .inserts hp

theorem goesOn_moved {sibling : Option String} (h : goesOn cfg s t env sibling now = some s') :
    Moved env now s t s' := by
  unfold goesOn at h
  split at h
  · cases h
  · next c hp =>
    obtain ⟨hfr, h⟩ := Option.ite_none_right_eq_some.mp h
    cases h
    refine .takesChain hp hfr ?_
    split
    · exact .inl ⟨_, rfl⟩
    · exact .inr rfl
  · next c left hp => exact atLoop_moved hp h
  · next c call left hp =>
    obtain ⟨hfr, h⟩ := Option.ite_none_right_eq_some.mp h
    cases h
    exact .takesFacade hp hfr
  · next c call left hp => exact atFacade_moved hp h
  · next c hp =>
    cases h
    exact .leavesChain hp
  · next id tr hp =>
    obtain ⟨hfr, h⟩ := Option.ite_none_right_eq_some.mp h
    cases h
    exact .takesPairs hp hfr
  · next id tr hp =>
    split at h
    · cases h
    · next c hen =>
      cases h
      exact .finds hp hen
  · next c tr hp =>
    obtain ⟨hfr, h⟩ := Option.ite_none_right_eq_some.mp h
    cases h
    exact .takesListener hp hfr
  · next c tr hp =>
    split at h
    · next node hdo =>
      cases h
      exact .listens hp hdo
    · cases h
  · next hp =>
    cases h
    exact .leavesPairs hp

/-! ## Who holds which lock -/

/-- The locks are held by the threads that are where they hold them. -/
def Held (s : System θ κ F cfg calculateDecay) : Prop := Mutex.Owned Place.holds s.locks s.place

omit [DecidableEq κ] in
theorem holds_resume (c : κ) (left : Option Nat) : (Place.resume c left).holds = [.chain c] := by
  cases left <;> rfl

theorem Held.leavesFacade (h : Held s) {p : Place κ}
    (hp : (s.place t).holds = [.facade, .chain c]) (hp' : p.holds = [.chain c]) :
    Held ((s.setLock .facade none).goTo t p) := by
  refine Mutex.Owned.release h (by rw [hp']; exact hp) ?_
  rw [hp']
  exact fun hmem => by cases List.mem_singleton.mp hmem

theorem Held.moved (h : Held s) (hmo : Moved env now s t s') : Held s' := by
  cases hmo with
  | takesChain hp hfr hne =>
    refine Mutex.Owned.take h hfr ?_
    rcases hne with ⟨left, rfl⟩ | rfl
    · exact congrArg (_ :: Place.holds ·) hp.symm
    · exact congrArg (_ :: Place.holds ·) hp.symm
  | endsLoop hp hed => exact Mutex.Owned.stay h (congrArg Place.holds hp).symm
  | turns hp htu hne =>
    refine Mutex.Owned.stay h ?_
    rcases hne with ⟨call, left, -, rfl⟩ | ⟨left, rfl⟩
    · exact (congrArg Place.holds hp).symm
    · exact (holds_resume _ left).trans (congrArg Place.holds hp).symm
  | takesFacade hp hfr => exact Mutex.Owned.take h hfr (congrArg (_ :: Place.holds ·) hp.symm)
  | calls hp hne =>
    refine h.leavesFacade (congrArg Place.holds hp) ?_
    rcases hne with ⟨call', -, rfl⟩ | rfl
    · rfl
    · exact holds_resume _ _
  | inserts hp => exact h.leavesFacade (congrArg Place.holds hp) (holds_resume _ _)
  | leavesChain hp =>
    exact Mutex.Owned.release h (congrArg Place.holds hp) List.not_mem_nil
  | takesPairs hp hfr => exact Mutex.Owned.take h hfr (congrArg (_ :: Place.holds ·) hp.symm)
  | finds hp hen => exact Mutex.Owned.stay h (congrArg Place.holds hp).symm
  | takesListener hp hfr => exact Mutex.Owned.take h hfr (congrArg (_ :: Place.holds ·) hp.symm)
  | listens hp hdo =>
    refine Mutex.Owned.release h (congrArg Place.holds hp) ?_
    exact fun hmem => by cases List.mem_singleton.mp hmem
  | leavesPairs hp => exact Mutex.Owned.release h (congrArg Place.holds hp) List.not_mem_nil

theorem Held.step {e : Event θ κ} (h : Held s) (hs : step cfg s e = some s') : Held s' := by
  cases e with
  | addTransaction c batch =>
    obtain ⟨-, hs⟩ := Option.ite_none_right_eq_some.mp hs
    split at hs
    · cases hs
      exact h
    · cases hs
  | continueWithTransactions t c | onPairedTransaction t id tr =>
    obtain ⟨hid, hs⟩ := Option.ite_none_right_eq_some.mp hs
    cases hs
    -- an idle thread holds nothing, and neither does one that is at its `MLOCK`
    exact Mutex.Owned.stay h (congrArg Place.holds hid).symm
  | goesOn t env sibling now => exact h.moved (goesOn_moved hs)

/-! ## One thread at a time -/

section Locked

variable {c : κ} {t' : θ}

/-- The thread that takes a step; `add_transaction` is called by any. -/
def Event.thread : Event θ κ → Option θ
  | .addTransaction _ _ => none
  | .continueWithTransactions t _ | .onPairedTransaction t _ _ | .goesOn t _ _ _ => some t

/-- A thread changes no chain whose lock another one holds. -/
theorem Moved.chains_of_locked (hmo : Moved env now s t' s') (h : Held s)
    (hlock : s.locks (.chain c) = some t) (hne : t ≠ t') : s'.chains c = s.chains c := by
  have hother : ∀ {c'}, .chain c' ∈ (s.place t').holds → c ≠ c' := by
    rintro c' hmem rfl
    exact hne (h.unique ((h _ t).mp hlock) hmem)
  cases hmo with
  | endsLoop hp | turns hp | listens hp =>
    exact s.chains_setChain_of_ne (hother (by rw [hp]; exact List.mem_cons_self)) _
  | _ => rfl

theorem Moved.place_of_ne (hmo : Moved env now s t' s') (hne : t ≠ t') :
    s'.place t = s.place t := by
  cases hmo <;> exact update_of_ne hne ..

theorem step_locked {e : Event θ κ} (h : Held s) (hlock : s.locks (.chain c) = some t)
    (hne : e.thread ≠ some t) (hs : step cfg s e = some s') :
    s'.locks (.chain c) = some t ∧ s'.chains c = s.chains c := by
  cases e with
  | addTransaction c' batch =>
    obtain ⟨hfr, hs⟩ := Option.ite_none_right_eq_some.mp hs
    split at hs
    · cases hs
      refine ⟨hlock, s.chains_setChain_of_ne ?_ _⟩
      rintro rfl
      cases hlock.symm.trans hfr
    · cases hs
  | continueWithTransactions t' c' | onPairedTransaction t' id tr =>
    obtain ⟨-, hs⟩ := Option.ite_none_right_eq_some.mp hs
    cases hs
    exact ⟨hlock, rfl⟩
  | goesOn t' env sibling now =>
    have hmo := goesOn_moved hs
    have hne' : t ≠ t' := fun heq => hne (congrArg some heq.symm)
    refine ⟨(h.moved hmo _ t).mpr ?_, hmo.chains_of_locked h hlock hne'⟩
    rw [hmo.place_of_ne hne']
    exact (h _ t).mp hlock

end Locked

/-! ## Who waits for a pair -/

section Sound

variable {waits waits' : κ → Bool} {pairs : PMap HederaTimestamp κ} {place : θ → Place κ}
  {p : Place κ}
  {c : κ}

/-- A chain the facade has an entry for, or is about to call, waits; there is one entry or one
call for it, and it makes no calls to the facade itself. -/
structure SoundOn (waits : κ → Bool) (pairs : PMap HederaTimestamp κ) (place : θ → Place κ) :
    Prop where
  entry : ∀ id c, pairs id = some c → waits c = true
  called : ∀ t c, (place t).listener = some c → waits c = true
  unique : ∀ id id' c, pairs id = some c → pairs id' = some c → id = id'
  apart : ∀ t c id, (place t).listener = some c → pairs id ≠ some c
  noEntry : ∀ t c call id, (place t).calling = some (c, call) → pairs id ≠ some c
  noCall : ∀ t t' c call, (place t).calling = some (c, call) → (place t').listener ≠ some c
  asked : ∀ t c call, (place t).calling = some (c, call) → call.requests = true → waits c = true

namespace SoundOn

omit [DecidableEq κ]

variable (h : SoundOn waits pairs place)
include h

omit [DecidableEq θ] in
theorem mono (hw : ∀ c, waits c = true → waits' c = true) :
    SoundOn waits' pairs place := by
  obtain ⟨hen, hca, hun, hap, hne, hnc, has⟩ := h
  constructor <;> grind

theorem quiet (hl : p.listener = none) (hc : p.calling = none) :
    SoundOn waits pairs (update place t p) := by
  obtain ⟨hen, hca, hun, hap, hne, hnc, has⟩ := h
  constructor <;> grind [update_apply]

/-- A thread that comes to call the facade, for a chain that is not waited for. -/
theorem calls {call : FacadeCall} (hl : p.listener = none)
    (hc : p.calling = some (c, call)) (hno : ∀ id, pairs id ≠ some c)
    (hno' : ∀ t', (place t').listener ≠ some c) (hw : call.requests = true → waits c = true) :
    SoundOn waits pairs (update place t p) := by
  obtain ⟨hen, hca, hun, hap, hne, hnc, has⟩ := h
  constructor <;> grind [update_apply]

/-- A thread that goes on in a call, or to the next one for the same chain. -/
theorem goesOn {call call' : FacadeCall}
    (hc : (place t).calling = some (c, call)) (hc' : p.calling = some (c, call'))
    (hl : p.listener = none) (hre : call'.requests = true → call.requests = true) :
    SoundOn waits pairs (update place t p) :=
  h.calls hl hc' (fun id => h.noEntry t c call id hc) (fun t' => h.noCall t t' c call hc)
    fun hreq => h.asked t c call hc (hre hreq)

/-- The call ends with an entry. -/
theorem insert {id : HederaTimestamp} {call : FacadeCall}
    (hc : (place t).calling = some (c, call)) (hre : call.requests = true)
    (hone : ∀ t' call', (place t').calling = some (c, call') → t' = t)
    (hp : p.listener = none) (hp' : p.calling = none) :
    SoundOn waits (pairs.insertNew id c) (update place t p) := by
  cases hid : pairs id with
  | some c' =>
    rw [PMap.insertNew_of_some hid]
    exact h.quiet hp hp'
  | none =>
    obtain ⟨hen, hca, hun, hap, hne, hnc, has⟩ := h
    rw [PMap.insertNew_of_none hid]
    constructor <;> grind [update_apply, PMap.put_apply]

/-- The entry of a chain is erased, and the chain is called. -/
theorem find {id : HederaTimestamp} {tr : Transaction}
    (hid : pairs id = some c) :
    SoundOn waits (pairs.erase id) (update place t (.wantsListener c tr)) := by
  obtain ⟨hen, hca, hun, hap, hne, hnc, has⟩ := h
  have her : ∀ k, pairs.erase id k = if k = id then none else pairs k :=
    fun k => update_apply ..
  constructor <;> grind [update_apply, Place.listener, Place.calling]

theorem stays (hli : (place t).listener = some c)
    (hp : p.listener = some c) (hp' : p.calling = none) :
    SoundOn waits pairs (update place t p) := by
  obtain ⟨hen, hca, hun, hap, hne, hnc, has⟩ := h
  constructor <;> grind [update_apply]

/-- The one call there is ends, and the chain need not wait any more. -/
theorem listened (hli : (place t).listener = some c)
    (hw : ∀ c', c' ≠ c → waits c' = true → waits' c' = true)
    (hone : ∀ t' c', (place t').listener = some c' → t' = t)
    (hp : p.listener = none) (hp' : p.calling = none) :
    SoundOn waits' pairs (update place t p) := by
  obtain ⟨hen, hca, hun, hap, hne, hnc, has⟩ := h
  constructor <;> grind [update_apply]

end SoundOn

end Sound

/-- The chain waits for a pair. -/
def System.waits (s : System θ κ F cfg calculateDecay) (c : κ) : Bool :=
  (s.chains c).fields.waitingForPaired

def Sound (s : System θ κ F cfg calculateDecay) : Prop :=
  SoundOn s.waits s.waitingForPaired s.place

omit [DecidableEq θ] in
theorem Sound.setChain (h : Sound s)
    (hfl : s.waits c = true → node.fields.waitingForPaired = true) : Sound (s.setChain c node) :=
  SoundOn.mono h ((forall_update_iff s.chains fun c' node => s.waits c' = true →
    node.fields.waitingForPaired = true).mpr ⟨hfl, fun _ _ => id⟩)

/-! ## One turn -/

variable {node node' : Node F cfg calculateDecay}

/-- Calls to the facade are made by a chain that does not wait; and it waits behind the turn, if
an entry will be made. -/
theorem firstCall_flag {goOn : Bool} {call : FacadeCall}
    (htr : turn cfg env now node = .ok goOn node')
    (hpa : ∀ p ∈ taken cfg now node, PairAtHand env node.fields p.1.body)
    (hca : firstCall cfg env now node = some call) :
    node.fields.waitingForPaired = false ∧
      (call.requests = true → node'.fields.waitingForPaired = true) := by
  have htu := turn_turned env now node goOn node' htr
  unfold firstCall at hca
  cases hta : taken cfg now node with
  | none =>
    dsimp only [calcCall] at hca
    rw [hta] at hca
    cases hca
  | some p =>
    obtain ⟨tr, n⟩ := p
    have hpa : PairAtHand env node.fields tr.body := hpa (tr, n) hta
    dsimp only [calcCall] at hca htu
    rw [hta] at hca htu
    dsimp only [Option.map_some] at hca htu
    split at hca
    · next hlo =>
      refine ⟨hlo.1, fun hre => ?_⟩
      cases hca
      cases hcl : Ledger.calcFieldsAndUpdateIndexesFor calculateDecay env n node.fields tr with
      | failed e =>
        rw [hcl] at htu
        cases htu
      | ready l tr' =>
        rw [hcl] at hre
        cases hre
      | waiting l request =>
        rw [hcl] at htu hre
        cases htu with
        | waiting hfi hak =>
          rw [hfi]
          exact (waits_flag (Ledger.calc_waits hcl) hpa).1
    · cases hca

/-- A chain that waits goes on to wait. -/
theorem turn_keeps_flag {goOn : Bool} (htr : turn cfg env now node = .ok goOn node')
    (hwa : node.fields.waitingForPaired = true) : node'.fields.waitingForPaired = true := by
  have htu := turn_turned env now node goOn node' htr
  cases hta : taken cfg now node with
  | none =>
    dsimp only [calcCall] at htu
    rw [hta] at htu
    cases htu with
    | quiet h => exact h.flag.trans hwa
  | some p =>
    dsimp only [calcCall] at htu
    rw [hta] at htu
    dsimp only [Option.map_some] at htu
    have hca : Ledger.calcFieldsAndUpdateIndexesFor calculateDecay env p.2 node.fields p.1
        = .waiting node.fields none := by
      unfold Ledger.calcFieldsAndUpdateIndexesFor
      rw [if_pos hwa]
    rw [hca] at htu
    cases htu with
    | waiting hfi hak =>
      rw [hfi]
      exact hwa

/-! ## Runs -/

/-- If the thread takes a turn, the turn does not meet an INBOUND_TRANSFER without its paired
transaction. -/
def PairKnownAt (cfg : Conf) (s : System θ κ F cfg calculateDecay) (env : Env) (now : Nat) :
    Place κ → Prop
  | .loop c _ => ∀ p ∈ taken cfg now (s.chains c), PairAtHand env (s.chains c).fields p.1.body
  | _ => True

/-- No turn meets an INBOUND_TRANSFER without its paired transaction. -/
def PairKnown (cfg : Conf) (s : System θ κ F cfg calculateDecay) : Event θ κ → Prop
  | .goesOn t env _ now => PairKnownAt cfg s env now (s.place t)
  | _ => True

section Places

variable {p : Place κ} {c : κ}

omit [DecidableEq κ]

theorem facade_mem_of_listener (h : p.listener = some c) : .facade ∈ p.holds := by
  cases p <;> simp_all [Place.listener, Place.holds]

theorem chain_mem_of_calling {call : FacadeCall} (h : p.calling = some (c, call)) :
    .chain c ∈ p.holds := by
  cases p <;> simp_all [Place.calling, Place.holds]

theorem calling_of_wants (hw : p.wants = some .facade) (hc : .chain c ∈ p.holds) :
    ∃ call, p.calling = some (c, call) := by
  cases p <;> simp_all [Place.wants, Place.holds, Place.calling]

theorem listener_of_wants (hw : p.wants = some (.chain c)) (hf : .facade ∈ p.holds) :
    p.listener = some c := by
  cases p <;> simp_all [Place.wants, Place.holds, Place.listener]

theorem listener_resume (c : κ) (left : Option Nat) : (Place.resume c left).listener = none := by
  cases left <;> rfl

theorem calling_resume (c : κ) (left : Option Nat) : (Place.resume c left).calling = none := by
  cases left <;> rfl

end Places

theorem Sound.moved (h : Sound s) (hhe : Held s) (hco : PairKnownAt cfg s env now (s.place t))
    (hmo : Moved env now s t s') : Sound s' := by
  cases hmo with
  | takesChain hp hfr hne =>
    rcases hne with ⟨left, rfl⟩ | rfl
    · exact h.quiet rfl rfl
    · exact h.quiet rfl rfl
  | endsLoop hp hen =>
    refine (h.setChain fun hwa => ?_).quiet rfl rfl
    rcases hen with rfl | hen
    · exact hwa
    · cases hen
      exact hwa
  | @turns c left node goOn p hp htu hne =>
    rw [hp] at hco
    have hso : Sound (s.setChain c node) := h.setChain (turn_keeps_flag htu)
    rcases hne with ⟨call, left, hcl, rfl⟩ | ⟨left, rfl⟩
    · obtain ⟨hfr, hak⟩ := firstCall_flag htu hco hcl
      -- a chain that is waited for waits, and does not come here
      refine SoundOn.calls hso rfl rfl (fun id hid => ?_) (fun t' ht' => ?_) fun hre => ?_
      · cases hfr.symm.trans (h.entry id c hid)
      · cases hfr.symm.trans (h.called t' c ht')
      · exact (congrArg (·.fields.waitingForPaired) (s.chains_setChain_self c node)).trans (hak hre)
    · exact hso.quiet (listener_resume c left) (calling_resume c left)
  | takesFacade hp hfr => exact SoundOn.goesOn h (congrArg Place.calling hp) rfl rfl id
  | @calls c call left p hp hne =>
    rcases hne with ⟨call', hne, rfl⟩ | rfl
    · exact SoundOn.goesOn h (congrArg Place.calling hp) rfl rfl fun _ =>
        FacadeCall.requests_next hne
    · exact h.quiet (listener_resume c left) (calling_resume c left)
  | @inserts c group id left hp =>
    have hca : (s.place t).calling = some (c, .insert group id) := congrArg Place.calling hp
    refine SoundOn.insert h hca rfl (fun t' call' ht' => ?_) (listener_resume c left)
      (calling_resume c left)
    exact hhe.unique (chain_mem_of_calling ht') (chain_mem_of_calling hca)
  | leavesChain hp | takesPairs hp hfr | leavesPairs hp => exact h.quiet rfl rfl
  | finds hp het => exact h.find het
  | @takesListener c tr hp hfr =>
    have hli : (s.place t).listener = some c := congrArg Place.listener hp
    exact h.stays hli rfl rfl
  | @listens c tr node hp hdo =>
    have hli : (s.place t).listener = some c := congrArg Place.listener hp
    refine SoundOn.listened h hli (fun c' hne hwa => ?_) (fun t' c' ht' => ?_) rfl rfl
    · rw [System.waits, ← hwa]
      exact congrArg (·.fields.waitingForPaired) (s.chains_setChain_of_ne hne node)
    · exact hhe.unique (facade_mem_of_listener ht') (facade_mem_of_listener hli)

theorem step_sound {e : Event θ κ} (h : Held s ∧ Sound s) (hco : PairKnown cfg s e)
    (hs : step cfg s e = some s') : Held s' ∧ Sound s' := by
  obtain ⟨hhe, hso⟩ := h
  refine ⟨hhe.step hs, ?_⟩
  cases e with
  | addTransaction c batch =>
    obtain ⟨-, hs⟩ := Option.ite_none_right_eq_some.mp hs
    split at hs
    · next node hpu =>
      cases hs
      refine hso.setChain fun hwa => ?_
      obtain ⟨rfl, -⟩ := Base.pushInbound_ensures batch () node hpu
      exact hwa
    · cases hs
  | continueWithTransactions t c | onPairedTransaction t id tr =>
    obtain ⟨-, hs⟩ := Option.ite_none_right_eq_some.mp hs
    cases hs
    exact hso.quiet rfl rfl
  | goesOn t env sibling now => exact hso.moved hhe hco (goesOn_moved hs)

omit [DecidableEq θ] [DecidableEq κ] in
theorem initial_sound (chains : κ → Node F cfg calculateDecay) :
    Held (initial θ chains) ∧ Sound (initial θ chains) := by
  refine ⟨fun l t => ⟨nofun, nofun⟩, ?_⟩
  exact ⟨nofun, nofun, nofun, nofun, nofun, nofun, nofun⟩

omit [DecidableEq θ] [DecidableEq κ] in
/-- A chain that waits makes no calls, so the two orders do not meet. -/
theorem not_cycle (hhe : Held s) (hso : Sound s) : ¬ Cycle s := by
  rintro ⟨t, t', c, hch, hwa, hfa, hwa'⟩
  obtain ⟨call, hca⟩ := calling_of_wants hwa ((hhe _ t).mp hch)
  exact hso.noCall t t' c call hca (listener_of_wants hwa' ((hhe _ t').mp hfa))

/-- **No cycle.**  In every run of any number of threads and chains in which no turn meets an
INBOUND_TRANSFER without its pair, it never happens that one thread holds the lock of a chain and
waits for that of the facade while another one holds that of the facade and waits for that of
the chain. -/
theorem no_lock_cycle (cfg : Conf) (chains : κ → Node F cfg calculateDecay)
    (es : List (Event θ κ)) (s : System θ κ F cfg calculateDecay)
    (hrun : run (step cfg) (initial θ chains) es = some s)
    (hcond : Along (step cfg) (PairKnown cfg) (initial θ chains) es) : ¬ Cycle s := by
  obtain ⟨hhe, hso⟩ := run_inv (fun s => Held s ∧ Sound s)
    (fun _ _ _ h hc hs => step_sound h hc hs) (initial_sound chains) hcond hrun
  exact not_cycle hhe hso

/-! ## Two runs -/

instance (cfg : Conf) (s : System θ κ F cfg calculateDecay) (env : Env) (now : Nat) (p : Place κ) :
    Decidable (PairKnownAt cfg s env now p) := by
  unfold PairKnownAt
  split <;> infer_instance

instance (cfg : Conf) (s : System θ κ F cfg calculateDecay) (e : Event θ κ) :
    Decidable (PairKnown cfg s e) := by
  unfold PairKnown
  split <;> infer_instance

open Ingest (tenAtATime addUserBatch plainBatch sampleStart)

/-- A thread goes on so many times; the group `B` is not known. -/
def goOn (t : Bool) (k : Nat) : List (Event Bool Unit) :=
  List.replicate k (.goesOn t Chain.noChains (some "sibling") 0)

/-- One thread comes to ask for the pair of a transaction, the other one comes with it and holds
the lock of the facade; the first one goes on. -/
def pairComes (b : GradidoBatch) (k : Nat) : List (Event Bool Unit) :=
  .addTransaction () (plainBatch b) :: .continueWithTransactions false () :: goOn false 9 ++
    .onPairedTransaction true ⟨7, 0⟩ Transaction.zero :: goOn true 2 ++
      .continueWithTransactions false () :: goOn false k

/-- A chain that is ready, and to which a user moves.  The first thread takes the lock of the
chain and meets the transaction again while the other one holds the lock of the facade and waits
for that of the chain; the flag is set, and the first thread does not come to call the facade. -/
theorem no_lock_cycle_moveUser :
    ∃ node s, run (Ingest.step tenAtATime) sampleStart [.continueValidation none 0] = some node ∧
      run (step tenAtATime) (initial Bool fun _ : Unit => node) (pairComes moveUser 2) = some s ∧
      s.locks (.chain ()) = some false ∧ s.locks .facade = some true ∧
      (s.place true).wants = some (.chain ()) ∧ ¬ Cycle s := by
  obtain ⟨node, hno, s, hs, hco, hch, hfa, hwa⟩ : ∃ node,
      run (Ingest.step tenAtATime) sampleStart [.continueValidation none 0] = some node ∧ ∃ s,
      run (step tenAtATime) (initial Bool fun _ : Unit => node) (pairComes moveUser 2) = some s ∧
      Along (step tenAtATime) (PairKnown tenAtATime) (initial Bool fun _ : Unit => node)
        (pairComes moveUser 2) ∧ s.locks (.chain ()) = some false ∧
      s.locks .facade = some true ∧ (s.place true).wants = some (.chain ()) := by decide +kernel
  exact ⟨node, s, hno, hs, hch, hfa, hwa,
    no_lock_cycle tenAtATime (fun _ => node) (pairComes moveUser 2) s hs hco⟩

/-- The first thread comes into its loop. -/
def loops : List (Event Bool Unit) :=
  .addTransaction () (plainBatch moveUser) :: .continueWithTransactions false () :: goOn false 1

/-- The other one comes and takes the lock of the facade. -/
def answers : List (Event Bool Unit) :=
  .onPairedTransaction true ⟨7, 0⟩ Transaction.zero :: goOn true 1

/-- A chain with user 1, to whom something is sent: the flag is not set, and the first thread
comes to call the facade. -/
theorem locks_cycle : ∃ node s, run (Ingest.step tenAtATime) sampleStart
        [.continueValidation none 0, .addTransaction Chain.noChains 0 (addUserBatch 1)]
        = some node ∧
      run (step tenAtATime) (initial Bool fun _ : Unit => node) (pairComes sendUser 2) = some s ∧
      Cycle s := by
  obtain ⟨node, hno, s, hs, hcy⟩ : ∃ node, run (Ingest.step tenAtATime) sampleStart
        [.continueValidation none 0, .addTransaction Chain.noChains 0 (addUserBatch 1)] = some node ∧
      ∃ s, run (step tenAtATime) (initial Bool fun _ : Unit => node) (pairComes sendUser 2) = some s ∧
      s.locks (.chain ()) = some false ∧ (s.place false).wants = some .facade ∧
      s.locks .facade = some true ∧ (s.place true).wants = some (.chain ()) := by decide +kernel
  exact ⟨node, s, hno, hs, false, true, (), hcy⟩

end GradidoNode.Locks
