/-
# `GradidoNode.Ledger.CalcFields` — live processing of a transaction

`BlockchainGradido::calc_fields_and_update_indexes_for`, one definition for each
of its nine cases, on the indexes it keeps in memory.

**What it returns** (`Calc`).  `ready` is `true`: the transaction has its
calculated fields and is to be stored.  `waiting` is `false`: a paired
transaction of another group is not known yet; the request is what was handed to
`exec_once_paired_transaction_done`.  `failed` is a throw, or the dereference of
`user_index.end()` that LOCAL_TRANSFER and OUTBOUND_TRANSFER make before they
look whether the sender was found.

**What it is given.**  `recCount` is `storage.get_rec_count()` before the
transaction is stored.  `Env` answers for other chains: `get_group_blockchain`,
and what `get_paired_transaction` and `get_transaction` of the chain found
return.  `junk` is the value of `pt_seq_num` when MOVE_USER_INBOUND passes it on
without `get_paired_transaction` having set it.

The source updates entries through iterators.  Where two iterators may point to
one entry (a transfer from a user to themselves) the updates are in the order of
the source.

`Applied` says once, case by case, what a transaction that became ready did, and
`Waits` what one did that waits; `calc_ends` says that a call ends in one of these
ways, or that the sender is not known.  The proofs about whole runs go through these
and never unfold a case again.
-/
import GradidoNode.Lib.PMap
import GradidoNode.Ledger.Transaction
import GradidoNode.Storage.Blockchain

namespace GradidoNode

open Lib

structure UserInfo where
  currentBalance : GradidoValue
  lastRecordWithBalance : UInt64
  timestampOfLastBalance : HederaTimestamp
  deriving DecidableEq, Repr

/-- `FriendGroupInfo`, which is empty. -/
abbrev FriendGroupInfo := Unit

/-- The indexes of `BlockchainGradido`. -/
structure Indexes where
  userIndex : PMap PubKey UserInfo
  friendGroupIndex : PMap Bytes FriendGroupInfo
  outboundTransactions : PMap HederaTimestamp UInt64

/-- The indexes, and what is known of the paired transaction waited for. -/
structure Ledger extends Indexes where
  otherGroup : Bytes
  pairedTransaction : HederaTimestamp
  pairedTr : Transaction
  waitingForPaired : Bool

/-- What another chain of the node answers. -/
structure ChainView where
  getPairedTransaction : HederaTimestamp → Option UInt64
  getTransaction : UInt64 → Option Transaction

/-- What a transaction is processed with. -/
structure Env where
  getGroupBlockchain : Bytes → Option ChainView
  junk : UInt64

/-- How `calc_fields_and_update_indexes_for` ends. -/
inductive Calc where
  | ready (l : Ledger) (tr : Transaction)
  | waiting (l : Ledger) (request : Option (Bytes × HederaTimestamp))
  | failed (e : Fault)

namespace Ledger

def clearIndexes : Indexes where
  userIndex := .empty
  friendGroupIndex := .empty
  outboundTransactions := .empty

/-- A ledger as it is constructed. -/
def initial : Ledger where
  toIndexes := clearIndexes
  otherGroup := []
  pairedTransaction := HederaTimestamp.zero
  pairedTr := Transaction.zero
  waitingForPaired := false

def onPairedTransactionDone (t : Transaction) (l : Ledger) : Ledger :=
  { l with waitingForPaired := false, pairedTr := t }

variable (calculateDecay : DecayFunction) (env : Env) (recCount : Nat)

/-- The ledger with another user index. -/
def withUsers (l : Ledger) (users : PMap PubKey UserInfo) : Ledger :=
  { l with userIndex := users }

/-- The ledger with an outbound transaction inserted. -/
def withOutbound (l : Ledger) (id : HederaTimestamp) (recNum : UInt64) : Ledger :=
  { l with outboundTransactions := l.outboundTransactions.insertNew id recNum }

/-- The transaction with a result, its other fields as they are. -/
def withResult (tr : Transaction) (result : TransactionResult) : Transaction :=
  { tr with result := result }

/-! ## The nine cases -/

/-- GRADIDO_CREATION. -/
def calcGradidoCreation (l : Ledger) (tr : Transaction) (c : GradidoCreation) : Calc :=
  match l.userIndex c.user with
  | none => .ready l (withResult tr .unknownLocalUser)
  | some info =>
    let balance := calcDeflation calculateDecay info.timestampOfLastBalance
      tr.consensusTimestamp info.currentBalance
    let c' : GradidoCreation :=
      { c with
        newBalance := balance.add c.amount
        prevTransferRecNum := info.lastRecordWithBalance }
    .ready (l.withUsers (l.userIndex.put c.user
        ⟨balance.add c.amount, .ofNat recCount, tr.consensusTimestamp⟩))
      { tr with body := .gradidoCreation c', result := .success }

/-- ADD_GROUP_FRIEND. -/
def calcAddGroupFriend (l : Ledger) (tr : Transaction) (group : Vector UInt8 32) : Calc :=
  match l.friendGroupIndex (cstr group) with
  | some _ => .ready l (withResult tr .groupIsAlreadyFriend)
  | none =>
    .ready { l with friendGroupIndex := l.friendGroupIndex.insertNew (cstr group) () }
      (withResult tr .success)

/-- REMOVE_GROUP_FRIEND. -/
def calcRemoveGroupFriend (l : Ledger) (tr : Transaction) (group : Vector UInt8 32) : Calc :=
  match l.friendGroupIndex (cstr group) with
  | none => .ready l (withResult tr .groupIsNotFriend)
  | some _ =>
    .ready { l with friendGroupIndex := l.friendGroupIndex.erase (cstr group) }
      (withResult tr .success)

/-- ADD_USER. -/
def calcAddUser (l : Ledger) (tr : Transaction) (user : PubKey) : Calc :=
  match l.userIndex user with
  | some _ => .ready l (withResult tr .userAlreadyExists)
  | none =>
    .ready (l.withUsers (l.userIndex.insertNew user
        ⟨GradidoValue.zero, .ofNat recCount, tr.consensusTimestamp⟩))
      (withResult tr .success)

/-- The paired transaction of a MOVE_USER_INBOUND: the one waited for, or what the
other chain has.  `get_transaction` is called whatever `get_paired_transaction` said. -/
def moveUserPaired (l : Ledger) (m : MoveUser) : Option Transaction :=
  let found := match l.pairedTr.body with
    | .moveUserOutbound o => l.otherGroup == cstr m.otherGroup &&
        o.pairedTransactionId == m.pairedTransactionId
    | _ => false
  if found then some l.pairedTr
  else
    match env.getGroupBlockchain (cstr m.otherGroup) with
    | none => none
    | some b => b.getTransaction ((b.getPairedTransaction m.pairedTransactionId).getD env.junk)

/-- MOVE_USER_INBOUND. -/
def calcMoveUserInbound (l : Ledger) (tr : Transaction) (m : MoveUser) : Calc :=
  match l.userIndex m.user with
  | some _ => .ready l (withResult tr .userAlreadyExists)
  | none =>
    match moveUserPaired env l m with
    | none =>
      .waiting
        { l with
          otherGroup := cstr m.otherGroup
          pairedTransaction := m.pairedTransactionId
          waitingForPaired := true }
        (some (cstr m.otherGroup, m.pairedTransactionId))
    | some tt =>
      if tt.result ≠ .success then .ready l (withResult tr .outboundTransactionFailed)
      else
        .ready (l.withUsers (l.userIndex.insertNew m.user
            ⟨m.newBalance, .ofNat recCount, tr.consensusTimestamp⟩))
          (withResult tr .success)

/-- `storage.get_rec_count() - 1`, on `uint64_t`. -/
def outboundRecNum : UInt64 := UInt64.ofNat recCount - 1

/-- MOVE_USER_OUTBOUND. -/
def calcMoveUserOutbound (l : Ledger) (tr : Transaction) (m : MoveUser) : Calc :=
  let l := l.withOutbound m.pairedTransactionId (outboundRecNum recCount)
  match l.userIndex m.user with
  | none => .ready l (withResult tr .unknownLocalUser)
  | some _ => .ready (l.withUsers (l.userIndex.erase m.user)) (withResult tr .success)

/-- LOCAL_TRANSFER. -/
def calcLocalTransfer (l : Ledger) (tr : Transaction) (lt : LocalTransfer) : Calc :=
  match l.userIndex lt.sender.user with
  | none => .failed (.undefined "user_index.end() dereferenced")
  | some sender =>
    let senderAmount := calcDeflation calculateDecay sender.timestampOfLastBalance
      tr.consensusTimestamp sender.currentBalance
    match l.userIndex lt.receiver.user with
    | none => .ready l (withResult tr .unknownLocalUser)
    | some receiver₀ =>
      if senderAmount.less lt.amount then .ready l (withResult tr .notEnoughGradidos)
      else
        match senderAmount.sub lt.amount with
        | none => .failed (.thrown "GradidoValue less than zero")
        | some senderNewBalance =>
          -- the sender's balance has been set when the receiver's is read
          let receiver := if lt.receiver.user = lt.sender.user then
              { sender with currentBalance := senderAmount }
            else receiver₀
          let receiverAmount := calcDeflation calculateDecay
            receiver.timestampOfLastBalance tr.consensusTimestamp receiver.currentBalance
          let lt' : LocalTransfer :=
            { lt with
              sender := ⟨lt.sender.user, senderNewBalance, sender.lastRecordWithBalance⟩
              receiver := ⟨lt.receiver.user, receiverAmount.add lt.amount,
                receiver.lastRecordWithBalance⟩ }
          .ready (l.withUsers ((l.userIndex.put lt.sender.user
              ⟨senderAmount, .ofNat recCount, tr.consensusTimestamp⟩).put lt.receiver.user
                ⟨receiverAmount, .ofNat recCount, tr.consensusTimestamp⟩))
            { tr with body := .localTransfer lt', result := .success }

/-- The paired transaction of an INBOUND_TRANSFER. -/
def inboundPaired (l : Ledger) (lt : InboundTransfer) : Option Transaction :=
  let found := match l.pairedTr.body with
    | .outboundTransfer o => l.otherGroup == cstr lt.otherGroup &&
        o.pairedTransactionId == lt.pairedTransactionId
    | _ => false
  if found then some l.pairedTr
  else
    match env.getGroupBlockchain (cstr lt.otherGroup) with
    | none => none
    | some b =>
      match b.getPairedTransaction lt.pairedTransactionId with
      | none => none
      | some seqNum => b.getTransaction seqNum

/-- INBOUND_TRANSFER.  Unlike MOVE_USER_INBOUND it does not set `waiting_for_paired`. -/
def calcInboundTransfer (l : Ledger) (tr : Transaction) (lt : InboundTransfer) : Calc :=
  match l.userIndex lt.receiver.user with
  | none => .ready l (withResult tr .unknownLocalUser)
  | some receiver =>
    match inboundPaired env l lt with
    | none =>
      .waiting
        { l with
          otherGroup := cstr lt.otherGroup
          pairedTransaction := lt.pairedTransactionId }
        (some (cstr lt.otherGroup, lt.pairedTransactionId))
    | some tt =>
      if tt.result ≠ .success then .ready l (withResult tr .outboundTransactionFailed)
      else
        let receiverAmount := calcDeflation calculateDecay receiver.timestampOfLastBalance
          tr.consensusTimestamp receiver.currentBalance
        let lt' : InboundTransfer :=
          { lt with
            receiver := ⟨lt.receiver.user, receiverAmount.add lt.amount,
              receiver.lastRecordWithBalance⟩ }
        .ready (l.withUsers (l.userIndex.put lt.receiver.user
            ⟨receiverAmount, .ofNat recCount, tr.consensusTimestamp⟩))
          { tr with body := .inboundTransfer lt', result := .success }

/-- OUTBOUND_TRANSFER. -/
def calcOutboundTransfer (l : Ledger) (tr : Transaction) (lt : OutboundTransfer) : Calc :=
  let l := l.withOutbound lt.pairedTransactionId (outboundRecNum recCount)
  match l.userIndex lt.sender.user with
  | none => .failed (.undefined "user_index.end() dereferenced")
  | some sender =>
    let senderAmount := calcDeflation calculateDecay sender.timestampOfLastBalance
      tr.consensusTimestamp sender.currentBalance
    if senderAmount.less lt.amount then .ready l (withResult tr .notEnoughGradidos)
    else
      match senderAmount.sub lt.amount with
      | none => .failed (.thrown "GradidoValue less than zero")
      | some senderNewBalance =>
        let lt' : OutboundTransfer :=
          { lt with
            sender := ⟨lt.sender.user, senderNewBalance, sender.lastRecordWithBalance⟩ }
        .ready (l.withUsers (l.userIndex.put lt.sender.user
            ⟨senderAmount, .ofNat recCount, tr.consensusTimestamp⟩))
          { tr with body := .outboundTransfer lt', result := .success }

def calcFieldsAndUpdateIndexesFor (l : Ledger) (tr : Transaction) : Calc :=
  if l.waitingForPaired then .waiting l none
  else
    match tr.body with
    | .gradidoCreation c => calcGradidoCreation calculateDecay recCount l tr c
    | .addGroupFriend g => calcAddGroupFriend l tr g
    | .removeGroupFriend g => calcRemoveGroupFriend l tr g
    | .addUser u => calcAddUser recCount l tr u
    | .moveUserInbound m => calcMoveUserInbound env recCount l tr m
    | .moveUserOutbound m => calcMoveUserOutbound recCount l tr m
    | .localTransfer lt => calcLocalTransfer calculateDecay recCount l tr lt
    | .inboundTransfer lt => calcInboundTransfer calculateDecay env recCount l tr lt
    | .outboundTransfer lt => calcOutboundTransfer calculateDecay recCount l tr lt
    | .other _ => .ready l tr

/-! ## What a ready transaction did -/

/-- The effects of a transaction that became ready: refused, without effect, or one
of the nine. -/
inductive Applied (l : Ledger) (tr : Transaction) : Ledger → Transaction → Prop
  | refused {l' : Ledger} {result : TransactionResult} (hresult : result ≠ .success)
      (hl : l' = l ∨ ∃ id recNum, l' = l.withOutbound id recNum) :
      Applied l tr l' (withResult tr result)
  | other {ty : UInt8} (hbody : tr.body = .other ty) : Applied l tr l tr
  | gradidoCreation {c : GradidoCreation} {info : UserInfo} (hbody : tr.body = .gradidoCreation c)
      (hinfo : l.userIndex c.user = some info) {balance : GradidoValue}
      (hbalance : balance = calcDeflation calculateDecay info.timestampOfLastBalance
        tr.consensusTimestamp info.currentBalance) :
      Applied l tr (l.withUsers (l.userIndex.put c.user
          ⟨balance.add c.amount, .ofNat recCount, tr.consensusTimestamp⟩))
        { tr with
          body := .gradidoCreation
            ⟨⟨c.user, balance.add c.amount, info.lastRecordWithBalance⟩, c.amount⟩
          result := .success }
  | addGroupFriend {g : Vector UInt8 32} (hbody : tr.body = .addGroupFriend g)
      (hnone : l.friendGroupIndex (cstr g) = none) :
      Applied l tr { l with friendGroupIndex := l.friendGroupIndex.insertNew (cstr g) () }
        (withResult tr .success)
  | removeGroupFriend {g : Vector UInt8 32} (hbody : tr.body = .removeGroupFriend g) :
      Applied l tr { l with friendGroupIndex := l.friendGroupIndex.erase (cstr g) }
        (withResult tr .success)
  | addUser {u : PubKey} (hbody : tr.body = .addUser u) (hnone : l.userIndex u = none) :
      Applied l tr (l.withUsers (l.userIndex.put u
          ⟨GradidoValue.zero, .ofNat recCount, tr.consensusTimestamp⟩))
        (withResult tr .success)
  | moveUserInbound {m : MoveUser} {tt : Transaction} (hbody : tr.body = .moveUserInbound m)
      (hnone : l.userIndex m.user = none) (hpaired : moveUserPaired env l m = some tt)
      (hsuccess : tt.result = .success) :
      Applied l tr (l.withUsers (l.userIndex.put m.user
          ⟨m.newBalance, .ofNat recCount, tr.consensusTimestamp⟩))
        (withResult tr .success)
  | moveUserOutbound {m : MoveUser} (hbody : tr.body = .moveUserOutbound m) : Applied l tr
        ((l.withOutbound m.pairedTransactionId (outboundRecNum recCount)).withUsers
          (l.userIndex.erase m.user))
        (withResult tr .success)
  | localTransfer {lt : LocalTransfer} {sender receiver : UserInfo}
      {senderAmount senderNewBalance receiverAmount : GradidoValue}
      (hbody : tr.body = .localTransfer lt)
      (hsender : l.userIndex lt.sender.user = some sender)
      (hreceiver : if lt.receiver.user = lt.sender.user
        then receiver = { sender with currentBalance := senderAmount }
        else l.userIndex lt.receiver.user = some receiver)
      (hamount : senderAmount = calcDeflation calculateDecay sender.timestampOfLastBalance
        tr.consensusTimestamp sender.currentBalance)
      (hcheck : senderAmount.less lt.amount = false)
      (hnew : senderAmount.sub lt.amount = some senderNewBalance)
      (hramount : receiverAmount = calcDeflation calculateDecay receiver.timestampOfLastBalance
        tr.consensusTimestamp receiver.currentBalance) :
      Applied l tr (l.withUsers ((l.userIndex.put lt.sender.user
          ⟨senderAmount, .ofNat recCount, tr.consensusTimestamp⟩).put lt.receiver.user
            ⟨receiverAmount, .ofNat recCount, tr.consensusTimestamp⟩))
        { tr with
          body := .localTransfer
            ⟨lt.amount, ⟨lt.sender.user, senderNewBalance, sender.lastRecordWithBalance⟩,
              ⟨lt.receiver.user, receiverAmount.add lt.amount, receiver.lastRecordWithBalance⟩⟩
          result := .success }
  | inboundTransfer {lt : InboundTransfer} {receiver : UserInfo} {receiverAmount : GradidoValue}
      {tt : Transaction} (hbody : tr.body = .inboundTransfer lt)
      (hreceiver : l.userIndex lt.receiver.user = some receiver)
      (hpaired : inboundPaired env l lt = some tt) (hsuccess : tt.result = .success)
      (hramount : receiverAmount = calcDeflation calculateDecay receiver.timestampOfLastBalance
        tr.consensusTimestamp receiver.currentBalance) :
      Applied l tr (l.withUsers (l.userIndex.put lt.receiver.user
          ⟨receiverAmount, .ofNat recCount, tr.consensusTimestamp⟩))
        { tr with
          body := .inboundTransfer { lt with
            receiver := ⟨lt.receiver.user, receiverAmount.add lt.amount,
              receiver.lastRecordWithBalance⟩ }
          result := .success }
  | outboundTransfer {lt : OutboundTransfer} {sender : UserInfo}
      {senderAmount senderNewBalance : GradidoValue} (hbody : tr.body = .outboundTransfer lt)
      (hsender : l.userIndex lt.sender.user = some sender)
      (hamount : senderAmount = calcDeflation calculateDecay sender.timestampOfLastBalance
        tr.consensusTimestamp sender.currentBalance)
      (hcheck : senderAmount.less lt.amount = false)
      (hnew : senderAmount.sub lt.amount = some senderNewBalance) :
      Applied l tr ((l.withOutbound lt.pairedTransactionId (outboundRecNum recCount)).withUsers
          (l.userIndex.put lt.sender.user ⟨senderAmount, .ofNat recCount, tr.consensusTimestamp⟩))
        { tr with
          body := .outboundTransfer { lt with
            sender := ⟨lt.sender.user, senderNewBalance, sender.lastRecordWithBalance⟩ }
          result := .success }

variable {calculateDecay env recCount} {l l' : Ledger} {tr tr' : Transaction}

/-! ## What a transaction did that is not ready -/

/-- What a transaction that waits has done: nothing, while another one is waited for, or it
has asked for its paired transaction. -/
inductive Waits (env : Env) (l : Ledger) (body : TransactionBody) :
    Ledger → Option (Bytes × HederaTimestamp) → Prop
  | already (hwaiting : l.waitingForPaired = true) : Waits env l body l none
  | moveUserInbound {m : MoveUser} (hfree : l.waitingForPaired = false)
      (hbody : body = .moveUserInbound m) (hnone : l.userIndex m.user = none)
      (hpaired : moveUserPaired env l m = none) :
      Waits env l body
        { l with
          otherGroup := cstr m.otherGroup
          pairedTransaction := m.pairedTransactionId
          waitingForPaired := true }
        (some (cstr m.otherGroup, m.pairedTransactionId))
  | inboundTransfer {lt : InboundTransfer} (hfree : l.waitingForPaired = false)
      (hbody : body = .inboundTransfer lt) (hreceiver : (l.userIndex lt.receiver.user).isSome)
      (hpaired : inboundPaired env l lt = none) :
      Waits env l body
        { l with otherGroup := cstr lt.otherGroup, pairedTransaction := lt.pairedTransactionId }
        (some (cstr lt.otherGroup, lt.pairedTransactionId))

/-- The user whose entry is read unseen is known. -/
def SenderKnown (l : Ledger) : TransactionBody → Prop
  | .localTransfer lt => (l.userIndex lt.sender.user).isSome
  | .outboundTransfer lt => (l.userIndex lt.sender.user).isSome
  | _ => True

variable (calculateDecay env recCount l tr) in
/-- How a call ends: the transaction is ready, it waits, or its sender is not known. -/
def Ends : Calc → Prop
  | .ready l' tr' => Applied calculateDecay env recCount l tr l' tr'
  | .waiting l' request => Waits env l tr.body l' request
  | .failed _ => l.waitingForPaired = false ∧ ¬ SenderKnown l tr.body

theorem ends_refused {result : TransactionResult} (hresult : result ≠ .success) :
    Ends calculateDecay env recCount l tr (.ready l (withResult tr result)) :=
  .refused hresult (.inl rfl)

variable (calculateDecay env recCount l tr) in
/-- The inversion: a call ends in one of these ways. -/
theorem calc_ends : Ends calculateDecay env recCount l tr
    (calcFieldsAndUpdateIndexesFor calculateDecay env recCount l tr) := by
  unfold calcFieldsAndUpdateIndexesFor
  split
  · next hwa => exact .already hwa
  next hwa =>
  have hfr : l.waitingForPaired = false := Bool.eq_false_iff.mpr hwa
  cases hbo : tr.body with
  | gradidoCreation c =>
    dsimp only [calcGradidoCreation]
    split
    · exact ends_refused (by decide)
    · next hin => exact .gradidoCreation hbo hin rfl
  | addGroupFriend g =>
    dsimp only [calcAddGroupFriend]
    split
    · exact ends_refused (by decide)
    · next hno => exact .addGroupFriend hbo hno
  | removeGroupFriend g =>
    dsimp only [calcRemoveGroupFriend]
    split
    · exact ends_refused (by decide)
    · exact .removeGroupFriend hbo
  | addUser u =>
    dsimp only [calcAddUser]
    split
    · exact ends_refused (by decide)
    · next hno =>
      rw [PMap.insertNew_of_none hno]
      exact .addUser hbo hno
  | moveUserInbound m =>
    dsimp only [calcMoveUserInbound]
    split
    · exact ends_refused (by decide)
    · next hno =>
      split
      · next hpa => exact .moveUserInbound hfr hbo hno hpa
      · next tt hpa =>
        rw [PMap.insertNew_of_none hno]
        split
        · exact ends_refused (by decide)
        · next hsu => exact .moveUserInbound hbo hno hpa (not_not.mp hsu)
  | moveUserOutbound m =>
    dsimp only [calcMoveUserOutbound]
    split
    · exact .refused (by decide) (.inr ⟨_, _, rfl⟩)
    · exact .moveUserOutbound hbo
  | localTransfer lt =>
    dsimp only [calcLocalTransfer]
    split
    · next hno => exact ⟨hfr, by rw [hbo, SenderKnown, hno]; exact Bool.noConfusion⟩
    · next sender hse =>
      split
      · exact ends_refused (by decide)
      · next receiver₀ hre =>
        split
        · exact ends_refused (by decide)
        · next hls =>
          split
          · next hsub => exact absurd hsub (GradidoValue.sub_ne_none hls)
          · next senderNewBalance hnew =>
            refine .localTransfer hbo hse ?_ rfl (Bool.eq_false_iff.mpr hls) hnew rfl
            split
            · rfl
            · exact hre
  | inboundTransfer lt =>
    dsimp only [calcInboundTransfer]
    split
    · exact ends_refused (by decide)
    · next receiver hre =>
      split
      · next hpa => exact .inboundTransfer hfr hbo (by rw [hre]; rfl) hpa
      · next tt hpa =>
        split
        · exact ends_refused (by decide)
        · next hsu => exact .inboundTransfer hbo hre hpa (not_not.mp hsu) rfl
  | outboundTransfer lt =>
    dsimp only [calcOutboundTransfer]
    split
    · next hno =>
      have hno : l.userIndex lt.sender.user = none := hno
      exact ⟨hfr, by rw [hbo, SenderKnown, hno]; exact Bool.noConfusion⟩
    · next sender hse =>
      split
      · exact .refused (by decide) (.inr ⟨_, _, rfl⟩)
      · next hls =>
        split
        · next hsub => exact absurd hsub (GradidoValue.sub_ne_none hls)
        · next senderNewBalance hnew =>
          exact .outboundTransfer hbo hse rfl (Bool.eq_false_iff.mpr hls) hnew
  | other ty => exact .other hbo

theorem calc_applied
    (h : calcFieldsAndUpdateIndexesFor calculateDecay env recCount l tr = .ready l' tr') :
    Applied calculateDecay env recCount l tr l' tr' := by
  have hen := calc_ends calculateDecay env recCount l tr
  rw [h] at hen
  exact hen

variable {request : Option (Bytes × HederaTimestamp)}

theorem calc_waits
    (h : calcFieldsAndUpdateIndexesFor calculateDecay env recCount l tr = .waiting l' request) :
    Waits env l tr.body l' request := by
  have hen := calc_ends calculateDecay env recCount l tr
  rw [h] at hen
  exact hen

/-- A transaction that waits changed nothing in the indexes.  It has set `waiting_for_paired`,
or it is an INBOUND_TRANSFER that has asked for its paired transaction. -/
theorem calc_waiting_cases
    (h : calcFieldsAndUpdateIndexesFor calculateDecay env recCount l tr = .waiting l' request) :
    l'.toIndexes = l.toIndexes ∧ (l'.waitingForPaired = true ∨ ∃ lt, tr.body = .inboundTransfer lt ∧
        request = some (cstr lt.otherGroup, lt.pairedTransactionId)) := by
  cases calc_waits h with
  | already hwa => exact ⟨rfl, .inl hwa⟩
  | moveUserInbound hfr hbo hno hpa => exact ⟨rfl, .inl rfl⟩
  | inboundTransfer hfr hbo hre hpa => exact ⟨rfl, .inr ⟨_, hbo, rfl⟩⟩

/-- What a waiting transaction changed: nothing in the indexes. -/
theorem calc_waiting
    (h : calcFieldsAndUpdateIndexesFor calculateDecay env recCount l tr = .waiting l' request) :
    l'.toIndexes = l.toIndexes :=
  (calc_waiting_cases h).1

end Ledger

end GradidoNode
