/-
# `GradidoNode.Wire.Fields` — the fields of a translated transaction

Each member of the union of a transaction is copied from its own member of the message,
and what the chain calculates later is zero (`ownBody`).  The group name is copied last,
with its own length, into a field of 32 bytes; what is behind the field gets the rest:

    INBOUND_TRANSFER     other_group   sender   receiver  new_balance  prev_transfer_rec_num
    OUTBOUND_TRANSFER    other_group   sender  new_balance  prev_transfer_rec_num   receiver
    MOVE_USER_*          other_group   new_balance  prev_transfer_rec_num
    *_GROUP_FRIEND       group

A transaction has its own fields just if the rest of the name is what is there anyway
(`ownFields_iff`).

An amount is a `double`, assigned to the `uint64_t` of a `GradidoValue`.  It keeps its whole
part, and the six decimals stay zero (`amountKept_iff`); nothing looks at its sign.
-/
import GradidoNode.Wire.Meaning
import GradidoNode.Wire.Parts
import Mathlib.Data.Rat.Floor

namespace GradidoNode.Wire

open Lib Proto

/-! ## The fields as the message has them -/

def keyOf (s : Bytes) : PubKey := user.read (taken PUB_KEY_LENGTH s)

/-- A group name, in the field it has. -/
def groupField (group : Bytes) : Vector UInt8 PUB_KEY_LENGTH :=
  (Packed.array PUB_KEY_LENGTH).read (group.take PUB_KEY_LENGTH)

def valueOf (a : Amount) : GradidoValue := ⟨a.amount.toUInt64.getD 0, 0⟩

/-- A user as long as nothing has been calculated. -/
def ownUser (s : Bytes) : UserTransfer := ⟨keyOf s, ⟨0, 0⟩, 0⟩

def ownMove (u : GroupMemberUpdate) : MoveUser where
  toUserTransfer := ownUser u.userPubkey
  toPairedTransaction := ⟨u.pairedTransactionId, groupField u.targetGroup⟩

/-- The transaction a message is about, each field from its own. -/
def ownBody : Data → TransactionBody
  | .creation c => .gradidoCreation ⟨ownUser c.receiver.pubkey, valueOf c.receiver⟩
  | .groupFriendsUpdate u =>
    if u.action = 0 then .addGroupFriend (groupField u.group)
    else .removeGroupFriend (groupField u.group)
  | .groupMemberUpdate u =>
    let memberUpdateType := u.memberUpdateType.toUInt32.toUInt8
    if memberUpdateType = 0 then .addUser (keyOf u.userPubkey)
    else if memberUpdateType = 1 then .moveUserInbound (ownMove u)
    else .moveUserOutbound (ownMove u)
  | .transfer (.localTransfer g2) =>
    .localTransfer ⟨valueOf g2.sender, ownUser g2.sender.pubkey, ownUser g2.receiver⟩
  | .transfer (.inbound g2) =>
    .inboundTransfer ⟨⟨g2.pairedTransactionId, groupField g2.otherGroup⟩, valueOf g2.sender,
      keyOf g2.sender.pubkey, ownUser g2.receiver⟩
  | .transfer (.outbound g2) =>
    .outboundTransfer ⟨⟨g2.pairedTransactionId, groupField g2.otherGroup⟩, valueOf g2.sender,
      ownUser g2.sender.pubkey, keyOf g2.receiver⟩
  | _ => .other 0

/-- The group name of a message. -/
def groupOf : Data → Bytes
  | .groupFriendsUpdate u => u.group
  | .groupMemberUpdate u =>
    if u.memberUpdateType.toUInt32.toUInt8 = 0 then [] else u.targetGroup
  | .transfer (.inbound g2) | .transfer (.outbound g2) => g2.otherGroup
  | _ => []

/-- What is behind the field of the group name. -/
def behindGroup : Data → Bytes
  | .groupMemberUpdate u =>
    if u.memberUpdateType.toUInt32.toUInt8 = 0 then [] else userState.write userState.zero
  | .transfer (.inbound g2) =>
    (user.pair userTransfer).write (keyOf g2.sender.pubkey, keyOf g2.receiver, userState.zero)
  | .transfer (.outbound g2) =>
    (userTransfer.pair user).write ((keyOf g2.sender.pubkey, userState.zero), keyOf g2.receiver)
  | _ => []

/-- The group name has nothing behind its field, or what is there anyway. -/
def GroupSpares (data : Data) : Prop :=
  ((groupOf data).drop PUB_KEY_LENGTH).take (behindGroup data).length
    = (behindGroup data).take ((groupOf data).length - PUB_KEY_LENGTH)

instance (data : Data) : Decidable (GroupSpares data) := inferInstanceAs (Decidable (_ = _))

/-! ## The union in memory -/

theorem taken_eq_write {s : Bytes} (h : Fits PUB_KEY_LENGTH s) :
    taken PUB_KEY_LENGTH s = user.write (keyOf s) := (user.write_read _ (length_taken h)).symm

/-- The type of a message; those that are no transaction have none. -/
def typeOf : Data → UInt8
  | .creation _ => GRADIDO_CREATION
  | .groupFriendsUpdate u => if u.action = 0 then ADD_GROUP_FRIEND else REMOVE_GROUP_FRIEND
  | .groupMemberUpdate u =>
    let memberUpdateType := u.memberUpdateType.toUInt32.toUInt8
    if memberUpdateType = 0 then ADD_USER
    else if memberUpdateType = 1 then MOVE_USER_INBOUND
    else MOVE_USER_OUTBOUND
  | .transfer (.localTransfer _) => LOCAL_TRANSFER
  | .transfer (.inbound _) => INBOUND_TRANSFER
  | .transfer (.outbound _) => OUTBOUND_TRANSFER
  | _ => 0

theorem fieldWrites_type (data : Data) : (fieldWrites data = [] ∧ typeOf data = 0) ∨
      ∃ ws, fieldWrites data = (transactionTypeAt, [typeOf data]) :: ws ∧
        ∀ w ∈ ws, operationAt ≤ w.1 := by
  cases data with
  | transfer g2 =>
    cases g2 <;> first
      | exact .inl ⟨rfl, rfl⟩
      | exact .inr ⟨_, rfl, by simp only [List.forall_mem_cons]; decide⟩
  | creation c => exact .inr ⟨_, rfl, by simp only [List.forall_mem_cons]; decide⟩
  | groupFriendsUpdate u => exact .inr ⟨[], rfl, fun w hw => nomatch hw⟩
  | groupMemberUpdate u =>
    unfold fieldWrites typeOf
    dsimp only
    split
    · exact .inr ⟨_, rfl, by simp only [List.forall_mem_cons]; decide⟩
    · split <;> exact .inr ⟨_, rfl, by simp only [List.forall_mem_cons]; decide⟩
  | debugResetBlockchainMark | other | notSet => exact .inl ⟨rfl, rfl⟩

/-- The union without the group name. -/
def fieldsOf (data : Data) : Memory := blank.writes (fieldWrites data)

namespace Translated

variable {t : ConsensusTopicResponse} {gt : GradidoTransaction} {tb : Proto.TransactionBody}
  {n : Nat} {buff : Memory}

section

variable (h : Translated t gt tb n buff)
include h

theorem load_union {α : Type} (Q : Packed α) {off : Nat}
    (hlo : transactionTypeAt ≤ off) (hhi : off + Q.size ≤ resultAt) :
    buff.load Q off = ((fieldsOf tb.data).writes (groupWrite tb.data)).load Q off := by
  obtain ⟨first, -, -, hfr⟩ := h.main
  have hre : resultAt ≤ recordAt (memoEnd tb.memo) :=
    Nat.le_trans (by decide) (recordAt_memoEnd tb.memo)
  rw [hfr.load (Nat.le_trans hhi hre), mainWrites, Memory.writes_append,
    Memory.writes_append, Memory.load_writes_apart fun w hw => ?_]
  · refine Memory.load_congr (Memory.read_congr fun a ha _ => ?_)
    rw [dataWrites, Memory.writes_append]
    refine Memory.writes_congr (Memory.writes_congr (Memory.writes_apart fun w hw => ?_))
    exact .inl (Nat.le_trans (headWrites_below t gt tb first w hw) (Nat.le_trans hlo ha))
  · exact tailWrites_apart gt tb.memo (Nat.le_trans (by decide) hlo) hhi w hw

theorem result_eq :
    (recordIn buff 0).transaction.result = UNKNOWN := by
  obtain ⟨first, -, -, hfr⟩ := h.main
  have hend : resultAt + Packed.byte.size ≤ memoAt := by decide
  rw [transaction_main]
  dsimp only
  rw [hfr.load (Nat.le_trans (by decide) (recordAt_memoEnd tb.memo)), mainWrites,
    Memory.writes_append, Memory.writes_append, Memory.writes_append,
    Memory.load_writes_apart fun w hw => .inr (Nat.le_trans (by decide) (memoWrites_above _ w hw)),
    tailWrites]
  simp only [Memory.writes]
  rw [Memory.load_write_below Packed.byte Packed.uint32 (by decide),
    Memory.load_write_beyond Packed.byte hend]
  exact Memory.load_write Packed.byte resultAt UNKNOWN _

theorem member_eq {α : Type} (Q : Packed α)
    (hsize : Q.size ≤ operationSize) :
    (recordIn buff 0).transaction.member Q
      = ((fieldsOf tb.data).writes (groupWrite tb.data)).load Q operationAt := by
  have hun : (recordIn buff 0).transaction.operation.toList
      = buff.read operationAt operationSize := by
    rw [transaction_main]
    exact Packed.toList_read_array (Memory.length_read _ _ _)
  rw [Transaction.member, hun, Memory.take_read hsize]
  exact h.load_union Q (by decide) (Nat.add_le_add_left hsize operationAt)

theorem transactionType_eq :
    (recordIn buff 0).transaction.transactionType = typeOf tb.data := by
  rw [transaction_main]
  dsimp only
  rw [h.load_union Packed.byte (Nat.le_refl _) (by decide), fieldsOf, ← Memory.writes_append]
  rcases fieldWrites_type tb.data with ⟨hws, htype⟩ | ⟨ws, hws, hab⟩
  · rw [hws, htype, List.nil_append,
      Memory.load_writes_apart fun w hw => .inr (groupWrite_above _ w hw)]
    exact Memory.load_zeros Packed.byte transactionTypeAt
  · rw [hws, List.cons_append, Memory.writes, Memory.load_writes_apart fun w hw => .inr ?_]
    · exact Memory.load_write Packed.byte transactionTypeAt _ _
    · rcases List.mem_append.mp hw with hw | hw
      · exact hab w hw
      · exact groupWrite_above _ w hw

end

end Translated

/-! ## The members, with their fields where they are -/

section Members

variable (m : Memory)

theorem load_value (off : Nat) : m.load gradidoValue off
    = ⟨m.load Packed.uint64 off, m.load Packed.uint32 (off + Packed.uint64.size)⟩ := by
  rw [gradidoValue, Memory.load_map, Memory.load_pair]
  rfl

theorem load_userTransfer (off : Nat) : m.load userTransfer off
    = (m.load user off, m.load userState (off + user.size)) := by
  rw [userTransfer, Memory.load_pair]

theorem load_creation : m.load gradidoCreation operationAt
    = (m.load userTransfer operationAt, m.load gradidoValue (operationAt + userTransfer.size)) := by
  rw [gradidoCreation, Memory.load_pair]
  rfl

theorem load_localTransfer : m.load localTransfer operationAt = (m.load gradidoValue operationAt,
        m.load userTransfer (operationAt + abstractTransferOp.size),
        m.load userTransfer (operationAt + abstractTransferOp.size + userTransfer.size)) := by
  rw [localTransfer, Memory.load_pair, Memory.load_pair]
  rfl

theorem load_moveUser : m.load moveUser operationAt = (m.load user operationAt,
        (m.load hederaTimestamp movePairedIdAt, m.load (Packed.array PUB_KEY_LENGTH) moveGroupAt),
        m.load userState (moveGroupAt + PUB_KEY_LENGTH)) := by
  rw [moveUser, Memory.load_pair, Memory.load_pair, pairedTransaction, Memory.load_pair]
  rfl

theorem load_inboundTransfer : m.load inboundTransfer operationAt
    = (m.load gradidoValue operationAt,
        (m.load hederaTimestamp pairedIdAt, m.load (Packed.array PUB_KEY_LENGTH) otherGroupAt),
        m.load (user.pair userTransfer) (otherGroupAt + PUB_KEY_LENGTH)) := by
  rw [inboundTransfer, Memory.load_pair, Memory.load_pair, pairedTransaction, Memory.load_pair]
  rfl

theorem load_outboundTransfer : m.load outboundTransfer operationAt
    = (m.load gradidoValue operationAt,
        (m.load hederaTimestamp pairedIdAt, m.load (Packed.array PUB_KEY_LENGTH) otherGroupAt),
        m.load (userTransfer.pair user) (otherGroupAt + PUB_KEY_LENGTH)) := by
  rw [outboundTransfer, Memory.load_pair, Memory.load_pair, pairedTransaction, Memory.load_pair]
  rfl

end Members

/-! ## The body of a transaction, by its type -/

section Body

variable {r : Transaction}

theorem body_moveUserInbound (h : r.transactionType = MOVE_USER_INBOUND) :
    r.body = .moveUserInbound (asMoveUser (r.member moveUser)) := by
  unfold Transaction.body
  rw [h]
  rfl

theorem body_moveUserOutbound (h : r.transactionType = MOVE_USER_OUTBOUND) :
    r.body = .moveUserOutbound (asMoveUser (r.member moveUser)) := by
  unfold Transaction.body
  rw [h]
  rfl

theorem body_inbound (h : r.transactionType = INBOUND_TRANSFER) :
    r.body = .inboundTransfer ⟨asPaired (r.member inboundTransfer).2.1,
      (r.member inboundTransfer).1, (r.member inboundTransfer).2.2.1,
      asUserTransfer (r.member inboundTransfer).2.2.2⟩ := by
  unfold Transaction.body
  rw [h]
  rfl

theorem body_outbound (h : r.transactionType = OUTBOUND_TRANSFER) :
    r.body = .outboundTransfer ⟨asPaired (r.member outboundTransfer).2.1,
      (r.member outboundTransfer).1, asUserTransfer (r.member outboundTransfer).2.2.1,
      (r.member outboundTransfer).2.2.2⟩ := by
  unfold Transaction.body
  rw [h]
  rfl

end Body

/-! ## What is in the fields -/

theorem load_blank {α : Type} (Q : Packed α) (off : Nat) : blank.load Q off = Q.zero :=
  Memory.load_zeros Q off

theorem userState_zero : userState.zero = (⟨0, 0⟩, 0) := by decide

theorem uint32_zero : Packed.uint32.zero = 0 := by decide

theorem behind_otherGroup : otherGroupAt + PUB_KEY_LENGTH = senderAt := by decide

section Fields

variable {c : Proto.GradidoCreation} {g2 : Proto.LocalTransfer} {g : CrossGroupTransfer}
  {u : GroupMemberUpdate}

theorem fields_creation (h : DataFits (.creation c)) :
    (fieldsOf (.creation c)).load gradidoCreation operationAt
      = ((keyOf c.receiver.pubkey, userState.zero), valueOf c.receiver) := by
  simp (disch := decide) only [load_creation, load_userTransfer, load_value, fieldsOf, fieldWrites,
    Memory.writes, taken_eq_write h.2, amountBytes, Memory.load_write, Memory.load_write_below,
    Memory.load_write_beyond, Memory.load_write_byte_below, load_blank, uint32_zero]
  rfl

theorem fields_localTransfer (h : DataFits (.transfer (.localTransfer g2))) :
    (fieldsOf (.transfer (.localTransfer g2))).load localTransfer operationAt
      = (valueOf g2.sender, (keyOf g2.sender.pubkey, userState.zero),
          (keyOf g2.receiver, userState.zero)) := by
  simp (disch := decide) only [load_localTransfer, load_userTransfer, load_value, fieldsOf,
    fieldWrites, Memory.writes, taken_eq_write h.1.2, taken_eq_write h.2, amountBytes,
    Memory.load_write, Memory.load_write_below, Memory.load_write_beyond,
    Memory.load_write_byte_below, load_blank, uint32_zero]
  rfl

theorem fields_inbound (h : CrossGroupFits g) :
    (fieldsOf (.transfer (.inbound g))).load inboundTransfer operationAt
      = (valueOf g.sender, (g.pairedTransactionId, (Packed.array PUB_KEY_LENGTH).zero),
          (keyOf g.sender.pubkey, keyOf g.receiver, userState.zero)) := by
  simp (disch := decide) only [load_inboundTransfer, behind_otherGroup, Memory.load_pair,
    load_userTransfer, load_value, fieldsOf, fieldWrites, crossGroupWrites, Memory.writes,
    taken_eq_write h.1.2, taken_eq_write h.2.1, amountBytes, Memory.load_write, Memory.load_write_below,
    Memory.load_write_beyond, Memory.load_write_byte_below, load_blank, uint32_zero]
  rfl

theorem fields_outbound (h : CrossGroupFits g) :
    (fieldsOf (.transfer (.outbound g))).load outboundTransfer operationAt
      = (valueOf g.sender, (g.pairedTransactionId, (Packed.array PUB_KEY_LENGTH).zero),
          ((keyOf g.sender.pubkey, userState.zero), keyOf g.receiver)) := by
  simp (disch := decide) only [load_outboundTransfer, behind_otherGroup, Memory.load_pair,
    load_userTransfer, load_value, fieldsOf, fieldWrites, crossGroupWrites, Memory.writes,
    taken_eq_write h.1.2, taken_eq_write h.2.1, amountBytes, Memory.load_write, Memory.load_write_below,
    Memory.load_write_beyond, Memory.load_write_byte_below, load_blank, uint32_zero]
  rfl

theorem fields_addUser (h : Fits PUB_KEY_LENGTH u.userPubkey) :
    (blank.writes [(transactionTypeAt, [ADD_USER]),
      (operationAt, taken PUB_KEY_LENGTH u.userPubkey)]).load addUser operationAt
      = keyOf u.userPubkey := by
  simp only [Memory.writes, taken_eq_write h]
  exact Memory.load_write user _ _ _

theorem fields_move (type : UInt8) (h : Fits PUB_KEY_LENGTH u.userPubkey) :
    (blank.writes (moveWrites type u)).load moveUser operationAt
      = (keyOf u.userPubkey, (u.pairedTransactionId, (Packed.array PUB_KEY_LENGTH).zero),
          userState.zero) := by
  simp (disch := decide) only [load_moveUser, moveWrites, Memory.writes, taken_eq_write h,
    Memory.load_write, Memory.load_write_below, Memory.load_write_beyond,
    Memory.load_write_byte_below, load_blank]

/-! ## What the group name does to them -/

/-- A member with the group name of a paired transaction written into it: the name takes the zeros
of its field, and what is behind stays just if the name has nothing else there. -/
theorem group_written {α ρ : Type} {P : Packed α} {R : Packed ρ} {m : Memory} {off : Nat} {a : α}
    {id : HederaTimestamp} {own : ρ} (group : Bytes)
    (h : m.load (P.pair (pairedTransaction.pair R)) off
      = (a, (id, (Packed.array PUB_KEY_LENGTH).zero), own)) :
    ∃ rest, (m.write (off + P.size + hederaTimestamp.size) group).load
        (P.pair (pairedTransaction.pair R)) off = (a, (id, groupField group), rest) ∧
      (rest = own ↔ (group.drop PUB_KEY_LENGTH).take (R.write own).length
        = (R.write own).take (group.length - PUB_KEY_LENGTH)) := by
  have hat : off + P.size + (hederaTimestamp.pair (Packed.array PUB_KEY_LENGTH)).size
      = off + P.size + hederaTimestamp.size + PUB_KEY_LENGTH := (Nat.add_assoc _ _ _).symm
  simp only [Memory.load_pair, pairedTransaction, Prod.mk.injEq, hat] at h ⊢
  obtain ⟨ha, ⟨hid, hgr⟩, rfl⟩ := h
  refine ⟨_, ⟨?_, ⟨?_, Memory.load_write_array hgr⟩, rfl⟩, ?_⟩
  · rw [Memory.load_write_beyond P (Nat.le_add_right _ _), ha]
  · rw [Memory.load_write_beyond hederaTimestamp (Nat.le_refl _), hid]
  · rw [Memory.load_write_over_iff, R.length_write]

end Fields

/-! ## Own fields -/

namespace Translated

variable {t : ConsensusTopicResponse} {gt : GradidoTransaction} {tb : Proto.TransactionBody}
  {n : Nat} {buff : Memory}

section

variable (h : Translated t gt tb n buff)
include h

/-- What is read of a transaction with this data. -/
theorem of_data {data : Data} (hda : tb.data = data) :
    (recordIn buff 0).transaction.transactionType = typeOf data ∧ DataFits data ∧
      ∀ {α : Type} (Q : Packed α), Q.size ≤ operationSize →
        (recordIn buff 0).transaction.member Q
          = ((fieldsOf data).writes (groupWrite data)).load Q operationAt := by
  subst hda
  exact ⟨h.transactionType_eq, h.data, h.member_eq⟩

theorem own_creation {c : Proto.GradidoCreation}
    (hda : tb.data = .creation c) :
    (recordIn buff 0).transaction.body = ownBody (.creation c) := by
  obtain ⟨htype, hfits, hme⟩ := h.of_data hda
  unfold Transaction.body
  rw [htype, (hme gradidoCreation (by decide)).trans (fields_creation hfits), userState_zero]
  rfl

theorem own_localTransfer {g2 : Proto.LocalTransfer}
    (hda : tb.data = .transfer (.localTransfer g2)) :
    (recordIn buff 0).transaction.body = ownBody (.transfer (.localTransfer g2)) := by
  obtain ⟨htype, hfits, hme⟩ := h.of_data hda
  unfold Transaction.body
  rw [htype, (hme localTransfer (by decide)).trans (fields_localTransfer hfits), userState_zero]
  rfl

/-- Behind the group name are the sender and the receiver, which is a user of this group. -/
theorem own_inbound_iff {g : CrossGroupTransfer}
    (hda : tb.data = .transfer (.inbound g)) :
    (recordIn buff 0).transaction.body = ownBody (.transfer (.inbound g)) ↔
      GroupSpares (.transfer (.inbound g)) := by
  obtain ⟨htype, hfits, hme⟩ := h.of_data hda
  obtain ⟨⟨sender, receiver, newBalance, prevTransferRecNum⟩, hwr, hsp⟩ :=
    group_written g.otherGroup (fields_inbound hfits)
  rw [body_inbound htype, (hme inboundTransfer (by decide)).trans hwr]
  refine Iff.trans ?_ hsp
  simp only [ownBody, ownUser, asPaired, asUserTransfer, TransactionBody.inboundTransfer.injEq,
    InboundTransfer.mk.injEq, UserTransfer.mk.injEq, Prod.mk.injEq, userState_zero, true_and]

/-- Here the sender is the user of this group. -/
theorem own_outbound_iff {g : CrossGroupTransfer}
    (hda : tb.data = .transfer (.outbound g)) :
    (recordIn buff 0).transaction.body = ownBody (.transfer (.outbound g)) ↔
      GroupSpares (.transfer (.outbound g)) := by
  obtain ⟨htype, hfits, hme⟩ := h.of_data hda
  obtain ⟨⟨⟨sender, newBalance, prevTransferRecNum⟩, receiver⟩, hwr, hsp⟩ :=
    group_written g.otherGroup (fields_outbound hfits)
  rw [body_outbound htype, (hme outboundTransfer (by decide)).trans hwr]
  refine Iff.trans ?_ hsp
  simp only [ownBody, ownUser, asPaired, asUserTransfer, TransactionBody.outboundTransfer.injEq,
    OutboundTransfer.mk.injEq, UserTransfer.mk.injEq, Prod.mk.injEq, userState_zero, true_and]

end

/-- A user that moves, as it is read. -/
theorem own_move_iff {u : GroupMemberUpdate} (type : UInt8)
    (hfits : Fits PUB_KEY_LENGTH u.userPubkey) :
    asMoveUser (((blank.writes (moveWrites type u)).write moveGroupAt u.targetGroup).load moveUser
        operationAt) = ownMove u ↔
      (u.targetGroup.drop PUB_KEY_LENGTH).take (userState.write userState.zero).length
        = (userState.write userState.zero).take (u.targetGroup.length - PUB_KEY_LENGTH) := by
  obtain ⟨⟨newBalance, prevTransferRecNum⟩, hwr, hsp⟩ :=
    group_written u.targetGroup (fields_move type hfits)
  have hlo : ((blank.writes (moveWrites type u)).write moveGroupAt u.targetGroup).load moveUser
      operationAt = _ := hwr
  rw [hlo]
  refine Iff.trans ?_ hsp
  simp only [asMoveUser, asPaired, ownMove, ownUser, MoveUser.mk.injEq, UserTransfer.mk.injEq,
    Prod.mk.injEq, userState_zero, true_and, and_true]

theorem own_memberUpdate_iff (h : Translated t gt tb n buff) {u : GroupMemberUpdate}
    (hda : tb.data = .groupMemberUpdate u) :
    (recordIn buff 0).transaction.body = ownBody (.groupMemberUpdate u) ↔
      GroupSpares (.groupMemberUpdate u) := by
  obtain ⟨htype, hfits, hme⟩ := h.of_data hda
  have hadd := hme addUser (by decide)
  have hmo := hme moveUser (by decide)
  unfold ownBody GroupSpares groupOf behindGroup
  unfold typeOf at htype
  unfold fieldsOf fieldWrites groupWrite at hadd hmo
  dsimp only at htype hadd hmo ⊢
  split
  · next hmut =>
    rw [if_pos hmut] at htype
    rw [if_pos hmut, if_pos hmut] at hadd
    refine iff_of_true ?_ rfl
    unfold Transaction.body
    rw [htype, hadd.trans (fields_addUser hfits.1)]
    rfl
  · next hmut =>
    rw [if_neg hmut] at htype
    rw [if_neg hmut, if_neg hmut] at hmo
    split
    · next hin =>
      rw [if_pos hin] at htype hmo
      rw [body_moveUserInbound htype, hmo, TransactionBody.moveUserInbound.injEq]
      exact own_move_iff _ hfits.1
    · next hout =>
      rw [if_neg hout] at htype hmo
      rw [body_moveUserOutbound htype, hmo, TransactionBody.moveUserOutbound.injEq]
      exact own_move_iff _ hfits.1

/-- A group name that is too long for its field has nothing behind it to overwrite. -/
theorem own_friendsUpdate (h : Translated t gt tb n buff) {u : GroupFriendsUpdate}
    (hda : tb.data = .groupFriendsUpdate u) :
    (recordIn buff 0).transaction.body = ownBody (.groupFriendsUpdate u) := by
  obtain ⟨htype, -, hme⟩ := h.of_data hda
  have hze : (fieldsOf (.groupFriendsUpdate u)).load (Packed.array PUB_KEY_LENGTH) operationAt
      = (Packed.array PUB_KEY_LENGTH).zero := by
    simp (disch := decide) only [fieldsOf, fieldWrites, Memory.writes,
      Memory.load_write_byte_below, load_blank]
  have hgr : (recordIn buff 0).transaction.member friendUpdate = groupField u.group :=
    (hme friendUpdate (by decide)).trans (Memory.load_write_array hze)
  unfold ownBody
  unfold typeOf at htype
  dsimp only at htype ⊢
  split
  · next hadd =>
    rw [if_pos hadd] at htype
    unfold Transaction.body
    rw [htype, hgr]
    rfl
  · next hre =>
    rw [if_neg hre] at htype
    unfold Transaction.body
    rw [htype, hgr]
    rfl

/-- The transaction has its own fields, just if the group name spares them. -/
theorem own_iff (h : Translated t gt tb n buff) :
    (recordIn buff 0).transaction.body = ownBody tb.data ↔ GroupSpares tb.data := by
  have hot : typeOf tb.data = 0 → (recordIn buff 0).transaction.body = .other 0 := by
    intro hno
    have htype := h.transactionType_eq
    rw [hno] at htype
    unfold Transaction.body
    rw [htype]
    rfl
  cases hda : tb.data with
  | transfer g2 =>
    cases g2 with
    | localTransfer g2 => exact iff_of_true (h.own_localTransfer hda) rfl
    | inbound g => exact h.own_inbound_iff hda
    | outbound g => exact h.own_outbound_iff hda
    | notSet => exact iff_of_true (hot (by rw [hda]; rfl)) rfl
  | creation c => exact iff_of_true (h.own_creation hda) rfl
  | groupFriendsUpdate u =>
    refine iff_of_true (h.own_friendsUpdate hda) ?_
    exact List.take_zero.trans List.take_nil.symm
  | groupMemberUpdate u => exact h.own_memberUpdate_iff hda
  | debugResetBlockchainMark | other | notSet => exact iff_of_true (hot (by rw [hda]; rfl)) rfl

end Translated

section Batches

variable {parser : Parser} {t : ConsensusTopicResponse} {r : GradidoRecord}
  {rest : List GradidoRecord} {reset : Bool}

theorem exists_main (h : translateFromCtr parser t = .ok ⟨some (r :: rest), reset⟩) :
    ∃ n buff, r = recordIn buff 0 ∧ Translated t (messageOf parser t) (bodyOf parser t) n buff := by
  obtain ⟨-, -, -, n, buff, hre, htr⟩ := exists_translated h
  rw [htr.records_eq] at hre
  exact ⟨n, buff, (List.cons.inj hre).1, htr⟩

/-- The fields of the transaction are those of the message, each its own; nothing has been
calculated. -/
def OwnFields (data : Data) (r : GradidoRecord) : Prop :=
  r.transaction.body = ownBody data ∧ r.transaction.result = UNKNOWN

/-- **Own fields.**  In a batch, the fields of the main record depend on their own fields of the
message alone, just if the group name spares what is behind its field. -/
theorem ownFields_iff (parser : Parser) (t : ConsensusTopicResponse) (r : GradidoRecord)
    (rest : List GradidoRecord) (reset : Bool)
    (h : translateFromCtr parser t = .ok ⟨some (r :: rest), reset⟩) :
    OwnFields (bodyOf parser t).data r ↔ GroupSpares (bodyOf parser t).data := by
  obtain ⟨n, buff, rfl, htr⟩ := exists_main h
  rw [OwnFields, htr.own_iff]
  exact and_iff_left htr.result_eq

end Batches

theorem exists_first (parser : Parser) (t : ConsensusTopicResponse)
    (h : Translatable t (messageOf parser t) (bodyOf parser t))
    (hma : (bodyOf parser t).data.hasDebugResetBlockchainMark = false) :
    ∃ r rest, translateFromCtr parser t = .ok ⟨some (r :: rest), false⟩ := by
  obtain ⟨r, rest, hca, -⟩ := translateFromCtr_batch rfl rfl h hma
  exact ⟨r, rest, hca⟩

/-- A transfer from a user of the group with this name. -/
def inboundFrom (otherGroup : Bytes) : Data :=
  .transfer (.inbound ⟨⟨List.replicate 32 1, .finite 5⟩, List.replicate 32 2, otherGroup, ⟨0, 0⟩⟩)

/-- A name that fills its field. -/
theorem ownFields_fullName : ∃ r rest, translateFromCtr (finding [pairOfLengths 32 64] []
        (inboundFrom (List.replicate 32 7))) response = .ok ⟨some (r :: rest), false⟩ ∧
      OwnFields (inboundFrom (List.replicate 32 7)) r := by
  obtain ⟨r, rest, h⟩ := exists_first (finding [pairOfLengths 32 64] []
    (inboundFrom (List.replicate 32 7))) response (by decide +kernel) rfl
  exact ⟨r, rest, h, (ownFields_iff _ _ r rest false h).mpr (by decide +kernel)⟩

/-- Two messages with the same sender: the longer group name changes it. -/
theorem sender_overwritten : ∃ r rest r' rest', translateFromCtr (finding [pairOfLengths 32 64] []
        (inboundFrom (List.replicate 32 7))) response = .ok ⟨some (r :: rest), false⟩ ∧
      translateFromCtr (finding [pairOfLengths 32 64] []
        (inboundFrom (List.replicate 33 7))) response = .ok ⟨some (r' :: rest'), false⟩ ∧
      (r.transaction.member inboundTransfer).2.2.1
        ≠ (r'.transaction.member inboundTransfer).2.2.1 := by
  obtain ⟨r, rest, h⟩ := exists_first (finding [pairOfLengths 32 64] []
    (inboundFrom (List.replicate 32 7))) response (by decide +kernel) rfl
  obtain ⟨r', rest', h'⟩ := exists_first (finding [pairOfLengths 32 64] []
    (inboundFrom (List.replicate 33 7))) response (by decide +kernel) rfl
  refine ⟨r, rest, r', rest', h, h', ?_⟩
  obtain ⟨n, buff, rfl, htr⟩ := exists_main h
  obtain ⟨n', buff', rfl, htr'⟩ := exists_main h'
  rw [htr.member_eq _ (by decide), htr'.member_eq _ (by decide)]
  decide +kernel

/-! ## Amounts -/

/-- The amount of a message. -/
def amountOf : Data → Option Amount
  | .creation c => some c.receiver
  | .transfer (.localTransfer g2) => some g2.sender
  | .transfer (.inbound g2) | .transfer (.outbound g2) => some g2.sender
  | _ => none

/-- The amount of a transaction. -/
def amountIn : TransactionBody → Option GradidoValue
  | .gradidoCreation c => some c.amount
  | .localTransfer lt => some lt.amount
  | .inboundTransfer lt => some lt.amount
  | .outboundTransfer lt => some lt.amount
  | _ => none

/-- The value is the amount. -/
def Denotes (v : GradidoValue) (amount : ℚ) : Prop :=
  v.decimalAmount.toNat < 10 ^ 6 ∧
    (v.amount.toNat : ℚ) + (v.decimalAmount.toNat : ℚ) / 10 ^ 6 = amount

/-- An amount a transaction can have. -/
structure Payable (amount : ℚ) : Prop where
  nonneg : 0 ≤ amount
  decimals : ∃ k : ℕ, amount = k / 10 ^ 6
  lt : amount < 2 ^ 63

/-- The amount is before the group name, so nothing changes it. -/
theorem Translated.amount_eq {t : ConsensusTopicResponse} {gt : GradidoTransaction}
    {tb : Proto.TransactionBody} {n : Nat} {buff : Memory} (h : Translated t gt tb n buff)
    {a : Amount} (ha : amountOf tb.data = some a) :
    amountIn (recordIn buff 0).transaction.body = some (valueOf a) := by
  cases hda : tb.data with
  | creation c =>
    rw [hda] at ha
    rw [h.own_creation hda, ← Option.some.inj ha]
    rfl
  | transfer g2 =>
    cases g2 with
    | localTransfer g2 =>
      rw [hda] at ha
      rw [h.own_localTransfer hda, ← Option.some.inj ha]
      rfl
    | inbound g =>
      obtain ⟨htype, hfits, hme⟩ := h.of_data hda
      rw [hda] at ha
      obtain ⟨rest, hwr, -⟩ := group_written g.otherGroup (fields_inbound hfits)
      rw [body_inbound htype, (hme inboundTransfer (by decide)).trans hwr, ← Option.some.inj ha]
      rfl
    | outbound g =>
      obtain ⟨htype, hfits, hme⟩ := h.of_data hda
      rw [hda] at ha
      obtain ⟨rest, hwr, -⟩ := group_written g.otherGroup (fields_outbound hfits)
      rw [body_outbound htype, (hme outboundTransfer (by decide)).trans hwr, ← Option.some.inj ha]
      rfl
    | notSet =>
      rw [hda] at ha
      cases ha
  | groupFriendsUpdate u | groupMemberUpdate u | debugResetBlockchainMark | other | notSet =>
    rw [hda] at ha
    cases ha

theorem denotes_iff {a : Amount} {q : ℚ} (ha : a.amount = .finite q) (hno : 0 ≤ q)
    (hlt : q < 2 ^ 63) : Denotes (valueOf a) q ↔ q.den = 1 := by
  have hwh : q.num.tdiv q.den = ⌊q⌋ := by
    rw [Int.tdiv_eq_ediv_of_nonneg (Rat.num_nonneg.mpr hno), Rat.floor_def']
  have hfl : 0 ≤ ⌊q⌋ := Int.floor_nonneg.mpr hno
  have hbo : ⌊q⌋ < 2 ^ 63 := Int.floor_lt.mpr (by exact_mod_cast hlt)
  have hva : (valueOf a).amount.toNat = ⌊q⌋.toNat := by
    rw [valueOf, ha, Double.toUInt64]
    rw [hwh, if_pos ⟨hfl, by omega⟩, Option.getD_some]
    refine UInt64.toNat_ofNat_of_lt' ?_
    rw [UInt64.size]
    omega
  have hca : ((⌊q⌋.toNat : ℕ) : ℚ) = (⌊q⌋ : ℚ) := by
    exact_mod_cast congrArg (Int.cast : ℤ → ℚ) (Int.toNat_of_nonneg hfl)
  have hze : (valueOf a).decimalAmount.toNat = 0 := rfl
  rw [Denotes, hva, hze, hca, Nat.cast_zero, zero_div, add_zero]
  constructor
  · rintro ⟨-, heq⟩
    rw [← heq]
    exact Rat.den_intCast _
  · intro hden
    refine ⟨by decide, ?_⟩
    have hint : q = (q.num : ℚ) := by
      conv_lhs => rw [← Rat.num_div_den q, hden, Nat.cast_one, div_one]
    rw [hint, Int.floor_intCast]

section Batches

variable {parser : Parser} {t : ConsensusTopicResponse}

/-- A payable amount is the amount of the transaction, and a negative one is rejected. -/
structure AmountKept (parser : Parser) (t : ConsensusTopicResponse) (amount : ℚ) : Prop where
  denoted : Payable amount → ∀ r rest reset,
    translateFromCtr parser t = .ok ⟨some (r :: rest), reset⟩ →
      ∃ v, amountIn r.transaction.body = some v ∧ Denotes v amount
  rejected : amount < 0 → translateFromCtr parser t = .ok ⟨none, true⟩

theorem mark_of_amount {data : Data} {a : Amount} (ha : amountOf data = some a) :
    data.hasDebugResetBlockchainMark = false := by
  cases data with
  | debugResetBlockchainMark => cases ha
  | transfer g2 | creation c | groupFriendsUpdate u | groupMemberUpdate u | other | notSet => rfl

/-- **Amounts.**  The amount of a creation or a transfer survives, just if it is whole where the
message is translated, and where it is negative the signature count rejects the message. -/
theorem amountKept_iff (parser : Parser) (t : ConsensusTopicResponse) (a : Amount) (amount : ℚ)
    (ha : amountOf (bodyOf parser t).data = some a) (hamount : a.amount = .finite amount) :
    AmountKept parser t amount ↔
      (Payable amount → Translatable t (messageOf parser t) (bodyOf parser t) → amount.den = 1) ∧
      (amount < 0 → Rejected (messageOf parser t)) := by
  have hma := mark_of_amount ha
  have hno : translateFromCtr parser t = .ok ⟨none, true⟩ ↔ Rejected (messageOf parser t) := by
    refine (translateFromCtr_none_iff rfl rfl).trans (or_iff_left fun h => ?_)
    cases hma.symm.trans h.2
  constructor
  · intro hke
    refine ⟨fun hpa htn => ?_, fun hneg => hno.mp (hke.rejected hneg)⟩
    obtain ⟨r, rest, h⟩ := exists_first parser t htn hma
    obtain ⟨v, hv, hde⟩ := hke.denoted hpa r rest false h
    obtain ⟨n, buff, rfl, htr⟩ := exists_main h
    rw [htr.amount_eq ha] at hv
    rw [← Option.some.inj hv] at hde
    exact (denotes_iff hamount hpa.nonneg hpa.lt).mp hde
  · rintro ⟨hwh, hneg⟩
    refine ⟨fun hpa r rest reset h => ?_, fun hlt => hno.mpr (hneg hlt)⟩
    obtain ⟨hin, hhe, -, -⟩ := exists_translated h
    obtain ⟨n, buff, rfl, htr⟩ := exists_main h
    refine ⟨valueOf a, htr.amount_eq ha, ?_⟩
    refine (denotes_iff hamount hpa.nonneg hpa.lt).mpr (hwh hpa ?_)
    exact htr.translatable hin hhe

end Batches

/-- A creation of this amount. -/
def creationOf (amount : ℚ) : Data := .creation ⟨⟨List.replicate 32 1, .finite amount⟩⟩

theorem amountKept_five : AmountKept (finding [pairOfLengths 32 64] [] (creationOf 5)) response 5 :=
  (amountKept_iff _ _ ⟨List.replicate 32 1, .finite 5⟩ 5 rfl rfl).mpr
    ⟨fun _ _ => rfl, fun h => absurd h (by decide)⟩

/-- One and a half is one, and a negative amount is accepted. -/
theorem amount_lost :
    (∃ r rest, translateFromCtr (finding [pairOfLengths 32 64] [] (creationOf (mkRat 3 2))) response
        = .ok ⟨some (r :: rest), false⟩ ∧ amountIn r.transaction.body = some ⟨1, 0⟩) ∧
    ∃ r rest, translateFromCtr (finding [pairOfLengths 32 64] [] (creationOf (mkRat (-1) 2)))
        response = .ok ⟨some (r :: rest), false⟩ := by
  obtain ⟨r, rest, h⟩ := exists_first (finding [pairOfLengths 32 64] [] (creationOf (mkRat 3 2)))
    response (by decide +kernel) rfl
  obtain ⟨n, buff, rfl, htr⟩ := exists_main h
  refine ⟨⟨_, rest, h, (htr.amount_eq rfl).trans ?_⟩, ?_⟩
  · decide +kernel
  · exact exists_first (finding [pairOfLengths 32 64] [] (creationOf (mkRat (-1) 2))) response
      (by decide +kernel) rfl

end GradidoNode.Wire
