/-
# `GradidoNode.Ledger.Frame` — what a transaction leaves as it is

`calc_fields_and_update_indexes_for` changes the users and the friends of a chain for a
success only, and then only those the transaction names:

    GRADIDO_CREATION, ADD_USER, MOVE_USER_INBOUND, MOVE_USER_OUTBOUND    the user
    LOCAL_TRANSFER                                                      sender and receiver
    INBOUND_TRANSFER                                                    the receiver
    OUTBOUND_TRANSFER                                                   the sender
    ADD_GROUP_FRIEND, REMOVE_GROUP_FRIEND                               the group

The one call that does not come to an end is the one that reads the entry of an unknown
sender.
-/
import GradidoNode.Ledger.CalcFields

namespace GradidoNode

open Lib

namespace Ledger

/-- The local users a transaction names. -/
def namedUsers : TransactionBody → List PubKey
  | .gradidoCreation c => [c.user]
  | .addUser u => [u]
  | .moveUserInbound m => [m.user]
  | .moveUserOutbound m => [m.user]
  | .localTransfer lt => [lt.sender.user, lt.receiver.user]
  | .inboundTransfer lt => [lt.receiver.user]
  | .outboundTransfer lt => [lt.sender.user]
  | .addGroupFriend _ | .removeGroupFriend _ | .other _ => []

/-- The friend group a transaction names. -/
def namedFriends : TransactionBody → List Bytes
  | .addGroupFriend g => [cstr g]
  | .removeGroupFriend g => [cstr g]
  | _ => []

/-- The same users, with the same entries, and the same friends. -/
def Unchanged (l l' : Ledger) : Prop :=
  l'.userIndex = l.userIndex ∧ l'.friendGroupIndex = l.friendGroupIndex

/-- The same, but for some users and friends. -/
def UnchangedBut (users : List PubKey) (friends : List Bytes) (l l' : Ledger) : Prop :=
  (∀ u, u ∉ users → l'.userIndex u = l.userIndex u) ∧
    ∀ g, g ∉ friends → l'.friendGroupIndex g = l.friendGroupIndex g

/-- The frame of a call. -/
def Framed (l : Ledger) (body : TransactionBody) : Calc → Prop
  | .ready l' tr' => (tr'.result ≠ .success → Unchanged l l') ∧
      (tr'.result = .success → UnchangedBut (namedUsers body) (namedFriends body) l l')
  | .waiting l' _ => Unchanged l l'
  | .failed _ => ¬ SenderKnown l body

variable {d : DecayFunction} {env : Env} {n : Nat} {l l' : Ledger} {tr tr' : Transaction}
  {users : List PubKey} {friends : List Bytes}

theorem Unchanged.but (h : Unchanged l l') : UnchangedBut users friends l l' :=
  ⟨fun u _ => congrFun h.1 u, fun g _ => congrFun h.2 g⟩

theorem UnchangedBut.put (h : UnchangedBut users friends l l') {u : PubKey} (hu : u ∈ users)
    (info : UserInfo) :
    UnchangedBut users friends l (l'.withUsers (l'.userIndex.put u info)) := by
  refine ⟨fun u' hu' => ?_, h.2⟩
  have hne : u' ≠ u := fun heq => hu' (heq ▸ hu)
  exact (PMap.put_of_ne hne).trans (h.1 u' hu')

theorem UnchangedBut.erase (h : UnchangedBut users friends l l') {u : PubKey} (hu : u ∈ users) :
    UnchangedBut users friends l (l'.withUsers (l'.userIndex.erase u)) := by
  refine ⟨fun u' hu' => ?_, h.2⟩
  have hne : u' ≠ u := fun heq => hu' (heq ▸ hu)
  exact (PMap.erase_of_ne hne).trans (h.1 u' hu')

/-- What a transaction that became ready changed: if it was refused nothing, and otherwise what
it names. -/
theorem Applied.framed (h : Applied d env n l tr l' tr') : Framed l tr.body (.ready l' tr') := by
  obtain ⟨number, time, body, result⟩ := tr
  have hsa : Unchanged l l := ⟨rfl, rfl⟩
  cases h with
  | refused hrs hl =>
    have hke : Unchanged l l' := by
      rcases hl with rfl | ⟨id, recNum, rfl⟩ <;> exact ⟨rfl, rfl⟩
    exact ⟨fun _ => hke, fun _ => hke.but⟩
  | other hbo => exact ⟨fun _ => hsa, fun _ => hsa.but⟩
  | gradidoCreation hbo hin hba | addUser hbo hnn | moveUserInbound hbo hnn hpa hsu
  | inboundTransfer hbo hre hpa hsu hra | outboundTransfer hbo hse ham hch hnew =>
    cases hbo
    exact ⟨fun hne => absurd rfl hne, fun _ => hsa.but.put List.mem_cons_self _⟩
  | addGroupFriend hbo hnn =>
    cases hbo
    refine ⟨fun hne => absurd rfl hne, fun _ => ⟨fun _ _ => rfl, fun g' hg' => ?_⟩⟩
    rw [PMap.insertNew_of_none hnn]
    exact PMap.put_of_ne fun heq => hg' (heq ▸ List.mem_cons_self)
  | removeGroupFriend hbo =>
    cases hbo
    exact ⟨fun hne => absurd rfl hne, fun _ => ⟨fun _ _ => rfl, fun g' hg' =>
      PMap.erase_of_ne fun heq => hg' (heq ▸ List.mem_cons_self)⟩⟩
  | moveUserOutbound hbo =>
    cases hbo
    exact ⟨fun hne => absurd rfl hne, fun _ => hsa.but.erase List.mem_cons_self⟩
  | localTransfer hbo hse hre ham hch hnew hra =>
    cases hbo
    -- first the sender, then the receiver, who may be the same
    refine ⟨fun hne => absurd rfl hne, fun _ => ?_⟩
    exact (hsa.but.put List.mem_cons_self _).put (List.mem_cons_of_mem _ List.mem_cons_self) _

/-- **The frame of the ledger.**  A transaction that is put off or gets another result than
SUCCESS leaves users and friends as they are; one that gets SUCCESS leaves all those as they
are that it does not name.  Only the entry of an unknown sender keeps it from an end. -/
theorem ledger_frame (d : DecayFunction) (env : Env) (n : Nat) (l : Ledger) (tr : Transaction) :
    Framed l tr.body (calcFieldsAndUpdateIndexesFor d env n l tr) := by
  cases hca : calcFieldsAndUpdateIndexesFor d env n l tr with
  | ready l' tr' => exact (calc_applied hca).framed
  | waiting l' request =>
    have hke := calc_waiting hca
    exact ⟨congrArg Indexes.userIndex hke, congrArg Indexes.friendGroupIndex hke⟩
  | failed e =>
    have hun := calc_ends d env n l tr
    rw [hca] at hun
    exact hun.2

end Ledger

end GradidoNode
