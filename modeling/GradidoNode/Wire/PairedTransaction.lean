/-
# `GradidoNode.Wire.PairedTransaction` — a transaction asked of another node

A chain that needs the other half of a cross-group transaction asks a sibling for it.
The sibling answers with `get_block_record`: the bytes of the payload of the row, a
`GradidoRecord`.  `GroupBlockchainFacade::on_paired_transaction` copies them into a
*row*, which has a type byte in front of its payload, and passes on the transaction
inside:

    sent        record_type  t₀ t₁ … t₃₅₀
    read as     type         record_type  transaction …
                             t₀           t₁ … t₃₅₀ 0

so every field is taken one byte behind its place, and the byte at the end is the
terminator behind the data.  Only a transaction of zeros comes through
(`roundTrip_iff`).  The type the chain that asked reads is the first byte of the operation,
and the result the first byte of the memo.

The listener is found in `waiting_for_paired`; the code erases the entry and then
follows the iterator to it.  The model takes the listener that was there.
-/
import GradidoNode.Base.BlockchainGradido
import GradidoNode.Base.Serve
import GradidoNode.Wire.Layout

namespace GradidoNode.Wire

open Lib Blockchain Base BlockchainGradido

/-- `GroupBlockchainFacade`, as far as it waits for paired transactions. -/
structure GroupBlockchainFacade (Listener : Type) where
  waitingForPaired : PMap HederaTimestamp Listener

/-- What `c_str` points to. -/
def cStr (data : List UInt8) : List UInt8 := data ++ [0]

/-- `memcpy` of an object; `none` when the bytes end before the object does. -/
def memcpy {α : Type} (P : Packed α) (src : List UInt8) : Option α :=
  if P.size ≤ src.length then some (P.read (src.take P.size)) else none

variable {Listener : Type}

/-- `on_paired_transaction`: the listener whose `on_paired_transaction_done` is called, and
the transaction it gets. -/
def onPairedTransaction (data : List UInt8) (hti : HederaTimestamp) :
    EStateM Fault (GroupBlockchainFacade Listener) (Listener × Transaction) := do
  let s ← get
  match s.waitingForPaired hti with
  | none => throw (.thrown "unexpected incoming pair")
  | some listener => do
    modify fun s => { s with waitingForPaired := s.waitingForPaired.erase hti }
    match memcpy Record.packed (cStr data) with
    | none => throw (.undefined "memcpy past the end of the data")
    | some r => return (listener, r.payload.transaction)

variable {sha512 : List UInt8 → Vector UInt8 BLOCKCHAIN_CHECKSUM_SIZE}

/-- The sibling sends row `seqNum`, and the waiting listener is given the transaction `t`. -/
def RoundTrip (cfg : Conf) (sender : Blockchain (rowFormat sha512)) (seqNum now : Nat)
    (facade : GroupBlockchainFacade Listener) (hti : HederaTimestamp) (t : Transaction) : Prop :=
  ∃ (data : Vector UInt8 rowBodySize) (sender' : Blockchain (rowFormat sha512))
    (listener : Listener) (facade' : GroupBlockchainFacade Listener),
    getBlockRecord cfg seqNum now sender = .ok (some (some data)) sender' ∧
      onPairedTransaction data.toList hti facade = .ok (listener, t) facade'

/-- Row `seqNum` of the chain of `rows` holds the record `r`. -/
def StoredAt (K : Params) (rows : List GradidoRecord) (seqNum : Nat) (r : GradidoRecord) : Prop :=
  (chunk K rows (seqNum / GRADIDO_BLOCK_SIZE))[seqNum % GRADIDO_BLOCK_SIZE]? = some r

/-! ## What is delivered -/

/-- The transaction read one byte behind its place. -/
def delivered (t : Transaction) : Transaction :=
  Transaction.packed.read ((Transaction.packed.write t).tail ++ [0])

/-- The transaction in a row, from the bytes of the row. -/
theorem transaction_read {bs : List UInt8} (h : bs.length = Record.packed.size) :
    (Record.packed.read bs).payload.transaction = Transaction.packed.read (bs.drop 2) := by
  have hrow : (bs.drop 1).length = rowBodySize := by
    rw [List.length_drop, h]
    rfl
  have hre : ((bs.drop 1).drop 1).length = recordBodySize := by
    rw [List.length_drop, hrow]
    rfl
  have hbo : (Record.packed.read bs).body.toList = bs.drop 1 := Packed.toList_read_array hrow
  rw [Record.payload, hbo, GradidoRecord.transaction]
  have hbo' : (GradidoRecord.packed.read (bs.drop 1)).body.toList = (bs.drop 1).drop 1 :=
    Packed.toList_read_array hre
  rw [hbo', List.drop_drop]

theorem write_record (r : GradidoRecord) :
    GradidoRecord.packed.write r = r.recordType :: Transaction.packed.write r.transaction := by
  rw [r.write_transaction]
  rfl

/-- The data of a record are delivered as the shifted transaction. -/
theorem onPairedTransaction_record {facade : GroupBlockchainFacade Listener} {hti : HederaTimestamp}
    {listener : Listener} (hwait : facade.waitingForPaired hti = some listener)
    (r : GradidoRecord) :
    Returns (onPairedTransaction (GradidoRecord.packed.write r) hti) facade fun p _ =>
      p = (listener, delivered r.transaction) := by
  have hlen : (cStr (GradidoRecord.packed.write r)).length = Record.packed.size := by
    rw [cStr, List.length_append, GradidoRecord.packed.length_write]
    rfl
  have hco : memcpy Record.packed (cStr (GradidoRecord.packed.write r))
      = some (Record.packed.read (cStr (GradidoRecord.packed.write r))) := by
    rw [memcpy, if_pos (Nat.le_of_eq hlen.symm), List.take_of_length_le (Nat.le_of_eq hlen)]
  have hne : Transaction.packed.write r.transaction ≠ [] := by
    intro hnil
    have hsize := Transaction.packed.length_write r.transaction
    rw [hnil] at hsize
    exact absurd hsize (by decide)
  have hsh : (cStr (GradidoRecord.packed.write r)).drop 2
      = (Transaction.packed.write r.transaction).tail ++ [0] := by
    rw [cStr, write_record, List.cons_append, List.drop_succ_cons, List.drop_one,
      List.tail_append_of_ne_nil hne]
  refine .bind (.get ?_)
  simp only [hwait, hco]
  refine .bind (.of_modify (.pure ?_))
  rw [transaction_read hlen, hsh]
  rfl

/-- The data are what `get_block_record` gives. -/
theorem getBlockRecord_record {cfg : Conf} {rows : List GradidoRecord}
    {sender : Blockchain (rowFormat sha512)} {cs : Nat → (rowFormat sha512).Checksum}
    (hK : cfg.K.RecCount = GRADIDO_BLOCK_SIZE) (h : Holds cfg.K sender rows cs) {seqNum : Nat}
    {r : GradidoRecord} (hrow : StoredAt cfg.K rows seqNum r) (now : Nat) :
    Returns (getBlockRecord cfg seqNum now) sender fun a _ =>
      a = some (some ((rowFormat sha512).ofPayload r)) := by
  have hlt : seqNum % GRADIDO_BLOCK_SIZE < GRADIDO_BLOCK_SIZE := Nat.mod_lt _ (by decide)
  have hget := getBlockRecord_row hK h (lt_blockCount hrow) hlt now
  rw [Nat.mod_add_div] at hget
  refine hget.mono ?_
  rintro a st ⟨-, rfl⟩
  obtain ⟨hj, -⟩ := List.getElem?_eq_some_iff.mp hrow
  rw [if_pos (Nat.le_of_lt hj), blockRows_payload hrow]
  rfl

theorem toList_ofPayload (r : GradidoRecord) :
    Vector.toList ((rowFormat sha512).ofPayload r) = GradidoRecord.packed.write r :=
  Packed.toList_read_array ((GradidoRecord.packed.length_write r).trans rowBodySize_eq.symm)

section RoundTrip

variable {cfg : Conf} {rows : List GradidoRecord} {sender : Blockchain (rowFormat sha512)}
  {cs : Nat → (rowFormat sha512).Checksum} (hK : cfg.K.RecCount = GRADIDO_BLOCK_SIZE)
  (h : Holds cfg.K sender rows cs) {seqNum : Nat} {r : GradidoRecord}
  (hrow : StoredAt cfg.K rows seqNum r) {facade : GroupBlockchainFacade Listener}
  {hti : HederaTimestamp} {listener : Listener}
  (hwait : facade.waitingForPaired hti = some listener) (now : Nat)

include hK h hrow hwait

/-- The listener gets the shifted transaction, and nothing else. -/
theorem roundTrip_iff_delivered (t : Transaction) :
    RoundTrip cfg sender seqNum now facade hti t ↔ t = delivered r.transaction := by
  obtain ⟨a, sender', hget, rfl⟩ := getBlockRecord_record hK h hrow now
  obtain ⟨p, facade', hdo, rfl⟩ := onPairedTransaction_record hwait r
  rw [← @toList_ofPayload sha512] at hdo
  constructor
  · rintro ⟨data, _, _, _, hget', hdo'⟩
    have hda : (rowFormat sha512).ofPayload r = data :=
      Option.some.inj (Option.some.inj (EStateM.Result.ok.inj (hget.symm.trans hget')).1)
    rw [← hda] at hdo'
    exact (Prod.mk.inj (EStateM.Result.ok.inj (hdo'.symm.trans hdo)).1).2
  · rintro rfl
    exact ⟨_, sender', listener, facade', hget, hdo⟩

/-- The transaction that was stored comes back if and only if all its bytes are zero. -/
theorem roundTrip_iff : RoundTrip cfg sender seqNum now facade hti r.transaction ↔
      r.transaction = Transaction.packed.zero := by
  rw [roundTrip_iff_delivered hK h hrow hwait, eq_comm]
  exact Transaction.packed.read_shift_iff (by decide) r.transaction

end RoundTrip

/-! ## Two rows -/

/-- Rows whose checksums are all zero. -/
abbrev unhashed : RowFormat GradidoRecord := rowFormat fun _ => Vector.replicate _ 0

/-- A node that waits for the transaction with id zero. -/
def waiting : GroupBlockchainFacade Unit := ⟨PMap.empty.put HederaTimestamp.zero ()⟩

theorem waiting_zero : waiting.waitingForPaired HederaTimestamp.zero = some () := by
  decide

/-- A sibling that has stored the transaction `t`. -/
def siblingWith (t : Transaction) : Blockchain unhashed :=
  storageOf unhashed groupConf [GradidoRecord.ofTransaction t]

theorem siblingWith_holds (t : Transaction) :
    ∃ cs, Holds groupConf.K (siblingWith t) [GradidoRecord.ofTransaction t] cs :=
  (storageOf_keeps unhashed groupConf [GradidoRecord.ofTransaction t]).holds

theorem storedAt_zero (r : GradidoRecord) : StoredAt groupConf.K [r] 0 r := rfl

/-- A transaction of zeros comes through. -/
theorem roundTrip_zeros : RoundTrip groupConf (siblingWith Transaction.packed.zero) 0 0 waiting
    HederaTimestamp.zero (GradidoRecord.ofTransaction Transaction.packed.zero).transaction := by
  obtain ⟨cs, h⟩ := siblingWith_holds Transaction.packed.zero
  exact (roundTrip_iff rfl h (storedAt_zero _) waiting_zero 0).mpr
    (GradidoRecord.transaction_ofTransaction _)

/-- Zeros but for the version number, which is 1. -/
def versionOne : Transaction := { Transaction.packed.zero with versionNumber := 1 }

/-- The listener is given a transaction of version 0. -/
theorem versionOne_lost :
    (GradidoRecord.ofTransaction versionOne).recordType = GRADIDO_TRANSACTION ∧
    (GradidoRecord.ofTransaction versionOne).transaction = versionOne ∧
    (∃ cs, Holds groupConf.K (siblingWith versionOne) [GradidoRecord.ofTransaction versionOne] cs) ∧
    ¬ RoundTrip groupConf (siblingWith versionOne) 0 0 waiting HederaTimestamp.zero versionOne ∧
    ∃ t, RoundTrip groupConf (siblingWith versionOne) 0 0 waiting HederaTimestamp.zero t ∧
      t.versionNumber = 0 := by
  obtain ⟨cs, h⟩ := siblingWith_holds versionOne
  have htr := GradidoRecord.transaction_ofTransaction versionOne
  have hiff := roundTrip_iff_delivered rfl h (storedAt_zero _) waiting_zero 0
  rw [htr] at hiff
  have hve : (delivered versionOne).versionNumber = 0 := by decide +kernel
  refine ⟨rfl, htr, ⟨cs, h⟩, ?_, delivered versionOne, (hiff _).mpr rfl, hve⟩
  intro hro
  have hone : versionOne.versionNumber = (delivered versionOne).versionNumber :=
    congrArg (fun t => t.versionNumber) ((hiff versionOne).mp hro)
  rw [hve] at hone
  exact absurd hone (by decide)

end GradidoNode.Wire
