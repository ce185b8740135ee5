/-
# `GradidoNode.Subcluster.BlockchainBase` — transactions in the base of the new chains

`BlockchainBase<T, Child, Parent, TransactionComparator>`, which `SubclusterBlockchain`
inherits.  It has the data members of `BlockchainBaseDeprecated`, without the reset of a
topic, and its methods are the same up to `continue_with_transactions`, so the object is
`Base` and only that method is modelled anew.  How the next batch is told:

                    a batch is stored                    nothing is stored
    deprecated      its number is the next one           any, when a reset is allowed,
                                                         and number 1
    here            its number is the next one           never

A batch that is neither next nor old resets the validation: the storage is truncated
and the chain fetched again.

`get_latest_transaction_id` of `SubclusterBlockchain` reads the number of the last
stored row, whatever row of a batch that is.  `grows_iff` says when a chain of batches
numbered from 1 on takes the next one.
-/
import GradidoNode.Subcluster.NodeIndexes

namespace GradidoNode

open Lib Blockchain

namespace BlockchainBase

open Base

section Model

variable {T : Type} {F : RowFormat T} {C : Child F} (cfg : Conf)

/-- The next batch: it gets its fields and is stored, or goes back to the queue. -/
def appendBatch (env : C.Env) (now : Nat) (batch : Batch C.Content) (c : C.Content) :
    BaseM C Bool := do
  let s ← get
  match C.calcFieldsAndUpdateIndexesFor env s.storage.recCount s.fields c with
  | .ready fields c' => do
    modify fun s => { s with fields := fields }
    let _ ← onStorage (appendRecords cfg now (C.records c'))
    return true
  | .notReady fields request => do
    modify fun s => { s with fields := fields, out := s.out ++ Out.ofRequest request }
    pushInbound batch
    return false
  | .failed e => throw e

/-- A batch with records; the result says whether the loop goes on. -/
def processRecords (env : C.Env) (now : Nat) (batch : Batch C.Content) (c : C.Content) :
    BaseM C Bool := do
  let latest ← onStorage (C.getLatestTransactionId now)
  let curr := C.getTransactionId c
  if latest.any fun seqNum => curr == seqNum + 1 then appendBatch cfg env now batch c
  else if latest.any fun seqNum => decide (curr ≤ seqNum) then return true
  else do
    pushInbound batch
    resetValidation "hole in seq_num"
    return false

/-- A batch that has been popped. -/
def processBatch (env : C.Env) (now : Nat) (batch : Batch C.Content) : BaseM C Bool :=
  match batch.content with
  | none => throw (.thrown "empty batch")
  | some c => processRecords cfg env now batch c

/-- The loop of `continue_with_transactions`; `false` is a `return` from inside it. -/
def transactionsLoop (env : C.Env) (now : Nat) : Nat → BaseM C Bool
  | 0 => return true
  | i + 1 => do
    let s ← get
    match PQueue.pop lessBatch s.inbound with
    | none => return true
    | some (batch, rest) => do
      modify fun s => { s with inbound := rest }
      let goOn ← processBatch cfg env now batch
      if goOn then transactionsLoop env now i else return false

def continueWithTransactions (env : C.Env) (now : Nat) : BaseM C Unit := do
  let s ← get
  if s.state ≠ .ready then return ()
  else do
    let ended ← transactionsLoop cfg env now cfg.batchSize
    let s ← get
    if ended ∧ s.inbound ≠ [] then emit .continueTransactions else return ()

def addTransaction (env : C.Env) (now : Nat) (batch : Batch C.Content) : BaseM C Unit := do
  pushInbound batch
  continueWithTransactions cfg env now

end Model

/-! ## One batch, delivered to a chain that waits for nothing -/

section Delivery

variable {T : Type} {F : RowFormat T} {C : Child F} {cfg : Conf} {env : C.Env} {now : Nat}
  {batch : Batch C.Content} {s : Base C}

theorem pushInbound_empty (hinbound : s.inbound = []) :
    pushInbound batch s = .ok ⟨⟩ { s with inbound := [batch] } := by
  have hpu : PQueue.push batch s.inbound = [batch] := by rw [hinbound]; rfl
  rw [pushInbound, get_bind, if_neg fun h => h.1 hinbound]
  show EStateM.Result.ok _ { s with inbound := PQueue.push batch s.inbound } = _
  rw [hpu]

theorem transactionsLoop_one (hinbound : s.inbound = []) (n : Nat) :
    transactionsLoop cfg env now (n + 1) { s with inbound := [batch] } = (do
      let goOn ← processBatch cfg env now batch
      if goOn then transactionsLoop cfg env now n else return false : BaseM C Bool) s := by
  have hpo : { s with inbound := [] } = s := by rw [← hinbound]
  rw [transactionsLoop, get_bind]
  show (do
    modify fun s => { s with inbound := [] }
    let goOn ← processBatch cfg env now batch
    if goOn then transactionsLoop cfg env now n else return false : BaseM C Bool) _ = _
  rw [modify_bind]
  rw [hpo]

theorem transactionsLoop_empty (hinbound : s.inbound = []) (n : Nat) :
    transactionsLoop cfg env now n s = .ok true s := by
  cases n with
  | zero => rfl
  | succ n =>
    rw [transactionsLoop, get_bind, hinbound]
    rfl

/-- The batch is processed, and that is all. -/
theorem addTransaction_returns (hready : s.state = .ready) (hinbound : s.inbound = []) {n : Nat}
    (hsize : cfg.batchSize = n + 1) {Q : Base C → Prop}
    (h : Returns (processBatch cfg env now batch) s fun goOn s' =>
      (goOn = true → s'.inbound = []) ∧ Q s') :
    Returns (addTransaction cfg env now batch) s fun _ s' => Q s' := by
  obtain ⟨goOn, s', hpr, hem, hQ⟩ := h
  have hlo : transactionsLoop cfg env now cfg.batchSize { s with inbound := [batch] }
      = .ok goOn s' := by
    rw [hsize, transactionsLoop_one hinbound, bind_eq hpr]
    cases goOn with
    | false => rfl
    | true => exact transactionsLoop_empty (hem rfl) n
  refine ⟨⟨⟩, s', ?_, hQ⟩
  rw [addTransaction, bind_eq (pushInbound_empty hinbound), continueWithTransactions, get_bind,
    if_neg (not_not.mpr hready), bind_eq hlo, get_bind]
  cases goOn with
  | false => rfl
  | true =>
    rw [if_neg fun h => h.2 (hem rfl)]
    rfl

theorem addTransaction_error (hready : s.state = .ready) (hinbound : s.inbound = []) {n : Nat}
    (hsize : cfg.batchSize = n + 1) {e : Fault} {s' : Base C}
    (h : processBatch cfg env now batch s = .error e s') :
    addTransaction cfg env now batch s = .error e s' := by
  have hlo : transactionsLoop cfg env now cfg.batchSize { s with inbound := [batch] }
      = .error e s' := by
    rw [hsize, transactionsLoop_one hinbound, bind_error h]
  rw [addTransaction, bind_eq (pushInbound_empty hinbound), continueWithTransactions, get_bind,
    if_neg (not_not.mpr hready), bind_error hlo]

/-- Without a batch size the batch is left in the queue. -/
theorem addTransaction_left (hready : s.state = .ready) (hinbound : s.inbound = [])
    (hsize : cfg.batchSize = 0) :
    addTransaction cfg env now batch s
      = .ok ⟨⟩ { s with inbound := [batch], out := s.out ++ [.continueTransactions] } := by
  rw [addTransaction, bind_eq (pushInbound_empty hinbound), continueWithTransactions, get_bind,
    if_neg (not_not.mpr hready), hsize]
  rfl

end Delivery

end BlockchainBase

namespace SubclusterBlockchain

open Base SbIndexes

variable {F : RowFormat SbRecord} {cfg : Conf} {rows : List SbRecord}

/-- The number in the last row. -/
def lastNumber (rows : List SbRecord) : Option UInt64 :=
  rows.getLast?.map fun r => r.hederaTransaction.sequenceNumber

theorem latest_keeps {K : Params} (hK : K.RecCount = GRADIDO_BLOCK_SIZE) {st : Blockchain F}
    (h : Keeps K st rows) (now : Nat) :
    Returns (getLatestTransactionId K now) st fun r st' =>
      r = lastNumber rows ∧ Keeps K st' rows := by
  refine .bind (.get ?_)
  rw [lastNumber]
  cases hla : rows.getLast? with
  | none =>
    obtain rfl := List.getLast?_eq_none_iff.mp hla
    rw [if_pos (by rw [h.recCount_eq]; simp [rowCount, blockCount])]
    exact .pure ⟨rfl, h⟩
  | some p =>
    obtain ⟨hcount, hre⟩ := h.getRecord_last hK hla now
    rw [if_neg (by omega)]
    refine .bind (hre.mono ?_)
    rintro r st' ⟨rfl, h'⟩
    exact .pure ⟨by rw [RowFormat.payload_payloadRow]; rfl, h'⟩

/-! ## Batches in a row -/

/-- A main record, and SIGNATURES records without a number. -/
def Signed (b : SbBatch) : Prop :=
  ∀ r ∈ b.rest, (∃ l, r.body = .signatures l) ∧ r.hederaTransaction = HederaTransaction.zero

/-- The rows of batches. -/
def rowsOf (bs : List SbBatch) : List SbRecord := bs.flatMap SbBatch.records

/-- Batches numbered from 1 on. -/
structure Consecutive (bs : List SbBatch) : Prop where
  number : ∀ i b, bs[i]? = some b → getTransactionId b = UInt64.ofNat (i + 1)
  signed : ∀ b ∈ bs, Signed b

/-- The last batch has no SIGNATURES records behind its main record. -/
def EndsUnsigned (bs : List SbBatch) : Prop := ∃ b, bs.getLast? = some b ∧ b.rest = []

theorem rowsOf_snoc (bs : List SbBatch) (b : SbBatch) :
    rowsOf (bs ++ [b]) = rowsOf bs ++ b.records := by
  rw [rowsOf, List.flatMap_append, List.flatMap_singleton, rowsOf]

/-- The number in the last row is that of the last batch when nothing is behind its main
record; otherwise there is no number, or it is the 0 of a SIGNATURES record. -/
theorem Consecutive.lastNumber_eq {bs : List SbBatch} (h : Consecutive bs) :
    (EndsUnsigned bs ∧ lastNumber (rowsOf bs) = some (UInt64.ofNat bs.length)) ∨
      (¬ EndsUnsigned bs ∧
        (lastNumber (rowsOf bs) = none ∨ (bs ≠ [] ∧ lastNumber (rowsOf bs) = some 0))) := by
  rcases List.eq_nil_or_concat bs with rfl | ⟨pre, b, rfl⟩
  · exact .inr ⟨fun ⟨b, hb, _⟩ => (nomatch hb), .inl rfl⟩
  · rw [List.concat_eq_append] at h ⊢
    rw [lastNumber, rowsOf_snoc, SbBatch.records]
    cases hre : b.rest with
    | nil =>
      have hnu : getTransactionId b = UInt64.ofNat (pre.length + 1) :=
        h.number pre.length b (by simp)
      refine .inl ⟨⟨b, by simp, hre⟩, ?_⟩
      rw [List.getLast?_append, List.getLast?_singleton, Option.some_or, Option.map_some,
        List.length_append, List.length_singleton, ← hnu]
      rfl
    | cons r rest =>
      refine .inr ⟨?_, .inr ⟨by simp, ?_⟩⟩
      · rintro ⟨b', hb', hnil⟩
        rw [List.getLast?_concat] at hb'
        cases hb'
        rw [hre] at hnil
        cases hnil
      · obtain ⟨p, hp⟩ : ∃ p, (r :: rest).getLast? = some p := by
          rw [← Option.isSome_iff_exists, List.getLast?_isSome]
          exact List.cons_ne_nil r rest
        have hmem : p ∈ b.rest := by
          rw [hre]
          exact List.mem_of_getLast? hp
        have hze := (h.signed b (by simp) p hmem).2
        rw [List.getLast?_append, List.getLast?_cons_cons, hp, Option.some_or, Option.map_some, hze]
        rfl

section Number

variable {bs : List SbBatch} {curr : UInt64}

/-- The batch numbered behind `bs` comes next when nothing is behind the last main record. -/
theorem Consecutive.isNext (h : Consecutive bs) (hcu : curr = UInt64.ofNat (bs.length + 1))
    (hen : EndsUnsigned bs) :
    (lastNumber (rowsOf bs)).any (fun seqNum => curr == seqNum + 1) = true := by
  rcases h.lastNumber_eq with ⟨-, hla⟩ | ⟨hnot, -⟩
  · rw [hla, Option.any_some, hcu, UInt64.ofNat_add]
    exact beq_self_eq_true _
  · exact absurd hen hnot

/-- Otherwise it is neither next nor old. -/
theorem Consecutive.isHole (h : Consecutive bs) (hfits : bs.length + 1 < UInt64.size)
    (hcu : curr = UInt64.ofNat (bs.length + 1)) (hen : ¬ EndsUnsigned bs) :
    (lastNumber (rowsOf bs)).any (fun seqNum => curr == seqNum + 1) = false ∧
      (lastNumber (rowsOf bs)).any (fun seqNum => decide (curr ≤ seqNum)) = false := by
  rcases h.lastNumber_eq with ⟨hen', -⟩ | ⟨-, hla | ⟨hne, hla⟩⟩
  · exact absurd hen' hen
  · rw [hla]
    exact ⟨rfl, rfl⟩
  · have hpos : 0 < bs.length := List.length_pos_iff.mpr hne
    have hnat : curr.toNat = bs.length + 1 := by
      rw [hcu, UInt64.toNat_ofNat', Nat.mod_eq_of_lt hfits]
    rw [hla, Option.any_some, Option.any_some]
    constructor
    · rw [beq_eq_false_iff_ne]
      intro heq
      rw [heq] at hnat
      exact absurd hnat (by rw [UInt64.zero_add, UInt64.toNat_one]; omega)
    · rw [decide_eq_false_iff_not, UInt64.le_iff_toNat_le, hnat, UInt64.toNat_zero]
      omega

end Number

/-- The configuration of a subcluster chain. -/
def sbConf (name : String) (batchSize : Nat) : Conf := ⟨groupParams, name, batchSize, false⟩

/-- A chain that is READY and waits for nothing, with batches numbered from 1 on. -/
structure ReadyWith (cfg : Conf) (s : Base (child F cfg.K)) (bs : List SbBatch) : Prop where
  ready : s.state = .ready
  inbound : s.inbound = []
  keeps : Keeps cfg.K s.storage (rowsOf bs)
  initialised : s.fields.Initialised
  consecutive : Consecutive bs

/-- The batch is appended when it is delivered, with the result its main record is given, and
the validation is not reset. -/
def Grows (cfg : Conf) (now : Nat) (s : Base (child F cfg.K)) (bs : List SbBatch) (b : SbBatch) :
    Prop :=
  Returns (BlockchainBase.addTransaction cfg () now ⟨some b, false⟩) s fun _ s' =>
    (∃ result, Keeps cfg.K s'.storage
      (rowsOf (bs ++ [{ b with first := { b.first with result := result } }]))) ∧
    ∃ o, s'.out = s.out ++ o ∧ ∀ cause, .resetValidation cause ∉ o

section Growth

variable {s : Base (child F cfg.K)} {bs : List SbBatch} {b : SbBatch} (now : Nat)

section

variable (hK : cfg.K.RecCount = GRADIDO_BLOCK_SIZE)
include hK

theorem processBatch_next (h : ReadyWith cfg s bs)
    (hne : (lastNumber (rowsOf bs)).any (fun seqNum => getTransactionId b == seqNum + 1) = true)
    (htype : TypeKnown b.first.body) :
    Returns (BlockchainBase.processBatch cfg () now ⟨some b, false⟩) s fun goOn s' =>
      (goOn = true → s'.inbound = []) ∧
      Keeps cfg.K s'.storage (rowsOf (bs ++ [s.fields.withResult b])) ∧ s'.out = s.out := by
  refine .bind (onStorage_returns ((latest_keeps hK h.keeps now).mono ?_))
  rintro latest st ⟨rfl, hke⟩
  obtain ⟨idx', -, hca, -⟩ := calcFields_ok h.initialised htype
  rw [if_pos hne]
  refine .bind (.get ?_)
  simp only [calcFieldsAndUpdateIndexesFor, hca]
  refine .bind (.of_modify (.bind (onStorage_returns
    ((appendRecords_keeps now _ hke).mono ?_))))
  rintro r st' ⟨-, hke'⟩
  refine .pure ⟨fun _ => h.inbound, ?_, rfl⟩
  rw [rowsOf_snoc]
  exact hke'

theorem processBatch_hole (h : ReadyWith cfg s bs)
    (hho : (lastNumber (rowsOf bs)).any (fun seqNum => getTransactionId b == seqNum + 1) = false ∧
      (lastNumber (rowsOf bs)).any (fun seqNum => decide (getTransactionId b ≤ seqNum)) = false) :
    Returns (BlockchainBase.processBatch cfg () now ⟨some b, false⟩) s fun goOn s' =>
      (goOn = true → s'.inbound = []) ∧
      s'.out = s.out ++ [.resetValidation "hole in seq_num",
        .continueValidation BLOCKCHAIN_RESET_TIMEOUT_SECONDS] := by
  refine .bind (onStorage_returns ((latest_keeps hK h.keeps now).mono ?_))
  rintro latest st ⟨rfl, hke⟩
  dsimp only
  rw [hho.1, hho.2]
  refine .bind ⟨_, _, BlockchainBase.pushInbound_empty h.inbound, ?_⟩
  exact .bind (.of_modify (.pure ⟨fun h => (nomatch h), rfl⟩))

theorem processBatch_unknown (h : ReadyWith cfg s bs)
    (hne : (lastNumber (rowsOf bs)).any (fun seqNum => getTransactionId b == seqNum + 1) = true)
    (htype : ¬ TypeKnown b.first.body) :
    ∃ e s', BlockchainBase.processBatch cfg () now ⟨some b, false⟩ s = .error e s' := by
  obtain ⟨latest, s', hla, rfl, hsa⟩ := onStorage_returns
    (Q := fun a s' => a = lastNumber (rowsOf bs) ∧ s'.fields = s.fields)
    ((latest_keeps hK h.keeps now).mono fun a st hst => ⟨hst.1, rfl⟩)
  obtain ⟨e, hca⟩ : ∃ e, s.fields.calcFields b = .error e := calcFields_error htype
  refine ⟨e, s', ?_⟩
  show BlockchainBase.processRecords cfg () now _ b s = _
  rw [BlockchainBase.processRecords, bind_eq hla]
  rw [if_pos hne, BlockchainBase.appendBatch, get_bind]
  simp only [calcFieldsAndUpdateIndexesFor, hsa, hca]
  rfl

/-- Behind SIGNATURES records, and on an empty chain, the next batch resets the validation. -/
theorem not_grows (h : ReadyWith cfg s bs)
    (hfits : bs.length + 1 < UInt64.size)
    (hnu : getTransactionId b = UInt64.ofNat (bs.length + 1)) (hpos : 0 < cfg.batchSize)
    (hen : ¬ EndsUnsigned bs) : ¬ Grows cfg now s bs b := by
  intro hgr
  obtain ⟨n, hn⟩ := Nat.exists_eq_succ_of_ne_zero (Nat.ne_of_gt hpos)
  have hre := BlockchainBase.addTransaction_returns h.ready h.inbound hn
    (processBatch_hole now hK h (h.consecutive.isHole hfits hnu hen))
  obtain ⟨-, s', -, ⟨-, o, ho, hno⟩, hre⟩ := hgr.and_ensures hre.ensures
  rw [ho, List.append_cancel_left_eq] at hre
  exact hno "hole in seq_num" (by rw [hre]; exact List.mem_cons_self)

/-- Neither does a batch with a node of an unknown type get to the storage. -/
theorem not_grows_unknown (h : ReadyWith cfg s bs)
    (hnu : getTransactionId b = UInt64.ofNat (bs.length + 1)) (hpos : 0 < cfg.batchSize)
    (hen : EndsUnsigned bs) (htype : ¬ TypeKnown b.first.body) : ¬ Grows cfg now s bs b := by
  rintro ⟨_, s'', hca, -⟩
  obtain ⟨n, hn⟩ := Nat.exists_eq_succ_of_ne_zero (Nat.ne_of_gt hpos)
  obtain ⟨e, s', hfa⟩ := processBatch_unknown now hK h (h.consecutive.isNext hnu hen) htype
  rw [BlockchainBase.addTransaction_error h.ready h.inbound hn hfa] at hca
  cases hca

end

end Growth

/-- A chain of batches numbered from 1 on takes the next one just if it is not empty and ends
with a main record; the type of a node has to be known, and the batch size not zero. -/
theorem grows_iff (F : RowFormat SbRecord) (name : String) (batchSize : Nat)
    (s : Base (child F groupParams)) (bs : List SbBatch)
    (hready : ReadyWith (sbConf name batchSize) s bs) (b : SbBatch) (now : Nat)
    (hfits : bs.length + 1 < UInt64.size)
    (hnumber : getTransactionId b = UInt64.ofNat (bs.length + 1)) :
    Grows (sbConf name batchSize) now s bs b ↔
      EndsUnsigned bs ∧ TypeKnown b.first.body ∧ 0 < batchSize := by
  have hK : (sbConf name batchSize).K.RecCount = GRADIDO_BLOCK_SIZE := rfl
  constructor
  · intro hgr
    have hpos : 0 < batchSize := by
      refine Nat.pos_of_ne_zero fun hze => ?_
      obtain ⟨_, s', hca, ⟨result, hke⟩, -⟩ := hgr
      rw [BlockchainBase.addTransaction_left hready.ready hready.inbound hze] at hca
      cases hca
      -- the rows are what they were
      have hro := hke.storedRows_eq.symm.trans hready.keeps.storedRows_eq
      rw [rowsOf_snoc, List.append_right_eq_self] at hro
      cases hro
    have hen : EndsUnsigned bs := by
      by_contra hen
      exact not_grows now hK hready hfits hnumber hpos hen hgr
    refine ⟨hen, ?_, hpos⟩
    by_contra htype
    exact not_grows_unknown now hK hready hnumber hpos hen htype hgr
  · rintro ⟨hen, htype, hpos⟩
    obtain ⟨n, hn⟩ := Nat.exists_eq_succ_of_ne_zero (Nat.ne_of_gt hpos)
    refine (BlockchainBase.addTransaction_returns hready.ready hready.inbound hn
      (processBatch_next now hK hready (hready.consecutive.isNext hnumber hen) htype)).mono ?_
    rintro - s' ⟨hke, hout⟩
    refine ⟨⟨_, hke⟩, [], ?_, fun cause hmem => (nomatch hmem)⟩
    rw [hout, List.append_nil]

/-! ## Three chains -/

/-- A batch with this number, and these records behind its main record. -/
def numbered (n : UInt64) (rest : List SbRecord) : SbBatch :=
  ⟨⟨{ HederaTransaction.zero with sequenceNumber := n }, .addBlockchain ⟨Chain.key 1⟩, 0⟩, rest⟩

/-- A SIGNATURES record. -/
def signaturesRecord : SbRecord :=
  ⟨HederaTransaction.zero,
    .signatures (Vector.replicate 10 ⟨Vector.replicate _ 0, Vector.replicate _ 0⟩), 0⟩

/-- A chain that is READY, with these batches. -/
def readyChain (bs : List SbBatch) : Base (child (digestFormat SbRecord) groupParams) :=
  { Base.create (storageOf (digestFormat SbRecord) (sbConf "sb" 100) (rowsOf bs)) initialised with
    state := .ready }

theorem readyChain_readyWith {bs : List SbBatch} (h : Consecutive bs) :
    ReadyWith (sbConf "sb" 100) (readyChain bs) bs where
  ready := rfl
  inbound := rfl
  keeps := storageOf_keeps (digestFormat SbRecord) (sbConf "sb" 100) (rowsOf bs)
  initialised := initialised_init
  consecutive := h

theorem consecutive_one {rest : List SbRecord} (h : Signed (numbered 1 rest)) :
    Consecutive [numbered 1 rest] where
  number := by
    intro i b hb
    obtain ⟨hi, rfl⟩ := List.getElem?_eq_some_iff.mp hb
    obtain rfl : i = 0 := by simpa using hi
    rfl
  signed := by
    intro b hb
    rw [List.mem_singleton.mp hb]
    exact h

theorem grows_iff_second :
    ReadyWith (sbConf "sb" 100) (readyChain [numbered 1 []]) [numbered 1 []] ∧
    Grows (sbConf "sb" 100) 0 (readyChain [numbered 1 []]) [numbered 1 []] (numbered 2 []) := by
  have hready : ReadyWith (sbConf "sb" 100) (readyChain [numbered 1 []]) [numbered 1 []] :=
    readyChain_readyWith (consecutive_one fun r hr => (nomatch hr))
  exact ⟨hready, (grows_iff _ "sb" 100 _ _ hready (numbered 2 []) 0 (by decide) rfl).mpr
    ⟨⟨_, rfl, rfl⟩, trivial, by decide⟩⟩

/-- The first batch on an empty chain, and the second one behind a signed first one. -/
theorem chain_does_not_grow :
    (ReadyWith (sbConf "sb" 100) (readyChain []) [] ∧ getTransactionId (numbered 1 []) = 1 ∧
      ¬ Grows (sbConf "sb" 100) 0 (readyChain []) [] (numbered 1 [])) ∧
    (ReadyWith (sbConf "sb" 100) (readyChain [numbered 1 [signaturesRecord]])
        [numbered 1 [signaturesRecord]] ∧ getTransactionId (numbered 2 []) = 2 ∧
      ¬ Grows (sbConf "sb" 100) 0 (readyChain [numbered 1 [signaturesRecord]])
        [numbered 1 [signaturesRecord]] (numbered 2 [])) := by
  have hem : ReadyWith (sbConf "sb" 100) (readyChain []) [] :=
    readyChain_readyWith ⟨fun i b hb => (nomatch hb), fun b hb => (nomatch hb)⟩
  have hsi : ReadyWith (sbConf "sb" 100) (readyChain [numbered 1 [signaturesRecord]])
      [numbered 1 [signaturesRecord]] := by
    refine readyChain_readyWith (consecutive_one fun r hr => ?_)
    rw [List.mem_singleton.mp hr]
    exact ⟨⟨_, rfl⟩, rfl⟩
  refine ⟨⟨hem, rfl, not_grows 0 rfl hem (by decide) rfl (by decide) ?_⟩,
    hsi, rfl, not_grows 0 rfl hsi (by decide) rfl (by decide) ?_⟩
  · rintro ⟨b, hb, -⟩
    cases hb
  · rintro ⟨b, hb, hre⟩
    cases hb
    cases hre

end SubclusterBlockchain

end GradidoNode
