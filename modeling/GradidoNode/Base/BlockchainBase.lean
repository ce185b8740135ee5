/-
# `GradidoNode.Base.BlockchainBase` — what the group chains and the register share

`BlockchainBaseDeprecated<T, Child, Parent, TransactionComparator>`: a storage, a
queue of batches that arrive from the ledger service, the state machine that fetches
blocks from a sibling node and validates them, and the calls that serve a sibling.

**The child.**  The pure virtual methods, and the data members they work on, are
the fields of `Child`.  `Content` is a batch the child can be given (of what kind
its records are is the child's affair); a `Batch` without one is a null buffer.
`is_valid` of both children returns `true`, so the storage has no validator here.

**What a call does outside the object** is written to `out`, in order: tasks it
pushes, requests it sends, paired transactions it asks for, and each
`reset_validation` with its cause.

**Messages.**  A `BlockRecord` carries `sizeof(T)` bytes behind the type byte of a
row, that is its body, and `memcpy` into a `T` reads the payload out of it.  A
message with `success` false is `none`.

Calls take the lock of the object, so they are atomic; `now` is the time the
storage reads.
-/
import GradidoNode.Ledger.Transaction
import GradidoNode.Lib.PQueue
import GradidoNode.Storage.Keeps

namespace GradidoNode

open Lib Blockchain

/-- `BLOCKCHAIN_RESET_TIMEOUT_SECONDS`. -/
def BLOCKCHAIN_RESET_TIMEOUT_SECONDS : Nat := 5

/-- How `calc_fields_and_update_indexes_for` of a child ends.  A batch that is not ready may
have asked for a paired transaction: that of a group, with an id. -/
inductive Calculated (Fields Content : Type) where
  | ready (fields : Fields) (batch : Content)
  | notReady (fields : Fields) (request : Option (Bytes × HederaTimestamp))
  | failed (e : Fault)

/-- What a child class brings. -/
structure Child {T : Type} (F : RowFormat T) where
  /-- its data members -/
  Fields : Type
  /-- the records of a batch -/
  Content : Type
  /-- what it asks of the rest of the node -/
  Env : Type
  records : Content → List T
  /-- `TransactionComparator` -/
  less : Content → Content → Bool
  getTransactionId : Content → UInt64
  getLatestTransactionId : Nat → ChainM F (Option UInt64)
  calcFieldsAndUpdateIndexesFor : Env → Nat → Fields → Content → Calculated Fields Content
  clearIndexes : Fields → Fields
  addIndexData : (indexedBlocks now : Nat) → Fields → ChainM F (Bool × Fields)

/-- `Batch<T>`. -/
structure Batch (Content : Type) where
  content : Option Content
  resetBlockchain : Bool

namespace Base

inductive State where
  | initial | fetchingChecksums | fetchingBlocks | validating | ready
  deriving DecidableEq, Repr

/-- What a call does outside the object. -/
inductive Out where
  | continueValidation (delaySeconds : Nat)
  | continueTransactions
  | requireBlockChecksums (endpoint : String)
  | requireBlockData (endpoint : String) (blockId : Nat)
  | resetValidation (cause : String)
  | execOncePairedTransactionDone (group : Bytes) (id : HederaTimestamp)
  deriving DecidableEq, Repr

/-- The call a child has made for a batch that is not ready. -/
def Out.ofRequest : Option (Bytes × HederaTimestamp) → List Out
  | none => []
  | some (group, id) => [.execOncePairedTransactionDone group id]

/-- The configuration a chain is constructed with. -/
structure Conf where
  K : Params
  name : String
  batchSize : Nat
  topicResetAllowed : Bool

end Base

/-- `BlockchainBaseDeprecated`, with the data members of its child. -/
structure Base {T : Type} {F : RowFormat T} (C : Child F) where
  state : Base.State
  storage : Blockchain F
  fields : C.Fields
  fetchEndpoint : String
  fetchedChecksums : List F.Checksum
  fetchedRecordCount : Nat
  fetchedChecksumExpectingLast : Bool
  blockToFetch : Nat
  fetchedDataCount : Nat
  indexedBlocks : Nat
  inbound : List (Batch C.Content)
  out : List Base.Out

namespace Base

variable {T : Type} {F : RowFormat T} {C : Child F}

/-- A call on a chain. -/
abbrev BaseM (C : Child F) := EStateM Fault (Base C)

/-- The constructor, over a storage that has been constructed. -/
def create (storage : Blockchain F) (fields : C.Fields) : Base C where
  state := .initial
  storage := storage
  fields := fields
  fetchEndpoint := ""
  fetchedChecksums := []
  fetchedRecordCount := 0
  fetchedChecksumExpectingLast := false
  blockToFetch := 0
  fetchedDataCount := 0
  indexedBlocks := 0
  inbound := []
  out := []

/-- A call on the storage. -/
def onStorage {α : Type} (m : ChainM F α) : BaseM C α := fun s =>
  match m s.storage with
  | .ok a st => .ok a { s with storage := st }
  | .error e st => .error e { s with storage := st }

def emit (o : Out) : BaseM C Unit := modify fun s => { s with out := s.out ++ [o] }

variable (cfg : Conf)

/-- `storage.append(rec, count, ec)`: one row after the other, to the first that fails. -/
def appendRecords (now : Nat) : List T → ChainM F Bool
  | [] => return true
  | p :: ps => do
    let r ← append cfg.K p now
    if r.1 then appendRecords now ps else return false

def resetValidation (cause : String) : BaseM C Unit :=
  modify fun s => { s with
    state := .initial
    storage := truncate 0 s.storage
    fields := C.clearIndexes s.fields
    indexedBlocks := 0
    out := s.out ++ [.resetValidation cause, .continueValidation BLOCKCHAIN_RESET_TIMEOUT_SECONDS] }

/-- The chain turns to the validation of what it has. -/
def startValidating : BaseM C Unit :=
  modify fun s => { s with
    state := .validating
    fields := C.clearIndexes s.fields
    indexedBlocks := 0
    out := s.out ++ [.continueValidation 0] }

/-! ## Fetching from a sibling -/

def fetchNextBlock : BaseM C Unit := do
  let s ← get
  emit (.requireBlockData s.fetchEndpoint s.blockToFetch)

/-- `on_block_record`, at the end of a stream of records. -/
def onBlockRecordEnd : BaseM C Unit := do
  let s ← get
  if s.blockToFetch = s.fetchedChecksums.length then
    if s.fetchedDataCount ≠ s.fetchedRecordCount then
      resetValidation "bad record count in last block"
    else startValidating
  else if s.fetchedDataCount ≠ s.fetchedRecordCount then
    resetValidation "bad record count"
  else do
    modify fun s => { s with blockToFetch := s.blockToFetch + 1 }
    fetchNextBlock

def onBlockRecord (br : Option F.Body) (now : Nat) : BaseM C Unit := do
  let s ← get
  if s.state ≠ .fetchingBlocks then
    throw (.thrown "group register on_block_record(): wrong state")
  else
    match br with
    | none => onBlockRecordEnd
    | some body => do
      -- "omitting checksums; they are calculated anyway"
      if s.fetchedDataCount % GRADIDO_BLOCK_SIZE < GRADIDO_BLOCK_SIZE - 1 ∧
          s.fetchedDataCount + 1 < s.fetchedRecordCount then do
        let _ ← onStorage (appendRecords cfg now [F.payload body])
        modify fun s => { s with fetchedDataCount := s.fetchedDataCount + 1 }
      else modify fun s => { s with fetchedDataCount := s.fetchedDataCount + 1 }

/-- `BlockInfo`, and the message `BlockChecksum` made of it. -/
structure BlockInfo (F : RowFormat T) where
  size : Nat
  checksum : F.Checksum

def onBlockChecksum (bc : Option (BlockInfo F)) : BaseM C Unit := do
  let s ← get
  if s.state ≠ .fetchingChecksums then
    throw (.thrown (cfg.name ++ " on_block_checksum(): wrong state"))
  else
    match bc with
    | none => do
      modify fun s => { s with
        state := .fetchingBlocks
        blockToFetch := 0
        fetchedDataCount := 0 }
      fetchNextBlock
    | some bi =>
      if s.fetchedChecksumExpectingLast then resetValidation "unexpected checksum"
      else modify fun s => { s with
        fetchedChecksumExpectingLast :=
          s.fetchedChecksumExpectingLast || decide (bi.size < GRADIDO_BLOCK_SIZE)
        fetchedRecordCount := s.fetchedRecordCount + bi.size
        fetchedChecksums := s.fetchedChecksums ++ [bi.checksum] }

/-! ## Validating -/

/-- `add_index_data` of the child. -/
def addIndexData (now : Nat) : BaseM C Bool := do
  let s ← get
  let r ← onStorage (C.addIndexData s.indexedBlocks now s.fields)
  modify fun s => { s with fields := r.2 }
  return r.1

def validateNextBatch (now : Nat) : BaseM C Unit := do
  let s ← get
  if s.storage.checksumValidBlockCount = s.storage.tiles.length then do
    modify fun s => { s with state := .ready }
    let added ← addIndexData now
    if added then return () else resetValidation "cannot add_index_data(), last block"
  else do
    let r ← onStorage (validateNextChecksum cfg.K now)
    if r.1 then do
      let added ← addIndexData now
      if added then
        modify fun s => { s with
          out := s.out ++ [.continueValidation 0]
          indexedBlocks := s.indexedBlocks + 1 }
      else resetValidation "cannot add_index_data()"
    else resetValidation "cannot validate_next_checksum()"

/-- `continue_validation`; `sibling` is what `get_random_sibling_endpoint` found. -/
def continueValidation (sibling : Option String) (now : Nat) : BaseM C Unit := do
  let s ← get
  match s.state with
  | .initial =>
    if 0 < s.storage.tiles.length then startValidating
    else
      match sibling with
      | some endpoint =>
        modify fun s => { s with
          state := .fetchingChecksums
          fetchEndpoint := endpoint
          fetchedRecordCount := 0
          fetchedChecksums := []
          fetchedChecksumExpectingLast := false
          out := s.out ++ [.requireBlockChecksums endpoint] }
      | none =>
        modify fun s => { s with
          state := .ready
          out := s.out ++ [.continueTransactions] }
  | .validating => validateNextBatch cfg now
  | .fetchingChecksums => throw (.thrown (cfg.name ++ " continue_validation(): wrong state 1"))
  | .fetchingBlocks => throw (.thrown (cfg.name ++ " continue_validation(): wrong state 2"))
  | .ready => throw (.thrown (cfg.name ++ " continue_validation(): wrong state 4"))

/-! ## Transactions -/

/-- The comparator, on batches of a queue that has more than one: it reads `buff[0]`. -/
def lessBatch (a b : Batch C.Content) : Bool :=
  match a.content, b.content with
  | some x, some y => C.less x y
  | _, _ => false

/-- `inbound.push(batch)`.  With anything else in the queue the comparator is called,
and a null buffer dereferenced. -/
def pushInbound (batch : Batch C.Content) : BaseM C Unit := do
  let s ← get
  if s.inbound ≠ [] ∧ ((batch :: s.inbound).any fun b => b.content.isNone) then
    throw (.undefined "null batch compared")
  else modify fun s => { s with inbound := PQueue.push batch s.inbound }

/-- Whether a batch numbered `curr` comes next. -/
def isNext (latest : Option UInt64) (curr : UInt64) : Bool :=
  match latest with
  | some seqNum => curr == seqNum + 1
  | none => cfg.topicResetAllowed || curr == 1

/-- Whether a batch numbered `curr` has been seen. -/
def isOld (latest : Option UInt64) (curr : UInt64) : Bool :=
  match latest with
  | some seqNum => decide (curr ≤ seqNum)
  | none => false

/-- A batch with records; the result says whether the loop goes on. -/
def processRecords (env : C.Env) (now : Nat) (c : C.Content) : BaseM C Bool := do
  let latest ← onStorage (C.getLatestTransactionId now)
  let curr := C.getTransactionId c
  if isNext cfg latest curr then do
    let s ← get
    match C.calcFieldsAndUpdateIndexesFor env s.storage.recCount s.fields c with
    | .ready fields c' => do
      modify fun s => { s with fields := fields }
      let _ ← onStorage (appendRecords cfg now (C.records c'))
      return true
    | .notReady fields request => do
      modify fun s => { s with fields := fields, out := s.out ++ Out.ofRequest request }
      pushInbound ⟨some c, false⟩
      return false
    | .failed e => throw e
  else if isOld latest curr then return true
  else do
    pushInbound ⟨some c, false⟩
    resetValidation "hole in seq_num"
    return false

/-- A batch that has been popped. -/
def processBatch (env : C.Env) (now : Nat) (batch : Batch C.Content) : BaseM C Bool := do
  if batch.resetBlockchain then
    if !cfg.topicResetAllowed then throw (.thrown "cannot reset topic")
    else do
      modify fun s => { s with
        storage := truncate 0 s.storage
        indexedBlocks := 0
        fields := C.clearIndexes s.fields }
      return true
  else
    match batch.content with
    | none => throw (.thrown "empty batch")
    | some c => processRecords cfg env now c

/-- The loop of `continue_with_transactions`; `false` is a `return` from inside it. -/
def transactionsLoop (env : C.Env) (now : Nat) : Nat → BaseM C Bool
  | 0 => return true
  | i + 1 => do
    let s ← get
    match PQueue.pop lessBatch s.inbound with
    | none => return true
    | some (batch, rest) => do
      modify fun s => { s with inbound := rest }
      let goOn ← processBatch cfg env now batch
      if goOn then transactionsLoop env now i else return false

def continueWithTransactions (env : C.Env) (now : Nat) : BaseM C Unit := do
  let s ← get
  if s.state ≠ .ready then return ()
  else do
    let ended ← transactionsLoop cfg env now cfg.batchSize
    let s ← get
    if ended ∧ s.inbound ≠ [] then emit .continueTransactions else return ()

def addTransaction (env : C.Env) (now : Nat) (batch : Batch C.Content) : BaseM C Unit := do
  pushInbound batch
  continueWithTransactions cfg env now

/-! ## Serving a sibling -/

/-- The scan of the last block of `get_checksums`: for the CHECKSUM row `j` it reports
`j + 1` rows, and copies the checksum of row `2 * j`. -/
def lastBlockInfo (block : Nat → Row F.Body) : Nat → Nat → ChainM F (Option (BlockInfo F))
  | _, 0 => return none
  | j, fuel + 1 =>
    if (block j).type = RecordType.checksum then
      if 2 * j < cfg.K.RecCount then
        match F.strcpyChecksum (block (2 * j)).body with
        | some c => return some ⟨j + 1, c⟩
        | none => throw (.undefined "strcpy past the end of the checksum")
      else throw (.undefined "row past the end of the block")
    else lastBlockInfo block (j + 1) fuel

/-- `get_checksums`, `count` blocks from block `i` on. -/
def checksumsFrom (now : Nat) : Nat → Nat → ChainM F (List (BlockInfo F))
  | _, 0 => return []
  | i, count + 1 => do
    let r ← getBlock cfg.K i now
    match r.1 with
    | none => throw (.undefined "null block")
    | some block =>
      if count = 0 then do
        let bi ← lastBlockInfo cfg block 0 GRADIDO_BLOCK_SIZE
        return bi.toList
      else
        match F.strcpyChecksum (block (GRADIDO_BLOCK_SIZE - 1)).body with
        | some c => do
          let rest ← checksumsFrom now (i + 1) count
          return ⟨GRADIDO_BLOCK_SIZE, c⟩ :: rest
        | none => throw (.undefined "strcpy past the end of the checksum")

def getChecksums (now : Nat) : ChainM F (List (BlockInfo F)) := do
  let s ← get
  checksumsFrom cfg now 0 s.tiles.length

/-- `get_block_record`, for either kind of message: the bytes behind the type byte.
A row that is neither EMPTY nor PAYLOAD nor CHECKSUM leaves the message without them. -/
def getBlockRecord (seqNum now : Nat) : ChainM F (Option (Option F.Body)) := do
  let s ← get
  let blockNum := seqNum / GRADIDO_BLOCK_SIZE
  if s.tiles.length ≤ blockNum then return none
  else do
    let r ← getBlock cfg.K blockNum now
    match r.1 with
    | none => throw (.undefined "null block")
    | some block =>
      let row := block (seqNum % GRADIDO_BLOCK_SIZE)
      if row.type = RecordType.empty then return none
      else if row.type = RecordType.payload ∨ row.type = RecordType.checksum then
        return some (some row.body)
      else return some none

/-! ## Calls on the storage -/

variable {cfg} {α : Type} {s : Base C}

theorem onStorage_returns {m : ChainM F α} {Q : α → Base C → Prop}
    (h : Returns m s.storage fun a st => Q a { s with storage := st }) :
    Returns (onStorage m) s Q := by
  obtain ⟨a, st, hm, hQ⟩ := h
  refine ⟨a, { s with storage := st }, ?_, hQ⟩
  simp only [onStorage, hm]

theorem appendRecords_keeps (now : Nat) :
    ∀ (l : List T) {st : Blockchain F} {ps : List T}, Keeps cfg.K st ps →
      Returns (appendRecords cfg now l) st fun r st' => r = true ∧ Keeps cfg.K st' (ps ++ l) := by
  intro l
  induction l with
  | nil =>
    intro st ps h
    rw [List.append_nil]
    exact .pure ⟨rfl, h⟩
  | cons p l ih =>
    intro st ps h
    refine .bind ((h.append p now).mono ?_)
    rintro r st' ⟨rfl, h'⟩
    have hre := ih h'
    rw [List.append_assoc] at hre
    exact hre

/-- The storage of a new chain in an empty folder, after `rows` have been stored. -/
def storageOf (F : RowFormat T) (cfg : Conf) (rows : List T) : Blockchain F :=
  stateAfter (appendRecords cfg 0 rows (Blockchain.create cfg.K (fun _ => .missing) 0))

theorem storageOf_keeps (F : RowFormat T) (cfg : Conf) (rows : List T) :
    Keeps cfg.K (storageOf F cfg rows) rows :=
  (appendRecords_keeps 0 rows (keeps_create fun _ => .inl rfl)).stateAfter fun _ _ h => h.2

end Base

end GradidoNode
