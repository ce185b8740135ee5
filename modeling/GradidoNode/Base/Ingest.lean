/-
# `GradidoNode.Base.Ingest` — batches delivered to a group chain

Batches with sequence numbers `1 .. n`, each delivered once through
`add_transaction`, in any order and at any moment, to a chain over an empty folder
whose siblings, if it has any, have nothing to send.  What is delivered should end
up stored, in the order of the numbers, and `reset_validation` should have no
cause.

The queue stands in the way: `std::priority_queue` puts the *largest* element on
top, and the comparator is `<` on the numbers.  With the next batch and a later one
in the queue, the later one is popped first, found not to follow, and the chain
resets itself although the batch it waits for is there (`buffered_pair_resets`).

`OnlyNext` is what the code can do: when `continue_with_transactions` runs in
READY, nothing is in the queue but the batch that comes next.  `Ingested` is the
invariant of such runs, step by step; `ingestion` is the result for whole runs.
Stored records are compared with delivered ones up to the fields the ledger
calculates (`given`).  `Processed` says once what becomes of a batch that has been
popped: it is stored, waits for its pair, is old, or the chain resets itself.
-/
import GradidoNode.Base.BlockchainGradido
import GradidoNode.Ledger.Spending

namespace GradidoNode

open Lib Blockchain

/-! ## Records up to calculated fields -/

namespace Transaction

def givenUser (u : UserTransfer) : UserTransfer := ⟨u.user, GradidoValue.zero, 0⟩

def givenBody : TransactionBody → TransactionBody
  | .gradidoCreation c => .gradidoCreation ⟨givenUser c.toUserTransfer, c.amount⟩
  | .localTransfer lt => .localTransfer ⟨lt.amount, givenUser lt.sender, givenUser lt.receiver⟩
  | .inboundTransfer lt => .inboundTransfer { lt with receiver := givenUser lt.receiver }
  | .outboundTransfer lt => .outboundTransfer { lt with sender := givenUser lt.sender }
  | body => body

/-- The transaction with its calculated fields cleared. -/
def given (tr : Transaction) : Transaction :=
  { tr with body := givenBody tr.body, result := .unknown }

end Transaction

/-- The record with its calculated fields cleared. -/
def GradidoRecord.given : GradidoRecord → GradidoRecord
  | .gradidoTransaction tr => .gradidoTransaction tr.given
  | r => r

/-- Processing a transaction only sets calculated fields. -/
theorem Ledger.Applied.given_eq {calculateDecay : DecayFunction} {env : Env} {n : Nat}
    {l l' : Ledger} {tr tr' : Transaction} (h : Ledger.Applied calculateDecay env n l tr l' tr') :
    tr'.given = tr.given := by
  rcases tr with ⟨seq, t, body, result⟩
  cases h with
  | refused hrs hl | other hbo | addGroupFriend hbo hno | removeGroupFriend hbo | addUser hbo hno
  | moveUserInbound hbo hno hpa hsu | moveUserOutbound hbo => rfl
  | gradidoCreation hbo hin hba | localTransfer hbo hse hre ham hch hnew hra
  | inboundTransfer hbo hre hpa hsu hra | outboundTransfer hbo hse ham hch hnew => cases hbo; rfl

namespace Ingest

open Base BlockchainGradido

variable {F : RowFormat GradidoRecord} {calculateDecay : DecayFunction} {cfg : Conf}

/-- A group chain. -/
abbrev Node (F : RowFormat GradidoRecord) (cfg : Conf) (calculateDecay : DecayFunction) :=
  Base (child F cfg.K calculateDecay)

/-! ## Events -/

/-- What happens to the chain.  A sibling with an empty chain ends each stream at once. -/
inductive Event where
  | addTransaction (env : Env) (now : Nat) (b : GradidoBatch)
  | continueWithTransactions (env : Env) (now : Nat)
  | continueValidation (sibling : Option String) (now : Nat)
  | blockChecksumsEnd
  | blockRecordsEnd (now : Nat)
  | pairedTransactionDone (t : Transaction)

/-- A batch as it comes from the ledger service. -/
def plainBatch (b : GradidoBatch) : Batch GradidoBatch := ⟨some b, false⟩

/-- The call an event is. -/
def call (cfg : Conf) : Event → BaseM (child F cfg.K calculateDecay) Unit
  | .addTransaction env now b => addTransaction cfg env now (plainBatch b)
  | .continueWithTransactions env now => continueWithTransactions cfg env now
  | .continueValidation sibling now => continueValidation cfg sibling now
  | .blockChecksumsEnd => onBlockChecksum cfg none
  | .blockRecordsEnd now => onBlockRecord cfg none now
  | .pairedTransactionDone t => onPairedTransactionDone t

/-- One event.  A call that fails ends the run. -/
def step (cfg : Conf) (s : Node F cfg calculateDecay) (e : Event) :
    Option (Node F cfg calculateDecay) :=
  match call cfg e s with
  | .ok _ s' => some s'
  | .error _ _ => none

theorem call_of_step {s s' : Node F cfg calculateDecay} {e : Event} (h : step cfg s e = some s') :
    call cfg e s = .ok () s' := by
  unfold step at h
  split at h
  · next heq =>
    cases h
    exact heq
  · cases h

/-- The batch an event delivers. -/
def deliveredBy : Event → Option GradidoBatch
  | .addTransaction _ _ b => some b
  | _ => none

def delivered (es : List Event) : List GradidoBatch := es.filterMap deliveredBy

/-- A chain over an empty folder. -/
def start (F : RowFormat GradidoRecord) (cfg : Conf) (calculateDecay : DecayFunction) :
    Node F cfg calculateDecay :=
  Base.create (Blockchain.create cfg.K (fun _ => .missing) 0) Ledger.initial

/-! ## The condition -/

/-- The number the chain expects next, by its own lookup. -/
def expected (cfg : Conf) (now : Nat) (s : Node F cfg calculateDecay) : UInt64 :=
  match getLatestTransactionId cfg.K now s.storage with
  | .ok (some seqNum) _ => seqNum + 1
  | _ => 1

/-- The batches of a queue. -/
def contents (q : List (Batch GradidoBatch)) : List GradidoBatch := q.filterMap Batch.content

/-- When the loop of `continue_with_transactions` is about to run, nothing is in the
queue but the batch with the number expected next. -/
def OnlyNext (cfg : Conf) (s : Node F cfg calculateDecay) : Event → Prop
  | .addTransaction _ now b => s.state = .ready →
      ∀ c ∈ b :: contents s.inbound, c.transaction.sequenceNumber = expected cfg now s
  | .continueWithTransactions _ now => s.state = .ready →
      ∀ c ∈ contents s.inbound, c.transaction.sequenceNumber = expected cfg now s
  | _ => True

/-! ## The invariant -/

/-- The sequence number of a batch. -/
def number (b : GradidoBatch) : Nat := b.transaction.sequenceNumber.toNat

/-- The records of a batch, up to calculated fields. -/
def givenRecords (b : GradidoBatch) : List GradidoRecord :=
  (Chain.batch b.transaction b.parts).map GradidoRecord.given

/-- The storage has the batches `done` and nothing else, and they are numbered from 1 on. -/
structure StoredAs (K : Params) (st : Blockchain F) (done : List GradidoBatch) : Prop where
  rows : ∃ rows, Keeps K st rows ∧ rows.map GradidoRecord.given = done.flatMap givenRecords
  numbers : done.map number = List.range' 1 done.length

/-- What holds of a chain to which the batches `ds` have been delivered. -/
structure Ingested (cfg : Conf) (ds : List GradidoBatch) (s : Node F cfg calculateDecay) :
    Prop where
  stored : ∃ done, StoredAs cfg.K s.storage done ∧ (done ++ contents s.inbound).Perm ds ∧
    (s.state ≠ .ready → done = [])
  plain : ∀ b ∈ s.inbound, ∃ c, b = plainBatch c
  noReset : ∀ cause, .resetValidation cause ∉ s.out
  fetching : s.state = .fetchingChecksums ∨ s.state = .fetchingBlocks →
    s.fetchedRecordCount = 0 ∧ s.fetchedChecksums = []
  fetchingBlocks : s.state = .fetchingBlocks → s.blockToFetch = 0 ∧ s.fetchedDataCount = 0

/-- Batches numbered once each, from 1 on. -/
def Numbered (ds : List GradidoBatch) : Prop := (ds.map number).Nodup ∧ 0 ∉ ds.map number

theorem ingested_start (cfg : Conf) : Ingested cfg [] (start F cfg calculateDecay) where
  stored := ⟨[], ⟨⟨[], keeps_create fun _ => .inl rfl, rfl⟩, rfl⟩, .refl _, fun _ => rfl⟩
  plain := by intro b hb; cases hb
  noReset := by intro cause h; cases h
  fetching := by rintro (h | h) <;> cases h
  fetchingBlocks := by intro h; cases h

/-! ## What the chain expects -/

theorem sequenceNumbers_given (rows : List GradidoRecord) :
    sequenceNumbers (rows.map GradidoRecord.given) = sequenceNumbers rows := by
  rw [sequenceNumbers, List.filterMap_map]
  refine List.filterMap_congr fun r _ => ?_
  cases r <;> rfl

theorem sequenceNumbers_givenRecords (b : GradidoBatch) :
    sequenceNumbers (givenRecords b) = [b.transaction.sequenceNumber] := by
  rw [givenRecords, sequenceNumbers_given]
  exact sequenceNumbers_batch [] b.transaction b.parts

theorem sequenceNumbers_flatMap (done : List GradidoBatch) :
    sequenceNumbers (done.flatMap givenRecords)
      = done.map fun b => b.transaction.sequenceNumber := by
  induction done with
  | nil => rfl
  | cons b done ih =>
    rw [List.flatMap_cons, List.map_cons, ← ih, ← List.singleton_append,
      ← sequenceNumbers_givenRecords b]
    exact List.filterMap_append

/-- The last number of a list of batches. -/
def lastNumber (done : List GradidoBatch) : Option UInt64 :=
  (done.map fun b => b.transaction.sequenceNumber).getLast?

/-- The number stored last. -/
def lastStored (rows : List GradidoRecord) : Option UInt64 := (sequenceNumbers rows).getLast?

variable {st : Blockchain F} {done : List GradidoBatch} {rows : List GradidoRecord}

theorem lastStored_eq (h : rows.map GradidoRecord.given = done.flatMap givenRecords) :
    lastStored rows = lastNumber done := by
  rw [lastStored, lastNumber, ← sequenceNumbers_flatMap, ← h, sequenceNumbers_given]

theorem StoredAs.latest (h : StoredAs cfg.K st done)
    (hK : cfg.K.RecCount = GRADIDO_BLOCK_SIZE) (now : Nat) :
    Returns (getLatestTransactionId cfg.K now) st fun r st' =>
      r = lastNumber done ∧ StoredAs cfg.K st' done := by
  obtain ⟨rows, hke, hro⟩ := h.rows
  refine (latest_keeps hK hke now).mono ?_
  rintro r st' ⟨rfl, hke'⟩
  exact ⟨lastStored_eq hro, ⟨rows, hke', hro⟩, h.numbers⟩

/-- The number behind the last one. -/
def nextNumber (done : List GradidoBatch) : UInt64 :=
  match lastNumber done with
  | some seqNum => seqNum + 1
  | none => 1

theorem StoredAs.expected_eq {s : Node F cfg calculateDecay} (h : StoredAs cfg.K s.storage done)
    (hK : cfg.K.RecCount = GRADIDO_BLOCK_SIZE) (now : Nat) :
    expected cfg now s = nextNumber done := by
  obtain ⟨r, st', heq, rfl, -⟩ := h.latest hK now
  rw [expected, heq, nextNumber]
  cases lastNumber done <;> rfl

theorem isNext_nextNumber (cfg : Conf) (done : List GradidoBatch) :
    isNext cfg (lastNumber done) (nextNumber done) = true := by
  rw [nextNumber]
  cases lastNumber done with
  | none | some seqNum => simp [isNext]

theorem lastNumber_none (h : lastNumber done = none) : done = [] := by
  rw [lastNumber, List.getLast?_eq_none_iff] at h
  exact List.map_eq_nil_iff.mp h

theorem lastNumber_toNat (hnu : done.map number = List.range' 1 done.length) {seqNum : UInt64}
    (h : lastNumber done = some seqNum) : seqNum.toNat = done.length := by
  rcases List.eq_nil_or_concat' done with rfl | ⟨init, b, rfl⟩
  · cases h
  · rw [lastNumber, List.map_append, List.map_singleton, List.getLast?_concat] at h
    have hla := congrArg List.getLast? hnu
    rw [List.map_append, List.map_singleton, List.getLast?_concat, List.length_append,
      List.length_singleton, List.range'_concat, List.getLast?_concat] at hla
    rw [← Option.some.inj h, List.length_append, List.length_singleton]
    have hb : number b = 1 + 1 * init.length := Option.some.inj hla
    rw [number] at hb
    omega

/-- Unless the numbers run over, the next one is the count of batches plus one. -/
theorem number_of_next (hnu : done.map number = List.range' 1 done.length) {c : GradidoBatch}
    (hc : c.transaction.sequenceNumber = nextNumber done) (hne : number c ≠ 0) :
    number c = done.length + 1 := by
  rw [number] at hne ⊢
  cases hla : lastNumber done with
  | none =>
    rw [hc, nextNumber, hla, lastNumber_none hla]
    rfl
  | some seqNum =>
    have hcount := lastNumber_toNat hnu hla
    have hlt := seqNum.toNat_lt
    have hone : (1 : UInt64).toNat = 1 := rfl
    rw [hc, nextNumber, hla] at hne ⊢
    rw [UInt64.toNat_add, hone] at hne ⊢
    omega

theorem StoredAs.snoc {tr : Transaction} {c : GradidoBatch}
    {st' : Blockchain F} (h : StoredAs cfg.K st done)
    (hro : rows.map GradidoRecord.given = done.flatMap givenRecords)
    (hke : Keeps cfg.K st' (rows ++ Chain.batch tr c.parts))
    (htr : tr.given = c.transaction.given) (hc : number c = done.length + 1) :
    StoredAs cfg.K st' (done ++ [c]) where
  rows := by
    refine ⟨_, hke, ?_⟩
    have hba : (Chain.batch tr c.parts).map GradidoRecord.given = givenRecords c := by
      simp only [Chain.batch, givenRecords, List.map_cons, GradidoRecord.given, htr]
    rw [List.map_append, hro, hba, List.flatMap_append, List.flatMap_singleton]
  numbers := by
    rw [List.map_append, List.map_singleton, h.numbers, List.length_append, List.length_singleton,
      List.range'_concat, hc, Nat.one_mul, Nat.add_comm 1]

/-! ## One batch -/

section Batch

variable {s : Node F cfg calculateDecay}

theorem plain_cons {q : List (Batch GradidoBatch)} (h : ∀ b ∈ q, ∃ c, b = plainBatch c)
    (c : GradidoBatch) : ∀ b ∈ plainBatch c :: q, ∃ c, b = plainBatch c :=
  List.forall_mem_cons.mpr ⟨⟨c, rfl⟩, h⟩

theorem plain_pop {q rest : List (Batch GradidoBatch)} {b : Batch GradidoBatch}
    (h : ∀ b ∈ q, ∃ c, b = plainBatch c)
    (hpop : PQueue.pop (lessBatch (C := child F cfg.K calculateDecay)) q = some (b, rest)) :
    (∃ c, b = plainBatch c) ∧ ∀ b ∈ rest, ∃ c, b = plainBatch c := by
  have hpe := PQueue.pop_perm hpop
  exact ⟨h b (hpe.mem_iff.mpr List.mem_cons_self), fun b' hb' =>
    h b' (hpe.mem_iff.mpr (List.mem_cons_of_mem _ hb'))⟩

theorem pushInbound_plain (hpl : ∀ b ∈ s.inbound, ∃ c, b = plainBatch c) (c : GradidoBatch) :
    Returns (pushInbound (plainBatch c)) s fun _ s' =>
      s' = { s with inbound := plainBatch c :: s.inbound } := by
  have hso : ((plainBatch c :: s.inbound).any fun b => b.content.isNone) = false := by
    rw [List.any_eq_false]
    intro b hb
    obtain ⟨c', rfl⟩ := plain_cons hpl c b hb
    simp [plainBatch]
  refine .bind (.get ?_)
  rw [if_neg (by rintro ⟨-, hany⟩; exact absurd hany (by rw [hso]; decide))]
  exact .of_modify rfl

/-- What becomes of a batch `c` that was popped by a chain that keeps `rows`; the flag says
whether the loop goes on. -/
inductive Processed (env : Env) (s : Node F cfg calculateDecay) (rows : List GradidoRecord)
    (c : GradidoBatch) : Bool → Node F cfg calculateDecay → Prop
  | stored {st : Blockchain F} {l : Ledger} {tr : Transaction}
      (hnext : isNext cfg (lastStored rows) c.transaction.sequenceNumber = true)
      (hcalc : Ledger.calcFieldsAndUpdateIndexesFor calculateDecay env (Chain.recCount rows)
        s.fields c.transaction = .ready l tr)
      (hst : Keeps cfg.K st (rows ++ Chain.batch tr c.parts)) :
      Processed env s rows c true { s with storage := st, fields := l }
  | waits {st : Blockchain F} {l : Ledger} {request : Option (Bytes × HederaTimestamp)}
      (hnext : isNext cfg (lastStored rows) c.transaction.sequenceNumber = true)
      (hcalc : Ledger.calcFieldsAndUpdateIndexesFor calculateDecay env (Chain.recCount rows)
        s.fields c.transaction = .waiting l request)
      (hst : Keeps cfg.K st rows) :
      Processed env s rows c false { s with
        storage := st
        fields := l
        inbound := plainBatch c :: s.inbound
        out := s.out ++ Out.ofRequest request }
  | old {st : Blockchain F}
      (hnot : isNext cfg (lastStored rows) c.transaction.sequenceNumber = false)
      (hold : isOld (lastStored rows) c.transaction.sequenceNumber = true)
      (hst : Keeps cfg.K st rows) :
      Processed env s rows c true { s with storage := st }
  | hole {s' : Node F cfg calculateDecay}
      (hnot : isNext cfg (lastStored rows) c.transaction.sequenceNumber = false)
      (hnew : isOld (lastStored rows) c.transaction.sequenceNumber = false)
      (hstate : s'.state = .initial) (htiles : s'.storage.tiles = [])
      (hinbound : s'.inbound = plainBatch c :: s.inbound)
      (hout : s'.out = s.out ++ [.resetValidation "hole in seq_num",
        .continueValidation BLOCKCHAIN_RESET_TIMEOUT_SECONDS]) :
      Processed env s rows c false s'

theorem processRecords_returns (hK : cfg.K.RecCount = GRADIDO_BLOCK_SIZE)
    (h : Keeps cfg.K s.storage rows) (hpl : ∀ b ∈ s.inbound, ∃ c, b = plainBatch c)
    (c : GradidoBatch) (env : Env) (now : Nat)
    (hca : isNext cfg (lastStored rows) c.transaction.sequenceNumber = true → ∀ e,
      Ledger.calcFieldsAndUpdateIndexesFor calculateDecay env (Chain.recCount rows) s.fields
        c.transaction ≠ .failed e) :
    Returns (processRecords cfg env now c) s (Processed env s rows c) := by
  refine .bind (onStorage_returns ((latest_keeps hK h now).mono ?_))
  rintro r st ⟨rfl, hst⟩
  obtain ⟨cs, hcs⟩ := hst.holds
  have hcount : st.recCount = Chain.recCount rows := Chain.recCount_storage hK hcs
  show Returns (if isNext cfg (lastStored rows) c.transaction.sequenceNumber = true then _ else _) _ _
  split
  · rename_i hne
    refine .bind (.get ?_)
    dsimp only
    cases hready : Ledger.calcFieldsAndUpdateIndexesFor calculateDecay env (Chain.recCount rows)
        s.fields c.transaction with
    | ready l tr =>
      rw [calcBatch, hcount, hready]
      refine .bind (.of_modify (.bind ?_))
      refine onStorage_returns ((appendRecords_keeps now _ hst).mono ?_)
      rintro b st' ⟨-, hst'⟩
      exact .pure (.stored hne hready hst')
    | waiting l request =>
      rw [calcBatch, hcount, hready]
      refine .bind (.of_modify (.bind ?_))
      refine (pushInbound_plain (s := ({ s with
        storage := st, fields := l, out := s.out ++ Out.ofRequest request } :
        Node F cfg calculateDecay)) hpl c).mono ?_
      rintro _ s' rfl
      exact .pure (.waits hne hready hst)
    | failed e => exact absurd hready (hca hne e)
  · rename_i hnot
    have hnot' := Bool.eq_false_iff.mpr hnot
    split
    · rename_i hold
      exact .pure (.old hnot' hold hst)
    · rename_i hnew
      refine .bind ((pushInbound_plain (s := ({ s with storage := st } :
        Node F cfg calculateDecay)) hpl c).mono ?_)
      rintro _ s' rfl
      refine .bind (.of_modify (.pure ?_))
      exact .hole hnot' (Bool.eq_false_iff.mpr hnew) rfl rfl rfl rfl

theorem processRecords_processed (hK : cfg.K.RecCount = GRADIDO_BLOCK_SIZE)
    (h : Keeps cfg.K s.storage rows) (hpl : ∀ b ∈ s.inbound, ∃ c, b = plainBatch c)
    (c : GradidoBatch) (env : Env) (now : Nat) :
    Ensures (processRecords cfg env now c) s (Processed env s rows c) := by
  by_cases hfa : isNext cfg (lastStored rows) c.transaction.sequenceNumber = true ∧
      ∃ e, Ledger.calcFieldsAndUpdateIndexesFor calculateDecay env (Chain.recCount rows) s.fields
        c.transaction = .failed e
  · obtain ⟨hne, e, hfl⟩ := hfa
    refine .bind (onStorage_returns ((latest_keeps hK h now).mono ?_)).ensures
    rintro r st ⟨rfl, hst⟩
    obtain ⟨cs, hcs⟩ := hst.holds
    have hcount : st.recCount = Chain.recCount rows := Chain.recCount_storage hK hcs
    show Ensures (if isNext cfg (lastStored rows) c.transaction.sequenceNumber = true then _ else _)
      _ _
    rw [if_pos hne]
    refine .bind (.get ?_)
    dsimp only
    rw [calcBatch, hcount, hfl]
    exact .throw
  · exact (processRecords_returns hK h hpl c env now fun hne e he =>
      hfa ⟨hne, e, he⟩).ensures

/-- The batch with the next number is stored, or waits for its paired transaction. -/
theorem processRecords_next (hK : cfg.K.RecCount = GRADIDO_BLOCK_SIZE)
    (h : StoredAs cfg.K s.storage done) (hpl : ∀ b ∈ s.inbound, ∃ c, b = plainBatch c)
    {c : GradidoBatch} (hc : c.transaction.sequenceNumber = nextNumber done)
    (hne : number c ≠ 0) (env : Env) (now : Nat) :
    Ensures (processRecords cfg env now c) s fun goOn s' =>
      ∃ (st : Blockchain F) (fields : Ledger) (request : Option (Bytes × HederaTimestamp)),
        (goOn = true ∧ s' = { s with storage := st, fields := fields } ∧
          StoredAs cfg.K st (done ++ [c])) ∨
        (goOn = false ∧ s' = { s with
            storage := st
            fields := fields
            inbound := plainBatch c :: s.inbound
            out := s.out ++ Out.ofRequest request } ∧
          StoredAs cfg.K st done) := by
  obtain ⟨rows, hke, hro⟩ := h.rows
  have hnx : isNext cfg (lastStored rows) c.transaction.sequenceNumber = true := by
    rw [hc, lastStored_eq hro]
    exact isNext_nextNumber cfg done
  refine (processRecords_processed hK hke hpl c env now).mono fun goOn s' hpr => ?_
  cases hpr with
  | stored _ hca hst =>
    exact ⟨_, _, none, .inl ⟨rfl, rfl, h.snoc hro hst (Ledger.calc_applied hca).given_eq
      (number_of_next h.numbers hc hne)⟩⟩
  | waits _ hca hst => exact ⟨_, _, _, .inr ⟨rfl, rfl, ⟨rows, hst, hro⟩, h.numbers⟩⟩
  | old hnot | hole hnot => cases hnot.symm.trans hnx

end Batch

/-! ## The loop -/

section Loop

variable {s : Node F cfg calculateDecay}

/-- Batches with one and the same number are at most one batch. -/
theorem queue_of_same {q : List (Batch GradidoBatch)} {n : UInt64}
    (hpl : ∀ b ∈ q, ∃ c, b = plainBatch c)
    (hsa : ∀ c ∈ contents q, c.transaction.sequenceNumber = n)
    (hno : ((contents q).map number).Nodup) :
    q = [] ∨ ∃ c, q = [plainBatch c] ∧ c.transaction.sequenceNumber = n := by
  match q with
  | [] => exact .inl rfl
  | [b] =>
    obtain ⟨c, rfl⟩ := hpl b (List.mem_singleton.mpr rfl)
    exact .inr ⟨c, rfl, hsa c (List.mem_singleton.mpr rfl)⟩
  | b :: b' :: q =>
    obtain ⟨c, rfl⟩ := hpl b (by simp)
    obtain ⟨c', rfl⟩ := hpl b' (by simp)
    have hc := hsa c (by simp [contents, plainBatch])
    have hc' := hsa c' (by simp [contents, plainBatch])
    have heq : number c = number c' := by rw [number, number, hc, hc']
    exact absurd hno (by simp [contents, plainBatch, heq])

theorem transactionsLoop_nil (h : s.inbound = []) (env : Env) (now fuel : Nat) :
    Returns (transactionsLoop cfg env now fuel) s fun _ s' => s' = s := by
  cases fuel with
  | zero => exact .pure rfl
  | succ fuel =>
    refine .bind (.get ?_)
    rw [h]
    exact .pure rfl

theorem out_append_nil (s : Node F cfg calculateDecay) :
    s = { s with out := s.out ++ Out.ofRequest none } := by
  rw [show s.out ++ Out.ofRequest none = s.out from List.append_nil _]

theorem transactionsLoop_next (hK : cfg.K.RecCount = GRADIDO_BLOCK_SIZE)
    (h : StoredAs cfg.K s.storage done) (hpl : ∀ b ∈ s.inbound, ∃ c, b = plainBatch c)
    (hnx : ∀ c ∈ contents s.inbound, c.transaction.sequenceNumber = nextNumber done)
    (hnu : Numbered (contents s.inbound)) (env : Env) (now fuel : Nat) :
    Ensures (transactionsLoop cfg env now fuel) s fun _ s' =>
      ∃ (st : Blockchain F) (fields : Ledger) (q : List (Batch GradidoBatch))
        (request : Option (Bytes × HederaTimestamp)) (done' : List GradidoBatch),
        s' = { s with
            storage := st
            fields := fields
            inbound := q
            out := s.out ++ Out.ofRequest request } ∧
          StoredAs cfg.K st done' ∧ (∀ b ∈ q, ∃ c, b = plainBatch c) ∧
          (done' ++ contents q).Perm (done ++ contents s.inbound) := by
  rcases queue_of_same hpl hnx hnu.1 with hnil | ⟨c, hq, hc⟩
  · refine ((transactionsLoop_nil hnil env now fuel).mono ?_).ensures
    rintro _ s' rfl
    exact ⟨_, _, _, none, done, out_append_nil s', h, hpl, .refl _⟩
  · cases fuel with
    | zero => exact .pure ⟨_, _, _, none, done, out_append_nil s, h, hpl, .refl _⟩
    | succ fuel =>
      have hne : number c ≠ 0 := by
        intro h0
        exact hnu.2 (by rw [hq]; simp [contents, plainBatch, h0])
      refine .bind (.get ?_)
      rw [hq]
      refine .bind (.of_modify (.bind ?_))
      refine (processRecords_next (s := { s with inbound := [] }) hK h
        (by intro b hb; cases hb) hc hne env now).mono ?_
      rintro goOn s' ⟨st, fields, request, ⟨rfl, rfl, hst⟩ | ⟨rfl, rfl, hst⟩⟩
      · -- stored: the queue is empty now
        rw [if_pos rfl]
        refine ((transactionsLoop_nil rfl env now fuel).mono ?_).ensures
        rintro _ s' rfl
        refine ⟨st, fields, [], none, _, out_append_nil _, hst, (by intro b hb; cases hb), ?_⟩
        simp [contents, plainBatch]
      · -- waiting: back in the queue
        rw [if_neg (by decide)]
        refine .pure ⟨st, fields, [plainBatch c], request, done, rfl, hst, ?_, .refl _⟩
        intro b hb
        exact ⟨c, List.mem_singleton.mp hb⟩

end Loop

/-! ## One event -/

section Step

variable {s s' : Node F cfg calculateDecay} {ds : List GradidoBatch}

/-- Of batches that arrived numbered, those in the queue are. -/
theorem Numbered.of_perm {queue : List GradidoBatch} (h : Numbered ds)
    (hpe : (done ++ queue).Perm ds) : Numbered queue := by
  have hmap := hpe.map number
  rw [List.map_append] at hmap
  constructor
  · exact (List.nodup_append.mp (hmap.nodup_iff.mpr h.1)).2.1
  · intro h0
    exact h.2 (hmap.mem_iff.mp (List.mem_append_right _ h0))

/-- `continue_with_transactions` keeps the invariant if only the next batch waits. -/
theorem Ingested.continueWith (hK : cfg.K.RecCount = GRADIDO_BLOCK_SIZE) (h : Ingested cfg ds s)
    (hnu : Numbered ds) (env : Env) (now : Nat)
    (hnx : s.state = .ready →
      ∀ c ∈ contents s.inbound, c.transaction.sequenceNumber = expected cfg now s) :
    Ensures (continueWithTransactions cfg env now) s fun _ s' => Ingested cfg ds s' := by
  refine .bind (.get ?_)
  by_cases hready : s.state = .ready
  · rw [if_neg (not_not.mpr hready)]
    obtain ⟨done, hst, hpe, -⟩ := h.stored
    refine .bind ((transactionsLoop_next hK hst h.plain ?_ (hnu.of_perm hpe) env now
      cfg.batchSize).mono ?_)
    · intro c hc
      rw [← hst.expected_eq hK now]
      exact hnx hready c hc
    · rintro ended s' ⟨st, fields, q, request, done', rfl, hst', hpl', hpe'⟩
      have hdo : Ingested cfg ds ({ s with
          storage := st, fields := fields, inbound := q, out := s.out ++ Out.ofRequest request } :
          Node F cfg calculateDecay) := by
        refine ⟨⟨done', hst', hpe'.trans hpe, ?_⟩, hpl', ?_, h.fetching, h.fetchingBlocks⟩
        · intro hne
          exact absurd hready hne
        · intro cause hmem
          rcases List.mem_append.mp hmem with hmem | hmem
          · exact h.noReset cause hmem
          · cases request <;> simp [Out.ofRequest] at hmem
      refine .bind (.get ?_)
      split
      · refine .of_modify ⟨hdo.stored, hdo.plain, ?_, hdo.fetching, hdo.fetchingBlocks⟩
        intro cause hmem
        rcases List.mem_append.mp hmem with hmem | hmem
        · exact hdo.noReset cause hmem
        · simp at hmem
      · exact .pure hdo
  · rw [if_pos hready]
    exact .pure h

theorem Ingested.add (hK : cfg.K.RecCount = GRADIDO_BLOCK_SIZE) (h : Ingested cfg ds s)
    (b : GradidoBatch) (hnu : Numbered (ds ++ [b])) (env : Env) (now : Nat)
    (hne : s.state = .ready →
      ∀ c ∈ b :: contents s.inbound, c.transaction.sequenceNumber = expected cfg now s) :
    Ensures (addTransaction cfg env now (plainBatch b)) s
      fun _ s' => Ingested cfg (ds ++ [b]) s' := by
  refine .bind ((pushInbound_plain h.plain b).mono ?_).ensures
  rintro _ s' rfl
  obtain ⟨done, hst, hpe, hdo⟩ := h.stored
  have hpu : Ingested cfg (ds ++ [b])
      ({ s with inbound := plainBatch b :: s.inbound } : Node F cfg calculateDecay) := by
    refine ⟨⟨done, hst, ?_, hdo⟩, plain_cons h.plain b, h.noReset, h.fetching, h.fetchingBlocks⟩
    exact (List.perm_middle.trans (hpe.cons b)).trans (List.perm_append_singleton b ds).symm
  exact hpu.continueWith hK hnu env now hne

theorem Ingested.empty (h : Ingested cfg ds s) (hsta : s.state ≠ .ready) :
    StoredAs cfg.K s.storage [] ∧ (contents s.inbound).Perm ds ∧ Keeps cfg.K s.storage [] := by
  obtain ⟨done, hst, hpe, hdo⟩ := h.stored
  obtain rfl := hdo hsta
  obtain ⟨rows, hke, hro⟩ := hst.rows
  obtain rfl : rows = [] := List.map_eq_nil_iff.mp hro
  exact ⟨hst, hpe, hke⟩

/-- A call that only moves the chain on, and resets nothing. -/
theorem Ingested.moveOn (h : Ingested cfg ds s) (hsta : s.state ≠ .ready)
    (hsr : s'.storage = s.storage) (hinbound : s'.inbound = s.inbound) {o : Out}
    (hout : s'.out = s.out ++ [o] ∨ s'.out = s.out) (ho : ∀ cause, o ≠ .resetValidation cause)
    (hfe : s'.state = .fetchingChecksums ∨ s'.state = .fetchingBlocks →
      s'.fetchedRecordCount = 0 ∧ s'.fetchedChecksums = [])
    (hbl : s'.state = .fetchingBlocks → s'.blockToFetch = 0 ∧ s'.fetchedDataCount = 0) :
    Ingested cfg ds s' := by
  obtain ⟨hst, hpe, -⟩ := h.empty hsta
  refine ⟨⟨[], ?_, ?_, fun _ => rfl⟩, ?_, ?_, hfe, hbl⟩
  · rw [hsr]
    exact hst
  · rw [hinbound]
    exact hpe
  · rw [hinbound]
    exact h.plain
  · intro cause hmem
    rcases hout with hout | hout
    · rw [hout] at hmem
      rcases List.mem_append.mp hmem with hmem | hmem
      · exact h.noReset cause hmem
      · exact ho cause (List.mem_singleton.mp hmem).symm
    · rw [hout] at hmem
      exact h.noReset cause hmem

theorem addIndexData_empty (h : Keeps cfg.K s.storage []) (now : Nat) :
    Returns (Base.addIndexData now) s fun added s' =>
      added = true ∧ ∃ fields : Ledger, s' = { s with fields := fields } := by
  have hva : s.storage.checksumValidBlockCount = 0 := by
    rw [h.valid_eq, h.tiles_length]
    simp [blockCount]
  refine .bind (.get (.bind (onStorage_returns ?_)))
  refine .bind (.bind (.get ?_))
  rw [hva, Nat.zero_sub]
  exact .pure (.pure (.bind (.of_modify (.pure ⟨rfl, _, rfl⟩))))

theorem Ingested.validation (h : Ingested cfg ds s) (sibling : Option String) (now : Nat) :
    Ensures (continueValidation cfg sibling now) s fun _ s' => Ingested cfg ds s' := by
  refine .bind (.get ?_)
  cases hst : s.state with
  | initial =>
    have hne : s.state ≠ .ready := by rw [hst]; decide
    obtain ⟨-, -, hke⟩ := h.empty hne
    have hlen : ¬ 0 < s.storage.tiles.length := by
      rw [hke.tiles_length]
      simp [blockCount]
    rw [if_neg hlen]
    cases sibling with
    | some endpoint =>
      exact .of_modify (h.moveOn hne rfl rfl (.inl rfl) (fun _ => Out.noConfusion)
        (fun _ => ⟨rfl, rfl⟩) (fun hb => by cases hb))
    | none =>
      exact .of_modify (h.moveOn hne rfl rfl (.inl rfl) (fun _ => Out.noConfusion)
        (fun hf => by rcases hf with hf | hf <;> cases hf) (fun hb => by cases hb))
  | validating =>
    have hne : s.state ≠ .ready := by rw [hst]; decide
    obtain ⟨-, -, hke⟩ := h.empty hne
    refine .bind (.get ?_)
    rw [if_pos hke.valid_eq]
    refine .bind (.of_modify (.bind ?_))
    refine ((addIndexData_empty (s := { s with state := .ready }) hke now).mono ?_).ensures
    rintro added s' ⟨rfl, fields, rfl⟩
    rw [if_pos rfl]
    exact .pure (h.moveOn (o := .continueTransactions) hne rfl rfl (.inr rfl)
      (fun _ => Out.noConfusion) (fun hf => by rcases hf with hf | hf <;> cases hf)
      (fun hb => by cases hb))
  | fetchingChecksums | fetchingBlocks | ready => exact .throw

theorem Ingested.checksumsEnd (h : Ingested cfg ds s) : Ensures (onBlockChecksum cfg none) s
      fun _ s' => Ingested cfg ds s' := by
  refine .bind (.get ?_)
  by_cases hst : s.state = .fetchingChecksums
  · rw [if_neg (not_not.mpr hst)]
    refine .bind (.of_modify (.bind (.get (.of_modify ?_))))
    exact h.moveOn (by rw [hst]; decide) rfl rfl (.inl rfl) (fun _ => Out.noConfusion)
      (fun _ => h.fetching (.inl hst)) (fun _ => ⟨rfl, rfl⟩)
  · rw [if_pos hst]
    exact .throw

/-- Nothing was announced and nothing came: the chain validates what it has. -/
theorem Ingested.recordsEnd (h : Ingested cfg ds s) (now : Nat) :
    Ensures (onBlockRecord cfg none now) s fun _ s' => Ingested cfg ds s' := by
  refine .bind (.get ?_)
  by_cases hst : s.state = .fetchingBlocks
  · rw [if_neg (not_not.mpr hst)]
    obtain ⟨hcount, hch⟩ := h.fetching (.inr hst)
    obtain ⟨hblock, hda⟩ := h.fetchingBlocks hst
    refine .bind (.get ?_)
    rw [if_pos (by rw [hblock, hch]; rfl), if_neg (by rw [hda, hcount]; simp)]
    refine .of_modify (h.moveOn (by rw [hst]; decide) rfl rfl (.inl rfl)
      (fun _ => Out.noConfusion) ?_ ?_)
    · rintro (hf | hf) <;> cases hf
    · intro hf
      cases hf
  · rw [if_pos hst]
    exact .throw

theorem Ingested.pairedDone (h : Ingested cfg ds s) (t : Transaction) :
    Ensures (onPairedTransactionDone t : BaseM (child F cfg.K calculateDecay) Unit) s
      fun _ s' => Ingested cfg ds s' := by
  refine .of_modify ⟨h.stored, h.plain, ?_, h.fetching, h.fetchingBlocks⟩
  intro cause hmem
  rcases List.mem_append.mp hmem with hmem | hmem
  · exact h.noReset cause hmem
  · simp at hmem

theorem Ingested.step (hK : cfg.K.RecCount = GRADIDO_BLOCK_SIZE) (h : Ingested cfg ds s) (e : Event)
    (hnu : Numbered (ds ++ (deliveredBy e).toList)) (hne : OnlyNext cfg s e)
    (hs : step cfg s e = some s') : Ingested cfg (ds ++ (deliveredBy e).toList) s' := by
  have hca := call_of_step hs
  cases e with
  | addTransaction env now b => exact h.add hK b hnu env now hne () s' hca
  | continueWithTransactions env now =>
    simp only [deliveredBy, Option.toList_none, List.append_nil] at hnu ⊢
    exact h.continueWith hK hnu env now hne () s' hca
  | continueValidation sibling now =>
    simp only [deliveredBy, Option.toList_none, List.append_nil]
    exact h.validation sibling now () s' hca
  | blockChecksumsEnd =>
    simp only [deliveredBy, Option.toList_none, List.append_nil]
    exact h.checksumsEnd () s' hca
  | blockRecordsEnd now =>
    simp only [deliveredBy, Option.toList_none, List.append_nil]
    exact h.recordsEnd now () s' hca
  | pairedTransactionDone t =>
    simp only [deliveredBy, Option.toList_none, List.append_nil]
    exact h.pairedDone t () s' hca

end Step

/-! ## Whole runs -/

theorem Ingested.run (hK : cfg.K.RecCount = GRADIDO_BLOCK_SIZE) :
    ∀ (es : List Event) {s s' : Node F cfg calculateDecay} {ds : List GradidoBatch},
      Ingested cfg ds s → Numbered (ds ++ delivered es) → Along (Ingest.step cfg) (OnlyNext cfg) s es →
      Lib.run (Ingest.step cfg) s es = some s' → Ingested cfg (ds ++ delivered es) s' := by
  intro es
  induction es with
  | nil =>
    intro s s' ds h hnu hne hrun
    cases hrun
    rw [delivered, List.filterMap_nil, List.append_nil]
    exact h
  | cons e es ih =>
    intro s s' ds h hnu hne hrun
    obtain ⟨t, ht, hrun⟩ := run_cons hrun
    have hco : delivered (e :: es) = (deliveredBy e).toList ++ delivered es := by
      rw [delivered, List.filterMap_cons]
      cases deliveredBy e <;> rfl
    rw [hco, ← List.append_assoc] at hnu ⊢
    have hfi : Numbered (ds ++ (deliveredBy e).toList) := by
      constructor
      · have hno := hnu.1
        rw [List.map_append] at hno
        exact (List.nodup_append.mp hno).1
      · intro h0
        refine hnu.2 ?_
        rw [List.map_append]
        exact List.mem_append_left _ h0
    exact ih (h.step hK e hfi hne.1 ht) hnu (hne.2 t ht) hrun

/-- Batches numbered `1 .. n` in some order. -/
theorem numbered_of_perm {ds : List GradidoBatch} {n : Nat}
    (h : (ds.map number).Perm (List.range' 1 n)) : Numbered ds := by
  constructor
  · exact h.nodup_iff.mpr List.nodup_range'
  · intro h0
    have := List.mem_range'_1.mp (h.mem_iff.mp h0)
    omega

/-- **In-order, loss-free ingestion, while only the next batch is queued.**  Of batches
`1 .. n`, delivered by `es` and by what is still to come, the chain has stored an
initial part, in order; every other batch delivered is in the queue; nothing has been
reset.  Once all are delivered and the queue is empty, `1 .. n` are stored. -/
theorem ingestion (F : RowFormat GradidoRecord) (cfg : Conf) (calculateDecay : DecayFunction)
    (hK : cfg.K.RecCount = GRADIDO_BLOCK_SIZE) (es later : List Event) (n : Nat)
    (hdelivered : ((delivered (es ++ later)).map number).Perm (List.range' 1 n))
    (hnext : Along (step cfg) (OnlyNext cfg) (start F cfg calculateDecay) es)
    (s : Node F cfg calculateDecay)
    (hrun : run (step cfg) (start F cfg calculateDecay) es = some s) :
    (∀ cause, .resetValidation cause ∉ s.out) ∧
    ∃ done rows, Keeps cfg.K s.storage rows ∧
      rows.map GradidoRecord.given = done.flatMap givenRecords ∧
      done.map number = List.range' 1 done.length ∧
      (done ++ contents s.inbound).Perm (delivered es) ∧
      (delivered later = [] → s.inbound = [] → done.length = n) := by
  have hsp : delivered (es ++ later) = delivered es ++ delivered later := List.filterMap_append
  have hnu : Numbered ([] ++ delivered es) := by
    have hall := numbered_of_perm hdelivered
    rw [hsp] at hall
    exact hall.of_perm (List.perm_append_comm)
  have h := Ingested.run hK es (ingested_start cfg) hnu hnext hrun
  obtain ⟨done, hst, hpe, -⟩ := h.stored
  obtain ⟨rows, hke, hro⟩ := hst.rows
  refine ⟨h.noReset, done, rows, hke, hro, hst.numbers, hpe, ?_⟩
  intro hla hem
  rw [hsp, hla, List.append_nil] at hdelivered
  rw [hem] at hpe
  have hlen := ((hpe.map number).trans hdelivered).length_eq
  simpa [contents] using hlen

/-! ## Two runs -/

instance (cfg : Conf) (s : Node F cfg calculateDecay) (e : Event) : Decidable (OnlyNext cfg s e) := by
  unfold OnlyNext
  split <;> infer_instance

/-- A group chain that takes ten batches at a time. -/
def tenAtATime : Conf := ⟨groupParams, "group", 10, false⟩

/-- Batch `n` adds user `n`. -/
def addUserBatch (n : UInt8) : GradidoBatch :=
  ⟨⟨n.toUInt64, HederaTimestamp.zero, .addUser (Chain.key n), .unknown⟩, []⟩

/-- The chain of the two runs. -/
abbrev sampleStart : Node (digestFormat GradidoRecord) tenAtATime Chain.keepNormalised :=
  start (digestFormat GradidoRecord) tenAtATime Chain.keepNormalised

/-- Batch 1 while the chain starts, batch 2 when it is ready. -/
def oneByOne : List Event :=
  [.addTransaction Chain.noChains 0 (addUserBatch 1), .continueValidation none 0,
    .continueWithTransactions Chain.noChains 0, .addTransaction Chain.noChains 0 (addUserBatch 2)]

/-- Delivered one by one, both batches are stored. -/
theorem ingestion_oneByOne : ∃ s, run (step tenAtATime) sampleStart oneByOne = some s ∧
      (∀ cause, .resetValidation cause ∉ s.out) ∧
      ∃ (done : List GradidoBatch) (rows : List GradidoRecord), Keeps tenAtATime.K s.storage rows ∧
        rows.map GradidoRecord.given = done.flatMap givenRecords ∧
        done.map number = List.range' 1 2 := by
  obtain ⟨s, hs, hem⟩ : ∃ s, run (step tenAtATime) sampleStart oneByOne = some s ∧
      s.inbound.length = 0 := by decide +kernel
  obtain ⟨hre, done, rows, hke, hro, hnu, -, hall⟩ := ingestion
    (digestFormat GradidoRecord) tenAtATime Chain.keepNormalised rfl oneByOne [] 2 (by decide)
    (by decide +kernel) s hs
  rw [hall rfl (List.length_eq_zero_iff.mp hem)] at hnu
  exact ⟨s, hs, hre, done, rows, hke, hro, hnu⟩

/-- Batches 1 and 2 while the chain starts. -/
def bothBuffered : List Event :=
  [.addTransaction Chain.noChains 0 (addUserBatch 1),
    .addTransaction Chain.noChains 0 (addUserBatch 2), .continueValidation none 0]

/-- Batches 1 and 2 are in the queue, 1 is expected, and the chain resets itself;
nothing is stored. -/
theorem buffered_pair_resets : ((delivered bothBuffered).map number).Perm (List.range' 1 2) ∧
    ∃ s s', run (step tenAtATime) sampleStart bothBuffered = some s ∧
      expected tenAtATime 0 s = 1 ∧ addUserBatch 1 ∈ contents s.inbound ∧
      (∀ cause, .resetValidation cause ∉ s.out) ∧
      step tenAtATime s (.continueWithTransactions Chain.noChains 0) = some s' ∧
      .resetValidation "hole in seq_num" ∈ s'.out ∧ s'.storage.recCount = 0 := by
  refine ⟨by decide, ?_⟩
  obtain ⟨s, hs, hout, hep, hqu, s', hs', hre⟩ : ∃ s,
      run (step tenAtATime) sampleStart bothBuffered = some s ∧ s.out = [.continueTransactions] ∧
      expected tenAtATime 0 s = 1 ∧ addUserBatch 1 ∈ contents s.inbound ∧
      ∃ s', step tenAtATime s (.continueWithTransactions Chain.noChains 0) = some s' ∧
        .resetValidation "hole in seq_num" ∈ s'.out ∧ s'.storage.recCount = 0 := by decide +kernel
  refine ⟨s, s', hs, hep, hqu, ?_, hs', hre⟩
  intro cause hmem
  rw [hout] at hmem
  simp at hmem

end Ingest

end GradidoNode
