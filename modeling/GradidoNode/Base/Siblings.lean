/-
# `GradidoNode.Base.Siblings` — a receiver and whatever a sibling sends

A chain without blocks asks a sibling for its checksums, then for one block after the
other.  Each request opens a stream; the sibling sends on it what it likes, in any
interleaving with the other streams, and ends it with a message without success.
`System` is the receiver and the number of its open streams of either kind.

A message that finds the chain in another state than FETCHING_CHECKSUMS or
FETCHING_BLOCKS is an exception, and an exception in a worker exits the process.  So
everything depends on the streams: a stream of checksums should be open just while the
state is FETCHING_CHECKSUMS, a stream of blocks just while it is FETCHING_BLOCKS
(`Listening`).  Three things break that or the call:

* a checksum behind one of a block that is not full makes the chain reset itself with
  the stream still open, and the next message of the stream throws
  (`unexpected_checksum_throws`);
* after a reset with rows stored, `truncate` has left `rec_count` as it was, and the
  first row of the next attempt is appended to a tile that is not there;
* a record with fewer bytes than a payload is read past its end.

Without these no message throws (`sibling_tolerated`).
-/
import GradidoNode.Base.Calls
import GradidoNode.Base.Sync
import GradidoNode.Ledger.Spending

namespace GradidoNode.Siblings

open Lib Blockchain Base Sync

variable {T : Type} {F : RowFormat T} {C : Child F}

/-! ## Messages -/

/-- A `BlockRecord`: the end of the stream, a record with the bytes of a row behind its
type, or a record with fewer bytes than `sizeof(T)`. -/
inductive Reply (F : RowFormat T) where
  | ended
  | record (body : F.Body)
  | short

/-- Whether the next record is stored: it is not the last of its block, nor of all. -/
def ToBeStored (s : Base C) : Prop :=
  s.fetchedDataCount % GRADIDO_BLOCK_SIZE < GRADIDO_BLOCK_SIZE - 1 ∧
    s.fetchedDataCount + 1 < s.fetchedRecordCount

instance (s : Base C) : Decidable (ToBeStored s) :=
  inferInstanceAs (Decidable (_ ∧ _))

/-- `on_block_record`, with a record that is too short: `memcpy` reads past its end. -/
def onShortRecord : BaseM C Unit := do
  let s ← get
  if s.state ≠ .fetchingBlocks then
    throw (.thrown "group register on_block_record(): wrong state")
  else if ToBeStored s then throw (.undefined "memcpy past the end of the record")
  else modify fun s => { s with fetchedDataCount := s.fetchedDataCount + 1 }

/-- `on_block_record`. -/
def onReply (cfg : Conf) (now : Nat) : Reply F → BaseM C Unit
  | .ended => onBlockRecord cfg none now
  | .record body => onBlockRecord cfg (some body) now
  | .short => onShortRecord

/-! ## The system -/

/-- A receiver, and the streams it has open. -/
structure System (C : Child F) where
  chain : Base C
  checksumStreams : Nat
  blockStreams : Nat

def opensChecksums : Out → Bool
  | .requireBlockChecksums _ => true
  | _ => false

def opensBlocks : Out → Bool
  | .requireBlockData _ _ => true
  | _ => false

/-- A call on the chain; the streams it requires are opened. -/
def perform (call : BaseM C Unit) (s : System C) : Option (System C) :=
  match call { s.chain with out := [] } with
  | .ok _ chain => some ⟨chain, s.checksumStreams + chain.out.countP opensChecksums,
      s.blockStreams + chain.out.countP opensBlocks⟩
  | .error _ _ => none

/-- What happens to a receiver. -/
inductive Event (F : RowFormat T) where
  | continueValidation (sibling : Option String) (now : Nat)
  | blockChecksum (bc : Option (BlockInfo F))
  | blockRecord (r : Reply F) (now : Nat)

/-- The call an event is. -/
def call (cfg : Conf) : Event F → BaseM C Unit
  | .continueValidation sibling now => continueValidation cfg sibling now
  | .blockChecksum bc => onBlockChecksum cfg bc
  | .blockRecord r now => onReply cfg now r

/-- The event is a message on an open stream. -/
def Arrives (s : System C) : Event F → Prop
  | .continueValidation _ _ => False
  | .blockChecksum _ => 0 < s.checksumStreams
  | .blockRecord _ _ => 0 < s.blockStreams

/-- Whether a `BlockRecord` is without success. -/
def Reply.isEnd : Reply F → Bool
  | .ended => true
  | _ => false

/-- One event.  A message needs an open stream, which its last message closes; a call that
fails ends the run. -/
def step (cfg : Conf) (s : System C) (e : Event F) : Option (System C) :=
  match e with
  | .continueValidation _ _ => perform (call cfg e) s
  | .blockChecksum bc =>
    if 0 < s.checksumStreams then
      perform (call cfg e) { s with checksumStreams := s.checksumStreams - bc.isNone.toNat }
    else none
  | .blockRecord r _ =>
    if 0 < s.blockStreams then
      perform (call cfg e) { s with blockStreams := s.blockStreams - r.isEnd.toNat }
    else none

/-! ## The condition -/

/-- No checksum behind one of a block that is not full; a record that is stored has the
bytes of a payload, and is not stored behind rows that were dropped. -/
def Tolerable (s : System C) : Event F → Prop
  | .blockChecksum (some _) => s.chain.fetchedChecksumExpectingLast = false
  | .blockRecord (.record _) _ => ToBeStored s.chain → s.chain.storage.tiles = [] →
      s.chain.storage.recCount = 0
  | .blockRecord .short _ => ¬ ToBeStored s.chain
  | _ => True

/-! ## The storage of a receiver -/

/-- The storage has been truncated with rows in it: its counters are still theirs. -/
structure Stale (st : Blockchain F) : Prop where
  tiles : st.tiles = []
  recCount : st.recCount ≠ 0
  valid : st.checksumValidBlockCount ≠ 0

/-- A storage in order, or one that was truncated with rows in it. -/
def Stored (K : Params) (st : Blockchain F) : Prop := (∃ rows, Keeps K st rows) ∨ Stale st

variable {K : Params} {st : Blockchain F} {rows : List T}

theorem truncate_zero (st : Blockchain F) : truncate 0 st = { st with tiles := [] } := rfl

/-- What `truncate(0)` makes of a storage in order. -/
theorem stored_truncate_keeps (h : Keeps K st rows) : Stored K (truncate 0 st) := by
  rw [truncate_zero]
  by_cases hnil : rows = []
  · subst hnil
    have htl : st.tiles = [] := List.length_eq_zero_iff.mp (by rw [h.tiles_length]; simp [blockCount])
    refine .inl ⟨[], ?_⟩
    rw [← htl]
    exact h
  · have hpos : 0 < rows.length := List.length_pos_iff.mpr hnil
    have hbl : 0 < blockCount K rows.length := by
      rw [Nat.pos_iff_ne_zero]
      intro hze
      obtain ⟨cs, hcs⟩ := h.holds
      have hlen := hcs.length_le
      rw [hcs.tiles_length, hze, Nat.zero_mul] at hlen
      omega
    refine .inr ⟨rfl, ?_, ?_⟩
    · show st.recCount ≠ 0
      rw [h.recCount_eq, rowCount]
      omega
    · show st.checksumValidBlockCount ≠ 0
      rw [h.valid_eq, h.tiles_length]
      omega

theorem stored_truncate (h : Stored K st) : Stored K (truncate 0 st) := by
  rcases h with ⟨rows, h⟩ | h
  · exact stored_truncate_keeps h
  · exact .inr ⟨rfl, h.recCount, h.valid⟩

/-- Nothing is validated in a storage that was truncated. -/
theorem validateNextChecksum_stale (h : Stale st) (now : Nat) :
    validateNextChecksum K now st = .ok (false, .ok) st := by
  have hfl : maybeFlushCache K now st = st := by
    rw [maybeFlushCache]
    split
    · rw [flushCache, if_pos (by rw [h.tiles]; rfl)]
    · rfl
  rw [validateNextChecksum, modify_bind, hfl, get_bind, if_pos (by rw [h.tiles]; exact Nat.zero_le _)]
  rfl

/-- `add_index_data` of the child leaves a storage in order as it is. -/
def ReadsOnly (C : Child F) (K : Params) : Prop :=
  ∀ (indexed now : Nat) (fields : C.Fields) (st : Blockchain F) (rows : List T), Keeps K st rows →
    Ensures (C.addIndexData indexed now fields) st fun _ st' => Keeps K st' rows

variable {cfg : Conf} {chain chain' : Base C}

/-- The end of a validation: the chain is ready, or its storage is as a reset leaves it. -/
theorem validateNextBatch_stored (hre : ReadsOnly C cfg.K) (h : Stored cfg.K chain.storage)
    (now : Nat) :
    Ensures (validateNextBatch cfg now : BaseM C Unit) chain fun _ chain' =>
      chain'.state ≠ .ready → Stored cfg.K chain'.storage := by
  refine .bind (.get ?_)
  rcases h with ⟨rows, hke⟩ | hst
  · rw [if_pos hke.valid_eq]
    refine .bind (.of_modify (.bind ?_))
    refine .bind (.get (.bind ((onStorage_ensures _).mono ?_)))
    rintro ⟨added, fields⟩ s₁ ⟨st, hadd, rfl⟩
    have hke' : Keeps cfg.K st rows := hre _ _ _ _ rows hke _ _ hadd
    refine .bind (.of_modify (.pure ?_))
    split
    · exact .pure fun hne => absurd rfl hne
    · exact .of_modify fun _ => stored_truncate_keeps hke'
  · rw [if_neg (by rw [hst.tiles]; exact hst.valid)]
    refine .bind ((onStorage_ensures _).mono ?_)
    rintro r s₁ ⟨st, hva, rfl⟩
    rw [validateNextChecksum_stale hst] at hva
    cases hva
    exact .of_modify fun _ => stored_truncate (.inr hst)

theorem continueValidation_stored (hre : ReadsOnly C cfg.K)
    (h : chain.state ≠ .ready → Stored cfg.K chain.storage) (sibling : Option String) (now : Nat) :
    Ensures (continueValidation cfg sibling now : BaseM C Unit) chain fun _ chain' =>
      chain'.state ≠ .ready → Stored cfg.K chain'.storage := by
  refine .bind (.get ?_)
  cases hsta : chain.state with
  | initial =>
    have hst := h (by rw [hsta]; decide)
    dsimp only
    split
    · exact .of_modify fun _ => hst
    · cases sibling with
      | some endpoint | none => exact .of_modify fun _ => hst
  | validating => exact validateNextBatch_stored hre (h (by rw [hsta]; decide)) now
  | fetchingChecksums | fetchingBlocks | ready => exact .throw

/-! ## Messages in the state that expects them -/

/-- The streams of either kind that a state needs. -/
def checksumsOpen : State → Nat
  | .fetchingChecksums => 1
  | _ => 0

def blocksOpen : State → Nat
  | .fetchingBlocks => 1
  | _ => 0

/-- What a message that was taken did; the flag says whether it ended its stream.  One that
goes on leaves the state as it is and opens nothing; the end of one opens what its new state
needs, and the storage is still one of a receiver. -/
structure Taken (cfg : Conf) (chain : Base C) (ended : Bool) (chain' : Base C) : Prop where
  received : Received chain chain'
  stored : Stored cfg.K chain'.storage
  goesOn : ended = false → chain'.state = chain.state ∧ chain'.out = chain.out
  ends : ended = true → ∃ new, chain'.out = chain.out ++ new ∧ new.countP opensChecksums = 0 ∧
    checksumsOpen chain'.state = 0 ∧ new.countP opensBlocks = blocksOpen chain'.state

theorem Taken.collects (hst : chain'.state = chain.state) (hout : chain'.out = chain.out)
    (hsr : Stored cfg.K chain'.storage) : Taken cfg chain false chain' :=
  ⟨.collects hst hout, hsr, fun _ => ⟨hst, hout⟩, nofun⟩

theorem Taken.requests {endpoint : String} {block : Nat} (hst : chain'.state = .fetchingBlocks)
    (hout : chain'.out = chain.out ++ [.requireBlockData endpoint block])
    (hsr : Stored cfg.K chain'.storage) : Taken cfg chain true chain' :=
  ⟨.requests hst hout, hsr, nofun, fun _ => ⟨_, hout, rfl, by rw [hst]; rfl, by rw [hst]; rfl⟩⟩

theorem onBlockChecksum_taken (hsta : chain.state = .fetchingChecksums)
    (hst : Stored cfg.K chain.storage) (bc : Option (BlockInfo F))
    (hla : bc ≠ none → chain.fetchedChecksumExpectingLast = false) :
    Returns (onBlockChecksum cfg bc : BaseM C Unit) chain fun _ chain' =>
      Taken cfg chain bc.isNone chain' := by
  cases bc with
  | none => exact ⟨_, _, onBlockChecksum_end hsta, .requests rfl rfl hst⟩
  | some bi =>
    exact ⟨_, _, onBlockChecksum_next hsta (hla (by simp)) bi, .collects rfl rfl hst⟩

theorem onBlockRecord_end_taken (hsta : chain.state = .fetchingBlocks)
    (hst : Stored cfg.K chain.storage) (now : Nat) :
    Returns (onBlockRecord cfg none now : BaseM C Unit) chain fun _ chain' =>
      Taken cfg chain true chain' := by
  have hre : ∀ cause, Returns (resetValidation cause : BaseM C Unit) chain fun _ chain' =>
      Taken cfg chain true chain' := fun cause =>
    .of_modify ⟨.resets ⟨rfl, cause, rfl⟩, stored_truncate hst, nofun,
      fun _ => ⟨_, rfl, rfl, rfl, rfl⟩⟩
  refine .bind (.get ?_)
  rw [if_neg (not_not.mpr hsta)]
  refine .bind (.get ?_)
  split
  · split
    · exact hre _
    · exact .of_modify ⟨.validates rfl rfl, hst, nofun, fun _ => ⟨_, rfl, rfl, rfl, rfl⟩⟩
  · split
    · exact hre _
    · refine .bind (.of_modify (.bind (.get ?_)))
      exact .of_modify (.requests hsta rfl hst)

/-- A record: appended to a storage in order, or counted. -/
theorem onBlockRecord_record_taken (hsta : chain.state = .fetchingBlocks)
    (hst : Stored cfg.K chain.storage) (body : F.Body) (now : Nat)
    (hfr : ToBeStored chain → chain.storage.tiles = [] → chain.storage.recCount = 0) :
    Returns (onBlockRecord cfg (some body) now : BaseM C Unit) chain fun _ chain' =>
      Taken cfg chain false chain' := by
  refine .bind (.get ?_)
  rw [if_neg (not_not.mpr hsta)]
  show Returns (if ToBeStored chain then _ else _) _ _
  split
  · rename_i hsr
    rcases hst with ⟨rows, hke⟩ | hsl
    · refine .bind (onStorage_returns ((appendRecords_keeps now _ hke).mono ?_))
      rintro r st ⟨-, hke'⟩
      exact .of_modify (.collects rfl rfl (.inl ⟨_, hke'⟩))
    · exact absurd (hfr hsr hsl.tiles) hsl.recCount
  · exact .of_modify (.collects rfl rfl hst)

theorem onShortRecord_taken (hsta : chain.state = .fetchingBlocks)
    (hst : Stored cfg.K chain.storage) (hnot : ¬ ToBeStored chain) :
    Returns (onShortRecord : BaseM C Unit) chain fun _ chain' => Taken cfg chain false chain' := by
  refine .bind (.get ?_)
  rw [if_neg (not_not.mpr hsta), if_neg hnot]
  exact .of_modify (.collects rfl rfl hst)

/-! ## The invariant -/

/-- The streams that are open are those the state expects messages of. -/
structure Listening (cfg : Conf) (s : System C) : Prop where
  checksums : s.checksumStreams = checksumsOpen s.chain.state
  blocks : s.blockStreams = blocksOpen s.chain.state
  stored : s.chain.state ≠ .ready → Stored cfg.K s.chain.storage

variable {s s' : System C} {e : Event F}

/-- An open stream of checksums says what the state is. -/
theorem Listening.fetchingChecksums (h : Listening cfg s) (hop : 0 < s.checksumStreams) :
    s.chain.state = .fetchingChecksums := by
  rw [h.checksums] at hop
  cases hst : s.chain.state with
  | fetchingChecksums => rfl
  | _ => rw [hst] at hop; cases hop

theorem Listening.fetchingBlocks (h : Listening cfg s) (hop : 0 < s.blockStreams) :
    s.chain.state = .fetchingBlocks := by
  rw [h.blocks] at hop
  cases hst : s.chain.state with
  | fetchingBlocks => rfl
  | _ => rw [hst] at hop; cases hop

/-- Whether the event ends a stream. -/
def ends : Event F → Bool
  | .continueValidation _ _ => false
  | .blockChecksum bc => bc.isNone
  | .blockRecord r _ => r.isEnd

theorem Listening.takes (h : Listening cfg s) (har : Arrives s e) (hto : Tolerable s e) :
    Returns (call cfg e) s.chain fun _ chain' => Taken cfg s.chain (ends e) chain' := by
  cases e with
  | continueValidation sibling now => exact har.elim
  | blockChecksum bc =>
    have hst := h.fetchingChecksums har
    refine onBlockChecksum_taken hst (h.stored (by rw [hst]; decide)) bc ?_
    intro hne
    cases bc with
    | none => exact absurd rfl hne
    | some bi => exact hto
  | blockRecord r now =>
    have hst := h.fetchingBlocks har
    have hsr := h.stored (by rw [hst]; decide)
    cases r with
    | ended => exact onBlockRecord_end_taken hst hsr now
    | record body => exact onBlockRecord_record_taken hst hsr body now hto
    | short => exact onShortRecord_taken hst hsr hto

theorem perform_ensures {call : BaseM C Unit} {Q : Base C → Prop} (h : perform call s = some s')
    (hca : Ensures call { s.chain with out := [] } fun _ chain => Q chain) :
    Q s'.chain ∧ s'.checksumStreams = s.checksumStreams + s'.chain.out.countP opensChecksums ∧
      s'.blockStreams = s.blockStreams + s'.chain.out.countP opensBlocks := by
  unfold perform at h
  split at h
  · rename_i chain heq
    cases h
    exact ⟨hca _ _ heq, rfl, rfl⟩
  · cases h

/-- What was there before a call does not matter to it. -/
theorem Listening.withoutOut (h : Listening cfg s) :
    Listening cfg { s with chain := { s.chain with out := [] } } :=
  ⟨h.checksums, h.blocks, h.stored⟩

/-- The streams after a message: `c` and `b` are what it left open of those there were. -/
theorem Taken.listening {ended : Bool} {c b : Nat}
    (h : Taken cfg { chain with out := [] } ended s'.chain)
    (hch : s'.checksumStreams = c + s'.chain.out.countP opensChecksums)
    (hbl : s'.blockStreams = b + s'.chain.out.countP opensBlocks)
    (hgo : ended = false → c = checksumsOpen chain.state ∧ b = blocksOpen chain.state)
    (hend : ended = true → c = 0 ∧ b = 0) : Listening cfg s' := by
  cases ended with
  | false =>
    obtain ⟨hst, hout⟩ := h.goesOn rfl
    rw [hout] at hch hbl
    exact ⟨by rw [hch, hst, (hgo rfl).1]; rfl, by rw [hbl, hst, (hgo rfl).2]; rfl,
      fun _ => h.stored⟩
  | true =>
    obtain ⟨new, hout, hno, hze, hop⟩ := h.ends rfl
    rw [hout] at hch hbl
    exact ⟨by rw [hch, hze, (hend rfl).1]; simpa using hno, by rw [hbl, (hend rfl).2, ← hop]; simp,
      fun _ => h.stored⟩

/-- `continue_validation` opens a stream of checksums just if it goes to fetch them. -/
theorem validated_streams (h : Validated chain chain') (hout : chain.out = []) :
    chain'.out.countP opensChecksums = checksumsOpen chain'.state ∧
      chain'.out.countP opensBlocks = blocksOpen chain'.state := by
  cases h with
  | validates hst hout' | fetches hst hout' | blank hst hout'
  | complete hwas hva hst hout' hinbound hfi =>
    rw [hst, hout', hout]
    exact ⟨rfl, rfl⟩
  | resets hre =>
    obtain ⟨cause, hout'⟩ := hre.out
    rw [hre.state, hout', hout]
    exact ⟨rfl, rfl⟩

/-- `continue_validation` that returns was called in a state without streams. -/
theorem continueValidation_closed (sibling : Option String) (now : Nat) :
    Ensures (continueValidation cfg sibling now : BaseM C Unit) chain fun _ _ =>
      checksumsOpen chain.state = 0 ∧ blocksOpen chain.state = 0 := by
  refine .bind (.get ?_)
  cases chain.state with
  | fetchingChecksums | fetchingBlocks | ready => exact .throw
  | initial | validating => exact fun _ _ _ => ⟨rfl, rfl⟩

theorem Listening.step (hre : ReadsOnly C cfg.K) (h : Listening cfg s)
    (hto : Tolerable s e) (hs : step cfg s e = some s') : Listening cfg s' := by
  cases e with
  | continueValidation sibling now =>
    obtain ⟨⟨hch₀, hbl₀⟩, -⟩ := perform_ensures hs (continueValidation_closed sibling now)
    obtain ⟨⟨hva, -⟩, hch, hbl⟩ := perform_ensures hs (continueValidation_ensures sibling now)
    obtain ⟨hsr, -⟩ :=
      perform_ensures hs (continueValidation_stored hre h.withoutOut.stored sibling now)
    obtain ⟨hon, hop'⟩ := validated_streams hva rfl
    refine ⟨?_, ?_, hsr⟩
    · rw [hch, hon, h.checksums, hch₀, Nat.zero_add]
    · rw [hbl, hop', h.blocks, hbl₀, Nat.zero_add]
  | blockChecksum bc =>
    obtain ⟨hop, hs⟩ := Option.ite_none_right_eq_some.mp hs
    have hst := h.fetchingChecksums hop
    obtain ⟨hta, hch, hbl⟩ := perform_ensures hs
      (h.withoutOut.takes (e := .blockChecksum bc) hop hto).ensures
    refine hta.listening hch hbl (fun hgo => ?_) fun hend => ?_
    · exact ⟨by rw [show bc.isNone = false from hgo]; exact h.checksums, h.blocks⟩
    · rw [show bc.isNone = true from hend]
      simp [h.checksums, h.blocks, hst, checksumsOpen, blocksOpen]
  | blockRecord r now =>
    obtain ⟨hop, hs⟩ := Option.ite_none_right_eq_some.mp hs
    have hst := h.fetchingBlocks hop
    obtain ⟨hta, hch, hbl⟩ := perform_ensures hs
      (h.withoutOut.takes (e := .blockRecord r now) hop hto).ensures
    refine hta.listening hch hbl (fun hgo => ?_) fun hend => ?_
    · exact ⟨h.checksums, by rw [show r.isEnd = false from hgo]; exact h.blocks⟩
    · rw [show r.isEnd = true from hend]
      simp [h.checksums, h.blocks, hst, checksumsOpen, blocksOpen]

/-! ## Whole runs -/

/-- **A sibling that is tolerable cannot stop the node.**  Whatever it has sent on the
streams the receiver opened, no message on an open stream throws, and what it does is
to be collected, to have the next block requested, to have the chain validate what it has,
or to have it reset itself. -/
theorem sibling_tolerated {T : Type} {F : RowFormat T} (C : Child F) (cfg : Conf)
    (hreads : ReadsOnly C cfg.K) (s₀ : System C) (hstate : s₀.chain.state = .initial)
    (hempty : Keeps cfg.K s₀.chain.storage [])
    (hclosed : s₀.checksumStreams = 0 ∧ s₀.blockStreams = 0) (es : List (Event F))
    (htolerable : Along (step cfg) Tolerable s₀ es) (s : System C)
    (hrun : run (step cfg) s₀ es = some s) (e : Event F) (harrives : Arrives s e)
    (htolerable' : Tolerable s e) :
    Returns (call cfg e) s.chain fun _ chain' => Received s.chain chain' := by
  have h : Listening cfg s := run_inv (Listening cfg) (fun _ _ _ h hP hs => h.step hreads hP hs)
    ⟨by rw [hclosed.1, hstate]; rfl, by rw [hclosed.2, hstate]; rfl, fun _ => .inl ⟨[], hempty⟩⟩
    htolerable hrun
  exact (h.takes harrives htolerable').mono fun _ _ hta => hta.received

/-! ## Group chains -/

section Group

open BlockchainGradido

/-- The loop of `add_index_data` over blocks of the chain reads them. -/
theorem indexBlocks_readsOnly {F : RowFormat GradidoRecord} {rows : List GradidoRecord} (now : Nat) :
    ∀ (count b : Nat) (st : Blockchain F) (idx : Indexes), Keeps K st rows →
      (0 < count → b + count = blockCount K rows.length) →
      Ensures (Ledger.indexBlocks K now b count idx) st fun _ st' => Keeps K st' rows := by
  intro count
  induction count with
  | zero =>
    intro b st idx h _
    exact .pure h
  | succ count ih =>
    intro b st idx h hb
    refine .bind ((h.getBlock (by omega) now).ensures.mono ?_)
    rintro r st' ⟨⟨block, c, rfl, -⟩, h'⟩
    dsimp only
    split
    · exact .throw
    · exact ih (b + 1) st' _ h' (by omega)

theorem group_readsOnly (F : RowFormat GradidoRecord) (K : Params) (calculateDecay : DecayFunction) :
    ReadsOnly (child F K calculateDecay) K := by
  intro indexed now l st rows h
  refine .bind (.bind (.get ?_))
  refine (indexBlocks_readsOnly now _ _ st _ h ?_).mono fun _ _ h' => .pure h'
  intro hpos
  rw [h.valid_eq, h.tiles_length] at hpos ⊢
  omega

/-! ## Three runs -/

instance {F : RowFormat GradidoRecord} {calculateDecay : DecayFunction}
    (s : System (child F K calculateDecay)) (e : Event F) : Decidable (Tolerable s e) := by
  unfold Tolerable
  split <;> infer_instance

/-- A group chain over an empty folder, with no stream open. -/
def receiver :
    System (child (digestFormat GradidoRecord) groupConf.K Chain.keepNormalised) :=
  ⟨Base.create (Blockchain.create groupConf.K (fun _ => .missing) 0) Ledger.initial, 0, 0⟩

/-- A block of `n` rows is announced. -/
def announces (n : Nat) : Event (digestFormat GradidoRecord) := .blockChecksum (some ⟨n, .zero⟩)

/-- A row comes. -/
def sendsRow : Event (digestFormat GradidoRecord) := .blockRecord (.record (.inr .zero)) 0

/-- A block of three rows is announced, one row comes, and the stream ends. -/
def sendsTooFew : List (Event (digestFormat GradidoRecord)) :=
  [.continueValidation (some "sibling") 0, announces 3, .blockChecksum none, sendsRow]

/-- The end of the stream is taken: the chain resets itself. -/
theorem sibling_tolerated_tooFew : ∃ s, run (step groupConf) receiver sendsTooFew = some s ∧
      Returns (call groupConf (.blockRecord .ended 0)) s.chain fun _ chain' =>
        Received s.chain chain' := by
  obtain ⟨s, hs, hop⟩ : ∃ s, run (step groupConf) receiver sendsTooFew = some s ∧
      0 < s.blockStreams := by decide +kernel
  exact ⟨s, hs, sibling_tolerated _ groupConf (group_readsOnly _ _ _) receiver rfl
    (keeps_create fun _ => .inl rfl) ⟨rfl, rfl⟩ sendsTooFew (by decide +kernel) s hs _ hop trivial⟩

/-- Two blocks are announced, and neither is full: the chain resets itself, the stream goes
on, and its end is an exception. -/
theorem unexpected_checksum_throws : ∃ s, run (step groupConf) receiver
        [.continueValidation (some "sibling") 0, announces 1, announces 1] = some s ∧
      0 < s.checksumStreams ∧
      onBlockChecksum groupConf none s.chain
        = .error (.thrown "group on_block_checksum(): wrong state") s.chain := by
  obtain ⟨s, hs, hop, hst⟩ : ∃ s, run (step groupConf) receiver
      [.continueValidation (some "sibling") 0, announces 1, announces 1] = some s ∧
      0 < s.checksumStreams ∧ s.chain.state = .initial := by decide +kernel
  refine ⟨s, hs, hop, ?_⟩
  rw [onBlockChecksum, get_bind, if_pos (by rw [hst]; decide)]
  rfl

end Group

end GradidoNode.Siblings
