/-
# `GradidoNode.Base.Sync` — a chain fetched from a sibling

A node that starts with an empty chain asks a sibling for it.  The sibling answers
with streams of replies: `ChecksumProvider` sends what `get_checksums` found and then
an end marker; `BlockProvider` sends the rows of one block, at most
`GRADIDO_BLOCK_SIZE` of them, and then an end marker.  The receiver asks for block 0
at the end of the checksums and for the next block at the end of a block.

A `Session` is the two chains and the stream that is open between them.  One step
produces the next reply and delivers it; the chain that is read does not change
meanwhile.  A step that reads outside a block, or whose call throws, has no result.

**What is proved.**  A session goes through three stages,

    `Announcing left`          the replies `left` of the checksum stream are to come
    `Fetching b provided k`    `provided` rows of block `b` have come, `k` rows in all
    `Validating`               the receiver has what the sender has

and what happens at the end of block 0 depends on the number of blocks only: the
receiver counts the rows it got since the beginning and compares them with the total
that was announced *at the end of every block*, so with a second block to come it
resets itself.  In one block `get_checksums` reads the checksum of row `2 * j` for the
CHECKSUM row `j`, which is in the block for less than half a block of payloads.  Both
together: `transfers_iff`.
-/
import GradidoNode.Base.BlockchainGradido
import GradidoNode.Base.Serve

namespace GradidoNode

open Lib Blockchain Base BlockchainGradido

namespace Sync

variable {T : Type} {F : RowFormat T} {C : Child F}

/-- The stream that is open, with the context of its handler. -/
inductive Stream (F : RowFormat T) where
  | checksumsRequested
  | checksumProvider (bis : List (BlockInfo F))
  | blockProvider (blockId recordsProvided : Nat)
  | closed

structure Session (C : Child F) where
  sender : Blockchain F
  receiver : Base C
  stream : Stream F

/-- The block a call has asked for, if it has. -/
def requested : List Out → Option Nat
  | [] => none
  | .requireBlockData _ blockId :: _ => some blockId
  | _ :: outs => requested outs

variable (cfg : Conf)

/-- A reply is delivered; a request the receiver makes opens the next stream. -/
def deliver (call : BaseM C Unit) (rest : Stream F) (s : Session C) : Option (Session C) :=
  match call s.receiver with
  | .ok _ r =>
    some { s with
      receiver := r
      stream := match requested (r.out.drop s.receiver.out.length) with
        | some blockId => .blockProvider blockId 0
        | none => rest }
  | .error _ _ => none

/-- The next reply, made at the time `now`. -/
def step (s : Session C) (now : Nat) : Option (Session C) :=
  match s.stream with
  | .checksumsRequested =>
    match getChecksums cfg now s.sender with
    | .ok bis sender => some { s with sender := sender, stream := .checksumProvider bis }
    | .error _ _ => none
  | .checksumProvider [] => deliver (onBlockChecksum cfg none) .closed s
  | .checksumProvider (bi :: bis) =>
    deliver (onBlockChecksum cfg (some bi)) (.checksumProvider bis) s
  | .blockProvider blockId recordsProvided =>
    if recordsProvided = GRADIDO_BLOCK_SIZE then
      deliver (onBlockRecord cfg none now) .closed s
    else
      match getBlockRecord cfg (recordsProvided + GRADIDO_BLOCK_SIZE * blockId) now s.sender with
      | .ok none sender =>
        deliver (onBlockRecord cfg none now) .closed { s with sender := sender }
      | .ok (some (some body)) sender =>
        deliver (onBlockRecord cfg (some body) now)
          (.blockProvider blockId (recordsProvided + 1)) { s with sender := sender }
      -- the record of the message has not been set
      | .ok (some none) _ => none
      | .error _ _ => none
  | .closed => none

/-- A receiver that has just asked for the checksums of a sibling. -/
structure Starts (r : Base C) : Prop where
  state_eq : r.state = .fetchingChecksums
  recordCount_eq : r.fetchedRecordCount = 0
  checksums_eq : r.fetchedChecksums = []
  expecting_eq : r.fetchedChecksumExpectingLast = false
  empty : Keeps cfg.K r.storage []

/-- `continue_validation` of a chain without blocks brings it there. -/
theorem continueValidation_starts {r : Base C} (hst : r.state = .initial)
    (hem : Keeps cfg.K r.storage []) (endpoint : String) (now : Nat) :
    Returns (continueValidation cfg (some endpoint) now) r fun _ r' => Starts cfg r' := by
  have htl : ¬ 0 < r.storage.tiles.length := by
    rw [hem.tiles_length]
    simp [blockCount]
  refine .bind (.get ?_)
  simp only [hst, htl, if_false]
  exact .of_modify ⟨rfl, rfl, rfl, rfl, hem⟩

/-- The chain of the receiver resets itself no more than it did before. -/
def NoReset (before after : List Out) : Prop :=
  ∃ outs, after = before ++ outs ∧ ∀ cause, .resetValidation cause ∉ outs

/-- The receiver `r` has the payloads `rows` and turns to their validation. -/
structure Validating (out : List Out) (rows : List T) (r : Base C) : Prop where
  state_eq : r.state = .validating
  noReset : NoReset out r.out
  stored : Keeps cfg.K r.storage rows

/-- The replies of the sibling bring the receiver to VALIDATING with the payloads `rows`. -/
def Transfers (sender : Blockchain F) (r : Base C) (rows : List T) : Prop :=
  ∃ replies, Leads (step cfg) replies ⟨sender, r, .checksumsRequested⟩ fun s =>
    Validating cfg r.out rows s.receiver

variable {cfg}

/-! ## Delivering -/

theorem deliver_returns {call : BaseM C Unit} {rest : Stream F} {s : Session C} {r : Base C}
    {outs : List Out} (hca : call s.receiver = .ok () r)
    (hou : r.out = s.receiver.out ++ outs) :
    deliver call rest s = some { s with
      receiver := r
      stream := match requested outs with
        | some blockId => .blockProvider blockId 0
        | none => rest } := by
  rw [deliver, hca]
  simp only [hou, List.drop_left]

theorem onBlockChecksum_end {r : Base C} (h : r.state = .fetchingChecksums) :
    onBlockChecksum cfg none r = .ok () { r with
      state := .fetchingBlocks
      blockToFetch := 0
      fetchedDataCount := 0
      out := r.out ++ [.requireBlockData r.fetchEndpoint 0] } := by
  rw [onBlockChecksum, get_bind, if_neg (not_not.mpr h)]
  rfl

theorem onBlockChecksum_next {r : Base C} (h : r.state = .fetchingChecksums)
    (hla : r.fetchedChecksumExpectingLast = false) (bi : BlockInfo F) :
    onBlockChecksum cfg (some bi) r = .ok () { r with
      fetchedChecksumExpectingLast :=
        r.fetchedChecksumExpectingLast || decide (bi.size < GRADIDO_BLOCK_SIZE)
      fetchedRecordCount := r.fetchedRecordCount + bi.size
      fetchedChecksums := r.fetchedChecksums ++ [bi.checksum] } := by
  rw [onBlockChecksum, get_bind, if_neg (not_not.mpr h)]
  show (if r.fetchedChecksumExpectingLast = true then _ else _ : BaseM C Unit) r = _
  rw [if_neg (by rw [hla]; exact Bool.false_ne_true)]
  rfl

section

variable {r : Base C} (h : r.state = .fetchingBlocks)
include h

theorem onBlockRecord_end {now : Nat} :
    onBlockRecord cfg none now r = onBlockRecordEnd r := by
  rw [onBlockRecord, get_bind, if_neg (not_not.mpr h)]

theorem onBlockRecord_last
    (hblock : r.blockToFetch = r.fetchedChecksums.length)
    (hcount : r.fetchedDataCount = r.fetchedRecordCount) (now : Nat) :
    onBlockRecord cfg none now r = .ok () { r with
      state := .validating
      fields := C.clearIndexes r.fields
      indexedBlocks := 0
      out := r.out ++ [.continueValidation 0] } := by
  rw [onBlockRecord_end h, onBlockRecordEnd, get_bind, if_pos hblock, if_neg (not_not.mpr hcount)]
  rfl

theorem onBlockRecord_more
    (hblock : r.blockToFetch ≠ r.fetchedChecksums.length)
    (hcount : r.fetchedDataCount = r.fetchedRecordCount) (now : Nat) :
    onBlockRecord cfg none now r = .ok () { r with
      blockToFetch := r.blockToFetch + 1
      out := r.out ++ [.requireBlockData r.fetchEndpoint (r.blockToFetch + 1)] } := by
  rw [onBlockRecord_end h, onBlockRecordEnd, get_bind, if_neg hblock, if_neg (not_not.mpr hcount)]
  rfl

theorem onBlockRecord_badCount
    (hblock : r.blockToFetch ≠ r.fetchedChecksums.length)
    (hcount : r.fetchedDataCount ≠ r.fetchedRecordCount) (now : Nat) :
    onBlockRecord cfg none now r = .ok () { r with
      state := .initial
      storage := truncate 0 r.storage
      fields := C.clearIndexes r.fields
      indexedBlocks := 0
      out := r.out ++ [.resetValidation "bad record count",
        .continueValidation BLOCKCHAIN_RESET_TIMEOUT_SECONDS] } := by
  rw [onBlockRecord_end h, onBlockRecordEnd, get_bind, if_neg hblock, if_pos hcount]
  rfl

/-- A row of a block: stored if it is not the last of its block nor the last of all. -/
theorem onBlockRecord_row {ps : List T}
    (hke : Keeps cfg.K r.storage ps) (body : F.Body) (now : Nat) :
    ∃ st, onBlockRecord cfg (some body) now r = .ok () { r with
        storage := st
        fetchedDataCount := r.fetchedDataCount + 1 } ∧
      Keeps cfg.K st (if r.fetchedDataCount % GRADIDO_BLOCK_SIZE < GRADIDO_BLOCK_SIZE - 1 ∧
        r.fetchedDataCount + 1 < r.fetchedRecordCount then ps ++ [F.payload body] else ps) := by
  by_cases hrow : r.fetchedDataCount % GRADIDO_BLOCK_SIZE < GRADIDO_BLOCK_SIZE - 1 ∧
      r.fetchedDataCount + 1 < r.fetchedRecordCount
  · obtain ⟨b, st, hst, -, hke'⟩ := appendRecords_keeps now [F.payload body] hke
    have hon : onStorage (appendRecords cfg now [F.payload body]) r
        = .ok b { r with storage := st } := by
      simp only [onStorage, hst]
    refine ⟨st, ?_, by rw [if_pos hrow]; exact hke'⟩
    rw [onBlockRecord, get_bind, if_neg (not_not.mpr h)]
    show (if _ then _ else _ : BaseM C Unit) r = _
    rw [if_pos hrow, bind_eq hon]
    rfl
  · refine ⟨r.storage, ?_, by rw [if_neg hrow]; exact hke⟩
    rw [onBlockRecord, get_bind, if_neg (not_not.mpr h)]
    show (if _ then _ else _ : BaseM C Unit) r = _
    rw [if_neg hrow]
    rfl

end

variable {rows : List T} {cs : Nat → F.Checksum} {st : Blockchain F}

/-! ## The stages of a session -/

variable {out : List Out} {s : Session C}

theorem NoReset.refl (out : List Out) : NoReset out out :=
  ⟨[], (List.append_nil out).symm, fun _ h => by cases h⟩

theorem NoReset.append {before after outs : List Out} (h : NoReset before after)
    (hou : ∀ cause, .resetValidation cause ∉ outs) : NoReset before (after ++ outs) := by
  obtain ⟨outs', rfl, hou'⟩ := h
  refine ⟨outs' ++ outs, List.append_assoc .., ?_⟩
  intro cause hmem
  rcases List.mem_append.mp hmem with hmem | hmem
  · exact hou' cause hmem
  · exact hou cause hmem

section Stages

variable (cfg) (out : List Out) (rows : List T)

/-- The replies `left` of the checksum stream are to come. -/
structure Announcing (left : List (BlockInfo F)) (s : Session C) : Prop where
  stream_eq : s.stream = .checksumProvider left
  sender : ∃ cs, Holds cfg.K s.sender rows cs
  state_eq : s.receiver.state = .fetchingChecksums
  recordCount_eq : s.receiver.fetchedRecordCount + (left.map BlockInfo.size).sum
    = rowCount cfg.K rows.length
  checksums_eq : s.receiver.fetchedChecksums.length + left.length = blockCount cfg.K rows.length
  expecting : left ≠ [] → s.receiver.fetchedChecksumExpectingLast = false
  full : ∀ bi ∈ left.dropLast, bi.size = GRADIDO_BLOCK_SIZE
  empty : Keeps cfg.K s.receiver.storage []
  noReset : NoReset out s.receiver.out

/-- The receiver fetches block `b`: `provided` rows of it have been delivered, and `k`
rows in all. -/
structure Fetching (b provided k : Nat) (s : Session C) : Prop where
  stream_eq : s.stream = .blockProvider b provided
  sender : ∃ cs, Holds cfg.K s.sender rows cs
  state_eq : s.receiver.state = .fetchingBlocks
  recordCount_eq : s.receiver.fetchedRecordCount = rowCount cfg.K rows.length
  checksums_eq : s.receiver.fetchedChecksums.length = blockCount cfg.K rows.length
  block_eq : s.receiver.blockToFetch = b
  dataCount_eq : s.receiver.fetchedDataCount = k
  stored : Keeps cfg.K s.receiver.storage ((chunk cfg.K rows 0).take k)
  noReset : NoReset out s.receiver.out

/-- The number of rows of block 0. -/
def firstRows (K : Params) (rows : List T) : Nat :=
  min (rowCount K rows.length) K.RecCount

end Stages

theorem step_requested (hK : cfg.K.RecCount = GRADIDO_BLOCK_SIZE)
    (h : Holds cfg.K st rows cs) {r : Base C} (hr : Starts cfg r) {now : Nat} {s' : Session C}
    (hs : step cfg ⟨st, r, .checksumsRequested⟩ now = some s') :
    (∃ bis, Announcing cfg r.out rows bis s' ∧ bis.length = blockCount cfg.K rows.length) ∧
      ¬ LastHalfFull cfg.K rows := by
  simp only [step] at hs
  cases hget : getChecksums cfg now st with
  | error e st' =>
    rw [hget] at hs
    cases hs
  | ok bis st' =>
    rw [hget] at hs
    cases hs
    obtain ⟨h', hbis, hla⟩ := getChecksums_ensures hK h now bis st' hget
    have hlen := hbis.length_eq
    have hsum := hbis.sum_eq
    rw [Nat.zero_add] at hlen
    rw [Nat.mul_zero, Nat.zero_add] at hsum
    refine ⟨⟨bis, ⟨rfl, ⟨cs, h'⟩, hr.state_eq, ?_, ?_, ?_, hbis.full, hr.empty, .refl _⟩, hlen⟩, hla⟩
    · rw [hr.recordCount_eq, Nat.zero_add, hsum]
    · rw [hr.checksums_eq, List.length_nil, Nat.zero_add, hlen]
    · intro _
      exact hr.expecting_eq

theorem step_announcing {bi : BlockInfo F} {left : List (BlockInfo F)}
    (h : Announcing cfg out rows (bi :: left) s) (now : Nat) :
    ∃ s', step cfg s now = some s' ∧ Announcing cfg out rows left s' := by
  have hexp := h.expecting (List.cons_ne_nil _ _)
  have hca := @onBlockChecksum_next _ _ _ cfg _ h.state_eq hexp bi
  rw [step, h.stream_eq]
  refine ⟨_, deliver_returns hca (List.append_nil _).symm, ⟨rfl, h.sender, h.state_eq, ?_, ?_, ?_,
    ?_, h.empty, h.noReset⟩⟩
  · have hsum := h.recordCount_eq
    rw [List.map_cons, List.sum_cons] at hsum
    rw [← hsum, Nat.add_assoc]
  · have hlen := h.checksums_eq
    rw [List.length_cons] at hlen
    rw [List.length_append, List.length_singleton]
    omega
  · -- a block that is not the last one announces all its rows
    intro hne
    have hfull := h.full bi (by rw [List.dropLast_cons_of_ne_nil hne]; exact List.mem_cons_self)
    show (s.receiver.fetchedChecksumExpectingLast || decide (bi.size < GRADIDO_BLOCK_SIZE)) = false
    rw [hexp, hfull]
    decide
  · intro bi' hbi'
    refine h.full bi' ?_
    have hne : left ≠ [] := by
      rintro rfl
      cases hbi'
    rw [List.dropLast_cons_of_ne_nil hne]
    exact List.mem_cons_of_mem _ hbi'

theorem step_announced (h : Announcing cfg out rows [] s) (now : Nat) :
    ∃ s', step cfg s now = some s' ∧ Fetching cfg out rows 0 0 0 s' := by
  have hca := @onBlockChecksum_end _ _ _ cfg _ h.state_eq
  rw [step, h.stream_eq]
  refine ⟨_, deliver_returns hca rfl, ⟨rfl, h.sender, rfl, ?_, ?_, rfl, rfl, h.empty, ?_⟩⟩
  · exact h.recordCount_eq
  · exact h.checksums_eq
  · exact h.noReset.append fun cause hmem => by simp at hmem

theorem leads_announced : ∀ (left : List (BlockInfo F)) {s : Session C},
    Announcing cfg out rows left s →
      Leads (step cfg) (left.length + 1) s (Fetching cfg out rows 0 0 0) := by
  intro left
  induction left with
  | nil =>
    intro s h
    refine Leads.succ fun now => ?_
    obtain ⟨s', hs', h'⟩ := step_announced h now
    exact ⟨s', hs', Leads.zero h'⟩
  | cons bi left ih =>
    intro s h
    refine Leads.succ fun now => ?_
    obtain ⟨s', hs', h'⟩ := step_announcing h now
    exact ⟨s', hs', ih h'⟩

/-! ## Block 0 -/

theorem rows_pos_of_firstRows {k : Nat} (hk : k < firstRows cfg.K rows) : 0 < rows.length := by
  refine Nat.pos_of_ne_zero fun hze => ?_
  rw [firstRows, rowCount, hze, blockCount, Nat.zero_div, Nat.zero_mod] at hk
  simp at hk

/-- The rows of block 0 are its payloads and its checksum. -/
theorem firstRows_eq (hpos : 0 < rows.length) :
    firstRows cfg.K rows = (chunk cfg.K rows 0).length + 1 := by
  have hcount := blockCount_pos cfg.K hpos
  have hper := perBlock_add_one cfg.K
  rw [firstRows, chunk_length_eq, rowCount]
  rcases Nat.lt_or_ge rows.length (perBlock cfg.K) with hlt | hge
  · rw [blockCount_eq_one hpos hlt]
    omega
  · omega

section

variable (hK : cfg.K.RecCount = GRADIDO_BLOCK_SIZE)
include hK

/-- One row of block 0: a payload is stored, the checksum is not. -/
theorem step_fetching {k : Nat}
    (h : Fetching cfg out rows 0 k k s) (hk : k < firstRows cfg.K rows) (now : Nat) :
    ∃ s', step cfg s now = some s' ∧ Fetching cfg out rows 0 (k + 1) (k + 1) s' := by
  have hpos := rows_pos_of_firstRows hk
  have hcount := blockCount_pos cfg.K hpos
  have hper := perBlock_add_one cfg.K
  have hch := chunk_length_eq cfg.K rows 0
  have hk' := hk
  rw [firstRows_eq hpos] at hk'
  have hle : k ≤ (chunk cfg.K rows 0).length := Nat.le_of_lt_succ hk'
  have hlt : k < GRADIDO_BLOCK_SIZE := by
    rw [← hK]
    exact Nat.lt_of_lt_of_le hk (Nat.min_le_right _ _)
  obtain ⟨cs, hcs⟩ := h.sender
  obtain ⟨br, st', hget, hcs', rfl⟩ := getBlockRecord_row hK hcs hcount hlt now
  rw [if_pos hle] at hget
  obtain ⟨storage, hca, hst⟩ := onBlockRecord_row h.state_eq h.stored
    (blockRows F (chunk cfg.K rows 0) (cs 0) k).body now
  rw [step, h.stream_eq]
  simp only [Nat.ne_of_lt hlt, if_false, hget]
  refine ⟨_, deliver_returns hca (List.append_nil _).symm, ⟨rfl, ⟨cs, hcs'⟩, h.state_eq,
    h.recordCount_eq, h.checksums_eq, h.block_eq, congrArg (· + 1) h.dataCount_eq, ?_, h.noReset⟩⟩
  rw [h.dataCount_eq, h.recordCount_eq, Nat.mod_eq_of_lt hlt, rowCount] at hst
  rcases Nat.lt_or_eq_of_le hle with hpay | hsum
  · have hrow := blockRows_payload (c := cs 0) (List.getElem?_eq_getElem hpay)
    rw [if_pos (by omega), hrow, RowFormat.payload_payloadRow, List.take_append_getElem] at hst
    exact hst
  · have hsk : ¬ (k < GRADIDO_BLOCK_SIZE - 1 ∧
        k + 1 < rows.length + blockCount cfg.K rows.length) := by
      rintro ⟨hk1, hk2⟩
      rw [blockCount_eq_one hpos (by omega)] at hk2
      omega
    rw [if_neg hsk, List.take_of_length_le (Nat.le_of_eq hsum.symm)] at hst
    rw [List.take_of_length_le (by omega)]
    exact hst

theorem leads_fetched :
    ∀ (n k : Nat) {s : Session C}, k + n = firstRows cfg.K rows → Fetching cfg out rows 0 k k s →
      Leads (step cfg) n s
        (Fetching cfg out rows 0 (firstRows cfg.K rows) (firstRows cfg.K rows)) := by
  intro n
  induction n with
  | zero =>
    intro k s hk h
    rw [← hk]
    exact Leads.zero h
  | succ n ih =>
    intro k s hk h
    refine Leads.succ fun now => ?_
    obtain ⟨s', hs', h'⟩ := step_fetching hK h (by omega) now
    exact ⟨s', hs', ih (k + 1) (by omega) h'⟩

theorem step_firstEnd {k : Nat}
    (h : Fetching cfg out rows 0 (firstRows cfg.K rows) k s) (now : Nat) :
    ∃ sender, (∃ cs, Holds cfg.K sender rows cs) ∧
      step cfg s now = deliver (onBlockRecord cfg none now) .closed { s with sender := sender } := by
  rw [step, h.stream_eq]
  by_cases hfull : firstRows cfg.K rows = GRADIDO_BLOCK_SIZE
  · simp only [hfull, if_true]
    exact ⟨s.sender, h.sender, rfl⟩
  · obtain ⟨cs, hcs⟩ := h.sender
    simp only [hfull, if_false]
    rcases Nat.eq_zero_or_pos rows.length with hze | hpos
    · have hno : blockCount cfg.K rows.length ≤ 0 := by simp [hze, blockCount]
      have hfi : firstRows cfg.K rows = 0 := by simp [firstRows, rowCount, blockCount, hze]
      rw [hfi, getBlockRecord_outside hcs hno now]
      exact ⟨s.sender, ⟨cs, hcs⟩, rfl⟩
    · have hlt : firstRows cfg.K rows < GRADIDO_BLOCK_SIZE :=
        Nat.lt_of_le_of_ne (by rw [← hK]; exact Nat.min_le_right _ _) hfull
      obtain ⟨br, st', hget, hcs', rfl⟩ :=
        getBlockRecord_row hK hcs (blockCount_pos cfg.K hpos) hlt now
      rw [firstRows_eq hpos, if_neg (Nat.not_succ_le_self _), ← firstRows_eq hpos] at hget
      simp only [hget]
      exact ⟨st', ⟨cs, hcs'⟩, rfl⟩

end

/-- The stream of a block there is not. -/
theorem step_outside {b k : Nat} (h : Fetching cfg out rows b 0 k s)
    (hb : blockCount cfg.K rows.length ≤ b) (now : Nat) :
    step cfg s now = deliver (onBlockRecord cfg none now) .closed s := by
  obtain ⟨cs, hcs⟩ := h.sender
  rw [step, h.stream_eq]
  simp only [getBlockRecord_outside hcs hb now]
  rfl

/-! ## One block at most -/

section OneBlock

variable (hone : blockCount cfg.K rows.length ≤ 1)

include hone

theorem firstRows_one : firstRows cfg.K rows = rowCount cfg.K rows.length := by
  have hle := rowCount_le cfg.K rows.length
  have hmul := Nat.mul_le_mul_right cfg.K.RecCount hone
  exact Nat.min_eq_left (by omega)

/-- Its rows are all the payloads. -/
theorem take_firstRows : (chunk cfg.K rows 0).take (rowCount cfg.K rows.length) = rows := by
  have hle := rowCount_le cfg.K rows.length
  have hper := perBlock_add_one cfg.K
  have hall : chunk cfg.K rows 0 = rows := by
    rw [chunk, Nat.zero_mul, List.drop_zero]
    refine List.take_of_length_le ?_
    rcases Nat.le_one_iff_eq_zero_or_eq_one.mp hone with hze | hone
    · rw [rowCount, hze] at hle
      omega
    · rw [rowCount, hone] at hle
      omega
  rw [hall]
  exact List.take_of_length_le (Nat.le_add_right _ _)

theorem deliver_last {b provided : Nat}
    (h : Fetching cfg out rows b provided (rowCount cfg.K rows.length) s)
    (hb : b = blockCount cfg.K rows.length) (sender : Blockchain F) (now : Nat) :
    ∃ s', deliver (onBlockRecord cfg none now) .closed { s with sender := sender } = some s' ∧
      Validating cfg out rows s'.receiver := by
  have hca := @onBlockRecord_last _ _ _ cfg _ h.state_eq
    (by rw [h.block_eq, h.checksums_eq, hb]) (by rw [h.dataCount_eq, h.recordCount_eq]) now
  have hst := h.stored
  rw [take_firstRows hone] at hst
  refine ⟨_, deliver_returns hca rfl, ⟨rfl, ?_, hst⟩⟩
  exact h.noReset.append fun cause hmem => by simp at hmem

/-- With one block the receiver asks for a second one, gets nothing, and is done. -/
theorem leads_validating (hK : cfg.K.RecCount = GRADIDO_BLOCK_SIZE)
    (h : Fetching cfg out rows 0 (firstRows cfg.K rows) (firstRows cfg.K rows) s) :
    Leads (step cfg) (blockCount cfg.K rows.length + 1) s fun s =>
      Validating cfg out rows s.receiver := by
  rcases Nat.le_one_iff_eq_zero_or_eq_one.mp hone with hcount | hcount
  · rw [hcount]
    refine Leads.succ fun now => ?_
    obtain ⟨sender, -, hst⟩ := step_firstEnd hK h now
    rw [firstRows_one hone] at h
    obtain ⟨s', hs', h'⟩ := deliver_last hone h hcount.symm sender now
    exact ⟨s', hst.trans hs', Leads.zero h'⟩
  · rw [hcount]
    refine Leads.succ fun now => ?_
    obtain ⟨sender, hse, hst⟩ := step_firstEnd hK h now
    rw [firstRows_one hone] at h
    have hca := @onBlockRecord_more _ _ _ cfg _ h.state_eq
      (by rw [h.block_eq, h.checksums_eq, hcount]; decide)
      (by rw [h.dataCount_eq, h.recordCount_eq]) now
    have hmo := @deliver_returns _ _ _ _ .closed { s with sender := sender } _ _ hca rfl
    refine ⟨_, hst.trans hmo, Leads.succ fun now' => ?_⟩
    generalize hs₁ : Session.mk _ _ _ = s₁
    have h₁ : Fetching cfg out rows 1 0 (rowCount cfg.K rows.length) s₁ := by
      subst hs₁
      refine ⟨?_, hse, h.state_eq, h.recordCount_eq, h.checksums_eq, ?_, h.dataCount_eq,
        h.stored, ?_⟩
      · simp only [requested, h.block_eq]
      · exact congrArg (· + 1) h.block_eq
      · exact h.noReset.append fun cause hmem => by simp at hmem
    obtain ⟨s', hs', h'⟩ := deliver_last hone h₁ hcount.symm s₁.sender now'
    exact ⟨s', (step_outside h₁ hone now').trans hs', Leads.zero h'⟩

end OneBlock

/-! ## A second block -/

section

variable (hK : cfg.K.RecCount = GRADIDO_BLOCK_SIZE)
include hK

/-- At the end of block 0 the receiver has one block of rows, and more were announced. -/
theorem step_badCount
    (hmo : 1 < blockCount cfg.K rows.length)
    (h : Fetching cfg out rows 0 (firstRows cfg.K rows) (firstRows cfg.K rows) s) (now : Nat) :
    ∃ s', step cfg s now = some s' ∧ s'.stream = .closed ∧ s'.receiver.state = .initial ∧
      .resetValidation "bad record count" ∈ s'.receiver.out := by
  have hfull := chunk_full hmo
  have hper := perBlock_add_one cfg.K
  rw [chunk_length_eq] at hfull
  have hcount : firstRows cfg.K rows ≠ rowCount cfg.K rows.length := by
    have hle : firstRows cfg.K rows ≤ cfg.K.RecCount := Nat.min_le_right _ _
    rw [rowCount]
    omega
  obtain ⟨sender, -, hst⟩ := step_firstEnd hK h now
  have hca := @onBlockRecord_badCount _ _ _ cfg _ h.state_eq
    (by rw [h.block_eq, h.checksums_eq]; omega)
    (by rw [h.dataCount_eq, h.recordCount_eq]; exact hcount) now
  have hre := @deliver_returns _ _ _ _ .closed { s with sender := sender } _ _ hca rfl
  exact ⟨_, hst.trans hre, rfl, rfl, List.mem_append_right _ List.mem_cons_self⟩

/-- `get_checksums` returned: the announcement, and then block 0. -/
theorem leads_first (h : Holds cfg.K st rows cs)
    {r : Base C} (hr : Starts cfg r) (hla : ¬ LastHalfFull cfg.K rows)
    (hco : 1 < blockCount cfg.K rows.length → ∀ c, (F.strcpyChecksum (F.ofChecksum c)).isSome) :
    Leads (step cfg) (blockCount cfg.K rows.length + 1 + firstRows cfg.K rows + 1)
      ⟨st, r, .checksumsRequested⟩
      (Fetching cfg r.out rows 0 (firstRows cfg.K rows) (firstRows cfg.K rows)) := by
  refine Leads.succ fun now => ?_
  obtain ⟨bis, st', hget, -⟩ := getChecksums_returns hK h hla hco now
  have hs : step cfg ⟨st, r, .checksumsRequested⟩ now = some ⟨st', r, .checksumProvider bis⟩ := by
    simp only [step, hget]
  obtain ⟨⟨bis', hann, hlen⟩, -⟩ := step_requested hK h hr hs
  refine ⟨_, hs, ?_⟩
  rw [← hlen]
  refine Leads.add (leads_announced bis' hann) ?_
  intro t ht
  exact leads_fetched hK _ 0 (Nat.zero_add _) ht

/-- The session of a chain with a second block, as far as its replies come. -/
inductive Failing (cfg : Conf) (r : Base C) (rows : List T) : Session C → Prop where
  | requested {st : Blockchain F} {cs : Nat → F.Checksum} (h : Holds cfg.K st rows cs) :
      Failing cfg r rows ⟨st, r, .checksumsRequested⟩
  | announcing {s : Session C} {left : List (BlockInfo F)} (h : Announcing cfg r.out rows left s)
      (hmore : 1 < blockCount cfg.K rows.length) : Failing cfg r rows s
  | fetching {s : Session C} {k : Nat} (h : Fetching cfg r.out rows 0 k k s)
      (hk : k ≤ firstRows cfg.K rows) (hmore : 1 < blockCount cfg.K rows.length) :
      Failing cfg r rows s
  | reset {s : Session C} (hstream : s.stream = .closed) (hstate : s.receiver.state = .initial) :
      Failing cfg r rows s

/-- Half a block of payloads: in one block the scan of `get_checksums` leaves the block. -/
theorem lastHalfFull_of_one
    (hro : GRADIDO_BLOCK_SIZE ≤ 2 * rows.length) (hone : blockCount cfg.K rows.length ≤ 1) :
    LastHalfFull cfg.K rows := by
  have hle := rowCount_le cfg.K rows.length
  have hper := perBlock_add_one cfg.K
  have hcount : blockCount cfg.K rows.length = 1 :=
    Nat.le_antisymm hone (blockCount_pos cfg.K (by omega))
  rw [rowCount, hcount] at hle
  rw [LastHalfFull, hcount, chunk_length_eq]
  omega

theorem failing_step {r : Base C} (hr : Starts cfg r)
    (hro : GRADIDO_BLOCK_SIZE ≤ 2 * rows.length) (s : Session C) (now : Nat) (s' : Session C)
    (h : Failing cfg r rows s) (hs : step cfg s now = some s') : Failing cfg r rows s' := by
  cases h with
  | requested h =>
    obtain ⟨⟨bis, hann, -⟩, hla⟩ := step_requested hK h hr hs
    exact .announcing hann (Nat.lt_of_not_le fun hone => hla (lastHalfFull_of_one hK hro hone))
  | @announcing _ left h hmo =>
    cases left with
    | nil =>
      obtain ⟨t, ht, h'⟩ := step_announced h now
      cases ht.symm.trans hs
      exact .fetching h' (Nat.zero_le _) hmo
    | cons bi left =>
      obtain ⟨t, ht, h'⟩ := step_announcing h now
      cases ht.symm.trans hs
      exact .announcing h' hmo
  | fetching h hk hmo =>
    rcases Nat.lt_or_eq_of_le hk with hlt | rfl
    · obtain ⟨t, ht, h'⟩ := step_fetching hK h hlt now
      cases ht.symm.trans hs
      exact .fetching h' hlt hmo
    · obtain ⟨t, ht, hst, hsta, -⟩ := step_badCount hK hmo h now
      cases ht.symm.trans hs
      exact .reset hst hsta
  | reset hst hsta =>
    rw [step, hst] at hs
    cases hs

end

theorem Failing.not_validating {r : Base C} (hr : Starts cfg r) (h : Failing cfg r rows s) :
    s.receiver.state ≠ .validating := by
  cases h with
  | requested h =>
    rw [hr.state_eq]
    decide
  | announcing h | fetching h =>
    rw [h.state_eq]
    decide
  | reset _ hst =>
    rw [hst]
    decide

theorem not_transfers (hK : cfg.K.RecCount = GRADIDO_BLOCK_SIZE) (h : Holds cfg.K st rows cs)
    {r : Base C} (hr : Starts cfg r) (hro : GRADIDO_BLOCK_SIZE ≤ 2 * rows.length) :
    ¬ Transfers cfg st r rows := by
  rintro ⟨replies, hld⟩
  obtain ⟨s', hrun, hval⟩ := hld (List.replicate replies 0) List.length_replicate
  have hfa : Failing cfg r rows s' :=
    run_keeps (Failing cfg r rows) (failing_step hK hr hro) (.requested h) hrun
  exact hfa.not_validating hr hval.state_eq

/-- The replies of a sibling bring its chain to the receiver if and only if it has less
than half a block of payloads. -/
theorem transfers_iff (hK : cfg.K.RecCount = GRADIDO_BLOCK_SIZE) (h : Holds cfg.K st rows cs)
    {r : Base C} (hr : Starts cfg r) :
    Transfers cfg st r rows ↔ 2 * rows.length < GRADIDO_BLOCK_SIZE := by
  refine ⟨fun htr => Nat.lt_of_not_le fun hro => not_transfers hK h hr hro htr, ?_⟩
  intro hro
  have hper := perBlock_add_one cfg.K
  have htwo := cfg.K.two_le
  have hone : blockCount cfg.K rows.length ≤ 1 := by
    rw [blockCount, Nat.div_eq_of_lt (by omega)]
    split <;> omega
  have hla : ¬ LastHalfFull cfg.K rows := by
    rw [LastHalfFull, chunk_length_eq]
    omega
  have hfi := leads_first hK h hr hla fun hmo => absurd hone (Nat.not_le.mpr hmo)
  exact ⟨_, hfi.add fun t ht => leads_validating hone hK ht⟩

/-! ## Two transfers -/

abbrev aChild : Child (digestFormat GradidoRecord) :=
  child (digestFormat GradidoRecord) groupParams fun amount _ => amount

/-- A chain that has stored `rows`. -/
def senderOf (rows : List GradidoRecord) : Blockchain (digestFormat GradidoRecord) :=
  storageOf (digestFormat GradidoRecord) groupConf rows

theorem senderOf_holds (rows : List GradidoRecord) :
    ∃ cs, Holds groupConf.K (senderOf rows) rows cs :=
  (storageOf_keeps (digestFormat GradidoRecord) groupConf rows).holds

/-- A new chain that has found a sibling. -/
def receiver : Base aChild :=
  stateAfter (continueValidation groupConf (some "sibling") 0
    (Base.create (storageOf _ groupConf []) Ledger.initial))

theorem receiver_starts : Starts groupConf receiver :=
  (continueValidation_starts groupConf rfl (storageOf_keeps _ groupConf []) "sibling" 0).stateAfter
    fun _ _ h => h

/-- One row is transferred. -/
theorem transfers_oneRow : Transfers groupConf (senderOf [.memo]) receiver [.memo] := by
  obtain ⟨cs, h⟩ := senderOf_holds [.memo]
  exact (transfers_iff rfl h receiver_starts).mpr (by decide)

/-- One row more than fits in a block. -/
def thousand : List GradidoRecord := List.replicate 1000 .memo

/-- At the end of block 0 the receiver of these rows resets itself. -/
theorem second_block_resets :
    (∃ cs, Holds groupConf.K (senderOf thousand) thousand cs) ∧ Starts groupConf receiver ∧
    Leads (step groupConf) 1005 ⟨senderOf thousand, receiver, .checksumsRequested⟩
      (fun s => s.receiver.state = .initial ∧
        .resetValidation "bad record count" ∈ s.receiver.out) ∧
    ¬ Transfers groupConf (senderOf thousand) receiver thousand := by
  obtain ⟨cs, h⟩ := senderOf_holds thousand
  have hlen : thousand.length = 1000 := List.length_replicate
  have hcount : blockCount groupConf.K thousand.length = 2 := by
    rw [hlen]
    rfl
  have hla : ¬ LastHalfFull groupConf.K thousand := by
    rw [LastHalfFull, hcount, chunk_length_eq, hlen]
    decide
  have hfi := leads_first rfl h receiver_starts hla fun _ c => rfl
  have hro : firstRows groupConf.K thousand = 1000 := by
    rw [firstRows, hlen]
    rfl
  refine ⟨⟨cs, h⟩, receiver_starts, ?_, not_transfers rfl h receiver_starts (by rw [hlen]; decide)⟩
  rw [hcount, hro] at hfi
  show Leads (step groupConf) (2 + 1 + 1000 + 1 + (0 + 1)) _ _
  refine hfi.add fun t ht => Leads.succ fun now => ?_
  rw [← hro] at ht
  obtain ⟨s, hs, -, hst, hre⟩ := step_badCount rfl (by rw [hcount]; decide) ht now
  exact ⟨s, hs, Leads.zero ⟨hst, hre⟩⟩

end Sync

end GradidoNode
