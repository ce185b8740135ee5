/-
# `GradidoNode.Ledger.AddIndexData` — the indexes rebuilt from the stored rows

`BlockchainGradido::add_index_data`: the other interpreter of the nine transaction
types.  It decides nothing; it takes the calculated fields of each SUCCESS row
and writes them into the indexes.  A user it does not find is dereferenced all
the same (`none` below).

The source walks over blocks and rows (`addIndexData`, on the storage object);
over a chain that holds a list of payloads this is one pass over the list
(`addIndexRows`), with the number of the row each payload is stored in.
`addIndexData_holds` connects the two; the rest of the development uses the list.
-/
import GradidoNode.Ledger.Chain
import GradidoNode.Storage.Pass

namespace GradidoNode

open Lib Blockchain

namespace Ledger

variable {F : RowFormat GradidoRecord}

/-! ## One row -/

/-- The entry of a user the row says has a new balance; `none` if there is no entry. -/
def setBalance (idx : Indexes) (recNum : Nat) (t : HederaTimestamp) (u : UserTransfer) :
    Option Indexes :=
  match idx.userIndex u.user with
  | none => none
  | some _ => some { idx with
      userIndex := idx.userIndex.put u.user ⟨u.newBalance, .ofNat recNum, t⟩ }

/-- A SUCCESS transaction in row `recNum`. -/
def addIndexTransaction (idx : Indexes) (recNum : Nat) (tr : Transaction) : Option Indexes :=
  match tr.body with
  | .gradidoCreation c => setBalance idx recNum tr.consensusTimestamp c.toUserTransfer
  | .addGroupFriend g =>
    some { idx with friendGroupIndex := idx.friendGroupIndex.insertNew (cstr g) () }
  | .removeGroupFriend g => some { idx with friendGroupIndex := idx.friendGroupIndex.erase (cstr g) }
  | .addUser u =>
    some { idx with
      userIndex := idx.userIndex.insertNew u
        ⟨GradidoValue.zero, .ofNat recNum, tr.consensusTimestamp⟩ }
  | .moveUserInbound m =>
    -- no time is recorded, and the number of the row is computed in 32 bits
    some { idx with
      userIndex := idx.userIndex.insertNew m.user
        ⟨m.newBalance, .ofNat (recNum % 2 ^ 32), HederaTimestamp.zero⟩ }
  | .moveUserOutbound m =>
    some { idx with
      userIndex := idx.userIndex.erase m.user
      outboundTransactions :=
        idx.outboundTransactions.insertNew m.pairedTransactionId (.ofNat recNum) }
  | .localTransfer lt =>
    match setBalance idx recNum tr.consensusTimestamp lt.sender with
    | none => none
    | some idx => setBalance idx recNum tr.consensusTimestamp lt.receiver
  | .inboundTransfer lt => setBalance idx recNum tr.consensusTimestamp lt.receiver
  | .outboundTransfer lt =>
    match setBalance idx recNum tr.consensusTimestamp lt.sender with
    | none => none
    | some idx => some { idx with
        outboundTransactions :=
          idx.outboundTransactions.insertNew lt.pairedTransactionId (.ofNat recNum) }
  | .other _ => some idx

/-- Any row. -/
def addIndexRow (idx : Indexes) (recNum : Nat) : GradidoRecord → Option Indexes
  | .gradidoTransaction tr =>
    if tr.result = .success then addIndexTransaction idx recNum tr else some idx
  | _ => some idx

/-! ## Blocks of rows -/

/-- The inner loop: rows `j ..` of block `i`, up to the CHECKSUM row. -/
def indexBlock (i : Nat) (block : Nat → Row F.Body) : Nat → Nat → Indexes → Option Indexes
  | _, 0, idx => some idx
  | j, fuel + 1, idx =>
    if (block j).type = RecordType.checksum then some idx
    else
      match addIndexRow idx (i * GRADIDO_BLOCK_SIZE + j) (F.payload (block j).body) with
      | none => none
      | some idx => indexBlock i block (j + 1) fuel idx

/-- The outer loop: `count` blocks from block `i` on. -/
def indexBlocks (K : Params) (now : Nat) : Nat → Nat → Indexes → ChainM F Indexes
  | _, 0, idx => return idx
  | i, count + 1, idx => do
    let r ← getBlock K i now
    match r.1 with
    | none => throw (.undefined "null block")
    | some block =>
      match indexBlock i block 0 GRADIDO_BLOCK_SIZE idx with
      | none => throw (.undefined "user_index.end() dereferenced")
      | some idx => indexBlocks K now (i + 1) count idx

def addIndexData (K : Params) (indexedBlocks now : Nat) (idx : Indexes) : ChainM F Indexes := do
  let s ← get
  indexBlocks K now indexedBlocks (s.checksumValidBlockCount - indexedBlocks) idx

/-! ## A list of rows -/

/-- The rows of a list, of which the first is payload `n` of the chain. -/
def addIndexRows : Nat → List GradidoRecord → Indexes → Option Indexes
  | _, [], idx => some idx
  | n, r :: rows, idx =>
    match addIndexRow idx (Chain.recNum n) r with
    | none => none
    | some idx => addIndexRows (n + 1) rows idx

/-- `clear_indexes()` followed by `add_index_data()`. -/
def rebuild (rows : List GradidoRecord) : Option Indexes := addIndexRows 0 rows clearIndexes

theorem addIndexRows_append (n : Nat) (rows rows' : List GradidoRecord) (idx : Indexes) :
    addIndexRows n (rows ++ rows') idx
      = (addIndexRows n rows idx).bind (addIndexRows (n + rows.length) rows') := by
  induction rows generalizing n idx with
  | nil => rfl
  | cons r rows ih =>
    simp only [List.cons_append, addIndexRows, List.length_cons]
    cases addIndexRow idx (Chain.recNum n) r with
    | none => rfl
    | some idx' =>
      dsimp only
      rw [ih, Nat.add_assoc, Nat.add_comm 1]

/-- Payload `j` of block `b` is in row `j` of it. -/
theorem recNum_block {b j : Nat} (hj : j < perBlock groupParams) :
    Chain.recNum (b * perBlock groupParams + j) = b * GRADIDO_BLOCK_SIZE + j := by
  have hpos := perBlock_pos groupParams
  rw [Chain.recNum, Nat.add_comm (b * perBlock groupParams), Nat.add_mul_div_right _ _ hpos,
    Nat.div_eq_of_lt hj, Nat.zero_add, Nat.add_mul_mod_self_right, Nat.mod_eq_of_lt hj]

/-- The inner loop is the pass over the payloads it comes to. -/
theorem indexBlock_eq {b : Nat} (block : Nat → Row F.Body) : ∀ (fuel j : Nat) (idx : Indexes),
    j + (blockPayloads block j fuel).length ≤ perBlock groupParams → indexBlock b block j fuel idx
        = addIndexRows (b * perBlock groupParams + j) (blockPayloads block j fuel) idx := by
  intro fuel
  induction fuel with
  | zero =>
    intro j idx _
    rfl
  | succ fuel ih =>
    intro j idx hlen
    rw [blockPayloads] at hlen ⊢
    rw [indexBlock]
    split at hlen
    · next hsum =>
      rw [if_pos hsum, if_pos hsum]
      rfl
    · next hne =>
      rw [List.length_cons] at hlen
      rw [if_neg hne, if_neg hne, addIndexRows, recNum_block (by omega)]
      cases addIndexRow idx (b * GRADIDO_BLOCK_SIZE + j) (F.payload (block j).body) with
      | none => rfl
      | some idx' =>
        have hnx := ih (j + 1) idx' (by omega)
        rw [← Nat.add_assoc] at hnx
        exact hnx

section Storage

variable {K : Params} {st : Blockchain F} {rows : List GradidoRecord} {cs : Nat → F.Checksum}

/-- The outer loop over the last blocks is the pass over their payloads. -/
theorem indexBlocks_holds (hK : K.RecCount = GRADIDO_BLOCK_SIZE) (now : Nat) {idx' : Indexes} :
    ∀ (count b : Nat) (st : Blockchain F) (idx : Indexes), Holds K st rows cs →
      b + count = st.tiles.length →
      addIndexRows (b * perBlock K) (rows.drop (b * perBlock K)) idx = some idx' →
      Returns (indexBlocks K now b count idx) st fun r st' => r = idx' ∧ Holds K st' rows cs := by
  intro count
  induction count with
  | zero =>
    intro b st idx h hb hro
    have hnil : rows.drop (b * perBlock K) = [] := by
      apply List.drop_eq_nil_of_le
      rw [show b = st.tiles.length from hb]
      exact h.length_le
    rw [hnil] at hro
    cases hro
    exact .pure ⟨rfl, h⟩
  | succ count ih =>
    intro b st idx h hb hro
    rw [drop_chunk, addIndexRows_append] at hro
    obtain ⟨idx₁, hch, hre⟩ := Option.bind_eq_some_iff.mp hro
    refine .bind ((getBlock_holds h (show b < st.tiles.length by omega) now).mono ?_)
    rintro r st' ⟨⟨block, rfl, hblock⟩, h', -, -⟩
    have hlt := chunk_length_lt K rows b
    have hper := perBlock_add_one K
    rw [hK] at hblock hlt hper
    have hin := indexBlock_eq (b := b) block GRADIDO_BLOCK_SIZE 0 idx
    rw [blockPayloads_block hblock hlt, ← Chain.perBlock_group hK, Nat.add_zero, hch] at hin
    replace hin := hin (by omega)
    simp only [hin]
    refine ih (b + 1) st' idx₁ h' (by rw [h'.tiles_length, ← h.tiles_length]; omega) ?_
    -- a block that is followed by rows is full
    by_cases hla : rows.drop ((b + 1) * perBlock K) = []
    · rw [hla] at hre ⊢
      exact hre
    · have hfull : (chunk K rows b).length = perBlock K := by
        have hlong : (b + 1) * perBlock K < rows.length := by
          by_contra hle
          exact hla (List.drop_eq_nil_of_le (Nat.not_lt.mp hle))
        rw [Nat.add_mul, Nat.one_mul] at hlong
        rw [chunk_length_eq]
        omega
      rw [hfull] at hre
      rw [Nat.add_mul, Nat.one_mul] at hre ⊢
      exact hre

/-- `add_index_data` over the storage object is the pass over the payloads it holds. -/
theorem addIndexData_holds (hK : K.RecCount = GRADIDO_BLOCK_SIZE) (h : Holds K st rows cs)
    {idx : Indexes} (hre : rebuild rows = some idx) (now : Nat) :
    Returns (addIndexData K 0 now clearIndexes) st fun r st' => r = idx ∧ Holds K st' rows cs := by
  refine .bind (.get ?_)
  rw [h.valid_eq, Nat.sub_zero]
  refine indexBlocks_holds hK now _ 0 st clearIndexes h (Nat.zero_add _) ?_
  rw [Nat.zero_mul, List.drop_zero]
  exact hre

end Storage

end Ledger

end GradidoNode
