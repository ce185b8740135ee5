/-
# `GradidoNode.Wire.TransactionFactory` — transactions made from hexadecimal ids

`TransactionFactory_1` of `versioned.cpp`.  Nine functions check the ids they are given, make
zeroed transactions for the memo, and copy what they are given into the first of these.

    check_id             64 hexadecimal digits, or an error; for an id that is right there
                         is no `return`
    prepare_memo_recs    1 + memo_parts transactions: 16 bytes of the memo in the first,
                         up to 150 in each of the others
    the function         64 bytes of each id, in the order of the arguments; the amount

Errors are returned at once.  What the caller of `check_id` finds where there is no `return`
is undefined; `lucky` says of each check whether it happens to be `OK`.

**Memory.**  The transactions are one block, and every store has to end within it.  The
field of an id has 32 bytes and that of a memo 16, so a store may go on into what follows.

**What comes out.**  A memo is split without loss just if it fits into two fields
(`memoSplit_iff`): there are never enough transactions for more.  No function stores
`transaction_type`, so none makes the transaction it is for (`fillsFields_iff`).
-/
import GradidoNode.Wire.Fields
import Mathlib.Algebra.Order.BigOperators.Group.List

namespace GradidoNode.Wire.TransactionFactory

open Lib

/-! ## Strings -/

/-- `PUB_KEY_LENGTH_HEX`. -/
abbrev PUB_KEY_LENGTH_HEX : Nat := PUB_KEY_LENGTH * 2

/-- `MAX_TOTAL_MEMO_LENGTH`. -/
abbrev MAX_TOTAL_MEMO_LENGTH : Nat := MEMO_FULL_SIZE * 5 + MEMO_MAIN_SIZE

/-- `'0'` to `'9'`, `'a'` to `'f'`, `'A'` to `'F'`. -/
def isHexDigit (c : UInt8) : Bool :=
  (48 ≤ c && c ≤ 57) || (97 ≤ c && c ≤ 102) || (65 ≤ c && c ≤ 70)

def isHex (str : Bytes) : Bool := str.all isHexDigit

/-- `contains_null`: the string made of `c_str` is another one. -/
def containsNull (str : Bytes) : Bool := (str.takeWhile (· ≠ 0)).length ≠ str.length

theorem containsNull_iff (str : Bytes) : containsNull str = true ↔ 0 ∈ str := by
  have hpr := List.takeWhile_prefix (l := str) (· ≠ (0 : UInt8))
  rw [containsNull, decide_eq_true_iff, ← not_iff_not, not_not]
  constructor
  · intro hln hmem
    rw [← hpr.eq_of_length hln] at hmem
    have hne := List.mem_takeWhile_imp hmem
    exact of_decide_eq_true hne rfl
  · intro hmem
    rw [List.takeWhile_eq_self_iff.mpr]
    exact fun c hc => decide_eq_true fun h0 => hmem (h0 ▸ hc)

/-- The value of a digit. -/
def digit (c : UInt8) : Nat :=
  if c ≤ 57 then c.toNat - 48 else if c ≤ 70 then c.toNat - 55 else c.toNat - 87

/-- `(char)strtol(str, NULL, 16)`, for a string that has no more than two characters. -/
def strtol (str : Bytes) : UInt8 :=
  let text := str.dropWhile fun c => c = 32 || (9 ≤ c && c ≤ 13)
  let digits := if text.head? = some 43 ∨ text.head? = some 45 then text.tail else text
  let value := (digits.takeWhile isHexDigit).foldl (fun v c => 16 * v + digit c) 0
  if text.head? = some 45 then 0 - UInt8.ofNat value else UInt8.ofNat value

def hexToBytes : Bytes → Bytes
  | [] => []
  | [c] => [strtol [c]]
  | c :: d :: hex => strtol [c, d] :: hexToBytes hex

/-! ## Blocks of transactions -/

/-- `ITransactionFactoryBase::ExitCode`, but for `OK`: a call that is `OK` goes on. -/
inductive ExitCode where
  | idBadLength
  | idNotAHex
  | memoTooLong
  | memoContainsZeroChar
  deriving DecidableEq

/-- How a call ends early. -/
inductive Stop where
  | exit (ec : ExitCode)
  | fault (f : Fault)
  deriving DecidableEq

/-- What `new` gave: `*out_length`, and the bytes. -/
structure Block where
  size : Nat
  bytes : Memory

namespace Block

/-- `new Transaction[count]`. -/
def alloc (count : Nat) : Block := ⟨Transaction.packed.size * count, fun _ => 0⟩

/-- `res[n]`. -/
def transaction (b : Block) (n : Nat) : Transaction :=
  b.bytes.load Transaction.packed (n * Transaction.packed.size)

/-- All of them. -/
def records (b : Block) : List Transaction :=
  (List.range (b.size / Transaction.packed.size)).map b.transaction

end Block

/-- Calls of the factory; there is a block or there is none. -/
abbrev Call := EStateM Stop (Option Block)

/-- The member of `res[n]` that is at `off` in a record. -/
def place (n off : Nat) : Nat := n * Transaction.packed.size + (off - versionNumberAt)

/-- Where `transaction_id` is in a record. -/
def transactionIdAt : Nat := partsAt + Packed.uint32.size

/-- A store. -/
def store (off : Nat) (bs : Bytes) : Call Unit := do
  match ← get with
  | none => throw (.fault (.undefined "store without a block"))
  | some b =>
    if off + bs.length ≤ b.size then set (some { b with bytes := b.bytes.write off bs })
    else throw (.fault (.undefined "store past the end of the block"))

/-- Stores one after the other. -/
def stores : List (Nat × Bytes) → Call Unit
  | [] => return ()
  | w :: ws => do
    store w.1 w.2
    stores ws

/-! ## The functions -/

def checkId (lucky : Bool) (user : Bytes) : Call Unit :=
  if user.length ≠ PUB_KEY_LENGTH_HEX then throw (.exit .idBadLength)
  else if !isHex user then throw (.exit .idNotAHex)
  else if lucky then return ()
  else throw (.fault (.undefined "check_id without a return"))

/-- The checks of a function, one after the other. -/
def checkIds : (lucky : Nat → Bool) → List Bytes → Call Unit
  | _, [] => return ()
  | lucky, id :: ids => do
    checkId (lucky 0) id
    checkIds (fun i => lucky (i + 1)) ids

def memoParts (length : Nat) : Nat :=
  if length < MEMO_MAIN_SIZE then 0 else (length - MEMO_MAIN_SIZE) / MEMO_FULL_SIZE + 1

/-- The loop over the parts: `i` of them have been copied, and `cp` bytes. -/
def partStores (memo : Bytes) : (parts i cp : Nat) → List (Nat × Bytes)
  | 0, _, _ => []
  | parts + 1, i, cp =>
    let cp2 := min MEMO_FULL_SIZE (memo.length - cp)
    (place (i + 1) memoAt, (memo.drop cp).take cp2) :: partStores memo parts (i + 1) (cp + cp2)

/-- The memo, in the transactions for it. -/
def memoStores (memo : Bytes) : List (Nat × Bytes) :=
  if memoParts memo.length = 0 then [(place 0 memoAt, memo)]
  else
    (place 0 memoAt, memo.take MEMO_MAIN_SIZE)
      :: partStores memo (memoParts memo.length) 0 MEMO_MAIN_SIZE

/-- `version_number` and `transaction_id`. -/
def headStores (now : HederaTimestamp) : List (Nat × Bytes) :=
  [(place 0 versionNumberAt, Packed.uint32.write 1),
    (place 0 transactionIdAt, hederaTimestamp.write now)]

/-- `prepare_memo_recs`; `now` is what `get_timestamp` returns. -/
def prepareMemoRecs (now : HederaTimestamp) (memo : Bytes) : Call Unit :=
  if MAX_TOTAL_MEMO_LENGTH < memo.length then throw (.exit .memoTooLong)
  else if containsNull memo then throw (.exit .memoContainsZeroChar)
  else do
    set (some (Block.alloc (1 + memoParts memo.length)))
    stores (headStores now ++ memoStores memo)

section Functions

variable (lucky : Nat → Bool) (now : HederaTimestamp)

/-- What the functions have in common. -/
def create (ids : List Bytes) (memo : Bytes) (copies : List (Nat × Bytes)) : Call Unit := do
  checkIds lucky ids
  prepareMemoRecs now memo
  stores copies

/-- `memcpy(field, id.c_str(), PUB_KEY_LENGTH_HEX)`: an id that has been checked is as long. -/
def idStore (off : Nat) (id : Bytes) : Nat × Bytes := (place 0 off, id.take PUB_KEY_LENGTH_HEX)

/-- `amount.amount = amount`. -/
def amountStore (off : Nat) (amount : UInt64) : Nat × Bytes :=
  (place 0 off, Packed.uint64.write amount)

def createGradidoCreation (user : Bytes) (amount : UInt64) (memo : Bytes) : Call Unit :=
  create lucky now [user] memo
    [idStore operationAt user, amountStore (operationAt + userTransfer.size) amount]

def createLocalTransfer (user0 user1 : Bytes) (amount : UInt64) (memo : Bytes) : Call Unit :=
  create lucky now [user0, user1] memo [idStore (operationAt + abstractTransferOp.size) user0,
      idStore (operationAt + abstractTransferOp.size + userTransfer.size) user1,
      amountStore operationAt amount]

def createInboundTransfer (user0 user1 otherGroup : Bytes) (amount : UInt64) (memo : Bytes) :
    Call Unit :=
  create lucky now [user0, user1, otherGroup] memo
    [idStore senderAt user0, idStore (senderAt + user.size) user1,
      idStore otherGroupAt otherGroup, amountStore operationAt amount]

def createOutboundTransfer (user0 user1 otherGroup : Bytes) (amount : UInt64) (memo : Bytes) :
    Call Unit :=
  create lucky now [user0, user1, otherGroup] memo
    [idStore senderAt user0, idStore (senderAt + userTransfer.size) user1,
      idStore otherGroupAt otherGroup, amountStore operationAt amount]

def addGroupFriend (id memo : Bytes) : Call Unit :=
  create lucky now [id] memo [idStore operationAt id]

def removeGroupFriend (id memo : Bytes) : Call Unit :=
  create lucky now [id] memo [idStore operationAt id]

def addUser (id memo : Bytes) : Call Unit :=
  create lucky now [id] memo [idStore operationAt id]

/-- `move_user_inbound`: the id is copied to both fields. -/
def moveUserInbound (id otherGroup memo : Bytes) : Call Unit :=
  create lucky now [id, otherGroup] memo [idStore operationAt id, idStore moveGroupAt id]

def moveUserOutbound (id otherGroup memo : Bytes) : Call Unit :=
  create lucky now [id, otherGroup] memo [idStore operationAt id, idStore moveGroupAt id]

end Functions

/-! ## Calls that store -/

section Stores

variable {ws : List (Nat × Bytes)} {b : Block}

/-- The block after the stores. -/
def Block.stored (b : Block) (ws : List (Nat × Bytes)) : Block :=
  { b with bytes := b.bytes.writes ws }

theorem Block.stored_append (b : Block) (ws ws' : List (Nat × Bytes)) :
    (b.stored ws).stored ws' = b.stored (ws ++ ws') := by
  rw [Block.stored, Block.stored, Block.stored, Memory.writes_append]

theorem store_ok {off : Nat} {bs : Bytes} (h : off + bs.length ≤ b.size) :
    store off bs (some b) = .ok () (some (b.stored [(off, bs)])) := by
  rw [store, get_bind]
  dsimp only
  rw [if_pos h]
  rfl

theorem stores_ok (h : ∀ w ∈ ws, w.1 + w.2.length ≤ b.size) :
    stores ws (some b) = .ok () (some (b.stored ws)) := by
  induction ws generalizing b with
  | nil => rfl
  | cons w ws ih =>
    rw [stores, bind_eq (store_ok (h w List.mem_cons_self))]
    exact ih fun w' hw' => h w' (List.mem_cons_of_mem w hw')

theorem store_ensures (off : Nat) (bs : Bytes) :
    Ensures (store off bs) (some b) fun _ s => s = some (b.stored [(off, bs)]) := by
  intro a s h
  by_cases hroom : off + bs.length ≤ b.size
  · rw [store_ok hroom] at h
    cases h
    rfl
  · rw [store, get_bind] at h
    dsimp only at h
    rw [if_neg hroom] at h
    cases h

theorem stores_ensures : Ensures (stores ws) (some b) fun _ s => s = some (b.stored ws) := by
  induction ws generalizing b with
  | nil => exact .pure rfl
  | cons w ws ih =>
    refine .bind ((store_ensures w.1 w.2).mono ?_)
    rintro _ _ rfl
    exact ih

theorem prepareMemoRecs_ensures (now : HederaTimestamp) (memo : Bytes) (s : Option Block) :
    Ensures (prepareMemoRecs now memo) s fun _ s' =>
      s' = some ((Block.alloc (1 + memoParts memo.length)).stored
        (headStores now ++ memoStores memo)) := by
  unfold prepareMemoRecs
  split
  · exact .throw
  · split
    · exact .throw
    · exact stores_ensures

end Stores

/-! ## The memo -/

theorem place_add (n off off' : Nat) {k : Nat}
    (h : off - versionNumberAt + k = off' - versionNumberAt) : place n off + k = place n off' := by
  rw [place, place, Nat.add_assoc, h]

theorem Block.transaction_eq (b : Block) (n : Nat) : b.transaction n =
      { toTransactionCommonHeader :=
          b.bytes.load TransactionCommonHeader.packed (place n versionNumberAt)
        signature := b.bytes.load Signature.packed (place n signatureAt)
        signatureCount := b.bytes.load Packed.byte (place n signatureCountAt)
        transactionType := b.bytes.load Packed.byte (place n transactionTypeAt)
        operation := b.bytes.load (Packed.array operationSize) (place n operationAt)
        result := b.bytes.load Packed.byte (place n resultAt)
        memo := b.bytes.load (Packed.array MEMO_MAIN_SIZE) (place n memoAt) } := by
  have hst : n * Transaction.packed.size = place n versionNumberAt := by
    rw [place, Nat.sub_self, Nat.add_zero]
  rw [Block.transaction, hst, Transaction.packed, Memory.load_map, Memory.load_pair,
    place_add n versionNumberAt signatureAt (by decide), Memory.load_pair,
    place_add n signatureAt signatureCountAt (by decide), Memory.load_pair,
    place_add n signatureCountAt transactionTypeAt (by decide), Memory.load_pair,
    place_add n transactionTypeAt operationAt (by decide), Memory.load_pair,
    place_add n operationAt resultAt (by decide), Memory.load_pair,
    place_add n resultAt memoAt (by decide)]
  rfl

/-- A piece of a memo in its field. -/
def padded (piece : Bytes) : Bytes := piece ++ List.replicate (MEMO_MAIN_SIZE - piece.length) 0

/-- The memo in pieces, each in the field of its transaction; the transactions behind the first
have nothing else. -/
structure SplitInto (memo : Bytes) (b : Block) (pieces : List Bytes) : Prop where
  count : b.records.length = 1 + memoParts memo.length
  whole : pieces.flatten = memo
  fields : b.records.map (fun t => t.memo.toList) = pieces.map padded
  others : ∀ t ∈ b.records.tail, t = { Transaction.packed.zero with memo := t.memo }

/-- A memo is split without loss, or rejected with nothing allocated. -/
structure MemoSplit (now : HederaTimestamp) (memo : Bytes) : Prop where
  split : 0 ∉ memo → memo.length ≤ MAX_TOTAL_MEMO_LENGTH →
    Returns (prepareMemoRecs now memo) none fun _ s => ∃ b pieces, s = some b ∧ SplitInto memo b pieces
  rejected : 0 ∈ memo ∨ MAX_TOTAL_MEMO_LENGTH < memo.length →
    ∃ ec, prepareMemoRecs now memo none = .error (.exit ec) none

variable {now : HederaTimestamp} {memo : Bytes} {b : Block} {pieces : List Bytes}

/-- A memo is never longer than the fields there are for it. -/
theorem SplitInto.length_le (h : SplitInto memo b pieces) :
    memo.length ≤ (1 + memoParts memo.length) * MEMO_MAIN_SIZE := by
  have hcount : pieces.length = 1 + memoParts memo.length := by
    rw [← h.count, ← List.length_map padded, ← h.fields, List.length_map]
  have hpi : ∀ n ∈ pieces.map List.length, n ≤ MEMO_MAIN_SIZE := by
    intro n hn
    obtain ⟨piece, hmem, rfl⟩ := List.mem_map.mp hn
    have hfi := List.mem_map_of_mem (f := padded) hmem
    rw [← h.fields] at hfi
    obtain ⟨t, -, ht⟩ := List.mem_map.mp hfi
    have hln := congrArg List.length ht
    rw [Vector.length_toList, padded, List.length_append] at hln
    omega
  have hsum := List.sum_le_card_nsmul _ MEMO_MAIN_SIZE hpi
  rw [List.length_map, smul_eq_mul, hcount, ← List.length_flatten, h.whole] at hsum
  exact hsum

/-- Behind two fields a transaction more is made for 150 bytes, and has room for 16. -/
theorem length_le_of_room (h : memo.length ≤ (1 + memoParts memo.length) * MEMO_MAIN_SIZE) :
    memo.length ≤ MEMO_MAIN_SIZE + MEMO_MAIN_SIZE := by
  unfold memoParts at h
  unfold MEMO_FULL_SIZE MEMO_MAIN_SIZE at *
  split at h
  · next hsh => omega
  · next hlong => omega

theorem prepareMemoRecs_rejected (h : 0 ∈ memo ∨ MAX_TOTAL_MEMO_LENGTH < memo.length) :
    ∃ ec, prepareMemoRecs now memo none = .error (.exit ec) none := by
  unfold prepareMemoRecs
  split
  · exact ⟨_, rfl⟩
  · next hlong =>
    rw [if_pos ((containsNull_iff memo).mpr (h.resolve_right hlong))]
    exact ⟨_, rfl⟩

/-- A memo that is not rejected, if it has room. -/
theorem prepareMemoRecs_ok (hnu : 0 ∉ memo) (hlong : memo.length ≤ MAX_TOTAL_MEMO_LENGTH)
    (hroom : ∀ w ∈ headStores now ++ memoStores memo,
      w.1 + w.2.length ≤ (Block.alloc (1 + memoParts memo.length)).size) :
    prepareMemoRecs now memo none = .ok () (some ((Block.alloc (1 + memoParts memo.length)).stored
      (headStores now ++ memoStores memo))) := by
  rw [prepareMemoRecs, if_neg (Nat.not_lt.mpr hlong), if_neg (mt (containsNull_iff memo).mp hnu)]
  exact stores_ok hroom

theorem records_stored (count : Nat) (ws : List (Nat × Bytes)) :
    ((Block.alloc count).stored ws).records
      = (List.range count).map ((Block.alloc count).stored ws).transaction := by
  have hpos : 0 < Transaction.packed.size := by decide
  rw [Block.records, Block.stored, Block.alloc, Nat.mul_div_cancel_left count hpos]

theorem memo_written {m : Memory} {off : Nat} {piece : Bytes}
    (hze : m.read off MEMO_MAIN_SIZE = List.replicate MEMO_MAIN_SIZE 0)
    (hle : piece.length ≤ MEMO_MAIN_SIZE) :
    ((m.write off piece).load (Packed.array MEMO_MAIN_SIZE) off).toList = padded piece := by
  have hre : ((m.write off piece).load (Packed.array MEMO_MAIN_SIZE) off).toList
      = (m.write off piece).read off MEMO_MAIN_SIZE :=
    Packed.toList_read_array (Memory.length_read _ _ _)
  rw [hre, Memory.read_write_here hle, hze, List.drop_replicate, padded]

/-- A member before the memo, where everything before the memo is the same. -/
theorem load_before_memo {α : Type} {P : Packed α} {m m' : Memory} {n : Nat} (off : Nat)
    (h : ∀ i, place n versionNumberAt ≤ i → i < place n memoAt → m' i = m i)
    (hoff : off - versionNumberAt + P.size ≤ memoAt - versionNumberAt) :
    m'.load P (place n off) = m.load P (place n off) := by
  refine Memory.load_congr (Memory.read_congr fun i hlo hhi => h i ?_ ?_)
  · unfold place at *
    omega
  · unfold place at *
    omega

/-- Only the memo has changed. -/
theorem transaction_before_memo {b b' : Block} {n : Nat}
    (h : ∀ i, place n versionNumberAt ≤ i → i < place n memoAt → b'.bytes i = b.bytes i) :
    b'.transaction n = { b.transaction n with memo := (b'.transaction n).memo } := by
  rw [b.transaction_eq, b'.transaction_eq, load_before_memo versionNumberAt h (by decide),
    load_before_memo signatureAt h (by decide), load_before_memo signatureCountAt h (by decide),
    load_before_memo transactionTypeAt h (by decide), load_before_memo operationAt h (by decide),
    load_before_memo resultAt h (by decide)]

theorem headStores_end (now : HederaTimestamp) :
    ∀ w ∈ headStores now, w.1 + w.2.length ≤ place 0 signatureAt := by
  simp only [headStores, List.forall_mem_cons, Packed.length_write]
  exact ⟨by decide, by decide, fun w hw => nomatch hw⟩

/-- A memo field that is stored to once. -/
theorem memo_stored {count n : Nat} {ws ws' : List (Nat × Bytes)} {piece : Bytes}
    (hbe : ∀ w ∈ ws, Memory.Apart (place n memoAt) MEMO_MAIN_SIZE w)
    (haf : ∀ w ∈ ws', Memory.Apart (place n memoAt) MEMO_MAIN_SIZE w)
    (hle : piece.length ≤ MEMO_MAIN_SIZE) :
    (((Block.alloc count).stored (ws ++ (place n memoAt, piece) :: ws')).transaction n).memo.toList
      = padded piece := by
  have hze : ((Block.alloc count).bytes.writes ws).read (place n memoAt) MEMO_MAIN_SIZE
      = List.replicate MEMO_MAIN_SIZE 0 :=
    (Memory.read_writes_apart hbe).trans (Memory.read_zeros _ _)
  rw [Block.transaction_eq, Block.stored]
  dsimp only
  rw [Memory.writes_append, Memory.writes, Memory.load_writes_apart haf]
  exact memo_written hze hle

/-- The stores of `prepare_memo_recs` before the memo. -/
theorem apart_head {n : Nat} : ∀ w ∈ headStores now,
    Memory.Apart (place n memoAt) MEMO_MAIN_SIZE w := by
  intro w hw
  refine .inl ((headStores_end now w hw).trans ?_)
  have hbe : signatureAt - versionNumberAt ≤ memoAt - versionNumberAt := by decide
  unfold place
  omega

theorem split_one (hsh : memo.length < MEMO_MAIN_SIZE) (hnu : 0 ∉ memo) :
    Returns (prepareMemoRecs now memo) none fun _ s =>
      ∃ b pieces, s = some b ∧ SplitInto memo b pieces := by
  have hpa : memoParts memo.length = 0 := if_pos hsh
  have hst : memoStores memo = [(place 0 memoAt, memo)] := if_pos hpa
  have hend : place 0 memoAt + MEMO_MAIN_SIZE = (Block.alloc (1 + 0)).size := by decide
  have hroom : ∀ w ∈ headStores now ++ memoStores memo,
      w.1 + w.2.length ≤ (Block.alloc (1 + memoParts memo.length)).size := by
    rw [hst, hpa, List.forall_mem_append, List.forall_mem_singleton]
    refine ⟨fun w hw => (headStores_end now w hw).trans (by decide), ?_⟩
    dsimp only
    omega
  have hca := prepareMemoRecs_ok hnu (Nat.le_trans (Nat.le_of_lt hsh) (by decide)) hroom
  refine ⟨(), _, hca, _, [memo], rfl, ?_⟩
  have hre := records_stored (1 + memoParts memo.length) (headStores now ++ memoStores memo)
  refine ⟨?_, List.flatten_singleton, ?_, ?_⟩
  · rw [hre, List.length_map, List.length_range]
  · rw [hre, hpa, hst]
    exact congrArg ([·]) (memo_stored apart_head (fun w hw => nomatch hw) (Nat.le_of_lt hsh))
  · rw [hre, hpa]
    exact fun t ht => nomatch ht

section Two

variable (hlong : MEMO_MAIN_SIZE ≤ memo.length)
  (hroom : memo.length ≤ MEMO_MAIN_SIZE + MEMO_MAIN_SIZE)
include hlong hroom

theorem memoParts_two : memoParts memo.length = 1 := by
  rw [memoParts, if_neg (Nat.not_lt.mpr hlong)]
  unfold MEMO_FULL_SIZE MEMO_MAIN_SIZE at *
  omega

theorem memoStores_two : memoStores memo = [(place 0 memoAt, memo.take MEMO_MAIN_SIZE),
      (place 1 memoAt, memo.drop MEMO_MAIN_SIZE)] := by
  have hre : (memo.drop MEMO_MAIN_SIZE).take (min MEMO_FULL_SIZE (memo.length - MEMO_MAIN_SIZE))
      = memo.drop MEMO_MAIN_SIZE := by
    refine List.take_of_length_le ?_
    rw [List.length_drop]
    unfold MEMO_FULL_SIZE MEMO_MAIN_SIZE at *
    omega
  rw [memoStores, memoParts_two hlong hroom, if_neg Nat.one_ne_zero, partStores, hre]
  rfl

/-- Where the two stores of the memo end. -/
theorem memoStores_two_end :
    place 0 memoAt + (memo.take MEMO_MAIN_SIZE).length = place 1 versionNumberAt ∧
      place 1 memoAt + (memo.drop MEMO_MAIN_SIZE).length ≤ (Block.alloc (1 + 1)).size := by
  have hne : place 0 memoAt + MEMO_MAIN_SIZE = place 1 versionNumberAt := by decide
  have hend : place 1 memoAt + MEMO_MAIN_SIZE = (Block.alloc (1 + 1)).size := by decide
  rw [List.length_take_of_le hlong, List.length_drop]
  exact ⟨hne, by omega⟩

theorem split_two (hnu : 0 ∉ memo) : Returns (prepareMemoRecs now memo) none fun _ s =>
      ∃ b pieces, s = some b ∧ SplitInto memo b pieces := by
  have hpa := memoParts_two hlong hroom
  have hst := memoStores_two hlong hroom
  obtain ⟨hfi, hse⟩ := memoStores_two_end hlong hroom
  have hme : place 1 versionNumberAt ≤ place 1 memoAt := by decide
  have hend : place 1 memoAt + MEMO_MAIN_SIZE = (Block.alloc (1 + 1)).size := by decide
  have hfits : ∀ w ∈ headStores now ++ memoStores memo,
      w.1 + w.2.length ≤ (Block.alloc (1 + memoParts memo.length)).size := by
    rw [hst, hpa, List.forall_mem_append, List.forall_mem_cons, List.forall_mem_singleton]
    refine ⟨fun w hw => (headStores_end now w hw).trans (by decide), ?_, hse⟩
    exact hfi.trans_le (by decide)
  have hca := prepareMemoRecs_ok hnu (Nat.le_trans hroom (by decide)) hfits
  refine ⟨(), _, hca, _, [memo.take MEMO_MAIN_SIZE, memo.drop MEMO_MAIN_SIZE], rfl, ?_⟩
  have hre := records_stored (1 + memoParts memo.length) (headStores now ++ memoStores memo)
  refine ⟨?_, ?_, ?_, ?_⟩
  · rw [hre, List.length_map, List.length_range]
  · rw [List.flatten_cons, List.flatten_singleton, List.take_append_drop]
  · rw [hre, hpa, hst]
    refine congrArg₂ (fun x y => [x, y]) ?_ ?_
    · refine memo_stored apart_head ?_ (List.length_take_le _ _)
      rw [List.forall_mem_singleton]
      exact Memory.apart_above (by decide)
    · rw [List.append_cons]
      refine memo_stored ?_ (fun w hw => nomatch hw) (by omega)
      rw [List.forall_mem_append, List.forall_mem_singleton]
      exact ⟨apart_head, .inl (hfi.trans_le hme)⟩
  · rw [hre, hpa, hst]
    intro t ht
    obtain rfl := List.mem_singleton.mp ht
    have hze : (Block.alloc (1 + 1)).transaction 1 = Transaction.packed.zero :=
      Memory.load_zeros _ _
    rw [← hze]
    refine transaction_before_memo fun i hlo hhi => Memory.writes_apart ?_
    rw [List.forall_mem_append, List.forall_mem_cons, List.forall_mem_singleton]
    refine ⟨fun w hw => .inl ?_, .inl (hfi.trans_le hlo), .inr hhi⟩
    exact (headStores_end now w hw).trans (Nat.le_trans (by decide) hlo)

end Two

/-- **The memo.**  A memo is split without loss, or rejected, just if one that is not rejected
fits into two fields. -/
theorem memoSplit_iff (now : HederaTimestamp) (memo : Bytes) :
    MemoSplit now memo ↔ (0 ∉ memo → memo.length ≤ MAX_TOTAL_MEMO_LENGTH →
      memo.length ≤ MEMO_MAIN_SIZE + MEMO_MAIN_SIZE) := by
  constructor
  · intro h hnu hlong
    obtain ⟨_, _, -, b, pieces, -, hsp⟩ := h.split hnu hlong
    exact length_le_of_room hsp.length_le
  · intro h
    refine ⟨fun hnu hlong => ?_, prepareMemoRecs_rejected⟩
    rcases Nat.lt_or_ge memo.length MEMO_MAIN_SIZE with hsh | hma
    · exact split_one hsh hnu
    · exact split_two hma (h hnu hlong) hnu

/-- With 33 bytes the second piece goes on behind the last transaction; with 166 there are three
transactions, and the second piece goes on in the header of the third. -/
theorem memo_spilled : (∃ s, prepareMemoRecs ⟨0, 0⟩ (List.replicate 33 97) none
        = .error (.fault (.undefined "store past the end of the block")) s) ∧
      ∃ b, prepareMemoRecs ⟨0, 0⟩ (List.replicate 166 97) none = .ok () (some b) ∧
        b.records.length = 3 ∧ (b.transaction 2).versionNumber = 0x61616161 := by
  refine ⟨⟨_, rfl⟩, _, prepareMemoRecs_ok (by decide +kernel) ?_ (by decide +kernel), ?_, ?_⟩
  · decide +kernel
  · rw [records_stored, List.length_map, List.length_range]
    decide +kernel
  · decide +kernel

/-! ## The ids -/

/-- 64 hexadecimal digits. -/
def isId (id : Bytes) : Bool := id.length = PUB_KEY_LENGTH_HEX && isHex id

/-- What is wrong with an id. -/
def idError (id : Bytes) : ExitCode :=
  if id.length ≠ PUB_KEY_LENGTH_HEX then .idBadLength else .idNotAHex

/-- How many ids are checked before the first that is wrong. -/
def goodIds (ids : List Bytes) : Nat := (ids.takeWhile isId).length

theorem find_bad {ids : List Bytes} {id : Bytes} (h : ids.find? (fun id => !isId id) = some id) :
    id ∈ ids ∧ isId id = false := by
  have hbad : (!isId id) = true := List.find?_some (p := fun id => !isId id) h
  exact ⟨List.mem_of_find?_eq_some h, (Bool.not_eq_true' _).mp hbad⟩

theorem exists_find_bad {ids : List Bytes} (h : ∃ id ∈ ids, isId id = false) :
    ∃ id, ids.find? (fun id => !isId id) = some id := by
  obtain ⟨id, hmem, hbad⟩ := h
  refine Option.isSome_iff_exists.mp (List.find?_isSome.mpr ⟨id, hmem, ?_⟩)
  rw [hbad]
  rfl

theorem checkId_good {id : Bytes} (h : isId id = true) (lucky : Bool) (s : Option Block) :
    checkId lucky id s = if lucky then .ok () s
      else .error (.fault (.undefined "check_id without a return")) s := by
  obtain ⟨hln, hhex⟩ := Bool.and_eq_true_iff.mp h
  rw [checkId, if_neg (not_not.mpr (of_decide_eq_true hln)), hhex, Bool.not_true,
    if_neg Bool.false_ne_true]
  split
  · rfl
  · rfl

theorem checkId_bad {id : Bytes} (h : isId id = false) (lucky : Bool) (s : Option Block) :
    checkId lucky id s = .error (.exit (idError id)) s := by
  unfold checkId idError
  split
  · rfl
  · next hln =>
    rw [isId, decide_eq_true (not_not.mp hln), Bool.true_and] at h
    rw [h, Bool.not_false, if_pos rfl]
    rfl

/-- The first id that is wrong is reported, if the checks before it happen to be `OK`; and if they
do not, the call is undefined. -/
theorem checkIds_bad {lucky : Nat → Bool} {ids : List Bytes} {id : Bytes} {s : Option Block}
    (hbad : ids.find? (fun id => !isId id) = some id) :
    checkIds lucky ids s = .error (if ∀ i < goodIds ids, lucky i = true then .exit (idError id)
      else .fault (.undefined "check_id without a return")) s := by
  induction ids generalizing lucky with
  | nil => cases hbad
  | cons first ids ih =>
    rw [goodIds, List.takeWhile_cons]
    cases hfi : isId first with
    | false =>
      rw [List.find?_cons_of_pos (by rw [hfi]; rfl)] at hbad
      cases hbad
      exact bind_error (checkId_bad hfi _ s)
    | true =>
      rw [List.find?_cons_of_neg (by rw [hfi]; exact Bool.false_ne_true)] at hbad
      have hch := checkId_good hfi (lucky 0) s
      cases hlu : lucky 0 with
      | false =>
        rw [hlu] at hch
        rw [checkIds, hlu, bind_error hch, if_neg]
        exact fun hall => Bool.false_ne_true (hlu.symm.trans (hall 0 (Nat.succ_pos _)))
      | true =>
        rw [hlu] at hch
        rw [checkIds, hlu, bind_eq hch, ih hbad]
        refine congrArg (EStateM.Result.error · s) (if_congr ?_ rfl rfl)
        rw [if_pos rfl, List.length_cons, Nat.forall_lt_succ_left]
        exact (and_iff_right hlu).symm

/-! ## The fields -/

/-- One of the nine functions and its arguments, but for the memo. -/
inductive Request where
  | gradidoCreation (user : Bytes) (amount : UInt64)
  | localTransfer (user0 user1 : Bytes) (amount : UInt64)
  | inboundTransfer (user0 user1 otherGroup : Bytes) (amount : UInt64)
  | outboundTransfer (user0 user1 otherGroup : Bytes) (amount : UInt64)
  | addGroupFriend (id : Bytes)
  | removeGroupFriend (id : Bytes)
  | addUser (id : Bytes)
  | moveUserInbound (id otherGroup : Bytes)
  | moveUserOutbound (id otherGroup : Bytes)

namespace Request

/-- The call. -/
def perform (lucky : Nat → Bool) (now : HederaTimestamp) (memo : Bytes) : Request → Call Unit
  | gradidoCreation user amount => createGradidoCreation lucky now user amount memo
  | localTransfer user0 user1 amount => createLocalTransfer lucky now user0 user1 amount memo
  | inboundTransfer user0 user1 otherGroup amount =>
    createInboundTransfer lucky now user0 user1 otherGroup amount memo
  | outboundTransfer user0 user1 otherGroup amount =>
    createOutboundTransfer lucky now user0 user1 otherGroup amount memo
  | addGroupFriend id => TransactionFactory.addGroupFriend lucky now id memo
  | removeGroupFriend id => TransactionFactory.removeGroupFriend lucky now id memo
  | addUser id => TransactionFactory.addUser lucky now id memo
  | moveUserInbound id otherGroup =>
    TransactionFactory.moveUserInbound lucky now id otherGroup memo
  | moveUserOutbound id otherGroup =>
    TransactionFactory.moveUserOutbound lucky now id otherGroup memo

/-- The ids, in the order they are checked. -/
def ids : Request → List Bytes
  | gradidoCreation user _ => [user]
  | localTransfer user0 user1 _ => [user0, user1]
  | inboundTransfer user0 user1 otherGroup _ => [user0, user1, otherGroup]
  | outboundTransfer user0 user1 otherGroup _ => [user0, user1, otherGroup]
  | addGroupFriend id | removeGroupFriend id | addUser id => [id]
  | moveUserInbound id otherGroup | moveUserOutbound id otherGroup => [id, otherGroup]

/-- The type of the transaction the function is for. -/
def transactionType : Request → UInt8
  | gradidoCreation _ _ => GRADIDO_CREATION
  | localTransfer _ _ _ => LOCAL_TRANSFER
  | inboundTransfer _ _ _ _ => INBOUND_TRANSFER
  | outboundTransfer _ _ _ _ => OUTBOUND_TRANSFER
  | addGroupFriend _ => ADD_GROUP_FRIEND
  | removeGroupFriend _ => REMOVE_GROUP_FRIEND
  | addUser _ => ADD_USER
  | moveUserInbound _ _ => MOVE_USER_INBOUND
  | moveUserOutbound _ _ => MOVE_USER_OUTBOUND

/-- A user that moves; nothing has been calculated. -/
def moveOf (pairedId : HederaTimestamp) (id otherGroup : Bytes) : MoveUser where
  toUserTransfer := ownUser (hexToBytes id)
  toPairedTransaction := ⟨pairedId, groupField (hexToBytes otherGroup)⟩

/-- The transaction with the fields as they are given, and nothing calculated. -/
def body (pairedId : HederaTimestamp) : Request → TransactionBody
  | gradidoCreation user amount => .gradidoCreation ⟨ownUser (hexToBytes user), ⟨amount, 0⟩⟩
  | localTransfer user0 user1 amount =>
    .localTransfer ⟨⟨amount, 0⟩, ownUser (hexToBytes user0), ownUser (hexToBytes user1)⟩
  | inboundTransfer user0 user1 otherGroup amount =>
    .inboundTransfer ⟨⟨pairedId, groupField (hexToBytes otherGroup)⟩, ⟨amount, 0⟩,
      keyOf (hexToBytes user0), ownUser (hexToBytes user1)⟩
  | outboundTransfer user0 user1 otherGroup amount =>
    .outboundTransfer ⟨⟨pairedId, groupField (hexToBytes otherGroup)⟩, ⟨amount, 0⟩,
      ownUser (hexToBytes user0), keyOf (hexToBytes user1)⟩
  | addGroupFriend id => .addGroupFriend (groupField (hexToBytes id))
  | removeGroupFriend id => .removeGroupFriend (groupField (hexToBytes id))
  | addUser id => .addUser (keyOf (hexToBytes id))
  | moveUserInbound id otherGroup => .moveUserInbound (moveOf pairedId id otherGroup)
  | moveUserOutbound id otherGroup => .moveUserOutbound (moveOf pairedId id otherGroup)

/-- What the functions do after their checks is to copy into the union, or behind it. -/
theorem exists_copies (request : Request) : ∃ ws : List (Nat × Bytes),
    (∀ lucky now memo, request.perform lucky now memo = create lucky now request.ids memo ws) ∧
      ∀ w ∈ ws, place 0 operationAt ≤ w.1 := by
  cases request <;> refine ⟨_, fun _ _ _ => rfl, ?_⟩ <;>
    simp only [List.forall_mem_cons, idStore, amountStore] <;> decide

theorem transactionType_ne_zero (request : Request) : request.transactionType ≠ 0 := by
  cases request <;> exact ne_of_beq_false rfl

end Request

theorem partStores_above (memo : Bytes) (parts i cp : Nat) :
    ∀ w ∈ partStores memo parts i cp, place 0 operationAt ≤ w.1 := by
  induction parts generalizing i cp with
  | zero => exact fun w hw => nomatch hw
  | succ parts ih =>
    rw [partStores, List.forall_mem_cons]
    refine ⟨?_, ih _ _⟩
    have hme : operationAt - versionNumberAt ≤ memoAt - versionNumberAt := by decide
    unfold place
    omega

theorem memoStores_above (memo : Bytes) : ∀ w ∈ memoStores memo, place 0 operationAt ≤ w.1 := by
  have hme : place 0 operationAt ≤ place 0 memoAt := by decide
  unfold memoStores
  split
  · rw [List.forall_mem_singleton]
    exact hme
  · rw [List.forall_mem_cons]
    exact ⟨hme, partStores_above memo _ _ _⟩

theorem create_ensures (lucky : Nat → Bool) (now : HederaTimestamp) (ids : List Bytes)
    (memo : Bytes) (copies : List (Nat × Bytes)) (s : Option Block) :
    Ensures (create lucky now ids memo copies) s fun _ s' =>
      s' = some ((Block.alloc (1 + memoParts memo.length)).stored
        (headStores now ++ memoStores memo ++ copies)) := by
  refine .bind fun _ s₁ _ => .bind ((prepareMemoRecs_ensures now memo s₁).mono ?_)
  rintro _ _ rfl
  refine stores_ensures.mono ?_
  rintro _ _ rfl
  exact congrArg some (Block.stored_append _ _ _)

/-- No function stores the type. -/
theorem perform_type (lucky : Nat → Bool) (now : HederaTimestamp) (memo : Bytes)
    (request : Request) (s : Option Block) :
    Ensures (request.perform lucky now memo) s fun _ s' =>
      ∀ b, s' = some b → (b.transaction 0).transactionType = 0 := by
  obtain ⟨ws, hpe, hab⟩ := request.exists_copies
  rw [hpe]
  refine (create_ensures lucky now request.ids memo ws s).mono ?_
  rintro _ _ rfl b hb
  cases hb
  rw [Block.transaction_eq]
  dsimp only
  refine (Memory.load_writes_apart ?_).trans (Memory.load_zeros _ _)
  rw [List.forall_mem_append, List.forall_mem_append]
  refine ⟨⟨fun w hw => .inl ?_, fun w hw => .inr ?_⟩, fun w hw => .inr ?_⟩
  · exact (headStores_end now w hw).trans (by decide)
  · exact Nat.le_trans (by decide) (memoStores_above memo w hw)
  · exact Nat.le_trans (by decide) (hab w hw)

/-- At most 15 bytes, none of them NUL. -/
def ShortMemo (memo : Bytes) : Prop := memo.length < MEMO_MAIN_SIZE ∧ 0 ∉ memo

/-- The transaction the function is for, with the fields it was given. -/
structure Filled (request : Request) (t : Transaction) : Prop where
  type : t.transactionType = request.transactionType
  fields : ∃ pairedId, t.body = request.body pairedId
  result : t.result = 0

/-- With ids that are right the function makes one transaction, the one it is for; an id that is
wrong is reported. -/
structure FillsFields (lucky : Nat → Bool) (now : HederaTimestamp) (memo : Bytes)
    (request : Request) : Prop where
  filled : ShortMemo memo → (∀ id ∈ request.ids, isId id = true) →
    Returns (request.perform lucky now memo) none fun _ s =>
      ∃ b, s = some b ∧ b.records.length = 1 ∧ Filled request (b.transaction 0)
  refused : ∀ id, request.ids.find? (fun id => !isId id) = some id →
    request.perform lucky now memo none = .error (.exit (idError id)) none

/-- **The fields.**  A function does what it is for just if an id is wrong, unless the memo is too
long, and the checks of the ids before happen to be `OK`. -/
theorem fillsFields_iff (lucky : Nat → Bool) (now : HederaTimestamp) (memo : Bytes)
    (request : Request) :
    FillsFields lucky now memo request ↔ (ShortMemo memo → ∃ id ∈ request.ids, isId id = false) ∧
      ((∃ id ∈ request.ids, isId id = false) → ∀ i < goodIds request.ids, lucky i = true) := by
  obtain ⟨ws, hpe, -⟩ := request.exists_copies
  constructor
  · intro h
    constructor
    · intro hsh
      by_contra hall
      have hgo : ∀ id ∈ request.ids, isId id = true := by
        intro id hid
        exact Bool.of_not_eq_false fun hbad => hall ⟨id, hid, hbad⟩
      obtain ⟨_, _, hca, b, rfl, -, hfi⟩ := h.filled hsh hgo
      have htype := perform_type lucky now memo request none _ _ hca b rfl
      exact request.transactionType_ne_zero (hfi.type.symm.trans htype)
    · intro hbad
      obtain ⟨id, hid⟩ := exists_find_bad hbad
      have hca := h.refused id hid
      by_contra hun
      rw [hpe, create, bind_error (checkIds_bad hid), if_neg hun] at hca
      cases hca
  · rintro ⟨hso, hlu⟩
    constructor
    · intro hsh hgo
      obtain ⟨id, hid, hbad⟩ := hso hsh
      cases (hgo id hid).symm.trans hbad
    · intro id hid
      rw [hpe, create, bind_error (checkIds_bad hid), if_pos (hlu ⟨id, find_bad hid⟩)]

/-- A creation for the user 00…0 has no type, the digits for the user, and digits for the balance;
an outbound transfer is stored to behind its end. -/
theorem creation_misfilled :
    (∃ b, (Request.gradidoCreation (List.replicate 64 48) 5).perform (fun _ => true) ⟨0, 0⟩ [] none
        = .ok () (some b) ∧
      (b.transaction 0).transactionType = 0 ∧
      hexToBytes (List.replicate 64 48) = List.replicate 32 0 ∧
      ((b.transaction 0).member gradidoCreation).1.1.toList = List.replicate 32 48 ∧
      ((b.transaction 0).member gradidoCreation).1.2.1.amount = 0x3030303030303030) ∧
    ∃ s, (Request.outboundTransfer (List.replicate 64 48) (List.replicate 64 48)
        (List.replicate 64 48) 5).perform (fun _ => true) ⟨0, 0⟩ [] none
        = .error (.fault (.undefined "store past the end of the block")) s := by
  refine ⟨⟨_, rfl, ?_, ?_, ?_, ?_⟩, ⟨_, rfl⟩⟩
  · decide +kernel
  · decide +kernel
  · decide +kernel
  · decide +kernel

end GradidoNode.Wire.TransactionFactory
