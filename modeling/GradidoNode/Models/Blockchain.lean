/-
# `GradidoNode.Models.Blockchain` — blockchains of the Erlang model

`gradido.erl` has blockchains as terms `{blockchain, Blocks, BlockCount, LastBlockSize}`,
blocks newest first and rows of a block newest first.  The first row of a block is its
checksum, the running checksum of all records up to there.  A block has ten rows at most.

    [[C12, R12, R11, R10], [C9, R9, …, R1]]       twelve records

`bc_append` replaces the checksum of the newest block, or begins a new block.
`bc_verify_checksum` takes all records out, newest first, and compares the checksum it
calculates over them with the first row of the newest block.  It goes by the two numbers:
the last block size says how many rows are to come in the newest block, and from there on a
block begins with a checksum and has nine rows behind it.

`erlang:phash2` is any function.
-/
import GradidoNode.Lib.Erlang
import Mathlib.Data.List.Basic
import Mathlib.Data.List.Induction

namespace GradidoNode

open Lib.Erlang (Crash except_map_eq_ok)
open Lib.Erlang.Term (nil_eq_ofList cons_eq_ofList)

namespace Models

/-- The atoms of `gradido.erl`, and others. -/
inductive Atom where
  | blockchain
  | checksum
  | notAChecksum
  | signature
  | keyPair
  | subclasterBlockchain
  | selfSigned
  | caSigned
  | admin
  | orderingNode
  | doOrder
  | sbAppendTransaction
  | finish
  | todo
  | endpoint
  | other (n : Nat)
  deriving DecidableEq, Encodable

abbrev Term := Lib.Erlang.Term Atom

@[match_pattern] abbrev checksum (x : Term) : Term := .pair (.atom .checksum) x

def BLOCK_SIZE : Int := 10

/-- `{blockchain, Blocks, BlockCount, LastBlockSize}`. -/
structure Bc where
  blocks : Term
  blockCount : Int
  lastBlockSize : Int
  deriving DecidableEq

def Bc.toTerm (b : Bc) : Term :=
  .quadruple (.atom .blockchain) b.blocks (.int b.blockCount) (.int b.lastBlockSize)

def bcZeroChecksum : Term := checksum (.int 0)

def bcCreate : Bc := ⟨.nil, 0, 0⟩

variable (phash2 : Term → Int)

def bcChecksum (rec : Term) : Term → Term
  | checksum prevChecksum => checksum (.int (phash2 (.pair rec prevChecksum)))
  | _ => .atom .notAChecksum

def bcAppend (b : Bc) (rec : Term) : Except Crash Bc :=
  match b with
  | ⟨.nil, 0, 0⟩ => .ok ⟨.ofList [.ofList [bcChecksum phash2 rec bcZeroChecksum, rec]], 1, 2⟩
  | ⟨.cons (.cons (checksum x) lastBlockRest) restBlocks, blockCount, lastBlockSize⟩ =>
    if lastBlockSize = BLOCK_SIZE then
      .ok ⟨.cons (.ofList [bcChecksum phash2 rec (checksum x), rec])
        (.cons (.cons (checksum x) lastBlockRest) restBlocks), blockCount + 1, 2⟩
    else
      .ok ⟨.cons (.cons (bcChecksum phash2 rec (checksum x)) (.cons rec lastBlockRest)) restBlocks,
        blockCount, lastBlockSize + 1⟩
  | _ => .error .functionClause

/-- What `bc_extract_records` returns. -/
inductive Extracted where
  | records (acc : List Term)
  | badLastBlockSize
  | badBlockCount
  | badBlockCountAndLastBlockSize
  | badBlockCount2
  | badLastBlockSize2
  | badBlockCountAndLastBlockSize2
  | badLastBlockSize3
  | checksumExpected
  deriving DecidableEq

/-- `{checksum, _}`. -/
def isChecksum : Term → Bool
  | checksum _ => true
  | _ => false

theorem isChecksum_iff {t : Term} : isChecksum t = true ↔ ∃ x, t = checksum x := by
  unfold isChecksum
  split
  · exact ⟨fun _ => ⟨_, rfl⟩, fun _ => rfl⟩
  · rename_i hno
    exact ⟨fun h => (nomatch h), fun ⟨x, h⟩ => absurd h (hno x)⟩

def bcExtractRecords : Term → Int → Int → List Term → Except Crash Extracted
  | .nil, 0, 0, acc => .ok (.records acc)
  | .nil, 0, _, _ => .ok .badLastBlockSize
  | .nil, _, 0, _ => .ok .badBlockCount
  | .nil, _, _, _ => .ok .badBlockCountAndLastBlockSize
  | blocks, blockCount, lastBlockSize, acc =>
    if blockCount < 0 then .ok .badBlockCount2
    else if lastBlockSize < 0 then .ok .badLastBlockSize2
    else if lastBlockSize < 0 ∧ blockCount < 0 then .ok .badBlockCountAndLastBlockSize2
    else
      match blocks with
      | .cons .nil .nil => bcExtractRecords .nil (blockCount - 1) lastBlockSize acc
      | .cons .nil bt =>
        if 0 < lastBlockSize then .ok .badLastBlockSize3
        else bcExtractRecords bt (blockCount - 1) BLOCK_SIZE acc
      | .cons (.cons cbh cbt) bt =>
        if lastBlockSize = BLOCK_SIZE then
          if isChecksum cbh then
            bcExtractRecords (.cons cbt bt) blockCount (BLOCK_SIZE - 1) acc
          else .ok .checksumExpected
        else bcExtractRecords (.cons cbt bt) blockCount (lastBlockSize - 1) (cbh :: acc)
      | _ => .error .functionClause
termination_by blocks => sizeOf blocks

/-- What `bc_verify_checksum` returns; `extracted` is what `bc_extract_records` returns
when it is not the records. -/
inductive Verified where
  | ok
  | checksumsMatch
  | checksumsDontMatch
  | extracted (e : Extracted)
  | lastRecordNotChecksumOrBadBlockStructure
  | notABlockchain
  deriving DecidableEq

def bcDoVerifyRecords : List Term → Term → Term → Verified
  | [], c, c1 => if c = c1 then .checksumsMatch else .checksumsDontMatch
  | h :: t, c0, c1 => bcDoVerifyRecords t (bcChecksum phash2 h c0) c1

/-- What is done with what `bc_extract_records` returns. -/
def verifyExtracted (lastChecksum : Term) : Extracted → Verified
  | .records r => bcDoVerifyRecords phash2 r bcZeroChecksum lastChecksum
  | e => .extracted e

def bcVerifyChecksum : Term → Except Crash Verified
  | .quadruple (.atom .blockchain) .nil (.int 0) (.int 0) => .ok .ok
  | .quadruple (.atom .blockchain) (.cons .nil .nil) (.int 0) (.int 0) => .ok .ok
  | .quadruple (.atom .blockchain) (.cons (.cons (checksum x) lb) b) (.int blockCount)
      (.int lastBlockSize) =>
      (bcExtractRecords (.cons lb b) blockCount (lastBlockSize - 1) []).map
        (verifyExtracted phash2 (checksum x))
  | .quadruple (.atom .blockchain) blocks (.int _) (.int _) =>
    .ok (if blocks.isList then .lastRecordNotChecksumOrBadBlockStructure else .notABlockchain)
  | _ => .ok .notABlockchain

/-- `bc_append` of all records of a list, from `bc_create()`. -/
def bcAppendAll (recs : List Term) : Except Crash Bc := recs.foldlM (bcAppend phash2) bcCreate

/-! ## Running checksums -/

/-- The checksum of all records of a list. -/
def running (recs : List Term) : Term :=
  recs.foldl (fun c rec => bcChecksum phash2 rec c) bcZeroChecksum

variable {phash2}

theorem running_concat (recs : List Term) (rec : Term) :
    running phash2 (recs ++ [rec]) = bcChecksum phash2 rec (running phash2 recs) := by
  rw [running, List.foldl_append]
  rfl

theorem exists_running (phash2 : Term → Int) (recs : List Term) :
    ∃ k : Int, running phash2 recs = checksum (.int k) := by
  induction recs using List.reverseRecOn with
  | nil => exact ⟨0, rfl⟩
  | append_singleton recs rec ih =>
    obtain ⟨k, hk⟩ := ih
    exact ⟨_, by rw [running_concat, hk]; rfl⟩

variable {recs : List Term}

/-- Records are compared with the checksum over them. -/
theorem bcDoVerifyRecords_eq_match {c₁ : Term} :
    bcDoVerifyRecords phash2 recs bcZeroChecksum c₁ = .checksumsMatch ↔
      running phash2 recs = c₁ := by
  have hge : ∀ (recs : List Term) (c : Term), bcDoVerifyRecords phash2 recs c c₁ = .checksumsMatch ↔
        recs.foldl (fun c rec => bcChecksum phash2 rec c) c = c₁ := by
    intro recs
    induction recs with
    | nil =>
      intro c
      rw [bcDoVerifyRecords, List.foldl_nil]
      split
      · rename_i heq
        exact ⟨fun _ => heq, fun _ => rfl⟩
      · rename_i hne
        exact ⟨fun h => (nomatch h), fun h => absurd h hne⟩
    | cons rec recs ih =>
      intro c
      exact ih _
  exact hge recs bcZeroChecksum

/-! ## What records are taken out

Blocks as lists of rows.  In the blocks behind the newest one, a checksum comes first and
nine rows follow; what the checksum is does not matter. -/

def ofBlocks (blocks : List (List Term)) : Term := .ofList (blocks.map .ofList)

theorem ofBlocks_injective {bs bs' : List (List Term)} (h : ofBlocks bs = ofBlocks bs') :
    bs = bs' :=
  List.map_injective_iff.mpr (fun _ _ => Lib.Erlang.Term.ofList_injective)
    (Lib.Erlang.Term.ofList_injective h)

/-- A block that is as `bc_extract_records` expects it at the size ten. -/
def FullBlock (block : List Term) : Prop :=
  ∃ x rows, block = checksum x :: rows ∧ rows.length = 9

/-- The records of blocks, oldest first. -/
def recordsOf : List (List Term) → List Term
  | [] => []
  | block :: blocks => recordsOf blocks ++ block.tail.reverse

variable {blk rest : Term} {n l : Int} {acc out : List Term}

/-- The guards that come before the blocks are looked at. -/
theorem extract_guards {body : Except Crash Extracted} : (if n < 0 then .ok .badBlockCount2
      else if l < 0 then .ok .badLastBlockSize2
      else if l < 0 ∧ n < 0 then .ok .badBlockCountAndLastBlockSize2
      else body) = Except.ok (Extracted.records out) ↔
      0 ≤ n ∧ 0 ≤ l ∧ body = .ok (.records out) := by
  grind

theorem extract_nil :
    bcExtractRecords .nil n l acc = .ok (.records out) ↔ n = 0 ∧ l = 0 ∧ out = acc := by
  unfold bcExtractRecords
  split <;> grind

theorem extract_row {h t : Term} :
    bcExtractRecords (.cons (.cons h t) rest) n l acc = .ok (.records out) ↔ 0 ≤ n ∧ 0 ≤ l ∧
        if l = BLOCK_SIZE then
          isChecksum h ∧ bcExtractRecords (.cons t rest) n 9 acc = .ok (.records out)
        else bcExtractRecords (.cons t rest) n (l - 1) (h :: acc) = .ok (.records out) := by
  rw [bcExtractRecords, extract_guards]
  refine and_congr_right fun _ => and_congr_right fun _ => ?_
  split
  · split
    · rename_i hch
      exact ⟨fun h => ⟨hch, h⟩, fun h => h.2⟩
    · rename_i hch
      exact ⟨fun h => (nomatch h), fun h => absurd h.1 hch⟩
  · rfl

theorem extract_blockEnd : bcExtractRecords (.cons .nil rest) n l acc = .ok (.records out) ↔
      0 ≤ n ∧ l = 0 ∧ if rest = .nil then n = 1 ∧ out = acc
        else bcExtractRecords rest (n - 1) BLOCK_SIZE acc = .ok (.records out) := by
  by_cases hre : rest = .nil
  · subst hre
    rw [if_pos rfl, bcExtractRecords, extract_guards, extract_nil]
    grind
  · rw [if_neg hre, bcExtractRecords, extract_guards]
    · grind
    · exact hre

/-- Blocks that are no list, or begin with a block that is none. -/
theorem extract_improper {blocks : Term}
    (h : blocks.isList = false ∨ ∃ blk rest, blocks = .cons blk rest ∧ blk.isList = false) :
    bcExtractRecords blocks n l acc ≠ .ok (.records out) := by
  rw [bcExtractRecords, Ne, extract_guards]
  · exact fun h => (nomatch h.2.2)
  all_goals grind [Lib.Erlang.Term.isList]

theorem extract_rows (hl : l ≤ 9) : bcExtractRecords (.cons blk rest) n l acc = .ok (.records out) ↔
      ∃ rows, blk = .ofList rows ∧ (rows.length : Int) = l ∧
        bcExtractRecords (.cons .nil rest) n 0 (rows.reverse ++ acc) = .ok (.records out) := by
  induction blk generalizing l acc with
  | nil =>
    constructor
    · intro h
      have hl := (extract_blockEnd.mp h).2.1
      exact ⟨[], rfl, hl.symm, hl ▸ h⟩
    · rintro ⟨rows, hro, hlen, h⟩
      obtain rfl := nil_eq_ofList.mp hro
      exact hlen ▸ h
  | cons h t _ ih =>
    have hne : l ≠ BLOCK_SIZE := by
      rw [BLOCK_SIZE]
      omega
    rw [extract_row, if_neg hne, ih (Int.le_trans (Int.sub_le_self _ (by decide)) hl)]
    constructor
    · rintro ⟨-, -, rows, rfl, hlen, hout⟩
      refine ⟨h :: rows, rfl, ?_, ?_⟩
      · rw [List.length_cons]
        omega
      · rw [List.reverse_cons, List.append_assoc]
        exact hout
    · rintro ⟨rows, hro, hlen, hout⟩
      obtain ⟨rows, rfl, rfl⟩ := cons_eq_ofList.mp hro
      rw [List.length_cons] at hlen
      rw [List.reverse_cons, List.append_assoc] at hout
      exact ⟨(extract_blockEnd.mp hout).1, by omega, rows, rfl, by omega, hout⟩
  | _ =>
    refine ⟨fun h => absurd h (extract_improper (.inr ⟨_, _, rfl, rfl⟩)), ?_⟩
    rintro ⟨rows, hro, -⟩
    cases rows <;> cases hro

theorem extract_full : bcExtractRecords (.cons blk rest) n BLOCK_SIZE acc = .ok (.records out) ↔
      ∃ block, blk = .ofList block ∧ FullBlock block ∧
        bcExtractRecords (.cons .nil rest) n 0 (block.tail.reverse ++ acc) =
          .ok (.records out) := by
  cases blk with
  | nil =>
    constructor
    · intro h
      exact absurd (extract_blockEnd.mp h).2.1 (by decide)
    · rintro ⟨block, hblock, ⟨x, rows, rfl, -⟩, -⟩
      cases hblock
  | cons h t =>
    rw [extract_row, if_pos rfl, extract_rows (by decide)]
    constructor
    · rintro ⟨-, -, hch, rows, rfl, hlen, hout⟩
      obtain ⟨x, rfl⟩ := isChecksum_iff.mp hch
      exact ⟨checksum x :: rows, rfl, ⟨x, rows, rfl, by omega⟩, hout⟩
    · rintro ⟨block, hblock, ⟨x, rows, rfl, hlen⟩, hout⟩
      cases hblock
      exact ⟨(extract_blockEnd.mp hout).1, by decide, rfl, rows, rfl, by omega, hout⟩
  | _ =>
    refine ⟨fun h => absurd h (extract_improper (.inr ⟨_, _, rfl, rfl⟩)), ?_⟩
    rintro ⟨block, hblock, -⟩
    cases block <;> cases hblock

theorem extract_older : bcExtractRecords (.cons .nil rest) n 0 acc = .ok (.records out) ↔
      ∃ old, rest = ofBlocks old ∧ n = old.length + 1 ∧ (∀ block ∈ old, FullBlock block) ∧
        out = recordsOf old ++ acc := by
  induction rest generalizing n acc with
  | nil =>
    rw [extract_blockEnd, if_pos rfl]
    constructor
    · rintro ⟨-, -, rfl, rfl⟩
      exact ⟨[], rfl, rfl, fun _ h => (nomatch h), rfl⟩
    · rintro ⟨old, hold, rfl, -, rfl⟩
      obtain rfl := List.map_eq_nil_iff.mp (nil_eq_ofList.mp hold)
      exact ⟨by decide, rfl, rfl, rfl⟩
  | cons blk rest _ ih =>
    rw [extract_blockEnd, if_neg (by simp), extract_full]
    constructor
    · rintro ⟨-, -, block, rfl, hblock, hre⟩
      obtain ⟨old, rfl, hn, hold, rfl⟩ := ih.mp hre
      refine ⟨block :: old, rfl, ?_, List.forall_mem_cons.mpr ⟨hblock, hold⟩, ?_⟩
      · rw [List.length_cons]
        omega
      · rw [recordsOf, List.append_assoc]
    · rintro ⟨blocks, hbl, rfl, hfull, rfl⟩
      obtain ⟨old, hmap, rfl⟩ := cons_eq_ofList.mp hbl
      obtain ⟨block, blocks, rfl, rfl, rfl⟩ := List.map_eq_cons_iff.mp hmap
      obtain ⟨hblock, hold⟩ := List.forall_mem_cons.mp hfull
      refine ⟨by omega, rfl, block, rfl, hblock, ih.mpr ⟨blocks, rfl, ?_, hold, ?_⟩⟩
      · rw [List.length_cons]
        omega
      · rw [recordsOf, List.append_assoc]
  | _ =>
    rw [extract_blockEnd, if_neg (by simp)]
    constructor
    · rintro ⟨-, -, h⟩
      exact absurd h (extract_improper (.inl rfl))
    · rintro ⟨old, hold, -⟩
      cases old <;> cases hold

theorem verifyExtracted_eq_match {c : Term} {e : Extracted} :
    verifyExtracted phash2 c e = .checksumsMatch ↔ ∃ r, e = .records r ∧ running phash2 r = c := by
  cases e with
  | records r =>
    rw [verifyExtracted, bcDoVerifyRecords_eq_match]
    exact ⟨fun h => ⟨r, rfl, h⟩, fun ⟨_, hr, h⟩ => by cases hr; exact h⟩
  | _ => exact ⟨fun h => (nomatch h), fun ⟨_, h, _⟩ => (nomatch h)⟩

/-- `bc_verify_checksum` finds a checksum first, and calculates it over the records. -/
theorem verify_iff {v : Term} : bcVerifyChecksum phash2 v = .ok .checksumsMatch ↔
      ∃ x lb b n l r, v = .quadruple (.atom .blockchain) (.cons (.cons (checksum x) lb) b) (.int n)
          (.int l) ∧ bcExtractRecords (.cons lb b) n (l - 1) [] = .ok (.records r) ∧
        running phash2 r = checksum x := by
  constructor
  · intro h
    unfold bcVerifyChecksum at h
    split at h
    · cases h
    · cases h
    · rename_i x lb b n l
      obtain ⟨e, he, hma⟩ := except_map_eq_ok.mp h
      obtain ⟨r, rfl, hr⟩ := verifyExtracted_eq_match.mp hma
      exact ⟨x, lb, b, n, l, r, rfl, he, hr⟩
    · split at h <;> cases h
    · cases h
  · rintro ⟨x, lb, b, n, l, r, rfl, hr, hru⟩
    rw [bcVerifyChecksum]
    exact except_map_eq_ok.mpr ⟨_, hr, verifyExtracted_eq_match.mpr ⟨r, rfl, hru⟩⟩

theorem verify_iff_blocks {v : Term} (hl : l ≤ BLOCK_SIZE) :
    bcVerifyChecksum phash2 (.quadruple (.atom .blockchain) v (.int n) (.int l)) =
        .ok .checksumsMatch ↔
      ∃ rows old, v = ofBlocks ((running phash2 (recordsOf old ++ rows.reverse) :: rows) :: old) ∧
        n = old.length + 1 ∧ l = rows.length + 1 ∧ ∀ block ∈ old, FullBlock block := by
  have hro : l - 1 ≤ 9 := Int.sub_le_sub_right hl 1
  rw [verify_iff]
  constructor
  · rintro ⟨x, lb, b, n', l', r, heq, hr, hru⟩
    cases heq
    obtain ⟨rows, rfl, hlen, hold⟩ := (extract_rows hro).mp hr
    obtain ⟨old, rfl, hn, hfull, rfl⟩ := extract_older.mp hold
    rw [List.append_nil] at hru
    refine ⟨rows, old, ?_, hn, by omega, hfull⟩
    rw [hru]
    rfl
  · rintro ⟨rows, old, rfl, hn, hlen, hfull⟩
    obtain ⟨k, hk⟩ := exists_running phash2 (recordsOf old ++ rows.reverse)
    refine ⟨.int k, .ofList rows, ofBlocks old, n, l, recordsOf old ++ rows.reverse, ?_, ?_, hk⟩
    · rw [hk]
      rfl
    · refine (extract_rows hro).mpr ⟨rows, rfl, by omega, extract_older.mpr ?_⟩
      exact ⟨old, rfl, hn, hfull, by rw [List.append_nil]⟩

/-! ## What `bc_append` builds -/

/-- Every block begins with the checksum of the records up to its end. -/
def Checked (phash2 : Term → Int) : List (List Term) → Prop
  | [] => True
  | block :: blocks =>
    block.head? = some (running phash2 (recordsOf (block :: blocks))) ∧ Checked phash2 blocks

/-- The blockchain of some records: one to nine of them in the newest block, nine in each of
the others. -/
def Built (phash2 : Term → Int) (recs : List Term) (b : Bc) : Prop :=
  ∃ rows old, b = ⟨ofBlocks ((running phash2 recs :: rows) :: old), old.length + 1,
      rows.length + 1⟩ ∧
    recs = recordsOf old ++ rows.reverse ∧ 1 ≤ rows.length ∧ rows.length ≤ 9 ∧
    (∀ block ∈ old, block.length = 10) ∧ Checked phash2 old

theorem fullBlock_of_checked {old : List (List Term)} (hlen : ∀ block ∈ old, block.length = 10)
    (hch : Checked phash2 old) : ∀ block ∈ old, FullBlock block := by
  induction old with
  | nil => exact fun _ h => (nomatch h)
  | cons block old ih =>
    obtain ⟨hblock, hold⟩ := List.forall_mem_cons.mp hlen
    refine List.forall_mem_cons.mpr ⟨?_, ih hold hch.2⟩
    obtain ⟨k, hk⟩ := exists_running phash2 (recordsOf (block :: old))
    obtain ⟨rows, rfl⟩ := List.head?_eq_some_iff.mp (hk ▸ hch.1)
    exact ⟨.int k, rows, rfl, Nat.succ.inj hblock⟩

theorem bcAppend_ofBlocks {c : Term} (hc : isChecksum c = true) (rows : List Term)
    (old : List (List Term)) (n l : Int) (rec : Term) :
    bcAppend phash2 ⟨ofBlocks ((c :: rows) :: old), n, l⟩ rec = if l = BLOCK_SIZE then
        .ok ⟨ofBlocks ([bcChecksum phash2 rec c, rec] :: (c :: rows) :: old), n + 1, 2⟩
      else .ok ⟨ofBlocks ((bcChecksum phash2 rec c :: rec :: rows) :: old), n, l + 1⟩ := by
  obtain ⟨x, rfl⟩ := isChecksum_iff.mp hc
  rfl

theorem isChecksum_running (recs : List Term) : isChecksum (running phash2 recs) = true := by
  obtain ⟨k, hk⟩ := exists_running phash2 recs
  exact isChecksum_iff.mpr ⟨.int k, hk⟩

theorem built_first (phash2 : Term → Int) (rec : Term) :
    ∃ b, bcAppend phash2 bcCreate rec = .ok b ∧ Built phash2 [rec] b :=
  ⟨_, rfl, [rec], [], rfl, rfl, Nat.le_refl _, Nat.le_add_left 1 8, fun _ h => (nomatch h), trivial⟩

theorem built_next {b : Bc} (h : Built phash2 recs b) (rec : Term) :
    ∃ b', bcAppend phash2 b rec = .ok b' ∧ Built phash2 (recs ++ [rec]) b' := by
  obtain ⟨rows, old, rfl, rfl, hpos, hle, hlen, hch⟩ := h
  rw [bcAppend_ofBlocks (isChecksum_running _), ← running_concat]
  by_cases hfull : rows.length = 9
  · rw [if_pos (by rw [hfull]; rfl)]
    refine ⟨_, rfl, [rec], (_ :: rows) :: old, rfl, rfl, Nat.le_refl _, Nat.le_add_left 1 8,
      List.forall_mem_cons.mpr ⟨by rw [List.length_cons, hfull], hlen⟩, rfl, hch⟩
  · rw [if_neg (by rw [BLOCK_SIZE]; omega)]
    refine ⟨_, rfl, rec :: rows, old, rfl, ?_, Nat.le_add_left 1 _, ?_, hlen, hch⟩
    · rw [List.reverse_cons, List.append_assoc]
    · rw [List.length_cons]
      omega

theorem bcAppendAll_concat {b : Bc} (h : bcAppendAll phash2 recs = .ok b) (rec : Term) :
    bcAppendAll phash2 (recs ++ [rec]) = bcAppend phash2 b rec := by
  rw [bcAppendAll] at h ⊢
  rw [List.foldlM_append, h]
  show List.foldlM (bcAppend phash2) b [rec] = _
  rw [List.foldlM_cons]
  exact bind_pure _

/-- What the list of all records builds. -/
theorem exists_built (phash2 : Term → Int) (h : recs ≠ []) :
    ∃ b, bcAppendAll phash2 recs = .ok b ∧ Built phash2 recs b := by
  induction recs using List.reverseRecOn with
  | nil => exact absurd rfl h
  | append_singleton recs rec ih =>
    by_cases hre : recs = []
    · subst hre
      obtain ⟨b, hb, hbu⟩ := built_first phash2 rec
      exact ⟨b, (bcAppendAll_concat rfl rec).trans hb, hbu⟩
    · obtain ⟨b, hb, hbu⟩ := ih hre
      obtain ⟨b', hb', hbu'⟩ := built_next hbu rec
      exact ⟨b', (bcAppendAll_concat hb rec).trans hb', hbu'⟩

theorem Built.accepted {b : Bc} (h : Built phash2 recs b) :
    bcVerifyChecksum phash2 b.toTerm = .ok .checksumsMatch := by
  obtain ⟨rows, old, rfl, rfl, -, hle, hlen, hch⟩ := h
  have hsize : ((rows.length : Int) + 1) ≤ BLOCK_SIZE := by
    rw [BLOCK_SIZE]
    omega
  exact (verify_iff_blocks hsize).mpr ⟨rows, old, rfl, rfl, rfl, fullBlock_of_checked hlen hch⟩

/-- Whatever records are appended, their blockchain is accepted. -/
theorem bcVerifyChecksum_complete (phash2 : Term → Int) (recs : List Term) :
    ∃ b, bcAppendAll phash2 recs = .ok b ∧
      bcVerifyChecksum phash2 b.toTerm = .ok (if recs = [] then .ok else .checksumsMatch) := by
  by_cases h : recs = []
  · subst h
    exact ⟨bcCreate, rfl, rfl⟩
  · obtain ⟨b, hb, hbu⟩ := exists_built phash2 h
    rw [if_neg h]
    exact ⟨b, hb, hbu.accepted⟩

end Models

end GradidoNode
