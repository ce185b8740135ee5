/-
# `GradidoNode.Models.Soundness` — which blockchains `bc_verify_checksum` accepts

The checksum that is compared is the first row of the newest block, and it is calculated
over the records.  Rows that are taken for checksums of older blocks are not compared with
anything, and the last block size is only counted down.  So besides what `bc_append` builds
there are accepted

    [[C10, R10], [{checksum, anything}, R9, …, R1]]     a block with another checksum
    [[{checksum, 0}]]                                   a block without records

When what is accepted was built, and which alterations of what was built are accepted, is
`verify_appended_iff`.  With `phash2` injective the checksum commits
to the records and their order, for as many records as there are.
-/
import GradidoNode.Models.Blockchain

namespace GradidoNode

namespace Models

variable {phash2 : Term → Int} {recs : List Term} {b : Bc}

/-! ## What was accepted was appended -/

theorem Built.last {rec : Term} (h : Built phash2 (recs ++ [rec]) b) :
    (recs = [] ∧ bcAppend phash2 bcCreate rec = .ok b) ∨
      ∃ b₀, Built phash2 recs b₀ ∧ bcAppend phash2 b₀ rec = .ok b := by
  obtain ⟨rows, old, rfl, hre, hpos, hle, hlen, hch⟩ := h
  cases rows with
  | nil => cases hpos
  | cons r rows =>
    rw [List.reverse_cons, ← List.append_assoc] at hre
    obtain ⟨rfl, hla⟩ := List.append_inj' hre rfl
    cases hla
    rw [running_concat]
    cases rows with
    | cons r' rows =>
      -- the block had records before
      refine .inr ⟨_, ⟨r' :: rows, old, rfl, rfl, Nat.le_add_left 1 _, Nat.le_of_succ_le hle,
        hlen, hch⟩, ?_⟩
      rw [bcAppend_ofBlocks (isChecksum_running _), if_neg]
      · rfl
      · rw [BLOCK_SIZE]
        simp only [List.length_cons] at hle ⊢
        omega
    | nil =>
      cases old with
      | nil => exact .inl ⟨rfl, rfl⟩
      | cons block old =>
        -- the block before it was full
        obtain ⟨hblock, hold⟩ := List.forall_mem_cons.mp hlen
        cases block with
        | nil => cases hblock
        | cons c rows =>
          obtain rfl : c = running phash2 (recordsOf old ++ rows.reverse) := Option.some.inj hch.1
          have hni : rows.length = 9 := Nat.succ.inj hblock
          rw [List.reverse_nil, List.append_nil]
          refine .inr ⟨_, ⟨rows, old, rfl, rfl, by omega, by omega, hold, hch.2⟩, ?_⟩
          rw [bcAppend_ofBlocks (isChecksum_running _), if_pos (by rw [hni]; rfl)]
          rfl

theorem Built.appended (h : Built phash2 recs b) : bcAppendAll phash2 recs = .ok b := by
  induction recs using List.reverseRecOn generalizing b with
  | nil =>
    obtain ⟨rows, old, -, hre, hpos, -⟩ := h
    rw [(List.append_eq_nil_iff.mp hre.symm).2 |> List.reverse_eq_nil_iff.mp] at hpos
    cases hpos
  | append_singleton recs rec ih =>
    obtain ⟨rfl, hb⟩ | ⟨b₀, hbu, hb⟩ := h.last
    · exact (bcAppendAll_concat rfl rec).trans hb
    · exact (bcAppendAll_concat (ih hbu) rec).trans hb

/-- What was appended to, from `bc_create()` on. -/
def Appended (phash2 : Term → Int) (v : Term) : Prop :=
  ∃ recs b, bcAppendAll phash2 recs = .ok b ∧ v = b.toTerm

/-- The last block size is two to ten, and the blocks behind the newest one begin with the
checksums of their records. -/
def ChecksumsRight (phash2 : Term → Int) (v : Term) : Prop :=
  ∃ newest old n l, v = .quadruple (.atom .blockchain) (ofBlocks (newest :: old)) (.int n) (.int l) ∧
    2 ≤ l ∧ l ≤ BLOCK_SIZE ∧ Checked phash2 old

/-- A blockchain with blocks was built of its records. -/
theorem built_of_appended (h : bcAppendAll phash2 recs = .ok b) (hne : b.blocks ≠ .nil) :
    Built phash2 recs b := by
  have hre : recs ≠ [] := by
    rintro rfl
    cases h
    exact hne rfl
  obtain ⟨b', hb', hbu⟩ := exists_built phash2 hre
  cases hb'.symm.trans h
  exact hbu

/-- A blockchain without blocks is not accepted, whatever its numbers are. -/
theorem accepted_nonempty {blocks n l : Term}
    (h : bcVerifyChecksum phash2 (.quadruple (.atom .blockchain) blocks n l) =
      .ok .checksumsMatch) : blocks ≠ .nil := by
  rintro rfl
  obtain ⟨_, _, _, _, _, _, heq, -⟩ := verify_iff.mp h
  cases heq

theorem accepted_appended_iff {v : Term} (h : bcVerifyChecksum phash2 v = .ok .checksumsMatch) :
    Appended phash2 v ↔ ChecksumsRight phash2 v := by
  constructor
  · rintro ⟨recs, b, hb, rfl⟩
    obtain ⟨rows, old, rfl, -, hpos, hle, -, hch⟩ := built_of_appended hb (accepted_nonempty h)
    refine ⟨_, old, old.length + 1, rows.length + 1, rfl, ?_, ?_, hch⟩
    · omega
    · rw [BLOCK_SIZE]
      omega
  · rintro ⟨newest, old, n, l, rfl, htwo, hten, hch⟩
    obtain ⟨rows, old', hbl, hn, hl, hfull⟩ := (verify_iff_blocks hten).mp h
    cases ofBlocks_injective hbl
    have hlen : ∀ block ∈ old, block.length = 10 := by
      intro block hblock
      obtain ⟨x, rows, rfl, hni⟩ := hfull block hblock
      rw [List.length_cons, hni]
    rw [BLOCK_SIZE] at hten
    have hbu : Built phash2 (recordsOf old ++ rows.reverse)
        ⟨ofBlocks ((running phash2 (recordsOf old ++ rows.reverse) :: rows) :: old), n, l⟩ :=
      ⟨rows, old, by rw [hn, hl], rfl, by omega, by omega, hlen, hch⟩
    exact ⟨_, _, hbu.appended, rfl⟩

/-! ## The checksum commits to the records -/

theorem running_injective (hinj : Function.Injective phash2) {recs recs' : List Term}
    (hlen : recs.length = recs'.length) (h : running phash2 recs = running phash2 recs') :
    recs = recs' := by
  induction recs using List.reverseRecOn generalizing recs' with
  | nil => exact (List.length_eq_zero_iff.mp hlen.symm).symm
  | append_singleton recs rec ih =>
    cases recs' using List.reverseRecOn with
    | nil => simp at hlen
    | append_singleton recs' rec' =>
      obtain ⟨x, hx⟩ := exists_running phash2 recs
      obtain ⟨x', hx'⟩ := exists_running phash2 recs'
      rw [running_concat, running_concat, hx, hx'] at h
      simp only [bcChecksum, Lib.Erlang.Term.tuple.injEq, Lib.Erlang.Term.cons.injEq,
        Lib.Erlang.Term.int.injEq, hinj.eq_iff, true_and, and_true] at h
      obtain ⟨rfl, rfl⟩ := h
      rw [ih _ (hx.trans hx'.symm)]
      rw [List.length_append, List.length_append] at hlen
      exact Nat.add_right_cancel hlen

/-! ## Alterations -/

/-- One row, or one of the two numbers, replaced. -/
inductive Alteration where
  | row (i j : Nat) (new : Term)
  | blockCount (new : Term)
  | lastBlockSize (new : Term)

namespace Alteration

def apply (blocks : List (List Term)) (n l : Int) : Alteration → Term
  | .row i j new => .quadruple (.atom .blockchain)
      (ofBlocks (blocks.modify i fun block => block.set j new)) (.int n) (.int l)
  | .blockCount new => .quadruple (.atom .blockchain) (ofBlocks blocks) new (.int l)
  | .lastBlockSize new => .quadruple (.atom .blockchain) (ofBlocks blocks) (.int n) new

/-- Another checksum in place of the first row of a block that is not the newest. -/
def OlderChecksum (a : Alteration) : Prop := ∃ i x, a = .row (i + 1) 0 (checksum x)

end Alteration

variable {old : List (List Term)}

theorem length_recordsOf (h : ∀ block ∈ old, block.length = 10) :
    (recordsOf old).length = 9 * old.length := by
  induction old with
  | nil => rfl
  | cons block old ih =>
    obtain ⟨hblock, hold⟩ := List.forall_mem_cons.mp h
    rw [recordsOf, List.length_append, ih hold, List.length_reverse, List.length_tail, hblock,
      List.length_cons]
    omega

/-- Blocks of one length are given by their first rows and their records. -/
theorem eq_of_recordsOf {old' : List (List Term)} (hlen : ∀ block ∈ old, block.length = 10)
    (hlen' : ∀ block ∈ old', block.length = 10)
    (hhe : old.map List.head? = old'.map List.head?) (h : recordsOf old = recordsOf old') :
    old = old' := by
  induction old generalizing old' with
  | nil => exact (List.map_eq_nil_iff.mp hhe.symm).symm
  | cons block old ih =>
    cases old' with
    | nil => cases hhe
    | cons block' old' =>
      obtain ⟨hblock, hold⟩ := List.forall_mem_cons.mp hlen
      obtain ⟨hblock', hold'⟩ := List.forall_mem_cons.mp hlen'
      obtain ⟨hhd, hhe⟩ := List.cons.inj hhe
      obtain ⟨hre, hta⟩ := List.append_inj' h (by simp [hblock, hblock'])
      rw [ih hold hold' hhe hre]
      cases block with
      | nil => cases hblock
      | cons c rows =>
        cases block' with
        | nil => cases hblock'
        | cons c' rows' =>
          cases hhd
          rw [show rows = rows' from List.reverse_injective hta]

theorem recordsOf_modify_head (i : Nat) (new : Term) :
    recordsOf (old.modify i fun block => block.set 0 new) = recordsOf old := by
  induction old generalizing i with
  | nil => cases i <;> rfl
  | cons block old ih =>
    cases i with
    | zero => cases block <;> rfl
    | succ i =>
      rw [List.modify_succ_cons, recordsOf, ih]
      rfl

theorem heads_modify_row (i j : Nat) (new : Term) :
    (old.modify i fun block => block.set (j + 1) new).map List.head? = old.map List.head? := by
  induction old generalizing i with
  | nil => cases i <;> rfl
  | cons block old ih =>
    cases i with
    | zero => cases block <;> rfl
    | succ i =>
      rw [List.modify_succ_cons, List.map_cons, ih]
      rfl

theorem length_modify (h : ∀ block ∈ old, block.length = 10) (i j : Nat) (new : Term) :
    ∀ block ∈ old.modify i fun block => block.set j new, block.length = 10 := by
  induction old generalizing i with
  | nil => cases i <;> exact fun _ h => (nomatch h)
  | cons block old ih =>
    obtain ⟨hblock, hold⟩ := List.forall_mem_cons.mp h
    cases i with
    | zero => exact List.forall_mem_cons.mpr ⟨by rw [List.length_set, hblock], hold⟩
    | succ i => exact List.forall_mem_cons.mpr ⟨hblock, ih hold i⟩

/-- A full block stays one just if its first row stays a checksum. -/
theorem full_modify_head (h : ∀ block ∈ old, FullBlock block) {i : Nat} (hi : i < old.length)
    (new : Term) :
    (∀ block ∈ old.modify i fun block => block.set 0 new, FullBlock block) ↔
      ∃ x, new = checksum x := by
  induction old generalizing i with
  | nil => exact absurd hi (Nat.not_lt_zero i)
  | cons block old ih =>
    obtain ⟨⟨y, rows, rfl, hni⟩, hold⟩ := List.forall_mem_cons.mp h
    cases i with
    | zero =>
      rw [List.modify_zero_cons, List.forall_mem_cons]
      constructor
      · rintro ⟨⟨x, rows', hset, -⟩, -⟩
        exact ⟨x, (List.cons.inj hset).1⟩
      · rintro ⟨x, rfl⟩
        exact ⟨⟨x, rows, rfl, hni⟩, hold⟩
    | succ i =>
      rw [List.modify_succ_cons, List.forall_mem_cons, ih hold (Nat.lt_of_succ_lt_succ hi)]
      exact ⟨fun hx => hx.2, fun hx => ⟨⟨y, rows, rfl, hni⟩, hx⟩⟩

theorem verify_iff_rows {c : Term} {rows : List Term} {n l : Int} (hl : l ≤ BLOCK_SIZE) :
    bcVerifyChecksum phash2
        (.quadruple (.atom .blockchain) (ofBlocks ((c :: rows) :: old)) (.int n) (.int l)) =
        .ok .checksumsMatch ↔
      c = running phash2 (recordsOf old ++ rows.reverse) ∧ n = old.length + 1 ∧
        l = rows.length + 1 ∧ ∀ block ∈ old, FullBlock block := by
  rw [verify_iff_blocks hl]
  constructor
  · rintro ⟨rows', old', hbl, hn, hl, hfull⟩
    cases ofBlocks_injective hbl
    exact ⟨rfl, hn, hl, hfull⟩
  · rintro ⟨rfl, hn, hl, hfull⟩
    exact ⟨rows, old, rfl, hn, hl, hfull⟩

/-- The last block size is the number of rows, ten or not. -/
theorem extract_length {rows : List Term} {rest : Term} {n l : Int} {acc out : List Term}
    (h : bcExtractRecords (.cons (.ofList rows) rest) n l acc = .ok (.records out)) :
    (rows.length : Int) = l := by
  induction rows generalizing l acc with
  | nil => exact (extract_blockEnd.mp h).2.1.symm
  | cons row rows ih =>
    obtain ⟨-, -, h⟩ := extract_row.mp h
    rw [List.length_cons]
    split at h
    · rename_i hl
      have hlen := ih h.2
      rw [BLOCK_SIZE] at hl
      omega
    · have hlen := ih h
      omega

/-- The two numbers of what is accepted are integers, and the second one counts the rows of the
newest block. -/
theorem accepted_numbers {c : Term} {rows : List Term} {n l : Term} (h : bcVerifyChecksum phash2
      (.quadruple (.atom .blockchain) (ofBlocks ((c :: rows) :: old)) n l) = .ok .checksumsMatch) :
    (∃ n', n = .int n') ∧ l = .int (rows.length + 1) := by
  obtain ⟨x, lb, b, n', l', r, heq, hr, -⟩ := verify_iff.mp h
  obtain ⟨⟨⟨-, rfl⟩, rfl⟩, rfl, rfl⟩ := heq
  have hlen := extract_length hr
  refine ⟨⟨n', rfl⟩, ?_⟩
  rw [hlen, Int.sub_add_cancel]

section Altered

variable {rows : List Term} (hinj : Function.Injective phash2) (hle : rows.length ≤ 9)
  (hlen : ∀ block ∈ old, block.length = 10) (hfull : ∀ block ∈ old, FullBlock block)

include hle in
theorem lastBlockSize_le : (rows.length : Int) + 1 ≤ BLOCK_SIZE := by
  rw [BLOCK_SIZE]
  omega

include hinj hle in
theorem altered_newest {j : Nat} {new : Term}
    (h : bcVerifyChecksum phash2 (.quadruple (.atom .blockchain)
      (ofBlocks ((running phash2 (recordsOf old ++ rows.reverse) :: rows).set j new :: old))
      (.int (old.length + 1)) (.int (rows.length + 1))) = .ok .checksumsMatch) :
    (running phash2 (recordsOf old ++ rows.reverse) :: rows).set j new =
      running phash2 (recordsOf old ++ rows.reverse) :: rows := by
  cases j with
  | zero =>
    obtain ⟨rfl, -⟩ := (verify_iff_rows (lastBlockSize_le hle)).mp h
    rfl
  | succ j =>
    obtain ⟨hru, -⟩ := (verify_iff_rows (lastBlockSize_le hle)).mp h
    have hre := running_injective hinj (by simp) hru
    have hro := List.reverse_injective (List.append_cancel_left hre)
    rw [List.set_cons_succ, ← hro]

include hinj hle hlen hfull in
theorem altered_older {i j : Nat} {new : Term}
    (hne : (old.modify i fun block => block.set j new) ≠ old) :
    bcVerifyChecksum phash2 (.quadruple (.atom .blockchain)
        (ofBlocks ((running phash2 (recordsOf old ++ rows.reverse) :: rows) ::
          old.modify i fun block => block.set j new))
        (.int (old.length + 1)) (.int (rows.length + 1))) = .ok .checksumsMatch ↔
      j = 0 ∧ ∃ x, new = checksum x := by
  have hi : i < old.length := by
    by_contra hi
    exact hne (List.modify_eq_self (Nat.le_of_not_lt hi))
  rw [verify_iff_rows (lastBlockSize_le hle), List.length_modify]
  have hsize : ∀ j, (recordsOf old ++ rows.reverse).length =
      (recordsOf (old.modify i fun block => block.set j new) ++ rows.reverse).length := by
    intro j
    rw [List.length_append, List.length_append, length_recordsOf hlen,
      length_recordsOf (length_modify hlen i j new), List.length_modify]
  constructor
  · rintro ⟨hru, -, -, hfull'⟩
    have hre := List.append_cancel_right (running_injective hinj (hsize j) hru)
    cases j with
    | zero => exact ⟨rfl, (full_modify_head hfull hi new).mp hfull'⟩
    | succ j =>
      refine absurd (eq_of_recordsOf hlen (length_modify hlen i _ new) ?_ hre).symm hne
      exact (heads_modify_row i j new).symm
  · rintro ⟨rfl, x, rfl⟩
    rw [recordsOf_modify_head]
    exact ⟨rfl, rfl, rfl, (full_modify_head hfull hi _).mpr ⟨x, rfl⟩⟩

end Altered

/-- What becomes of an alteration of what was built. -/
theorem altered_iff (hinj : Function.Injective phash2) {blocks : List (List Term)} {n l : Int}
    (h : bcAppendAll phash2 recs = .ok ⟨ofBlocks blocks, n, l⟩) {a : Alteration}
    (hne : a.apply blocks n l ≠ (⟨ofBlocks blocks, n, l⟩ : Bc).toTerm) :
    bcVerifyChecksum phash2 (a.apply blocks n l) = .ok .checksumsMatch ↔ a.OlderChecksum := by
  cases blocks with
  | nil =>
    cases a with
    | row i j new => exact absurd (by rw [Alteration.apply, List.modify_nil]; rfl) hne
    | _ => exact ⟨fun h => absurd rfl (accepted_nonempty h), fun ⟨_, _, h⟩ => (nomatch h)⟩
  | cons newest old =>
    obtain ⟨rows, old', hb, rfl, -, hle, hlen, hch⟩ := built_of_appended h (fun h => (nomatch h))
    simp only [Bc.mk.injEq] at hb
    obtain ⟨hbl, rfl, rfl⟩ := hb
    cases ofBlocks_injective hbl
    have hfull := fullBlock_of_checked hlen hch
    cases a with
    | row i j new =>
      cases i with
      | zero =>
        refine ⟨fun h => absurd ?_ hne, fun ⟨_, _, h⟩ => (nomatch h)⟩
        rw [Alteration.apply, List.modify_zero_cons, altered_newest hinj hle h]
        rfl
      | succ i =>
        have hne' : (old.modify i fun block => block.set j new) ≠ old := by
          intro heq
          rw [Alteration.apply, List.modify_succ_cons, heq] at hne
          exact hne rfl
        rw [Alteration.apply, List.modify_succ_cons, altered_older hinj hle hlen hfull hne']
        constructor
        · rintro ⟨rfl, x, rfl⟩
          exact ⟨i, x, rfl⟩
        · rintro ⟨i', x, h⟩
          cases h
          exact ⟨rfl, x, rfl⟩
    | blockCount new =>
      refine ⟨fun h => absurd ?_ hne, fun ⟨_, _, h⟩ => (nomatch h)⟩
      obtain ⟨⟨n, rfl⟩, -⟩ := accepted_numbers h
      obtain ⟨-, rfl, -⟩ := (verify_iff_rows (lastBlockSize_le hle)).mp h
      rfl
    | lastBlockSize new =>
      refine ⟨fun h => absurd ?_ hne, fun ⟨_, _, h⟩ => (nomatch h)⟩
      obtain ⟨-, rfl⟩ := accepted_numbers h
      rfl

/-- What `bc_verify_checksum` accepts was built by `bc_append` just if the last block size is
two to ten and older blocks begin with their checksums.  Of a blockchain that was built, no
alteration is accepted but that of the checksum of an older block. -/
theorem verify_appended_iff (hinj : Function.Injective phash2) :
    (∀ v, bcVerifyChecksum phash2 v = .ok .checksumsMatch →
      (Appended phash2 v ↔ ChecksumsRight phash2 v)) ∧
    ∀ recs blocks n l (a : Alteration), bcAppendAll phash2 recs = .ok ⟨ofBlocks blocks, n, l⟩ →
      a.apply blocks n l ≠ (⟨ofBlocks blocks, n, l⟩ : Bc).toTerm →
      (bcVerifyChecksum phash2 (a.apply blocks n l) ≠ .ok .checksumsMatch ↔ ¬ a.OlderChecksum) :=
  ⟨fun _ h => accepted_appended_iff h, fun _ _ _ _ _ h hne => not_congr (altered_iff hinj h hne)⟩

/-- A number for each term. -/
def numberOf (t : Term) : Int := Encodable.encode t

theorem numberOf_injective : Function.Injective numberOf := by
  intro t u h
  exact Encodable.encode_injective (Int.ofNat.inj h)

/-- A row that was another one makes another blockchain. -/
theorem Alteration.apply_row_ne {blocks : List (List Term)} {n l : Int} {i j : Nat} {new : Term}
    (h : (blocks.modify i fun block => block.set j new) ≠ blocks) :
    (row i j new).apply blocks n l ≠ (⟨ofBlocks blocks, n, l⟩ : Bc).toTerm := by
  intro heq
  simp only [apply, Bc.toTerm, Lib.Erlang.Term.tuple.injEq, Lib.Erlang.Term.cons.injEq] at heq
  exact h (ofBlocks_injective heq.2.1)

/-- Ten records: the blockchain is right, with another record in the older block it is not
accepted, with another checksum there it is. -/
theorem verify_appended_iff_tenRecords : ∃ blocks,
      bcAppendAll numberOf (List.map .int [1, 2, 3, 4, 5, 6, 7, 8, 9, 10]) =
        .ok ⟨ofBlocks blocks, 2, 2⟩ ∧
      ChecksumsRight numberOf (⟨ofBlocks blocks, 2, 2⟩ : Bc).toTerm ∧
      bcVerifyChecksum numberOf ((Alteration.row 1 9 (.int 0)).apply blocks 2 2) ≠
        .ok .checksumsMatch ∧
      bcVerifyChecksum numberOf
          ((Alteration.row 1 0 (checksum (.atom (.other 0)))).apply blocks 2 2) =
        .ok .checksumsMatch := by
  obtain ⟨c, k, hb⟩ : ∃ c k, bcAppendAll numberOf (List.map .int [1, 2, 3, 4, 5, 6, 7, 8, 9, 10]) =
      .ok ⟨ofBlocks [[c, .int 10], checksum (.int k) ::
        List.map .int [9, 8, 7, 6, 5, 4, 3, 2, 1]], 2, 2⟩ := ⟨_, _, rfl⟩
  have hal := fun a => (verify_appended_iff numberOf_injective).2 _ _ _ _ a hb
  refine ⟨_, hb, ((verify_appended_iff numberOf_injective).1 _ ?_).mp ⟨_, _, hb, rfl⟩, ?_, ?_⟩
  · exact (built_of_appended hb fun h => (nomatch h)).accepted
  · exact (hal _ (Alteration.apply_row_ne (by simp))).mpr fun ⟨_, _, h⟩ => (nomatch h)
  · by_contra hno
    exact (hal _ (Alteration.apply_row_ne (by simp [checksum]))).mp hno ⟨0, _, rfl⟩

/-- The blockchain of ten records with another checksum in its first block. -/
def otherChecksum (phash2 : Term → Int) : Term :=
  .quadruple (.atom .blockchain)
    (ofBlocks [[running phash2 (List.map .int [1, 2, 3, 4, 5, 6, 7, 8, 9, 10]), .int 10],
      checksum (.atom (.other 0)) :: List.map .int [9, 8, 7, 6, 5, 4, 3, 2, 1]])
    (.int 2) (.int 2)

/-- Whatever `phash2` is, it is accepted and was not built by `bc_append`. -/
theorem otherChecksum_accepted (phash2 : Term → Int) :
    bcVerifyChecksum phash2 (otherChecksum phash2) = .ok .checksumsMatch ∧
      ¬ Appended phash2 (otherChecksum phash2) := by
  have hac : bcVerifyChecksum phash2 (otherChecksum phash2) = .ok .checksumsMatch := by
    refine (verify_iff_rows (by decide)).mpr ⟨rfl, rfl, rfl, ?_⟩
    exact List.forall_mem_singleton.mpr ⟨_, _, rfl, rfl⟩
  refine ⟨hac, fun hap => ?_⟩
  obtain ⟨newest, old, n, l, heq, -, -, hch⟩ := (accepted_appended_iff hac).mp hap
  simp only [otherChecksum, Lib.Erlang.Term.tuple.injEq, Lib.Erlang.Term.cons.injEq] at heq
  cases ofBlocks_injective heq.2.1
  obtain ⟨k, hk⟩ := exists_running phash2
    (recordsOf [checksum (.atom (.other 0)) :: List.map .int [9, 8, 7, 6, 5, 4, 3, 2, 1]])
  cases (Option.some.inj hch.1).trans hk

/-- And so is a block without records. -/
theorem emptyBlock_accepted (phash2 : Term → Int) :
    bcVerifyChecksum phash2 (⟨ofBlocks [[bcZeroChecksum]], 1, 1⟩ : Bc).toTerm =
        .ok .checksumsMatch ∧
      ¬ Appended phash2 (⟨ofBlocks [[bcZeroChecksum]], 1, 1⟩ : Bc).toTerm := by
  have hac : bcVerifyChecksum phash2 (⟨ofBlocks [[bcZeroChecksum]], 1, 1⟩ : Bc).toTerm =
      .ok .checksumsMatch :=
    (verify_iff_rows (by decide)).mpr ⟨rfl, rfl, rfl, fun _ h => (nomatch h)⟩
  refine ⟨hac, fun hap => ?_⟩
  obtain ⟨newest, old, n, l, heq, htwo, -⟩ := (accepted_appended_iff hac).mp hap
  simp only [Bc.toTerm, Lib.Erlang.Term.tuple.injEq, Lib.Erlang.Term.cons.injEq,
    Lib.Erlang.Term.int.injEq] at heq
  obtain ⟨-, -, -, rfl, -⟩ := heq
  exact absurd htwo (by decide)

/-- Both, with an injective `phash2`. -/
theorem accepted_not_appended : Function.Injective numberOf ∧
      (bcVerifyChecksum numberOf (otherChecksum numberOf) = .ok .checksumsMatch ∧
        ¬ Appended numberOf (otherChecksum numberOf)) ∧
      bcVerifyChecksum numberOf (⟨ofBlocks [[bcZeroChecksum]], 1, 1⟩ : Bc).toTerm =
        .ok .checksumsMatch ∧
      ¬ Appended numberOf (⟨ofBlocks [[bcZeroChecksum]], 1, 1⟩ : Bc).toTerm :=
  ⟨numberOf_injective, otherChecksum_accepted numberOf, emptyBlock_accepted numberOf⟩

end Models

end GradidoNode
