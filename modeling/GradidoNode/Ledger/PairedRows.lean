/-
# `GradidoNode.Ledger.PairedRows` — the rows behind the outbound index

A chain enters each outbound transaction it processes under its pairing id, with
`get_rec_count() - 1` for the number of the row it is about to store:

    the row                          get_rec_count() - 1 before it
    first row of the chain           2^64 - 1: no row
    first row of another block       the CHECKSUM row of the block before it
    any other row                    the number of the row

`Entered` is what every run keeps of the index: it knows exactly the ids of the rows, each
with the number computed for the first of them.  `Numbered` says that these numbers are
right; a run keeps that as long as no outbound transaction with a new id begins a block
(`OutboundInBlock`), and then `get_transaction` finds the row (`getTransaction_recNum`).
-/
import GradidoNode.Ledger.Outbound

namespace GradidoNode

open Lib Blockchain

namespace Ledger

/-- An id that is known keeps its row; that of `body` is new with `recNum`. -/
theorem noteOutbound_apply (m : PMap HederaTimestamp UInt64) (body : TransactionBody)
    (recNum : UInt64) (p : HederaTimestamp) :
    noteOutbound m body recNum p
      = (m p).or (if outboundId body = some p then some recNum else none) := by
  unfold noteOutbound
  cases hid : outboundId body with
  | none =>
    rw [if_neg (fun h => by cases h), Option.or_none]
  | some id =>
    dsimp only
    by_cases hp : id = p
    · subst hp
      rw [if_pos rfl]
      cases hkn : m id with
      | some recNum' =>
        rw [PMap.insertNew_of_some hkn, hkn]
        rfl
      | none =>
        rw [PMap.insertNew_of_none hkn, PMap.put_self]
        rfl
    · rw [if_neg (fun h => hp (Option.some.inj h)), Option.or_none]
      cases hkn : m id with
      | some recNum' => rw [PMap.insertNew_of_some hkn]
      | none => rw [PMap.insertNew_of_none hkn, PMap.put_of_ne fun h => hp h.symm]

end Ledger

namespace Chain

open Ledger

variable {d : DecayFunction} {s s' : Chain} {e : Event} {rows : List GradidoRecord}
  {p : HederaTimestamp} {n : Nat} {tr : Transaction}

/-- An outbound transaction with the id `p` is in the rows. -/
def HasOutbound (rows : List GradidoRecord) (p : HederaTimestamp) : Prop :=
  ∃ (k : Nat) (tr : Transaction), rows[k]? = some (.gradidoTransaction tr) ∧
    outboundId tr.body = some p

/-- Row `n` is the first outbound transaction with the id `p`. -/
structure FirstOutbound (rows : List GradidoRecord) (p : HederaTimestamp) (n : Nat)
    (tr : Transaction) : Prop where
  row : rows[n]? = some (.gradidoTransaction tr)
  id : outboundId tr.body = some p
  first : ∀ k tr', k < n → rows[k]? = some (.gradidoTransaction tr') → outboundId tr'.body ≠ some p

/-- The number with which the transaction in row `n` is entered. -/
def enteredAs (n : Nat) : UInt64 := outboundRecNum (rowCount groupParams n)

/-- An outbound transaction that is processed has a known id, or does not begin a block (and
its number fits the word). -/
def OutboundInBlock (s : Chain) : Event → Prop
  | .process _ tr _ =>
    s.ledger.waitingForPaired = false → ∀ p, outboundId tr.body = some p →
      s.ledger.outboundTransactions p = none →
      recCount s.rows % GRADIDO_BLOCK_SIZE ≠ 0 ∧ recCount s.rows ≤ 2 ^ 64
  | .pairedTransactionDone _ => True

/-! ## The index -/

/-- The index knows the ids of the rows, and the number computed for the first row of each. -/
structure Entered (s : Chain) : Prop where
  known : ∀ p, (s.ledger.outboundTransactions p).isSome ↔ HasOutbound s.rows p
  number : ∀ p n tr, FirstOutbound s.rows p n tr →
    s.ledger.outboundTransactions p = some (enteredAs n)

theorem entered_initial : Entered initial where
  known := by
    intro p
    constructor
    · intro h
      cases h
    · rintro ⟨k, tr, hrow, -⟩
      cases hrow
  number := by
    rintro p n tr ⟨hrow, -, -⟩
    cases hrow

theorem Entered.unknown (h : Entered s) (hnew : ¬ HasOutbound s.rows p) :
    s.ledger.outboundTransactions p = none := by
  rw [← Option.not_isSome_iff_eq_none, h.known]
  exact hnew

theorem hasOutbound_batch {tr' : Transaction} {parts : List Part} :
    HasOutbound (rows ++ batch tr' parts) p ↔
      HasOutbound rows p ∨ outboundId tr'.body = some p := by
  constructor
  · rintro ⟨k, tr₀, hrow, hp⟩
    rcases batch_cases hrow with hold | ⟨-, rfl⟩
    · exact .inl ⟨k, tr₀, hold, hp⟩
    · exact .inr hp
  · rintro (⟨k, tr₀, hrow, hp⟩ | hp)
    · have hlt := (List.getElem?_eq_some_iff.mp hrow).1
      exact ⟨k, tr₀, (List.getElem?_append_left hlt).trans hrow, hp⟩
    · exact ⟨rows.length, tr', batch_row _ _ _, hp⟩

/-- Rows that were there come first. -/
theorem FirstOutbound.of_batch {tr' : Transaction} {parts : List Part}
    (h : FirstOutbound (rows ++ batch tr' parts) p n tr) :
    FirstOutbound rows p n tr ∨ (n = rows.length ∧ tr = tr' ∧ ¬ HasOutbound rows p) := by
  have hbe : ∀ k tr₀, k < n → rows[k]? = some (.gradidoTransaction tr₀) →
      outboundId tr₀.body ≠ some p := by
    intro k tr₀ hk hrow
    have hlt := (List.getElem?_eq_some_iff.mp hrow).1
    exact h.first k tr₀ hk ((List.getElem?_append_left hlt).trans hrow)
  rcases batch_cases h.row with hrow | ⟨rfl, rfl⟩
  · exact .inl ⟨hrow, h.id, hbe⟩
  · refine .inr ⟨rfl, rfl, ?_⟩
    rintro ⟨k, tr₀, hrow, hp⟩
    exact hbe k tr₀ (List.getElem?_eq_some_iff.mp hrow).1 hrow hp

/-- What one event does to rows and index: nothing, or a batch is stored, and noted if it is
outbound.  An outbound transaction does not wait on its own account. -/
theorem step_noted (hs : step d s e = some s') :
    (s'.ledger.outboundTransactions = s.ledger.outboundTransactions ∧ s'.rows = s.rows ∧
      ∀ env tr parts, e = .process env tr parts → s.ledger.waitingForPaired = false →
        outboundId tr.body = none) ∨
      ∃ env tr parts tr', e = .process env tr parts ∧ s.ledger.waitingForPaired = false ∧
        outboundId tr'.body = outboundId tr.body ∧
        s'.ledger.outboundTransactions = noteOutbound s.ledger.outboundTransactions tr'.body
          (enteredAs s.rows.length) ∧
        s'.rows = s.rows ++ batch tr' parts := by
  cases e with
  | pairedTransactionDone t =>
    cases hs
    refine .inl ⟨rfl, rfl, ?_⟩
    rintro env tr parts ⟨⟩
  | process env tr parts =>
    unfold step at hs
    dsimp only at hs
    split at hs
    · rename_i l' tr' hca
      cases hs
      have hid := (calc_applied hca).outboundId_eq
      refine .inr ⟨env, tr, parts, tr', rfl, ?_, hid, ?_, rfl⟩
      · unfold calcFieldsAndUpdateIndexesFor at hca
        split at hca
        · cases hca
        · exact Bool.eq_false_iff.mpr ‹_›
      · rw [calc_outbound hca, noteOutbound, noteOutbound, hid]
        rfl
    · rename_i l' request hca
      cases hs
      refine .inl ⟨congrArg Indexes.outboundTransactions (calc_waiting hca), rfl, ?_⟩
      rintro env' tr' parts' ⟨⟩ hfr
      exact calc_waiting_outbound hca hfr
    · cases hs

theorem Entered.step (h : Entered s) (hs : step d s e = some s') : Entered s' := by
  rcases step_noted hs with ⟨hin, hro, -⟩ | ⟨env, tr, parts, tr', rfl, -, hid, hin, hro⟩
  · refine ⟨?_, ?_⟩
    · rw [hin, hro]
      exact h.known
    · rw [hin, hro]
      exact h.number
  · refine ⟨fun p => ?_, fun p n tr₀ hfi => ?_⟩
    · rw [hin, hro, noteOutbound_apply, hasOutbound_batch, Option.isSome_or, Bool.or_eq_true,
        h.known]
      refine or_congr_right ?_
      split
      · rename_i hp
        exact ⟨fun _ => hp, fun _ => rfl⟩
      · rename_i hp
        exact ⟨fun h => absurd h Bool.false_ne_true, fun h => absurd h hp⟩
    · rw [hro] at hfi
      rw [hin, noteOutbound_apply]
      rcases hfi.of_batch with hold | ⟨rfl, rfl, hnew⟩
      · rw [h.number p n tr₀ hold]
        rfl
      · rw [h.unknown hnew, if_pos hfi.id]
        rfl

/-! ## The number -/

/-- The number computed for a row is that of the row just if it does not begin a block. -/
theorem toNat_enteredAs_eq_iff (rows : List GradidoRecord) :
    (enteredAs rows.length).toNat = recNum rows.length ↔
      recCount rows % GRADIDO_BLOCK_SIZE ≠ 0 ∧ recCount rows ≤ 2 ^ 64 := by
  have hsize : GRADIDO_BLOCK_SIZE = 1000 := rfl
  have hwo : (enteredAs rows.length).toNat
      = (18446744073709551616 - 1 + recCount rows % 18446744073709551616)
        % 18446744073709551616 := by
    rw [enteredAs, outboundRecNum, UInt64.toNat_sub, UInt64.toNat_ofNat']
    rfl
  rw [hwo, recCount, rowCount_eq, recNum_eq, hsize]
  split
  · omega
  · omega

/-- The numbers of the first rows are right. -/
def Numbered (s : Chain) : Prop :=
  ∀ p n tr, FirstOutbound s.rows p n tr → (enteredAs n).toNat = recNum n

theorem numbered_initial : Numbered initial := by
  rintro p n tr ⟨hrow, -, -⟩
  cases hrow

theorem Numbered.step (h : Numbered s) (hen : Entered s) (hblock : OutboundInBlock s e)
    (hs : step d s e = some s') : Numbered s' := by
  rcases step_noted hs with ⟨-, hro, -⟩ | ⟨env, tr, parts, tr', rfl, hfr, hid, -, hro⟩
  · intro p n tr₀ hfi
    rw [hro] at hfi
    exact h p n tr₀ hfi
  · intro p n tr₀ hfi
    rw [hro] at hfi
    rcases hfi.of_batch with hold | ⟨rfl, rfl, hnew⟩
    · exact h p n tr₀ hold
    · exact (toNat_enteredAs_eq_iff s.rows).mpr
        (hblock hfr p (hid.symm.trans hfi.id) (hen.unknown hnew))

/-! ## The row -/

theorem getTransaction_recNum (garbage : Nat → Option Transaction)
    (hrow : rows[n]? = some (.gradidoTransaction tr)) :
    getTransaction garbage rows (recNum n) = some tr := by
  have hper : perBlock groupParams = 999 := rfl
  have hsize : GRADIDO_BLOCK_SIZE = 1000 := rfl
  have hlt := (List.getElem?_eq_some_iff.mp hrow).1
  have hpl : recNum n / GRADIDO_BLOCK_SIZE * perBlock groupParams
      + recNum n % GRADIDO_BLOCK_SIZE = n := by
    rw [hper, hsize, recNum_eq]
    omega
  have hpa : recNum n % GRADIDO_BLOCK_SIZE ≠ perBlock groupParams := by
    rw [hper, hsize, recNum_eq]
    omega
  have hcount : ¬ recCount rows ≤ recNum n := by
    rw [recCount, rowCount_eq, recNum_eq, recNum_eq]
    split
    · omega
    · omega
  rw [getTransaction, if_neg hcount, hpl, hrow]
  dsimp only
  rw [if_neg hpa]
  rfl

end Chain

end GradidoNode
