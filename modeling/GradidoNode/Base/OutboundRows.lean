/-
# `GradidoNode.Base.OutboundRows` — the row that `get_paired_transaction` names

The chain of the other group asks a chain for the number of the row of an outbound
transaction (`get_paired_transaction`) and then for the row (`get_transaction`), and should
be given the first outbound transaction with the id.

In every state of a run it is, in whatever storage object keeps the rows, just if no
outbound transaction with a new id begins a block (`outbound_rows_iff`).  Where one does, the
number computed for it is that of another row, and one storage that reads that row as
something else is enough; `digestFormat` reads a CHECKSUM row as no transaction.
-/
import GradidoNode.Base.BlockchainGradido
import GradidoNode.Ledger.PairedRows
import GradidoNode.Storage.ChecksumChain

namespace GradidoNode

open Lib Blockchain

namespace Chain

open Ledger

variable {d : DecayFunction} {s s' : Chain} {e : Event} {rows : List GradidoRecord}
  {p : HederaTimestamp} {n : Nat} {tr : Transaction}

/-- In every storage of the rows, `get_transaction` of what `get_paired_transaction` gives is
the first outbound transaction with the id. -/
def OutboundFound (s : Chain) : Prop :=
  ∀ (F : RowFormat GradidoRecord) (K : Params) (st : Blockchain F) (now : Nat),
    K.RecCount = GRADIDO_BLOCK_SIZE → Keeps K st s.rows →
    ∀ p n tr, FirstOutbound s.rows p n tr →
      ∃ r, getPairedTransaction s.ledger.toIndexes p = some r ∧
        Returns (BlockchainGradido.getTransaction K r.toNat now) st fun t _ => t = some tr

/-- Where the numbers are right the transactions are found. -/
theorem Numbered.found (h : Numbered s) (hen : Entered s) : OutboundFound s := by
  intro F K st now hK hst p n tr hfi
  refine ⟨enteredAs n, hen.number p n tr hfi, ?_⟩
  rw [h p n tr hfi]
  refine (BlockchainGradido.getTransaction_keeps hK hst (recNum n) now).mono ?_
  rintro t st' ⟨⟨garbage, rfl⟩, -⟩
  exact getTransaction_recNum garbage hfi.row

/-- A CHECKSUM row, or a blank one behind it, is read as no transaction. -/
theorem digest_payload {l : List GradidoRecord} {c : (digestFormat GradidoRecord).Checksum} {j : Nat}
    (h : asTransaction ((digestFormat GradidoRecord).payload
      (blockRows (digestFormat GradidoRecord) l c j).body) = some tr) :
    l[j]? = some (.gradidoTransaction tr) := by
  cases hj : l[j]? with
  | some r =>
    rw [blockRows_payload hj, RowFormat.payload_payloadRow] at h
    cases r with
    | gradidoTransaction tr₀ =>
      cases h
      rfl
    | _ => cases h
  | none =>
    rcases Nat.eq_or_lt_of_le (List.getElem?_eq_none_iff.mp hj) with heq | hbe
    · rw [← heq, blockRows_length] at h
      cases h
    · rw [blockRows_blank hbe] at h
      cases h

/-- In such a storage, a transaction that is found is in the row with the number. -/
theorem getTransaction_digest {st : Blockchain (digestFormat GradidoRecord)}
    (hst : Keeps groupParams st rows) {seqNum now : Nat}
    (h : Returns (BlockchainGradido.getTransaction groupParams seqNum now) st
      fun t _ => t = some tr) :
    ∃ k, rows[k]? = some (.gradidoTransaction tr) ∧ seqNum = recNum k := by
  obtain ⟨t, st', hca, rfl⟩ := h
  rw [BlockchainGradido.getTransaction, get_bind] at hca
  by_cases hout : st.recCount ≤ seqNum
  · rw [if_pos hout] at hca
    cases hca
  · rw [if_neg hout] at hca
    have hlt : seqNum < rowCount groupParams rows.length := by
      rw [← hst.recCount_eq]
      omega
    obtain ⟨r, st₁, hget, ⟨c, rfl⟩, -⟩ := hst.getRecord rfl hlt now
    rw [bind_eq hget] at hca
    have hrow := digest_payload (EStateM.Result.ok.inj hca).1
    rw [chunk_row rfl] at hrow
    split at hrow
    · cases hrow
    · refine ⟨_, hrow, ?_⟩
      rw [recNum_eq]
      omega

/-- Right after an outbound transaction with a new id is stored, it is found only if the
number is right: no other row has it. -/
theorem number_of_found (hen : Entered s) (hs : step d s e = some s')
    (hfo : OutboundFound s') : OutboundInBlock s e := by
  cases e with
  | pairedTransactionDone t => trivial
  | process env tr parts =>
    intro hfree p hp hun
    have hfr : ¬ HasOutbound s.rows p := by
      rw [← hen.known, hun]
      exact Bool.false_ne_true
    have hen' := hen.step hs
    rcases step_noted hs with ⟨-, -, hwa⟩ | ⟨env', tr₀, parts', tr', heq, -, hid, -, hro⟩
    · cases (hwa env tr parts rfl hfree).symm.trans hp
    · cases heq
      have hp' : outboundId tr'.body = some p := hid.trans hp
      have hfi : FirstOutbound s'.rows p s.rows.length tr' := by
        rw [hro]
        refine ⟨batch_row _ _ _, hp', fun k tr₁ hk hrow hp₁ => hfr ⟨k, tr₁, ?_, hp₁⟩⟩
        rw [List.getElem?_append_left hk] at hrow
        exact hrow
      obtain ⟨st, hst⟩ := exists_keeps (digestFormat GradidoRecord) groupParams s'.rows
      obtain ⟨r, hr, hre⟩ := hfo _ groupParams st 0 rfl hst p _ tr' hfi
      cases (hen'.number p _ tr' hfi).symm.trans hr
      obtain ⟨k, hrow, hnu⟩ := getTransaction_digest hst hre
      rw [hro] at hrow
      rcases batch_cases hrow with hold | ⟨rfl, -⟩
      · exact absurd ⟨k, tr', hold, hp'⟩ hfr
      · exact (toNat_enteredAs_eq_iff s.rows).mp hnu

/-! ## Whole runs -/

/-- **The outbound index points at the outbound row.**  In every state of a run, and in every
storage of its rows, `get_transaction` of what `get_paired_transaction` gives for an id is the
first outbound transaction with that id, if and only if no outbound transaction of the run
with a new id begins a block. -/
theorem outbound_rows_iff (d : DecayFunction) (es : List Event) (t : Chain)
    (hrun : run (step d) initial es = some t) :
    (∀ es' s, es' <+: es → run (step d) initial es' = some s → OutboundFound s) ↔
      Along (step d) OutboundInBlock initial es := by
  constructor
  · intro hall
    exact along_of_throughout Entered OutboundFound
      (fun _ _ _ hinv hs hq => ⟨hinv.step hs, number_of_found hinv hs hq⟩) entered_initial hrun hall
  · rintro hal es' s ⟨rest, rfl⟩ hs
    obtain ⟨hen, hnu⟩ := run_inv (fun s => Entered s ∧ Numbered s)
      (fun _ _ _ hinv hP hs => ⟨hinv.1.step hs, hinv.2.step hinv.1 hP hs⟩)
      ⟨entered_initial, numbered_initial⟩ (along_append hal hs).1 hs
    exact hnu.found hen

instance (s : Chain) : ∀ e, Decidable (OutboundInBlock s e)
  | .process _ _ _ => inferInstanceAs (Decidable (_ → ∀ _, _))
  | .pairedTransactionDone _ => isTrue trivial

/-- The transfer in row 3 is found. -/
theorem outbound_rows_sent :
    ∃ s, run (step keepNormalised) initial (opening ++ [outboundOne]) = some s ∧
      getPairedTransaction s.ledger.toIndexes HederaTimestamp.zero = some 3 ∧ OutboundFound s := by
  obtain ⟨s, hs, hnu⟩ : ∃ s, run (step keepNormalised) initial (opening ++ [outboundOne]) = some s ∧
      getPairedTransaction s.ledger.toIndexes HederaTimestamp.zero = some 3 := by decide +kernel
  exact ⟨s, hs, hnu, (outbound_rows_iff keepNormalised (opening ++ [outboundOne]) s hs).mpr
    (by decide +kernel) (opening ++ [outboundOne]) s (List.prefix_refl _) hs⟩

/-- User 1 is to leave a chain that has no row yet. -/
def leavesEmpty : Event := plain (.moveUserOutbound ⟨userTransfer 1, withGroupB⟩)

/-- The transaction is in row 0 of two rows, and entered as the last number of the word. -/
theorem outbound_first_row_lost :
    ∃ s, run (step keepNormalised) initial [leavesEmpty] = some s ∧ recCount s.rows = 2 ∧
      FirstOutbound s.rows ⟨7, 0⟩ 0 ⟨0, HederaTimestamp.zero,
        .moveUserOutbound ⟨userTransfer 1, withGroupB⟩, .unknownLocalUser⟩ ∧
      getPairedTransaction s.ledger.toIndexes ⟨7, 0⟩ = some 18446744073709551615 ∧
      ¬ OutboundFound s := by
  obtain ⟨s, hs, hro, hnu⟩ : ∃ s, step keepNormalised initial leavesEmpty = some s ∧
      s.rows = [.gradidoTransaction ⟨0, HederaTimestamp.zero,
        .moveUserOutbound ⟨userTransfer 1, withGroupB⟩, .unknownLocalUser⟩] ∧
      getPairedTransaction s.ledger.toIndexes ⟨7, 0⟩ = some 18446744073709551615 :=
    ⟨_, rfl, rfl, rfl⟩
  refine ⟨s, by rw [run, hs]; rfl, by rw [hro]; rfl, ?_, hnu, fun hfo => ?_⟩
  · rw [hro]
    exact ⟨rfl, rfl, fun k _ hk => absurd hk (Nat.not_lt_zero k)⟩
  · have hblock := number_of_found entered_initial hs hfo
    exact (hblock rfl ⟨7, 0⟩ rfl rfl).1 rfl

end Chain

end GradidoNode
