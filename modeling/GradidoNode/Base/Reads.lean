/-
# `GradidoNode.Base.Reads` — reads between the steps of validation

`get_block`, `get_block_record` and `get_checksums` are answered in every state of a
chain, also while it is being validated, and on the object that is validated.  They
should not be noticed: what `validate_next_checksum` answers and counts is to be the
same as without them, and no call is to fail.

They are noticed.  A read leaves the file of its block open behind the last row, and
`validate_next_checksum` reads on from there: it finds nothing and throws.  Only the
flush that a call may begin with closes the file again, and never that of the last
block.  `NextClosed` is the state in which validation goes on as it should; besides,
`get_block` has to be asked for a block there is, and `get_checksums` must not copy
what is no string (`Copies`).
-/
import GradidoNode.Base.BlockchainGradido
import GradidoNode.Base.Serve
import GradidoNode.Storage.Scan

namespace GradidoNode.Base

open Lib Blockchain FileTile BlockchainGradido

variable {T : Type} {F : RowFormat T}

/-! ## Requests -/

/-- The calls on the object. -/
inductive Request where
  | validateNextChecksum (now : Nat)
  | getBlock (index now : Nat)
  | getBlockRecord (seqNum now : Nat)
  | getChecksums (now : Nat)
  deriving DecidableEq, Repr

def Request.isValidation : Request → Bool
  | .validateNextChecksum _ => true
  | _ => false

variable (cfg : Conf)

/-- One call, and what it answered if it was a step of validation. -/
def request : Request → ChainM F (Option (Bool × ExitCode))
  | .validateNextChecksum now => do
    let r ← Blockchain.validateNextChecksum cfg.K now
    return some r
  | .getBlock index now => do
    let _ ← Blockchain.getBlock cfg.K index now
    return none
  | .getBlockRecord seqNum now => do
    let _ ← Base.getBlockRecord cfg seqNum now
    return none
  | .getChecksums now => do
    let _ ← Base.getChecksums cfg now
    return none

/-- Calls one after the other, and the answers of `validate_next_checksum`. -/
def requests : List Request → ChainM F (List (Bool × ExitCode))
  | [] => return []
  | q :: qs => do
    let r ← request cfg q
    let rest ← requests qs
    return r.toList ++ rest

/-- A call that returned. -/
def requestStep (s : Blockchain F) (q : Request) : Option (Blockchain F) :=
  match request cfg q s with
  | .ok _ s' => some s'
  | .error _ _ => none

/-- What `get_checksums` copies is a string: row `GRADIDO_BLOCK_SIZE - 1` of every block but
the last and, where `j` is the CHECKSUM row of the last block, row `2 * j` of it. -/
def Copies (s : Blockchain F) : Prop :=
  ∀ b < s.tiles.length, if b + 1 = s.tiles.length then
      ∀ j < GRADIDO_BLOCK_SIZE, (entryRows F (s.disk b) j).type = RecordType.checksum →
        2 * j < cfg.K.RecCount ∧ (F.strcpyChecksum (entryRows F (s.disk b) (2 * j)).body).isSome
    else (F.strcpyChecksum (entryRows F (s.disk b) (GRADIDO_BLOCK_SIZE - 1)).body).isSome

instance (s : Blockchain F) : Decidable (Copies cfg s) :=
  inferInstanceAs (Decidable (∀ b < s.tiles.length, _))

/-- What a call needs to be answered, and for a step of validation not to be disturbed by what
has been read before. -/
def Undisturbed (s : Blockchain F) : Request → Prop
  | .validateNextChecksum now => NextClosed now s
  | .getBlock index _ => index < s.tiles.length
  | .getBlockRecord _ _ => True
  | .getChecksums _ => Copies cfg s

instance (s : Blockchain F) : DecidablePred (Undisturbed cfg s)
  | .validateNextChecksum now => inferInstanceAs (Decidable (NextClosed now s))
  | .getBlock index _ => inferInstanceAs (Decidable (index < s.tiles.length))
  | .getBlockRecord _ _ => inferInstanceAs (Decidable True)
  | .getChecksums _ => inferInstanceAs (Decidable (Copies cfg s))

/-! ## One call -/

variable {cfg} {disk : Nat → Entry F.Body} {fc i : Nat} {s s' : Blockchain F}

/-- A step of validation: yes as long as there are blocks. -/
theorem validateNextChecksum_scanned (hacc : ∀ b < fc, Accepted cfg.K (disk b)) (hi : i ≤ fc)
    (h : Scanned cfg.K disk fc i s) {now : Nat} (hcl : NextClosed now s) :
    Returns (Blockchain.validateNextChecksum cfg.K now) s fun r s' =>
      r = (decide (i < fc), .ok) ∧ Scanned cfg.K disk fc (min (i + 1) fc) s' ∧
        (Unread i s → Unread (min (i + 1) fc) s') := by
  rcases Nat.lt_or_eq_of_le hi with hlt | rfl
  · rw [Nat.min_eq_left hlt, decide_eq_true hlt]
    exact h.validate hlt (hacc i hlt).wellShaped hcl
  · rw [Nat.min_eq_right (Nat.le_succ i), decide_eq_false (Nat.lt_irrefl i)]
    exact ⟨_, _, h.validateDone now, rfl, h.flush now, fun hun => hun.flush now⟩

theorem getBlockRecord_scanned (h : Scanned cfg.K disk fc i s) (seqNum now : Nat) :
    Returns (Base.getBlockRecord cfg seqNum now) s fun _ s' => Scanned cfg.K disk fc i s' := by
  refine .bind (.get ?_)
  dsimp only
  split
  · exact .pure h
  · next hlt =>
    refine .bind ((h.getBlock (by rw [← h.length_eq]; omega) now).mono ?_)
    rintro r s' ⟨⟨data, rfl, -⟩, h', -⟩
    dsimp only
    split
    · exact .pure h'
    · split
      · exact .pure h'
      · exact .pure h'

theorem shows_scanned :
    Shows cfg.K fc (fun b => entryRows F (disk b)) (Scanned cfg.K disk fc i) := by
  intro s b now h hb
  refine (h.getBlock hb now).mono ?_
  rintro r s' ⟨hr, h', -⟩
  exact ⟨hr, h'⟩

/-- What is copied is a string, and so `get_checksums` has its entries. -/
theorem Copies.entries (hco : Copies cfg s) :
    (entriesFrom cfg (fun b => entryRows F (s.disk b)) 0 s.tiles.length).isSome := by
  refine entriesFrom_isSome.mpr fun b hb => ?_
  have hblock := hco b hb
  rw [Nat.zero_add]
  by_cases hla : b + 1 = s.tiles.length
  · rw [if_pos hla] at hblock
    rw [beq_iff_eq.mpr hla, entriesOf, if_pos rfl]
    cases hfi : firstSum (entryRows F (s.disk b)) with
    | none => rfl
    | some j =>
      obtain ⟨hj, hsum, -⟩ := List.findIdx?_eq_some_iff_getElem.mp hfi
      obtain ⟨hin, hso⟩ := hblock j (by simpa using hj) (by simpa using hsum)
      simpa [hin] using hso
  · rw [if_neg hla] at hblock
    rw [beq_false_of_ne hla, entriesOf, if_neg Bool.false_ne_true, Option.isSome_map]
    exact hblock

/-- No read changes what validation goes by. -/
theorem request_reads (hK : cfg.K.RecCount = GRADIDO_BLOCK_SIZE) (h : Scanned cfg.K disk fc i s)
    {q : Request} (hq : q.isValidation = false) (hco : Undisturbed cfg s q) :
    Returns (request cfg q) s fun r s' => r = none ∧ Scanned cfg.K disk fc i s' := by
  cases q with
  | validateNextChecksum now => cases hq
  | getBlock index now =>
    refine .bind ((h.getBlock (by rw [← h.length_eq]; exact hco) now).mono ?_)
    rintro r s' ⟨-, h', -⟩
    exact .pure ⟨rfl, h'⟩
  | getBlockRecord seqNum now =>
    exact .bind ((getBlockRecord_scanned h seqNum now).mono fun _ _ h' =>
      .pure ⟨rfl, h'⟩)
  | getChecksums now =>
    refine Returns.bind ((Returns.bind (Returns.get ?_)).mono fun _ _ h' =>
      Returns.pure ⟨rfl, h'⟩)
    have hall := Copies.entries hco
    rw [h.length_eq, h.disk_eq] at hall
    rw [h.length_eq]
    rcases checksumsFrom_entries hK shows_scanned now fc 0 h (Nat.zero_add fc)
      with ⟨bis, s', hok, -, h'⟩ | ⟨-, hen⟩
    · exact ⟨bis, s', hok, h'⟩
    · rw [hen] at hall
      cases hall

/-! ## Runs -/

theorem requests_cons {q : Request} {qs : List Request} {r : Option (Bool × ExitCode)}
    {rest : List (Bool × ExitCode)} {s'' : Blockchain F} (hq : request cfg q s = .ok r s')
    (hqs : requests cfg qs s' = .ok rest s'') :
    requests cfg (q :: qs) s = .ok (r.toList ++ rest) s'' := by
  rw [requests, bind_eq hq, bind_eq hqs]
  rfl

/-- The two runs side by side: the steps of validation alone never meet an open file. -/
theorem requests_scanned (hK : cfg.K.RecCount = GRADIDO_BLOCK_SIZE)
    (hacc : ∀ b < fc, Accepted cfg.K (disk b)) {qs : List Request} {s t : Blockchain F}
    (hi : i ≤ fc) (hs : Scanned cfg.K disk fc i s) (ht : Scanned cfg.K disk fc i t)
    (hun : Unread i t) (hqs : Along (requestStep cfg) (Undisturbed cfg) s qs) :
    ∃ j rs s' t', requests cfg qs s = .ok rs s' ∧
      requests cfg (qs.filter Request.isValidation) t = .ok rs t' ∧
      Scanned cfg.K disk fc j s' ∧ Scanned cfg.K disk fc j t' := by
  induction qs generalizing i s t with
  | nil => exact ⟨i, [], s, t, rfl, rfl, hs, ht⟩
  | cons q qs ih =>
    obtain ⟨hco, hre⟩ := hqs
    cases hq : q.isValidation with
    | false =>
      obtain ⟨r, s₁, heq, rfl, hs₁⟩ := request_reads hK hs hq hco
      obtain ⟨j, rs, s', t', hrun, hval, hs', ht'⟩ :=
        ih hi hs₁ ht hun (hre s₁ (by rw [requestStep, heq]))
      refine ⟨j, rs, s', t', requests_cons heq hrun, ?_, hs', ht'⟩
      rw [List.filter_cons_of_neg (by rw [hq]; decide)]
      exact hval
    | true =>
      cases q with
      | getBlock _ _ | getBlockRecord _ _ | getChecksums _ => cases hq
      | validateNextChecksum now =>
        obtain ⟨r, s₁, heq, rfl, hs₁, -⟩ := validateNextChecksum_scanned hacc hi hs hco
        obtain ⟨r, t₁, heq', rfl, ht₁, hun₁⟩ := validateNextChecksum_scanned hacc hi ht
          (hun.nextClosed (Nat.le_of_eq ht.valid_eq.symm) now)
        have hreq : request cfg (.validateNextChecksum now) s
            = .ok (some (decide (i < fc), .ok)) s₁ := by rw [request, bind_eq heq]; rfl
        have hreq' : request cfg (.validateNextChecksum now) t
            = .ok (some (decide (i < fc), .ok)) t₁ := by rw [request, bind_eq heq']; rfl
        obtain ⟨j, rs, s', t', hrun, hval, hs', ht'⟩ := ih (Nat.min_le_right _ _) hs₁ ht₁
          (hun₁ hun) (hre s₁ (by rw [requestStep, hreq]))
        refine ⟨j, _, s', t', requests_cons hreq hrun, ?_, hs', ht'⟩
        rw [List.filter_cons_of_pos hq]
        exact requests_cons hreq' hval

/-- **Reads and validation.**  For every folder of well-formed blocks and every sequence of
calls that meet no open file in validation, ask for blocks there are and copy strings: every
call returns, and what `validate_next_checksum` answers and counts is the same as without the
reads. -/
theorem reads_undisturbed (hK : cfg.K.RecCount = GRADIDO_BLOCK_SIZE) (disk : Nat → Entry F.Body)
    (fc : Nat) (hacc : ∀ b < fc, Accepted cfg.K (disk b)) (qs : List Request)
    (hqs : Along (requestStep cfg) (Undisturbed cfg) (Blockchain.create cfg.K disk fc) qs) :
    ∃ rs s t, requests cfg qs (Blockchain.create cfg.K disk fc) = .ok rs s ∧
      requests cfg (qs.filter Request.isValidation) (Blockchain.create cfg.K disk fc) = .ok rs t ∧
      s.recCount = t.recCount ∧ s.checksumValidBlockCount = t.checksumValidBlockCount := by
  have h : Scanned cfg.K disk fc 0 (Blockchain.create cfg.K disk fc) :=
    create_scanned fun b hb => (hacc b hb).1
  obtain ⟨j, rs, s, t, hrun, hval, hs, ht⟩ := requests_scanned hK hacc (Nat.zero_le fc) h h
    (create_unread disk fc) hqs
  exact ⟨rs, s, t, hrun, hval, hs.recCount_eq.trans ht.recCount_eq.symm,
    hs.valid_eq.trans ht.valid_eq.symm⟩

/-- A folder of blocks of one payload each. -/
abbrev onePayloadEach (n : Nat) : Nat → Entry (digestFormat Nat).Body :=
  folderOf (digestFormat Nat) groupConf.K (List.replicate n [7])

/-- A block read before it is validated, and closed by the flush; reads of validated blocks. -/
theorem reads_undisturbed_flushed :
    let qs : List Request := [.getBlock 0 0, .validateNextChecksum 1, .getBlockRecord 1 1,
      .validateNextChecksum 1, .getChecksums 1, .validateNextChecksum 1]
    ∃ rs s t, requests groupConf qs (Blockchain.create groupConf.K (onePayloadEach 2) 2)
        = .ok rs s ∧
      requests groupConf (qs.filter Request.isValidation)
        (Blockchain.create groupConf.K (onePayloadEach 2) 2) = .ok rs t ∧
      s.recCount = t.recCount ∧ s.checksumValidBlockCount = t.checksumValidBlockCount := by
  have hacc : ∀ b < 2, Accepted groupConf.K (onePayloadEach 2 b) := by decide +kernel
  have hqs : Along (requestStep groupConf) (Undisturbed groupConf)
      (Blockchain.create groupConf.K (onePayloadEach 2) 2)
      [.getBlock 0 0, .validateNextChecksum 1, .getBlockRecord 1 1,
        .validateNextChecksum 1, .getChecksums 1, .validateNextChecksum 1] := by
    decide +kernel
  exact reads_undisturbed rfl (onePayloadEach 2) 2 hacc _ hqs

/-- A block read before it is validated, with no flush in between. -/
theorem read_stops_validation : (∀ b < 1, Accepted groupConf.K (onePayloadEach 1 b)) ∧
    (∃ s, requests groupConf [.validateNextChecksum 0]
        (Blockchain.create groupConf.K (onePayloadEach 1) 1) = .ok [(true, .ok)] s) ∧
    (∃ s, requests groupConf [.getBlock 0 0, .validateNextChecksum 0]
        (Blockchain.create groupConf.K (onePayloadEach 1) 1)
      = .error (.thrown "bad block file, cannot recover, ") s) := by
  refine ⟨by decide +kernel, outcome_ok ?_, outcome_error ?_⟩
  · decide +kernel
  · decide +kernel

end GradidoNode.Base
