/-
# `GradidoNode.Storage.Shape` — what `validate_block` says of which block

The rules ask a block to be PAYLOAD rows, one CHECKSUM row, EMPTY rows
(`BlockShape`).  The loop of `validate_block` has a branch for each of the three
types and none for the other 253 values of the byte, so before the checksum row
it passes anything that is neither EMPTY nor CHECKSUM (`Leading`).  Its verdicts:

    no EMPTY and no CHECKSUM row                        NO_CHECKSUM
    an EMPTY row first                                  EMPTY_RECORD_BEFORE_CHECKSUM
    a CHECKSUM row first, no PAYLOAD row before it      NO_PAYLOAD
    one after a PAYLOAD row, a row not EMPTY behind     NON_EMPTY_RECORD_AFTER_CHECKSUM
    `WellShaped`, not full where it has to be           true, `ec` not set
    `WellShaped`, the tile before it in state OK        true, OK
    `WellShaped`, otherwise                             `get_prev_checksum` throws

`validateBlock_exact_iff` compares this with the rules, for every array of rows
and every object.
-/
import GradidoNode.Storage.ChecksumChain

namespace GradidoNode.Blockchain

open FileTile Lib

variable {T : Type} {F : RowFormat T} {K : Params} {s : Blockchain F}

/-! ## Shapes -/

/-- The type bytes `validate_block` lets through. -/
def WellShaped (tys : List UInt8) : Prop :=
  ∃ xs k, tys = xs ++ RecordType.checksum :: List.replicate k RecordType.empty ∧
    RecordType.payload ∈ xs ∧ ∀ x ∈ xs, x ≠ RecordType.empty ∧ x ≠ RecordType.checksum

/-- One or more PAYLOAD rows, one CHECKSUM row, EMPTY rows. -/
def BlockShape (tys : List UInt8) : Prop :=
  ∃ n k, 0 < n ∧ tys = List.replicate n RecordType.payload ++
    RecordType.checksum :: List.replicate k RecordType.empty

/-- Rows the loop passes while it has not seen a checksum. -/
def Leading (xs : List UInt8) : Prop :=
  ∀ x ∈ xs, x ≠ RecordType.empty ∧ x ≠ RecordType.checksum

/-- Every type byte is one of `RecordType`. -/
def KnownTypes (tys : List UInt8) : Prop :=
  ∀ x ∈ tys, x = RecordType.empty ∨ x = RecordType.payload ∨ x = RecordType.checksum

instance (tys : List UInt8) : Decidable (KnownTypes tys) :=
  inferInstanceAs (Decidable (∀ x ∈ tys, _))

/-- A shape the loop refuses, and the code it refuses it with. -/
inductive Misshaped : List UInt8 → ExitCode → Prop
  | noChecksum {xs : List UInt8} (hxs : Leading xs) : Misshaped xs .noChecksum
  | emptyBefore {xs ys : List UInt8} (hxs : Leading xs) :
      Misshaped (xs ++ RecordType.empty :: ys) .emptyRecordBeforeChecksum
  | noPayload {xs ys : List UInt8} (hxs : Leading xs) (hp : RecordType.payload ∉ xs) :
      Misshaped (xs ++ RecordType.checksum :: ys) .noPayload
  | nonEmptyAfter {xs ys : List UInt8} {k : Nat} {y : UInt8} (hxs : Leading xs)
      (hp : RecordType.payload ∈ xs) (hy : y ≠ RecordType.empty) :
      Misshaped (xs ++ RecordType.checksum :: (List.replicate k RecordType.empty ++ y :: ys))
        .nonEmptyRecordAfterChecksum

/-- The shape of the rules is the one let through, with no byte outside `RecordType`. -/
theorem blockShape_iff (tys : List UInt8) : BlockShape tys ↔ WellShaped tys ∧ KnownTypes tys := by
  constructor
  · rintro ⟨n, k, hn, rfl⟩
    refine ⟨⟨_, k, rfl, List.mem_replicate.mpr ⟨by omega, rfl⟩, ?_⟩, ?_⟩
    · intro x hx
      rw [List.eq_of_mem_replicate hx]
      decide
    · intro x hx
      rcases List.mem_append.mp hx with hx | hx
      · exact .inr (.inl (List.eq_of_mem_replicate hx))
      · rcases List.mem_cons.mp hx with hx | hx
        · exact .inr (.inr hx)
        · exact .inl (List.eq_of_mem_replicate hx)
  · rintro ⟨⟨xs, k, rfl, hp, hxs⟩, hkn⟩
    refine ⟨xs.length, k, List.length_pos_of_mem hp, ?_⟩
    congr 1
    refine List.eq_replicate_of_mem fun x hx => ?_
    obtain ⟨hne, hnc⟩ := hxs x hx
    exact ((hkn x (List.mem_append_left _ hx)).resolve_left hne).resolve_right hnc

/-- EMPTY rows are behind the checksum row only. -/
theorem empty_mem_iff {xs : List UInt8} (hxs : Leading xs) (k : Nat) :
    RecordType.empty ∈ xs ++ RecordType.checksum :: List.replicate k RecordType.empty ↔ 0 < k := by
  have hno : RecordType.empty ∉ xs := fun h => (hxs _ h).1 rfl
  have hne : RecordType.empty ≠ RecordType.checksum := by decide
  rw [List.mem_append, List.mem_cons, List.mem_replicate]
  constructor
  · rintro (h | h | ⟨h, -⟩)
    · exact absurd h hno
    · exact absurd h hne
    · exact Nat.pos_of_ne_zero h
  · intro h
    exact .inr (.inr ⟨Nat.ne_of_gt h, rfl⟩)

/-! ## The rows of a block, split where the loop changes -/

theorem leading_split (tys : List UInt8) :
    ∃ xs, Leading xs ∧ (tys = xs ∨ (∃ ys, tys = xs ++ RecordType.empty :: ys) ∨
      ∃ ys, tys = xs ++ RecordType.checksum :: ys) := by
  induction tys with
  | nil => exact ⟨[], fun x hx => absurd hx List.not_mem_nil, .inl rfl⟩
  | cons ty tys ih =>
    by_cases hem : ty = RecordType.empty
    · exact ⟨[], fun x hx => absurd hx List.not_mem_nil, .inr (.inl ⟨tys, by rw [hem]; rfl⟩)⟩
    by_cases hch : ty = RecordType.checksum
    · exact ⟨[], fun x hx => absurd hx List.not_mem_nil, .inr (.inr ⟨tys, by rw [hch]; rfl⟩)⟩
    obtain ⟨xs, hxs, hsp⟩ := ih
    have hxs' : Leading (ty :: xs) := by
      intro x hx
      rcases List.mem_cons.mp hx with rfl | hx
      · exact ⟨hem, hch⟩
      · exact hxs x hx
    refine ⟨ty :: xs, hxs', ?_⟩
    rcases hsp with rfl | ⟨ys, rfl⟩ | ⟨ys, rfl⟩
    · exact .inl rfl
    · exact .inr (.inl ⟨ys, rfl⟩)
    · exact .inr (.inr ⟨ys, rfl⟩)

theorem blank_split (tys : List UInt8) : (∃ k, tys = List.replicate k RecordType.empty) ∨
      ∃ k y ys, y ≠ RecordType.empty ∧ tys = List.replicate k RecordType.empty ++ y :: ys := by
  induction tys with
  | nil => exact .inl ⟨0, rfl⟩
  | cons ty tys ih =>
    by_cases hem : ty = RecordType.empty
    · subst hem
      rcases ih with ⟨k, rfl⟩ | ⟨k, y, ys, hy, rfl⟩
      · exact .inl ⟨k + 1, rfl⟩
      · exact .inr ⟨k + 1, y, ys, hy, rfl⟩
    · exact .inr ⟨0, ty, tys, hem, rfl⟩

/-- Every list of type bytes is let through or refused with a code. -/
theorem wellShaped_or_misshaped (tys : List UInt8) : WellShaped tys ∨ ∃ e, Misshaped tys e := by
  obtain ⟨xs, hxs, rfl | ⟨ys, rfl⟩ | ⟨ys, rfl⟩⟩ := leading_split tys
  · exact .inr ⟨_, .noChecksum hxs⟩
  · exact .inr ⟨_, .emptyBefore hxs⟩
  · by_cases hp : RecordType.payload ∈ xs
    · rcases blank_split ys with ⟨k, rfl⟩ | ⟨k, y, ys, hy, rfl⟩
      · exact .inl ⟨xs, k, rfl, hp, hxs⟩
      · exact .inr ⟨_, .nonEmptyAfter hxs hp hy⟩
    · exact .inr ⟨_, .noPayload hxs hp⟩

/-! ## The loop -/

/-- The loop over leading rows only looks for a PAYLOAD row. -/
theorem scanRows_leading {xs : List UInt8} (hxs : Leading xs) (p : Bool) (ys : List UInt8) :
    scanRows ⟨false, false, p⟩ (xs ++ ys)
      = scanRows ⟨false, false, p || decide (RecordType.payload ∈ xs)⟩ ys := by
  induction xs generalizing p with
  | nil => simp
  | cons x xs ih =>
    obtain ⟨hne, hnc⟩ := hxs x List.mem_cons_self
    have hre : Leading xs := fun y hy => hxs y (List.mem_cons_of_mem _ hy)
    by_cases hx : x = RecordType.payload
    · have hst : scanRow ⟨false, false, p⟩ x = .ok ⟨false, false, true⟩ := by
        simp [scanRow, hx]
      simp only [List.cons_append, scanRows, hst, ih hre]
      simp [hx]
    · have hst : scanRow ⟨false, false, p⟩ x = .ok ⟨false, false, p⟩ := by
        simp [scanRow, hx, hne, hnc]
      simp only [List.cons_append, scanRows, hst, ih hre]
      simp [Ne.symm hx]

theorem scanRows_blank (e p : Bool) (k : Nat) (ys : List UInt8) :
    scanRows ⟨true, e, p⟩ (List.replicate k RecordType.empty ++ ys)
      = scanRows ⟨true, e || decide (0 < k), p⟩ ys := by
  induction k generalizing e with
  | zero => simp
  | succ k ih =>
    have hst : scanRow ⟨true, e, p⟩ RecordType.empty = .ok ⟨true, true, p⟩ := by simp [scanRow]
    simp only [List.replicate_succ, List.cons_append, scanRows, hst, ih]
    simp

theorem scanRow_checksum (p : Bool) : scanRow ⟨false, false, p⟩ RecordType.checksum
      = if p then .ok ⟨true, false, p⟩ else .error .noPayload := by
  cases p <;> rfl

variable {tys : List UInt8}

theorem scanRows_wellShaped (h : WellShaped tys) :
    scanRows ⟨false, false, false⟩ tys = .ok ⟨true, decide (RecordType.empty ∈ tys), true⟩ := by
  obtain ⟨xs, k, rfl, hp, hxs⟩ := h
  have hdec : decide (RecordType.empty ∈ xs ++ RecordType.checksum ::
      List.replicate k RecordType.empty) = decide (0 < k) :=
    decide_eq_decide.mpr (empty_mem_iff hxs k)
  rw [hdec, scanRows_leading hxs, decide_eq_true hp, Bool.or_true, scanRows, scanRow_checksum,
    if_pos rfl]
  have hbl := scanRows_blank false true k []
  rwa [List.append_nil] at hbl

theorem scanRows_misshaped {e : ExitCode} (h : Misshaped tys e) :
    scanRows ⟨false, false, false⟩ tys = .error e ∨
      (e = .noChecksum ∧ ∃ c, scanRows ⟨false, false, false⟩ tys = .ok c ∧ c.finished = false) := by
  cases h with
  | noChecksum hxs =>
    have hsc := scanRows_leading hxs false []
    rw [List.append_nil] at hsc
    exact .inr ⟨rfl, _, hsc, rfl⟩
  | emptyBefore hxs =>
    rw [scanRows_leading hxs]
    exact .inl rfl
  | noPayload hxs hp =>
    rw [scanRows_leading hxs, decide_eq_false hp]
    exact .inl rfl
  | @nonEmptyAfter xs ys k y hxs hp hy =>
    rw [scanRows_leading hxs, decide_eq_true hp, Bool.or_true, scanRows, scanRow_checksum,
      if_pos rfl]
    have hst : scanRow ⟨true, false || decide (0 < k), true⟩ y
        = .error .nonEmptyRecordAfterChecksum := by
      simp [scanRow, hy]
    refine .inl ?_
    show scanRows ⟨true, false, true⟩ (List.replicate k RecordType.empty ++ y :: ys) = _
    rw [scanRows_blank, scanRows, hst]

/-- No block is both. -/
theorem Misshaped.not_wellShaped {e : ExitCode} (h : Misshaped tys e) : ¬ WellShaped tys := by
  intro hsh
  have hsc := scanRows_wellShaped hsh
  rcases scanRows_misshaped h with herr | ⟨-, c, hok, hfin⟩
  · cases hsc.symm.trans herr
  · cases hsc.symm.trans hok
    cases hfin

instance : DecidablePred WellShaped := fun tys =>
  decidable_of_iff ((match scanRows ⟨false, false, false⟩ tys with
      | .ok c => c.finished
      | .error _ => false) = true) <| by
    rcases wellShaped_or_misshaped tys with h | ⟨e, h⟩
    · simp [scanRows_wellShaped h, h]
    · rcases scanRows_misshaped h with hsc | ⟨-, c, hsc, hfin⟩
      · simp [hsc, h.not_wellShaped]
      · simp [hsc, hfin, h.not_wellShaped]

instance (tys : List UInt8) : Decidable (BlockShape tys) :=
  decidable_of_iff _ (blockShape_iff tys).symm

/-- The codes of the loop are about rows. -/
theorem Misshaped.ne_badBlockLength {e : ExitCode} (h : Misshaped tys e) : e ≠ .badBlockLength := by
  rintro rfl
  cases h

/-! ## `validate_block` -/

/-- A block with EMPTY rows is not asked to be full and is the last one. -/
def FullEnough (s : Blockchain F) (b : Nat) (full : Bool) (tys : List UInt8) : Prop :=
  RecordType.empty ∈ tys → full = false ∧ b = s.lastIndex

/-- The state `get_prev_checksum` asks for. -/
def PrevOk (s : Blockchain F) (b : Nat) : Prop :=
  b = 0 ∨ ∃ d, s.tiles[b - 1]? = some d ∧ d.state = .ok

theorem getPrevChecksum_ok {b : Nat} (h : PrevOk s b) : ∃ c, getPrevChecksum b s = .ok c s := by
  unfold getPrevChecksum
  by_cases h0 : b = 0
  · rw [if_pos h0]
    exact ⟨F.zero, rfl⟩
  · obtain ⟨d, hd, hst⟩ := h.resolve_left h0
    rw [if_neg h0, bind_eq (onTile_ok _ hd), putTile_self hd]
    simp only [hst, if_true]
    exact ⟨d.sup, rfl⟩

theorem getPrevChecksum_throws {b : Nat} (h : ¬ PrevOk s b) :
    ∃ msg, getPrevChecksum b s = .error (.thrown msg) s := by
  obtain ⟨h0, hno⟩ := not_or.mp h
  unfold getPrevChecksum
  rw [if_neg h0]
  cases hd : s.tiles[b - 1]? with
  | none => exact ⟨_, bind_error (onTile_outside _ (List.getElem?_eq_none_iff.mp hd))⟩
  | some d =>
    have hst : d.state ≠ .ok := fun hok => hno ⟨d, hd, hok⟩
    rw [bind_eq (onTile_ok _ hd), putTile_self hd]
    simp only [hst, if_false]
    exact ⟨_, rfl⟩

theorem getPrevChecksum_state {b : Nat} {c : F.Checksum} {s' : Blockchain F}
    (h : getPrevChecksum b s = .ok c s') : s' = s := by
  by_cases hpr : PrevOk s b
  · obtain ⟨c', hok⟩ := getPrevChecksum_ok hpr
    cases h.symm.trans hok
    rfl
  · obtain ⟨msg, hth⟩ := getPrevChecksum_throws hpr
    cases h.symm.trans hth

section Verdicts

variable {b : Nat} {r : Nat → Row F.Body} {full : Bool}

theorem validateBlock_refused {e : ExitCode} (h : Misshaped (rowTypes K r) e) (ec : ExitCode) :
    validateBlock K b r full ec s = .ok (false, e) s := by
  unfold validateBlock
  rcases scanRows_misshaped h with hsc | ⟨rfl, c, hsc, hfin⟩
  · rw [hsc]
    rfl
  · rw [hsc]
    simp only [hfin, Bool.not_false, if_true]
    rfl

theorem validateBlock_finished (full : Bool) (h : WellShaped (rowTypes K r)) (ec : ExitCode) :
    (¬ FullEnough s b full (rowTypes K r) ∧ validateBlock K b r full ec s = .ok (true, ec) s) ∨
    (FullEnough s b full (rowTypes K r) ∧ validateBlock K b r full ec s =
      (getPrevChecksum b >>= fun _ => pure (true, ExitCode.ok) : ChainM F (Bool × ExitCode)) s) := by
  unfold validateBlock
  rw [scanRows_wellShaped h]
  by_cases hem : RecordType.empty ∈ rowTypes K r
  · simp only [hem, decide_true, Bool.not_true, Bool.false_eq_true, if_false, Bool.and_true,
      Bool.true_and, decide_eq_true_eq]
    cases full with
    | true => exact .inl ⟨fun hfull => absurd (hfull hem).1 (by simp), rfl⟩
    | false =>
      simp only [Bool.false_eq_true, if_false]
      rw [get_bind]
      by_cases hla : b = s.lastIndex
      · rw [if_neg (not_not.mpr hla)]
        exact .inr ⟨fun _ => ⟨rfl, hla⟩, rfl⟩
      · rw [if_pos hla]
        exact .inl ⟨fun hfull => hla (hfull hem).2, rfl⟩
  · simp only [hem, decide_false, Bool.not_true, Bool.false_eq_true, if_false, Bool.and_false,
      Bool.false_and]
    exact .inr ⟨fun hin => absurd hin hem, rfl⟩

theorem validateBlock_accepts (h : WellShaped (rowTypes K r))
    (hfull : FullEnough s b full (rowTypes K r)) (hpr : PrevOk s b) (ec : ExitCode) :
    validateBlock K b r full ec s = .ok (true, .ok) s := by
  obtain ⟨c, hc⟩ := getPrevChecksum_ok hpr
  rcases validateBlock_finished full h ec with ⟨hno, -⟩ | ⟨-, heq⟩
  · exact absurd hfull hno
  · rw [heq, bind_eq hc]
    rfl

theorem validateBlock_throws (h : WellShaped (rowTypes K r))
    (hfull : FullEnough s b full (rowTypes K r)) (hpr : ¬ PrevOk s b) (ec : ExitCode) :
    ∃ msg, validateBlock K b r full ec s = .error (.thrown msg) s := by
  obtain ⟨msg, hc⟩ := getPrevChecksum_throws hpr
  rcases validateBlock_finished full h ec with ⟨hno, -⟩ | ⟨-, heq⟩
  · exact absurd hfull hno
  · rw [heq]
    exact ⟨msg, bind_error hc⟩

theorem validateBlock_true {s' : Blockchain F} {ec ec' : ExitCode}
    (h : validateBlock K b r full ec s = .ok (true, ec') s') : WellShaped (rowTypes K r) ∧ s' = s := by
  rcases wellShaped_or_misshaped (rowTypes K r) with hsh | ⟨e, he⟩
  · refine ⟨hsh, ?_⟩
    rcases validateBlock_finished full hsh ec with ⟨-, hv⟩ | ⟨-, hv⟩
    · cases h.symm.trans hv
      rfl
    · obtain ⟨c, s₁, hc, hpu⟩ := bind_ok (hv.symm.trans h)
      cases hpu
      exact getPrevChecksum_state hc
  · cases h.symm.trans (validateBlock_refused he ec)

end Verdicts

/-- What the shape check is for: `true` only for blocks of the shape, and `true` with OK for
every block of the shape that is full where it has to be. -/
structure ShapeExact (K : Params) (s : Blockchain F) (b : Nat) (r : Nat → Row F.Body)
    (full : Bool) : Prop where
  sound : ∀ ec ec' s', validateBlock K b r full ec s = .ok (true, ec') s' →
    BlockShape (rowTypes K r)
  complete : BlockShape (rowTypes K r) → FullEnough s b full (rowTypes K r) →
    ∀ ec, ∃ s', validateBlock K b r full ec s = .ok (true, .ok) s'

/-- **The shape check, for every block and every object.**  It is exact where a block that
passes the loop has no type byte outside `RecordType` (or the call throws), and where the tile
before a block of the right shape is in state OK. -/
theorem validateBlock_exact_iff (K : Params) (s : Blockchain F) (b : Nat) (r : Nat → Row F.Body)
    (full : Bool) :
    ShapeExact K s b r full ↔ (WellShaped (rowTypes K r) →
        KnownTypes (rowTypes K r) ∨ (FullEnough s b full (rowTypes K r) ∧ ¬ PrevOk s b)) ∧
      (BlockShape (rowTypes K r) → FullEnough s b full (rowTypes K r) → PrevOk s b) := by
  constructor
  · rintro ⟨hso, hco⟩
    refine ⟨fun hsh => ?_, fun hsh hfull => ?_⟩
    · by_contra hno
      obtain ⟨hun, hre⟩ := not_or.mp hno
      have hkn : ∀ ec ec' s', validateBlock K b r full ec s = .ok (true, ec') s' → False :=
        fun ec ec' s' heq => hun ((blockShape_iff _).mp (hso ec ec' s' heq)).2
      rcases validateBlock_finished full hsh .ok with ⟨-, heq⟩ | ⟨hfull, -⟩
      · exact hkn _ _ _ heq
      · by_cases hpr : PrevOk s b
        · exact hkn _ _ _ (validateBlock_accepts hsh hfull hpr .ok)
        · exact hre ⟨hfull, hpr⟩
    · by_contra hpr
      obtain ⟨s', heq⟩ := hco hsh hfull .ok
      obtain ⟨msg, hth⟩ := validateBlock_throws ((blockShape_iff _).mp hsh).1 hfull hpr .ok
      cases heq.symm.trans hth
  · rintro ⟨hkn, hpr⟩
    refine ⟨fun ec ec' s' heq => ?_, fun hsh hfull ec => ?_⟩
    · have hsh := (validateBlock_true heq).1
      refine (blockShape_iff _).mpr ⟨hsh, ?_⟩
      rcases hkn hsh with hk | ⟨hfull, hno⟩
      · exact hk
      · obtain ⟨msg, hth⟩ := validateBlock_throws hsh hfull hno ec
        cases heq.symm.trans hth
    · exact ⟨s, validateBlock_accepts ((blockShape_iff _).mp hsh).1 hfull (hpr hsh hfull) ec⟩

/-- A row of a type there is none of, between a PAYLOAD row and the CHECKSUM row. -/
theorem validateBlock_unknown_type : ∃ r : Nat → Row (digestFormat Nat).Body,
      rowTypes fourRows r = [RecordType.payload, 3, RecordType.checksum, RecordType.empty] ∧
      ¬ BlockShape (rowTypes fourRows r) ∧
      ∃ s', validateBlock fourRows 0 r false .ok
        (create fourRows (fun _ => .missing) 1) = .ok (true, .ok) s' := by
  let tys : List UInt8 := [RecordType.payload, 3, RecordType.checksum, RecordType.empty]
  let r : Nat → Row (digestFormat Nat).Body := fun i => ⟨tys.getD i 0, .inr .zero⟩
  have hty : rowTypes fourRows r = tys := by decide
  have hwe : WellShaped tys := by decide
  refine ⟨r, hty, by rw [hty]; decide, _,
    validateBlock_accepts (by rw [hty]; exact hwe) ?_ (.inl rfl) .ok⟩
  intro _
  exact ⟨rfl, rfl⟩

end GradidoNode.Blockchain
