/-
# `GradidoNode.Wire.Writes` — what the translation leaves in `buff`

The translation of `GradidoNode.Wire.Translate`, call by call: when it returns, and what it
has written then (`Exact`).  Where it does not return, what it does is undefined.

    main record       a list of writes (`mainWrites`), the group name among them with its
                      own length
    MEMO record       two more, its type and the rest of the memo
    SIGNATURES        signature `k + 1` in slot `k % 3` of record `k / 3` (`slotAt`)

The records behind the first are written after it and above it, so what they leave alone
is a frame.  `Translated` is all of this, and `translateFromCtr_some` says that a batch with
records is one; `translateFromCtr_batch` is what the chain goes by.

There are two ways to a batch without records, the signature count, which throws, and the
reset mark (`translateFromCtr_none_iff`).
-/
import GradidoNode.Wire.Translate

namespace GradidoNode.Wire

open Lib Proto

/-! ## Calls that write -/

/-- The call returns, with `Q`, just if `P`; if not, what it does is undefined. -/
structure Exact {α : Type} (P : Prop) (x : Translate α) (m : Memory) (Q : α → Memory → Prop) :
    Prop where
  returns : P → Returns x m Q
  undefined : ¬ P → ∃ what m', x m = .error (.undefined what) m'

section Exact

variable {α β : Type} {P P' : Prop} {x : Translate α} {f : α → Translate β} {m : Memory}
  {Q Q' : α → Memory → Prop} {R : β → Memory → Prop}

theorem Exact.pure {a : α} (hP : P) (hQ : Q a m) : Exact P (pure a) m Q :=
  ⟨fun _ => .pure hQ, fun h => absurd hP h⟩

/-- What a block needs, its first call needs; the rest is left to the others. -/
theorem Exact.bind (hx : Exact P' x m Q) (hP : P → P')
    (hf : ∀ a m', P' → Q a m' → Exact P (f a) m' R) : Exact P (x >>= f) m R := by
  constructor
  · intro h
    exact .bind ((hx.returns (hP h)).mono fun a m' hQ => (hf a m' (hP h) hQ).returns h)
  · intro h
    by_cases h' : P'
    · obtain ⟨a, m', hca, hQ⟩ := hx.returns h'
      obtain ⟨what, m'', hu⟩ := (hf a m' h' hQ).undefined h
      exact ⟨what, m'', (bind_eq hca).trans hu⟩
    · obtain ⟨what, m', hu⟩ := hx.undefined h'
      exact ⟨what, m', bind_error hu⟩

theorem Exact.after (hx : Returns x m Q) (hf : ∀ a m', Q a m' → Exact P (f a) m' R) :
    Exact P (x >>= f) m R :=
  Exact.bind (⟨fun _ => hx, fun h => absurd trivial h⟩ : Exact True x m Q) (fun _ => trivial)
    fun a m' _ => hf a m'

theorem Exact.mono (hx : Exact P x m Q) (hP : P ↔ P') (hQ : ∀ a m', P → Q a m' → Q' a m') :
    Exact P' x m Q' where
  returns h := (hx.returns (hP.mpr h)).mono fun a m' => hQ a m' (hP.mpr h)
  undefined h := hx.undefined fun h' => h (hP.mp h')

end Exact

theorem poke_returns {off : Nat} {bs : List UInt8} (h : off + bs.length ≤ BUFF_SIZE) (m : Memory) :
    Returns (poke off bs) m fun _ m' => m' = m.write off bs := by
  rw [poke, if_pos h]
  exact .of_modify rfl

theorem assign_returns {α : Type} (Q : Packed α) (off : Nat) (a : α)
    (h : off + Q.size ≤ BUFF_SIZE) (m : Memory) :
    Returns (assign Q off a) m fun _ m' => m' = m.write off (Q.write a) :=
  poke_returns (by rw [Q.length_write]; exact h) m

/-- What `memcpy` takes of a string. -/
def taken (n : Nat) (s : Bytes) : Bytes := (cStr s).take n

theorem length_taken {n : Nat} {s : Bytes} (h : Fits n s) : (taken n s).length = n := by
  rw [taken, List.length_take, cStr, List.length_append]
  exact Nat.min_eq_left h

theorem fetch_exact {α : Type} (Q : Packed α) (s : Bytes) (m : Memory) :
    Exact (Fits Q.size s) (fetch Q s) m fun a m' => a = Q.read (taken Q.size s) ∧ m' = m := by
  have hlen : (cStr s).length = s.length + 1 := List.length_append
  unfold fetch memcpy
  rw [hlen]
  by_cases hfits : Q.size ≤ s.length + 1
  · rw [if_pos hfits]
    exact Exact.pure hfits ⟨rfl, rfl⟩
  · rw [if_neg hfits]
    exact ⟨fun h => absurd h hfits, fun _ => ⟨_, _, rfl⟩⟩

/-- The call makes these writes just if `P`. -/
def Makes (ws : List (Nat × Bytes)) (P : Prop) (x : Translate Unit) : Prop :=
  ∀ m, Exact P x m fun _ m' => m' = m.writes ws

section Makes

variable {x y : Translate Unit} {ws ws' : List (Nat × Bytes)} {P P' : Prop} {off : Nat}

theorem Makes.andThen (hx : Makes ws P x) (hy : Makes ws' P' y) :
    Makes (ws ++ ws') (P ∧ P') (x >>= fun _ => y) := by
  intro m
  refine (hx m).bind And.left ?_
  rintro _ _ hP rfl
  refine (hy _).mono (and_iff_right hP).symm ?_
  rintro _ _ - rfl
  exact Memory.writes_append.symm

theorem Makes.iff (hx : Makes ws P x) (h : P ↔ P') : Makes ws P' x :=
  fun m => (hx m).mono h fun _ _ _ hm => hm

theorem makes_pure : Makes [] True (pure ()) := fun _ => Exact.pure trivial rfl

theorem makes_poke (off : Nat) (bs : List UInt8) :
    Makes [(off, bs)] (off + bs.length ≤ BUFF_SIZE) (poke off bs) := by
  refine fun m => ⟨fun hroom => poke_returns hroom m, fun hroom => ?_⟩
  rw [poke, if_neg hroom]
  exact ⟨_, _, rfl⟩

theorem makes_assign {α : Type} (Q : Packed α) (off : Nat) (a : α) (h : off + Q.size ≤ BUFF_SIZE) :
    Makes [(off, Q.write a)] True (assign Q off a) :=
  fun m => ⟨fun _ => assign_returns Q off a h m, fun h => absurd trivial h⟩

theorem makes_copyKey (off : Nat) (s : Bytes) (h : off + PUB_KEY_LENGTH ≤ BUFF_SIZE) :
    Makes [(off, taken PUB_KEY_LENGTH s)] (Fits PUB_KEY_LENGTH s) (copyKey off s) := by
  intro m
  refine (fetch_exact user s m).bind id ?_
  rintro _ _ hfits ⟨rfl, rfl⟩
  refine (makes_assign user off _ h _).mono (iff_of_true trivial hfits) ?_
  rintro _ _ - rfl
  rw [show user.write (user.read (taken user.size s)) = taken PUB_KEY_LENGTH s from
    user.write_read _ (length_taken hfits)]

/-- The bytes of an amount. -/
def amountBytes (a : Amount) : Bytes := Packed.uint64.write (a.amount.toUInt64.getD 0)

theorem makes_copyAmount (off : Nat) (a : Amount) (h : off + 8 ≤ BUFF_SIZE) :
    Makes [(off, amountBytes a)] a.amount.toUInt64.isSome (copyAmount off a) := by
  unfold copyAmount amountBytes
  cases a.amount.toUInt64 with
  | none => exact fun m => ⟨fun hno => (nomatch hno), fun _ => ⟨_, _, rfl⟩⟩
  | some amount => exact (makes_assign Packed.uint64 off amount h).iff (iff_of_true trivial rfl)

end Makes

/-! ## The data -/

def crossGroupWrites (type : UInt8) (receiverOff : Nat) (g2 : CrossGroupTransfer) :
    List (Nat × Bytes) :=
  [(transactionTypeAt, [type]), (operationAt, amountBytes g2.sender),
    (senderAt, taken PUB_KEY_LENGTH g2.sender.pubkey),
    (receiverOff, taken PUB_KEY_LENGTH g2.receiver),
    (pairedIdAt, hederaTimestamp.write g2.pairedTransactionId)]

def moveWrites (type : UInt8) (u : GroupMemberUpdate) : List (Nat × Bytes) :=
  [(transactionTypeAt, [type]), (operationAt, taken PUB_KEY_LENGTH u.userPubkey),
    (movePairedIdAt, hederaTimestamp.write u.pairedTransactionId)]

/-- What the branch taken for the message writes, but for the group name. -/
def fieldWrites : Data → List (Nat × Bytes)
  | .creation c =>
    [(transactionTypeAt, [GRADIDO_CREATION]),
      (operationAt + userTransfer.size, amountBytes c.receiver),
      (operationAt, taken PUB_KEY_LENGTH c.receiver.pubkey)]
  | .groupFriendsUpdate u =>
    [(transactionTypeAt, [if u.action = 0 then ADD_GROUP_FRIEND else REMOVE_GROUP_FRIEND])]
  | .groupMemberUpdate u =>
    let memberUpdateType := u.memberUpdateType.toUInt32.toUInt8
    if memberUpdateType = 0 then
      [(transactionTypeAt, [ADD_USER]), (operationAt, taken PUB_KEY_LENGTH u.userPubkey)]
    else if memberUpdateType = 1 then moveWrites MOVE_USER_INBOUND u
    else moveWrites MOVE_USER_OUTBOUND u
  | .transfer (.localTransfer g2) =>
    [(transactionTypeAt, [LOCAL_TRANSFER]), (operationAt, amountBytes g2.sender),
      (operationAt + abstractTransferOp.size, taken PUB_KEY_LENGTH g2.sender.pubkey),
      (operationAt + abstractTransferOp.size + userTransfer.size, taken PUB_KEY_LENGTH g2.receiver)]
  | .transfer (.inbound g2) => crossGroupWrites INBOUND_TRANSFER (senderAt + user.size) g2
  | .transfer (.outbound g2) =>
    crossGroupWrites OUTBOUND_TRANSFER (senderAt + userTransfer.size) g2
  | _ => []

/-- The group name of the message, if it has one, and where it is copied to. -/
def groupWrite : Data → List (Nat × Bytes)
  | .groupFriendsUpdate u => [(operationAt, u.group)]
  | .groupMemberUpdate u =>
    if u.memberUpdateType.toUInt32.toUInt8 = 0 then [] else [(moveGroupAt, u.targetGroup)]
  | .transfer (.inbound g2) | .transfer (.outbound g2) => [(otherGroupAt, g2.otherGroup)]
  | _ => []

/-- The group name is copied last. -/
def dataWrites (data : Data) : List (Nat × Bytes) := fieldWrites data ++ groupWrite data

theorem makes_setType (type : UInt8) : Makes [(transactionTypeAt, [type])] True (setType type) :=
  makes_assign Packed.byte transactionTypeAt type (by decide)

theorem makes_crossGroup (type : UInt8) (receiverOff : Nat) (g2 : CrossGroupTransfer)
    (hroom : receiverOff + PUB_KEY_LENGTH ≤ BUFF_SIZE) :
    Makes (crossGroupWrites type receiverOff g2 ++ [(otherGroupAt, g2.otherGroup)])
      (CrossGroupFits g2) (translateCrossGroup type receiverOff g2) := by
  have h := (makes_setType type).andThen <|
    (makes_copyAmount operationAt g2.sender (by decide)).andThen <|
    (makes_copyKey senderAt g2.sender.pubkey (by decide)).andThen <|
    (makes_copyKey receiverOff g2.receiver hroom).andThen <|
    (makes_assign hederaTimestamp pairedIdAt g2.pairedTransactionId (by decide)).andThen
      (makes_poke otherGroupAt g2.otherGroup)
  refine h.iff ?_
  simp only [CrossGroupFits, AmountFits, GroupFits, true_and, and_assoc]

theorem makes_move (type : UInt8) (u : GroupMemberUpdate) :
    Makes (moveWrites type u ++ [(moveGroupAt, u.targetGroup)])
      (Fits PUB_KEY_LENGTH u.userPubkey ∧ GroupFits moveGroupAt u.targetGroup)
      (translateMove type u) := by
  have h := (makes_setType type).andThen <|
    (makes_copyKey operationAt u.userPubkey (by decide)).andThen <|
    (makes_assign hederaTimestamp movePairedIdAt u.pairedTransactionId
      (by decide)).andThen (makes_poke moveGroupAt u.targetGroup)
  refine h.iff ?_
  simp only [GroupFits, true_and]

theorem makes_data (data : Data) :
    Makes (dataWrites data) (DataFits data) (translateData data) := by
  cases data with
  | transfer g2 =>
    cases g2 with
    | localTransfer g2 =>
      have h := (makes_setType LOCAL_TRANSFER).andThen <|
        (makes_copyAmount operationAt g2.sender (by decide)).andThen <|
        (makes_copyKey (operationAt + abstractTransferOp.size) g2.sender.pubkey (by decide)).andThen
          (makes_copyKey (operationAt + abstractTransferOp.size + userTransfer.size)
            g2.receiver (by decide))
      refine h.iff ?_
      simp only [DataFits, AmountFits, true_and, and_assoc]
    | inbound g2 | outbound g2 => exact makes_crossGroup _ _ g2 (by decide)
    | notSet => exact makes_pure
  | creation c =>
    have h := (makes_setType GRADIDO_CREATION).andThen <|
      (makes_copyAmount (operationAt + userTransfer.size) c.receiver (by decide)).andThen
        (makes_copyKey operationAt c.receiver.pubkey (by decide))
    exact h.iff (by rw [true_and]; rfl)
  | groupFriendsUpdate u =>
    have h := (makes_setType (if u.action = 0 then ADD_GROUP_FRIEND
      else REMOVE_GROUP_FRIEND)).andThen (makes_poke operationAt u.group)
    exact h.iff (by rw [true_and]; rfl)
  | groupMemberUpdate u =>
    unfold translateData dataWrites fieldWrites groupWrite DataFits
    dsimp only
    split
    · next hadd =>
      have h := (makes_setType ADD_USER).andThen
        (makes_copyKey operationAt u.userPubkey (by decide))
      refine h.iff ?_
      simp only [hadd, ne_eq, not_true_eq_false, false_implies, and_true, true_and]
    · next hne =>
      have hgr : (u.memberUpdateType.toUInt32.toUInt8 ≠ 0 →
          GroupFits moveGroupAt u.targetGroup) ↔ GroupFits moveGroupAt u.targetGroup :=
        forall_prop_of_true hne
      rw [hgr]
      split
      · exact makes_move _ u
      · exact makes_move _ u
  | debugResetBlockchainMark | other | notSet => exact makes_pure

/-! ## Signatures -/

/-- The signature made of a pair. -/
def signatureOf (p : SignaturePair) : Signature :=
  ⟨(Packed.array PUB_KEY_LENGTH).read (taken PUB_KEY_LENGTH p.pubKey),
    (Packed.array SIGNATURE_LENGTH).read (taken SIGNATURE_LENGTH p.ed25519)⟩

theorem translateSignatureFromPb_exact (p : SignaturePair) (m : Memory) :
    Exact (SignatureFits p) (translateSignatureFromPb p) m fun signature m' =>
      signature = signatureOf p ∧ m' = m := by
  refine (fetch_exact (Packed.array PUB_KEY_LENGTH) p.pubKey m).bind And.left ?_
  rintro _ _ hpu ⟨rfl, rfl⟩
  refine (fetch_exact (Packed.array SIGNATURE_LENGTH) p.ed25519 _).bind And.right ?_
  rintro _ _ hed ⟨rfl, rfl⟩
  exact Exact.pure ⟨hpu, hed⟩ ⟨rfl, rfl⟩

/-- Where slot `k` of the records of signatures is, which begin with record `n`. -/
def slotAt (n k : Nat) : Nat :=
  recordAt (n + k / SIGNATURES_PER_RECORD) + 1 + k % SIGNATURES_PER_RECORD * Signature.packed.size

section Signatures

variable {sigPair : List SignaturePair} {count : Nat}

/-- The pairs from `lo` to `hi` have what is copied of them. -/
def PairsFit (sigPair : List SignaturePair) (lo hi : Nat) : Prop :=
  ∀ j p, lo ≤ j → j < hi → sigPair[j]? = some p → SignatureFits p

theorem PairsFit.trans_iff {lo mid hi : Nat} (h : PairsFit sigPair lo mid) (hle : lo ≤ mid) :
    PairsFit sigPair mid hi ↔ PairsFit sigPair lo hi := by
  refine ⟨fun h' j p hlo hhi => ?_, fun h' j p hlo hhi => h' j p (Nat.le_trans hle hlo) hhi⟩
  by_cases hmid : j < mid
  · exact h j p hlo hmid
  · exact h' j p (Nat.not_lt.mp hmid) hhi

theorem PairsFit.single {lo : Nat} {p : SignaturePair} (hget : sigPair[lo]? = some p)
    (h : SignatureFits p) : PairsFit sigPair lo (lo + 1) := by
  intro j q hlo hhi hq
  obtain rfl : j = lo := by omega
  cases hget.symm.trans hq
  exact h

/-- Pair `j` is at `off`. -/
def SignedAt (sigPair : List SignaturePair) (m : Memory) (j off : Nat) : Prop :=
  ∃ p, sigPair[j]? = some p ∧ SignatureFits p ∧ m.load Signature.packed off = signatureOf p

theorem SignedAt.frame {m m' : Memory} {j off lo : Nat} (h : SignedAt sigPair m j off)
    (hfr : Memory.Frame lo m m') (hle : off + Signature.packed.size ≤ lo) :
    SignedAt sigPair m' j off := by
  obtain ⟨p, hp, hfits, hlo⟩ := h
  exact ⟨p, hp, hfits, (hfr.load hle).trans hlo⟩

/-- The slots of one record take the next pairs. -/
theorem signatureSlots_exact (hcount : count ≤ sigPair.length) : ∀ (slots off cs : Nat)
    (m : Memory), cs < count → off + slots * Signature.packed.size ≤ BUFF_SIZE →
    Exact (PairsFit sigPair cs (min (cs + slots) count))
      (signatureSlots sigPair count slots off cs) m fun cs' m' =>
        cs' = min (cs + slots) count ∧ Memory.Frame off m m' ∧
        ∀ k, cs + k < cs' → SignedAt sigPair m' (cs + k) (off + k * Signature.packed.size) := by
  intro slots
  induction slots with
  | zero =>
    intro off cs m hcs _
    exact Exact.pure (fun j p hlo hhi => by omega)
      ⟨by omega, Memory.Frame.refl off m, fun k hk => by omega⟩
  | succ slots ih =>
    intro off cs m hcs hroom
    rw [Nat.succ_mul] at hroom
    have hget : sigPair[cs]? = some sigPair[cs] := List.getElem?_eq_getElem (by omega)
    rw [signatureSlots, hget]
    refine (translateSignatureFromPb_exact _ m).bind
      (fun h => h cs _ (Nat.le_refl _) (by omega) hget) ?_
    rintro _ m hfits ⟨rfl, rfl⟩
    refine Exact.after (assign_returns Signature.packed off (signatureOf sigPair[cs]) (by omega) _) ?_
    rintro _ _ rfl
    have hfr := Memory.frame_write m off (Signature.packed.write (signatureOf sigPair[cs]))
    have hfi : SignedAt sigPair
        (m.write off (Signature.packed.write (signatureOf sigPair[cs]))) cs off :=
      ⟨_, hget, hfits, Memory.load_write _ _ _ _⟩
    have hone := PairsFit.single hget hfits
    split
    · next hla =>
      have hmin : min (cs + (slots + 1)) count = cs + 1 := by omega
      rw [hmin]
      refine Exact.pure hone ⟨rfl, hfr, fun k hk => ?_⟩
      obtain rfl : k = 0 := by omega
      rw [Nat.zero_mul]
      exact hfi
    · next hmo =>
      have hmin : min (cs + (slots + 1)) count = min (cs + 1 + slots) count := by omega
      rw [hmin]
      refine (ih (off + Signature.packed.size) (cs + 1) _ (by omega) (by omega)).mono
        (hone.trans_iff (Nat.le_succ _)) ?_
      rintro cs' m₂ - ⟨rfl, hfr₂, hsl⟩
      refine ⟨rfl, hfr.trans (hfr₂.mono (Nat.le_add_right _ _)), fun k hk => ?_⟩
      cases k with
      | zero =>
        rw [Nat.zero_mul]
        exact hfi.frame hfr₂ (Nat.le_refl _)
      | succ k =>
        have h := hsl k (by omega)
        rw [Nat.add_assoc cs 1 k, Nat.add_comm 1 k, Nat.add_assoc off,
          Nat.add_comm Signature.packed.size, ← Nat.succ_mul] at h
        exact h

theorem slotAt_lt (n k : Nat) : slotAt n k + Signature.packed.size
    ≤ recordAt (n + k / SIGNATURES_PER_RECORD + 1) := by
  have hper : SIGNATURES_PER_RECORD = 3 := by decide
  have hsi : Signature.packed.size = 96 := by decide
  have hre : GradidoRecord.packed.size = 352 := by decide
  rw [slotAt, recordAt_succ, hper, hsi, hre]
  omega

/-- The records of signatures, filled one after the other; each has a pair left to take. -/
theorem signatureParts_exact (hcount : count ≤ sigPair.length) : ∀ (parts n cs : Nat) (m : Memory),
    (∀ i < parts, cs + i * SIGNATURES_PER_RECORD < count) → n + parts ≤ 100 →
    Exact (PairsFit sigPair cs (min (cs + parts * SIGNATURES_PER_RECORD) count))
      (signatureParts sigPair count parts n cs) m fun n' m' =>
        n' = n + parts ∧ Memory.Frame (recordAt n) m m' ∧
        (∀ i < parts, m' (recordAt (n + i)) = SIGNATURES) ∧
        ∀ k, k < parts * SIGNATURES_PER_RECORD → cs + k < count →
          SignedAt sigPair m' (cs + k) (slotAt n k) := by
  have hper : SIGNATURES_PER_RECORD = 3 := by decide
  have hsize : GradidoRecord.packed.size = 352 := by decide
  have hsig : Signature.packed.size = 96 := by decide
  intro parts
  induction parts with
  | zero =>
    intro n cs m _ _
    refine Exact.pure (fun j p hlo hhi => by omega)
      ⟨rfl, Memory.Frame.refl _ m, fun i hi => (nomatch hi), fun k hk => by omega⟩
  | succ parts ih =>
    intro n cs m hlf hroom
    have hcs : cs < count := by
      have := hlf 0 (Nat.succ_pos parts)
      omega
    have hend : recordAt (n + 1) ≤ BUFF_SIZE := Nat.mul_le_mul_right _ (by omega)
    rw [recordAt_succ, hsize] at hend
    refine Exact.after (poke_returns (by rw [List.length_singleton]; omega) m) ?_
    rintro _ _ rfl
    have hslots : recordAt n + 1 + SIGNATURES_PER_RECORD * Signature.packed.size ≤ BUFF_SIZE := by
      rw [hper, hsig]
      omega
    have hle : min (cs + SIGNATURES_PER_RECORD) count
        ≤ min (cs + (parts + 1) * SIGNATURES_PER_RECORD) count := by
      rw [hper]
      omega
    refine (signatureSlots_exact hcount SIGNATURES_PER_RECORD _ cs _ hcs hslots).bind
      (fun h j p hlo hhi => h j p hlo (Nat.lt_of_lt_of_le hhi hle)) ?_
    rintro cs' m₂ hfits ⟨rfl, hfr₂, hsl⟩
    have hfr : Memory.Frame (recordAt n) m m₂ :=
      (Memory.frame_write m _ _).trans (hfr₂.mono (Nat.le_succ _))
    have htype : m₂ (recordAt n) = SIGNATURES := by
      rw [hfr₂ _ (Nat.lt_succ_self _)]
      exact Memory.write_head _ _
    have hne : ∀ i < parts, min (cs + SIGNATURES_PER_RECORD) count
        + i * SIGNATURES_PER_RECORD < count := by
      intro i hi
      have := hlf (i + 1) (by omega)
      rw [hper] at this ⊢
      omega
    have hmin : min (cs + (parts + 1) * SIGNATURES_PER_RECORD) count = min (min (cs +
        SIGNATURES_PER_RECORD) count + parts * SIGNATURES_PER_RECORD) count := by
      rw [hper]
      omega
    rw [hmin]
    refine (ih (n + 1) _ m₂ hne (by omega)).mono (hfits.trans_iff (by omega)) ?_
    rintro n' m₃ - ⟨rfl, hfr₃, hty₃, hsl₃⟩
    have hre : recordAt n < recordAt (n + 1) := recordAt_lt (Nat.lt_succ_self n)
    refine ⟨by omega, hfr.trans (hfr₃.mono (Nat.le_of_lt hre)), fun i hi => ?_,
      fun k hk hcount => ?_⟩
    · cases i with
      | zero =>
        rw [Nat.add_zero, hfr₃ _ hre]
        exact htype
      | succ i =>
        rw [← hty₃ i (by omega), Nat.add_assoc, Nat.add_comm 1]
    · by_cases hfi : k < SIGNATURES_PER_RECORD
      -- a pair of this record, which the later ones leave alone
      · have h := (hsl k (by omega)).frame hfr₃ ?_
        · rw [slotAt, Nat.div_eq_of_lt hfi, Nat.mod_eq_of_lt hfi]
          exact h
        · have hroom := slotAt_lt n k
          rw [slotAt, Nat.div_eq_of_lt hfi, Nat.mod_eq_of_lt hfi] at hroom
          exact hroom
      · obtain ⟨j, rfl⟩ := Nat.exists_eq_add_of_le (Nat.not_lt.mp hfi)
        rw [hper] at hk hcount hsl₃ ⊢
        have h := hsl₃ j (by omega) (by omega)
        have hfull : min (cs + 3) count = cs + 3 := by omega
        have hst : slotAt (n + 1) j = slotAt n (3 + j) := by
          rw [slotAt, slotAt, hper, Nat.add_comm 3 j, Nat.add_mod_right,
            Nat.add_div_right _ (by decide), Nat.add_assoc n, Nat.add_comm 1]
        rw [hfull, hst, Nat.add_assoc] at h
        exact h

end Signatures

/-! ## All of it -/

/-- The memo in the main record. -/
def memoMain (memo : Bytes) : Bytes := if multipartMemo memo then memo.take MEMO_MAIN_SIZE else memo

/-- The memo in a record of its own. -/
def memoRest (memo : Bytes) : Bytes := (memo.drop MEMO_MAIN_SIZE).take (MEMO_PART_SIZE - 1)

def memoWrites (memo : Bytes) : List (Nat × Bytes) :=
  if multipartMemo memo then [(recordAt 1, [MEMO]), (recordAt 1 + 1, memoRest memo)] else []

/-- The number of records without the signatures. -/
def memoEnd (memo : Bytes) : Nat := 1 + (multipartMemo memo).toNat

/-- The header as the message has it. -/
def headerOf (t : ConsensusTopicResponse) : HederaTransaction :=
  ⟨t.consensusTimestamp, (Packed.array HEDERA_RUNNING_HASH_LENGTH).read
    (taken HEDERA_RUNNING_HASH_LENGTH t.runningHash), t.sequenceNumber, t.runningHashVersion⟩

/-- The `signature_count`, a `uint8_t`. -/
def signatureCount (gt : GradidoTransaction) : Nat := gt.sigPair.length % 256

def headWrites (t : ConsensusTopicResponse) (gt : GradidoTransaction) (tb : Proto.TransactionBody)
    (first : SignaturePair) : List (Nat × Bytes) :=
  [(recordAt 0, [GRADIDO_TRANSACTION]),
    (versionNumberAt, Packed.uint32.write tb.versionNumber.toUInt32),
    (signatureCountAt, [UInt8.ofNat (signatureCount gt)]),
    (signatureAt, Signature.packed.write (signatureOf first)),
    (hederaTransactionAt, HederaTransaction.packed.write (headerOf t))]

def tailWrites (gt : GradidoTransaction) (memo : Bytes) : List (Nat × Bytes) :=
  [(resultAt, [UNKNOWN]), (memoAt, memoMain memo),
    (partsAt, Packed.uint32.write (UInt32.ofNat (memoEnd memo + sigPartCount (signatureCount gt))))]

/-- The writes to the records of the transaction and of the memo. -/
def mainWrites (t : ConsensusTopicResponse) (gt : GradidoTransaction) (tb : Proto.TransactionBody)
    (first : SignaturePair) : List (Nat × Bytes) :=
  headWrites t gt tb first ++ (dataWrites tb.data ++ (tailWrites gt tb.memo ++ memoWrites tb.memo))

/-- `memset`. -/
def blank : Memory := fun _ => 0

/-- `buff` with `n` records made of a message. -/
structure Translated (t : ConsensusTopicResponse) (gt : GradidoTransaction)
    (tb : Proto.TransactionBody) (n : Nat) (buff : Memory) : Prop where
  data : DataFits tb.data
  size : n = memoEnd tb.memo + sigPartCount (signatureCount gt)
  main : ∃ first, gt.sigPair[0]? = some first ∧ SignatureFits first ∧
    Memory.Frame (recordAt (memoEnd tb.memo)) (blank.writes (mainWrites t gt tb first)) buff
  types : ∀ i < sigPartCount (signatureCount gt), buff (recordAt (memoEnd tb.memo + i)) = SIGNATURES
  slots : ∀ k, k + 1 < signatureCount gt →
    SignedAt gt.sigPair buff (k + 1) (slotAt (memoEnd tb.memo) k)

/-- What is copied before the data is there. -/
def HeadFits (t : ConsensusTopicResponse) (gt : GradidoTransaction) : Prop :=
  (∀ first, gt.sigPair[0]? = some first → SignatureFits first) ∧
    Fits HEDERA_RUNNING_HASH_LENGTH t.runningHash

theorem translateMemo_returns (memo : Bytes) (m : Memory) :
    Returns (translateMemo memo) m fun _ m' => m' = m.write memoAt (memoMain memo) := by
  refine poke_returns (Nat.le_trans (Nat.add_le_add_left ?_ _)
    (show memoAt + MEMO_MAIN_SIZE ≤ BUFF_SIZE by decide)) m
  split
  · exact List.length_take_le _ _
  · next hsh =>
    have hsh : ¬ MEMO_MAIN_SIZE - 1 < memo.length := fun h => hsh (decide_eq_true h)
    omega

theorem memoPart_returns (memo : Bytes) (m : Memory) :
    Returns (memoPart memo) m fun n m' => n = memoEnd memo ∧ m' = m.writes (memoWrites memo) := by
  unfold memoPart memoEnd memoWrites
  split
  · next hmu =>
    have hroom : recordAt 1 + 1 + (memoRest memo).length ≤ BUFF_SIZE :=
      Nat.le_trans (Nat.add_le_add_left (List.length_take_le _ _) _) (by decide)
    rw [hmu]
    refine .bind ((poke_returns (by decide) m).mono ?_)
    rintro _ _ rfl
    refine .bind ((poke_returns hroom _).mono ?_)
    rintro _ _ rfl
    exact .pure ⟨rfl, rfl⟩
  · next hsi =>
    rw [Bool.eq_false_iff.mpr hsi]
    exact .pure ⟨rfl, rfl⟩

theorem translateHederaTransactionFromPb_exact (t : ConsensusTopicResponse) (m : Memory) :
    Exact (Fits HEDERA_RUNNING_HASH_LENGTH t.runningHash) (translateHederaTransactionFromPb t) m
      fun ht m' => ht = headerOf t ∧ m' = m := by
  refine (fetch_exact (Packed.array HEDERA_RUNNING_HASH_LENGTH) t.runningHash m).bind id ?_
  rintro _ _ hfits ⟨rfl, rfl⟩
  exact Exact.pure hfits ⟨rfl, rfl⟩

section Records

variable {t : ConsensusTopicResponse} {gt : GradidoTransaction} {tb : Proto.TransactionBody}

/-- What is copied behind the header is there. -/
def BodyFits (gt : GradidoTransaction) (tb : Proto.TransactionBody) : Prop :=
  DataFits tb.data ∧ PairsFit gt.sigPair 1 (signatureCount gt)

theorem signatureCount_le (gt : GradidoTransaction) : signatureCount gt ≤ gt.sigPair.length := Nat.mod_le _ _

theorem translateBody_exact {first : SignaturePair} (hget : gt.sigPair[0]? = some first)
    (hfi : SignatureFits first) (hmax : signatureCount gt ≤ MAXIMUM_SIGNATURE_COUNT) :
    Exact (BodyFits gt tb) (translateBody gt tb (signatureCount gt))
      (blank.writes (headWrites t gt tb first)) (Translated t gt tb) := by
  refine (makes_data tb.data _).bind And.left ?_
  rintro _ _ hda rfl
  refine Exact.after (assign_returns Packed.byte resultAt UNKNOWN (by decide) _) ?_
  rintro _ _ rfl
  refine Exact.after (translateMemo_returns tb.memo _) ?_
  rintro _ _ rfl
  refine Exact.after (assign_returns Packed.uint32 partsAt _ (by decide) _) ?_
  rintro _ _ rfl
  refine Exact.after (memoPart_returns tb.memo _) ?_
  rintro _ m ⟨rfl, hm⟩
  have hpa := sigPartCount_le hmax
  have hle := le_sigPartCount (signatureCount gt)
  have hme : memoEnd tb.memo ≤ 2 := Nat.add_le_add_left (Bool.toNat_le _) 1
  have hall : min (SIGNATURES_IN_MAIN_PART + sigPartCount (signatureCount gt) *
      SIGNATURES_PER_RECORD) (signatureCount gt) = signatureCount gt := Nat.min_eq_right hle
  have hparts := signatureParts_exact (signatureCount_le gt) _ (memoEnd tb.memo) _ m
    (fun i hi => sigPartCount_left hi) (by omega)
  rw [hall] at hparts
  refine hparts.mono (and_iff_right hda).symm ?_
  rintro n buff - ⟨rfl, hfr, hty, hsl⟩
  refine ⟨hda, rfl, ⟨first, hget, hfi, ?_⟩, hty, fun k hk => ?_⟩
  · rw [mainWrites, Memory.writes_append, Memory.writes_append, Memory.writes_append]
    rw [hm] at hfr
    exact hfr
  · have h := hsl k (by omega) (by rw [Nat.add_comm]; exact hk)
    rw [Nat.add_comm k 1]
    exact h

theorem translateRecords_exact (hin : ¬ Rejected gt) :
    Exact (HeadFits t gt ∧ (tb.data.hasDebugResetBlockchainMark = false → BodyFits gt tb))
      (translateRecords t gt tb) blank fun r buff =>
        (tb.data.hasDebugResetBlockchainMark = true ∧ r = none) ∨
        (tb.data.hasDebugResetBlockchainMark = false ∧ ∃ n, r = some n ∧
          Translated t gt tb n buff) := by
  obtain ⟨hmin, hmax⟩ := not_or.mp hin
  refine Exact.after (poke_returns (by decide) blank) ?_
  rintro _ _ rfl
  refine Exact.after (assign_returns Packed.uint32 versionNumberAt _ (by decide) _) ?_
  rintro _ _ rfl
  refine Exact.after (assign_returns Packed.byte signatureCountAt _ (by decide) _) ?_
  rintro _ _ rfl
  rw [if_neg hmin, if_neg hmax]
  split
  · next hnil => exact absurd (show gt.sigPair.length % 256 < 1 by rw [hnil]; decide) hmin
  · next first rest hco =>
    have hget : gt.sigPair[0]? = some first := by rw [hco]; rfl
    refine (translateSignatureFromPb_exact first _).bind (fun h => h.1.1 first hget) ?_
    rintro _ _ hfi ⟨rfl, rfl⟩
    refine Exact.after (assign_returns Signature.packed signatureAt _ (by decide) _) ?_
    rintro _ _ rfl
    refine (translateHederaTransactionFromPb_exact t _).bind (fun h => h.1.2) ?_
    rintro _ _ hha ⟨rfl, rfl⟩
    refine Exact.after (assign_returns HederaTransaction.packed hederaTransactionAt _
      (by decide) _) ?_
    rintro _ _ rfl
    have hhe : HeadFits t gt := by
      refine ⟨fun p hp => ?_, hha⟩
      cases hget.symm.trans hp
      exact hfi
    split
    · next hma => exact Exact.pure ⟨hhe, fun h => nomatch hma.symm.trans h⟩ (.inl ⟨hma, rfl⟩)
    · next hma =>
      have hma := Bool.eq_false_iff.mpr hma
      refine (translateBody_exact hget hfi (Nat.not_lt.mp hmax)).bind (fun h => h.2 hma) ?_
      intro n buff hbo hbu
      exact Exact.pure ⟨hhe, fun _ => hbo⟩ (.inr ⟨hma, n, rfl, hbu⟩)

theorem translateRecords_rejects (t : ConsensusTopicResponse) (h : Rejected gt)
    (tb : Proto.TransactionBody) (m : Memory) :
    ∃ msg m', translateRecords t gt tb m = .error (.thrown msg) m' := by
  have hroom : recordAt 0 + [GRADIDO_TRANSACTION].length ≤ BUFF_SIZE := by decide
  obtain ⟨_, m₁, h₁, -⟩ := poke_returns hroom m
  obtain ⟨_, m₂, h₂, -⟩ := assign_returns Packed.uint32 versionNumberAt
    tb.versionNumber.toUInt32 (by decide) m₁
  obtain ⟨_, m₃, h₃, -⟩ := assign_returns Packed.byte signatureCountAt
    (UInt8.ofNat (gt.sigPair.length % 256)) (by decide) m₂
  rw [translateRecords, bind_eq h₁, bind_eq h₂, bind_eq h₃]
  by_cases hmin : gt.sigPair.length % 256 < MINIMUM_SIGNATURE_COUNT
  · rw [if_pos hmin]
    exact ⟨_, _, rfl⟩
  · rw [if_neg hmin, if_pos (h.resolve_left hmin)]
    exact ⟨_, _, rfl⟩

theorem Translatable.fits (h : Translatable t gt tb) :
    ¬ Rejected gt ∧ HeadFits t gt ∧ BodyFits gt tb := by
  have hsig : ∀ j p, j < signatureCount gt → gt.sigPair[j]? = some p → SignatureFits p := by
    intro j p hj hp
    obtain ⟨hlt, rfl⟩ := List.getElem?_eq_some_iff.mp hp
    exact h.signatures _ (List.mem_take_iff_getElem.mpr ⟨j, lt_min hj hlt, rfl⟩)
  exact ⟨not_or.mpr ⟨Nat.not_lt.mpr h.minimum, Nat.not_lt.mpr h.maximum⟩,
    ⟨fun first => hsig 0 first h.minimum, h.runningHash⟩, h.data, fun j p _ => hsig j p⟩

end Records

/-! ## Batches -/

variable {parser : Parser} {t : ConsensusTopicResponse} {gt : GradidoTransaction}
  {tb : Proto.TransactionBody}

/-- A message whose signatures are too few or too many gives the same batch as a reset mark. -/
theorem translateFromCtr_rejects (h : Rejected (parser.gradidoTransaction t.message)) :
    translateFromCtr parser t = .ok ⟨none, true⟩ := by
  obtain ⟨msg, m, hca⟩ := translateRecords_rejects t h
    (parser.transactionBody (parser.gradidoTransaction t.message).bodyBytes) fun _ => 0
  simp only [translateFromCtr, hca]

section Batches

variable (hgt : parser.gradidoTransaction t.message = gt)
  (htb : parser.transactionBody gt.bodyBytes = tb)

include hgt htb

/-- The ways the translation of a message with enough signatures ends. -/
theorem translateFromCtr_ends (hin : ¬ Rejected gt) :
    (HeadFits t gt ∧ tb.data.hasDebugResetBlockchainMark = true ∧
      translateFromCtr parser t = .ok ⟨none, true⟩) ∨
    (HeadFits t gt ∧ tb.data.hasDebugResetBlockchainMark = false ∧ ∃ n buff,
      translateFromCtr parser t = .ok ⟨some ((List.range n).map (recordIn buff)), false⟩ ∧
      Translated t gt tb n buff) ∨
    (¬ (HeadFits t gt ∧ (tb.data.hasDebugResetBlockchainMark = false → BodyFits gt tb)) ∧
      ∃ what, translateFromCtr parser t = .error (.undefined what)) := by
  by_cases hfits : HeadFits t gt ∧ (tb.data.hasDebugResetBlockchainMark = false → BodyFits gt tb)
    <;> subst hgt htb
  · obtain ⟨r, buff, hca, ⟨hma, rfl⟩ | ⟨hma, n, rfl, htr⟩⟩ :=
      (translateRecords_exact hin).returns hfits
    · unfold blank at hca
      exact .inl ⟨hfits.1, hma, by simp only [translateFromCtr, hca]⟩
    · unfold blank at hca
      exact .inr (.inl ⟨hfits.1, hma, n, buff, by simp only [translateFromCtr, hca], htr⟩)
  · obtain ⟨what, m, hca⟩ := (translateRecords_exact hin).undefined hfits
    unfold blank at hca
    exact .inr (.inr ⟨hfits, what, by simp only [translateFromCtr, hca]⟩)

/-- A batch with records is made of a message in this way. -/
theorem translateFromCtr_some {records : List GradidoRecord} {reset : Bool}
    (h : translateFromCtr parser t = .ok ⟨some records, reset⟩) :
    ¬ Rejected gt ∧ HeadFits t gt ∧ tb.data.hasDebugResetBlockchainMark = false ∧
      ∃ n buff, records = (List.range n).map (recordIn buff) ∧ Translated t gt tb n buff := by
  by_cases hin : Rejected gt
  · cases h.symm.trans (translateFromCtr_rejects (hgt ▸ hin))
  rcases translateFromCtr_ends hgt htb hin with ⟨-, -, hno⟩ | ⟨hhe, hma, n, buff, hca, htr⟩ |
    ⟨-, what, hu⟩
  · cases h.symm.trans hno
  · cases h.symm.trans hca
    exact ⟨hin, hhe, hma, n, buff, rfl, htr⟩
  · cases h.symm.trans hu

/-- A batch without records: the signatures are too few or too many, or there is a reset mark. -/
theorem translateFromCtr_none_iff : translateFromCtr parser t = .ok ⟨none, true⟩ ↔
      Rejected gt ∨ (HeadFits t gt ∧ tb.data.hasDebugResetBlockchainMark = true) := by
  by_cases hin : Rejected gt
  · exact iff_of_true (translateFromCtr_rejects (hgt ▸ hin)) (.inl hin)
  rw [or_iff_right hin]
  rcases translateFromCtr_ends hgt htb hin with ⟨hhe, hma, hno⟩ | ⟨hhe, hma, n, buff, hca, htr⟩ |
    ⟨hfits, what, hu⟩
  · exact iff_of_true hno ⟨hhe, hma⟩
  · exact iff_of_false (fun h => nomatch h.symm.trans hca) fun h => nomatch hma.symm.trans h.2
  · exact iff_of_false (fun h => nomatch h.symm.trans hu)
      fun ⟨hhe, hma⟩ => hfits ⟨hhe, fun h => nomatch hma.symm.trans h⟩

end Batches

/-! ## Records read back -/

theorem body_recordIn (m : Memory) (n : Nat) :
    (recordIn m n).body.toList = m.read (recordAt n + 1) recordBodySize := by
  rw [recordIn, GradidoRecord.body_read, Memory.drop_read]
  exact Packed.toList_read_array (Memory.length_read _ _ _)

theorem transaction_recordIn (m : Memory) (n : Nat) :
    (recordIn m n).transaction = m.load Transaction.packed (recordAt n + 1) := by
  rw [GradidoRecord.transaction, body_recordIn, recordBodySize_eq]
  rfl

/-- The members of the transaction in record 0, where they are. -/
theorem transaction_main (m : Memory) : (recordIn m 0).transaction =
      { toTransactionCommonHeader := m.load TransactionCommonHeader.packed versionNumberAt
        signature := m.load Signature.packed signatureAt
        signatureCount := m.load Packed.byte signatureCountAt
        transactionType := m.load Packed.byte transactionTypeAt
        operation := m.load (Packed.array operationSize) operationAt
        result := m.load Packed.byte resultAt
        memo := m.load (Packed.array MEMO_MAIN_SIZE) memoAt } := by
  rw [transaction_recordIn, Transaction.packed, Memory.load_map, Memory.load_pair,
    Memory.load_pair, Memory.load_pair, Memory.load_pair, Memory.load_pair, Memory.load_pair]
  rfl

theorem parts_main (m : Memory) :
    (recordIn m 0).transaction.parts = m.load Packed.uint32 partsAt := by
  rw [transaction_main]
  rw [TransactionCommonHeader.packed, Memory.load_map, Memory.load_pair, Memory.load_pair]
  rfl

/-- A write of the data: not below the type, and not beyond the union. -/
def InUnion (w : Nat × Bytes) : Prop := transactionTypeAt ≤ w.1 ∧ w.1 + w.2.length ≤ resultAt

theorem inUnion_write {α : Type} (Q : Packed α) {off : Nat} {a : α} (hlo : transactionTypeAt ≤ off)
    (hhi : off + Q.size ≤ resultAt) : InUnion (off, Q.write a) := by
  refine ⟨hlo, ?_⟩
  rw [Q.length_write]
  exact hhi

theorem inUnion_taken {off : Nat} {s : Bytes} (hlo : transactionTypeAt ≤ off)
    (hhi : off + PUB_KEY_LENGTH ≤ resultAt) : InUnion (off, taken PUB_KEY_LENGTH s) :=
  ⟨hlo, Nat.le_trans (Nat.add_le_add_left (List.length_take_le _ _) _) hhi⟩

theorem inUnion_type (type : UInt8) : InUnion (transactionTypeAt, [type]) :=
  inUnion_write Packed.byte (Nat.le_refl _) (by decide)

theorem crossGroupWrites_inUnion (type : UInt8) {receiverOff : Nat} (g2 : CrossGroupTransfer)
    (hlo : transactionTypeAt ≤ receiverOff) (hhi : receiverOff + PUB_KEY_LENGTH ≤ resultAt) :
    ∀ w ∈ crossGroupWrites type receiverOff g2, InUnion w := by
  simp only [crossGroupWrites, List.forall_mem_cons]
  exact ⟨inUnion_type _, inUnion_write Packed.uint64 (by decide) (by decide),
    inUnion_taken (by decide) (by decide), inUnion_taken hlo hhi,
    inUnion_write hederaTimestamp (by decide) (by decide), fun w hw => nomatch hw⟩

theorem moveWrites_inUnion (type : UInt8) (u : GroupMemberUpdate) :
    ∀ w ∈ moveWrites type u, InUnion w := by
  simp only [moveWrites, List.forall_mem_cons]
  exact ⟨inUnion_type _, inUnion_taken (by decide) (by decide),
    inUnion_write hederaTimestamp (by decide) (by decide), fun w hw => nomatch hw⟩

theorem fieldWrites_inUnion (data : Data) : ∀ w ∈ fieldWrites data, InUnion w := by
  cases data with
  | transfer g2 =>
    cases g2 with
    | localTransfer g2 =>
      simp only [fieldWrites, List.forall_mem_cons]
      exact ⟨inUnion_type _, inUnion_write Packed.uint64 (by decide) (by decide),
        inUnion_taken (by decide) (by decide), inUnion_taken (by decide) (by decide),
        List.forall_mem_nil _⟩
    | inbound g2 | outbound g2 => exact crossGroupWrites_inUnion _ g2 (by decide) (by decide)
    | notSet => exact List.forall_mem_nil _
  | creation c =>
    simp only [fieldWrites, List.forall_mem_cons]
    exact ⟨inUnion_type _, inUnion_write Packed.uint64 (by decide) (by decide),
      inUnion_taken (by decide) (by decide), List.forall_mem_nil _⟩
  | groupFriendsUpdate u =>
    simp only [fieldWrites, List.forall_mem_cons]
    exact ⟨inUnion_type _, List.forall_mem_nil _⟩
  | groupMemberUpdate u =>
    unfold fieldWrites
    dsimp only
    split
    · simp only [List.forall_mem_cons]
      exact ⟨inUnion_type _, inUnion_taken (by decide) (by decide), List.forall_mem_nil _⟩
    · split
      · exact moveWrites_inUnion _ u
      · exact moveWrites_inUnion _ u
  | debugResetBlockchainMark | other | notSet => exact List.forall_mem_nil _

theorem groupWrite_above (data : Data) : ∀ w ∈ groupWrite data, operationAt ≤ w.1 := by
  unfold groupWrite
  split
  · simp only [List.forall_mem_singleton]
    exact Nat.le_refl _
  · split
    · exact fun w hw => nomatch hw
    · simp only [List.forall_mem_singleton]
      decide
  · simp only [List.forall_mem_singleton]
    decide
  · simp only [List.forall_mem_singleton]
    decide
  · exact fun w hw => nomatch hw

theorem dataWrites_above (data : Data) : ∀ w ∈ dataWrites data, transactionTypeAt ≤ w.1 := by
  intro w hw
  rcases List.mem_append.mp hw with hw | hw
  · exact (fieldWrites_inUnion data w hw).1
  · exact Nat.le_trans (by decide) (groupWrite_above data w hw)

theorem headWrites_below (t : ConsensusTopicResponse) (gt : GradidoTransaction)
    (tb : Proto.TransactionBody) (first : SignaturePair) :
    ∀ w ∈ headWrites t gt tb first, w.1 + w.2.length ≤ transactionTypeAt := by
  simp only [headWrites, List.forall_mem_cons, Packed.length_write, List.length_singleton]
  exact ⟨by decide, by decide, by decide, by decide, by decide, fun w hw => nomatch hw⟩

theorem memoWrites_above (memo : Bytes) : ∀ w ∈ memoWrites memo, recordAt 1 ≤ w.1 := by
  unfold memoWrites
  split
  · simp only [List.forall_mem_cons]
    exact ⟨by decide, by decide, fun w hw => nomatch hw⟩
  · exact fun w hw => nomatch hw

/-- What is written behind the data is above the result, but for the number of parts. -/
theorem tailWrites_apart (gt : GradidoTransaction) (memo : Bytes) {off len : Nat}
    (hlo : hederaTransactionAt ≤ off) (hhi : off + len ≤ resultAt) :
    ∀ w ∈ tailWrites gt memo ++ memoWrites memo, Memory.Apart off len w := by
  simp only [List.forall_mem_append, tailWrites, List.forall_mem_cons]
  refine ⟨⟨Memory.apart_above hhi, Memory.apart_above (Nat.le_trans hhi (by decide)),
    Memory.apart_below Packed.uint32 (Nat.le_trans (by decide) hlo), fun w hw => nomatch hw⟩, ?_⟩
  exact fun w hw => .inr (Nat.le_trans (Nat.le_trans hhi (by decide)) (memoWrites_above _ w hw))

theorem recordAt_memoEnd (memo : Bytes) : recordAt 1 ≤ recordAt (memoEnd memo) :=
  Nat.mul_le_mul_right _ (Nat.le_add_right 1 _)

namespace Translated

variable {n : Nat} {buff : Memory} (h : Translated t gt tb n buff)
include h

/-- What the header and the signature are: the data go above them, the number of parts below. -/
theorem load_head {α : Type} (Q : Packed α) (off : Nat)
    (hlo : hederaTransactionAt ≤ off) (hhi : off + Q.size ≤ transactionTypeAt) :
    ∃ first, gt.sigPair[0]? = some first ∧ SignatureFits first ∧
      buff.load Q off = (blank.writes (headWrites t gt tb first)).load Q off := by
  obtain ⟨first, hget, hfi, hfr⟩ := h.main
  have hre : transactionTypeAt ≤ recordAt (memoEnd tb.memo) :=
    Nat.le_trans (by decide) (recordAt_memoEnd tb.memo)
  refine ⟨first, hget, hfi, (hfr.load (Nat.le_trans hhi hre)).trans ?_⟩
  rw [mainWrites, Memory.writes_append]
  refine Memory.load_writes_apart fun w hw => ?_
  rcases List.mem_append.mp hw with hw | hw
  · exact .inr (Nat.le_trans hhi (dataWrites_above _ w hw))
  · exact tailWrites_apart gt tb.memo hlo (Nat.le_trans hhi (by decide)) w hw

theorem signature_eq :
    ∃ first, gt.sigPair[0]? = some first ∧ SignatureFits first ∧
      (recordIn buff 0).transaction.signature = signatureOf first := by
  obtain ⟨first, hget, hfi, hlo⟩ := h.load_head Signature.packed signatureAt (by decide) (by decide)
  refine ⟨first, hget, hfi, ?_⟩
  rw [transaction_main]
  refine hlo.trans ?_
  exact (Memory.load_write_apart (a := hederaTransactionAt)
    (Memory.apart_below HederaTransaction.packed (by decide))).trans (Memory.load_write _ _ _ _)

theorem signatureCount_eq :
    (recordIn buff 0).transaction.signatureCount.toNat = signatureCount gt := by
  obtain ⟨first, -, -, hlo⟩ := h.load_head Packed.byte signatureCountAt (by decide) (by decide)
  have hcount : (recordIn buff 0).transaction.signatureCount = UInt8.ofNat (signatureCount gt) := by
    rw [transaction_main]
    refine hlo.trans ?_
    refine (Memory.load_write_apart (a := hederaTransactionAt)
      (Memory.apart_below HederaTransaction.packed (by decide))).trans ?_
    exact (Memory.load_write_apart (a := signatureAt)
      (Memory.apart_below Signature.packed (by decide))).trans
      (Memory.load_write Packed.byte _ _ _)
  rw [hcount, UInt8.toNat_ofNat']
  exact Nat.mod_mod _ _

theorem parts_eq :
    (recordIn buff 0).transaction.parts = UInt32.ofNat n := by
  obtain ⟨first, -, -, hfr⟩ := h.main
  rw [parts_main, hfr.load (Nat.le_trans (by decide) (recordAt_memoEnd tb.memo)), mainWrites,
    Memory.writes_append, Memory.writes_append, Memory.writes_append,
    Memory.load_writes_apart fun w hw =>
      .inr (Nat.le_trans (by decide) (memoWrites_above _ w hw)), h.size]
  exact Memory.load_write Packed.uint32 partsAt _ _

theorem type_eq :
    (recordIn buff 0).recordType = GRADIDO_TRANSACTION := by
  obtain ⟨first, -, -, hfr⟩ := h.main
  have hpos : recordAt 0 < recordAt (memoEnd tb.memo) :=
    Nat.lt_of_lt_of_le (by decide) (recordAt_memoEnd tb.memo)
  rw [recordType_recordIn, hfr _ hpos]
  have hab : ∀ w ∈ (headWrites t gt tb first).tail ++ (dataWrites tb.data ++
      (tailWrites gt tb.memo ++ memoWrites tb.memo)), 1 ≤ w.1 := by
    simp only [List.forall_mem_append, headWrites, tailWrites, List.tail_cons, List.forall_mem_cons]
    refine ⟨⟨by decide, by decide, by decide, by decide, fun w hw => nomatch hw⟩,
      fun w hw => Nat.le_trans (by decide) (dataWrites_above _ w hw),
      ⟨by decide, by decide, by decide, fun w hw => nomatch hw⟩,
      fun w hw => Nat.le_trans (by decide) (memoWrites_above _ w hw)⟩
  exact (Memory.writes_below hab _ (by decide)).trans (Memory.write_head _ _)

theorem memoType_eq (hmu : multipartMemo tb.memo = true) :
    (recordIn buff 1).recordType = MEMO := by
  obtain ⟨first, -, -, hfr⟩ := h.main
  rw [memoEnd, hmu] at hfr
  rw [recordType_recordIn, hfr _ (by decide), mainWrites, memoWrites, if_pos hmu,
    Memory.writes_append, Memory.writes_append, Memory.writes_append]
  simp only [Memory.writes]
  rw [Memory.write_outside (.inl (Nat.lt_succ_self _)), Memory.write_head]

theorem header_eq :
    (recordIn buff 0).transaction.hederaTransaction = headerOf t := by
  obtain ⟨first, -, -, hlo⟩ := h.load_head HederaTransaction.packed hederaTransactionAt
    (Nat.le_refl _) (by decide)
  rw [transaction_main]
  rw [TransactionCommonHeader.packed, Memory.load_map, Memory.load_pair, Memory.load_pair,
    Memory.load_pair]
  exact hlo.trans (Memory.load_write _ _ _ _)

theorem partType {i : Nat} (hi : i + 1 < n) :
    (recordIn buff (i + 1)).recordType = MEMO ∨ (recordIn buff (i + 1)).recordType = SIGNATURES := by
  have hsize := h.size
  by_cases hmemo : i + 1 < memoEnd tb.memo
  · have hle := Bool.toNat_le (multipartMemo tb.memo)
    rw [memoEnd] at hmemo
    obtain rfl : i = 0 := by omega
    exact .inl (h.memoType_eq (Bool.toNat_eq_one.mp (by omega)))
  · obtain ⟨j, hj⟩ := Nat.exists_eq_add_of_le (Nat.not_lt.mp hmemo)
    rw [hj, recordType_recordIn]
    exact .inr (h.types j (by omega))

end Translated

/-- The messages that are translated without a reset mark give a transaction with the
number and the time of the message, and behind it records of the memo and of signatures. -/
theorem translateFromCtr_batch (hgt : parser.gradidoTransaction t.message = gt)
    (htb : parser.transactionBody gt.bodyBytes = tb) (h : Translatable t gt tb)
    (hma : tb.data.hasDebugResetBlockchainMark = false) :
    ∃ r rest, translateFromCtr parser t = .ok ⟨some (r :: rest), false⟩ ∧
      r.recordType = GRADIDO_TRANSACTION ∧ IsHeaderOf t r.transaction.hederaTransaction ∧
      ∀ p ∈ rest, p.recordType = MEMO ∨ p.recordType = SIGNATURES := by
  obtain ⟨hin, hhe, hbo⟩ := h.fits
  obtain ⟨-, -, n, buff, hca, htr⟩ := ((translateFromCtr_ends hgt htb hin).resolve_left
    fun h => nomatch hma.symm.trans h.2.1).resolve_right fun h => h.1 ⟨hhe, fun _ => hbo⟩
  obtain ⟨k, rfl⟩ : ∃ k, n = k + 1 :=
    Nat.exists_eq_add_of_le' (by rw [htr.size, memoEnd, Nat.add_assoc]; exact Nat.le_add_right _ _)
  rw [List.range_succ_eq_map, List.map_cons, List.map_map] at hca
  refine ⟨_, _, hca, htr.type_eq, ?_, fun p hp => ?_⟩
  · rw [htr.header_eq]
    exact ⟨rfl, rfl⟩
  · obtain ⟨i, hi, rfl⟩ := List.mem_map.mp hp
    exact htr.partType (Nat.succ_lt_succ (List.mem_range.mp hi))

end GradidoNode.Wire
