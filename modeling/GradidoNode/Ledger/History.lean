/-
# `GradidoNode.Ledger.History` — the rows behind a balance

A row of a transfer or a GRADIDO_CREATION carries, with each balance it sets, a
`prev_transfer_rec_num`: the row that set the balance of that user before.  Following these
numbers from a row should visit the rows of the account in reverse order, back to the
ADD_USER or MOVE_USER_INBOUND that opened it.

The number is that of the entry in `user_index`, and the entry has it from
`get_rec_count()`, asked before the row is stored.  That counts the CHECKSUM row the block
ends with, which the new row replaces:

    row of the entry              get_rec_count() before it
    first of a block              the number of the row
    any other                     the number of the row after it

`Noted` is what every run keeps: which row an entry and a stored number come from.  The
history is right just where each of these rows is the first of its block (`history_iff`).
-/
import GradidoNode.Ledger.Frame
import GradidoNode.Ledger.Restart
import GradidoNode.Lib.LastBefore

namespace GradidoNode

open Lib Blockchain

namespace Ledger

/-- The users whose balance a transaction sets. -/
def accountUsers : TransactionBody → List PubKey
  | .moveUserOutbound _ => []
  | body => namedUsers body

/-- The balances of a transaction that carry a `prev_transfer_rec_num`. -/
def links : TransactionBody → List UserTransfer
  | .gradidoCreation c => [c.toUserTransfer]
  | .localTransfer lt => [lt.sender, lt.receiver]
  | .inboundTransfer lt => [lt.receiver]
  | .outboundTransfer lt => [lt.sender]
  | _ => []

/-- The users whose balance a row sets. -/
def rowUsers : GradidoRecord → List PubKey
  | .gradidoTransaction tr => if tr.result = .success then accountUsers tr.body else []
  | _ => []

/-- Whether a row sets the balance of `u`. -/
def setsBalance (u : PubKey) (r : GradidoRecord) : Bool := decide (u ∈ rowUsers r)

theorem rowUsers_of_ne {tr : Transaction} (h : tr.result ≠ .success) :
    rowUsers (.gradidoTransaction tr) = [] := if_neg h

/-! ## One transaction -/

section Applied

variable {d : DecayFunction} {env : Env} {n : Nat} {l l' : Ledger} {tr tr' : Transaction}

/-- The entries of the users of the row are written with its time and the count before it;
the others were there. -/
theorem Applied.wrote (h : Applied d env n l tr l' tr') :
    PMap.Wrote (rowUsers (.gradidoTransaction tr'))
      (fun info => info.lastRecordWithBalance = .ofNat n ∧
        info.timestampOfLastBalance = tr'.consensusTimestamp)
      l.userIndex l'.userIndex := by
  obtain ⟨seq, t, body, result⟩ := tr
  cases h with
  | @refused _ result' hre hl =>
    have hno : rowUsers (.gradidoTransaction (withResult ⟨seq, t, body, result⟩ result')) = [] :=
      rowUsers_of_ne hre
    rw [hno]
    rcases hl with rfl | ⟨id, recNum, rfl⟩
    · exact .refl
    · exact .refl
  | @other ty hbo =>
    cases hbo
    have hno : rowUsers (.gradidoTransaction ⟨seq, t, .other ty, result⟩) = [] := ite_self _
    rw [hno]
    exact .refl
  | gradidoCreation hbo | addUser hbo | moveUserInbound hbo | inboundTransfer hbo
  | outboundTransfer hbo =>
    cases hbo
    exact PMap.Wrote.refl.put ⟨rfl, rfl⟩
  | addGroupFriend hbo | removeGroupFriend hbo =>
    cases hbo
    exact .refl
  | moveUserOutbound hbo =>
    cases hbo
    exact PMap.Wrote.refl.erase
  | localTransfer hbo =>
    cases hbo
    exact (PMap.Wrote.refl.put ⟨rfl, rfl⟩).put ⟨rfl, rfl⟩

/-- The numbers a SUCCESS transaction carries are those of the entries before it. -/
theorem Applied.links_eq (h : Applied d env n l tr l' tr') (hsu : tr'.result = .success)
    {x : UserTransfer} (hx : x ∈ links tr'.body) :
    ∃ info, l.userIndex x.user = some info ∧ x.prevTransferRecNum = info.lastRecordWithBalance := by
  obtain ⟨seq, t, body, result⟩ := tr
  cases h with
  | refused hrs hl => exact absurd hsu hrs
  | other hbo | addGroupFriend hbo | removeGroupFriend hbo | addUser hbo | moveUserInbound hbo
  | moveUserOutbound hbo =>
    cases hbo
    cases hx
  | @gradidoCreation c info hbo hin =>
    cases hbo
    obtain rfl := List.mem_singleton.mp hx
    exact ⟨info, hin, rfl⟩
  | @localTransfer lt sender receiver _ _ _ hbo hse hre =>
    cases hbo
    rcases List.mem_cons.mp hx with rfl | hx'
    · exact ⟨sender, hse, rfl⟩
    · obtain rfl := List.mem_singleton.mp hx'
      split at hre
      · -- to themselves: the entry is read again, with the balance written just before
        rename_i hsl
        refine ⟨sender, ?_, ?_⟩
        · rw [← hse]
          exact congrArg l.userIndex hsl
        · rw [hre]
      · exact ⟨receiver, hre, rfl⟩
  | @inboundTransfer lt receiver _ _ hbo hre =>
    cases hbo
    obtain rfl := List.mem_singleton.mp hx
    exact ⟨receiver, hre, rfl⟩
  | @outboundTransfer lt sender _ _ hbo hse =>
    cases hbo
    obtain rfl := List.mem_singleton.mp hx
    exact ⟨sender, hse, rfl⟩

end Applied

end Ledger

namespace Chain

open Ledger

variable {d : DecayFunction} {s s' : Chain} {e : Event} {rows : List GradidoRecord} {u : PubKey}

/-! ## Where an entry comes from -/

/-- Every entry comes from the last row that set the balance of its user, as `P` says. -/
def Traced (P : Nat → Transaction → UserInfo → Prop) (users : PMap PubKey UserInfo)
    (rows : List GradidoRecord) : Prop :=
  ∀ u info, users u = some info → ∃ m tr, LastBefore (setsBalance u) rows rows.length m ∧
    rows[m]? = some (.gradidoTransaction tr) ∧ P m tr info

theorem setsBalance_parts (u : PubKey) (parts : List Part) :
    ∀ r ∈ parts.map Part.record, setsBalance u r = false := by
  intro r hr
  obtain ⟨p, -, rfl⟩ := List.mem_map.mp hr
  cases p <;> rfl

/-- A batch is stored, and entries are written for the users of its row. -/
theorem Traced.batch {P : Nat → Transaction → UserInfo → Prop} {users users' : PMap PubKey UserInfo}
    (h : Traced P users rows) {tr : Transaction} (parts : List Part)
    (hwr : PMap.Wrote (rowUsers (.gradidoTransaction tr)) (P rows.length tr) users users') :
    Traced P users' (rows ++ batch tr parts) := by
  intro u info hin
  rcases hwr u info hin with ⟨hu, hP⟩ | ⟨hu, hold⟩
  · refine ⟨rows.length, tr, ?_, batch_row rows tr parts, hP⟩
    exact lastBefore_marked (decide_eq_true hu) (setsBalance_parts u parts)
  · obtain ⟨m, tr₀, hla, hrow, hP⟩ := h u info hold
    refine ⟨m, tr₀, hla.append ?_, ?_, hP⟩
    · intro r hr
      rcases List.mem_cons.mp hr with rfl | hr'
      · exact decide_eq_false hu
      · exact setsBalance_parts u parts r hr'
    · rw [List.getElem?_append_left hla.lt]
      exact hrow

/-- Row `n` is a SUCCESS transaction that carries `x`. -/
def Carries (rows : List GradidoRecord) (n : Nat) (x : UserTransfer) : Prop :=
  ∃ tr, rows[n]? = some (.gradidoTransaction tr) ∧ tr.result = .success ∧ x ∈ links tr.body

/-- What a run keeps: an entry has the time of the last row that set the balance, and the
count of rows before it; a number that a row carries is such a count. -/
structure Noted (s : Chain) : Prop where
  entries : Traced (fun m tr info =>
    info.lastRecordWithBalance = .ofNat (rowCount groupParams m) ∧
      info.timestampOfLastBalance = tr.consensusTimestamp) s.ledger.userIndex s.rows
  numbers : ∀ n x, Carries s.rows n x → ∃ m, LastBefore (setsBalance x.user) s.rows n m ∧
    x.prevTransferRecNum = .ofNat (rowCount groupParams m)

theorem noted_initial : Noted initial where
  entries := by
    intro u info h
    cases h
  numbers := by
    rintro n x ⟨tr, hrow, -⟩
    cases hrow

theorem Noted.step (h : Noted s) (hs : step d s e = some s') : Noted s' := by
  rcases step_cases hs with ⟨hin, hro⟩ | ⟨env, tr, parts, tr', rfl, happ, hro⟩
  · refine ⟨?_, ?_⟩
    · rw [hin, hro]
      exact h.entries
    · rw [hro]
      exact h.numbers
  · refine ⟨?_, ?_⟩
    · rw [hro]
      exact h.entries.batch parts happ.wrote
    · rw [hro]
      rintro n x ⟨tr₀, hrow, hsu, hx⟩
      rcases batch_cases hrow with hold | ⟨rfl, rfl⟩
      · obtain ⟨m, hla, hpr⟩ := h.numbers n x ⟨tr₀, hold, hsu, hx⟩
        have hn := (List.getElem?_eq_some_iff.mp hold).1
        exact ⟨m, (lastBefore_append (Nat.le_of_lt hn)).mpr hla, hpr⟩
      · obtain ⟨info, hif, hpr⟩ := happ.links_eq hsu hx
        obtain ⟨m, -, hla, -, hnu, -⟩ := h.entries x.user info hif
        exact ⟨m, (lastBefore_append (Nat.le_refl _)).mpr hla, hpr.trans hnu⟩

theorem noted_run {es : List Event} (hrun : run (step d) initial es = some s) : Noted s :=
  run_keeps Noted (fun _ _ _ hinv hs => hinv.step hs) noted_initial hrun

/-! ## The number of a row -/

/-- The count of rows before a row, as a machine word, is the number of the row just if the
row begins a block. -/
theorem toNat_rowCount_eq_iff (m : Nat) : (UInt64.ofNat (rowCount groupParams m)).toNat = recNum m ↔
      recNum m % GRADIDO_BLOCK_SIZE = 0 ∧ recNum m < 2 ^ 64 := by
  have hsize : GRADIDO_BLOCK_SIZE = 1000 := rfl
  have hwo : (UInt64.ofNat (rowCount groupParams m)).toNat
      = rowCount groupParams m % 18446744073709551616 := UInt64.toNat_ofNat'
  rw [hwo, rowCount_eq, recNum_eq, hsize]
  split
  · omega
  · omega

/-! ## Following the numbers -/

/-- Each number is that of the row which set the balance before. -/
def Linked (rows : List GradidoRecord) : Prop :=
  ∀ n x, Carries rows n x → ∃ m, LastBefore (setsBalance x.user) rows n m ∧
    x.prevTransferRecNum.toNat = recNum m

/-- From the row with this number, and then from row to row by the numbers of `u`, these
rows are visited. -/
inductive Visits (rows : List GradidoRecord) (u : PubKey) : Nat → List Nat → Prop
  | last {n : Nat} {tr : Transaction} (hrow : rows[n]? = some (.gradidoTransaction tr))
      (hnone : ∀ x ∈ links tr.body, x.user ≠ u) : Visits rows u (recNum n) [recNum n]
  | next {n : Nat} {x : UserTransfer} {visited : List Nat} (hx : Carries rows n x)
      (hu : x.user = u) (hrest : Visits rows u x.prevTransferRecNum.toNat visited) :
      Visits rows u (recNum n) (recNum n :: visited)

/-- Row `m` sets the balance of `u`, and up to row `n` no account of `u` is opened after it. -/
structure InAccount (rows : List GradidoRecord) (u : PubKey) (n m : Nat) : Prop where
  le : m ≤ n
  sets : ∃ r, rows[m]? = some r ∧ setsBalance u r = true
  same : ∀ k r, m < k → k ≤ n → rows[k]? = some r → entersIn u r = false

/-- From each row that sets a balance, exactly the rows of the account are visited, in
reverse order. -/
def Followed (rows : List GradidoRecord) : Prop :=
  ∀ u n r, rows[n]? = some r → setsBalance u r = true →
    ∃ visited : List Nat, visited.Pairwise (· > ·) ∧ (∀ m, m ∈ visited ↔ InAccount rows u n m) ∧
      ∀ numbers, Visits rows u (recNum n) numbers ↔ numbers = visited.map recNum

/-- A row that opens an account has no number to follow. -/
theorem visits_last_iff {n : Nat} {tr : Transaction}
    (hrow : rows[n]? = some (.gradidoTransaction tr)) (hno : ∀ x ∈ links tr.body, x.user ≠ u)
    (numbers : List Nat) : Visits rows u (recNum n) numbers ↔ numbers = [recNum n] := by
  constructor
  · generalize hk : recNum n = k
    rintro (⟨hrow', -⟩ | @⟨n', x, visited, ⟨tr', hrow', -, hx⟩, hu, -⟩)
    · rfl
    · obtain rfl := recNum_injective hk
      cases hrow.symm.trans hrow'
      exact absurd hu (hno x hx)
  · rintro rfl
    exact .last hrow hno

/-- Any other row has one. -/
theorem visits_next_iff (h : Linked rows) {n m : Nat} {x : UserTransfer} (hx : Carries rows n x)
    (hu : x.user = u) (hm : LastBefore (setsBalance u) rows n m) (numbers : List Nat) :
    Visits rows u (recNum n) numbers ↔
      ∃ rest, numbers = recNum n :: rest ∧ Visits rows u (recNum m) rest := by
  have hnu : ∀ y, Carries rows n y → y.user = u → y.prevTransferRecNum.toNat = recNum m := by
    rintro y hy rfl
    obtain ⟨m', hm', hy'⟩ := h n y hy
    rw [hy', hm.unique hm']
  constructor
  · generalize hk : recNum n = k
    rintro (⟨hrow', hno⟩ | ⟨hy, huy, hre⟩)
    · obtain rfl := recNum_injective hk
      obtain ⟨tr, hrow, -, hmem⟩ := hx
      cases hrow.symm.trans hrow'
      exact absurd hu (hno x hmem)
    · obtain rfl := recNum_injective hk
      rw [hnu _ hy huy] at hre
      exact ⟨_, rfl, hre⟩
  · rintro ⟨rest, rfl, hre⟩
    refine .next hx hu ?_
    rw [hnu x hx hu]
    exact hre

variable {r : GradidoRecord}

/-- A row that sets a balance opens the account, or carries a number. -/
theorem setsBalance_cases (h : setsBalance u r = true) :
    ∃ tr, r = .gradidoTransaction tr ∧ tr.result = .success ∧
      ((entersIn u r = true ∧ ∀ x ∈ links tr.body, x.user ≠ u) ∨
        (entersIn u r = false ∧ ∃ x ∈ links tr.body, x.user = u)) := by
  have hmem : u ∈ rowUsers r := of_decide_eq_true h
  cases r with
  | gradidoTransaction tr =>
    obtain ⟨seq, t, body, result⟩ := tr
    have hsu : result = .success := by
      by_contra hne
      rw [rowUsers, if_neg hne] at hmem
      cases hmem
    subst hsu
    rw [rowUsers, if_pos rfl] at hmem
    refine ⟨_, rfl, rfl, ?_⟩
    cases body with
    | gradidoCreation c | inboundTransfer lt | outboundTransfer lt =>
      obtain rfl := List.mem_singleton.mp hmem
      exact .inr ⟨rfl, _, List.mem_cons_self, rfl⟩
    | addGroupFriend g | removeGroupFriend g | moveUserOutbound m | other ty => cases hmem
    | addUser v =>
      obtain rfl := List.mem_singleton.mp hmem
      exact .inl ⟨beq_self_eq_true u, fun x hx => absurd hx List.not_mem_nil⟩
    | moveUserInbound m =>
      obtain rfl := List.mem_singleton.mp hmem
      exact .inl ⟨beq_self_eq_true _, fun x hx => absurd hx List.not_mem_nil⟩
    | localTransfer lt =>
      rcases List.mem_cons.mp hmem with rfl | hmem'
      · exact .inr ⟨rfl, _, List.mem_cons_self, rfl⟩
      · obtain rfl := List.mem_singleton.mp hmem'
        exact .inr ⟨rfl, _, List.mem_cons_of_mem _ List.mem_cons_self, rfl⟩
  | _ => cases hmem

theorem setsBalance_of_entersIn (h : entersIn u r = true) : setsBalance u r = true := by
  unfold entersIn at h
  split at h
  · obtain rfl := beq_iff_eq.mp h
    exact decide_eq_true List.mem_cons_self
  · obtain rfl := beq_iff_eq.mp h
    exact decide_eq_true List.mem_cons_self
  · cases h

theorem entersIn_of_not_setsBalance (h : setsBalance u r = false) : entersIn u r = false := by
  cases hen : entersIn u r with
  | false => rfl
  | true =>
    rw [setsBalance_of_entersIn hen] at h
    cases h

/-- The rows of an account up to a row that does not open it: that row, and those up to the
one before. -/
theorem inAccount_iff {n m k : Nat} (hr : rows[n]? = some r) (hse : setsBalance u r = true)
    (hen : entersIn u r = false) (hm : LastBefore (setsBalance u) rows n m) :
    InAccount rows u n k ↔ k = n ∨ InAccount rows u m k := by
  have hbe : ∀ j r', m < j → j ≤ n → rows[j]? = some r' → entersIn u r' = false := by
    intro j r' hmj hjn hr'
    rcases Nat.lt_or_eq_of_le hjn with hlt | rfl
    · exact entersIn_of_not_setsBalance (hm.after j r' hmj hlt hr')
    · cases hr.symm.trans hr'
      exact hen
  constructor
  · rintro ⟨hle, ⟨r', hr', hse'⟩, hsa⟩
    rcases Nat.lt_or_eq_of_le hle with hlt | rfl
    · refine .inr ⟨hm.le hlt hr' hse', ⟨r', hr', hse'⟩, fun j r₀ hj hjm => ?_⟩
      exact hsa j r₀ hj (Nat.le_trans hjm (Nat.le_of_lt hm.lt))
    · exact .inl rfl
  · rintro (rfl | ⟨hle, hse', hsa⟩)
    · exact ⟨Nat.le_refl _, ⟨r, hr, hse⟩, fun j _ hj hjn => absurd hj (Nat.not_lt.mpr hjn)⟩
    · refine ⟨Nat.le_trans hle (Nat.le_of_lt hm.lt), hse', fun j r₀ hj hjn hr₀ => ?_⟩
      rcases Nat.lt_or_ge m j with hmj | hjm
      · exact hbe j r₀ hmj hjn hr₀
      · exact hsa j r₀ hj hjm hr₀

theorem inAccount_enters_iff {n k : Nat} (hr : rows[n]? = some r) (hen : entersIn u r = true) :
    InAccount rows u n k ↔ k = n := by
  constructor
  · rintro ⟨hle, -, hsa⟩
    by_contra hne
    rw [hsa n r (by omega) (Nat.le_refl _) hr] at hen
    cases hen
  · rintro rfl
    exact ⟨Nat.le_refl _, ⟨r, hr, setsBalance_of_entersIn hen⟩,
      fun j _ hj hjn => absurd hj (Nat.not_lt.mpr hjn)⟩

/-- Where the numbers are right, following them visits the account. -/
theorem followed_of_linked (h : Linked rows) : Followed rows := by
  intro u n
  -- each number leads to an earlier row
  induction n using Nat.strong_induction_on with
  | _ n ih =>
    intro r hr hse
    obtain ⟨tr, rfl, hsu, hki⟩ := setsBalance_cases hse
    rcases hki with ⟨hen, hno⟩ | ⟨hen, x, hx, rfl⟩
    · refine ⟨[n], List.pairwise_singleton _ _, fun m => ?_, visits_last_iff hr hno⟩
      rw [List.mem_singleton]
      exact (inAccount_enters_iff hr hen).symm
    · have hca : Carries rows n x := ⟨tr, hr, hsu, hx⟩
      obtain ⟨m, hm, -⟩ := h n x hca
      obtain ⟨r', hr', hse'⟩ := hm.marked
      obtain ⟨visited, hso, hmem, hvi⟩ := ih m hm.lt r' hr' hse'
      refine ⟨n :: visited, List.pairwise_cons.mpr ⟨fun k hk => ?_, hso⟩, fun k => ?_,
        fun numbers => ?_⟩
      · exact Nat.lt_of_le_of_lt ((hmem k).mp hk).le hm.lt
      · rw [List.mem_cons, hmem, inAccount_iff hr hse hen hm]
      · rw [visits_next_iff h hca rfl hm, List.map_cons]
        constructor
        · rintro ⟨rest, rfl, hre⟩
          rw [(hvi rest).mp hre]
        · rintro rfl
          exact ⟨_, rfl, (hvi _).mpr rfl⟩

/-! ## The history -/

/-- **The history of the balances.**  In the chain of any run, the numbers lead to the rows
that set the balances before, and so through each account in reverse order, just if every row
they are to lead to begins a block (and its number fits the word). -/
theorem history_iff (d : DecayFunction) (es : List Event) (s : Chain)
    (hrun : run (step d) initial es = some s) :
    (Linked s.rows ∧ Followed s.rows) ↔
      ∀ n x m, Carries s.rows n x → LastBefore (setsBalance x.user) s.rows n m →
        recNum m % GRADIDO_BLOCK_SIZE = 0 ∧ recNum m < 2 ^ 64 := by
  have hno := noted_run hrun
  constructor
  · rintro ⟨hli, -⟩ n x m hx hm
    obtain ⟨m₁, hm₁, hnu⟩ := hno.numbers n x hx
    obtain ⟨m₂, hm₂, hri⟩ := hli n x hx
    obtain rfl := hm.unique hm₁
    obtain rfl := hm.unique hm₂
    rw [hnu] at hri
    exact (toNat_rowCount_eq_iff m).mp hri
  · intro hbe
    have hli : Linked s.rows := by
      intro n x hx
      obtain ⟨m, hm, hnu⟩ := hno.numbers n x hx
      refine ⟨m, hm, ?_⟩
      rw [hnu]
      exact (toNat_rowCount_eq_iff m).mpr (hbe n x m hx hm)
    exact ⟨hli, followed_of_linked hli⟩

/-- A user in the first row, and a gradido created for them. -/
def addThenCreate : List Event :=
  [plain (.addUser (key 1)), plain (.gradidoCreation ⟨userTransfer 1, ⟨1, 0⟩⟩)]

/-- The GRADIDO_CREATION in the second row leads to the first. -/
theorem history_addThenCreate : ∃ s, run (step keepNormalised) initial addThenCreate = some s ∧
      Carries s.rows 1 ⟨key 1, ⟨1, 0⟩, 0⟩ ∧ Linked s.rows ∧ Followed s.rows := by
  obtain ⟨s, hs, hro⟩ : ∃ s, run (step keepNormalised) initial addThenCreate = some s ∧
      s.rows = [.gradidoTransaction ⟨0, HederaTimestamp.zero, .addUser (key 1), .success⟩,
        .gradidoTransaction ⟨0, HederaTimestamp.zero,
          .gradidoCreation ⟨⟨key 1, ⟨1, 0⟩, 0⟩, ⟨1, 0⟩⟩, .success⟩] := ⟨_, rfl, rfl⟩
  refine ⟨s, hs, ?_, (history_iff keepNormalised addThenCreate s hs).mpr ?_⟩
  · rw [hro]
    exact ⟨_, rfl, rfl, List.mem_cons_self⟩
  · rw [hro]
    rintro n x m ⟨tr, hrow, -⟩ hm
    have hn : n < 2 := (List.getElem?_eq_some_iff.mp hrow).1
    have hlt := hm.lt
    obtain rfl : m = 0 := by omega
    exact ⟨rfl, by decide⟩

/-- The same, with another user in the first row. -/
def addTwoThenCreate : List Event := plain (.addUser (key 2)) :: addThenCreate

/-- The entry of user 1 is written when there are two rows, the second a CHECKSUM that the
ADD_USER replaces: the GRADIDO_CREATION in row 2 carries the number of its own row. -/
theorem history_own_row : ∃ s, run (step keepNormalised) initial addTwoThenCreate = some s ∧
      Carries s.rows 2 ⟨key 1, ⟨1, 0⟩, .ofNat (recNum 2)⟩ ∧
      LastBefore (setsBalance (key 1)) s.rows 2 1 ∧ ¬ Linked s.rows := by
  obtain ⟨s, hs, hro⟩ : ∃ s, run (step keepNormalised) initial addTwoThenCreate = some s ∧
      s.rows = [.gradidoTransaction ⟨0, HederaTimestamp.zero, .addUser (key 2), .success⟩,
        .gradidoTransaction ⟨0, HederaTimestamp.zero, .addUser (key 1), .success⟩,
        .gradidoTransaction ⟨0, HederaTimestamp.zero,
          .gradidoCreation ⟨⟨key 1, ⟨1, 0⟩, 2⟩, ⟨1, 0⟩⟩, .success⟩] := ⟨_, rfl, rfl⟩
  have hca : Carries s.rows 2 ⟨key 1, ⟨1, 0⟩, 2⟩ := by
    rw [hro]
    exact ⟨_, rfl, rfl, List.mem_cons_self⟩
  have hla : LastBefore (setsBalance (key 1)) s.rows 2 1 := by
    rw [hro]
    exact ⟨by decide, ⟨_, rfl, by decide⟩, fun k _ hk hk' => absurd hk' (by omega)⟩
  refine ⟨s, hs, hca, hla, fun hli => ?_⟩
  obtain ⟨m, hm, hnu⟩ := hli 2 _ hca
  obtain rfl := hla.unique hm
  exact absurd hnu (by decide)

end Chain

end GradidoNode
