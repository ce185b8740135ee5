/-
# `GradidoNode.Storage.Records` — `get_record` against the rows `append` laid out

`append` fills blocks of `RecCount` rows, so the row numbered `i` is row
`i % RecCount` of block `i / RecCount`.  `get_record` looks for it in row
`i % GRADIDO_BLOCK_SIZE` of block `i / GRADIDO_BLOCK_SIZE`.  For a chain of any
other block size:

    RecCount < 1000, more than RecCount rows    row `RecCount` is looked for past block 0
    RecCount > 1000, more than 1000 rows        the last row is looked for in a block that is
                                                not there, or behind the rows of the last one

and in a chain with no more rows than both sizes every row is in block 0, where
the two divisions agree.  `getRecord_asked_iff` says that these are all the cases.
-/
import GradidoNode.Storage.Tamper

namespace GradidoNode.Blockchain

open FileTile Lib

variable {T : Type} {F : RowFormat T} {K : Params} {s : Blockchain F} {ps : List T}
  {cs : Nat → F.Checksum}

/-! ## The payloads of a run -/

/-- The payload a call appends. -/
def ChainOp.payload : ChainOp T → Option T
  | .append p _ => some p
  | _ => none

/-- The payloads a list of calls appends, in order. -/
def payloadsOf (ops : List (ChainOp T)) : List T := ops.filterMap ChainOp.payload

theorem Holds.run {ops : List (ChainOp T)} {s₀ : Blockchain F} (h : Holds K s₀ ps cs)
    (hrun : run (opStep K) s₀ ops = some s) : ∃ cs', Holds K s (ps ++ payloadsOf ops) cs' := by
  induction ops generalizing s₀ ps cs with
  | nil =>
    cases hrun
    exact ⟨cs, by rw [payloadsOf, List.filterMap_nil, List.append_nil]; exact h⟩
  | cons op ops ih =>
    obtain ⟨s₁, hs₁, hre⟩ := run_cons hrun
    rcases (opStep_cases h hs₁).2 with ⟨hrd, h₁⟩ | ⟨p, now, rfl, h₁⟩
    · have hno : ChainOp.payload op = none := by
        cases op with
        | append p now => exact absurd rfl (hrd p now)
        | getBlock i now | getRecord i now | flushCache now => rfl
      rw [payloadsOf, List.filterMap_cons_none hno]
      exact ih h₁ hre
    · have hso : ChainOp.payload (.append p now) = some p := rfl
      rw [payloadsOf, List.filterMap_cons_some hso, List.append_cons]
      exact ih h₁ hre

theorem holds_payloadsOf {disk : Nat → Entry F.Body} {ops : List (ChainOp T)}
    (hrun : run (opStep K) (create K disk 0) ops = some s) :
    ∃ cs, Holds K s (payloadsOf ops) cs :=
  Holds.run (holds_nil rfl rfl rfl fun _ => F.zero) hrun

/-! ## What `get_record` looks at -/

/-- `row` is the row numbered `i`: the file has it there, and where `append` put a payload
there it is the row of that payload. -/
def StoredAt (K : Params) (s : Blockchain F) (ps : List T) (i : Nat) (row : Row F.Body) : Prop :=
  (fileRows (s.disk (i / K.RecCount)))[i % K.RecCount]? = some row ∧
    ∀ p, (chunk K ps (i / K.RecCount))[i % K.RecCount]? = some p → row = F.payloadRow p

section

variable (h : Holds K s ps cs)
include h

/-- The row of the layout, and no other. -/
theorem Holds.storedAt_iff {i : Nat} (hi : i < s.recCount) (row : Row F.Body) :
    StoredAt K s ps i row ↔
      row = blockRows F (chunk K ps (i / K.RecCount)) (cs (i / K.RecCount)) (i % K.RecCount) := by
  have hpos : 0 < K.RecCount := Nat.lt_of_lt_of_le Nat.zero_lt_two K.two_le
  have hb : i / K.RecCount < s.tiles.length := by
    have hle := rowCount_le K ps.length
    rw [← h.recCount_eq, ← h.tiles_length] at hle
    exact Nat.div_lt_of_lt_mul (by rw [Nat.mul_comm]; omega)
  obtain ⟨d, -, hsy⟩ := h.desc hb
  have hfi := fileRows_getElem? hsy.1 (Nat.mod_lt i hpos)
  constructor
  · rintro ⟨hrow, -⟩
    rw [show (⟨s.disk (i / K.RecCount), d⟩ : Tile F.Body F.Checksum).entry
      = s.disk (i / K.RecCount) from rfl, hrow] at hfi
    exact Option.some.inj hfi
  · rintro rfl
    exact ⟨hfi, fun p hp => blockRows_payload hp⟩

/-- `get_record` of a row there is: the block of the code's division must be there, and the
row of the code's remainder must be one of its rows. -/
theorem Holds.getRecord_eq {i : Nat} (hi : i < s.recCount) (now : Nat) :
    (s.tiles.length ≤ i / GRADIDO_BLOCK_SIZE ∧
      ∃ s', getRecord K i now s = .error (.thrown "TileFile: index too large") s') ∨
    (i / GRADIDO_BLOCK_SIZE < s.tiles.length ∧ K.RecCount ≤ i % GRADIDO_BLOCK_SIZE ∧
      ∃ s', getRecord K i now s = .error (.undefined "row past the end of the block") s') ∨
    (i / GRADIDO_BLOCK_SIZE < s.tiles.length ∧ i % GRADIDO_BLOCK_SIZE < K.RecCount ∧
      ∃ s', getRecord K i now s = .ok
        (some (blockRows F (chunk K ps (i / GRADIDO_BLOCK_SIZE)) (cs (i / GRADIDO_BLOCK_SIZE))
          (i % GRADIDO_BLOCK_SIZE)), .ok) s') := by
  unfold getRecord
  rw [get_bind, if_neg (Nat.not_le.mpr hi)]
  by_cases hb : i / GRADIDO_BLOCK_SIZE < s.tiles.length
  · obtain ⟨r, s', heq, ⟨rows, rfl, hro⟩, -⟩ := getBlock_holds h hb now
    rw [bind_eq heq]
    dsimp only
    by_cases hj : i % GRADIDO_BLOCK_SIZE < K.RecCount
    · rw [if_pos hj, hro _ hj]
      exact .inr (.inr ⟨hb, hj, s', rfl⟩)
    · rw [if_neg hj]
      exact .inr (.inl ⟨hb, Nat.not_lt.mp hj, s', rfl⟩)
  · obtain ⟨s', heq, -⟩ := getBlock_outside h (Nat.not_lt.mp hb) now
    rw [bind_error heq]
    exact .inl ⟨Nat.not_lt.mp hb, s', rfl⟩

/-- `get_record` finds the row numbered `i`. -/
def FindsRow (K : Params) (s : Blockchain F) (ps : List T) (i now : Nat) : Prop :=
  Returns (getRecord K i now) s fun r _ => ∃ row, r = (some row, .ok) ∧ StoredAt K s ps i row

/-- The row is found exactly where the code's division leads to the same row. -/
theorem Holds.findsRow_iff {i : Nat} (hi : i < s.recCount) (now : Nat) :
    FindsRow K s ps i now ↔
      i / GRADIDO_BLOCK_SIZE < s.tiles.length ∧ i % GRADIDO_BLOCK_SIZE < K.RecCount ∧
        blockRows F (chunk K ps (i / GRADIDO_BLOCK_SIZE)) (cs (i / GRADIDO_BLOCK_SIZE))
            (i % GRADIDO_BLOCK_SIZE)
          = blockRows F (chunk K ps (i / K.RecCount)) (cs (i / K.RecCount)) (i % K.RecCount) := by
  rcases h.getRecord_eq hi now with ⟨hb, s', heq⟩ | ⟨-, hj, s', heq⟩ | ⟨hb, hj, s', heq⟩
  · refine ⟨?_, fun hfo => absurd hfo.1 (Nat.not_lt.mpr hb)⟩
    rintro ⟨r, s'', heq', -⟩
    cases heq.symm.trans heq'
  · refine ⟨?_, fun hfo => absurd hfo.2.1 (Nat.not_lt.mpr hj)⟩
    rintro ⟨r, s'', heq', -⟩
    cases heq.symm.trans heq'
  · constructor
    · rintro ⟨r, s'', heq', row, hr, hrow⟩
      cases heq.symm.trans heq'
      cases hr
      exact ⟨hb, hj, (h.storedAt_iff hi _).mp hrow⟩
    · rintro ⟨-, -, hrow⟩
      exact ⟨_, s', heq, _, rfl, (h.storedAt_iff hi _).mpr hrow⟩

/-! ## Rows that are not found -/

/-- In a chain of small blocks the first row of block 1 is looked for in block 0. -/
theorem Holds.misses_second (hsm : K.RecCount < GRADIDO_BLOCK_SIZE)
    (hlong : K.RecCount < s.recCount) (now : Nat) : ¬ FindsRow K s ps K.RecCount now := by
  rw [h.findsRow_iff hlong]
  rintro ⟨-, hj, -⟩
  rw [Nat.mod_eq_of_lt hsm] at hj
  exact Nat.lt_irrefl _ hj

/-- In a chain of large blocks with more than `GRADIDO_BLOCK_SIZE` rows the last row is looked
for too far behind. -/
theorem Holds.misses_last (hlr : GRADIDO_BLOCK_SIZE < K.RecCount)
    (hlong : GRADIDO_BLOCK_SIZE < s.recCount) (now : Nat) :
    ¬ FindsRow K s ps (s.recCount - 1) now := by
  have hps : 0 < ps.length := by
    refine Nat.pos_of_ne_zero fun h0 => ?_
    rw [h.recCount_eq, h0, rowCount, blockCount, Nat.zero_div, Nat.zero_mod] at hlong
    exact Nat.not_lt_zero _ hlong
  have hbl := blockCount_pos K hps
  obtain ⟨b, hb⟩ : ∃ b, b + 1 = blockCount K ps.length :=
    ⟨blockCount K ps.length - 1, Nat.sub_add_cancel hbl⟩
  obtain ⟨hl, hla⟩ := chunk_last hb
  have hfit := chunk_length_lt K ps b
  rw [← h.recCount_eq] at hla
  rw [h.findsRow_iff (by omega)]
  rintro ⟨hin, -, hrow⟩
  rw [h.tiles_length, ← hb] at hin
  -- the last row is the checksum row of the last block
  have hdiv : (s.recCount - 1) / K.RecCount = b := by
    rw [← hla, ← Nat.add_assoc, Nat.add_sub_cancel, Nat.mul_add_div (by omega),
      Nat.div_eq_of_lt hfit, Nat.add_zero]
  have hmod : (s.recCount - 1) % K.RecCount = (chunk K ps b).length := by
    rw [← hla, ← Nat.add_assoc, Nat.add_sub_cancel, Nat.mul_add_mod, Nat.mod_eq_of_lt hfit]
  rw [hdiv, hmod, blockRows_length] at hrow
  have hge : b * GRADIDO_BLOCK_SIZE ≤ b * K.RecCount := Nat.mul_le_mul_left b (Nat.le_of_lt hlr)
  rw [Nat.mul_comm b K.RecCount] at hge
  have hq : (s.recCount - 1) / GRADIDO_BLOCK_SIZE = b := Nat.le_antisymm (Nat.le_of_lt_succ hin)
      ((Nat.le_div_iff_mul_le (by decide)).mpr (by omega))
  have hr := Nat.div_add_mod' (s.recCount - 1) GRADIDO_BLOCK_SIZE
  rw [hq] at hr hrow
  -- the code's remainder is larger than the number of payloads of the block
  have hbe : (chunk K ps b).length < (s.recCount - 1) % GRADIDO_BLOCK_SIZE := by
    cases b with
    | zero =>
      rw [Nat.div_eq_zero_iff] at hq
      exact absurd hq (by rw [show GRADIDO_BLOCK_SIZE = 1000 from rfl] at *; omega)
    | succ b =>
      have hgt : (b + 1) * GRADIDO_BLOCK_SIZE < (b + 1) * K.RecCount :=
        Nat.mul_lt_mul_of_pos_left hlr (Nat.succ_pos b)
      rw [Nat.mul_comm (b + 1) K.RecCount] at hgt
      omega
  rw [blockRows_blank hbe] at hrow
  have htype := congrArg Row.type hrow
  rw [F.blankRow_type, F.checksumRow_type] at htype
  exact absurd htype (by decide)

end

/-! ## The rows of a run -/

/-- **Where `get_record` returns the row asked for.**  On a chain built by appends, with any
reads and flushes between them: for all its rows exactly when the blocks have
`GRADIDO_BLOCK_SIZE` rows, or the chain has not outgrown the smaller of the two sizes. -/
theorem getRecord_asked_iff (K : Params) (disk : Nat → Entry F.Body) (ops : List (ChainOp T))
    (s : Blockchain F) (hrun : run (opStep K) (create K disk 0) ops = some s) (now : Nat) :
    (∀ i < getRecCount s, FindsRow K s (payloadsOf ops) i now) ↔
      K.RecCount = GRADIDO_BLOCK_SIZE ∨ getRecCount s ≤ min K.RecCount GRADIDO_BLOCK_SIZE := by
  obtain ⟨cs, h⟩ := holds_payloadsOf hrun
  rw [getRecCount]
  constructor
  · intro hall
    by_contra hno
    obtain ⟨hne, hlong⟩ := not_or.mp hno
    rcases Nat.lt_or_gt_of_ne hne with hsm | hla
    · rw [Nat.min_eq_left (Nat.le_of_lt hsm), Nat.not_le] at hlong
      exact h.misses_second hsm hlong now (hall _ hlong)
    · rw [Nat.min_eq_right (Nat.le_of_lt hla), Nat.not_le] at hlong
      exact h.misses_last hla hlong now (hall _ (by omega))
  · intro hsize i hi
    have hro : i / GRADIDO_BLOCK_SIZE = i / K.RecCount ∧
        i % GRADIDO_BLOCK_SIZE = i % K.RecCount := by
      rcases hsize with hK | hsh
      · rw [hK]
        exact ⟨rfl, rfl⟩
      · obtain ⟨h₁, h₂⟩ := Nat.le_min.mp hsh
        have hi₁ := Nat.lt_of_lt_of_le hi h₁
        have hi₂ := Nat.lt_of_lt_of_le hi h₂
        rw [Nat.div_eq_of_lt hi₁, Nat.div_eq_of_lt hi₂, Nat.mod_eq_of_lt hi₁, Nat.mod_eq_of_lt hi₂]
        exact ⟨rfl, rfl⟩
    have hpos : 0 < K.RecCount := Nat.lt_of_lt_of_le Nat.zero_lt_two K.two_le
    have hle := rowCount_le K (payloadsOf ops).length
    rw [← h.recCount_eq, ← h.tiles_length] at hle
    rw [h.findsRow_iff hi, hro.1, hro.2]
    exact ⟨Nat.div_lt_of_lt_mul (by rw [Nat.mul_comm]; omega), Nat.mod_lt i hpos, rfl⟩

/-- A full block of four rows. -/
theorem getRecord_asked_oneBlock :
    ∃ s, run (opStep (F := digestFormat Nat) fourRows) (create fourRows (fun _ => .missing) 0)
        [.append 7 0, .append 8 0, .append 9 0] = some s ∧
      getRecCount s = 4 ∧ ∀ i < 4, FindsRow fourRows s [7, 8, 9] i 0 := by
  obtain ⟨s, hs, hcount⟩ : ∃ s, run (opStep (F := digestFormat Nat) fourRows)
      (create fourRows (fun _ => .missing) 0) [.append 7 0, .append 8 0, .append 9 0] = some s ∧
      getRecCount s = 4 := by decide
  have hall := (getRecord_asked_iff fourRows (fun _ => .missing) _ s hs 0).mpr
    (.inr (by rw [hcount]; decide))
  rw [hcount] at hall
  exact ⟨s, hs, hcount, hall⟩

/-- One payload more: the first row of block 1 is looked for in row 4 of block 0, past the end of
its buffer. -/
theorem getRecord_past_block :
    ∃ s, run (opStep (F := digestFormat Nat) fourRows) (create fourRows (fun _ => .missing) 0)
        [.append 7 0, .append 8 0, .append 9 0, .append 10 0] = some s ∧
      4 < getRecCount s ∧
      ∃ s', getRecord fourRows 4 0 s = .error (.undefined "row past the end of the block") s' := by
  obtain ⟨s, hs, hlt⟩ : ∃ s, run (opStep (F := digestFormat Nat) fourRows)
      (create fourRows (fun _ => .missing) 0)
      [.append 7 0, .append 8 0, .append 9 0, .append 10 0] = some s ∧ 4 < getRecCount s := by
    decide
  obtain ⟨cs, h⟩ := holds_payloadsOf hs
  refine ⟨s, hs, hlt, ?_⟩
  rcases h.getRecord_eq hlt 0 with ⟨hb, -⟩ | ⟨-, -, hfl⟩ | ⟨-, hj, -⟩
  · rw [h.tiles_length] at hb
    exact absurd hb (by decide)
  · exact hfl
  · exact absurd hj (by decide)

end GradidoNode.Blockchain
