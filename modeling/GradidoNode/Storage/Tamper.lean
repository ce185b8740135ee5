/-
# `GradidoNode.Storage.Tamper` — what reopening a chain checks

A chain is reopened by constructing the object over the folder and calling
`validate_next_checksum` until it has been through all blocks.  The call reads a
block and hands it to `validate_block`; the part of `validate_block` that would
recompute the checksum is commented out, and two of its refusals return an
enumerator, hence `true`.  What is left is a check of the *type bytes*:

    some rows that are neither EMPTY nor CHECKSUM, one of them PAYLOAD,
    one CHECKSUM row,
    EMPTY rows to the end                                        (`WellShaped`)

`validateStep_isSome` is the exact condition under which the next block of a
reopened chain is accepted, `validateAll_iff` the same for a whole chain; neither
mentions `calc_checksum` (`validation_tamper`).
-/
import GradidoNode.Storage.Shape

namespace GradidoNode.Blockchain

open FileTile Lib Function

variable {T : Type} {F : RowFormat T} {K : Params}

variable {r rs : Nat → Row F.Body} {b : Nat} {s' : Blockchain F} {disk : Nat → Entry F.Body}
  {ps : List T} {cs : Nat → F.Checksum}

theorem rowTypes_getElem? {j : Nat} (hj : j < K.RecCount) :
    (rowTypes K r)[j]? = some (r j).type := by
  rw [rowTypes, List.getElem?_map, List.getElem?_range hj]
  rfl

/-! ## One block -/

variable {s : Blockchain F}

/-- The next tile as `sync_from_file` leaves it. -/
def readTile (K : Params) (s : Blockchain F) (b : Nat) (d : TileDesc F.Body F.Checksum) :
    Bool × Tile F.Body F.Checksum :=
  Tile.syncFromFile K.RecCount F.zeroBody true ⟨s.disk b, d⟩

/-- What becomes of a block that has been read. -/
inductive Verdict (K : Params) (now b : Nat) (data : Nat → Row F.Body) (s : Blockchain F) :
    EStateM.Result Fault (Blockchain F) (Bool × ExitCode) → Prop
  | refused {e : ExitCode} (he : Misshaped (rowTypes K data) e) :
      Verdict K now b data s (.ok (false, e) (moveToBad b now s))
  | accepted (hsh : WellShaped (rowTypes K data)) :
      Verdict K now b data s (.ok (true, .ok) (countBlock K data s))
  | thrown {msg : String} (hsh : WellShaped (rowTypes K data)) (hno : ¬ PrevOk s b) :
      Verdict K now b data s (.error (.thrown msg) s)

/-- What a call of `validate_next_checksum` does with the next block.  A file that is not read
leaves neither MISSING_FILE nor BAD_LENGTH in its tile, so the call throws. -/
inductive Validates (K : Params) (now : Nat) (s : Blockchain F) :
    EStateM.Result Fault (Blockchain F) (Bool × ExitCode) → Prop
  | done (h : s.tiles.length ≤ s.checksumValidBlockCount) :
      Validates K now s (.ok (false, .ok) (maybeFlushCache K now s))
  | unread {d : TileDesc F.Body F.Checksum} {t : Tile F.Body F.Checksum}
      (hd : (maybeFlushCache K now s).tiles[s.checksumValidBlockCount]? = some d)
      (hre : readTile K s s.checksumValidBlockCount d = (false, t)) :
      Validates K now s (.error (.thrown "bad block file, cannot recover, ")
        ((maybeFlushCache K now s).putTile s.checksumValidBlockCount t))
  | read {d : TileDesc F.Body F.Checksum} {t : Tile F.Body F.Checksum} {data : Nat → Row F.Body}
      {v : EStateM.Result Fault (Blockchain F) (Bool × ExitCode)}
      (hd : (maybeFlushCache K now s).tiles[s.checksumValidBlockCount]? = some d)
      (hre : readTile K s s.checksumValidBlockCount d = (true, t))
      (hda : t.desc.fetchedData = some data)
      (hv : Verdict K now s.checksumValidBlockCount data
        ((maybeFlushCache K now s).putTile s.checksumValidBlockCount (t.setState .ok)) v) :
      Validates K now s v

theorem validateNextChecksum_validates (K : Params) (now : Nat) (s : Blockchain F) :
    Validates K now s (validateNextChecksum K now s) := by
  obtain ⟨hdi, -, hva, hlen, -⟩ := maybeFlushCache_frame (K := K) (s := s) now
  unfold validateNextChecksum
  rw [modify_bind, get_bind]
  simp only [hva, hlen]
  by_cases hb : s.tiles.length ≤ s.checksumValidBlockCount
  · rw [if_pos hb]
    exact .done hb
  have hlt := hlen ▸ Nat.not_le.mp hb
  have hd := List.getElem?_eq_getElem hlt
  rw [if_neg hb, bind_eq (onTile_ok _ hd), hdi]
  generalize (maybeFlushCache K now s).tiles[s.checksumValidBlockCount] = d at hd
  have hca := syncFromFile_cases (N := K.RecCount) (z := F.zeroBody)
    (⟨s.disk s.checksumValidBlockCount, d⟩ : Tile F.Body F.Checksum) true
  generalize hre : Tile.syncFromFile K.RecCount F.zeroBody true
    ⟨s.disk s.checksumValidBlockCount, d⟩ = r at hca
  obtain ⟨read, t⟩ := r
  rcases hca with ⟨rfl, data, hda⟩ | ⟨rfl, hst⟩
  · have hget : Tile.getTileData t = (some data, t.setState .ok) := Prod.ext hda rfl
    refine .read hd hre hda ?_
    rw [if_pos rfl, bind_eq (onTile_putTile hlt t _), hget]
    dsimp only
    generalize (maybeFlushCache K now s).putTile s.checksumValidBlockCount (t.setState .ok) = s₁
    rcases wellShaped_or_misshaped (rowTypes K data) with hsh | ⟨e, he⟩
    · rcases validateBlock_finished (s := s₁) false hsh .ok with ⟨-, hv⟩ | ⟨-, hv⟩
      · rw [bind_eq hv]
        exact .accepted hsh
      by_cases hpr : PrevOk s₁ s.checksumValidBlockCount
      · obtain ⟨c, hc⟩ := getPrevChecksum_ok hpr
        rw [bind_eq (hv.trans (bind_eq hc))]
        exact .accepted hsh
      · obtain ⟨msg, hth⟩ := getPrevChecksum_throws hpr
        rw [bind_error (hv.trans (bind_error hth))]
        exact .thrown hsh hpr
    · rw [bind_eq (validateBlock_refused he .ok)]
      exact .refused he
  · rw [if_neg (by simp), bind_eq (onTile_putTile hlt t _)]
    rcases hst with hst | hst <;> rw [hst] <;> exact .unread hd hre

/-- The next block is not read, and the call throws; or it is, and its rows decide. -/
theorem validateNextChecksum_next (now : Nat) {d : TileDesc F.Body F.Checksum}
    (hb : s.checksumValidBlockCount = b) (hd : (maybeFlushCache K now s).tiles[b]? = some d) :
    ((readTile K s b d).1 = false ∧
      ∃ s', validateNextChecksum K now s = .error (.thrown "bad block file, cannot recover, ") s' ∧
        s'.disk = update s.disk b (readTile K s b d).2.entry) ∨
    (readTile K s b d).1 = true ∧ ∃ data, (readTile K s b d).2.desc.fetchedData = some data ∧
      Verdict K now b data ((maybeFlushCache K now s).putTile b
        ((readTile K s b d).2.setState .ok)) (validateNextChecksum K now s) := by
  subst hb
  obtain ⟨hdi, -, -, hlen, -⟩ := maybeFlushCache_frame (K := K) (s := s) now
  have hlt := (List.getElem?_eq_some_iff.mp hd).1
  have hv := validateNextChecksum_validates K now s
  generalize validateNextChecksum K now s = r at hv ⊢
  cases hv with
  | done hle => omega
  | unread hd' hre =>
    cases hd.symm.trans hd'
    rw [hre]
    exact .inl ⟨rfl, _, rfl, by simp only [putTile, hdi]⟩
  | read hd' hre hda hv =>
    cases hd.symm.trans hd'
    rw [hre]
    exact .inr ⟨rfl, _, hda, hv⟩

/-- The next block is read and counted: its file is in order and not open, its type bytes are
as they should be, and the state of the tile before it is OK. -/
theorem validateNextChecksum_reads {now : Nat} {d : TileDesc F.Body F.Checksum}
    (hva : s.checksumValidBlockCount = b)
    (hd : (maybeFlushCache K now s).tiles[b]? = some d) (hh : d.fileHandle = none)
    (hst : Stores K.RecCount (s.disk b) rs) (hsh : WellShaped (rowTypes K rs))
    (hpr : b = 0 ∨ ∃ d', (maybeFlushCache K now s).tiles[b - 1]? = some d' ∧ d'.state = .ok) :
    ∃ data t, validateNextChecksum K now s
        = .ok (true, .ok) (countBlock K data ((maybeFlushCache K now s).putTile b t)) ∧
      (∀ j < K.RecCount, data j = rs j) ∧ t.entry = s.disk b ∧
      t.desc.fetchedData = some data ∧ t.desc.state = .ok ∧ Synced K.RecCount t rs := by
  have hlt := (List.getElem?_eq_some_iff.mp hd).1
  obtain ⟨hok, -⟩ := syncFromFile_closed (t := ⟨_, d⟩) true hst hh
  obtain ⟨he, -, -, hh', data, hda, hro⟩ := syncFromFile_synced (t := ⟨_, d⟩) true ⟨hst, .inl hh⟩
  have hty : rowTypes K data = rowTypes K rs :=
    List.map_congr_left fun j hj => by rw [hro j (List.mem_range.mp hj)]
  obtain ⟨-, data', hda', hv⟩ := (validateNextChecksum_next now hva hd).resolve_left
    fun h => Bool.false_ne_true (h.1.symm.trans hok)
  cases hda.symm.trans hda'
  generalize validateNextChecksum K now s = r at hv ⊢
  generalize ht : (readTile K s b d).2 = t at hv
  rw [readTile] at ht
  rw [ht] at he hh' hda
  cases hv with
  | refused hmis => exact absurd (hty ▸ hsh) hmis.not_wellShaped
  | accepted =>
    exact ⟨data, t.setState .ok, rfl, hro, he, hda, rfl,
      ⟨by show Stores K.RecCount t.entry _; rw [he]; exact hst, .inr (.inr ⟨hh', data, hda, hro⟩)⟩⟩
  | thrown _ hno =>
    refine absurd ?_ hno
    by_cases h0 : b = 0
    · exact .inl h0
    · obtain ⟨d', hd', hst'⟩ := hpr.resolve_left h0
      refine .inr ⟨d', ?_, hst'⟩
      rw [putTile_tiles hlt, if_neg (by omega)]
      exact hd'

/-- A `replace_block` that returned true, up to what it wrote. -/
theorem replaceBlock_ok {i now : Nat} {data : Nat → Row F.Body} {ec : ExitCode}
    (heq : replaceBlock K i data now s = .ok (true, ec) s') :
    ∃ d t', (maybeFlushCache K now s).tiles[i]? = some d ∧ WellShaped (rowTypes K data) ∧
      (Tile.setTileData data ⟨s.disk i, d⟩).syncToFile K.RecCount F.zeroBody true
        = some (true, t') ∧
      s' = (maybeFlushCache K now s).putTile i t' := by
  obtain ⟨hdi, -⟩ := maybeFlushCache_frame now
  unfold replaceBlock at heq
  rw [modify_bind, get_bind] at heq
  rw [← hdi]
  generalize maybeFlushCache K now s = s₁ at heq
  split at heq
  · cases heq
  · next hlt =>
    have hlt' : i < s₁.tiles.length := Nat.not_le.mp hlt
    have hd := List.getElem?_eq_getElem hlt'
    obtain ⟨⟨good, ec'⟩, s₂, hval, hre⟩ := bind_ok heq
    cases good with
    | false => cases hre
    | true =>
      obtain ⟨hsh, rfl⟩ := validateBlock_true hval
      have hupd : updTile i (Tile.setTileData data) s₂
          = .ok () (s₂.putTile i (Tile.setTileData data ⟨s₂.disk i, s₂.tiles[i]⟩)) :=
        onTile_ok _ hd
      dsimp only at hre
      rw [if_neg (by decide), bind_eq hupd] at hre
      obtain ⟨w, s₃, hw, hret⟩ := bind_ok hre
      obtain ⟨r, s₄, hr, hpu⟩ := bind_ok hw
      rw [onTile_putTile hlt'] at hr
      cases hsy : Tile.syncToFile K.RecCount F.zeroBody true
          (Tile.setTileData data ⟨s₂.disk i, s₂.tiles[i]⟩) with
      | none =>
        rw [hsy] at hr
        cases hr
        cases hpu
      | some bt =>
        obtain ⟨b, t'⟩ := bt
        rw [hsy] at hr
        cases hr
        cases hpu
        cases w with
        | false => cases hret
        | true =>
          cases hret
          exact ⟨_, t', hd, hsh, hsy, rfl⟩

/-! ## Block after block -/

/-- A chain opened over `disk` after `i` blocks have been accepted. -/
structure Opened (disk : Nat → Entry F.Body) (fc i : Nat) (s : Blockchain F) : Prop where
  disk_eq : s.disk = disk
  length_eq : s.tiles.length = fc
  valid_eq : s.checksumValidBlockCount = i
  prev : i = 0 ∨ ∃ d, s.tiles[i - 1]? = some d ∧ d.state = .ok
  rest : ∀ b d, i ≤ b → s.tiles[b]? = some d → d.fileHandle = none

/-- What a block file must be to be accepted. -/
def Accepted (K : Params) (e : Entry F.Body) : Prop :=
  checkFile2 K.RecCount e = .ok ∧ WellShaped ((fileRows e).map Row.type)

instance (K : Params) (e : Entry F.Body) : Decidable (Accepted K e) :=
  inferInstanceAs (Decidable (_ ∧ _))

/-- One call of `validate_next_checksum` that has to say yes. -/
def validateStep (K : Params) (s : Blockchain F) (now : Nat) : Option (Blockchain F) :=
  match validateNextChecksum K now s with
  | .ok (true, _) s' => some s'
  | _ => none

theorem create_opened (disk : Nat → Entry F.Body) (fc : Nat) :
    Opened disk fc 0 (create K disk fc) where
  disk_eq := rfl
  length_eq := by simp [create]
  valid_eq := rfl
  prev := .inl rfl
  rest := by
    intro b d _ hd
    simp only [create, List.getElem?_map] at hd
    obtain ⟨i, -, rfl⟩ := Option.map_eq_some_iff.mp hd
    rfl

theorem Opened.flush {fc i : Nat} (h : Opened disk fc i s) (now : Nat) :
    Opened disk fc i (maybeFlushCache K now s) := by
  obtain ⟨hdi, -, hva, hlen, -⟩ := maybeFlushCache_frame (K := K) (s := s) now
  refine ⟨hdi.trans h.disk_eq, hlen.trans h.length_eq, hva.trans h.valid_eq,
    h.prev.imp_right ?_, fun b d hb hd => ?_⟩
  · rintro ⟨d, hd, hst⟩
    have hlt := hlen ▸ (List.getElem?_eq_some_iff.mp hd).1
    refine ⟨_, List.getElem?_eq_getElem hlt, ?_⟩
    obtain ⟨d₀, hd₀, ⟨-, hok⟩ | ⟨heq, -⟩⟩ := maybeFlushCache_desc (List.getElem?_eq_getElem hlt)
    · exact hok
    · cases hd.symm.trans hd₀
      rw [heq]
      exact hst
  · obtain ⟨d₀, hd₀, ⟨hno, -⟩ | ⟨rfl, -⟩⟩ := maybeFlushCache_desc hd
    · exact hno
    · exact h.rest b d hb hd₀

theorem rowTypes_stores {e : Entry F.Body}
    (h : Stores K.RecCount e rs) (hr : ∀ i < K.RecCount, r i = rs i) :
    rowTypes K r = (fileRows e).map Row.type := by
  rw [fileRows_stores h, List.map_map, rowTypes]
  exact List.map_congr_left fun i hi => by
    rw [hr i (List.mem_range.mp hi)]
    rfl

section Accept

variable {disk : Nat → Entry F.Body} {fc i : Nat}

/-- A block of an opened chain whose file is in order and whose type bytes are is accepted. -/
theorem validateNextChecksum_accepts (h : Opened disk fc i s) (hi : i < fc)
    (hacc : Accepted K (disk i)) (now : Nat) :
    Returns (validateNextChecksum K now) s fun r s' => r.1 = true ∧ Opened disk fc (i + 1) s' := by
  have hf := h.flush (K := K) now
  obtain ⟨hdi, -⟩ := maybeFlushCache_frame now
  have hlt : i < (maybeFlushCache K now s).tiles.length := by
    rw [hf.length_eq]
    exact hi
  have hd := List.getElem?_eq_getElem hlt
  obtain ⟨rs, hst⟩ := stores_of_checkFile2 hacc.1
  have hsh : WellShaped (rowTypes K rs) := by
    rw [rowTypes_stores hst fun _ _ => rfl]
    exact hacc.2
  rw [← h.disk_eq] at hst
  obtain ⟨data, t, heq, -, he, -, hok, -⟩ := validateNextChecksum_reads h.valid_eq hd
    (hf.rest i _ (Nat.le_refl i) hd) hst hsh hf.prev
  refine ⟨_, _, heq, rfl, ?_, ?_, ?_, .inr ⟨t.desc, ?_, hok⟩, ?_⟩
  · -- the object is as before but for tile `i`, whose file is the same
    funext b
    show ((maybeFlushCache K now s).putTile i t).disk b = disk b
    rw [putTile_disk, hdi, ← h.disk_eq]
    split
    · rename_i hb
      rw [hb]
      exact he
    · rfl
  · show ((maybeFlushCache K now s).putTile i t).tiles.length = fc
    rw [putTile_length, hf.length_eq]
  · show (maybeFlushCache K now s).checksumValidBlockCount + 1 = i + 1
    rw [hf.valid_eq]
  · show ((maybeFlushCache K now s).putTile i t).tiles[i + 1 - 1]? = _
    rw [Nat.add_sub_cancel, putTile_tiles hlt, if_pos rfl]
  · intro b d hb hd'
    have hd'' : ((maybeFlushCache K now s).putTile i t).tiles[b]? = some d := hd'
    rw [putTile_tiles hlt, if_neg (by omega)] at hd''
    exact hf.rest b d (by omega) hd''

/-- Any other call does not say yes. -/
theorem validateNextChecksum_refuses (h : Opened disk fc i s)
    (hbad : fc ≤ i ∨ ¬ Accepted K (disk i)) (now : Nat) (ec : ExitCode) (s' : Blockchain F) :
    validateNextChecksum K now s ≠ .ok (true, ec) s' := by
  intro heq
  have hf := h.flush (K := K) now
  have hv := validateNextChecksum_validates K now s
  rw [heq] at hv
  cases hv with
  | @read d t data _ hd hre hda hv =>
  rw [h.valid_eq] at hd hre
  have hlt := (List.getElem?_eq_some_iff.mp hd).1
  have hh := hf.rest i d (Nat.le_refl i) hd
  rw [readTile, h.disk_eq] at hre
  have hacc := hbad.resolve_left (by rw [← hf.length_eq]; exact Nat.not_le.mpr hlt)
  by_cases hch : checkFile2 K.RecCount (disk i) = .ok
  · -- the file is read, and its type bytes are wrong
    obtain ⟨rs, hst⟩ := stores_of_checkFile2 hch
    obtain ⟨-, -, -, -, data', hda', hro⟩ :=
      syncFromFile_synced (t := ⟨disk i, d⟩) true ⟨hst, .inl hh⟩
    rw [hre] at hda'
    cases hda.symm.trans hda'
    cases hv with
    | accepted hsh => exact hacc ⟨hch, rowTypes_stores hst hro ▸ hsh⟩
  · obtain ⟨hno, -⟩ := syncFromFile_bad (t := ⟨disk i, d⟩) true
      (Nat.lt_of_lt_of_le Nat.zero_lt_two K.two_le) hch hh
    rw [hre] at hno
    cases hno

/-- The acceptance of the next block, in one line. -/
theorem validateStep_isSome (h : Opened disk fc i s) (now : Nat) :
    (∃ s', validateStep K s now = some s') ↔ i < fc ∧ Accepted K (disk i) := by
  constructor
  · rintro ⟨s', hs⟩
    by_contra hno
    have hbad : fc ≤ i ∨ ¬ Accepted K (disk i) := by
      rcases Nat.lt_or_ge i fc with hi | hi
      · exact .inr fun hacc => hno ⟨hi, hacc⟩
      · exact .inl hi
    unfold validateStep at hs
    split at hs
    · exact validateNextChecksum_refuses h hbad now _ _ ‹_›
    · cases hs
  · rintro ⟨hi, hacc⟩
    obtain ⟨⟨b, ec⟩, s', heq, hb, -⟩ := validateNextChecksum_accepts h hi hacc now
    cases hb
    exact ⟨s', by simp only [validateStep, heq]⟩

theorem validateStep_opened (h : Opened disk fc i s) {now : Nat} {s' : Blockchain F}
    (hs : validateStep K s now = some s') : Opened disk fc (i + 1) s' := by
  obtain ⟨hi, hacc⟩ := (validateStep_isSome h now).mp ⟨s', hs⟩
  obtain ⟨⟨b, ec⟩, s'', heq, hb, hop⟩ := validateNextChecksum_accepts h hi hacc now
  cases hb
  rw [validateStep, heq] at hs
  cases hs
  exact hop

/-- After `times.length` yeses that many blocks have been accepted. -/
theorem run_opened {times : List Nat} {s₀ : Blockchain F} (h : Opened disk fc i s₀)
    (hrun : run (validateStep K) s₀ times = some s) : Opened disk fc (i + times.length) s := by
  induction times generalizing i s₀ with
  | nil =>
    cases hrun
    exact h
  | cons now times ih =>
    obtain ⟨s₁, hs₁, hrun₁⟩ := run_cons hrun
    have := ih (validateStep_opened h hs₁) hrun₁
    rwa [Nat.add_assoc, Nat.add_comm 1] at this

/-- A reopened chain is accepted exactly when every block is, by itself. -/
theorem validateAll_iff (disk : Nat → Entry F.Body) (fc : Nat) (times : List Nat) :
    (∃ s, run (validateStep K) (create K disk fc) times = some s) ↔
      times.length ≤ fc ∧ ∀ b < times.length, Accepted K (disk b) := by
  have general : ∀ (times : List Nat) (i : Nat) (s₀ : Blockchain F), i ≤ fc → Opened disk fc i s₀ →
      ((∃ s, run (validateStep K) s₀ times = some s) ↔
        i + times.length ≤ fc ∧ ∀ b, i ≤ b → b < i + times.length → Accepted K (disk b)) := by
    intro times
    induction times with
    | nil =>
      intro i s₀ hi h
      refine ⟨fun _ => ⟨hi, fun b hb hb' => ?_⟩, fun _ => ⟨s₀, rfl⟩⟩
      rw [List.length_nil] at hb'
      omega
    | cons now times ih =>
      intro i s₀ hi h
      rw [List.length_cons]
      constructor
      · rintro ⟨s, hrun⟩
        obtain ⟨s₁, hs₁, hrun₁⟩ := run_cons hrun
        obtain ⟨hlt, hacc⟩ := (validateStep_isSome h now).mp ⟨s₁, hs₁⟩
        obtain ⟨hle, hre⟩ := (ih (i + 1) s₁ hlt (validateStep_opened h hs₁)).mp ⟨s, hrun₁⟩
        refine ⟨by omega, fun b hb hb' => ?_⟩
        by_cases hbi : b = i
        · rw [hbi]
          exact hacc
        · exact hre b (by omega) (by omega)
      · rintro ⟨hle, hall⟩
        obtain ⟨s₁, hs₁⟩ := (validateStep_isSome h now).mpr
          ⟨by omega, hall i (Nat.le_refl i) (by omega)⟩
        obtain ⟨s, hrun⟩ := (ih (i + 1) s₁ (by omega) (validateStep_opened h hs₁)).mpr
          ⟨by omega, fun b hb hb' => hall b (by omega) (by omega)⟩
        exact ⟨s, by simp only [run, hs₁, hrun]⟩
  have := general times 0 (create K disk fc) (Nat.zero_le _) (create_opened disk fc)
  simpa using this

end Accept

/-! ## The two parts of tamper evidence -/

/-- The last checksum of the block before block `i`. -/
def prevStored (F : RowFormat T) (disk : Nat → Entry F.Body) : Nat → F.Checksum
  | 0 => F.zero
  | i + 1 => (checksums F (disk i)).getLastD F.zero

/-- The checksum row of block `i` is the one recomputed over its payload rows. -/
def Recomputes (F : RowFormat T) (disk : Nat → Entry F.Body) (i : Nat) : Prop :=
  checksums F (disk i) = [(payloadRows F (disk i)).foldl F.calcChecksum (prevStored F disk i)]

instance [DecidableEq F.Checksum] (disk : Nat → Entry F.Body) (i : Nat) :
    Decidable (Recomputes F disk i) :=
  inferInstanceAs (Decidable (_ = _))

/-- One row of a file changed. -/
def setRow {Body : Type} (j : Nat) (r : Row Body) : Entry Body → Entry Body
  | .regular f => .regular { f with rows := update f.rows j r }
  | e => e

/-- One row of one block of a folder changed. -/
def changeRow {Body : Type} (disk : Nat → Entry Body) (b j : Nat) (r : Row Body) :
    Nat → Entry Body :=
  update disk b (setRow j r (disk b))

theorem checkFile2_setRow {Body : Type} (N j : Nat) (r : Row Body) (e : Entry Body) :
    checkFile2 N (setRow j r e) = checkFile2 N e := by
  cases e <;> rfl

theorem Holds.accepted (h : Holds K s ps cs) (hb : b < s.tiles.length) : Accepted K (s.disk b) := by
  obtain ⟨d, -, hsy⟩ := h.desc hb
  have hst : Stores K.RecCount (s.disk b) _ := hsy.1
  refine ⟨hst.checkFile2, ?_⟩
  rw [fileRows_stores hst, map_blockRows (chunk_length_lt K ps b)]
  have hne : chunk K ps b ≠ [] := by
    intro hnil
    have hlen := congrArg List.length hnil
    simp only [chunk, List.length_take, List.length_drop, List.length_nil] at hlen
    have hpos := perBlock_pos K
    have hn := Nat.div_add_mod' ps.length (perBlock K)
    have hb' := hb
    rw [h.tiles_length, blockCount] at hb'
    have hmul : b * perBlock K ≤ ps.length / perBlock K * perBlock K := by
      apply Nat.mul_le_mul_right
      split at hb' <;> omega
    split at hb'
    · have := Nat.mul_le_mul_right (perBlock K) hb'
      rw [Nat.add_zero, Nat.succ_mul] at this
      omega
    · omega
  refine ⟨(chunk K ps b).map fun _ => RecordType.payload,
    K.RecCount - (chunk K ps b).length - 1, ?_, ?_, ?_⟩
  · simp [comp_def]
  · obtain ⟨p, l, hl⟩ := List.exists_cons_of_ne_nil hne
    rw [hl]
    exact List.mem_cons_self
  · intro x hx
    obtain ⟨p, -, rfl⟩ := List.mem_map.mp hx
    decide

/-- A chain written by `append` and changed in one row is refused exactly when the
change spoils the type bytes of its block. -/
theorem changed_refused_iff (h : Holds K s ps cs)
    (hb : b < s.tiles.length) (j : Nat) (r : Row F.Body) {times : List Nat}
    (htm : times.length = s.tiles.length) :
    run (validateStep K) (create K (changeRow s.disk b j r) s.tiles.length) times = none ↔
      ¬ WellShaped ((fileRows (setRow j r (s.disk b))).map Row.type) := by
  have hall := validateAll_iff (K := K) (changeRow s.disk b j r) s.tiles.length times
  have hb' : Accepted K (changeRow s.disk b j r b)
      ↔ WellShaped ((fileRows (setRow j r (s.disk b))).map Row.type) := by
    rw [changeRow, update_self, Accepted, checkFile2_setRow]
    exact and_iff_right (h.accepted hb).1
  rw [← hb', ← not_iff_not, not_not, ← ne_eq, ← Option.isSome_iff_ne_none,
    Option.isSome_iff_exists, hall, htm]
  constructor
  · rintro ⟨-, hacc⟩
    exact hacc b hb
  · intro hacc
    refine ⟨Nat.le_refl _, fun b' hlt => ?_⟩
    by_cases hbb : b' = b
    · rw [hbb]
      exact hacc
    · rw [changeRow, update_of_ne hbb]
      exact h.accepted hlt

theorem run_holds {ops : List (ChainOp T)}
    (hrun : run (opStep K) (create K disk 0) ops = some s) : ∃ ps cs, Holds K s ps cs :=
  run_keeps (fun s : Blockchain F => ∃ ps cs, Holds K s ps cs) (fun _ _ _ ⟨ps, cs, h⟩ hs => by
      rcases (opStep_cases h hs).2 with ⟨-, h'⟩ | ⟨p, now, -, h'⟩
      · exact ⟨_, _, h'⟩
      · exact ⟨_, _, h'⟩)
    ⟨[], fun _ => F.zero, holds_nil rfl rfl rfl _⟩ hrun

/-- **Tamper evidence, as far as it goes.**  For every folder: `true` for block `i`
implies that its checksum row is the recomputed one only where the block is
refused anyhow or the row happens to be right.  For every chain written by
`append` and every change of a row: the reopened chain is refused only where the
change spoils the type bytes of the block. -/
theorem validation_tamper (K : Params) (F : RowFormat T) :
    (∀ (disk : Nat → Entry F.Body) (fc : Nat) (times : List Nat) (s : Blockchain F) (now : Nat),
      run (validateStep K) (create K disk fc) times = some s →
        ((∀ ec s', validateNextChecksum K now s = .ok (true, ec) s' →
            Recomputes F disk times.length) ↔
          (fc ≤ times.length ∨ ¬ Accepted K (disk times.length) ∨
            Recomputes F disk times.length))) ∧
    (∀ (disk : Nat → Entry F.Body) (ops : List (ChainOp T)) (s : Blockchain F),
      run (opStep K) (create K disk 0) ops = some s →
        ∀ b < s.tiles.length, ∀ (j : Nat) (r : Row F.Body) (times : List Nat),
          times.length = s.tiles.length →
          (run (validateStep K) (create K (changeRow s.disk b j r) s.tiles.length) times = none ↔
            ¬ WellShaped ((fileRows (setRow j r (s.disk b))).map Row.type))) := by
  refine ⟨fun disk fc times s now hrun => ?_, fun disk ops s hrun b hb j r times htm => ?_⟩
  · have hop := run_opened (create_opened disk fc) hrun
    rw [Nat.zero_add] at hop
    constructor
    · intro H
      by_cases hi : times.length < fc
      · by_cases hacc : Accepted K (disk times.length)
        · obtain ⟨⟨b, ec⟩, s', heq, hb, -⟩ := validateNextChecksum_accepts hop hi hacc now
          cases hb
          exact .inr (.inr (H ec s' heq))
        · exact .inr (.inl hacc)
      · exact .inl (Nat.not_lt.mp hi)
    · rintro H ec s' heq
      rcases H with hi | hacc | hlaw
      · exact absurd heq (validateNextChecksum_refuses hop (.inl hi) now ec s')
      · exact absurd heq (validateNextChecksum_refuses hop (.inr hacc) now ec s')
      · exact hlaw
  · obtain ⟨ps, cs, h⟩ := run_holds hrun
    exact changed_refused_iff h hb j r htm

/-- A chain of one row, written and reopened: its block is accepted and right.  With
its payload row turned into an EMPTY one it is refused. -/
theorem validation_tamper_oneRow :
    ∃ s, run (opStep fourRows) (create fourRows (fun _ => .missing) 0) [.append 7 0] = some s ∧
      (∀ ec s', validateNextChecksum fourRows 0 (create fourRows s.disk 1) = .ok (true, ec) s' →
        Recomputes (digestFormat Nat) s.disk 0) ∧
      run (validateStep fourRows)
        (create fourRows (changeRow s.disk 0 0 (digestFormat Nat).blankRow) 1) [0] = none := by
  obtain ⟨s, hs, hlen, hlaw, hsh⟩ : ∃ s, run (opStep fourRows)
      (create fourRows (fun _ => .missing) 0) [.append 7 0] = some s ∧ s.tiles.length = 1 ∧
      Recomputes (digestFormat Nat) s.disk 0 ∧ ¬ WellShaped ((fileRows (setRow 0
        (digestFormat Nat).blankRow (s.disk 0))).map Row.type) := by decide
  refine ⟨s, hs, ?_, ?_⟩
  · exact ((validation_tamper fourRows (digestFormat Nat)).1 s.disk 1 [] _ 0 rfl).mpr
      (.inr (.inr hlaw))
  · have := ((validation_tamper fourRows (digestFormat Nat)).2 _ _ s hs 0 (by omega) 0
      (digestFormat Nat).blankRow [0] (by rw [hlen]; rfl)).mpr hsh
    rwa [hlen] at this

/-- With the payload of that row replaced the reopened chain is accepted, although
the checksum is collision-free and its row is not the recomputed one. -/
theorem changed_payload_accepted : Injective2 (digestFormat Nat).calcChecksum ∧
    ∃ s, run (opStep fourRows) (create fourRows (fun _ => .missing) 0) [.append 7 0] = some s ∧
      ∃ ec s', validateNextChecksum fourRows 0
          (create fourRows (changeRow s.disk 0 0 ((digestFormat Nat).payloadRow 8)) 1)
            = .ok (true, ec) s' ∧
        ¬ Recomputes (digestFormat Nat)
          (changeRow s.disk 0 0 ((digestFormat Nat).payloadRow 8)) 0 := by
  refine ⟨digestFormat_injective, ?_⟩
  obtain ⟨s, hs, hacc, hlaw⟩ : ∃ s, run (opStep fourRows)
      (create fourRows (fun _ => .missing) 0) [.append 7 0] = some s ∧
      Accepted fourRows (changeRow s.disk 0 0 ((digestFormat Nat).payloadRow 8) 0) ∧
      ¬ Recomputes (digestFormat Nat)
        (changeRow s.disk 0 0 ((digestFormat Nat).payloadRow 8)) 0 := by decide
  obtain ⟨⟨b, ec⟩, s', heq, hb, -⟩ := validateNextChecksum_accepts
    (create_opened (changeRow s.disk 0 0 ((digestFormat Nat).payloadRow 8)) 1) (by decide)
    hacc 0
  cases hb
  exact ⟨s, hs, ec, s', heq, hlaw⟩

end GradidoNode.Blockchain
