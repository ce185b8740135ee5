/-
# `GradidoNode.Storage.Recovery` — what `validate_next_checksum` does with a damaged block

`validate_next_checksum` "attempts to fix where it is possible".  What it does is
decided by the state `sync_from_file` leaves in the tile, and that state is never
MISSING_FILE and never BAD_LENGTH: `open_file` overwrites both.

    the next block file          what the rules ask                what happens
    wrong length                 false, BAD_BLOCK_LENGTH, `.bad`   throws
    missing                      false, no file touched            an empty file is made; throws
    rows refused by the loop     false, the code, `.bad`           that, if the file is read from row 0
    a type byte unknown          false, `.bad`                     true
    not full and not the last    false, the code, `.bad`           true

`validateNextChecksum_recovers_iff` is over every object, whatever calls led to it
and whatever is in the folder.
-/
import GradidoNode.Storage.Reopen

namespace GradidoNode.Blockchain

open Function FileTile Lib

variable {T : Type} {F : RowFormat T} {K : Params} {s : Blockchain F}

/-! ## What the rules ask -/

/-- The type bytes of a file. -/
def entryTypes (e : Entry F.Body) : List UInt8 := (fileRows e).map Row.type

/-- The code that says what is wrong with the rows of block `b`.  There is none for a type byte
outside `RecordType`. -/
inductive MatchingCode (s : Blockchain F) (b : Nat) (tys : List UInt8) : ExitCode → Prop
  | misshaped {e : ExitCode} (h : Misshaped tys e) : MatchingCode s b tys e
  | unknownType {e : ExitCode} (h : WellShaped tys) (hu : ¬ KnownTypes tys) : MatchingCode s b tys e
  | notFull (h : BlockShape tys) (hf : ¬ FullEnough s b false tys) :
      MatchingCode s b tys .onlyLastBlockMayNotBeFull

/-- A block file of the right length with rows that are not those of a block. -/
def Malformed (K : Params) (s : Blockchain F) (b : Nat) : Prop :=
  checkFile2 K.RecCount (s.disk b) = .ok ∧
    ¬ (BlockShape (entryTypes (s.disk b)) ∧ FullEnough s b false (entryTypes (s.disk b)))

/-- The call returns false with `ec`, and block `b` is now a `.bad` file. -/
def MovesToBad (K : Params) (s : Blockchain F) (b now : Nat) (ec : ExitCode) : Prop :=
  Returns (validateNextChecksum K now) s fun r s' =>
    r = (false, ec) ∧ s'.disk = update s.disk b .missing ∧
      s'.badFiles = s.badFiles ++ [(b, now, s.disk b)] ∧ s'.recCount = s.recCount ∧
      s'.checksumValidBlockCount = s.checksumValidBlockCount

/-- The call returns false and touches no file. -/
def LeavesFiles (K : Params) (s : Blockchain F) (now : Nat) : Prop :=
  Returns (validateNextChecksum K now) s fun r s' =>
    r.1 = false ∧ s'.disk = s.disk ∧ s'.badFiles = s.badFiles ∧ s'.recCount = s.recCount ∧
      s'.checksumValidBlockCount = s.checksumValidBlockCount

/-- The recovery of the next block. -/
structure Recovers (K : Params) (s : Blockchain F) (now : Nat) : Prop where
  wrongLength : checkFile2 K.RecCount (s.disk s.checksumValidBlockCount) = .badLength →
    MovesToBad K s s.checksumValidBlockCount now .badBlockLength
  missing : checkFile2 K.RecCount (s.disk s.checksumValidBlockCount) = .missingFile →
    LeavesFiles K s now
  malformed : Malformed K s s.checksumValidBlockCount →
    ∃ ec, MatchingCode s s.checksumValidBlockCount
        (entryTypes (s.disk s.checksumValidBlockCount)) ec ∧
      MovesToBad K s s.checksumValidBlockCount now ec

/-! ## What happens -/

theorem maybeFlushCache_badFiles (now : Nat) : (maybeFlushCache K now s).badFiles = s.badFiles := by
  unfold maybeFlushCache flushCache
  split
  · split <;> rfl
  · rfl

section Calls

variable {b now : Nat} {d : TileDesc F.Body F.Checksum}

/-- A file that is not in order: the call throws, or what it says is about the rows. -/
theorem validateNextChecksum_notInOrder (hb : s.checksumValidBlockCount = b)
    (hd : (maybeFlushCache K now s).tiles[b]? = some d) {ec : ExitCode} {s' : Blockchain F}
    (heq : validateNextChecksum K now s = .ok (false, ec) s') : ec ≠ .badBlockLength := by
  rcases validateNextChecksum_next now hb hd with ⟨-, s'', hth, -⟩ | ⟨-, data, -, hv⟩
  · cases hth.symm.trans heq
  · rw [heq] at hv
    cases hv with
    | refused he => exact he.ne_badBlockLength

theorem readTile_missing (hmi : s.disk b = .missing) : (readTile K s b d).1 = false := by
  have hne : ¬ 0 = K.RecCount := by
    have := K.two_le
    omega
  unfold readTile
  rw [hmi]
  cases hh : d.fileHandle with
  | none =>
    simp [Tile.syncFromFile, Tile.openFile, hh, checkFile2, createdFile, Tile.available, hne]
  | some p => simp [Tile.syncFromFile, Tile.openFile, hh, Tile.setState, Tile.available, hne]

theorem validateNextChecksum_missing (now : Nat) (hb : s.checksumValidBlockCount = b)
    (hd : (maybeFlushCache K now s).tiles[b]? = some d) (hmi : s.disk b = .missing) :
    ∃ s', validateNextChecksum K now s = .error (.thrown "bad block file, cannot recover, ") s' ∧
      s'.disk = update s.disk b (readTile K s b d).2.entry :=
  ((validateNextChecksum_next now hb hd).resolve_right fun h =>
    Bool.false_ne_true ((readTile_missing hmi).symm.trans h.1)).2

end Calls

theorem checkFile2_missing {N : Nat} {e : Entry F.Body} (h : checkFile2 N e = .missingFile) :
    e = .missing := by
  cases e with
  | missing => rfl
  | other => cases h
  | regular f =>
    unfold checkFile2 at h
    grind

/-- The next block of any object: it is recovered exactly when the file is there and has the
right length, and, if its rows are malformed, they are rows the loop refuses and are read from
row 0 of the file. -/
theorem recovers_iff {now : Nat} (hne : s.checksumValidBlockCount < s.tiles.length) :
    Recovers K s now ↔ checkFile2 K.RecCount (s.disk s.checksumValidBlockCount) ≠ .badLength ∧
      checkFile2 K.RecCount (s.disk s.checksumValidBlockCount) ≠ .missingFile ∧
      (Malformed K s s.checksumValidBlockCount →
        ¬ WellShaped (entryTypes (s.disk s.checksumValidBlockCount)) ∧
        ∀ d, (maybeFlushCache K now s).tiles[s.checksumValidBlockCount]? = some d →
          d.fileHandle.getD 0 = 0) := by
  generalize hb : s.checksumValidBlockCount = b at *
  have hN : 0 < K.RecCount := Nat.lt_of_lt_of_le Nat.zero_lt_two K.two_le
  obtain ⟨hdi, hrec, hva, hlen, -⟩ := maybeFlushCache_frame (K := K) (s := s) now
  have hd : (maybeFlushCache K now s).tiles[b]? = some (maybeFlushCache K now s).tiles[b] :=
    List.getElem?_eq_getElem (by omega)
  generalize (maybeFlushCache K now s).tiles[b] = d at hd
  constructor
  · rintro ⟨hwr, hmi, hmal⟩
    rw [hb] at hwr hmi hmal
    refine ⟨fun hw => ?_, fun hm => ?_, fun hm => ?_⟩
    · obtain ⟨r, s', heq, rfl, -⟩ := hwr hw
      exact validateNextChecksum_notInOrder hb hd heq rfl
    · obtain ⟨r, s', heq, -⟩ := hmi hm
      obtain ⟨s'', hth, -⟩ := validateNextChecksum_missing now hb hd (checkFile2_missing hm)
      cases hth.symm.trans heq
    · obtain ⟨ec, -, r, s', heq, rfl, -⟩ := hmal hm
      obtain ⟨rs, hst⟩ := stores_of_checkFile2 hm.1
      rcases validateNextChecksum_next now hb hd with ⟨-, s'', hth, -⟩ | ⟨hre, data, hda, hv⟩
      · cases hth.symm.trans heq
      · have h0 : d.fileHandle.getD 0 = 0 := (syncFromFile_reads_iff true hN hst).mp hre
        refine ⟨fun hsh => ?_, fun d' hd' => ?_⟩
        · obtain ⟨-, -, -, -, data', hda', hro⟩ := syncFromFile_synced
            (t := ⟨s.disk b, d⟩) true ⟨hst, handleOk_of_getD h0 rs⟩
          cases hda.symm.trans hda'
          rw [heq] at hv
          cases hv with
          | refused he => exact he.not_wellShaped (rowTypes_stores hst hro ▸ hsh)
        · cases hd.symm.trans hd'
          exact h0
  · rintro ⟨hwr, hmi, hmal⟩
    refine ⟨fun hw => absurd (hb ▸ hw) hwr, fun hm => absurd (hb ▸ hm) hmi, fun hm => ?_⟩
    rw [hb] at hm ⊢
    obtain ⟨hsh, hha⟩ := hmal hm
    have h0 := hha d hd
    obtain ⟨rs, hst⟩ := stores_of_checkFile2 hm.1
    have hre : (readTile K s b d).1 = true := (syncFromFile_reads_iff true hN hst).mpr h0
    obtain ⟨he, -, -, -, data', hda', hro⟩ := syncFromFile_synced
      (t := ⟨s.disk b, d⟩) true ⟨hst, handleOk_of_getD h0 rs⟩
    obtain ⟨-, data, hda, hv⟩ := (validateNextChecksum_next now hb hd).resolve_left
      fun h => Bool.false_ne_true (h.1.symm.trans hre)
    cases hda.symm.trans hda'
    have hty : rowTypes K data' = entryTypes (s.disk b) := rowTypes_stores hst hro
    have hfi : update s.disk b (readTile K s b d).2.entry = s.disk := by
      rw [show (readTile K s b d).2.entry = s.disk b from he, update_eq_self]
    generalize heq : validateNextChecksum K now s = r at hv
    cases hv with
    | refused hmis =>
      refine ⟨_, .misshaped (hty ▸ hmis), _, _, heq, rfl, ?_, ?_, hrec, ?_⟩
      · show update (update (maybeFlushCache K now s).disk b
          (readTile K s b d).2.entry) b .missing = _
        rw [hdi, hfi]
      · show (maybeFlushCache K now s).badFiles ++ [(b, now,
          update (maybeFlushCache K now s).disk b (readTile K s b d).2.entry b)] = _
        rw [hdi, hfi, maybeFlushCache_badFiles]
      · show (maybeFlushCache K now s).checksumValidBlockCount = s.checksumValidBlockCount
        exact hva
    | accepted hwe | thrown hwe => exact absurd (hty ▸ hwe) hsh

/-- **Recovery.**  For every object that has a next block; and for every folder, after any number
of its blocks have been accepted, where the file of the next block is not open yet. -/
theorem validateNextChecksum_recovers_iff (K : Params) (F : RowFormat T) :
    (∀ (s : Blockchain F) (now : Nat), s.checksumValidBlockCount < s.tiles.length →
      (Recovers K s now ↔ checkFile2 K.RecCount (s.disk s.checksumValidBlockCount) ≠ .badLength ∧
        checkFile2 K.RecCount (s.disk s.checksumValidBlockCount) ≠ .missingFile ∧
        (Malformed K s s.checksumValidBlockCount →
          ¬ WellShaped (entryTypes (s.disk s.checksumValidBlockCount)) ∧
          ∀ d, (maybeFlushCache K now s).tiles[s.checksumValidBlockCount]? = some d →
            d.fileHandle.getD 0 = 0))) ∧
    (∀ (disk : Nat → Entry F.Body) (fc : Nat) (times : List Nat) (s : Blockchain F) (now : Nat),
      run (validateStep K) (create K disk fc) times = some s → times.length < fc →
      (Recovers K s now ↔ checkFile2 K.RecCount (disk times.length) ≠ .badLength ∧
        checkFile2 K.RecCount (disk times.length) ≠ .missingFile ∧
        (Malformed K s times.length → ¬ WellShaped (entryTypes (disk times.length))))) := by
  refine ⟨fun s now hne => recovers_iff hne, fun disk fc times s now hrun hfc => ?_⟩
  have hop := run_opened (create_opened disk fc) hrun
  rw [Nat.zero_add] at hop
  have hcl : ∀ d, (maybeFlushCache K now s).tiles[times.length]? = some d →
      d.fileHandle.getD 0 = 0 := by
    intro d hd
    rw [(hop.flush now).rest _ d (Nat.le_refl _) hd]
    rfl
  rw [recovers_iff (by rw [hop.valid_eq, hop.length_eq]; exact hfc), hop.valid_eq, hop.disk_eq,
    and_iff_left hcl]

/-- A file of `n` EMPTY rows. -/
def blankFile (n : Nat) : Entry (digestFormat Nat).Body :=
  .regular { createdFile (digestFormat Nat).zeroBody with len := n }

/-- A folder without block 0 and with block 1. -/
def gapFolder : Nat → Entry (digestFormat Nat).Body :=
  update (fun _ => .missing) 1 (blankFile 4)

/-- A block of EMPTY rows is renamed. -/
theorem validateNextChecksum_recovers_blank :
    Malformed fourRows (create fourRows (fun _ => blankFile 4) 1) 0 ∧
      Recovers fourRows (create fourRows (fun _ => blankFile 4) 1) 0 := by
  have hsh : ¬ BlockShape (entryTypes (blankFile 4)) := by decide
  have hwe : ¬ WellShaped (entryTypes (blankFile 4)) := by decide
  refine ⟨⟨by decide, fun h => hsh h.1⟩, ?_⟩
  exact ((validateNextChecksum_recovers_iff fourRows (digestFormat Nat)).2 (fun _ => blankFile 4) 1
    [] _ 0 rfl (by decide)).mpr ⟨by decide, by decide, fun _ => hwe⟩

/-- A block of three rows where there should be four: the call throws.  A missing block: the call
makes an empty file for it and throws. -/
theorem validateNextChecksum_damaged_throws :
    (∃ s', validateNextChecksum fourRows 0 (create (F := digestFormat Nat) fourRows
        (fun _ => blankFile 3) (getFileCount [0] fun _ => blankFile 3))
      = .error (.thrown "bad block file, cannot recover, ") s') ∧
    gapFolder 0 = .missing ∧
    ∃ s', validateNextChecksum fourRows 0
        (create (F := digestFormat Nat) fourRows gapFolder (getFileCount [1] gapFolder))
          = .error (.thrown "bad block file, cannot recover, ") s' ∧
      s'.disk 0 = blankFile 0 := by
  refine ⟨?_, rfl, ?_⟩
  · exact ⟨_, rfl⟩
  · obtain ⟨s', heq, hdi⟩ := validateNextChecksum_missing 0
      (s := create fourRows gapFolder (getFileCount [1] gapFolder)) (b := 0) rfl rfl rfl
    refine ⟨s', heq, ?_⟩
    rw [hdi, update_self]
    rfl

end GradidoNode.Blockchain
