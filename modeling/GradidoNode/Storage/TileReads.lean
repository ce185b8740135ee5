/-
# `GradidoNode.Storage.TileReads` — what `read` returns after which calls

`write` "writes into file and fetched (if fetched is present)", says its comment.
It writes into the file only.  So a tile is three things that move separately:

    call                    the file            `fetched_data`          the handle
    write rec i             row i := rec        stays                   row 0, or closed
    read i, fetched         stays               stays                   stays
    read i, not fetched     stays               := the file             at the end
    close_file              stays               stays                   closed
    release_fetched_data    stays               null                    stays

`read` answers from `fetched_data`, which is the file as it was at the first read
since the last release (`fetchPoint`).  With nothing fetched it reads the file
from where the handle stands, and at the end of the file there is nothing to read.
`read_latest_iff` puts this together for every sequence of calls.
-/
import GradidoNode.Lib.Exec
import GradidoNode.Storage.TileSpec

namespace GradidoNode.FileTile

open Lib

variable {Body Checksum : Type} {N : Nat} {z : Body}

/-! ## Calls on a tile -/

/-- The calls. -/
inductive TileCall (Body : Type) where
  | write (record : Row Body) (recIndex : Nat) (closeOnExit : Bool)
  | read (recIndex : Nat)
  | closeFile
  | releaseFetchedData

/-- One call, which has to succeed. -/
def tileStep (N : Nat) (z : Body) (t : Tile Body Checksum) :
    TileCall Body → Option (Tile Body Checksum)
  | .write record i c => if (t.write N z record i c).1 then some (t.write N z record i c).2 else none
  | .read i => if (t.read N z i).1.isSome then some (t.read N z i).2 else none
  | .closeFile => some t.closeFile
  | .releaseFetchedData => some t.releaseFetchedData

/-- The rows after one call. -/
def writtenBy (rs : Nat → Row Body) : TileCall Body → Nat → Row Body
  | .write record i _ => Function.update rs i record
  | _ => rs

/-- The record most recently written at each row, or what the file had there. -/
def written (rs : Nat → Row Body) (ops : List (TileCall Body)) : Nat → Row Body :=
  ops.foldl writtenBy rs

/-- The calls made so far, and those made before what is fetched was fetched. -/
def fetchStep : List (TileCall Body) × Option (List (TileCall Body)) → TileCall Body →
    List (TileCall Body) × Option (List (TileCall Body))
  | (ops, none), .read i => (ops ++ [.read i], some ops)
  | (ops, _), .releaseFetchedData => (ops ++ [.releaseFetchedData], none)
  | (ops, point), op => (ops ++ [op], point)

/-- The calls made before the read that fetched what is fetched now. -/
def fetchPoint (ops : List (TileCall Body)) : Option (List (TileCall Body)) :=
  (ops.foldl fetchStep ([], none)).2

theorem foldl_fetchStep (ops : List (TileCall Body)) :
    ops.foldl fetchStep ([], none) = (ops, fetchPoint ops) := by
  have hfst : ∀ (ops pre : List (TileCall Body)) (point : Option (List (TileCall Body))),
      (ops.foldl fetchStep (pre, point)).1 = pre ++ ops := by
    intro ops
    induction ops with
    | nil => intro pre point; simp
    | cons op ops ih =>
      intro pre point
      have hone : (fetchStep (pre, point) op).1 = pre ++ [op] := by
        cases op <;> cases point <;> rfl
      rw [List.foldl_cons, ← Prod.eta (fetchStep (pre, point) op), hone, ih, List.append_assoc]
      rfl
  exact Prod.ext (hfst ops [] none) rfl

theorem fetchPoint_snoc (ops : List (TileCall Body)) (op : TileCall Body) :
    fetchPoint (ops ++ [op]) = (fetchStep (ops, fetchPoint ops) op).2 := by
  rw [fetchPoint, List.foldl_append, foldl_fetchStep]
  rfl

theorem written_snoc (rs : Nat → Row Body) (ops : List (TileCall Body)) (op : TileCall Body) :
    written rs (ops ++ [op]) = writtenBy (written rs ops) op := by
  rw [written, List.foldl_append]
  rfl

/-! ## One call -/

variable {rs : Nat → Row Body}

theorem write_stores {t : Tile Body Checksum} {i : Nat} (record : Row Body) (c : Bool)
    (h : Stores N t.entry rs) (hi : i < N) :
    ∃ t', t.write N z record i c = (true, t') ∧
      t'.desc = { t.desc with fileHandle := if c then none else some 0, state := .ok } ∧
      Stores N t'.entry (Function.update rs i record) := by
  obtain ⟨t', hw, hde, hst⟩ := write_synced record h hi
  cases c with
  | false => exact ⟨t', hw, hde, hst⟩
  | true =>
    have hcl : t.write N z record i true = (true, t'.closeFile) := by
      simp only [Tile.write, Nat.not_le.mpr hi, if_false, Bool.false_eq_true] at hw ⊢
      split at hw
      · cases hw
      · cases hw
        rfl
    refine ⟨t'.closeFile, hcl, ?_, hst⟩
    rw [Tile.closeFile, hde]
    rfl

theorem read_unfetched {t : Tile Body Checksum} {i : Nat} (hi : i < N) (h : Stores N t.entry rs)
    (hd : t.desc.fetchedData = none) :
    (t.desc.fileHandle.getD 0 = 0 ∧ ∃ data, t.read N z i
      = (some (data i), (t.syncFromFile N z true).2) ∧ (∀ j < N, data j = rs j) ∧
        (t.syncFromFile N z true).2.desc.fetchedData = some data) ∨
    (t.desc.fileHandle.getD 0 ≠ 0 ∧ (t.read N z i).1 = none) := by
  have hre := syncFromFile_reads_iff (z := z) true (Nat.zero_lt_of_lt hi) h
  have hrd : t.read N z i = if (t.syncFromFile N z true).1 then
      ((t.syncFromFile N z true).2.desc.fetchedData.map fun data => data i,
        (t.syncFromFile N z true).2)
      else (none, (t.syncFromFile N z true).2) := by
    rw [Tile.read, if_neg (Nat.not_le.mpr hi), hd]
    rcases t.syncFromFile N z true with ⟨ok, t'⟩
    cases ok <;> rfl
  by_cases h0 : t.desc.fileHandle.getD 0 = 0
  · obtain ⟨-, -, -, -, data, hda, hro⟩ := syncFromFile_synced true ⟨h, handleOk_of_getD h0 rs⟩
    refine .inl ⟨h0, data, ?_, hro, hda⟩
    rw [hrd, if_pos (hre.mpr h0), hda]
    rfl
  · refine .inr ⟨h0, ?_⟩
    rw [hrd, if_neg (fun hok => h0 (hre.mp hok))]

/-! ## Runs -/

/-- A tile after the calls `ops`, on a file that had the rows `rs`. -/
structure Tracks (N : Nat) (rs : Nat → Row Body) (ops : List (TileCall Body))
    (t : Tile Body Checksum) : Prop where
  stores : Stores N t.entry (written rs ops)
  fetched : ∀ data, t.desc.fetchedData = some data →
    ∃ pre, fetchPoint ops = some pre ∧ ∀ j < N, data j = written rs pre j
  unfetched : t.desc.fetchedData = none → fetchPoint ops = none
  handle : t.desc.fileHandle = none ∨ t.desc.fileHandle = some 0 ∨ t.desc.fileHandle = some N

theorem Tracks.step {ops : List (TileCall Body)} {t t' : Tile Body Checksum}
    (h : Tracks N rs ops t) {op : TileCall Body} (hs : tileStep N z t op = some t') :
    Tracks N rs (ops ++ [op]) t' := by
  cases op with
  | write record i c =>
    -- the copy, and when it was made, stay as they are
    have hpo : fetchPoint (ops ++ [.write record i c]) = fetchPoint ops := by
      rw [fetchPoint_snoc]
      cases fetchPoint ops <;> rfl
    simp only [tileStep, Option.ite_none_right_eq_some] at hs
    obtain ⟨hok, hs⟩ := hs
    have hi : i < N := by
      by_contra hno
      rw [Tile.write, if_pos (Nat.not_lt.mp hno)] at hok
      cases hok
    obtain ⟨t₁, hw, hde, hst⟩ := write_stores record c h.stores hi
    rw [hw] at hs
    cases hs
    refine ⟨?_, ?_, ?_, ?_⟩
    · rw [written_snoc]
      exact hst
    · intro data hda
      rw [hde] at hda
      rw [hpo]
      exact h.fetched data hda
    · intro hnn
      rw [hde] at hnn
      rw [hpo]
      exact h.unfetched hnn
    · rw [hde]
      cases c
      · exact .inr (.inl rfl)
      · exact .inl rfl
  | read i =>
    simp only [tileStep, Option.ite_none_right_eq_some] at hs
    obtain ⟨hok, hs⟩ := hs
    have hi : i < N := by
      by_contra hno
      rw [Tile.read, if_pos (Nat.not_lt.mp hno)] at hok
      cases hok
    have hwr : written rs (ops ++ [.read i]) = written rs ops := by
      rw [written_snoc]
      rfl
    cases hd : t.desc.fetchedData with
    | some data =>
      obtain ⟨pre, hpre, -⟩ := h.fetched data hd
      have hpo : fetchPoint (ops ++ [.read i]) = fetchPoint ops := by
        rw [fetchPoint_snoc, hpre]
        rfl
      have hsa : t.read N z i = (some (data i), t) := by
        rw [Tile.read, if_neg (Nat.not_le.mpr hi), hd]
      rw [hsa] at hs
      cases hs
      exact ⟨by rw [hwr]; exact h.stores, by rw [hpo]; exact h.fetched,
        by rw [hpo]; exact h.unfetched, h.handle⟩
    | none =>
      have hpo : fetchPoint (ops ++ [.read i]) = some ops := by
        rw [fetchPoint_snoc, h.unfetched hd]
        rfl
      rcases read_unfetched hi h.stores hd with ⟨h0, data, hr, hro, hda⟩ | ⟨-, hnu⟩
      · obtain ⟨he, -, -, hh, -⟩ := syncFromFile_synced true ⟨h.stores, handleOk_of_getD h0 _⟩
        rw [hr] at hs
        cases hs
        refine ⟨by rw [hwr, he]; exact h.stores, fun data' hda' => ?_, fun hnn => ?_,
          .inr (.inr hh)⟩
        · cases hda.symm.trans hda'
          exact ⟨ops, hpo, hro⟩
        · cases hda.symm.trans hnn
      · rw [hnu] at hok
        cases hok
  | closeFile =>
    cases hs
    have hpo : fetchPoint (ops ++ [.closeFile]) = fetchPoint ops := by
      rw [fetchPoint_snoc]
      cases fetchPoint ops <;> rfl
    refine ⟨by rw [written_snoc]; exact h.stores, ?_, ?_, .inl rfl⟩
    · rw [hpo]
      exact h.fetched
    · rw [hpo]
      exact h.unfetched
  | releaseFetchedData =>
    cases hs
    have hpo : fetchPoint (ops ++ [.releaseFetchedData]) = none := by
      rw [fetchPoint_snoc]
      cases fetchPoint ops <;> rfl
    refine ⟨by rw [written_snoc]; exact h.stores, ?_, fun _ => hpo, h.handle⟩
    intro data hda
    cases hda

theorem Tracks.run {ops pre : List (TileCall Body)} {t₀ t : Tile Body Checksum}
    (h : Tracks N rs pre t₀) (hrun : Lib.run (tileStep N z) t₀ ops = some t) :
    Tracks N rs (pre ++ ops) t := by
  induction ops generalizing pre t₀ with
  | nil =>
    cases hrun
    rw [List.append_nil]
    exact h
  | cons op ops ih =>
    obtain ⟨t₁, ht₁, hre⟩ := run_cons hrun
    have := ih (h.step ht₁) hre
    rwa [List.append_assoc] at this

/-- **What a tile reads.**  After any successful calls on a new tile over a file of the right
length, `read(i)` returns the record most recently written at row `i`, or the one the file had,
exactly when the tile is not fetched and its file is not open at the end, or it is fetched and
row `i` has the same record as when it was fetched. -/
theorem read_latest_iff (N : Nat) (z : Body) (zero : Checksum) (st : TileState) (e : Entry Body)
    (rs : Nat → Row Body) (hfile : Stores N e rs) (ops : List (TileCall Body))
    (t : Tile Body Checksum) (hrun : Lib.run (tileStep N z) ⟨e, reset zero st⟩ ops = some t)
    (i : Nat) (hi : i < N) :
    (t.read N z i).1 = some (written rs ops i) ↔
      (t.desc.fetchedData = none ∧ t.desc.fileHandle ≠ some N) ∨
        ∃ pre, fetchPoint ops = some pre ∧ written rs pre i = written rs ops i := by
  have hst : Tracks N rs [] (⟨e, reset zero st⟩ : Tile Body Checksum) :=
    ⟨hfile, fun data hda => (by cases hda), fun _ => rfl, .inl rfl⟩
  have h : Tracks N rs ops t := hst.run hrun
  cases hd : t.desc.fetchedData with
  | some data =>
    obtain ⟨pre, hpre, hro⟩ := h.fetched data hd
    have hre : t.read N z i = (some (data i), t) := by
      rw [Tile.read, if_neg (Nat.not_le.mpr hi), hd]
    rw [hre, hpre, hro i hi, Option.some.injEq]
    constructor
    · intro heq
      exact .inr ⟨pre, rfl, heq⟩
    · rintro (⟨hno, -⟩ | ⟨pre', hpre', heq⟩)
      · cases hno
      · cases hpre'
        exact heq
  | none =>
    have hpo := h.unfetched hd
    have hend : t.desc.fileHandle.getD 0 = 0 ↔ t.desc.fileHandle ≠ some N := by
      rcases h.handle with hh | hh | hh <;> rw [hh]
      · simp
      · simp
        omega
      · simp
        omega
    rcases read_unfetched hi h.stores hd with ⟨h0, data, hr, hro, -⟩ | ⟨h0, hnu⟩
    · rw [hr]
      exact ⟨fun _ => .inl ⟨rfl, hend.mp h0⟩, fun _ => by rw [hro i hi]⟩
    · rw [hnu]
      constructor
      · intro hcon
        cases hcon
      · rintro (⟨-, hne⟩ | ⟨pre, hpre, -⟩)
        · exact absurd (hend.mpr hne) h0
        · rw [hpo] at hpre
          cases hpre

/-- A file of two EMPTY rows. -/
def twoBlankRows : Entry Nat := .regular { createdFile (0 : Nat) with len := 2 }

/-- A row written before anything is read is read. -/
theorem read_latest_fresh : let record : Row Nat := ⟨RecordType.payload, 7⟩
    ∃ t, Lib.run (tileStep 2 0) (⟨twoBlankRows, reset () .ok⟩ : Tile Nat Unit)
        [.write record 0 false] = some t ∧ (t.read 2 0 0).1 = some record := by
  intro record
  have hfi : Stores 2 twoBlankRows fun _ => Row.blank 0 :=
    ⟨_, rfl, rfl, rfl, rfl, rfl, fun _ _ => rfl⟩
  refine ⟨_, rfl, ?_⟩
  exact (read_latest_iff 2 0 () .ok twoBlankRows _ hfi [.write record 0 false] _ rfl 0
    (by decide)).mpr (.inl ⟨rfl, by decide⟩)

/-- A row written after it was read is not: `read` returns the record from before. -/
theorem read_stale : ∃ t, Lib.run (tileStep 2 0) (⟨twoBlankRows, reset () .ok⟩ : Tile Nat Unit)
        [.read 0, .write ⟨RecordType.payload, 7⟩ 0 false] = some t ∧
      (t.read 2 0 0).1 = some (Row.blank 0) := by
  exact ⟨_, rfl, rfl⟩

end GradidoNode.FileTile
