/-
# `GradidoNode.Storage.Failures` — an `append` that fails half-way

`append` is not transactional (a TODO in its source says so): it changes counters, the
vector of tiles and one or two rows of a file one after the other, and a failure in
between is reported by `false` and nothing else.  What it leaves depends on where it
struck:

    new block       counters and tile are there already, the file is not whole
    first write     fopen or the first fseek          nothing has changed
                    fwrite or the second fseek        the old checksum row, or a torn one
    second write    the new payload is where the checksum was, and no checksum behind it

`writeLeaves` is what a failing `write` leaves in its row, `CleanFailure` a failure after
which the chain is as it was before (`append_atomic_iff`).

The chains are those whose blocks are filled one after the other as `rec_count` says
(`Laid`); the script of failures is arbitrary.  `get_block` is looked at as it answers
when nothing fails.
-/
import GradidoNode.Storage.Keeps
import GradidoNode.Storage.Mirror
import GradidoNode.Storage.Ready
import GradidoNode.Storage.Counters

namespace GradidoNode

open Function FileTile Lib

/-! ## What a failing `write` leaves -/

namespace FileTile

variable {Body : Type} {N : Nat}

theorem Stores.tear {e : Entry Body} {rs : Nat → Row Body} {i : Nat} (h : Stores N e rs)
    (hi : i < N) (torn : Option (Row Body)) :
    Stores N (TileM.tear i torn e) (update rs i (torn.getD (rs i))) := by
  cases torn with
  | none =>
    rw [Option.getD_none, update_eq_self]
    obtain ⟨f, rfl, hf⟩ := h
    exact ⟨f, rfl, hf⟩
  | some row =>
    obtain ⟨f, rfl, hlen, hsl, hr, hw, hro⟩ := h
    have hte : TileM.tear i (some row) (.regular f)
        = .regular { f with rows := update f.rows i row } := by
      rw [TileM.tear, if_pos (by rw [hlen]; exact hi)]
    refine ⟨_, hte, hlen, hsl, hr, hw, fun j hj => ?_⟩
    show update f.rows i row j = update rs i row j
    by_cases hji : j = i
    · rw [hji, update_self, update_self]
    · rw [update_of_ne hji, update_of_ne hji]
      exact hro j hj

/-- The whole row, or nothing of it. -/
theorem Stores.fwrite {e : Entry Body} {rs : Nat → Row Body} {i : Nat} (h : Stores N e rs)
    (hi : i < N) (record : Row Body) :
    Stores N (Tile.fwrite i 1 (fun _ => record) e) (update rs i record) ∧
      Stores N (Tile.fwrite i 0 (fun _ => record) e) rs := by
  obtain ⟨f, rfl, hlen, hsl, hr, hw, hro⟩ := h
  refine ⟨⟨_, rfl, ?_, hsl, hr, hw, fun j hj => ?_⟩, ⟨_, rfl, ?_, hsl, hr, hw, fun j hj => ?_⟩⟩
  · show max f.len (i + 1) = N
    omega
  · by_cases hji : j = i
    · subst hji
      simp [Tile.File.overwrite]
    · have hou : ¬ (i ≤ j ∧ j < i + 1) := by omega
      rw [update_of_ne hji, ← hro j hj]
      exact if_neg hou
  · show max f.len (i + 0) = N
    omega
  · have hou : ¬ (i ≤ j ∧ j < i + 0) := by omega
    rw [← hro j hj]
    exact if_neg hou

end FileTile

namespace TileM

variable {Body Checksum : Type} {N : Nat} {z : Body}

/-- What is in the row after `fseek`, `fwrite` and `fseek`, when one of them failed. -/
def seekLeaves (old new : Row Body) (script : List (Outcome Body)) : Option (Row Body) :=
  match script.headD .works with
  | .fails _ _ => some old
  | .works =>
    match script.tail.headD .works, script.tail.tail.headD .works with
    | .works, .works => none
    | .works, .fails _ torn => some (torn.getD new)
    | .fails _ torn, .works => some (torn.getD old)
    | .fails _ torn, .fails _ torn' => some (torn'.getD (torn.getD old))

/-- The same for `write`, which may have to open the file before. -/
def writeLeaves (opened : Bool) (old new : Row Body) (script : List (Outcome Body)) :
    Option (Row Body) :=
  if opened then seekLeaves old new script
  else
    match script.headD .works with
    | .fails _ _ => some old
    | .works => seekLeaves old new script.tail

variable {s s₁ : TileOn Body Checksum} {rs : Nat → Row Body} {i : Nat}

/-- How a `write` of row `i` ends: it returns true and the tile is `done`, or it returns false,
the file is closed, and the row is the one left. -/
def WriteEnds (N : Nat) (done : Tile Body Checksum) (rs : Nat → Row Body) (i : Nat)
    (r : EStateM.Result Fault (TileOn Body Checksum) Bool) : Option (Row Body) → Prop
  | none => ∃ s', r = .ok true s' ∧ s'.tile = done
  | some row => ∃ s', r = .ok false s' ∧ Stores N s'.tile.entry (update rs i row) ∧
      s'.tile.desc.fileHandle = none ∧ s'.tile.desc.fetchedData = done.desc.fetchedData

theorem writeEnds_failed {done : Tile Body Checksum} {row : Row Body} {st : TileState}
    (hst : Stores N s.tile.entry (update rs i row))
    (hda : s.tile.desc.fetchedData = done.desc.fetchedData) :
    WriteEnds N done rs i
      ((do setState st; closeFile; return false : TileM Body Checksum Bool) s) (some row) :=
  ⟨_, rfl, hst, rfl, hda⟩

theorem write_fetchedData (hi : i < N) (hst : Stores N s.tile.entry rs) (record : Row Body) :
    (s.tile.write N z record i false).2.desc.fetchedData = s.tile.desc.fetchedData := by
  obtain ⟨t', heq, hde, -⟩ := write_synced record hst hi
  rw [heq, hde]

/-- `write` through an open file. -/
theorem write_opened (hi : i < N) (hst : Stores N s.tile.entry rs)
    (hca : openFile N z s = .ok true s₁) (hop : Opens N z s true s₁) (record : Row Body) :
    WriteEnds N (s.tile.write N z record i false).2 rs i (write N z record i false s)
      (seekLeaves (rs i) record s₁.sys.script) := by
  obtain ⟨pos, hpos⟩ := hop.handle
  have hon := hop.openFile_eq
  rw [openFile_stores hst] at hon
  obtain ⟨-, hs₁⟩ := Prod.mk.inj hon
  have hst₁ : Stores N s₁.tile.entry rs := by rw [← hs₁]; exact hst
  have hda : s₁.tile.desc.fetchedData = (s.tile.write N z record i false).2.desc.fetchedData := by
    rw [write_fetchedData hi hst, ← hs₁]
  have hso : (s₁.tile.desc.fileHandle.map fun _ => i).getD 0 = i := by rw [hpos]; rfl
  obtain ⟨hwh, hno⟩ := hst₁.fwrite hi record
  cases h₁ : s₁.sys.script.headD .works with
  | fails rows torn =>
    rw [seekLeaves, h₁, write, if_neg (Nat.not_le.mpr hi), bind_eq hca, if_pos rfl,
      bind_eq (fseek_fails h₁ i none), if_neg Bool.false_ne_true]
    exact writeEnds_failed (by rw [update_eq_self]; exact hst₁) hda
  | works =>
    cases h₂ : s₁.sys.script.tail.headD .works with
    | works =>
      cases h₃ : s₁.sys.script.tail.tail.headD .works with
      | works =>
        simp only [seekLeaves, h₁, h₂, h₃]
        exact ⟨_, write_worked hi hca hop h₁ h₂ h₃ record, rfl⟩
      | fails rows torn =>
        simp only [seekLeaves, h₁, h₂, h₃]
        rw [write, if_neg (Nat.not_le.mpr hi), bind_eq hca, if_pos rfl,
          bind_eq (fseek_works h₁ i none), if_pos rfl, bind_eq (fwrite_works h₂ 1 _),
          bind_eq (fseek_fails h₃ 0 (some i)), if_neg Bool.false_ne_true]
        refine writeEnds_failed ?_ hda
        have hto := hwh.tear hi torn
        rw [update_self, update_idem] at hto
        simp only [hso, Option.elim_some]
        exact hto
    | fails rows torn =>
      cases h₃ : s₁.sys.script.tail.tail.headD .works with
      | works =>
        simp only [seekLeaves, h₁, h₂, h₃]
        rw [write, if_neg (Nat.not_le.mpr hi), bind_eq hca, if_pos rfl,
          bind_eq (fseek_works h₁ i none), if_pos rfl, bind_eq (fwrite_fails h₂ 1 _),
          bind_eq (fseek_works h₃ 0 (some i)), if_pos rfl, if_neg Bool.false_ne_true]
        refine writeEnds_failed ?_ hda
        simp only [hso, Nat.sub_self, Nat.min_zero, Nat.add_zero]
        exact hno.tear hi torn
      | fails rows' torn' =>
        simp only [seekLeaves, h₁, h₂, h₃]
        rw [write, if_neg (Nat.not_le.mpr hi), bind_eq hca, if_pos rfl,
          bind_eq (fseek_works h₁ i none), if_pos rfl, bind_eq (fwrite_fails h₂ 1 _),
          bind_eq (fseek_fails h₃ 0 (some i)), if_neg Bool.false_ne_true]
        refine writeEnds_failed ?_ hda
        have hto := (hno.tear hi torn).tear hi torn'
        rw [update_self, update_idem] at hto
        simp only [hso, Nat.sub_self, Nat.min_zero, Nat.add_zero, Option.elim_some]
        exact hto

theorem write_ends (hi : i < N) (hst : Stores N s.tile.entry rs) (record : Row Body) :
    WriteEnds N (s.tile.write N z record i false).2 rs i (write N z record i false s)
      (writeLeaves s.tile.desc.fileHandle.isSome (rs i) record s.sys.script) := by
  obtain ⟨o, s₁, hca, hon⟩ := openFile_opens N z s
  have hfit : (s.tile.openFile N z).1 = true := by rw [openFile_stores hst]
  cases hon with
  | already hop =>
    rw [writeLeaves, if_pos hop]
    exact write_opened hi hst hca (.already hop) record
  | opened hcl _ hne =>
    rw [writeLeaves, hcl, if_neg (by simp), hne]
    exact write_opened hi hst hca (.opened hcl hfit hne) record
  | refused _ hno =>
    rw [hfit] at hno
    cases hno
  | failed hcl _ hne =>
    rw [writeLeaves, hcl, if_neg (by simp), hne, write, if_neg (Nat.not_le.mpr hi),
      bind_eq hca, if_neg Bool.false_ne_true]
    refine ⟨_, rfl, ?_, hcl, (write_fetchedData hi hst record).symm⟩
    rw [update_eq_self]
    exact hst

/-! ## What returns true has done its work -/

variable {s' : TileOn Body Checksum}

theorem fseek_true {pos : Nat} {buffered : Option Nat} (h : fseek pos buffered s = .ok true s') :
    s.sys.script.headD .works = .works ∧ s'.sys = advance s.sys := by
  cases hne : s.sys.script.headD .works with
  | works =>
    rw [fseek_works hne] at h
    cases h
    exact ⟨rfl, rfl⟩
  | fails rows torn =>
    rw [fseek_fails hne] at h
    cases h

theorem fwrite_true {n : Nat} {rs : Nat → Row Body} (h : fwrite n rs s = .ok true s') :
    s.sys.script.headD .works = .works ∧ s'.sys = advance s.sys := by
  cases hne : s.sys.script.headD .works with
  | works =>
    rw [fwrite_works hne] at h
    cases h
    exact ⟨rfl, rfl⟩
  | fails rows torn =>
    rw [fwrite_fails hne] at h
    cases h

theorem write_true {record : Row Body} (h : write N z record i false s = .ok true s') :
    s.tile.write N z record i false = (true, s'.tile) := by
  have hwr := h
  by_cases hin : N ≤ i
  · rw [write, if_pos hin] at h
    cases h
  obtain ⟨o, s₁, hca, hop⟩ := openFile_opens N z s
  rw [write, if_neg hin, bind_eq hca] at h
  cases o with
  | false => cases h
  | true =>
    obtain ⟨sought, s₂, hse, h⟩ := bind_ok h
    cases sought with
    | false => cases h
    | true =>
      obtain ⟨res2, s₃, hfw, h⟩ := bind_ok h
      obtain ⟨back, s₄, hba, h⟩ := bind_ok h
      cases back with
      | false => cases h
      | true =>
        cases res2 with
        | false => cases h
        | true =>
          obtain ⟨h₁, hsys₂⟩ := fseek_true hse
          obtain ⟨h₂, hsys₃⟩ := fwrite_true hfw
          obtain ⟨h₃, -⟩ := fseek_true hba
          rw [hsys₃, hsys₂] at h₃
          rw [hsys₂] at h₂
          have hwo := write_worked (Nat.not_le.mp hin) hca hop h₁ h₂ h₃ record
          cases hwo.symm.trans hwr
          refine Prod.ext ?_ rfl
          rw [Tile.write, if_neg hin, hop.openFile_eq]

theorem syncToFile_true (h : syncToFile N z false s = .ok true s') :
    s.tile.syncToFile N z false = some (true, s'.tile) := by
  have hsy := h
  rw [syncToFile, get_bind] at h
  cases hd : s.tile.desc.fetchedData with
  | none =>
    rw [hd] at h
    cases h
  | some data =>
    rw [hd] at h
    obtain ⟨o, s₁, hca, hop⟩ := openFile_opens N z s
    dsimp only at h
    rw [bind_eq hca] at h
    cases o with
    | false => cases h
    | true =>
      obtain ⟨res, s₂, hfw, h⟩ := bind_ok h
      cases res with
      | false => cases h
      | true =>
        obtain ⟨h₁, -⟩ := fwrite_true hfw
        obtain ⟨t, ht, hwo⟩ := syncToFile_worked hd hca hop h₁
        cases hwo.symm.trans hsy
        exact ht

end TileM

namespace Machine

variable {T : Type} {F : RowFormat T} {K : Params} {M M' : Machine F}

theorem follows_onTile {α : Type} {P : α → Prop} {m : TileM F.Body F.Checksum α}
    {f : Tile F.Body F.Checksum → α × Tile F.Body F.Checksum} (i : Nat)
    (hf : ∀ s x s', m s = .ok x s' → P x → f s.tile = (x, s'.tile)) :
    Follows Machine.chain P (onTile i m) (Blockchain.onTile i f) := by
  intro M x M' h hx
  obtain ⟨d, r, hd, hm, rfl⟩ := onTile_returned h
  rw [Blockchain.onTile_ok f hd, hf _ _ _ hm hx]

theorem onChain_returned {α : Type} {m : Blockchain.ChainM F α} {x : α}
    (h : onChain m M = .ok x M') :
    ∃ s, m M.chain = .ok x s ∧ M' = { M with chain := s } := by
  rw [onChain] at h
  cases hca : m M.chain with
  | ok y s =>
    rw [hca] at h
    cases h
    exact ⟨s, rfl, rfl⟩
  | error e s =>
    rw [hca] at h
    cases h

theorem follows_onChain {α : Type} (m : Blockchain.ChainM F α) :
    Follows Machine.chain Any (onChain m) m := by
  intro M x M' h _
  obtain ⟨s, hs, rfl⟩ := onChain_returned h
  exact hs

theorem follows_getChain : Follows Machine.chain Any (getChain : MachineM F (Blockchain F)) get := by
  intro M x M' h _
  cases h
  rfl

theorem follows_maybeFlushCache (now : Nat) :
    Follows Machine.chain Any (maybeFlushCache K now : MachineM F Unit)
      (modify (Blockchain.maybeFlushCache K now)) := by
  intro M x M' h _
  rw [(maybeFlushCache_ok h).1]
  rfl

theorem follows_getTileData (i : Nat) :
    Follows Machine.chain Any (onTile i TileM.getTileData : MachineM F (Option (Nat → Row F.Body)))
      (Blockchain.onTile i Tile.getTileData) := by
  refine follows_onTile i fun s x s' h _ => ?_
  cases h
  rfl

theorem follows_write (record : Row F.Body) (i pos : Nat) : Follows Machine.chain (· = true)
      (onTile i (TileM.write K.RecCount F.zeroBody record pos false) : MachineM F Bool)
      (Blockchain.onTile i fun t => t.write K.RecCount F.zeroBody record pos false) := by
  refine follows_onTile i fun s x s' h hx => ?_
  subst hx
  exact TileM.write_true h

theorem follows_syncToFile (i : Nat) : Follows Machine.chain (· = true)
      (onTile i (TileM.syncToFile K.RecCount F.zeroBody false) : MachineM F Bool)
      (Blockchain.syncTileToFile K i false) := by
  intro M x M' h hx
  subst hx
  obtain ⟨d, r, hd, hm, rfl⟩ := onTile_returned h
  have ht := TileM.syncToFile_true hm
  show EStateM.bind _ _ _ = _
  simp only [EStateM.bind, Blockchain.onTile_ok _ hd, ht]
  rfl

theorem follows_closeLastTile :
    Follows Machine.chain Any (closeLastTile : MachineM F Unit) Blockchain.closeLastTile := by
  refine follows_getChain.andThen fun s => .ite (follows_onTile _ fun s x s' h _ => ?_) (.pure _)
  cases h
  rfl

theorem follows_firstRows (record cr : Row F.Body) (i : Nat) : Follows Machine.chain Any
      (onTile i (do
        TileM.allocTileData F.zeroBody
        TileM.updateTile (Blockchain.setFirstRows record cr)) : MachineM F Unit)
      (Blockchain.updTile i (Blockchain.setFirstRows record cr)) := by
  refine follows_onTile i fun s x s' h _ => ?_
  obtain ⟨sys, hal, -⟩ := TileM.allocTileData_eq s
  rw [bind_eq hal] at h
  cases h
  obtain ⟨⟨entry, ⟨state, fetchedData, fileHandle, sup, lastUse⟩⟩, sys⟩ := s
  cases fetchedData <;> rfl

theorem follows_appendNewBlock (record : Row F.Body) :
    Follows Machine.chain (fun r => r.1 = true) (appendNewBlock K record)
      (Blockchain.appendNewBlock K record) := by
  refine follows_closeLastTile.andThen fun _ => follows_getChain.andThen fun s => ?_
  refine (follows_onChain _).andThen fun prev => (follows_onChain _).andThen fun _ => ?_
  have hap : Follows Machine.chain Any (appendTile : MachineM F Unit)
      (modify Blockchain.appendTile) := by
    intro M x M' h _
    cases h
    rfl
  refine hap.andThen fun _ => (follows_firstRows _ _ _).andThen fun _ => ?_
  refine (follows_onChain _).andThen fun _ => (follows_syncToFile _).bind (fun _ _ => .pure _) ?_
  intro written M r M' hw h hr
  cases written with
  | true => exact hw rfl
  | false =>
    cases h
    cases hr

theorem follows_appendInBlock (record : Row F.Body) (blockPos : Nat) :
    Follows Machine.chain (fun r => r.1 = true) (appendInBlock K record blockPos)
      (Blockchain.appendInBlock K record blockPos) := by
  refine follows_getChain.andThen fun s => (follows_getTileData _).andThen fun data => ?_
  cases data with
  | none => exact .throw _ _
  | some r =>
    -- a write that returned false makes the call return false
    refine (follows_write _ _ _).bind (fun w hw => ?_) fun w M x M' hw h hx => ?_
    · subst hw
      refine (follows_write _ _ _).bind (fun w hw => ?_) fun w M x M' hw h hx => ?_
      · subst hw
        exact (follows_onChain _).andThen fun _ => .pure _
      · obtain rfl := Bool.eq_false_iff.mpr hw
        cases h
        cases hx
    · obtain rfl := Bool.eq_false_iff.mpr hw
      cases h
      cases hx

/-- An `append` that returned true did what it does when nothing fails. -/
theorem follows_append (p : T) (now : Nat) :
    Follows Machine.chain (fun r => r.1 = true) (append (F := F) K p now)
      (Blockchain.append K p now) :=
  (follows_maybeFlushCache now).andThen fun _ => follows_getChain.andThen fun _ =>
    .ite (follows_appendNewBlock _) (follows_appendInBlock _ _)

end Machine

/-! ## Nothing has changed -/

namespace Blockchain

variable {T : Type} {F : RowFormat T} {K : Params} {s s' : Blockchain F}
  {rs : Nat → Nat → Row F.Body}

/-- The last row in use of the last block is a CHECKSUM row. -/
def EndsWithChecksum (s : Blockchain F) : Prop :=
  ∀ b, b + 1 = s.tiles.length →
    (filledRows (s.disk b)).getLast?.map Row.type = some RecordType.checksum

/-- What can be seen of the chain is what it was. -/
structure Unchanged (K : Params) (s s' : Blockchain F) : Prop where
  recCount : getRecCount s' = getRecCount s
  blockCount : getBlockCount s' = getBlockCount s
  validCount : getChecksumValidBlockCount s' = getChecksumValidBlockCount s
  visible : ∀ b now, blockReply K s' b now = blockReply K s b now
  ends : EndsWithChecksum s'

theorem Filled.endsWithChecksum {r : Nat → Row F.Body} {u : Nat} (h : Filled K r u)
    {e : Entry F.Body} (hst : Stores K.RecCount e r) :
    (filledRows e).getLast?.map Row.type = some RecordType.checksum := by
  have htwo := h.two_le
  rw [h.filledRows_eq hst, List.getLast?_map, List.getLast?_range, if_neg (by omega)]
  exact congrArg some h.closed

theorem Laid.endsWithChecksum (h : Laid K s rs) : EndsWithChecksum s := by
  intro b hb
  obtain ⟨u, hfi, -⟩ := h.last b hb
  exact hfi.endsWithChecksum (h.tiled.stores (by omega))

theorem laid_nil (htl : s.tiles = []) (hrec : s.recCount = 0) : Laid K s rs where
  tiled := by
    intro b d hd
    rw [htl] at hd
    cases hd
  empty := fun _ => hrec
  full := by
    intro b hb
    rw [htl] at hb
    cases hb
  last := by
    intro b hb
    rw [htl] at hb
    cases hb

theorem Laid.unchanged (h : Laid K s rs) : Unchanged K s s :=
  ⟨rfl, rfl, rfl, fun _ _ => rfl, h.endsWithChecksum⟩

/-- `get_block` shows the rows of a tile in order. -/
theorem Tiled.blockReply (h : Tiled K s rs) {b : Nat} (hb : b < s.tiles.length) (now : Nat) :
    blockReply K s b now = .ok (some ((List.range K.RecCount).map (rs b)), .ok) := by
  obtain ⟨r, s', heq, ⟨data, rfl, hro⟩, -⟩ := h.getBlock hb now
  have hli : rowList K data = (List.range K.RecCount).map (rs b) :=
    List.map_congr_left fun j hj => hro j (List.mem_range.mp hj)
  rw [Blockchain.blockReply, heq, ← hli]
  rfl

/-- Another tile in the place of the last one changes nothing exactly when it has the same
rows. -/
theorem Laid.unchanged_putTile_iff (h : Laid K s rs) (now : Nat) {i : Nat}
    (hi : i + 1 = s.tiles.length) {t : Tile F.Body F.Checksum} {rows : Nat → Row F.Body}
    (ht : Synced K.RecCount t rows) :
    Unchanged K s ((maybeFlushCache K now s).putTile i t) ↔ ∀ j < K.RecCount, rows j = rs i j := by
  obtain ⟨hdi, hrec, hva, hlen, -⟩ := maybeFlushCache_frame (K := K) (s := s) now
  have hlt : i < (maybeFlushCache K now s).tiles.length := by omega
  have htl := (h.tiled.flush now).putTile hlt ht
  have hlen' : ((maybeFlushCache K now s).putTile i t).tiles.length = s.tiles.length :=
    (putTile_length _ _ _).trans hlen
  constructor
  · intro hsa j hj
    have hv := hsa.visible i 0
    rw [htl.blockReply (by omega), h.tiled.blockReply (by omega), update_self] at hv
    have hro := Option.some.inj (Prod.mk.inj (Except.ok.inj hv)).1
    exact List.map_inj_left.mp hro j (List.mem_range.mpr hj)
  · intro hsa
    have hro : ∀ b, (List.range K.RecCount).map (update rs i rows b)
        = (List.range K.RecCount).map (rs b) := by
      intro b
      by_cases hb : b = i
      · rw [hb, update_self]
        exact List.map_congr_left fun j hj => hsa j (List.mem_range.mp hj)
      · rw [update_of_ne hb]
    refine ⟨hrec, hlen', hva, fun b now' => ?_, fun b hb => ?_⟩
    · by_cases hb : b < s.tiles.length
      · rw [htl.blockReply (by omega), h.tiled.blockReply hb, hro]
      · rw [getBlock_nowhere (by omega), getBlock_nowhere (by omega)]
    · obtain rfl : b = i := by omega
      obtain ⟨u, hfi, -⟩ := h.last b hi
      refine hfi.endsWithChecksum ?_
      rw [putTile_disk, if_pos rfl]
      exact ht.1.congr hsa

theorem storedRows_eq (s : Blockchain F) : storedRows s
    = ((usedRows s).filter fun r => r.type == RecordType.payload).map fun r => F.payload r.body := by
  have hblock : ∀ e : Entry F.Body, payloadRows F e
      = (filledRows e).filter fun r => r.type == RecordType.payload := by
    intro e
    rw [payloadRows, filledRows, List.filter_filter]
    refine List.filter_congr fun r _ => ?_
    by_cases hr : r.type = RecordType.payload
    · rw [hr]
      rfl
    · rw [beq_eq_false_iff_ne.mpr hr, Bool.false_and]
  rw [storedRows, usedRows, List.filter_flatMap, List.map_flatMap]
  exact List.flatMap_congr fun b _ => by rw [hblock]

/-- Inside a block the last row in use is the checksum `append` overwrites. -/
theorem Laid.usedRows_last (h : Laid K s rs) (hpos : s.recCount % K.RecCount ≠ 0) :
    ∃ row, usedRows s = (usedRows s).dropLast ++ [row] ∧ row.type = RecordType.checksum := by
  obtain ⟨hfi, hcount⟩ := h.inside hpos
  have hle := hfi.le
  obtain ⟨m, hm⟩ : ∃ m, s.recCount = m + 1 := ⟨s.recCount - 1, by omega⟩
  refine ⟨rowOf K rs m, ?_, ?_⟩
  · rw [h.usedRows_eq, hm, List.range_succ, List.map_append, List.map_singleton,
      List.dropLast_concat]
  · rw [show m = (s.tiles.length - 1) * K.RecCount + (s.recCount % K.RecCount - 1) by omega,
      rowOf_block _ (by omega)]
    exact hfi.closed

/-- An `append` that succeeded stored its payload, and counts it. -/
theorem Laid.append_stores (h : Laid K s rs) {p : T} (ha : Appended K s rs p s') :
    ∃ rs', Laid K s' rs' ∧ storedRows s' = storedRows s ++ [p] ∧ s.recCount < s'.recCount := by
  obtain ⟨rs', c, hla, hus⟩ := h.append ha
  refine ⟨rs', hla, ?_, ?_⟩
  · have hnew : ([F.payloadRow p, F.checksumRow c].filter fun r => r.type == RecordType.payload).map
        (fun r => F.payload r.body) = [p] := by
      rw [List.filter_cons_of_pos (by rfl), List.filter_cons_of_neg (by simp [RecordType.checksum,
        RecordType.payload]), List.filter_nil, List.map_singleton, F.payload_payloadRow]
    rw [storedRows_eq, storedRows_eq, hus, List.filter_append, List.map_append, hnew]
    congr 2
    by_cases hpos : s.recCount % K.RecCount = 0
    · rw [if_pos hpos]
    · rw [if_neg hpos]
      obtain ⟨row, hls, hrow⟩ := h.usedRows_last hpos
      conv_rhs => rw [hls, List.filter_append]
      rw [List.filter_cons_of_neg (by simp [hrow, RecordType.checksum, RecordType.payload]),
        List.filter_nil, List.append_nil]
  · cases ha with
    | newBlock _ _ hrec _ _ | inBlock _ _ _ hrec _ _ => omega

end Blockchain

namespace Machine

open Blockchain (fourRows Laid storedRows Unchanged fileRows setFirstRows getRecCount getBlockCount Filled blockReply)

variable {T : Type} {F : RowFormat T} {K : Params} {M M' : Machine F}

/-! ## Where the failure struck -/

/-- The first write inside a block fails and leaves its row as it was. -/
def CleanFailure (K : Params) (M : Machine F) (p : T) : Prop :=
  M.chain.recCount % K.RecCount ≠ 0 ∧ ∃ d row, M.chain.lastDesc = some d ∧ (fileRows
        (M.chain.disk (M.chain.tiles.length - 1)))[M.chain.recCount % K.RecCount - 1]? = some row ∧
      TileM.writeLeaves d.fileHandle.isSome row (F.payloadRow p) M.sys.script = some row

variable {i u now : Nat} {r : Bool × ExitCode} {p : T} {rows : Nat → Row F.Body}
  {rs : Nat → Nat → Row F.Body} {record : Row F.Body} {ec ec' : ExitCode} {recs : List (T × Nat)}

theorem onTile_putTile {α : Type} {m : TileM F.Body F.Checksum α} {x : α}
    {t : Tile F.Body F.Checksum} {sys : System F.Body} {r : TileOn F.Body F.Checksum}
    (hi : i < M.chain.tiles.length) (h : m ⟨t, sys⟩ = .ok x r) :
    onTile i m { M with chain := M.chain.putTile i t, sys := sys }
      = .ok x { M with chain := M.chain.putTile i r.tile, sys := r.sys } := by
  have hd : (M.chain.putTile i t).tiles[i]? = some t.desc := by simp [Blockchain.putTile, hi]
  have ht : (⟨(M.chain.putTile i t).disk i, t.desc⟩ : Tile F.Body F.Checksum) = t := by
    simp [Blockchain.putTile]
  have hput := onTile_eq (M := { M with chain := M.chain.putTile i t, sys := sys }) hd
    (by rw [ht]; exact h)
  simpa only [Blockchain.putTile_putTile] using hput

/-- How an `append` inside a block ends, when it does: the first write fails, or the second,
or none. -/
inductive InBlock (K : Params) (M : Machine F) (rows : Nat → Row F.Body) (p : T)
    (d : TileDesc F.Body F.Checksum) (u : Nat) : Bool → Blockchain F → Prop
  | first {row : Row F.Body} {t : Tile F.Body F.Checksum}
      (hleaves : TileM.writeLeaves d.fileHandle.isSome (rows (u - 1)) (F.payloadRow p) M.sys.script
        = some row)
      (ht : Synced K.RecCount t (update rows (u - 1) row)) :
      InBlock K M rows p d u false (M.chain.putTile (M.chain.tiles.length - 1) t)
  | second {row : Row F.Body} {t : Tile F.Body F.Checksum}
      (hleaves : TileM.writeLeaves d.fileHandle.isSome (rows (u - 1)) (F.payloadRow p) M.sys.script
        = none)
      (ht : Synced K.RecCount t
        (update (update rows (u - 1) (F.payloadRow p)) u row)) :
      InBlock K M rows p d u false (M.chain.putTile (M.chain.tiles.length - 1) t)
  | stored {s : Blockchain F}
      (hleaves : TileM.writeLeaves d.fileHandle.isSome (rows (u - 1)) (F.payloadRow p) M.sys.script
        = none) : InBlock K M rows p d u true s

theorem appendInBlock_ends
    {d : TileDesc F.Body F.Checksum} (hu : 0 < u) (hfit : u < K.RecCount)
    (hd : M.chain.lastDesc = some d)
    (hst : Stores K.RecCount (M.chain.disk (M.chain.tiles.length - 1)) rows)
    (h : appendInBlock K (F.payloadRow p) u M = .ok r M') : InBlock K M rows p d u r.1 M'.chain := by
  have hi : M.chain.tiles.length - 1 < M.chain.tiles.length := (List.getElem?_eq_some_iff.mp hd).1
  rw [appendInBlock, getChain_bind, Blockchain.lastIndex_eq (by omega),
    bind_eq (onTile_eq hd (rfl : TileM.getTileData _ = .ok d.fetchedData _))] at h
  cases hda : d.fetchedData with
  | none =>
    rw [hda] at h
    cases h
  | some data =>
    rw [hda] at h
    dsimp only at h
    have hfi : TileM.WriteEnds K.RecCount _ rows (u - 1) _
        (TileM.writeLeaves d.fileHandle.isSome (rows (u - 1)) (F.payloadRow p) M.sys.script) :=
      TileM.write_ends (z := F.zeroBody)
        (s := ⟨Tile.setState .ok ⟨M.chain.disk (M.chain.tiles.length - 1), d⟩, M.sys⟩) (by omega)
        hst (F.payloadRow p)
    cases hlv : TileM.writeLeaves d.fileHandle.isSome (rows (u - 1)) (F.payloadRow p)
        M.sys.script with
    | some row =>
      rw [hlv] at hfi
      obtain ⟨s₁, hca, hst₁, hha, -⟩ := hfi
      rw [bind_eq (onTile_putTile hi hca), if_neg Bool.false_ne_true] at h
      cases h
      exact .first hlv ⟨hst₁, .inl hha⟩
    | none =>
      rw [hlv] at hfi
      obtain ⟨s₁, hca, htl⟩ := hfi
      rw [bind_eq (onTile_putTile hi hca), if_pos rfl] at h
      obtain ⟨t₁, hwr, -, hst₁⟩ := write_synced (i := u - 1)
        (t := Tile.setState .ok ⟨M.chain.disk (M.chain.tiles.length - 1), d⟩) (F.payloadRow p)
        hst (by omega)
      replace htl : s₁.tile = t₁ := by rw [htl, hwr]
      rw [← htl] at hst₁
      have hse := TileM.write_ends (z := F.zeroBody) hfit hst₁
        (F.checksumRow (F.calcChecksum (F.checksum (data (u - 1)).body) (F.payloadRow p)))
      cases hle' : TileM.writeLeaves s₁.tile.desc.fileHandle.isSome
          (update rows (u - 1) (F.payloadRow p) u)
          (F.checksumRow (F.calcChecksum (F.checksum (data (u - 1)).body) (F.payloadRow p)))
          s₁.sys.script with
      | some row =>
        rw [hle'] at hse
        obtain ⟨s₂, hca', hst₂, hha, -⟩ := hse
        rw [bind_eq (onTile_putTile hi hca'), if_neg Bool.false_ne_true] at h
        cases h
        exact .second hlv ⟨hst₂, .inl hha⟩
      | none =>
        rw [hle'] at hse
        obtain ⟨s₂, hca', -⟩ := hse
        rw [bind_eq (onTile_putTile hi hca'), if_pos rfl] at h
        cases h
        exact .stored hlv

/-- A row that is written is not the one that is there. -/
theorem payloadRow_ne_closed (h : Filled K rows u)
    (p : T) : F.payloadRow p ≠ rows (u - 1) := by
  intro heq
  have hcl := h.closed
  rw [← heq, F.payloadRow_type] at hcl
  exact absurd hcl (by decide)

/-- An `append` inside the last block. -/
theorem append_inBlock (hM : Laid K M.chain rs)
    (hpos : M.chain.recCount % K.RecCount ≠ 0)
    (h : append K p now M = .ok r M') :
    (CleanFailure K M p → r.1 = false) ∧
      (r.1 = false → (Unchanged K M.chain M'.chain ↔ CleanFailure K M p)) := by
  obtain ⟨hfi, -⟩ := hM.inside hpos
  have hso : 0 < M.chain.tiles.length :=
    Nat.pos_of_ne_zero fun h0 => hpos (by rw [hM.empty h0, Nat.zero_mod])
  have hfit : M.chain.recCount % K.RecCount < K.RecCount :=
    Nat.mod_lt _ (Nat.lt_of_lt_of_le Nat.zero_lt_two K.two_le)
  have hst := hM.tiled.stores (b := M.chain.tiles.length - 1) (by omega)
  obtain ⟨d, hd⟩ : ∃ d, M.chain.lastDesc = some d :=
    ⟨_, List.getElem?_eq_getElem (by omega : M.chain.tiles.length - 1 < M.chain.tiles.length)⟩
  obtain ⟨u, M₁, hfl, h⟩ := bind_ok h
  obtain ⟨hch, hsc⟩ := maybeFlushCache_ok hfl
  obtain ⟨hdi, hrec, -, hlen, hla⟩ := Blockchain.maybeFlushCache_frame now
  rw [getChain_bind, hch, hrec, if_neg hpos] at h
  have hen := appendInBlock_ends (Nat.pos_of_ne_zero hpos) hfit
    (by rw [hch, hla]; exact hd) (by rw [hch, hlen, hdi]; exact hst) h
  -- what `CleanFailure` says of the row
  have hcl : CleanFailure K M p ↔ TileM.writeLeaves d.fileHandle.isSome
      (rs (M.chain.tiles.length - 1) (M.chain.recCount % K.RecCount - 1)) (F.payloadRow p)
      M.sys.script = some (rs (M.chain.tiles.length - 1) (M.chain.recCount % K.RecCount - 1)) := by
    have hrow : (fileRows (M.chain.disk
        (M.chain.tiles.length - 1)))[M.chain.recCount % K.RecCount - 1]?
          = some (rs (M.chain.tiles.length - 1) (M.chain.recCount % K.RecCount - 1)) := by
      exact Blockchain.fileRows_getElem? hst (by omega)
    refine ⟨?_, fun hlv => ⟨hpos, d, _, hd, hrow, hlv⟩⟩
    rintro ⟨-, d', row, hd', hrow', hlv⟩
    cases hd.symm.trans hd'
    cases hrow.symm.trans hrow'
    exact hlv
  rw [hcl, ← hsc]
  have hput : ∀ {t : Tile F.Body F.Checksum} {rows : Nat → Row F.Body},
      Synced K.RecCount t rows → _ :=
    fun ht => hM.unchanged_putTile_iff now (i := M.chain.tiles.length - 1) (by omega) ht
  rw [← hlen, ← hch] at hput
  rw [← hlen, ← hch] at hfi hen ⊢
  generalize M.chain.recCount % K.RecCount = u at *
  generalize r.1 = stored at *
  generalize M'.chain = s' at *
  cases hen with
  | @first row t hlv ht =>
    rw [hlv, hput ht]
    refine ⟨fun _ => rfl, fun _ => ⟨fun hsa => ?_, fun hrow => ?_⟩⟩
    · have hrow := hsa (u - 1) (by omega)
      rw [update_self] at hrow
      rw [hrow]
    · intro j _
      cases hrow
      rw [update_eq_self]
  | @second row t hlv ht =>
    rw [hlv, hput ht]
    refine ⟨fun _ => rfl, fun _ => ⟨fun hsa => ?_, fun hrow => by cases hrow⟩⟩
    have hrow := hsa (u - 1) (by omega)
    rw [update_of_ne (by omega), update_self] at hrow
    exact absurd hrow (payloadRow_ne_closed hfi p)
  | stored hlv =>
    rw [hlv]
    refine ⟨fun hrow => ?_, fun hfa => ?_⟩
    · cases hrow
    · cases hfa

/-! ## Counted rows -/

theorem onTile_recCount {α : Type} {m : TileM F.Body F.Checksum α} {x : α}
    (h : onTile i m M = .ok x M') : M'.chain.recCount = M.chain.recCount := by
  obtain ⟨d, r, -, -, rfl⟩ := onTile_returned h
  rfl

theorem appendNewBlock_recCount
    (h : appendNewBlock K record M = .ok r M') : M'.chain.recCount = M.chain.recCount + 2 := by
  obtain ⟨_, M₁, h₁, h⟩ := bind_ok h
  rw [getChain_bind] at h
  obtain ⟨prev, M₂, h₂, h⟩ := bind_ok h
  obtain ⟨_, M₃, h₃, h⟩ := bind_ok h
  obtain ⟨_, M₄, h₄, h⟩ := bind_ok h
  obtain ⟨_, M₅, h₅, h⟩ := bind_ok h
  obtain ⟨_, M₆, h₆, h⟩ := bind_ok h
  obtain ⟨written, M₇, h₇, h⟩ := bind_ok h
  have hcl : M₁.chain.recCount = M.chain.recCount := by
    rw [closeLastTile, getChain_bind] at h₁
    split at h₁
    · exact onTile_recCount h₁
    · cases h₁
      rfl
  have hpr : M₂.chain = M₁.chain := by
    obtain ⟨s, hs, rfl⟩ := onChain_returned h₂
    exact Blockchain.getPrevChecksum_state hs
  have hva : M₃.chain.recCount = M₂.chain.recCount := by
    cases h₃
    exact (Blockchain.advanceValid_frame M₂.chain).2.2
  have hnew : M₄.chain.recCount = M₃.chain.recCount := by
    cases h₄
    rfl
  have hco : M₆.chain.recCount = M₅.chain.recCount + 2 := by
    cases h₆
    rfl
  cases h
  rw [onTile_recCount h₇, hco, onTile_recCount h₅, hnew, hva, hpr, hcl]

theorem appendInBlock_recCount {blockPos : Nat} (h : appendInBlock K record blockPos M = .ok r M') :
    M.chain.recCount ≤ M'.chain.recCount := by
  rw [appendInBlock, getChain_bind] at h
  obtain ⟨data, M₁, h₁, h⟩ := bind_ok h
  rw [← onTile_recCount h₁]
  cases data with
  | none => cases h
  | some data =>
    obtain ⟨written, M₂, h₂, h⟩ := bind_ok h
    rw [← onTile_recCount h₂]
    cases written with
    | false =>
      cases h
      exact Nat.le_refl _
    | true =>
      obtain ⟨written, M₃, h₃, h⟩ := bind_ok h
      rw [← onTile_recCount h₃]
      cases written with
      | false =>
        cases h
        exact Nat.le_refl _
      | true =>
        cases h
        exact Nat.le_succ _

theorem append_recCount_le
    (h : append K p now M = .ok r M') : M.chain.recCount ≤ M'.chain.recCount := by
  obtain ⟨_, M₁, hfl, h⟩ := bind_ok h
  have hsa : M₁.chain.recCount = M.chain.recCount := by
    rw [(maybeFlushCache_ok hfl).1, (Blockchain.maybeFlushCache_frame now).2.1]
  rw [getChain_bind] at h
  rw [← hsa]
  split at h
  · rw [appendNewBlock_recCount h]
    exact Nat.le_add_right _ _
  · exact appendInBlock_recCount h

/-- Where the failure of a single `append` leaves the chain as it was. -/
theorem append_failed (hM : Laid K M.chain rs)
    (h : append K p now M = .ok (false, ec) M') :
    Unchanged K M.chain M'.chain ↔ CleanFailure K M p := by
  by_cases hpos : M.chain.recCount % K.RecCount = 0
  · refine ⟨fun hsa => ?_, fun hcl => absurd hpos hcl.1⟩
    -- a new block has been counted
    obtain ⟨_, M₁, hfl, h⟩ := bind_ok h
    have hrec : M₁.chain.recCount = M.chain.recCount := by
      rw [(maybeFlushCache_ok hfl).1, (Blockchain.maybeFlushCache_frame now).2.1]
    rw [getChain_bind, hrec, if_pos hpos] at h
    have hcount := appendNewBlock_recCount h
    have hsa : M'.chain.recCount = M.chain.recCount := hsa.recCount
    omega
  · exact (append_inBlock hM hpos h).2 rfl

/-! ## Several records -/

/-- The loop of `ValidatedMultipartBlockchain::append`; each `append` reads the time. -/
def appendAll (K : Params) : List (T × Nat) → ExitCode → MachineM F (Bool × ExitCode)
  | [], ec => return (true, ec)
  | (p, now) :: recs, _ => do
    let (stored, ec) ← append K p now
    if stored then appendAll K recs ec else return (false, ec)

/-- `ValidatedMultipartBlockchain::append`. -/
def multipartAppend (K : Params) (isValid : List T → Bool) (recs : List (T × Nat)) (ec : ExitCode) :
    MachineM F (Bool × ExitCode) :=
  if isValid (recs.map Prod.fst) then appendAll K recs ec else return (false, ec)

/-- It returns true and all payloads are stored, or it returns false and nothing is. -/
def AllOrNone (K : Params) (s s' : Blockchain F) (stored : Bool) (ps : List T) : Prop :=
  if stored then storedRows s' = storedRows s ++ ps
  else Unchanged K s s'

theorem appendAll_recCount_le
    (h : appendAll K recs ec M = .ok r M') : M.chain.recCount ≤ M'.chain.recCount := by
  induction recs generalizing M ec with
  | nil =>
    cases h
    exact Nat.le_refl _
  | cons rec recs ih =>
    obtain ⟨⟨stored, ec'⟩, M₁, hfi, h⟩ := bind_ok h
    refine Nat.le_trans (append_recCount_le hfi) ?_
    dsimp only at h
    split at h
    · exact ih h
    · cases h
      exact Nat.le_refl _

theorem append_stored (hM : Laid K M.chain rs)
    (h : append K p now M = .ok (true, ec) M') :
    ∃ rs', Laid K M'.chain rs' ∧
      storedRows M'.chain = storedRows M.chain ++ [p] ∧
      M.chain.recCount < M'.chain.recCount :=
  hM.append_stores (Blockchain.append_appended hM.tiled (follows_append p now M _ M' h rfl))

/-- All `append`s of a loop that returned true did. -/
theorem appendAll_stored
    (hM : Laid K M.chain rs) (h : appendAll K recs ec M = .ok (true, ec') M') :
    storedRows M'.chain = storedRows M.chain ++ recs.map Prod.fst := by
  induction recs generalizing M ec rs with
  | nil =>
    cases h
    rw [List.map_nil, List.append_nil]
  | cons rec recs ih =>
    obtain ⟨⟨stored, ec₁⟩, M₁, hfi, h⟩ := bind_ok h
    cases stored with
    | false => cases h
    | true =>
      obtain ⟨rs₁, hM₁, hst, -⟩ := append_stored hM hfi
      rw [ih hM₁ h, hst, List.map_cons, List.append_assoc]
      rfl

/-- A loop that returned false left things as they were just if its first `append` did. -/
theorem appendAll_failed
    (hM : Laid K M.chain rs) (h : appendAll K recs ec M = .ok (false, ec') M') :
    Unchanged K M.chain M'.chain ↔
      ∃ p now rest, recs = (p, now) :: rest ∧ CleanFailure K M p := by
  cases recs with
  | nil => cases h
  | cons rec recs =>
    obtain ⟨p, now⟩ := rec
    have hhe : (∃ p' now' rest, (p, now) :: recs = (p', now') :: rest ∧ CleanFailure K M p') ↔
        CleanFailure K M p := by
      refine ⟨?_, fun hcl => ⟨p, now, recs, rfl, hcl⟩⟩
      rintro ⟨p', now', rest, heq, hcl⟩
      cases heq
      exact hcl
    obtain ⟨⟨stored, ec₁⟩, M₁, hfi, h⟩ := bind_ok h
    rw [hhe]
    cases stored with
    | false =>
      cases h
      exact append_failed hM hfi
    | true =>
      -- one record is stored, and stays
      obtain ⟨-, -, -, hmo⟩ := append_stored hM hfi
      have hle := appendAll_recCount_le h
      refine ⟨fun hsa => ?_, fun hcl => ?_⟩
      · have hsa : M'.chain.recCount = M.chain.recCount := hsa.recCount
        omega
      · exact absurd ((append_inBlock hM hcl.1 hfi).1 hcl) (by simp)

/-- **Atomicity.**  On a chain whose blocks are filled one after the other, whatever calls of
the C library fail: an `append` that returns false leaves what can be seen of the chain as it
was exactly when its first write inside a block failed and left the row alone; and an `append`
of several records stores all or none exactly when it returns true, or the validator refuses
them, or the first of them fails in this way. -/
theorem append_atomic_iff (K : Params) (M : Machine F) (rs : Nat → Nat → Row F.Body)
    (hM : Laid K M.chain rs) :
    (∀ (p : T) (now : Nat) (ec : ExitCode) (M' : Machine F), append K p now M = .ok (false, ec) M' →
        (Unchanged K M.chain M'.chain ↔ CleanFailure K M p)) ∧
    ∀ (isValid : List T → Bool) (recs : List (T × Nat)) (ec ec' : ExitCode) (stored : Bool)
      (M' : Machine F), multipartAppend K isValid recs ec M = .ok (stored, ec') M' →
        (AllOrNone K M.chain M'.chain stored (recs.map Prod.fst) ↔
          stored = true ∨ isValid (recs.map Prod.fst) = false ∨
            ∃ p now rest, recs = (p, now) :: rest ∧ CleanFailure K M p) := by
  refine ⟨fun p now ec M' h => append_failed hM h, fun isValid recs ec ec' stored M' h => ?_⟩
  rw [multipartAppend] at h
  cases hva : isValid (recs.map Prod.fst) with
  | false =>
    rw [hva] at h
    cases h
    exact ⟨fun _ => .inr (.inl rfl), fun _ => hM.unchanged⟩
  | true =>
    rw [hva, if_pos rfl] at h
    cases stored with
    | true => exact ⟨fun _ => .inl rfl, fun _ => appendAll_stored hM h⟩
    | false =>
      rw [show AllOrNone K M.chain M'.chain false _ = _ from rfl]
      refine (appendAll_failed hM h).trans ⟨fun hcl => .inr (.inr hcl), ?_⟩
      rintro (h | h | hcl)
      · cases h
      · cases h
      · exact hcl

/-- A chain of blocks of four rows with one payload, in which the calls of `script` are next;
`fopen` and `fwrite` have worked. -/
def onePayload (script : List (Outcome (digestFormat Nat).Body)) : Machine (digestFormat Nat) :=
  stateAfter (append fourRows 7 0
    (create fourRows (fun _ => .missing) 0 (.works :: .works :: script)))

/-- The first `fseek` fails: the chain is as it was. -/
theorem append_atomic_fseek :
    ∃ rs M', Laid fourRows (onePayload [.fails 0 none]).chain rs ∧
      append fourRows 8 0 (onePayload [.fails 0 none]) = .ok (false, .writeError) M' ∧
      Unchanged fourRows (onePayload [.fails 0 none]).chain M'.chain := by
  have hem : Laid fourRows (create
      fourRows (fun _ => .missing) 0 [.works, .works, .fails 0 none]).chain
      fun _ _ => (digestFormat Nat).blankRow :=
    Blockchain.laid_nil rfl rfl
  have hfi : append fourRows 7 0 (create fourRows
      (fun _ => .missing) 0 [.works, .works, .fails 0 none])
        = .ok (true, .ok) (onePayload [.fails 0 none]) := rfl
  obtain ⟨rs, hM, -⟩ := append_stored hem hfi
  refine ⟨rs, _, hM, rfl, ?_⟩
  exact ((append_atomic_iff fourRows _ rs hM).1 8 0 _ _ rfl).mpr
    ⟨by decide, _, _, rfl, rfl, rfl⟩

/-- The `fwrite` of a new block fails, and two rows are counted; the second of two records fails,
and the first is stored. -/
theorem append_fails_counted :
    (∃ M', append fourRows 7 0 (create (F := digestFormat Nat) fourRows
          (fun _ => .missing) 0 [.works, .fails 0 none]) = .ok (false, .writeError) M' ∧
      getRecCount M'.chain = 2 ∧ getBlockCount M'.chain = 1) ∧
    ∃ M', multipartAppend fourRows (fun _ => true) [(7, 0), (8, 0)] .ok
          (create (F := digestFormat Nat) fourRows (fun _ => .missing) 0
            [.works, .works, .fails 0 none]) = .ok (false, .writeError) M' ∧
      storedRows M'.chain = [7] ∧ getRecCount M'.chain = 2 := by
  exact ⟨⟨_, rfl, rfl, rfl⟩, ⟨_, rfl, by decide, rfl⟩⟩

end Machine

end GradidoNode
