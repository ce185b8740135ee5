/-
# `GradidoNode.Storage.Calls` — any calls on a chain, and what holds of each tile

A chain object after any sequence of `append`, `get_block`,
`validate_next_checksum`, `flush_cache` and `truncate`, over any folder.  A call
that throws leaves the object in use; one whose execution has no meaning ends the
run.

Whatever a call does to a tile it does through the operations of `FileTile::Tile`.
So a property of single tiles that these operations keep (`TileInv`) holds of every
tile of every object (`TileInv.run`), whatever the folder contained.  Here:

* nothing ever sets `last_use` (`tileInv_lastUse`);
* a file at the path of a tile that has it open is no longer than a block, and may be
  read and written (`tileInv_openFits`).
-/
import GradidoNode.Storage.Tamper

namespace GradidoNode.Blockchain

open FileTile Lib

variable {T : Type} {F : RowFormat T} {K : Params} {s s' : Blockchain F}

/-! ## Calls -/

/-- The calls. -/
inductive StoreCall (T : Type) where
  | append (p : T) (now : Nat)
  | getBlock (index now : Nat)
  | validateNextChecksum (now : Nat)
  | flushCache (now : Nat)
  | truncate (first : Nat)

/-- A fault after which the object can still be used. -/
def caught : Fault → Bool
  | .thrown _ => true
  | .undefined _ => false

/-- The object after a call, if it is still in use. -/
def inUse {σ α : Type} (r : EStateM.Result Fault σ α) : Option σ := survivor caught r

/-- One call. -/
def storeStep (K : Params) (s : Blockchain F) : StoreCall T → Option (Blockchain F)
  | .append p now => inUse (Blockchain.append K p now s)
  | .getBlock i now => inUse (Blockchain.getBlock K i now s)
  | .validateNextChecksum now => inUse (Blockchain.validateNextChecksum K now s)
  | .flushCache now => some (Blockchain.flushCache K now s)
  | .truncate first => some (Blockchain.truncate first s)

/-- The rows of a block, as a list. -/
def rowList (K : Params) (data : Nat → Row F.Body) : List (Row F.Body) :=
  (List.range K.RecCount).map data

/-! ## Properties of single tiles -/

/-- Every tile of the object has the property of its index. -/
def AllTiles (P : Nat → Tile F.Body F.Checksum → Prop) (s : Blockchain F) : Prop :=
  ∀ b d, s.tiles[b]? = some d → P b ⟨s.disk b, d⟩

/-- A property kept by what reading and flushing do to a tile. -/
structure ReadInv (K : Params) (P : Nat → Tile F.Body F.Checksum → Prop) : Prop where
  state : ∀ i t, P i t → P i (t.setState .ok)
  close : ∀ i t, P i t → P i t.closeFile
  release : ∀ i t, P i t → P i t.closeFile.releaseFetchedData
  read : ∀ i t, P i t → P i (t.syncFromFile K.RecCount F.zeroBody true).2

/-- A property kept also by what `append` does to a tile. -/
structure WriteInv (K : Params) (P : Nat → Tile F.Body F.Checksum → Prop) : Prop
    extends ReadInv K P where
  write : ∀ i t r j, P i t → P i (t.write K.RecCount F.zeroBody r j false).2
  /-- the tile of a new block, once it is written -/
  sync : ∀ i e r cr b t', (setFirstRows r cr ⟨e, reset F.zero .ok⟩).syncToFile K.RecCount F.zeroBody
    false = some (b, t') → P i t'

/-- A property kept by everything the chain does to a tile. -/
structure TileInv (K : Params) (P : Nat → Tile F.Body F.Checksum → Prop) : Prop
    extends WriteInv K P where
  created : ∀ i e st, P i ⟨e, reset F.zero st⟩
  /-- the file was read and then renamed -/
  moved : ∀ i t, P i t → (t.syncFromFile K.RecCount F.zeroBody true).1 = true →
    P i ⟨.missing, ((t.syncFromFile K.RecCount F.zeroBody true).2.setState .ok).desc⟩

section TileInv

variable {P : Nat → Tile F.Body F.Checksum → Prop}

theorem create_allTiles {disk : Nat → Entry F.Body} {fc : Nat}
    (h : ∀ b < fc, P b ⟨disk b, reset F.zero (checkFile2 K.RecCount (disk b))⟩) :
    AllTiles P (create K disk fc) := by
  intro b d hd
  simp only [create, List.getElem?_map] at hd
  obtain ⟨i, hi, rfl⟩ := Option.map_eq_some_iff.mp hd
  obtain ⟨hlt, rfl⟩ := List.getElem?_eq_some_iff.mp hi
  rw [List.getElem_range]
  exact h b (by simpa using hlt)

variable {i : Nat} {t : Tile F.Body F.Checksum} {E : Fault → Bool} {Q : Blockchain F → Prop}

theorem AllTiles.putTile (h : AllTiles P s) (hi : i < s.tiles.length)
    (ht : P i t) : AllTiles P (s.putTile i t) := by
  intro b d hd
  rw [putTile_tiles hi] at hd
  rw [putTile_disk]
  split at hd
  · next hb =>
    cases hd
    rw [if_pos hb, hb]
    exact ht
  · next hb =>
    rw [if_neg hb]
    exact h b d hd

theorem AllTiles.withTail (h : AllTiles P s)
    (ht : P s.tiles.length t) : AllTiles P (s.withTail t) := by
  intro b d hd
  simp only [Blockchain.withTail] at hd ⊢
  rcases Nat.lt_or_ge b s.tiles.length with hb | hb
  · rw [List.getElem?_append_left hb] at hd
    rw [Function.update_of_ne (Nat.ne_of_lt hb)]
    exact h b d hd
  · rw [List.getElem?_append_right hb] at hd
    obtain ⟨h0, rfl⟩ := List.getElem?_eq_some_iff.mp hd
    rw [List.length_singleton, Nat.lt_one_iff] at h0
    obtain rfl : b = s.tiles.length := by omega
    rw [Function.update_self, List.getElem_singleton]
    exact ht

theorem preserves_putTile {α : Type} {f : Tile F.Body F.Checksum → α × Tile F.Body F.Checksum}
    (hf : ∀ s d, s.tiles[i]? = some d → Q s → Q (s.putTile i (f ⟨s.disk i, d⟩).2)) :
    Preserves caught Q (onTile i f) := by
  intro s s' hs h
  cases hd : s.tiles[i]? with
  | none =>
    rw [onTile_outside f (List.getElem?_eq_none_iff.mp hd)] at h
    cases h
    exact hs
  | some d =>
    rw [onTile_ok f hd] at h
    cases h
    exact hf s d hd hs

theorem preserves_onTile {α : Type}
    {f : Tile F.Body F.Checksum → α × Tile F.Body F.Checksum} (hf : ∀ t, P i t → P i (f t).2) :
    Preserves caught (AllTiles P) (onTile i f) :=
  preserves_putTile fun _ d hd hs =>
    hs.putTile (List.getElem?_eq_some_iff.mp hd).1 (hf _ (hs i d hd))

theorem preserves_look {α : Type} (i : Nat)
    (g : Tile F.Body F.Checksum → α) : Preserves E Q (onTile i fun t => (g t, t)) := by
  intro s s' hs h
  cases hd : s.tiles[i]? with
  | none =>
    rw [onTile_outside _ (List.getElem?_eq_none_iff.mp hd)] at h
    exact Preserves.throw _ s s' hs h
  | some d =>
    rw [onTile_ok _ hd, putTile_self hd] at h
    cases h
    exact hs

theorem preserves_getPrevChecksum (b : Nat) : Preserves E Q (getPrevChecksum b) := by
  refine .ite (.pure _) (.bind (preserves_look _ _) fun r => ?_)
  exact .ite (.pure _) (.throw _)

theorem preserves_validateBlock (b : Nat) (r : Nat → Row F.Body) (full : Bool) (ec : ExitCode) :
    Preserves E Q (validateBlock K b r full ec) := by
  unfold validateBlock
  split
  · exact .pure _
  · refine .ite (.pure _) (.ite (.pure _)
      (.bind Preserves.get fun s => .ite (.pure _) ?_))
    exact .bind (preserves_getPrevChecksum b) fun _ => .pure _

/-- What holds of an object whatever its tiles are, `get_block` keeps. -/
theorem preserves_getBlock
    (hfl : ∀ s now, Q s → Q (maybeFlushCache K now s)) (hput : ∀ s i t, Q s → Q (s.putTile i t))
    (index now : Nat) : Preserves caught Q (Blockchain.getBlock K index now) := by
  have hon : ∀ {α : Type} (i : Nat) (f : Tile F.Body F.Checksum → α × Tile F.Body F.Checksum),
      Preserves caught Q (onTile i f) := fun i _ =>
    preserves_putTile fun s _ _ hs => hput s i _ hs
  refine .bind (.of_modify fun s => hfl s now) fun _ =>
    .bind (hon _ _) fun _ => .bind (hon _ _) fun data => ?_
  cases data with
  | some r => exact .pure _
  | none =>
    refine .bind (hon _ _) fun ok => .ite (.bind (hon _ _) fun data => ?_)
      (.pure _)
    cases data with
    | none => exact .throw _
    | some r =>
      exact .bind (preserves_validateBlock index r false .ok) fun _ => .pure _

/-- The counters of an object are none of the business of `get_block`. -/
theorem getBlock_counters {index now : Nat} (h : inUse (Blockchain.getBlock K index now s) = some s') :
    s'.tiles.length = s.tiles.length ∧ s'.recCount = s.recCount ∧
      s'.checksumValidBlockCount = s.checksumValidBlockCount := by
  refine preserves_getBlock (Q := fun t : Blockchain F => t.tiles.length = s.tiles.length ∧
    t.recCount = s.recCount ∧ t.checksumValidBlockCount = s.checksumValidBlockCount)
    (fun t now ht => ?_) (fun t i tile ht => ?_) index now s s' ⟨rfl, rfl, rfl⟩ h
  · obtain ⟨-, hrec, hva, hlen, -⟩ := maybeFlushCache_frame now
    exact ⟨hlen.trans ht.1, hrec.trans ht.2.1, hva.trans ht.2.2⟩
  · exact ⟨(putTile_length t i tile).trans ht.1, ht.2⟩

namespace ReadInv

theorem flush (hP : ReadInv K P) (now : Nat) (hs : AllTiles P s) :
    AllTiles P (Blockchain.flushCache K now s) := by
  intro b d hd
  rw [flushCache_tiles] at hd
  obtain ⟨d₀, hd₀, rfl⟩ := Option.map_eq_some_iff.mp hd
  rw [(flushCache_frame now).1]
  have ht := hs b d₀ hd₀
  unfold flushDesc
  split
  · -- closed, and a victim is released too
    split
    · exact hP.release b _ ht
    · exact hP.close b _ ht
  · exact ht

theorem maybeFlush (hP : ReadInv K P) (now : Nat) (hs : AllTiles P s) :
    AllTiles P (maybeFlushCache K now s) := by
  unfold maybeFlushCache
  split
  · exact hP.flush now hs
  · exact hs

theorem getBlock (hP : ReadInv K P) (index now : Nat) :
    Preserves caught (AllTiles P) (Blockchain.getBlock K index now) := by
  have hre : Preserves caught (AllTiles P) (onTile index fun t : Tile F.Body F.Checksum =>
      t.syncFromFile K.RecCount F.zeroBody true) := preserves_onTile (hP.read index)
  have hget : Preserves caught (AllTiles P) (onTile index Tile.getTileData :
      ChainM F (Option (Nat → Row F.Body))) := preserves_onTile (hP.state index)
  refine .bind (.of_modify fun _ => hP.maybeFlush now) fun _ =>
    .bind hre fun _ => .bind hget fun data => ?_
  cases data with
  | some r => exact .pure _
  | none =>
    refine .bind hre fun ok => .ite (.bind hget fun data => ?_)
      (.pure _)
    cases data with
    | none => exact .throw _
    | some r =>
      exact .bind (preserves_validateBlock index r false .ok) fun _ => .pure _

/-- The tile of a new block is the last one, and is written before the call is over. -/
theorem appendNewBlock (hP : ReadInv K P)
    (hsy : ∀ i e r cr b t', (setFirstRows r cr ⟨e, reset F.zero .ok⟩).syncToFile K.RecCount
      F.zeroBody false = some (b, t') → P i t') (record : Row F.Body) :
    Preserves caught (AllTiles P) (Blockchain.appendNewBlock K record) := by
  refine .bind (.bind Preserves.get fun s => .ite
    (preserves_onTile fun t ht => hP.close _ t ht) (.pure _)) fun _ => ?_
  -- from here on with the new tile at hand
  intro s s' hs h
  rw [get_bind] at h
  have hpr := fun s' => preserves_getPrevChecksum (E := caught) s.tiles.length s s' hs
  cases hp : Blockchain.getPrevChecksum s.tiles.length s with
  | error e s₁ =>
    rw [hp] at hpr
    rw [bind_error hp] at h
    exact hpr s' h
  | ok c s₁ =>
    obtain rfl := getPrevChecksum_state hp
    obtain ⟨htl, hdi, -⟩ := advanceValid_frame s₁
    rw [bind_eq hp, modify_bind, modify_bind, appendTile_eq, ← htl,
      bind_eq (updTile_withTail _ _), modify_bind] at h
    have hadv : AllTiles P { advanceValid s₁ with recCount := (advanceValid s₁).recCount + 2 } := by
      intro b d hd
      rw [hdi]
      exact hs b d (htl ▸ hd)
    generalize advanceValid s₁ = s₂ at hadv h
    have hwr := fun i => hsy i (s₂.disk s₂.tiles.length) record
      (F.checksumRow (F.calcChecksum c record))
    generalize setFirstRows record (F.checksumRow (F.calcChecksum c record))
      ⟨s₂.disk s₂.tiles.length, reset F.zero .ok⟩ = t at hwr h
    rw [show ({ s₂.withTail t with recCount := (s₂.withTail t).recCount + 2 } : Blockchain F)
      = withTail { s₂ with recCount := s₂.recCount + 2 } t from rfl] at h
    generalize hs₃ : ({ s₂ with recCount := s₂.recCount + 2 } : Blockchain F) = s₃ at hadv h
    rw [show s₂.tiles = s₃.tiles by rw [← hs₃]] at h
    cases hw : t.syncToFile K.RecCount F.zeroBody false with
    | none =>
      rw [bind_error (syncTileToFile_withTail_none hw)] at h
      cases h
    | some r =>
      obtain ⟨b, t'⟩ := r
      rw [bind_eq (syncTileToFile_withTail hw)] at h
      cases h
      exact hadv.withTail (hwr _ b t' hw)

end ReadInv

theorem WriteInv.append (hP : WriteInv K P) (p : T) (now : Nat) :
    Preserves caught (AllTiles P) (Blockchain.append K p now) := by
  have hcount : ∀ s : Blockchain F, AllTiles P s →
      AllTiles P { s with recCount := s.recCount + 1 } := fun _ h => h
  refine .bind (.of_modify fun _ => hP.maybeFlush now) fun _ =>
    .bind Preserves.get fun s => .ite (hP.appendNewBlock hP.sync _) ?_
  refine .bind Preserves.get fun s =>
    .bind (preserves_onTile fun t ht => hP.state _ t ht) fun data => ?_
  cases data with
  | none => exact .throw _
  | some r =>
    refine .bind (preserves_onTile fun t ht => hP.write _ t _ _ ht) fun w =>
      .ite (.bind (preserves_onTile fun t ht => hP.write _ t _ _ ht) fun w' =>
        .ite ?_ (.pure _)) (.pure _)
    exact .bind (.of_modify hcount) fun _ => .pure _

namespace TileInv

theorem validateNextChecksum (hP : TileInv K P) (now : Nat) :
    Preserves caught (AllTiles P) (Blockchain.validateNextChecksum K now) := by
  intro s s' hs h
  have hf := hP.maybeFlush now hs
  obtain ⟨hdi, -⟩ := maybeFlushCache_frame (K := K) (s := s) now
  have hv := validateNextChecksum_validates K now s
  generalize Blockchain.validateNextChecksum K now s = r at hv h
  cases hv with
  | done =>
    cases h
    exact hf
  | @unread d t hd hre =>
    generalize maybeFlushCache K now s = s₁ at hf hdi hd h
    generalize s.checksumValidBlockCount = b at hd hre h
    have hP' := hP.read b _ (hf b d hd)
    rw [readTile, ← hdi] at hre
    rw [hre] at hP'
    cases h
    exact hf.putTile (List.getElem?_eq_some_iff.mp hd).1 hP'
  | @read d t data _ hd hre hda hv =>
    generalize maybeFlushCache K now s = s₁ at hf hdi hd hv
    generalize s.checksumValidBlockCount = b at hd hre hv
    have hlt := (List.getElem?_eq_some_iff.mp hd).1
    have hP' := hP.read b _ (hf b d hd)
    have hmo := hP.moved b _ (hf b d hd)
    rw [readTile, ← hdi] at hre
    rw [hre] at hP' hmo
    have hput : AllTiles P (s₁.putTile b (t.setState .ok)) := hf.putTile hlt (hP.state b t hP')
    cases hv with
    | accepted | thrown =>
      cases h
      exact hput
    | refused =>
      cases h
      intro b' d' hd'
      have hd'' : (s₁.putTile b (t.setState .ok)).tiles[b']? = some d' := hd'
      show P b' ⟨Function.update (s₁.putTile b (t.setState .ok)).disk b .missing b', d'⟩
      by_cases hb' : b' = b
      · rw [putTile_tiles hlt, if_pos hb'] at hd''
        cases hd''
        rw [hb', Function.update_self]
        exact hmo rfl
      · rw [Function.update_of_ne hb']
        exact hput b' d' hd''

theorem step (hP : TileInv K P) (c : StoreCall T) (hs : AllTiles P s)
    (h : storeStep K s c = some s') : AllTiles P s' := by
  cases c with
  | append p now => exact hP.append p now s s' hs h
  | getBlock i now => exact hP.getBlock i now s s' hs h
  | validateNextChecksum now => exact hP.validateNextChecksum now s s' hs h
  | flushCache now =>
    cases h
    exact hP.flush now hs
  | truncate first =>
    cases h
    intro b d hd
    refine hs b d ?_
    rw [show (Blockchain.truncate first s).tiles = s.tiles.take first from rfl,
      List.getElem?_take] at hd
    exact (Option.ite_none_right_eq_some.mp hd).2

theorem run (hP : TileInv K P) {disk : Nat → Entry F.Body} {fc : Nat} {cs : List (StoreCall T)}
    (hrun : Lib.run (storeStep K) (create K disk fc) cs = some s) : AllTiles P s :=
  run_keeps (AllTiles P) (fun _ c _ hs h => hP.step c hs h)
    (create_allTiles fun b _ => hP.created b _ _) hrun

end TileInv

end TileInv

/-! ## `last_use` -/

section Unused

variable {Body Checksum : Type} (N : Nat) (z : Body)

theorem openFile_lastUse (t : Tile Body Checksum) :
    (t.openFile N z).2.desc.lastUse = t.desc.lastUse := by
  unfold Tile.openFile
  split
  · rfl
  · split <;> rfl

theorem syncFromFile_lastUse (t : Tile Body Checksum) (c : Bool) :
    (t.syncFromFile N z c).2.desc.lastUse = t.desc.lastUse := by
  have hop := openFile_lastUse N z t
  unfold Tile.syncFromFile
  generalize t.openFile N z = r at hop
  obtain ⟨opened, t'⟩ := r
  cases opened with
  | false => exact hop
  | true =>
    dsimp only
    split <;> exact hop

theorem write_lastUse (t : Tile Body Checksum) (record : Row Body) (i : Nat) :
    (t.write N z record i false).2.desc.lastUse = t.desc.lastUse := by
  have hop := openFile_lastUse N z t
  unfold Tile.write
  split
  · rfl
  · generalize t.openFile N z = r at hop
    obtain ⟨opened, t'⟩ := r
    cases opened <;> exact hop

theorem syncToFile_lastUse {t t' : Tile Body Checksum} {b : Bool}
    (h : t.syncToFile N z false = some (b, t')) : t'.desc.lastUse = t.desc.lastUse := by
  have hop := openFile_lastUse N z t
  unfold Tile.syncToFile at h
  split at h
  · cases h
    rfl
  · generalize t.openFile N z = r at hop h
    obtain ⟨opened, t''⟩ := r
    cases opened with
    | false => cases h
    | true =>
      cases h
      exact hop

end Unused

/-- Nothing but `reset` writes `TileSup::last_use`. -/
theorem tileInv_lastUse : TileInv (F := F) K fun _ t => t.desc.lastUse = 0 where
  created _ _ _ := rfl
  state _ _ h := h
  close _ _ h := h
  release _ _ h := h
  read _ t h := (syncFromFile_lastUse _ _ t true).trans h
  write _ t record i h := (write_lastUse _ _ t record i).trans h
  sync _ _ _ _ _ _ h := syncToFile_lastUse _ _ h
  moved _ t h _ := (syncFromFile_lastUse _ _ t true).trans h

/-! ## Open files -/

/-- A file that may be read and written and is no longer than a block of `N` rows. -/
def Open (N : Nat) {Body : Type} (f : File Body) : Prop :=
  f.len ≤ N ∧ f.slack = false ∧ f.readable = true ∧ f.writeable = true

/-- The file at the path of a tile that has it open was opened there: it was found in order,
or made, and has not been written past its end. -/
def OpenFits (N : Nat) {Body Checksum : Type} (t : Tile Body Checksum) : Prop :=
  t.desc.fileHandle.isSome → ∀ f, t.entry = .regular f → Open N f

section OpenFits

variable {Body Checksum : Type} {N : Nat} {z : Body}

theorem openFile_fits {t : Tile Body Checksum} (h : OpenFits N t) : OpenFits N (t.openFile N z).2 ∧
      ((t.openFile N z).1 = true → ∀ f, (t.openFile N z).2.entry = .regular f → Open N f) := by
  unfold Tile.openFile
  split
  · next p hp =>
    have hfi := h (by rw [hp]; rfl)
    exact ⟨fun _ => hfi, fun _ => hfi⟩
  · next hno =>
    split
    · -- made by `fopen`
      have hfi : ∀ f, Entry.regular (createdFile z) = .regular f → Open N f := by
        rintro f hf
        cases hf
        exact ⟨Nat.zero_le _, rfl, rfl, rfl⟩
      exact ⟨fun _ => hfi, fun _ => hfi⟩
    · next hok =>
      have hfi : ∀ f, t.entry = .regular f → Open N f := by
        intro f hf
        obtain ⟨rs, f', he, hlen, hsl, hr, hw, -⟩ := stores_of_checkFile2 hok
        cases he.symm.trans hf
        exact ⟨Nat.le_of_eq hlen, hsl, hr, hw⟩
      exact ⟨fun _ => hfi, fun _ => hfi⟩
    · refine ⟨fun hso => ?_, fun hop => by cases hop⟩
      rw [show (t.setState .cannotOpenFile).desc.fileHandle = none from hno] at hso
      cases hso

theorem fwrite_fits {e : Entry Body} (h : ∀ f, e = .regular f → Open N f) {pos n : Nat}
    (hfit : pos + n ≤ N) (rs : Nat → Row Body) :
    ∀ f, Tile.fwrite pos n rs e = .regular f → Open N f := by
  intro f hf
  cases e with
  | missing | other => cases hf
  | regular f₀ =>
    cases hf
    obtain ⟨hlen, hre⟩ := h f₀ rfl
    exact ⟨Nat.max_le.mpr ⟨hlen, hfit⟩, hre⟩

theorem syncFromFile_fits {t : Tile Body Checksum} (h : OpenFits N t) (c : Bool) :
    OpenFits N (t.syncFromFile N z c).2 := by
  unfold Tile.syncFromFile
  obtain ⟨hfits, hfi⟩ := openFile_fits h
  generalize t.openFile N z = r at hfits hfi
  obtain ⟨opened, t'⟩ := r
  cases opened with
  | false => exact hfits
  | true =>
    dsimp only
    split <;> exact fun _ => hfi rfl

theorem write_fits {t : Tile Body Checksum} (h : OpenFits N t) (record : Row Body) (i : Nat) :
    OpenFits N (t.write N z record i false).2 := by
  unfold Tile.write
  split
  · exact h
  · next hi =>
    obtain ⟨hfits, hfi⟩ := openFile_fits h
    generalize t.openFile N z = r at hfits hfi
    obtain ⟨opened, t'⟩ := r
    cases opened with
    | false => exact hfits
    | true => exact fun _ => fwrite_fits (hfi rfl) (by omega) _

theorem syncToFile_fits {t t' : Tile Body Checksum} {b : Bool} (hh : t.desc.fileHandle = none)
    (heq : t.syncToFile N z false = some (b, t')) : OpenFits N t' := by
  have hcl : OpenFits N t := by
    intro hso
    rw [hh] at hso
    cases hso
  have hpos : (t.openFile N z).1 = true → (t.openFile N z).2.desc.fileHandle.getD 0 = 0 := by
    unfold Tile.openFile
    rw [hh]
    dsimp only
    split
    · exact fun _ => rfl
    · exact fun _ => rfl
    · intro h
      cases h
  obtain ⟨-, hfi⟩ := openFile_fits (z := z) hcl
  unfold Tile.syncToFile at heq
  split at heq
  · cases heq
    exact hcl
  · generalize t.openFile N z = r at hfi hpos heq
    obtain ⟨opened, t''⟩ := r
    cases opened with
    | false => cases heq
    | true =>
      cases heq
      refine fun _ => fwrite_fits (hfi rfl) ?_ _
      rw [hpos rfl, Nat.zero_add]

end OpenFits

theorem tileInv_openFits : TileInv (F := F) K fun _ => OpenFits K.RecCount where
  created _ _ _ := fun h => by cases h
  state _ _ h := h
  close _ _ _ := fun h => by cases h
  release _ _ _ := fun h => by cases h
  read _ _ h := syncFromFile_fits h true
  write _ _ record i h := write_fits h record i
  sync _ _ _ _ _ _ h := syncToFile_fits rfl h
  moved _ _ _ _ := fun _ f hf => by cases hf

end GradidoNode.Blockchain
