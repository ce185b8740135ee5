/-
# `GradidoNode.Storage.Ready` — chains that have been validated and used since

`BlockchainBaseDeprecated` does not call its storage in any order.  It validates the
blocks it found, one after the other, and truncates the chain to nothing when one is
refused; it appends only when there is nothing left to validate, that is to a chain
it has emptied or in the state READY; and reads are answered at any time
(`readyStep`).

What a READY chain has is a folder of block files in order, with handles that do not
hide them (`Ready.tiled`): a block that was counted has been read from its file, and
`append` leaves the files it writes to in order.  Nothing more can be said of the
rows, as `validate_next_checksum` also counts blocks that are not full, and `append`
then writes in the wrong place.  Of the counters, `rec_count` is at least twice the
number of blocks (`Ready.counted`).
-/
import GradidoNode.Storage.Cache
import GradidoNode.Storage.Counters
import GradidoNode.Storage.Keeps
import GradidoNode.Storage.Scan

namespace GradidoNode.Blockchain

open FileTile Lib

variable {T : Type} {F : RowFormat T} {K : Params} {s s' : Blockchain F}

/-- One call, as `BlockchainBaseDeprecated` makes it. -/
def readyStep (K : Params) (s : Blockchain F) : StoreCall T → Option (Blockchain F)
  | .validateNextChecksum now =>
    match Blockchain.validateNextChecksum K now s with
    | .ok (true, _) s' => some s'
    -- `reset_validation`
    | .ok (false, _) s' => some (Blockchain.truncate 0 s')
    | .error _ _ => none
  | .append p now =>
    if s.tiles.length ≤ s.checksumValidBlockCount then storeStep K s (.append p now) else none
  | .getBlock i now => storeStep K s (.getBlock i now)
  | .flushCache now => storeStep K s (.flushCache now)
  | .truncate first => storeStep K s (.truncate first)

/-- The state READY: all blocks have been validated. -/
structure Ready (K : Params) (s : Blockchain F) : Prop where
  reached : ∃ disk fc cs, Lib.run (readyStep (T := T) K) (create K disk fc) cs = some s
  validated : s.tiles.length ≤ s.checksumValidBlockCount

/-! ## Tiles that were validated are in order -/

/-- The tiles of validated blocks are in order. -/
def Tended (K : Params) (s : Blockchain F) : Prop :=
  AllTiles (ReadableOn K (· < s.checksumValidBlockCount)) s

/-- All tiles are in order. -/
def InOrder (K : Params) (s : Blockchain F) : Prop :=
  AllTiles (ReadableOn K fun _ => True) s

theorem Tended.inOrder (h : Tended K s) (hv : s.tiles.length ≤ s.checksumValidBlockCount) :
    InOrder K s := by
  intro b d hd
  have hb := (List.getElem?_eq_some_iff.mp hd).1
  exact .of_synced ((h b d hd).2 (Nat.lt_of_lt_of_le hb hv))

theorem InOrder.tended (h : InOrder K s) : Tended K s :=
  fun b d hd => .of_synced ((h b d hd).2 trivial)

theorem InOrder.tiled (h : InOrder K s) : ∃ rs, Tiled K s rs := by
  have hall : ∀ b, ∃ rs, ∀ d, s.tiles[b]? = some d → Synced K.RecCount ⟨s.disk b, d⟩ rs := by
    intro b
    cases hd : s.tiles[b]? with
    | none => exact ⟨fun _ => F.blankRow, fun d hd' => by cases hd'⟩
    | some d =>
      obtain ⟨rs, hrs⟩ := (h b d hd).2 trivial
      refine ⟨rs, fun d' hd' => ?_⟩
      cases hd'
      exact hrs
  choose rs hrs using hall
  exact ⟨rs, fun b d hd => hrs b d hd⟩

theorem writeInv_inOrder : WriteInv (F := F) K (ReadableOn K fun _ => True) where
  toReadInv := readInv_readableOn _
  write i t r j h := by
    obtain ⟨rs, hsy⟩ := h.2 trivial
    rcases Nat.lt_or_ge j K.RecCount with hj | hj
    · obtain ⟨t', heq, hde, hst⟩ := write_synced r hsy.1 hj
      rw [heq]
      exact .of_synced ⟨_, hst, .inr (.inl (by rw [hde]))⟩
    · rw [Tile.write, if_pos hj]
      exact .of_synced ⟨rs, hsy⟩
  sync _ _ _ _ _ _ h := .of_synced (newTile_synced h)

/-- A validation counts the next block, or leaves none. -/
theorem readyStep_validate {now : Nat}
    (h : readyStep (T := T) K s (.validateNextChecksum now) = some s') :
    (∃ ec, Blockchain.validateNextChecksum K now s = .ok (true, ec) s') ∨ s'.tiles = [] := by
  rw [readyStep] at h
  cases hv : Blockchain.validateNextChecksum K now s with
  | error e s₁ =>
    rw [hv] at h
    cases h
  | ok r s₁ =>
    obtain ⟨good, ec⟩ := r
    rw [hv] at h
    cases good with
    | true =>
      cases h
      exact .inl ⟨ec, rfl⟩
    | false =>
      cases h
      exact .inr rfl

namespace Tended

/-- A block that is counted has been read from its file. -/
theorem validate (h : Tended K s) {now : Nat} {ec : ExitCode}
    (heq : Blockchain.validateNextChecksum K now s = .ok (true, ec) s') : Tended K s' := by
  obtain ⟨hdi, -, hva, -, -⟩ := maybeFlushCache_frame (K := K) (s := s) now
  have hf : Tended K (maybeFlushCache K now s) := by
    rw [Tended, hva]
    exact (readInv_readableOn _).maybeFlush now h
  have hv := validateNextChecksum_validates K now s
  rw [heq] at hv
  cases hv with
  | @read d t data _ hd hre hda hv =>
  cases hv
  rw [readTile, ← hdi, ← hva] at hre
  rw [← hva] at hd ⊢
  generalize maybeFlushCache K now s = s₁ at hf hd hre
  have hlt := (List.getElem?_eq_some_iff.mp hd).1
  rcases (hf _ d hd).1 with ⟨rs, hsy⟩ | hdam
  · obtain ⟨he, -, -, hh, data', hda', hro⟩ := syncFromFile_synced true hsy
    rw [hre] at he hh hda'
    have hsy' : Synced K.RecCount (t.setState .ok) rs :=
      ⟨by show Stores K.RecCount t.entry rs; rw [he]; exact hsy.1,
        .inr (.inr ⟨hh, data', hda', hro⟩)⟩
    intro b d' hd'
    have hd'' : (s₁.putTile s₁.checksumValidBlockCount (t.setState .ok)).tiles[b]? = some d' := hd'
    show ReadableOn K (· < s₁.checksumValidBlockCount + 1) b
      ⟨(s₁.putTile s₁.checksumValidBlockCount (t.setState .ok)).disk b, d'⟩
    by_cases hbv : b = s₁.checksumValidBlockCount
    · rw [putTile_tiles hlt, if_pos hbv] at hd''
      cases hd''
      rw [putTile_disk, if_pos hbv]
      exact .of_synced ⟨rs, hsy'⟩
    · rw [putTile_tiles hlt, if_neg hbv] at hd''
      rw [putTile_disk, if_neg hbv]
      obtain ⟨hre, hin⟩ := hf b d' hd''
      exact ⟨hre, fun hlt' => hin (by show b < s₁.checksumValidBlockCount; omega)⟩
  · -- a file that is not in order is not read
    obtain ⟨t', hno, -⟩ := hdam.read (Nat.lt_of_lt_of_le Nat.zero_lt_two K.two_le)
    cases hre.symm.trans hno

theorem step (h : Tended K s) (c : StoreCall T) (hs : readyStep K s c = some s') : Tended K s' := by
  cases c with
  | validateNextChecksum now =>
    rcases readyStep_validate hs with ⟨ec, hv⟩ | htl
    · exact h.validate hv
    · intro b d hd
      rw [htl] at hd
      cases hd
  | append p now =>
    rw [readyStep] at hs
    obtain ⟨hv, hs⟩ := Option.ite_none_right_eq_some.mp hs
    exact InOrder.tended (writeInv_inOrder.append p now s s' (h.inOrder hv) hs)
  | getBlock index now =>
    have hca : inUse (Blockchain.getBlock K index now s) = some s' := hs
    rw [Tended, (getBlock_counters hca).2.2]
    exact (readInv_readableOn _).getBlock index now s s' h hca
  | flushCache now =>
    cases hs
    rw [Tended, (flushCache_frame now).2.2.1]
    exact (readInv_readableOn _).flush now h
  | truncate first =>
    cases hs
    intro b d hd
    rw [show (Blockchain.truncate first s).tiles = s.tiles.take first from rfl,
      List.getElem?_take] at hd
    exact h b d (Option.ite_none_right_eq_some.mp hd).2

end Tended

theorem Ready.tiled (h : Ready K s) : ∃ rs, Tiled K s rs := by
  obtain ⟨disk, fc, cs, hrun⟩ := h.reached
  have hcr : Tended K (create K disk fc) := create_readableOn disk fun b _ => Nat.not_lt_zero b
  exact ((run_keeps (Tended K) (fun _ c _ h hs => h.step c hs) hcr hrun).inOrder h.validated).tiled

theorem Tiled.getBlock {rs : Nat → Nat → Row F.Body} (h : Tiled K s rs) {b : Nat}
    (hb : b < s.tiles.length) (now : Nat) :
    Returns (Blockchain.getBlock K b now) s fun r s' =>
      (∃ data, r = (some data, .ok) ∧ ∀ j < K.RecCount, data j = rs b j) ∧
        Tiled K s' rs ∧ s'.disk = s.disk ∧ s'.tiles.length = s.tiles.length := by
  obtain ⟨hdi, -, -, hlen, -⟩ := maybeFlushCache_frame now
  obtain ⟨d, hd, hsy⟩ := h.desc hb now
  obtain ⟨data, t, heq, hro, he, -, -, -, ht⟩ := getBlock_tile hd hsy
  have hlt : b < (maybeFlushCache K now s).tiles.length := by rwa [hlen]
  refine ⟨_, _, heq, ⟨data, rfl, hro⟩, ?_, ?_, (putTile_length _ _ _).trans hlen⟩
  · have hput := (h.flush now).putTile hlt ht
    rwa [Function.update_eq_self b rs] at hput
  · funext j
    rw [putTile_disk, hdi]
    split
    · next hj => rw [hj, he]
    · rfl

/-! ## The counters of a READY chain -/

/-- Each block that has been validated has two rows at least. -/
def Counted (s : Blockchain F) : Prop :=
  2 * min s.checksumValidBlockCount s.tiles.length ≤ s.recCount

theorem Counted.of_eq (h : Counted s) (hlen : s'.tiles.length = s.tiles.length)
    (hrec : s'.recCount = s.recCount)
    (hva : s'.checksumValidBlockCount = s.checksumValidBlockCount) : Counted s' := by
  rw [Counted, hlen, hrec, hva]
  exact h

/-- What a block that is counted adds. -/
theorem validateNextChecksum_counts {now : Nat} {ec : ExitCode}
    (h : Blockchain.validateNextChecksum K now s = .ok (true, ec) s') :
    s.checksumValidBlockCount < s.tiles.length ∧ s'.tiles.length = s.tiles.length ∧
      s'.checksumValidBlockCount = s.checksumValidBlockCount + 1 ∧
      s.recCount + 2 ≤ s'.recCount := by
  obtain ⟨-, hrec, hva, hlen, -⟩ := maybeFlushCache_frame (K := K) (s := s) now
  have hv := validateNextChecksum_validates K now s
  rw [h] at hv
  cases hv with
  | read hd hre hda hv =>
  cases hv with
  | accepted hsh =>
    have htwo := (wellShaped_filled hsh).two_le
    rw [← hrec, ← hva, ← hlen]
    refine ⟨?_, putTile_length _ _ _, rfl, Nat.add_le_add_left htwo _⟩
    rw [hva]
    exact (List.getElem?_eq_some_iff.mp hd).1

theorem onTile_inside {α : Type} {i : Nat} (hi : i < s.tiles.length)
    (f : Tile F.Body F.Checksum → α × Tile F.Body F.Checksum) :
    ∃ a s', onTile i f s = .ok a s' ∧ s'.tiles.length = s.tiles.length :=
  ⟨_, _, onTile_ok f (List.getElem?_eq_getElem hi), putTile_length _ _ _⟩

theorem syncTileToFile_not_thrown {i : Nat} {m : String} (hi : i < s.tiles.length) :
    syncTileToFile K i false s ≠ .error (.thrown m) s' := by
  intro h
  unfold syncTileToFile at h
  obtain ⟨r, s₁, hr, -⟩ := onTile_inside hi _
  rw [bind_eq hr] at h
  cases r with
  | none | some b => cases h

/-- An `append` that throws has changed nothing. -/
theorem append_thrown {p : T} {now : Nat} {m : String}
    (h : Blockchain.append K p now s = .error (.thrown m) s') : s' = maybeFlushCache K now s := by
  unfold Blockchain.append at h
  rw [modify_bind, get_bind] at h
  generalize maybeFlushCache K now s = s₁ at *
  split at h
  · -- a new block can only fail where its file is written
    obtain ⟨s₂, -, heq⟩ := appendNewBlock_prepares s₁ p
    rw [heq] at h
    generalize hs₃ : withTail { advanceValid s₂ with recCount := s₂.recCount + 2 } _ = s₃ at h
    have hlt : s₂.tiles.length < s₃.tiles.length := by
      rw [← hs₃, withTail, List.length_append, (advanceValid_frame s₂).1]
      exact Nat.lt_succ_self _
    cases hsy : syncTileToFile K s₂.tiles.length false s₃ with
    | error e s₄ =>
      rw [bind_error hsy] at h
      cases h
      exact absurd hsy (syncTileToFile_not_thrown hlt)
    | ok written s₄ =>
      rw [bind_eq hsy] at h
      cases h
  · unfold appendInBlock at h
    rw [get_bind] at h
    rcases Nat.lt_or_ge s₁.lastIndex s₁.tiles.length with hlt | hge
    · obtain ⟨data, s₂, h₂, hlen₂⟩ := onTile_inside hlt Tile.getTileData
      rw [bind_eq h₂] at h
      cases data with
      | none => cases h
      | some r =>
        dsimp only at h
        obtain ⟨_, s₃, h₃, hlen₃⟩ := onTile_inside (hlen₂ ▸ hlt) _
        rw [bind_eq h₃] at h
        split at h
        · obtain ⟨_, s₄, h₄, -⟩ := onTile_inside (hlen₃ ▸ hlen₂ ▸ hlt) _
          rw [bind_eq h₄] at h
          split at h
          · cases h
          · cases h
        · cases h
    · rw [bind_error (onTile_outside _ hge)] at h
      cases h
      rfl

theorem Counted.step (hready : Tended K s) (h : Counted s) (c : StoreCall T)
    (hs : readyStep K s c = some s') : Counted s' := by
  cases c with
  | validateNextChecksum now =>
    rcases readyStep_validate hs with ⟨ec, hv⟩ | htl
    · obtain ⟨hmo, hlen, hva, hrec⟩ := validateNextChecksum_counts hv
      unfold Counted at *
      omega
    · rw [Counted, htl, List.length_nil, Nat.min_zero]
      exact Nat.zero_le _
  | append p now =>
    rw [readyStep] at hs
    obtain ⟨hv, hs⟩ := Option.ite_none_right_eq_some.mp hs
    have hca : inUse (Blockchain.append K p now s) = some s' := hs
    cases heq : Blockchain.append K p now s with
    | ok r s₁ =>
      rw [heq] at hca
      cases hca
      obtain ⟨rs, htl⟩ := (hready.inOrder hv).tiled
      unfold Counted at *
      cases append_appended htl heq with
      | newBlock hpos hlen hrec hdi hti' | inBlock hpos hso hlen hrec hdi hti' => omega
    | error e s₁ =>
      rw [heq] at hca
      cases e with
      | undefined what => cases hca
      | thrown m =>
        cases hca
        obtain rfl := append_thrown heq
        obtain ⟨-, hrec, hva, hlen, -⟩ := maybeFlushCache_frame now
        exact h.of_eq hlen hrec hva
  | getBlock index now =>
    have hca : inUse (Blockchain.getBlock K index now s) = some s' := hs
    obtain ⟨hlen, hrec, hva⟩ := getBlock_counters hca
    exact h.of_eq hlen hrec hva
  | flushCache now =>
    cases hs
    obtain ⟨-, hrec, hva, hlen⟩ := flushCache_frame now
    exact h.of_eq hlen hrec hva
  | truncate first =>
    cases hs
    have hlen : (Blockchain.truncate first s).tiles.length ≤ s.tiles.length :=
      List.length_take_le' _ _
    have hva : (Blockchain.truncate first s).checksumValidBlockCount
        = s.checksumValidBlockCount := rfl
    have hrec : (Blockchain.truncate first s).recCount = s.recCount := rfl
    unfold Counted at *
    omega

/-- There are twice as many rows as blocks, at least. -/
theorem Ready.counted (h : Ready K s) : 2 * s.tiles.length ≤ s.recCount := by
  obtain ⟨disk, fc, cs, hrun⟩ := h.reached
  have hcr : Tended K (create K disk fc) := create_readableOn disk fun b _ => Nat.not_lt_zero b
  have hem : Counted (create K disk fc) := by
    rw [Counted, show (create K disk fc).checksumValidBlockCount = 0 from rfl, Nat.zero_min]
    exact Nat.zero_le _
  have hke := run_keeps (fun s => Tended K s ∧ Counted s)
    (fun _ c _ h hs => ⟨h.1.step c hs, h.2.step h.1 c hs⟩) ⟨hcr, hem⟩ hrun
  have hco := hke.2
  rw [Counted, Nat.min_eq_right h.validated] at hco
  exact hco

/-! ## READY chains of every list of payloads -/

theorem Ready.append (h : Ready K s) {ps : List T} (hk : Keeps K s ps) (p : T) :
    ∃ s' : Blockchain F, Ready K s' ∧ Keeps K s' (ps ++ [p]) := by
  obtain ⟨disk, fc, cs, hrun⟩ := h.reached
  obtain ⟨_, s', heq, rfl, hk'⟩ := hk.append p 0
  refine ⟨s', ⟨⟨disk, fc, cs ++ [.append p 0], ?_⟩, Nat.le_of_eq hk'.valid_eq.symm⟩, hk'⟩
  have hst : readyStep K s (.append p 0) = some s' := by
    rw [readyStep, if_pos h.validated, storeStep, heq]
    rfl
  rw [run_append hrun, run, hst]
  rfl

theorem Ready.extend (h : Ready K s) {ps : List T} (hk : Keeps K s ps) (ps' : List T) :
    ∃ s' : Blockchain F, Ready K s' ∧ Keeps K s' (ps ++ ps') := by
  induction ps' generalizing s ps with
  | nil => exact ⟨s, h, by rw [List.append_nil]; exact hk⟩
  | cons p ps' ih =>
    obtain ⟨s₁, h₁, hk₁⟩ := h.append hk p
    rw [List.append_cons]
    exact ih h₁ hk₁

theorem exists_ready (F : RowFormat T) (K : Params) (ps : List T) :
    ∃ s : Blockchain F, Ready K s ∧ Keeps K s ps := by
  have hem : Ready K (create (F := F) K (fun _ => .missing) 0) := ⟨⟨_, _, [], rfl⟩, Nat.le_refl _⟩
  exact hem.extend (keeps_create fun _ => .inl rfl) ps

end GradidoNode.Blockchain
