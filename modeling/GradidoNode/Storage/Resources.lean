/-
# `GradidoNode.Storage.Resources` — what `truncate` does not give back

`truncate_tail` moves descriptors from the vector to `unused_tiles` with their buffers
and open files, and `create_tile_desc` resets them there: both pointers are gone, the
buffer still in use, the file still open.  Every other call keeps the books
(`GradidoNode.Storage.Accounting`), whatever fails.

So after any calls, the buffers in use are those of the tiles and those lost in
truncations, and the same for open files (`run_balanced`): the tiles are all that is
paid for exactly when every truncation dropped tiles without data, and as many files
are open as there are tiles at most (`resources_bounded_iff`).
-/
import GradidoNode.Storage.Mirror

namespace GradidoNode.Machine

open FileTile Lib Blockchain

variable {T : Type} {F : RowFormat T} {K : Params} {M M' : Machine F}

/-- The buffers and the open files a call leaves to nobody. -/
def lost (M : Machine F) : StoreCall T → Option (Nat × Nat)
  | .truncate first =>
    some (fetchedCount (M.chain.tiles.drop first), openCount (M.chain.tiles.drop first))
  | _ => none

/-- What is lost in a run of calls. -/
def losses (K : Params) (M : Machine F) (cs : List (StoreCall T)) : List (Nat × Nat) :=
  observed (machineStep K) lost M cs

/-- Buffers lost in truncations. -/
def lostBuffers (K : Params) (M : Machine F) (cs : List (StoreCall T)) : Nat :=
  ((losses K M cs).map Prod.fst).sum

/-- Open files lost in truncations. -/
def lostFiles (K : Params) (M : Machine F) (cs : List (StoreCall T)) : Nat :=
  ((losses K M cs).map Prod.snd).sum

/-- Buffers obtained and not released are those of the tiles, and no more files are open than
there are tiles. -/
structure TilesPayFor (M : Machine F) : Prop where
  buffers : M.sys.memPool.used = fetchedCount M.chain.tiles
  files : M.sys.openFiles ≤ M.chain.tiles.length

theorem Balanced.step {a b : Nat} (hM : Balanced a b M) (c : StoreCall T)
    (h : machineStep K M c = some M') :
    Balanced (a + ((lost M c).toList.map Prod.fst).sum)
      (b + ((lost M c).toList.map Prod.snd).sum) M' := by
  cases c with
  | append p now => exact balanced_append p now M M' hM h
  | getBlock i now => exact balanced_getBlock i now M M' hM h
  | validateNextChecksum now => exact balanced_validateNextChecksum now M M' hM h
  | flushCache now => exact balanced_flushCache now M M' hM h
  | truncate first =>
    cases h
    simpa [lost, Nat.add_comm] using hM.truncate first

theorem run_balanced {a b : Nat} {cs : List (StoreCall T)} (hM : Balanced a b M)
    (h : run (machineStep K) M cs = some M') :
    Balanced (a + lostBuffers K M cs) (b + lostFiles K M cs) M' := by
  induction cs generalizing M a b with
  | nil =>
    cases h
    exact hM
  | cons c cs ih =>
    obtain ⟨M₁, hst, hre⟩ := run_cons h
    have hco : losses K M (c :: cs) = (lost M c).toList ++ losses K M₁ cs := by
      rw [losses, observed, hst]
      rfl
    have hla := ih (hM.step c hst) hre
    rw [lostBuffers, lostFiles, hco, List.map_append, List.map_append, List.sum_append,
      List.sum_append, ← Nat.add_assoc, ← Nat.add_assoc]
    exact hla

/-- **Buffers and files.**  After any calls on a new object over any folder, whatever calls of the
C library fail: the buffers in use are those of the tiles, and no more files are open than there
are tiles, exactly when no truncation dropped a tile with data, and the files left open by
truncations find room among the tiles whose own file is closed. -/
theorem resources_bounded_iff (K : Params) (disk : Nat → Entry F.Body) (fc : Nat)
    (script : List (Outcome F.Body)) (cs : List (StoreCall T)) (M : Machine F)
    (hrun : Lib.run (machineStep K) (create K disk fc script) cs = some M) :
    TilesPayFor M ↔ (∀ l ∈ losses K (create K disk fc script) cs, l.1 = 0) ∧
        lostFiles K (create K disk fc script) cs ≤
          M.chain.tiles.countP fun d => d.fileHandle.isNone := by
  have hM := run_balanced (balanced_create K disk fc script) hrun
  have hbu := hM.buffers
  have hfi := hM.files
  rw [Nat.zero_add] at hbu hfi
  have hze : lostBuffers K (create K disk fc script) cs = 0 ↔
      ∀ l ∈ losses K (create K disk fc script) cs, l.1 = 0 := by
    rw [lostBuffers, List.sum_eq_zero_iff_forall_eq_nat]
    simp
  have hcl : M.chain.tiles.length =
      openCount M.chain.tiles + M.chain.tiles.countP fun d => d.fileHandle.isNone := by
    rw [openCount, List.length_eq_countP_add_countP fun d => d.fileHandle.isSome]
    exact congrArg _ (List.countP_congr (by simp))
  rw [← hze]
  constructor
  · intro h
    have hus := h.buffers
    have hop := h.files
    exact ⟨by omega, by omega⟩
  · rintro ⟨hno, hroom⟩
    exact ⟨by omega, by omega⟩

/-- One block is appended, and stays. -/
theorem resources_bounded_oneAppend : ∃ M, Lib.run (machineStep (F := digestFormat Nat) twoRows)
        (create twoRows (fun _ => .missing) 0 []) [.append 7 0, .getBlock 0 0] = some M ∧
      M.sys.memPool.used = 1 ∧ M.sys.openFiles = 1 ∧ TilesPayFor M := by
  refine ⟨_, rfl, rfl, rfl, ?_⟩
  exact (resources_bounded_iff twoRows (fun _ => .missing) 0 [] [.append 7 0, .getBlock 0 0] _
    rfl).mpr ⟨by decide, by decide⟩

/-- One block is appended and truncated: no tile is left, but a buffer and an open file. -/
theorem truncate_leaks : ∃ M, Lib.run (machineStep (F := digestFormat Nat) twoRows)
        (create twoRows (fun _ => .missing) 0 []) [.append 7 0, .truncate 0] = some M ∧
      M.chain.tiles.length = 0 ∧ fetchedCount M.chain.tiles = 0 ∧ M.sys.memPool.used = 1 ∧
      M.sys.openFiles = 1 ∧ ¬ TilesPayFor M := by
  refine ⟨_, rfl, rfl, rfl, rfl, rfl, fun h => ?_⟩
  exact absurd h.files (by decide)

end GradidoNode.Machine
