/-
# `GradidoNode.Storage.Reset` — `truncate(0)` against a new object

`reset_validation` relies on `truncate(0)` to get back to the beginning.
`truncate` only shortens the vector of tiles: `rec_count` and
`checksum_valid_block_count` stay, and so do the files.

What a caller can see of an object is the trace of its answers to
`append`, `get_block` and `validate_next_checksum`, each with the three counters
and the contents of the blocks after the call (`answer`).  Two objects are
`Alike` when they hold the same payloads and checksums, have equal last tiles,
and can both be extended; the cached parts of earlier tiles and the time of the
next flush may differ, because no answer depends on them.  `alike_answer` is the
simulation step.

When the truncated object is as good as new is `reset_iff`.  A path occupied by
something that is not a block file shows itself to whoever appends long enough
(`occupied_seen`).
-/
import GradidoNode.Storage.Keeps
import GradidoNode.Storage.Tamper

namespace GradidoNode.Blockchain

open FileTile Lib

variable {T : Type} {F : RowFormat T} {K : Params}

/-! ## Reachable chains -/

/-- The calls a chain is reached by. -/
inductive ReachOp (T : Type) where
  | append (p : T) (now : Nat)
  | validateNextChecksum (now : Nat)

/-- A successful `append`, or a `validate_next_checksum` that said yes. -/
def reachStep (K : Params) (s : Blockchain F) : ReachOp T → Option (Blockchain F)
  | .append p now => opStep K s (.append p now)
  | .validateNextChecksum now => validateStep K s now

variable {s s' : Blockchain F}

theorem syncTileToFile_recCount {i : Nat} {c b : Bool}
    (h : syncTileToFile K i c s = .ok b s') : s'.recCount = s.recCount := by
  obtain ⟨r, s₁, h₁, h₂⟩ := bind_ok h
  obtain ⟨d, -, -, rfl⟩ := onTile_inv h₁
  cases r with
  | none => cases h₂
  | some b' =>
    cases h₂
    rfl

theorem append_recCount_pos {p : T} {now : Nat} {ec : ExitCode}
    (h : append K p now s = .ok (true, ec) s') : 0 < s'.recCount := by
  unfold append at h
  rw [modify_bind, get_bind] at h
  split at h
  · obtain ⟨_, s₁, -, h⟩ := bind_ok h
    rw [get_bind] at h
    obtain ⟨_, s₂, -, h⟩ := bind_ok h
    rw [modify_bind, modify_bind] at h
    obtain ⟨_, s₃, -, h⟩ := bind_ok h
    rw [modify_bind] at h
    obtain ⟨_, s₄, h₄, h⟩ := bind_ok h
    obtain ⟨-, rfl⟩ := EStateM.Result.ok.inj h
    rw [syncTileToFile_recCount h₄]
    exact Nat.succ_pos _
  · unfold appendInBlock at h
    rw [get_bind] at h
    obtain ⟨r, s₁, -, h⟩ := bind_ok h
    cases r with
    | none => cases h
    | some r =>
      obtain ⟨b₁, s₂, -, h⟩ := bind_ok h
      cases b₁ with
      | false => cases h
      | true =>
        obtain ⟨b₂, s₃, -, h⟩ := bind_ok h
        cases b₂ with
        | false => cases h
        | true =>
          cases h
          exact Nat.succ_pos _

theorem blockRecCount_pos {r : Nat → Row F.Body} (h : WellShaped (rowTypes K r)) :
    0 < blockRecCount K r := by
  obtain ⟨xs, k, heq, hpay, hxs⟩ := h
  rw [blockRecCount, heq]
  cases xs with
  | nil => cases hpay
  | cons x xs => simp [(hxs x (by simp)).1]

/-- A block that was accepted was counted, and had rows. -/
theorem validateStep_recCount_pos {now : Nat} (h : validateStep K s now = some s') :
    0 < s'.recCount := by
  unfold validateStep at h
  split at h
  · rename_i ec s₀ heq
    cases h
    have hv := validateNextChecksum_validates K now s
    rw [heq] at hv
    cases hv with
    | read hd hre hda hv =>
    cases hv with
    | accepted hw => exact Nat.lt_of_lt_of_le (blockRecCount_pos hw) (Nat.le_add_left _ _)
  · cases h

/-- A reachable chain that has counted no row has counted no block. -/
theorem reach_counters {disk : Nat → Entry F.Body} {fc : Nat} {ops : List (ReachOp T)}
    (hrun : run (reachStep K) (create K disk fc) ops = some s) :
    s.recCount = 0 → s.checksumValidBlockCount = 0 := by
  refine run_keeps (fun s : Blockchain F => s.recCount = 0 → s.checksumValidBlockCount = 0)
    ?_ (fun _ => rfl) hrun
  intro s op s' _ hs h0
  have hpos : 0 < s'.recCount := by
    cases op with
    | append p now =>
      unfold reachStep opStep at hs
      dsimp only at hs
      split at hs
      · cases hs
        exact append_recCount_pos ‹_›
      · cases hs
    | validateNextChecksum now => exact validateStep_recCount_pos hs
  omega

/-! ## What a caller sees -/

/-- The calls on the truncated object. -/
inductive Call (T : Type) where
  | append (p : T) (now : Nat)
  | getBlock (index now : Nat)
  | validateNextChecksum (now : Nat)

/-- What a call returns or throws. -/
inductive Reply (F : RowFormat T) where
  | code (ok : Bool) (ec : ExitCode)
  | rows (r : Option (List (Row F.Body))) (ec : ExitCode)
  | failed (e : Fault)

/-- The call, what it replies and the object it leaves. -/
def call (K : Params) (s : Blockchain F) : Call T → Reply F × Blockchain F
  | .append p now =>
    match Blockchain.append K p now s with
    | .ok r s' => (.code r.1 r.2, s')
    | .error e s' => (.failed e, s')
  | .getBlock i now =>
    match Blockchain.getBlock K i now s with
    | .ok r s' => (.rows (r.1.map fun rows => (List.range K.RecCount).map rows) r.2, s')
    | .error e s' => (.failed e, s')
  | .validateNextChecksum now =>
    match Blockchain.validateNextChecksum K now s with
    | .ok r s' => (.code r.1 r.2, s')
    | .error e s' => (.failed e, s')

/-- The contents of the blocks. -/
def stored (s : Blockchain F) : List (List (Row F.Body)) :=
  (List.range s.tiles.length).map fun b => fileRows (s.disk b)

/-- The reply, the three counters and the contents after the call. -/
structure Answer (F : RowFormat T) where
  reply : Reply F
  recCount : Nat
  checksumValidBlockCount : Nat
  blockCount : Nat
  stored : List (List (Row F.Body))

/-- A call and all that can be seen after it. -/
def answer (K : Params) (s : Blockchain F) (c : Call T) : Answer F × Blockchain F :=
  let r := call K s c
  (⟨r.1, getRecCount r.2, getChecksumValidBlockCount r.2, getBlockCount r.2, stored r.2⟩, r.2)

/-- As good as a new object over an empty folder. -/
structure FreshStart (K : Params) (s : Blockchain F) : Prop where
  recCount : getRecCount s = 0
  checksumValidBlockCount : getChecksumValidBlockCount s = 0
  blockCount : getBlockCount s = 0
  trace : ∀ cs : List (Call T),
    Lib.trace (answer K) s cs = Lib.trace (answer K) (create K (fun _ => .missing) 0) cs

/-! ## The simulation -/

/-- Two chains no caller can tell apart. -/
structure Alike (K : Params) (s t : Blockchain F) : Prop where
  same : ∃ ps cs, Holds K s ps cs ∧ Holds K t ps cs
  last : s.lastDesc = t.lastDesc
  left : Extensible K s
  right : Extensible K t

variable {t t' : Blockchain F} {ps : List T} {cs : Nat → F.Checksum}

theorem Holds.stored_eq (h : Holds K s ps cs) :
    stored s = (List.range (blockCount K ps.length)).map fun b =>
      (List.range K.RecCount).map (blockRows F (chunk K ps b) (cs b)) := by
  rw [stored, h.tiles_length]
  refine List.map_congr_left fun b hb => ?_
  obtain ⟨d, -, hsy⟩ := h.desc (by rw [h.tiles_length]; exact List.mem_range.mp hb)
  exact fileRows_stores hsy.1

/-- Equal replies that leave chains alike are equal answers. -/
theorem alike_call {c : Call T} (r : Reply F) (s' t' : Blockchain F) (hs : call K s c = (r, s'))
    (ht : call K t c = (r, t')) (h : Alike K s' t') :
    (answer K s c).1 = (answer K t c).1 ∧ Alike K (answer K s c).2 (answer K t c).2 := by
  obtain ⟨ps, cs, hs', ht'⟩ := h.same
  have hlen : s'.tiles.length = t'.tiles.length := by rw [hs'.tiles_length, ht'.tiles_length]
  simp only [answer, hs, ht, Answer.mk.injEq, getRecCount, getChecksumValidBlockCount,
    getBlockCount]
  refine ⟨⟨trivial, ?_, ?_, hlen, ?_⟩, h⟩
  · rw [hs'.recCount_eq, ht'.recCount_eq]
  · rw [hs'.valid_eq, ht'.valid_eq, hlen]
  · rw [hs'.stored_eq, ht'.stored_eq]

theorem readDesc_congr {e e' : Entry F.Body} {rs : Nat → Row F.Body} (h : Stores K.RecCount e rs)
    (h' : Stores K.RecCount e' rs) (d : TileDesc F.Body F.Checksum) :
    readDesc K e d = readDesc K e' d := by
  have hop := openFile_stores (z := F.zeroBody) (t := ⟨e, d⟩) h
  have hop' := openFile_stores (z := F.zeroBody) (t := ⟨e', d⟩) h'
  obtain ⟨f, rfl, hlen, -, -, -, hro⟩ := h
  obtain ⟨f', rfl, hlen', -, -, -, hro'⟩ := h'
  -- the rows read are the same, and so is their number
  have hre : ∀ (pos : Nat) (buf : Nat → Row F.Body), Tile.freadInto K.RecCount pos buf (.regular f)
        = Tile.freadInto K.RecCount pos buf (.regular f') := by
    intro pos buf
    funext i
    simp only [Tile.freadInto, hlen, hlen']
    split
    · rw [hro _ (by omega), hro' _ (by omega)]
    · rfl
  simp only [readDesc, Tile.syncFromFile, hop, hop', hre, Tile.available, hlen, hlen']
  split <;> rfl

/-- `validate_next_checksum` has nothing to do on a chain that was only appended to. -/
theorem validateNextChecksum_holds (h : Holds K s ps cs) (now : Nat) :
    validateNextChecksum K now s = .ok (false, .ok) (maybeFlushCache K now s) := by
  have hf := maybeFlushCache_holds h now
  unfold validateNextChecksum
  rw [modify_bind, get_bind]
  have hle : (maybeFlushCache K now s).tiles.length
      ≤ (maybeFlushCache K now s).checksumValidBlockCount := Nat.le_of_eq hf.valid_eq.symm
  simp only [hle, if_true]
  rfl

theorem alike_append (h : Alike K s t) (p : T) (now : Nat) :
    (answer K s (.append p now)).1 = (answer K t (.append p now)).1 ∧
      Alike K (answer K s (.append p now)).2 (answer K t (.append p now)).2 := by
  obtain ⟨⟨ps, cs, hs, ht⟩, hla, hl, hr⟩ := h
  obtain ⟨r₁, s₁, heq₁, rfl, hs₁, hun₁, hd₁⟩ := append_holds hs (fun _ => hl _ (Nat.le_refl _)) p now
  obtain ⟨r₂, t₁, heq₂, rfl, ht₁, hun₂, hd₂⟩ := append_holds ht (fun _ => hr _ (Nat.le_refl _)) p now
  have hrec : s.recCount = t.recCount := by rw [hs.recCount_eq, ht.recCount_eq]
  have hus : usedChecksum K s = usedChecksum K t := by
    simp only [usedChecksum, hla, hrec]
  have hcs : nextChecksums K s ps cs p = nextChecksums K t ps cs p := by
    rw [nextChecksums, nextChecksums, hus]
  have hde : nextDesc K s p = nextDesc K t p := by
    simp only [nextDesc, nextDesc.newDesc, hla, hrec, hus]
  refine alike_call (.code true .ok) s₁ t₁ (by simp only [call, heq₁])
    (by simp only [call, heq₂]) ⟨⟨_, _, hs₁, hcs ▸ ht₁⟩, by rw [hd₁, hd₂, hde], ?_, ?_⟩
  · exact hl.of_untouched hun₁ (hs.length_mono hs₁)
  · exact hr.of_untouched hun₂ (ht.length_mono ht₁)

theorem alike_getBlock (h : Alike K s t) (b now : Nat) :
    (answer K s (.getBlock b now)).1 = (answer K t (.getBlock b now)).1 ∧
      Alike K (answer K s (.getBlock b now)).2 (answer K t (.getBlock b now)).2 := by
  obtain ⟨⟨ps, cs, hs, ht⟩, hla, hl, hr⟩ := h
  have hlen : s.tiles.length = t.tiles.length := by rw [hs.tiles_length, ht.tiles_length]
  by_cases hb : b < s.tiles.length
  · obtain ⟨r₁, s₁, heq₁, ⟨rows₁, rfl, hro₁⟩, hs₁, hun₁, hd₁⟩ := getBlock_holds hs hb now
    obtain ⟨r₂, t₁, heq₂, ⟨rows₂, rfl, hro₂⟩, ht₁, hun₂, hd₂⟩ := getBlock_holds ht (hlen ▸ hb) now
    have hro : (List.range K.RecCount).map rows₁ = (List.range K.RecCount).map rows₂ := by
      refine List.map_congr_left fun j hj => ?_
      rw [hro₁ j (List.mem_range.mp hj), hro₂ j (List.mem_range.mp hj)]
    obtain ⟨d, -, hsy⟩ := hs.desc hb
    obtain ⟨d', -, hsy'⟩ := ht.desc (hlen ▸ hb)
    have hde : readDesc K (s.disk b) = readDesc K (t.disk b) :=
      funext fun d => readDesc_congr hsy.1 hsy'.1 d
    refine alike_call (.rows (some ((List.range K.RecCount).map rows₁)) .ok) s₁ t₁
      (by simp only [call, heq₁, Option.map_some])
      (by simp only [call, heq₂, Option.map_some, hro])
      ⟨⟨ps, cs, hs₁, ht₁⟩, by rw [hd₁, hd₂, hla, hlen, hde], ?_, ?_⟩
    · exact hl.of_untouched hun₁ (Nat.le_of_eq (by rw [hs.tiles_length, hs₁.tiles_length]))
    · exact hr.of_untouched hun₂ (Nat.le_of_eq (by rw [ht.tiles_length, ht₁.tiles_length]))
  · obtain ⟨s₁, heq₁, hs₁, hun₁, hd₁⟩ := getBlock_outside hs (Nat.not_lt.mp hb) now
    obtain ⟨t₁, heq₂, ht₁, hun₂, hd₂⟩ := getBlock_outside ht (hlen ▸ Nat.not_lt.mp hb) now
    refine alike_call (.failed (.thrown "TileFile: index too large")) s₁ t₁
      (by simp only [call, heq₁]) (by simp only [call, heq₂])
      ⟨⟨ps, cs, hs₁, ht₁⟩, by rw [hd₁, hd₂, hla], ?_, ?_⟩
    · exact hl.of_untouched hun₁ (Nat.le_of_eq (by rw [hs.tiles_length, hs₁.tiles_length]))
    · exact hr.of_untouched hun₂ (Nat.le_of_eq (by rw [ht.tiles_length, ht₁.tiles_length]))

theorem alike_validateNextChecksum (h : Alike K s t) (now : Nat) :
    (answer K s (.validateNextChecksum now)).1 = (answer K t (.validateNextChecksum now)).1 ∧
      Alike K (answer K s (.validateNextChecksum now)).2
        (answer K t (.validateNextChecksum now)).2 := by
  obtain ⟨⟨ps, cs, hs, ht⟩, hla, hl, hr⟩ := h
  obtain ⟨hdi₁, -, -, hlen₁, hd₁⟩ := maybeFlushCache_frame now
  obtain ⟨hdi₂, -, -, hlen₂, hd₂⟩ := maybeFlushCache_frame now
  refine alike_call (.code false .ok) (maybeFlushCache K now s)
    (maybeFlushCache K now t) (by simp only [call, validateNextChecksum_holds hs])
    (by simp only [call, validateNextChecksum_holds ht])
    ⟨⟨ps, cs, maybeFlushCache_holds hs now, maybeFlushCache_holds ht now⟩,
      by rw [hd₁, hd₂, hla], ?_, ?_⟩
  · exact hl.of_untouched (fun b _ => by rw [hdi₁]) (Nat.le_of_eq hlen₁.symm)
  · exact hr.of_untouched (fun b _ => by rw [hdi₂]) (Nat.le_of_eq hlen₂.symm)

/-- The simulation step. -/
theorem alike_answer (s t : Blockchain F) (c : Call T) (h : Alike K s t) :
    (answer K s c).1 = (answer K t c).1 ∧ Alike K (answer K s c).2 (answer K t c).2 := by
  cases c with
  | append p now => exact alike_append h p now
  | getBlock b now => exact alike_getBlock h b now
  | validateNextChecksum now => exact alike_validateNextChecksum h now

/-! ## An occupied path is seen -/

/-- `n` appends on an empty chain whose first `b` paths are free fill blocks `0 .. b - 1`. -/
theorem after_appends (hs : Holds K s [] cs) {b : Nat}
    (hfr : ∀ i < b, Usable K.RecCount (s.disk i)) (p : T) {n : Nat} (hn : n ≤ b * perBlock K) :
    let u := after (answer K) s (List.replicate n (.append p 0))
    (∃ cs', Holds K u (List.replicate n p) cs') ∧ Untouched s u := by
  induction n with
  | zero => exact ⟨⟨cs, hs⟩, Untouched.refl s⟩
  | succ n ih =>
    obtain ⟨⟨cs', hu⟩, hun⟩ := ih (by omega)
    have hla : after (answer K) s (List.replicate (n + 1) (.append p 0))
        = (answer K (after (answer K) s (List.replicate n (.append p 0))) (.append p 0)).2 := by
      rw [List.replicate_succ', after, List.foldl_append]
      rfl
    intro u
    rw [show u = _ from hla]
    generalize after (answer K) s (List.replicate n (.append p 0)) = v at hu hun
    have hus : (List.replicate n p).length % perBlock K = 0 →
        Usable K.RecCount (v.disk v.tiles.length) := by
      intro hfull
      rw [hun _ (Nat.le_refl _)]
      apply hfr
      rw [hu.tiles_length, blockCount, if_pos hfull, List.length_replicate, Nat.add_zero]
      exact Nat.div_lt_of_lt_mul (by rw [Nat.mul_comm]; omega)
    obtain ⟨r, v', heq, -, hv', hun', -⟩ := append_holds hu hus p 0
    have hv : (answer K v (.append p 0)).2 = v' := by simp only [answer, call, heq]
    rw [hv, List.replicate_succ']
    exact ⟨⟨_, hv'⟩, hun.trans hun' (hu.length_mono hv')⟩

/-- The reply to the `append` after them tells whether path `b` is free as well. -/
theorem occupied_seen (hs : Holds K s [] cs) {b : Nat}
    (hfr : ∀ i < b, Usable K.RecCount (s.disk i)) (p : T) :
    let u := after (answer K) s (List.replicate (b * perBlock K) (.append p 0))
    (answer K u (.append p 0)).1.reply = .code true .ok ↔ Usable K.RecCount (s.disk b) := by
  intro u
  obtain ⟨⟨cs', hu⟩, hun⟩ := after_appends hs hfr p (Nat.le_refl _)
  have hfull : (List.replicate (b * perBlock K) p).length % perBlock K = 0 := by
    rw [List.length_replicate, Nat.mul_mod_left]
  have hlen : u.tiles.length = b := by
    rw [hu.tiles_length, blockCount, if_pos hfull, List.length_replicate,
      Nat.mul_div_cancel _ (perBlock_pos K), Nat.add_zero]
  have hdi : u.disk u.tiles.length = s.disk b := by
    rw [hun _ (Nat.le_refl _), hlen]
  rw [← hdi]
  constructor
  · intro hre
    by_contra hocc
    obtain ⟨u', heq⟩ := append_occupied hu hfull hocc p 0
    have heq' : append K p 0 u = _ := heq
    simp only [answer, call, heq'] at hre
    cases hre
  · intro hus
    obtain ⟨r, u', heq, rfl, -⟩ := append_holds hu (fun _ => hus) p 0
    have heq' : append K p 0 u = _ := heq
    simp only [answer, call, heq']

/-! ## Truncation -/

/-- The rows in use in the first `n` blocks. -/
def rowsInUse (s : Blockchain F) (n : Nat) : Nat :=
  ((List.range n).map fun b =>
    ((fileRows (s.disk b)).takeWhile fun r => decide (r.type ≠ RecordType.empty)).length).sum

/-- The three counters of `s'` count the first `min(k, block count)` blocks of `s`. -/
def CountsFirst (k : Nat) (s s' : Blockchain F) : Prop :=
  getBlockCount s' = min k (getBlockCount s) ∧
    getChecksumValidBlockCount s' = min k (getBlockCount s) ∧
    getRecCount s' = rowsInUse s (min k (getBlockCount s))

/-- **Reset.**  For every reachable chain: `truncate(0)` makes it as good as a new
object exactly when no row had been counted and no block path is occupied by
something else; `truncate(k)` leaves the counters right exactly when the two it does
not touch were so before. -/
theorem reset_iff [Inhabited T] (K : Params) (disk : Nat → Entry F.Body) (fc : Nat)
    (ops : List (ReachOp T)) (s : Blockchain F)
    (hrun : run (reachStep K) (create K disk fc) ops = some s) :
    (FreshStart K (truncate 0 s) ↔ getRecCount s = 0 ∧ ∀ b, Usable K.RecCount (s.disk b)) ∧
    ∀ k, CountsFirst k s (truncate k s) ↔ getChecksumValidBlockCount s = min k (getBlockCount s) ∧
        getRecCount s = rowsInUse s (min k (getBlockCount s)) := by
  refine ⟨⟨?_, ?_⟩, ?_⟩
  · intro hfr
    refine ⟨hfr.recCount, ?_⟩
    have hva : (truncate 0 s).checksumValidBlockCount = 0 := hfr.checksumValidBlockCount
    have hs : Holds K (truncate 0 s) [] fun _ => F.zero := holds_nil rfl hfr.recCount hva _
    have hnew : Holds K (create K (fun _ => .missing) 0) [] fun _ => F.zero :=
      holds_nil rfl rfl rfl _
    intro b
    induction b using Nat.strong_induction_on with
    | _ b ih =>
      -- the append that reaches path `b` succeeds on the new object
      have htr := hfr.trace
        (List.replicate (b * perBlock K) (.append default 0) ++ [.append default 0])
      rw [trace_snoc, trace_snoc] at htr
      have hre := congrArg Answer.reply (List.singleton_inj.mp
        (List.append_inj_right' htr (by simp)))
      refine (occupied_seen hs ih (default : T)).mp ?_
      rw [hre]
      exact (occupied_seen hnew (fun i _ => .inl rfl) (default : T)).mpr (.inl rfl)
  · rintro ⟨hrec, hus⟩
    have hva : s.checksumValidBlockCount = 0 := reach_counters hrun hrec
    refine ⟨hrec, hva, rfl, fun cs => trace_eq_of_sim alike_answer ?_ cs⟩
    have hs : Holds K (truncate 0 s) [] fun _ => F.zero :=
      holds_nil (s := truncate 0 s) rfl hrec hva _
    exact ⟨⟨[], _, hs, holds_nil rfl rfl rfl _⟩, rfl, fun b _ => hus b, fun b _ => .inl rfl⟩
  · intro k
    have hcount : getBlockCount (truncate k s) = min k (getBlockCount s) := List.length_take
    exact ⟨fun h => ⟨h.2.1, h.2.2⟩, fun h => ⟨hcount, h.1, h.2⟩⟩

/-- One row appended and one block kept; and an object over the folder this leaves, truncated
before it has looked at the block. -/
theorem reset_iff_oneBlock : ∃ s, run (reachStep (F := digestFormat Nat) fourRows)
        (create fourRows (fun _ => .missing) 0) [.append 7 0] = some s ∧
      CountsFirst 1 s (truncate 1 s) ∧ rowsInUse s 1 = 2 ∧
      FreshStart fourRows (truncate 0 (create fourRows s.disk 1)) := by
  obtain ⟨s, hrun, hin⟩ : ∃ s, run (reachStep (F := digestFormat Nat) fourRows)
      (create fourRows (fun _ => .missing) 0) [.append 7 0] = some s ∧ rowsInUse s 1 = 2 := by
    decide
  have hnew : Keeps fourRows (create (F := digestFormat Nat) fourRows (fun _ => .missing) 0) [] :=
    keeps_create fun _ => .inl rfl
  obtain ⟨_, s', happ, rfl, hs⟩ := hnew.append 7 0
  obtain rfl : s' = s := by
    simpa only [run, reachStep, opStep, happ, Option.some.injEq] using hrun
  obtain ⟨cs, hcs⟩ := hs.holds
  have hcount : getBlockCount s' = 1 := hs.tiles_length
  refine ⟨s', hrun, ((reset_iff fourRows _ 0 _ s' hrun).2 1).mpr ?_, hin,
    (reset_iff fourRows s'.disk 1 [] _ rfl).1.mpr ⟨rfl, fun b => ?_⟩⟩
  · rw [hcount]
    exact ⟨hs.valid_eq.trans hcount, hs.recCount_eq.trans hin.symm⟩
  · by_cases hb : b < s'.tiles.length
    · exact .inr ⟨_, (hcs.tile b _ (List.getElem?_eq_getElem hb)).1⟩
    · exact hs.extensible b (Nat.le_of_not_lt hb)

/-- One row appended, then `truncate(0)`: two rows and one valid block are still
counted, and the next `append` throws, where on a new object it succeeds. -/
theorem truncate_after_append_not_fresh : ∃ s, run (reachStep (F := digestFormat Nat) fourRows)
        (create fourRows (fun _ => .missing) 0) [.append 7 0] = some s ∧
      ¬ FreshStart fourRows (truncate 0 s) ∧ ¬ CountsFirst 0 s (truncate 0 s) ∧
      ((call fourRows (truncate 0 s) (.append 8 0)).1
        = .failed (.thrown "TileFile: index too large")) := by
  obtain ⟨s, hs, hrec, hva, hca⟩ : ∃ s, run (reachStep (F := digestFormat Nat) fourRows)
      (create fourRows (fun _ => .missing) 0) [.append 7 0] = some s ∧ getRecCount s = 2 ∧
      getChecksumValidBlockCount s = 1 ∧ outcome (append fourRows 8 0 (truncate 0 s))
        = .error (.thrown "TileFile: index too large") := by decide
  refine ⟨s, hs, fun h => ?_, fun h => ?_, ?_⟩
  · have h0 : getRecCount s = 0 := h.recCount
    omega
  · have h0 : getChecksumValidBlockCount s = min 0 (getBlockCount s) := h.2.1
    rw [Nat.zero_min] at h0
    omega
  · obtain ⟨s', hs'⟩ := outcome_error hca
    rw [call, hs']

end GradidoNode.Blockchain
