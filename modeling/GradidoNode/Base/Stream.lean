/-
# `GradidoNode.Base.Stream` — the rows of a block, sent one by one

A sibling asks for a block (`subscribe_to_blocks`) and is sent its rows.  For each
message a new `BlockProvider` is made and run; what it has to remember is in the call
object: the context with `records_provided`, the number of writes done, and the reply,
which is one object for all messages.

    run           asks the chain for row `records_provided` of the block; the reply says no
                  where there is no chain, where 1000 messages have been written, and
                  where `get_block_record` says no
    write_ready   sends the reply, and the call is done when it says no

`blockProvider_complete`: for a chain of payloads (`Holds`, as `append` leaves it and as a
reopened one is), and whatever is read from it in between, the messages are the rows of
the block that are not EMPTY, in order, and a last one that says no.
-/
import GradidoNode.Base.BlockchainGradido
import GradidoNode.Base.Serve
import GradidoNode.Rpc.RpcsService
import GradidoNode.Storage.Counters
import GradidoNode.Storage.Records
import GradidoNode.Wire.PairedTransaction

namespace GradidoNode.Base

open Lib Blockchain FileTile

variable {T : Type} {F : RowFormat T}

/-! ## The provider -/

/-- `grpr::BlockRecord`; `none` is a message in which the bytes have not been set. -/
structure BlockRecord (F : RowFormat T) where
  success : Bool
  record : Option F.Body

/-- What the other side makes of it. -/
def BlockRecord.message (r : BlockRecord F) : Option (Option F.Body) :=
  if r.success then some r.record else none

/-- `BlockCallData`, with the context a `BlockProvider` puts there, and what has been sent. -/
structure BlockCall (F : RowFormat T) where
  data : RpcsService.CallData
  /-- `records_provided` -/
  ctx : Option UInt32
  reply : BlockRecord F
  sent : List (BlockRecord F)

/-- A call that has come in. -/
def BlockCall.constructed : BlockCall F where
  data := { RpcsService.CallData.constructed .subscribeToBlocks with status := .process }
  ctx := none
  reply := ⟨false, none⟩
  sent := []

def BlockCall.writeReady (c : BlockCall F) : BlockCall F :=
  { c with
    data := { c.data with
      writesDone := c.data.writesDone + 1
      done := c.data.done || !c.reply.success }
    sent := c.sent ++ [c.reply] }

/-- `reply->set_success(false)`. -/
def BlockCall.refuse (c : BlockCall F) : BlockCall F :=
  { c with reply := { c.reply with success := false } }

/-- A `BlockProvider` is constructed and run; `ab` says if the facade has the chain. -/
def blockProvider (cfg : Conf) (ab : Bool) (blockId : UInt32) (now : Nat) (c : BlockCall F) :
    ChainM F (BlockCall F) := do
  let recordsProvided := c.ctx.getD 0
  let offset := UInt64.ofNat GRADIDO_BLOCK_SIZE * blockId.toUInt64
  let seqNum := recordsProvided.toUInt64 + offset
  let c := { c with ctx := some (recordsProvided + 1) }
  if !ab || c.data.writesDone == UInt64.ofNat GRADIDO_BLOCK_SIZE then return c.refuse.writeReady
  else
    match ← getBlockRecord cfg seqNum.toNat now with
    | none => return c.refuse.writeReady
    -- a row of another type leaves the bytes of the last message
    | some bytes => return { c with reply := ⟨true, bytes <|> c.reply.record⟩ }.writeReady

/-! ## One request -/

/-- What happens on the way: the provider runs, or someone else reads. -/
inductive StreamEvent where
  | run (now : Nat)
  | getBlock (index now : Nat)
  | getRecord (index now : Nat)
  | flushCache (now : Nat)

def StreamEvent.isRun : StreamEvent → Bool
  | .run _ => true
  | _ => false

/-- One event.  No provider is made for a call that is done (`do_process`). -/
def streamStep (cfg : Conf) (blockId : UInt32) (s : BlockCall F × Blockchain F) :
    StreamEvent → Option (BlockCall F × Blockchain F)
  | .run now =>
    if s.1.data.done then none
    else
      match blockProvider cfg true blockId now s.1 s.2 with
      | .ok c st => some (c, st)
      | .error _ _ => none
  | .getBlock i now => (opStep cfg.K s.2 (.getBlock i now)).map fun st => (s.1, st)
  | .getRecord i now => (opStep cfg.K s.2 (.getRecord i now)).map fun st => (s.1, st)
  | .flushCache now => (opStep cfg.K s.2 (.flushCache now)).map fun st => (s.1, st)

/-- How often the provider ran. -/
def turns (es : List StreamEvent) : Nat := es.countP StreamEvent.isRun

/-- The rows in use of a block, and a message that says no. -/
def blockMessages (s : Blockchain F) (b : Nat) : List (Option (Option F.Body)) :=
  (if b < s.tiles.length then filledRows (s.disk b) else []).map (fun r => some (some r.body))
    ++ [none]

/-! ## What is sent -/

section Sent

variable {cfg : Conf} {ps : List T} {cs : Nat → F.Checksum} {st : Blockchain F} {b : Nat}

/-- The bytes of the rows of a block, the CHECKSUM row last. -/
def blockBodies (F : RowFormat T) (K : Params) (ps : List T) (cs : Nat → F.Checksum) (b : Nat) :
    List F.Body :=
  if b < blockCount K ps.length then (chunk K ps b).map F.ofPayload ++ [F.ofChecksum (cs b)] else []

theorem blockMessages_eq {K : Params} (h : Holds K st ps cs) (b : Nat) :
    blockMessages st b = (blockBodies F K ps cs b).map (fun r => some (some r)) ++ [none] := by
  rw [blockMessages, blockBodies, h.tiles_length]
  congr 1
  by_cases hb : b < blockCount K ps.length
  · have hst := (h.tile b _ (List.getElem?_eq_getElem (show b < st.tiles.length by
      rw [h.tiles_length]; exact hb))).1
    rw [if_pos hb, if_pos hb, filledRows_stores hst (chunk_length_lt _ _ _)]
    simp [RowFormat.payloadRow, RowFormat.checksumRow]
  · rw [if_neg hb, if_neg hb]
    rfl

/-- The PAYLOAD rows of a chain hold their payloads and nothing else. -/
theorem payload_body {K : Params} (h : Holds K st ps cs) (hb : b < st.tiles.length)
    {r : Row F.Body} (hr : r ∈ filledRows (st.disk b)) (htype : r.type = RecordType.payload) :
    F.payload r.body ∈ ps ∧ r.body = F.ofPayload (F.payload r.body) := by
  have hst := (h.tile b _ (List.getElem?_eq_getElem hb)).1
  rw [filledRows_stores hst (chunk_length_lt _ _ _)] at hr
  rcases List.mem_append.mp hr with hr | hr
  · obtain ⟨p, hp, rfl⟩ := List.mem_map.mp hr
    have hbo : F.payload (F.payloadRow p).body = p := F.payload_ofPayload p
    rw [hbo]
    exact ⟨List.mem_of_mem_drop (List.mem_of_mem_take hp), rfl⟩
  · rw [List.mem_singleton.mp hr, RowFormat.checksumRow_type] at htype
    exact absurd htype (by decide)

theorem blockBodies_length_le (hK : cfg.K.RecCount = GRADIDO_BLOCK_SIZE) (b : Nat) :
    (blockBodies F cfg.K ps cs b).length ≤ GRADIDO_BLOCK_SIZE := by
  rw [blockBodies]
  split
  · have := chunk_length_lt cfg.K ps b
    simp only [List.length_append, List.length_map, List.length_singleton]
    omega
  · exact Nat.zero_le _

/-- `get_block_record` gives the rows of the block, and says no behind them. -/
theorem getBlockRecord_bodies (hK : cfg.K.RecCount = GRADIDO_BLOCK_SIZE)
    (h : Holds cfg.K st ps cs) {k : Nat} (hk : k ≤ (blockBodies F cfg.K ps cs b).length)
    (hlt : k < GRADIDO_BLOCK_SIZE) (now : Nat) :
    Returns (getBlockRecord cfg (k + GRADIDO_BLOCK_SIZE * b) now) st fun r st' =>
      r = ((blockBodies F cfg.K ps cs b)[k]?).map some ∧ Holds cfg.K st' ps cs := by
  by_cases hb : b < blockCount cfg.K ps.length
  · refine (getBlockRecord_row hK h hb hlt now).mono ?_
    rintro r st' ⟨h', rfl⟩
    refine ⟨?_, h'⟩
    rw [blockBodies, if_pos hb]
    rcases Nat.lt_trichotomy k (chunk cfg.K ps b).length with hl | rfl | hg
    · rw [if_pos (Nat.le_of_lt hl), blockRows_payload (List.getElem?_eq_getElem hl),
        List.getElem?_append_left (by simpa using hl), List.getElem?_map,
        List.getElem?_eq_getElem hl]
      rfl
    · rw [if_pos (Nat.le_refl _), blockRows_length, List.getElem?_append_right (by simp),
        List.length_map, Nat.sub_self]
      rfl
    · rw [if_neg (Nat.not_le.mpr hg), List.getElem?_eq_none (by simp; omega)]
      rfl
  · have hnil : blockBodies F cfg.K ps cs b = [] := by rw [blockBodies, if_neg hb]
    rw [hnil] at hk ⊢
    obtain rfl : k = 0 := Nat.le_zero.mp hk
    exact ⟨none, st, getBlockRecord_outside h (Nat.not_lt.mp hb) now, rfl, h⟩

end Sent

/-! ## One turn -/

/-- After `k` turns the first `k` messages are out. -/
structure Streamed (cfg : Conf) (ps : List T) (cs : Nat → F.Checksum) (b k : Nat)
    (s : BlockCall F × Blockchain F) : Prop where
  holds : Holds cfg.K s.2 ps cs
  provided : (s.1.ctx.getD 0).toNat = k
  writes : s.1.data.writesDone.toNat = k
  sent : s.1.sent.map BlockRecord.message
    = ((blockBodies F cfg.K ps cs b).map (fun r => some (some r)) ++ [none]).take k
  done : s.1.data.done = true ↔ k = (blockBodies F cfg.K ps cs b).length + 1
  le : k ≤ (blockBodies F cfg.K ps cs b).length + 1

namespace Streamed

variable {cfg : Conf} {ps : List T} {cs : Nat → F.Checksum} {blockId : UInt32} {k : Nat}
  {s s' : BlockCall F × Blockchain F}

theorem start {st : Blockchain F} (h : Holds cfg.K st ps cs) (b : Nat) :
    Streamed cfg ps cs b 0 (.constructed, st) where
  holds := h
  provided := rfl
  writes := rfl
  sent := rfl
  done := ⟨fun hd => absurd hd Bool.false_ne_true, fun hk => by omega⟩
  le := Nat.zero_le _

theorem seqNum_toNat {p : UInt32} (hp : p.toNat ≤ GRADIDO_BLOCK_SIZE) (blockId : UInt32) :
    (p.toUInt64 + UInt64.ofNat GRADIDO_BLOCK_SIZE * blockId.toUInt64).toNat
      = p.toNat + GRADIDO_BLOCK_SIZE * blockId.toNat := by
  have hb := blockId.toNat_lt
  have hsize : GRADIDO_BLOCK_SIZE = 1000 := rfl
  simp only [hsize] at hp ⊢
  rw [UInt64.toNat_add, UInt64.toNat_mul, UInt32.toNat_toUInt64, UInt32.toNat_toUInt64,
    show (UInt64.ofNat 1000).toNat = 1000 from rfl]
  omega

theorem written (h : Streamed cfg ps cs blockId.toNat k s) (hk : k ≤ GRADIDO_BLOCK_SIZE)
    (hroom : k < (blockBodies F cfg.K ps cs blockId.toNat).length + 1) {c : BlockCall F}
    {st : Blockchain F} (hda : c.data = s.1.data) (hctx : c.ctx = some (s.1.ctx.getD 0 + 1))
    (hse : c.sent = s.1.sent) (hst : Holds cfg.K st ps cs)
    (hmsg : c.reply.message = ((blockBodies F cfg.K ps cs blockId.toNat)[k]?).map some) :
    Streamed cfg ps cs blockId.toNat (k + 1) (c.writeReady, st) := by
  have hsize : GRADIDO_BLOCK_SIZE = 1000 := rfl
  have hop : s.1.data.done = false :=
    Bool.eq_false_iff.mpr fun hd => absurd (h.done.mp hd) (by omega)
  refine ⟨hst, ?_, ?_, ?_, ?_, hroom⟩
  · show (c.ctx.getD 0).toNat = k + 1
    rw [hctx, Option.getD_some, UInt32.toNat_add, h.provided, show (1 : UInt32).toNat = 1 from rfl]
    omega
  · show (c.data.writesDone + 1).toNat = k + 1
    rw [hda, UInt64.toNat_add, h.writes, show (1 : UInt64).toNat = 1 from rfl]
    omega
  · show (c.sent ++ [c.reply]).map BlockRecord.message = _
    have hne : ((blockBodies F cfg.K ps cs blockId.toNat).map (fun r => some (some r))
        ++ [none])[k]? = some (((blockBodies F cfg.K ps cs blockId.toNat)[k]?).map some) := by
      rcases Nat.lt_or_eq_of_le (Nat.le_of_lt_succ hroom) with hlt | rfl
      · rw [List.getElem?_append_left (by simpa using hlt), List.getElem?_map,
          List.getElem?_eq_getElem hlt]
        rfl
      · rw [List.getElem?_append_right (by simp), List.length_map, Nat.sub_self,
          List.getElem?_eq_none (Nat.le_refl _)]
        rfl
    rw [List.take_add_one, hne, hse, List.map_append, h.sent, List.map_singleton, hmsg]
    rfl
  · show (c.data.done || !c.reply.success) = true ↔ _
    rw [hda, hop, Bool.false_or, Bool.not_eq_true']
    unfold BlockRecord.message at hmsg
    cases hsu : c.reply.success with
    | false =>
      rw [hsu, if_neg Bool.false_ne_true] at hmsg
      have hno := List.getElem?_eq_none_iff.mp (Option.map_eq_none_iff.mp hmsg.symm)
      exact ⟨fun _ => by omega, fun _ => rfl⟩
    | true =>
      rw [hsu, if_pos rfl] at hmsg
      obtain ⟨r, hr, -⟩ := Option.map_eq_some_iff.mp hmsg.symm
      have hlt := (List.getElem?_eq_some_iff.mp hr).1
      exact ⟨fun hf => absurd hf.symm Bool.false_ne_true, fun hk => by omega⟩

/-- The provider runs while there is something to be sent. -/
theorem turn (hK : cfg.K.RecCount = GRADIDO_BLOCK_SIZE) (h : Streamed cfg ps cs blockId.toNat k s)
    (hroom : k < (blockBodies F cfg.K ps cs blockId.toNat).length + 1) (now : Nat) :
    ∃ s', streamStep cfg blockId s (.run now) = some s' ∧
      Streamed cfg ps cs blockId.toNat (k + 1) s' := by
  have hle : (blockBodies F cfg.K ps cs blockId.toNat).length ≤ GRADIDO_BLOCK_SIZE :=
    blockBodies_length_le hK _
  have hop : ¬ s.1.data.done = true := fun hd => absurd (h.done.mp hd) (by omega)
  have hwr : s.1.data.writesDone = UInt64.ofNat GRADIDO_BLOCK_SIZE ↔ k = GRADIDO_BLOCK_SIZE := by
    rw [← UInt64.toNat_inj, h.writes]
    rfl
  have hseq := seqNum_toNat (by rw [h.provided]; omega) blockId
  rw [h.provided] at hseq
  rw [streamStep, if_neg hop, blockProvider]
  by_cases hfull : k = GRADIDO_BLOCK_SIZE
  · -- a full block: the number of writes says that it is over
    rw [if_pos (by simpa using hwr.mpr hfull)]
    refine ⟨_, rfl, h.written (by omega) hroom rfl rfl rfl h.holds ?_⟩
    rw [List.getElem?_eq_none (by omega)]
    rfl
  · rw [if_neg (by simpa using fun hw => hfull (hwr.mp hw)), hseq]
    obtain ⟨r, st, heq, rfl, hst⟩ :=
      getBlockRecord_bodies hK h.holds (Nat.le_of_lt_succ hroom) (by omega) now
    rw [bind_eq heq]
    cases hbo : (blockBodies F cfg.K ps cs blockId.toNat)[k]? with
    | none => exact ⟨_, rfl, h.written (by omega) hroom rfl rfl rfl hst (by rw [hbo]; rfl)⟩
    | some body => exact ⟨_, rfl, h.written (by omega) hroom rfl rfl rfl hst (by rw [hbo]; rfl)⟩

theorem read (h : Streamed cfg ps cs blockId.toNat k s) (op : ChainOp T) {st : Blockchain F}
    (hop : ∀ p now, op ≠ .append p now) (hs : opStep cfg.K s.2 op = some st) :
    Streamed cfg ps cs blockId.toNat k (s.1, st) := by
  rcases (opStep_cases h.holds hs).2 with ⟨-, hst⟩ | ⟨p, now, rfl, -⟩
  · exact ⟨hst, h.provided, h.writes, h.sent, h.done, h.le⟩
  · exact absurd rfl (hop p now)

theorem step (hK : cfg.K.RecCount = GRADIDO_BLOCK_SIZE) (h : Streamed cfg ps cs blockId.toNat k s)
    (e : StreamEvent) :
    (streamStep cfg blockId s e = none ∧
      (blockBodies F cfg.K ps cs blockId.toNat).length + 1 < k + e.isRun.toNat) ∨
    ∃ s', streamStep cfg blockId s e = some s' ∧
      Streamed cfg ps cs blockId.toNat (k + e.isRun.toNat) s' := by
  cases e with
  | run now =>
    by_cases hroom : k < (blockBodies F cfg.K ps cs blockId.toNat).length + 1
    · exact .inr (h.turn hK hroom now)
    · have hk := h.le
      refine .inl ⟨?_, by show _ < k + 1; omega⟩
      rw [streamStep, if_pos (h.done.mpr (by omega))]
  | getBlock i now => exact .inr ⟨_, rfl, h.read (.getBlock i now) (fun p now h => by cases h) rfl⟩
  | getRecord i now => exact .inr ⟨_, rfl, h.read (.getRecord i now) (fun p now h => by cases h) rfl⟩
  | flushCache now => exact .inr ⟨_, rfl, h.read (.flushCache now) (fun p now h => by cases h) rfl⟩

theorem run (hK : cfg.K.RecCount = GRADIDO_BLOCK_SIZE) (h : Streamed cfg ps cs blockId.toNat k s)
    (es : List StreamEvent) :
    (Lib.run (streamStep cfg blockId) s es = none ∧
      (blockBodies F cfg.K ps cs blockId.toNat).length + 1 < k + turns es) ∨
    ∃ s', Lib.run (streamStep cfg blockId) s es = some s' ∧
      Streamed cfg ps cs blockId.toNat (k + turns es) s' := by
  induction es generalizing k s with
  | nil => exact .inr ⟨s, rfl, h⟩
  | cons e es ih =>
    have htu : turns (e :: es) = e.isRun.toNat + turns es := by
      rw [turns, turns, List.countP_cons]
      cases e.isRun <;> simp [Nat.add_comm]
    rw [htu, ← Nat.add_assoc]
    rcases h.step hK e with ⟨hno, hlt⟩ | ⟨s', hs', h'⟩
    · exact .inl ⟨by rw [Lib.run, hno], by omega⟩
    · rw [Lib.run, hs']
      exact ih h'

end Streamed

/-- **Block streaming.**  The provider runs for a request as often as there are messages, that is
one for each row in use of the block and one that says no; whatever else is read in between, the
messages are these, in order, and the call is done with the last.  What is sent of a PAYLOAD row is
the bytes of its payload. -/
theorem blockProvider_complete (cfg : Conf) (hK : cfg.K.RecCount = GRADIDO_BLOCK_SIZE)
    (st : Blockchain F) (ps : List T) (cs : Nat → F.Checksum) (h : Holds cfg.K st ps cs)
    (blockId : UInt32) (es : List StreamEvent) :
    (turns es ≤ (blockMessages st blockId.toNat).length ↔
      (Lib.run (streamStep cfg blockId) (.constructed, st) es).isSome) ∧
    (∀ c st', Lib.run (streamStep cfg blockId) (.constructed, st) es = some (c, st') →
      c.sent.map BlockRecord.message = (blockMessages st blockId.toNat).take (turns es) ∧
      (c.data.done = true ↔ turns es = (blockMessages st blockId.toNat).length)) ∧
    ∀ r ∈ filledRows (st.disk blockId.toNat), blockId.toNat < st.tiles.length →
      r.type = RecordType.payload → r.body = F.ofPayload (F.payload r.body) := by
  have hlen : (blockMessages st blockId.toNat).length
      = (blockBodies F cfg.K ps cs blockId.toNat).length + 1 := by
    rw [blockMessages_eq h]
    simp
  rw [hlen, ← and_assoc]
  refine ⟨?_, fun r hr hb htype => (payload_body h hb hr htype).2⟩
  rcases (Streamed.start h blockId.toNat).run hK es with ⟨hno, hlt⟩ | ⟨s', hs', h'⟩
  · rw [hno]
    exact ⟨⟨fun hle => by omega, fun hf => by cases hf⟩, fun c st' hf => by cases hf⟩
  · rw [Nat.zero_add] at h'
    rw [hs']
    refine ⟨⟨fun _ => rfl, fun _ => h'.le⟩, fun c st' heq => ?_⟩
    cases heq
    rw [blockMessages_eq h]
    exact ⟨h'.sent, h'.done⟩

/-- A block of one payload: three messages. -/
theorem blockProvider_complete_onePayload :
    ∃ (st : Blockchain (digestFormat Nat)) (c : BlockCall (digestFormat Nat))
      (st' : Blockchain (digestFormat Nat)),
      Lib.run (opStep BlockchainGradido.groupConf.K)
        (Blockchain.create BlockchainGradido.groupConf.K (fun _ => .missing) 0) [.append 7 0]
          = some st ∧
      Lib.run (streamStep BlockchainGradido.groupConf 0) (.constructed, st)
        [.run 0, .getBlock 0 0, .run 0, .run 0] = some (c, st') ∧
      c.data.done = true ∧ c.sent.map BlockRecord.message = blockMessages st 0 := by
  let es : List StreamEvent := [.run 0, .getBlock 0 0, .run 0, .run 0]
  obtain ⟨st, hst⟩ : ∃ st : Blockchain (digestFormat Nat),
      Lib.run (opStep BlockchainGradido.groupConf.K)
        (Blockchain.create BlockchainGradido.groupConf.K (fun _ => .missing) 0) [.append 7 0]
          = some st := ⟨_, rfl⟩
  obtain ⟨cs, h⟩ := holds_payloadsOf hst
  obtain ⟨hso, hse, -⟩ := blockProvider_complete BlockchainGradido.groupConf rfl st _ cs h 0 es
  have hlen : (blockMessages st (0 : UInt32).toNat).length = 3 := by
    rw [blockMessages_eq h]
    rfl
  obtain ⟨⟨c, st'⟩, hc⟩ := Option.isSome_iff_exists.mp (hso.mp (Nat.le_of_eq hlen.symm))
  obtain ⟨hms, hdo⟩ := hse c st' hc
  rw [show turns es = _ from hlen.symm, List.take_length] at hms
  exact ⟨st, c, st', hst, hc, hdo.mpr hlen.symm, hms⟩

end GradidoNode.Base
