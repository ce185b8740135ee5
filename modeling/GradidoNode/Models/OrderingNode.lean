/-
# `GradidoNode.Models.OrderingNode` — the ordering node of the Erlang model

`nd_ordering_node` is a process that has a subcluster blockchain and takes messages one after
the other.  It begins with the transaction that puts it into the blockchain; a message
`{{sb_append_transaction, T}, Signature}` has it call `sb_append_transaction`, and what is
returned is its blockchain from then on.  What is returned is an atom where the transaction
is rejected:

    ordering_node_exists   the ordering node is in the blockchain
    unknown_admin          it is signed with the key of somebody else
    bad_signature          the signature is wrong

With an atom in place of the blockchain, `sb_append_transaction` matches no clause at the
next transaction, and the process ends.  So the node goes on just as long as it is sent
transactions that are accepted (`survives_iff`).
-/
import GradidoNode.Models.Subcluster

namespace GradidoNode

open Lib
open Lib.Erlang (Crash Dict except_bind_eq_ok)

namespace Models

/-- `#topic{}`. -/
structure Topic where
  seqNum : Int := 1

/-- `#node{}` and `#onod{}`. -/
structure Node where
  kp : Term
  sb : Sb
  topics : Dict Term Topic

/-- What the process does after a message. -/
inductive Next where
  | listening (node : Node)
  | finished

variable (rt : Runtime)

def sbGetAllEndpoints (_ : Sb) : Term := .atom .todo

/-- `ep_send`: what it sends is not looked at here. -/
def epSend : Term → Except Crash Unit
  | .pair (.atom .endpoint) _ => .ok ()
  | _ => .error .functionClause

def ndNotifyAll : Term → Except Crash Unit
  | .nil => .ok ()
  | .cons h t => do
    epSend h
    ndNotifyAll t
  | _ => .error .functionClause

/-- `nd_ordering_node` at `init`; `sb_get_key` wants a `#subl{}`. -/
def ndInit (sb : Sb) (kp signedTransaction : Term) : Except Crash Node := do
  match ← sbAppendTransaction rt sb signedTransaction with
  | .ok subl => return { kp := kp, sb := .ok subl, topics := [(subl.iKey, {})] }
  | .error _ => throw .functionClause

/-- `dict:store` of the next sequence number. -/
def nextSeqNum (blockchainId : Term) (topics : Dict Term Topic) : Dict Term Topic :=
  topics.map fun e => if e.1 = blockchainId then (e.1, { seqNum := e.2.seqNum + 1 }) else e

/-- `nd_ordering_node` when a message comes. -/
def ndOrderingNode (node : Node) : Term → Except Crash Next
  | .pair (.triple (.atom .doOrder) blockchainId _) _ =>
    if Dict.isKey blockchainId node.topics then do
      ndNotifyAll (sbGetAllEndpoints node.sb)
      return .listening { node with topics := nextSeqNum blockchainId node.topics }
    else return .listening node
  | .pair (.pair (.atom .sbAppendTransaction) consensedTransaction) _ => do
    let sb ← sbAppendTransaction rt node.sb consensedTransaction
    return .listening { node with sb := sb }
  | .pair (.pair (.atom .finish) _) _ => return .finished
  | _ => return .listening node

/-- A message with a transaction of an accepted shape. -/
structure Message where
  transaction : Term
  signature : Term
  shaped : isOrderingNode transaction = true

def Message.toTerm (m : Message) : Term :=
  .pair (.pair (.atom .sbAppendTransaction) m.transaction) m.signature

/-- A message is handled, and the process listens again. -/
def ndStep (node : Node) (m : Message) : Option Node :=
  match ndOrderingNode rt node m.toTerm with
  | .ok (.listening node') => some node'
  | _ => none

/-! ## Transactions that are accepted -/

/-- The blockchain of the node is a `#subl{}`, the message is handled, the blockchain is a
`#subl{}` again, and the same one where the transaction was rejected. -/
def Survives (node : Node) (m : Message) : Prop :=
  ∃ sb node' sb', node.sb = .ok sb ∧ ndStep rt node m = some node' ∧ node'.sb = .ok sb' ∧
    ∀ e, sbAppendTransaction rt node.sb m.transaction = .ok (.error e) → sb' = sb

/-- The ordering node is a new one, signed by an admin, and the signature is right. -/
def Acceptable (node : Node) (m : Message) : Prop :=
  ∃ sb data publicKey sig, node.sb = .ok sb ∧
    orderingNodeOf m.transaction = some (data, publicKey, sig) ∧ data ∉ sb.oNodes ∧
    Dict.isKey publicKey sb.admins = true ∧ sigVerify rt data sig = .ok true

variable {rt} {node node' : Node} {m : Message}

theorem ndOrderingNode_message (node : Node) (m : Message) : ndOrderingNode rt node m.toTerm =
      (sbAppendTransaction rt node.sb m.transaction >>= fun sb =>
        pure (.listening { node with sb := sb })) := rfl

/-- What `sb_append_transaction` returns is the blockchain from then on. -/
theorem ndStep_eq_some : ndStep rt node m = some node' ↔
      ∃ sb, sbAppendTransaction rt node.sb m.transaction = .ok sb ∧
        node' = { node with sb := sb } := by
  rw [ndStep, ndOrderingNode_message]
  cases sbAppendTransaction rt node.sb m.transaction with
  | error e => exact ⟨fun h => (nomatch h), fun ⟨_, h, _⟩ => (nomatch h)⟩
  | ok sb =>
    constructor
    · intro h
      exact ⟨sb, rfl, (Option.some.inj h).symm⟩
    · rintro ⟨sb', h, rfl⟩
      cases h
      rfl

/-- With an atom in place of the blockchain no clause matches. -/
theorem sbAppendTransaction_error (e : SbError) (t : Term) :
    sbAppendTransaction rt (.error e) t = .error .functionClause := by
  unfold sbAppendTransaction
  split
  · rename_i heq
    cases heq
  · rename_i heq
    cases heq
  · rfl

/-- The newest block begins with a checksum. -/
def Appendable (b : Bc) : Prop := ∃ x rows rest, b.blocks = .cons (.cons (checksum x) rows) rest

theorem Appendable.append {b : Bc} (h : Appendable b) (phash2 : Term → Int) (rec : Term) :
    ∃ b', bcAppend phash2 b rec = .ok b' := by
  obtain ⟨x, rows, rest, hbl⟩ := h
  obtain ⟨blocks, n, l⟩ := b
  cases hbl
  by_cases hl : l = BLOCK_SIZE
  · exact ⟨_, if_pos hl⟩
  · exact ⟨_, if_neg hl⟩

theorem appendable_of_append {phash2 : Term → Int} {b b' : Bc} {rec : Term}
    (h : bcAppend phash2 b rec = .ok b') : Appendable b' := by
  unfold bcAppend at h
  split at h
  · cases h
    exact ⟨_, _, _, rfl⟩
  · split at h
    · cases h
      exact ⟨_, _, _, rfl⟩
    · cases h
      exact ⟨_, _, _, rfl⟩
  · cases h

/-- The blockchain of the node is a `#subl{}` that can be appended to. -/
def Ready (node : Node) : Prop := ∃ sb, node.sb = .ok sb ∧ Appendable sb.bc

theorem ready_init {sb : Sb} {kp t : Term} (h : ndInit rt sb kp t = .ok node) : Ready node := by
  obtain ⟨sb₂, hsb, hno⟩ := except_bind_eq_ok.mp h
  cases sb₂ with
  | error e => cases hno
  | ok subl =>
    cases hno
    cases sb with
    | error e =>
      rw [sbAppendTransaction_error] at hsb
      cases hsb
    | ok sb =>
      obtain ⟨data, bc, -, hbc, rfl⟩ := sbAppendTransaction_ok hsb
      exact ⟨_, rfl, appendable_of_append hbc⟩

theorem sbAppendTransaction_iff {sb : Subl} (h : Appendable sb.bc) {t : Term} :
    (∃ sb', sbAppendTransaction rt (.ok sb) t = .ok (.ok sb')) ↔
      ∃ data publicKey sig, orderingNodeOf t = some (data, publicKey, sig) ∧ data ∉ sb.oNodes ∧
        Dict.isKey publicKey sb.admins = true ∧ sigVerify rt data sig = .ok true := by
  rw [sbAppendTransaction_eq]
  constructor
  · rintro ⟨sb', hsb⟩
    cases hno : orderingNodeOf t with
    | none =>
      rw [hno] at hsb
      cases hsb
    | some node =>
      obtain ⟨data, publicKey, sig⟩ := node
      rw [hno] at hsb
      change appendOrderingNode rt sb data publicKey sig t = _ at hsb
      unfold appendOrderingNode at hsb
      split at hsb
      · cases hsb
      · rename_i hnew
        split at hsb
        · rename_i hkey
          obtain ⟨b, hb, hsb⟩ := except_bind_eq_ok.mp hsb
          cases b with
          | false => cases hsb
          | true => exact ⟨data, publicKey, sig, rfl, hnew, hkey, hb⟩
        · cases hsb
  · rintro ⟨data, publicKey, sig, hno, hnew, hkey, hsig⟩
    obtain ⟨bc, hbc⟩ := h.append rt.phash2 t
    refine ⟨{ sb with bc := bc, oNodes := data :: sb.oNodes }, ?_⟩
    rw [hno]
    show appendOrderingNode rt sb data publicKey sig t = _
    rw [appendOrderingNode, if_neg hnew, if_pos hkey, hsig]
    rw [hbc]
    rfl

/-- One message: the node survives it just if its transaction is accepted. -/
theorem survives_message (h : Ready node) : (Survives rt node m ↔ Acceptable rt node m) ∧
      (Survives rt node m → ∀ node', ndStep rt node m = some node' → Ready node') := by
  obtain ⟨sb, hsb, hbc⟩ := h
  have hiff : Survives rt node m ↔
      ∃ sb', sbAppendTransaction rt (.ok sb) m.transaction = .ok (.ok sb') := by
    rw [← hsb]
    constructor
    · rintro ⟨-, node', sb', -, hst, hsb', -⟩
      obtain ⟨r, hr, rfl⟩ := ndStep_eq_some.mp hst
      exact ⟨sb', hr.trans (congrArg _ hsb')⟩
    · rintro ⟨sb', hr⟩
      refine ⟨sb, _, sb', hsb, ndStep_eq_some.mpr ⟨_, hr, rfl⟩, rfl, fun e he => ?_⟩
      cases hr.symm.trans he
  constructor
  · rw [hiff, sbAppendTransaction_iff hbc]
    constructor
    · rintro ⟨data, publicKey, sig, hac⟩
      exact ⟨sb, data, publicKey, sig, hsb, hac⟩
    · rintro ⟨sb₁, data, publicKey, sig, hsb₁, hac⟩
      cases hsb.symm.trans hsb₁
      exact ⟨data, publicKey, sig, hac⟩
  · intro hsu node' hst
    obtain ⟨sb', hr⟩ := hiff.mp hsu
    obtain ⟨r, hr', rfl⟩ := ndStep_eq_some.mp hst
    rw [hsb, hr] at hr'
    cases hr'
    obtain ⟨data, bc, -, hbc', rfl⟩ := sbAppendTransaction_ok hr
    exact ⟨_, rfl, appendable_of_append hbc'⟩

/-- The node survives a sequence of transactions just if all of them are accepted. -/
theorem survives_iff {sb : Sb} {kp t : Term} (h : ndInit rt sb kp t = .ok node)
    (msgs : List Message) :
    Along (ndStep rt) (Survives rt) node msgs ↔ Along (ndStep rt) (Acceptable rt) node msgs := by
  constructor
  · refine along_of_inv Ready (fun n m hn hm => ?_) (ready_init h)
    exact ⟨(survives_message hn).1.mp hm, (survives_message hn).2 hm⟩
  · refine along_of_inv Ready (fun n m hn hm => ?_) (ready_init h)
    have hsu := (survives_message hn).1.mpr hm
    exact ⟨hsu, (survives_message hn).2 hsu⟩

/-! ## A node that is sent its own transaction again -/

def sampleAdmin : Term := adminRecord (.atom (.other 1)) (.atom (.other 1)) (.int 1000)

/-- An ordering node, signed by the admin. -/
def sampleTransaction (opk : Int) : Term :=
  .pair (.triple (.atom .orderingNode) (.int opk) (.other 0))
    (sign sampleRuntime (.triple (.atom .orderingNode) (.int opk) (.other 0)) 1)

def sampleMessage (opk : Int) : Message := ⟨sampleTransaction opk, .nil, rfl⟩

/-- The rows that are there before an ordering node is. -/
def sampleRows : List Term :=
  [.pair sampleAdmin (sign sampleRuntime sampleAdmin 5),
    .triple (.atom .subclasterBlockchain) (.atom (.other 0))
      (.pair (.atom .selfSigned) (.ofList [.int 5000]))]

/-- A subcluster with one admin. -/
def sampleStart : Subl where
  bc := ⟨.ofList [.ofList (checksum (.int 7) :: sampleRows)], 1, 3⟩
  admins := [(.int 1000, [sampleAdmin])]
  iKey := .int 5000

/-- The ordering node of that subcluster. -/
def sampleNode : Node where
  kp := .nil
  sb := .ok { sampleStart with
    bc := ⟨.ofList [.ofList (checksum (.int 7) :: sampleTransaction 3000 :: sampleRows)], 1, 4⟩
    oNodes := [.triple (.atom .orderingNode) (.int 3000) (.other 0)] }
  topics := [(.int 5000, {})]

/-- Another ordering node. -/
theorem survives_iff_secondNode :
    ndInit sampleRuntime (.ok sampleStart) .nil (sampleTransaction 3000) = .ok sampleNode ∧
      Along (ndStep sampleRuntime) (Survives sampleRuntime) sampleNode [sampleMessage 4000] := by
  have hin : ndInit sampleRuntime (.ok sampleStart) .nil (sampleTransaction 3000) =
      .ok sampleNode := rfl
  refine ⟨hin, (survives_iff hin _).mpr ⟨?_, fun _ _ => trivial⟩⟩
  exact ⟨_, _, _, _, rfl, rfl, by decide, rfl, rfl⟩

/-- Its own transaction is rejected; the blockchain of the node is an atom then, and the next
message, which would have been accepted, ends the process. -/
theorem ownTransaction_ends_node :
    sbAppendAdmin sampleRuntime sampleSubl sampleAdmin (sign sampleRuntime sampleAdmin 5) =
        .ok (.ok sampleStart) ∧
      ndInit sampleRuntime (.ok sampleStart) .nil (sampleTransaction 3000) = .ok sampleNode ∧
      Acceptable sampleRuntime sampleNode (sampleMessage 4000) ∧
      (∃ node, ndStep sampleRuntime sampleNode (sampleMessage 3000) = some node ∧
        node.sb = .error .orderingNodeExists ∧
        ndOrderingNode sampleRuntime node (sampleMessage 4000).toTerm = .error .functionClause) ∧
      ¬ Along (ndStep sampleRuntime) (Survives sampleRuntime) sampleNode
        [sampleMessage 3000, sampleMessage 4000] := by
  refine ⟨rfl, rfl, ⟨_, _, _, _, rfl, rfl, by decide, rfl, rfl⟩, ⟨_, rfl, rfl, rfl⟩, ?_⟩
  rintro ⟨⟨sb, node', sb', -, hst, hsb', -⟩, -⟩
  cases hst
  cases hsb'

end Models

end GradidoNode
