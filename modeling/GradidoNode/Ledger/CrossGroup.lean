/-
# `GradidoNode.Ledger.CrossGroup` — transfers between two group chains

Two group chains `a` and `b` of one node.  A transfer from `a` to `b` is two
transactions: an OUTBOUND_TRANSFER on `a`, and an INBOUND_TRANSFER on `b` that names
the group of `a` and carries the same pairing id.

For a pairing id `p`, in millionths:

    debited p     amounts of SUCCESS OUTBOUND_TRANSFER with id p on `a`
    credited p    amounts of SUCCESS INBOUND_TRANSFER on `b` that name the group of `a` and p

Of the transaction it is paired with, an INBOUND_TRANSFER looks at the result and at
nothing else: not at the amount, not at the type or the id of the row it found, not
at whether it has been used.  `Backed` asks for what is not looked at, of a transfer
that passes the checks: that `a` has stored the outbound transfer, that its amount
covers the inbound one, and that it is used for the first time.

Each chain sees the other through `Chain.view`, if the node has it; all other groups
are the environment's affair, and so is what `on_paired_transaction_done` brings.
-/
import GradidoNode.Ledger.Spending
import Mathlib.Algebra.Order.BigOperators.Group.List

namespace GradidoNode

open Lib

/-- Two chains, by the groups they belong to. -/
structure TwoChains where
  a : Chain
  b : Chain

namespace TwoChains

/-- The names of the two groups, and what a CHECKSUM row of either reads as. -/
structure Setting where
  nameA : Bytes
  nameB : Bytes
  garbageA : Nat → Option Transaction
  garbageB : Nat → Option Transaction

/-- What happens: a batch on one of the chains, or a paired transaction that was waited
for.  `known` says whether the node has the other chain. -/
inductive Event where
  | onA (known : Bool) (others : Env) (tr : Transaction) (parts : List Part)
  | onB (known : Bool) (others : Env) (tr : Transaction) (parts : List Part)
  | pairedDoneA (t : Transaction)
  | pairedDoneB (t : Transaction)

/-- The environment of a chain that sees another one under a name. -/
def envWith (others : Env) (known : Bool) (name : Bytes) (other : ChainView) : Env :=
  { others with
    getGroupBlockchain := fun n =>
      if n = name then if known then some other else none else others.getGroupBlockchain n }

variable (calculateDecay : DecayFunction) (σ : Setting)

/-- The environment in which `b` processes. -/
def envB (s : TwoChains) (known : Bool) (others : Env) : Env :=
  envWith others known σ.nameA (s.a.view σ.garbageA)

/-- The environment in which `a` processes. -/
def envA (s : TwoChains) (known : Bool) (others : Env) : Env :=
  envWith others known σ.nameB (s.b.view σ.garbageB)

/-- One event. -/
def step (s : TwoChains) : Event → Option TwoChains
  | .onA known others tr parts =>
    (Chain.step calculateDecay s.a (.process (s.envA σ known others) tr parts)).map
      fun a => { s with a := a }
  | .onB known others tr parts =>
    (Chain.step calculateDecay s.b (.process (s.envB σ known others) tr parts)).map
      fun b => { s with b := b }
  | .pairedDoneA t =>
    (Chain.step calculateDecay s.a (.pairedTransactionDone t)).map fun a => { s with a := a }
  | .pairedDoneB t =>
    (Chain.step calculateDecay s.b (.pairedTransactionDone t)).map fun b => { s with b := b }

def initial : TwoChains := ⟨Chain.initial, Chain.initial⟩

/-! ## Debits and credits -/

/-- What a row debits for a pairing id. -/
def debitedIn (p : HederaTimestamp) : GradidoRecord → Nat
  | .gradidoTransaction ⟨_, _, .outboundTransfer lt, .success⟩ =>
    if lt.pairedTransactionId = p then lt.amount.millionths else 0
  | _ => 0

/-- Whether a row uses the pairing id of a group. -/
def uses (name : Bytes) (p : HederaTimestamp) : GradidoRecord → Bool
  | .gradidoTransaction ⟨_, _, .inboundTransfer lt, .success⟩ =>
    cstr lt.otherGroup == name && lt.pairedTransactionId == p
  | _ => false

/-- What a row credits for a pairing id of a group. -/
def creditedIn (name : Bytes) (p : HederaTimestamp) : GradidoRecord → Nat
  | .gradidoTransaction ⟨_, _, .inboundTransfer lt, .success⟩ =>
    if cstr lt.otherGroup = name ∧ lt.pairedTransactionId = p then lt.amount.millionths else 0
  | _ => 0

def debited (p : HederaTimestamp) (rows : List GradidoRecord) : Nat :=
  (rows.map (debitedIn p)).sum

def credited (name : Bytes) (p : HederaTimestamp) (rows : List GradidoRecord) : Nat :=
  (rows.map (creditedIn name p)).sum

variable {calculateDecay σ} {p : HederaTimestamp} {name : Bytes}

theorem debited_batch (rows : List GradidoRecord) (tr : Transaction) (parts : List Part) :
    debited p (rows ++ Chain.batch tr parts)
      = debited p rows + debitedIn p (.gradidoTransaction tr) :=
  Chain.sum_batch (by intro q; cases q <;> rfl) rows tr parts

theorem credited_batch (rows : List GradidoRecord) (tr : Transaction) (parts : List Part) :
    credited name p (rows ++ Chain.batch tr parts)
      = credited name p rows + creditedIn name p (.gradidoTransaction tr) :=
  Chain.sum_batch (by intro q; cases q <;> rfl) rows tr parts

/-- A row that does not use the id credits nothing for it. -/
theorem creditedIn_of_unused {r : GradidoRecord} (h : uses name p r = false) :
    creditedIn name p r = 0 := by
  unfold creditedIn
  split
  · rename_i lt
    refine if_neg ?_
    rintro ⟨hna, hid⟩
    simp [uses, hna, hid] at h
  · rfl

theorem credited_of_unused {rows : List GradidoRecord} (h : ∀ r ∈ rows, uses name p r = false) :
    credited name p rows = 0 := by
  refine List.sum_eq_zero ?_
  intro n hn
  obtain ⟨r, hr, rfl⟩ := List.mem_map.mp hn
  exact creditedIn_of_unused (h r hr)

theorem debitedIn_le {rows : List GradidoRecord} {r : GradidoRecord} (hr : r ∈ rows) :
    debitedIn p r ≤ debited p rows :=
  List.single_le_sum (fun _ _ => Nat.zero_le _) _ (List.mem_map_of_mem hr)

/-! ## The condition -/

/-- The checks of an INBOUND_TRANSFER: the receiver is known, and the transaction found
for the pairing id has the result SUCCESS. -/
def passes (env : Env) (l : Ledger) (lt : InboundTransfer) : Bool :=
  (l.userIndex lt.receiver.user).isSome && match Ledger.inboundPaired env l lt with
    | some tt => decide (tt.result = .success)
    | none => false

/-- An INBOUND_TRANSFER from `a` that passes the checks is the first to use its pairing
id, and `a` has stored a SUCCESS OUTBOUND_TRANSFER with that id whose amount covers it. -/
def Backed (σ : Setting) (s : TwoChains) : Event → Prop
  | .onB known others ⟨_, _, .inboundTransfer lt, _⟩ _ =>
    cstr lt.otherGroup = σ.nameA → passes (s.envB σ known others) s.b.ledger lt = true →
      (∀ r ∈ s.b.rows, uses σ.nameA lt.pairedTransactionId r = false) ∧
      ∃ r ∈ s.a.rows, lt.amount.millionths ≤ debitedIn lt.pairedTransactionId r
  | _ => True

/-! ## One event -/

section Step

variable {s s' : TwoChains}

theorem debited_mono {e : Chain.Event} {c c' : Chain}
    (hs : Chain.step calculateDecay c e = some c') : debited p c.rows ≤ debited p c'.rows := by
  rcases Chain.step_cases hs with ⟨-, hro⟩ | ⟨env, tr, parts, tr', -, -, hro⟩
  · rw [hro]
  · rw [hro, debited_batch]
    exact Nat.le_add_right _ _

/-- A transaction that credits something is an INBOUND_TRANSFER that passed the checks. -/
theorem creditedIn_applied {env : Env} {n : Nat} {l l' : Ledger} {tr tr' : Transaction}
    (happ : Ledger.Applied calculateDecay env n l tr l' tr') :
    creditedIn name p (.gradidoTransaction tr') = 0 ∨
      ∃ lt, tr.body = .inboundTransfer lt ∧ passes env l lt = true ∧
        cstr lt.otherGroup = name ∧ lt.pairedTransactionId = p ∧
        creditedIn name p (.gradidoTransaction tr') = lt.amount.millionths := by
  rcases tr with ⟨seq, t, body, result⟩
  cases happ with
  | @refused l' result' hrs hl =>
    left
    cases body <;> cases result' <;> first | rfl | exact absurd rfl hrs
  | other hbo | addGroupFriend hbo hno | removeGroupFriend hbo | addUser hbo hno
  | moveUserInbound hbo hno hpa hsu | moveUserOutbound hbo =>
    cases hbo
    exact .inl rfl
  | gradidoCreation hbo hin hba | localTransfer hbo hse hre ham hch hnew hra
  | outboundTransfer hbo hse ham hch hnew => exact .inl rfl
  | @inboundTransfer lt receiver receiverAmount tt hbo hre hpa hsu hra =>
    by_cases hna : cstr lt.otherGroup = name ∧ lt.pairedTransactionId = p
    · refine .inr ⟨lt, hbo, ?_, hna.1, hna.2, if_pos hna⟩
      simp [passes, hre, hpa, hsu]
    · exact .inl (if_neg hna)

/-- What is credited on `b` is debited on `a`, and one event does not change that. -/
theorem conserved_step {e : Event}
    (h : ∀ p, credited σ.nameA p s.b.rows ≤ debited p s.a.rows) (hba : Backed σ s e)
    (hs : step calculateDecay σ s e = some s') (p : HederaTimestamp) :
    credited σ.nameA p s'.b.rows ≤ debited p s'.a.rows := by
  cases e with
  | onA known others tr parts | pairedDoneA t =>
    rw [step] at hs
    obtain ⟨a, ha, rfl⟩ := Option.map_eq_some_iff.mp hs
    exact Nat.le_trans (h p) (debited_mono ha)
  | pairedDoneB t =>
    rw [step] at hs
    obtain ⟨b, hb, rfl⟩ := Option.map_eq_some_iff.mp hs
    cases hb
    exact h p
  | onB known others tr parts =>
    rw [step] at hs
    obtain ⟨b, hb, rfl⟩ := Option.map_eq_some_iff.mp hs
    rcases Chain.step_cases hb with ⟨-, hro⟩ | ⟨env, tr₀, parts₀, tr', heq, happ, hro⟩
    · show credited σ.nameA p b.rows ≤ _
      rw [hro]
      exact h p
    · cases heq
      rw [hro, credited_batch]
      rcases @creditedIn_applied _ p σ.nameA _ _ _ _ _ _ happ with
        hze | ⟨lt, hbo, hpa, hna, rfl, hcr⟩
      · rw [hze]
        exact h p
      · rcases tr with ⟨seq, t, body, result⟩
        cases hbo
        obtain ⟨hun, r, hr, hco⟩ := hba hna hpa
        rw [credited_of_unused hun, Nat.zero_add, hcr]
        exact Nat.le_trans hco (debitedIn_le hr)

end Step

/-! ## Whole runs -/

/-- **Cross-group conservation, for backed transfers.**  In every interleaving of the two
chains in which every inbound transfer that passes the checks is backed, what `b`
credits for a pairing id of `a` is at most what `a` has debited for it. -/
theorem crossGroup_conserved (calculateDecay : DecayFunction) (σ : Setting) (es : List Event)
    (hbacked : Along (step calculateDecay σ) (Backed σ) initial es) (s : TwoChains)
    (hrun : run (step calculateDecay σ) initial es = some s) (p : HederaTimestamp) :
    credited σ.nameA p s.b.rows ≤ debited p s.a.rows := by
  have hin : ∀ p, credited σ.nameA p initial.b.rows ≤ debited p initial.a.rows :=
    fun _ => Nat.le_refl 0
  exact run_inv (fun s : TwoChains => ∀ p, credited σ.nameA p s.b.rows ≤ debited p s.a.rows)
    (fun _ _ _ hinv hP hs => conserved_step hinv hP hs) hin hbacked hrun p

/-! ## Two runs -/

instance (σ : Setting) (s : TwoChains) (e : Event) : Decidable (Backed σ s e) := by
  unfold Backed
  split <;> infer_instance

/-- Groups "A" and "B". -/
def groupsAB : Setting := ⟨[65], [66], fun _ => none, fun _ => none⟩

/-- A group name of one character. -/
def groupName (c : UInt8) : Vector UInt8 32 := (Vector.replicate 32 0).set 0 c

/-- The pairing id of the two runs. -/
def pairingId : HederaTimestamp := ⟨7, 0⟩

def plainA (body : TransactionBody) : Event :=
  .onA true Chain.noChains ⟨0, HederaTimestamp.zero, body, .unknown⟩ []

def plainB (body : TransactionBody) : Event :=
  .onB true Chain.noChains ⟨0, HederaTimestamp.zero, body, .unknown⟩ []

/-- User 1 of A has five gradidos and sends one to user 2 of B. -/
def sendToB : List Event :=
  [plainA (.addUser (Chain.key 1)), plainA (.gradidoCreation ⟨Chain.userTransfer 1, ⟨5, 0⟩⟩),
    plainA (.outboundTransfer
      ⟨⟨pairingId, groupName 66⟩, ⟨1, 0⟩, Chain.userTransfer 1, Chain.key 2⟩),
    plainB (.addUser (Chain.key 2))]

/-- User 2 of B receives an amount for the pairing id. -/
def receive (amount : GradidoValue) : Event :=
  plainB (.inboundTransfer ⟨⟨pairingId, groupName 65⟩, amount, Chain.key 1, Chain.userTransfer 2⟩)

/-- The gradido is received once. -/
theorem crossGroup_conserved_once :
    ∃ s, run (step Chain.keepNormalised groupsAB) initial (sendToB ++ [receive ⟨1, 0⟩]) = some s ∧
      credited groupsAB.nameA pairingId s.b.rows = 1000000 ∧
      credited groupsAB.nameA pairingId s.b.rows ≤ debited pairingId s.a.rows := by
  obtain ⟨s, hs, hcr⟩ : ∃ s,
      run (step Chain.keepNormalised groupsAB) initial (sendToB ++ [receive ⟨1, 0⟩]) = some s ∧
      credited groupsAB.nameA pairingId s.b.rows = 1000000 := by decide +kernel
  exact ⟨s, hs, hcr, crossGroup_conserved Chain.keepNormalised groupsAB _ (by decide +kernel)
    s hs pairingId⟩

/-- The gradido is received, and then a thousand more for the same pairing id. -/
theorem paired_outbound_reused : ∃ s, run (step Chain.keepNormalised groupsAB) initial
        (sendToB ++ [receive ⟨1, 0⟩, receive ⟨1000, 0⟩]) = some s ∧
      ¬ credited groupsAB.nameA pairingId s.b.rows ≤ debited pairingId s.a.rows := by
  decide +kernel

end TwoChains

end GradidoNode
