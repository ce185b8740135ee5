/-
# `GradidoNode.Models.Subcluster` — the subcluster blockchain of the Erlang model

A `#subl{}` record is a blockchain with indexes over it: the admins by their public keys,
the ordering nodes, and the initial key.

    sb_create               {subclaster_blockchain, Name, {Type, InitKeyChain}}
    sb_append_admin         {{admin, Email, Name, PubKey}, Signature or Signatures}
    sb_append_transaction   {{ordering_node, …}, Signature}, or the same with a timestamp,
                            a sequence number and a second signature around it

Until there is an ordering node, an admin is signed with the initial key.  From there on an
admin comes with a list of signatures: the list is sorted and what compares equal in it
dropped, signatures of others than admins are taken out, the rest are counted against
`round(Size / 2 + 0.6)`, and all of them have to be valid.  A signature names its public key,
and for a key and some data there is one valid signature, up to `==`; so signatures that
were counted and are valid are of different admins.

`Runtime` is what is taken from Erlang: `erlang:phash2`, the order of terms, and the rounding
of a key divided by 1000, which is done in floating point.  They are any functions.
-/
import GradidoNode.Lib.Exec
import GradidoNode.Models.Blockchain
import Mathlib.Algebra.Order.Round
import Mathlib.Data.List.Nodup
import Mathlib.Data.Rat.Floor

namespace GradidoNode

open Lib
open Lib.Erlang (Crash Dict except_bind_eq_ok)

namespace Models

structure Runtime where
  phash2 : Term → Int
  termOrder : Term → Term → Bool
  /-- `round(PublicKey / 1000)`; `none` where it fails -/
  thousandth : Term → Option Int

/-! ## Signatures -/

@[match_pattern] abbrev signature (publicKey hash : Term) : Term :=
  .triple (.atom .signature) publicKey hash

variable (rt : Runtime)

/-- `sig_sign` with an integer. -/
def sign (data : Term) (privateKey : Int) : Term :=
  signature (.int (privateKey * 1000)) (.int (rt.phash2 (.pair data (.int privateKey))))

/-- `sig_sign`; `none` is `false`. -/
def sigSign (data : Term) : Term → Option Term
  | .triple (.atom .keyPair) (.int privateKey) _ => some (sign rt data privateKey)
  | .int privateKey => some (sign rt data privateKey)
  | _ => none

def sigVerify (data : Term) : Term → Except Crash Bool
  | .nil => .ok false
  | signature publicKey hash =>
    match rt.thousandth publicKey with
    | none => .error .badarith
    | some privateKey =>
      .ok ((sigSign rt data (.int privateKey)).any (·.eqv (signature publicKey hash)))
  | .cons h .nil => sigVerify data h
  | .cons h t => do
    if ← sigVerify data h then sigVerify data t else return false
  | _ => .ok false

def CA_MASTER_PUB : Int := 123 * 1000

def sigIsDerived (parentPubKey childPubKey : Term) : Except Crash Bool := do
  return (← parentPubKey.addInt 1000).eqv childPubKey

def sigVerifyChain : Term → Except Crash Bool
  | .nil => .ok false
  | .cons last .nil => sigIsDerived (.int CA_MASTER_PUB) last
  | .cons h (.cons h1 t) => do
    if ← sigIsDerived h1 h then sigVerifyChain (.cons h1 t) else return false
  | _ => .error .functionClause

/-! ## The subcluster blockchain -/

/-- `#subl{}`. -/
structure Subl where
  bc : Bc := bcCreate
  admins : Dict Term (List Term) := []
  oNodes : List Term := []
  iKey : Term
  deriving DecidableEq

/-- The atoms that are returned in place of a `#subl{}`. -/
inductive SbError where
  | cannotVerifyChain
  | adminExists
  | cannotVerifySignature
  | cannotVerifySignature2
  | unknownError
  | initializationFinished
  | notASignature
  | probablyBadMultipleSignatures
  | notAnAdmin
  | badSignature
  | unknownAdmin
  | orderingNodeExists
  deriving DecidableEq, Repr

/-- What is returned: a `#subl{}`, or an atom. -/
abbrev Sb := Except SbError Subl

def sbCreate (type initKeyChain name : Term) : Except Crash Sb :=
  match type, initKeyChain with
  | .atom .selfSigned, .cons h _ => created h
  | .atom .caSigned, .cons h _ => do
    if ← sigVerifyChain initKeyChain then created h else return .error .cannotVerifyChain
  | _, _ => .error .functionClause
where
  created (h : Term) : Except Crash Sb := do
    let bc ← bcAppend rt.phash2 bcCreate
      (.triple (.atom .subclasterBlockchain) name (.pair type initKeyChain))
    return .ok { bc := bc, iKey := h }

@[match_pattern] abbrev adminRecord (email name pubKey : Term) : Term :=
  .quadruple (.atom .admin) email name pubKey

def sbAppendAdmin2 (sb : Subl) (admin pubKey sig : Term) : Except Crash Sb :=
  if Dict.isKey pubKey sb.admins then .ok (.error .adminExists)
  else do
    let bc ← bcAppend rt.phash2 sb.bc (.pair admin sig)
    return .ok { sb with bc := bc, admins := Dict.append pubKey admin sb.admins }

/-- `round(dict:size(Admins) / 2 + 0.6)`. -/
def majorityIs (size : Nat) : Int := round ((size : ℚ) / 2 + 3 / 5)

/-- A signature under the key of an admin. -/
def isOfAdmin (admins : Dict Term (List Term)) : Term → Bool
  | signature pubKey _ => Dict.isKey pubKey admins
  | _ => false

def sbCheckMajority (admins : Dict Term (List Term)) (signatures rec : Term) :
    Except Crash Bool :=
  match signatures.toList with
  | some sigs =>
    let s3 := (Erlang.Term.usort rt.termOrder sigs).filter (isOfAdmin admins)
    if s3.length < majorityIs admins.length then .ok false else sigVerify rt rec (.ofList s3)
  | none => if signatures.isList then .error .functionClause else .ok false

/-- The last clause of `sb_append_admin`. -/
def sbAppendAdminError (sb : Subl) (admin sig : Term) : SbError :=
  match admin with
  | adminRecord _ _ _ =>
    if sig.isList then .probablyBadMultipleSignatures
    else
      match sig with
      | signature spk _ => if spk.eqv sb.iKey then .initializationFinished else .unknownError
      | _ => .notASignature
  | _ => .notAnAdmin

def sbAppendAdmin (sb : Subl) (admin sig : Term) : Except Crash Sb :=
  match admin, sig with
  | adminRecord _ _ pubKey, signature spk _ =>
    if sb.oNodes = [] ∧ spk.eqv sb.iKey then do
      if ← sigVerify rt admin sig then sbAppendAdmin2 rt sb admin pubKey sig
      else return .error .cannotVerifySignature
    else .ok (.error (sbAppendAdminError sb admin sig))
  | adminRecord _ _ pubKey, signatures =>
    if signatures.isList ∧ sb.oNodes ≠ [] then do
      if ← sbCheckMajority rt sb.admins signatures admin then
        sbAppendAdmin2 rt sb admin pubKey signatures
      else return .error .cannotVerifySignature2
    else .ok (.error (sbAppendAdminError sb admin sig))
  | _, _ => .ok (.error (sbAppendAdminError sb admin sig))

/-- What both clauses of `sb_append_transaction` do. -/
def appendOrderingNode (sb : Subl) (data publicKey sig consensedTransaction : Term) :
    Except Crash Sb :=
  if data ∈ sb.oNodes then .ok (.error .orderingNodeExists)
  else if Dict.isKey publicKey sb.admins then do
    if ← sigVerify rt data sig then
      let bc ← bcAppend rt.phash2 sb.bc consensedTransaction
      return .ok { sb with bc := bc, oNodes := data :: sb.oNodes }
    else return .error .badSignature
  else .ok (.error .unknownAdmin)

def sbAppendTransaction (sb : Sb) (consensedTransaction : Term) : Except Crash Sb :=
  match sb, consensedTransaction with
  | .ok sb, .pair (.triple (.pair (.triple (.atom .orderingNode) opk e)
      (signature publicKey hash)) _ _) _ =>
      appendOrderingNode rt sb (.triple (.atom .orderingNode) opk e) publicKey
        (signature publicKey hash) consensedTransaction
  | .ok sb, .pair (.triple (.atom .orderingNode) opk e) (signature publicKey hash) =>
    appendOrderingNode rt sb (.triple (.atom .orderingNode) opk e) publicKey
      (signature publicKey hash) consensedTransaction
  | _, _ => .error .functionClause

inductive Call where
  | admin (admin sig : Term)
  | transaction (t : Term)

def call (sb : Subl) : Call → Except Crash Sb
  | .admin admin sig => sbAppendAdmin rt sb admin sig
  | .transaction t => sbAppendTransaction rt (.ok sb) t

/-- A call that returns a `#subl{}`. -/
def sbStep (sb : Subl) (c : Call) : Option Subl :=
  match call rt sb c with
  | .ok (.ok sb') => some sb'
  | _ => none

/-! ## What a call appends -/

/-- The public key of an admin record. -/
def adminKey : Term → Option Term
  | .pair (adminRecord _ _ pubKey) _ => some pubKey
  | _ => none

/-- The two shapes `sb_append_transaction` accepts: the ordering node, the key it is signed with,
and the signature. -/
def orderingNodeOf : Term → Option (Term × Term × Term)
  | .pair (.triple (.pair (.triple (.atom .orderingNode) opk e) (signature publicKey hash)) _ _) _ =>
    some (.triple (.atom .orderingNode) opk e, publicKey, signature publicKey hash)
  | .pair (.triple (.atom .orderingNode) opk e) (signature publicKey hash) =>
    some (.triple (.atom .orderingNode) opk e, publicKey, signature publicKey hash)
  | _ => none

/-- A record of an ordering node. -/
def isOrderingNode (t : Term) : Bool := (orderingNodeOf t).isSome

/-- No record is both. -/
theorem adminKey_of_isOrderingNode {t : Term} (h : isOrderingNode t = true) : adminKey t = none := by
  unfold isOrderingNode orderingNodeOf at h
  split at h
  · rfl
  · rfl
  · cases h

variable {rt} {sb sb' : Subl}

theorem sbAppendAdmin2_ok {admin pubKey sig : Term}
    (h : sbAppendAdmin2 rt sb admin pubKey sig = .ok (.ok sb')) :
    Dict.isKey pubKey sb.admins = false ∧
      ∃ bc, bcAppend rt.phash2 sb.bc (.pair admin sig) = .ok bc ∧
        sb' = { sb with bc := bc, admins := Dict.append pubKey admin sb.admins } := by
  rw [sbAppendAdmin2] at h
  split at h
  · cases h
  · rename_i hkey
    obtain ⟨bc, hbc, hsb⟩ := except_bind_eq_ok.mp h
    cases hsb
    exact ⟨Bool.not_eq_true _ ▸ hkey, bc, hbc, rfl⟩

theorem sbAppendAdmin_ok {admin sig : Term} (h : sbAppendAdmin rt sb admin sig = .ok (.ok sb')) :
    ∃ email name pubKey bc, admin = adminRecord email name pubKey ∧
      Dict.isKey pubKey sb.admins = false ∧
      (sb.oNodes ≠ [] → sbCheckMajority rt sb.admins sig admin = .ok true) ∧
      bcAppend rt.phash2 sb.bc (.pair admin sig) = .ok bc ∧
      sb' = { sb with bc := bc, admins := Dict.append pubKey admin sb.admins } := by
  unfold sbAppendAdmin at h
  split at h
  · rename_i email name pubKey spk hash
    split at h
    · rename_i hfi
      obtain ⟨b, hb, hsb⟩ := except_bind_eq_ok.mp h
      cases b with
      | false => cases hsb
      | true =>
        obtain ⟨hkey, bc, hbc, rfl⟩ := sbAppendAdmin2_ok hsb
        exact ⟨email, name, pubKey, bc, rfl, hkey, fun hne => absurd hfi.1 hne, hbc, rfl⟩
    · cases h
  · rename_i email name pubKey _
    split at h
    · obtain ⟨b, hb, hsb⟩ := except_bind_eq_ok.mp h
      cases b with
      | false => cases hsb
      | true =>
        obtain ⟨hkey, bc, hbc, rfl⟩ := sbAppendAdmin2_ok hsb
        exact ⟨email, name, pubKey, bc, rfl, hkey, fun _ => hb, hbc, rfl⟩
    · cases h
  · cases h

theorem appendOrderingNode_ok {data publicKey sig t : Term}
    (h : appendOrderingNode rt sb data publicKey sig t = .ok (.ok sb')) :
    ∃ bc, bcAppend rt.phash2 sb.bc t = .ok bc ∧
      sb' = { sb with bc := bc, oNodes := data :: sb.oNodes } := by
  rw [appendOrderingNode] at h
  split at h
  · cases h
  · split at h
    · obtain ⟨b, -, hsb⟩ := except_bind_eq_ok.mp h
      cases b with
      | false => cases hsb
      | true =>
        obtain ⟨bc, hbc, hsb⟩ := except_bind_eq_ok.mp hsb
        cases hsb
        exact ⟨bc, hbc, rfl⟩
    · cases h

/-- Transactions of other shapes match no clause. -/
theorem sbAppendTransaction_eq (sb : Subl) (t : Term) : sbAppendTransaction rt (.ok sb) t =
      (orderingNodeOf t).elim (.error .functionClause) fun node =>
        appendOrderingNode rt sb node.1 node.2.1 node.2.2 t := by
  unfold orderingNodeOf
  split
  · rfl
  · rfl
  · rename_i h₁ h₂
    unfold sbAppendTransaction
    split
    · exact absurd rfl (h₁ _ _ _ _ _ _ _)
    · exact absurd rfl (h₂ _ _ _ _)
    · rfl

theorem sbAppendTransaction_ok {t : Term} (h : sbAppendTransaction rt (.ok sb) t = .ok (.ok sb')) :
    ∃ data bc, isOrderingNode t = true ∧ bcAppend rt.phash2 sb.bc t = .ok bc ∧
      sb' = { sb with bc := bc, oNodes := data :: sb.oNodes } := by
  rw [sbAppendTransaction_eq] at h
  cases hno : orderingNodeOf t with
  | none =>
    rw [hno] at h
    cases h
  | some node =>
    rw [hno] at h
    obtain ⟨bc, hbc, rfl⟩ := appendOrderingNode_ok h
    exact ⟨node.1, bc, by rw [isOrderingNode, hno]; rfl, hbc, rfl⟩

/-! ## The majority -/

/-- More than half of some admins have signed. -/
def MajoritySigned (rt : Runtime) (admins : List Term) (admin sigs : Term) : Prop :=
  ∃ signers : List Term, signers.Nodup ∧ signers ⊆ admins ∧ admins.length < 2 * signers.length ∧
    ∀ key ∈ signers, ∃ hash sigList, sigs.toList = some sigList ∧ signature key hash ∈ sigList ∧
      sigVerify rt admin (signature key hash) = .ok true

theorem lt_two_mul_majorityIs (size : Nat) : (size : Int) < 2 * majorityIs size := by
  have hfl := Int.lt_floor_add_one ((size : ℚ) / 2 + 3 / 5 + 1 / 2)
  rw [← round_eq] at hfl
  have hsize : (size : ℚ) < 2 * (majorityIs size : ℚ) := by
    rw [majorityIs]
    linarith
  exact_mod_cast hsize

theorem sigVerify_ofList {data : Term} {sigs : List Term}
    (h : sigVerify rt data (.ofList sigs) = .ok true) :
    ∀ sig ∈ sigs, sigVerify rt data sig = .ok true := by
  induction sigs with
  | nil => exact fun _ h => (nomatch h)
  | cons sig sigs ih =>
    cases sigs with
    | nil =>
      rw [Erlang.Term.ofList, Erlang.Term.ofList, sigVerify] at h
      exact List.forall_mem_singleton.mpr h
    | cons sig' sigs =>
      rw [Erlang.Term.ofList, sigVerify] at h
      · obtain ⟨b, hb, hre⟩ := except_bind_eq_ok.mp h
        cases b with
        | false => cases hre
        | true => exact List.forall_mem_cons.mpr ⟨hb, ih hre⟩
      · intro hnil
        cases hnil

/-- For a key there is one signature of some data, up to `==`. -/
theorem plain_of_sigVerify {data key hash : Term}
    (h : sigVerify rt data (signature key hash) = .ok true) :
    ((rt.thousandth key).map fun privateKey => (sign rt data privateKey).plain) =
      some (signature key hash).plain := by
  rw [sigVerify] at h
  split at h
  · cases h
  · rename_i privateKey hkey
    rw [hkey, Option.map_some, of_decide_eq_true (Except.ok.inj h)]

/-- The key of a signature. -/
def keyOf : Term → Term
  | signature publicKey _ => publicKey
  | t => t

theorem isOfAdmin_iff {admins : Dict Term (List Term)} {t : Term} : isOfAdmin admins t = true ↔
      ∃ hash, t = signature (keyOf t) hash ∧ keyOf t ∈ Dict.keys admins := by
  unfold isOfAdmin
  split
  · rename_i pubKey hash
    exact ⟨fun h => ⟨hash, rfl, of_decide_eq_true h⟩, fun ⟨_, _, h⟩ => decide_eq_true h⟩
  · rename_i hno
    exact ⟨fun h => (nomatch h), fun ⟨hash, h, _⟩ => absurd h (hno _ hash)⟩

/-- Two valid signatures of one key would compare equal. -/
theorem nodup_keys {data : Term} {sigs : List Term}
    (hva : ∀ sig ∈ sigs, sigVerify rt data sig = .ok true)
    (hsi : ∀ sig ∈ sigs, ∃ hash, sig = signature (keyOf sig) hash)
    (hpl : (sigs.map Erlang.Term.plain).Nodup) : (sigs.map keyOf).Nodup := by
  have hke : (sigs.map keyOf).map (fun key =>
      (rt.thousandth key).map fun privateKey => (sign rt data privateKey).plain) =
      (sigs.map Erlang.Term.plain).map some := by
    rw [List.map_map, List.map_map]
    refine List.map_congr_left fun sig hsig => ?_
    obtain ⟨hash, heq⟩ := hsi sig hsig
    have hva := hva sig hsig
    rw [heq] at hva
    have hpl := plain_of_sigVerify hva
    rw [← heq] at hpl
    exact hpl
  have hno := hpl.map (Option.some_injective _)
  rw [← hke] at hno
  exact hno.of_map _

/-- Signatures that pass are of different admins. -/
theorem sbCheckMajority_true {admins : Dict Term (List Term)} {sigs admin : Term}
    (h : sbCheckMajority rt admins sigs admin = .ok true) :
    MajoritySigned rt (Dict.keys admins) admin sigs := by
  unfold sbCheckMajority at h
  split at h
  · rename_i sigList hli
    dsimp only at h
    generalize hs3 : (Erlang.Term.usort rt.termOrder sigList).filter (isOfAdmin admins) = s3 at h
    split at h
    · cases h
    · rename_i hma
      have hva := sigVerify_ofList h
      have hsi : ∀ sig ∈ s3, ∃ hash, sig = signature (keyOf sig) hash ∧
          keyOf sig ∈ Dict.keys admins := by
        intro sig hsig
        rw [← hs3] at hsig
        exact isOfAdmin_iff.mp (List.mem_filter.mp hsig).2
      refine ⟨s3.map keyOf, ?_, ?_, ?_, ?_⟩
      · refine nodup_keys hva (fun sig hsig => (hsi sig hsig).imp fun _ h => h.1) ?_
        rw [← hs3]
        exact (Erlang.Term.nodup_plain_usort rt.termOrder sigList).sublist
          (List.filter_sublist.map _)
      · intro key hkey
        obtain ⟨sig, hsig, rfl⟩ := List.mem_map.mp hkey
        exact (hsi sig hsig).choose_spec.2
      · have hlt := lt_two_mul_majorityIs admins.length
        rw [Dict.keys, List.length_map, List.length_map]
        omega
      · intro key hkey
        obtain ⟨sig, hsig, rfl⟩ := List.mem_map.mp hkey
        obtain ⟨hash, heq, -⟩ := hsi sig hsig
        refine ⟨hash, sigList, hli, ?_, ?_⟩
        · rw [← hs3] at hsig
          rw [← heq]
          exact Erlang.Term.mem_of_mem_usort (List.mem_filter.mp hsig).1
        · rw [← heq]
          exact hva sig hsig
  · split at h <;> cases h

/-! ## Admins in every state -/

/-- Admin records behind the first ordering node have been signed by a majority of the admins
before them. -/
def Signed (rt : Runtime) (recs : List Term) : Prop :=
  ∀ pre email name pubKey sigs post,
    recs = pre ++ .pair (adminRecord email name pubKey) sigs :: post →
    (∃ rec ∈ pre, isOrderingNode rec = true) →
    MajoritySigned rt (pre.filterMap adminKey) (adminRecord email name pubKey) sigs

theorem Signed.concat {recs : List Term} {rec : Term} (h : Signed rt recs)
    (hrec : ∀ email name pubKey sigs, rec = .pair (adminRecord email name pubKey) sigs →
      (∃ rec ∈ recs, isOrderingNode rec = true) →
      MajoritySigned rt (recs.filterMap adminKey) (adminRecord email name pubKey) sigs) :
    Signed rt (recs ++ [rec]) := by
  intro pre email name pubKey sigs post hsp hno
  cases post using List.reverseRecOn with
  | nil =>
    obtain ⟨rfl, hla⟩ := List.append_inj' hsp rfl
    exact hrec email name pubKey sigs (List.cons.inj hla).1 hno
  | append_singleton post last =>
    rw [← List.cons_append, ← List.append_assoc] at hsp
    obtain ⟨rfl, -⟩ := List.append_inj' hsp rfl
    exact h pre email name pubKey sigs post rfl hno

/-- The indexes agree with the records of the blockchain. -/
structure Indexed (rt : Runtime) (sb : Subl) (recs : List Term) : Prop where
  bc : bcAppendAll rt.phash2 recs = .ok sb.bc
  admins : sb.admins.keys = recs.filterMap adminKey
  once : sb.admins.keys.Nodup
  oNodes : sb.oNodes ≠ [] ↔ ∃ rec ∈ recs, isOrderingNode rec = true
  signed : Signed rt recs

theorem indexed_created {type initKeyChain name : Term}
    (h : sbCreate rt type initKeyChain name = .ok (.ok sb)) :
    Indexed rt sb [.triple (.atom .subclasterBlockchain) name (.pair type initKeyChain)] := by
  have hcr : ∀ key, sbCreate.created rt type initKeyChain name key = .ok (.ok sb) →
      Indexed rt sb [.triple (.atom .subclasterBlockchain) name (.pair type initKeyChain)] := by
    intro key h
    obtain ⟨bc, hbc, hsb⟩ := except_bind_eq_ok.mp h
    cases hsb
    have hnil : bcAppendAll rt.phash2 [] = .ok bcCreate := rfl
    refine ⟨(bcAppendAll_concat hnil _).trans hbc, rfl, List.nodup_nil, ?_, ?_⟩
    · simp [isOrderingNode, orderingNodeOf]
    · have hsi : Signed rt [] := fun pre _ _ _ _ post h => by simp at h
      exact hsi.concat fun _ _ _ _ heq => (nomatch heq)
  unfold sbCreate at h
  split at h
  · exact hcr _ h
  · obtain ⟨b, -, hsb⟩ := except_bind_eq_ok.mp h
    cases b with
    | false => cases hsb
    | true => exact hcr _ hsb
  · cases h

namespace Indexed

variable {recs : List Term}

theorem admin {email name pubKey sig : Term} {bc : Bc} (h : Indexed rt sb recs)
    (hkey : Dict.isKey pubKey sb.admins = false)
    (hma : sb.oNodes ≠ [] →
      sbCheckMajority rt sb.admins sig (adminRecord email name pubKey) = .ok true)
    (hbc : bcAppend rt.phash2 sb.bc (.pair (adminRecord email name pubKey) sig) = .ok bc) :
    Indexed rt
      { sb with bc := bc, admins := Dict.append pubKey (adminRecord email name pubKey) sb.admins }
      (recs ++ [.pair (adminRecord email name pubKey) sig]) := by
  have hke := Dict.keys_append hkey (adminRecord email name pubKey)
  refine ⟨(bcAppendAll_concat h.bc _).trans hbc, ?_, ?_, ?_, ?_⟩
  · rw [hke, h.admins, List.filterMap_append]
    rfl
  · rw [hke]
    refine List.nodup_append.mpr ⟨h.once, List.nodup_singleton _, ?_⟩
    rintro key hmem _ hla rfl
    rw [List.mem_singleton.mp hla] at hmem
    exact of_decide_eq_false hkey hmem
  · rw [h.oNodes]
    simp [isOrderingNode, orderingNodeOf]
  · refine h.signed.concat fun email' name' pubKey' sigs' heq hno => ?_
    cases heq
    rw [← h.admins]
    exact sbCheckMajority_true (hma (h.oNodes.mpr hno))

theorem transaction {t data : Term} {bc : Bc} (h : Indexed rt sb recs)
    (hno : isOrderingNode t = true) (hbc : bcAppend rt.phash2 sb.bc t = .ok bc) :
    Indexed rt { sb with bc := bc, oNodes := data :: sb.oNodes } (recs ++ [t]) := by
  have hkey := adminKey_of_isOrderingNode hno
  refine ⟨(bcAppendAll_concat h.bc _).trans hbc, ?_, h.once, ?_, ?_⟩
  · rw [List.filterMap_append, List.filterMap_cons_none hkey, List.filterMap_nil, List.append_nil]
    exact h.admins
  · refine ⟨fun _ => ⟨t, List.mem_append_right _ (List.mem_singleton_self t), hno⟩, fun _ => ?_⟩
    exact List.cons_ne_nil _ _
  · refine h.signed.concat fun email name pubKey sigs heq => ?_
    rw [heq] at hkey
    cases hkey

theorem step {c : Call} (h : Indexed rt sb recs) (hs : sbStep rt sb c = some sb') :
    ∃ rec, Indexed rt sb' (recs ++ [rec]) := by
  unfold sbStep at hs
  split at hs
  · rename_i hca
    cases hs
    cases c with
    | admin admin sig =>
      obtain ⟨email, name, pubKey, bc, rfl, hkey, hma, hbc, rfl⟩ := sbAppendAdmin_ok hca
      exact ⟨_, h.admin hkey hma hbc⟩
    | transaction t =>
      obtain ⟨data, bc, hno, hbc, rfl⟩ := sbAppendTransaction_ok hca
      exact ⟨_, h.transaction hno hbc⟩
  · cases hs

end Indexed

/-- The keys of the admins are those of the admin records, each once, and every admin record
behind the first ordering node has been signed by more than half of the admins before it. -/
theorem admins_majority (rt : Runtime) {type initKeyChain name : Term} {sb₀ sb : Subl}
    {calls : List Call} (hcreate : sbCreate rt type initKeyChain name = .ok (.ok sb₀))
    (hrun : run (sbStep rt) sb₀ calls = some sb) :
    ∃ recs, bcAppendAll rt.phash2 recs = .ok sb.bc ∧
      (∀ key, key ∈ sb.admins.keys ↔ key ∈ recs.filterMap adminKey) ∧
      sb.admins.keys.Nodup ∧ (recs.filterMap adminKey).Nodup ∧ Signed rt recs := by
  obtain ⟨recs, h⟩ := run_keeps (fun sb => ∃ recs, Indexed rt sb recs)
    (fun _ _ _ ⟨_, h⟩ hs => ⟨_, (h.step hs).choose_spec⟩) ⟨_, indexed_created hcreate⟩ hrun
  refine ⟨recs, h.bc, fun key => by rw [h.admins], h.once, ?_, h.signed⟩
  rw [← h.admins]
  exact h.once

/-- A hash that is always 7, and keys that are multiples of 1000. -/
def sampleRuntime : Runtime where
  phash2 _ := 7
  termOrder _ _ := true
  thousandth
    | .int n => some ((n + 500) / 1000)
    | _ => none

def sampleSubl : Subl where
  bc := ⟨.ofList [.ofList [checksum (.int 7), .triple (.atom .subclasterBlockchain)
    (.atom (.other 0)) (.pair (.atom .selfSigned) (.ofList [.int 5000]))]], 1, 2⟩
  iKey := .int 5000

/-- An admin, an ordering node, and a second admin, signed by the initial key, by the first admin
and by the first admin. -/
def sampleCalls : List Call :=
  let admin₁ : Term := adminRecord (.atom (.other 1)) (.atom (.other 1)) (.int 1000)
  let admin₂ : Term := adminRecord (.atom (.other 2)) (.atom (.other 2)) (.int 2000)
  let node : Term := .triple (.atom .orderingNode) (.int 3000) (.other 0)
  [.admin admin₁ (sign sampleRuntime admin₁ 5),
    .transaction (.pair node (sign sampleRuntime node 1)),
    .admin admin₂ (.ofList [sign sampleRuntime admin₂ 1])]

theorem admins_majority_sample :
    sbCreate sampleRuntime (.atom .selfSigned) (.ofList [.int 5000]) (.atom (.other 0)) =
        .ok (.ok sampleSubl) ∧
      ∃ sb recs, run (sbStep sampleRuntime) sampleSubl sampleCalls = some sb ∧
        sb.admins.keys = [.int 1000, .int 2000] ∧
        bcAppendAll sampleRuntime.phash2 recs = .ok sb.bc ∧ Signed sampleRuntime recs := by
  have hcr : sbCreate sampleRuntime (.atom .selfSigned) (.ofList [.int 5000])
      (.atom (.other 0)) = .ok (.ok sampleSubl) := rfl
  obtain ⟨sb, hsb, hke⟩ : ∃ sb, run (sbStep sampleRuntime) sampleSubl sampleCalls = some sb ∧
      sb.admins.keys = [.int 1000, .int 2000] := by decide +kernel
  obtain ⟨recs, hbc, -, -, -, hsi⟩ := admins_majority sampleRuntime hcr hsb
  exact ⟨hcr, sb, recs, hsb, hke, hbc, hsi⟩

end Models

end GradidoNode
