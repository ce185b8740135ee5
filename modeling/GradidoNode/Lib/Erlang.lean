/-
# `GradidoNode.Lib.Erlang` — terms

Values of an untyped language with lists and tuples.  A list is built of cells and need not
end in the empty list; a tuple is given by the list of its elements.  Terms of the other
kinds (processes, functions, binaries …) are only told apart.  A float is the number it
stands for.

Patterns compare terms for identity, which is equality here.  The comparison `==` takes
numbers for what they are, inside lists and tuples too, so `1 == 1.0`.  It is equality of
`plain` terms, in which all numbers are floats.

`usort` sorts and keeps the first of the elements that compare equal; its facts rest on
`==` alone, so the order may be any.
-/
import Mathlib.Tactic.DeriveEncodable
import Mathlib.Data.Rat.Encodable

namespace GradidoNode.Lib.Erlang

/-- Terms with atoms of `A`. -/
inductive Term (A : Type) where
  | int (n : Int)
  | float (q : Rat)
  | atom (a : A)
  | other (n : Nat)
  | nil
  | cons (head tail : Term A)
  | tuple (elements : Term A)
  deriving DecidableEq, Encodable

/-- How a call ends that does not return. -/
inductive Crash where
  | functionClause
  | badarith
  | badarg
  deriving DecidableEq, Repr

theorem except_bind_eq_ok {α β : Type} {m : Except Crash α} {f : α → Except Crash β} {y : β} :
    m >>= f = .ok y ↔ ∃ x, m = .ok x ∧ f x = .ok y := by
  cases m with
  | error e => exact ⟨fun h => (nomatch h), fun ⟨_, h, _⟩ => (nomatch h)⟩
  | ok x =>
    constructor
    · intro h
      exact ⟨x, rfl, h⟩
    · rintro ⟨x', hx, h⟩
      cases hx
      exact h

theorem except_map_eq_ok {α β : Type} {m : Except Crash α} {f : α → β} {y : β} :
    m.map f = .ok y ↔ ∃ x, m = .ok x ∧ f x = y := by
  cases m with
  | error e => exact ⟨fun h => (nomatch h), fun ⟨_, h, _⟩ => (nomatch h)⟩
  | ok x =>
    constructor
    · intro h
      exact ⟨x, rfl, Except.ok.inj h⟩
    · rintro ⟨x', hx, rfl⟩
      cases hx
      rfl

namespace Term

variable {A : Type}

@[match_pattern] abbrev pair (a b : Term A) : Term A := .tuple (.cons a (.cons b .nil))

@[match_pattern] abbrev triple (a b c : Term A) : Term A :=
  .tuple (.cons a (.cons b (.cons c .nil)))

@[match_pattern] abbrev quadruple (a b c d : Term A) : Term A :=
  .tuple (.cons a (.cons b (.cons c (.cons d .nil))))

/-- A list that ends in the empty list. -/
def ofList : List (Term A) → Term A
  | [] => .nil
  | t :: ts => .cons t (ofList ts)

theorem ofList_injective : ∀ {ts us : List (Term A)}, ofList ts = ofList us → ts = us
  | [], [], _ => rfl
  | _ :: _, _ :: _, h => by
    simp only [ofList, cons.injEq] at h
    rw [h.1, ofList_injective h.2]

theorem nil_eq_ofList {ts : List (Term A)} : .nil = ofList ts ↔ ts = [] := by
  cases ts with
  | nil => exact ⟨fun _ => rfl, fun _ => rfl⟩
  | cons t ts => exact ⟨fun h => (nomatch h), fun h => (nomatch h)⟩

theorem cons_eq_ofList {h t : Term A} {ts : List (Term A)} :
    .cons h t = ofList ts ↔ ∃ us, ts = h :: us ∧ t = ofList us := by
  cases ts with
  | nil => exact ⟨fun h => (nomatch h), fun ⟨_, h, _⟩ => (nomatch h)⟩
  | cons u us =>
    constructor
    · intro heq
      cases heq
      exact ⟨us, rfl, rfl⟩
    · rintro ⟨_, hco, rfl⟩
      cases hco
      rfl

def isList : Term A → Bool
  | .nil | .cons _ _ => true
  | _ => false

/-- The elements of a list that ends in the empty list. -/
def toList : Term A → Option (List (Term A))
  | .nil => some []
  | .cons h t => t.toList.map (h :: ·)
  | _ => none

/-- All numbers are floats. -/
def plain : Term A → Term A
  | .int n => .float n
  | .cons h t => .cons h.plain t.plain
  | .tuple e => .tuple e.plain
  | t => t

/-- `==`. -/
def eqv [DecidableEq A] (t u : Term A) : Bool := t.plain = u.plain

/-- `+` with an integer. -/
def addInt (k : Int) : Term A → Except Crash (Term A)
  | .int n => .ok (.int (n + k))
  | .float q => .ok (.float (q + k))
  | _ => .error .badarith

/-- The first ones of the elements that compare equal. -/
def firsts [DecidableEq A] : List (Term A) → List (Term A)
  | [] => []
  | t :: ts => t :: (firsts ts).filter fun u => !t.eqv u

/-- `lists:usort`. -/
def usort [DecidableEq A] (le : Term A → Term A → Bool) (ts : List (Term A)) : List (Term A) :=
  (firsts ts).mergeSort le

section usort

variable [DecidableEq A] {le : Term A → Term A → Bool} {t : Term A} {ts : List (Term A)}

theorem mem_of_mem_usort (h : t ∈ usort le ts) : t ∈ ts := by
  have hfi : ∀ ts : List (Term A), firsts ts ⊆ ts := by
    intro ts
    induction ts with
    | nil => exact List.Subset.refl _
    | cons u us ih =>
      intro v hv
      rcases List.mem_cons.mp hv with rfl | hv
      · exact List.mem_cons_self
      · exact List.mem_cons_of_mem _ (ih (List.mem_filter.mp hv).1)
  exact hfi ts ((List.mergeSort_perm _ le).subset h)

/-- No two elements of the result compare equal. -/
theorem nodup_plain_usort (le : Term A → Term A → Bool) (ts : List (Term A)) :
    ((usort le ts).map plain).Nodup := by
  have hfi : ∀ ts : List (Term A), ((firsts ts).map plain).Nodup := by
    intro ts
    induction ts with
    | nil => exact List.nodup_nil
    | cons u us ih =>
      refine List.nodup_cons.mpr ⟨?_, ih.sublist (List.filter_sublist.map plain)⟩
      intro hu
      obtain ⟨v, hv, heq⟩ := List.mem_map.mp hu
      have hne := (List.mem_filter.mp hv).2
      rw [eqv, heq, decide_eq_true rfl] at hne
      cases hne
  exact ((List.mergeSort_perm _ le).map plain).nodup_iff.mpr (hfi ts)

end usort

end Term

/-! ## Dictionaries -/

/-- A dictionary: keys are compared for identity. -/
abbrev Dict (K V : Type) := List (K × V)

namespace Dict

variable {K V : Type} [DecidableEq K]

def keys (d : Dict K V) : List K := d.map Prod.fst

/-- `dict:is_key`. -/
def isKey (k : K) (d : Dict K V) : Bool := k ∈ d.keys

/-- `dict:append`: the value is added to those of the key. -/
def append (k : K) (v : V) : Dict K (List V) → Dict K (List V)
  | [] => [(k, [v])]
  | (k', vs) :: d => if k' = k then (k', vs ++ [v]) :: d else (k', vs) :: append k v d

theorem keys_append {k : K} {d : Dict K (List V)} (h : isKey k d = false) (v : V) :
    (append k v d).keys = d.keys ++ [k] := by
  induction d with
  | nil => rfl
  | cons e d ih =>
    obtain ⟨k', vs⟩ := e
    rw [isKey, decide_eq_false_iff_not, keys, List.map_cons, List.mem_cons, not_or] at h
    rw [append, if_neg (Ne.symm h.1), keys, List.map_cons, keys, List.map_cons]
    exact congrArg (k' :: ·) (ih (decide_eq_false h.2))

end Dict

end GradidoNode.Lib.Erlang
