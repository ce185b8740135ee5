/-
# `GradidoNode.Facade.SiblingFile` — the siblings of a node, and the file of them

`GradidoNodeConfigDeprecated` has the endpoints of its siblings in a vector and in a file, one
in a line.  `reload_sibling_file` reads the file; `add_sibling_node` and
`remove_sibling_node` say whether they have changed something, and then write it anew.  They
should be a set with a file (`setWithFile`).

    add       puts an endpoint that is not there behind the others
    remove    copies the others to a vector, and drops that vector: the endpoint stays

The file is written as a `Poco::TemporaryFile`, which is moved to its place and not told to
`keep` it.  What its destructor does to the file then is a matter of the library, and a
parameter here (`kept`).
-/
import GradidoNode.Lib.Exec

namespace GradidoNode.SiblingFile

open Lib

/-- An endpoint, which fits in a line. -/
structure Endpoint where
  text : List Char
  nonempty : text ≠ []
  oneLine : '\n' ∉ text

/-- `GradidoNodeConfigDeprecated`, as far as it has siblings. -/
structure Config where
  siblings : List (List Char)
  file : List Char

/-- The lines `std::getline` gives until it fails. -/
def getline : List Char → List (List Char)
  | [] => []
  | c :: cs =>
    if c = '\n' then [] :: getline cs
    else match getline cs with
      | [] => [[c]]
      | l :: ls => (c :: l) :: ls

namespace Config

def reloadSiblingFile (c : Config) : Config :=
  { c with siblings := (getline c.file).filter (0 < ·.length) }

/-- A file that is not kept is gone, and reads as an empty one. -/
def writeSiblings (kept : Bool) (c : Config) : Config :=
  { c with file := if kept then c.siblings.flatMap (· ++ ['\n']) else [] }

def addSiblingNode (kept : Bool) (c : Config) (endpoint : List Char) : Bool × Config :=
  if endpoint ∈ c.siblings then (false, c)
  else (true, writeSiblings kept { c with siblings := c.siblings ++ [endpoint] })

/-- Nothing reads `new_siblings`, which has the others. -/
def removeSiblingNode (kept : Bool) (c : Config) (endpoint : List Char) : Bool × Config :=
  if endpoint ∈ c.siblings then (true, c.writeSiblings kept) else (false, c)

end Config

inductive Call where
  | add (endpoint : Endpoint)
  | remove (endpoint : Endpoint)

def Config.call (kept : Bool) (c : Config) : Call → Bool × Config
  | .add endpoint => c.addSiblingNode kept endpoint.text
  | .remove endpoint => c.removeSiblingNode kept endpoint.text

/-- The set that the calls should be of, in the order in which it was filled. -/
def change (l : List (List Char)) : Call → Bool × List (List Char)
  | .add endpoint => if endpoint.text ∈ l then (false, l) else (true, l ++ [endpoint.text])
  | .remove endpoint => (decide (endpoint.text ∈ l), l.filter (· ≠ endpoint.text))

/-- What a call returns, the siblings after it, and if it returned true those in the file. -/
def answered {α : Type} (siblings inFile : α → List (List Char)) :
    Bool × α → (Bool × List (List Char) × Option (List (List Char))) × α
  | (false, a) => ((false, siblings a, none), a)
  | (true, a) => ((true, siblings a, some (inFile a)), a)

def answer (kept : Bool) (c : Config) (call : Call) :=
  answered Config.siblings (·.reloadSiblingFile.siblings) (c.call kept call)

def setWithFile (l : List (List Char)) (call : Call) := answered id id (change l call)

/-! ## The file -/

theorem getline_line {l cs : List Char} (h : '\n' ∉ l) :
    getline (l ++ '\n' :: cs) = l :: getline cs := by
  induction l with
  | nil => rfl
  | cons c l ih =>
    rw [List.mem_cons, not_or] at h
    rw [List.cons_append, getline, if_neg (Ne.symm h.1), ih h.2]

theorem getline_oneLine : ∀ cs : List Char, ∀ l ∈ getline cs, '\n' ∉ l
  | [] => List.forall_mem_nil _
  | c :: cs => by
    have ih := getline_oneLine cs
    unfold getline
    grind

/-- Lines with something in them. -/
def Lines (ls : List (List Char)) : Prop := ∀ l ∈ ls, l ≠ [] ∧ '\n' ∉ l

theorem lines_reload (c : Config) : Lines c.reloadSiblingFile.siblings := by
  intro l hl
  obtain ⟨hmem, hpos⟩ := List.mem_filter.mp hl
  exact ⟨List.length_pos_iff.mp (of_decide_eq_true hpos), getline_oneLine _ l hmem⟩

/-- A file that is kept is read as it was written. -/
theorem reload_write {c : Config} (h : Lines c.siblings) (kept : Bool) :
    (c.writeSiblings kept).reloadSiblingFile.siblings = if kept then c.siblings else [] := by
  have hget : ∀ ls : List (List Char), Lines ls → getline (ls.flatMap (· ++ ['\n'])) = ls := by
    intro ls hls
    induction ls with
    | nil => rfl
    | cons l ls ih =>
      obtain ⟨hl, hls⟩ := List.forall_mem_cons.mp hls
      rw [List.flatMap_cons, List.append_assoc, List.singleton_append, getline_line hl.2, ih hls]
  cases kept with
  | false => rfl
  | true =>
    show (getline (c.siblings.flatMap _)).filter _ = c.siblings
    rw [hget _ h, List.filter_eq_self]
    exact fun l hl => decide_eq_true (List.length_pos_iff.mpr (h l hl).1)

/-! ## The calls -/

/-- No endpoint that is there is removed, and a new one is added only if the file is kept. -/
def Harmless (kept : Bool) (l : List (List Char)) : Call → Prop
  | .add endpoint => endpoint.text ∈ l ∨ kept = true
  | .remove endpoint => endpoint.text ∉ l

theorem answer_iff (kept : Bool) {c : Config} (h : Lines c.siblings) (call : Call) :
    ((answer kept c call).1 = (setWithFile c.siblings call).1 ↔ Harmless kept c.siblings call) ∧
      (Harmless kept c.siblings call → Lines (answer kept c call).2.siblings ∧
        (answer kept c call).2.siblings = (setWithFile c.siblings call).2) := by
  unfold answer setWithFile
  cases call with
  | add endpoint =>
    by_cases hmem : endpoint.text ∈ c.siblings
    · rw [Config.call, Config.addSiblingNode, if_pos hmem, change, if_pos hmem]
      exact ⟨iff_of_true rfl (.inl hmem), fun _ => ⟨h, rfl⟩⟩
    · have hnew : Lines (c.siblings ++ [endpoint.text]) := List.forall_mem_append.mpr
        ⟨h, List.forall_mem_singleton.mpr ⟨endpoint.nonempty, endpoint.oneLine⟩⟩
      have hre := reload_write (c := { c with siblings := c.siblings ++ [endpoint.text] }) hnew kept
      rw [Config.call, Config.addSiblingNode, if_neg hmem, change, if_neg hmem]
      refine ⟨?_, fun _ => ⟨hnew, rfl⟩⟩
      dsimp only [answered]
      rw [hre, Harmless, or_iff_right hmem]
      cases kept <;> simp [Config.writeSiblings]
  | remove endpoint =>
    by_cases hmem : endpoint.text ∈ c.siblings
    · refine ⟨⟨fun heq _ => ?_, absurd hmem⟩, absurd hmem⟩
      rw [Config.call, Config.removeSiblingNode, if_pos hmem, change, decide_eq_true hmem] at heq
      have hsa : c.siblings = c.siblings.filter (· ≠ endpoint.text) :=
        (Prod.mk.inj (Prod.mk.inj heq).2).1
      exact of_decide_eq_true (List.filter_eq_self.mp hsa.symm _ hmem) rfl
    · have hsa : c.siblings.filter (· ≠ endpoint.text) = c.siblings :=
        List.filter_eq_self.mpr fun l hl => decide_eq_true fun heq => hmem (heq ▸ hl)
      rw [Config.call, Config.removeSiblingNode, if_neg hmem, change, decide_eq_false hmem, hsa]
      exact ⟨iff_of_true rfl hmem, fun _ => ⟨h, rfl⟩⟩

/-- **The siblings.**  Whatever was in the file: the calls are those of a set with a file just if
no endpoint that is there is removed, and a new one is added only if the library keeps the file. -/
theorem siblings_iff (kept : Bool) (c : Config) (calls : List Call) :
    trace (answer kept) c.reloadSiblingFile calls
        = trace setWithFile c.reloadSiblingFile.siblings calls ↔
      Along (fun l call => some (setWithFile l call).2) (Harmless kept)
        c.reloadSiblingFile.siblings calls := by
  have h := lines_reload c
  generalize c.reloadSiblingFile = c at h
  induction calls generalizing c with
  | nil => exact iff_of_true rfl trivial
  | cons call calls ih =>
    obtain ⟨hiff, hnext⟩ := answer_iff kept h call
    rw [trace, trace, List.cons_eq_cons, hiff, Along]
    refine and_congr_right fun hok => ?_
    obtain ⟨hli, heq⟩ := hnext hok
    rw [← heq]
    exact (ih _ hli).trans ⟨fun hal l hl => Option.some.inj hl ▸ hal, fun hal => hal _ rfl⟩

/-- A sibling is removed: the call says so, and it is still there. -/
theorem remove_changes_nothing : ∃ endpoint : Endpoint, ∀ kept,
    (answer kept (Config.reloadSiblingFile ⟨[], ['a', '\n', 'b', '\n']⟩) (.remove endpoint)).1
      = (true, [['a'], ['b']], some (if kept then [['a'], ['b']] else [])) ∧
    (setWithFile [['a'], ['b']] (.remove endpoint)).1 = (true, [['b']], some [['b']]) :=
  ⟨⟨['a'], by decide, by decide⟩, by rintro (_ | _) <;> exact ⟨rfl, rfl⟩⟩

end GradidoNode.SiblingFile
