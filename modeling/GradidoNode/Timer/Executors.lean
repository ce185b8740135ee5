/-
# `GradidoNode.Timer.Executors` — the executors of a timer pool

An `Executor` has a thread, the timer it serves (`m_timer`) and the number of events of
that timer it has still to handle (`m_doCount`).  `ExecutorContainer` knows which
executors are idle and which timer each of the others serves.  Each function below runs
under the mutex of its executor, and the container is changed within it.

What they can do comes down to four changes of one executor,

    assign     idle, now serves a timer with one event
    release    serves a timer, now idle
    recount    serves a timer, another number of events
    within     its thread enters or leaves the callback

and `Consistent`, which ties `m_timer` to the container, survives all four.  `owed` is
the number of events of a timer that have not begun to be handled: the event whose
callback is running is counted in `m_doCount` until `reduceCount`.
-/
import GradidoNode.Lib.PMap
import Mathlib.Algebra.Ring.Int.Defs
import Mathlib.Data.Finset.Max
import Mathlib.Data.Int.Order.Basic

namespace GradidoNode.TimerPool

open Function Lib

/-- The address of an `Executor`. -/
abbrev ExecutorId := Nat

/-- Arithmetic of `int`.  Signed overflow, undefined in the source, wraps. -/
def int32 (n : Int) : Int := n.bmod (2 ^ 32)

theorem int32_of_range {n : Int} (h₀ : -(2 ^ 31) ≤ n) (h₁ : n < 2 ^ 31) : int32 n = n := by
  rw [int32, Int.bmod_def]
  split <;> omega

/-- `TimerPool::Executor`.  `inside` is the timer whose callback its thread is in. -/
structure Executor (PooledTimer : Type) where
  timer : Option PooledTimer
  doCount : Int
  inside : Option PooledTimer

structure ExecutorContainer (PooledTimer : Type) where
  idle : Finset ExecutorId
  running : PMap PooledTimer ExecutorId

/-- The container with the executors it owns. -/
structure Pool (PooledTimer : Type) where
  executors : Finset ExecutorId
  executor : ExecutorId → Executor PooledTimer
  container : ExecutorContainer PooledTimer

variable {PooledTimer : Type} [DecidableEq PooledTimer]

namespace ExecutorContainer

variable (c : ExecutorContainer PooledTimer) (e : ExecutorId) (pt : PooledTimer)

/-- The first of `m_idle`, a `std::set` of pointers. -/
def topIdle : Option ExecutorId :=
  if h : c.idle.Nonempty then some (c.idle.min' h) else none

def setIdle : ExecutorContainer PooledTimer :=
  { idle := insert e c.idle, running := c.running.erase pt }

def setRunning : ExecutorContainer PooledTimer :=
  match c.running pt with
  | some _ => c
  | none => { idle := c.idle.erase e, running := c.running.put pt e }

end ExecutorContainer

namespace Pool

/-- Executor `e` and the container changed. -/
def put (p : Pool PooledTimer) (e : ExecutorId) (x : Executor PooledTimer)
    (c : ExecutorContainer PooledTimer) : Pool PooledTimer :=
  { p with executor := update p.executor e x, container := c }

/-- `pushIdle(new Executor)`, at the address `e`. -/
def create (p : Pool PooledTimer) (e : ExecutorId) : Pool PooledTimer where
  executors := insert e p.executors
  executor := update p.executor e ⟨none, 0, none⟩
  container := { p.container with idle := insert e p.container.idle }

/-- `getExecutor(pt)`.  An executor made for want of an idle one is the only idle one. -/
def getExecutor (p : Pool PooledTimer) (pt : PooledTimer) (fresh : ExecutorId) :
    ExecutorId × Pool PooledTimer :=
  match p.container.running pt with
  | some e => (e, p)
  | none =>
    match p.container.topIdle with
    | some e => (e, p)
    | none => (fresh, p.create fresh)

/-- `getExecutor(pt, true)`. -/
def getExecutorStrict (p : Pool PooledTimer) (pt : PooledTimer) : Option ExecutorId :=
  p.container.running pt

def tryExecute (p : Pool PooledTimer) (e : ExecutorId) (timer : PooledTimer) :
    Bool × Pool PooledTimer :=
  let x := p.executor e
  let x := if x.timer = none then { x with timer := some timer } else x
  if x.timer = some timer then
    let c := if x.doCount = 0 then p.container.setRunning e timer else p.container
    (true, p.put e { x with doCount := int32 (x.doCount + 1) } c)
  else (false, p)

def reduceCount (p : Pool PooledTimer) (e : ExecutorId) : Pool PooledTimer :=
  let x := p.executor e
  match x.timer with
  | none => p
  | some pt =>
    let count := int32 (x.doCount - 1)
    if count ≤ 0 then
      p.put e { x with timer := none, doCount := 0 } (p.container.setIdle e pt)
    else p.put e { x with doCount := count } p.container

/-- One pass of `waitUntilServiced(t)`: whether it returns, or waits for the condition.
`self` says that the caller is the thread of the executor. -/
def waitUntilServiced (p : Pool PooledTimer) (e : ExecutorId) (self : Bool) (t : PooledTimer) :
    Bool × Pool PooledTimer :=
  let x := p.executor e
  if x.timer = some t then
    if self then
      (true, p.put e { x with timer := none, doCount := 0 } (p.container.setIdle e t))
    else (false, p.put e { x with doCount := 0 } p.container)
  else (true, p)

/-! ## The four changes -/

section Changes

variable (p : Pool PooledTimer) (e : ExecutorId) (pt : PooledTimer)

def assign : Pool PooledTimer :=
  p.put e { p.executor e with timer := some pt, doCount := 1 }
    { idle := p.container.idle.erase e, running := p.container.running.put pt e }

def release : Pool PooledTimer :=
  p.put e { p.executor e with timer := none, doCount := 0 } (p.container.setIdle e pt)

def recount (n : Int) : Pool PooledTimer :=
  p.put e { p.executor e with doCount := n } p.container

def within (inside : Option PooledTimer) : Pool PooledTimer :=
  p.put e { p.executor e with inside := inside } p.container

end Changes

/-- `m_timer` and the container say the same. -/
structure Consistent (p : Pool PooledTimer) : Prop where
  serves : ∀ pt e, p.container.running pt = some e ↔ (p.executor e).timer = some pt
  idle : ∀ e, e ∈ p.container.idle ↔ e ∈ p.executors ∧ (p.executor e).timer = none
  known : ∀ e, e ∉ p.executors → (p.executor e).timer = none
  blank : ∀ e, (p.executor e).timer = none → (p.executor e).doCount = 0
  counts : ∀ e, 0 ≤ (p.executor e).doCount ∧ (p.executor e).doCount < 2 ^ 31

namespace Consistent

variable {p : Pool PooledTimer} {e : ExecutorId} {pt : PooledTimer} (h : p.Consistent)

include h

omit [DecidableEq PooledTimer] in
theorem recount (htm : (p.executor e).timer = some pt) {n : Int} (h₀ : 0 ≤ n)
    (h₁ : n < 2 ^ 31) : (p.recount e n).Consistent := by
  obtain ⟨serves, idle, known, blank, counts⟩ := h
  unfold Pool.recount Pool.put
  constructor <;> grind [update_apply]

omit [DecidableEq PooledTimer] in
theorem within (inside : Option PooledTimer) : (p.within e inside).Consistent := by
  obtain ⟨serves, idle, known, blank, counts⟩ := h
  unfold Pool.within Pool.put
  constructor <;> grind [update_apply]

theorem assign (hmem : e ∈ p.executors) (hno : (p.executor e).timer = none)
    (hfr : p.container.running pt = none) : (p.assign e pt).Consistent := by
  obtain ⟨serves, idle, known, blank, counts⟩ := h
  unfold Pool.assign Pool.put
  constructor <;> grind [update_apply, PMap.put_apply]

theorem release (htm : (p.executor e).timer = some pt) : (p.release e pt).Consistent := by
  have hrun := (h.serves pt e).mpr htm
  obtain ⟨serves, idle, known, blank, counts⟩ := h
  unfold Pool.release Pool.put ExecutorContainer.setIdle
  constructor <;> grind [update_apply, PMap.erase_apply]

omit [DecidableEq PooledTimer] in
theorem create (hfr : e ∉ p.executors) : (p.create e).Consistent := by
  obtain ⟨serves, idle, known, blank, counts⟩ := h
  unfold Pool.create
  constructor <;> grind [update_apply]

end Consistent

/-! ## What the functions do -/

/-- The executor found for `pt` serves it, or is idle and nobody serves it. -/
def Chosen (p : Pool PooledTimer) (pt : PooledTimer) (e : ExecutorId) : Prop :=
  p.container.running pt = some e ∨ (p.container.running pt = none ∧ e ∈ p.container.idle)

section Functions

variable {p : Pool PooledTimer} {e : ExecutorId} {pt : PooledTimer}

omit [DecidableEq PooledTimer] in
theorem getExecutor_spec (pt : PooledTimer) (fresh : ExecutorId) :
    (p.getExecutor pt fresh).2.Chosen pt (p.getExecutor pt fresh).1 ∧
      ((p.getExecutor pt fresh).2 = p ∨ (p.getExecutor pt fresh).2 = p.create fresh) := by
  rw [getExecutor]
  cases hrun : p.container.running pt with
  | some e => exact ⟨.inl hrun, .inl rfl⟩
  | none =>
    cases htop : p.container.topIdle with
    | some e =>
      rw [ExecutorContainer.topIdle] at htop
      split at htop
      · next hne =>
        cases htop
        exact ⟨.inr ⟨hrun, Finset.min'_mem p.container.idle hne⟩, .inl rfl⟩
      · cases htop
    | none => exact ⟨.inr ⟨hrun, Finset.mem_insert_self _ _⟩, .inr rfl⟩

variable (h : p.Consistent)

include h

theorem tryExecute_idle (hno : (p.executor e).timer = none)
    (hfr : p.container.running pt = none) : p.tryExecute e pt = (true, p.assign e pt) := by
  have hset : p.container.setRunning e pt
      = { idle := p.container.idle.erase e, running := p.container.running.put pt e } := by
    rw [ExecutorContainer.setRunning, hfr]
  have hcount := h.blank e hno
  simp only [tryExecute, hno, if_true, hcount, hset, assign]
  rfl

theorem tryExecute_serving (htm : (p.executor e).timer = some pt) :
    p.tryExecute e pt = (true, p.recount e (int32 ((p.executor e).doCount + 1))) := by
  have hset : p.container.setRunning e pt = p.container := by
    rw [ExecutorContainer.setRunning, (h.serves pt e).mpr htm]
  simp [tryExecute, htm, hset, recount]

omit [DecidableEq PooledTimer] h in
theorem int32_sub_one (h : 0 ≤ (p.executor e).doCount ∧ (p.executor e).doCount < 2 ^ 31) :
    int32 ((p.executor e).doCount - 1) = (p.executor e).doCount - 1 :=
  int32_of_range (by omega) (by omega)

omit h in
theorem reduceCount_none (hno : (p.executor e).timer = none) : p.reduceCount e = p := by
  simp only [reduceCount, hno]

theorem reduceCount_last (htm : (p.executor e).timer = some pt)
    (hcount : (p.executor e).doCount ≤ 1) : p.reduceCount e = p.release e pt := by
  simp only [reduceCount, htm, int32_sub_one (h.counts e)]
  rw [if_pos (by omega)]
  rfl

theorem reduceCount_more (htm : (p.executor e).timer = some pt)
    (hcount : 1 < (p.executor e).doCount) :
    p.reduceCount e = p.recount e ((p.executor e).doCount - 1) := by
  simp only [reduceCount, htm, int32_sub_one (h.counts e)]
  rw [if_neg (by omega), recount]
  simp only [htm]

omit h in
theorem waitUntilServiced_self (htm : (p.executor e).timer = some pt) :
    p.waitUntilServiced e true pt = (true, p.release e pt) := by
  simp [waitUntilServiced, htm, release]

omit h in
theorem waitUntilServiced_other (htm : (p.executor e).timer = some pt) :
    p.waitUntilServiced e false pt = (false, p.recount e 0) := by
  simp [waitUntilServiced, htm, recount]

omit h in
theorem waitUntilServiced_serviced {self : Bool} (htm : (p.executor e).timer ≠ some pt) :
    p.waitUntilServiced e self pt = (true, p) := by
  simp [waitUntilServiced, htm]

end Functions

/-! ## What is owed to a timer -/

/-- The events of `pt` handed to an executor whose callback has not begun. -/
def owed (p : Pool PooledTimer) (pt : PooledTimer) : Nat :=
  match p.container.running pt with
  | none => 0
  | some e => ((p.executor e).doCount - (p.executor e).inside.isSome.toNat).toNat

section Owed

variable {p : Pool PooledTimer} {e : ExecutorId} {pt pt' : PooledTimer} (h : p.Consistent)

include h

omit [DecidableEq PooledTimer] in
theorem owed_serving (htm : (p.executor e).timer = some pt) :
    p.owed pt = ((p.executor e).doCount - (p.executor e).inside.isSome.toNat).toNat := by
  simp only [owed, (h.serves pt e).mpr htm]

omit [DecidableEq PooledTimer] in
/-- A change of an executor concerns no timer but the one it serves. -/
theorem owed_other (htm : ∀ q, (p.executor e).timer = some q → pt ≠ q) {x : Executor PooledTimer}
    {c : ExecutorContainer PooledTimer} (hrun : c.running pt = p.container.running pt) :
    (p.put e x c).owed pt = p.owed pt := by
  have hse := h.serves pt
  unfold owed put
  dsimp only
  rw [hrun]
  split
  · rfl
  · rw [update_of_ne (by grind)]

theorem owed_release (htm : (p.executor e).timer = some pt) :
    (p.release e pt).owed pt' = if pt' = pt then 0 else p.owed pt' := by
  split
  · next heq => simp [heq, owed, release, put, ExecutorContainer.setIdle]
  · next hne => exact owed_other h (by grind) (PMap.erase_of_ne hne)

theorem owed_assign (hno : (p.executor e).timer = none) : (p.assign e pt).owed pt'
      = if pt' = pt then (1 - (p.executor e).inside.isSome.toNat) else p.owed pt' := by
  split
  · next heq =>
    simp only [heq, owed, assign, put, PMap.put_self, update_self]
    omega
  · next hne => exact owed_other h (by grind) (PMap.put_of_ne hne)

theorem owed_recount (htm : (p.executor e).timer = some pt) (n : Int) : (p.recount e n).owed pt'
      = if pt' = pt then (n - (p.executor e).inside.isSome.toNat).toNat else p.owed pt' := by
  have hrun := (h.serves pt e).mpr htm
  split
  · next heq => simp [heq, owed, recount, put, hrun]
  · exact owed_other h (by grind) rfl

theorem owed_within (htm : (p.executor e).timer = some pt) (inside : Option PooledTimer) :
    (p.within e inside).owed pt'
      = if pt' = pt then ((p.executor e).doCount - inside.isSome.toNat).toNat else p.owed pt' := by
  have hrun := (h.serves pt e).mpr htm
  split
  · next heq => simp [heq, owed, within, put, hrun]
  · exact owed_other h (by grind) rfl

omit [DecidableEq PooledTimer] in
theorem owed_create (hfr : e ∉ p.executors) : (p.create e).owed pt = p.owed pt := by
  have hse := h.serves
  have hkn := h.known
  unfold owed create
  grind [update_apply]

/-- Nothing is lost when a callback returns: the event it has handled was not owed. -/
theorem owed_returned (hin : (p.executor e).inside.isSome) :
    ((p.reduceCount e).within e none).owed pt = p.owed pt := by
  cases htm : (p.executor e).timer with
  | none =>
    rw [reduceCount_none htm]
    exact owed_other h (by grind) rfl
  | some q =>
    have hod := owed_serving h htm
    by_cases hla : (p.executor e).doCount ≤ 1
    · have hno : ((p.release e q).executor e).timer = none := by simp [release, put]
      rw [reduceCount_last h htm hla, within, owed_other (h.release htm) (by grind) rfl,
        owed_release h htm]
      grind
    · have hco := h.counts e
      have hti : ((p.recount e ((p.executor e).doCount - 1)).executor e).timer = some q := by
        simp [recount, put, htm]
      rw [reduceCount_more h htm (by omega), owed_within (h.recount htm (by omega) (by omega)) hti,
        owed_recount h htm]
      simp only [recount, put, update_self]
      grind

variable (pt) in
/-- A callback that begins takes one event. -/
theorem owed_execute {q : PooledTimer} (htm : (p.executor e).timer = some q)
    (hin : (p.executor e).inside = none) (hcount : pt = q → 1 ≤ (p.executor e).doCount) :
    (p.within e (some q)).owed pt + (if pt = q then 1 else 0) = p.owed pt := by
  have hod := owed_serving h htm
  rw [owed_within h htm]
  grind

variable (pt) in
/-- An event handed over is owed. -/
theorem owed_tryExecute {q : PooledTimer} (hch : p.Chosen q e)
    (hout : (p.executor e).timer = none → (p.executor e).inside = none)
    (hmax : (p.executor e).doCount + 1 < 2 ^ 31)
    (hcount : (p.executor e).timer = some q → 1 ≤ (p.executor e).doCount) :
    (p.tryExecute e q).2.owed pt = p.owed pt + if pt = q then 1 else 0 := by
  rcases hch with hrun | ⟨hfr, hid⟩
  · have htm := (h.serves q e).mp hrun
    have hod := owed_serving h htm
    have hone := hcount htm
    have hle := Bool.toNat_le (p.executor e).inside.isSome
    rw [tryExecute_serving h htm, int32_of_range (by omega) hmax, owed_recount h htm]
    split
    · next heq =>
      rw [heq, hod]
      omega
    · rfl
  · have hno := ((h.idle e).mp hid).2
    have hod : p.owed q = 0 := by simp only [owed, hfr]
    rw [tryExecute_idle h hno hfr, owed_assign h hno, hout hno]
    grind

/-- A wait for another timer takes nothing. -/
theorem owed_waitUntilServiced {self : Bool} {t : PooledTimer} (hne : pt ≠ t) :
    (p.waitUntilServiced e self t).2.owed pt = p.owed pt := by
  by_cases htm : (p.executor e).timer = some t
  · cases self with
    | true => rw [waitUntilServiced_self htm, owed_release h htm, if_neg hne]
    | false => rw [waitUntilServiced_other htm, owed_recount h htm, if_neg hne]
  · rw [waitUntilServiced_serviced htm]

omit [DecidableEq PooledTimer] in
variable (pt) in
theorem owed_getExecutor {fresh : ExecutorId} (hfr : fresh ∉ p.executors) (q : PooledTimer) :
    (p.getExecutor q fresh).2.owed pt = p.owed pt := by
  rcases (getExecutor_spec q fresh).2 with heq | heq
  · rw [heq]
  · rw [heq, owed_create h hfr]

end Owed

end Pool

end GradidoNode.TimerPool
