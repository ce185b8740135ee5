/-
# `GradidoNode.Timer.TimerPool` — no event of a timer is lost

The threads of a `TimerPool`, step by step as their mutexes allow:

    main thread      doExecute: getExecutor, later tryExecute
    executor         takes up its timer and calls back; later reduceCount
    any thread       start, stop and deletion of a timer; the last two may then wait for
                     the executor (waitUntilServiced), pass after pass

The main thread holds the mutex of the pool from `getExecutor` to `tryExecute`, so that no
timer is started, stopped or deleted in between.  `stop` holds the mutex of the timer
while it waits, which keeps `start` and the callback out.  A timer is deleted once, and
not used by another thread then.

A callback may delete its own timer, as `TimerListenerImpl` does.  Its executor is idle
from then on, with its thread still in the callback, and can be given another timer;
`reduceCount`, at the end of the callback, takes the event for the one just handled
(`deleted_in_callback_loses`).  `HandsOver` leaves out just that, and an overflow of
`m_doCount`.  Then every event is handled once (`fired_is_executed`).

`m_idleTimers` is written and never read, and left out; so is the shutdown.
-/
import GradidoNode.Lib.Exec
import GradidoNode.Timer.Executors

namespace GradidoNode.TimerPool

open Function Lib

structure Timespec where
  tvSec : Int
  tvNsec : Int
  deriving DecidableEq, Repr

/-- `TimespecComparator`. -/
def Timespec.before (t c : Timespec) : Bool :=
  c.tvSec > t.tvSec || (c.tvSec == t.tvSec && c.tvNsec > t.tvNsec)

variable {PooledTimer : Type} [DecidableEq PooledTimer]

/-- `m_runningTimers`, in the order of the map. -/
abbrev RunningTimers (PooledTimer : Type) := List (Timespec × PooledTimer)

namespace RunningTimers

/-- `insert` of the map: an entry with the same time stays. -/
def insertAt (t : Timespec) (pt : PooledTimer) :
    RunningTimers PooledTimer → RunningTimers PooledTimer
  | [] => [(t, pt)]
  | x :: xs =>
    if t.before x.1 then (t, pt) :: x :: xs
    else if x.1.before t then x :: insertAt t pt xs
    else x :: xs

def eraseAt (t : Timespec) (xs : RunningTimers PooledTimer) : RunningTimers PooledTimer :=
  xs.filter fun x => x.1 ≠ t

/-- `isRunning(pt, &t)`. -/
def isRunning (xs : RunningTimers PooledTimer) (pt : PooledTimer) : Option Timespec :=
  (xs.find? fun x => x.2 = pt).map Prod.fst

/-- The map after `startTimer`. -/
def startTimer (xs : RunningTimers PooledTimer) (pt : PooledTimer) (target : Timespec) :
    RunningTimers PooledTimer :=
  match isRunning xs pt with
  | some t => if t = target then xs else insertAt target pt (eraseAt t xs)
  | none => insertAt target pt xs

/-- The map after `removeTimer`. -/
def removeTimer (xs : RunningTimers PooledTimer) (pt : PooledTimer) : RunningTimers PooledTimer :=
  match isRunning xs pt with
  | some t => eraseAt t xs
  | none => xs

end RunningTimers

open RunningTimers

/-- Who calls: the thread of an executor, from a callback, or another thread. -/
inductive Thread where
  | executor (e : ExecutorId)
  | other
  deriving DecidableEq

/-- A call of `stop` or of the destructor on its way to the end of `waitUntilServiced`.
`stop` holds the mutex of the timer. -/
structure Wait (PooledTimer : Type) where
  caller : Thread
  timer : PooledTimer
  executor : ExecutorId
  holdsTimer : Bool
  deriving DecidableEq

/-- The pool; `main` is the main thread between `getExecutor` and `tryExecute`, `gone` the
timers whose destructor has been entered.  `fired` and `executed` count the calls of
`doExecute` and of the callback. -/
structure System (PooledTimer : Type) where
  runningTimers : RunningTimers PooledTimer
  pool : Pool PooledTimer
  main : Option (PooledTimer × ExecutorId)
  waits : List (Wait PooledTimer)
  gone : List PooledTimer
  fired : PooledTimer → Nat
  executed : PooledTimer → Nat

/-- The pool with its first executors. -/
def initial (executors : Finset ExecutorId) : System PooledTimer where
  runningTimers := []
  pool := ⟨executors, fun _ => ⟨none, 0, none⟩, ⟨executors, PMap.empty⟩⟩
  main := none
  waits := []
  gone := []
  fired := fun _ => 0
  executed := fun _ => 0

inductive Event (PooledTimer : Type) where
  /-- `fresh` is the address of an executor that has to be made. -/
  | doExecute (fresh : ExecutorId)
  | tryExecute
  | execute (e : ExecutorId)
  | returned (e : ExecutorId)
  | start (caller : Thread) (pt : PooledTimer) (target : Timespec)
  | stop (caller : Thread) (pt : PooledTimer)
  | remove (caller : Thread) (pt : PooledTimer)
  | waitUntilServiced (w : Wait PooledTimer)

namespace System

variable (s : System PooledTimer)

/-- The thread is in no call; one of an executor is in a callback. -/
def MayCall : Thread → Prop
  | .executor e => (s.pool.executor e).inside.isSome ∧ ∀ w ∈ s.waits, w.caller ≠ .executor e
  | .other => True

/-- The mutexes of the pool and of the timer are free, and the timer exists. -/
def Free (pt : PooledTimer) : Prop :=
  s.main.isNone ∧ pt ∉ s.gone ∧ ∀ w ∈ s.waits, w.timer ≠ pt

instance (caller : Thread) : Decidable (s.MayCall caller) := by
  cases caller <;> unfold MayCall <;> infer_instance

instance (pt : PooledTimer) : Decidable (s.Free pt) := by
  unfold Free
  infer_instance

/-- The wait for the executor of `pt`, if it has one. -/
def waitFor (caller : Thread) (pt : PooledTimer) (holdsTimer : Bool) : List (Wait PooledTimer) :=
  ((s.pool.getExecutorStrict pt).map fun e => ⟨caller, pt, e, holdsTimer⟩).toList

/-- Whether the thread of `e` can take up its timer: `PooledTimer::execute` locks the
mutex of the timer. -/
def CanExecute (e : ExecutorId) (pt : PooledTimer) : Prop :=
  (s.pool.executor e).inside = none ∧ ∀ w ∈ s.waits, w.timer = pt → w.holdsTimer = false

instance (e : ExecutorId) (pt : PooledTimer) : Decidable (s.CanExecute e pt) := by
  unfold CanExecute
  infer_instance

end System

def step (s : System PooledTimer) : Event PooledTimer → Option (System PooledTimer)
  | .doExecute fresh =>
    match s.runningTimers with
    | [] => none
    | (t, pt) :: _ =>
      if s.main.isNone ∧ fresh ∉ s.pool.executors then
        some { s with
          runningTimers := eraseAt t s.runningTimers
          pool := (s.pool.getExecutor pt fresh).2
          main := some (pt, (s.pool.getExecutor pt fresh).1)
          fired := update s.fired pt (s.fired pt + 1) }
      else none
  | .tryExecute =>
    match s.main with
    | none => none
    | some (pt, e) => some { s with pool := (s.pool.tryExecute e pt).2, main := none }
  | .execute e =>
    match (s.pool.executor e).timer with
    | none => none
    | some pt =>
      if s.CanExecute e pt then
        some { s with
          pool := s.pool.within e (some pt)
          executed := update s.executed pt (s.executed pt + 1) }
      else none
  | .returned e =>
    if s.MayCall (.executor e) then
      some { s with pool := (s.pool.reduceCount e).within e none }
    else none
  | .start caller pt target =>
    if s.MayCall caller ∧ s.Free pt then
      some { s with runningTimers := startTimer s.runningTimers pt target }
    else none
  | .stop caller pt =>
    if s.MayCall caller ∧ s.Free pt then
      match isRunning s.runningTimers pt with
      | none => some s
      | some t => some { s with
          runningTimers := eraseAt t s.runningTimers
          waits := s.waits ++ s.waitFor caller pt true }
    else none
  | .remove caller pt =>
    if s.MayCall caller ∧ s.Free pt then
      some { s with
        runningTimers := removeTimer s.runningTimers pt
        waits := s.waits ++ s.waitFor caller pt false
        gone := pt :: s.gone }
    else none
  | .waitUntilServiced w =>
    if w ∈ s.waits then
      let self := decide (w.caller = .executor w.executor)
      let r := s.pool.waitUntilServiced w.executor self w.timer
      some { s with pool := r.2, waits := if r.1 then s.waits.erase w else s.waits }
    else none

/-- `pt` is stopped or deleted. -/
def Touches (pt : PooledTimer) : Event PooledTimer → Prop
  | .stop _ pt' => pt' = pt
  | .remove _ pt' => pt' = pt
  | _ => False

/-- An executor is given a timer only when its thread is out of the callback of the timer
it had, and when the number of its events is not the largest `int`. -/
def HandsOver (s : System PooledTimer) : Event PooledTimer → Prop
  | .tryExecute => ∀ pt e, s.main = some (pt, e) →
      ((s.pool.executor e).timer = none → (s.pool.executor e).inside = none) ∧
        (s.pool.executor e).doCount + 1 < 2 ^ 31
  | _ => True

/-- The events of `pt` whose callback has not begun. -/
def owed (s : System PooledTimer) (pt : PooledTimer) : Nat :=
  (if s.main.map Prod.fst = some pt then 1 else 0) + s.pool.owed pt

/-- From `s` to `s'` each event fired is executed once, up to those owed before and after. -/
def Balanced (pt : PooledTimer) (s s' : System PooledTimer) : Prop :=
  s'.executed pt + owed s' pt + s.fired pt = s.executed pt + owed s pt + s'.fired pt

/-- An event that is owed has the main thread to hand it over, or an executor that is in
the callback or can take it up. -/
def Served (s : System PooledTimer) (pt : PooledTimer) : Prop :=
  0 < owed s pt → s.main.map Prod.fst = some pt ∨
    ∃ e, (s.pool.executor e).timer = some pt ∧
      ((s.pool.executor e).inside = some pt ∨ (step s (.execute e)).isSome)

/-! ## Started timers -/

namespace RunningTimers

variable {xs : RunningTimers PooledTimer} {t : Timespec} {pt pt' : PooledTimer}

section Map

omit [DecidableEq PooledTimer]

theorem insertAt_perm (t : Timespec) (pt : PooledTimer) (xs : RunningTimers PooledTimer) :
    insertAt t pt xs = xs ∨ (insertAt t pt xs).Perm ((t, pt) :: xs) := by
  induction xs with
  | nil => exact .inr (List.Perm.refl _)
  | cons x xs ih =>
    rw [insertAt]
    split
    · exact .inr (List.Perm.refl _)
    · split
      · rcases ih with heq | hpe
        · exact .inl (by rw [heq])
        · exact .inr ((hpe.cons x).trans (List.Perm.swap _ _ _))
      · exact .inl rfl

theorem mem_insertAt (h : pt' ∈ (insertAt t pt xs).map Prod.snd) :
    pt' = pt ∨ pt' ∈ xs.map Prod.snd := by
  rcases insertAt_perm t pt xs with heq | hpe
  · exact .inr (heq ▸ h)
  · exact List.mem_cons.mp ((hpe.map Prod.snd).mem_iff.mp h)

theorem nodup_insertAt (hnot : pt ∉ xs.map Prod.snd) (h : (xs.map Prod.snd).Nodup) :
    ((insertAt t pt xs).map Prod.snd).Nodup := by
  rcases insertAt_perm t pt xs with heq | hpe
  · rwa [heq]
  · exact (hpe.map Prod.snd).nodup_iff.mpr (List.nodup_cons.mpr ⟨hnot, h⟩)

theorem mem_eraseAt (h : pt' ∈ (eraseAt t xs).map Prod.snd) : pt' ∈ xs.map Prod.snd :=
  (List.filter_sublist.map Prod.snd).subset h

theorem nodup_eraseAt (h : (xs.map Prod.snd).Nodup) : ((eraseAt t xs).map Prod.snd).Nodup :=
  h.sublist (List.filter_sublist.map Prod.snd)

theorem not_mem_eraseAt (h : (xs.map Prod.snd).Nodup) (hmem : (t, pt) ∈ xs) :
    pt ∉ (eraseAt t xs).map Prod.snd := by
  intro hpt
  obtain ⟨x, hx, rfl⟩ := List.mem_map.mp hpt
  obtain ⟨hx, hne⟩ := List.mem_filter.mp hx
  have heq := List.inj_on_of_nodup_map h hx hmem rfl
  rw [heq] at hne
  exact of_decide_eq_true hne rfl

end Map

theorem isRunning_some (h : isRunning xs pt = some t) : (t, pt) ∈ xs := by
  obtain ⟨x, hx, rfl⟩ := Option.map_eq_some_iff.mp h
  have hpt : x.2 = pt := by simpa using List.find?_some hx
  exact hpt ▸ List.mem_of_find?_eq_some hx

theorem isRunning_none (h : isRunning xs pt = none) : pt ∉ xs.map Prod.snd := by
  intro hpt
  obtain ⟨x, hx, rfl⟩ := List.mem_map.mp hpt
  have hno := List.find?_eq_none.mp (Option.map_eq_none_iff.mp h) x hx
  exact hno (decide_eq_true rfl)

theorem mem_startTimer {target : Timespec} (h : pt' ∈ (startTimer xs pt target).map Prod.snd) :
    pt' = pt ∨ pt' ∈ xs.map Prod.snd := by
  rw [startTimer] at h
  split at h
  · split at h
    · exact .inr h
    · exact (mem_insertAt h).imp_right mem_eraseAt
  · exact mem_insertAt h

theorem nodup_startTimer {target : Timespec} (h : (xs.map Prod.snd).Nodup) :
    ((startTimer xs pt target).map Prod.snd).Nodup := by
  rw [startTimer]
  split
  · next t hrun =>
    split
    · exact h
    · exact nodup_insertAt (not_mem_eraseAt h (isRunning_some hrun)) (nodup_eraseAt h)
  · next hrun => exact nodup_insertAt (isRunning_none hrun) h

theorem removeTimer_spec (h : (xs.map Prod.snd).Nodup) (pt : PooledTimer) :
    ((removeTimer xs pt).map Prod.snd).Nodup ∧ pt ∉ (removeTimer xs pt).map Prod.snd ∧
      ∀ pt' ∈ (removeTimer xs pt).map Prod.snd, pt' ∈ xs.map Prod.snd := by
  rw [removeTimer]
  split
  · next t hrun =>
    exact ⟨nodup_eraseAt h, not_mem_eraseAt h (isRunning_some hrun), fun _ => mem_eraseAt⟩
  · next hrun => exact ⟨h, isRunning_none hrun, fun _ => id⟩

end RunningTimers

/-! ## The invariant -/

/-- A thread in a callback is in that of the timer it serves; and a timer that is served
has an event, unless somebody waits to stop it. -/
def Executor.Ok (waits : List (Wait PooledTimer)) (x : Executor PooledTimer) : Prop :=
  (∀ a b, x.inside = some a → x.timer = some b → a = b) ∧
    ∀ pt, x.timer = some pt → 1 ≤ x.doCount ∨ ∃ w ∈ waits, w.timer = pt

structure Inv (s : System PooledTimer) : Prop where
  pool : s.pool.Consistent
  ok : ∀ e, (s.pool.executor e).Ok s.waits
  chosen : ∀ pt e, s.main = some (pt, e) → s.pool.Chosen pt e
  aims : ∀ w ∈ s.waits, ∀ e, s.pool.container.running w.timer = some e → e = w.executor
  quiet : ∀ w ∈ s.waits,
    w.timer ∉ s.runningTimers.map Prod.snd ∧ s.main.map Prod.fst ≠ some w.timer
  once : (s.runningTimers.map Prod.snd).Nodup

omit [DecidableEq PooledTimer] in
theorem inv_initial (executors : Finset ExecutorId) :
    Inv (initial executors : System PooledTimer) where
  pool := {
    serves := fun _ _ => ⟨nofun, nofun⟩
    idle := fun e => ⟨fun h => ⟨h, rfl⟩, fun h => h.1⟩
    known := fun _ _ => rfl
    blank := fun _ _ => rfl
    counts := fun _ => ⟨le_refl 0, show (0 : Int) < 2 ^ 31 by decide⟩ }
  ok := fun _ => ⟨nofun, nofun⟩
  chosen := nofun
  aims := nofun
  quiet := nofun
  once := List.nodup_nil

/-! ## One change of an executor keeps the invariant -/

omit [DecidableEq PooledTimer] in
theorem mem_waitFor (s : System PooledTimer) (caller : Thread) (pt : PooledTimer)
    (holdsTimer : Bool) : ∀ w ∈ s.waitFor caller pt holdsTimer,
      w.timer = pt ∧ s.pool.container.running pt = some w.executor := by
  intro w hw
  rw [System.waitFor, Option.mem_toList] at hw
  obtain ⟨e, hrun, rfl⟩ := Option.map_eq_some_iff.mp hw
  exact ⟨rfl, hrun⟩

section Changes

variable {s : System PooledTimer} (hinv : Inv s) {e : ExecutorId} {pt : PooledTimer}

include hinv

theorem Inv.release (htm : (s.pool.executor e).timer = some pt) :
    Inv { s with pool := s.pool.release e pt } := by
  have hrun := (hinv.pool.serves pt e).mpr htm
  refine ⟨hinv.pool.release htm, ?_, ?_, ?_, hinv.quiet, hinv.once⟩
  all_goals
    obtain ⟨-, ok, chosen, aims, -, -⟩ := hinv
    unfold Pool.release Pool.put ExecutorContainer.setIdle
    grind [Executor.Ok, Pool.Chosen, update_apply, PMap.erase_apply]

omit [DecidableEq PooledTimer] in
theorem Inv.recount {n : Int} (htm : (s.pool.executor e).timer = some pt)
    (hcount : 1 ≤ n ∨ ∃ w ∈ s.waits, w.timer = pt) (h₀ : 0 ≤ n) (h₁ : n < 2 ^ 31) :
    Inv { s with pool := s.pool.recount e n } := by
  refine ⟨hinv.pool.recount htm h₀ h₁, ?_, hinv.chosen, hinv.aims, hinv.quiet, hinv.once⟩
  have ok := hinv.ok
  unfold Pool.recount Pool.put
  grind [Executor.Ok, update_apply]

omit [DecidableEq PooledTimer] in
theorem Inv.within {inside : Option PooledTimer}
    (hca : ∀ a b, inside = some a → (s.pool.executor e).timer = some b → a = b) :
    Inv { s with pool := s.pool.within e inside } := by
  refine ⟨hinv.pool.within inside, ?_, hinv.chosen, hinv.aims, hinv.quiet, hinv.once⟩
  have ok := hinv.ok
  unfold Pool.within Pool.put
  grind [Executor.Ok, update_apply]

theorem Inv.assign (hma : s.main = some (pt, e)) (hid : e ∈ s.pool.container.idle)
    (hfr : s.pool.container.running pt = none) (hout : (s.pool.executor e).inside = none) :
    Inv { s with pool := s.pool.assign e pt, main := none } := by
  obtain ⟨hmem, hno⟩ := (hinv.pool.idle e).mp hid
  refine ⟨hinv.pool.assign hmem hno hfr, ?_, nofun, ?_, ?_, hinv.once⟩
  all_goals
    obtain ⟨-, ok, -, aims, quiet, -⟩ := hinv
    unfold Pool.assign Pool.put
    grind [Executor.Ok, update_apply, PMap.put_apply]

theorem Inv.reduceCount (e : ExecutorId) :
    Inv { s with pool := s.pool.reduceCount e } := by
  cases htm : (s.pool.executor e).timer with
  | none =>
    rw [Pool.reduceCount_none htm]
    exact hinv
  | some pt =>
    by_cases hla : (s.pool.executor e).doCount ≤ 1
    · rw [Pool.reduceCount_last hinv.pool htm hla]
      exact hinv.release htm
    · have hco := hinv.pool.counts e
      rw [Pool.reduceCount_more hinv.pool htm (by omega)]
      exact hinv.recount htm (.inl (by omega)) (by omega) (by omega)

theorem Inv.erase_wait {w : Wait PooledTimer}
    (hgo : ∀ e, (s.pool.executor e).timer ≠ some w.timer) :
    Inv { s with waits := s.waits.erase w } := by
  obtain ⟨pool, ok, chosen, aims, quiet, once⟩ := hinv
  constructor <;> grind [Executor.Ok]

theorem Inv.waitUntilServiced {w : Wait PooledTimer} (hw : w ∈ s.waits) (self : Bool) :
    Inv { s with
      pool := (s.pool.waitUntilServiced w.executor self w.timer).2
      waits := if (s.pool.waitUntilServiced w.executor self w.timer).1 then s.waits.erase w
        else s.waits } := by
  by_cases htm : (s.pool.executor w.executor).timer = some w.timer
  · cases self with
    | true =>
      rw [Pool.waitUntilServiced_self htm]
      have hinv' := hinv.release htm
      refine hinv'.erase_wait fun e hse => ?_
      have hrun := (hinv'.pool.serves w.timer e).mpr hse
      cases PMap.erase_self.symm.trans hrun
    | false =>
      rw [Pool.waitUntilServiced_other htm]
      exact hinv.recount htm (.inr ⟨w, hw, rfl⟩) (le_refl 0) (by decide)
  · rw [Pool.waitUntilServiced_serviced htm]
    refine hinv.erase_wait fun e hse => ?_
    have heq := hinv.aims w hw e ((hinv.pool.serves w.timer e).mpr hse)
    exact htm (heq ▸ hse)

/-- Under `HandsOver`, the timer is handed over. -/
theorem Inv.tryExecute (hma : s.main = some (pt, e))
    (hout : (s.pool.executor e).timer = none → (s.pool.executor e).inside = none)
    (hmax : (s.pool.executor e).doCount + 1 < 2 ^ 31) :
    Inv { s with pool := (s.pool.tryExecute e pt).2, main := none } := by
  rcases hinv.chosen pt e hma with hrun | ⟨hfr, hid⟩
  · have hmain : Inv { s with main := none } :=
      ⟨hinv.pool, hinv.ok, nofun, hinv.aims, fun w hw => ⟨(hinv.quiet w hw).1, nofun⟩, hinv.once⟩
    have htm := (hinv.pool.serves pt e).mp hrun
    have hco := hinv.pool.counts e
    rw [Pool.tryExecute_serving hinv.pool htm, int32_of_range (by omega) hmax]
    exact hmain.recount htm (.inl (by omega)) (by omega) hmax
  · have hno := ((hinv.pool.idle e).mp hid).2
    rw [Pool.tryExecute_idle hinv.pool hno hfr]
    exact hinv.assign hma hid hfr (hout hno)

omit [DecidableEq PooledTimer]

theorem Inv.create {fresh : ExecutorId} (hfr : fresh ∉ s.pool.executors) :
    Inv { s with pool := s.pool.create fresh } := by
  refine ⟨hinv.pool.create hfr, ?_, ?_, hinv.aims, hinv.quiet, hinv.once⟩
  all_goals
    obtain ⟨-, ok, chosen, -, -, -⟩ := hinv
    unfold Pool.create
    grind [Executor.Ok, Pool.Chosen, update_apply]

theorem Inv.doExecute {fresh : ExecutorId} {t : Timespec} (hmem : (t, pt) ∈ s.runningTimers)
    (hfr : fresh ∉ s.pool.executors) (fired : PooledTimer → Nat) :
    Inv { s with
      runningTimers := eraseAt t s.runningTimers
      pool := (s.pool.getExecutor pt fresh).2
      main := some (pt, (s.pool.getExecutor pt fresh).1)
      fired := fired } := by
  obtain ⟨hch, hpo⟩ := s.pool.getExecutor_spec pt fresh
  have hinv' : Inv { s with pool := (s.pool.getExecutor pt fresh).2 } := by
    rcases hpo with heq | heq
    · rw [heq]
      exact hinv
    · rw [heq]
      exact hinv.create hfr
  refine ⟨hinv'.pool, hinv'.ok, ?_, hinv'.aims, ?_, nodup_eraseAt hinv.once⟩
  · grind
  · have quiet := hinv.quiet
    grind [mem_eraseAt]

theorem Inv.waitFor {caller : Thread} {holdsTimer : Bool} {xs : RunningTimers PooledTimer}
    (hma : s.main = none) (hon : (xs.map Prod.snd).Nodup) (hnot : pt ∉ xs.map Prod.snd)
    (hsub : ∀ pt' ∈ xs.map Prod.snd, pt' ∈ s.runningTimers.map Prod.snd)
    (gone : List PooledTimer) :
    Inv { s with
      runningTimers := xs
      waits := s.waits ++ s.waitFor caller pt holdsTimer
      gone := gone } := by
  have hnew := mem_waitFor s caller pt holdsTimer
  obtain ⟨pool, ok, chosen, aims, quiet, once⟩ := hinv
  refine ⟨pool, ?_, chosen, ?_, ?_, hon⟩ <;> grind [Executor.Ok]

end Changes

/-! ## Every event is executed once -/

/-- Nobody waits to stop or delete `pt`. -/
def Untouched (s : System PooledTimer) (pt : PooledTimer) : Prop := ∀ w ∈ s.waits, w.timer ≠ pt

section Balance

variable {s s' : System PooledTimer} {pt : PooledTimer}

omit [DecidableEq PooledTimer] in
theorem Inv.doCount_pos (hinv : Inv s) (hun : Untouched s pt) {e : ExecutorId}
    (htm : (s.pool.executor e).timer = some pt) : 1 ≤ (s.pool.executor e).doCount := by
  rcases (hinv.ok e).2 pt htm with hcount | ⟨w, hw, heq⟩
  · exact hcount
  · exact absurd heq (hun w hw)

omit [DecidableEq PooledTimer] in
theorem Untouched.waitFor (hun : Untouched s pt) {caller : Thread} {q : PooledTimer}
    {holdsTimer : Bool} (hne : q ≠ pt) :
    ∀ w ∈ s.waits ++ s.waitFor caller q holdsTimer, w.timer ≠ pt := by
  have hnew := mem_waitFor s caller q holdsTimer
  unfold Untouched at hun
  grind

/-- Steps that change what is owed in the pool only as far as they leave it alone. -/
theorem balanced_of_owed (hfi : s'.fired = s.fired) (hec : s'.executed = s.executed)
    (hma : s'.main = s.main) (hod : s'.pool.owed pt = s.pool.owed pt) : Balanced pt s s' := by
  rw [Balanced, owed, owed, hfi, hec, hma, hod]

/-- What one event keeps: the invariant, and for a timer that nobody stops or deletes the
balance. -/
theorem step_keeps {e : Event PooledTimer} (hinv : Inv s) (hha : HandsOver s e)
    (h : step s e = some s') :
    Inv s' ∧ ∀ pt, Untouched s pt → ¬ Touches pt e → Untouched s' pt ∧ Balanced pt s s' := by
  cases e with
  | doExecute fresh =>
    rw [step] at h
    split at h
    · cases h
    · next t q rest heq =>
      obtain ⟨⟨hma, hfr⟩, h⟩ := Option.ite_none_right_eq_some.mp h
      cases h
      refine ⟨hinv.doExecute (heq ▸ List.mem_cons_self) hfr _, fun pt hun _ => ⟨hun, ?_⟩⟩
      have hod := Pool.owed_getExecutor pt hinv.pool hfr q
      have hma := Option.isNone_iff_eq_none.mp hma
      unfold Balanced owed
      grind [update_apply]
  | tryExecute =>
    rw [step] at h
    split at h
    · cases h
    · next q e hma =>
      cases h
      obtain ⟨hout, hmax⟩ := hha q e hma
      refine ⟨hinv.tryExecute hma hout hmax, fun pt hun _ => ⟨hun, ?_⟩⟩
      -- The timer of the main thread is not being stopped.
      have hqu : Untouched s q := by
        rintro w hw rfl
        exact (hinv.quiet w hw).2 (by rw [hma]; rfl)
      have hod := Pool.owed_tryExecute pt hinv.pool (hinv.chosen q e hma) hout hmax
        (hinv.doCount_pos hqu)
      grind [Balanced, owed]
  | execute e =>
    rw [step] at h
    split at h
    · cases h
    · next q htm =>
      obtain ⟨⟨hin, -⟩, h⟩ := Option.ite_none_right_eq_some.mp h
      cases h
      have hinv' : Inv { s with pool := s.pool.within e (some q) } :=
        hinv.within fun a b ha hb =>
          (Option.some.inj ha).symm.trans (Option.some.inj (htm.symm.trans hb))
      refine ⟨⟨hinv'.pool, hinv'.ok, hinv'.chosen, hinv'.aims, hinv'.quiet, hinv'.once⟩,
        fun pt hun _ => ⟨hun, ?_⟩⟩
      have hod := Pool.owed_execute pt hinv.pool htm hin
        fun heq => hinv.doCount_pos hun (heq ▸ htm)
      grind [Balanced, owed, update_apply]
  | returned e =>
    obtain ⟨⟨hin, -⟩, h⟩ := Option.ite_none_right_eq_some.mp h
    cases h
    exact ⟨(hinv.reduceCount e).within nofun, fun pt hun _ => ⟨hun, balanced_of_owed rfl rfl rfl
      (Pool.owed_returned hinv.pool hin)⟩⟩
  | start caller q target =>
    obtain ⟨⟨-, -, -, hfree⟩, h⟩ := Option.ite_none_right_eq_some.mp h
    cases h
    refine ⟨⟨hinv.pool, hinv.ok, hinv.chosen, hinv.aims, fun w hw => ⟨?_, (hinv.quiet w hw).2⟩,
      nodup_startTimer hinv.once⟩, fun pt hun _ => ⟨hun, balanced_of_owed rfl rfl rfl rfl⟩⟩
    exact fun hmem => (mem_startTimer hmem).elim (hfree w hw) (hinv.quiet w hw).1
  | stop caller q =>
    obtain ⟨⟨-, hma, -, -⟩, h⟩ := Option.ite_none_right_eq_some.mp h
    split at h
    · cases h
      exact ⟨hinv, fun pt hun _ => ⟨hun, rfl⟩⟩
    · next t hrun =>
      cases h
      exact ⟨hinv.waitFor (Option.isNone_iff_eq_none.mp hma) (nodup_eraseAt hinv.once)
          (not_mem_eraseAt hinv.once (isRunning_some hrun)) (fun _ => mem_eraseAt) s.gone,
        fun pt hun hnot => ⟨hun.waitFor hnot, balanced_of_owed rfl rfl rfl rfl⟩⟩
  | remove caller q =>
    obtain ⟨⟨-, hma, -, -⟩, h⟩ := Option.ite_none_right_eq_some.mp h
    cases h
    obtain ⟨hon, hnot, hsub⟩ := removeTimer_spec hinv.once q
    exact ⟨hinv.waitFor (Option.isNone_iff_eq_none.mp hma) hon hnot hsub _,
      fun pt hun hnot => ⟨hun.waitFor hnot, balanced_of_owed rfl rfl rfl rfl⟩⟩
  | waitUntilServiced w =>
    obtain ⟨hw, h⟩ := Option.ite_none_right_eq_some.mp h
    cases h
    refine ⟨hinv.waitUntilServiced hw _, fun pt hun _ => ⟨?_, balanced_of_owed rfl rfl rfl
      (Pool.owed_waitUntilServiced hinv.pool (hun _ hw).symm)⟩⟩
    unfold Untouched at *
    grind

theorem served (hinv : Inv s) (hun : Untouched s pt) : Served s pt := by
  intro hpos
  by_cases hma : s.main.map Prod.fst = some pt
  · exact .inl hma
  · rw [owed, if_neg hma, Nat.zero_add] at hpos
    cases hrun : s.pool.container.running pt with
    | none =>
      simp only [Pool.owed, hrun] at hpos
      cases hpos
    | some e =>
      have htm := (hinv.pool.serves pt e).mp hrun
      refine .inr ⟨e, htm, ?_⟩
      cases hin : (s.pool.executor e).inside with
      | some a => exact .inl (congrArg some ((hinv.ok e).1 a pt hin htm))
      | none =>
        have hcan : s.CanExecute e pt := ⟨hin, fun w hw heq => absurd heq (hun w hw)⟩
        refine .inr ?_
        rw [step, htm]
        dsimp only
        rw [if_pos hcan]
        rfl

end Balance

/-- From any point of a run on at which nobody waits to stop or delete the timer, and as
long as nobody begins to, every event fired is executed once or still owed, and an event
that is owed is served. -/
theorem fired_is_executed (executors : Finset ExecutorId) (es₁ es₂ : List (Event PooledTimer))
    (s₁ s₂ : System PooledTimer) (pt : PooledTimer)
    (hhands : Along step HandsOver (initial executors) (es₁ ++ es₂))
    (hrun₁ : run step (initial executors) es₁ = some s₁) (hrun₂ : run step s₁ es₂ = some s₂)
    (hun : Untouched s₁ pt) (hnot : ∀ e ∈ es₂, ¬ Touches pt e) :
    Balanced pt s₁ s₂ ∧ Served s₂ pt := by
  obtain ⟨hha₁, hha₂⟩ := along_append hhands hrun₁
  have hinv₁ := run_inv Inv (fun _ _ _ hinv hha h => (step_keeps hinv hha h).1)
    (inv_initial executors) hha₁ hrun₁
  have hal := along_and hha₂ (along_of_mem s₁ hnot)
  -- The balance is kept from `s₁` on, step by step.
  have hre : Inv s₂ ∧ Untouched s₂ pt ∧ Balanced pt s₁ s₂ := by
    refine run_inv (fun s => Inv s ∧ Untouched s pt ∧ Balanced pt s₁ s) ?_ ⟨hinv₁, hun, rfl⟩
      hal hrun₂
    rintro s e s' ⟨hinv, hun, hba⟩ ⟨hhands, hnot⟩ h
    obtain ⟨hinv', hke⟩ := step_keeps hinv hhands h
    obtain ⟨hun', hst⟩ := hke pt hun hnot
    refine ⟨hinv', hun', ?_⟩
    unfold Balanced at *
    omega
  exact ⟨hre.2.2, served hre.1 hre.2.1⟩

/-! ## A timer deleted by its callback -/

/-- Timer 1 is started, fired and deleted by its callback. -/
def deletedInCallback : List (Event Nat) :=
  [.start .other 1 ⟨1, 0⟩, .doExecute 2, .tryExecute, .execute 0, .remove (.executor 0) 1,
    .waitUntilServiced ⟨.executor 0, 1, 0, false⟩]

/-- Timer 2 is started and fired. -/
def firedNext : List (Event Nat) := [.start .other 2 ⟨2, 0⟩, .doExecute 2, .tryExecute]

instance (s : System PooledTimer) (e : Event PooledTimer) : Decidable (HandsOver s e) := by
  cases e with
  | tryExecute =>
    cases hma : s.main with
    | none => exact isTrue fun _ _ h => nomatch hma.symm.trans h
    | some m =>
      refine decidable_of_iff
        (((s.pool.executor m.2).timer = none → (s.pool.executor m.2).inside = none) ∧
          (s.pool.executor m.2).doCount + 1 < 2 ^ 31) ⟨fun h pt e heq => ?_, fun h => ?_⟩
      · cases hma.symm.trans heq
        exact h
      · exact h m.1 m.2 hma
  | _ => exact isTrue trivial

instance (pt : PooledTimer) (e : Event PooledTimer) : Decidable (Touches pt e) := by
  cases e <;> unfold Touches <;> infer_instance

instance (s : System PooledTimer) (pt : PooledTimer) : Decidable (Untouched s pt) :=
  inferInstanceAs (Decidable (∀ w ∈ s.waits, _))

/-- The callback has returned when the next timer is fired. -/
theorem fired_is_executed_next :
    ∃ s₁ s₂, run step (initial {0, 1}) (deletedInCallback ++ [.returned 0]) = some s₁ ∧
      run step s₁ (firedNext ++ [.execute 0]) = some s₂ ∧
      Balanced 2 s₁ s₂ ∧ Served s₂ 2 ∧ s₂.executed 2 = 1 := by
  obtain ⟨s₁, hs₁, hun, s₂, hs₂, hec⟩ : ∃ s₁,
      run step (initial {0, 1}) (deletedInCallback ++ [.returned 0]) = some s₁ ∧
      Untouched s₁ 2 ∧ ∃ s₂, run step s₁ (firedNext ++ [.execute 0]) = some s₂ ∧
        s₂.executed 2 = 1 := by decide +kernel
  obtain ⟨hba, hse⟩ := fired_is_executed {0, 1} (deletedInCallback ++ [.returned 0])
    (firedNext ++ [.execute 0]) s₁ s₂ 2 (by decide +kernel) hs₁ hs₂ hun (by decide)
  exact ⟨s₁, s₂, hs₁, hs₂, hba, hse, hec⟩

/-- The callback has not returned yet: its executor is given timer 2, and its return takes
the event away.  It is fired once, not executed, and nobody has it. -/
theorem deleted_in_callback_loses :
    ∃ s₁ s₂, run step (initial {0, 1}) deletedInCallback = some s₁ ∧
      run step s₁ (firedNext ++ [.returned 0]) = some s₂ ∧
      Untouched s₁ 2 ∧ (∀ e ∈ firedNext ++ [.returned 0], ¬ Touches 2 e) ∧
      s₂.fired 2 = 1 ∧ s₂.executed 2 = 0 ∧ owed s₂ 2 = 0 ∧ ¬ Balanced 2 s₁ s₂ := by
  unfold Balanced
  simp only [exists_and_left]
  decide +kernel

end GradidoNode.TimerPool
