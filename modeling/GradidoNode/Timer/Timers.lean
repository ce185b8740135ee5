/-
# `GradidoNode.Timer.Timers` — where a timer of the pool is

`TimerPool` has its timers in two containers, the set `m_idleTimers` and the map
`m_runningTimers`, whose keys are target times:

    createTimer      into the set
    startTimer       not running: out of the set, `insert` into the map
                     running under another time: `erase`, `insert`
    stopTimer        running: out of the map, into the set
    removeTimer      out of the map, or else out of the set
    doExecute        out of the map, into the set

`start`, `restart()` and `restart(time)` all end in `startTimer`.  Each is a section under
the mutex of the pool; a `fire` is one test of the main loop, which goes on from a timer
that is reached to the next one under the same lock (`mainLoop`).

`insert` of a map leaves an entry with the same key alone.  So a timer started for the time
another one is waiting for is in neither container, and `due` says what it should be
waiting for.  That is the only way to lose one (`timers_kept_iff`).
-/
import GradidoNode.Timer.TimerPool

namespace GradidoNode.TimerPool

open Lib RunningTimers Function

/-! ## Times -/

namespace Timespec

variable {t c u : Timespec}

theorem before_iff : t.before c = true ↔
    t.tvSec < c.tvSec ∨ (t.tvSec = c.tvSec ∧ t.tvNsec < c.tvNsec) := by
  rw [before, Bool.or_eq_true, Bool.and_eq_true, decide_eq_true_iff, decide_eq_true_iff, beq_iff_eq,
    eq_comm]

theorem before_irrefl (t : Timespec) : ¬ t.before t = true := by
  rw [before_iff]
  omega

theorem before_trans (h : t.before c = true) (h' : c.before u = true) : t.before u = true := by
  rw [before_iff] at h h' ⊢
  omega

theorem eq_of_not_before (h : ¬ t.before c = true) (h' : ¬ c.before t = true) : t = c := by
  rw [before_iff] at h h'
  obtain ⟨tvSec, tvNsec⟩ := t
  obtain ⟨tvSec', tvNsec'⟩ := c
  dsimp only at h h'
  obtain rfl : tvSec = tvSec' := by omega
  obtain rfl : tvNsec = tvNsec' := by omega
  rfl

end Timespec

/-! ## The map of running timers -/

namespace RunningTimers

variable {PooledTimer : Type} {xs : RunningTimers PooledTimer} {t target : Timespec}
  {pt : PooledTimer} {x : Timespec × PooledTimer}

/-- The entries of a map are in the order of their keys, each under its own. -/
def Ordered (xs : RunningTimers PooledTimer) : Prop :=
  xs.Pairwise fun x y => x.1.before y.1 = true

/-- The key is free, but for the timer itself. -/
def Unoccupied (xs : RunningTimers PooledTimer) (t : Timespec) (pt : PooledTimer) : Prop :=
  ∀ x ∈ xs, x.1 = t → x.2 = pt

theorem Ordered.keys_nodup (h : Ordered xs) : (xs.map Prod.fst).Nodup := by
  refine List.pairwise_map.mpr (h.imp fun {x y} hbe heq => ?_)
  rw [heq] at hbe
  exact Timespec.before_irrefl _ hbe

theorem Ordered.eq_of_key (h : Ordered xs) {y : Timespec × PooledTimer} (hx : x ∈ xs) (hy : y ∈ xs)
    (hkey : x.1 = y.1) : x = y :=
  List.inj_on_of_nodup_map h.keys_nodup hx hy hkey

theorem ordered_eraseAt (h : Ordered xs) : Ordered (eraseAt t xs) := h.filter _

theorem ordered_insertAt (h : Ordered xs) : Ordered (insertAt t pt xs) := by
  induction xs with
  | nil => exact List.pairwise_singleton _ _
  | cons x xs ih =>
    obtain ⟨hx, hxs⟩ := List.pairwise_cons.mp h
    rw [insertAt]
    split
    · next hfi =>
      refine List.pairwise_cons.mpr ⟨fun y hy => ?_, h⟩
      rcases List.mem_cons.mp hy with rfl | hy
      · exact hfi
      · exact Timespec.before_trans hfi (hx y hy)
    · split
      · next hla =>
        refine List.pairwise_cons.mpr ⟨fun y hy => ?_, ih hxs⟩
        rcases insertAt_perm t pt xs with heq | hpe
        · exact hx y (heq ▸ hy)
        · rcases List.mem_cons.mp (hpe.mem_iff.mp hy) with rfl | hy
          · exact hla
          · exact hx y hy
      · exact h

theorem insertAt_occupied (h : Ordered xs) (hx : x ∈ xs) (hkey : x.1 = t) :
    insertAt t pt xs = xs := by
  induction xs with
  | nil => cases hx
  | cons y xs ih =>
    obtain ⟨hy, hxs⟩ := List.pairwise_cons.mp h
    subst hkey
    rw [insertAt]
    rcases List.mem_cons.mp hx with rfl | hx
    · rw [if_neg (Timespec.before_irrefl _), if_neg (Timespec.before_irrefl _)]
    · have hla := hy x hx
      rw [if_neg fun hfi => Timespec.before_irrefl _ (Timespec.before_trans hla hfi),
        if_pos hla, ih hxs hx]

theorem insertAt_free (h : ∀ x ∈ xs, x.1 ≠ t) : (insertAt t pt xs).Perm ((t, pt) :: xs) := by
  induction xs with
  | nil => exact List.Perm.refl _
  | cons y xs ih =>
    rw [insertAt]
    split
    · exact List.Perm.refl _
    · next hfi =>
      split
      · have hpe := ih fun x hx => h x (List.mem_cons_of_mem y hx)
        exact (hpe.cons y).trans (List.Perm.swap _ _ _)
      · next hla =>
        exact absurd (Timespec.eq_of_not_before hla hfi) (h y List.mem_cons_self)

theorem mem_eraseAt_iff : x ∈ eraseAt t xs ↔ x ∈ xs ∧ x.1 ≠ t := by
  rw [eraseAt, List.mem_filter, decide_eq_true_iff]

/-- The entry of a running timer is erased by its key, and no other. -/
theorem mem_eraseAt_timer (h : Ordered xs) (hon : (xs.map Prod.snd).Nodup) (hmem : (t, pt) ∈ xs) :
    x ∈ eraseAt t xs ↔ x ∈ xs ∧ x.2 ≠ pt := by
  rw [mem_eraseAt_iff]
  refine and_congr_right fun hx => not_congr ⟨fun hkey => ?_, fun htm => ?_⟩
  · rw [h.eq_of_key hx hmem hkey]
  · rw [List.inj_on_of_nodup_map hon hx hmem htm]

variable [DecidableEq PooledTimer]

theorem isRunning_iff (hon : (xs.map Prod.snd).Nodup) :
    isRunning xs pt = some t ↔ (t, pt) ∈ xs := by
  refine ⟨isRunning_some, fun hmem => ?_⟩
  cases hrun : isRunning xs pt with
  | none => exact absurd (List.mem_map_of_mem hmem) (isRunning_none hrun)
  | some t' =>
    have heq := List.inj_on_of_nodup_map hon (isRunning_some hrun) hmem rfl
    rw [(Prod.mk.inj heq).1]

theorem ordered_startTimer (h : Ordered xs) : Ordered (startTimer xs pt target) := by
  rw [startTimer]
  split
  · split
    · exact h
    · exact ordered_insertAt (ordered_eraseAt h)
  · exact ordered_insertAt h

/-- The key is free: the timer is there under its time, and the others are where they were. -/
theorem mem_startTimer_iff (h : Ordered xs) (hon : (xs.map Prod.snd).Nodup)
    (hfr : Unoccupied xs target pt) :
    x ∈ startTimer xs pt target ↔ x = (target, pt) ∨ (x ∈ xs ∧ x.2 ≠ pt) := by
  rw [startTimer]
  split
  · next t hrun =>
    have hmem := isRunning_some hrun
    have hse : ∀ y ∈ xs, y.2 = pt → y = (t, pt) :=
      fun y hy heq => List.inj_on_of_nodup_map hon hy hmem heq
    split
    · grind
    · have hkey : ∀ y ∈ eraseAt t xs, y.1 ≠ target := by grind [mem_eraseAt_iff, Unoccupied]
      rw [(insertAt_free hkey).mem_iff, List.mem_cons, mem_eraseAt_timer h hon hmem]
  · next hrun =>
    have hnot := isRunning_none hrun
    have htm : ∀ y ∈ xs, y.2 ≠ pt := fun y hy heq => hnot (heq ▸ List.mem_map_of_mem hy)
    have hkey : ∀ y ∈ xs, y.1 ≠ target := fun y hy heq => htm y hy (hfr y hy heq)
    rw [(insertAt_free hkey).mem_iff, List.mem_cons]
    grind

/-- The key is another timer's: the timer is not in the map. -/
theorem startTimer_occupied (h : Ordered xs) (hon : (xs.map Prod.snd).Nodup)
    (hx : x ∈ xs) (hkey : x.1 = target) (hot : x.2 ≠ pt) :
    pt ∉ (startTimer xs pt target).map Prod.snd := by
  rw [startTimer]
  split
  · next t hrun =>
    have hmem := isRunning_some hrun
    split
    · next heq =>
      subst heq
      exact absurd (congrArg Prod.snd (h.eq_of_key hx hmem hkey)) hot
    · have hx' := (mem_eraseAt_timer h hon hmem).mpr ⟨hx, hot⟩
      rw [insertAt_occupied (ordered_eraseAt h) hx' hkey]
      exact not_mem_eraseAt hon hmem
  · next hrun =>
    rw [insertAt_occupied h hx hkey]
    exact isRunning_none hrun

theorem mem_removeTimer_iff (h : Ordered xs) (hon : (xs.map Prod.snd).Nodup) :
    x ∈ removeTimer xs pt ↔ x ∈ xs ∧ x.2 ≠ pt := by
  rw [removeTimer]
  split
  · next t hrun => exact mem_eraseAt_timer h hon (isRunning_some hrun)
  · next hrun =>
    refine ⟨fun hx => ⟨hx, fun heq => isRunning_none hrun ?_⟩, fun hx => hx.1⟩
    exact heq ▸ List.mem_map_of_mem hx

theorem ordered_removeTimer (h : Ordered xs) : Ordered (removeTimer xs pt) := by
  rw [removeTimer]
  split
  · exact ordered_eraseAt h
  · exact h

end RunningTimers

/-! ## The two containers -/

variable {PooledTimer : Type} [DecidableEq PooledTimer]

/-- The containers of a pool.  `live` are the timers that have been created and not deleted,
`passed` those passed to `doExecute`, one after the other; `due` is the target time of a timer
from its start on, until it fires, is stopped, started again or deleted. -/
structure Timers (PooledTimer : Type) where
  running : RunningTimers PooledTimer
  idle : Finset PooledTimer
  live : Finset PooledTimer
  passed : List PooledTimer
  due : PooledTimer → Option Timespec

namespace Timers

inductive Event (PooledTimer : Type) where
  /-- `createTimer`; `pt` is the address of the new timer. -/
  | create (pt : PooledTimer)
  /-- `start`, `restart()` and `restart(time)`, with the time they compute. -/
  | start (pt : PooledTimer) (target : Timespec)
  | stop (pt : PooledTimer)
  | remove (pt : PooledTimer)
  /-- One test of the main loop, at which the clock shows `now`. -/
  | fire (now : Timespec)

def constructed : Timers PooledTimer where
  running := []
  idle := ∅
  live := ∅
  passed := []
  due := fun _ => none

def isTimeReached (now t : Timespec) : Bool := t.before now

variable (s : Timers PooledTimer)

def createTimer (pt : PooledTimer) : Timers PooledTimer :=
  { s with idle := insert pt s.idle, live := insert pt s.live }

def startTimer (pt : PooledTimer) (target : Timespec) : Timers PooledTimer :=
  { s with
    running := s.running.startTimer pt target
    idle := if (s.running.isRunning pt).isSome then s.idle else s.idle.erase pt
    due := update s.due pt (some target) }

def stopTimer (pt : PooledTimer) : Timers PooledTimer :=
  { s with
    running := s.running.removeTimer pt
    idle := if (s.running.isRunning pt).isSome then insert pt s.idle else s.idle
    due := update s.due pt none }

def removeTimer (pt : PooledTimer) : Timers PooledTimer :=
  { s with
    running := s.running.removeTimer pt
    idle := if (s.running.isRunning pt).isSome then s.idle else s.idle.erase pt
    live := s.live.erase pt
    due := update s.due pt none }

/-- `doExecute`; what the executor does then is in `GradidoNode.Timer.TimerPool`. -/
def doExecute (pt : PooledTimer) (t : Timespec) : Timers PooledTimer :=
  { s with
    running := s.running.eraseAt t
    idle := insert pt s.idle
    passed := s.passed ++ [pt]
    due := update s.due pt none }

/-- A test of the main loop: the first running timer, if its time is reached. -/
def fire (now : Timespec) : Timers PooledTimer :=
  match s.running with
  | [] => s
  | (t, pt) :: _ => if isTimeReached now t then s.doExecute pt t else s

/-- The inner loop of `mainLoop`.  Test `k` is the next, when the clock shows `clock k`; there
are no more tests than running timers that succeed, and one that does not. -/
def mainLoop (clock : Nat → Timespec) : (tests k : Nat) → Timers PooledTimer → Timers PooledTimer
  | 0, _, s => s
  | tests + 1, k, s =>
    match s.running with
    | [] => s
    | (t, pt) :: _ =>
      if isTimeReached (clock k) t then mainLoop clock tests (k + 1) (s.doExecute pt t) else s

/-- One event.  A timer is created at an address that is free, and used while it exists. -/
def step (s : Timers PooledTimer) : Event PooledTimer → Option (Timers PooledTimer)
  | .create pt => if pt ∈ s.live then none else some (s.createTimer pt)
  | .start pt target => if pt ∈ s.live then some (s.startTimer pt target) else none
  | .stop pt => if pt ∈ s.live then some (s.stopTimer pt) else none
  | .remove pt => if pt ∈ s.live then some (s.removeTimer pt) else none
  | .fire now => some (s.fire now)

/-- Every timer is in one container, a started timer under its time; and a pass of the main
loop fires each running timer whose time its last test finds reached. -/
structure Kept : Prop where
  place : ∀ pt ∈ s.live, Xor (pt ∈ s.idle) (pt ∈ s.running.map Prod.snd)
  started : ∀ pt t, s.due pt = some t → s.running.isRunning pt = some t
  fires : ∀ clock : Nat → Timespec, ∃ fired,
    (mainLoop clock s.running.length 0 s).passed = s.passed ++ fired ∧
      ∀ x ∈ s.running, isTimeReached (clock fired.length) x.1 = true → x.2 ∈ fired

/-- A timer is started for a time no other one is waiting for. -/
def NoCollision (s : Timers PooledTimer) : Event PooledTimer → Prop
  | .start pt target => Unoccupied s.running target pt
  | _ => True

/-! ## What holds of the containers in any case -/

structure Sound (s : Timers PooledTimer) : Prop where
  ordered : Ordered s.running
  once : (s.running.map Prod.snd).Nodup
  known : ∀ x ∈ s.running, x.2 ∈ s.live

variable {s}

omit [DecidableEq PooledTimer] in
/-- The first timer is the only one under its time. -/
theorem Sound.eraseAt_first (h : Sound s) {t : Timespec} {pt : PooledTimer}
    {rest : RunningTimers PooledTimer} (hrun : s.running = (t, pt) :: rest) :
    s.running.eraseAt t = rest := by
  have hor := h.ordered
  rw [hrun] at hor ⊢
  obtain ⟨hfi, -⟩ := List.pairwise_cons.mp hor
  rw [eraseAt, List.filter_cons_of_neg (by simp), List.filter_eq_self]
  intro x hx
  refine decide_eq_true fun heq => ?_
  have hbe := hfi x hx
  rw [heq] at hbe
  exact Timespec.before_irrefl _ hbe

omit [DecidableEq PooledTimer] in
theorem sound_constructed : Sound (constructed : Timers PooledTimer) :=
  ⟨List.Pairwise.nil, List.nodup_nil, nofun⟩

theorem Sound.doExecute (h : Sound s) (pt : PooledTimer) (t : Timespec) :
    Sound (s.doExecute pt t) :=
  ⟨ordered_eraseAt h.ordered, nodup_eraseAt h.once, fun x hx => h.known x (mem_eraseAt_iff.mp hx).1⟩

theorem Sound.fire (h : Sound s) (now : Timespec) : Sound (s.fire now) := by
  rw [Timers.fire]
  split
  · exact h
  · split
    · exact h.doExecute _ _
    · exact h

variable {s' : Timers PooledTimer}

theorem Sound.step (h : Sound s) {e : Event PooledTimer} (hst : Timers.step s e = some s') :
    Sound s' := by
  cases e with
  | create pt =>
    cases (Option.ite_none_left_eq_some.mp hst).2
    exact ⟨h.ordered, h.once, fun x hx => Finset.mem_insert_of_mem (h.known x hx)⟩
  | start pt target =>
    obtain ⟨hli, hst⟩ := Option.ite_none_right_eq_some.mp hst
    cases hst
    refine ⟨ordered_startTimer h.ordered, nodup_startTimer h.once, fun x hx => ?_⟩
    have hmem := mem_startTimer (List.mem_map_of_mem hx)
    have hkn := h.known
    grind [Timers.startTimer]
  | stop pt | remove pt =>
    cases (Option.ite_none_right_eq_some.mp hst).2
    refine ⟨ordered_removeTimer h.ordered, (removeTimer_spec h.once pt).1, fun x hx => ?_⟩
    have hmem := (mem_removeTimer_iff h.ordered h.once).mp hx
    have hkn := h.known x hmem.1
    grind [stopTimer, removeTimer]
  | fire now =>
    cases hst
    exact h.fire now

/-- A pass fires what its last test finds reached: the timers come in the order of their
times. -/
theorem Sound.mainLoop (clock : Nat → Timespec) : ∀ (tests k : Nat) {s : Timers PooledTimer},
    Sound s → s.running.length ≤ tests → ∃ fired,
      (Timers.mainLoop clock tests k s).passed = s.passed ++ fired ∧
        ∀ x ∈ s.running, isTimeReached (clock (k + fired.length)) x.1 = true → x.2 ∈ fired := by
  intro tests
  induction tests with
  | zero =>
    intro k s h hlen
    have hnil := List.length_eq_zero_iff.mp (Nat.le_zero.mp hlen)
    exact ⟨[], by rw [Timers.mainLoop, List.append_nil], fun x hx => nomatch hnil ▸ hx⟩
  | succ tests ih =>
    intro k s h hlen
    rw [Timers.mainLoop]
    split
    · next hnil => exact ⟨[], by rw [List.append_nil], fun x hx => nomatch hnil ▸ hx⟩
    · next t pt rest hrun =>
      have hre : (s.doExecute pt t).running = rest := h.eraseAt_first hrun
      split
      · obtain ⟨fired, hpa, hfi⟩ := ih (k + 1) (h.doExecute pt t) (by grind)
        refine ⟨pt :: fired, ?_, fun x hx hx' => ?_⟩
        · rw [hpa, Timers.doExecute, List.append_assoc]
          rfl
        · have hne : k + 1 + fired.length = k + (pt :: fired).length := by grind
          grind
      · next hfu =>
        -- No timer is reached when the first is not.
        refine ⟨[], by rw [List.append_nil], fun x hx hx' => absurd ?_ hfu⟩
        have hor := h.ordered
        rw [hrun] at hx hor
        rcases List.mem_cons.mp hx with rfl | hx
        · exact hx'
        · exact Timespec.before_trans ((List.pairwise_cons.mp hor).1 x hx) hx'

/-! ## What a start may spoil -/

theorem kept_of (h : Sound s) (hpl : ∀ pt ∈ s.live, Xor (pt ∈ s.idle) (pt ∈ s.running.map Prod.snd))
    (hst : ∀ pt t, s.due pt = some t → (t, pt) ∈ s.running) : Kept s where
  place := hpl
  started := fun pt t hdue => (isRunning_iff h.once).mpr (hst pt t hdue)
  fires := by
    intro clock
    simpa only [Nat.zero_add] using h.mainLoop clock _ 0 (Nat.le_refl _)

theorem kept_constructed : Kept (constructed : Timers PooledTimer) :=
  kept_of sound_constructed nofun nofun

/-- A timer changes its place: it is in the map under the time it is now due at, if any, and
else in the set. -/
theorem Kept.changes {pt : PooledTimer} (due : Option Timespec) (h : Kept s) (hso : Sound s')
    (hru : ∀ x, x ∈ s'.running ↔ (x.2 = pt ∧ due = some x.1) ∨ (x ∈ s.running ∧ x.2 ≠ pt))
    (hid : ∀ q ≠ pt, q ∈ s'.idle ↔ q ∈ s.idle) (hin : pt ∈ s'.live → (pt ∈ s'.idle ↔ due = none))
    (hli : ∀ q ∈ s'.live, q ∈ s.live) (hdue : s'.due = update s.due pt due) : Kept s' := by
  refine kept_of hso (fun q hq => ?_) fun q t hq => ?_
  · have hpl := h.place q (hli q hq)
    have hmem : q ∈ s'.running.map Prod.snd ↔
        if q = pt then due ≠ none else q ∈ s.running.map Prod.snd := by
      simp only [List.mem_map, hru]
      split
      · cases due with
        | none => grind
        | some t => exact ⟨fun _ => Option.some_ne_none t, fun _ => ⟨(t, q), by grind⟩⟩
      · grind
    grind [Xor]
  · rw [hdue, update_apply] at hq
    have hst := h.started q t
    grind [isRunning_some]

theorem Kept.fire (h : Kept s) (hs : Sound s) (now : Timespec) : Kept (s.fire now) := by
  have hso := hs.fire now
  rw [Timers.fire] at hso ⊢
  split at hso
  · exact h
  · next t pt rest hrun =>
    have hmem : (t, pt) ∈ s.running := hrun ▸ List.mem_cons_self
    split at hso
    · next hre =>
      rw [if_pos hre]
      refine Kept.changes none h hso (fun x => ?_)
        (fun q hq => by simp [Timers.doExecute, hq]) (fun _ => by simp [Timers.doExecute])
        (fun _ hq => hq) rfl
      have her := mem_eraseAt_timer hs.ordered hs.once hmem (x := x)
      grind [Timers.doExecute]
    · next hfu =>
      rw [if_neg hfu]
      exact h

/-- A step keeps the timers just if it does not start one for another one's time. -/
theorem kept_step {e : Event PooledTimer} (hs : Sound s) (h : Kept s)
    (hst : Timers.step s e = some s') : Kept s' ↔ NoCollision s e := by
  have hso := hs.step hst
  cases e with
  | create pt =>
    obtain ⟨hnew, hst⟩ := Option.ite_none_left_eq_some.mp hst
    cases hst
    refine iff_of_true (kept_of hso (fun q hq => ?_) fun q t hq =>
      isRunning_some (h.started q t hq)) trivial
    have hkn := hs.known
    have hpl := h.place q
    grind [createTimer, Xor]
  | start pt target =>
    obtain ⟨hli, hst⟩ := Option.ite_none_right_eq_some.mp hst
    cases hst
    refine ⟨fun hke x hx hkey => ?_, fun hfr => ?_⟩
    · by_contra hot
      have hrun := hke.started pt target (update_self ..)
      exact startTimer_occupied hs.ordered hs.once hx hkey hot
        (List.mem_map_of_mem (isRunning_some hrun))
    · refine Kept.changes (some target) h hso (fun x => ?_) (fun q hq => ?_) (fun _ => ?_)
        (fun _ hq => hq) rfl
      · have hmem := mem_startTimer_iff hs.ordered hs.once hfr (x := x)
        grind [startTimer]
      · grind [startTimer]
      · have hpl := h.place pt hli
        cases hrun : s.running.isRunning pt with
        | none => simp [startTimer, hrun]
        | some t =>
          have hmem := List.mem_map_of_mem (f := Prod.snd) (isRunning_some hrun)
          grind [startTimer, Xor]
  | stop pt | remove pt =>
    obtain ⟨hli, hst⟩ := Option.ite_none_right_eq_some.mp hst
    cases hst
    refine iff_of_true (Kept.changes none h hso (fun x => ?_) (fun q hq => ?_)
      (fun hpt => ?_) (fun q hq => ?_) rfl) trivial
    · have hmem : x ∈ s.running.removeTimer pt ↔ _ := mem_removeTimer_iff hs.ordered hs.once
      grind [stopTimer, removeTimer]
    · grind [stopTimer, removeTimer]
    · have hpl := h.place pt hli
      have hno : s.running.isRunning pt = none → pt ∉ s.running.map Prod.snd := isRunning_none
      cases hrun : s.running.isRunning pt <;> grind [stopTimer, removeTimer, Xor]
    · grind [stopTimer, removeTimer]
  | fire now =>
    cases hst
    exact iff_of_true (h.fire hs now) trivial

/-- **No timer is lost.**  In all states of a run each timer is in one of the two containers,
the started ones under their times, and a pass of the main loop fires those that are reached,
exactly when no timer is started for a time another one is waiting for. -/
theorem timers_kept_iff (es : List (Event PooledTimer)) (s : Timers PooledTimer)
    (hrun : run Timers.step constructed es = some s) :
    (∀ es' s', es' <+: es → run Timers.step constructed es' = some s' → Kept s') ↔
      Along Timers.step NoCollision constructed es := by
  have hso : ∀ (es' : List (Event PooledTimer)) s', run Timers.step constructed es' = some s' →
      Sound s' := fun es' s' hrun' =>
    run_keeps Sound (fun _ _ _ h hst => h.step hst) sound_constructed hrun'
  rw [← throughout_iff_along (fun s : Timers PooledTimer => Sound s ∧ Kept s) ?_
    ⟨sound_constructed, kept_constructed⟩ hrun]
  · exact forall_congr' fun es' => forall_congr' fun s' => imp_congr_right fun _ =>
      ⟨fun h hrun' => ⟨hso es' s' hrun', h hrun'⟩, fun h hrun' => (h hrun').2⟩
  · rintro s e s' ⟨hs, h⟩ hst
    rw [← kept_step hs h hst]
    exact and_iff_right (hs.step hst)

instance (s : Timers PooledTimer) : ∀ e, Decidable (NoCollision s e)
  | .start pt target =>
    inferInstanceAs (Decidable (∀ x ∈ s.running, x.1 = target → x.2 = pt))
  | .create _ | .stop _ | .remove _ | .fire _ => isTrue trivial

/-- Timers 1 and 2, started for different times. -/
def twoTimes : List (Event Nat) :=
  [.create 1, .create 2, .start 1 ⟨5, 0⟩, .start 2 ⟨5, 1⟩, .fire ⟨6, 0⟩, .fire ⟨6, 0⟩]

theorem timers_kept_twoTimes :
    ∃ s, run Timers.step constructed twoTimes = some s ∧ s.passed = [1, 2] ∧ Kept s := by
  refine ⟨_, rfl, rfl, ?_⟩
  exact (timers_kept_iff twoTimes _ rfl).mpr (by decide) _ _ (List.prefix_refl _) rfl

/-- Started for the same time: timer 2 is in neither container. -/
theorem startTimer_loses : ∃ s, run Timers.step (constructed : Timers Nat)
        [.create 1, .create 2, .start 1 ⟨5, 0⟩, .start 2 ⟨5, 0⟩] = some s ∧
      2 ∈ s.live ∧ 2 ∉ s.idle ∧ 2 ∉ s.running.map Prod.snd ∧ ¬ Kept s := by
  refine ⟨_, rfl, by decide, by decide, by decide, fun h => ?_⟩
  have hrun := h.started 2 ⟨5, 0⟩ rfl
  exact absurd hrun (by decide)

end Timers

end GradidoNode.TimerPool
