/-
# `GradidoNode.Workers.WorkerPool` — tasks, workers, and the count of busy workers

`WorkerPool`: a queue of tasks, threads that take them from it, and a shutdown.  A thread
goes round in `run_entry`:

    top        lock; busy_workers--; wait while the queue is empty and there is no
               shutdown; at a shutdown leave the loop; else take the first task;
               busy_workers++; unlock
    holding    the task has been taken
    running    `task->run()`
    ran        it has returned, or thrown and `gf->exit` has returned
    returning  `delete task`; then the top again

`init` sets `busy_workers` to the number of threads, and each takes itself off the count
when it gets to the top for the first time.

A step of a worker is a section under the lock, or what it does between two of them; the
wait gives the lock back, so it ends a section, and a waiting worker may wake at any time.
Pushes and the shutdown come from any thread, running tasks included.  A task has the
number of the `push` it came with.  What is done with tasks is written down: accepted by
`push` in this order, taken, begun, finished, deleted by a worker, and deleted by `push`
or the destructor (`dropped`).

The destructor is a shutdown, and when all threads have ended it deletes what is left in
the queue (`drain`).
-/
import GradidoNode.Lib.Exec
import GradidoNode.Lib.Places
import Mathlib.Data.List.Nodup

namespace GradidoNode

open Lib

namespace WorkerPool

/-- Where a worker is. -/
inductive Place where
  | starting
  | waiting
  | holding (t : Nat)
  | running (t : Nat)
  | ran (t : Nat)
  | returning
  | exited
  deriving DecidableEq, Repr

namespace Place

/-- The worker has not got to the top yet for the first time, or has taken a task and not got
back to the top. -/
def busy : Place → Bool
  | .waiting | .exited => false
  | .starting | .holding _ | .running _ | .ran _ | .returning => true

def holds (t : Nat) : Place → Bool
  | .holding u => u == t
  | _ => false

def runs (t : Nat) : Place → Bool
  | .running u => u == t
  | _ => false

def hasRun (t : Nat) : Place → Bool
  | .ran u => u == t
  | _ => false

end Place

/-- `WorkerPool`, and what has been done with tasks. -/
structure Pool where
  queue : List Nat
  shutdown : Bool
  busyWorkers : UInt64
  workers : List Place
  pushes : Nat
  accepted : List Nat
  taken : List Nat
  begun : List Nat
  finished : List Nat
  deleted : List Nat
  dropped : List Nat
  destroyed : Bool
  deriving DecidableEq, Repr

/-- The constructor, and `init`. -/
def init (workerCount : Nat) : Pool where
  queue := []
  shutdown := false
  busyWorkers := .ofNat workerCount
  workers := List.replicate workerCount .starting
  pushes := 0
  accepted := []
  taken := []
  begun := []
  finished := []
  deleted := []
  dropped := []
  destroyed := false

inductive Event where
  | push
  | initShutdown
  /-- worker `i` does what comes next -/
  | worker (i : Nat)
  | drain

/-- Worker `i` is at another place. -/
def Pool.goTo (s : Pool) (i : Nat) (p : Place) : Pool := { s with workers := s.workers.set i p }

def push (s : Pool) : Pool :=
  if s.shutdown then { s with pushes := s.pushes + 1, dropped := s.dropped ++ [s.pushes] }
  else { s with
    pushes := s.pushes + 1
    queue := s.queue ++ [s.pushes]
    accepted := s.accepted ++ [s.pushes] }

def initShutdown (s : Pool) : Pool := { s with shutdown := true }

/-- The section from the wait on. -/
def afterWait (s : Pool) (i : Nat) : Pool :=
  if s.shutdown then s.goTo i .exited
  else
    match s.queue with
    | [] => s.goTo i .waiting
    | t :: queue =>
      { s.goTo i (.holding t) with
        queue := queue
        busyWorkers := s.busyWorkers + 1
        taken := s.taken ++ [t] }

/-- The section at the top of the loop. -/
def top (s : Pool) (i : Nat) : Pool :=
  afterWait { s with busyWorkers := s.busyWorkers - 1 } i

/-- What a worker at a place does next. -/
def work (s : Pool) (i : Nat) : Place → Option Pool
  | .starting => some (top s i)
  | .waiting => some (afterWait s i)
  | .holding t => some { s.goTo i (.running t) with begun := s.begun ++ [t] }
  | .running t => some { s.goTo i (.ran t) with finished := s.finished ++ [t] }
  | .ran t => some { s.goTo i .returning with deleted := s.deleted ++ [t] }
  | .returning => some (top s i)
  | .exited => none

/-- The end of the destructor. -/
def drain (s : Pool) : Option Pool :=
  if s.shutdown ∧ ∀ p ∈ s.workers, p = .exited then
    some { s with queue := [], dropped := s.dropped ++ s.queue, destroyed := true }
  else none

/-- One event; there are none after the destructor. -/
def step (s : Pool) (e : Event) : Option Pool :=
  if s.destroyed then none
  else
    match e with
    | .push => some (push s)
    | .initShutdown => some (initShutdown s)
    | .worker i => s.workers[i]?.bind (work s i)
    | .drain => drain s

/-! ## What becomes of tasks -/

/-- Each task is at one stage: in the queue, at a worker, or deleted. -/
structure Tracked (s : Pool) : Prop where
  inOrder : s.taken <+: s.accepted
  complete : s.destroyed = false → s.accepted = s.taken ++ s.queue
  once : (s.taken ++ s.queue ++ s.dropped).Nodup
  known : ∀ t ∈ s.taken ++ s.queue ++ s.dropped, t < s.pushes
  holding : Balanced s.workers Place.holds s.taken s.begun
  running : Balanced s.workers Place.runs s.begun s.finished
  ran : Balanced s.workers Place.hasRun s.finished s.deleted
  dropped : s.dropped ≠ [] → s.shutdown = true

variable {s s' : Pool} {i : Nat} {p : Place}

theorem tracked_init (n : Nat) : Tracked (init n) := by
  have hno : ∀ f : Place → Bool, f .starting = false →
      (List.replicate n Place.starting).countP f = 0 := by
    intro f hf
    rw [List.countP_replicate, if_neg (by rw [hf]; exact Bool.noConfusion)]
  refine ⟨List.prefix_refl _, fun _ => rfl, List.nodup_nil, fun t ht => (nomatch ht), ?_, ?_, ?_,
    fun h => absurd rfl h⟩ <;>
  · intro t
    rw [init, hno _ rfl]
    rfl

/-- The place of a worker without a task. -/
def Place.free : Place → Bool
  | .starting | .waiting | .returning | .exited => true
  | .holding _ | .running _ | .ran _ => false

theorem Place.free_iff (h : p.free = true) (t : Nat) :
    p.holds t = false ∧ p.runs t = false ∧ p.hasRun t = false := by
  cases p <;> first | exact ⟨rfl, rfl, rfl⟩ | cases h

namespace Tracked

variable (h : Tracked s)
include h

theorem goTo (hp : s.workers[i]? = some p) (hfr : p.free = true)
    {q : Place} (hq : q.free = true) : Tracked (s.goTo i q) :=
  { h with
    holding := h.holding.passes hp (fun t => (p.free_iff hfr t).1) fun t => (q.free_iff hq t).1
    running := h.running.passes hp (fun t => (p.free_iff hfr t).2.1) fun t => (q.free_iff hq t).2.1
    ran := h.ran.passes hp (fun t => (p.free_iff hfr t).2.2) fun t => (q.free_iff hq t).2.2 }

theorem fresh : (s.taken ++ s.queue ++ s.dropped ++ [s.pushes]).Nodup ∧
      ∀ t ∈ s.taken ++ s.queue ++ s.dropped ++ [s.pushes], t < s.pushes + 1 := by
  constructor
  · refine List.nodup_append.mpr ⟨h.once, List.nodup_singleton _, ?_⟩
    intro t ht u hu
    rw [List.mem_singleton.mp hu]
    exact Nat.ne_of_lt (h.known t ht)
  · intro t ht
    rcases List.mem_append.mp ht with ht | ht
    · exact Nat.lt_succ_of_lt (h.known t ht)
    · rw [List.mem_singleton.mp ht]
      exact Nat.lt_succ_self _

theorem dropped_nil (hop : s.shutdown = false) : s.dropped = [] := by
  by_contra hne
  rw [h.dropped hne] at hop
  cases hop

theorem push : Tracked (push s) := by
  obtain ⟨hon, hkn⟩ := h.fresh
  unfold WorkerPool.push
  split
  · next hsh =>
    rw [List.append_assoc] at hon hkn
    exact { h with once := hon, known := hkn, dropped := fun _ => hsh }
  · next hop =>
    have hdr := h.dropped_nil (Bool.eq_false_iff.mpr hop)
    have hsa : s.taken ++ s.queue ++ s.dropped ++ [s.pushes]
        = s.taken ++ (s.queue ++ [s.pushes]) ++ s.dropped := by
      rw [hdr, List.append_nil, List.append_nil, List.append_assoc]
    rw [hsa] at hon hkn
    refine { h with
      inOrder := h.inOrder.trans (List.prefix_append _ _)
      complete := fun hli => ?_
      once := hon
      known := hkn }
    rw [h.complete hli, List.append_assoc]

theorem drain (hdr : drain s = some s') : Tracked s' := by
  unfold WorkerPool.drain at hdr
  split at hdr
  · next hco =>
    cases hdr
    have hpe : (s.taken ++ [] ++ (s.dropped ++ s.queue)).Perm
        (s.taken ++ s.queue ++ s.dropped) := by
      rw [List.append_nil, List.append_assoc]
      exact List.Perm.append_left _ List.perm_append_comm
    exact { h with
      complete := fun hli => (nomatch hli)
      once := hpe.nodup_iff.mpr h.once
      known := fun t ht => h.known t (hpe.mem_iff.mp ht)
      dropped := fun _ => hco.1 }
  · cases hdr

variable {t : Nat}

theorem take (hop : s.destroyed = false) (hp : s.workers[i]? = some p) (hfr : p.free = true)
    {queue : List Nat} (hqu : s.queue = t :: queue) (busyWorkers : UInt64) :
    Tracked { s.goTo i (.holding t) with
      queue := queue, busyWorkers := busyWorkers, taken := s.taken ++ [t] } := by
  have hsp : s.taken ++ s.queue = s.taken ++ [t] ++ queue := by
    rw [hqu, List.append_assoc]
    rfl
  have hco : s.accepted = s.taken ++ [t] ++ queue := (h.complete hop).trans hsp
  have hon := h.once
  have hkn := h.known
  rw [hsp] at hon hkn
  exact
    { inOrder := ⟨queue, hco.symm⟩
      complete := fun _ => hco
      once := hon
      known := hkn
      holding := h.holding.comes hp (fun u => (p.free_iff hfr u).1) fun _ => rfl
      running := h.running.passes hp (fun u => (p.free_iff hfr u).2.1) fun _ => rfl
      ran := h.ran.passes hp (fun u => (p.free_iff hfr u).2.2) fun _ => rfl
      dropped := h.dropped }

theorem begin (hp : s.workers[i]? = some (.holding t)) :
    Tracked { s.goTo i (.running t) with begun := s.begun ++ [t] } :=
  { h with
    holding := h.holding.leaves hp (fun _ => rfl) fun _ => rfl
    running := h.running.comes hp (fun _ => rfl) fun _ => rfl
    ran := h.ran.passes hp (fun _ => rfl) fun _ => rfl }

theorem finish (hp : s.workers[i]? = some (.running t)) :
    Tracked { s.goTo i (.ran t) with finished := s.finished ++ [t] } :=
  { h with
    holding := h.holding.passes hp (fun _ => rfl) fun _ => rfl
    running := h.running.leaves hp (fun _ => rfl) fun _ => rfl
    ran := h.ran.comes hp (fun _ => rfl) fun _ => rfl }

theorem delete (hp : s.workers[i]? = some (.ran t)) :
    Tracked { s.goTo i .returning with deleted := s.deleted ++ [t] } :=
  { h with
    holding := h.holding.passes hp (fun _ => rfl) fun _ => rfl
    running := h.running.passes hp (fun _ => rfl) fun _ => rfl
    ran := h.ran.leaves hp (fun _ => rfl) fun _ => rfl }

theorem afterWait (hop : s.destroyed = false)
    (hp : s.workers[i]? = some p) (hfr : p.free = true) : Tracked (afterWait s i) := by
  unfold WorkerPool.afterWait
  split
  · exact h.goTo hp hfr rfl
  · split
    · exact h.goTo hp hfr rfl
    · next t queue hqu => exact h.take hop hp hfr hqu _

theorem work (hop : s.destroyed = false) (hp : s.workers[i]? = some p)
    (hwo : work s i p = some s') : Tracked s' := by
  cases p with
  | starting | returning =>
    cases hwo
    exact Tracked.afterWait { h with } hop hp rfl
  | waiting =>
    cases hwo
    exact h.afterWait hop hp rfl
  | holding t =>
    cases hwo
    exact h.begin hp
  | running t =>
    cases hwo
    exact h.finish hp
  | ran t =>
    cases hwo
    exact h.delete hp
  | exited => cases hwo

theorem step {e : Event} (hs : step s e = some s') : Tracked s' := by
  unfold WorkerPool.step at hs
  split at hs
  · cases hs
  · next hli =>
    cases e with
    | push =>
      cases hs
      exact h.push
    | initShutdown =>
      cases hs
      exact { h with dropped := fun _ => rfl }
    | worker i =>
      obtain ⟨p, hp, hwo⟩ := Option.bind_eq_some_iff.mp hs
      exact h.work (Bool.eq_false_iff.mpr hli) hp hwo
    | drain => exact h.drain hs

/-- A task is in one place. -/
theorem count_le_one (t : Nat) :
    s.workers.countP (Place.holds t) + s.workers.countP (Place.runs t)
      + s.workers.countP (Place.hasRun t) + s.deleted.count t + s.queue.count t
      + s.dropped.count t ≤ 1 := by
  have hon := List.nodup_iff_count_le_one.mp h.once t
  have hho := h.holding t
  have hru := h.running t
  have hran := h.ran t
  rw [List.count_append, List.count_append] at hon
  omega

/-- A task that is run is nowhere else. -/
theorem running_alone (ht : .running t ∈ s.workers) :
    t ∉ s.queue ∧ .holding t ∉ s.workers ∧ .ran t ∉ s.workers ∧ t ∉ s.deleted ∧ t ∉ s.dropped := by
  have hone := h.count_le_one t
  have hru : 0 < s.workers.countP (Place.runs t) :=
    List.countP_pos_iff.mpr ⟨_, ht, beq_self_eq_true t⟩
  refine ⟨fun hq => ?_, fun hp => ?_, fun hp => ?_, fun hd => ?_, fun hd => ?_⟩
  · have := List.count_pos_iff.mpr hq
    omega
  · have := List.countP_pos_iff.mpr ⟨_, hp, show Place.holds t _ = true from beq_self_eq_true t⟩
    omega
  · have := List.countP_pos_iff.mpr ⟨_, hp, show Place.hasRun t _ = true from beq_self_eq_true t⟩
    omega
  · have := List.count_pos_iff.mpr hd
    omega
  · have := List.count_pos_iff.mpr hd
    omega

/-- So is one that has been run, and not deleted. -/
theorem ran_alone (ht : .ran t ∈ s.workers) :
    t ∉ s.queue ∧ .holding t ∉ s.workers ∧ .running t ∉ s.workers := by
  have hone := h.count_le_one t
  have hran : 0 < s.workers.countP (Place.hasRun t) :=
    List.countP_pos_iff.mpr ⟨_, ht, beq_self_eq_true t⟩
  refine ⟨fun hq => ?_, fun hp => ?_, fun hp => ?_⟩
  · have := List.count_pos_iff.mpr hq
    omega
  · have := List.countP_pos_iff.mpr ⟨_, hp, show Place.holds t _ = true from beq_self_eq_true t⟩
    omega
  · exact (h.running_alone hp).2.2.1 ht

theorem deleted_lt (ht : t ∈ s.deleted ∨ t ∈ s.dropped) : t < s.pushes := by
  rcases ht with ht | ht
  · have hta := h.holding.subset (h.running.subset (h.ran.subset ht))
    exact h.known t (List.mem_append_left _ (List.mem_append_left _ hta))
  · exact h.known t (List.mem_append_right _ ht)

theorem ran_lt (ht : .ran t ∈ s.workers) : t < s.pushes := by
  have hfi := h.ran.came ht (beq_self_eq_true t)
  have hta := h.holding.subset (h.running.subset hfi)
  exact h.known t (List.mem_append_left _ (List.mem_append_left _ hta))

end Tracked

/-! ## Where a worker goes next -/

/-- From one place to the next, with this queue. -/
inductive Place.Moves (queue : List Nat) : Place → Place → Prop
  | rests {p q : Place} (hp : p.free = true) (hq : q.free = true) : Moves queue p q
  | takes {p : Place} {t : Nat} (hp : p.free = true) (ht : t ∈ queue) : Moves queue p (.holding t)
  | begins {t : Nat} : Moves queue (.holding t) (.running t)
  | finishes {t : Nat} : Moves queue (.running t) (.ran t)
  | deletes {t : Nat} : Moves queue (.ran t) .returning

/-- What a worker deletes when it goes on. -/
def Place.deletes : Place → List Nat
  | .ran t => [t]
  | _ => []

/-- A worker has gone on: this is all that has happened to the tasks of the others. -/
structure Moved (s : Pool) (i : Nat) (p : Place) (s' : Pool) : Prop where
  place : ∃ q, Place.Moves s.queue p q ∧ s'.workers = s.workers.set i q
  queue : s'.queue ⊆ s.queue
  pushes : s'.pushes = s.pushes
  deleted : s'.deleted = s.deleted ++ p.deletes
  dropped : s'.dropped = s.dropped

theorem moved_afterWait (hfr : p.free = true) : Moved s i p (afterWait s i) := by
  have hde : s.deleted = s.deleted ++ p.deletes := by
    cases p <;> first | exact (List.append_nil _).symm | cases hfr
  unfold afterWait
  split
  · exact ⟨⟨.exited, .rests hfr rfl, rfl⟩, List.Subset.refl _, rfl, hde, rfl⟩
  · split
    · exact ⟨⟨.waiting, .rests hfr rfl, rfl⟩, List.Subset.refl _, rfl, hde, rfl⟩
    · next t queue hqu =>
      have hta : Place.Moves s.queue p (.holding t) := .takes hfr (hqu ▸ List.mem_cons_self)
      refine ⟨⟨.holding t, hta, rfl⟩, ?_, rfl, hde, rfl⟩
      rw [hqu]
      exact List.subset_cons_self t queue

theorem moved_work (hwo : work s i p = some s') : Moved s i p s' := by
  have hsa : s.deleted = s.deleted ++ [] := (List.append_nil _).symm
  cases p with
  | starting =>
    cases hwo
    have h := moved_afterWait (s := { s with busyWorkers := s.busyWorkers - 1 }) (i := i)
      (p := .starting) rfl
    exact ⟨h.place, h.queue, h.pushes, h.deleted, h.dropped⟩
  | waiting =>
    cases hwo
    exact moved_afterWait rfl
  | holding t =>
    cases hwo
    exact ⟨⟨_, .begins, rfl⟩, List.Subset.refl _, rfl, hsa, rfl⟩
  | running t =>
    cases hwo
    exact ⟨⟨_, .finishes, rfl⟩, List.Subset.refl _, rfl, hsa, rfl⟩
  | ran t =>
    cases hwo
    exact ⟨⟨_, .deletes, rfl⟩, List.Subset.refl _, rfl, rfl, rfl⟩
  | returning =>
    cases hwo
    have h := moved_afterWait (s := { s with busyWorkers := s.busyWorkers - 1 }) (i := i)
      (p := .returning) rfl
    exact ⟨h.place, h.queue, h.pushes, h.deleted, h.dropped⟩
  | exited => cases hwo

theorem moved_step (hs : step s (.worker i) = some s') :
    ∃ p, s.workers[i]? = some p ∧ Moved s i p s' := by
  unfold step at hs
  split at hs
  · cases hs
  · obtain ⟨p, hp, hwo⟩ := Option.bind_eq_some_iff.mp hs
    exact ⟨p, hp, moved_work hwo⟩

/-! ## The count of busy workers -/

/-- `busy_workers` is the number of busy workers, of which there are at most as many as an
`int` can count. -/
structure Counted (s : Pool) : Prop where
  busy : s.busyWorkers.toNat = s.workers.countP Place.busy
  bounded : s.workers.length ≤ 2147483647

theorem counted_init {n : Nat} (hn : n ≤ 2147483647) : Counted (init n) where
  busy := by
    have hlt : n < UInt64.size := Nat.lt_of_le_of_lt hn (by decide)
    rw [init, UInt64.toNat_ofNat', Nat.mod_eq_of_lt hlt, List.countP_replicate]
    rfl
  bounded := by
    rw [init, List.length_replicate]
    exact hn

theorem Counted.move (hlen : s.workers.length ≤ 2147483647) (hp : s.workers[i]? = some p)
    {q : Place} {busyWorkers : UInt64}
    (hbu : busyWorkers.toNat + p.busy.toNat = s.workers.countP Place.busy + q.busy.toNat)
    (hs : s'.workers = s.workers.set i q) (hs' : s'.busyWorkers = busyWorkers) : Counted s' where
  busy := by
    have hmo := countP_move hp Place.busy q
    rw [hs, hs']
    omega
  bounded := by
    rw [hs, List.length_set]
    exact hlen

/-- The worker that comes to the wait, or wakes, is not in the count. -/
theorem counted_afterWait (hlen : s.workers.length ≤ 2147483647) (hp : s.workers[i]? = some p)
    (hbu : s.busyWorkers.toNat + p.busy.toNat = s.workers.countP Place.busy) :
    Counted (afterWait s i) := by
  unfold afterWait
  split
  · exact Counted.move hlen hp hbu rfl rfl
  · split
    · exact Counted.move hlen hp hbu rfl rfl
    · have hle := List.countP_le_length (p := Place.busy) (l := s.workers)
      have hadd : (s.busyWorkers + 1).toNat = s.busyWorkers.toNat + 1 := by
        rw [UInt64.toNat_add, UInt64.toNat_one]
        omega
      refine Counted.move hlen hp ?_ rfl rfl
      rw [hadd, ← hbu]
      exact Nat.add_right_comm _ _ _

theorem Counted.top (h : Counted s) (hp : s.workers[i]? = some p) (hbu : p.busy = true) :
    Counted (top s i) := by
  have hpos : 1 ≤ s.busyWorkers.toNat := by
    rw [h.busy]
    exact List.countP_pos_iff.mpr ⟨p, List.mem_of_getElem? hp, hbu⟩
  have hsub : (s.busyWorkers - 1).toNat = s.busyWorkers.toNat - 1 :=
    UInt64.toNat_sub_of_le _ _ (UInt64.le_iff_toNat_le.mpr hpos)
  have hcount : (s.busyWorkers - 1).toNat + p.busy.toNat = s.workers.countP Place.busy := by
    rw [hsub, hbu, ← h.busy]
    exact Nat.sub_add_cancel hpos
  exact counted_afterWait h.bounded hp hcount

theorem Counted.work (h : Counted s) (hp : s.workers[i]? = some p)
    (hwo : work s i p = some s') : Counted s' := by
  cases p with
  | starting | returning =>
    cases hwo
    exact h.top hp rfl
  | waiting =>
    cases hwo
    exact counted_afterWait h.bounded hp h.busy
  | holding t | running t | ran t =>
    cases hwo
    exact Counted.move h.bounded hp (congrArg (· + 1) h.busy) rfl rfl
  | exited => cases hwo

/-! ## Runs -/

/-- The invariant of a pool. -/
structure Accounted (s : Pool) : Prop where
  tracked : Tracked s
  counted : Counted s

theorem Counted.step {e : Event} (h : Counted s) (hs : step s e = some s') : Counted s' := by
  unfold WorkerPool.step at hs
  split at hs
  · cases hs
  · cases e with
    | push =>
      cases hs
      unfold WorkerPool.push
      split <;> exact ⟨h.busy, h.bounded⟩
    | initShutdown =>
      cases hs
      exact ⟨h.busy, h.bounded⟩
    | worker i =>
      obtain ⟨p, hp, hwo⟩ := Option.bind_eq_some_iff.mp hs
      exact h.work hp hwo
    | drain =>
      change WorkerPool.drain s = some s' at hs
      unfold WorkerPool.drain at hs
      split at hs
      · cases hs
        exact ⟨h.busy, h.bounded⟩
      · cases hs

theorem Accounted.step {e : Event} (h : Accounted s) (hs : step s e = some s') : Accounted s' :=
  ⟨h.tracked.step hs, h.counted.step hs⟩

theorem accounted_run {n : Nat} (hn : n ≤ 2147483647) {es : List Event}
    (hrun : run step (init n) es = some s) : Accounted s :=
  run_keeps Accounted (fun _ _ _ h hs => h.step hs) ⟨tracked_init n, counted_init hn⟩ hrun

/-- Where nobody is busy, no task is at a worker. -/
theorem idle_of_counted (h : Counted s) (hbu : s.busyWorkers = 0) :
    ∀ p ∈ s.workers, p.free = true := by
  intro p hp
  have hze : s.workers.countP Place.busy = 0 := by rw [← h.busy, hbu, UInt64.toNat_zero]
  have hid := List.countP_eq_zero.mp hze p hp
  cases p <;> first | rfl | exact absurd rfl hid

/-- **Accounting.**  `busy_workers` counts the workers that have not come to the top yet and
those that have taken a task and not come back to it; each task is run at most once, in the
order of the pushes, and not deleted unrun before the shutdown; and where the queue is empty
and nobody is busy, all tasks that were accepted have been run and deleted. -/
theorem workerPool_accounting (n : Nat) (hn : n ≤ 2147483647) (es : List Event) (s : Pool)
    (hrun : run step (init n) es = some s) :
    s.busyWorkers.toNat = s.workers.countP Place.busy ∧
    (∀ t, s.begun.count t ≤ 1) ∧
    (∀ t, t ∈ s.deleted ∨ t ∈ s.dropped → t ∉ s.begun → s.shutdown = true) ∧
    s.taken <+: s.accepted ∧
    (s.destroyed = false → s.queue = [] → s.busyWorkers = 0 →
      ∀ t ∈ s.accepted, t ∈ s.finished ∧ t ∈ s.deleted) := by
  have h := accounted_run hn hrun
  refine ⟨h.counted.busy, fun t => ?_, fun t hde hun => ?_, h.tracked.inOrder, ?_⟩
  · have hno : s.taken.Nodup := by
      have hon := h.tracked.once
      rw [List.append_assoc] at hon
      exact (List.nodup_append.mp hon).1
    exact Nat.le_trans (h.tracked.holding.count_le t) (List.nodup_iff_count_le_one.mp hno t)
  · rcases hde with hde | hdr
    · exact absurd (h.tracked.running.subset (h.tracked.ran.subset hde)) hun
    · exact h.tracked.dropped (List.ne_nil_of_mem hdr)
  · intro hli hqu hbu t ht
    have hfr := idle_of_counted h.counted hbu
    rw [h.tracked.complete hli, hqu, List.append_nil] at ht
    have hbe := h.tracked.holding.all_gone (fun p hp t => (p.free_iff (hfr p hp) t).1) ht
    have hfi := h.tracked.running.all_gone (fun p hp t => (p.free_iff (hfr p hp) t).2.1) hbe
    exact ⟨hfi, h.tracked.ran.all_gone (fun p hp t => (p.free_iff (hfr p hp) t).2.2) hfi⟩

/-- One task, taken by the first of two workers, which goes round once; the second one starts
when all is done. -/
theorem workerPool_accounting_oneTask :
    ∃ s, run step (init 2) (.push :: List.replicate 5 (.worker 0) ++ [.worker 1]) = some s ∧
      s.accepted = [0] ∧ s.workers = [.waiting, .waiting] ∧
      ∀ t ∈ s.accepted, t ∈ s.finished ∧ t ∈ s.deleted := by
  obtain ⟨s, hrun, hac, hwo, hli, hqu, hbu⟩ : ∃ s,
      run step (init 2) (.push :: List.replicate 5 (.worker 0) ++ [.worker 1]) = some s ∧
      s.accepted = [0] ∧ s.workers = [.waiting, .waiting] ∧ s.destroyed = false ∧ s.queue = [] ∧
      s.busyWorkers = 0 := by decide +kernel
  exact ⟨s, hrun, hac, hwo, (workerPool_accounting 2 (by decide) _ s hrun).2.2.2.2 hli hqu hbu⟩

end WorkerPool

end GradidoNode
