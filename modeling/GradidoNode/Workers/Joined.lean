/-
# `GradidoNode.Workers.Joined` — `push_and_join`, and whose the task is

`push_and_join(task)` wraps the task of the caller in a `SyncedTask`, which the pool owns,
and waits in `join` until it has been run.  The two sides shake hands over
`finished_status`:

    worker    task->run(); finished_status = true; signal; wait while it is true
    caller    wait while finished_status is false; finished_status = false; signal

so the worker leaves `SyncedTask::run`, and deletes the `SyncedTask`, after the caller has
left `join`.  There are three ways around this:

    a call after the shutdown       the pool deletes the task of the caller
    a task that throws              the worker deletes the `SyncedTask`, the caller waits in it
    a `SyncedTask` still queued     the destructor deletes it, the caller waits in it

`joined_owned_iff` says that there are no others.  The pool is that of
`GradidoNode.Workers.WorkerPool`; a `SyncedTask` is a task of it, with the number of its
`push`.  A waiting thread may wake at any time, and then waits on.
-/
import GradidoNode.Workers.WorkerPool

namespace GradidoNode

open Function Lib

namespace WorkerPool

/-- How far a `SyncedTask` is; in the first two the caller is inside `join`. -/
inductive Handshake where
  /-- `task->run()` has not returned -/
  | waiting
  /-- it has, and `finished_status` is set -/
  | signalled
  /-- the caller has taken it back, and left `join` -/
  | returned
  deriving DecidableEq, Repr

/-- A pool with calls of `push_and_join`.  `completed` are the `SyncedTask`s whose task has been
run, `threw` those whose task has thrown; `refused` counts the calls whose task was deleted. -/
structure JoinedPool where
  pool : Pool
  handshake : Nat → Option Handshake
  completed : List Nat
  threw : List Nat
  refused : Nat

namespace JoinedPool

def init (workerCount : Nat) : JoinedPool where
  pool := WorkerPool.init workerCount
  handshake := fun _ => none
  completed := []
  threw := []
  refused := 0

inductive Event where
  | push
  | pushAndJoin
  | initShutdown
  /-- worker `i` does what comes next; `throws` says how `task->run()` ends, if that is next -/
  | worker (i : Nat) (throws : Bool)
  /-- the caller that waits in the `SyncedTask` `t` goes on -/
  | join (t : Nat)
  | drain

variable (s : JoinedPool)

/-- An event of the pool that leaves the calls alone. -/
def within (e : WorkerPool.Event) : Option JoinedPool :=
  (WorkerPool.step s.pool e).map fun pool => { s with pool := pool }

/-- `push_and_join`, up to `join`. -/
def pushAndJoin : Option JoinedPool :=
  if s.pool.destroyed then none
  else if s.pool.shutdown then some { s with refused := s.refused + 1 }
  else some { s with
    pool := WorkerPool.push s.pool
    handshake := update s.handshake s.pool.pushes (some .waiting) }

/-- A worker in `SyncedTask::run`. -/
def runSynced (i t : Nat) (throws : Bool) : Handshake → Option JoinedPool
  | .waiting =>
    if throws then (s.within (.worker i)).map fun s' => { s' with threw := s'.threw ++ [t] }
    else some { s with
      handshake := update s.handshake t (some .signalled)
      completed := s.completed ++ [t] }
  | .signalled => none
  | .returned => s.within (.worker i)

def worker (i : Nat) (throws : Bool) : Option JoinedPool :=
  match s.pool.workers[i]? with
  | some (.running t) =>
    match s.handshake t with
    | some handshake => s.runSynced i t throws handshake
    | none => s.within (.worker i)
  | _ => s.within (.worker i)

/-- The end of `SyncedTask::join`. -/
def join (t : Nat) : Option JoinedPool :=
  if s.handshake t = some .signalled then
    some { s with handshake := update s.handshake t (some .returned) }
  else none

def step (s : JoinedPool) : Event → Option JoinedPool
  | .push => s.within .push
  | .pushAndJoin => s.pushAndJoin
  | .initShutdown => s.within .initShutdown
  | .worker i throws => s.worker i throws
  | .join t => s.join t
  | .drain => s.within .drain

/-- The `SyncedTask` has been deleted. -/
def Destroyed (t : Nat) : Prop := t ∈ s.pool.deleted ∨ t ∈ s.pool.dropped

/-- Tasks are the callers': none is deleted, a caller goes on after its task has been run, and
no `SyncedTask` is deleted with the caller in it. -/
structure Owned : Prop where
  kept : s.refused = 0
  run : ∀ t, s.handshake t = some .returned → t ∈ s.completed
  alive : ∀ t h, s.handshake t = some h → s.Destroyed t → h = .returned

/-- What the pool has to be spared: a call after the shutdown, the end of a task that threw, and
a destructor with `SyncedTask`s in the queue. -/
def Spared (s : JoinedPool) : Event → Prop
  | .pushAndJoin => s.pool.shutdown = false
  | .worker i _ => ∀ t, s.pool.workers[i]? = some (.ran t) → t ∉ s.threw
  | .drain => ∀ t ∈ s.pool.queue, s.handshake t = none
  | _ => True

/-! ## Where a `SyncedTask` is, and how far -/

/-- The `SyncedTask`, if it is one, has not been run. -/
def NotBegun (t : Nat) : Prop := (∀ h, s.handshake t = some h → h = .waiting) ∧ t ∉ s.threw

/-- A worker leaves `SyncedTask::run` after the caller has left `join`, or by the exception. -/
def Fits : Place → Prop
  | .holding t => s.NotBegun t
  | .running t => t ∉ s.threw
  | .ran t => ∀ h, s.handshake t = some h → h = .returned ∨ t ∈ s.threw
  | _ => True

/-- The places of the `SyncedTask`s go with their handshakes. -/
structure Shaken (s : JoinedPool) : Prop where
  tracked : Tracked s.pool
  known : ∀ t h, s.handshake t = some h → t < s.pool.pushes
  queued : ∀ t ∈ s.pool.queue, s.NotBegun t
  placed : ∀ p ∈ s.pool.workers, s.Fits p
  threw : ∀ t ∈ s.threw, s.handshake t = some .waiting
  completed : ∀ t h, s.handshake t = some h → h ≠ .waiting → t ∈ s.completed

variable {s} {s' : JoinedPool} {e : Event} {i t : Nat} {pool : Pool} {next : Handshake}
  {completed : List Nat}

theorem shaken_init (n : Nat) : Shaken (init n) where
  tracked := tracked_init n
  known := fun t h hh => nomatch hh
  queued := fun t ht => nomatch ht
  placed := by
    intro p hp
    rw [List.eq_of_mem_replicate hp]
    trivial
  threw := fun t ht => nomatch ht
  completed := fun t h hh => nomatch hh

theorem owned_init (n : Nat) : Owned (init n) :=
  ⟨rfl, fun _ h => (nomatch h), fun _ _ h _ => (nomatch h)⟩

/-- The handshake of one `SyncedTask` goes on, as its place allows. -/
theorem Shaken.shake (h : Shaken s) (ht : t < s.pool.pushes)
    (hbe : t ∈ s.pool.queue ∨ .holding t ∈ s.pool.workers ∨ t ∈ s.threw → next = .waiting)
    (hran : .ran t ∈ s.pool.workers → next = .returned) (hsub : s.completed ⊆ completed)
    (hdo : next ≠ .waiting → t ∈ completed) :
    Shaken { s with
      handshake := update s.handshake t (some next), completed := completed } := by
  refine ⟨h.tracked, ?_, ?_, ?_, ?_, ?_⟩
  · intro u
    have hold := h.known u
    grind
  · intro u hu
    have hold := h.queued u hu
    grind [NotBegun]
  · intro p hp
    have hold := h.placed p hp
    cases p <;> grind [Fits, NotBegun]
  · intro u hu
    have hold := h.threw u hu
    grind
  · intro u
    have hold := h.completed u
    grind

/-- The caller is in no `SyncedTask` that has been deleted. -/
theorem Owned.shake (ho : Owned s) (hrun : next = .returned → t ∈ completed)
    (hsub : s.completed ⊆ completed) (hal : s.Destroyed t → next = .returned) :
    Owned { s with
      handshake := update s.handshake t (some next), completed := completed } := by
  refine ⟨ho.kept, ?_, ?_⟩
  · intro u
    have hold := ho.run u
    grind
  · intro u hand hha hu
    have hold := ho.alive u
    grind [Destroyed]

/-! ## What an event does -/

theorem within_eq {e : WorkerPool.Event} (h : s.within e = some s') :
    ∃ pool, WorkerPool.step s.pool e = some pool ∧ s' = { s with pool := pool } := by
  obtain ⟨pool, hpo, rfl⟩ := Option.map_eq_some_iff.mp h
  exact ⟨pool, hpo, rfl⟩

theorem push_frame : (WorkerPool.push s.pool).pushes = s.pool.pushes + 1 ∧
    (WorkerPool.push s.pool).workers = s.pool.workers ∧
    (∀ t ∈ (WorkerPool.push s.pool).queue, t ∈ s.pool.queue ∨ t = s.pool.pushes) ∧
    (WorkerPool.push s.pool).deleted = s.pool.deleted ∧
    ∀ t ∈ (WorkerPool.push s.pool).dropped,
      t ∈ s.pool.dropped ∨ t = s.pool.pushes ∧ s.pool.shutdown = true := by
  unfold WorkerPool.push
  grind

theorem Shaken.push (h : Shaken s) : Shaken { s with pool := WorkerPool.push s.pool } := by
  obtain ⟨hpu, hwo, hqu, -⟩ := push_frame
  refine ⟨h.tracked.push, fun t hand hha => ?_, fun t ht => ?_,
    fun p hp => h.placed p (hwo ▸ hp), h.threw, h.completed⟩
  · exact hpu ▸ Nat.lt_succ_of_lt (h.known t hand hha)
  · -- the number of the next task is nobody's
    have hold := h.queued t
    have hkn := h.known t
    have hth := h.threw t
    grind [NotBegun]

theorem Owned.push (ho : Owned s) (h : Shaken s) :
    Owned { s with pool := WorkerPool.push s.pool } := by
  refine ⟨ho.kept, ho.run, fun t hand hha ht => ?_⟩
  have hold := ho.alive t hand hha
  have hkn := h.known t hand hha
  grind [Destroyed, push_frame]

theorem pushed_law (h : Shaken s) (hop : s.pool.shutdown = false) : Shaken { s with
      pool := WorkerPool.push s.pool
      handshake := update s.handshake s.pool.pushes (some .waiting) } ∧
    (Owned s → Owned { s with
      pool := WorkerPool.push s.pool
      handshake := update s.handshake s.pool.pushes (some .waiting) }) := by
  obtain ⟨hpu, hwo, -, hde, hdr⟩ := push_frame
  constructor
  · refine h.push.shake (hpu ▸ Nat.lt_succ_self _) (fun _ => rfl) (fun hran => ?_)
      (List.Subset.refl _) (absurd rfl)
    exact absurd (h.tracked.ran_lt (hwo ▸ hran)) (Nat.lt_irrefl _)
  · intro ho
    refine (ho.push h).shake Handshake.noConfusion (List.Subset.refl _) fun ht => ?_
    have hlt := h.tracked.deleted_lt (t := s.pool.pushes)
    grind [Destroyed]

/-- The worker that goes on keeps to the handshake of its task. -/
theorem Shaken.moves (h : Shaken s) {p q : Place} (hp : p ∈ s.pool.workers)
    (hrun : ∀ t, p = .running t → s.handshake t = none ∨ s.handshake t = some .returned)
    (hmo : Place.Moves s.pool.queue p q) : s.Fits q := by
  have hfits := h.placed p hp
  cases hmo with
  | rests hfr hq => cases q <;> trivial
  | takes hfr ht => exact h.queued _ ht
  | begins => exact hfits.2
  | @finishes t =>
    intro hand hha
    grind [hrun t rfl]
  | deletes => trivial

theorem Shaken.works (h : Shaken s) (hrun : ∀ t, s.pool.workers[i]? = some (.running t) →
      s.handshake t = none ∨ s.handshake t = some .returned)
    (hs : WorkerPool.step s.pool (.worker i) = some pool) : Shaken { s with pool := pool } := by
  obtain ⟨p, hp, hmo⟩ := moved_step hs
  obtain ⟨q, hmv, hwo⟩ := hmo.place
  have hq : s.Fits q := h.moves (List.mem_of_getElem? hp) (fun t ht => hrun t (ht ▸ hp)) hmv
  refine ⟨h.tracked.step hs, fun t hand hha => ?_, fun t ht => h.queued t (hmo.queue ht),
    fun p' hp' => ?_, h.threw, h.completed⟩
  · exact hmo.pushes ▸ h.known t hand hha
  · rcases List.mem_or_eq_of_mem_set (hwo ▸ hp') with hold | rfl
    · exact h.placed p' hold
    · exact hq

/-- A worker that goes on deletes its `SyncedTask` with the caller in it just if the task has
thrown. -/
theorem owned_works_iff (ho : Owned s) (h : Shaken s)
    (hs : WorkerPool.step s.pool (.worker i) = some pool) :
    Owned { s with pool := pool } ↔ ∀ t, s.pool.workers[i]? = some (.ran t) → t ∉ s.threw := by
  obtain ⟨p, hp, hmo⟩ := moved_step hs
  have hde : ∀ t, Destroyed { s with pool := pool } t ↔ s.Destroyed t ∨ t ∈ p.deletes := by
    intro t
    grind [Destroyed, hmo.deleted, hmo.dropped]
  constructor
  · intro ho' t ht hth
    obtain rfl := Option.some.inj (hp.symm.trans ht)
    cases ho'.alive t .waiting (h.threw t hth) ((hde t).mpr (.inr (List.mem_singleton_self t)))
  · intro hsp
    refine ⟨ho.kept, ho.run, fun t hand hha ht => ?_⟩
    rcases (hde t).mp ht with ht | ht
    · exact ho.alive t hand hha ht
    · cases p with
      | ran u =>
        obtain rfl := List.mem_singleton.mp ht
        have hfits := h.placed _ (List.mem_of_getElem? hp)
        exact (hfits hand hha).resolve_right (hsp t hp)
      | starting | waiting | holding _ | running _ | returning | exited => cases ht

theorem throws_law (h : Shaken s) (hp : s.pool.workers[i]? = some (.running t))
    (hwait : s.handshake t = some .waiting)
    (hs : WorkerPool.step s.pool (.worker i) = some pool) :
    Shaken { s with pool := pool, threw := s.threw ++ [t] } ∧
      (Owned s → Owned { s with pool := pool, threw := s.threw ++ [t] }) := by
  obtain ⟨p, hp', hmo⟩ := moved_step hs
  obtain rfl := Option.some.inj (hp.symm.trans hp')
  obtain ⟨q, hmv, hwo⟩ := hmo.place
  obtain rfl : q = .ran t := by
    cases hmv with
    | rests hfr hq | takes hfr ht => cases hfr
    | finishes => rfl
  have htr := h.tracked.step hs
  have hran : .ran t ∈ pool.workers := by
    obtain ⟨hi, -⟩ := List.getElem?_eq_some_iff.mp hp
    exact hwo ▸ List.mem_set hi _
  obtain ⟨hqu, hho, hru⟩ := htr.ran_alone hran
  constructor
  · refine ⟨htr, fun u hand hha => hmo.pushes ▸ h.known u hand hha, fun u hu => ?_,
      fun p hp' => ?_, ?_, h.completed⟩
    · have hold := h.queued u (hmo.queue hu)
      grind [NotBegun]
    · have hold := h.placed p
      cases p <;> grind [Fits, NotBegun]
    · grind [h.threw]
  · intro ho
    refine ⟨ho.kept, ho.run, fun u hand hha hu => ho.alive u hand hha ?_⟩
    grind [Destroyed, hmo.deleted, hmo.dropped, Place.deletes]

theorem completes_law (h : Shaken s) (hp : s.pool.workers[i]? = some (.running t))
    (hwait : s.handshake t = some .waiting) :
    Shaken { s with
      handshake := update s.handshake t (some .signalled)
      completed := s.completed ++ [t] } ∧
    (Owned s → Owned { s with
      handshake := update s.handshake t (some .signalled)
      completed := s.completed ++ [t] }) := by
  have hmem := List.mem_of_getElem? hp
  obtain ⟨hqu, hho, hran, hde, hdr⟩ := h.tracked.running_alone hmem
  have hth : t ∉ s.threw := h.placed _ hmem
  have hsub := List.subset_append_left s.completed [t]
  constructor
  · refine h.shake (h.known t _ hwait) ?_ (absurd · hran) hsub fun _ => ?_
    · rintro (hu | hu | hu) <;> contradiction
    · exact List.mem_append_right _ (List.mem_singleton_self t)
  · exact fun ho => ho.shake Handshake.noConfusion hsub
      fun hgo => absurd hgo (not_or.mpr ⟨hde, hdr⟩)

theorem join_law (h : Shaken s) (hsi : s.handshake t = some .signalled) :
    Shaken { s with handshake := update s.handshake t (some .returned) } ∧
    (Owned s → Owned { s with handshake := update s.handshake t (some .returned) }) := by
  have hdo := h.completed t _ hsi Handshake.noConfusion
  have hsub := List.Subset.refl s.completed
  constructor
  · refine h.shake (h.known t _ hsi) ?_ (fun _ => rfl) hsub fun _ => hdo
    have hqu := h.queued t
    have hhe := h.placed (.holding t)
    grind [NotBegun, Fits, h.threw t]
  · exact fun ho => ho.shake (fun _ => hdo) hsub fun _ => rfl

/-- The destructor deletes the `SyncedTask`s of the queue, whose callers all wait in them. -/
theorem owned_drain_iff (ho : Owned s) (h : Shaken s) : Owned { s with pool := { s.pool with
        queue := [], dropped := s.pool.dropped ++ s.pool.queue, destroyed := true } } ↔
      ∀ t ∈ s.pool.queue, s.handshake t = none := by
  constructor
  · intro ho' t ht
    cases hha : s.handshake t with
    | none => rfl
    | some hand =>
      have hre := ho'.alive t hand hha (.inr (List.mem_append_right _ ht))
      cases hre.symm.trans ((h.queued t ht).1 hand hha)
  · intro hsp
    refine ⟨ho.kept, ho.run, fun t hand hha ht => ?_⟩
    have hold := ho.alive t hand hha
    grind [Destroyed]

/-! ## Runs -/

/-- What a worker does to the invariant, and when it leaves the tasks the callers'. -/
theorem worker_law (h : Shaken s) {throws : Bool} (hs : s.worker i throws = some s') :
    Shaken s' ∧ (Owned s → (Owned s' ↔ Spared s (.worker i throws))) := by
  unfold worker at hs
  split at hs
  · next t hp =>
    have hsp : Spared s (.worker i throws) := fun u hu => nomatch hp.symm.trans hu
    split at hs
    · next handshake hha =>
      cases handshake with
      | waiting =>
        cases throws with
        | true =>
          obtain ⟨s₁, hs₁, rfl⟩ := Option.map_eq_some_iff.mp hs
          obtain ⟨pool, hpo, rfl⟩ := within_eq hs₁
          obtain ⟨h', ho'⟩ := throws_law h hp hha hpo
          exact ⟨h', fun ho => iff_of_true (ho' ho) hsp⟩
        | false =>
          cases hs
          obtain ⟨h', ho'⟩ := completes_law h hp hha
          exact ⟨h', fun ho => iff_of_true (ho' ho) hsp⟩
      | signalled => cases hs
      | returned =>
        obtain ⟨pool, hpo, rfl⟩ := within_eq hs
        exact ⟨h.works (by grind) hpo, fun ho => owned_works_iff ho h hpo⟩
    · obtain ⟨pool, hpo, rfl⟩ := within_eq hs
      exact ⟨h.works (by grind) hpo, fun ho => owned_works_iff ho h hpo⟩
  · obtain ⟨pool, hpo, rfl⟩ := within_eq hs
    exact ⟨h.works (by grind) hpo, fun ho => owned_works_iff ho h hpo⟩

theorem step_law (h : Shaken s) (hs : step s e = some s') :
    Shaken s' ∧ (Owned s → (Owned s' ↔ Spared s e)) := by
  cases e with
  | push =>
    obtain ⟨pool, hpo, rfl⟩ := within_eq hs
    cases (Option.ite_none_left_eq_some.mp hpo).2
    exact ⟨h.push, fun ho => iff_of_true (ho.push h) trivial⟩
  | pushAndJoin =>
    obtain ⟨-, hs⟩ := Option.ite_none_left_eq_some.mp hs
    split at hs
    · next hcl =>
      cases hs
      refine ⟨⟨h.tracked, h.known, h.queued, h.placed, h.threw, h.completed⟩, fun _ => ?_⟩
      refine iff_of_false (fun ho' => Nat.succ_ne_zero _ ho'.kept) fun hop => ?_
      cases hcl.symm.trans hop
    · next hcl =>
      cases hs
      have hop := Bool.eq_false_iff.mpr hcl
      obtain ⟨h', ho'⟩ := pushed_law h hop
      exact ⟨h', fun ho => iff_of_true (ho' ho) hop⟩
  | initShutdown =>
    obtain ⟨pool, hpo, rfl⟩ := within_eq hs
    have htr := h.tracked.step hpo
    cases (Option.ite_none_left_eq_some.mp hpo).2
    exact ⟨⟨htr, h.known, h.queued, h.placed, h.threw, h.completed⟩,
      fun ho => iff_of_true ⟨ho.kept, ho.run, ho.alive⟩ trivial⟩
  | worker i throws => exact worker_law h hs
  | join t =>
    obtain ⟨hsi, hs⟩ := Option.ite_none_right_eq_some.mp hs
    cases hs
    obtain ⟨h', ho'⟩ := join_law h hsi
    exact ⟨h', fun ho => iff_of_true (ho' ho) trivial⟩
  | drain =>
    obtain ⟨pool, hpo, rfl⟩ := within_eq hs
    have htr := h.tracked.step hpo
    cases (Option.ite_none_right_eq_some.mp (Option.ite_none_left_eq_some.mp hpo).2).2
    exact ⟨⟨htr, h.known, fun t ht => (nomatch ht), h.placed, h.threw, h.completed⟩,
      fun ho => owned_drain_iff ho h⟩

/-- **Ownership.**  Over a run the tasks of `push_and_join` are the callers', just if there is no
call after the shutdown, no task of a call throws and has its `SyncedTask` deleted for it, and
the destructor finds no `SyncedTask` in the queue. -/
theorem joined_owned_iff (n : Nat) (es : List Event) (s : JoinedPool)
    (hrun : run step (init n) es = some s) :
    (∀ es' s', es' <+: es → run step (init n) es' = some s' → Owned s') ↔
      Along step Spared (init n) es := by
  have hlaw := throughout_iff_along (P := Spared) (fun s => Owned s ∧ Shaken s)
    (fun s e s' h hs => by
      obtain ⟨h', ho'⟩ := step_law h.2 hs
      rw [← ho' h.1]
      exact and_iff_left h')
    ⟨owned_init n, shaken_init n⟩ hrun
  rw [← hlaw]
  refine ⟨fun hall es' s' hpre hrun' => ⟨hall es' s' hpre hrun', ?_⟩,
    fun hall es' s' hpre hrun' => (hall es' s' hpre hrun').1⟩
  exact run_keeps Shaken (fun _ _ _ h hs => (step_law h hs).1) (shaken_init n) hrun'

instance decidableSpared : ∀ (s : JoinedPool) (e : Event), Decidable (Spared s e)
  | s, .pushAndJoin => inferInstanceAs (Decidable (s.pool.shutdown = false))
  | s, .worker i _ =>
    match hp : s.pool.workers[i]? with
    | some (.ran t) => decidable_of_iff (t ∉ s.threw)
        ⟨fun h u hu => by cases hp.symm.trans hu; exact h, fun h => h t hp⟩
    | some .starting | some .waiting | some (.holding _) | some (.running _)
    | some .returning | some .exited | none => .isTrue fun u hu => nomatch hp.symm.trans hu
  | s, .drain => inferInstanceAs (Decidable (∀ t ∈ s.pool.queue, s.handshake t = none))
  | _, .push | _, .initShutdown | _, .join _ => .isTrue trivial

/-- One call, from `push` to the `delete` of the worker. -/
def oneCall : List Event :=
  [.pushAndJoin, .worker 0 false, .worker 0 false, .worker 0 false, .join 0, .worker 0 false,
    .worker 0 false]

theorem joined_owned_oneCall :
    ∃ s, run step (init 1) oneCall = some s ∧ s.handshake 0 = some .returned ∧ s.Destroyed 0 ∧
      ∀ es' s', es' <+: oneCall → run step (init 1) es' = some s' → Owned s' := by
  obtain ⟨s, hrun, hre, hde⟩ : ∃ s, run step (init 1) oneCall = some s ∧
      s.handshake 0 = some .returned ∧ 0 ∈ s.pool.deleted := by decide +kernel
  exact ⟨s, hrun, hre, .inl hde, (joined_owned_iff 1 oneCall s hrun).mpr (by decide +kernel)⟩

/-- The caller waits in a `SyncedTask` that the destructor has deleted; a call after the shutdown
has its task deleted. -/
theorem joined_deleted :
    (∃ s, run step (init 1) [.pushAndJoin, .initShutdown, .worker 0 false, .drain] = some s ∧
      s.handshake 0 = some .waiting ∧ s.Destroyed 0) ∧
    ∃ s, run step (init 1) [.initShutdown, .pushAndJoin] = some s ∧ s.refused = 1 := by
  unfold JoinedPool.Destroyed
  decide +kernel

end JoinedPool

end WorkerPool

end GradidoNode
