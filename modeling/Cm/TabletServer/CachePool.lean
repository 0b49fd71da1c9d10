import Mathlib.Data.List.Basic

/-!
# `CachePool.Open` and `CachePool.Close` under concurrency

`Open` runs its whole body under the mutex: it panics when a pool is open, otherwise
`startMemcache` starts a memcache process (`cmd`) and a new pool is made. `Close` takes three
atomic steps: `getPool` snapshots the handle under the mutex (and returns when it is nil), the
unlocked `pool.Close()` closes the snapshot, and the final locked block kills the process in
`cmd` and drops the pool unless the pool is already nil.

A pool handle and the process started with it are named by the number of the `Open` that
made them. The system is the shared `CachePool` and the `Close` calls in flight; an event is
an `Open` call, the start of a `Close` call, or the next step of a `Close` call in flight.
-/

namespace Cm.TabletServer

/-- The fields `Open` and `Close` read and write, and what has been done to the handles:
`closedPools` are the handles `pool.Close()` was called on, `killedCmds` the processes
`cmd.Process.Kill()` was called on, both in order. -/
structure CachePool where
  pool : Option Nat
  cmd : Option Nat
  opened : Nat
  closedPools : List Nat
  killedCmds : List Nat
  deriving DecidableEq, Repr

/-- A `Close` call after its `getPool` returned a handle. -/
inductive CloseCall
  | snapshotted (pool : Nat)
  | drained (pool : Nat)
  | returned
  deriving DecidableEq, Repr

/-- The shared pool and the `Close` calls that have started, in order. -/
structure PoolSystem where
  cp : CachePool
  closes : List CloseCall
  deriving DecidableEq, Repr

inductive PoolEvent
  | callOpen
  | callClose
  | advance (call : Nat)
  deriving DecidableEq, Repr

/-- `Open`, under the mutex: a panic when a pool is open; otherwise a new process and pool. -/
def CachePool.openPool (cp : CachePool) : Option CachePool :=
  match cp.pool with
  | some _ => none
  | none => some { cp with pool := some cp.opened, cmd := some cp.opened, opened := cp.opened + 1 }

/-- `getPool`: the handle, read under the mutex. -/
def CachePool.getPool (cp : CachePool) : Option Nat := cp.pool

/-- The locked block that ends `Close`: nothing when the pool is nil, otherwise the process in
`cmd` killed and the pool dropped. `startMemcache` sets `cmd` before any pool is made. -/
def CachePool.closeLocked (cp : CachePool) : CachePool :=
  match cp.pool with
  | none => cp
  | some _ => { cp with killedCmds := cp.killedCmds ++ cp.cmd.toList, pool := none }

/-- One event; `none` for a panic, or for a step of a call that has none left. -/
def PoolSystem.step (s : PoolSystem) : PoolEvent → Option PoolSystem
  | .callOpen => s.cp.openPool.map fun cp => { s with cp }
  | .callClose =>
    match s.cp.getPool with
    | none => some s
    | some pool => some { s with closes := s.closes ++ [.snapshotted pool] }
  | .advance call =>
    match s.closes[call]? with
    | some (.snapshotted pool) =>
      some ⟨{ s.cp with closedPools := s.cp.closedPools ++ [pool] },
        s.closes.set call (.drained pool)⟩
    | some (.drained _) => some ⟨s.cp.closeLocked, s.closes.set call .returned⟩
    | _ => none

/-- A schedule of events. -/
def PoolSystem.run (s : PoolSystem) (events : List PoolEvent) : Option PoolSystem :=
  events.foldlM PoolSystem.step s

/-- A new `CachePool`: no pool, no process. -/
def PoolSystem.initial : PoolSystem := ⟨⟨none, none, 0, [], []⟩, []⟩

/-- Two `Close` calls snapshot the first pool; the first finishes, `Open` makes a second pool,
and the second `Close` then kills the second pool's process and drops that pool, which no
`pool.Close()` ever closed. -/
theorem close_open_close_kills_new_memcache :
    (PoolSystem.initial.run [.callOpen, .callClose, .callClose, .advance 0, .advance 0,
        .callOpen, .advance 1, .advance 1]).map
      (fun s => (s.cp.pool, s.cp.closedPools, s.cp.killedCmds)) =
      some (none, [0, 0], [0, 1]) := by
  decide

/-! ## Interleavings where no `Open` overlaps a `Close` -/

/-- What one event can do. -/
theorem step_cases {s s' : PoolSystem} {e : PoolEvent} (h : s.step e = some s') :
    (e = .callOpen ∧ s.cp.pool = none ∧ s' = ⟨{ s.cp with
      pool := some s.cp.opened, cmd := some s.cp.opened, opened := s.cp.opened + 1 }, s.closes⟩) ∨
    (e = .callClose ∧ s.cp.pool = none ∧ s' = s) ∨
    (∃ pool, e = .callClose ∧ s.cp.pool = some pool ∧
      s' = ⟨s.cp, s.closes ++ [.snapshotted pool]⟩) ∨
    (∃ call pool, s.closes[call]? = some (.snapshotted pool) ∧
      s' = ⟨{ s.cp with closedPools := s.cp.closedPools ++ [pool] },
        s.closes.set call (.drained pool)⟩) ∨
    (∃ call pool, s.closes[call]? = some (.drained pool) ∧
      s' = ⟨s.cp.closeLocked, s.closes.set call .returned⟩) := by
  cases e with
  | callOpen =>
    simp only [PoolSystem.step, CachePool.openPool] at h
    split at h
    · cases h
    · rename_i hPool
      exact .inl ⟨rfl, hPool, (Option.some.inj h).symm⟩
  | callClose =>
    simp only [PoolSystem.step, CachePool.getPool] at h
    split at h
    · rename_i hPool
      exact .inr (.inl ⟨rfl, hPool, (Option.some.inj h).symm⟩)
    · rename_i pool hPool
      exact .inr (.inr (.inl ⟨pool, rfl, hPool, (Option.some.inj h).symm⟩))
  | advance call =>
    simp only [PoolSystem.step] at h
    split at h
    · rename_i pool hCall
      exact .inr (.inr (.inr (.inl ⟨call, pool, hCall, (Option.some.inj h).symm⟩)))
    · rename_i pool hCall
      exact .inr (.inr (.inr (.inr ⟨call, pool, hCall, (Option.some.inj h).symm⟩)))
    · cases h

/-- No `Close` call is between its `getPool` and its return. -/
def PoolSystem.Quiet (s : PoolSystem) : Prop := ∀ call ∈ s.closes, call = .returned

/-- The states the events that `allowed` lets through reach from a new `CachePool`. -/
inductive PoolSystem.Reachable (allowed : PoolSystem → PoolEvent → Prop) : PoolSystem → Prop
  | initial : PoolSystem.Reachable allowed PoolSystem.initial
  | step {s t : PoolSystem} {e : PoolEvent} : PoolSystem.Reachable allowed s → allowed s e →
      s.step e = some t → PoolSystem.Reachable allowed t

/-- The pool and the process go together, every killed process's pool was closed first, and a
`Close` call in flight sees either no pool or the one it snapshotted, which it has closed once
it is drained. -/
structure PoolSystem.Safe (s : PoolSystem) : Prop where
  cmd_of_pool : ∀ pool, s.cp.pool = some pool → s.cp.cmd = some pool
  killed_closed : ∀ cmd ∈ s.cp.killedCmds, cmd ∈ s.cp.closedPools
  drained_closed : ∀ pool, CloseCall.drained pool ∈ s.closes → pool ∈ s.cp.closedPools
  snapshot_current : ∀ pool, (CloseCall.snapshotted pool ∈ s.closes ∨
    CloseCall.drained pool ∈ s.closes) → s.cp.pool = none ∨ s.cp.pool = some pool

theorem initial_safe : PoolSystem.initial.Safe :=
  ⟨by simp [PoolSystem.initial], by simp [PoolSystem.initial], by simp [PoolSystem.initial],
    by simp [PoolSystem.initial]⟩

theorem step_safe {s s' : PoolSystem} {e : PoolEvent} (hSafe : s.Safe)
    (hOpen : e = .callOpen → s.Quiet) (hStep : s.step e = some s') : s'.Safe := by
  rcases step_cases hStep with ⟨rfl, hPool, rfl⟩ | ⟨-, -, rfl⟩ | ⟨pool, -, hPool, rfl⟩ |
    ⟨call, pool, hCall, rfl⟩ | ⟨call, pool, hCall, rfl⟩
  · -- `Open`: no `Close` call is in flight
    have hQuiet := hOpen rfl
    refine ⟨fun _ hNew => by cases hNew; rfl, hSafe.killed_closed, hSafe.drained_closed, ?_⟩
    rintro pool (hMem | hMem) <;> cases hQuiet _ hMem
  · exact hSafe
  · -- `getPool` of a new `Close` call
    refine ⟨hSafe.cmd_of_pool, hSafe.killed_closed, fun p hMem => ?_, fun p hMem => ?_⟩
    · exact hSafe.drained_closed p (by simpa using hMem)
    · simp only [List.mem_append, List.mem_singleton, CloseCall.snapshotted.injEq,
        reduceCtorEq, or_false] at hMem
      rcases hMem with (hMem | rfl) | hMem
      · exact hSafe.snapshot_current p (.inl hMem)
      · exact .inr hPool
      · exact hSafe.snapshot_current p (.inr hMem)
  · -- `pool.Close()` of a snapshot
    have hOld := hSafe.snapshot_current pool (.inl (List.getElem?_mem hCall))
    refine ⟨hSafe.cmd_of_pool,
      fun cmd hCmd => List.mem_append_left _ (hSafe.killed_closed cmd hCmd), fun p hMem => ?_,
      fun p hMem => ?_⟩
    · rcases List.mem_or_eq_of_mem_set hMem with hMem | hNew
      · exact List.mem_append_left _ (hSafe.drained_closed p hMem)
      · cases hNew
        exact List.mem_append_right _ (List.mem_singleton_self _)
    · rcases hMem with hMem | hMem <;> rcases List.mem_or_eq_of_mem_set hMem with hMem | hNew
      · exact hSafe.snapshot_current p (.inl hMem)
      · cases hNew
      · exact hSafe.snapshot_current p (.inr hMem)
      · cases hNew
        exact hOld
  · -- the locked block of a drained call
    have hClosed := hSafe.drained_closed pool (List.getElem?_mem hCall)
    have hOthers : ∀ p, CloseCall.drained p ∈ s.closes.set call .returned →
        CloseCall.drained p ∈ s.closes :=
      fun p hMem => (List.mem_or_eq_of_mem_set hMem).resolve_right CloseCall.noConfusion
    rcases hSafe.snapshot_current pool (.inr (List.getElem?_mem hCall)) with hNone | hSome
    · rw [show s.cp.closeLocked = s.cp by simp [CachePool.closeLocked, hNone]]
      exact ⟨hSafe.cmd_of_pool, hSafe.killed_closed,
        fun p hMem => hSafe.drained_closed p (hOthers p hMem), fun _ _ => .inl hNone⟩
    · rw [show s.cp.closeLocked =
          { s.cp with killedCmds := s.cp.killedCmds ++ [pool], pool := none } by
        simp [CachePool.closeLocked, hSome, hSafe.cmd_of_pool pool hSome]]
      refine ⟨by simp, fun cmd hCmd => ?_, fun p hMem => hSafe.drained_closed p (hOthers p hMem),
        fun _ _ => .inl rfl⟩
      rcases List.mem_append.mp hCmd with hCmd | hCmd
      · exact hSafe.killed_closed cmd hCmd
      · exact List.mem_singleton.mp hCmd ▸ hClosed

/-- When no `Open` runs while a `Close` call is in flight, no memcache process is ever killed
before its pool was closed, and a `Close` call drops only the pool it snapshotted and closed. -/
theorem killed_after_closed_without_overlap (s : PoolSystem)
    (hReach : s.Reachable fun s e => e = .callOpen → s.Quiet) :
    (∀ cmd ∈ s.cp.killedCmds, cmd ∈ s.cp.closedPools) ∧
      ∀ pool, CloseCall.drained pool ∈ s.closes →
        pool ∈ s.cp.closedPools ∧ (s.cp.pool = none ∨ s.cp.pool = some pool) := by
  have hSafe : s.Safe := by
    induction hReach with
    | initial => exact initial_safe
    | step _ hAllowed hStep inductionHypothesis =>
      exact step_safe inductionHypothesis hAllowed hStep
  exact ⟨hSafe.killed_closed, fun pool hMem =>
    ⟨hSafe.drained_closed pool hMem, hSafe.snapshot_current pool (.inr hMem)⟩⟩

theorem killed_after_closed_open_then_close :
    (∀ cmd ∈ [0], cmd ∈ [0]) ∧
      ∀ pool, CloseCall.drained pool ∈ [CloseCall.returned] →
        pool ∈ [0] ∧ ((none : Option Nat) = none ∨ (none : Option Nat) = some pool) :=
  killed_after_closed_without_overlap ⟨⟨none, some 0, 1, [0], [0]⟩, [.returned]⟩
    (.step (e := .advance 0)
      (.step (t := ⟨⟨some 0, some 0, 1, [0], []⟩, [.drained 0]⟩) (e := .advance 0)
        (.step (t := ⟨⟨some 0, some 0, 1, [], []⟩, [.snapshotted 0]⟩) (e := .callClose)
          (.step (t := ⟨⟨some 0, some 0, 1, [], []⟩, []⟩) (e := .callOpen) .initial
            (fun _ _ hMem => by cases hMem) rfl)
          (fun h => by cases h) rfl)
        (fun h => by cases h) rfl)
      (fun h => by cases h) rfl)

end Cm.TabletServer
