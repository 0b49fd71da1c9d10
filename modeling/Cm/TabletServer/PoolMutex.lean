import Cm.TabletServer.PoolClients

/-!
# `CachePool`'s mutex

`Open`, the `getPool` of `Close`, `Get` and `Put`, and the final block of `Close` run under
`cp.mu`; `pool.Close()`, `pool.Get()` and `pool.Put()` run without it. A goroutine takes the
mutex at the start of its section, and the section runs when the goroutine gives the mutex back.
From a free mutex each step of the client system is one or two steps of this system, and each
state this system reaches is one the client system reaches; from every one, all `Put` calls and
`Close` calls in flight finish.
-/

namespace Cm.TabletServer

/-- Whether `e` runs under `cp.mu` and its goroutine is at it: anyone can call `Open` and
`Close`, a client at `Get` is idle, a client at `Put` holds a connection, and a `Close` call is at
its final block once its pool is drained. -/
def ClientSystem.atLockedSection (s : ClientSystem) : ClientEvent → Bool
  | .pool .callOpen | .pool .callClose => true
  | .pool (.advance call) =>
    match s.pools.closes[call]? with
    | some (.drained _) => true
    | _ => false
  | .callGet i =>
    match s.clients[i]? with
    | some .idle => true
    | _ => false
  | .callPut i =>
    match s.clients[i]? with
    | some (.holding _) => true
    | _ => false
  | .poolGet _ | .poolPut _ => false

/-- Whether `e` runs without `cp.mu`: the `pool.Close()` of a `Close` call, `pool.Get()` and
`pool.Put()`. -/
def ClientSystem.unlockedStep (s : ClientSystem) : ClientEvent → Bool
  | .pool (.advance call) =>
    match s.pools.closes[call]? with
    | some (.snapshotted _) => true
    | _ => false
  | .poolGet _ | .poolPut _ => true
  | _ => false

/-- The client system and `cp.mu`, free or held by a goroutine at the section `holder`. -/
structure LockedSystem where
  system : ClientSystem
  holder : Option ClientEvent
  deriving DecidableEq, Repr

inductive LockedEvent
  | lock (e : ClientEvent)
  | unlock
  | unlocked (e : ClientEvent)
  deriving DecidableEq, Repr

/-- `cp.mu.Lock()` at a section, which waits while the mutex is held; the holder's section and
`cp.mu.Unlock()`; a step without the mutex. `none` where it waits, panics or exits. -/
def LockedSystem.step (s : LockedSystem) : LockedEvent → Option LockedSystem
  | .lock e =>
    if s.holder.isNone && s.system.atLockedSection e then some { s with holder := some e }
    else none
  | .unlock =>
    match s.holder with
    | some e => (s.system.step e).map fun system => ⟨system, none⟩
    | none => none
  | .unlocked e =>
    if s.system.unlockedStep e then (s.system.step e).map fun system => { s with system }
    else none

def LockedSystem.run (s : LockedSystem) (events : List LockedEvent) : Option LockedSystem :=
  events.foldlM LockedSystem.step s

/-- No call panics or exits the process, and no `Open` runs while a `Close` call is in flight:
`Open` takes the mutex only with no pool open and no `Close` call in flight, and `Get` only with
a pool open. -/
def LockedSystem.Orderly (s : LockedSystem) : LockedEvent → Prop
  | .lock (.pool .callOpen) => s.system.pools.Quiet ∧ s.system.pools.cp.pool = none
  | .lock (.callGet _) => s.system.pools.cp.pool ≠ none
  | _ => True

/-- The states orderly events reach from a new `CachePool`, `clients` idle clients and a free
mutex. -/
inductive LockedSystem.Reachable (clients : Nat) : LockedSystem → Prop
  | initial : LockedSystem.Reachable clients ⟨ClientSystem.initial clients, none⟩
  | step {s t : LockedSystem} {e : LockedEvent} : LockedSystem.Reachable clients s →
      s.Orderly e → s.step e = some t → LockedSystem.Reachable clients t

theorem LockedSystem.run_append (s : LockedSystem) (first second : List LockedEvent) :
    s.run (first ++ second) = (s.run first).bind fun t => t.run second :=
  List.foldlM_append _ _ _ _

/-! ## What one event does -/

theorem LockedSystem.step_lock {s t : LockedSystem} {e : ClientEvent}
    (h : s.step (.lock e) = some t) :
    s.holder = none ∧ s.system.atLockedSection e = true ∧ t = { s with holder := some e } := by
  simp only [LockedSystem.step] at h
  split at h
  · rename_i hFree
    simp only [Bool.and_eq_true, Option.isNone_iff_eq_none] at hFree
    exact ⟨hFree.1, hFree.2, (Option.some.inj h).symm⟩
  · cases h

theorem LockedSystem.step_unlock {s t : LockedSystem} (h : s.step .unlock = some t) :
    ∃ e, s.holder = some e ∧ s.system.step e = some t.system ∧ t.holder = none := by
  simp only [LockedSystem.step] at h
  split at h
  · rename_i e hHolder
    obtain ⟨system, hSystem, rfl⟩ := Option.map_eq_some'.mp h
    exact ⟨e, hHolder, hSystem, rfl⟩
  · cases h

theorem LockedSystem.step_unlocked {s t : LockedSystem} {e : ClientEvent}
    (h : s.step (.unlocked e) = some t) :
    s.system.unlockedStep e = true ∧ s.system.step e = some t.system ∧ t.holder = s.holder := by
  simp only [LockedSystem.step] at h
  split at h
  · obtain ⟨system, hSystem, rfl⟩ := Option.map_eq_some'.mp h
    exact ⟨‹_›, hSystem, rfl⟩
  · cases h

theorem getElem?_set_of_ne {α : Type} {l : List α} {i j : Nat} {a b : α} (c : α)
    (hi : l[i]? = some b) (hj : l[j]? = some a) (hab : a ≠ b) : (l.set i c)[j]? = some a := by
  have hij : i ≠ j := by
    rintro rfl
    exact hab (Option.some.inj (hj.symm.trans hi))
  rw [List.getElem?_set_ne hij]
  exact hj

theorem atLockedSection_of_frame {s t : ClientSystem} {e : ClientEvent}
    (hCloses : ∀ (call pool : Nat), s.pools.closes[call]? = some (.drained pool) →
      t.pools.closes[call]? = some (.drained pool))
    (hClients : ∀ (i : Nat) (c : Client), s.clients[i]? = some c →
      (c = .idle ∨ ∃ pool, c = .holding pool) → t.clients[i]? = some c)
    (h : s.atLockedSection e = true) : t.atLockedSection e = true := by
  cases e with
  | pool pe =>
    cases pe with
    | callOpen | callClose => rfl
    | advance call =>
      simp only [ClientSystem.atLockedSection] at h ⊢
      split at h
      · rw [hCloses _ _ ‹_›]
      · cases h
  | callGet i =>
    simp only [ClientSystem.atLockedSection] at h ⊢
    split at h
    · rw [hClients _ _ ‹_› (.inl rfl)]
    · cases h
  | callPut i =>
    simp only [ClientSystem.atLockedSection] at h ⊢
    split at h
    · rw [hClients _ _ ‹_› (.inr ⟨_, rfl⟩)]
    · cases h
  | poolGet | poolPut => cases h

theorem unlockedStep_frame {s t : ClientSystem} {e : ClientEvent}
    (hUnlocked : s.unlockedStep e = true) (hStep : s.step e = some t) :
    t.pools.cp.pool = s.pools.cp.pool ∧ (s.pools.Quiet → t.pools.Quiet) ∧
      ∀ e', s.atLockedSection e' = true → t.atLockedSection e' = true := by
  rcases ClientSystem.step_cases hStep with
    ⟨pe, pools, rfl, -, hPools, rfl⟩ | ⟨i, pool, rfl, -⟩ | ⟨i, pool, rfl, hClient, -, rfl⟩ |
    ⟨i, pool, rfl, -⟩ | ⟨i, pool, target, rfl, -⟩ | ⟨i, pool, target, rfl, hClient, rfl⟩
  · -- `pool.Close()` of a snapshot, the one pool event without the mutex
    obtain ⟨call, rfl⟩ : ∃ call, pe = .advance call := by
      cases pe with
      | advance call => exact ⟨call, rfl⟩
      | _ => cases hUnlocked
    rcases PoolSystem.step_advance hPools with ⟨q, hCall, rfl⟩ | ⟨q, hCall, -⟩
    · refine ⟨rfl, fun hQuiet => absurd (hQuiet _ (List.getElem?_mem hCall)) (by simp),
        fun e' => atLockedSection_of_frame (fun c p hc => ?_) (fun _ _ h _ => h)⟩
      exact getElem?_set_of_ne _ hCall hc (by simp)
    · simp [ClientSystem.unlockedStep, hCall] at hUnlocked
  · cases hUnlocked
  · -- `pool.Get()`: the client was getting, neither idle nor holding
    exact ⟨rfl, id, fun e' => atLockedSection_of_frame (fun _ _ h => h)
      fun j c hj hc => getElem?_set_of_ne _ hClient hj (by rintro rfl; simp at hc)⟩
  · cases hUnlocked
  · cases hUnlocked
  · -- `pool.Put()`: the client was putting, neither idle nor holding
    exact ⟨rfl, id, fun e' => atLockedSection_of_frame (fun _ _ h => h)
      fun j c hj hc => getElem?_set_of_ne _ hClient hj (by rintro rfl; simp at hc)⟩

/-! ## The holder's section always runs -/

/-- The client system is in a state it reaches on its own, and the holder's section can run:
its goroutine is at it, an `Open` finds no pool and no `Close` call in flight, and a `Get` finds
a pool. -/
structure LockedSystem.Sound (clients : Nat) (s : LockedSystem) : Prop where
  reachable : s.system.Reachable (fun s e => e = .pool .callOpen → s.pools.Quiet) clients
  at_section : ∀ e, s.holder = some e → s.system.atLockedSection e = true
  open_quiet : s.holder = some (.pool .callOpen) →
    s.system.pools.Quiet ∧ s.system.pools.cp.pool = none
  get_open : ∀ i, s.holder = some (.callGet i) → s.system.pools.cp.pool ≠ none

/-- No section under the mutex waits for another goroutine: the holder's section runs. -/
theorem LockedSystem.Sound.section_runs {clients : Nat} {s : LockedSystem}
    (hSound : s.Sound clients) {e : ClientEvent} (hHolder : s.holder = some e) :
    ∃ system, s.system.step e = some system := by
  have hAt := hSound.at_section e hHolder
  cases e with
  | pool pe =>
    cases pe with
    | callOpen =>
      simp [ClientSystem.step, ClientSystem.drainBlocked, PoolSystem.step, CachePool.openPool,
        (hSound.open_quiet hHolder).2]
    | callClose =>
      cases hPool : s.system.pools.cp.pool <;>
        simp [ClientSystem.step, ClientSystem.drainBlocked, PoolSystem.step, CachePool.getPool,
          hPool]
    | advance call =>
      simp only [ClientSystem.atLockedSection] at hAt
      split at hAt
      · simp [ClientSystem.step, ClientSystem.drainBlocked, PoolSystem.step, *]
      · cases hAt
  | callGet i =>
    obtain ⟨pool, hPool⟩ := Option.ne_none_iff_exists'.mp (hSound.get_open i hHolder)
    simp only [ClientSystem.atLockedSection] at hAt
    split at hAt
    · simp [ClientSystem.step, CachePool.getPool, hPool, *]
    · cases hAt
  | callPut i =>
    simp only [ClientSystem.atLockedSection] at hAt
    split at hAt
    · cases hPool : s.system.pools.cp.pool <;>
        simp [ClientSystem.step, CachePool.getPool, hPool, *]
    · cases hAt
  | poolGet | poolPut => cases hAt

theorem LockedSystem.sound_initial (clients : Nat) :
    (⟨ClientSystem.initial clients, none⟩ : LockedSystem).Sound clients :=
  ⟨.initial, (fun _ h => by cases h), (fun h => by cases h), (fun _ h => by cases h)⟩

theorem LockedSystem.sound_step {clients : Nat} {s t : LockedSystem} {e : LockedEvent}
    (hSound : s.Sound clients) (hOrderly : s.Orderly e) (hStep : s.step e = some t) :
    t.Sound clients := by
  cases e with
  | lock e =>
    obtain ⟨-, hAt, rfl⟩ := LockedSystem.step_lock hStep
    refine ⟨hSound.reachable, fun _ h => Option.some.inj h ▸ hAt, fun h => ?_, fun i h => ?_⟩
    · cases Option.some.inj h
      exact hOrderly
    · cases Option.some.inj h
      exact hOrderly
  | unlock =>
    obtain ⟨e, hHolder, hSystem, hFree⟩ := LockedSystem.step_unlock hStep
    refine ⟨hSound.reachable.step (fun hOpen => ?_) hSystem, fun _ h => by simp [hFree] at h,
      fun h => by simp [hFree] at h, fun _ h => by simp [hFree] at h⟩
    exact (hSound.open_quiet (hOpen ▸ hHolder)).1
  | unlocked e =>
    obtain ⟨hUnlocked, hSystem, hHolder⟩ := LockedSystem.step_unlocked hStep
    obtain ⟨hPool, hQuiet, hAt⟩ := unlockedStep_frame hUnlocked hSystem
    refine ⟨hSound.reachable.step (fun hOpen => ?_) hSystem,
      fun e' h => hAt e' (hSound.at_section e' (hHolder ▸ h)), fun h => ?_,
      fun i h => hPool ▸ hSound.get_open i (hHolder ▸ h)⟩
    · subst hOpen
      cases hUnlocked
    · obtain ⟨hQuietS, hNone⟩ := hSound.open_quiet (hHolder ▸ h)
      exact ⟨hQuiet hQuietS, hPool ▸ hNone⟩

theorem LockedSystem.Reachable.sound {clients : Nat} {s : LockedSystem}
    (hReach : s.Reachable clients) : s.Sound clients := by
  induction hReach with
  | initial => exact LockedSystem.sound_initial clients
  | step _ hOrderly hStep inductionHypothesis =>
    exact LockedSystem.sound_step inductionHypothesis hOrderly hStep

/-! ## The client system's steps under the mutex -/

theorem atLockedSection_of_step {s t : ClientSystem} {e : ClientEvent} (hStep : s.step e = some t)
    (hLocked : s.unlockedStep e = false) : s.atLockedSection e = true := by
  cases e with
  | pool pe =>
    cases pe with
    | callOpen | callClose => rfl
    | advance call =>
      simp only [ClientSystem.step] at hStep
      split at hStep
      · cases hStep
      · obtain ⟨pools, hPools, -⟩ := Option.map_eq_some'.mp hStep
        rcases PoolSystem.step_advance hPools with ⟨q, hCall, -⟩ | ⟨q, hCall, -⟩
        · simp [ClientSystem.unlockedStep, hCall] at hLocked
        · simp [ClientSystem.atLockedSection, hCall]
  | callGet i =>
    simp only [ClientSystem.step] at hStep
    split at hStep
    · simp [ClientSystem.atLockedSection, *]
    · cases hStep
  | callPut i =>
    simp only [ClientSystem.step] at hStep
    split at hStep
    · simp [ClientSystem.atLockedSection, *]
    · cases hStep
  | poolGet | poolPut => cases hLocked

/-- From a free mutex, every step of the client system is taken with the mutex, by a section
under it, or without it. -/
theorem LockedSystem.step_of_free {s t : ClientSystem} {e : ClientEvent}
    (hStep : s.step e = some t) :
    (⟨s, none⟩ : LockedSystem).run [.lock e, .unlock] = some ⟨t, none⟩ ∨
      (⟨s, none⟩ : LockedSystem).run [.unlocked e] = some ⟨t, none⟩ := by
  cases hUnlocked : s.unlockedStep e
  · have hAt := atLockedSection_of_step hStep hUnlocked
    left
    simp [LockedSystem.run, LockedSystem.step, hAt, hStep]
  · right
    simp [LockedSystem.run, LockedSystem.step, hUnlocked, hStep]

/-- From a free mutex, every schedule of the client system is one of the locked system. -/
theorem LockedSystem.run_of_free {s t : ClientSystem} {events : List ClientEvent}
    (hRun : s.run events = some t) :
    ∃ locked, (∀ e ∈ locked, e = .unlock ∨ ∃ e' ∈ events, e = .lock e' ∨ e = .unlocked e') ∧
      (⟨s, none⟩ : LockedSystem).run locked = some ⟨t, none⟩ := by
  induction events generalizing s with
  | nil => exact ⟨[], by simp, by cases hRun; rfl⟩
  | cons e events inductionHypothesis =>
    obtain ⟨next, hNext, hRest⟩ := Option.bind_eq_some.mp (ClientSystem.run_cons s e events ▸ hRun)
    obtain ⟨locked, hLocked, hRunLocked⟩ := inductionHypothesis hRest
    obtain ⟨first, hFirstEvents, hFirst⟩ : ∃ first : List LockedEvent,
        (∀ l ∈ first, l = .unlock ∨ l = .lock e ∨ l = .unlocked e) ∧
          (⟨s, none⟩ : LockedSystem).run first = some ⟨next, none⟩ := by
      rcases LockedSystem.step_of_free hNext with h | h <;> exact ⟨_, by simp, h⟩
    refine ⟨first ++ locked, fun l hl => ?_,
      by rw [LockedSystem.run_append, hFirst]; exact hRunLocked⟩
    rcases List.mem_append.mp hl with hl | hl
    · exact (hFirstEvents l hl).imp_right fun h => ⟨e, .head _, h⟩
    · exact (hLocked l hl).imp_right fun ⟨e', he', h⟩ => ⟨e', .tail _ he', h⟩

/-! ## Every `Put` and every `Close` call can finish -/

/-- When no call panics or exits and no `Open` runs while a `Close` call is in flight, from every
state of every schedule the mutex's holder finishes its section, the clients holding a
connection put it back, and every `Close` call in flight returns, with no `Get` or `Open` in
between: `pool.Close()`, which waits for the connections in use, runs without the mutex, which
`Put` needs. Afterwards the mutex is free, no connection is in use, none was dropped, and no
`Close` call is left. -/
theorem puts_and_closes_complete (clients : Nat) (s : LockedSystem)
    (hReach : s.Reachable clients) :
    ∃ events t, (∀ e ∈ events, e = .unlock ∨ ∃ i ce, (e = .lock ce ∨ e = .unlocked ce) ∧
        (ce = .callPut i ∨ ce = .poolPut i ∨ ce = .pool (.advance i))) ∧
      s.run events = some t ∧ t.holder = none ∧ t.system.inUse = [] ∧ t.system.dropped = [] ∧
      t.system.pools.Quiet ∧ ∀ c ∈ t.system.clients, c.held = none := by
  have hSound := hReach.sound
  -- the holder's section runs and frees the mutex
  obtain ⟨first, free, hFirst, hRunFirst, hFree⟩ : ∃ first free, (∀ e ∈ first, e = .unlock) ∧
      s.run first = some ⟨free, none⟩ ∧
      free.Reachable (fun s e => e = .pool .callOpen → s.pools.Quiet) clients := by
    cases hHolder : s.holder with
    | none => exact ⟨[], s.system, by simp, by rw [← hHolder]; rfl, hSound.reachable⟩
    | some e =>
      obtain ⟨system, hSystem⟩ := hSound.section_runs hHolder
      refine ⟨[.unlock], system, by simp, ?_,
        hSound.reachable.step (fun hOpen => (hSound.open_quiet (hOpen ▸ hHolder)).1) hSystem⟩
      simp [LockedSystem.run, LockedSystem.step, hHolder, hSystem]
  obtain ⟨events, t, hEvents, hRun, hFreeT, hDropped, hQuiet, hIdle⟩ :=
    exists_puts_and_closes free hFree.served
  obtain ⟨locked, hLocked, hRunLocked⟩ := LockedSystem.run_of_free hRun
  refine ⟨first ++ locked, ⟨t, none⟩, fun e hMem => ?_,
    by rw [LockedSystem.run_append, hRunFirst]; exact hRunLocked, rfl, hFreeT, hDropped, hQuiet,
    hIdle⟩
  rcases List.mem_append.mp hMem with hMem | hMem
  · exact .inl (hFirst e hMem)
  · refine (hLocked e hMem).imp_right fun ⟨ce, hce, he⟩ => ?_
    obtain ⟨i, hi⟩ := hEvents ce hce
    exact ⟨i, ce, he, hi⟩

/-- A client has taken the mutex for `Put` while a `Close` call waits for its connection to
drain: the `Put` and the `Close` call both finish. -/
theorem puts_and_closes_complete_put_holds_mutex :
    ∃ events t, (∀ e ∈ events, e = .unlock ∨ ∃ i ce, (e = .lock ce ∨ e = .unlocked ce) ∧
        (ce = .callPut i ∨ ce = .poolPut i ∨ ce = .pool (.advance i))) ∧
      LockedSystem.run ⟨⟨⟨⟨some 0, some 0, 1, [], []⟩, [.snapshotted 0]⟩, [.holding 0], [0], []⟩,
        some (.callPut 0)⟩ events = some t ∧
      t.holder = none ∧ t.system.inUse = [] ∧ t.system.dropped = [] ∧ t.system.pools.Quiet ∧
      ∀ c ∈ t.system.clients, c.held = none :=
  puts_and_closes_complete 1 _
    (.step (e := .lock (.callPut 0))
      (.step (t := ⟨⟨⟨⟨some 0, some 0, 1, [], []⟩, [.snapshotted 0]⟩, [.holding 0], [0], []⟩,
          none⟩) (e := .unlock)
        (.step (t := ⟨⟨⟨⟨some 0, some 0, 1, [], []⟩, []⟩, [.holding 0], [0], []⟩,
            some (.pool .callClose)⟩) (e := .lock (.pool .callClose))
          (.step (t := ⟨⟨⟨⟨some 0, some 0, 1, [], []⟩, []⟩, [.holding 0], [0], []⟩, none⟩)
              (e := .unlocked (.poolGet 0))
            (.step (t := ⟨⟨⟨⟨some 0, some 0, 1, [], []⟩, []⟩, [.getting 0], [], []⟩, none⟩)
                (e := .unlock)
              (.step (t := ⟨⟨⟨⟨some 0, some 0, 1, [], []⟩, []⟩, [.idle], [], []⟩,
                  some (.callGet 0)⟩) (e := .lock (.callGet 0))
                (.step (t := ⟨⟨⟨⟨some 0, some 0, 1, [], []⟩, []⟩, [.idle], [], []⟩, none⟩)
                    (e := .unlock)
                  (.step (t := ⟨ClientSystem.initial 1, some (.pool .callOpen)⟩)
                      (e := .lock (.pool .callOpen)) .initial
                    ⟨(fun _ hMem => by cases hMem), rfl⟩ rfl)
                  trivial rfl)
                (fun h => by cases h) rfl)
              trivial rfl)
            trivial rfl)
          trivial rfl)
        trivial rfl)
      trivial rfl)

end Cm.TabletServer
