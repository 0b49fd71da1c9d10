import Cm.TabletServer.CachePool

/-!
# The cache pool's connections under `Close`

`Get` and `Put` snapshot the pool handle with `getPool`: `Get` exits the process on a nil handle
or a closed pool, and `Put` returns without putting its connection on a nil handle. The
unlocked `pool.Close()` of every `Close` call returns only once its pool counts no connection in
use, and a closed pool fails `Get`. When no `Open` runs while a `Close` call is in flight, every
`Put` finds the pool its connection came from (`connections_return_home`).
-/

namespace Cm.TabletServer

/-- Where a client is in `Get` and `Put`: `getting pool` after `Get`'s `getPool` returned
`pool`, `holding pool` with a connection of `pool`, and `putting pool target` after `Put`'s
`getPool` returned `target`. -/
inductive Client
  | idle
  | getting (pool : Nat)
  | holding (pool : Nat)
  | putting (pool target : Nat)
  deriving DecidableEq, Repr

/-- The pool whose connection a client holds. -/
def Client.held : Client → Option Nat
  | .holding pool | .putting pool _ => some pool
  | _ => none

/-- The pool system and its clients. `inUse` has one entry per connection a pool counts as in
use, that pool's handle; `dropped` holds the pools of the connections `Put` did not put. -/
structure ClientSystem where
  pools : PoolSystem
  clients : List Client
  inUse : List Nat
  dropped : List Nat
  deriving DecidableEq, Repr

inductive ClientEvent
  | pool (e : PoolEvent)
  | callGet (client : Nat)
  | poolGet (client : Nat)
  | callPut (client : Nat)
  | poolPut (client : Nat)
  deriving DecidableEq, Repr

/-- Whether `e` is the unlocked `pool.Close()` of a pool that still counts a connection in
use. It waits for the connection in every `Close` call, also in a second one of a pool that
another call is closing: the spec's close protocol drains the pool before each final block. -/
def ClientSystem.drainBlocked (s : ClientSystem) : PoolEvent → Bool
  | .advance call =>
    match s.pools.closes[call]? with
    | some (.snapshotted pool) => pool ∈ s.inUse
    | _ => false
  | _ => false

/-- One event; `none` where it blocks, panics or exits the process, or where the client or the
call is not at that step. -/
def ClientSystem.step (s : ClientSystem) : ClientEvent → Option ClientSystem
  | .pool e => if s.drainBlocked e then none else (s.pools.step e).map fun pools => { s with pools }
  | .callGet i =>
    match s.clients[i]?, s.pools.cp.getPool with
    | some .idle, some pool => some { s with clients := s.clients.set i (.getting pool) }
    | _, _ => none
  | .poolGet i =>
    match s.clients[i]? with
    | some (.getting pool) =>
      if pool ∈ s.pools.cp.closedPools then none
      else some { s with clients := s.clients.set i (.holding pool), inUse := s.inUse ++ [pool] }
    | _ => none
  | .callPut i =>
    match s.clients[i]? with
    | some (.holding pool) =>
      match s.pools.cp.getPool with
      | none => some { s with clients := s.clients.set i .idle, dropped := s.dropped ++ [pool] }
      | some target => some { s with clients := s.clients.set i (.putting pool target) }
    | _ => none
  | .poolPut i =>
    match s.clients[i]? with
    | some (.putting _ target) =>
      some { s with clients := s.clients.set i .idle, inUse := s.inUse.erase target }
    | _ => none

/-- A schedule of events. -/
def ClientSystem.run (s : ClientSystem) (events : List ClientEvent) : Option ClientSystem :=
  events.foldlM ClientSystem.step s

/-- A new `CachePool` and `clients` idle clients. -/
def ClientSystem.initial (clients : Nat) : ClientSystem :=
  ⟨PoolSystem.initial, List.replicate clients .idle, [], []⟩

/-- The states the events that `allowed` lets through reach from a new `CachePool` with
`clients` clients. -/
inductive ClientSystem.Reachable (allowed : ClientSystem → ClientEvent → Prop) (clients : Nat) :
    ClientSystem → Prop
  | initial : ClientSystem.Reachable allowed clients (ClientSystem.initial clients)
  | step {s t : ClientSystem} {e : ClientEvent} : ClientSystem.Reachable allowed clients s →
      allowed s e → s.step e = some t → ClientSystem.Reachable allowed clients t

/-! ## What one event does -/

theorem closedPools_closeLocked (cp : CachePool) : cp.closeLocked.closedPools = cp.closedPools := by
  unfold CachePool.closeLocked
  split <;> rfl

theorem PoolSystem.step_callOpen {s t : PoolSystem} (h : s.step .callOpen = some t) :
    s.cp.pool = none ∧ t = ⟨{ s.cp with
        pool := some s.cp.opened, cmd := some s.cp.opened, opened := s.cp.opened + 1 },
      s.closes⟩ := by
  simp only [PoolSystem.step, CachePool.openPool] at h
  split at h
  · cases h
  · exact ⟨‹_›, (Option.some.inj h).symm⟩

theorem PoolSystem.cp_step_callClose {s t : PoolSystem} (h : s.step .callClose = some t) :
    t.cp = s.cp := by
  simp only [PoolSystem.step, CachePool.getPool] at h
  split at h <;> cases h <;> rfl

theorem PoolSystem.step_advance {s t : PoolSystem} {call : Nat}
    (h : s.step (.advance call) = some t) :
    (∃ pool, s.closes[call]? = some (.snapshotted pool) ∧
      t = ⟨{ s.cp with closedPools := s.cp.closedPools ++ [pool] },
        s.closes.set call (.drained pool)⟩) ∨
    (∃ pool, s.closes[call]? = some (.drained pool) ∧
      t = ⟨s.cp.closeLocked, s.closes.set call .returned⟩) := by
  simp only [PoolSystem.step] at h
  split at h
  · exact .inl ⟨_, ‹_›, (Option.some.inj h).symm⟩
  · exact .inr ⟨_, ‹_›, (Option.some.inj h).symm⟩
  · cases h

theorem ClientSystem.step_cases {s t : ClientSystem} {e : ClientEvent} (h : s.step e = some t) :
    (∃ pe pools, e = .pool pe ∧ s.drainBlocked pe = false ∧ s.pools.step pe = some pools ∧
      t = { s with pools }) ∨
    (∃ i pool, e = .callGet i ∧ s.clients[i]? = some .idle ∧ s.pools.cp.pool = some pool ∧
      t = { s with clients := s.clients.set i (.getting pool) }) ∨
    (∃ i pool, e = .poolGet i ∧ s.clients[i]? = some (.getting pool) ∧
      pool ∉ s.pools.cp.closedPools ∧
      t = { s with clients := s.clients.set i (.holding pool), inUse := s.inUse ++ [pool] }) ∨
    (∃ i pool, e = .callPut i ∧ s.clients[i]? = some (.holding pool) ∧ s.pools.cp.pool = none ∧
      t = { s with clients := s.clients.set i .idle, dropped := s.dropped ++ [pool] }) ∨
    (∃ i pool target, e = .callPut i ∧ s.clients[i]? = some (.holding pool) ∧
      s.pools.cp.pool = some target ∧
      t = { s with clients := s.clients.set i (.putting pool target) }) ∨
    (∃ i pool target, e = .poolPut i ∧ s.clients[i]? = some (.putting pool target) ∧
      t = { s with clients := s.clients.set i .idle, inUse := s.inUse.erase target }) := by
  cases e with
  | pool pe =>
    simp only [ClientSystem.step] at h
    split at h
    · cases h
    · rename_i hBlocked
      obtain ⟨pools, hPools, rfl⟩ := Option.map_eq_some'.mp h
      exact .inl ⟨pe, pools, rfl, by simpa using hBlocked, hPools, rfl⟩
  | callGet i =>
    simp only [ClientSystem.step, CachePool.getPool] at h
    split at h
    · rename_i pool hClient hPool
      exact .inr (.inl ⟨i, pool, rfl, hClient, hPool, (Option.some.inj h).symm⟩)
    · cases h
  | poolGet i =>
    simp only [ClientSystem.step] at h
    split at h
    · rename_i pool hClient
      split at h
      · cases h
      · rename_i hOpen
        exact .inr (.inr (.inl ⟨i, pool, rfl, hClient, hOpen, (Option.some.inj h).symm⟩))
    · cases h
  | callPut i =>
    simp only [ClientSystem.step, CachePool.getPool] at h
    split at h
    · rename_i pool hClient
      split at h
      · rename_i hPool
        exact .inr (.inr (.inr (.inl ⟨i, pool, rfl, hClient, hPool, (Option.some.inj h).symm⟩)))
      · rename_i target hPool
        exact .inr (.inr (.inr (.inr (.inl
          ⟨i, pool, target, rfl, hClient, hPool, (Option.some.inj h).symm⟩))))
    · cases h
  | poolPut i =>
    simp only [ClientSystem.step] at h
    split at h
    · rename_i pool target hClient
      exact .inr (.inr (.inr (.inr (.inr
        ⟨i, pool, target, rfl, hClient, (Option.some.inj h).symm⟩))))
    · cases h

/-! ## Counting the connections in use -/

section Counting

variable {α β : Type} [DecidableEq β] (f : α → Option β)

theorem perm_filterMap_set {l : List α} {i : Nat} {a : α} (b : α) (h : l[i]? = some a) :
    ((l.set i b).filterMap f ++ (f a).toList).Perm (l.filterMap f ++ (f b).toList) := by
  induction l generalizing i with
  | nil => cases h
  | cons x xs inductionHypothesis =>
    cases i with
    | zero =>
      rw [List.getElem?_cons_zero, Option.some.injEq] at h
      subst h
      rw [List.perm_iff_count]
      intro y
      cases hx : f x <;> cases hb : f b <;> simp [List.filterMap_cons, List.count_cons, hx, hb]
      omega
    | succ i =>
      have hTail := inductionHypothesis (i := i) (by simpa using h)
      cases hx : f x <;> simpa [List.filterMap_cons, hx] using hTail

/-- The total weight of a list's entries. -/
def weight (w : α → Nat) : List α → Nat
  | [] => 0
  | x :: xs => w x + weight w xs

theorem weight_set (w : α → Nat) {l : List α} {i : Nat} {a : α} (b : α) (h : l[i]? = some a) :
    weight w (l.set i b) + w a = weight w l + w b := by
  induction l generalizing i with
  | nil => cases h
  | cons x xs inductionHypothesis =>
    cases i with
    | zero =>
      rw [List.getElem?_cons_zero, Option.some.injEq] at h
      subst h
      simp only [List.set_cons_zero, weight]
      omega
    | succ i =>
      have hTail := inductionHypothesis (i := i) (by simpa using h)
      simp only [List.set_cons_succ, weight]
      omega

end Counting

/-! ## No connection is lost -/

/-- What a client's step says about the pool: a pending `Get` saw the current pool unless that
pool is closed, and a held connection's pool is the current, unclosed pool, which a `Put`
targets. -/
def Client.Sound (cp : CachePool) : Client → Prop
  | .idle => True
  | .getting pool => pool ∈ cp.closedPools ∨ cp.pool = some pool
  | .holding pool => cp.pool = some pool ∧ pool ∉ cp.closedPools
  | .putting pool target => target = pool ∧ cp.pool = some pool ∧ pool ∉ cp.closedPools

theorem Client.sound_held {cp : CachePool} {c : Client} {pool : Nat} (hSound : c.Sound cp)
    (hHeld : c.held = some pool) : cp.pool = some pool ∧ pool ∉ cp.closedPools := by
  cases c <;> simp only [Client.held, Option.some.injEq, reduceCtorEq] at hHeld <;> subst hHeld
  · exact hSound
  · exact hSound.2

/-- The pool system is safe, the pools count in use exactly the connections the clients hold,
every client is sound, and no `Put` has dropped a connection. -/
structure ClientSystem.Served (s : ClientSystem) : Prop where
  safe : s.pools.Safe
  inUse_held : s.inUse.Perm (s.clients.filterMap Client.held)
  sound : ∀ c ∈ s.clients, c.Sound s.pools.cp
  none_dropped : s.dropped = []

theorem served_initial (clients : Nat) : (ClientSystem.initial clients).Served where
  safe := initial_safe
  inUse_held := by simp [ClientSystem.initial, List.filterMap_eq_nil_iff, Client.held]
  sound := by simp [ClientSystem.initial, Client.Sound]
  none_dropped := rfl

theorem served_pool_step {s : ClientSystem} {pe : PoolEvent} {pools : PoolSystem}
    (hServed : s.Served) (hOpen : pe = .callOpen → s.pools.Quiet)
    (hDrain : s.drainBlocked pe = false) (hStep : s.pools.step pe = some pools) :
    ({ s with pools } : ClientSystem).Served := by
  refine ⟨step_safe hServed.safe hOpen hStep, hServed.inUse_held, fun c hc => ?_,
    hServed.none_dropped⟩
  have hSound := hServed.sound c hc
  have hInUse : ∀ pool, c.held = some pool → pool ∈ s.inUse := fun pool hHeld =>
    hServed.inUse_held.mem_iff.mpr (List.mem_filterMap.mpr ⟨c, hc, hHeld⟩)
  cases pe with
  | callOpen =>
    -- no connection is held while the pool is nil
    obtain ⟨hPool, rfl⟩ := PoolSystem.step_callOpen hStep
    cases c <;> simp_all [Client.Sound]
  | callClose => rwa [PoolSystem.cp_step_callClose hStep]
  | advance call =>
    rcases PoolSystem.step_advance hStep with ⟨q, hCall, rfl⟩ | ⟨q, hCall, rfl⟩
    · -- `pool.Close()` of `q` returns once no connection of `q` is in use
      have hFree : q ∉ s.inUse := by simpa [ClientSystem.drainBlocked, hCall] using hDrain
      cases c <;> simp only [Client.held, Option.some.injEq, forall_eq'] at hInUse <;>
        simp only [Client.Sound, List.mem_append, List.mem_singleton] at hSound ⊢
      · exact hSound.imp_left .inl
      · exact ⟨hSound.1, not_or.mpr ⟨hSound.2, fun hEq => hFree (hEq ▸ hInUse)⟩⟩
      · exact ⟨hSound.1, hSound.2.1, not_or.mpr ⟨hSound.2.2, fun hEq => hFree (hEq ▸ hInUse)⟩⟩
    · -- the locked block of `q` finds no pool or `q`, which is closed
      have hCurrent : ∀ pool, s.pools.cp.pool = some pool → pool ∈ s.pools.cp.closedPools := by
        intro pool hPool
        rcases hServed.safe.snapshot_current q (.inr (List.getElem?_mem hCall)) with hNone | hSome
        · simp [hNone] at hPool
        · exact Option.some.inj (hPool.symm.trans hSome) ▸
            hServed.safe.drained_closed q (List.getElem?_mem hCall)
      cases c <;> simp only [Client.Sound, closedPools_closeLocked] at hSound ⊢
      · exact .inl (hSound.elim id (hCurrent _))
      · exact absurd (hCurrent _ hSound.1) hSound.2
      · exact absurd (hCurrent _ hSound.2.1) hSound.2.2

theorem forall_mem_set {α : Type} {P : α → Prop} {l : List α} (i : Nat) {b : α}
    (hl : ∀ c ∈ l, P c) (hb : P b) : ∀ c ∈ l.set i b, P c :=
  fun c hc => (List.mem_or_eq_of_mem_set hc).elim (hl c) (· ▸ hb)

theorem served_step {s t : ClientSystem} {e : ClientEvent} (hServed : s.Served)
    (hOpen : e = .pool .callOpen → s.pools.Quiet) (hStep : s.step e = some t) : t.Served := by
  have hSet := fun i (a b : Client) (h : s.clients[i]? = some a) =>
    perm_filterMap_set Client.held b h
  rcases ClientSystem.step_cases hStep with
    ⟨pe, pools, rfl, hDrain, hPools, rfl⟩ | ⟨i, pool, -, hClient, hPool, rfl⟩ |
    ⟨i, pool, -, hClient, hOpenPool, rfl⟩ | ⟨i, pool, -, hClient, hNone, rfl⟩ |
    ⟨i, pool, target, -, hClient, hTarget, rfl⟩ | ⟨i, pool, target, -, hClient, rfl⟩
  · exact served_pool_step hServed (fun hOpenEvent => hOpen (hOpenEvent ▸ rfl)) hDrain hPools
  · -- `Get`'s `getPool` returned the current pool
    refine ⟨hServed.safe, hServed.inUse_held.trans ?_,
      forall_mem_set i hServed.sound (.inr hPool), hServed.none_dropped⟩
    simpa [Client.held] using (hSet i _ (.getting pool) hClient).symm
  · -- `pool.Get()` on an unclosed pool, which is then the current one
    have hCurrent := ((hServed.sound _ (List.getElem?_mem hClient)).resolve_left hOpenPool)
    refine ⟨hServed.safe, ?_, forall_mem_set i hServed.sound ⟨hCurrent, hOpenPool⟩,
      hServed.none_dropped⟩
    simpa [Client.held] using
      ((hSet i _ (.holding pool) hClient).trans
        (List.Perm.append_right _ hServed.inUse_held.symm)).symm
  · -- `Put`'s `getPool` never finds the pool nil while a connection is held
    have hHeld := hServed.sound _ (List.getElem?_mem hClient)
    simp only [Client.Sound, hNone, reduceCtorEq, false_and] at hHeld
  · -- `Put`'s `getPool` finds the pool the connection came from
    have hHeld : s.pools.cp.pool = some pool ∧ pool ∉ s.pools.cp.closedPools :=
      hServed.sound _ (List.getElem?_mem hClient)
    have hHome : target = pool := Option.some.inj (hTarget.symm.trans hHeld.1)
    refine ⟨hServed.safe, hServed.inUse_held.trans ?_,
      forall_mem_set i hServed.sound ⟨hHome, hHeld⟩, hServed.none_dropped⟩
    simpa [Client.held, List.perm_append_right_iff] using
      (hSet i _ (.putting pool target) hClient).symm
  · -- `pool.Put(conn)` into the pool the connection came from
    have hHome : target = pool := (hServed.sound _ (List.getElem?_mem hClient)).1
    subst hHome
    refine ⟨hServed.safe, ?_, forall_mem_set i hServed.sound trivial, hServed.none_dropped⟩
    have hBack : (s.clients.filterMap Client.held).Perm
        (target :: (s.clients.set i .idle).filterMap Client.held) := by
      simpa [Client.held] using (hSet i _ .idle hClient).symm.trans (List.perm_append_singleton _ _)
    simpa using (hServed.inUse_held.trans hBack).erase target

theorem ClientSystem.Reachable.served {clients : Nat} {s : ClientSystem}
    (hReach : s.Reachable (fun s e => e = .pool .callOpen → s.pools.Quiet) clients) : s.Served := by
  induction hReach with
  | initial => exact served_initial clients
  | step _ hAllowed hStep inductionHypothesis =>
    exact served_step inductionHypothesis hAllowed hStep

/-- When no `Open` runs while a `Close` call is in flight, in every state of every schedule of
`Open`, `Close`, `Get` and `Put` calls: no `Put` has dropped a connection, every `Put` puts its
connection into the pool it came from, and a connection held or being put back belongs to a
pool that is not closed and whose memcache process has not been killed. -/
theorem connections_return_home (clients : Nat) (s : ClientSystem)
    (hReach : s.Reachable (fun s e => e = .pool .callOpen → s.pools.Quiet) clients) :
    s.dropped = [] ∧
      (∀ pool target, Client.putting pool target ∈ s.clients → target = pool) ∧
      ∀ c ∈ s.clients, ∀ pool, c.held = some pool →
        pool ∉ s.pools.cp.closedPools ∧ pool ∉ s.pools.cp.killedCmds := by
  have hServed := hReach.served
  refine ⟨hServed.none_dropped, fun pool target hPut => (hServed.sound _ hPut).1,
    fun c hc pool hHeld => ?_⟩
  have hOpenPool := (Client.sound_held (hServed.sound c hc) hHeld).2
  exact ⟨hOpenPool, fun hKilled => hOpenPool (hServed.safe.killed_closed pool hKilled)⟩

theorem connections_return_home_get_put :
    ([] : List Nat) = [] ∧
      (∀ pool target, Client.putting pool target ∈ [Client.putting 0 0] → target = pool) ∧
      ∀ c ∈ [Client.putting 0 0], ∀ pool, c.held = some pool →
        pool ∉ ([] : List Nat) ∧ pool ∉ ([] : List Nat) :=
  connections_return_home 1 ⟨⟨⟨some 0, some 0, 1, [], []⟩, []⟩, [.putting 0 0], [0], []⟩
    (.step (e := .callPut 0)
      (.step (t := ⟨⟨⟨some 0, some 0, 1, [], []⟩, []⟩, [.holding 0], [0], []⟩) (e := .poolGet 0)
        (.step (t := ⟨⟨⟨some 0, some 0, 1, [], []⟩, []⟩, [.getting 0], [], []⟩) (e := .callGet 0)
          (.step (t := ⟨⟨⟨some 0, some 0, 1, [], []⟩, []⟩, [.idle], [], []⟩)
            (e := .pool .callOpen) .initial (fun _ _ hMem => by cases hMem) rfl)
          (fun h => by cases h) rfl)
        (fun h => by cases h) rfl)
      (fun h => by cases h) rfl)

/-- An `Open` between the two `Close` calls' locked blocks: the second kills the new pool's
memcache while a client holds a connection of it, and that client's `Put` drops it. -/
example :
    ((ClientSystem.initial 1).run [.pool .callOpen, .pool .callClose, .pool .callClose,
      .pool (.advance 0), .pool (.advance 0), .pool .callOpen, .callGet 0, .poolGet 0,
      .pool (.advance 1), .pool (.advance 1), .callPut 0]).map (·.dropped) = some [1] := by
  decide

/-! ## Every `Put` and every `Close` call can finish -/

theorem ClientSystem.run_cons (s : ClientSystem) (e : ClientEvent) (events : List ClientEvent) :
    s.run (e :: events) = (s.step e).bind fun t => t.run events := rfl

theorem ClientSystem.run_append (s : ClientSystem) (first second : List ClientEvent) :
    s.run (first ++ second) = (s.run first).bind fun t => t.run second :=
  List.foldlM_append _ _ _ _

/-- The steps a client has left before its connection is back. -/
def Client.putSteps : Client → Nat
  | .holding _ => 2
  | .putting _ _ => 1
  | _ => 0

/-- The steps a `Close` call has left before it returns. -/
def CloseCall.steps : CloseCall → Nat
  | .snapshotted _ => 2
  | .drained _ => 1
  | .returned => 0

section Schedules

variable (P done : ClientSystem → Prop) (allowed : ClientEvent → Prop)
  (measure : ClientSystem → Nat)

theorem exists_run_of_decreasing
    (hProgress : ∀ s, P s → ¬done s →
      ∃ e t, allowed e ∧ s.step e = some t ∧ P t ∧ measure t < measure s)
    (s : ClientSystem) (hs : P s) :
    ∃ events t, (∀ e ∈ events, allowed e) ∧ s.run events = some t ∧ P t ∧ done t := by
  generalize hMeasure : measure s = n
  induction n using Nat.strong_induction_on generalizing s with
  | _ n inductionHypothesis =>
    by_cases hDone : done s
    · exact ⟨[], s, by simp, rfl, hs, hDone⟩
    · obtain ⟨e, t, hAllowed, hStep, ht, hLower⟩ := hProgress s hs hDone
      obtain ⟨events, u, hEvents, hRun, hu, hDoneU⟩ :=
        inductionHypothesis _ (hMeasure ▸ hLower) t ht rfl
      refine ⟨e :: events, u, ?_, by rw [ClientSystem.run_cons, hStep]; exact hRun, hu, hDoneU⟩
      intro e' hMem
      rcases List.mem_cons.mp hMem with rfl | hMem
      · exact hAllowed
      · exact hEvents e' hMem

end Schedules

theorem exists_puts (s : ClientSystem) (hServed : s.Served) :
    ∃ events t, (∀ e ∈ events, ∃ i, e = .callPut i ∨ e = .poolPut i) ∧
      s.run events = some t ∧ t.Served ∧ ∀ c ∈ t.clients, c.held = none := by
  refine exists_run_of_decreasing _ _ _ (fun t => weight Client.putSteps t.clients)
    (fun s hServed hBusy => ?_) s hServed
  -- a client that holds a connection takes one step towards its `Put`
  obtain ⟨c, hc, hHeld⟩ : ∃ c ∈ s.clients, c.held ≠ none := by
    push_neg at hBusy
    exact hBusy
  obtain ⟨i, hClient⟩ := List.mem_iff_getElem?.mp hc
  have hSound := hServed.sound c hc
  have hWeights := fun b => weight_set Client.putSteps b hClient
  cases c with
  | idle | getting => simp [Client.held] at hHeld
  | holding pool =>
    have hStep : s.step (.callPut i) =
        some { s with clients := s.clients.set i (.putting pool pool) } := by
      simp [ClientSystem.step, hClient, CachePool.getPool, hSound.1]
    refine ⟨_, _, ⟨i, .inl rfl⟩, hStep, served_step hServed (fun h => by cases h) hStep, ?_⟩
    have := hWeights (.putting pool pool)
    simp only [Client.putSteps] at this
    dsimp only
    omega
  | putting pool target =>
    have hStep : s.step (.poolPut i) =
        some { s with clients := s.clients.set i .idle, inUse := s.inUse.erase target } := by
      simp [ClientSystem.step, hClient]
    refine ⟨_, _, ⟨i, .inr rfl⟩, hStep, served_step hServed (fun h => by cases h) hStep, ?_⟩
    have := hWeights .idle
    simp only [Client.putSteps] at this
    dsimp only
    omega

theorem exists_closes (s : ClientSystem) (hServed : s.Served) (hFree : s.inUse = []) :
    ∃ events t, (∀ e ∈ events, ∃ call, e = .pool (.advance call)) ∧ s.run events = some t ∧
      (t.Served ∧ t.inUse = [] ∧ t.clients = s.clients) ∧ t.pools.Quiet := by
  refine exists_run_of_decreasing _ _ _ (fun t => weight CloseCall.steps t.pools.closes)
    (fun t ⟨hServedT, hFreeT, hClients⟩ hBusy => ?_) s ⟨hServed, hFree, rfl⟩
  -- a `Close` call in flight takes its next step
  obtain ⟨c, hc, hPending⟩ : ∃ c ∈ t.pools.closes, c ≠ .returned := by
    simp only [PoolSystem.Quiet] at hBusy
    push_neg at hBusy
    exact hBusy
  obtain ⟨call, hCall⟩ := List.mem_iff_getElem?.mp hc
  have hWeights := fun b => weight_set CloseCall.steps b hCall
  cases c with
  | returned => exact absurd rfl hPending
  | snapshotted pool =>
    have hStep : t.step (.pool (.advance call)) = some { t with pools :=
        ⟨{ t.pools.cp with closedPools := t.pools.cp.closedPools ++ [pool] },
          t.pools.closes.set call (.drained pool)⟩ } := by
      simp [ClientSystem.step, ClientSystem.drainBlocked, PoolSystem.step, hCall, hFreeT]
    refine ⟨_, _, ⟨call, rfl⟩, hStep,
      ⟨served_step hServedT (fun h => by cases h) hStep, hFreeT, hClients⟩, ?_⟩
    have := hWeights (.drained pool)
    simp only [CloseCall.steps] at this
    dsimp only
    omega
  | drained pool =>
    have hStep : t.step (.pool (.advance call)) =
        some { t with pools := ⟨t.pools.cp.closeLocked, t.pools.closes.set call .returned⟩ } := by
      simp [ClientSystem.step, ClientSystem.drainBlocked, PoolSystem.step, hCall]
    refine ⟨_, _, ⟨call, rfl⟩, hStep,
      ⟨served_step hServedT (fun h => by cases h) hStep, hFreeT, hClients⟩, ?_⟩
    have := hWeights .returned
    simp only [CloseCall.steps] at this
    dsimp only
    omega

theorem exists_puts_and_closes (s : ClientSystem) (hServed : s.Served) :
    ∃ events t, (∀ e ∈ events, ∃ i, e = .callPut i ∨ e = .poolPut i ∨ e = .pool (.advance i)) ∧
      s.run events = some t ∧ t.inUse = [] ∧ t.dropped = [] ∧ t.pools.Quiet ∧
      ∀ c ∈ t.clients, c.held = none := by
  obtain ⟨puts, u, hPuts, hRunPuts, hServedU, hIdle⟩ := exists_puts s hServed
  have hFree : u.inUse = [] :=
    List.perm_nil.mp (List.filterMap_eq_nil_iff.mpr hIdle ▸ hServedU.inUse_held)
  obtain ⟨closes, t, hCloses, hRunCloses, ⟨hServedT, hFreeT, hClients⟩, hQuiet⟩ :=
    exists_closes u hServedU hFree
  refine ⟨puts ++ closes, t, ?_, by rw [ClientSystem.run_append, hRunPuts]; exact hRunCloses,
    hFreeT, hServedT.none_dropped, hQuiet, hClients ▸ hIdle⟩
  intro e hMem
  rcases List.mem_append.mp hMem with hPut | hClose
  · obtain ⟨i, hEvent⟩ := hPuts e hPut
    exact ⟨i, hEvent.imp_right .inl⟩
  · obtain ⟨call, rfl⟩ := hCloses e hClose
    exact ⟨call, .inr (.inr rfl)⟩

end Cm.TabletServer
