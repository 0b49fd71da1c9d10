import Mathlib.Algebra.Group.Int
import Mathlib.Algebra.Group.Nat.Basic
import Mathlib.Data.List.Nodup
import Mathlib.Data.Nat.Find
import Cm.Mysql.Wire
import Cm.TabletServer.CachePool

/-!
# Starting memcache

`NewCachePool` fixes the row cache configuration, the pool's capacity, the address memcache
listens on and `DeleteExpiry`. `Open` runs `startMemcache`, which starts the binary with the
flags of `GetSubprocessFlags` and probes it: up to 50 connects, 100 ms apart. A call is the list
of calls it makes into the system and how it ends: a result, a panic or `log.Fatal`. The
machine (`MemcacheHost`) answers `cmd.Start()` and each connect; memcached reads its command
line as `getopt` does, after the spec's flag table. `GetMaxPrefix` hands out row cache prefixes.
-/

namespace Cm.TabletServer

/-- How a call ends when it does not return: a panic or `log.Fatal`, with its message. -/
inductive Exit
  | panic (message : String)
  | fatal (message : String)
  deriving DecidableEq, Repr

/-- A call into the system: `os.Remove(path)`, a `cmd.Start()` of `commandLine` that
succeeded, a `memcache.Connect`, and `cmd.Process.Kill()` (with its `go cp.cmd.Wait()`). -/
inductive Effect
  | remove (path : String)
  | start (commandLine : List String)
  | connect
  | kill
  deriving DecidableEq, Repr

/-- `RowCacheConfig`; its numbers are Go `int`s. -/
structure RowCacheConfig where
  binary : String
  memory : Int
  socket : String
  tcpPort : Int
  connections : Int
  threads : Int
  lockPaged : Bool
  deriving DecidableEq, Repr

/-- The zero `RowCacheConfig`. -/
def RowCacheConfig.zero : RowCacheConfig := ⟨"", 0, "", 0, 0, 0, false⟩

/-- `strconv.Itoa`. -/
def itoa (n : Int) : String := toString n

/-- `cmd = append(cmd, flag, strconv.Itoa(value))` when `value > 0`. -/
def intFlag (flag : String) (value : Int) : List String :=
  if 0 < value then [flag, itoa value] else []

/-- `c.GetSubprocessFlags()`: nothing without a binary, otherwise the binary and the flags of
the options that are set. -/
def RowCacheConfig.getSubprocessFlags (c : RowCacheConfig) : List String :=
  if c.binary = "" then []
  else
    c.binary :: (intFlag "-m" c.memory ++ (if c.socket ≠ "" then ["-s", c.socket] else []) ++
      intFlag "-p" c.tcpPort ++ intFlag "-c" c.connections ++ intFlag "-t" c.threads ++
      if c.lockPaged then ["-k"] else [])

/-- The fields of `CachePool` that `NewCachePool` sets; `pool` and `cmd` are in `CachePool`.
`idleTimeout` is a `time.Duration` and `DeleteExpiry` a `uint64`. -/
structure CachePoolSettings where
  name : String
  rowCacheConfig : RowCacheConfig
  capacity : Int
  port : String
  idleTimeout : Int
  deleteExpiry : Nat
  deriving DecidableEq, Repr

/-- `uint64(queryTimeout / time.Second)` for a `time.Duration` in nanoseconds: the division
truncates toward zero, and the conversion wraps a negative quotient around `2 ^ 64`. -/
def timeoutSeconds (queryTimeout : Int) : Nat := (queryTimeout.tdiv 1000000000 % 2 ^ 64).toNat

/-- `NewCachePool(name, rowCacheConfig, queryTimeout, idleTimeout)`: the settings, or the
`log.Fatalf` of a connection count that leaves no capacity. -/
def newCachePool (name : String) (rowCacheConfig : RowCacheConfig)
    (queryTimeout idleTimeout : Int) : Except Exit CachePoolSettings :=
  if rowCacheConfig.binary = "" then .ok ⟨name, .zero, 0, "", idleTimeout, 0⟩
  else
    let port := "11211"
    let port := if rowCacheConfig.socket ≠ "" then rowCacheConfig.socket else port
    let port := if 0 < rowCacheConfig.tcpPort then ":" ++ itoa rowCacheConfig.tcpPort else port
    if 0 < rowCacheConfig.connections ∧ rowCacheConfig.connections ≤ 50 then
      .error (.fatal ("insufficient capacity: " ++ itoa rowCacheConfig.connections))
    else
      let capacity :=
        if 0 < rowCacheConfig.connections then rowCacheConfig.connections - 50 else 1024 - 50
      let seconds := timeoutSeconds queryTimeout
      let deleteExpiry := if seconds ≠ 0 then (2 * seconds + 15) % 2 ^ 64 else 0
      .ok ⟨name, rowCacheConfig, capacity, port, idleTimeout, deleteExpiry⟩

/-- The answer to one `memcache.Connect`: refused, or a connection on which
`Set("health", 0, 0, "ok")` returns an error or `none`. -/
inductive ConnectResult
  | refused
  | connected (setError : Option String)
  deriving DecidableEq, Repr

/-- What the machine answers `startMemcache`: the error of `cmd.Start()`, and the answer to the
connect made after `i` refused ones. -/
structure MemcacheHost where
  startError : Option String
  connect : Nat → ConnectResult

/-- The health check on the first connection that opens. -/
def healthCheck : Option String → Except Exit Unit
  | none => .ok ()
  | some err => .error (.fatal ("can't communicate with memcache: " ++ err))

/-- The probe loop of `startMemcache`, after `attempts` refused connects. -/
def connectLoop (connect : Nat → ConnectResult) (attempts : Nat) :
    List Effect × Except Exit Unit :=
  match connect attempts with
  | .refused =>
    if 50 ≤ attempts + 1 then ([.connect, .kill], .error (.fatal "Can't connect to memcache"))
    else (connectLoop connect (attempts + 1)).map (.connect :: ·) id
  | .connected setError => ([.connect], healthCheck setError)
termination_by 50 - attempts

/-- `if strings.Contains(port, "/") { _ = os.Remove(port) }`: a stale socket file is removed. -/
def staleSocket (port : String) : List Effect :=
  if port.contains '/' then [.remove port] else []

/-- `cp.startMemcache()`. -/
def CachePoolSettings.startMemcache (cp : CachePoolSettings) (host : MemcacheHost) :
    List Effect × Except Exit Unit :=
  match cp.rowCacheConfig.getSubprocessFlags with
  | [] =>
    (staleSocket cp.port, .error (.panic "runtime error: index out of range [0] with length 0"))
  | commandLine@(_ :: _) =>
    match host.startError with
    | some err => (staleSocket cp.port, .error (.fatal ("can't start memcache: " ++ err)))
    | none => (connectLoop host.connect 0).map (staleSocket cp.port ++ .start commandLine :: ·) id

/-- A pool made by `pools.NewResourcePool(f, capacity, maxCap, idleTimeout)`, whose factory
`f` connects to `port`. -/
structure ResourcePool where
  port : String
  capacity : Int
  maxCap : Int
  idleTimeout : Int
  deriving DecidableEq, Repr

/-- `cp.Open()`, under the mutex, when the pool handle is nil or not (`isOpen`). -/
def CachePoolSettings.openPool (cp : CachePoolSettings) (isOpen : Bool) (host : MemcacheHost) :
    List Effect × Except Exit ResourcePool :=
  if isOpen then ([], .error (.panic "rowcache is already open"))
  else if cp.rowCacheConfig.binary = "" then ([], .error (.panic "rowcache binary not specified"))
  else
    (cp.startMemcache host).map id fun started =>
      started.map fun () => ⟨cp.port, cp.capacity, cp.capacity, cp.idleTimeout⟩

def Effect.isStart : Effect → Bool
  | .start _ => true
  | _ => false

/-- Whether the calls started memcache and did not kill it, so that it outlives the call. -/
def memcacheLeftRunning (effects : List Effect) : Bool :=
  effects.any Effect.isStart && !effects.contains .kill

@[simp]
theorem count_connect_staleSocket (port : String) : (staleSocket port).count .connect = 0 := by
  unfold staleSocket
  split <;> rfl

@[simp]
theorem any_isStart_staleSocket (port : String) :
    (staleSocket port).any Effect.isStart = false := by
  unfold staleSocket
  split <;> rfl

@[simp]
theorem kill_not_mem_staleSocket (port : String) : Effect.kill ∉ staleSocket port := by
  unfold staleSocket
  split <;> simp

@[simp]
theorem count_connect_started (port : String) (commandLine : List String)
    (effects : List Effect) :
    (staleSocket port ++ .start commandLine :: effects).count .connect =
      effects.count .connect := by
  simp [List.count_cons]

@[simp]
theorem memcacheLeftRunning_started (port : String) (commandLine : List String)
    (effects : List Effect) :
    memcacheLeftRunning (staleSocket port ++ .start commandLine :: effects) =
      decide (Effect.kill ∉ effects) := by
  simp [memcacheLeftRunning, Effect.isStart, List.elem_eq_mem]

/-! ## memcached's command line -/

/-- The options memcached runs with: the argument of each of `-m`, `-s`, `-p`, `-c` and `-t`,
and whether `-k` is given. -/
structure MemcachedOptions where
  memory : Option String
  socket : Option String
  port : Option String
  connections : Option String
  threads : Option String
  lockPaged : Bool
  deriving DecidableEq, Repr

/-- No option given. -/
def MemcachedOptions.unset : MemcachedOptions := ⟨none, none, none, none, none, false⟩

/-- Option `flag` with its argument. -/
def MemcachedOptions.set (opts : MemcachedOptions) (flag arg : String) :
    Option MemcachedOptions :=
  match flag with
  | "-m" => some { opts with memory := some arg }
  | "-s" => some { opts with socket := some arg }
  | "-p" => some { opts with port := some arg }
  | "-c" => some { opts with connections := some arg }
  | "-t" => some { opts with threads := some arg }
  | _ => none

/-- memcached reading its arguments left to right, as `getopt` does: `-k` takes no argument,
the other options take the next argument whatever it holds. -/
def readOptions (opts : MemcachedOptions) : List String → Option MemcachedOptions
  | [] => some opts
  | "-k" :: rest => readOptions { opts with lockPaged := true } rest
  | flag :: arg :: rest => (opts.set flag arg).bind (readOptions · rest)
  | [_] => none

/-- The options a configuration asks memcached for: each positive number, the socket when it
is not empty, and `-k` with `LockPaged`. -/
def RowCacheConfig.options (c : RowCacheConfig) : MemcachedOptions where
  memory := if 0 < c.memory then some (itoa c.memory) else none
  socket := if c.socket ≠ "" then some c.socket else none
  port := if 0 < c.tcpPort then some (itoa c.tcpPort) else none
  connections := if 0 < c.connections then some (itoa c.connections) else none
  threads := if 0 < c.threads then some (itoa c.threads) else none
  lockPaged := c.lockPaged

/-! ## The probe loop -/

section Probe

variable {connect : Nat → ConnectResult}

theorem connectLoop_refused {attempts : Nat} (hRefused : connect attempts = .refused)
    (hLt : attempts + 1 < 50) :
    connectLoop connect attempts = (connectLoop connect (attempts + 1)).map (.connect :: ·) id := by
  rw [connectLoop, hRefused, if_neg (by omega)]

theorem connectLoop_connected {attempts : Nat} {setError : Option String}
    (hConnected : connect attempts = .connected setError) :
    connectLoop connect attempts = ([.connect], healthCheck setError) := by
  rw [connectLoop, hConnected]

theorem connectLoop_of_refused (n : Nat) {attempts : Nat} (hLt : attempts + n < 50)
    (hRefused : ∀ j, attempts ≤ j → j < attempts + n → connect j = .refused) :
    connectLoop connect attempts =
      (connectLoop connect (attempts + n)).map (List.replicate n .connect ++ ·) id := by
  induction n generalizing attempts with
  | zero => simp [Prod.map]
  | succ n inductionHypothesis =>
    rw [connectLoop_refused (hRefused attempts le_rfl (by omega)) (by omega),
      inductionHypothesis (by omega) fun j hLo hHi => hRefused j (by omega) (by omega),
      show attempts + 1 + n = attempts + (n + 1) by omega]
    simp [Prod.map, List.replicate_succ]

theorem connectLoop_of_first_connected {i : Nat} {setError : Option String} (hLt : i < 50)
    (hRefused : ∀ j < i, connect j = .refused) (hConnected : connect i = .connected setError) :
    connectLoop connect 0 = (List.replicate (i + 1) .connect, healthCheck setError) := by
  rw [connectLoop_of_refused i (by omega) fun j _ hj => hRefused j (by omega), Nat.zero_add,
    connectLoop_connected hConnected]
  simp [Prod.map, List.replicate_succ']

theorem connectLoop_of_all_refused (hRefused : ∀ j < 50, connect j = .refused) :
    connectLoop connect 0 =
      (List.replicate 50 .connect ++ [.kill], .error (.fatal "Can't connect to memcache")) := by
  rw [connectLoop_of_refused 49 (by omega) fun j _ hj => hRefused j (by omega), Nat.zero_add,
    connectLoop, hRefused 49 (by omega), if_pos (by omega)]
  rfl

theorem refused_or_first_connected (connect : Nat → ConnectResult) :
    (∀ j < 50, connect j = .refused) ∨
      ∃ i < 50, (∀ j < i, connect j = .refused) ∧ ∃ setError, connect i = .connected setError := by
  by_cases hAll : ∀ j < 50, connect j = .refused
  · exact .inl hAll
  · have hAnswered : ∃ i, i < 50 ∧ connect i ≠ .refused := by
      push_neg at hAll
      exact hAll
    obtain ⟨hLt, hFirst⟩ := Nat.find_spec hAnswered
    refine .inr ⟨Nat.find hAnswered, hLt, fun j hj => ?_, ?_⟩
    · have hBefore := Nat.find_min hAnswered hj
      push_neg at hBefore
      exact hBefore (by omega)
    · cases hAnswer : connect (Nat.find hAnswered) with
      | refused => exact absurd hAnswer hFirst
      | connected setError => exact ⟨setError, rfl⟩

end Probe

/-- Every answer stream: the probe loop connects until the first connect that opens and ends
with its health check, or, when the first 50 connects are refused, kills memcache after the
50th and exits with "Can't connect to memcache". It never connects more than 50 times. -/
theorem connectLoop_probes (connect : Nat → ConnectResult) :
    ((∀ j < 50, connect j = .refused) ∧
      connectLoop connect 0 =
        (List.replicate 50 .connect ++ [.kill], .error (.fatal "Can't connect to memcache"))) ∨
    ∃ i < 50, (∀ j < i, connect j = .refused) ∧ ∃ setError, connect i = .connected setError ∧
      connectLoop connect 0 = (List.replicate (i + 1) .connect, healthCheck setError) := by
  rcases refused_or_first_connected connect with hAll | ⟨i, hLt, hRefused, setError, hConnected⟩
  · exact .inl ⟨hAll, connectLoop_of_all_refused hAll⟩
  · exact .inr ⟨i, hLt, hRefused, setError, hConnected,
      connectLoop_of_first_connected hLt hRefused hConnected⟩

/-! ## The command line -/

theorem readOptions_pair (opts : MemcachedOptions) {flag : String} (arg : String)
    (rest : List String) (hFlag : flag ≠ "-k") :
    readOptions opts (flag :: arg :: rest) = (opts.set flag arg).bind (readOptions · rest) := by
  simp [readOptions, hFlag]

theorem readOptions_option (flag : String) {arg : String} {p : Prop} [Decidable p]
    (read : MemcachedOptions → Option String)
    (write : MemcachedOptions → Option String → MemcachedOptions)
    (hSet : ∀ opts arg, opts.set flag arg = some (write opts (some arg)))
    (hKeep : ∀ opts, write opts (read opts) = opts) (hFlag : flag ≠ "-k")
    (opts : MemcachedOptions) (rest : List String) :
    readOptions opts ((if p then [flag, arg] else []) ++ rest) =
      readOptions (write opts (if p then some arg else read opts)) rest := by
  split
  · exact (readOptions_pair opts arg rest hFlag).trans (by rw [hSet]; rfl)
  · rw [hKeep]
    rfl

theorem getSubprocessFlags_of_binary {c : RowCacheConfig} (hBinary : c.binary ≠ "") :
    ∃ args, c.getSubprocessFlags = c.binary :: args :=
  ⟨_, if_neg hBinary⟩

theorem readOptions_tail_getSubprocessFlags (c : RowCacheConfig) (hBinary : c.binary ≠ "") :
    readOptions .unset c.getSubprocessFlags.tail = some c.options := by
  obtain ⟨binary, memory, socket, tcpPort, connections, threads, lockPaged⟩ := c
  simp only [RowCacheConfig.getSubprocessFlags, if_neg hBinary, List.tail_cons, intFlag,
    List.append_assoc]
  rw [readOptions_option "-m" (·.memory) (fun opts memory => { opts with memory })
      (fun _ _ => rfl) (fun _ => rfl) (by decide),
    readOptions_option "-s" (·.socket) (fun opts socket => { opts with socket })
      (fun _ _ => rfl) (fun _ => rfl) (by decide),
    readOptions_option "-p" (·.port) (fun opts port => { opts with port })
      (fun _ _ => rfl) (fun _ => rfl) (by decide),
    readOptions_option "-c" (·.connections) (fun opts connections => { opts with connections })
      (fun _ _ => rfl) (fun _ => rfl) (by decide),
    readOptions_option "-t" (·.threads) (fun opts threads => { opts with threads })
      (fun _ _ => rfl) (fun _ => rfl) (by decide)]
  cases lockPaged <;> rfl

/-- For every configuration, `GetSubprocessFlags` is empty exactly when no binary is given;
otherwise it starts with the binary, and from the rest memcached reads exactly the options the
configuration asks for, whatever the socket path holds. -/
theorem getSubprocessFlags_round_trip (c : RowCacheConfig) :
    (c.getSubprocessFlags = [] ↔ c.binary = "") ∧
      (c.binary ≠ "" → c.getSubprocessFlags.head? = some c.binary ∧
        readOptions .unset c.getSubprocessFlags.tail = some c.options) := by
  by_cases hBinary : c.binary = ""
  · simp [RowCacheConfig.getSubprocessFlags, hBinary]
  · obtain ⟨args, hFlags⟩ := getSubprocessFlags_of_binary hBinary
    refine ⟨by simp [hFlags, hBinary], fun _ => ⟨by rw [hFlags]; rfl, ?_⟩⟩
    exact readOptions_tail_getSubprocessFlags c hBinary

/-! ## `NewCachePool` -/

theorem timeoutSeconds_eq (queryTimeout : Int)
    (hRange : -2 ^ 63 ≤ queryTimeout ∧ queryTimeout < 2 ^ 63) :
    (timeoutSeconds queryTimeout : Int) =
      if 0 ≤ queryTimeout then queryTimeout / 10 ^ 9
      else if queryTimeout ≤ -10 ^ 9 then 2 ^ 64 - -queryTimeout / 10 ^ 9 else 0 := by
  have hQuotient : queryTimeout.tdiv 1000000000 =
      if 0 ≤ queryTimeout then queryTimeout / 1000000000 else -(-queryTimeout / 1000000000) := by
    split
    · exact Int.tdiv_eq_ediv ‹_› (by decide)
    · have hNegated := Int.neg_tdiv (-queryTimeout) 1000000000
      rw [Int.neg_neg] at hNegated
      rw [hNegated, Int.tdiv_eq_ediv (by omega) (by decide)]
  unfold timeoutSeconds
  rw [hQuotient]
  split_ifs <;> omega

theorem newCachePool_ok {name : String} {config : RowCacheConfig} {queryTimeout idleTimeout : Int}
    {cp : CachePoolSettings} (hNew : newCachePool name config queryTimeout idleTimeout = .ok cp) :
    (config.binary = "" ∧ cp.rowCacheConfig = .zero ∧ cp.deleteExpiry = 0) ∨
    (config.binary ≠ "" ∧ cp.rowCacheConfig = config ∧
      ¬(0 < config.connections ∧ config.connections ≤ 50) ∧
      cp.capacity = (if 0 < config.connections then config.connections - 50 else 1024 - 50) ∧
      cp.deleteExpiry = if timeoutSeconds queryTimeout ≠ 0 then
        (2 * timeoutSeconds queryTimeout + 15) % 2 ^ 64 else 0) := by
  by_cases hBinary : config.binary = ""
  · simp only [newCachePool, if_pos hBinary, Except.ok.injEq] at hNew
    subst hNew
    exact .inl ⟨hBinary, rfl, rfl⟩
  · by_cases hConnections : 0 < config.connections ∧ config.connections ≤ 50
    · simp [newCachePool, hBinary, hConnections] at hNew
    · simp only [newCachePool, if_neg hBinary, if_neg hConnections, Except.ok.injEq] at hNew
      subst hNew
      exact .inr ⟨hBinary, rfl, hConnections, rfl, rfl⟩

/-- For every `int64` query timeout, `DeleteExpiry` is zero without a binary or below one
second either way; `2 * seconds + 15` for a positive timeout, where the `uint64` sum cannot
wrap; and for a negative timeout of `k` whole seconds the wrapped `15 - 2 * k`: `15 - 2 * k` up
to 7 seconds, `2 ^ 64 + 15 - 2 * k` from 8 seconds on. -/
theorem deleteExpiry_newCachePool (name : String) (config : RowCacheConfig)
    (queryTimeout idleTimeout : Int) (cp : CachePoolSettings)
    (hNew : newCachePool name config queryTimeout idleTimeout = .ok cp)
    (hRange : -2 ^ 63 ≤ queryTimeout ∧ queryTimeout < 2 ^ 63) :
    (config.binary = "" ∨ -10 ^ 9 < queryTimeout ∧ queryTimeout < 10 ^ 9 → cp.deleteExpiry = 0) ∧
    (config.binary ≠ "" → 10 ^ 9 ≤ queryTimeout →
      (cp.deleteExpiry : Int) = 2 * (queryTimeout / 10 ^ 9) + 15) ∧
    (config.binary ≠ "" → -8 * 10 ^ 9 < queryTimeout → queryTimeout ≤ -10 ^ 9 →
      (cp.deleteExpiry : Int) = 15 - 2 * (-queryTimeout / 10 ^ 9)) ∧
    (config.binary ≠ "" → queryTimeout ≤ -8 * 10 ^ 9 →
      (cp.deleteExpiry : Int) = 2 ^ 64 + 15 - 2 * (-queryTimeout / 10 ^ 9)) := by
  have hSeconds := timeoutSeconds_eq queryTimeout hRange
  rcases newCachePool_ok hNew with ⟨hBinary, -, hExpiry⟩ | ⟨hBinary, -, -, -, hExpiry⟩
  · exact ⟨fun _ => hExpiry, fun h => absurd hBinary h, fun h => absurd hBinary h,
      fun h => absurd hBinary h⟩
  · rw [hExpiry]
    generalize timeoutSeconds queryTimeout = seconds at hSeconds ⊢
    refine ⟨fun hSmall => ?_, fun _ hPositive => ?_, fun _ _ hNegative => ?_,
      fun _ hNegative => ?_⟩
    · -- no whole second either way
      have hSmall := hSmall.resolve_left hBinary
      have hZero : seconds = 0 := by split_ifs at hSeconds <;> omega
      rw [if_neg (not_not.mpr hZero)]
    · rw [if_pos (by omega : 0 ≤ queryTimeout)] at hSeconds
      rw [if_pos (by omega : seconds ≠ 0)]
      push_cast
      omega
    all_goals
      rw [if_neg (by omega : ¬0 ≤ queryTimeout), if_pos (by omega)] at hSeconds
      rw [if_pos (by omega : seconds ≠ 0)]
      push_cast
      omega

theorem deleteExpiry_newCachePool_thirty :
    newCachePool "rowcache" ⟨"memcached", 0, "", 0, 0, 0, false⟩ 30000000000 0 =
        .ok ⟨"rowcache", ⟨"memcached", 0, "", 0, 0, 0, false⟩, 974, "11211", 0, 75⟩ ∧
      (-2 ^ 63 ≤ (30000000000 : Int) ∧ (30000000000 : Int) < 2 ^ 63) ∧
      (("memcached" = "" ∨ -10 ^ 9 < (30000000000 : Int) ∧ (30000000000 : Int) < 10 ^ 9) →
        (75 : Nat) = 0) ∧
      ("memcached" ≠ "" → 10 ^ 9 ≤ (30000000000 : Int) →
        ((75 : Nat) : Int) = 2 * (30000000000 / 10 ^ 9) + 15) ∧
      ("memcached" ≠ "" → -8 * 10 ^ 9 < (30000000000 : Int) → (30000000000 : Int) ≤ -10 ^ 9 →
        ((75 : Nat) : Int) = 15 - 2 * (-30000000000 / 10 ^ 9)) ∧
      ("memcached" ≠ "" → (30000000000 : Int) ≤ -8 * 10 ^ 9 →
        ((75 : Nat) : Int) = 2 ^ 64 + 15 - 2 * (-30000000000 / 10 ^ 9)) :=
  ⟨rfl, ⟨by decide, by decide⟩, deleteExpiry_newCachePool "rowcache"
    ⟨"memcached", 0, "", 0, 0, 0, false⟩ 30000000000 0 _ rfl ⟨by decide, by decide⟩⟩

/-! ## `Open` -/

theorem startMemcache_of_binary {cp : CachePoolSettings} (host : MemcacheHost)
    (hBinary : cp.rowCacheConfig.binary ≠ "") :
    cp.startMemcache host =
      match host.startError with
      | some err => (staleSocket cp.port, .error (.fatal ("can't start memcache: " ++ err)))
      | none => (connectLoop host.connect 0).map
          (staleSocket cp.port ++ .start cp.rowCacheConfig.getSubprocessFlags :: ·) id := by
  obtain ⟨args, hFlags⟩ := getSubprocessFlags_of_binary hBinary
  simp only [CachePoolSettings.startMemcache, hFlags]

theorem openPool_of_binary {cp : CachePoolSettings} (host : MemcacheHost)
    (hBinary : cp.rowCacheConfig.binary ≠ "") :
    cp.openPool false host =
      match host.startError with
      | some err => (staleSocket cp.port, .error (.fatal ("can't start memcache: " ++ err)))
      | none => (staleSocket cp.port ++
            .start cp.rowCacheConfig.getSubprocessFlags :: (connectLoop host.connect 0).1,
          (connectLoop host.connect 0).2.map fun () =>
            ⟨cp.port, cp.capacity, cp.capacity, cp.idleTimeout⟩) := by
  rw [CachePoolSettings.openPool, if_neg Bool.false_ne_true, if_neg hBinary,
    startMemcache_of_binary host hBinary]
  cases host.startError <;> rfl

theorem healthCheck_ne_panic (setError : Option String) (message : String) :
    healthCheck setError ≠ .error (.panic message) := by
  cases setError <;> simp [healthCheck]

theorem connectLoop_ne_panic (connect : Nat → ConnectResult) (message : String) :
    (connectLoop connect 0).2 ≠ .error (.panic message) := by
  rcases refused_or_first_connected connect with hAll | ⟨i, hLt, hRefused, setError, hConnected⟩
  · simp [connectLoop_of_all_refused hAll]
  · simpa [connectLoop_of_first_connected hLt hRefused hConnected] using
      healthCheck_ne_panic setError message

theorem openPool_panic_iff (cp : CachePoolSettings) (host : MemcacheHost) (message : String) :
    (cp.openPool false host).2 = .error (.panic message) ↔
      message = "rowcache binary not specified" ∧ cp.rowCacheConfig.binary = "" := by
  by_cases hBinary : cp.rowCacheConfig.binary = ""
  · simp [CachePoolSettings.openPool, hBinary, eq_comm]
  · rw [openPool_of_binary host hBinary]
    have hLoop := connectLoop_ne_panic host.connect message
    cases host.startError with
    | some err => simp [hBinary]
    | none =>
      revert hLoop
      cases (connectLoop host.connect 0).2 <;> simp [Except.map, hBinary]

theorem openPool_ok {cp : CachePoolSettings} {host : MemcacheHost} {pool : ResourcePool}
    (hPool : (cp.openPool false host).2 = .ok pool) :
    pool = ⟨cp.port, cp.capacity, cp.capacity, cp.idleTimeout⟩ ∧
      Effect.start cp.rowCacheConfig.getSubprocessFlags ∈ (cp.openPool false host).1 := by
  by_cases hBinary : cp.rowCacheConfig.binary = ""
  · simp [CachePoolSettings.openPool, hBinary] at hPool
  · revert hPool
    rw [openPool_of_binary host hBinary]
    cases host.startError with
    | some err => simp
    | none =>
      cases (connectLoop host.connect 0).2 with
      | error exit => simp [Except.map]
      | ok _ =>
        intro hPool
        simp only [Except.map, Except.ok.injEq] at hPool
        exact ⟨hPool.symm, by simp⟩

/-- For every configuration and pair of timeouts: after `NewCachePool`, `Open` panics only with
"rowcache binary not specified", and exactly when no binary is given, so the command line it
indexes is never empty; and when it returns, it has started the configured binary and made a
pool whose capacity is its maximum, at least 1, and 50 below the connection limit memcached
reads from its command line (the `-c` argument, or memcached's default 1024 without one). -/
theorem openPool_newCachePool (name : String) (config : RowCacheConfig)
    (queryTimeout idleTimeout : Int) (host : MemcacheHost) (cp : CachePoolSettings)
    (hNew : newCachePool name config queryTimeout idleTimeout = .ok cp) :
    (∀ message, (cp.openPool false host).2 = .error (.panic message) ↔
      message = "rowcache binary not specified" ∧ config.binary = "") ∧
    ∀ pool, (cp.openPool false host).2 = .ok pool →
      Effect.start config.getSubprocessFlags ∈ (cp.openPool false host).1 ∧
      pool.maxCap = pool.capacity ∧ 0 < pool.capacity ∧
      ∃ opts, readOptions .unset config.getSubprocessFlags.tail = some opts ∧
        (opts.connections = some (itoa (pool.capacity + 50)) ∨
          opts.connections = none ∧ pool.capacity + 50 = 1024) := by
  rcases newCachePool_ok hNew with
    ⟨hBinary, hZero, -⟩ | ⟨hBinary, hConfig, hConnections, hCapacity, -⟩
  · -- no binary: `Open` panics before it starts anything
    have hPanic := (openPool_panic_iff cp host "rowcache binary not specified").mpr
      ⟨rfl, by rw [hZero]; rfl⟩
    refine ⟨fun message => ?_, fun pool hPool => by rw [hPanic] at hPool; cases hPool⟩
    rw [openPool_panic_iff, hZero, hBinary]
    rfl
  · refine ⟨fun message => by rw [openPool_panic_iff, hConfig], fun pool hPool => ?_⟩
    obtain ⟨rfl, hStart⟩ := openPool_ok hPool
    rw [hConfig] at hStart
    refine ⟨hStart, rfl, ?_, config.options, readOptions_tail_getSubprocessFlags config hBinary, ?_⟩
    · show 0 < cp.capacity
      rw [hCapacity]
      split_ifs <;> omega
    · simp only [RowCacheConfig.options, hCapacity]
      split_ifs
      · exact .inl (by rw [Int.sub_add_cancel])
      · exact .inr ⟨rfl, rfl⟩

theorem openPool_newCachePool_hundred :
    newCachePool "rowcache" ⟨"memcached", 0, "", 0, 100, 0, false⟩ 0 0 =
        .ok ⟨"rowcache", ⟨"memcached", 0, "", 0, 100, 0, false⟩, 50, "11211", 0, 0⟩ ∧
      (∀ message, ((⟨"rowcache", ⟨"memcached", 0, "", 0, 100, 0, false⟩, 50, "11211", 0, 0⟩ :
            CachePoolSettings).openPool false ⟨none, fun _ => .connected none⟩).2 =
          .error (.panic message) ↔
        message = "rowcache binary not specified" ∧ "memcached" = "") ∧
      ∀ pool, ((⟨"rowcache", ⟨"memcached", 0, "", 0, 100, 0, false⟩, 50, "11211", 0, 0⟩ :
            CachePoolSettings).openPool false ⟨none, fun _ => .connected none⟩).2 = .ok pool →
        Effect.start (RowCacheConfig.getSubprocessFlags ⟨"memcached", 0, "", 0, 100, 0, false⟩) ∈
          ((⟨"rowcache", ⟨"memcached", 0, "", 0, 100, 0, false⟩, 50, "11211", 0, 0⟩ :
            CachePoolSettings).openPool false ⟨none, fun _ => .connected none⟩).1 ∧
        pool.maxCap = pool.capacity ∧ 0 < pool.capacity ∧
        ∃ opts, readOptions .unset
            (RowCacheConfig.getSubprocessFlags ⟨"memcached", 0, "", 0, 100, 0, false⟩).tail =
              some opts ∧
          (opts.connections = some (itoa (pool.capacity + 50)) ∨
            opts.connections = none ∧ pool.capacity + 50 = 1024) :=
  ⟨rfl, openPool_newCachePool "rowcache" ⟨"memcached", 0, "", 0, 100, 0, false⟩ 0 0
    ⟨none, fun _ => .connected none⟩ _ rfl⟩

theorem first_connected_unique {connect : Nat → ConnectResult} {i k : Nat}
    {setError answer : Option String} (hRefused : ∀ j < i, connect j = .refused)
    (hConnected : connect i = .connected setError) (hBefore : ∀ j < k, connect j = .refused)
    (hAnswer : connect k = .connected answer) : i = k ∧ setError = answer := by
  rcases Nat.lt_trichotomy i k with hLt | rfl | hGt
  · cases (hBefore i hLt).symm.trans hConnected
  · exact ⟨rfl, by simpa using hConnected.symm.trans hAnswer⟩
  · cases (hRefused k hGt).symm.trans hAnswer

/-- For every pool, handle and answer stream, `Open` connects at most 50 times, and it exits
with the memcache it started still running exactly when the first connect that opens, among
the first 50, fails its health check: every other exit comes before memcache is started or
after it is killed. -/
theorem openPool_leaves_memcache_running (cp : CachePoolSettings) (isOpen : Bool)
    (host : MemcacheHost) :
    (cp.openPool isOpen host).1.count .connect ≤ 50 ∧
      (memcacheLeftRunning (cp.openPool isOpen host).1 = true ∧
          (∃ exit, (cp.openPool isOpen host).2 = .error exit) ↔
        isOpen = false ∧ cp.rowCacheConfig.binary ≠ "" ∧ host.startError = none ∧
          ∃ i < 50, (∀ j < i, host.connect j = .refused) ∧
            ∃ err, host.connect i = .connected (some err)) := by
  cases isOpen with
  | true => simp [CachePoolSettings.openPool, memcacheLeftRunning]
  | false =>
    by_cases hBinary : cp.rowCacheConfig.binary = ""
    · simp [CachePoolSettings.openPool, hBinary, memcacheLeftRunning]
    · rw [openPool_of_binary host hBinary]
      cases host.startError with
      | some err => simp [memcacheLeftRunning]
      | none =>
        rcases refused_or_first_connected host.connect with
          hAll | ⟨i, hLt, hRefused, setError, hConnected⟩
        · -- 50 refused connects: memcache is killed
          rw [connectLoop_of_all_refused hAll]
          have hNone : ¬∃ i < 50, (∀ j < i, host.connect j = .refused) ∧
              ∃ err, host.connect i = .connected (some err) := by
            rintro ⟨i, hLt, -, err, hConnected⟩
            cases (hAll i hLt).symm.trans hConnected
          have hKilled : Effect.kill ∈ List.replicate 50 Effect.connect ++ [Effect.kill] :=
            List.mem_append_right _ (List.mem_singleton_self _)
          have hCount :
              (List.replicate 50 Effect.connect ++ [Effect.kill]).count Effect.connect = 50 := by
            rw [List.count_append, List.count_replicate_self]
            rfl
          simp only [count_connect_started, memcacheLeftRunning_started, hCount, hKilled,
            not_true_eq_false, decide_False, Bool.false_eq_true, false_and, hNone, and_false,
            iff_self, le_refl, and_self]
        · -- the first connect that opens: memcache is never killed
          rw [connectLoop_of_first_connected hLt hRefused hConnected]
          have hFirst : (∃ i < 50, (∀ j < i, host.connect j = .refused) ∧
              ∃ err, host.connect i = .connected (some err)) ↔ setError.isSome := by
            constructor
            · rintro ⟨k, -, hBefore, err, hAnswer⟩
              simp [(first_connected_unique hRefused hConnected hBefore hAnswer).2]
            · intro hSome
              obtain ⟨err, rfl⟩ := Option.isSome_iff_exists.mp hSome
              exact ⟨i, hLt, hRefused, err, hConnected⟩
          rw [hFirst]
          simp only [count_connect_started, memcacheLeftRunning_started, List.count_replicate_self,
            List.mem_replicate]
          cases setError <;> simp [healthCheck, Except.map, hBinary] <;> omega

/-- `Open` takes the `Open` step of the concurrent model: it panics with "rowcache is already
open" exactly where that step fails, and when it returns, that step makes the next pool and
process. -/
theorem openPool_refines (settings : CachePoolSettings) (host : MemcacheHost) (cp : CachePool) :
    ((settings.openPool cp.pool.isSome host).2 = .error (.panic "rowcache is already open") ↔
      cp.openPool = none) ∧
    ∀ pool, (settings.openPool cp.pool.isSome host).2 = .ok pool →
      cp.openPool = some
        { cp with pool := some cp.opened, cmd := some cp.opened, opened := cp.opened + 1 } := by
  cases hPool : cp.pool with
  | some _ => simp [CachePoolSettings.openPool, CachePool.openPool, hPool]
  | none =>
    simp only [Option.isSome_none, CachePool.openPool, hPool, openPool_panic_iff]
    exact ⟨by simp, fun _ _ => trivial⟩

/-! ## Cache key prefixes -/

open Cm.Mysql in
/-- `GetMaxPrefix()`: the atomic `maxPrefix.Add(1)` on the process-wide `int64` counter, which
wraps around; the counter after the call and the prefix it returns, the same value. -/
def getMaxPrefix (maxPrefix : Int) : Int × Int :=
  (goInt (maxPrefix + 1), goInt (maxPrefix + 1))

/-- The prefixes of `n` calls from the counter `maxPrefix`, in order: concurrent calls take
their atomic `Add` one after another. -/
def getMaxPrefixRun : Nat → Int → List Int
  | 0, _ => []
  | n + 1, maxPrefix =>
    (getMaxPrefix maxPrefix).2 :: getMaxPrefixRun n (getMaxPrefix maxPrefix).1

open Cm.Mysql in
theorem getMaxPrefixRun_eq (n : Nat) (counter : Int) :
    getMaxPrefixRun n (goInt counter) =
      (List.range n).map fun (i : Nat) => goInt (counter + i + 1) := by
  induction n generalizing counter with
  | zero => rfl
  | succ n inductionHypothesis =>
    have hNext : goInt (goInt counter + 1) = goInt (counter + 1) := Int.bmod_add_bmod_congr
    simp only [getMaxPrefixRun, getMaxPrefix, hNext, inductionHypothesis, List.range_succ_eq_map,
      List.map_cons, List.map_map]
    congr 1
    · simp
    · congr 1
      funext i
      simp only [Function.comp_apply, Nat.cast_succ]
      congr 1
      omega

open Cm.Mysql in
theorem goInt_succ_inj {i j : Nat} (hi : i < 2 ^ 64) (hj : j < 2 ^ 64)
    (h : goInt ((i : Int) + 1) = goInt ((j : Int) + 1)) : i = j := by
  rw [goInt_eq, goInt_eq] at h
  split_ifs at h <;> omega

/-- In a new process, whose counter is zero, the prefixes of any `2 ^ 64` or fewer calls of
`GetMaxPrefix`, in any interleaving, are pairwise distinct; the counter then wraps, and call
`2 ^ 64 + 1` returns the first prefix again. -/
theorem getMaxPrefix_unique (n : Nat) (hn : n ≤ 2 ^ 64) :
    (getMaxPrefixRun n 0).Nodup ∧
      (getMaxPrefixRun (2 ^ 64 + 1) 0)[2 ^ 64]? = (getMaxPrefixRun (2 ^ 64 + 1) 0)[0]? := by
  have hZero : (0 : Int) = Cm.Mysql.goInt 0 := rfl
  rw [hZero, getMaxPrefixRun_eq, getMaxPrefixRun_eq]
  refine ⟨(List.nodup_range n).map_on fun i hi j hj h => ?_, ?_⟩
  · simp only [List.mem_range] at hi hj
    exact goInt_succ_inj (by omega) (by omega) (by simpa using h)
  · simp [List.getElem?_range, Cm.Mysql.goInt]

theorem getMaxPrefix_unique_three :
    (3 ≤ 2 ^ 64) ∧ ((getMaxPrefixRun 3 0).Nodup ∧
      (getMaxPrefixRun (2 ^ 64 + 1) 0)[2 ^ 64]? = (getMaxPrefixRun (2 ^ 64 + 1) 0)[0]?) :=
  ⟨by decide, getMaxPrefix_unique 3 (by decide)⟩

end Cm.TabletServer
