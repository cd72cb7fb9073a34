import RootSeeker.Core.Transition

/-!
# The MySQL connection pool

The pool counts the connections that it has created.  A slot is lost where the
count goes up without a connection, or where a connection goes away without the
count going down: then fewer connections than the pool has room for can be
borrowed until the process ends.
-/

namespace RootSeeker.Storage

open Transition

/-! ## The pool -/

/-- A pool with the connections that are out on loan and the calls of `acquire` that wait
for one of them. -/
structure MysqlConnectionPool (κ : Type*) where
  size : ℕ
  size_pos : 1 ≤ size
  created : ℕ
  idle : List κ
  borrowed : List κ
  waiting : ℕ

/-- How a call of `acquire` comes out, or that it has to wait. -/
inductive AcquireResult (κ : Type*) where
  | returned (conn : κ)
  | raised
  | waits

/-- What the server does to the pings and the connects of one operation: a ping tries to
reconnect, and connecting gives a connection or raises. -/
structure Server (κ : Type*) where
  ping : κ → Bool
  connect : Option κ

/-- A connection that was pinged or opened just now. -/
def Server.Live {κ : Type*} (server : Server κ) (conn : κ) : Prop :=
  server.ping conn = true ∨ server.connect = some conn

structure Server.Reachable {κ : Type*} (server : Server κ) : Prop where
  ping : ∀ conn, server.ping conn = true
  connect : server.connect ≠ none

inductive PoolStep (κ : Type*) where
  | acquire (server : Server κ)
  | resume (server : Server κ)
  | timeout
  | release (conn : κ)

namespace MysqlConnectionPool

section Operations

variable {κ : Type*}

/-- `MysqlConnectionPool(config)`. -/
def new (poolSize : ℤ) : MysqlConnectionPool κ where
  size := (max 1 poolSize).toNat
  size_pos := by omega
  created := 0
  idle := []
  borrowed := []
  waiting := 0

/-- The loop at the beginning of `acquire`: dead connections are dropped. -/
def takeAlive (server : Server κ) : List κ → Option (κ × List κ)
  | [] => none
  | conn :: rest => if server.ping conn then some (conn, rest) else takeAlive server rest

def acquire (pool : MysqlConnectionPool κ) (server : Server κ) :
    AcquireResult κ × MysqlConnectionPool κ :=
  match takeAlive server pool.idle with
  | some (conn, rest) =>
    (.returned conn, { pool with idle := rest, borrowed := conn :: pool.borrowed })
  | none =>
    if pool.created < pool.size then
      match server.connect with
      | some conn =>
        (.returned conn,
          { pool with
            created := pool.created + 1
            idle := []
            borrowed := conn :: pool.borrowed })
      | none => (.raised, { pool with created := pool.created + 1, idle := [] })
    else (.waits, { pool with idle := [], waiting := pool.waiting + 1 })

/-- A call that waits gets the first idle connection, and connects anew if it is dead. -/
def resume (pool : MysqlConnectionPool κ) (server : Server κ) :
    Option (AcquireResult κ × MysqlConnectionPool κ) :=
  match pool.idle, pool.waiting with
  | conn :: rest, waiting + 1 =>
    if server.ping conn then
      some (.returned conn,
        { pool with idle := rest, borrowed := conn :: pool.borrowed, waiting := waiting })
    else
      match server.connect with
      | some fresh =>
        some (.returned fresh,
          { pool with idle := rest, borrowed := fresh :: pool.borrowed, waiting := waiting })
      | none => some (.raised, { pool with idle := rest, waiting := waiting })
  | _, _ => none

/-- A call that waits gives up. -/
def timeout (pool : MysqlConnectionPool κ) : Option (MysqlConnectionPool κ) :=
  match pool.waiting with
  | 0 => none
  | waiting + 1 => some { pool with waiting := waiting }

/-- A connection that was borrowed goes back, or is closed where the queue is full. -/
def release [DecidableEq κ] (pool : MysqlConnectionPool κ) (conn : κ) :
    Option (MysqlConnectionPool κ) :=
  if conn ∈ pool.borrowed then
    some { pool with
      borrowed := pool.borrowed.erase conn
      idle := if pool.idle.length < pool.size then pool.idle ++ [conn] else pool.idle }
  else none

def step [DecidableEq κ] (pool : MysqlConnectionPool κ) :
    PoolStep κ → Option (MysqlConnectionPool κ)
  | .acquire server => some (pool.acquire server).2
  | .resume server => (pool.resume server).map Prod.snd
  | .timeout => pool.timeout
  | .release conn => pool.release conn

end Operations

end MysqlConnectionPool

abbrev PoolRuns {κ : Type*} [DecidableEq κ] (start : MysqlConnectionPool κ)
    (trace : Trace (MysqlConnectionPool κ) (PoolStep κ)) : Prop :=
  Follows (fun pool label next => pool.step label = some next) start trace

/-! ## Slots -/

section Slots

variable {κ : Type*}

/-- Every connection that was created is on loan or idle, and there is room for all. -/
structure SlotsAccounted (pool : MysqlConnectionPool κ) : Prop where
  created : pool.created = pool.borrowed.length + pool.idle.length
  withinSize : pool.created ≤ pool.size

/-- While a slot is free and the server can be reached, `acquire` does not wait. -/
def Prompt (pool : MysqlConnectionPool κ) : Prop :=
  pool.borrowed.length < pool.size → ∀ server : Server κ, server.Reachable →
    ∃ conn, (pool.acquire server).1 = .returned conn ∧ server.Live conn

def NeverLosesSlot (trace : Trace (MysqlConnectionPool κ) (PoolStep κ)) : Prop :=
  ∀ entry ∈ trace, SlotsAccounted entry.2 ∧ Prompt entry.2

/-- The first idle connection answers, or connecting in its place succeeds where that is
tried: a call that waits replaces a dead connection, a call that does not wait only
connects where none is idle. -/
def KeepsSlots (pool : MysqlConnectionPool κ) : PoolStep κ → Prop
  | .acquire server =>
    (∀ conn ∈ pool.idle.head?, server.ping conn = true) ∧
      (pool.idle = [] → pool.created < pool.size → server.connect ≠ none)
  | .resume server => ∀ conn ∈ pool.idle.head?, server.ping conn = true ∨ server.connect ≠ none
  | .timeout => True
  | .release _ => True

end Slots

/-! ## One operation -/

section Steps

variable {κ : Type*} {pool next : MysqlConnectionPool κ} {server : Server κ} {conn : κ}

open MysqlConnectionPool

variable {rest : List κ}

theorem length_of_takeAlive {idle : List κ} (htake : takeAlive server idle = some (conn, rest)) :
    rest.length < idle.length := by
  induction idle with
  | nil => exact absurd htake (by simp [takeAlive])
  | cons head tail ih =>
    rw [takeAlive] at htake
    by_cases hping : server.ping head = true
    · rw [if_pos hping, Option.some.injEq, Prod.mk.injEq] at htake
      rw [htake.2]
      exact Nat.lt_succ_self _
    · rw [if_neg hping] at htake
      exact (ih htake).trans (Nat.lt_succ_self _)

/-- Where no connection is idle, `acquire` connects or waits. -/
theorem slots_acquire_of_nil (hslots : SlotsAccounted pool) (hidle : pool.idle = []) :
    SlotsAccounted (pool.acquire server).2 ↔
      (pool.created < pool.size → server.connect ≠ none) := by
  obtain ⟨hcreated, hsize⟩ := hslots
  rw [hidle, List.length_nil, Nat.add_zero] at hcreated
  simp only [acquire, hidle, takeAlive]
  by_cases hroom : pool.created < pool.size
  · rw [if_pos hroom]
    cases hconnect : server.connect with
    | some fresh =>
      apply iff_of_true
      · exact ⟨by simp [hcreated], hroom⟩
      · simp
    | none =>
      apply iff_of_false
      · intro hafter
        have hcount : pool.created + 1 = pool.borrowed.length := hafter.created
        omega
      · simp [hroom]
  · rw [if_neg hroom]
    apply iff_of_true
    · exact ⟨hcreated, hsize⟩
    · exact fun h => absurd h hroom

/-- A dead connection that `acquire` drops keeps its slot. -/
theorem slots_acquire_of_dead (hslots : SlotsAccounted pool) (hidle : pool.idle = conn :: rest)
    (hdead : ¬server.ping conn = true) : ¬SlotsAccounted (pool.acquire server).2 := by
  intro hafter
  have hcreated := hslots.created
  have hcount := hafter.created
  rw [hidle, List.length_cons] at hcreated
  simp only [acquire, hidle, takeAlive, if_neg hdead] at hcount
  cases htake : takeAlive server rest with
  | some taken =>
    have hshorter := length_of_takeAlive htake
    simp only [htake, List.length_cons] at hcount
    omega
  | none =>
    simp only [htake] at hcount
    split at hcount
    · split at hcount <;> simp only [List.length_cons, List.length_nil] at hcount <;> omega
    · simp only [List.length_nil] at hcount
      omega

theorem acquire_of_alive (hidle : pool.idle = conn :: rest) (halive : server.ping conn = true) :
    pool.acquire server =
      (.returned conn, { pool with idle := rest, borrowed := conn :: pool.borrowed }) := by
  simp only [acquire, hidle, takeAlive, if_pos halive]

theorem slots_borrow {waiting : ℕ} (fresh : κ) (hslots : SlotsAccounted pool)
    (hidle : pool.idle = conn :: rest) :
    SlotsAccounted
      { pool with idle := rest, borrowed := fresh :: pool.borrowed, waiting := waiting } := by
  obtain ⟨hcreated, hsize⟩ := hslots
  rw [hidle, List.length_cons] at hcreated
  refine ⟨?_, hsize⟩
  simp only [List.length_cons]
  omega

section

variable (hslots : SlotsAccounted pool)

include hslots

theorem slots_acquire_iff :
    SlotsAccounted (pool.acquire server).2 ↔ KeepsSlots pool (.acquire server) := by
  unfold KeepsSlots
  cases hidle : pool.idle with
  | nil => simpa [hidle] using slots_acquire_of_nil hslots hidle
  | cons conn rest =>
    by_cases halive : server.ping conn = true
    · apply iff_of_true
      · rw [acquire_of_alive hidle halive]
        exact slots_borrow conn hslots hidle
      · simpa using halive
    · apply iff_of_false (slots_acquire_of_dead hslots hidle halive)
      intro hkeeps
      exact halive (hkeeps.1 conn rfl)

theorem slots_resume_iff {result : AcquireResult κ}
    (hresume : pool.resume server = some (result, next)) :
    SlotsAccounted next ↔ KeepsSlots pool (.resume server) := by
  unfold resume at hresume
  split at hresume
  next conn rest waiting hidle _ =>
    have hkeeps : KeepsSlots pool (.resume server) ↔
        server.ping conn = true ∨ server.connect ≠ none := by
      simp [KeepsSlots, hidle]
    rw [hkeeps]
    split at hresume
    next halive =>
      obtain ⟨_, rfl⟩ := Prod.mk.inj (Option.some.inj hresume)
      exact iff_of_true (slots_borrow conn hslots hidle) (Or.inl halive)
    next hdead =>
      cases hconnect : server.connect with
      | some fresh =>
        rw [hconnect] at hresume
        obtain ⟨_, rfl⟩ := Prod.mk.inj (Option.some.inj hresume)
        exact iff_of_true (slots_borrow fresh hslots hidle) (Or.inr (by simp))
      | none =>
        rw [hconnect] at hresume
        obtain ⟨_, rfl⟩ := Prod.mk.inj (Option.some.inj hresume)
        apply iff_of_false
        · intro hafter
          have hcreated := hslots.created
          have hcount : pool.created = pool.borrowed.length + rest.length := hafter.created
          rw [hidle, List.length_cons] at hcreated
          omega
        · simp [hdead]
  next => exact absurd hresume (by simp)

theorem slots_timeout (htimeout : pool.timeout = some next) : SlotsAccounted next := by
  unfold timeout at htimeout
  split at htimeout
  · exact absurd htimeout (by simp)
  · obtain rfl := Option.some.inj htimeout
    exact ⟨hslots.created, hslots.withinSize⟩

/-- There is room for a connection that was borrowed. -/
theorem slots_release [DecidableEq κ] (hrelease : pool.release conn = some next) :
    SlotsAccounted next := by
  unfold release at hrelease
  split at hrelease
  next hborrowed =>
    obtain rfl := Option.some.inj hrelease
    obtain ⟨hcreated, hsize⟩ := hslots
    have hpos : 0 < pool.borrowed.length := List.length_pos_of_mem hborrowed
    have hroom : pool.idle.length < pool.size := by omega
    refine ⟨?_, hsize⟩
    simp only [if_pos hroom, List.length_erase_of_mem hborrowed, List.length_append,
      List.length_singleton]
    omega
  next => exact absurd hrelease (by simp)

theorem slots_step_iff [DecidableEq κ] {label : PoolStep κ}
    (hstep : pool.step label = some next) : SlotsAccounted next ↔ KeepsSlots pool label := by
  cases label with
  | acquire server =>
    obtain rfl := Option.some.inj hstep
    exact slots_acquire_iff hslots
  | resume server =>
    obtain ⟨⟨result, after⟩, hresume, rfl⟩ := Option.map_eq_some_iff.mp hstep
    exact slots_resume_iff hslots hresume
  | timeout => exact iff_of_true (slots_timeout hslots hstep) trivial
  | release conn => exact iff_of_true (slots_release hslots hstep) trivial

/-- A pool that accounts for its slots hands out a connection while one is free. -/
theorem prompt_of_accounted : Prompt pool := by
  intro hfree server hreachable
  cases hidle : pool.idle with
  | cons conn rest =>
    have halive := hreachable.ping conn
    refine ⟨conn, ?_, Or.inl halive⟩
    rw [acquire_of_alive hidle halive]
  | nil =>
    obtain ⟨fresh, hconnect⟩ := Option.ne_none_iff_exists'.mp hreachable.connect
    have hcreated := hslots.created
    rw [hidle, List.length_nil, Nat.add_zero] at hcreated
    have hroom : pool.created < pool.size := hcreated ▸ hfree
    refine ⟨fresh, ?_, Or.inr hconnect⟩
    simp only [acquire, hidle, takeAlive, if_pos hroom, hconnect]

end

theorem slots_new (poolSize : ℤ) : SlotsAccounted (.new poolSize : MysqlConnectionPool κ) :=
  ⟨rfl, Nat.zero_le _⟩

end Steps

/-! ## Runs of the pool -/

/-- A pool never loses a slot exactly when no call of `acquire` drops a dead connection
or fails to connect for a slot that it takes. -/
theorem never_loses_slot_iff {κ : Type*} [DecidableEq κ] {poolSize : ℤ}
    {trace : Trace (MysqlConnectionPool κ) (PoolStep κ)} (hruns : PoolRuns (.new poolSize) trace) :
    NeverLosesSlot trace ↔ Guarded KeepsSlots (.new poolSize) trace := by
  have hslots : (∀ entry ∈ trace, SlotsAccounted entry.2) ↔
      Guarded KeepsSlots (.new poolSize) trace :=
    forall_inv_iff_guarded SlotsAccounted hruns (slots_new poolSize)
      fun _ _ _ hslots hstep => slots_step_iff hslots hstep
  rw [← hslots]
  constructor
  · exact fun hnever entry hentry => (hnever entry hentry).1
  · exact fun hall entry hentry =>
      ⟨hall entry hentry, prompt_of_accounted (hall entry hentry)⟩

/-! ## An outage -/

/-- The states that these operations pass from a new pool of one connection. -/
def smallPoolTrace (labels : List (PoolStep ℕ)) :
    Trace (MysqlConnectionPool ℕ) (PoolStep ℕ) :=
  (record MysqlConnectionPool.step (.new 1) labels).getD []

/-- The server is up and gives this connection. -/
def serverUp (conn : ℕ) : Server ℕ where
  ping := fun _ => true
  connect := some conn

def serverDown : Server ℕ where
  ping := fun _ => false
  connect := none

/-- A second call waits while the only connection is out, and gets it after an outage. -/
def handedOn : List (PoolStep ℕ) :=
  [.acquire (serverUp 0), .acquire (serverUp 1), .release 0,
    .resume { ping := fun _ => false, connect := some 2 }]

theorem handedOn_never_loses_slot : NeverLosesSlot (smallPoolTrace handedOn) := by
  have hrecord : record MysqlConnectionPool.step (.new 1) handedOn =
      some (smallPoolTrace handedOn) := rfl
  apply (never_loses_slot_iff (follows_of_record hrecord)).mpr
  refine ⟨⟨by decide, by decide⟩, ⟨by decide, ?_⟩, trivial, ?_, trivial⟩
  · intro _ hroom
    exact absurd hroom (by decide)
  · exact fun _ _ => Or.inr (by simp)

/-- The idle connection dies in an outage. -/
def outage : List (PoolStep ℕ) :=
  [.acquire (serverUp 0), .release 0, .acquire serverDown, .timeout]

theorem outage_loses_slot :
    PoolRuns (.new 1) (smallPoolTrace outage) ∧ ¬NeverLosesSlot (smallPoolTrace outage) := by
  have hrecord : record MysqlConnectionPool.step (.new 1) outage =
      some (smallPoolTrace outage) := rfl
  refine ⟨follows_of_record hrecord, ?_⟩
  intro hnever
  have hlast : 3 < (smallPoolTrace outage).length := by decide
  have hcount : 1 = 0 := (hnever _ (List.getElem_mem hlast)).1.created
  exact absurd hcount (by decide)

end RootSeeker.Storage
