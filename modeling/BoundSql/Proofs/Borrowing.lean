import BoundSql.Proofs.Sequencing
import BoundSql.Session.Basic

/-!
# Borrowing connections

A statement runs on the connection that its session has pinned, and else on one that the pool gives
out: an idle one, or a new one.  A transaction begins on one that the pool gives out.  Either fails
for want of a connection only when none can be opened, and then leaves the pool and the database as
they were (`Pool.of_acquire_error`).
-/

namespace BoundSql

/-! ### Taking connections -/

theorem Pool.perm_of_takeFirst? {key : PoolKey} {idle rest : List (PoolKey × Connection)}
    {c : Connection} (h : takeFirst? key idle = some (c, rest)) : idle.Perm ((key, c) :: rest) := by
  induction idle generalizing rest with
  | nil => cases h
  | cons entry idle ih =>
    obtain ⟨other, first⟩ := entry
    rw [takeFirst?] at h
    by_cases hkey : other = key
    · rw [if_pos hkey] at h
      cases h
      rw [hkey]
    · rw [if_neg hkey] at h
      obtain ⟨⟨taken, left⟩, htaken, heq⟩ := Option.map_eq_some_iff.mp h
      cases heq
      exact ((ih htaken).cons _).trans (List.Perm.swap _ _ _)

theorem Pool.key_ne_of_takeFirst? {key : PoolKey} {idle : List (PoolKey × Connection)}
    (h : takeFirst? key idle = none) : ∀ entry ∈ idle, entry.1 ≠ key := by
  induction idle with
  | nil => simp
  | cons entry idle ih =>
    obtain ⟨other, first⟩ := entry
    rw [takeFirst?] at h
    by_cases hkey : other = key
    · rw [if_pos hkey] at h
      cases h
    · rw [if_neg hkey, Option.map_eq_none_iff] at h
      intro e he
      rcases List.mem_cons.mp he with rfl | he
      · exact hkey
      · exact ih h e he

/-- A connection is opened with what it is asked for, outside of any transaction. -/
theorem Memory.of_connect_ok {m after : Memory} {target : String} {c : Connection}
    (h : m.connect target = (.ok c, after)) :
    c = ⟨m.opened + 1, target, none⟩ ∧ after = { m with opened := m.opened + 1 } := by
  unfold connect at h
  split at h
  · cases h
  · cases h
    exact ⟨rfl, rfl⟩

theorem Memory.of_connect_error {m after : Memory} {target : String} {e : Fault}
    (h : m.connect target = (.error e, after)) :
    after = m ∧
      ∃ message, m.failConnect = some message ∧ e = .refused (.connection message target) := by
  unfold connect at h
  split at h
  · next message hfail =>
    cases h
    exact ⟨rfl, message, hfail, rfl⟩
  · cases h

namespace Pool

variable {p pool : Pool} {key : PoolKey} {m memory : Memory}

theorem of_acquire_ok {c : Connection} (h : p.acquire key m = (.ok c, pool, memory)) :
    (takeFirst? key p.idle = some (c, pool.idle) ∧ memory = m) ∨
      (takeFirst? key p.idle = none ∧ pool = p ∧ c = ⟨m.opened + 1, key.target, none⟩ ∧
        memory = { m with opened := m.opened + 1 }) := by
  unfold acquire at h
  cases htake : takeFirst? key p.idle with
  | some taken =>
    rw [htake] at h
    cases h
    exact .inl ⟨rfl, rfl⟩
  | none =>
    rw [htake] at h
    rcases hconnect : m.connect key.target with ⟨r, after⟩
    rw [hconnect] at h
    cases h
    obtain ⟨rfl, rfl⟩ := Memory.of_connect_ok hconnect
    exact .inr ⟨rfl, rfl, rfl, rfl⟩

theorem of_acquire_error {e : Fault} (h : p.acquire key m = (.error e, pool, memory)) :
    pool = p ∧ memory = m ∧
      ∃ message, m.failConnect = some message ∧ e = .refused (.connection message key.target) := by
  unfold acquire at h
  cases htake : takeFirst? key p.idle with
  | some taken =>
    rw [htake] at h
    cases h
  | none =>
    rw [htake] at h
    rcases hconnect : m.connect key.target with ⟨r, after⟩
    rw [hconnect] at h
    cases h
    obtain ⟨rfl, hmessage⟩ := Memory.of_connect_error hconnect
    exact ⟨rfl, rfl, hmessage⟩

end Pool

/-! ### Running a statement -/

/-- What is shared after a statement was shown to the observer of a session, if it has one. -/
def Service.showing (service : Service) (session : Session) (sql : String)
    (bindings : List Binding) : Service :=
  if session.observed then { service with observed := service.observed ++ [(sql, bindings)] }
  else service

@[simp] theorem Service.showing_memory (service : Service) (session : Session) (sql : String)
    (bindings : List Binding) : (service.showing session sql bindings).memory = service.memory := by
  unfold showing
  split <;> rfl

@[simp] theorem Service.showing_pool (service : Service) (session : Session) (sql : String)
    (bindings : List Binding) : (service.showing session sql bindings).pool = service.pool := by
  unfold showing
  split <;> rfl

namespace Act

variable {service : Service} {session : Session} (sql : String) (bindings : List Binding)

theorem run_eq :
    run sql bindings (service, session) =
      match service.pool.borrow session.key session.pinned service.memory with
      | (.error e, pool, memory) =>
        (.error e, { service.showing session sql bindings with pool, memory }, session)
      | (.ok lease, pool, memory) =>
        (inCircumstance (.executing sql) (lease.connection.run sql bindings memory).1,
          { service.showing session sql bindings with
            pool := (pool.giveBack session.key
              (lease.withConnection (lease.connection.run sql bindings memory).2.1)).2,
            memory := (lease.connection.run sql bindings memory).2.2 },
          { session with
            pinned := (pool.giveBack session.key
              (lease.withConnection (lease.connection.run sql bindings memory).2.1)).1 }) := by
  show (match (service.showing session sql bindings).pool.borrow session.key session.pinned
      (service.showing session sql bindings).memory with
    | (.error e, pool, memory) => _
    | (.ok lease, pool, memory) => _) = _
  rw [Service.showing_pool, Service.showing_memory]
  rcases service.pool.borrow session.key session.pinned service.memory with ⟨_ | lease, rest⟩
  · rfl
  · rfl

theorem run_of_pinned {c : Connection} (hpinned : session.pinned = some c) :
    run sql bindings (service, session) =
      (inCircumstance (.executing sql) (c.run sql bindings service.memory).1,
        { service.showing session sql bindings with
          memory := (c.run sql bindings service.memory).2.2 },
        { session with pinned := some (c.run sql bindings service.memory).2.1 }) := by
  rw [run_eq, hpinned]
  simp only [Pool.borrow, Lease.connection, Lease.withConnection, Pool.giveBack,
    ← Service.showing_pool service session sql bindings]

theorem run_of_acquired {c : Connection} {pool : Pool} {memory : Memory}
    (hpinned : session.pinned = none)
    (hacquire : service.pool.acquire session.key service.memory = (.ok c, pool, memory)) :
    run sql bindings (service, session) =
      (inCircumstance (.executing sql) (c.run sql bindings memory).1,
        { service.showing session sql bindings with
          pool := pool.release session.key (c.run sql bindings memory).2.1,
          memory := (c.run sql bindings memory).2.2 }, session) := by
  have hsession : { session with pinned := none } = session := by rw [← hpinned]
  rw [run_eq, hpinned]
  simp only [Pool.borrow, hacquire, Lease.connection, Lease.withConnection, Pool.giveBack,
    hsession]

theorem run_of_refused {e : Fault} {pool : Pool} {memory : Memory}
    (hpinned : session.pinned = none)
    (hacquire : service.pool.acquire session.key service.memory = (.error e, pool, memory)) :
    run sql bindings (service, session) =
      (.error e, service.showing session sql bindings, session) := by
  obtain ⟨rfl, rfl, -⟩ := Pool.of_acquire_error hacquire
  rw [run_eq, hpinned]
  simp only [Pool.borrow, hacquire]
  simp only [← Service.showing_pool service session sql bindings,
    ← Service.showing_memory service session sql bindings]

/-! ### Beginning a transaction -/

variable {service : Service} {session : Session}

theorem begin_of_open {c : Connection} (hpinned : session.pinned = some c) :
    begin (service, session) = (.error (.transaction .alreadyOpen), service, session) := by
  unfold begin
  simp only [hpinned]

theorem begin_of_refused {e : Fault} {pool : Pool} {memory : Memory}
    (hpinned : session.pinned = none)
    (hacquire : service.pool.acquire session.key service.memory = (.error e, pool, memory)) :
    begin (service, session) = (.error e, service, session) := by
  obtain ⟨rfl, rfl, -⟩ := Pool.of_acquire_error hacquire
  unfold begin
  simp only [hpinned, hacquire]

theorem begin_of_acquired {c : Connection} {pool : Pool} {memory : Memory}
    (hpinned : session.pinned = none)
    (hacquire : service.pool.acquire session.key service.memory = (.ok c, pool, memory))
    (hc : c.pending = none) :
    begin (service, session) =
      (.ok (), { service with pool, memory := memory.addEvent (.began c.number) },
        { session with pinned := some { c with pending := some [] } }) := by
  unfold begin
  simp only [hpinned, hacquire, Connection.begin, hc]

end Act

end BoundSql
