import BoundSql.Memory.Pool
import BoundSql.Query.Fetch

/-!
# Sessions

A session runs statements one after the other.  Each borrows a connection of the pool and gives it
back, whether it fails or not; while a transaction is open every statement runs on the connection
that it has pinned.  A connection whose transaction failed to begin, to commit or to roll back is
never given back.
-/

namespace BoundSql

/-- What the sessions of a pool share: the database, the pool, and the statements that observers
saw. -/
structure Service where
  memory : Memory
  pool : Pool
  observed : List (String × List Binding)

/-- One user of a pool. -/
structure Session where
  dialect : Dialect
  key : PoolKey
  /-- The most rows of one insert. -/
  batchSize : Nat
  /-- Whether the database generates keys, where neither column nor table says. -/
  generated : Bool
  /-- Whether an observer sees the statements before they run. -/
  observed : Bool
  /-- The connection pinned by the open transaction. -/
  pinned : Option Connection
  /-- Rows as they were last known, by table and key. -/
  snapshots : List ((String × String) × List Value)

/-- What a session does, on what it shares and on itself. -/
abbrev Act := Run (Service × Session)

namespace Session

/-- Whether a transaction is open. -/
def inTransaction (s : Session) : Bool := s.pinned.isSome

end Session

/-- The fault in the circumstance it arose in. -/
def inCircumstance {α : Type} (c : Circumstance) : Except Fault α → Except Fault α
  | .error e => .error (.within c e)
  | .ok x => .ok x

namespace Act

/-- Shows a statement to the observer. -/
def observe (sql : String) (bindings : List Binding) : Act Unit :=
  modify fun (service, session) =>
    (if session.observed then { service with observed := service.observed ++ [(sql, bindings)] }
      else service, session)

/-- Runs a statement. -/
def run : Executor (Service × Session) := fun sql bindings => do
  observe sql bindings
  fun (service, session) =>
    match service.pool.borrow session.key session.pinned service.memory with
    | (.error e, pool, memory) => (.error e, { service with pool, memory }, session)
    | (.ok lease, pool, memory) =>
      let (answer, c, memory) := lease.connection.run sql bindings memory
      let (pinned, pool) := pool.giveBack session.key (lease.withConnection c)
      (inCircumstance (.executing sql) answer, { service with pool, memory },
        { session with pinned })

/-- Runs a fragment in the dialect of the session. -/
def runFragment (f : Fragment) : Act RowSet := do
  let (_, session) ← get
  run (session.dialect.render f) f.bindings

/-! ### Transactions -/

/-- Pins a connection and starts a transaction on it. -/
def begin : Act Unit := fun (service, session) =>
  match session.pinned with
  | some _ => (.error (.transaction .alreadyOpen), service, session)
  | none =>
    match service.pool.acquire session.key service.memory with
    | (.error e, pool, memory) => (.error e, { service with pool, memory }, session)
    | (.ok c, pool, memory) =>
      match c.begin memory with
      | (.error e, _, memory) =>
        (.error (.within .beginning e), { service with pool, memory }, session)
      | (.ok (), c, memory) =>
        (.ok (), { service with pool, memory }, { session with pinned := some c })

/-- Ends the transaction in one of its two ways; where that succeeds the connection goes back to
the pool. -/
def finish (missing : TransactionFault)
    (step : Connection → Memory → Except Fault Unit × Connection × Memory) : Act Unit :=
  fun (service, session) =>
    match session.pinned with
    | none => (.error (.transaction missing), service, session)
    | some c =>
      let session := { session with pinned := none }
      match step c service.memory with
      | (.error e, _, memory) => (.error e, { service with memory }, session)
      | (.ok (), c, memory) =>
        (.ok (), { service with memory, pool := service.pool.release session.key c }, session)

def commit : Act Unit := finish .nothingToCommit Connection.commit

def rollback : Act Unit := finish .nothingToRollBack Connection.rollback

/-! ### Queries -/

/-- The entities of a statement. -/
def queryList (s : Schema) (f : Fragment) : Act (List (Entity s)) := do
  let rows ← runFragment f
  Run.ofExcept (Entity.ofRows s rows.labeled)

/-- The first entity of a statement. -/
def queryOne (s : Schema) (f : Fragment) : Act (Option (Entity s)) := do
  let rows ← runFragment f
  Run.ofExcept (Builder.firstEntity s rows)

/-- The single value of a statement. -/
def queryScalar (t : NativeType) (f : Fragment) : Act t.Carrier := do
  let rows ← runFragment f
  Run.ofExcept (t.decode rows.scalar)

/-- What a statement changed. -/
def execute (f : Fragment) : Act Affected := do
  let rows ← runFragment f
  return rows.affected

/-- The entity of a key. -/
def findById (s : Schema) (id : Value) : Act (Option (Entity s)) := do
  let key ← Run.ofExcept s.requireKey
  let (_, session) ← get
  let all := (Builder.new session.dialect).select s "t"
  let (r, b) := Building.filter (.equals (s.ref key) id) all
  Run.ofExcept r
  b.fetchOne run s

/-- The number of 64 bits after the greatest key, one for an empty table. -/
def queryNextId (s : Schema) : Act Int := do
  let key ← Run.ofExcept s.requireKey
  let (_, session) ← get
  let rows ← run (session.dialect.maxIdSql s.table key.name) []
  let greatest ← Run.ofExcept (inCircumstance (.readingMaximum key.name)
    ((NativeType.option (.base (.integer .int64))).decode rows.scalar))
  return (greatest.map (·.next.toInt)).getD 1

end Act

end BoundSql
