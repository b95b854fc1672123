import BoundSql.Memory.Basic

/-!
# Pools of connections

Idle connections in the order in which they came back, each under the key it was taken for.  A
connection is taken from the front, and opened when none is idle under the key; there is no upper
bound.
-/

namespace BoundSql

/-- What connections are kept apart by: the dialect and what they are opened with. -/
structure PoolKey where
  dialect : String
  target : String
  deriving DecidableEq, Repr

def PoolKey.text (k : PoolKey) : String := k.dialect ++ "_" ++ k.target

/-- Idle connections. -/
structure Pool where
  idle : List (PoolKey × Connection)

namespace Pool

def empty : Pool := ⟨[]⟩

/-- The idle connections of a key, the next one to be taken first. -/
def queue (p : Pool) (key : PoolKey) : List Connection :=
  (p.idle.filter (·.1 == key)).map (·.2)

/-- The first connection of a key, and the others. -/
def takeFirst? (key : PoolKey) :
    List (PoolKey × Connection) → Option (Connection × List (PoolKey × Connection))
  | [] => none
  | (other, c) :: rest =>
    if other = key then some (c, rest)
    else (takeFirst? key rest).map fun (taken, left) => (taken, (other, c) :: left)

/-- Takes an idle connection of the key, or opens one. -/
def acquire (p : Pool) (key : PoolKey) (m : Memory) : Except Fault Connection × Pool × Memory :=
  match takeFirst? key p.idle with
  | some (c, idle) => (.ok c, ⟨idle⟩, m)
  | none =>
    let (r, m) := m.connect key.target
    (r, p, m)

/-- Gives a connection back. -/
def release (p : Pool) (key : PoolKey) (c : Connection) : Pool := ⟨p.idle ++ [(key, c)]⟩

/-- How many connections of the key are idle. -/
def idleCount (p : Pool) (key : PoolKey) : Nat := (p.queue key).length

end Pool

/-- A connection to run one statement on: that of an open transaction, or one of the pool. -/
inductive Lease where
  | bound (c : Connection)
  | pooled (c : Connection)

namespace Lease

def connection : Lease → Connection
  | bound c => c
  | pooled c => c

/-- The lease after its connection has changed. -/
def withConnection : Lease → Connection → Lease
  | bound _, c => .bound c
  | pooled _, c => .pooled c

end Lease

namespace Pool

/-- The connection pinned by a transaction, if there is one, or one of the pool. -/
def borrow (p : Pool) (key : PoolKey) (pinned : Option Connection) (m : Memory) :
    Except Fault Lease × Pool × Memory :=
  match pinned with
  | some c => (.ok (.bound c), p, m)
  | none =>
    match p.acquire key m with
    | (.error e, p, m) => (.error e, p, m)
    | (.ok c, p, m) => (.ok (.pooled c), p, m)

/-- Ends a lease: a pinned connection stays with its transaction. -/
def giveBack (p : Pool) (key : PoolKey) : Lease → Option Connection × Pool
  | .bound c => (some c, p)
  | .pooled c => (none, p.release key c)

end Pool

end BoundSql
