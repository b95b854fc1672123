import BoundSql.Fragment.Basic
import BoundSql.Query.Rows

/-!
# A database in memory

A database that keeps what it is sent and answers what it was told to answer.  Writes become
visible at once outside a transaction; inside one they wait with their connection for the commit
and are forgotten on a rollback.
-/

namespace BoundSql

/-- A statement that a connection received. -/
structure Statement where
  /-- The number of the connection, counted from one. -/
  connection : Nat
  sql : String
  bindings : List Binding
  deriving DecidableEq

/-- Statements that change rows start with one of these words. -/
def writeWords : List String := ["INSERT", "UPDATE", "DELETE"]

/-- Whether the text is a statement that changes rows. -/
def isWrite (sql : String) : Bool := writeWords.any (Text.startsWith (Text.trimStart sql) ·)

/-- What happened to the transaction of a connection. -/
inductive Event where
  | began (connection : Nat)
  | committed (connection : Nat)
  | rolledBack (connection : Nat)
  deriving DecidableEq, Repr

/-- An event in the log. -/
def Event.text : Event → String
  | began n => "BEGIN " ++ Numeric.natText n
  | committed n => "COMMIT " ++ Numeric.natText n
  | rolledBack n => "ROLLBACK " ++ Numeric.natText n

/-- An answer for the statements it cares for. -/
abbrev Responder := String → List Binding → Option (Except Fault RowSet)

/-- The same answer to every statement that contains a text. -/
def Responder.containing (part : String) (answer : Except Fault RowSet) : Responder :=
  fun sql _ => if Text.contains sql part then some answer else none

/-- The state of the database. -/
structure Memory where
  /-- How many connections were opened. -/
  opened : Nat
  /-- Every statement received, those that failed among them. -/
  statements : List Statement
  /-- The writes that are visible outside their transaction. -/
  committed : List Statement
  events : List Event
  /-- Asked in order; the first answer counts. -/
  responders : List Responder
  /-- Why no connection can be opened, if none can. -/
  failConnect : Option String
  /-- Texts that a statement is refused for. -/
  failStatements : List String
  /-- Whether commits are refused. -/
  failCommit : Bool

/-- A connection to the database. -/
structure Connection where
  number : Nat
  /-- What it was opened with. -/
  target : String
  /-- The writes of its open transaction, if it has one. -/
  pending : Option (List Statement)

namespace Memory

/-- A database that knows nothing. -/
def fresh : Memory := ⟨0, [], [], [], [], none, [], false⟩

/-- Forgets what was received. -/
def clear (m : Memory) : Memory := { m with statements := [], committed := [], events := [] }

def addResponder (m : Memory) (r : Responder) : Memory :=
  { m with responders := m.responders ++ [r] }

def refuseStatements (m : Memory) (part : String) : Memory :=
  { m with failStatements := m.failStatements ++ [part] }

def addEvent (m : Memory) (e : Event) : Memory := { m with events := m.events ++ [e] }

/-- Opens a connection. -/
def connect (m : Memory) (target : String) : Except Fault Connection × Memory :=
  match m.failConnect with
  | some message => (.error (.refused (.connection message target)), m)
  | none =>
    let m := { m with opened := m.opened + 1 }
    (.ok ⟨m.opened, target, none⟩, m)

/-- The answer that was set up for a statement. -/
def scripted? (m : Memory) (sql : String) (bindings : List Binding) :
    Option (Except Fault RowSet) :=
  m.responders.findSome? fun r => r sql bindings

/-- The answer to a statement that none was set up for.  A write changes one row for each tuple it
has. -/
def defaultAnswer (sql : String) : RowSet :=
  if isWrite sql then .changed (Text.occurrences sql "), (" + 1) else .empty

end Memory

namespace Connection

/-- Keeps a write: with its transaction if one is open, and else for all to see. -/
def keep (c : Connection) (m : Memory) (s : Statement) : Connection × Memory :=
  match c.pending with
  | some writes => ({ c with pending := some (writes ++ [s]) }, m)
  | none => (c, { m with committed := m.committed ++ [s] })

/-- Runs a statement. -/
def run (c : Connection) (sql : String) (bindings : List Binding) (m : Memory) :
    Except Fault RowSet × Connection × Memory :=
  let s : Statement := ⟨c.number, sql, bindings⟩
  let m := { m with statements := m.statements ++ [s] }
  match m.failStatements.find? (Text.contains sql ·) with
  | some part => (.error (.refused (.statement part)), c, m)
  | none =>
    let answer := (m.scripted? sql bindings).getD (.ok (Memory.defaultAnswer sql))
    if isWrite sql then (answer, c.keep m s) else (answer, c, m)

/-- Starts a transaction. -/
def begin (c : Connection) (m : Memory) : Except Fault Unit × Connection × Memory :=
  match c.pending with
  | some _ => (.error (.refused .begun), c, m)
  | none => (.ok (), { c with pending := some [] }, m.addEvent (.began c.number))

/-- Makes the writes of the transaction visible.  The transaction ends also when that is
refused. -/
def commit (c : Connection) (m : Memory) : Except Fault Unit × Connection × Memory :=
  match c.pending with
  | none => (.error (.refused .nothingToCommit), c, m)
  | some writes =>
    let c := { c with pending := none }
    if m.failCommit then (.error (.refused .commit), c, m)
    else
      (.ok (), c, { m with committed := m.committed ++ writes }.addEvent (.committed c.number))

/-- Forgets the writes of the transaction. -/
def rollback (c : Connection) (m : Memory) : Except Fault Unit × Connection × Memory :=
  match c.pending with
  | none => (.error (.refused .nothingToRollBack), c, m)
  | some _ => (.ok (), { c with pending := none }, m.addEvent (.rolledBack c.number))

end Connection

end BoundSql
