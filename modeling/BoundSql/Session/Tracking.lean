import BoundSql.Schema.Write
import BoundSql.Session.Basic

/-!
# Writing and tracking entities

Inserts, deletes, and updates that write what changed.  A session may hold the row of an entity as
it was last known; an update then writes only the columns that differ from it, and nothing when
none does.  The row held follows each update that succeeds, and a successful delete drops it.
-/

namespace BoundSql

namespace Session

/-- The key of a row as text.  Integers are the same in every width. -/
def keyText (id : Value) : String :=
  match id.asInteger with
  | some n => Numeric.intText n
  | none => id.describe

/-- What the row of an entity is held under. -/
def snapshotKey (s : Schema) (id : Value) : String × String := (s.table, keyText id)

/-- The row held under a key. -/
def snapshot? (session : Session) (key : String × String) : Option (List Value) :=
  session.snapshots.lookup key

/-- Holds a row under a key. -/
def hold (session : Session) (key : String × String) (row : List Value) : Session :=
  { session with snapshots := (key, row) :: session.snapshots.filter (·.1 != key) }

/-- Holds no row under a key. -/
def drop (session : Session) (key : String × String) : Session :=
  { session with snapshots := session.snapshots.filter (·.1 != key) }

end Session

/-- Whether two values are the same, or both missing. -/
def sameCell : Option Value → Option Value → Bool
  | some v, some w => v.same w
  | none, none => true
  | _, _ => false

/-- The places of the columns, apart from keys, whose values are not those of the old row. -/
def changedPlaces (columns : List Column) (old : Option (List Value)) (row : List Value) :
    List Nat :=
  (columns.zipIdx.filter fun (c, place) =>
    !c.primaryKey && !old.any fun old => sameCell old[place]? row[place]?).map (·.2)

/-- The items in runs of `size`, the last one possibly shorter. -/
def chunks {α : Type} (size : Nat) (items : List α) : List (List α) :=
  match items with
  | [] => []
  | item :: rest => (item :: rest.take (size - 1)) :: chunks size (rest.drop (size - 1))
termination_by items.length
decreasing_by
  simp only [List.length_drop, List.length_cons]
  omega

/-- What two statements changed together. -/
def Affected.add (a b : Affected) : Affected :=
  ⟨a.rows + b.rows, b.lastId.orElse fun _ => a.lastId⟩

namespace Act

/-- Inserts entities in one statement. -/
def insertBatch (s : Schema) (entities : List (Entity s)) : Act Affected := do
  let (_, session) ← get
  execute (s.insert session.dialect entities session.generated)

/-- Inserts an entity. -/
def insert (s : Schema) (e : Entity s) : Act Affected := insertBatch s [e]

/-- Inserts batches one after the other, after something was changed already. -/
def insertBatches (s : Schema) (sum : Affected) : List (List (Entity s)) → Act Affected
  | [] => pure sum
  | batch :: more => do
    let affected ← insertBatch s batch
    insertBatches s (sum.add affected) more

/-- Inserts entities in statements of at most the batch size of the session. -/
def insertMany (s : Schema) (entities : List (Entity s)) : Act Affected := do
  let (_, session) ← get
  insertBatches s .nothing (chunks session.batchSize entities)

/-- Changes the session itself. -/
def modifySession (f : Session → Session) : Act Unit :=
  modify fun (service, session) => (service, f session)

/-- Holds the row of an entity. -/
def attachOld (s : Schema) (e : Entity s) : Act Unit :=
  modifySession (·.hold (Session.snapshotKey s e.key) e.row)

/-- Writes what changed in an entity. -/
def update (s : Schema) (e : Entity s) : Act Affected := do
  let _ ← Run.ofExcept s.requireKey
  let (_, session) ← get
  let key := Session.snapshotKey s e.key
  match changedPlaces s.columns (session.snapshot? key) e.row with
  | [] => return .nothing
  | changed => do
    let statement ← Run.ofExcept (s.update session.dialect e changed)
    let affected ← execute statement
    modifySession fun session =>
      if (session.snapshot? key).isSome then session.hold key e.row else session
    return affected

/-- Deletes the entity of a key. -/
def deleteById (s : Schema) (id : Value) : Act Affected := do
  let (_, session) ← get
  let statement ← Run.ofExcept (s.deleteById session.dialect id)
  let affected ← execute statement
  modifySession (·.drop (Session.snapshotKey s id))
  return affected

/-- Deletes an entity. -/
def delete (s : Schema) (e : Entity s) : Act Affected := deleteById s e.key

end Act

end BoundSql
