import BoundSql.Proofs.Holdings
import BoundSql.Session.Client

/-!
# Many sessions on one pool

Everything that can happen to a pool, as data: clients open sessions, sessions are asked for
something or dropped, and the database is told what to refuse.  A world is the pool with the
sessions that were opened on it, and a list of commands in any order runs from an empty one.
-/

namespace BoundSql

/-! ### Requests -/

/-- What can be asked of a statement in the making. -/
inductive Question where
  | rows
  | scalar (t : NativeType)
  | presence
  | count
  | pageCount (size : Nat)
  | list (s : Schema)
  | one (s : Schema)
  | page (s : Schema) (page size : Nat)
  | paged (s : Schema) (page size : Nat)
  | change
  | deletion (s : Schema)

/-- What can be asked of a session. -/
inductive Request where
  | begin
  | commit
  | rollback
  | run (sql : String) (bindings : List Binding)
  | execute (f : Fragment)
  | queryList (s : Schema) (f : Fragment)
  | queryOne (s : Schema) (f : Fragment)
  | queryScalar (t : NativeType) (f : Fragment)
  | queryNextId (s : Schema)
  | findById (s : Schema) (id : Value)
  | insert (s : Schema) (e : Entity s)
  | insertMany (s : Schema) (entities : List (Entity s))
  | update (s : Schema) (e : Entity s)
  | delete (s : Schema) (e : Entity s)
  | deleteById (s : Schema) (id : Value)
  | attachOld (s : Schema) (e : Entity s)
  | fetch (b : Builder) (question : Question)

namespace Act

/-- The computation without its result. -/
def ignoring {α : Type} (c : Act α) : Act Unit := c >>= fun _ => pure ()

theorem Plain.ignoring {α : Type} {c : Act α} (hc : Plain c) : Plain (Act.ignoring c) :=
  .bind hc fun _ => .pure ()

end Act

/-- Asks a statement in the making. -/
def Question.act (b : Builder) : Question → Act Unit
  | rows => Act.ignoring (b.fetchRows Act.run)
  | scalar t => Act.ignoring (b.fetchScalar Act.run t)
  | presence => Act.ignoring (b.fetchExists Act.run)
  | count => Act.ignoring (b.fetchCount Act.run)
  | pageCount size => Act.ignoring (b.fetchPageCount Act.run size)
  | list s => Act.ignoring (b.fetchList Act.run s)
  | one s => Act.ignoring (b.fetchOne Act.run s)
  | page s number size => Act.ignoring (b.fetchPage Act.run s number size)
  | paged s number size => Act.ignoring (b.fetchPaged Act.run s number size)
  | change => Act.ignoring (b.execute Act.run)
  | deletion s => Act.ignoring (b.delete Act.run s)

namespace Request

/-- Asks a session. -/
def act : Request → Act Unit
  | begin => Act.begin
  | commit => Act.commit
  | rollback => Act.rollback
  | run sql bindings => Act.ignoring (Act.run sql bindings)
  | execute f => Act.ignoring (Act.execute f)
  | queryList s f => Act.ignoring (Act.queryList s f)
  | queryOne s f => Act.ignoring (Act.queryOne s f)
  | queryScalar t f => Act.ignoring (Act.queryScalar t f)
  | queryNextId s => Act.ignoring (Act.queryNextId s)
  | findById s id => Act.ignoring (Act.findById s id)
  | insert s e => Act.ignoring (Act.insert s e)
  | insertMany s entities => Act.ignoring (Act.insertMany s entities)
  | update s e => Act.ignoring (Act.update s e)
  | delete s e => Act.ignoring (Act.delete s e)
  | deleteById s id => Act.ignoring (Act.deleteById s id)
  | attachOld s e => Act.attachOld s e
  | fetch b question => question.act b

/-- Whether the request begins or ends a transaction. -/
def isTransactional : Request → Bool
  | begin | commit | rollback => true
  | _ => false

end Request

theorem Question.plain (b : Builder) (question : Question) : Act.Plain (question.act b) := by
  cases question with
  | rows => exact (Act.plain_fetchRows b).ignoring
  | scalar t => exact (Act.plain_fetchScalar b t).ignoring
  | presence => exact (Act.plain_fetchExists b).ignoring
  | count => exact (Act.plain_fetchCount b).ignoring
  | pageCount size => exact (Act.plain_fetchPageCount b size).ignoring
  | list s => exact (Act.plain_fetchList b s).ignoring
  | one s => exact (Act.plain_fetchOne b s).ignoring
  | page s number size => exact (Act.plain_fetchPage b s number size).ignoring
  | paged s number size => exact (Act.plain_fetchPaged b s number size).ignoring
  | change => exact (Act.plain_executeBuilder b).ignoring
  | deletion s => exact (Act.plain_deleteRows b s).ignoring

namespace Request

/-- A request that neither begins nor ends a transaction runs statements and nothing else. -/
theorem plain (r : Request) (hr : r.isTransactional = false) : Act.Plain r.act := by
  cases r with
  | begin => cases hr
  | commit => cases hr
  | rollback => cases hr
  | run sql bindings => exact (Act.Plain.run sql bindings).ignoring
  | execute f => exact (Act.plain_execute f).ignoring
  | queryList s f => exact (Act.plain_queryList s f).ignoring
  | queryOne s f => exact (Act.plain_queryOne s f).ignoring
  | queryScalar t f => exact (Act.plain_queryScalar t f).ignoring
  | queryNextId s => exact (Act.plain_queryNextId s).ignoring
  | findById s id => exact (Act.plain_findById s id).ignoring
  | insert s e => exact (Act.plain_insertBatch s [e]).ignoring
  | insertMany s entities => exact (Act.plain_insertMany s entities).ignoring
  | update s e => exact (Act.plain_update s e).ignoring
  | delete s e => exact (Act.plain_deleteById s e.key).ignoring
  | deleteById s id => exact (Act.plain_deleteById s id).ignoring
  | attachOld s e => exact Act.plain_attachOld s e
  | fetch b question => exact question.plain b

/-- A request moves the connections of the session and of the pool, where no idle one is in a
transaction; it loses one only if it was to begin or end a transaction and fails. -/
theorem moves (r : Request) (state : Service × Session)
    (hidle : ∀ b ∈ state.1.idle, b.busy = false) :
    (r.act state).2.2.key = state.2.key ∧
      Holdings.Moves state.2.key (r.isTransactional = true ∧ (r.act state).1.isOk = false)
        (holdings state) (holdings (r.act state).2) := by
  cases hr : r.isTransactional with
  | false =>
    obtain ⟨hkey, hrests⟩ := (r.plain hr).quiet state
    exact ⟨hkey, .rests hrests⟩
  | true =>
    simp only [true_and]
    cases r with
    | begin =>
      obtain ⟨hkey, hmove, -⟩ := Act.moves_begin _ state hidle
      exact ⟨hkey, hmove⟩
    | commit => exact Act.moves_finish Act.ends_commit _ state
    | rollback => exact Act.moves_finish Act.ends_rollback _ state
    | _ => cases hr

end Request

/-! ### Worlds -/

/-- A pool and the sessions opened on it; a session that was dropped leaves its place empty. -/
structure World where
  service : Service
  sessions : List (Option Session)

/-- What can happen. -/
inductive Command where
  /-- A client opens a session. -/
  | start (client : Client)
  | drop (i : Nat)
  | ask (i : Nat) (request : Request)
  /-- The database is told what to refuse and what to answer from now on. -/
  | script (failConnect : Option String) (failStatements : List String) (failCommit : Bool)
    (responders : List Responder)
  | clear

namespace World

/-- Nothing was opened. -/
def fresh : World := ⟨⟨.fresh, .empty, []⟩, []⟩

/-- How many connections were opened. -/
def opened (w : World) : Nat := w.service.memory.opened

/-- The session at a place, unless it was dropped. -/
def session? (w : World) (i : Nat) : Option Session := w.sessions[i]?.join

/-- Asks the session at a place, if there is one. -/
def ask (w : World) (i : Nat) (r : Request) : Except Fault Unit × World :=
  match w.session? i with
  | none => (.ok (), w)
  | some session =>
    let (result, service, session) := r.act (w.service, session)
    (result, ⟨service, w.sessions.set i (some session)⟩)

/-- What a command makes of the world. -/
def step (w : World) : Command → World
  | .start client => { w with sessions := w.sessions ++ [some client.session] }
  | .drop i => { w with sessions := w.sessions.set i none }
  | .ask i request => (w.ask i request).2
  | .script failConnect failStatements failCommit responders =>
    let memory := { w.service.memory with failConnect, failStatements, failCommit, responders }
    { w with service := { w.service with memory } }
  | .clear => { w with service := { w.service with memory := w.service.memory.clear } }

/-- Commands one after the other. -/
def run (w : World) (commands : List Command) : World := commands.foldl step w

/-- The idle connections. -/
def idle (w : World) : List Connection := w.service.pool.idle.map (·.2)

/-- The connections pinned by open transactions. -/
def pinned (w : World) : List Connection := w.sessions.filterMap (·.bind Session.pinned)

/-- The numbers of the connections that are idle or pinned. -/
def numbers (w : World) : List Nat := (w.idle ++ w.pinned).map (·.number)

/-- The numbers of the connections that were opened and are neither idle nor pinned. -/
def discarded (w : World) : List Nat :=
  (List.range' 1 w.opened).filter fun n => !w.numbers.contains n

end World

/-- The command takes the connection of a number out of a session: it drops the session while its
transaction is open, or asks it to begin or end a transaction and fails. -/
def Command.discards (w : World) (n : Nat) : Command → Prop
  | drop i => ∃ session c, w.session? i = some session ∧ session.pinned = some c ∧ c.number = n
  | ask i r =>
    (∃ session c, w.session? i = some session ∧ session.pinned = some c ∧ c.number = n) ∧
      r.isTransactional = true ∧ (w.ask i r).1.isOk = false
  | _ => False

end BoundSql
