import BoundSql.Proofs.Holdings
import BoundSql.Proofs.Occurrence

/-!
# What the database keeps of statements

A statement that reaches the database is recorded, and unless it is refused a write among them is
kept: with the transaction of its connection if one is open there, and else for all to see.
`Act.Records` says this of any number of statements that a session runs, on whatever connections of
the pool they run.  A session outside of a transaction is given connections that are in none, which
is why the idle ones have to be free (`Service.Free`): a write that waits with an idle connection
would be made visible by whoever commits on it next.
-/

namespace BoundSql

/-- The writes among some statements that the database does not refuse. -/
def Memory.accepted (m : Memory) (received : List Statement) : List Statement :=
  received.filter fun s => isWrite s.sql && (m.failStatements.find? (Text.contains s.sql ·)).isNone

/-- The statement starts with one of these words, but for blanks in front. -/
def Statement.Writes (s : Statement) : Prop :=
  ∃ word ∈ ["INSERT", "UPDATE", "DELETE"], word.toList <+: s.sql.toList.dropWhile Text.isBlank

instance (s : Statement) : Decidable s.Writes :=
  inferInstanceAs (Decidable (∃ word ∈ ["INSERT", "UPDATE", "DELETE"], _))

/-- The statement has a text in it that the database was told to refuse. -/
def Memory.Refuses (m : Memory) (s : Statement) : Prop :=
  ∃ part ∈ m.failStatements, part.toList <:+: s.sql.toList

instance (m : Memory) (s : Statement) : Decidable (m.Refuses s) :=
  inferInstanceAs (Decidable (∃ part ∈ m.failStatements, _))

theorem Statement.isWrite_iff (s : Statement) : isWrite s.sql = true ↔ s.Writes := by
  unfold isWrite
  rw [List.any_eq_true]
  simp only [Text.startsWith_iff, Text.trimStart, String.toList_ofList]
  rfl

theorem Memory.accepted_eq (m : Memory) (received : List Statement) :
    m.accepted received = received.filter fun s => s.Writes ∧ ¬ m.Refuses s := by
  apply List.filter_congr
  intro s _
  have hrefuses : (m.failStatements.find? (Text.contains s.sql ·)).isNone = true ↔
      ¬ m.Refuses s := by
    simp [Memory.Refuses, Text.contains_iff]
  rw [Bool.eq_iff_iff, Bool.and_eq_true, s.isWrite_iff, hrefuses, decide_eq_true_iff]

theorem Memory.accepted_append (m : Memory) (received more : List Statement) :
    m.accepted (received ++ more) = m.accepted received ++ m.accepted more :=
  List.filter_append _ _

/-- What is refused is all that matters for what is accepted. -/
theorem Memory.accepted_congr {m m' : Memory} (h : m'.failStatements = m.failStatements) :
    m'.accepted = m.accepted := by
  unfold accepted
  rw [h]

/-- No idle connection is in a transaction. -/
def Service.Free (s : Service) : Prop := ∀ entry ∈ s.pool.idle, entry.2.pending = none

theorem Pool.free_release {p : Pool} (hfree : ∀ entry ∈ p.idle, entry.2.pending = none)
    (key : PoolKey) {c : Connection} (hc : c.pending = none) :
    ∀ entry ∈ (p.release key c).idle, entry.2.pending = none := by
  intro entry hentry
  rcases List.mem_append.mp hentry with hold | hnew
  · exact hfree entry hold
  · rw [List.mem_singleton.mp hnew]
    exact hc

/-- Where the idle connections are free, so is one that was acquired. -/
theorem Pool.free_of_acquire_ok {p pool : Pool} {key : PoolKey} {m memory : Memory} {c : Connection}
    (hfree : ∀ entry ∈ p.idle, entry.2.pending = none)
    (h : p.acquire key m = (.ok c, pool, memory)) :
    c.pending = none ∧ (∀ entry ∈ pool.idle, entry.2.pending = none) ∧
      ∃ opened, memory = { m with opened } := by
  rcases of_acquire_ok h with ⟨htake, rfl⟩ | ⟨-, rfl, rfl, rfl⟩
  · have hperm := perm_of_takeFirst? htake
    refine ⟨hfree (key, c) (hperm.mem_iff.mpr List.mem_cons_self), ?_, memory.opened, rfl⟩
    intro entry hentry
    exact hfree entry (hperm.mem_iff.mpr (List.mem_cons_of_mem _ hentry))
  · exact ⟨rfl, hfree, _, rfl⟩

/-! ### One statement -/

namespace Connection

variable (c : Connection) (sql : String) (bindings : List Binding) (m : Memory)

theorem run_received :
    (c.run sql bindings m).2.2.statements = m.statements ++ [⟨c.number, sql, bindings⟩] ∧
      (c.run sql bindings m).2.2.failStatements = m.failStatements ∧
      (c.run sql bindings m).2.2.failConnect = m.failConnect := by
  unfold run
  dsimp only
  split
  · exact ⟨rfl, rfl, rfl⟩
  · split
    · unfold keep
      split <;> exact ⟨rfl, rfl, rfl⟩
    · exact ⟨rfl, rfl, rfl⟩

/-- Outside of a transaction a write is visible at once. -/
theorem run_of_free (hfree : c.pending = none) :
    (c.run sql bindings m).2.1 = c ∧
      (c.run sql bindings m).2.2.committed =
        m.committed ++ m.accepted [⟨c.number, sql, bindings⟩] := by
  unfold run
  dsimp only
  split
  · next part hpart => simp [Memory.accepted, hpart]
  · next hpart =>
    by_cases hwrite : isWrite sql = true
    · simp [Memory.accepted, hpart, hwrite, keep, hfree]
    · simp [Memory.accepted, hwrite]

/-- Inside of one it waits, behind those that wait already. -/
theorem run_of_pending {writes : List Statement} (hpending : c.pending = some writes) :
    (c.run sql bindings m).2.1 =
        { c with pending := some (writes ++ m.accepted [⟨c.number, sql, bindings⟩]) } ∧
      (c.run sql bindings m).2.2.committed = m.committed := by
  have hsame : c = { c with pending := some writes } := by rw [← hpending]
  unfold run
  dsimp only
  split
  · next part hpart =>
    refine ⟨?_, rfl⟩
    simpa [Memory.accepted, hpart] using hsame
  · next hpart =>
    by_cases hwrite : isWrite sql = true
    · simp [Memory.accepted, hpart, hwrite, keep, hpending]
    · refine ⟨?_, by simp [hwrite]⟩
      simpa [Memory.accepted, hwrite] using hsame

end Connection

/-! ### Any number of statements -/

namespace Act

/-- Some statements were received, and the writes accepted among them were kept where they
belong. -/
structure Recorded (before after : Service × Session) (received : List Statement) : Prop where
  statements : after.1.memory.statements = before.1.memory.statements ++ received
  refused : after.1.memory.failStatements = before.1.memory.failStatements
  free : after.1.Free
  outside : before.2.pinned = none → after.2.pinned = none ∧
    after.1.memory.committed = before.1.memory.committed ++ before.1.memory.accepted received
  inside : ∀ c writes, before.2.pinned = some c → c.pending = some writes →
    after.2.pinned =
        some { c with pending := some (writes ++ before.1.memory.accepted received) } ∧
      after.1.memory.committed = before.1.memory.committed

/-- Where the idle connections are free, the session records statements and nothing else. -/
def Records (before after : Service × Session) : Prop :=
  before.1.Free → ∃ received, Recorded before after received

variable {before middle after : Service × Session}

/-- Nothing was received. -/
theorem Recorded.of_same (hfree : before.1.Free) (hmemory : after.1.memory = before.1.memory)
    (hpool : after.1.pool = before.1.pool) (hpinned : after.2.pinned = before.2.pinned) :
    Recorded before after [] := by
  have hnone : before.1.memory.accepted [] = [] := rfl
  refine ⟨?_, ?_, ?_, ?_, ?_⟩
  · rw [hmemory, List.append_nil]
  · rw [hmemory]
  · intro entry hentry
    rw [hpool] at hentry
    exact hfree entry hentry
  · intro hnopin
    rw [hmemory, hpinned, hnone, List.append_nil]
    exact ⟨hnopin, rfl⟩
  · intro c writes hpin hpending
    rw [hmemory, hpinned, hnone, List.append_nil, hpin, ← hpending]
    exact ⟨rfl, rfl⟩

theorem Records.refl (state : Service × Session) : Records state state :=
  fun hfree => ⟨[], .of_same hfree rfl rfl rfl⟩

theorem Recorded.append {received more : List Statement} (hfirst : Recorded before middle received)
    (hsecond : Recorded middle after more) : Recorded before after (received ++ more) := by
  have haccepted : middle.1.memory.accepted = before.1.memory.accepted :=
    Memory.accepted_congr hfirst.refused
  refine ⟨?_, hsecond.refused.trans hfirst.refused, hsecond.free, ?_, ?_⟩
  · rw [hsecond.statements, hfirst.statements, List.append_assoc]
  · intro hnopin
    obtain ⟨hmiddle, hvisible⟩ := hfirst.outside hnopin
    obtain ⟨hafter, hmore⟩ := hsecond.outside hmiddle
    refine ⟨hafter, ?_⟩
    rw [hmore, hvisible, haccepted, Memory.accepted_append, List.append_assoc]
  · intro c writes hpin hpending
    obtain ⟨hmiddle, hvisible⟩ := hfirst.inside c writes hpin hpending
    obtain ⟨hafter, hsame⟩ := hsecond.inside _ _ hmiddle rfl
    rw [haccepted, List.append_assoc, ← Memory.accepted_append] at hafter
    exact ⟨hafter, hsame.trans hvisible⟩

theorem Records.trans (hfirst : Records before middle) (hsecond : Records middle after) :
    Records before after := by
  intro hfree
  obtain ⟨received, hreceived⟩ := hfirst hfree
  obtain ⟨more, hmore⟩ := hsecond hreceived.free
  exact ⟨received ++ more, hreceived.append hmore⟩

theorem records_run (sql : String) (bindings : List Binding) :
    Along Records (run sql bindings) := by
  rintro ⟨service, session⟩ hfree
  have hpool : (service.showing session sql bindings).Free := by
    unfold Service.Free
    rw [Service.showing_pool]
    exact hfree
  cases hpinned : session.pinned with
  | some c =>
    obtain ⟨hreceived, hsame, -⟩ := c.run_received sql bindings service.memory
    rw [run_of_pinned sql bindings hpinned]
    refine ⟨[⟨c.number, sql, bindings⟩], hreceived, hsame, hpool, ?_, ?_⟩
    · intro hnopin
      rw [hpinned] at hnopin
      cases hnopin
    · intro c' writes hpin hpending
      obtain rfl : c = c' := by simpa [hpinned] using hpin
      obtain ⟨hback, hvisible⟩ := c.run_of_pending sql bindings service.memory hpending
      exact ⟨congrArg some hback, hvisible⟩
  | none =>
    rcases hacquire : service.pool.acquire session.key service.memory with ⟨e | c, pool, memory⟩
    · rw [run_of_refused sql bindings hpinned hacquire]
      exact ⟨[], .of_same hfree (Service.showing_memory _ _ _ _) (Service.showing_pool _ _ _ _) rfl⟩
    · -- the pool gives out a connection that is in no transaction
      obtain ⟨hc, hidle, opened, rfl⟩ := Pool.free_of_acquire_ok hfree hacquire
      obtain ⟨hreceived, hsame, -⟩ := c.run_received sql bindings { service.memory with opened }
      obtain ⟨hback, hvisible⟩ := c.run_of_free sql bindings { service.memory with opened } hc
      rw [run_of_acquired sql bindings hpinned hacquire]
      refine ⟨[⟨c.number, sql, bindings⟩], hreceived, hsame, ?_, fun _ => ⟨hpinned, hvisible⟩, ?_⟩
      · exact Pool.free_release hidle session.key (hback.symm ▸ hc)
      · intro c' writes hpin
        rw [hpinned] at hpin
        cases hpin

theorem Plain.records {α : Type} {c : Act α} (hc : Plain c) : Along Records c := by
  apply hc.along Records.refl Records.trans records_run
  intro service session snapshots hfree
  exact ⟨[], .of_same hfree rfl rfl rfl⟩

/-! ### What is shown to observers -/

/-- The session has a connection, or can be given one. -/
def Reaches (state : Service × Session) : Prop :=
  state.1.memory.failConnect = none ∨ state.2.inTransaction = true

/-- The statements that the observer of a session was shown are those that were received. -/
structure Shown (before after : Service × Session) (received : List Statement) : Prop where
  statements : after.1.memory.statements = before.1.memory.statements ++ received
  shown : after.1.observed = before.1.observed ++ received.map fun s => (s.sql, s.bindings)
  observed : after.2.observed = before.2.observed
  reaches : Reaches after

/-- Where the database can be reached, an observed session shows what is received. -/
def Shows (before after : Service × Session) : Prop :=
  before.2.observed = true → Reaches before → ∃ received, Shown before after received

theorem Shows.trans {before middle after : Service × Session} (hfirst : Shows before middle)
    (hsecond : Shows middle after) : Shows before after := by
  intro hobserved hreaches
  obtain ⟨received, hreceived⟩ := hfirst hobserved hreaches
  obtain ⟨more, hmore⟩ := hsecond (hreceived.observed.trans hobserved) hreceived.reaches
  refine ⟨received ++ more, ?_, ?_, hmore.observed.trans hreceived.observed, hmore.reaches⟩
  · rw [hmore.statements, hreceived.statements, List.append_assoc]
  · rw [hmore.shown, hreceived.shown, List.map_append, List.append_assoc]

theorem shows_run (sql : String) (bindings : List Binding) : Along Shows (run sql bindings) := by
  rintro ⟨service, session⟩ hobserved hreaches
  have hshown : (service.showing session sql bindings).observed =
      service.observed ++ [(sql, bindings)] := by
    unfold Service.showing
    rw [if_pos hobserved]
  cases hpinned : session.pinned with
  | some c =>
    obtain ⟨hreceived, -, -⟩ := c.run_received sql bindings service.memory
    rw [run_of_pinned sql bindings hpinned]
    exact ⟨[⟨c.number, sql, bindings⟩], hreceived, hshown, rfl, .inr rfl⟩
  | none =>
    have hconnects : service.memory.failConnect = none := by
      rcases hreaches with hconnects | hopen
      · exact hconnects
      · have hopen : session.pinned.isSome = true := hopen
        rw [hpinned] at hopen
        cases hopen
    rcases hacquire : service.pool.acquire session.key service.memory with ⟨e | c, pool, memory⟩
    · -- the statement would have been shown without being received
      obtain ⟨-, -, message, hfail, -⟩ := Pool.of_acquire_error hacquire
      rw [hconnects] at hfail
      cases hfail
    · obtain ⟨opened, rfl⟩ : ∃ opened, memory = { service.memory with opened } := by
        rcases Pool.of_acquire_ok hacquire with ⟨-, rfl⟩ | ⟨-, -, -, rfl⟩
        · exact ⟨service.memory.opened, rfl⟩
        · exact ⟨_, rfl⟩
      obtain ⟨hreceived, -, hkept⟩ := c.run_received sql bindings { service.memory with opened }
      rw [run_of_acquired sql bindings hpinned hacquire]
      exact ⟨[⟨c.number, sql, bindings⟩], hreceived, hshown, rfl, .inl (hkept.trans hconnects)⟩

theorem Plain.shows {α : Type} {c : Act α} (hc : Plain c) : Along Shows c := by
  refine hc.along ?_ Shows.trans shows_run ?_
  · intro state _ hreaches
    exact ⟨[], (List.append_nil _).symm, (List.append_nil _).symm, rfl, hreaches⟩
  · intro service session snapshots _ hreaches
    exact ⟨[], (List.append_nil _).symm, (List.append_nil _).symm, rfl, hreaches⟩

/-! ### Transactions -/

/-- Beginning pins a connection on which no write waits yet, or fails and changes nothing that is
kept. -/
theorem begin_outcome (state : Service × Session) (hfree : state.1.Free) :
    (begin state).2.1.Free ∧
      (begin state).2.1.memory.committed = state.1.memory.committed ∧
      (((begin state).1.isOk = false ∧ (begin state).2.2 = state.2) ∨
        ((begin state).1.isOk = true ∧ ∃ c, c.pending = some [] ∧
          (begin state).2.2 = { state.2 with pinned := some c })) := by
  obtain ⟨service, session⟩ := state
  cases hpinned : session.pinned with
  | some c =>
    rw [begin_of_open hpinned]
    exact ⟨hfree, rfl, .inl ⟨rfl, rfl⟩⟩
  | none =>
    rcases hacquire : service.pool.acquire session.key service.memory with ⟨e | c, pool, memory⟩
    · rw [begin_of_refused hpinned hacquire]
      exact ⟨hfree, rfl, .inl ⟨rfl, rfl⟩⟩
    · obtain ⟨hc, hidle, opened, rfl⟩ := Pool.free_of_acquire_ok hfree hacquire
      rw [begin_of_acquired hpinned hacquire hc]
      exact ⟨hidle, rfl, .inr ⟨rfl, _, rfl, rfl⟩⟩

/-- Without a transaction there is none to end. -/
theorem finish_of_none {missing : TransactionFault}
    {step : Connection → Memory → Except Fault Unit × Connection × Memory}
    {state : Service × Session} (hpinned : state.2.pinned = none) :
    finish missing step state = (.error (.transaction missing), state) := by
  obtain ⟨service, session⟩ := state
  simp only at hpinned
  simp only [finish, hpinned]

/-- Committing makes all writes that wait visible at once, or none of them. -/
theorem commit_outcome (state : Service × Session) {c : Connection} {writes : List Statement}
    (hfree : state.1.Free) (hpinned : state.2.pinned = some c) (hc : c.pending = some writes) :
    (commit state).2.1.Free ∧ (commit state).2.2 = { state.2 with pinned := none } ∧
      (((commit state).1.isOk = true ∧
          (commit state).2.1.memory.committed = state.1.memory.committed ++ writes) ∨
        ((commit state).1.isOk = false ∧
          (commit state).2.1.memory.committed = state.1.memory.committed)) := by
  obtain ⟨service, session⟩ := state
  simp only at hpinned
  cases hrefuse : service.memory.failCommit with
  | true =>
    -- the connection is given up and its writes with it
    simp only [commit, finish, hpinned, Connection.commit, hc, hrefuse, if_true]
    exact ⟨hfree, trivial, .inr ⟨rfl, trivial⟩⟩
  | false =>
    simp only [commit, finish, hpinned, Connection.commit, hc, hrefuse, Bool.false_eq_true,
      if_false]
    exact ⟨Pool.free_release hfree session.key rfl, trivial, .inl ⟨rfl, rfl⟩⟩

/-- Rolling back makes nothing visible. -/
theorem rollback_outcome (state : Service × Session) {c : Connection} {writes : List Statement}
    (hfree : state.1.Free) (hpinned : state.2.pinned = some c) (hc : c.pending = some writes) :
    (rollback state).2.1.Free ∧ (rollback state).2.2 = { state.2 with pinned := none } ∧
      (rollback state).2.1.memory.committed = state.1.memory.committed := by
  obtain ⟨service, session⟩ := state
  simp only at hpinned
  simp only [rollback, finish, hpinned, Connection.rollback, hc]
  exact ⟨Pool.free_release hfree session.key rfl, trivial, rfl⟩

end Act

end BoundSql
