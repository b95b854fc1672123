import BoundSql.Proofs.Borrowing
import BoundSql.Proofs.Dispatch

/-!
# What becomes of connections

What a session holds together with the pool: the idle connections, the one that it has pinned, and
how many were opened.  Whatever runs statements and nothing else leaves all of that as it is, or
opens one connection when none is idle under the key of the session (`Holdings.Rests`); beginning
and ending transactions moves one connection, and only a transaction that fails to end loses one
(`Holdings.Moves`).
-/

namespace BoundSql

/-! ### Holdings -/

/-- What a connection is known by where it is kept. -/
structure Badge where
  key : PoolKey
  number : Nat
  target : String
  /-- Whether a transaction is open on it. -/
  busy : Bool

def Connection.badge (c : Connection) (key : PoolKey) : Badge :=
  ⟨key, c.number, c.target, c.pending.isSome⟩

/-- The idle connections. -/
def Service.idle (s : Service) : List Badge := s.pool.idle.map fun e => e.2.badge e.1

/-- The pinned connection. -/
def Session.badge? (s : Session) : Option Badge := s.pinned.map (·.badge s.key)

/-- The connections that a session may come by. -/
structure Holdings where
  idle : List Badge
  pinned : Option Badge
  opened : Nat

def holdings (state : Service × Session) : Holdings :=
  ⟨state.1.idle, state.2.badge?, state.1.memory.opened⟩

namespace Holdings

/-- What running statements does under a key: nothing, or opening a connection where none is
idle. -/
inductive Rests (key : PoolKey) : Holdings → Holdings → Prop where
  | same {idle idle' : List Badge} {pinned : Option Badge} {opened : Nat}
    (h : idle'.Perm idle) : Rests key ⟨idle, pinned, opened⟩ ⟨idle', pinned, opened⟩
  | opens {idle idle' : List Badge} {opened : Nat} (hkey : ∀ b ∈ idle, b.key ≠ key)
    (h : idle'.Perm (⟨key, opened + 1, key.target, false⟩ :: idle)) :
    Rests key ⟨idle, none, opened⟩ ⟨idle', none, opened + 1⟩

/-- What a session does to connections: it runs statements, pins an idle connection or a new one for
a transaction, gives it back in the end, or loses it where that `failed`. -/
inductive Moves (key : PoolKey) (failed : Prop) : Holdings → Holdings → Prop where
  | rests {h h' : Holdings} (hrests : Rests key h h') : Moves key failed h h'
  | begins {idle idle' : List Badge} {b : Badge} {opened : Nat} (hkey : b.key = key)
    (h : idle.Perm (b :: idle')) :
    Moves key failed ⟨idle, none, opened⟩ ⟨idle', some { b with busy := true }, opened⟩
  | opens {idle : List Badge} {opened : Nat} (hkey : ∀ b ∈ idle, b.key ≠ key) :
    Moves key failed ⟨idle, none, opened⟩
      ⟨idle, some ⟨key, opened + 1, key.target, true⟩, opened + 1⟩
  | ends {idle idle' : List Badge} {b : Badge} {opened : Nat}
    (h : idle'.Perm ({ b with busy := false } :: idle)) :
    Moves key failed ⟨idle, some b, opened⟩ ⟨idle', none, opened⟩
  | loses {idle : List Badge} {b : Badge} {opened : Nat} (hfailed : failed) :
    Moves key failed ⟨idle, some b, opened⟩ ⟨idle, none, opened⟩

theorem Rests.refl (key : PoolKey) (h : Holdings) : Rests key h h := .same (List.Perm.refl _)

theorem Rests.trans {key : PoolKey} {h h' h'' : Holdings} (hfirst : Rests key h h')
    (hsecond : Rests key h' h'') : Rests key h h'' := by
  cases hfirst with
  | same hidle =>
    cases hsecond with
    | same hidle' => exact .same (hidle'.trans hidle)
    | opens hkey hidle' =>
      refine .opens ?_ (hidle'.trans (hidle.cons _))
      intro b hb
      exact hkey b (hidle.mem_iff.mpr hb)
  | opens hkey hidle =>
    cases hsecond with
    | same hidle' => exact .opens hkey (hidle'.trans hidle)
    | opens hkey' _ =>
      -- what the first one opened is idle under the key by now
      exact absurd rfl (hkey' _ (hidle.mem_iff.mpr List.mem_cons_self))

/-- The numbers of the connections that are idle or pinned. -/
def numbers (h : Holdings) : List Nat :=
  h.idle.map (·.number) ++ h.pinned.toList.map (·.number)

theorem numbers_of_none (idle : List Badge) (opened : Nat) :
    numbers ⟨idle, none, opened⟩ = idle.map (·.number) :=
  List.append_nil _

theorem numbers_of_some (idle : List Badge) (b : Badge) (opened : Nat) :
    (numbers ⟨idle, some b, opened⟩).Perm (b.number :: idle.map (·.number)) :=
  List.perm_append_singleton _ _

variable {key : PoolKey} {failed : Prop} {h h' : Holdings}

/-- A move keeps the connections that are idle or pinned, adds a new one to them, or loses the
pinned one. -/
theorem Moves.numbers (hmove : Moves key failed h h') :
    (h'.opened = h.opened ∧ h'.numbers.Perm h.numbers) ∨
      (h'.opened = h.opened + 1 ∧ h'.numbers.Perm ((h.opened + 1) :: h.numbers) ∧
        h.pinned = none ∧ ∀ b ∈ h.idle, b.key ≠ key) ∨
      (h'.opened = h.opened ∧ failed ∧
        ∃ b, h.pinned = some b ∧ h.numbers.Perm (b.number :: h'.numbers)) := by
  cases hmove with
  | rests hrests =>
    cases hrests with
    | same hidle => exact .inl ⟨rfl, (hidle.map _).append_right _⟩
    | opens hkey hidle =>
      refine .inr (.inl ⟨rfl, ?_, rfl, hkey⟩)
      rw [numbers_of_none, numbers_of_none]
      exact hidle.map Badge.number
  | begins hkey hidle =>
    refine .inl ⟨rfl, ?_⟩
    rw [numbers_of_none]
    exact (numbers_of_some _ _ _).trans (hidle.map Badge.number).symm
  | opens hkey =>
    refine .inr (.inl ⟨rfl, ?_, rfl, hkey⟩)
    rw [numbers_of_none]
    exact numbers_of_some _ _ _
  | ends hidle =>
    refine .inl ⟨rfl, ?_⟩
    rw [numbers_of_none]
    refine List.Perm.trans ?_ (numbers_of_some _ _ _).symm
    exact hidle.map Badge.number
  | loses hfailed =>
    refine .inr (.inr ⟨rfl, hfailed, _, rfl, ?_⟩)
    rw [numbers_of_none]
    exact numbers_of_some _ _ _

/-- Every connection was opened with what its key says; the pinned one is in a transaction and no
other one is. -/
structure Tidy (h : Holdings) : Prop where
  idle : ∀ b ∈ h.idle, b.target = b.key.target ∧ b.busy = false
  pinned : ∀ b, h.pinned = some b → b.target = b.key.target ∧ b.busy = true

theorem Moves.tidy (hmove : Moves key failed h h') (htidy : h.Tidy) : h'.Tidy := by
  cases hmove with
  | rests hrests =>
    cases hrests with
    | same hidle => exact ⟨fun b hb => htidy.idle b (hidle.mem_iff.mp hb), htidy.pinned⟩
    | opens hkey hidle =>
      refine ⟨?_, htidy.pinned⟩
      intro b hb
      rcases List.mem_cons.mp (hidle.mem_iff.mp hb) with rfl | hb
      · exact ⟨rfl, rfl⟩
      · exact htidy.idle b hb
  | begins hkey hidle =>
    refine ⟨fun b hb => htidy.idle b (hidle.mem_iff.mpr (List.mem_cons_of_mem _ hb)), ?_⟩
    rintro b ⟨⟩
    exact ⟨(htidy.idle _ (hidle.mem_iff.mpr List.mem_cons_self)).1, rfl⟩
  | opens hkey =>
    refine ⟨htidy.idle, ?_⟩
    rintro b ⟨⟩
    exact ⟨rfl, rfl⟩
  | ends hidle =>
    refine ⟨?_, by simp⟩
    intro b hb
    rcases List.mem_cons.mp (hidle.mem_iff.mp hb) with rfl | hb
    · exact ⟨(htidy.pinned _ rfl).1, rfl⟩
    · exact htidy.idle b hb
  | loses hfailed => exact ⟨htidy.idle, by simp⟩

end Holdings

/-- Running a statement changes neither what the connection is known by nor how many there are. -/
theorem Connection.run_badge (c : Connection) (sql : String) (bindings : List Binding) (m : Memory)
    (key : PoolKey) :
    (c.run sql bindings m).2.1.badge key = c.badge key ∧
      (c.run sql bindings m).2.2.opened = m.opened := by
  unfold run
  dsimp only
  split
  · exact ⟨rfl, rfl⟩
  · split
    · unfold keep
      split
      · next writes hpending =>
        refine ⟨?_, rfl⟩
        simp [badge, hpending]
      · exact ⟨rfl, rfl⟩
    · exact ⟨rfl, rfl⟩

/-! ### Statements -/

namespace Act

/-- The session keeps its key, and its connections rest. -/
def Rested (before after : Service × Session) : Prop :=
  after.2.key = before.2.key ∧
    Holdings.Rests before.2.key (holdings before) (holdings after)

theorem Rested.refl (state : Service × Session) : Rested state state := ⟨rfl, .refl _ _⟩

theorem Rested.trans {before middle after : Service × Session} (hfirst : Rested before middle)
    (hsecond : Rested middle after) : Rested before after := by
  obtain ⟨hkey, hrests⟩ := hfirst
  obtain ⟨hkey', hrests'⟩ := hsecond
  rw [hkey] at hkey' hrests'
  exact ⟨hkey', hrests.trans hrests'⟩

/-- The computation runs statements and nothing else. -/
def Quiet {α : Type} (c : Act α) : Prop := Along Rested c

/-- A statement runs on the pinned connection, on an idle one, or on a new one. -/
theorem quiet_run (sql : String) (bindings : List Binding) : Quiet (run sql bindings) := by
  rintro ⟨service, session⟩
  cases hpinned : session.pinned with
  | some c =>
    obtain ⟨hbadge, hopened⟩ := c.run_badge sql bindings service.memory session.key
    rw [run_of_pinned sql bindings hpinned]
    refine ⟨rfl, ?_⟩
    simp only [holdings, Session.badge?, Service.idle, Service.showing_pool, hpinned,
      Option.map_some, hbadge, hopened]
    exact .same (List.Perm.refl _)
  | none =>
    rcases hacquire : service.pool.acquire session.key service.memory with ⟨e | c, pool, memory⟩
    · rw [run_of_refused sql bindings hpinned hacquire]
      refine ⟨rfl, ?_⟩
      simp only [holdings, Service.idle, Service.showing_pool, Service.showing_memory]
      exact .refl _ _
    · obtain ⟨hbadge, hopened⟩ := c.run_badge sql bindings memory session.key
      rw [run_of_acquired sql bindings hpinned hacquire]
      refine ⟨rfl, ?_⟩
      simp only [holdings, Session.badge?, hpinned, Option.map_none, Service.idle, Pool.release,
        hopened, List.map_append, List.map_cons, List.map_nil, hbadge]
      rcases Pool.of_acquire_ok hacquire with ⟨htake, rfl⟩ | ⟨htake, rfl, rfl, rfl⟩
      · have hidle := (Pool.perm_of_takeFirst? htake).map fun e => e.2.badge e.1
        exact .same ((List.perm_append_singleton _ _).trans hidle.symm)
      · refine .opens ?_ (List.perm_append_singleton _ _)
        intro b hb
        obtain ⟨e, he, rfl⟩ := List.mem_map.mp hb
        exact Pool.key_ne_of_takeFirst? htake e he

theorem Plain.quiet {α : Type} {c : Act α} (hc : Plain c) : Quiet c :=
  hc.along Rested.refl Rested.trans quiet_run fun _ _ _ => ⟨rfl, .refl _ _⟩

/-! ### Transactions -/

/-- Beginning pins an idle connection or a new one.  Idle connections are in no transaction, so that
it does not fail for the connection. -/
theorem moves_begin (failed : Prop) (state : Service × Session)
    (hidle : ∀ b ∈ state.1.idle, b.busy = false) :
    (begin state).2.2.key = state.2.key ∧
      Holdings.Moves state.2.key failed (holdings state) (holdings (begin state).2) ∧
      ∀ e, (begin state).1 ≠ .error (.within .beginning e) := by
  obtain ⟨service, session⟩ := state
  cases hpinned : session.pinned with
  | some c =>
    rw [begin_of_open hpinned]
    exact ⟨rfl, .rests (.refl _ _), by simp⟩
  | none =>
    rcases hacquire : service.pool.acquire session.key service.memory with ⟨e | c, pool, memory⟩
    · obtain ⟨-, -, message, -, rfl⟩ := Pool.of_acquire_error hacquire
      rw [begin_of_refused hpinned hacquire]
      exact ⟨rfl, .rests (.refl _ _), by simp⟩
    · rcases Pool.of_acquire_ok hacquire with ⟨htake, rfl⟩ | ⟨htake, rfl, rfl, rfl⟩
      · have hperm := (Pool.perm_of_takeFirst? htake).map fun e => e.2.badge e.1
        have hfree : c.pending = none := by
          have hbusy := hidle (c.badge session.key) (hperm.mem_iff.mpr List.mem_cons_self)
          simpa [Connection.badge] using hbusy
        rw [begin_of_acquired hpinned hacquire hfree]
        refine ⟨rfl, ?_, by simp⟩
        simp only [holdings, Session.badge?, hpinned, Option.map_none, Option.map_some,
          Service.idle]
        exact .begins rfl hperm
      · rw [begin_of_acquired hpinned hacquire rfl]
        refine ⟨rfl, ?_, by simp⟩
        simp only [holdings, Session.badge?, hpinned, Option.map_none, Option.map_some,
          Service.idle, Memory.addEvent]
        refine .opens ?_
        intro b hb
        obtain ⟨e, he, rfl⟩ := List.mem_map.mp hb
        exact Pool.key_ne_of_takeFirst? htake e he

/-- A way to end a transaction: where it succeeds the connection is in none. -/
def Ends (step : Connection → Memory → Except Fault Unit × Connection × Memory) : Prop :=
  ∀ c m, (step c m).2.2.opened = m.opened ∧
    ((step c m).1 = .ok () → (step c m).2.1 = { c with pending := none })

theorem ends_commit : Ends Connection.commit := by
  intro c m
  unfold Connection.commit
  split
  · exact ⟨rfl, by simp⟩
  · dsimp only
    split
    · exact ⟨rfl, by simp⟩
    · exact ⟨rfl, fun _ => rfl⟩

theorem ends_rollback : Ends Connection.rollback := by
  intro c m
  unfold Connection.rollback
  split
  · exact ⟨rfl, by simp⟩
  · exact ⟨rfl, fun _ => rfl⟩

/-- Ending gives the pinned connection back, or loses it and fails. -/
theorem moves_finish {step : Connection → Memory → Except Fault Unit × Connection × Memory}
    (hstep : Ends step) (missing : TransactionFault) (state : Service × Session) :
    (finish missing step state).2.2.key = state.2.key ∧
      Holdings.Moves state.2.key ((finish missing step state).1.isOk = false) (holdings state)
        (holdings (finish missing step state).2) := by
  obtain ⟨service, session⟩ := state
  unfold finish
  dsimp only
  cases hpinned : session.pinned with
  | none => exact ⟨rfl, .rests (.refl _ _)⟩
  | some c =>
    obtain ⟨hopened, hfree⟩ := hstep c service.memory
    rcases hrun : step c service.memory with ⟨r, c', memory⟩
    rw [hrun] at hopened hfree
    simp only at hopened hfree
    cases r with
    | error e =>
      simp only [hrun]
      refine ⟨trivial, ?_⟩
      simp only [holdings, Session.badge?, hpinned, Option.map_some, Option.map_none, hopened]
      exact .loses rfl
    | ok _ =>
      obtain rfl := hfree rfl
      simp only [hrun]
      refine ⟨trivial, ?_⟩
      simp only [holdings, Session.badge?, hpinned, Option.map_some, Option.map_none, hopened,
        Service.idle, Pool.release]
      refine .ends ?_
      rw [List.map_append, List.map_cons, List.map_nil]
      exact List.perm_append_singleton _ _

/-- A pinned connection is in a transaction, so that there is one to commit. -/
theorem commit_ne_nothingToCommit (state : Service × Session)
    (hpinned : ∀ b, state.2.badge? = some b → b.busy = true) :
    (commit state).1 ≠ .error (.refused .nothingToCommit) := by
  obtain ⟨service, session⟩ := state
  unfold commit finish
  dsimp only
  cases hsession : session.pinned with
  | none => simp
  | some c =>
    have hbusy := hpinned (c.badge session.key) (by simp [Session.badge?, hsession])
    obtain ⟨writes, hwrites⟩ := Option.isSome_iff_exists.mp hbusy
    simp only [Connection.commit, hwrites]
    cases service.memory.failCommit <;> simp

theorem rollback_ne_nothingToRollBack (state : Service × Session)
    (hpinned : ∀ b, state.2.badge? = some b → b.busy = true) :
    (rollback state).1 ≠ .error (.refused .nothingToRollBack) := by
  obtain ⟨service, session⟩ := state
  unfold rollback finish
  dsimp only
  cases hsession : session.pinned with
  | none => simp
  | some c =>
    have hbusy := hpinned (c.badge session.key) (by simp [Session.badge?, hsession])
    obtain ⟨writes, hwrites⟩ := Option.isSome_iff_exists.mp hbusy
    simp [Connection.rollback, hwrites]

end Act

end BoundSql
