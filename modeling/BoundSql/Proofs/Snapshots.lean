import BoundSql.Dialect.Standard
import BoundSql.Proofs.Names
import BoundSql.Proofs.Sequencing
import BoundSql.Schema.Samples
import BoundSql.Session.Tracking

/-!
# Rows held across transactions

A session may hold the row of an entity as it was last known, and an update then writes what
differs from it.  What an update sends depends on the row held and on nothing else
(`Revision.dispatched_act`), and the row held is the one that an update wrote last
(`Revision.snapshot?_applyAll`).

An update counts as written when its statement succeeds.  How the transaction around it ends does
not matter: where it is given up, the database forgets the row and the session goes on holding it
(`Revision.dispatched_after_abandoned`).  The statements that follow are those of a session that
never began the transaction only for rows that were not written in it, and an update that is made
again after a rollback sends nothing (`Revision.dispatched_again`).
-/

namespace BoundSql

/-! ### The rows held -/

namespace Session

variable {session : Session} {key other : String × String} {row : List Value}

theorem snapshot?_hold :
    (session.hold key row).snapshot? other =
      if other = key then some row else session.snapshot? other := by
  unfold snapshot? hold
  rw [List.lookup_cons]
  by_cases hother : other = key
  · rw [if_pos hother, beq_iff_eq.mpr hother]
  · rw [if_neg hother, beq_false_of_ne hother]
    exact lookup_filter_of_ne hother session.snapshots

end Session

/-! ### What is sent -/

namespace Act

/-- The statements that a computation sends, in order, refused ones among them. -/
def dispatched {α : Type} (c : Act α) (state : Service × Session) :
    List (String × List Binding) :=
  (c ({ state.1 with observed := [] }, { state.2 with observed := true })).2.1.observed

/-- A statement is shown to the observer if there is one, and of the session it changes the pinned
connection at most. -/
theorem run_apply (sql : String) (bindings : List Binding) (state : Service × Session) :
    (run sql bindings state).2.1.observed =
        state.1.observed ++ (if state.2.observed then [(sql, bindings)] else []) ∧
      ∃ pinned, (run sql bindings state).2.2 = { state.2 with pinned } := by
  obtain ⟨service, session⟩ := state
  have hshown : (observe sql bindings (service, session)).2.1.observed =
      service.observed ++ (if session.observed then [(sql, bindings)] else []) := by
    show (if session.observed then _ else service).observed = _
    split
    · rfl
    · exact (List.append_nil _).symm
  have hsession : (observe sql bindings (service, session)).2.2 = session := rfl
  unfold run
  rw [bind_apply]
  rcases hobserve : observe sql bindings (service, session) with ⟨result, shown, same⟩
  rw [hobserve] at hshown hsession
  obtain rfl : same = session := hsession
  cases result with
  | error e => cases hobserve
  | ok _ =>
    dsimp only
    split <;> exact ⟨hshown, _, rfl⟩

/-- Executing a fragment runs its statement and keeps what it changed. -/
theorem execute_apply (f : Fragment) (state : Service × Session) :
    execute f state =
      let ran := run (state.2.dialect.render f) f.bindings state
      (ran.1.map (·.affected), ran.2) := by
  obtain ⟨service, session⟩ := state
  unfold execute runFragment
  rw [bind_apply, get_bind_apply]
  dsimp only
  rcases run (session.dialect.render f) f.bindings (service, session) with ⟨result, after⟩
  cases result with
  | ok rows => rfl
  | error e => rfl

end Act

/-! ### Updates -/

/-- An entity of any schema. -/
structure Revision where
  schema : Schema
  entity : Entity schema

namespace Revision

/-- What the row is held under. -/
def key (r : Revision) : String × String := Session.snapshotKey r.schema r.entity.key

def row (r : Revision) : List Value := r.entity.row

def act (r : Revision) : Act Affected := Act.update r.schema r.entity

/-- The statement that writes what differs from the row held, if there is one to write. -/
def due (r : Revision) (d : Dialect) (held : Option (List Value)) :
    Option (String × List Binding) :=
  match changedPlaces r.schema.columns held r.row with
  | [] => none
  | changed =>
    match r.schema.update d r.entity changed with
    | .ok f => some (d.render f, f.bindings)
    | .error _ => none

variable (r : Revision) (state : Service × Session)

/-- An update sends the statement that is due and holds the row once that succeeded, in place of a
row held before. -/
theorem act_cases :
    let due := r.due state.2.dialect (state.2.snapshot? r.key)
    (due = none ∧ (r.act state).2 = state) ∨
      ∃ sql bindings, due = some (sql, bindings) ∧
        let ran := Act.run sql bindings state
        (r.act state).1.isOk = ran.1.isOk ∧ (r.act state).2.1 = ran.2.1 ∧
          (r.act state).2.2 = if ran.1.isOk && (ran.2.2.snapshot? r.key).isSome then
            ran.2.2.hold r.key r.row else ran.2.2 := by
  obtain ⟨service, session⟩ := state
  unfold act Act.update due
  rw [bind_apply]
  cases hkey : r.schema.requireKey with
  | error e =>
    -- without a key no statement can be made, so none is due whatever has changed
    left
    have hupdate : ∀ changed, r.schema.update session.dialect r.entity changed = .error e := by
      intro changed
      unfold Schema.update
      rw [hkey]
      rfl
    refine ⟨?_, rfl⟩
    split
    · rfl
    · rw [hupdate]
  | ok column =>
    simp only [Run.ofExcept]
    rw [get_bind_apply]
    dsimp only
    unfold key row
    cases changedPlaces r.schema.columns
      (session.snapshot? (Session.snapshotKey r.schema r.entity.key)) r.entity.row with
    | nil => exact .inl ⟨rfl, rfl⟩
    | cons place places =>
      dsimp only
      rw [bind_apply]
      cases r.schema.update session.dialect r.entity (place :: places) with
      | error e => exact .inl ⟨rfl, rfl⟩
      | ok f =>
        right
        refine ⟨_, _, rfl, ?_⟩
        simp only [Run.ofExcept]
        rw [bind_apply, Act.execute_apply]
        dsimp only
        rcases Act.run (session.dialect.render f) f.bindings (service, session) with
          ⟨result, ran, after⟩
        cases result with
        | error e => exact ⟨rfl, rfl, rfl⟩
        | ok rows => exact ⟨rfl, rfl, rfl⟩

/-- An update sends the statement that is due, and no other. -/
theorem dispatched_act :
    Act.dispatched r.act state = (r.due state.2.dialect (state.2.snapshot? r.key)).toList := by
  unfold Act.dispatched
  -- being observed changes neither the rows held nor the dialect, so the same statement is due
  rcases r.act_cases ({ state.1 with observed := [] }, { state.2 with observed := true }) with
    ⟨hdue, hsame⟩ | ⟨sql, bindings, hdue, -, hservice, -⟩
  · have hnone : r.due state.2.dialect (state.2.snapshot? r.key) = none := hdue
    rw [hsame, hnone]
    rfl
  · have hsome : r.due state.2.dialect (state.2.snapshot? r.key) = some (sql, bindings) := hdue
    rw [hservice, (Act.run_apply sql bindings _).1, hsome]
    rfl

theorem dialect_act : (r.act state).2.2.dialect = state.2.dialect := by
  rcases r.act_cases state with ⟨-, hsame⟩ | ⟨sql, bindings, -, -, -, hsession⟩
  · rw [hsame]
  · obtain ⟨pinned, hpinned⟩ := (Act.run_apply sql bindings state).2
    rw [hsession, hpinned]
    split <;> rfl

/-! ### Updates one after the other -/

/-- The updates, each whether those before it succeeded or not. -/
def applyAll : List Revision → Service × Session → Service × Session
  | [], state => state
  | r :: more, state => applyAll more (r.act state).2

/-- The row that an update writes, with what it is held under: that of a statement which is sent
and succeeds. -/
def write? (r : Revision) (state : Service × Session) :
    Option ((String × String) × List Value) :=
  if (r.act state).1.isOk && !(Act.dispatched r.act state).isEmpty then some (r.key, r.row)
  else none

/-- The rows that the updates write, in order. -/
def written : List Revision → Service × Session → List ((String × String) × List Value)
  | [], _ => []
  | r :: more, state => (r.write? state).toList ++ written more (r.act state).2

theorem written_append (revisions more : List Revision) :
    written (revisions ++ more) state =
      written revisions state ++ written more (applyAll revisions state) := by
  induction revisions generalizing state with
  | nil => rfl
  | cons r revisions ih =>
    show (r.write? state).toList ++ written (revisions ++ more) (r.act state).2 = _
    rw [ih, ← List.append_assoc]
    rfl

/-- A row held, after rows were written: the last of those under its key takes its place. -/
def remembered (key : String × String) (rows : List ((String × String) × List Value))
    (held : Option (List Value)) : Option (List Value) :=
  held.map fun old => (rows.reverse.lookup key).getD old

theorem remembered_nil (key : String × String) (held : Option (List Value)) :
    remembered key [] held = held := by
  cases held <;> rfl

theorem remembered_append (key : String × String)
    (rows more : List ((String × String) × List Value)) (held : Option (List Value)) :
    remembered key (rows ++ more) held = remembered key more (remembered key rows held) := by
  unfold remembered
  rw [List.reverse_append]
  cases held with
  | none => rfl
  | some old =>
    simp only [Option.map_some, List.lookup_append]
    cases more.reverse.lookup key <;> rfl

/-- Rows under other keys do not matter. -/
theorem remembered_of_ne {key : String × String} {rows : List ((String × String) × List Value)}
    (hne : ∀ row ∈ rows, row.1 ≠ key) (held : Option (List Value)) :
    remembered key rows held = held := by
  have hnone : rows.reverse.lookup key = none := by
    rw [List.lookup_eq_none_iff]
    intro row hrow
    exact bne_iff_ne.mpr (Ne.symm (hne row (List.mem_reverse.mp hrow)))
  unfold remembered
  rw [hnone]
  cases held <;> rfl

/-- A row that is written takes the place of a row held, and one that was not held before is not
held afterwards. -/
theorem snapshot?_act (key : String × String) :
    (r.act state).2.2.snapshot? key =
      remembered key (r.write? state).toList (state.2.snapshot? key) := by
  unfold write?
  rw [dispatched_act]
  rcases r.act_cases state with ⟨hdue, hsame⟩ | ⟨sql, bindings, hdue, hok, -, hsession⟩
  · rw [hsame, hdue]
    simp [remembered_nil]
  · obtain ⟨pinned, hpinned⟩ := (Act.run_apply sql bindings state).2
    have hheld : ∀ other, (Act.run sql bindings state).2.2.snapshot? other =
        state.2.snapshot? other := by
      intro other
      rw [hpinned]
      rfl
    rw [hsession, hdue, hok, hheld]
    cases (Act.run sql bindings state).1.isOk with
    | false =>
      simp [remembered_nil, hheld]
    | true =>
      by_cases hkey : key = r.key
      · subst hkey
        -- the session begins to hold a row when it is attached, and not when it is updated
        cases hbefore : state.2.snapshot? r.key with
        | none => simp [remembered, hheld, hbefore]
        | some old => simp [remembered, Session.snapshot?_hold]
      · have hother : ∀ row ∈ [(r.key, r.row)], row.1 ≠ key := by
          intro row hrow
          rw [List.mem_singleton.mp hrow]
          exact Ne.symm hkey
        show (if _ then _ else _ : Session).snapshot? key = remembered key [(r.key, r.row)] _
        rw [remembered_of_ne hother]
        split
        · rw [Session.snapshot?_hold, if_neg hkey, hheld]
        · exact hheld key

/-- The rows held after updates are those that the updates wrote last. -/
theorem snapshot?_applyAll (revisions : List Revision) (key : String × String) :
    (applyAll revisions state).2.snapshot? key =
      remembered key (written revisions state) (state.2.snapshot? key) := by
  induction revisions generalizing state with
  | nil => exact (remembered_nil key _).symm
  | cons r more ih =>
    show (applyAll more (r.act state).2).2.snapshot? key = _
    rw [ih, snapshot?_act, written, remembered_append]

theorem dialect_applyAll (revisions : List Revision) :
    (applyAll revisions state).2.dialect = state.2.dialect := by
  induction revisions generalizing state with
  | nil => rfl
  | cons r more ih => exact (ih _).trans (dialect_act r state)

/-- What an update sends after others. -/
theorem dispatched_applyAll (revisions : List Revision) :
    Act.dispatched r.act (applyAll revisions state) =
      (r.due state.2.dialect
        (remembered r.key (written revisions state) (state.2.snapshot? r.key))).toList := by
  rw [dispatched_act, dialect_applyAll, snapshot?_applyAll]

/-! ### Transactions that are given up -/

/-- The session is asked to roll back its transaction, or fails to commit it. -/
inductive Abandons (before after : Service × Session) : Prop where
  | rollback (h : (Act.rollback before).2 = after)
  | commit (e : Fault) (h : Act.commit before = (.error e, after))

/-- Beginning pins a connection and changes nothing else of the session. -/
theorem begin_session : ∃ pinned, (Act.begin state).2.2 = { state.2 with pinned } := by
  obtain ⟨service, session⟩ := state
  unfold Act.begin
  dsimp only
  split
  · exact ⟨session.pinned, rfl⟩
  · split
    · exact ⟨session.pinned, rfl⟩
    · split
      · exact ⟨session.pinned, rfl⟩
      · exact ⟨_, rfl⟩

theorem finish_session (missing : TransactionFault)
    (step : Connection → Memory → Except Fault Unit × Connection × Memory) :
    ∃ pinned, (Act.finish missing step state).2.2 = { state.2 with pinned } := by
  obtain ⟨service, session⟩ := state
  unfold Act.finish
  dsimp only
  split
  · exact ⟨session.pinned, rfl⟩
  · split <;> exact ⟨none, rfl⟩

theorem Abandons.session {before after : Service × Session} (h : Abandons before after) :
    ∃ pinned, after.2 = { before.2 with pinned } := by
  cases h with
  | rollback h =>
    rw [← h]
    exact finish_session before .nothingToRollBack Connection.rollback
  | commit e h =>
    have hafter : (Act.commit before).2 = after := by rw [h]
    rw [← hafter]
    exact finish_session before .nothingToCommit Connection.commit

/-- A transaction that is given up leaves the session with the rows that were written in it. -/
theorem snapshot?_of_abandoned {started ended : Service × Session} {inside : List Revision}
    (hbegin : Act.begin state = (.ok (), started))
    (hended : Abandons (applyAll inside started) ended) :
    ended.2.dialect = state.2.dialect ∧
      ∀ key, ended.2.snapshot? key =
        remembered key (written inside started) (state.2.snapshot? key) := by
  obtain ⟨pinned, hpinned⟩ := begin_session state
  obtain ⟨pinned', hpinned'⟩ := hended.session
  rw [hbegin] at hpinned
  have hstarted : ∀ key, started.2.snapshot? key = state.2.snapshot? key := by
    intro key
    rw [hpinned]
    rfl
  constructor
  · have hdialect : started.2.dialect = state.2.dialect := by rw [hpinned]
    rw [hpinned', ← hdialect]
    exact dialect_applyAll started inside
  · intro key
    rw [hpinned', ← hstarted]
    exact snapshot?_applyAll started inside key

/-- An update that is made again after its transaction was given up sends nothing, although the
database does not have the row. -/
theorem dispatched_again {started ended : Service × Session} {earlier : List Revision}
    (hbegin : Act.begin state = (.ok (), started))
    (hended : Abandons (applyAll (earlier ++ [r]) started) ended)
    (hheld : state.2.snapshot? r.key ≠ none)
    (hwrites : r.write? (applyAll earlier started) = some (r.key, r.row))
    (hsame : changedPlaces r.schema.columns (some r.row) r.row = []) :
    Act.dispatched r.act ended = [] := by
  obtain ⟨hdialect, hrows⟩ := snapshot?_of_abandoned state hbegin hended
  have hwritten : written (earlier ++ [r]) started =
      written earlier started ++ [(r.key, r.row)] := by
    rw [written_append]
    show _ ++ ((r.write? (applyAll earlier started)).toList ++ []) = _
    rw [hwrites]
    rfl
  have hlast : ended.2.snapshot? r.key = some r.row := by
    rw [hrows, hwritten, remembered_append]
    obtain ⟨old, hold⟩ := Option.ne_none_iff_exists'.mp hheld
    rw [hold]
    simp [remembered]
  rw [dispatched_act, hlast, due, hsame]
  rfl

/-- Rows count as written although the transaction that wrote them was given up.  What the session
sends afterwards, whatever it has updated meanwhile, differs from the row last written under the
key, in the transaction or later, while a session that never began it remembers the later ones
only.  The two send the same for an entity of which no row was held or none was written in the
transaction, where the updates meanwhile have written the same. -/
theorem dispatched_after_abandoned {started ended : Service × Session} {inside : List Revision}
    (hbegin : Act.begin state = (.ok (), started))
    (hended : Abandons (applyAll inside started) ended) (later : List Revision)
    (next : Revision) :
    let d := state.2.dialect
    let held := state.2.snapshot? next.key
    Act.dispatched next.act (applyAll later ended) =
        (next.due d (remembered next.key (written inside started ++ written later ended)
          held)).toList ∧
      Act.dispatched next.act (applyAll later state) =
        (next.due d (remembered next.key (written later state) held)).toList ∧
      ((held = none ∨ ∀ row ∈ written inside started, row.1 ≠ next.key) →
        written later ended = written later state →
        Act.dispatched next.act (applyAll later ended) =
          Act.dispatched next.act (applyAll later state)) := by
  intro d held
  obtain ⟨hdialect, hrows⟩ := snapshot?_of_abandoned state hbegin hended
  have hafter : Act.dispatched next.act (applyAll later ended) =
      (next.due d (remembered next.key (written inside started ++ written later ended)
        held)).toList := by
    rw [dispatched_applyAll, hdialect, hrows, ← remembered_append]
  have hnever := dispatched_applyAll next state later
  refine ⟨hafter, hnever, ?_⟩
  intro hapart hlater
  rw [hafter, hnever, remembered_append, hlater]
  rcases hapart with hnone | hne
  · show (next.due d (remembered _ _ (remembered _ _ held))).toList =
      (next.due d (remembered _ _ held)).toList
    rw [hnone]
    rfl
  · rw [remembered_of_ne hne]

/-- An item of an order, of a given number and product. -/
def itemOf (id : Numeric.Integer .int64) (product : String) : Revision where
  schema := .orderItem
  entity := ⟨(id, ⟨7, by decide, by decide⟩, product, ⟨2, by decide, by decide⟩, ()), ()⟩

def tea : Revision := itemOf ⟨1, by decide, by decide⟩ "tea"

/-- The item of tea, where it becomes one of coffee. -/
def coffee : Revision := itemOf ⟨1, by decide, by decide⟩ "coffee"

/-- Another item of the order. -/
def sugar : Revision := itemOf ⟨2, by decide, by decide⟩ "sugar"

/-- A session that holds the item of tea. -/
def holdsTea : Service × Session :=
  (⟨.fresh, .empty, []⟩,
    (⟨.sqlite, ⟨"sqlite", "shop.db"⟩, 500, false, false, none, []⟩ : Session).hold tea.key tea.row)

/-- The session has rolled back its update to coffee. -/
def rolledBack : Service × Session :=
  (Act.rollback (applyAll [coffee] (Act.begin holdsTea).2)).2

theorem dispatched_after_abandoned_coffee :
    (Act.begin holdsTea = (.ok (), (Act.begin holdsTea).2) ∧
      Abandons (applyAll [coffee] (Act.begin holdsTea).2) rolledBack) ∧
      Act.dispatched coffee.act rolledBack = [] ∧
      (Act.dispatched coffee.act holdsTea).length = 1 ∧
      Act.dispatched sugar.act rolledBack = Act.dispatched sugar.act holdsTea := by
  have hbegin : Act.begin holdsTea = (.ok (), (Act.begin holdsTea).2) := rfl
  have hended : Abandons (applyAll [coffee] (Act.begin holdsTea).2) rolledBack := .rollback rfl
  obtain ⟨hafter, hnever, -⟩ := dispatched_after_abandoned holdsTea hbegin hended [] coffee
  obtain ⟨-, -, hagree⟩ := dispatched_after_abandoned holdsTea hbegin hended [] sugar
  refine ⟨⟨hbegin, hended⟩, ?_, ?_, ?_⟩
  · apply List.eq_nil_of_length_eq_zero
    have hlength := congrArg List.length hafter
    apply hlength.trans
    decide +kernel
  · have hlength := congrArg List.length hnever
    apply hlength.trans
    decide +kernel
  · exact hagree (.inl (by decide +kernel)) rfl

/-- What a session sends after a rollback need not be what it would have sent before the
transaction. -/
theorem rollback_leaves_trace :
    ¬ ∀ (state started ended : Service × Session) (inside : List Revision) (next : Revision),
      Act.begin state = (.ok (), started) → Abandons (applyAll inside started) ended →
        Act.dispatched next.act ended = Act.dispatched next.act state := by
  intro hclaim
  have hsame := hclaim holdsTea (Act.begin holdsTea).2 rolledBack [coffee] coffee rfl
    (.rollback rfl)
  have hlength := congrArg List.length hsame
  revert hlength
  decide +kernel

end Revision

end BoundSql
