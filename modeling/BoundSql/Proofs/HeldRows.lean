import BoundSql.Proofs.Snapshots
import BoundSql.Proofs.UpdateStatement

/-!
# Updates against the row held

A session holds at most one row for each entity, and what has happened to it is told by the events
of the session: entities attached, updates that were sent and succeeded, deletes that succeeded.
The row held is the one of the last event that put one there (`RowEvent.rowHeld`), whatever else
failed meanwhile (`Change.snapshot?_applyAll`).  An update sends a statement that sets the columns
which differ from it, and none when nothing does (`Change.update_sends_changes`).
-/

namespace BoundSql

namespace Session

variable {session : Session} {key other : String × String}

theorem snapshot?_drop :
    (session.drop key).snapshot? other =
      if other = key then none else session.snapshot? other := by
  unfold snapshot? drop
  by_cases hother : other = key
  · rw [if_pos hother, List.lookup_eq_none_iff]
    intro entry hentry
    obtain ⟨-, hne⟩ := List.mem_filter.mp hentry
    rw [hother, bne_iff_ne]
    exact Ne.symm (bne_iff_ne.mp hne)
  · rw [if_neg hother]
    exact lookup_filter_of_ne hother session.snapshots

end Session

/-! ### Events -/

/-- What changes the row held under a key. -/
inductive RowEvent where
  | attached (key : String × String) (row : List Value)
  | written (key : String × String) (row : List Value)
  | deleted (key : String × String)

namespace RowEvent

/-- The row held under a key after events, the last one first: that of the entity attached last, or
of the last update after that; none after a delete, until an entity is attached again.  An update
does not begin to hold a row. -/
def rowHeld (key : String × String) (start : Option (List Value)) :
    List RowEvent → Option (List Value)
  | [] => start
  | .attached other row :: earlier =>
    if other = key then some row else rowHeld key start earlier
  | .written other row :: earlier =>
    if other = key then (rowHeld key start earlier).map fun _ => row
    else rowHeld key start earlier
  | .deleted other :: earlier => if other = key then none else rowHeld key start earlier

theorem rowHeld_append (key : String × String) (start : Option (List Value))
    (later earlier : List RowEvent) :
    rowHeld key start (later ++ earlier) = rowHeld key (rowHeld key start earlier) later := by
  induction later with
  | nil => rfl
  | cons x later ih => cases x <;> simp only [List.cons_append, rowHeld, ih]

end RowEvent

/-! ### Deletes -/

namespace Act

variable (s : Schema) (id : Value) (state : Service × Session)

/-- A delete sends its statement, if there is one, and drops the row held once that succeeded. -/
theorem deleteById_cases :
    (∃ e, s.deleteById state.2.dialect id = .error e ∧ deleteById s id state = (.error e, state)) ∨
      ∃ f, s.deleteById state.2.dialect id = .ok f ∧
        let ran := run (state.2.dialect.render f) f.bindings state
        (deleteById s id state).1.isOk = ran.1.isOk ∧ (deleteById s id state).2.1 = ran.2.1 ∧
          (deleteById s id state).2.2 =
            if ran.1.isOk then ran.2.2.drop (Session.snapshotKey s id) else ran.2.2 := by
  obtain ⟨service, session⟩ := state
  unfold deleteById
  rw [get_bind_apply]
  dsimp only
  rw [bind_apply]
  cases s.deleteById session.dialect id with
  | error e => exact .inl ⟨e, rfl, rfl⟩
  | ok f =>
    right
    refine ⟨f, rfl, ?_⟩
    simp only [Run.ofExcept]
    rw [bind_apply, execute_apply]
    dsimp only
    rcases run (session.dialect.render f) f.bindings (service, session) with ⟨result, ran, after⟩
    cases result with
    | error e => exact ⟨rfl, rfl, rfl⟩
    | ok rows => exact ⟨rfl, rfl, rfl⟩

end Act

/-! ### Updates -/

namespace Revision

variable {r : Revision} {d : Dialect} {held : Option (List Value)}

theorem due_of_changes (h : r.entity.changes held = []) : r.due d held = none := by
  have hplaces : changedPlaces r.schema.columns held r.row = [] := by
    show changedPlaces r.schema.columns held r.entity.row = []
    rw [r.entity.changedPlaces_eq, List.map_eq_nil_iff.mp h]
    rfl
  unfold due
  rw [hplaces]

theorem due_of_update (h : r.entity.changes held ≠ []) {f : Fragment}
    (hf : r.schema.update d r.entity (changedPlaces r.schema.columns held r.row) = .ok f) :
    r.due d held = some (d.render f, f.bindings) := by
  unfold due
  cases hplaces : changedPlaces r.schema.columns held r.row with
  | nil =>
    have hcells : (r.entity.changedCells held).map (·.2) = [] := by
      rw [← r.entity.changedPlaces_eq]
      exact hplaces
    apply absurd _ h
    unfold Entity.changes
    rw [List.map_eq_nil_iff.mp hcells]
    rfl
  | cons place places =>
    rw [hplaces] at hf
    dsimp only
    rw [hf]

/-- What an update sends, by the row held. -/
theorem dispatched_changes (r : Revision) (state : Service × Session) {column : Column}
    (hkey : r.schema.requireKey = .ok column) :
    let changes := r.entity.changes (state.2.snapshot? r.key)
    (changes = [] → Act.dispatched r.act state = []) ∧
      (changes ≠ [] →
        ∃ statement, r.schema.IsUpdate state.2.dialect changes (column, r.entity.key) statement ∧
          Act.dispatched r.act state = [statement]) := by
  intro changes
  rw [r.dispatched_act]
  constructor
  · intro hnone
    rw [due_of_changes hnone]
    rfl
  · intro hsome
    obtain ⟨f, hupdate, hstatement⟩ := r.schema.update_changes state.2.dialect r.entity
      (state.2.snapshot? r.key) hkey
    refine ⟨_, hstatement, ?_⟩
    rw [due_of_update hsome hupdate]
    rfl

end Revision

/-! ### Changes -/

/-- What is done to an entity in a session. -/
inductive Change where
  | attach (r : Revision)
  | update (r : Revision)
  | delete (r : Revision)
  | deleteById (s : Schema) (id : Value)

namespace Change

def act : Change → Act Affected
  | attach r => do
    Act.attachOld r.schema r.entity
    return .nothing
  | update r => r.act
  | delete r => Act.delete r.schema r.entity
  | deleteById s id => Act.deleteById s id

/-- What the row of the entity is held under. -/
def key : Change → String × String
  | attach r | update r | delete r => r.key
  | deleteById s id => Session.snapshotKey s id

/-- The statement that deletes a row, if it has a key. -/
def deletion (s : Schema) (id : Value) (d : Dialect) : Option (String × List Binding) :=
  (s.deleteById d id).toOption.map fun f => (d.render f, f.bindings)

/-- The statement to send, if there is one. -/
def due (d : Dialect) (held : Option (List Value)) : Change → Option (String × List Binding)
  | attach _ => none
  | update r => r.due d held
  | delete r => deletion r.schema r.entity.key d
  | deleteById s id => deletion s id d

/-- What a change that succeeds did to the row held.  An update that has nothing to send does
nothing. -/
def event? (c : Change) (state : Service × Session) : Option RowEvent :=
  if (c.act state).1.isOk then
    match c with
    | attach r => some (.attached r.key r.row)
    | update r => if (Act.dispatched r.act state).isEmpty then none else some (.written r.key r.row)
    | delete r => some (.deleted r.key)
    | deleteById s id => some (.deleted (Session.snapshotKey s id))
  else none

variable (c : Change) (state : Service × Session)

theorem dispatched_deleteById (s : Schema) (id : Value) :
    Act.dispatched (Act.deleteById s id) state = (deletion s id state.2.dialect).toList := by
  unfold Act.dispatched deletion
  rcases Act.deleteById_cases s id ({ state.1 with observed := [] },
    { state.2 with observed := true }) with ⟨e, hnone, hsame⟩ | ⟨f, hsome, -, hservice, -⟩
  · have hnone : s.deleteById state.2.dialect id = .error e := hnone
    rw [hsame, hnone]
    rfl
  · have hsome : s.deleteById state.2.dialect id = .ok f := hsome
    rw [hservice, (Act.run_apply _ _ _).1, hsome]
    rfl

/-- What is sent depends on the row held, and on nothing else of the session but its dialect. -/
theorem dispatched_act :
    Act.dispatched c.act state =
      (c.due state.2.dialect (state.2.snapshot? c.key)).toList := by
  cases c with
  | attach r => rfl
  | update r => exact r.dispatched_act state
  | delete r => exact dispatched_deleteById state r.schema r.entity.key
  | deleteById s id => exact dispatched_deleteById state s id

theorem dialect_deleteById (s : Schema) (id : Value) :
    (Act.deleteById s id state).2.2.dialect = state.2.dialect := by
  rcases Act.deleteById_cases s id state with ⟨e, -, hsame⟩ | ⟨f, -, -, -, hsession⟩
  · rw [hsame]
  · obtain ⟨pinned, hpinned⟩ := (Act.run_apply (state.2.dialect.render f) f.bindings state).2
    rw [hsession, hpinned]
    split <;> rfl

theorem dialect_act : (c.act state).2.2.dialect = state.2.dialect := by
  cases c with
  | attach r => rfl
  | update r => exact r.dialect_act state
  | delete r => exact dialect_deleteById state r.schema r.entity.key
  | deleteById s id => exact dialect_deleteById state s id

theorem snapshot?_deleteById (s : Schema) (id : Value) (key : String × String) :
    (Act.deleteById s id state).2.2.snapshot? key =
      if (Act.deleteById s id state).1.isOk ∧ Session.snapshotKey s id = key then none
      else state.2.snapshot? key := by
  rcases Act.deleteById_cases s id state with ⟨e, -, hsame⟩ | ⟨f, -, hok, -, hsession⟩
  · rw [hsame]
    rfl
  · obtain ⟨pinned, hpinned⟩ := (Act.run_apply (state.2.dialect.render f) f.bindings state).2
    have hheld : (Act.run (state.2.dialect.render f) f.bindings state).2.2.snapshot? key =
        state.2.snapshot? key := by
      rw [hpinned]
      rfl
    rw [hsession, hok]
    by_cases hrun : (Act.run (state.2.dialect.render f) f.bindings state).1.isOk = true
    · simp only [hrun, if_true, true_and, Session.snapshot?_drop, hheld, eq_comm]
    · simp [hrun, hheld]

/-- One change: the row held afterwards is told by what it did. -/
theorem snapshot?_act (key : String × String) :
    (c.act state).2.2.snapshot? key =
      RowEvent.rowHeld key (state.2.snapshot? key) (c.event? state).toList := by
  have hdelete : ∀ (s : Schema) (id : Value),
      (Act.deleteById s id state).2.2.snapshot? key =
        RowEvent.rowHeld key (state.2.snapshot? key)
          (if (Act.deleteById s id state).1.isOk then
            some (RowEvent.deleted (Session.snapshotKey s id)) else none).toList := by
    intro s id
    rw [snapshot?_deleteById]
    cases (Act.deleteById s id state).1.isOk with
    | false => simp [RowEvent.rowHeld]
    | true => simp [RowEvent.rowHeld]
  cases c with
  | attach r =>
    show (state.2.hold r.key r.row).snapshot? key = if r.key = key then some r.row else _
    rw [Session.snapshot?_hold]
    simp only [eq_comm, RowEvent.rowHeld]
  | update r =>
    show (r.act state).2.2.snapshot? key = RowEvent.rowHeld key (state.2.snapshot? key)
      (if (r.act state).1.isOk then
        if (Act.dispatched r.act state).isEmpty then none else some (.written r.key r.row)
      else none).toList
    rw [r.snapshot?_act state, Revision.write?]
    cases (r.act state).1.isOk with
    | false => simp [RowEvent.rowHeld, Revision.remembered_nil]
    | true =>
      cases (Act.dispatched r.act state).isEmpty with
      | true => simp [RowEvent.rowHeld, Revision.remembered_nil]
      | false =>
        by_cases hkey : r.key = key
        · simp [RowEvent.rowHeld, Revision.remembered, hkey]
        · have hother : ∀ row ∈ [(r.key, r.row)], row.1 ≠ key := by simpa using hkey
          simpa [RowEvent.rowHeld, hkey] using Revision.remembered_of_ne hother _
  | delete r => exact hdelete r.schema r.entity.key
  | deleteById s id => exact hdelete s id

/-! ### Runs -/

/-- The changes, each whether those before it succeeded or not. -/
def applyAll : List Change → Service × Session → Service × Session
  | [], state => state
  | c :: more, state => applyAll more (c.act state).2

/-- What the changes did to the rows held, the last one first. -/
def events : List Change → Service × Session → List RowEvent
  | [], _ => []
  | c :: more, state => events more (c.act state).2 ++ (c.event? state).toList

theorem snapshot?_applyAll (changes : List Change) (key : String × String) :
    (applyAll changes state).2.snapshot? key =
      RowEvent.rowHeld key (state.2.snapshot? key) (events changes state) := by
  induction changes generalizing state with
  | nil => rfl
  | cons c more ih =>
    show (applyAll more (c.act state).2).2.snapshot? key = _
    rw [ih, snapshot?_act, events, RowEvent.rowHeld_append]

theorem dialect_applyAll (changes : List Change) :
    (applyAll changes state).2.dialect = state.2.dialect := by
  induction changes generalizing state with
  | nil => rfl
  | cons c more ih => exact (ih _).trans (dialect_act c state)

/-- A change that fails leaves the rows held, and is sent again as it was. -/
theorem unchanged_of_failed (hfailed : (c.act state).1.isOk = false) :
    (∀ key, (c.act state).2.2.snapshot? key = state.2.snapshot? key) ∧
      Act.dispatched c.act (c.act state).2 = Act.dispatched c.act state := by
  have hheld : ∀ key, (c.act state).2.2.snapshot? key = state.2.snapshot? key := by
    intro key
    have hnone : c.event? state = none := by simp [event?, hfailed]
    rw [snapshot?_act, hnone]
    rfl
  refine ⟨hheld, ?_⟩
  rw [dispatched_act, dispatched_act, dialect_act, hheld]

/-- Whatever was done in a session and failed in it: the row held for an entity is told by what has
happened to it; an update sets exactly the columns that differ from that row, to the values of the
entity, and sends nothing if there are none; and a change that fails leaves all rows held, so that
it is sent again as it was. -/
theorem update_sends_changes (changes : List Change) (r : Revision) {column : Column}
    (hkey : r.schema.requireKey = .ok column) :
    let now := applyAll changes state
    let held := RowEvent.rowHeld r.key (state.2.snapshot? r.key) (events changes state)
    now.2.snapshot? r.key = held ∧
      (r.entity.changes held = [] → Act.dispatched r.act now = []) ∧
      (r.entity.changes held ≠ [] →
        ∃ statement, r.schema.IsUpdate state.2.dialect (r.entity.changes held)
            (column, r.entity.key) statement ∧
          Act.dispatched r.act now = [statement]) ∧
      ∀ c : Change, (c.act now).1.isOk = false →
        (∀ key, (c.act now).2.2.snapshot? key = now.2.snapshot? key) ∧
          Act.dispatched c.act (c.act now).2 = Act.dispatched c.act now := by
  intro now held
  have hheld : now.2.snapshot? r.key = held := snapshot?_applyAll state changes r.key
  have hdialect : now.2.dialect = state.2.dialect := dialect_applyAll state changes
  obtain ⟨hnone, hsome⟩ := r.dispatched_changes now hkey
  rw [hheld] at hnone hsome
  rw [hdialect] at hsome
  exact ⟨hheld, hnone, hsome, fun c => c.unchanged_of_failed now⟩

/-- A session that holds no row. -/
def idle : Service × Session :=
  (⟨.fresh, .empty, []⟩, ⟨.sqlite, ⟨"sqlite", "shop.db"⟩, 500, false, false, none, []⟩)

theorem update_sends_changes_coffee :
    Schema.orderItem.requireKey = .ok (Schema.keyColumn "id" Schema.int64 none) ∧
      ∃ statement,
        Schema.orderItem.IsUpdate .sqlite [(.plain "product" Schema.text, .varchar "coffee")]
          (Schema.keyColumn "id" Schema.int64 none, Revision.coffee.entity.key) statement ∧
        Act.dispatched Revision.coffee.act (applyAll [.attach Revision.tea] idle) =
          [statement] := by
  have hkey : Revision.coffee.schema.requireKey =
      .ok (Schema.keyColumn "id" Schema.int64 none) := rfl
  obtain ⟨-, -, hsent, -⟩ := update_sends_changes idle [.attach Revision.tea] .coffee hkey
  have hchanges : Revision.coffee.entity.changes
      (RowEvent.rowHeld Revision.coffee.key (idle.2.snapshot? Revision.coffee.key)
        (events [.attach Revision.tea] idle)) =
      [(.plain "product" Schema.text, .varchar "coffee")] := rfl
  rw [hchanges] at hsent
  exact ⟨hkey, hsent (List.cons_ne_nil _ _)⟩

end Change

end BoundSql
