import BoundSql.Proofs.Serving
import BoundSql.Proofs.Snapshots
import BoundSql.Proofs.Tuples
import BoundSql.Schema.Samples
import BoundSql.Session.Tracking
import Mathlib.Algebra.Ring.Nat

/-!
# Inserts in batches

Many entities are inserted in runs of at most the batch size of the session, in order.  How far that
goes depends on the answers of the database alone, provided that a connection can be had for the
first statement, because then one can be had for all (`Act.Connected`).  When all are answered
well the counts add up and the last reported key counts; the first bad answer ends the insert
(`Act.insertMany_sends`).
-/

namespace BoundSql

/-! ### Runs of items -/

section Chunks

variable {α : Type} (size : Nat) (items : List α)

theorem flatten_chunks : (chunks size items).flatten = items := by
  induction items using chunks.induct size with
  | case1 => rw [chunks, List.flatten_nil]
  | case2 item rest ih =>
    rw [chunks, List.flatten_cons, ih, List.cons_append, List.take_append_drop]

theorem length_of_mem_chunks {chunk : List α} (h : chunk ∈ chunks size items) :
    0 < chunk.length ∧ chunk.length ≤ max 1 size := by
  induction items using chunks.induct size with
  | case1 =>
    rw [chunks] at h
    cases h
  | case2 item rest ih =>
    rw [chunks] at h
    rcases List.mem_cons.mp h with rfl | h
    · rw [List.length_cons, List.length_take]
      omega
    · exact ih h

/-- All runs but the last one are full. -/
theorem length_of_mem_dropLast_chunks {chunk : List α} (h : chunk ∈ (chunks size items).dropLast) :
    chunk.length = max 1 size := by
  induction items using chunks.induct size with
  | case1 =>
    rw [chunks] at h
    cases h
  | case2 item rest ih =>
    rw [chunks] at h
    cases hrest : chunks size (rest.drop (size - 1)) with
    | nil =>
      rw [hrest] at h
      cases h
    | cons next more =>
      rw [hrest, List.dropLast_cons_cons] at h
      rw [hrest] at ih
      rcases List.mem_cons.mp h with rfl | h
      · have hlong : rest.drop (size - 1) ≠ [] := by
          intro hnil
          rw [hnil, chunks] at hrest
          cases hrest
        have hlength : size - 1 < rest.length := by
          simpa [List.drop_eq_nil_iff] using hlong
        rw [List.length_cons, List.length_take]
        omega
      · exact ih h

theorem length_chunks :
    (chunks size items).length = (items.length + max 1 size - 1) / max 1 size := by
  have hpos : 0 < max 1 size := Nat.lt_of_lt_of_le Nat.one_pos (Nat.le_max_left 1 size)
  induction items using chunks.induct size with
  | case1 =>
    rw [chunks, List.length_nil, List.length_nil, Nat.zero_add, Nat.div_eq_of_lt (by omega)]
  | case2 item rest ih =>
    rw [chunks, List.length_cons, List.length_cons, ih, List.length_drop]
    have hsum : rest.length + 1 + max 1 size - 1 = rest.length + max 1 size := by omega
    rw [hsum, Nat.add_div_right _ hpos]
    congr 1
    by_cases hshort : rest.length ≤ size - 1
    · rw [Nat.div_eq_of_lt (by omega), Nat.div_eq_of_lt (by omega)]
    · congr 1
      omega

end Chunks

/-! ### Answers -/

/-- What the database answers to a statement. -/
def Memory.answer (m : Memory) (sql : String) (bindings : List Binding) : Except Fault RowSet :=
  match m.failStatements.find? (Text.contains sql ·) with
  | some part => .error (.refused (.statement part))
  | none => (m.scripted? sql bindings).getD (.ok (Memory.defaultAnswer sql))

theorem Connection.run_answer (c : Connection) (sql : String) (bindings : List Binding)
    (m : Memory) :
    (c.run sql bindings m).1 = m.answer sql bindings ∧
      (c.run sql bindings m).2.2.answer = m.answer := by
  unfold run Memory.answer
  cases hrefused : m.failStatements.find? (Text.contains sql ·) with
  | some part =>
    simp only [hrefused]
    exact ⟨trivial, rfl⟩
  | none =>
    simp only [hrefused]
    unfold keep
    split
    · split <;> exact ⟨rfl, rfl⟩
    · exact ⟨rfl, rfl⟩

namespace Act

/-- A connection can be had for a statement. -/
def Connected (state : Service × Session) : Prop :=
  (state.1.pool.borrow state.2.key state.2.pinned state.1.memory).1.isOk = true

instance (state : Service × Session) : Decidable (Connected state) :=
  inferInstanceAs (Decidable (_ = true))

/-- The statements that the database has received meanwhile. -/
def Received (before after : Service × Session) (sent : List (String × List Binding)) : Prop :=
  ∃ received, after.1.memory.statements = before.1.memory.statements ++ received ∧
    received.map (fun s => (s.sql, s.bindings)) = sent

/-- The database has received the statements, and what matters for the next ones is as it was. -/
structure Sent (before after : Service × Session) (sent : List (String × List Binding)) : Prop where
  received : Received before after sent
  answer : after.1.memory.answer = before.1.memory.answer
  dialect : after.2.dialect = before.2.dialect
  generated : after.2.generated = before.2.generated
  connected : Connected before → Connected after

theorem Sent.refl (state : Service × Session) : Sent state state [] :=
  ⟨⟨[], (List.append_nil _).symm, rfl⟩, rfl, rfl, rfl, id⟩

theorem Sent.append {before middle after : Service × Session}
    {sent more : List (String × List Binding)} (hfirst : Sent before middle sent)
    (hsecond : Sent middle after more) : Sent before after (sent ++ more) := by
  obtain ⟨received, hreceived, hsent⟩ := hfirst.received
  obtain ⟨others, hothers, hmore⟩ := hsecond.received
  refine ⟨⟨received ++ others, ?_, ?_⟩, hsecond.answer.trans hfirst.answer,
    hsecond.dialect.trans hfirst.dialect, hsecond.generated.trans hfirst.generated,
    fun h => hsecond.connected (hfirst.connected h)⟩
  · rw [hothers, hreceived, List.append_assoc]
  · rw [List.map_append, hsent, hmore]

theorem connected_of_pinned {service : Service} {session : Session} {c : Connection}
    (h : session.pinned = some c) : Connected (service, session) := by
  unfold Connected
  rw [h]
  rfl

theorem connected_of_closed {service : Service} {session : Session} (h : session.pinned = none) :
    Connected (service, session) ↔
      (service.pool.acquire session.key service.memory).1.isOk = true := by
  unfold Connected
  rw [h]
  unfold Pool.borrow
  rcases service.pool.acquire session.key service.memory with ⟨_ | c, pool, memory⟩
  · exact Iff.rfl
  · exact Iff.rfl

/-- A connection that was just given back can be had again. -/
theorem connected_release {service : Service} {session : Session} {pool : Pool} {c : Connection}
    (h : service.pool = pool.release session.key c) : Connected (service, session) := by
  have htake : ∀ idle : List (PoolKey × Connection),
      (Pool.takeFirst? session.key (idle ++ [(session.key, c)])).isSome = true := by
    intro idle
    induction idle with
    | nil => simp [Pool.takeFirst?]
    | cons entry idle ih =>
      obtain ⟨other, first⟩ := entry
      rw [List.cons_append, Pool.takeFirst?]
      split
      · rfl
      · rw [Option.isSome_map]
        exact ih
  -- it may not be the one that is taken: others of the same key are in front of it
  obtain ⟨taken, htaken⟩ := Option.isSome_iff_exists.mp (htake pool.idle)
  cases hpinned : session.pinned with
  | some c => exact connected_of_pinned hpinned
  | none =>
    rw [connected_of_closed hpinned, h]
    simp only [Pool.acquire, Pool.release, htaken]
    rfl

variable {service : Service} {session : Session} (sql : String) (bindings : List Binding)

/-- A transaction has its connection; else one is idle, or one can be opened. -/
theorem connected_iff :
    Connected (service, session) ↔ session.inTransaction = true ∨
      service.memory.failConnect = none ∨ ∃ c, (session.key, c) ∈ service.pool.idle := by
  cases hpinned : session.pinned with
  | some c =>
    have hopen : session.inTransaction = true := by
      unfold Session.inTransaction
      rw [hpinned]
      rfl
    exact iff_of_true (connected_of_pinned hpinned) (.inl hopen)
  | none =>
    have hclosed : ¬ session.inTransaction = true := by
      unfold Session.inTransaction
      rw [hpinned]
      exact Bool.false_ne_true
    rw [connected_of_closed hpinned, or_iff_right hclosed]
    unfold Pool.acquire Memory.connect
    cases htake : Pool.takeFirst? session.key service.pool.idle with
    | some taken =>
      obtain ⟨c, rest⟩ := taken
      have hidle := (Pool.perm_of_takeFirst? htake).mem_iff.mpr List.mem_cons_self
      exact iff_of_true rfl (.inr ⟨c, hidle⟩)
    | none =>
      have hnone : ¬ ∃ c, (session.key, c) ∈ service.pool.idle := by
        rintro ⟨c, hidle⟩
        exact Pool.key_ne_of_takeFirst? htake _ hidle rfl
      rw [or_iff_left hnone]
      cases service.memory.failConnect with
      | none => exact iff_of_true rfl rfl
      | some message => exact iff_of_false Bool.false_ne_true (by simp)

theorem run_of_connected (h : Connected (service, session)) :
    (run sql bindings (service, session)).1 =
        inCircumstance (.executing sql) (service.memory.answer sql bindings) ∧
      Sent (service, session) (run sql bindings (service, session)).2 [(sql, bindings)] := by
  cases hpinned : session.pinned with
  | some c =>
    obtain ⟨hanswer, hsame⟩ := c.run_answer sql bindings service.memory
    rw [run_of_pinned sql bindings hpinned, hanswer]
    exact ⟨rfl, ⟨_, (c.run_received sql bindings service.memory).1, rfl⟩, hsame, rfl, rfl,
      fun _ => connected_of_pinned rfl⟩
  | none =>
    rcases hacquire : service.pool.acquire session.key service.memory with ⟨e | c, pool, memory⟩
    · rw [connected_of_closed hpinned, hacquire] at h
      cases h
    · have hmemory : memory.answer = service.memory.answer ∧
          memory.statements = service.memory.statements := by
        rcases Pool.of_acquire_ok hacquire with ⟨-, rfl⟩ | ⟨-, -, -, rfl⟩
        · exact ⟨rfl, rfl⟩
        · exact ⟨rfl, rfl⟩
      obtain ⟨hanswer, hsame⟩ := c.run_answer sql bindings memory
      have hreceived := (c.run_received sql bindings memory).1
      rw [hmemory.2] at hreceived
      rw [run_of_acquired sql bindings hpinned hacquire, hanswer, hmemory.1]
      exact ⟨rfl, ⟨_, hreceived, rfl⟩, hsame.trans hmemory.1, rfl, rfl,
        fun _ => connected_release rfl⟩

theorem run_of_not_connected (h : ¬ Connected (service, session)) :
    ∃ message, run sql bindings (service, session) =
      (.error (.refused (.connection message session.key.target)),
        service.showing session sql bindings, session) := by
  cases hpinned : session.pinned with
  | some c => exact absurd (connected_of_pinned hpinned) h
  | none =>
    rcases hacquire : service.pool.acquire session.key service.memory with ⟨e | c, pool, memory⟩
    · obtain ⟨-, -, message, -, rfl⟩ := Pool.of_acquire_error hacquire
      exact ⟨message, run_of_refused sql bindings hpinned hacquire⟩
    · rw [connected_of_closed hpinned, hacquire] at h
      exact absurd rfl h

end Act

/-! ### Batches -/

/-- The statement by which the session inserts a batch. -/
def Session.insertion (session : Session) (s : Schema) (batch : List (Entity s)) :
    String × List Binding :=
  (session.dialect.render (s.insert session.dialect batch session.generated),
    (s.insert session.dialect batch session.generated).bindings)

namespace Act

variable {s : Schema} {state : Service × Session}

/-- The statements of a session do not depend on what was sent. -/
theorem Sent.insertion {before after : Service × Session} {sent : List (String × List Binding)}
    (h : Sent before after sent) (s : Schema) : after.2.insertion s = before.2.insertion s := by
  unfold Session.insertion
  rw [h.dialect, h.generated]

/-- What the database answers to the insert of a batch. -/
def answerTo (state : Service × Session) (s : Schema) (batch : List (Entity s)) :
    Except Fault RowSet :=
  state.1.memory.answer (state.2.insertion s batch).1 (state.2.insertion s batch).2

theorem Sent.answerTo {before after : Service × Session} {sent : List (String × List Binding)}
    (h : Sent before after sent) (s : Schema) : answerTo after s = answerTo before s := by
  unfold Act.answerTo
  rw [h.insertion, h.answer]

theorem insertBatch_apply (batch : List (Entity s)) :
    insertBatch s batch state =
      let ran := run (state.2.insertion s batch).1 (state.2.insertion s batch).2 state
      (ran.1.map (·.affected), ran.2) := by
  unfold insertBatch
  rw [get_bind_apply]
  exact execute_apply _ state

/-- A batch is answered as its statement is. -/
theorem insertBatch_of_connected (hconnected : Connected state) (batch : List (Entity s)) :
    ∃ after, insertBatch s batch state =
        ((inCircumstance (.executing (state.2.insertion s batch).1)
          (answerTo state s batch)).map (·.affected), after) ∧
      Sent state after [state.2.insertion s batch] := by
  obtain ⟨hran, hsent⟩ := run_of_connected (state.2.insertion s batch).1
    (state.2.insertion s batch).2 hconnected
  refine ⟨_, ?_, hsent⟩
  rw [insertBatch_apply]
  dsimp only
  rw [hran]
  rfl

/-- Batches that are all answered well, one after the other. -/
theorem insertBatches_of_ok {batches : List (List (Entity s))} {rows : List RowSet}
    (hconnected : Connected state) (hrows : batches.map (answerTo state s) = rows.map .ok)
    (sum : Affected) (more : List (List (Entity s))) :
    ∃ after, insertBatches s sum (batches ++ more) state =
        insertBatches s (rows.foldl (fun sum rows => sum.add rows.affected) sum) more after ∧
      Sent state after (batches.map (state.2.insertion s)) := by
  induction batches generalizing rows state sum with
  | nil =>
    obtain rfl := List.map_eq_nil_iff.mp hrows.symm
    exact ⟨state, rfl, .refl _⟩
  | cons batch batches ih =>
    obtain ⟨first, rows, rfl, hfirst, hrows⟩ := List.map_eq_cons_iff.mp hrows.symm
    obtain ⟨middle, hbatch, hsent⟩ := insertBatch_of_connected hconnected batch
    rw [← hfirst] at hbatch
    rw [← hsent.answerTo] at hrows
    -- the answers were those of the first state; what was sent has not changed them
    obtain ⟨after, hrest, hmore⟩ := ih (hsent.connected hconnected) hrows.symm
      (sum.add first.affected)
    refine ⟨after, ?_, ?_⟩
    · rw [List.cons_append, insertBatches, bind_apply, hbatch]
      exact hrest
    · rw [hsent.insertion] at hmore
      exact hsent.append hmore

theorem foldl_add (rows : List RowSet) (sum : Affected) :
    rows.foldl (fun sum rows => sum.add rows.affected) sum =
      ⟨sum.rows + (rows.map (·.affected.rows)).sum,
        (rows.filterMap (·.affected.lastId)).getLast?.or sum.lastId⟩ := by
  induction rows generalizing sum with
  | nil => rfl
  | cons first rows ih =>
    rw [List.foldl_cons, ih]
    cases hid : first.affected.lastId with
    | none => simp [Affected.add, hid, Nat.add_assoc]
    | some id =>
      simp only [Affected.add, hid, List.map_cons, List.sum_cons, Nat.add_assoc,
        List.filterMap_cons, List.getLast?_cons]
      cases (rows.filterMap (·.affected.lastId)).getLast? <;> rfl

/-- The first batch that is answered with a fault is the last one that is sent. -/
theorem insertBatches_of_error {batches : List (List (Entity s))} {batch : List (Entity s)}
    {rows : List RowSet} {e : Fault} (hconnected : Connected state)
    (hrows : batches.map (answerTo state s) = rows.map .ok) (he : answerTo state s batch = .error e)
    (sum : Affected) (later : List (List (Entity s))) :
    ∃ after, insertBatches s sum (batches ++ batch :: later) state =
        (.error (.within (.executing (state.2.insertion s batch).1) e), after) ∧
      Sent state after ((batches ++ [batch]).map (state.2.insertion s)) := by
  obtain ⟨middle, hbatches, hsent⟩ :=
    insertBatches_of_ok hconnected hrows sum (batch :: later)
  obtain ⟨after, hbatch, hmore⟩ := insertBatch_of_connected (hsent.connected hconnected) batch
  rw [hsent.insertion, hsent.answerTo, he] at hbatch
  rw [hsent.insertion] at hmore
  refine ⟨after, ?_, ?_⟩
  · rw [hbatches, insertBatches, bind_apply, hbatch]
    rfl
  · rw [List.map_append]
    exact hsent.append hmore

theorem insertMany_apply (entities : List (Entity s)) :
    insertMany s entities state =
      insertBatches s .nothing (chunks state.2.batchSize entities) state := by
  unfold insertMany
  rw [get_bind_apply]

/-- Answers are all good, or one of them is the first that is not. -/
theorem all_ok_or_first_error (answers : List (Except Fault RowSet)) :
    (∃ rows : List RowSet, answers = rows.map .ok) ∨
      ∃ (k : Nat) (rows : List RowSet) (e : Fault),
        answers.take k = rows.map .ok ∧ answers[k]? = some (.error e) := by
  induction answers with
  | nil => exact .inl ⟨[], rfl⟩
  | cons answer answers ih =>
    cases answer with
    | error e => exact .inr ⟨0, [], e, rfl, rfl⟩
    | ok first =>
      rcases ih with ⟨rows, rfl⟩ | ⟨k, rows, e, hrows, he⟩
      · exact .inl ⟨first :: rows, rfl⟩
      · exact .inr ⟨k + 1, first :: rows, e, by rw [List.take_succ_cons, hrows]; rfl, he⟩

/-! ### Counting what was inserted -/

variable {batch : List (Entity s)}

/-- Where no answer was set up, an insert is answered with the number of its entities. -/
theorem answerTo_of_unscripted (hresponders : state.1.memory.responders = [])
    (hd : state.2.dialect.SparesTuples) (hs : s.SparesTuples) (hbatch : batch ≠ []) :
    (state.1.memory.failStatements = [] → answerTo state s batch = .ok (.changed batch.length)) ∧
      ∀ rows, answerTo state s batch = .ok rows → rows = .changed batch.length := by
  have hcount := Schema.defaultAnswer_insert batch state.2.generated hd hs hbatch
  unfold answerTo Memory.answer Memory.scripted?
  rw [hresponders]
  constructor
  · intro hrefused
    rw [hrefused]
    exact congrArg Except.ok hcount
  · intro rows hrows
    split at hrows
    · cases hrows
    · exact (Except.ok.inj hrows).symm.trans hcount

/-- What is reported adds up to the number of entities. -/
theorem rows_of_unscripted (hresponders : state.1.memory.responders = [])
    (hd : state.2.dialect.SparesTuples) (hs : s.SparesTuples) {batches : List (List (Entity s))}
    {rows : List RowSet} (hbatches : ∀ batch ∈ batches, batch ≠ [])
    (hrows : batches.map (answerTo state s) = rows.map .ok) :
    (rows.map (·.affected.rows)).sum = batches.flatten.length ∧
      rows.filterMap (·.affected.lastId) = [] := by
  induction batches generalizing rows with
  | nil =>
    obtain rfl := List.map_eq_nil_iff.mp hrows.symm
    exact ⟨rfl, rfl⟩
  | cons batch batches ih =>
    obtain ⟨first, rows, rfl, hfirst, hrest⟩ := List.map_eq_cons_iff.mp hrows.symm
    obtain ⟨-, hcounted⟩ :=
      answerTo_of_unscripted hresponders hd hs (hbatches batch List.mem_cons_self)
    obtain rfl := hcounted first hfirst.symm
    obtain ⟨hsum, hnone⟩ :=
      ih (fun batch hmem => hbatches batch (List.mem_cons_of_mem _ hmem)) hrest.symm
    constructor
    · rw [List.map_cons, List.sum_cons, hsum, List.flatten_cons, List.length_append]
      rfl
    · rw [List.filterMap_cons]
      exact hnone

/-! ### All batches -/

theorem insertMany_of_ok {entities : List (Entity s)} {rows : List RowSet}
    (hconnected : Connected state)
    (hrows : (chunks state.2.batchSize entities).map (answerTo state s) = rows.map .ok) :
    (insertMany s entities state).1 = .ok ⟨(rows.map (·.affected.rows)).sum,
        (rows.filterMap (·.affected.lastId)).getLast?⟩ ∧
      Received state (insertMany s entities state).2
        ((chunks state.2.batchSize entities).map (state.2.insertion s)) := by
  obtain ⟨after, hran, hsent⟩ := insertBatches_of_ok hconnected hrows .nothing []
  rw [List.append_nil] at hran
  rw [insertMany_apply, hran, foldl_add]
  refine ⟨?_, hsent.received⟩
  show Except.ok (⟨0 + _, Option.or _ none⟩ : Affected) = _
  rw [Nat.zero_add, Option.or_none]

theorem insertMany_of_error {entities : List (Entity s)} {k : Nat} {rows : List RowSet} {e : Fault}
    (hconnected : Connected state) (hbatch : (chunks state.2.batchSize entities)[k]? = some batch)
    (hrows : ((chunks state.2.batchSize entities).take k).map (answerTo state s) = rows.map .ok)
    (he : answerTo state s batch = .error e) :
    (insertMany s entities state).1 =
        .error (.within (.executing (state.2.insertion s batch).1) e) ∧
      Received state (insertMany s entities state).2
        (((chunks state.2.batchSize entities).take (k + 1)).map (state.2.insertion s)) := by
  obtain ⟨hk, hget⟩ := List.getElem?_eq_some_iff.mp hbatch
  have hsplit : (chunks state.2.batchSize entities).take k ++
      batch :: (chunks state.2.batchSize entities).drop (k + 1) =
        chunks state.2.batchSize entities := by
    rw [← hget, ← List.drop_eq_getElem_cons hk, List.take_append_drop]
  have htake : (chunks state.2.batchSize entities).take (k + 1) =
      (chunks state.2.batchSize entities).take k ++ [batch] := by
    rw [List.take_succ_eq_append_getElem hk, hget]
  obtain ⟨after, hran, hsent⟩ := insertBatches_of_error hconnected hrows he .nothing
    ((chunks state.2.batchSize entities).drop (k + 1))
  rw [hsplit] at hran
  rw [insertMany_apply, hran, htake]
  exact ⟨rfl, hsent.received⟩

/-- Without a connection nothing is sent. -/
theorem insertMany_of_not_connected (h : ¬ Connected state) (entities : List (Entity s)) :
    Received state (insertMany s entities state).2 [] ∧
      (entities ≠ [] → ∃ message, (insertMany s entities state).1 =
        .error (.refused (.connection message state.2.key.target))) := by
  rw [insertMany_apply]
  cases hchunks : chunks state.2.batchSize entities with
  | nil =>
    have hempty : entities = [] := by
      rw [← flatten_chunks state.2.batchSize entities, hchunks, List.flatten_nil]
    exact ⟨(Sent.refl state).received, fun hne => absurd hempty hne⟩
  | cons batch batches =>
    obtain ⟨message, hrun⟩ := run_of_not_connected (state.2.insertion s batch).1
      (state.2.insertion s batch).2 h
    rw [insertBatches, bind_apply, insertBatch_apply]
    dsimp only
    rw [hrun]
    refine ⟨⟨[], ?_, rfl⟩, fun _ => ⟨message, rfl⟩⟩
    show (state.1.showing _ _ _).memory.statements = _
    rw [Service.showing_memory, List.append_nil]

/-- Each batch is inserted by a statement with one tuple for each of its entities. -/
theorem tuples_insertions (session : Session) (batches : List (List (Entity s))) :
    List.Forall₂ (fun batch statement => ∃ tuples : List (List Binding),
      statement.1 = "INSERT INTO " ++ session.dialect.quote s.table ++ " (" ++
        ", ".intercalate
          ((s.listed session.generated).map fun x => session.dialect.quote x.1.name) ++
        ") VALUES " ++ ", ".intercalate (tuples.map session.dialect.tupleText) ∧
      statement.2 = tuples.flatten ∧
      List.Forall₂ (fun e tuple => List.Forall₂ (fun x b => e.row[x.2]? = some b.value)
        (s.listed session.generated) tuple) batch tuples) batches
      (batches.map (session.insertion s)) := by
  rw [List.forall₂_map_right_iff, List.forall₂_same]
  intro batch _
  exact ⟨_, s.render_insert session.dialect batch session.generated,
    s.bindings_insert session.dialect batch session.generated,
    s.rows_insertedTuples batch session.generated⟩

/-- The tuples of all batches are those of the entities, in order and each of them once. -/
theorem exists_tuples (session : Session) (batches : List (List (Entity s))) :
    ∃ tuples : List (List Binding),
      (batches.map (session.insertion s)).flatMap (·.2) = tuples.flatten ∧
      List.Forall₂ (fun e tuple => List.Forall₂ (fun x b => e.row[x.2]? = some b.value)
        (s.listed session.generated) tuple) batches.flatten tuples := by
  induction batches with
  | nil => exact ⟨[], rfl, .nil⟩
  | cons batch batches ih =>
    obtain ⟨tuples, hbound, hrows⟩ := ih
    refine ⟨s.insertedTuples batch session.generated ++ tuples, ?_, ?_⟩
    · rw [List.map_cons, List.flatMap_cons, hbound, List.flatten_append]
      congr 1
      exact s.bindings_insert session.dialect batch session.generated
    · exact List.rel_append (s.rows_insertedTuples batch session.generated) hrows

/-- What is reported of an insert without scripted answers is the number of its entities. -/
theorem insertMany_of_unscripted {entities : List (Entity s)}
    (hresponders : state.1.memory.responders = []) (hd : state.2.dialect.SparesTuples)
    (hs : s.SparesTuples) :
    (∀ affected, (insertMany s entities state).1 = .ok affected →
        affected = ⟨entities.length, none⟩) ∧
      (state.1.memory.failStatements = [] → Connected state ∨ entities = [] →
        (insertMany s entities state).1 = .ok ⟨entities.length, none⟩) := by
  have hbatches : ∀ batch ∈ chunks state.2.batchSize entities, batch ≠ [] := by
    intro batch hmem
    exact List.length_pos_iff.mp (length_of_mem_chunks _ _ hmem).1
  have hcounted : ∀ rows : List RowSet, Connected state →
      (chunks state.2.batchSize entities).map (answerTo state s) = rows.map .ok →
      (insertMany s entities state).1 = .ok ⟨entities.length, none⟩ := by
    intro rows hconnected hrows
    obtain ⟨hsum, hnone⟩ := rows_of_unscripted hresponders hd hs hbatches hrows
    rw [(insertMany_of_ok hconnected hrows).1, hsum, hnone, flatten_chunks]
    rfl
  have hnothing :
      entities = [] → (insertMany s entities state).1 = .ok ⟨entities.length, none⟩ := by
    rintro rfl
    rw [insertMany_apply, chunks]
    rfl
  constructor
  · intro affected haffected
    by_cases hconnected : Connected state
    · rcases all_ok_or_first_error ((chunks state.2.batchSize entities).map (answerTo state s))
        with ⟨rows, hrows⟩ | ⟨k, rows, e, hrows, he⟩
      · exact Except.ok.inj (haffected.symm.trans (hcounted rows hconnected hrows))
      · rw [List.getElem?_map, Option.map_eq_some_iff] at he
        obtain ⟨batch, hbatch, he⟩ := he
        rw [← List.map_take] at hrows
        rw [(insertMany_of_error hconnected hbatch hrows he).1] at haffected
        cases haffected
    · by_cases hempty : entities = []
      · exact Except.ok.inj (haffected.symm.trans (hnothing hempty))
      · obtain ⟨message, hrefused⟩ := (insertMany_of_not_connected hconnected entities).2 hempty
        rw [hrefused] at haffected
        cases haffected
  · rintro hrefused (hconnected | hempty)
    · refine hcounted ((chunks state.2.batchSize entities).map fun batch => .changed batch.length)
        hconnected ?_
      rw [List.map_map]
      apply List.map_congr_left
      intro batch hmem
      exact (answerTo_of_unscripted hresponders hd hs (hbatches batch hmem)).1 hrefused
    · exact hnothing hempty

/-- Entities are inserted in runs of the batch size, each by one statement with a tuple for each
entity, which binds the values of the entity at the places of the columns listed; so the tuples of
all statements are those of the entities, in order.  If all are answered well these are all that is
received, the counts add up and the key reported last counts; if one is answered with a fault, it is
the last that is received, and the fault is that of the insert.  Without a connection nothing is
received.  Where no answers were set up, the database counts the entities, in every dialect there
is. -/
theorem insertMany_sends (s : Schema) (entities : List (Entity s)) (state : Service × Session) :
    let size := max 1 state.2.batchSize
    let listed := s.listed state.2.generated
    let d := state.2.dialect
    let batches := chunks state.2.batchSize entities
    let sent := batches.map (state.2.insertion s)
    let ran := insertMany s entities state
    (batches.flatten = entities ∧
      batches.length = (entities.length + size - 1) / size ∧
      (∀ batch ∈ batches, 0 < batch.length ∧ batch.length ≤ size) ∧
      (∀ batch ∈ batches.dropLast, batch.length = size)) ∧
    (List.Forall₂ (fun batch statement => ∃ tuples : List (List Binding),
        statement.1 = "INSERT INTO " ++ d.quote s.table ++ " (" ++
          ", ".intercalate (listed.map fun x => d.quote x.1.name) ++ ") VALUES " ++
          ", ".intercalate (tuples.map d.tupleText) ∧
        statement.2 = tuples.flatten ∧
        List.Forall₂ (fun e tuple =>
          List.Forall₂ (fun x b => e.row[x.2]? = some b.value) listed tuple) batch tuples)
        batches sent ∧
      ∃ tuples : List (List Binding), sent.flatMap (·.2) = tuples.flatten ∧
        List.Forall₂ (fun e tuple =>
          List.Forall₂ (fun x b => e.row[x.2]? = some b.value) listed tuple) entities tuples) ∧
    (Connected state →
      (∀ rows : List RowSet, batches.map (answerTo state s) = rows.map .ok →
        ran.1 = .ok ⟨(rows.map (·.affected.rows)).sum,
          (rows.filterMap (·.affected.lastId)).getLast?⟩ ∧ Received state ran.2 sent) ∧
      ∀ (k : Nat) (batch : List (Entity s)) (rows : List RowSet) (e : Fault),
        batches[k]? = some batch → (batches.take k).map (answerTo state s) = rows.map .ok →
        answerTo state s batch = .error e →
        ran.1 = .error (.within (.executing (state.2.insertion s batch).1) e) ∧
          Received state ran.2 (sent.take (k + 1))) ∧
    (¬ Connected state → Received state ran.2 [] ∧ (entities ≠ [] → ∃ message,
      ran.1 = .error (.refused (.connection message state.2.key.target)))) ∧
    (state.1.memory.responders = [] → state.2.dialect.SparesTuples → s.SparesTuples →
      (∀ affected, ran.1 = .ok affected → affected = ⟨entities.length, none⟩) ∧
      (state.1.memory.failStatements = [] → Connected state ∨ entities = [] →
        ran.1 = .ok ⟨entities.length, none⟩)) ∧
    ∀ d ∈ Dialect.bracket :: Dialect.shipped, d.SparesTuples := by
  intro size listed d batches sent ran
  refine ⟨⟨flatten_chunks _ _, length_chunks _ _, ?_, ?_⟩, ⟨tuples_insertions state.2 batches, ?_⟩,
    ?_, ?_, ?_, Dialect.sparesTuples_of_mem⟩
  · intro batch hmem
    exact length_of_mem_chunks _ _ hmem
  · intro batch hmem
    exact length_of_mem_dropLast_chunks _ _ hmem
  · have htuples := exists_tuples state.2 batches
    rw [flatten_chunks] at htuples
    exact htuples
  · intro hconnected
    constructor
    · intro rows hrows
      exact insertMany_of_ok hconnected hrows
    · intro k batch rows e hbatch hrows he
      obtain ⟨hresult, hreceived⟩ := insertMany_of_error hconnected hbatch hrows he
      rw [List.map_take] at hreceived
      exact ⟨hresult, hreceived⟩
  · intro hno
    exact insertMany_of_not_connected hno entities
  · intro hresponders hd hs
    exact insertMany_of_unscripted hresponders hd hs

/-- A session with batches of two. -/
def pairwise (responders : List Responder) : Service × Session :=
  (⟨{ Memory.fresh with responders }, .empty, []⟩,
    ⟨.bracket, ⟨"bracket", "shop.db"⟩, 2, false, false, none, []⟩)

/-- Reports a key for a pair and refuses a single entity. -/
def pairsOnly : Responder := fun sql _ =>
  some (if Text.contains sql "), (" then .ok ⟨[], [], ⟨2, some 7⟩⟩
    else .error (.refused (.reported "odd")))

/-- An entity whose only column is generated. -/
def numberless : Entity Schema.keyOnly := ⟨(none, ()), ()⟩

open Schema in
/-- Three entities, of which the third is refused where single ones are. -/
theorem insertMany_sends_three :
    let value : Numeric.Integer .int32 → Value := fun n => .scalar (.integer .int32 n)
    let one : Numeric.Integer .int32 := ⟨1, by decide, by decide⟩
    let two : Numeric.Integer .int32 := ⟨2, by decide, by decide⟩
    let three : Numeric.Integer .int32 := ⟨3, by decide, by decide⟩
    let missing : Value := .null (.integer .int32)
    let entities := [clashing one, clashing two, clashing three]
    let head := "INSERT INTO [clash] ([a], [a1], [a2]) VALUES "
    let first := "($a#INTEGER, $a1#INTEGER, $a2#INTEGER)"
    let second := "($a3#INTEGER, $a11#INTEGER, $a21#INTEGER)"
    Connected (pairwise []) ∧ Connected (pairwise [pairsOnly]) ∧ keyOnly.SparesTuples ∧
      Dialect.bracket.SparesTuples ∧
      (insertMany keyOnly [numberless, numberless, numberless] (pairwise [])).1 =
        .ok ⟨3, none⟩ ∧
      (insertMany .clash entities (pairwise [pairsOnly])).1 =
        .error (.within (.executing (head ++ first)) (.refused (.reported "odd"))) ∧
      Received (pairwise [pairsOnly]) (insertMany .clash entities (pairwise [pairsOnly])).2
        [(head ++ first ++ ", " ++ second,
            [⟨"a", value one⟩, ⟨"a1", value one⟩, ⟨"a2", missing⟩,
              ⟨"a3", value two⟩, ⟨"a11", value two⟩, ⟨"a21", missing⟩]),
          (head ++ first, [⟨"a", value three⟩, ⟨"a1", value three⟩, ⟨"a2", missing⟩])] := by
  intro value one two three missing entities head first second
  have hfree : Connected (pairwise []) := rfl
  have hconnected : Connected (pairwise [pairsOnly]) := rfl
  have hschema : keyOnly.SparesTuples := by decide
  obtain ⟨-, -, -, -, hcounted, hspares⟩ :=
    insertMany_sends keyOnly [numberless, numberless, numberless] (pairwise [])
  have hdialect : Dialect.bracket.SparesTuples := hspares _ List.mem_cons_self
  obtain ⟨-, hcounts⟩ := hcounted rfl hdialect hschema
  obtain ⟨-, -, hsends, -⟩ := insertMany_sends .clash entities (pairwise [pairsOnly])
  obtain ⟨-, hfails⟩ := hsends hconnected
  have hchunks : chunks (pairwise [pairsOnly]).2.batchSize entities =
      [[clashing one, clashing two], [clashing three]] := by
    show chunks 2 entities = _
    simp [entities, chunks]
  have hpair : (pairwise [pairsOnly]).2.insertion .clash [clashing one, clashing two] =
      (head ++ first ++ ", " ++ second,
        [⟨"a", value one⟩, ⟨"a1", value one⟩, ⟨"a2", missing⟩,
          ⟨"a3", value two⟩, ⟨"a11", value two⟩, ⟨"a21", missing⟩]) := by
    decide +kernel
  have hsingle : (pairwise [pairsOnly]).2.insertion .clash [clashing three] =
      (head ++ first, [⟨"a", value three⟩, ⟨"a1", value three⟩, ⟨"a2", missing⟩]) := by
    decide +kernel
  have hanswer : ∀ sql bindings, (pairwise [pairsOnly]).1.memory.answer sql bindings =
      if Text.contains sql "), (" then .ok ⟨[], [], ⟨2, some 7⟩⟩
      else .error (.refused (.reported "odd")) := fun _ _ => rfl
  have hreported : answerTo (pairwise [pairsOnly]) .clash [clashing one, clashing two] =
      .ok ⟨[], [], ⟨2, some 7⟩⟩ := by
    rw [answerTo, hpair, hanswer, if_pos (by decide +kernel)]
  have hrefused : answerTo (pairwise [pairsOnly]) .clash [clashing three] =
      .error (.refused (.reported "odd")) := by
    rw [answerTo, hsingle, hanswer, if_neg (by decide +kernel)]
  rw [hchunks] at hfails
  obtain ⟨hresult, hreceived⟩ := hfails 1 [clashing three] [⟨[], [], ⟨2, some 7⟩⟩]
    (.refused (.reported "odd")) rfl (congrArg ([·]) hreported) hrefused
  rw [hsingle] at hresult
  rw [List.map_cons, List.map_cons, List.map_nil, hpair, hsingle] at hreceived
  exact ⟨hfree, hconnected, hschema, hdialect, hcounts rfl (.inl hfree), hresult, hreceived⟩

end Act

end BoundSql
