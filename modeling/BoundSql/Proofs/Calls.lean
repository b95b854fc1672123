import BoundSql.Proofs.Batches
import BoundSql.Proofs.Isolation
import BoundSql.Proofs.Visibility
import Mathlib.Data.List.Perm.Subperm

/-!
# Writes that were answered with an error

What the database does with a statement it receives does not depend on the answer that was set up
for it.  A statement that it was told to refuse is answered with an error and is not kept.  Any
other write is kept, with the transaction of its session or for all to see, and then answered as it
was set up, be it with an error.

The journal of a site is the list of all calls with their answers (`Site.journal`).  Whatever the
sessions do, the writes that become visible are among the calls that were kept, none of them more
often than it was called (`Site.committed_calls`).  The idea is that the writes of all open
transactions together with those visible already are at most the writes there were
(`History.visible_append_open`).
-/

namespace BoundSql

/-! ### Calls -/

/-- A statement that the database received, and what it did about it. -/
structure Call where
  statement : Statement
  /-- Whether the database was told to refuse the statement. -/
  refused : Bool
  answer : Except Fault RowSet

namespace Call

/-- Whether the call is a write that the database was not told to refuse. -/
def isKept (call : Call) : Bool := isWrite call.statement.sql && !call.refused

/-- Whether the call is a write that was answered without an error. -/
def isConfirmed (call : Call) : Bool := isWrite call.statement.sql && call.answer.isOk

end Call

namespace Memory

/-- What the database does about a statement. -/
def call (m : Memory) (s : Statement) : Call :=
  ⟨s, (m.failStatements.find? (Text.contains s.sql ·)).isSome, m.answer s.sql s.bindings⟩

theorem answer_of_refused (m : Memory) (s : Statement) (h : (m.call s).refused = true) :
    ∃ part, (m.call s).answer = .error (.refused (.statement part)) := by
  obtain ⟨part, hpart⟩ := Option.isSome_iff_exists.mp h
  refine ⟨part, ?_⟩
  show m.answer s.sql s.bindings = _
  unfold answer
  rw [hpart]

theorem map_statement_call (m : Memory) (received : List Statement) :
    (received.map m.call).map Call.statement = received := by
  rw [List.map_map]
  exact List.map_id _

/-- The calls that are kept are the writes that are accepted. -/
theorem filter_isKept_call (m : Memory) (received : List Statement) :
    ((received.map m.call).filter Call.isKept).map Call.statement = m.accepted received := by
  have hkept : Call.isKept ∘ m.call = fun s =>
      isWrite s.sql && (m.failStatements.find? (Text.contains s.sql ·)).isNone := by
    funext s
    show (isWrite s.sql && !(m.failStatements.find? (Text.contains s.sql ·)).isSome) = _
    rw [Option.not_isSome]
  rw [List.filter_map, hkept, map_statement_call]
  rfl

theorem call_congr {m m' : Memory} (hrefused : m'.failStatements = m.failStatements)
    (hresponders : m'.responders = m.responders) : m'.call = m.call := by
  unfold call answer scripted?
  rw [hrefused, hresponders]

end Memory

theorem Connection.run_call (c : Connection) (sql : String) (bindings : List Binding) (m : Memory) :
    (c.run sql bindings m).2.2.call = m.call := by
  apply Memory.call_congr (c.run_received sql bindings m).2.1
  unfold run
  dsimp only
  split
  · rfl
  · split
    · unfold keep
      split <;> rfl
    · rfl

namespace Act

/-- Statements were received, and the database does about each statement what it did before. -/
structure Called (before after : Service × Session) : Prop where
  received : ∃ received, after.1.memory.statements = before.1.memory.statements ++ received
  call : after.1.memory.call = before.1.memory.call

theorem Called.of_same {before after : Service × Session}
    (h : after.1.memory = before.1.memory) : Called before after := by
  refine ⟨⟨[], ?_⟩, ?_⟩
  · rw [h, List.append_nil]
  · rw [h]

theorem Called.trans {before middle after : Service × Session} (hfirst : Called before middle)
    (hsecond : Called middle after) : Called before after := by
  obtain ⟨received, hreceived⟩ := hfirst.received
  obtain ⟨more, hmore⟩ := hsecond.received
  refine ⟨⟨received ++ more, ?_⟩, hsecond.call.trans hfirst.call⟩
  rw [hmore, hreceived, List.append_assoc]

theorem called_run (sql : String) (bindings : List Binding) : Along Called (run sql bindings) := by
  rintro ⟨service, session⟩
  cases hpinned : session.pinned with
  | some c =>
    rw [run_of_pinned sql bindings hpinned]
    exact ⟨⟨_, (c.run_received sql bindings service.memory).1⟩, c.run_call sql bindings _⟩
  | none =>
    rcases hacquire : service.pool.acquire session.key service.memory with ⟨e | c, pool, memory⟩
    · rw [run_of_refused sql bindings hpinned hacquire]
      exact .of_same (Service.showing_memory _ _ _ _)
    · obtain ⟨opened, rfl⟩ : ∃ opened, memory = { service.memory with opened } := by
        rcases Pool.of_acquire_ok hacquire with ⟨-, rfl⟩ | ⟨-, -, -, rfl⟩
        · exact ⟨service.memory.opened, rfl⟩
        · exact ⟨_, rfl⟩
      rw [run_of_acquired sql bindings hpinned hacquire]
      exact ⟨⟨_, (c.run_received sql bindings _).1⟩, c.run_call sql bindings _⟩

theorem Plain.called {α : Type} {c : Act α} (hc : Plain c) : Along Called c :=
  hc.along (fun _ => .of_same rfl) Called.trans called_run fun _ _ _ => .of_same rfl

/-- A statement that a session runs does not reach the database, or it is answered as calls of it
are. -/
theorem run_answered (sql : String) (bindings : List Binding) (state : Service × Session) :
    ((run sql bindings state).2.1.memory.statements = state.1.memory.statements ∧
        (run sql bindings state).1.isOk = false) ∨
      ∃ s, s.sql = sql ∧ s.bindings = bindings ∧
        (run sql bindings state).2.1.memory.statements = state.1.memory.statements ++ [s] ∧
        (run sql bindings state).1 = inCircumstance (.executing sql) (state.1.memory.call s).answer := by
  obtain ⟨service, session⟩ := state
  by_cases hconnected : Connected (service, session)
  · right
    obtain ⟨hanswer, hsent⟩ := run_of_connected sql bindings hconnected
    obtain ⟨received, hreceived, hone⟩ := hsent.received
    obtain ⟨s, rfl, hs⟩ := List.map_eq_singleton_iff.mp hone
    cases hs
    exact ⟨s, rfl, rfl, hreceived, hanswer⟩
  · left
    obtain ⟨message, hrun⟩ := run_of_not_connected sql bindings hconnected
    rw [hrun]
    exact ⟨congrArg Memory.statements (Service.showing_memory _ _ _ _), rfl⟩

end Act

/-! ### Histories -/

namespace History

/-- The writes of all sessions, in order. -/
def writes : History → List Statement
  | [] => []
  | .wrote _ s :: past => writes past ++ [s]
  | .began _ :: past | .committed _ :: past | .ended _ :: past => writes past

/-- No session commits outside of a transaction. -/
def Orderly : History → Prop
  | [] => True
  | .committed i :: past => isOpen i past = true ∧ Orderly past
  | .wrote _ _ :: past | .began _ :: past | .ended _ :: past => Orderly past

variable {past : History} {i j : Nat} {is : List Nat} {s : Statement}

theorem writes_write (more : List Statement) : writes (write i past more) = writes past ++ more := by
  induction more generalizing past with
  | nil => exact (List.append_nil _).symm
  | cons s more ih =>
    have hfirst : writes (.wrote i s :: past) = writes past ++ [s] := rfl
    have hrest := @ih (.wrote i s :: past)
    rw [hfirst, List.append_assoc] at hrest
    exact hrest

theorem orderly_write (more : List Statement) : Orderly (write i past more) ↔ Orderly past := by
  induction more generalizing past with
  | nil => exact Iff.rfl
  | cons s more ih => exact @ih (.wrote i s :: past)

/-- The writes in the open transactions of some sessions. -/
def allOpen (past : History) (is : List Nat) : List Statement := is.flatMap (openWrites · past)

/-- What one session does leaves the open transactions of the others as they are. -/
theorem allOpen_of_not_mem {past' : History}
    (hothers : ∀ j, i ≠ j → openWrites j past' = openWrites j past) (hi : i ∉ is) :
    allOpen past' is = allOpen past is :=
  List.flatMap_congr fun j hj => hothers j fun heq => hi (heq ▸ hj)

theorem perm_allOpen_of_mem {past' : History}
    (hothers : ∀ j, i ≠ j → openWrites j past' = openWrites j past) (hnodup : is.Nodup)
    (hi : i ∈ is) :
    (allOpen past' is).Perm (openWrites i past' ++ allOpen past (is.erase i)) := by
  rw [← allOpen_of_not_mem hothers hnodup.not_mem_erase]
  exact (List.perm_cons_erase hi).flatMap_right _

theorem openWrites_wrote_of_ne (past : History) (s : Statement) (j : Nat) (hne : i ≠ j) :
    openWrites j (.wrote i s :: past) = openWrites j past := by
  simp [openWrites, hne]

theorem openWrites_began_of_ne (past : History) (j : Nat) (hne : i ≠ j) :
    openWrites j (.began i :: past) = openWrites j past := by
  simp [openWrites, hne]

theorem perm_allOpen_wrote (hnodup : is.Nodup) (hi : i ∈ is) :
    (allOpen (.wrote i s :: past) is).Perm (allOpen past is ++ [s]) := by
  have hnow := perm_allOpen_of_mem (openWrites_wrote_of_ne past s) hnodup hi
  have hown : openWrites i (.wrote i s :: past) = openWrites i past ++ [s] := by simp [openWrites]
  rw [hown, List.append_assoc] at hnow
  have hbefore : (allOpen past is).Perm (openWrites i past ++ allOpen past (is.erase i)) :=
    perm_allOpen_of_mem (fun _ _ => rfl) hnodup hi
  have hback : (allOpen past is ++ [s]).Perm
      (openWrites i past ++ (allOpen past (is.erase i) ++ [s])) := by
    rw [← List.append_assoc]
    exact hbefore.append_right _
  exact hnow.trans ((List.perm_append_comm.append_left _).trans hback.symm)

/-- A session that begins has written nothing in its transaction. -/
theorem perm_allOpen_began (hnodup : is.Nodup) :
    (allOpen (.began i :: past) is).Perm (allOpen past (is.erase i)) := by
  by_cases hi : i ∈ is
  · have hnow := perm_allOpen_of_mem (openWrites_began_of_ne past) hnodup hi
    have hown : openWrites i (.began i :: past) = [] := by simp [openWrites]
    rw [hown, List.nil_append] at hnow
    exact hnow
  · rw [List.erase_of_not_mem hi, allOpen_of_not_mem (openWrites_began_of_ne past) hi]

/-- The writes that are visible and those in the open transactions of different sessions are among
all writes, none of them more often.  The induction is on the history; what a commit makes visible
was in the open transaction of its session before. -/
theorem visible_append_open (horderly : past.Orderly) (hnodup : is.Nodup)
    (hopen : ∀ i ∈ is, isOpen i past = true) :
    (visible past ++ allOpen past is).Subperm (writes past) := by
  induction past generalizing is with
  | nil =>
    obtain rfl : is = [] := by
      apply List.eq_nil_iff_forall_not_mem.mpr
      intro i hi
      cases hopen i hi
    exact List.Subperm.refl _
  | cons deed past ih =>
    cases deed with
    | wrote i s =>
      have hbefore := (List.subperm_append_right [s]).mpr (ih horderly hnodup hopen)
      by_cases hi : i ∈ is
      · -- the write waits with the transaction of its session
        have hnone : visible (.wrote i s :: past) = visible past := by
          simp [visible, contribution, show isOpen i past = true from hopen i hi]
        rw [hnone]
        refine ((perm_allOpen_wrote hnodup hi).append_left _).subperm.trans ?_
        rw [← List.append_assoc]
        exact hbefore
      · rw [allOpen_of_not_mem (openWrites_wrote_of_ne past s) hi]
        refine List.Subperm.trans ?_ hbefore
        show (visible past ++ (if isOpen i past then [] else [s]) ++ _).Subperm _
        split
        · rw [List.append_nil]
          exact (List.sublist_append_left _ _).subperm
        · rw [List.append_assoc, List.append_assoc]
          exact (List.perm_append_comm.append_left _).subperm
    | began i =>
      have hothers : ∀ j ∈ is.erase i, isOpen j past = true := by
        intro j hj
        have hne : i ≠ j := fun heq => hnodup.not_mem_erase (heq ▸ hj)
        simpa [isOpen, hne] using hopen j (List.mem_of_mem_erase hj)
      have hbefore := ih horderly (hnodup.erase i) hothers
      show (visible past ++ [] ++ _).Subperm (writes past)
      rw [List.append_nil]
      exact ((perm_allOpen_began hnodup).append_left _).subperm.trans hbefore
    | committed i =>
      obtain ⟨hi, horderly⟩ := horderly
      have hothers : ∀ j ∈ is, i ≠ j ∧ isOpen j past = true := by
        intro j hj
        simpa [isOpen] using hopen j hj
      have hnew : (i :: is).Nodup :=
        List.nodup_cons.mpr ⟨fun hmem => (hothers i hmem).1 rfl, hnodup⟩
      have hbefore := ih horderly hnew
        (List.forall_mem_cons.mpr ⟨hi, fun j hj => (hothers j hj).2⟩)
      show (visible past ++ openWrites i past ++ allOpen past is).Subperm (writes past)
      rw [List.append_assoc]
      exact hbefore
    | ended i =>
      have hbefore := ih horderly hnodup fun j hj =>
        (Bool.and_eq_true_iff.mp (hopen j hj)).2
      show (visible past ++ [] ++ allOpen past is).Subperm (writes past)
      rw [List.append_nil]
      exact hbefore

theorem visible_subperm_writes (horderly : past.Orderly) :
    (visible past).Subperm (writes past) := by
  have hnone : ∀ i ∈ ([] : List Nat), isOpen i past = true := by simp
  simpa [allOpen] using visible_append_open horderly List.nodup_nil hnone

end History

/-! ### Journals -/

namespace Site

variable (w : Site) (past : History)

/-- The calls that something makes to the database. -/
def calls : Happening → List Call
  | .ask i r =>
    ((w.step (.ask i r)).memory.statements.drop w.memory.statements.length).map w.memory.call
  | _ => []

/-- The calls that are made one after the other. -/
def journal (w : Site) : List Happening → List Call
  | [] => []
  | next :: more => w.calls next ++ (w.step next).journal more

variable {w} {next : Happening} {i p : Nat} {session : Session} {r : Request}

theorem calls_of_received (received : List Statement)
    (h : (w.step (.ask i r)).memory.statements = w.memory.statements ++ received) :
    w.calls (.ask i r) = received.map w.memory.call := by
  show ((w.step (.ask i r)).memory.statements.drop w.memory.statements.length).map _ = _
  rw [h, List.drop_left]

theorem calls_of_empty (h : w.seat? i = none) : w.calls (.ask i r) = [] := by
  apply calls_of_received []
  simp only [step, h, List.append_nil]

theorem memory_step (h : w.seat? i = some (p, session)) :
    (w.step (.ask i r)).memory = (r.act (w.service p, session)).2.1.memory := by
  simp only [step, h]
  rfl

/-- To begin or to end a transaction calls nothing. -/
theorem calls_of_transactional (hr : r.isTransactional = true) : w.calls (.ask i r) = [] := by
  cases hseat : w.seat? i with
  | none => exact calls_of_empty hseat
  | some seat =>
    apply calls_of_received []
    rw [memory_step hseat, Act.statements_of_transactional hr, List.append_nil]
    rfl

/-- A request that does not leaves the answers to calls as they are. -/
theorem called_step (h : w.seat? i = some (p, session)) (hr : r.isTransactional = false) :
    ∃ received, (w.step (.ask i r)).memory.statements = w.memory.statements ++ received ∧
      (w.step (.ask i r)).memory.call = w.memory.call := by
  obtain ⟨⟨received, hreceived⟩, hcall⟩ := (r.plain hr).called (w.service p, session)
  rw [memory_step h]
  exact ⟨received, hreceived, hcall⟩

theorem call_step (hr : r.isTransactional = false) :
    (w.step (.ask i r)).memory.call = w.memory.call := by
  cases hseat : w.seat? i with
  | none => simp only [step, hseat]
  | some seat =>
    obtain ⟨received, -, hcall⟩ := called_step hseat hr
    exact hcall

/-- The statements received are those of the calls. -/
theorem statements_step :
    (w.step next).memory.statements =
      w.memory.statements ++ (w.calls next).map Call.statement := by
  cases next with
  | ask i r =>
    cases hseat : w.seat? i with
    | none =>
      rw [calls_of_empty hseat]
      simp only [step, hseat, List.map_nil, List.append_nil]
    | some seat =>
      cases hr : r.isTransactional with
      | true =>
        rw [memory_step hseat, Act.statements_of_transactional hr, calls_of_transactional hr]
        exact (List.append_nil _).symm
      | false =>
        obtain ⟨received, hreceived, -⟩ := called_step hseat hr
        rw [hreceived, calls_of_received received hreceived, Memory.map_statement_call]
  | _ => exact (List.append_nil _).symm

theorem record_ask (h : w.seat? i = some (p, session)) :
    w.record past (.ask i r) = deeds past i w.memory (w.step (.ask i r)).memory
      (r.act (w.service p, session)).1.isOk r := by
  rw [memory_step h]
  simp only [record, h]
  rfl

theorem writes_deeds_of_transactional (hr : r.isTransactional = true) (before after : Memory)
    (succeeded : Bool) : (deeds past i before after succeeded r).writes = past.writes := by
  cases r with
  | begin => cases succeeded <;> rfl
  | commit => cases succeeded <;> rfl
  | rollback => rfl
  | _ => cases hr

/-- The writes recorded are those of the calls that are kept. -/
theorem writes_record :
    (w.record past next).writes =
      past.writes ++ ((w.calls next).filter Call.isKept).map Call.statement := by
  cases next with
  | ask i r =>
    cases hseat : w.seat? i with
    | none =>
      rw [calls_of_empty hseat]
      simp only [record, hseat, List.filter_nil, List.map_nil, List.append_nil]
    | some seat =>
      rw [record_ask past hseat]
      cases hr : r.isTransactional with
      | true =>
        rw [writes_deeds_of_transactional past hr, calls_of_transactional hr]
        exact (List.append_nil _).symm
      | false =>
        obtain ⟨received, hreceived, -⟩ := called_step hseat hr
        rw [deeds_of_plain past hr, History.writes_write, calls_of_received received hreceived,
          Memory.filter_isKept_call, hreceived, List.drop_left]
  | _ => exact (List.append_nil _).symm

/-- A commit that succeeds ends a transaction. -/
theorem Traced.isOpen_of_commit {past : History} (hw : w.Traced past)
    (h : w.seat? i = some (p, session))
    (hok : (Act.commit (w.service p, session)).1.isOk = true) : past.isOpen i = true := by
  rcases hw.pinned h with ⟨hnopin, -⟩ | ⟨c, -, hopen, -⟩
  · have hmissing : Act.commit (w.service p, session) = (.error _, w.service p, session) :=
      Act.finish_of_none hnopin
    rw [hmissing] at hok
    cases hok
  · exact hopen

theorem orderly_record {past : History} (hw : w.Traced past) (horderly : past.Orderly) :
    (w.record past next).Orderly := by
  cases next with
  | ask i r =>
    cases hseat : w.seat? i with
    | none =>
      simp only [record, hseat]
      exact horderly
    | some seat =>
      obtain ⟨p, session⟩ := seat
      rw [record_ask past hseat]
      cases hr : r.isTransactional with
      | true =>
        cases r with
        | begin =>
          unfold deeds
          dsimp only
          split
          · exact horderly
          · exact horderly
        | commit =>
          unfold deeds
          dsimp only
          split
          · next hok => exact ⟨hw.isOpen_of_commit hseat hok, horderly⟩
          · exact horderly
        | rollback => exact horderly
        | _ => cases hr
      | false =>
        rw [deeds_of_plain past hr, History.orderly_write]
        exact horderly
  | _ => exact horderly

/-! ### Runs -/

variable (happenings : List Happening)

theorem statements_run :
    (w.run past happenings).1.memory.statements =
      w.memory.statements ++ (w.journal happenings).map Call.statement := by
  induction happenings generalizing w past with
  | nil => exact (List.append_nil _).symm
  | cons next more ih =>
    show ((w.step next).run (w.record past next) more).1.memory.statements = _
    rw [ih, statements_step, journal, List.map_append, List.append_assoc]

theorem writes_run :
    (w.run past happenings).2.writes =
      past.writes ++ ((w.journal happenings).filter Call.isKept).map Call.statement := by
  induction happenings generalizing w past with
  | nil => exact (List.append_nil _).symm
  | cons next more ih =>
    show ((w.step next).run (w.record past next) more).2.writes = _
    rw [ih, writes_record, journal, List.filter_append, List.map_append, List.append_assoc]

theorem orderly_run {past : History} (hw : w.Traced past) (horderly : past.Orderly) :
    (w.run past happenings).2.Orderly := by
  induction happenings generalizing w past with
  | nil => exact horderly
  | cons next more ih => exact ih (step_traced hw next) (orderly_record hw horderly)

/-- Each call of a journal was answered by the database at the time. -/
theorem exists_of_mem_journal {call : Call} (h : call ∈ w.journal happenings) :
    ∃ (m : Memory) (s : Statement), call = m.call s := by
  induction happenings generalizing w with
  | nil => cases h
  | cons next more ih =>
    rcases List.mem_append.mp h with hnext | hmore
    · cases next with
      | ask i r =>
        obtain ⟨s, -, rfl⟩ := List.mem_map.mp hnext
        exact ⟨w.memory, s, rfl⟩
      | _ => cases hnext
    · exact ih hmore

/-- Where a session can be asked to run a statement, either the statement reaches no database and
fails, or it is a call and the session is given the answer to that. -/
theorem calls_run (h : w.seat? i = some (p, session)) (sql : String) (bindings : List Binding) :
    let result := (Act.run sql bindings (w.service p, session)).1
    (w.calls (.ask i (.run sql bindings)) = [] ∧ result.isOk = false) ∨
      ∃ call, w.calls (.ask i (.run sql bindings)) = [call] ∧ call.statement.sql = sql ∧
        call.statement.bindings = bindings ∧
        result = inCircumstance (.executing sql) call.answer := by
  have hmemory : (w.step (.ask i (.run sql bindings))).memory =
      (Act.run sql bindings (w.service p, session)).2.1.memory := by
    rw [memory_step h]
    show (Act.ignoring (Act.run sql bindings) (w.service p, session)).2.1.memory = _
    unfold Act.ignoring
    rw [bind_apply]
    rcases Act.run sql bindings (w.service p, session) with ⟨result, state⟩
    cases result <;> rfl
  rcases Act.run_answered sql bindings (w.service p, session) with
    ⟨hsame, hfailed⟩ | ⟨s, hsql, hbindings, hone, hanswer⟩
  · refine .inl ⟨calls_of_received [] ?_, hfailed⟩
    rw [hmemory, hsame, List.append_nil]
    rfl
  · refine .inr ⟨w.memory.call s, ?_, hsql, hbindings, hanswer⟩
    apply calls_of_received [s]
    rw [hmemory, hone]
    rfl

/-- Whatever the sessions of a database do in whatever order, and whatever it is told to refuse and
to answer in between: its calls are the statements that it has received, and a session is given the
answers to its calls.  The writes committed are those visible by the history of the writes that the
database was not told to refuse, whatever they were answered, and each is committed at most as often
as it was called.  A statement that it was told to refuse is answered with an error and not among
them; so if all other writes are answered without an error, only those are committed that were. -/
theorem committed_calls (happenings : List Happening) :
    let (w, history) := fresh.run [] happenings
    let calls := fresh.journal happenings
    w.memory.statements = calls.map Call.statement ∧
      (∀ i p session sql bindings, w.seat? i = some (p, session) →
        let result := (Act.run sql bindings (w.service p, session)).1
        (w.calls (.ask i (.run sql bindings)) = [] ∧ result.isOk = false) ∨
          ∃ call, w.calls (.ask i (.run sql bindings)) = [call] ∧ call.statement.sql = sql ∧
            call.statement.bindings = bindings ∧
            result = inCircumstance (.executing sql) call.answer) ∧
      (∀ i (r : Request), r.isTransactional = false →
        (w.step (.ask i r)).memory.call = w.memory.call) ∧
      w.memory.committed = history.visible ∧
      history.writes = (calls.filter Call.isKept).map Call.statement ∧
      w.memory.committed.Subperm ((calls.filter Call.isKept).map Call.statement) ∧
      (∀ call ∈ calls, call.refused = true →
        ∃ part, call.answer = .error (.refused (.statement part))) ∧
      ((∀ call ∈ calls, call.isKept = true → call.answer.isOk = true) →
        w.memory.committed.Subperm ((calls.filter Call.isConfirmed).map Call.statement)) := by
  have htraced := run_traced fresh_traced happenings
  have horderly := orderly_run happenings fresh_traced trivial
  have hstatements := statements_run (w := fresh) [] happenings
  have hwrites := writes_run (w := fresh) [] happenings
  rcases hrun : fresh.run [] happenings with ⟨w, history⟩
  rw [hrun] at htraced horderly hstatements hwrites
  have hamong : w.memory.committed.Subperm
      (((fresh.journal happenings).filter Call.isKept).map Call.statement) := by
    have hvisible := History.visible_subperm_writes horderly
    rw [hwrites] at hvisible
    rw [htraced.committed]
    exact hvisible
  refine ⟨hstatements, ?_, fun i r hr => call_step hr, htraced.committed, hwrites, hamong, ?_, ?_⟩
  · intro i p session sql bindings hseat
    exact calls_run hseat sql bindings
  · intro call hcall hrefused
    obtain ⟨m, s, rfl⟩ := exists_of_mem_journal happenings hcall
    exact m.answer_of_refused s hrefused
  · intro hanswered
    have hconfirmed : (fresh.journal happenings).filter Call.isKept =
        ((fresh.journal happenings).filter Call.isConfirmed).filter Call.isKept := by
      rw [List.filter_filter]
      apply List.filter_congr
      intro call hcall
      rw [Bool.eq_iff_iff, Bool.and_eq_true, iff_self_and]
      intro hkept
      exact Bool.and_eq_true_iff.mpr
        ⟨(Bool.and_eq_true_iff.mp hkept).1, hanswered call hcall hkept⟩
    rw [hconfirmed] at hamong
    exact hamong.trans (List.filter_sublist.map _).subperm

/-- A session deletes orders, which is answered with an error. -/
def fullDisk : List Happening :=
  [.start 0 ⟨.new "sqlite" "shop.db", .sqlite, ⟨"sqlite", "shop.db"⟩, false⟩,
    .script none [] false
      [Responder.containing "orders" (.error (.refused (.reported "disk full")))],
    .ask 0 (.run "DELETE FROM orders" [])]

/-- A write that was answered with an error may be visible. -/
theorem failed_write_committed :
    ¬ ∀ happenings : List Happening,
      (fresh.run [] happenings).1.memory.committed.Subperm
        (((fresh.journal happenings).filter Call.isConfirmed).map Call.statement) := by
  intro hclaim
  have hlength := (hclaim fullDisk).length_le
  revert hlength
  decide +kernel

end Site

end BoundSql
