import BoundSql.Proofs.Batches
import BoundSql.Proofs.PagedFetch
import BoundSql.Proofs.World

/-!
# What requests send

Which statements a session sends for a request is said here without any connection: by the request,
by what the session knows, and by what is answered, since a fault ends a request
(`Request.statements`).  Where a connection can be had these statements are received, all of them
and in order (`Request.sends`), and else none is (`Act.Plain.sends_nothing`).
-/

namespace BoundSql

/-! ### Statements -/

/-- What is answered to statements. -/
abbrev Answers := String → List Binding → Except Fault RowSet

/-- The statements up to the first one that is answered with a fault, which is the last. -/
def upToFault (answer : Answers) : List (String × List Binding) → List (String × List Binding)
  | [] => []
  | s :: more => s :: if (answer s.1 s.2).isOk then upToFault answer more else []

/-- The statement by which a session runs a fragment. -/
def Session.statement (session : Session) (f : Fragment) : String × List Binding :=
  (session.dialect.render f, f.bindings)

/-- The statement of a fragment that could be written. -/
def Session.statement? (session : Session) (f : Except Fault Fragment) :
    List (String × List Binding) :=
  (f.toOption.map session.statement).toList

instance (page size : Nat) : Decidable (IsPage page size) :=
  inferInstanceAs (Decidable (_ ∧ _))

/-- The statements by which a question is answered.  No page is asked for where the rows could not
be counted. -/
def Question.statements (b : Builder) (answer : Answers) :
    Question → List (String × List Binding)
  | rows | scalar _ | presence | list _ | one _ | change => [(b.sql, b.body.bindings)]
  | count => [(b.countSql, b.body.bindings)]
  | pageCount size => if size = 0 then [] else [(b.countSql, b.body.bindings)]
  | page _ number size =>
    if IsPage number size then [(b.pageText size number, b.body.bindings)] else []
  | paged _ number size =>
    if IsPage number size then
      (b.countSql, b.body.bindings) ::
        if ((answer b.countSql b.body.bindings).bind decodedCount).isOk then
          [(b.pageText size number, b.body.bindings)]
        else []
    else []
  | deletion s => if b.qualify then [] else [(b.deleteSql s, b.body.bindings)]

/-- The statement that reads the entity of a key. -/
def Session.lookup? (session : Session) (s : Schema) (id : Value) : List (String × List Binding) :=
  match s.requireKey with
  | .error _ => []
  | .ok key =>
    match Building.filter (.equals (s.ref key) id) ((Builder.new session.dialect).select s "t") with
    | (.error _, _) => []
    | (.ok (), b) => [(b.sql, b.body.bindings)]

/-- The statements that a session sends for a request. -/
def Request.statements (session : Session) (answer : Answers) :
    Request → List (String × List Binding)
  | begin | commit | rollback | attachOld .. => []
  | run sql bindings => [(sql, bindings)]
  | execute f | queryList _ f | queryOne _ f | queryScalar _ f => [session.statement f]
  | queryNextId s =>
    (s.key?.map fun key => (session.dialect.maxIdSql s.table key.name, [])).toList
  | findById s id => session.lookup? s id
  | insert s e => [session.insertion s [e]]
  | insertMany s entities =>
    upToFault answer ((chunks session.batchSize entities).map (session.insertion s))
  | update s e =>
    match changedPlaces s.columns (session.snapshot? (Session.snapshotKey s e.key)) e.row with
    | [] => []
    | changed => session.statement? (s.update session.dialect e changed)
  | delete s e => session.statement? (s.deleteById session.dialect e.key)
  | deleteById s id => session.statement? (s.deleteById session.dialect id)
  | fetch b question => question.statements b answer

/-! ### Computations one after the other -/

namespace Act

variable {α β : Type} {state : Service × Session} {sent more : List (String × List Binding)}

/-- The second computation is done where the first one succeeds. -/
theorem Sent.bind {c : Act α} {k : α → Act β} (hc : Sent state (c state).2 sent)
    (hok : ∀ a, (c state).1 = .ok a → Sent (c state).2 (k a (c state).2).2 more)
    (herror : ∀ e, (c state).1 = .error e → more = []) :
    Sent state ((c >>= k) state).2 (sent ++ more) := by
  rw [bind_apply]
  rcases hrun : c state with ⟨_ | a, after⟩
  · rw [hrun] at hc herror
    rw [herror _ rfl, List.append_nil]
    exact hc
  · rw [hrun] at hc hok
    exact hc.append (hok a rfl)

/-- Nothing is sent. -/
def Silent (c : Act α) : Prop := Along (fun before after => Sent before after []) c

theorem silent_ofExcept (r : Except Fault α) : Silent (Run.ofExcept r) := Sent.refl

theorem silent_pure (a : α) : Silent (pure a) := Sent.refl

theorem silent_modifySession (f : Session → Session)
    (hf : ∀ session, ∃ snapshots, f session = { session with snapshots }) :
    Silent (modifySession f) := by
  rintro ⟨service, session⟩
  obtain ⟨snapshots, hsame⟩ := hf session
  show Sent (service, session) (service, f session) []
  rw [hsame]
  exact ⟨⟨[], (List.append_nil _).symm, rfl⟩, rfl, rfl, rfl, id⟩

theorem Silent.bind {c : Act α} {k : α → Act β} (hc : Silent c) (hk : ∀ a, Silent (k a)) :
    Silent (c >>= k) :=
  Along.bind (fun hfirst hsecond => hfirst.append hsecond) hc hk

theorem Sent.bind_silent {c : Act α} {k : α → Act β} (hc : Sent state (c state).2 sent)
    (hk : ∀ a, Silent (k a)) : Sent state ((c >>= k) state).2 sent := by
  have hboth := hc.bind (k := k) (fun a _ => hk a (c state).2) fun _ _ => rfl
  rwa [List.append_nil] at hboth

/-! ### Requests -/

variable (hconnected : Connected state)
include hconnected

theorem sent_run (sql : String) (bindings : List Binding) :
    Sent state (run sql bindings state).2 [(sql, bindings)] :=
  (run_of_connected sql bindings hconnected).2

theorem sent_runFragment (f : Fragment) :
    Sent state (runFragment f state).2 [state.2.statement f] := by
  unfold runFragment
  rw [get_bind_apply]
  exact sent_run hconnected _ _

theorem sent_execute (f : Fragment) : Sent state (execute f state).2 [state.2.statement f] :=
  (sent_runFragment hconnected f).bind_silent fun _ => silent_pure _

theorem sent_findById (s : Schema) (id : Value) :
    Sent state (findById s id state).2 (state.2.lookup? s id) := by
  unfold findById Session.lookup?
  cases s.requireKey with
  | error e => exact .refl state
  | ok key =>
    rw [Run.ofExcept_ok_bind, get_bind_apply]
    dsimp only
    rcases Building.filter (.equals (s.ref key) id)
      ((Builder.new state.2.dialect).select s "t") with ⟨_ | u, b⟩
    · exact .refl state
    · exact (sent_run hconnected _ _).bind_silent fun _ => silent_ofExcept _

theorem sent_queryNextId (s : Schema) :
    Sent state (queryNextId s state).2
      (s.key?.map fun key => (state.2.dialect.maxIdSql s.table key.name, [])).toList := by
  unfold queryNextId Schema.requireKey
  cases s.key? with
  | none => exact .refl state
  | some key =>
    dsimp only
    rw [Run.ofExcept_ok_bind, get_bind_apply]
    refine (sent_run hconnected _ _).bind_silent fun rows => ?_
    exact (silent_ofExcept _).bind fun _ => silent_pure _

theorem sent_insertBatch (s : Schema) (batch : List (Entity s)) :
    Sent state (insertBatch s batch state).2 [state.2.insertion s batch] := by
  obtain ⟨after, hbatch, hsent⟩ := insertBatch_of_connected hconnected batch
  rw [hbatch]
  exact hsent

theorem sent_insertBatches (s : Schema) (sum : Affected) (batches : List (List (Entity s))) :
    Sent state (insertBatches s sum batches state).2
      (upToFault state.1.memory.answer (batches.map (state.2.insertion s))) := by
  induction batches generalizing state sum with
  | nil => exact .refl state
  | cons batch batches ih =>
    obtain ⟨after, hbatch, hsent⟩ := insertBatch_of_connected hconnected batch
    have hmore := fun affected => ih (hsent.connected hconnected) (sum.add affected)
    rw [hsent.answer, hsent.insertion] at hmore
    rw [insertBatches, bind_apply, hbatch, List.map_cons, upToFault]
    show Sent state _ ([state.2.insertion s batch] ++
      if (answerTo state s batch).isOk then _ else _)
    cases answerTo state s batch with
    | error e => exact hsent
    | ok rows => exact hsent.append (hmore rows.affected)

/-- The statement of an update is that of the places that changed, if any did. -/
theorem sent_update (s : Schema) (e : Entity s) :
    Sent state (update s e state).2
      ((Request.update s e).statements state.2 state.1.memory.answer) := by
  unfold update Request.statements
  cases hkey : s.requireKey with
  | error fault =>
    have hnone : ∀ changed, s.update state.2.dialect e changed = .error fault := by
      intro changed
      unfold Schema.update
      rw [hkey]
      rfl
    simp only [hnone]
    split
    · exact .refl state
    · exact .refl state
  | ok key =>
    rw [Run.ofExcept_ok_bind, get_bind_apply]
    dsimp only
    rcases changedPlaces s.columns (state.2.snapshot? (Session.snapshotKey s e.key)) e.row with
      _ | ⟨place, places⟩
    · exact .refl state
    · dsimp only
      cases s.update state.2.dialect e (place :: places) with
      | error fault => exact .refl state
      | ok f =>
        rw [Run.ofExcept_ok_bind]
        refine (sent_execute hconnected f).bind_silent fun affected => ?_
        refine (silent_modifySession _ fun session => ?_).bind fun _ => silent_pure _
        split
        · exact ⟨_, rfl⟩
        · exact ⟨session.snapshots, rfl⟩

theorem sent_deleteById (s : Schema) (id : Value) :
    Sent state (deleteById s id state).2
      (state.2.statement? (s.deleteById state.2.dialect id)) := by
  unfold deleteById
  rw [get_bind_apply]
  dsimp only
  cases s.deleteById state.2.dialect id with
  | error e => exact .refl state
  | ok f =>
    rw [Run.ofExcept_ok_bind]
    refine (sent_execute hconnected f).bind_silent fun _ => ?_
    exact (silent_modifySession _ fun _ => ⟨_, rfl⟩).bind fun _ => silent_pure _

theorem sent_fetchCount (b : Builder) :
    Sent state (b.fetchCount run state).2 [(b.countSql, b.body.bindings)] := by
  rw [b.fetchCount_eq run]
  exact (sent_run hconnected _ _).bind_silent fun _ => silent_ofExcept _

/-- The rows are counted where the count is answered with a number. -/
theorem isOk_fetchCount (b : Builder) :
    (b.fetchCount run state).1.isOk =
      ((state.1.memory.answer b.countSql b.body.bindings).bind decodedCount).isOk := by
  rw [b.fetchCount_eq run, bind_apply]
  have hanswer := (run_of_connected b.countSql b.body.bindings hconnected).1
  rcases hrun : run b.countSql b.body.bindings state with ⟨r, after⟩
  rw [hrun] at hanswer
  obtain rfl : r = _ := hanswer
  cases state.1.memory.answer b.countSql b.body.bindings with
  | error e => rfl
  | ok rows => rfl

theorem sent_fetchPage (b : Builder) (s : Schema) {page size : Nat} (h : IsPage page size) :
    Sent state (b.fetchPage run s page size state).2 [(b.pageText size page, b.body.bindings)] := by
  rw [b.fetchPage_of_isPage run s h]
  exact (sent_run hconnected _ _).bind_silent fun _ => silent_ofExcept _

theorem sent_fetchPaged (b : Builder) (s : Schema) {page size : Nat} (h : IsPage page size) :
    Sent state (b.fetchPaged run s page size state).2 ((b.countSql, b.body.bindings) ::
      if ((state.1.memory.answer b.countSql b.body.bindings).bind decodedCount).isOk then
        [(b.pageText size page, b.body.bindings)]
      else []) := by
  have hcount := sent_fetchCount hconnected b
  rw [b.fetchPaged_of_isPage run s h, ← isOk_fetchCount hconnected b]
  refine hcount.bind ?_ ?_
  · intro total htotal
    rw [htotal]
    have hpage := sent_fetchPage (hcount.connected hconnected) b s h
    exact hpage.bind_silent fun _ => silent_pure _
  · intro e he
    rw [he]
    rfl

theorem sent_question (b : Builder) (question : Question) :
    Sent state (question.act b state).2 (question.statements b state.1.memory.answer) := by
  have hrows : ∀ {α : Type} (k : RowSet → Act α), (∀ rows, Silent (k rows)) →
      Sent state (Act.ignoring (b.fetchRows run >>= k) state).2 [(b.sql, b.body.bindings)] := by
    intro α k hk
    exact ((sent_run hconnected _ _).bind_silent hk).bind_silent fun _ => silent_pure ()
  cases question with
  | rows => exact (sent_run hconnected _ _).bind_silent fun _ => silent_pure ()
  | scalar t => exact hrows _ fun _ => silent_ofExcept _
  | presence => exact hrows _ fun _ => silent_pure _
  | list s => exact hrows _ fun _ => silent_ofExcept _
  | one s => exact hrows _ fun _ => silent_ofExcept _
  | change => exact hrows _ fun _ => silent_pure _
  | count => exact (sent_fetchCount hconnected b).bind_silent fun _ => silent_pure ()
  | pageCount size =>
    simp only [Question.act, Question.statements, Builder.fetchPageCount]
    split
    · exact .refl state
    · refine ((sent_fetchCount hconnected b).bind_silent fun _ => ?_).bind_silent fun _ => ?_
      · exact silent_pure _
      · exact silent_pure ()
  | page s number size =>
    simp only [Question.act, Question.statements]
    split
    · next h => exact (sent_fetchPage hconnected b s h).bind_silent fun _ => silent_pure ()
    · next h =>
      obtain ⟨f, hpage, -⟩ := b.exists_fetch_fault run s h
      rw [hpage]
      exact .refl state
  | paged s number size =>
    simp only [Question.act, Question.statements]
    split
    · next h => exact (sent_fetchPaged hconnected b s h).bind_silent fun _ => silent_pure ()
    · next h =>
      obtain ⟨f, -, hpaged⟩ := b.exists_fetch_fault run s h
      rw [hpaged]
      exact .refl state
  | deletion s =>
    simp only [Question.act, Question.statements, Builder.delete]
    split
    · exact .refl state
    · refine ((sent_run hconnected _ _).bind_silent fun _ => ?_).bind_silent fun _ => ?_
      · exact silent_pure _
      · exact silent_pure ()

end Act

/-- Where a connection can be had, the database receives the statements of a request, all of them
and in order. -/
theorem Request.sends {state : Service × Session} (hconnected : Act.Connected state) (r : Request)
    (hr : r.isTransactional = false) :
    Act.Received state (r.act state).2 (r.statements state.2 state.1.memory.answer) := by
  have hignoring : ∀ {α : Type} {c : Act α} {sent : List (String × List Binding)},
      Act.Sent state (c state).2 sent → Act.Received state (Act.ignoring c state).2 sent :=
    fun hc => (hc.bind_silent fun _ => Act.silent_pure ()).received
  cases r with
  | begin => cases hr
  | commit => cases hr
  | rollback => cases hr
  | run sql bindings => exact hignoring (Act.sent_run hconnected sql bindings)
  | execute f => exact hignoring (Act.sent_execute hconnected f)
  | queryList s f =>
    exact hignoring ((Act.sent_runFragment hconnected f).bind_silent fun _ => Act.silent_ofExcept _)
  | queryOne s f =>
    exact hignoring ((Act.sent_runFragment hconnected f).bind_silent fun _ => Act.silent_ofExcept _)
  | queryScalar t f =>
    exact hignoring ((Act.sent_runFragment hconnected f).bind_silent fun _ => Act.silent_ofExcept _)
  | queryNextId s => exact hignoring (Act.sent_queryNextId hconnected s)
  | findById s id => exact hignoring (Act.sent_findById hconnected s id)
  | insert s e => exact hignoring (Act.sent_insertBatch hconnected s [e])
  | insertMany s entities =>
    apply hignoring
    rw [Act.insertMany_apply]
    exact Act.sent_insertBatches hconnected s .nothing _
  | update s e => exact hignoring (Act.sent_update hconnected s e)
  | delete s e => exact hignoring (Act.sent_deleteById hconnected s e.key)
  | deleteById s id => exact hignoring (Act.sent_deleteById hconnected s id)
  | attachOld s e => exact (Act.silent_modifySession _ (fun _ => ⟨_, rfl⟩) state).received
  | fetch b question => exact (Act.sent_question hconnected b question).received

/-! ### No connection -/

/-- Where none can be had, none can be had afterwards, and nothing was received. -/
theorem Act.Plain.sends_nothing {α : Type} {c : Act α} (hc : Act.Plain c)
    {state : Service × Session} (h : ¬ Act.Connected state) :
    Act.Received state (c state).2 [] := by
  let T : Service × Session → Service × Session → Prop := fun before after =>
    ¬ Act.Connected before →
      after.1.memory.statements = before.1.memory.statements ∧ ¬ Act.Connected after
  have hrun : ∀ sql bindings, Along T (Act.run sql bindings) := by
    rintro sql bindings ⟨service, session⟩ hno
    obtain ⟨message, hrefused⟩ := Act.run_of_not_connected sql bindings hno
    rw [hrefused]
    refine ⟨congrArg Memory.statements (Service.showing_memory _ _ _ _), ?_⟩
    rw [Act.connected_iff] at hno ⊢
    rw [Service.showing_memory, Service.showing_pool]
    exact hno
  have hsame := hc.along (T := T) (fun _ hno => ⟨rfl, hno⟩)
    (fun hfirst hsecond hno =>
      ⟨(hsecond (hfirst hno).2).1.trans (hfirst hno).1, (hsecond (hfirst hno).2).2⟩)
    hrun (fun _ _ _ hno => ⟨rfl, hno⟩)
  exact ⟨[], (hsame state h).1.trans (List.append_nil _).symm, rfl⟩

end BoundSql
