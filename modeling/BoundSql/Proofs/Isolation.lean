import BoundSql.Proofs.Accounting
import BoundSql.Proofs.Serving

/-!
# Isolation of transactions

A session is in a transaction or it is not, and only beginning, committing, rolling back and
dropping it change that.  While it is in one, its statements run on the connection that it pinned
when the transaction began (`World.Pins`), and no statement of another session does: the accounts of
a pool have that connection in one place, so that it serves nobody else (`World.serves_iff`).
-/

namespace BoundSql

/-! ### Beginning and ending -/

namespace Act

variable {service : Service} {session : Session}

/-- Outside of a transaction beginning pins a connection, or fails for other reasons than that and
leaves the session as it was. -/
theorem begin_of_closed (service : Service) (hpinned : session.pinned = none) :
    ∃ after, after.memory.statements = service.memory.statements ∧
      ((∃ f, begin (service, session) = (.error f, after, session) ∧ f.category = .other) ∨
        ∃ c, begin (service, session) = (.ok (), after, { session with pinned := some c }) ∧
          after.memory.events = service.memory.events ++ [.began c.number]) := by
  rcases hacquire : service.pool.acquire session.key service.memory with ⟨e | c, pool, memory⟩
  · obtain ⟨-, -, message, -, rfl⟩ := Pool.of_acquire_error hacquire
    rw [begin_of_refused hpinned hacquire]
    exact ⟨service, rfl, .inl ⟨_, rfl, rfl⟩⟩
  · have hsame : memory.statements = service.memory.statements ∧
        memory.events = service.memory.events := by
      rcases Pool.of_acquire_ok hacquire with ⟨-, rfl⟩ | ⟨-, -, -, rfl⟩
      · exact ⟨rfl, rfl⟩
      · exact ⟨rfl, rfl⟩
    cases hpending : c.pending with
    | some writes =>
      unfold begin
      simp only [hpinned, hacquire, Connection.begin, hpending]
      exact ⟨_, hsame.1, .inl ⟨_, rfl, rfl⟩⟩
    | none =>
      rw [begin_of_acquired hpinned hacquire hpending]
      refine ⟨_, hsame.1, .inr ⟨_, rfl, ?_⟩⟩
      show memory.events ++ [.began c.number] = _
      rw [hsame.2]

/-- A way to end a transaction that runs no statement, and that fails for other reasons than the
state of the session. -/
def EndsQuietly (step : Connection → Memory → Except Fault Unit × Connection × Memory) : Prop :=
  ∀ c m, (step c m).2.2.statements = m.statements ∧
    ∀ f, (step c m).1 = .error f → f.category = .other

theorem endsQuietly_commit : EndsQuietly Connection.commit := by
  intro c m
  unfold Connection.commit
  split
  · refine ⟨rfl, ?_⟩
    rintro f ⟨⟩
    rfl
  · dsimp only
    split
    · refine ⟨rfl, ?_⟩
      rintro f ⟨⟩
      rfl
    · exact ⟨rfl, by simp⟩

theorem endsQuietly_rollback : EndsQuietly Connection.rollback := by
  intro c m
  unfold Connection.rollback
  split
  · refine ⟨rfl, ?_⟩
    rintro f ⟨⟩
    rfl
  · exact ⟨rfl, by simp⟩

/-- However it ends, the session is in no transaction afterwards. -/
theorem finish_of_open (service : Service) {missing : TransactionFault}
    {step : Connection → Memory → Except Fault Unit × Connection × Memory}
    (hstep : EndsQuietly step) {c : Connection} (hpinned : session.pinned = some c) :
    ∃ r after, finish missing step (service, session) =
        (r, after, { session with pinned := none }) ∧
      after.memory.statements = service.memory.statements ∧
      ∀ f, r = .error f → f.category = .other := by
  obtain ⟨hstatements, hfault⟩ := hstep c service.memory
  unfold finish
  simp only [hpinned]
  rcases hrun : step c service.memory with ⟨_ | _, c', memory⟩
  · rw [hrun] at hstatements hfault
    exact ⟨_, _, rfl, hstatements, hfault⟩
  · rw [hrun] at hstatements
    exact ⟨_, _, rfl, hstatements, by simp⟩

/-- To begin and to end transactions runs no statement. -/
theorem statements_of_transactional {r : Request} (hr : r.isTransactional = true)
    (state : Service × Session) :
    (r.act state).2.1.memory.statements = state.1.memory.statements := by
  obtain ⟨service, session⟩ := state
  have hfinish : ∀ missing step, EndsQuietly step →
      (finish missing step (service, session)).2.1.memory.statements =
        service.memory.statements := by
    intro missing step hstep
    cases hpinned : session.pinned with
    | none => rw [finish_of_none hpinned]
    | some c =>
      obtain ⟨r, after, hrun, hstatements, -⟩ := finish_of_open service hstep hpinned
      rw [hrun, ← hstatements]
  cases r with
  | begin =>
    show (begin (service, session)).2.1.memory.statements = _
    cases hpinned : session.pinned with
    | some c => rw [begin_of_open hpinned]
    | none =>
      obtain ⟨after, hstatements, ⟨f, hrun, -⟩ | ⟨c, hrun, -⟩⟩ := begin_of_closed service hpinned
      · rw [hrun, ← hstatements]
      · rw [hrun, ← hstatements]
  | commit => exact hfinish _ _ endsQuietly_commit
  | rollback => exact hfinish _ _ endsQuietly_rollback
  | _ => cases hr

end Act

/-! ### Sessions of a world -/

/-- The command ends the transaction of the session at a place, if that is in one. -/
def Command.ends (i : Nat) : Command → Prop
  | .drop j => j = i
  | .ask j .commit | .ask j .rollback => j = i
  | _ => False

namespace World

/-- The session at a place has pinned the connection of a number. -/
def Pins (w : World) (i n : Nat) : Prop :=
  ∃ session c, w.session? i = some session ∧ session.pinned = some c ∧ c.number = n

variable {w : World} {i j n : Nat} {session : Session}

theorem lt_of_session? (h : w.session? i = some session) : i < w.sessions.length := by
  by_contra hge
  unfold session? at h
  rw [List.getElem?_eq_none_iff.mpr (Nat.le_of_not_lt hge)] at h
  cases h

theorem session?_ask (h : w.session? j = some session) (r : Request) (i : Nat) :
    (w.ask j r).2.session? i =
      if i = j then some (r.act (w.service, session)).2.2 else w.session? i := by
  rw [ask_of_session? h]
  show ((w.sessions.set j (some (r.act (w.service, session)).2.2))[i]?).join = _
  by_cases hi : i = j
  · rw [if_pos hi, hi, List.getElem?_set_self (lt_of_session? h)]
    rfl
  · rw [if_neg hi, List.getElem?_set_ne (Ne.symm hi)]
    rfl

theorem ask_of_none (h : w.session? i = none) (r : Request) : w.ask i r = (.ok (), w) := by
  unfold ask
  rw [h]

/-- A session that does nothing leaves the world as it was. -/
theorem ask_of_same (h : w.session? i = some session) {r : Request} {result : Except Fault Unit}
    (hsame : r.act (w.service, session) = (result, w.service, session)) :
    w.ask i r = (result, w) := by
  obtain ⟨before, after, hsessions, hset⟩ := split_of_session? h
  have hback : w.sessions.set i (some session) = w.sessions := (hset _).trans hsessions.symm
  rw [ask_of_session? h, hsame]
  simp only [hback]

/-! ### Who is served -/

/-- A pinned connection serves the session that has pinned it, and no other. -/
theorem Accounted.serves_iff (hw : w.Accounted) (hpins : w.Pins i n)
    (hsession : w.session? j = some session) {m : Nat}
    (hm : (holdings (w.service, session)).Serves m) : m = n ↔ j = i := by
  obtain ⟨holder, c, hholder, hpinned, hnumber⟩ := hpins
  obtain ⟨before, after, hsessions, hset⟩ := split_of_session? hholder
  have hplaces :
      ((holdings (w.service, holder)).numbers ++ pinnedNumbers (before ++ after)).Nodup := by
    have hperm := numbers_perm w.service before after holder
    rw [← hsessions] at hperm
    exact hperm.nodup_iff.mp hw.nodup
  have hheld : (holdings (w.service, holder)).numbers = w.service.idle.map (·.number) ++ [n] := by
    simp [holdings, Holdings.numbers, Session.badge?, hpinned, Connection.badge, hnumber]
  rw [hheld] at hplaces
  constructor
  · rintro rfl
    by_contra hne
    -- the connection would be idle or with another session as well, or not be opened yet
    have hother : some session ∈ before ++ after := by
      have hget : (w.sessions.set i none)[j]? = some (some session) := by
        rw [List.getElem?_set_ne (Ne.symm hne)]
        simpa [session?, Option.join_eq_some_iff] using hsession
      have hmem := List.mem_of_getElem? hget
      rw [hset] at hmem
      simpa using hmem
    cases hfree : session.pinned with
    | some c' =>
      have hnumber' : m = c'.number := by
        simpa [holdings, Session.badge?, hfree, Holdings.Serves, Connection.badge] using hm
      have hmem : m ∈ pinnedNumbers (before ++ after) := by
        refine List.mem_map.mpr ⟨c', List.mem_filterMap.mpr ⟨_, hother, hfree⟩, hnumber'.symm⟩
      exact (List.nodup_append.mp hplaces).2.2 m (by simp) m hmem rfl
    | none =>
      have hidle : m ∈ w.service.idle.map (·.number) ∨ w.opened < m := by
        simp only [holdings, Session.badge?, hfree, Holdings.Serves, Option.map_none] at hm
        exact hm
      rcases hidle with hidle | hnew
      · have hnodup := (List.nodup_append.mp hplaces).1
        exact (List.nodup_append.mp hnodup).2.2 m hidle m (by simp) rfl
      · have hmem : m ∈ w.numbers := by
          rw [numbers_eq, hsessions]
          refine List.mem_append_right _ (List.mem_map.mpr ⟨c, ?_, hnumber⟩)
          exact List.mem_filterMap.mpr ⟨some holder, by simp, hpinned⟩
        exact Nat.not_lt.mpr (hw.opened m hmem).2 hnew
  · rintro rfl
    obtain rfl : holder = session := by simpa [hholder] using hsession
    simpa [holdings, Session.badge?, hpinned, Holdings.Serves, Connection.badge, hnumber] using hm

/-- What is received of a session that is asked for something runs on the pinned connection if the
session has pinned it, and else on others. -/
theorem Accounted.ask_received (hw : w.Accounted) (hpins : w.Pins i n) (j : Nat) (r : Request) :
    ∃ received, (w.ask j r).2.service.memory.statements =
        w.service.memory.statements ++ received ∧
      ∀ s ∈ received, s.connection = n ↔ j = i := by
  cases hsession : w.session? j with
  | none =>
    rw [ask_of_none hsession]
    exact ⟨[], (List.append_nil _).symm, by simp⟩
  | some session =>
    rw [ask_of_session? hsession]
    cases hr : r.isTransactional with
    | true =>
      refine ⟨[], ?_, by simp⟩
      rw [List.append_nil]
      exact Act.statements_of_transactional hr _
    | false =>
      obtain ⟨received, hreceived, hserves⟩ := ((r.plain hr).served (w.service, session)).received
      refine ⟨received, hreceived, ?_⟩
      intro s hs
      exact hw.serves_iff hpins hsession (hserves s hs)

/-! ### While a transaction is open -/

/-- A transaction keeps its connection until it ends. -/
theorem pins_step (hpins : w.Pins i n) {next : Command} (hnext : ¬ next.ends i) :
    (w.step next).Pins i n := by
  obtain ⟨session, c, hsession, hpinned, hnumber⟩ := hpins
  cases next with
  | start client =>
    refine ⟨session, c, ?_, hpinned, hnumber⟩
    show ((w.sessions ++ [some client.session])[i]?).join = some session
    rw [List.getElem?_append_left (lt_of_session? hsession)]
    exact hsession
  | drop j =>
    have hj : j ≠ i := hnext
    refine ⟨session, c, ?_, hpinned, hnumber⟩
    show ((w.sessions.set j none)[i]?).join = some session
    rw [List.getElem?_set_ne hj]
    exact hsession
  | ask j r =>
    by_cases hj : j = i
    · subst hj
      cases hr : r.isTransactional with
      | false =>
        obtain ⟨-, hrests⟩ := ((r.plain hr).served (w.service, session)).rested
        have hbadge : (r.act (w.service, session)).2.2.badge? = session.badge? := by
          -- a session that has pinned a connection does not open another
          generalize hbefore : holdings (w.service, session) = before at hrests
          generalize hafter : holdings (r.act (w.service, session)).2 = after at hrests
          cases hrests with
          | same _ =>
            have hnow := congrArg Holdings.pinned hafter
            exact hnow.trans (congrArg Holdings.pinned hbefore).symm
          | opens _ _ =>
            have hnone : session.badge? = none := congrArg Holdings.pinned hbefore
            rw [Session.badge?, hpinned] at hnone
            cases hnone
        rw [Session.badge?, Session.badge?, hpinned] at hbadge
        obtain ⟨c', hpinned', hsame⟩ := Option.map_eq_some_iff.mp hbadge
        refine ⟨_, c', ?_, hpinned', (congrArg Badge.number hsame).trans hnumber⟩
        show (w.ask j r).2.session? j = _
        rw [session?_ask hsession, if_pos rfl]
      | true =>
        cases r with
        | begin =>
          have hsame : w.ask j .begin = (.error _, w) :=
            ask_of_same hsession (Act.begin_of_open hpinned)
          simp only [step, hsame]
          exact ⟨session, c, hsession, hpinned, hnumber⟩
        | commit => exact absurd rfl hnext
        | rollback => exact absurd rfl hnext
        | _ => cases hr
    · refine ⟨session, c, ?_, hpinned, hnumber⟩
      show (w.ask j r).2.session? i = some session
      cases hother : w.session? j with
      | none =>
        rw [ask_of_none hother]
        exact hsession
      | some other =>
        rw [session?_ask hother, if_neg (Ne.symm hj)]
        exact hsession
  | script failConnect failStatements failCommit responders =>
    exact ⟨session, c, hsession, hpinned, hnumber⟩
  | clear => exact ⟨session, c, hsession, hpinned, hnumber⟩

theorem pins_run (hpins : w.Pins i n) {during : List Command}
    (hduring : ∀ next ∈ during, ¬ next.ends i) : (w.run during).Pins i n := by
  induction during generalizing w with
  | nil => exact hpins
  | cons next during ih =>
    apply ih (pins_step hpins (hduring next List.mem_cons_self))
    intro later hlater
    exact hduring later (List.mem_cons_of_mem _ hlater)

/-! ### Every run -/

/-- The session was asked for what the state of its transaction does not allow. -/
def OutOfState (result : Except Fault Unit) : Prop :=
  ∃ f, result = .error f ∧ f.category = .transactionState

theorem not_outOfState {result : Except Fault Unit}
    (h : ∀ f, result = .error f → f.category = .other) : ¬ OutOfState result := by
  rintro ⟨f, hf, hcategory⟩
  rw [h f hf] at hcategory
  cases hcategory

theorem ask_begin_of_closed (hsession : w.session? i = some session)
    (hpinned : session.pinned = none) :
    (∃ f, (w.ask i .begin).1 = .error f ∧ f.category = .other ∧
        (w.ask i .begin).2.session? i = some session) ∨
      ∃ c : Connection, (w.ask i .begin).1 = .ok () ∧ (w.ask i .begin).2.Pins i c.number ∧
        (w.ask i .begin).2.service.memory.events =
          w.service.memory.events ++ [.began c.number] := by
  have hseat := session?_ask hsession .begin i
  rw [if_pos rfl] at hseat
  obtain ⟨after, -, ⟨f, hrun, hcategory⟩ | ⟨c, hrun, hevents⟩⟩ :=
    Act.begin_of_closed w.service hpinned
  · have hact : Request.begin.act (w.service, session) = (.error f, after, session) := hrun
    rw [hact] at hseat
    refine .inl ⟨f, ?_, hcategory, hseat⟩
    rw [ask_of_session? hsession, hact]
  · have hact : Request.begin.act (w.service, session) =
        (.ok (), after, { session with pinned := some c }) := hrun
    rw [hact] at hseat
    refine .inr ⟨c, ?_, ⟨_, c, hseat, rfl, rfl⟩, ?_⟩
    · rw [ask_of_session? hsession, hact]
    · rw [ask_of_session? hsession, hact]
      exact hevents

/-- What ends transactions is refused without one, and else the session is in none afterwards. -/
theorem ask_finish (hsession : w.session? i = some session) {r : Request}
    (hr : r = .commit ∨ r = .rollback) :
    (OutOfState (w.ask i r).1 ↔ session.inTransaction = false) ∧
      (session.inTransaction = false → (w.ask i r).2 = w) ∧
      (w.ask i r).2.session? i = some { session with pinned := none } := by
  obtain ⟨missing, step, hact, hstep⟩ : ∃ missing step,
      r.act = Act.finish missing step ∧ Act.EndsQuietly step := by
    rcases hr with rfl | rfl
    · exact ⟨_, _, rfl, Act.endsQuietly_commit⟩
    · exact ⟨_, _, rfl, Act.endsQuietly_rollback⟩
  unfold Session.inTransaction
  cases hpinned : session.pinned with
  | none =>
    have hsame : w.ask i r = (.error (.transaction missing), w) := by
      apply ask_of_same hsession
      rw [hact]
      exact Act.finish_of_none hpinned
    have hsession' : { session with pinned := none } = session := by rw [← hpinned]
    rw [hsame, hsession']
    exact ⟨⟨fun _ => rfl, fun _ => ⟨_, rfl, rfl⟩⟩, fun _ => rfl, hsession⟩
  | some c =>
    obtain ⟨result, after, hrun, -, hfault⟩ := Act.finish_of_open w.service hstep hpinned
    have hseat := session?_ask hsession r i
    rw [if_pos rfl, hact, hrun] at hseat
    have hresult : (w.ask i r).1 = result := by rw [ask_of_session? hsession, hact, hrun]
    rw [hresult]
    refine ⟨⟨fun h => absurd h (not_outOfState hfault), ?_⟩, ?_, hseat⟩
    · rintro ⟨⟩
    · rintro ⟨⟩

theorem ask_begin (hsession : w.session? i = some session) :
    (OutOfState (w.ask i .begin).1 ↔ session.inTransaction = true) ∧
      (session.inTransaction = true → (w.ask i .begin).2 = w) ∧
      ((w.ask i .begin).1.isOk = false → (w.ask i .begin).2.session? i = some session) := by
  unfold Session.inTransaction
  cases hpinned : session.pinned with
  | some c =>
    have hsame : w.ask i .begin = (.error (.transaction .alreadyOpen), w) :=
      ask_of_same hsession (Act.begin_of_open hpinned)
    rw [hsame]
    exact ⟨⟨fun _ => rfl, fun _ => ⟨_, rfl, rfl⟩⟩, fun _ => rfl, fun _ => hsession⟩
  | none =>
    refine ⟨⟨?_, ?_⟩, ?_, ?_⟩
    · rintro ⟨g, hg, hstate⟩
      rcases ask_begin_of_closed hsession hpinned with ⟨f, hf, hcategory, -⟩ | ⟨c, hok, -⟩
      · obtain rfl : f = g := Except.error.inj (hf.symm.trans hg)
        rw [hcategory] at hstate
        cases hstate
      · rw [hok] at hg
        cases hg
    · rintro ⟨⟩
    · rintro ⟨⟩
    · intro hfailed
      rcases ask_begin_of_closed hsession hpinned with ⟨f, -, -, hseat⟩ | ⟨c, hok, -⟩
      · exact hseat
      · rw [hok] at hfailed
        cases hfailed

/-- In a transaction what a session sends is received, and its observer is shown just that. -/
theorem ask_shown (hpins : w.Pins i n) (hsession : w.session? i = some session)
    (hobserved : session.observed = true) {r : Request} (hr : r.isTransactional = false)
    {received : List Statement} (hreceived : (w.ask i r).2.service.memory.statements =
      w.service.memory.statements ++ received) :
    (w.ask i r).2.service.observed =
      w.service.observed ++ received.map fun s => (s.sql, s.bindings) := by
  obtain ⟨holder, c, hholder, hpinned, -⟩ := hpins
  obtain rfl : holder = session := by simpa [hholder] using hsession
  have hopen : holder.inTransaction = true := by
    unfold Session.inTransaction
    rw [hpinned]
    rfl
  obtain ⟨shown, hshown⟩ := (r.plain hr).shows (w.service, holder) hobserved (.inr hopen)
  rw [ask_of_session? hsession] at hreceived ⊢
  obtain rfl : shown = received :=
    List.append_cancel_left (hshown.statements.symm.trans hreceived)
  exact hshown.shown

/-- After any commands, a session can begin a transaction if it is in none, and commit or roll back
if it is in one; to ask for the other is a fault of its own kind and changes nothing at all.
Where beginning fails for another reason the session stays in no transaction, and to commit and to
roll back, even if that fails, leaves it in none.  Where beginning succeeds, one connection has
recorded it, and while the transaction is not ended, whatever all sessions are asked for, each
statement that is received runs on that connection if it is one of this session, and on another one
if it is not.  Of this session all that is sent is received. -/
theorem transactions_isolated (commands : List Command) {i : Nat} {session : Session}
    (hsession : (fresh.run commands).session? i = some session) :
    let w := fresh.run commands
    (OutOfState (w.ask i .begin).1 ↔ session.inTransaction = true) ∧
      (∀ r, r = .commit ∨ r = .rollback →
        (OutOfState (w.ask i r).1 ↔ session.inTransaction = false)) ∧
      (∀ r, r = .begin ∨ r = .commit ∨ r = .rollback →
        OutOfState (w.ask i r).1 → (w.ask i r).2 = w) ∧
      ((w.ask i .begin).1.isOk = false → (w.ask i .begin).2.session? i = some session) ∧
      (∀ r, r = .commit ∨ r = .rollback →
        (w.ask i r).2.session? i = some { session with pinned := none }) ∧
      ((w.ask i .begin).1.isOk = true → ∃ n,
        (w.ask i .begin).2.service.memory.events = w.service.memory.events ++ [.began n] ∧
        ∀ during : List Command, (∀ next ∈ during, ¬ next.ends i) →
          let w' := (w.ask i .begin).2.run during
          w'.Pins i n ∧ ∀ j r, ∃ received,
            (w'.ask j r).2.service.memory.statements =
              w'.service.memory.statements ++ received ∧
            (∀ s ∈ received, s.connection = n ↔ j = i) ∧
            (j = i → r.isTransactional = false →
              ∀ session', w'.session? i = some session' → session'.observed = true →
                (w'.ask j r).2.service.observed =
                  w'.service.observed ++ received.map fun s => (s.sql, s.bindings))) := by
  intro w
  have hw : w.Accounted := run_accounted fresh_accounted commands
  obtain ⟨hbegin, hbegun, hfailed⟩ := ask_begin hsession
  refine ⟨hbegin, ?_, ?_, hfailed, ?_, ?_⟩
  · intro r hr
    exact (ask_finish hsession hr).1
  · rintro r (rfl | hr) hout
    · exact hbegun (hbegin.mp hout)
    · obtain ⟨hfinish, hsame, -⟩ := ask_finish hsession hr
      exact hsame (hfinish.mp hout)
  · intro r hr
    exact (ask_finish hsession hr).2.2
  · intro hok
    have hpinned : session.pinned = none := by
      by_contra hopen
      obtain ⟨f, hf, -⟩ := hbegin.mpr (Option.isSome_iff_ne_none.mpr hopen)
      rw [hf] at hok
      cases hok
    rcases ask_begin_of_closed hsession hpinned with ⟨f, hf, -⟩ | ⟨c, -, hpins, hevents⟩
    · rw [hf] at hok
      cases hok
    · refine ⟨c.number, hevents, ?_⟩
      intro during hduring w'
      have hw' : w'.Accounted := run_accounted (step_accounted hw (.ask i .begin)) during
      have hpins' : w'.Pins i c.number := pins_run hpins hduring
      refine ⟨hpins', ?_⟩
      intro j r
      obtain ⟨received, hreceived, hserved⟩ := hw'.ask_received hpins' j r
      refine ⟨received, hreceived, hserved, ?_⟩
      rintro rfl hr session' hsession' hobserved
      exact ask_shown hpins' hsession' hobserved hr hreceived

/-- Two sessions on one key. -/
def twoSessions : List Command := [.start (clientOf "shop.db"), .start (clientOf "shop.db")]

/-- The other session writes, begins a transaction of its own and reads in it, all of that on
another connection. -/
theorem transactions_isolated_of_two :
    let w := (fresh.run twoSessions).step (.ask 0 .begin)
    let during := [.ask 1 (.run "DELETE FROM log" []), .ask 0 (.run "UPDATE log" []), .ask 1 .begin]
    let w' := w.run during
    (fresh.run twoSessions).session? 0 = some (clientOf "shop.db").session ∧
      (∀ next ∈ during, ¬ next.ends 0) ∧ w'.Pins 0 1 ∧
      (w'.ask 1 (.run "SELECT 1" [])).2.service.memory.statements.map (·.connection) = [2, 1, 2] ∧
      ∃ received, (w'.ask 1 (.run "SELECT 1" [])).2.service.memory.statements =
          w'.service.memory.statements ++ received ∧ ∀ s ∈ received, s.connection = 1 ↔ 1 = 0 := by
  intro w during w'
  have hsession : (fresh.run twoSessions).session? 0 = some (clientOf "shop.db").session := rfl
  have hduring : ∀ next ∈ during, ¬ next.ends 0 := by
    simp [during, Command.ends]
  obtain ⟨-, -, -, -, -, hbegun⟩ := transactions_isolated twoSessions hsession
  obtain ⟨n, hevents, hisolated⟩ := hbegun (by decide)
  obtain rfl : n = 1 := by
    have hone : ((fresh.run twoSessions).ask 0 .begin).2.service.memory.events = [.began 1] := rfl
    rw [hone] at hevents
    cases hevents
    rfl
  obtain ⟨hpins, hreceived⟩ := hisolated during hduring
  obtain ⟨received, hstatements, hserved, -⟩ := hreceived 1 (.run "SELECT 1" [])
  exact ⟨hsession, hduring, hpins, by decide +kernel, received, hstatements, hserved⟩

end World

end BoundSql
