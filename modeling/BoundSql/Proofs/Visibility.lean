import BoundSql.Proofs.Received
import BoundSql.Proofs.Sending
import Mathlib.Logic.Function.Basic

/-!
# Which writes are visible

A history tells what the sessions of a database did: they wrote, and they began, committed and ended
transactions.  What is visible after a history (`History.visible`) is said without any connection:
a write outside of a transaction contributes itself when it is written, a commit contributes all
writes of its session since the transaction began, and nothing else contributes anything.

The database keeps writes with connections, and connections go through pools from one session to
the next.  `Site` is a database with any number of pools and of sessions on them, and the main
statement is that whatever the sessions do in whatever order, the writes committed in the database
are the visible ones (`Site.committed_eq_visible`).  The invariant is that the writes which wait
with a pinned connection are those of the open transaction of its session (`Site.Traced`).
-/

namespace BoundSql

/-! ### Histories -/

/-- Something that the session at a place did. -/
inductive Deed where
  | wrote (i : Nat) (s : Statement)
  | began (i : Nat)
  | committed (i : Nat)
  /-- The session gave up its transaction: it rolled back, failed to commit, or was dropped. -/
  | ended (i : Nat)
  deriving DecidableEq

/-- What was done, the last deed first. -/
abbrev History := List Deed

namespace History

/-- Whether the session is in a transaction. -/
def isOpen (i : Nat) : History → Bool
  | [] => false
  | .wrote _ _ :: past => isOpen i past
  | .began j :: past => j == i || isOpen i past
  | .committed j :: past => j != i && isOpen i past
  | .ended j :: past => j != i && isOpen i past

/-- The writes of the session since it last began a transaction, in order. -/
def openWrites (i : Nat) : History → List Statement
  | [] => []
  | .wrote j s :: past => if j = i then openWrites i past ++ [s] else openWrites i past
  | .began j :: past => if j = i then [] else openWrites i past
  | .committed _ :: past => openWrites i past
  | .ended _ :: past => openWrites i past

/-- What a deed makes visible. -/
def contribution (past : History) : Deed → List Statement
  | .wrote i s => if isOpen i past then [] else [s]
  | .committed i => openWrites i past
  | .began _ => []
  | .ended _ => []

/-- The writes that are visible, in the order in which they became so. -/
def visible : History → List Statement
  | [] => []
  | deed :: past => visible past ++ contribution past deed

/-- The history with writes of a session after it. -/
def write (i : Nat) (past : History) (writes : List Statement) : History :=
  writes.foldl (fun past s => .wrote i s :: past) past

/-- The writes that wait for the session to commit, if it is in a transaction. -/
def waiting (past : History) (i : Nat) : Option (List Statement) :=
  if isOpen i past then some (openWrites i past) else none

variable {past : History} {i j : Nat}

theorem isOpen_write (writes : List Statement) :
    isOpen j (write i past writes) = isOpen j past := by
  induction writes generalizing past with
  | nil => rfl
  | cons s writes ih => exact ih

theorem openWrites_write_self (writes : List Statement) :
    openWrites i (write i past writes) = openWrites i past ++ writes := by
  induction writes generalizing past with
  | nil => simp [write]
  | cons s writes ih =>
    have hfirst : openWrites i (.wrote i s :: past) = openWrites i past ++ [s] := by
      simp [openWrites]
    have hrest := @ih (.wrote i s :: past)
    rw [hfirst, List.append_assoc] at hrest
    exact hrest

theorem openWrites_write_of_ne (hne : i ≠ j) (writes : List Statement) :
    openWrites j (write i past writes) = openWrites j past := by
  induction writes generalizing past with
  | nil => rfl
  | cons s writes ih =>
    have hfirst : openWrites j (.wrote i s :: past) = openWrites j past := by
      simp [openWrites, hne]
    exact ih.trans hfirst

theorem visible_write_of_open (hopen : isOpen i past = true) (writes : List Statement) :
    visible (write i past writes) = visible past := by
  induction writes generalizing past with
  | nil => rfl
  | cons s writes ih =>
    have hfirst : visible (.wrote i s :: past) = visible past := by
      simp [visible, contribution, hopen]
    exact (@ih (.wrote i s :: past) hopen).trans hfirst

theorem visible_write_of_closed (hclosed : isOpen i past = false) (writes : List Statement) :
    visible (write i past writes) = visible past ++ writes := by
  induction writes generalizing past with
  | nil => simp [write]
  | cons s writes ih =>
    have hfirst : visible (.wrote i s :: past) = visible past ++ [s] := by
      simp [visible, contribution, hclosed]
    have hrest := @ih (.wrote i s :: past) hclosed
    rw [hfirst, List.append_assoc] at hrest
    exact hrest

/-- Writes of a session wait behind those that wait already, and no others are affected. -/
theorem waiting_write (writes : List Statement) :
    waiting (write i past writes) j =
      if j = i then (waiting past i).map (· ++ writes) else waiting past j := by
  unfold waiting
  rw [isOpen_write]
  by_cases hj : j = i
  · subst hj
    rw [if_pos rfl, openWrites_write_self]
    split <;> rfl
  · rw [if_neg hj, openWrites_write_of_ne (Ne.symm hj)]

theorem waiting_began :
    waiting (.began i :: past) j = if j = i then some [] else waiting past j := by
  by_cases hj : j = i
  · subst hj
    simp [waiting, isOpen, openWrites]
  · have hne : i ≠ j := Ne.symm hj
    simp [waiting, isOpen, openWrites, hj, hne]

theorem waiting_committed :
    waiting (.committed i :: past) j = if j = i then none else waiting past j := by
  by_cases hj : j = i
  · subst hj
    simp [waiting, isOpen]
  · have hne : i ≠ j := Ne.symm hj
    simp [waiting, isOpen, openWrites, hj, hne]

theorem waiting_ended : waiting (.ended i :: past) j = if j = i then none else waiting past j := by
  by_cases hj : j = i
  · subst hj
    simp [waiting, isOpen]
  · have hne : i ≠ j := Ne.symm hj
    simp [waiting, isOpen, openWrites, hj, hne]

end History

/-! ### Databases with pools and sessions -/

/-- A database, pools over it, and the sessions opened on the pools.  A session that was dropped
leaves its place empty. -/
structure Site where
  memory : Memory
  observed : List (String × List Binding)
  pools : Nat → Pool
  /-- The sessions, each with the pool that it takes connections of. -/
  sessions : List (Option (Nat × Session))

/-- What can happen at a site. -/
inductive Happening where
  /-- A client opens a session on one of the pools. -/
  | start (pool : Nat) (client : Client)
  | drop (i : Nat)
  | ask (i : Nat) (request : Request)
  /-- The database is told what to refuse and what to answer from now on. -/
  | script (failConnect : Option String) (failStatements : List String) (failCommit : Bool)
    (responders : List Responder)

namespace Site

/-- Nothing was opened. -/
def fresh : Site := ⟨.fresh, [], fun _ => .empty, []⟩

/-- The session at a place and its pool, unless it was dropped. -/
def seat? (w : Site) (i : Nat) : Option (Nat × Session) := w.sessions[i]?.join

/-- What the sessions of a pool share. -/
def service (w : Site) (p : Nat) : Service := ⟨w.memory, w.pools p, w.observed⟩

/-- The site after a session of a pool has done something. -/
def after (w : Site) (p i : Nat) (state : Service × Session) : Site where
  memory := state.1.memory
  observed := state.1.observed
  pools := Function.update w.pools p state.1.pool
  sessions := w.sessions.set i (some (p, state.2))

/-- What happens to the site. -/
def step (w : Site) : Happening → Site
  | .start pool client => { w with sessions := w.sessions ++ [some (pool, client.session)] }
  | .drop i => { w with sessions := w.sessions.set i none }
  | .ask i request =>
    match w.seat? i with
    | none => w
    | some (p, session) => w.after p i (request.act (w.service p, session)).2
  | .script failConnect failStatements failCommit responders =>
    { w with memory := { w.memory with failConnect, failStatements, failCommit, responders } }

/-- The deeds of a session that was asked for something: what it wrote are the writes that the
database has received meanwhile and did not refuse. -/
def deeds (past : History) (i : Nat) (before after : Memory) (succeeded : Bool) :
    Request → History
  | .begin => if succeeded then .began i :: past else past
  | .commit => if succeeded then .committed i :: past else .ended i :: past
  | .rollback => .ended i :: past
  | _ => past.write i (before.accepted (after.statements.drop before.statements.length))

/-- The history after something has happened at the site. -/
def record (w : Site) (past : History) : Happening → History
  | .start _ _ => past
  | .drop i => .ended i :: past
  | .ask i request =>
    match w.seat? i with
    | none => past
    | some (p, session) =>
      let (result, service, _) := request.act (w.service p, session)
      deeds past i w.memory service.memory result.isOk request
  | .script .. => past

/-- What happens one after the other, with its history. -/
def run (w : Site) (past : History) : List Happening → Site × History
  | [] => (w, past)
  | next :: more => run (w.step next) (w.record past next) more

/-- The writes that wait with the connection of a session, if it has pinned one. -/
def waiting (w : Site) (i : Nat) : Option (Option (List Statement)) :=
  (w.seat? i).bind fun seat => seat.2.pinned.map (·.pending)

/-- The database has committed what is visible, the writes of an open transaction wait with the
connection of its session, and no writes wait with any other connection. -/
structure Traced (w : Site) (past : History) : Prop where
  free : ∀ p, (w.service p).Free
  committed : w.memory.committed = past.visible
  waiting : ∀ i, w.waiting i = (past.waiting i).map some

/-! ### Seats -/

variable {w : Site} {past : History} {p i : Nat} {session : Session}

theorem waiting_of_seat? (h : w.seat? i = some (p, session)) :
    w.waiting i = session.pinned.map (·.pending) := by
  unfold waiting
  rw [h]
  rfl

theorem seat?_after (h : w.seat? i = some (p, session)) (state : Service × Session) (j : Nat) :
    (w.after p i state).seat? j = if j = i then some (p, state.2) else w.seat? j := by
  have hlt : i < w.sessions.length := by
    -- a place beyond the list has no session
    by_contra hge
    have hnone : w.sessions[i]? = none := List.getElem?_eq_none_iff.mpr (Nat.le_of_not_lt hge)
    unfold seat? at h
    rw [hnone] at h
    cases h
  show ((w.sessions.set i (some (p, state.2)))[j]?).join = _
  by_cases hj : j = i
  · rw [if_pos hj, hj, List.getElem?_set_self hlt]
    rfl
  · rw [if_neg hj, List.getElem?_set_ne (Ne.symm hj)]
    rfl

theorem waiting_after (h : w.seat? i = some (p, session)) (state : Service × Session) (j : Nat) :
    (w.after p i state).waiting j =
      if j = i then state.2.pinned.map (·.pending) else w.waiting j := by
  unfold waiting
  rw [seat?_after h]
  split <;> rfl

theorem free_after {state : Service × Session} (hfree : ∀ q, (w.service q).Free)
    (hstate : state.1.Free) (q : Nat) : ((w.after p i state).service q).Free := by
  show ∀ entry ∈ (Function.update w.pools p state.1.pool q).idle, entry.2.pending = none
  by_cases hq : q = p
  · rw [hq, Function.update_self]
    exact hstate
  · rw [Function.update_of_ne hq]
    exact hfree q

theorem waiting_drop (w : Site) (i j : Nat) :
    (w.step (.drop i)).waiting j = if j = i then none else w.waiting j := by
  have hseat : (w.step (.drop i)).seat? j = if j = i then none else w.seat? j := by
    show ((w.sessions.set i none)[j]?).join = _
    by_cases hj : j = i
    · rw [if_pos hj, hj]
      rcases Nat.lt_or_ge i w.sessions.length with hlt | hge
      · rw [List.getElem?_set_self hlt]
        rfl
      · have hlength : (w.sessions.set i none).length ≤ i := by
          rw [List.length_set]
          exact hge
        rw [List.getElem?_eq_none_iff.mpr hlength]
        rfl
    · rw [if_neg hj, List.getElem?_set_ne (Ne.symm hj)]
      rfl
  unfold waiting
  rw [hseat]
  split <;> rfl

/-- A session that starts waits for nothing. -/
theorem waiting_start (w : Site) (pool : Nat) (client : Client) (j : Nat) :
    (w.step (.start pool client)).waiting j = w.waiting j := by
  unfold waiting seat?
  show (((w.sessions ++ [some (pool, client.session)])[j]?).join).bind _ = _
  rcases Nat.lt_trichotomy j w.sessions.length with hlt | heq | hgt
  · rw [List.getElem?_append_left hlt]
  · have hnone : w.sessions[j]? = none := List.getElem?_eq_none_iff.mpr (Nat.le_of_eq heq.symm)
    rw [hnone, heq, List.getElem?_concat_length]
    rfl
  · have hnone : w.sessions[j]? = none := List.getElem?_eq_none_iff.mpr (Nat.le_of_lt hgt)
    have hlength : (w.sessions ++ [some (pool, client.session)]).length ≤ j := by
      rw [List.length_append]
      exact hgt
    rw [hnone, List.getElem?_eq_none_iff.mpr hlength]

/-! ### One step -/

/-- A session with no pinned connection is in no transaction, and a pinned connection keeps the
writes of one. -/
theorem Traced.pinned (hw : w.Traced past) (h : w.seat? i = some (p, session)) :
    (session.pinned = none ∧ past.isOpen i = false) ∨
      ∃ c, session.pinned = some c ∧ past.isOpen i = true ∧
        c.pending = some (past.openWrites i) := by
  have hwaiting := hw.waiting i
  rw [waiting_of_seat? h, History.waiting] at hwaiting
  cases hopen : past.isOpen i with
  | false =>
    left
    simpa [hopen] using hwaiting
  | true =>
    right
    simpa [hopen] using hwaiting

theorem deeds_of_plain (past : History) {r : Request} (hr : r.isTransactional = false)
    (before after : Memory) (succeeded : Bool) :
    deeds past i before after succeeded r =
      past.write i (before.accepted (after.statements.drop before.statements.length)) := by
  cases r <;> first | rfl | cases hr

/-- Statements are recorded. -/
theorem Traced.after_statements (hw : w.Traced past) (h : w.seat? i = some (p, session))
    {state : Service × Session} (hrecords : Act.Records (w.service p, session) state) :
    (w.after p i state).Traced (past.write i
      (w.memory.accepted (state.1.memory.statements.drop w.memory.statements.length))) := by
  obtain ⟨received, hreceived⟩ := hrecords (hw.free p)
  -- the database keeps a list of all it received, so that what is new is what is behind the old
  have hdrop : state.1.memory.statements.drop w.memory.statements.length = received := by
    rw [hreceived.statements]
    exact List.drop_left
  rw [hdrop]
  refine ⟨free_after hw.free hreceived.free, ?_, ?_⟩
  · show state.1.memory.committed = _
    rcases hw.pinned h with ⟨hnopin, hclosed⟩ | ⟨c, hpin, hopen, hc⟩
    · rw [(hreceived.outside hnopin).2, History.visible_write_of_closed hclosed, ← hw.committed]
      rfl
    · rw [(hreceived.inside c _ hpin hc).2, History.visible_write_of_open hopen, ← hw.committed]
      rfl
  · intro j
    rw [waiting_after h, History.waiting_write]
    by_cases hj : j = i
    · rw [if_pos hj, if_pos hj, History.waiting]
      rcases hw.pinned h with ⟨hnopin, hclosed⟩ | ⟨c, hpin, hopen, hc⟩
      · rw [(hreceived.outside hnopin).1, hclosed]
        rfl
      · rw [(hreceived.inside c _ hpin hc).1, hopen]
        rfl
    · rw [if_neg hj, if_neg hj]
      exact hw.waiting j

theorem Traced.after_begin (hw : w.Traced past) (h : w.seat? i = some (p, session)) :
    let (result, state) := Act.begin (w.service p, session)
    (w.after p i state).Traced (if result.isOk then .began i :: past else past) := by
  obtain ⟨hfree, hcommitted, houtcome⟩ := Act.begin_outcome (w.service p, session) (hw.free p)
  rcases hbegin : Act.begin (w.service p, session) with ⟨result, state⟩
  rw [hbegin] at hfree hcommitted houtcome
  rcases houtcome with ⟨hfailed, hsame⟩ | ⟨hok, c, hc, hpinned⟩
  · -- where beginning fails, a transaction that is open stays so, with its writes
    simp only [hfailed, Bool.false_eq_true, if_false]
    refine ⟨free_after hw.free hfree, hcommitted.trans hw.committed, ?_⟩
    intro j
    rw [waiting_after h, hsame, ← waiting_of_seat? h, ← hw.waiting j]
    split
    · next hj => rw [hj]
    · rfl
  · simp only [hok, if_true]
    refine ⟨free_after hw.free hfree, ?_, ?_⟩
    · have hnothing : History.visible (.began i :: past) = past.visible := List.append_nil _
      rw [hnothing, ← hw.committed]
      exact hcommitted
    · intro j
      rw [waiting_after h, hpinned, History.waiting_began, hw.waiting j]
      split
      · show some c.pending = _
        rw [hc]
        rfl
      · rfl

/-- A session whose transaction ended, with what that made visible. -/
theorem Traced.after_end (hw : w.Traced past) (h : w.seat? i = some (p, session))
    {state : Service × Session} (hfree : state.1.Free) (hpinned : state.2.pinned = none)
    {deed : Deed} (hdeed : deed = .committed i ∨ deed = .ended i)
    (hcommitted : state.1.memory.committed = w.memory.committed ++ past.contribution deed) :
    (w.after p i state).Traced (deed :: past) := by
  refine ⟨free_after hw.free hfree, ?_, ?_⟩
  · show state.1.memory.committed = past.visible ++ past.contribution deed
    rw [hcommitted, hw.committed]
  · intro j
    have hclosed : History.waiting (deed :: past) j = if j = i then none else past.waiting j := by
      rcases hdeed with rfl | rfl
      · exact History.waiting_committed
      · exact History.waiting_ended
    rw [waiting_after h, hpinned, hclosed, hw.waiting j]
    split <;> rfl

theorem Traced.after_commit (hw : w.Traced past) (h : w.seat? i = some (p, session)) :
    let (result, state) := Act.commit (w.service p, session)
    (w.after p i state).Traced
      (if result.isOk then .committed i :: past else .ended i :: past) := by
  rcases hw.pinned h with ⟨hnopin, hclosed⟩ | ⟨c, hpin, -, hc⟩
  · -- there is no transaction to commit, and so none is given up either
    have hsame : Act.commit (w.service p, session) = (.error _, w.service p, session) :=
      Act.finish_of_none hnopin
    rw [hsame]
    exact hw.after_end h (hw.free p) hnopin (.inr rfl) (List.append_nil _).symm
  · obtain ⟨hfree, hsession, houtcome⟩ :=
      Act.commit_outcome (w.service p, session) (hw.free p) hpin hc
    rcases hcommit : Act.commit (w.service p, session) with ⟨result, state⟩
    rw [hcommit] at hfree hsession houtcome
    have hpinned : state.2.pinned = none := by rw [hsession]
    rcases houtcome with ⟨hok, hcommitted⟩ | ⟨hfailed, hcommitted⟩
    · simp only [hok, if_true]
      exact hw.after_end h hfree hpinned (.inl rfl) hcommitted
    · simp only [hfailed, Bool.false_eq_true, if_false]
      refine hw.after_end h hfree hpinned (.inr rfl) ?_
      rw [hcommitted]
      exact (List.append_nil _).symm

theorem Traced.after_rollback (hw : w.Traced past) (h : w.seat? i = some (p, session)) :
    (w.after p i (Act.rollback (w.service p, session)).2).Traced (.ended i :: past) := by
  rcases hw.pinned h with ⟨hnopin, -⟩ | ⟨c, hpin, -, hc⟩
  · have hsame : Act.rollback (w.service p, session) = (.error _, w.service p, session) :=
      Act.finish_of_none hnopin
    rw [hsame]
    exact hw.after_end h (hw.free p) hnopin (.inr rfl) (List.append_nil _).symm
  · obtain ⟨hfree, hsession, hcommitted⟩ :=
      Act.rollback_outcome (w.service p, session) (hw.free p) hpin hc
    have hpinned : (Act.rollback (w.service p, session)).2.2.pinned = none := by rw [hsession]
    refine hw.after_end h hfree hpinned (.inr rfl) ?_
    rw [hcommitted]
    exact (List.append_nil _).symm

theorem Traced.after_request (hw : w.Traced past) (h : w.seat? i = some (p, session))
    (r : Request) :
    let (result, state) := r.act (w.service p, session)
    (w.after p i state).Traced (deeds past i w.memory state.1.memory result.isOk r) := by
  cases hr : r.isTransactional with
  | false =>
    have hrecords := (r.plain hr).records (w.service p, session)
    simp only [deeds_of_plain past hr]
    exact hw.after_statements h hrecords
  | true =>
    cases r with
    | begin => exact hw.after_begin h
    | commit => exact hw.after_commit h
    | rollback => exact hw.after_rollback h
    | _ => cases hr

theorem step_traced (hw : w.Traced past) (next : Happening) :
    (w.step next).Traced (w.record past next) := by
  cases next with
  | start pool client =>
    refine ⟨hw.free, hw.committed, ?_⟩
    intro j
    rw [waiting_start]
    exact hw.waiting j
  | drop i =>
    refine ⟨hw.free, ?_, ?_⟩
    · exact hw.committed.trans (List.append_nil _).symm
    · intro j
      show (w.step (.drop i)).waiting j = (History.waiting (.ended i :: past) j).map some
      rw [waiting_drop, History.waiting_ended, hw.waiting j]
      split <;> rfl
  | ask i r =>
    cases hseat : w.seat? i with
    | none =>
      simp only [step, record, hseat]
      exact hw
    | some seat =>
      obtain ⟨p, session⟩ := seat
      simp only [step, record, hseat]
      exact hw.after_request hseat r
  | script failConnect failStatements failCommit responders =>
    exact ⟨hw.free, hw.committed, hw.waiting⟩

theorem fresh_traced : fresh.Traced [] := by
  refine ⟨?_, rfl, fun i => rfl⟩
  intro p entry hentry
  cases hentry

theorem run_traced (hw : w.Traced past) (happenings : List Happening) :
    (w.run past happenings).1.Traced (w.run past happenings).2 := by
  induction happenings generalizing w past with
  | nil => exact hw
  | cons next more ih => exact ih (step_traced hw next)

/-! ### Requests and their outcomes -/

/-- A connection can be had for a session: it has one in a transaction, one can be opened, or one is
idle in its pool. -/
def Reaches (w : Site) (p : Nat) (session : Session) : Prop :=
  session.inTransaction = true ∨ w.memory.failConnect = none ∨
    ∃ c, (session.key, c) ∈ (w.pools p).idle

theorem connected_iff_reaches :
    Act.Connected (w.service p, session) ↔ w.Reaches p session := Act.connected_iff

/-- The statements of a request are received if a connection can be had, the writes among them that
are not refused are recorded, and an observer is shown what is received. -/
theorem received_of_request (h : w.seat? i = some (p, session)) (r : Request)
    (hr : r.isTransactional = false) :
    ∃ received : List Statement,
      (w.step (.ask i r)).memory.statements = w.memory.statements ++ received ∧
      w.record past (.ask i r) =
        past.write i (received.filter fun s => s.Writes ∧ ¬ w.memory.Refuses s) ∧
      (w.Reaches p session → received.map (fun s => (s.sql, s.bindings)) =
        r.statements session w.memory.answer) ∧
      (¬ w.Reaches p session → received = []) ∧
      (session.observed = true → (w.memory.failConnect = none ∨ session.inTransaction = true) →
        (w.step (.ask i r)).observed =
          w.observed ++ received.map fun s => (s.sql, s.bindings)) := by
  have hstep : w.step (.ask i r) = w.after p i (r.act (w.service p, session)).2 := by
    simp only [step, h]
  obtain ⟨received, hreceived⟩ : ∃ received,
      (w.step (.ask i r)).memory.statements = w.memory.statements ++ received := by
    rw [hstep]
    by_cases hconnected : Act.Connected (w.service p, session)
    · obtain ⟨received, hreceived, -⟩ := r.sends hconnected hr
      exact ⟨received, hreceived⟩
    · obtain ⟨received, hreceived, -⟩ := (r.plain hr).sends_nothing hconnected
      exact ⟨received, hreceived⟩
  -- what is received is behind what was, so that it is the same in every account of it
  have hsame : ∀ more, (r.act (w.service p, session)).2.1.memory.statements =
      w.memory.statements ++ more → more = received := by
    intro more hmore
    rw [hstep] at hreceived
    exact List.append_cancel_left (hmore.symm.trans hreceived)
  refine ⟨received, hreceived, ?_, ?_, ?_, ?_⟩
  · have hrecord : w.record past (.ask i r) = past.write i (w.memory.accepted
        ((r.act (w.service p, session)).2.1.memory.statements.drop
          w.memory.statements.length)) := by
      simp only [record, h]
      exact deeds_of_plain past hr _ _ _
    rw [hrecord, ← w.memory.accepted_eq]
    rw [hstep] at hreceived
    have hdrop := congrArg (List.drop w.memory.statements.length) hreceived
    rw [List.drop_left] at hdrop
    exact congrArg (fun more => past.write i (w.memory.accepted more)) hdrop
  · intro hreaches
    obtain ⟨more, hmore, hsent⟩ := r.sends (connected_iff_reaches.mpr hreaches) hr
    rw [← hsame more hmore]
    exact hsent
  · intro hno
    obtain ⟨more, hmore, hnone⟩ :=
      (r.plain hr).sends_nothing (mt connected_iff_reaches.mp hno)
    rw [← hsame more hmore]
    exact List.map_eq_nil_iff.mp hnone
  · intro hobserved hreaches
    obtain ⟨more, hshown⟩ := (r.plain hr).shows (w.service p, session) hobserved hreaches
    rw [hstep, ← hsame more hshown.statements]
    exact hshown.shown

theorem Traced.begin_iff (hw : w.Traced past) :
    (Act.begin (w.service p, session)).1.isOk = true ↔
      session.inTransaction = false ∧ w.Reaches p session := by
  unfold Session.inTransaction
  rw [← connected_iff_reaches]
  cases hpinned : session.pinned with
  | some c =>
    rw [Act.begin_of_open hpinned]
    exact iff_of_false Bool.false_ne_true fun h => Bool.false_ne_true h.1.symm
  | none =>
    rw [Act.connected_of_closed hpinned]
    rcases hacquire : (w.service p).pool.acquire session.key (w.service p).memory with
      ⟨e | c, pool, memory⟩
    · rw [Act.begin_of_refused hpinned hacquire]
      exact iff_of_false Bool.false_ne_true fun h => Bool.false_ne_true h.2
    · obtain ⟨hc, -⟩ := Pool.free_of_acquire_ok (hw.free p) hacquire
      rw [Act.begin_of_acquired hpinned hacquire hc]
      exact iff_of_true rfl ⟨rfl, rfl⟩

theorem Traced.commit_iff (hw : w.Traced past) (h : w.seat? i = some (p, session)) :
    (Act.commit (w.service p, session)).1.isOk = true ↔
      session.inTransaction = true ∧ w.memory.failCommit = false := by
  unfold Session.inTransaction
  rcases hw.pinned h with ⟨hnopin, -⟩ | ⟨c, hpin, -, hc⟩
  · have hmissing : Act.commit (w.service p, session) = (.error _, w.service p, session) :=
      Act.finish_of_none hnopin
    rw [hmissing, hnopin]
    exact iff_of_false Bool.false_ne_true fun h => Bool.false_ne_true h.1
  · rw [hpin]
    simp only [Act.commit, Act.finish, hpin, Connection.commit, hc]
    show _ ↔ _ ∧ (w.service p).memory.failCommit = false
    cases (w.service p).memory.failCommit with
    | true => simp [Except.isOk, Except.toBool]
    | false => simp [Except.isOk, Except.toBool]

theorem Traced.rollback_iff (hw : w.Traced past) (h : w.seat? i = some (p, session)) :
    (Act.rollback (w.service p, session)).1.isOk = true ↔ session.inTransaction = true := by
  unfold Session.inTransaction
  rcases hw.pinned h with ⟨hnopin, -⟩ | ⟨c, hpin, -, hc⟩
  · have hmissing : Act.rollback (w.service p, session) = (.error _, w.service p, session) :=
      Act.finish_of_none hnopin
    rw [hmissing, hnopin]
    exact iff_of_false Bool.false_ne_true Bool.false_ne_true
  · rw [hpin]
    simp only [Act.rollback, Act.finish, hpin, Connection.rollback, hc]
    exact iff_of_true rfl rfl

/-- Whatever the sessions of a database do in whatever order, and whatever the database is told to
refuse in between, the writes that it has committed are those that are visible by the history: each
write outside of a transaction, and for each commit that succeeded all the writes of its
transaction, in the order in which they were written and with no others in between.

A session is in a transaction where the history says so; a transaction begins where none is open and
a connection can be had, and its commit succeeds unless commits are refused.  The writes in the
history are those of the requests: where a connection can be had all statements of a request are
received, and else none is. -/
theorem committed_eq_visible (happenings : List Happening) :
    let (w, history) := fresh.run [] happenings
    w.memory.committed = history.visible ∧
      ∀ i p session, w.seat? i = some (p, session) →
        session.inTransaction = history.isOpen i ∧
        ((Act.begin (w.service p, session)).1.isOk = true ↔
          session.inTransaction = false ∧ w.Reaches p session) ∧
        ((Act.commit (w.service p, session)).1.isOk = true ↔
          session.inTransaction = true ∧ w.memory.failCommit = false) ∧
        ((Act.rollback (w.service p, session)).1.isOk = true ↔ session.inTransaction = true) ∧
        ∀ r : Request, r.isTransactional = false → ∃ received : List Statement,
          (w.step (.ask i r)).memory.statements = w.memory.statements ++ received ∧
          w.record history (.ask i r) =
            history.write i (received.filter fun s => s.Writes ∧ ¬ w.memory.Refuses s) ∧
          (w.Reaches p session → received.map (fun s => (s.sql, s.bindings)) =
            r.statements session w.memory.answer) ∧
          (¬ w.Reaches p session → received = []) ∧
          (session.observed = true → (w.memory.failConnect = none ∨ session.inTransaction = true) →
            (w.step (.ask i r)).observed =
              w.observed ++ received.map fun s => (s.sql, s.bindings)) := by
  have htraced := run_traced fresh_traced happenings
  rcases hrun : fresh.run [] happenings with ⟨w, history⟩
  rw [hrun] at htraced
  refine ⟨htraced.committed, ?_⟩
  intro i p session hseat
  refine ⟨?_, htraced.begin_iff, htraced.commit_iff hseat, htraced.rollback_iff hseat, ?_⟩
  · unfold Session.inTransaction
    rcases htraced.pinned hseat with ⟨hnopin, hclosed⟩ | ⟨c, hpin, hopen, -⟩
    · rw [hnopin, hclosed]
      rfl
    · rw [hpin, hopen]
      rfl
  · intro r hr
    exact received_of_request hseat r hr

/-- A client of a shop, with an observer. -/
def shop : Client := ⟨.new "sqlite" "shop.db", .sqlite, ⟨"sqlite", "shop.db"⟩, true⟩

def opening : Entity Schema.auditLog := ⟨("opened", none, ()), ()⟩

/-- One session writes outside of a transaction and then in one that it rolls back.  Meanwhile
another one writes in a transaction and commits. -/
def shopping : List Happening :=
  [.start 0 shop, .start 0 shop, .ask 0 (.insert Schema.auditLog opening),
    .ask 0 .begin, .ask 1 .begin, .ask 0 (.run "DELETE FROM cart" []),
    .ask 1 (.run "UPDATE cart" []), .ask 0 .rollback, .ask 1 (.run "DELETE FROM orders" []),
    .ask 1 .commit]

/-- The write outside of a transaction. -/
def openingWrite : Statement :=
  ⟨1, "INSERT INTO `audit_log` (`message`, `at`) VALUES (:message, :at)",
    [⟨"message", .scalar (.varchar "opened")⟩, ⟨"at", .null .timestamp⟩]⟩

/-- What was done in the shop, the last deed first. -/
def shopped : History :=
  [.committed 1, .wrote 1 ⟨2, "DELETE FROM orders", []⟩, .ended 0,
    .wrote 1 ⟨2, "UPDATE cart", []⟩, .wrote 0 ⟨1, "DELETE FROM cart", []⟩, .began 1, .began 0,
    .wrote 0 openingWrite]

/-- The write of the transaction that was rolled back is not visible, and when it is written again
it is received and recorded. -/
theorem committed_eq_visible_shopping :
    let (w, history) := fresh.run [] shopping
    let again : Happening := .ask 0 (.run "DELETE FROM cart" [])
    history = shopped ∧
      w.memory.committed = [openingWrite, ⟨2, "UPDATE cart", []⟩, ⟨2, "DELETE FROM orders", []⟩] ∧
      ∃ s : Statement, s.sql = "DELETE FROM cart" ∧ s.bindings = [] ∧
        (w.step again).memory.statements = w.memory.statements ++ [s] ∧
        w.record history again = .wrote 0 s :: history ∧
        (w.step again).observed = w.observed ++ [("DELETE FROM cart", [])] := by
  have hsite := committed_eq_visible shopping
  have hhistory : (fresh.run [] shopping).2 = shopped := by decide +kernel
  have hseat : (fresh.run [] shopping).1.seat? 0 = some (0, shop.session) := rfl
  have hopens : (fresh.run [] shopping).1.memory.failConnect = none := rfl
  have haccepts : (fresh.run [] shopping).1.memory.failStatements = [] := rfl
  rcases hrun : fresh.run [] shopping with ⟨w, history⟩
  rw [hrun] at hsite hhistory hseat hopens haccepts
  dsimp only at hhistory hseat hopens haccepts
  obtain ⟨hcommitted, hsessions⟩ := hsite
  obtain ⟨-, -, -, -, hrequests⟩ := hsessions 0 0 shop.session hseat
  obtain ⟨received, hstatements, hrecord, hsent, -, hshown⟩ :=
    hrequests (.run "DELETE FROM cart" []) rfl
  obtain ⟨s, rfl, hs⟩ := List.map_eq_singleton_iff.mp (hsent (.inr (.inl hopens)))
  obtain ⟨hsql, hbindings⟩ := Prod.mk.inj hs
  refine ⟨hhistory, ?_, s, hsql, hbindings, hstatements, ?_, ?_⟩
  · rw [hcommitted, hhistory]
    rfl
  · have hkept : [s].filter (fun s => s.Writes ∧ ¬ w.memory.Refuses s) = [s] := by
      rw [← w.memory.accepted_eq, Memory.accepted, haccepts, List.filter_singleton, hsql]
      rfl
    rw [hrecord, hkept]
    rfl
  · rw [hshown rfl (.inl hopens), List.map_singleton, hs]

end Site

end BoundSql
