import BoundSql.Dialect.Standard
import BoundSql.Proofs.World
import Mathlib.Data.List.Nodup
import Mathlib.Data.List.Perm.Basic

/-!
# Accounting for connections

Every connection that was ever opened is idle in one queue, pinned by one session, or discarded.
`World.Books` says what a single command may do to these places and `World.Accounted` is the
invariant that it keeps; the rest follows for every run.
-/

namespace BoundSql

namespace World

/-! ### Places -/

/-- The numbers of the connections pinned by sessions. -/
def pinnedNumbers (sessions : List (Option Session)) : List Nat :=
  (sessions.filterMap (·.bind Session.pinned)).map (·.number)

theorem numbers_eq (w : World) :
    w.numbers = w.service.idle.map (·.number) ++ pinnedNumbers w.sessions := by
  simp [numbers, idle, pinned, pinnedNumbers, Service.idle, Connection.badge, Function.comp_def]

theorem pinnedNumbers_append (l r : List (Option Session)) :
    pinnedNumbers (l ++ r) = pinnedNumbers l ++ pinnedNumbers r := by
  simp [pinnedNumbers]

theorem pinnedNumbers_cons_none (r : List (Option Session)) :
    pinnedNumbers (none :: r) = pinnedNumbers r := rfl

theorem pinnedNumbers_cons_some (session : Session) (r : List (Option Session)) :
    pinnedNumbers (some session :: r) =
      session.badge?.toList.map (·.number) ++ pinnedNumbers r := by
  cases hpinned : session.pinned <;>
    simp [pinnedNumbers, Session.badge?, hpinned, Connection.badge]

/-- What one session holds, and the connections that the others have pinned. -/
theorem numbers_perm (service : Service) (l r : List (Option Session)) (session : Session) :
    (numbers ⟨service, l ++ some session :: r⟩).Perm
      ((holdings (service, session)).numbers ++ pinnedNumbers (l ++ r)) := by
  rw [numbers_eq, pinnedNumbers_append, pinnedNumbers_cons_some, pinnedNumbers_append]
  simp only [holdings, Holdings.numbers, List.append_assoc]
  apply List.Perm.append_left
  exact List.perm_append_comm_assoc _ _ _

theorem numbers_of_none (service : Service) (l r : List (Option Session)) :
    numbers ⟨service, l ++ none :: r⟩ =
      service.idle.map (·.number) ++ pinnedNumbers (l ++ r) := by
  rw [numbers_eq, pinnedNumbers_append, pinnedNumbers_cons_none, pinnedNumbers_append]

/-- A session stands at its place among the others, and so does what takes its place. -/
theorem split_of_session? {w : World} {i : Nat} {session : Session}
    (h : w.session? i = some session) :
    ∃ l r, w.sessions = l ++ some session :: r ∧ ∀ x, w.sessions.set i x = l ++ x :: r := by
  have hget : w.sessions[i]? = some (some session) := by
    simpa [session?, Option.join_eq_some_iff] using h
  obtain ⟨hi, hsession⟩ := List.getElem?_eq_some_iff.mp hget
  refine ⟨w.sessions.take i, w.sessions.drop (i + 1), ?_, ?_⟩
  · rw [← hsession]
    simp
  · intro x
    rw [List.set_eq_take_append_cons_drop, if_pos hi]

theorem set_none_of_session? {w : World} {i : Nat} (h : w.session? i = none) :
    w.sessions.set i none = w.sessions := by
  cases hget : w.sessions[i]? with
  | none => exact List.set_eq_of_length_le (List.getElem?_eq_none_iff.mp hget)
  | some x =>
    have hnone : x = none := by simpa [session?, hget] using h
    subst hnone
    obtain ⟨hi, hx⟩ := List.getElem?_eq_some_iff.mp hget
    rw [← hx]
    exact List.set_getElem_self hi

/-! ### The invariant -/

/-- No connection is in two places; all that are idle or pinned were opened, with what their keys
say; the pinned ones are in transactions and no others are. -/
structure Accounted (w : World) : Prop where
  nodup : w.numbers.Nodup
  opened : ∀ n ∈ w.numbers, 0 < n ∧ n ≤ w.opened
  idle : ∀ b ∈ w.service.idle, b.target = b.key.target ∧ b.busy = false
  pinned : ∀ session, some session ∈ w.sessions → ∀ b, session.badge? = some b →
    b.target = b.key.target ∧ b.busy = true

/-- What a command may do to the places of connections. -/
inductive Books (w : World) (next : Command) (w' : World) : Prop where
  | same (hopened : w'.opened = w.opened) (hnumbers : w'.numbers.Perm w.numbers)
  | opens {i : Nat} {r : Request} {session : Session} (hopened : w'.opened = w.opened + 1)
    (hnumbers : w'.numbers.Perm ((w.opened + 1) :: w.numbers)) (hnext : next = .ask i r)
    (hsession : w.session? i = some session) (hpinned : session.pinned = none)
    (hqueue : w.service.pool.queue session.key = [])
  | loses (n : Nat) (hopened : w'.opened = w.opened) (hnumbers : w.numbers.Perm (n :: w'.numbers))
    (hnext : next.discards w n)

theorem Accounted.tidy {w : World} (hw : w.Accounted) {session : Session}
    (hsession : some session ∈ w.sessions) : (holdings (w.service, session)).Tidy :=
  ⟨hw.idle, hw.pinned session hsession⟩

theorem queue_eq_nil {service : Service} {key : PoolKey} (h : ∀ b ∈ service.idle, b.key ≠ key) :
    service.pool.queue key = [] := by
  unfold Pool.queue
  rw [List.map_eq_nil_iff, List.filter_eq_nil_iff]
  intro e he
  have hkey := h (e.2.badge e.1) (List.mem_map.mpr ⟨e, he, rfl⟩)
  simpa [Connection.badge] using hkey

theorem ask_of_session? {w : World} {i : Nat} {session : Session}
    (h : w.session? i = some session) (r : Request) :
    w.ask i r = ((r.act (w.service, session)).1, ⟨(r.act (w.service, session)).2.1,
      w.sessions.set i (some (r.act (w.service, session)).2.2)⟩) := by
  unfold ask
  rw [h]
  rfl

/-- Asking a session leaves every connection in its place, opens one, or discards the pinned one. -/
theorem ask_books {w : World} (hw : w.Accounted) (i : Nat) (r : Request) :
    Books w (.ask i r) (w.ask i r).2 := by
  cases hsession : w.session? i with
  | none =>
    unfold ask
    rw [hsession]
    exact .same rfl (List.Perm.refl _)
  | some session =>
    obtain ⟨before, after, hsessions, hset⟩ := split_of_session? hsession
    obtain ⟨-, hmove⟩ := r.moves (w.service, session) fun b hb => (hw.idle b hb).2
    have hnow := numbers_perm w.service before after session
    rw [← hsessions] at hnow
    have hask := ask_of_session? hsession r
    rw [hset] at hask
    rcases hact : r.act (w.service, session) with ⟨result, service, session'⟩
    rw [hact] at hask hmove
    have hthen := numbers_perm service before after session'
    rcases hmove.numbers with ⟨hopened, hsame⟩ | ⟨hopened, hmore, hpinned, hidle⟩ |
      ⟨hopened, hfailed, b, hpinned, hless⟩
    · rw [hask]
      refine .same hopened (hthen.trans ?_)
      exact (hsame.append_right _).trans hnow.symm
    · rw [hask]
      refine .opens hopened (hthen.trans ?_) rfl hsession ?_ (queue_eq_nil hidle)
      · exact (hmore.append_right _).trans (hnow.symm.cons _)
      · simpa [holdings, Session.badge?] using hpinned
    · obtain ⟨c, hc, rfl⟩ := Option.map_eq_some_iff.mp hpinned
      have hdiscards : (Command.ask i r).discards w c.number := by
        refine ⟨⟨session, c, hsession, hc, rfl⟩, ?_⟩
        rw [hask]
        exact hfailed
      rw [hask]
      refine .loses c.number hopened ?_ hdiscards
      exact hnow.trans ((hless.append_right _).trans (hthen.symm.cons _))

/-- Dropping a session discards the connection it has pinned. -/
theorem drop_books (w : World) (i : Nat) : Books w (.drop i) (w.step (.drop i)) := by
  cases hsession : w.session? i with
  | none =>
    refine .same rfl ?_
    simp only [step, set_none_of_session? hsession]
    exact List.Perm.refl _
  | some session =>
    obtain ⟨before, after, hsessions, hset⟩ := split_of_session? hsession
    have hnow := numbers_perm w.service before after session
    rw [← hsessions] at hnow
    have hthen := numbers_of_none w.service before after
    simp only [step, hset]
    cases hpinned : session.pinned with
    | none =>
      refine .same rfl ?_
      rw [hthen]
      simpa [Holdings.numbers, holdings, Session.badge?, hpinned] using hnow.symm
    | some c =>
      refine .loses c.number rfl ?_ ⟨session, c, hsession, hpinned, rfl⟩
      rw [hthen]
      apply hnow.trans
      simp [Holdings.numbers, holdings, Session.badge?, hpinned, Connection.badge]

theorem step_books {w : World} (hw : w.Accounted) (next : Command) :
    Books w next (w.step next) := by
  cases next with
  | start client =>
    refine .same rfl ?_
    rw [numbers_eq, numbers_eq]
    simp only [step, pinnedNumbers_append]
    have hnone : pinnedNumbers [some client.session] = [] := rfl
    rw [hnone, List.append_nil]
  | drop i => exact w.drop_books i
  | ask i request => exact ask_books hw i request
  | script failConnect failStatements failCommit responders => exact .same rfl (List.Perm.refl _)
  | clear => exact .same rfl (List.Perm.refl _)

/-- The sessions after a command are those before it, those just opened, and the one asked. -/
theorem step_tidy {w : World} (hw : w.Accounted) (next : Command) :
    (∀ b ∈ (w.step next).service.idle, b.target = b.key.target ∧ b.busy = false) ∧
      ∀ session, some session ∈ (w.step next).sessions → ∀ b, session.badge? = some b →
        b.target = b.key.target ∧ b.busy = true := by
  cases next with
  | start client =>
    refine ⟨hw.idle, ?_⟩
    intro session hmem b hb
    rcases List.mem_append.mp hmem with hold | hnew
    · exact hw.pinned session hold b hb
    · obtain rfl : session = client.session := by simpa using hnew
      cases hb
  | drop i =>
    refine ⟨hw.idle, ?_⟩
    intro session hmem b hb
    rcases List.mem_or_eq_of_mem_set hmem with hold | hnone
    · exact hw.pinned session hold b hb
    · cases hnone
  | ask i r =>
    simp only [step]
    cases hsession : w.session? i with
    | none =>
      unfold ask
      rw [hsession]
      exact ⟨hw.idle, hw.pinned⟩
    | some asked =>
      obtain ⟨before, after, hsessions, -⟩ := split_of_session? hsession
      have hasked : some asked ∈ w.sessions := by simp [hsessions]
      obtain ⟨-, hmove⟩ := r.moves (w.service, asked) fun b hb => (hw.idle b hb).2
      have htidy := hmove.tidy (hw.tidy hasked)
      rw [ask_of_session? hsession]
      refine ⟨htidy.idle, ?_⟩
      intro session hmem b hb
      rcases List.mem_or_eq_of_mem_set hmem with hold | hnew
      · exact hw.pinned session hold b hb
      · cases hnew
        exact htidy.pinned b hb
  | script failConnect failStatements failCommit responders => exact ⟨hw.idle, hw.pinned⟩
  | clear => exact ⟨hw.idle, hw.pinned⟩

/-- Every command keeps the invariant. -/
theorem step_accounted {w : World} (hw : w.Accounted) (next : Command) :
    (w.step next).Accounted := by
  obtain ⟨hidle, hpinned⟩ := step_tidy hw next
  have hnumbers : (w.step next).numbers.Nodup ∧
      ∀ n ∈ (w.step next).numbers, 0 < n ∧ n ≤ (w.step next).opened := by
    cases step_books hw next with
    | same hopened hnumbers =>
      refine ⟨hnumbers.nodup_iff.mpr hw.nodup, ?_⟩
      intro n hn
      rw [hopened]
      exact hw.opened n (hnumbers.mem_iff.mp hn)
    | opens hopened hnumbers _ _ _ _ =>
      refine ⟨hnumbers.nodup_iff.mpr (List.nodup_cons.mpr ⟨?_, hw.nodup⟩), ?_⟩
      · intro hmem
        have hbound := hw.opened _ hmem
        omega
      · intro n hn
        rw [hopened]
        rcases List.mem_cons.mp (hnumbers.mem_iff.mp hn) with rfl | hold
        · omega
        · have hbound := hw.opened n hold
          omega
    | loses m hopened hnumbers _ =>
      refine ⟨(List.nodup_cons.mp (hnumbers.nodup_iff.mp hw.nodup)).2, ?_⟩
      intro n hn
      rw [hopened]
      exact hw.opened n (hnumbers.mem_iff.mpr (List.mem_cons_of_mem _ hn))
  exact ⟨hnumbers.1, hnumbers.2, hidle, hpinned⟩

theorem fresh_accounted : fresh.Accounted := by
  refine ⟨List.nodup_nil, ?_, ?_, ?_⟩
  · intro n hn
    cases hn
  · intro b hb
    cases hb
  · intro session hsession
    cases hsession

theorem run_accounted {w : World} (hw : w.Accounted) (commands : List Command) :
    (w.run commands).Accounted := by
  induction commands generalizing w with
  | nil => exact hw
  | cons next commands ih => exact ih (step_accounted hw next)

/-! ### Discarded connections -/

theorem mem_discarded {w : World} {n : Nat} :
    n ∈ w.discarded ↔ (0 < n ∧ n ≤ w.opened) ∧ n ∉ w.numbers := by
  unfold discarded
  rw [List.mem_filter, List.mem_range'_1]
  have hcontains : (!w.numbers.contains n) = true ↔ n ∉ w.numbers := by simp
  rw [hcontains]
  constructor
  · rintro ⟨hrange, hn⟩
    exact ⟨by omega, hn⟩
  · rintro ⟨hrange, hn⟩
    exact ⟨by omega, hn⟩

/-- Each connection ever opened is in one of the three places, and there once. -/
theorem Accounted.perm {w : World} (hw : w.Accounted) :
    (w.numbers ++ w.discarded).Perm (List.range' 1 w.opened) := by
  have hnodup : (w.numbers ++ w.discarded).Nodup := by
    rw [List.nodup_append']
    refine ⟨hw.nodup, List.Nodup.filter _ List.nodup_range', ?_⟩
    intro n hn hdiscarded
    exact (mem_discarded.mp hdiscarded).2 hn
  apply (List.perm_ext_iff_of_nodup hnodup List.nodup_range').mpr
  intro n
  rw [List.mem_append, mem_discarded, List.mem_range'_1]
  constructor
  · rintro (hn | ⟨hn, -⟩)
    · have hbound := hw.opened n hn
      omega
    · omega
  · intro hn
    by_cases hmem : n ∈ w.numbers
    · exact .inl hmem
    · exact .inr ⟨by omega, hmem⟩

/-- A command discards no connection but the one that it takes out of a session, and what was
discarded stays so. -/
theorem Accounted.discarded_step {w : World} (hw : w.Accounted) (next : Command) (n : Nat) :
    (n ∈ (w.step next).discarded → n ∈ w.discarded ∨ next.discards w n) ∧
      (n ∈ w.discarded → n ∈ (w.step next).discarded) := by
  rw [mem_discarded, mem_discarded]
  cases step_books hw next with
  | same hopened hnumbers =>
    rw [hopened, hnumbers.mem_iff]
    exact ⟨.inl, id⟩
  | opens hopened hnumbers _ _ _ _ =>
    rw [hopened, hnumbers.mem_iff, List.mem_cons]
    constructor
    · rintro ⟨hrange, hn⟩
      rw [not_or] at hn
      exact .inl ⟨by omega, hn.2⟩
    · rintro ⟨hrange, hn⟩
      refine ⟨by omega, ?_⟩
      rintro (rfl | hold)
      · omega
      · exact hn hold
  | loses m hopened hnumbers hnext =>
    rw [hopened, hnumbers.mem_iff, List.mem_cons]
    constructor
    · rintro ⟨hrange, hn⟩
      by_cases hm : n = m
      · subst hm
        exact .inr hnext
      · refine .inl ⟨hrange, ?_⟩
        rintro (heq | hmem)
        · exact hm heq
        · exact hn hmem
    · rintro ⟨hrange, hn⟩
      exact ⟨hrange, fun hmem => hn (.inr hmem)⟩

/-! ### Every run -/

theorem Accounted.queue {w : World} (hw : w.Accounted) {key : PoolKey} {c : Connection}
    (hc : c ∈ w.service.pool.queue key) : c.target = key.target ∧ c.pending = none := by
  obtain ⟨⟨other, c⟩, hentry, rfl⟩ := List.mem_map.mp hc
  obtain ⟨hmem, hkey⟩ := List.mem_filter.mp hentry
  obtain rfl : other = key := by simpa using hkey
  obtain ⟨htarget, hbusy⟩ := hw.idle (c.badge other) (List.mem_map.mpr ⟨(other, c), hmem, rfl⟩)
  exact ⟨htarget, by simpa [Connection.badge] using hbusy⟩

theorem Accounted.pending_of_pinned {w : World} (hw : w.Accounted) {session : Session}
    (hsession : some session ∈ w.sessions) {c : Connection} (hc : session.pinned = some c) :
    c.pending.isSome = true := by
  have hbadge : session.badge? = some (c.badge session.key) := by simp [Session.badge?, hc]
  exact (hw.pinned session hsession _ hbadge).2

/-- The database never refuses to begin, to commit or to roll back because of the transaction that
the connection is or is not in. -/
theorem Accounted.ask_transaction {w : World} (hw : w.Accounted) (i : Nat) :
    (∀ e, (w.ask i .begin).1 ≠ .error (.within .beginning e)) ∧
      (w.ask i .commit).1 ≠ .error (.refused .nothingToCommit) ∧
      (w.ask i .rollback).1 ≠ .error (.refused .nothingToRollBack) := by
  cases hsession : w.session? i with
  | none =>
    unfold ask
    rw [hsession]
    simp
  | some session =>
    obtain ⟨before, after, hsessions, -⟩ := split_of_session? hsession
    have hmem : some session ∈ w.sessions := by simp [hsessions]
    have hbusy : ∀ b, session.badge? = some b → b.busy = true := by
      intro b hb
      exact (hw.pinned session hmem b hb).2
    obtain ⟨-, -, hbegin⟩ := Act.moves_begin True (w.service, session) fun b hb => (hw.idle b hb).2
    rw [ask_of_session? hsession, ask_of_session? hsession, ask_of_session? hsession]
    exact ⟨hbegin, Act.commit_ne_nothingToCommit _ hbusy, Act.rollback_ne_nothingToRollBack _ hbusy⟩

/-- After any commands, and whatever is refused on the way, each connection ever opened is idle,
or pinned by a session, or discarded, once in one of these places.  What is idle under a key was
opened with what the key says and is in no transaction; what is pinned is in one.  The next
command opens at most one connection, for a session that has pinned none and whose key has an
empty queue; it discards nothing but the pinned connection of a session that it drops or whose
transaction it fails to begin or to end, and brings nothing discarded back.  So the database is
never asked to begin a transaction on a connection that is in one, nor to end one on a connection
that is in none. -/
theorem connections_accounted (commands : List Command) (next : Command) :
    let w := fresh.run commands
    let w' := w.step next
    (w.idle.map (·.number) ++ w.pinned.map (·.number) ++ w.discarded).Perm
        (List.range' 1 w.opened) ∧
      (∀ key, ∀ c ∈ w.service.pool.queue key, c.target = key.target ∧ c.pending = none) ∧
      (∀ session, some session ∈ w.sessions → ∀ c, session.pinned = some c →
        c.pending.isSome = true) ∧
      (w'.opened ≠ w.opened → w'.opened = w.opened + 1 ∧
        ∃ i r session, next = .ask i r ∧ w.session? i = some session ∧ session.pinned = none ∧
          w.service.pool.queue session.key = []) ∧
      (∀ n ∈ w'.discarded, n ∈ w.discarded ∨ next.discards w n) ∧
      (∀ n ∈ w.discarded, n ∈ w'.discarded) ∧
      ∀ i, (∀ e, (w.ask i .begin).1 ≠ .error (.within .beginning e)) ∧
        (w.ask i .commit).1 ≠ .error (.refused .nothingToCommit) ∧
        (w.ask i .rollback).1 ≠ .error (.refused .nothingToRollBack) := by
  intro w w'
  have hw : w.Accounted := run_accounted fresh_accounted commands
  refine ⟨?_, ?_, ?_, ?_, ?_, ?_, hw.ask_transaction⟩
  · rw [← List.map_append]
    exact hw.perm
  · intro key c hc
    exact hw.queue hc
  · intro session hsession c hc
    exact hw.pending_of_pinned hsession hc
  · intro hopened
    cases step_books hw next with
    | same hsame _ => exact absurd hsame hopened
    | opens hone _ hnext hsession hpinned hqueue =>
      exact ⟨hone, _, _, _, hnext, hsession, hpinned, hqueue⟩
    | loses _ hsame _ _ => exact absurd hsame hopened
  · intro n
    exact (hw.discarded_step next n).1
  · intro n
    exact (hw.discarded_step next n).2

/-- A client of a database at a place. -/
def clientOf (target : String) : Client :=
  ⟨.new "sqlite" target, .sqlite, ⟨"sqlite", target⟩, false⟩

/-- The commit of the first session is refused, and it begins another transaction. -/
def refusedCommit : List Command :=
  [.start (clientOf "shop.db"), .start (clientOf "archive.db"), .ask 0 .begin,
    .ask 1 (.run "SELECT 1" []), .script none [] true [], .ask 0 .commit, .ask 0 .begin]

theorem connections_accounted_after_refused_commit :
    let w := fresh.run refusedCommit
    let w' := w.step (.drop 0)
    (w.idle.map (·.number) = [2] ∧ w.pinned.map (·.number) = [3] ∧ w.discarded = [1] ∧
      w'.discarded = [1, 3]) ∧
      (w.idle.map (·.number) ++ w.pinned.map (·.number) ++ w.discarded).Perm
        (List.range' 1 w.opened) ∧
      ∀ n ∈ w'.discarded, n ∈ w.discarded ∨ (Command.drop 0).discards w n := by
  obtain ⟨hplaces, -, -, -, hdiscarded, -, -⟩ := connections_accounted refusedCommit (.drop 0)
  exact ⟨by decide +kernel, hplaces, hdiscarded⟩

end World

end BoundSql
