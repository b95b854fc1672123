import BoundSql.Proofs.Received

/-!
# Which connection a statement runs on

A statement runs on the connection that its session has pinned, and else on one that the pool gives
out: an idle one, or a new one.  What is received of a session that runs statements and nothing else
therefore runs on connections that serve it (`Act.Plain.served`), and while a transaction is open
that is one connection.
-/

namespace BoundSql

/-! ### Serving -/

/-- The connections that the next statement may run on: the pinned one, or the idle ones and those
that are yet to be opened. -/
def Holdings.Serves (h : Holdings) (n : Nat) : Prop :=
  match h.pinned with
  | some b => n = b.number
  | none => n ∈ h.idle.map (·.number) ∨ h.opened < n

theorem Holdings.Rests.serves {key : PoolKey} {h h' : Holdings} (hrests : Rests key h h') {n : Nat}
    (hn : h'.Serves n) : h.Serves n := by
  cases hrests with
  | @same _ _ pinned _ hidle =>
    cases pinned with
    | some b => exact hn
    | none => exact hn.imp_left (hidle.map Badge.number).mem_iff.mp
  | @opens _ _ opened _ hidle =>
    rcases hn with hn | hn
    · rcases List.mem_cons.mp ((hidle.map Badge.number).mem_iff.mp hn) with rfl | hn
      · exact .inr (Nat.lt_succ_self _)
      · exact .inl hn
    · exact .inr (Nat.lt_of_succ_lt hn)

namespace Act

/-- What was received meanwhile ran on connections that serve the session. -/
structure Served (before after : Service × Session) : Prop where
  rested : Rested before after
  received : ∃ received, after.1.memory.statements = before.1.memory.statements ++ received ∧
    ∀ s ∈ received, (holdings before).Serves s.connection

theorem Served.of_same {before after : Service × Session} (hrested : Rested before after)
    (hmemory : after.1.memory = before.1.memory) : Served before after := by
  refine ⟨hrested, [], ?_, ?_⟩
  · rw [hmemory, List.append_nil]
  · intro s hs
    cases hs

theorem Served.trans {before middle after : Service × Session} (hfirst : Served before middle)
    (hsecond : Served middle after) : Served before after := by
  obtain ⟨received, hreceived, hserves⟩ := hfirst.received
  obtain ⟨more, hmore, hserves'⟩ := hsecond.received
  refine ⟨hfirst.rested.trans hsecond.rested, received ++ more, ?_, ?_⟩
  · rw [hmore, hreceived, List.append_assoc]
  · intro s hs
    rcases List.mem_append.mp hs with hs | hs
    · exact hserves s hs
    · exact hfirst.rested.2.serves (hserves' s hs)

theorem served_run (sql : String) (bindings : List Binding) : Along Served (run sql bindings) := by
  rintro ⟨service, session⟩
  refine ⟨quiet_run sql bindings (service, session), ?_⟩
  cases hpinned : session.pinned with
  | some c =>
    rw [run_of_pinned sql bindings hpinned]
    refine ⟨_, (c.run_received sql bindings service.memory).1, ?_⟩
    intro s hs
    rw [List.mem_singleton.mp hs]
    simp [holdings, Session.badge?, hpinned, Holdings.Serves, Connection.badge]
  | none =>
    rcases hacquire : service.pool.acquire session.key service.memory with ⟨e | c, pool, memory⟩
    · rw [run_of_refused sql bindings hpinned hacquire]
      refine ⟨[], ?_, by simp⟩
      rw [Service.showing_memory, List.append_nil]
    · rw [run_of_acquired sql bindings hpinned hacquire]
      have hreceived := (c.run_received sql bindings memory).1
      rcases Pool.of_acquire_ok hacquire with ⟨htake, rfl⟩ | ⟨-, -, rfl, rfl⟩
      · refine ⟨_, hreceived, ?_⟩
        intro s hs
        have hidle := (Pool.perm_of_takeFirst? htake).mem_iff.mpr List.mem_cons_self
        rw [List.mem_singleton.mp hs]
        simp only [holdings, Session.badge?, hpinned, Holdings.Serves, Option.map_none]
        refine .inl (List.mem_map.mpr ⟨c.badge session.key, ?_, rfl⟩)
        exact List.mem_map.mpr ⟨(session.key, c), hidle, rfl⟩
      · refine ⟨_, hreceived, ?_⟩
        intro s hs
        rw [List.mem_singleton.mp hs]
        simp only [holdings, Session.badge?, hpinned, Holdings.Serves, Option.map_none]
        exact .inr (Nat.lt_succ_self _)

theorem Plain.served {α : Type} {c : Act α} (hc : Plain c) : Along Served c := by
  refine hc.along ?_ Served.trans served_run ?_
  · intro state
    exact .of_same (.refl state) rfl
  · intro service session snapshots
    exact .of_same ⟨rfl, .refl _ _⟩ rfl

end Act

end BoundSql
