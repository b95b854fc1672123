import BoundSql.Proofs.Sequencing
import BoundSql.Session.Tracking

/-!
# What runs statements and nothing else

Apart from beginning and ending transactions, everything that can be asked of a session runs
statements one after the other and may change which rows the session remembers.  `Act.Plain` says
so of a computation by the way it is put together.  A relation between the states before and after
that composes, and that a single statement keeps, is therefore kept by all of them
(`Act.Plain.along`), and no proof about sessions goes through their operations again.
-/

namespace BoundSql

namespace Act

/-- Computations that are put together from statements and from changes to the rows remembered. -/
inductive Plain : {α : Type} → Act α → Prop where
  | pure {α : Type} (a : α) : Plain (pure a)
  | ofExcept {α : Type} (r : Except Fault α) : Plain (Run.ofExcept r)
  | get : Plain (get : Act (Service × Session))
  | run (sql : String) (bindings : List Binding) : Plain (run sql bindings)
  | track (f : Session → Session)
    (hf : ∀ session, ∃ snapshots, f session = { session with snapshots }) :
    Plain (modifySession f)
  | bind {α β : Type} {c : Act α} {k : α → Act β} (hc : Plain c) (hk : ∀ a, Plain (k a)) :
    Plain (c >>= k)

theorem Plain.along {T : Service × Session → Service × Session → Prop} {α : Type} {c : Act α}
    (hc : Plain c) (hrefl : ∀ s, T s s) (htrans : ∀ {s t u}, T s t → T t u → T s u)
    (hrun : ∀ sql bindings, Along T (Act.run sql bindings))
    (htrack : ∀ service session snapshots,
      T (service, session) (service, { session with snapshots })) :
    Along T c := by
  induction hc with
  | pure a => exact hrefl
  | ofExcept r => exact hrefl
  | get => exact hrefl
  | run sql bindings => exact hrun sql bindings
  | track f hf =>
    rintro ⟨service, session⟩
    obtain ⟨snapshots, hsame⟩ := hf session
    show T (service, session) (service, f session)
    rw [hsame]
    exact htrack service session snapshots
  | bind _ _ ihc ihk => exact Along.bind htrans ihc ihk

theorem plain_fault {α : Type} (e : Fault) : Plain (Run.fault (α := α) e) := .ofExcept (.error e)

/-! ### Statements and entities -/

theorem plain_runFragment (f : Fragment) : Plain (runFragment f) := .bind .get fun _ => .run _ _

theorem plain_queryList (s : Schema) (f : Fragment) : Plain (queryList s f) :=
  .bind (plain_runFragment f) fun _ => .ofExcept _

theorem plain_queryOne (s : Schema) (f : Fragment) : Plain (queryOne s f) :=
  .bind (plain_runFragment f) fun _ => .ofExcept _

theorem plain_queryScalar (t : NativeType) (f : Fragment) : Plain (queryScalar t f) :=
  .bind (plain_runFragment f) fun _ => .ofExcept _

theorem plain_execute (f : Fragment) : Plain (execute f) :=
  .bind (plain_runFragment f) fun _ => .pure _

theorem plain_queryNextId (s : Schema) : Plain (queryNextId s) := by
  refine .bind (.ofExcept _) fun key => .bind .get fun _ => ?_
  refine .bind (.run _ _) fun rows => ?_
  exact .bind (.ofExcept _) fun _ => .pure _

theorem plain_insertBatch (s : Schema) (entities : List (Entity s)) :
    Plain (insertBatch s entities) :=
  .bind .get fun _ => plain_execute _

theorem plain_insertBatches (s : Schema) (sum : Affected) (batches : List (List (Entity s))) :
    Plain (insertBatches s sum batches) := by
  induction batches generalizing sum with
  | nil => exact .pure _
  | cons batch batches ih => exact .bind (plain_insertBatch s batch) fun affected => ih _

theorem plain_insertMany (s : Schema) (entities : List (Entity s)) :
    Plain (insertMany s entities) :=
  .bind .get fun _ => plain_insertBatches s _ _

theorem plain_attachOld (s : Schema) (e : Entity s) : Plain (attachOld s e) :=
  .track _ fun _ => ⟨_, rfl⟩

theorem plain_update (s : Schema) (e : Entity s) : Plain (update s e) := by
  refine .bind (.ofExcept _) fun _ => .bind .get ?_
  rintro ⟨service, session⟩
  dsimp only
  split
  · exact .pure _
  · refine .bind (.ofExcept _) fun _ => .bind (plain_execute _) fun _ => ?_
    refine .bind (.track _ ?_) fun _ => .pure _
    intro session
    split
    · exact ⟨_, rfl⟩
    · exact ⟨session.snapshots, rfl⟩

theorem plain_deleteById (s : Schema) (id : Value) : Plain (deleteById s id) := by
  refine .bind .get fun _ => .bind (.ofExcept _) fun _ => .bind (plain_execute _) fun _ => ?_
  exact .bind (.track _ fun _ => ⟨_, rfl⟩) fun _ => .pure _

/-! ### Asking for the rows of a statement -/

variable (b : Builder)

theorem plain_fetchRows : Plain (b.fetchRows run) := .run _ _

theorem plain_fetchScalar (t : NativeType) : Plain (b.fetchScalar run t) :=
  .bind (plain_fetchRows b) fun _ => .ofExcept _

theorem plain_fetchExists : Plain (b.fetchExists run) :=
  .bind (plain_fetchRows b) fun _ => .pure _

theorem plain_fetchCount : Plain (b.fetchCount run) :=
  .bind (.run _ _) fun _ => .bind (.ofExcept _) fun _ => .pure _

theorem plain_fetchPageCount (size : Nat) : Plain (b.fetchPageCount run size) := by
  unfold Builder.fetchPageCount
  split
  · exact plain_fault _
  · exact .bind (plain_fetchCount b) fun _ => .pure _

theorem plain_executeBuilder : Plain (b.execute run) :=
  .bind (plain_fetchRows b) fun _ => .pure _

theorem plain_fetchList (s : Schema) : Plain (b.fetchList run s) :=
  .bind (plain_fetchRows b) fun _ => .ofExcept _

theorem plain_fetchOne (s : Schema) : Plain (b.fetchOne run s) :=
  .bind (plain_fetchRows b) fun _ => .ofExcept _

theorem plain_fetchPage (s : Schema) (page size : Nat) : Plain (b.fetchPage run s page size) := by
  refine .bind (.ofExcept _) fun _ => .bind (.ofExcept _) fun _ => ?_
  exact .bind (.run _ _) fun _ => .ofExcept _

theorem plain_fetchPaged (s : Schema) (page size : Nat) : Plain (b.fetchPaged run s page size) := by
  refine .bind (.ofExcept _) fun _ => .bind (plain_fetchPageCount b size) fun _ => ?_
  exact .bind (plain_fetchPage b s page size) fun _ => .pure _

theorem plain_deleteRows (s : Schema) : Plain (b.delete run s) := by
  unfold Builder.delete
  split
  · exact plain_fault _
  · exact .bind (.run _ _) fun _ => .pure _

theorem plain_findById (s : Schema) (id : Value) : Plain (findById s id) := by
  refine .bind (.ofExcept _) fun _ => .bind .get fun _ => ?_
  exact .bind (.ofExcept _) fun _ => plain_fetchOne _ s

end Act

end BoundSql
