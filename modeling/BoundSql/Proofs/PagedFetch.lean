import BoundSql.Proofs.Sequencing
import BoundSql.Proofs.Trimming
import BoundSql.Proofs.Windows
import BoundSql.Query.Fetch
import BoundSql.Schema.Samples

/-!
# Fetching pages

To fetch a page of a statement takes one statement more, and two where the totals are asked for:
one that counts the rows and one that cuts out the page, both around the same text and with the
same parameters.  What is no page takes none (`Builder.pages_partition_result`).
-/

namespace BoundSql

variable {σ α β : Type}

namespace Run

theorem ofExcept_ok_bind (a : α) (k : α → Run σ β) : (Run.ofExcept (.ok a) >>= k) = k a := rfl

theorem ofExcept_error_bind (e : Fault) (k : α → Run σ β) :
    (Run.ofExcept (.error e) >>= k) = Run.fault e := rfl

end Run

/-- The executor, with a log of the statements that it ran. -/
def Executor.logged (exec : Executor σ) : Executor (σ × List (String × List Binding)) :=
  fun sql bindings (state, log) =>
    let (answer, state) := exec sql bindings state
    (answer, state, log ++ [(sql, bindings)])

theorem Executor.logged_apply (exec : Executor σ) (sql : String) (bindings : List Binding)
    (state : σ) (log : List (String × List Binding)) :
    exec.logged sql bindings (state, log) =
      ((exec sql bindings state).1, (exec sql bindings state).2, log ++ [(sql, bindings)]) := rfl

/-- The number that a count is read as. -/
def decodedCount (rows : RowSet) : Except Fault Nat :=
  ((NativeType.option (.base (.integer .uint64))).decode rows.scalar).map fun count =>
    (count.map (·.toInt.toNat)).getD 0

theorem decodedCount_lt {rows : RowSet} {total : Nat} (h : decodedCount rows = .ok total) :
    total < 2 ^ 64 := by
  unfold decodedCount at h
  rcases hcount : (NativeType.option (.base (.integer .uint64))).decode rows.scalar with e | count
  · rw [hcount] at h
    cases h
  · rw [hcount] at h
    have htotal : (count.map (·.toInt.toNat)).getD 0 = total := Except.ok.inj h
    rw [← htotal]
    cases count with
    | none => decide
    | some n =>
      have hn : n.toInt ≤ 2 ^ 64 - 1 := n.le_greatest
      show n.toInt.toNat < 2 ^ 64
      omega

namespace Builder

variable (b : Builder) (exec : Executor σ) (s : Schema)

/-- The statement whose rows are counted and cut into pages. -/
def pagedSql : String := withOrder b.bodySql b.orderBy

/-- The statement that takes a page. -/
def pageText (size page : Nat) : String := (b.dialect.paging.page size page).text b.pagedSql

/-- That statement is the text of the body without the blanks around it, and behind that, where
there is one, the ordering without the blanks around it. -/
theorem pagedSql_eq :
    b.pagedSql = Text.trim (b.dialect.render b.body) ++
      if Text.trim b.orderBy = "" then "" else " " ++ Text.trim b.orderBy := by
  unfold pagedSql bodySql withOrder
  rw [Text.trim_trim]

theorem countSql_eq : b.countSql = "SELECT COUNT(*) FROM (" ++ b.pagedSql ++ ") T" := rfl

theorem fetchCount_eq :
    b.fetchCount exec = (do
      let rows ← exec b.countSql b.body.bindings
      Run.ofExcept (decodedCount rows)) := by
  unfold fetchCount
  congr 1
  funext rows
  unfold decodedCount
  cases (NativeType.option (.base (.integer .uint64))).decode rows.scalar <;> rfl

variable {page size : Nat}

theorem fetchPage_of_isPage (h : IsPage page size) :
    b.fetchPage exec s page size = (do
      let rows ← exec (b.pageText size page) b.body.bindings
      Run.ofExcept (Entity.ofRows s rows.labeled)) := by
  unfold fetchPage
  rw [checkPage_eq_ok.mpr h, Run.ofExcept_ok_bind, Dialect.pageSql_cases _ _ _ h.1, if_pos h.2.2,
    Run.ofExcept_ok_bind]
  rfl

theorem fetchPaged_of_isPage (h : IsPage page size) :
    b.fetchPaged exec s page size = (do
      let total ← b.fetchCount exec
      let rows ← b.fetchPage exec s page size
      return ⟨rows, total, pageCount total size⟩) := by
  have hsize : ¬ size = 0 := Nat.ne_of_gt h.2.1
  unfold fetchPaged fetchPageCount
  rw [checkPage_eq_ok.mpr h, Run.ofExcept_ok_bind, if_neg hsize, bind_assoc]
  rfl

theorem exists_fetch_fault (h : ¬ IsPage page size) :
    ∃ f, b.fetchPage exec s page size = Run.fault (.page f) ∧
      b.fetchPaged exec s page size = Run.fault (.page f) := by
  obtain ⟨f, hf⟩ := exists_checkPage_error h
  refine ⟨f, ?_, ?_⟩
  · unfold fetchPage
    rw [hf, Run.ofExcept_error_bind]
  · unfold fetchPaged
    rw [hf, Run.ofExcept_error_bind]

/-! ### Statements run -/

variable (state : σ) (log : List (String × List Binding))

theorem fetchPage_logged (h : IsPage page size) :
    (b.fetchPage exec.logged s page size) (state, log) =
      (((exec (b.pageText size page) b.body.bindings state).1.bind fun rows =>
          Entity.ofRows s rows.labeled),
        (exec (b.pageText size page) b.body.bindings state).2,
        log ++ [(b.pageText size page, b.body.bindings)]) := by
  rw [fetchPage_of_isPage b _ s h, bind_apply, Executor.logged_apply]
  cases (exec (b.pageText size page) b.body.bindings state).1 <;> rfl

/-- What is run to fetch a page with its totals, where the rows can be counted. -/
theorem fetchPaged_logged (h : IsPage page size) {counted : RowSet} {after : σ} {total : Nat}
    (hcount : exec b.countSql b.body.bindings state = (.ok counted, after))
    (htotal : decodedCount counted = .ok total) :
    (b.fetchPaged exec.logged s page size) (state, log) =
      (((exec (b.pageText size page) b.body.bindings after).1.bind fun rows =>
          (Entity.ofRows s rows.labeled).map (⟨·, total, pageCount total size⟩)),
        (exec (b.pageText size page) b.body.bindings after).2,
        log ++ [(b.countSql, b.body.bindings), (b.pageText size page, b.body.bindings)]) := by
  have hfetchCount : (b.fetchCount exec.logged) (state, log) =
      (.ok total, after, log ++ [(b.countSql, b.body.bindings)]) := by
    rw [fetchCount_eq, bind_apply, Executor.logged_apply, hcount]
    dsimp only
    rw [htotal]
    rfl
  rw [fetchPaged_of_isPage b _ s h, bind_apply, hfetchCount]
  dsimp only
  rw [bind_apply, fetchPage_logged b exec s after _ h, List.append_assoc]
  rcases (exec (b.pageText size page) b.body.bindings after).1 with e | rows
  · rfl
  · rw [Except.bind, Except.bind]
    cases Entity.ofRows s rows.labeled <;> rfl

/-- Whichever clause cuts pages, page `page` exists if its end is a number, and takes the rows from
`size * (page - 1)` on and before `size * page` of the statement with its ordering behind it.  The
next page starts where it ends, and the pages up to the last one have all rows of the result once.
Fetching a page dispatches nothing where there is no such page, and else the count and the page of
one statement, with the same parameters. -/
theorem pages_partition_result :
    (∀ (d : Dialect) (sql order : String) (page size : Nat), 0 < page → 0 < size →
      d.pageSql sql order size page =
        if size * page < 2 ^ 64 then
          .ok ((d.paging.page size page).text (Text.trim sql ++
            if Text.trim order = "" then "" else " " ++ Text.trim order))
        else .error (.page (.outOfRange page size))) ∧
    (∀ first size : Nat,
      Dialect.sqlite.paging.clause first (first + size) = .limitOffset size first ∧
      Dialect.mysql.paging.clause first (first + size) = .limitPair first size ∧
      Dialect.postgresql.paging.clause first (first + size) = .derivedTable size first ∧
      Dialect.oracle.paging.clause first (first + size) = .rowNumber (first + size) first ∧
      Dialect.bracket.paging.clause first (first + size) = .rowNumber (first + size) first) ∧
    (∀ (p : Paging) (page size : Nat), size * page < 2 ^ 64 →
      ∀ n ∈ (p.page size page).numbers, n < 2 ^ 64) ∧
    (∀ {α : Type} (p : Paging) (all : List α) (page size : Nat),
      (p.page size page).rows all = all.extract (size * (page - 1)) (size * page) ∧
      (p.page size page).rows all ++ (p.page size (page + 1)).rows all =
        all.extract (size * (page - 1)) (size * (page + 1)) ∧
      ∀ index, ¬ (OnPage size page index ∧ OnPage size (page + 1) index)) ∧
    (∀ total size : Nat, 0 < size → 0 < total → total < 2 ^ 64 →
      pageCount total size = (total - 1) / size + 1 ∧ pageCount total size < 2 ^ 64 ∧
      (∀ index < total,
        ∃! page, (0 < page ∧ page ≤ pageCount total size) ∧ OnPage size page index) ∧
      ∀ page, 0 < page → page ≤ pageCount total size → ∃ index < total, OnPage size page index) ∧
    ∀ (page size : Nat) (state : σ) (log : List (String × List Binding)),
      let ordered := Text.trim (b.dialect.render b.body) ++
        if Text.trim b.orderBy = "" then "" else " " ++ Text.trim b.orderBy
      let counting := "SELECT COUNT(*) FROM (" ++ ordered ++ ") T"
      let paging := (b.dialect.paging.page size page).text ordered
      let params := b.body.bindings
      (¬ IsPage page size → ∃ f,
        (b.fetchPage exec.logged s page size) (state, log) = (.error (.page f), state, log) ∧
        (b.fetchPaged exec.logged s page size) (state, log) = (.error (.page f), state, log)) ∧
      (IsPage page size →
        (b.fetchPage exec.logged s page size) (state, log) =
          (((exec paging params state).1.bind fun rows => Entity.ofRows s rows.labeled),
            (exec paging params state).2, log ++ [(paging, params)]) ∧
        ∀ (counted : RowSet) (after : σ) (total : Nat),
          exec counting params state = (.ok counted, after) → decodedCount counted = .ok total →
          total < 2 ^ 64 ∧
          (b.fetchPaged exec.logged s page size) (state, log) =
            (((exec paging params after).1.bind fun rows =>
                (Entity.ofRows s rows.labeled).map (⟨·, total, pageCount total size⟩)),
              (exec paging params after).2, log ++ [(counting, params), (paging, params)])) := by
  refine ⟨?_, ?_, ?_, ?_, ?_, ?_⟩
  · intro d sql order page size hpage _
    exact d.pageSql_cases sql order hpage
  · intro first size
    have hsize : first + size - first = size := Nat.add_sub_cancel_left first size
    simp only [Dialect.sqlite, Dialect.mysql, Dialect.postgresql, Dialect.oracle, Dialect.bracket,
      Paging.clause, hsize, and_self]
  · intro p page size h
    exact p.numbers_page_lt h
  · intro α p all page size
    refine ⟨p.rows_page all size page, p.rows_page_append all size page, ?_⟩
    rintro index ⟨⟨-, hbefore⟩, hfrom, -⟩
    exact Nat.not_lt.mpr hfrom hbefore
  · intro total size hsize htotal hlimit
    refine ⟨rfl, pageCount_lt hlimit, ?_, ?_⟩
    · intro index hindex
      exact exists_unique_page hsize hindex
    · intro page hpage hlast
      exact exists_onPage hsize htotal hpage hlast
  · intro page size state log ordered counting paging params
    have hcounting : b.countSql = counting := by rw [countSql_eq, pagedSql_eq]
    have hpaging : b.pageText size page = paging := by rw [pageText, pagedSql_eq]
    constructor
    · intro h
      obtain ⟨f, hpage, hpaged⟩ := b.exists_fetch_fault exec.logged s h
      rw [hpage, hpaged]
      exact ⟨f, rfl, rfl⟩
    · intro h
      rw [← hcounting, ← hpaging]
      refine ⟨fetchPage_logged b exec s state log h, ?_⟩
      intro counted after total hcount htotal
      exact ⟨decodedCount_lt htotal, fetchPaged_logged b exec s state log h hcount htotal⟩

/-- Orders with a note, the latest first. -/
def latestGifts : Builder :=
  let operations : Building Unit := do
    Building.append "AND o.note = :note" (.positional [.value (.varchar "gift")])
    Building.orderBy .descending (.member ⟨"created", "created", "orders"⟩ none)
  (operations ((new .oracle).select Schema.order "o")).2

/-- The second page of three rows, where there are seven. -/
theorem pages_partition_result_second :
    let counted : RowSet := .single (.scalar (.integer .int64 ⟨7, by decide, by decide⟩))
    let exec : Executor Unit := fun _ _ => pure counted
    let ordered :=
      "SELECT o.\"id\", o.\"status\", o.\"customer_name\", o.\"amount\", o.\"note\"," ++
        " o.\"created\" FROM \"orders\" o WHERE 1=1 AND o.note = :note ORDER BY o.\"created\" DESC"
    let params : List Binding := [⟨"note", .varchar "gift"⟩]
    IsPage 2 3 ∧ decodedCount counted = .ok 7 ∧ pageCount 7 3 = 3 ∧
      ((latestGifts.fetchPaged exec.logged Schema.order 2 3) ((), [])).2.2 =
        [("SELECT COUNT(*) FROM (" ++ ordered ++ ") T", params),
          ("SELECT * FROM (SELECT row_limit.*, ROWNUM rownum_ FROM (" ++ ordered ++
            ") row_limit WHERE ROWNUM <= 6) WHERE rownum_ > 3", params)] := by
  intro counted exec ordered params
  have hpage : IsPage 2 3 := ⟨by decide, by decide, by decide⟩
  have hdecoded : decodedCount counted = .ok 7 := rfl
  have hordered : Text.trim (latestGifts.dialect.render latestGifts.body) ++
      (if Text.trim latestGifts.orderBy = "" then "" else " " ++ Text.trim latestGifts.orderBy) =
        ordered := by
    decide +kernel
  have hparams : latestGifts.body.bindings = params := by decide +kernel
  have hpaging : (latestGifts.dialect.paging.page 3 2).text ordered =
      "SELECT * FROM (SELECT row_limit.*, ROWNUM rownum_ FROM (" ++ ordered ++
        ") row_limit WHERE ROWNUM <= 6) WHERE rownum_ > 3" := by
    decide +kernel
  obtain ⟨-, hfetch⟩ := (((pages_partition_result latestGifts exec Schema.order).2.2.2.2.2
    2 3 () []).2 hpage).2 counted () 7 rfl hdecoded
  rw [hordered, hparams, hpaging] at hfetch
  refine ⟨hpage, hdecoded, rfl, ?_⟩
  rw [hfetch]
  rfl

end Builder

end BoundSql
