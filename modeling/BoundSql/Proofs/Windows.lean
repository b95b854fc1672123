import BoundSql.Dialect.Basic
import Mathlib.Algebra.Ring.Nat
import Mathlib.Logic.ExistsUnique

/-!
# Pages as windows of rows

Databases cut a page out of a statement by a limit and an offset, or by filters on the numbers of
the rows.  A clause of either kind is some text around the statement, and takes some of its rows
(`PageClause.rows`).  Whichever a dialect uses, the page takes the rows from `size * (page - 1)` on
and before `size * page` (`Dialect.pageSql_cases`), and the pages up to the last one are a partition
of all rows (`exists_unique_page`).
-/

namespace BoundSql

/-! ### Clauses -/

/-- What is written around a statement to cut a page out of it, with the numbers written. -/
inductive PageClause where
  | limitOffset (size offset : Nat)
  | limitPair (offset size : Nat)
  | derivedTable (size offset : Nat)
  | rowNumber (last first : Nat)
  deriving DecidableEq, Repr

namespace PageClause

open Numeric

/-- The statement with the clause around it. -/
def text (sql : String) : PageClause → String
  | limitOffset size offset => sql ++ " LIMIT " ++ natText size ++ " OFFSET " ++ natText offset
  | limitPair offset size => sql ++ " LIMIT " ++ natText offset ++ ", " ++ natText size
  | derivedTable size offset =>
    "SELECT * FROM (" ++ sql ++ ") row_limit LIMIT " ++ natText size ++ " OFFSET " ++
      natText offset
  | rowNumber last first =>
    "SELECT * FROM (SELECT row_limit.*, ROWNUM rownum_ FROM (" ++ sql ++
      ") row_limit WHERE ROWNUM <= " ++ natText last ++ ") WHERE rownum_ > " ++ natText first

/-- The numbers in the clause. -/
def numbers : PageClause → List Nat
  | limitOffset size offset | limitPair offset size | derivedTable size offset => [size, offset]
  | rowNumber last first => [last, first]

variable {α : Type}

/-- `WHERE ROWNUM <= last`: the rows that pass, with their numbers.  The next row to be looked at
gets the number `n`, which is used up only if the row passes. -/
def passing (last : Nat) : Nat → List α → List (α × Nat)
  | _, [] => []
  | n, row :: rows =>
    if n ≤ last then (row, n) :: passing last (n + 1) rows else passing last n rows

/-- The rows that are left of those of the statement. -/
def rows (all : List α) : PageClause → List α
  | limitOffset size offset | limitPair offset size | derivedTable size offset =>
    (all.drop offset).take size
  | rowNumber last first => ((passing last 1 all).filter (first < ·.2)).map (·.1)

theorem passing_eq (last n : Nat) (all : List α) :
    passing last n all = (all.take (last + 1 - n)).zipIdx n := by
  induction all generalizing n with
  | nil => simp [passing]
  | cons row all ih =>
    rw [passing]
    split
    · next hn =>
      obtain ⟨k, hk⟩ : ∃ k, last + 1 - n = k + 1 := ⟨last - n, by omega⟩
      have hrest : last + 1 - (n + 1) = k := by omega
      rw [ih, hk, hrest]
      rfl
    · next hn =>
      have hnone : last + 1 - n = 0 := by omega
      rw [ih, hnone]
      rfl

theorem map_filter_zipIdx (first n : Nat) (all : List α) :
    ((all.zipIdx n).filter (first < ·.2)).map (·.1) = all.drop (first + 1 - n) := by
  induction all generalizing n with
  | nil => simp
  | cons row all ih =>
    rw [List.zipIdx_cons]
    by_cases hn : first < n
    · have hall : first + 1 - n = 0 := by omega
      have hrest : first + 1 - (n + 1) = 0 := by omega
      rw [List.filter_cons_of_pos (by simpa using hn), List.map_cons, ih, hall, hrest]
      rfl
    · obtain ⟨k, hk⟩ : ∃ k, first + 1 - n = k + 1 := ⟨first - n, by omega⟩
      have hrest : first + 1 - (n + 1) = k := by omega
      rw [List.filter_cons_of_neg (by simpa using hn), ih, hk, hrest]
      rfl

end PageClause

/-- The clause by which a database cuts out the rows from `first` to before `last`. -/
def Paging.clause (p : Paging) (first last : Nat) : PageClause :=
  match p with
  | limitOffset => .limitOffset (last - first) first
  | limitPair => .limitPair first (last - first)
  | derivedTable => .derivedTable (last - first) first
  | rowNumber => .rowNumber last first

namespace Paging

variable (p : Paging) (first last : Nat)

theorem cut_eq (sql : String) : p.cut sql first last = (p.clause first last).text sql := by
  cases p <;> rfl

theorem rows_clause {α : Type} (all : List α) :
    (p.clause first last).rows all = all.extract first last := by
  rw [List.extract_eq_take_drop]
  cases p with
  | rowNumber =>
    -- the only clause with two filters: the one on the row numbers cuts off the end, the other
    -- one the start
    show ((PageClause.passing last 1 all).filter (first < ·.2)).map (·.1) = _
    rw [PageClause.passing_eq, PageClause.map_filter_zipIdx, Nat.add_sub_cancel,
      Nat.add_sub_cancel, List.drop_take]
  | _ => rfl

theorem numbers_clause (h : first ≤ last) : ∀ n ∈ (p.clause first last).numbers, n ≤ last := by
  intro n hn
  cases p with
  | rowNumber =>
    rcases List.mem_cons.mp hn with rfl | hn
    · exact Nat.le_refl _
    · rw [List.mem_singleton.mp hn]
      exact h
  | _ =>
    rcases List.mem_cons.mp hn with rfl | hn
    · exact Nat.sub_le _ _
    · rw [List.mem_singleton.mp hn]
      exact h

/-- The clause of page `page`, where pages of `size` rows are counted from one. -/
def page (size page : Nat) : PageClause := p.clause (size * (page - 1)) (size * page)

variable {α : Type} (all : List α) (size page : Nat)

theorem rows_page : (p.page size page).rows all = all.extract (size * (page - 1)) (size * page) :=
  p.rows_clause _ _ all

/-- A page ends where the next one starts. -/
theorem rows_page_append :
    (p.page size page).rows all ++ (p.page size (page + 1)).rows all =
      all.extract (size * (page - 1)) (size * (page + 1)) := by
  have hfirst : size * (page - 1) ≤ size * page := Nat.mul_le_mul_left size (Nat.sub_le page 1)
  have hnext : size * page ≤ size * (page + 1) := Nat.mul_le_mul_left size (Nat.le_succ page)
  rw [rows_page, rows_page, Nat.add_sub_cancel]
  simp only [List.extract_eq_take_drop]
  have hlength : size * (page + 1) - size * (page - 1) =
      (size * page - size * (page - 1)) + (size * (page + 1) - size * page) := by
    omega
  rw [hlength, List.take_add, List.drop_drop]
  congr 3
  omega

theorem numbers_page_lt {size page : Nat} (h : size * page < 2 ^ 64) :
    ∀ n ∈ (p.page size page).numbers, n < 2 ^ 64 := by
  intro n hn
  have hfirst : size * (page - 1) ≤ size * page := Nat.mul_le_mul_left size (Nat.sub_le page 1)
  exact Nat.lt_of_le_of_lt (p.numbers_clause _ _ hfirst n hn) h

end Paging

/-! ### Bounds -/

theorem pageBounds_eq {size page : Nat} (hpage : 0 < page) :
    pageBounds size page =
      if size * page < 2 ^ 64 then .ok (size * (page - 1), size * page)
      else .error (.page (.outOfRange page size)) := by
  obtain ⟨p, rfl⟩ : ∃ p, page = p + 1 := ⟨page - 1, by omega⟩
  have hlast : size * (p + 1 - 1) + size = size * (p + 1) := (Nat.mul_succ size p).symm
  show (if size * (p + 1 - 1) + size < 2 ^ 64 then _ else _) = _
  rw [hlast]

/-- The page is cut out by the clause of the dialect, unless its end is out of range. -/
theorem Dialect.pageSql_cases (d : Dialect) (sql order : String) {size page : Nat}
    (hpage : 0 < page) :
    d.pageSql sql order size page =
      if size * page < 2 ^ 64 then
        .ok ((d.paging.page size page).text (withOrder sql order))
      else .error (.page (.outOfRange page size)) := by
  unfold pageSql
  rw [pageBounds_eq hpage]
  split
  · rw [Paging.page, ← Paging.cut_eq]
    rfl
  · rfl

/-- Pages start at one, have rows, and end within range. -/
def IsPage (page size : Nat) : Prop := 0 < page ∧ 0 < size ∧ size * page < 2 ^ 64

theorem checkPage_eq_ok {page size : Nat} : checkPage page size = .ok () ↔ IsPage page size := by
  unfold checkPage
  by_cases hzero : page = 0 ∨ size = 0
  · rw [if_pos hzero]
    constructor
    · intro h
      cases h
    · rintro ⟨hpage, hsize, -⟩
      omega
  · rw [not_or] at hzero
    have hpage : 0 < page := Nat.pos_of_ne_zero hzero.1
    have hsize : 0 < size := Nat.pos_of_ne_zero hzero.2
    rw [if_neg (by omega), pageBounds_eq hpage]
    by_cases hlimit : size * page < 2 ^ 64
    · rw [if_pos hlimit]
      exact ⟨fun _ => ⟨hpage, hsize, hlimit⟩, fun _ => rfl⟩
    · rw [if_neg hlimit]
      constructor
      · intro h
        cases h
      · rintro ⟨-, -, h⟩
        exact absurd h hlimit

theorem exists_checkPage_error {page size : Nat} (h : ¬ IsPage page size) :
    ∃ f, checkPage page size = .error (.page f) := by
  rw [← checkPage_eq_ok] at h
  unfold checkPage at h ⊢
  split
  · exact ⟨_, rfl⟩
  · next hzero =>
    rw [if_neg hzero] at h
    unfold pageBounds at h ⊢
    dsimp only at h ⊢
    split
    · next hlimit =>
      rw [if_pos hlimit] at h
      exact absurd rfl h
    · exact ⟨_, rfl⟩

/-! ### Partition -/

/-- The row with an index is on a page. -/
def OnPage (size page index : Nat) : Prop := size * (page - 1) ≤ index ∧ index < size * page

theorem onPage_iff {size page index : Nat} (hsize : 0 < size) (hpage : 0 < page) :
    OnPage size page index ↔ page = index / size + 1 := by
  obtain ⟨p, rfl⟩ : ∃ p, page = p + 1 := ⟨page - 1, by omega⟩
  have hfirst : p ≤ index / size ↔ p * size ≤ index := Nat.le_div_iff_mul_le hsize
  have hlast : index / size < p + 1 ↔ index < (p + 1) * size := Nat.div_lt_iff_lt_mul hsize
  unfold OnPage
  rw [Nat.add_sub_cancel, Nat.mul_comm size p, Nat.mul_comm size (p + 1), ← hfirst, ← hlast]
  omega

theorem pageCount_lt {total size : Nat} (htotal : total < 2 ^ 64) :
    pageCount total size < 2 ^ 64 := by
  have hdiv : (total - 1) / size ≤ total - 1 := Nat.div_le_self _ _
  unfold pageCount
  omega

/-- Each row is on one page, which is none beyond the last. -/
theorem exists_unique_page {total size index : Nat} (hsize : 0 < size) (hindex : index < total) :
    ∃! page, (0 < page ∧ page ≤ pageCount total size) ∧ OnPage size page index := by
  have hlast : index / size ≤ (total - 1) / size := Nat.div_le_div_right (by omega)
  refine ⟨index / size + 1, ⟨⟨Nat.succ_pos _, ?_⟩, ?_⟩, ?_⟩
  · exact Nat.succ_le_succ hlast
  · exact (onPage_iff hsize (Nat.succ_pos _)).mpr rfl
  · rintro page ⟨⟨hpage, -⟩, hon⟩
    exact (onPage_iff hsize hpage).mp hon

/-- No page up to the last one is empty. -/
theorem exists_onPage {total size page : Nat} (hsize : 0 < size) (htotal : 0 < total)
    (hpage : 0 < page) (hlast : page ≤ pageCount total size) :
    ∃ index < total, OnPage size page index := by
  have hbefore : page - 1 ≤ (total - 1) / size := by
    unfold pageCount at hlast
    omega
  have hfirst : (page - 1) * size ≤ total - 1 := (Nat.le_div_iff_mul_le hsize).mp hbefore
  refine ⟨(page - 1) * size, by omega, ?_⟩
  rw [onPage_iff hsize hpage, Nat.mul_div_cancel _ hsize]
  omega

end BoundSql
