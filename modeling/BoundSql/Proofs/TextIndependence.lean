import BoundSql.Proofs.AlikeStatement
import BoundSql.Proofs.Encoding
import BoundSql.Schema.Samples
import BoundSql.Schema.Write

/-!
# The text of a statement does not depend on the values it binds

The values of a column have one type name whatever entity they are of, so that writers bind them to
the same markers.  With the runs of operations that are alike this is the whole of what puts
statements together: their text, their tokens and the names of their parameters are the same
whatever the values (`Dialect.text_independent_of_values`).
-/

namespace BoundSql

variable {d : Dialect}

/-! ### Values of entities -/

theorem Record.sameMarker_encode {ts : List NativeType} (r r' : Record ts) :
    List.Forall₂ d.SameMarker r.encode r'.encode := by
  induction ts with
  | nil => exact .nil
  | cons t ts ih =>
    refine .cons ?_ (ih r.2 r'.2)
    intro _
    rw [NativeType.type_name_encode, NativeType.type_name_encode]

/-- A column or a field and values of the same marker. -/
structure Dialect.SameCell {κ : Type} (d : Dialect) (x y : κ × Value) : Prop where
  key : x.1 = y.1
  value : d.SameMarker x.2 y.2

namespace Entity

variable {s : Schema}

theorem sameMarker_row (e e' : Entity s) : List.Forall₂ d.SameMarker e.row e'.row :=
  Record.sameMarker_encode e.stored e'.stored

theorem sameCell_cells (e e' : Entity s) : List.Forall₂ d.SameCell e.cells e'.cells := by
  have hzip : ∀ {vs ws : List Value}, List.Forall₂ d.SameMarker vs ws → ∀ columns : List Column,
      List.Forall₂ d.SameCell (columns.zip vs) (columns.zip ws) := by
    intro vs ws h
    induction h with
    | nil =>
      intro columns
      rw [List.zip_nil_right]
      exact .nil
    | cons hv _ ih =>
      intro columns
      cases columns with
      | nil => exact .nil
      | cons c columns => exact .cons ⟨rfl, hv⟩ (ih columns)
  exact hzip (e.sameMarker_row e') s.columns

theorem sameMarker_key (e e' : Entity s) : d.SameMarker e.key e'.key := by
  have hfind : ∀ {xs ys : List (Column × Value)}, List.Forall₂ d.SameCell xs ys →
      d.SameMarker (((xs.find? (·.1.primaryKey)).map (·.2)).getD .unknown)
        (((ys.find? (·.1.primaryKey)).map (·.2)).getD .unknown) := by
    intro xs ys h
    induction h with
    | nil => exact fun _ => rfl
    | cons hx _ ih =>
      rw [List.find?_cons, List.find?_cons, hx.key]
      split
      · exact hx.value
      · exact ih
  exact hfind (e.sameCell_cells e')

end Entity

/-! ### Writers -/

namespace Schema

variable (s : Schema)

theorem insertedCells_alike (generated : Bool) (e e' : Entity s) :
    List.Forall₂ d.SameCell (s.insertedCells generated e) (s.insertedCells generated e') := by
  unfold insertedCells
  rw [List.forall₂_map_left_iff, List.forall₂_map_right_iff]
  have hkept : ∀ x y : Column × Value, d.SameCell x y →
      ((!s.isGenerated generated x.1) = true ↔ (!s.isGenerated generated y.1) = true) := by
    intro x y hxy
    rw [hxy.key]
  apply (List.rel_filter hkept (e.sameCell_cells e')).imp
  intro x y hxy
  exact ⟨congrArg Column.field hxy.key, hxy.value⟩

theorem tupleOf_alike (names : Names) {xs ys : List (String × Value)}
    (h : List.Forall₂ d.SameCell xs ys) :
    (tupleOf names xs).2 = (tupleOf names ys).2 ∧
      (tupleOf names xs).1.1 = (tupleOf names ys).1.1 ∧
      List.Forall₂ (Binding.Alike d) (tupleOf names xs).1.2 (tupleOf names ys).1.2 := by
  induction h generalizing names with
  | nil => exact ⟨rfl, rfl, .nil⟩
  | @cons x y xs ys hx hxs ih =>
    obtain ⟨field, v⟩ := x
    obtain ⟨field', w⟩ := y
    obtain rfl : field = field' := hx.key
    obtain ⟨hnames, htokens, hbindings⟩ := ih (names.claim field).2
    have hempty : xs.isEmpty = ys.isEmpty := by cases hxs <;> rfl
    refine ⟨hnames, ?_, .cons ⟨rfl, hx.value⟩ hbindings⟩
    simp only [tupleOf, hempty, htokens]

theorem tuplesOf_alike (names : Names) {xs ys : List (List (String × Value))}
    (h : List.Forall₂ (List.Forall₂ d.SameCell) xs ys) :
    (tuplesOf names xs).2 = (tuplesOf names ys).2 ∧
      (tuplesOf names xs).1.1 = (tuplesOf names ys).1.1 ∧
      List.Forall₂ (Binding.Alike d) (tuplesOf names xs).1.2 (tuplesOf names ys).1.2 := by
  induction h generalizing names with
  | nil => exact ⟨rfl, rfl, .nil⟩
  | @cons x y xs ys hx hxs ih =>
    obtain ⟨hnames, htokens, hbindings⟩ := tupleOf_alike names hx
    obtain ⟨hmore, hrest, hothers⟩ := ih (tupleOf names y).2
    have hempty : xs.isEmpty = ys.isEmpty := by cases hxs <;> rfl
    simp only [tuplesOf, hnames, htokens, hempty]
    exact ⟨hmore, by rw [hrest], List.rel_append hbindings hothers⟩

/-- Entities in the same number are inserted by the same text. -/
theorem insert_alike (d : Dialect) (generated : Bool) {es es' : List (Entity s)}
    (h : es.length = es'.length) :
    (s.insert d es generated).Alike d (s.insert d es' generated) := by
  have hcells : List.Forall₂ (List.Forall₂ d.SameCell) (es.map (s.insertedCells generated))
      (es'.map (s.insertedCells generated)) := by
    rw [List.forall₂_map_left_iff, List.forall₂_map_right_iff]
    refine List.forall₂_iff_zip.mpr ⟨h, ?_⟩
    intro e e' _
    exact s.insertedCells_alike generated e e'
  obtain ⟨-, htokens, hbindings⟩ := tuplesOf_alike .none hcells
  refine ⟨?_, hbindings⟩
  simp only [insert, htokens]

theorem keyFilter_alike (d : Dialect) (names : Names) (key : Column) {v w : Value}
    (h : d.SameMarker v w) : (keyFilter d names key v).Alike d (keyFilter d names key w) :=
  (Fragment.alike_text _).append (Fragment.alike_param _ h)

theorem sameMarker_getD {vs ws : List Value} (h : List.Forall₂ d.SameMarker vs ws) (i : Nat) :
    d.SameMarker (vs[i]?.getD .unknown) (ws[i]?.getD .unknown) := by
  induction h generalizing i with
  | nil => exact fun _ => rfl
  | cons hv _ ih =>
    cases i with
    | zero => exact hv
    | succ i => simpa using ih i

theorem sameMarker_set {vs ws : List Value} (h : List.Forall₂ d.SameMarker vs ws) (i : Nat)
    (v : Value) : List.Forall₂ d.SameMarker (vs.set i v) (ws.set i v) := by
  induction h generalizing i with
  | nil => exact .nil
  | cons hv hvs ih =>
    cases i with
    | zero => exact .cons (fun _ => rfl) hvs
    | succ i => exact .cons hv (ih i)

theorem assignments_alike (columns : List Column) {row row' : List Value}
    (h : List.Forall₂ d.SameMarker row row') (names : Names) (first : Bool) (places : List Nat) :
    (assignments d columns row names first places).2 =
        (assignments d columns row' names first places).2 ∧
      (assignments d columns row names first places).1.Alike d
        (assignments d columns row' names first places).1 := by
  induction places generalizing row row' names first with
  | nil => exact ⟨rfl, Fragment.alike_of_unbound⟩
  | cons place places ih =>
    cases hcolumn : columns[place]? with
    | none =>
      simp only [assignments, hcolumn]
      exact ih h names false
    | some c =>
      obtain ⟨hnames, hrest⟩ := ih (sameMarker_set h place .unknown) (names.claim c.field).2 false
      simp only [assignments, hcolumn]
      refine ⟨hnames, ?_⟩
      have hmarker := Fragment.alike_param (names.claim c.field).1 (sameMarker_getD h place)
      exact ((Fragment.alike_text _).append hmarker).append hrest

/-- Entities are updated at the same places by the same text. -/
theorem update_alike (d : Dialect) (e e' : Entity s) (changed : List Nat) :
    SameOutcome (Fragment.Alike d) (s.update d e changed) (s.update d e' changed) := by
  unfold update
  cases s.requireKey with
  | error e => exact .error e e
  | ok key =>
    obtain ⟨hnames, hsets⟩ :=
      assignments_alike (d := d) s.columns (e.sameMarker_row e') .none true changed
    refine .ok ?_
    dsimp only
    rw [hnames]
    exact ((Fragment.alike_text _).append hsets).append
      (keyFilter_alike d _ key (e.sameMarker_key e'))

/-- Keys of one type name delete by the same text. -/
theorem deleteById_alike (d : Dialect) {id id' : Value} (h : d.SameMarker id id') :
    SameOutcome (Fragment.Alike d) (s.deleteById d id) (s.deleteById d id') := by
  unfold deleteById
  cases s.requireKey with
  | error e => exact .error e e
  | ok key => exact .ok ((Fragment.alike_text _).append (keyFilter_alike d .none key h))

end Schema

/-! ### Text -/

/-- Fragments of the same tokens, the same parameters and the same text. -/
structure Fragment.SameText (d : Dialect) (f g : Fragment) : Prop where
  tokens : f.tokens = g.tokens
  names : f.names = g.names
  text : d.render f = d.render g

theorem Fragment.Alike.sameText {f g : Fragment} (h : f.Alike d g) : f.SameText d g :=
  ⟨h.tokens, h.names_eq, h.render_eq⟩

namespace Dialect

/-- The values that are bound never show in the text.  Operations that differ in values of the same
kinds succeed and fail at the same places and make the same text with the same parameters, also as a
part of other statements; so do inserts of as many entities, updates of the same columns, and
deletions by keys of one type name. -/
theorem text_independent_of_values (d : Dialect) :
    (∀ (start : Start) (ops ops' : List Operation), List.Forall₂ (Operation.Alike d) ops ops' →
      let run := Operation.performAll ops (start.builder d)
      let run' := Operation.performAll ops' (start.builder d)
      run.1.map (·.isOk) = run'.1.map (·.isOk) ∧ run.2.names = run'.2.names ∧
        run.2.body.SameText d run'.2.body ∧ run.2.build.SameText d run'.2.build ∧
        run.2.sql = run'.2.sql ∧ run.2.toFragment.Alike d run'.2.toFragment) ∧
    (∀ (s : Schema) (generated : Bool) (es es' : List (Entity s)), es.length = es'.length →
      (s.insert d es generated).SameText d (s.insert d es' generated)) ∧
    (∀ (s : Schema) (changed : List Nat) (e e' : Entity s),
      SameOutcome (Fragment.SameText d) (s.update d e changed) (s.update d e' changed)) ∧
    ∀ (s : Schema) (id id' : Value), d.SameMarker id id' →
      SameOutcome (Fragment.SameText d) (s.deleteById d id) (s.deleteById d id') := by
  refine ⟨?_, ?_, ?_, ?_⟩
  · intro start ops ops' hops
    obtain ⟨hresults, hend⟩ := Operation.alike_performAll hops (Builder.alike_start d start)
    have hbuild := hend.build
    refine ⟨hresults, hend.names_eq.symm, hend.body.sameText, hbuild.sameText, ?_,
      hend.toFragment⟩
    unfold Builder.sql
    rw [hend.dialect_eq, hend.dialect]
    exact hbuild.render_eq
  · intro s generated es es' hlength
    exact (s.insert_alike d generated hlength).sameText
  · intro s changed e e'
    exact (s.update_alike d e e' changed).mono fun _ _ h => h.sameText
  · intro s id id' h
    exact (s.deleteById_alike d h).mono fun _ _ h => h.sameText

/-- A search for the orders of a customer that carry a note. -/
def customerSearch (customer note : String) : List Operation :=
  [.select Schema.order "t",
    .filter (.call .contains (.member ⟨"customer_name", "customer", "orders"⟩ none)
      [.constant (.varchar customer)]),
    .append "AND note = :note" (.positional [.value (.varchar note)])]

/-- A message without a time. -/
def undated : Entity Schema.auditLog := ⟨("a", none, ()), ()⟩

/-- Another message, and its time. -/
def dated : Entity Schema.auditLog := ⟨("b", some BaseType.epoch, ()), ()⟩

theorem text_independent_of_search :
    let run := Operation.performAll (customerSearch "ann" "gift") (Start.blank.builder bracket)
    let run' := Operation.performAll (customerSearch "' OR 1=1 --" ":note")
      (Start.blank.builder bracket)
    List.Forall₂ (Operation.Alike bracket) (customerSearch "ann" "gift")
        (customerSearch "' OR 1=1 --" ":note") ∧
      [undated].length = [dated].length ∧
      bracket.SameMarker (.varchar "a") (.varchar "b") ∧
      run.2.body.SameText bracket run'.2.body ∧ run.2.sql = run'.2.sql ∧
      (Schema.auditLog.insert bracket [undated] true).SameText bracket
        (Schema.auditLog.insert bracket [dated] true) ∧
      SameOutcome (Fragment.SameText bracket) (Schema.order.deleteById bracket (.varchar "a"))
        (Schema.order.deleteById bracket (.varchar "b")) := by
  obtain ⟨hrun, hinsert, -, hdelete⟩ := text_independent_of_values bracket
  have hops : List.Forall₂ (Operation.Alike bracket) (customerSearch "ann" "gift")
      (customerSearch "' OR 1=1 --" ":note") := by
    refine .cons (.select _ _) (.cons (.filter ?_) (.cons (.append _ ?_) .nil))
    · refine .call _ (.member _ _) rfl ?_
      intro p hp
      obtain rfl : p = (.constant (.varchar "ann"), .constant (.varchar "' OR 1=1 --")) := by
        simpa using hp
      exact .constant (.scalar rfl)
    · exact .positional (.cons (.value (.scalar rfl)) .nil)
  have hkeys : bracket.SameMarker (.varchar "a") (.varchar "b") := fun _ => rfl
  obtain ⟨-, -, hbody, -, hsql, -⟩ := hrun .blank _ _ hops
  exact ⟨hops, rfl, hkeys, hbody, hsql, hinsert Schema.auditLog true _ _ rfl,
    hdelete Schema.order _ _ hkeys⟩

end Dialect

end BoundSql
