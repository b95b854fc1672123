import BoundSql.Proofs.LabeledRows
import BoundSql.Proofs.Names
import BoundSql.Schema.Samples

/-!
# Two ways to look up a label

A column can be looked up in a row by its label, which finds the first place with the label
(`LabeledRow.column?`).  An entity that is read from the row has in each field what stands at the
last place with the label of its column.  So the two agree on a row exactly if, for each column, the
values at the first and at the last place decode to the same (`Entity.fields_of_ofRow`), as they do
where no label of a column is repeated.  They do not where a join brings a label again with another
value (`Entity.repeated_label_differs`).
-/

namespace BoundSql

/-! ### First and last places -/

namespace LabeledRow

variable {r : LabeledRow} {label : String} {v w : Value}

theorem mem_pairs_of_last? (h : r.last? label = some v) : (label, v) ∈ r.pairs :=
  List.mem_reverse.mp (mem_of_lookup h)

/-- A label that has a last place has a first one. -/
theorem exists_lookup_of_mem (h : (label, v) ∈ r.pairs) :
    ∃ first, r.pairs.lookup label = some first := by
  rw [← Option.isSome_iff_exists, ← Option.ne_none_iff_isSome, ne_eq, List.lookup_eq_none_iff]
  intro hnone
  simpa using hnone _ h

/-- What is paired with a label first stands at the first place that has the label. -/
theorem column?_of_lookup (h : r.pairs.lookup label = some v) :
    r.column? label = some (some v) := by
  obtain ⟨labels, values⟩ := r
  unfold pairs at h
  unfold column?
  induction labels generalizing values with
  | nil => cases h
  | cons other labels ih =>
    cases values with
    | nil => cases h
    | cons u values =>
      rw [List.zip_cons_cons, List.lookup_cons] at h
      rw [List.findIdx?_cons]
      by_cases hlabel : other = label
      · subst hlabel
        rw [beq_self_eq_true] at h
        rw [if_pos (beq_self_eq_true other), ← Option.some.inj h]
        rfl
      · have hne : (label == other) = false := beq_eq_false_iff_ne.mpr (Ne.symm hlabel)
        rw [hne] at h
        rw [if_neg (by simpa using hlabel), Option.map_map]
        exact ih values h

/-- A label that is not repeated is paired with one value. -/
theorem eq_of_mem_pairs (hcount : r.labels.count label ≤ 1) (hv : (label, v) ∈ r.pairs)
    (hw : (label, w) ∈ r.pairs) : v = w := by
  obtain ⟨labels, values⟩ := r
  unfold pairs at hv hw
  dsimp only at hcount hv hw
  induction labels generalizing values with
  | nil => cases hv
  | cons other labels ih =>
    cases values with
    | nil => cases hv
    | cons u values =>
      rw [List.zip_cons_cons, List.mem_cons] at hv hw
      -- where the label is at this place, it comes no more
      have honce : ∀ {x}, label = other → (label, x) ∉ labels.zip values := by
        rintro x rfl hx
        have hmore := List.one_le_count_iff.mpr (List.of_mem_zip hx).1
        rw [List.count_cons_self] at hcount
        omega
      rcases hv with hv | hv <;> rcases hw with hw | hw
      · rw [(Prod.mk.inj hv).2, (Prod.mk.inj hw).2]
      · exact absurd hw (honce (Prod.mk.inj hv).1)
      · exact absurd hv (honce (Prod.mk.inj hw).1)
      · exact ih values (Nat.le_trans List.count_le_count_cons hcount) hv hw

end LabeledRow

/-! ### Fields -/

namespace Record

variable {P Q : (c : Column) → c.native.Carrier → Prop} {cs : List Column}
  {stored : Record (cs.map (·.native))}

theorem Fields.imp (h : Fields P cs stored) (himp : ∀ c ∈ cs, ∀ x, P c x → Q c x) :
    Fields Q cs stored := by
  induction cs with
  | nil => trivial
  | cons c cs ih =>
    obtain ⟨hfirst, hrest⟩ := h
    exact ⟨himp c List.mem_cons_self _ hfirst,
      ih hrest fun other hother => himp other (List.mem_cons_of_mem _ hother)⟩

theorem Fields.exists_of_mem (hP : Fields P cs stored) (hQ : Fields Q cs stored) {c : Column}
    (hc : c ∈ cs) : ∃ x, P c x ∧ Q c x := by
  induction cs with
  | nil => cases hc
  | cons first cs ih =>
    rcases List.mem_cons.mp hc with rfl | hc
    · exact ⟨_, hP.1, hQ.1⟩
    · exact ih hP.2 hQ.2 hc

end Record

namespace Column

variable {cs : List Column} {c : Column}

theorem faultAmong_of_mem (hnames : (cs.map (·.name)).Nodup) (hc : c ∈ cs) (v : Value) :
    faultAmong cs (c.name, v) =
      match c.native.decode v with
      | .error e => some (.within (.decodingColumn c.name) e)
      | .ok _ => none := by
  have hfind : cs.find? (c.name = ·.name) = some c := by
    cases hfound : cs.find? (c.name = ·.name) with
    | none => simpa using List.find?_eq_none.mp hfound c hc
    | some other =>
      have hname : c.name = other.name := by simpa using List.find?_some hfound
      rw [List.inj_on_of_nodup_map hnames hc (List.mem_of_find?_eq_some hfound) hname]
  unfold faultAmong
  rw [hfind]
  rfl

theorem read_eq_some_iff {look : String → Option Value} {x : c.native.Carrier} :
    c.read look = some x ↔ ∃ v, look c.name = some v ∧ c.native.decode v = .ok x := by
  unfold read
  rw [Option.bind_eq_some_iff]
  refine exists_congr fun v => and_congr_right fun _ => ?_
  cases c.native.decode v <;> simp [Except.toOption]

end Column

/-! ### Reading and looking up -/

namespace Entity

variable {s : Schema}

/-- Where nothing stops the reading, a label that has a last place has a first one, and what stands
there decodes too. -/
theorem exists_first_of_last? (hnames : (s.columns.map (·.name)).Nodup) {r : LabeledRow}
    (hnone : r.pairs.findSome? (Column.faultAmong s.columns) = none) {c : Column}
    (hc : c ∈ s.columns) {last : Value} (hlast : r.last? c.name = some last) :
    ∃ first y, (c.name, first) ∈ r.pairs ∧ r.column? c.name = some (some first) ∧
      c.native.decode first = .ok y := by
  obtain ⟨first, hlookup⟩ :=
    LabeledRow.exists_lookup_of_mem (LabeledRow.mem_pairs_of_last? hlast)
  have hmem := mem_of_lookup hlookup
  have hread := List.findSome?_eq_none_iff.mp hnone _ hmem
  rw [Column.faultAmong_of_mem hnames hc] at hread
  cases hok : c.native.decode first with
  | error f => simp [hok] at hread
  | ok y => exact ⟨first, y, hmem, LabeledRow.column?_of_lookup hlookup, hok⟩

/-- Each field of an entity that is read from a row is the decoding of the value at the last place
with the label of its column.  Looking the label up finds the value at the first place, which
decodes as well.  All fields are decodings of what is looked up exactly if, for each column, both
values decode to the same, and so they are if no label of a column is repeated. -/
theorem fields_of_ofRow (hnames : (s.columns.map (·.name)).Nodup) (r : LabeledRow) (e : Entity s)
    (h : ofRow s r = .ok e) :
    e.Fields (fun c x => ∃ last, r.last? c.name = some last ∧ c.native.decode last = .ok x) ∧
      (∀ c ∈ s.columns, ∃ first y,
        r.column? c.name = some (some first) ∧ c.native.decode first = .ok y) ∧
      (e.Fields (fun c x => ∃ v, r.column? c.name = some (some v) ∧ c.native.decode v = .ok x) ↔
        ∀ c ∈ s.columns, ∀ first last, r.column? c.name = some (some first) →
          r.last? c.name = some last → c.native.decode first = c.native.decode last) ∧
      ((∀ c ∈ s.columns, r.labels.count c.name ≤ 1) →
        e.Fields fun c x => ∃ v, r.column? c.name = some (some v) ∧ c.native.decode v = .ok x) := by
  obtain ⟨hdecode, hread, -⟩ := (ofRow_eq_ok_iff hnames).mp h
  have hlast : e.Fields fun c x =>
      ∃ last, r.last? c.name = some last ∧ c.native.decode last = .ok x :=
    hread.imp fun c _ x => Column.read_eq_some_iff.mp
  have hfirst : ∀ c ∈ s.columns, ∃ first y, (c.name, first) ∈ r.pairs ∧
      r.column? c.name = some (some first) ∧ c.native.decode first = .ok y := by
    intro c hc
    obtain ⟨_, ⟨last, hfound, -⟩, -⟩ := hlast.exists_of_mem hlast hc
    exact exists_first_of_last? hnames hdecode hc hfound
  have hagree : e.Fields (fun c x =>
      ∃ v, r.column? c.name = some (some v) ∧ c.native.decode v = .ok x) ↔
      ∀ c ∈ s.columns, ∀ first last, r.column? c.name = some (some first) →
        r.last? c.name = some last → c.native.decode first = c.native.decode last := by
    constructor
    · intro hlooked c hc first last hcolumn hfound
      obtain ⟨x, ⟨v, hv, hfirst⟩, w, hw, hlast⟩ := hlooked.exists_of_mem hlast hc
      obtain rfl := Option.some.inj (Option.some.inj (hcolumn.symm.trans hv))
      obtain rfl := Option.some.inj (hfound.symm.trans hw)
      rw [hfirst, hlast]
    · intro hsame
      refine hlast.imp ?_
      rintro c hc x ⟨last, hfound, hx⟩
      obtain ⟨first, -, -, hcolumn, -⟩ := hfirst c hc
      exact ⟨first, hcolumn, (hsame c hc first last hcolumn hfound).trans hx⟩
  refine ⟨hlast, ?_, hagree, ?_⟩
  · intro c hc
    obtain ⟨first, y, -, hcolumn, hy⟩ := hfirst c hc
    exact ⟨first, y, hcolumn, hy⟩
  · intro honce
    refine hagree.mpr ?_
    intro c hc first last hcolumn hfound
    obtain ⟨first', -, hmem, hcolumn', -⟩ := hfirst c hc
    obtain rfl := Option.some.inj (Option.some.inj (hcolumn.symm.trans hcolumn'))
    rw [LabeledRow.eq_of_mem_pairs (honce c hc) hmem (LabeledRow.mem_pairs_of_last? hfound)]

/-- A row of the audit log to which a join has brought a label again. -/
def repeatedMessage : LabeledRow :=
  ⟨["message", "at", "message"], [.varchar "a", .unknown, .varchar "b"]⟩

/-- What is read from it. -/
def lastMessage : Entity Schema.auditLog := ⟨("b", none, ()), ()⟩

theorem ofRow_repeatedMessage : ofRow Schema.auditLog repeatedMessage = .ok lastMessage := rfl

theorem fields_of_ofRow_lastMessage :
    (Schema.auditLog.columns.map (·.name)).Nodup ∧
      ofRow Schema.auditLog repeatedMessage = .ok lastMessage ∧
      lastMessage.Fields fun c x =>
        ∃ last, repeatedMessage.last? c.name = some last ∧ c.native.decode last = .ok x :=
  ⟨by decide, ofRow_repeatedMessage,
    (fields_of_ofRow (by decide) repeatedMessage lastMessage ofRow_repeatedMessage).1⟩

/-- The field holds the text at the last place, and looking the label up finds that at the first. -/
theorem repeated_label_differs :
    ofRow Schema.auditLog repeatedMessage = .ok lastMessage ∧
      ¬ lastMessage.Fields fun c x =>
        ∃ v, repeatedMessage.column? c.name = some (some v) ∧ c.native.decode v = .ok x := by
  refine ⟨ofRow_repeatedMessage, ?_⟩
  rintro ⟨⟨v, hcolumn, hdecode⟩, -⟩
  have hfirst : repeatedMessage.column? "message" = some (some (.varchar "a")) := rfl
  obtain rfl := Option.some.inj (Option.some.inj (hfirst.symm.trans hcolumn))
  have htext : "a" = "b" := Except.ok.inj hdecode
  exact absurd htext (by decide)

end Entity

end BoundSql
