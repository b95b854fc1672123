import BoundSql.Proofs.Assembly
import BoundSql.Proofs.PagedFetch
import BoundSql.Proofs.TemplateEnds
import BoundSql.Session.Basic

/-!
# One statement, however it is run

A statement is put together in three ways: to be run as it is, its tokens are trimmed; to be part of
another one or to be run by a session, its filter clauses are closed as well and it is trimmed
again; to be counted and to be cut into pages, the text of its body is trimmed and the ordering is
put behind that.  All of them make the same text (`Builder.sends_one_statement`), as far as no
marker with a blank at its end stands at an end of the statement.
-/

namespace BoundSql

theorem Act.runFragment_apply (f : Fragment) (service : Service) (session : Session) :
    Act.runFragment f (service, session) =
      Act.run (session.dialect.render f) f.bindings (service, session) := by
  unfold Act.runFragment
  rw [get_bind_apply]

namespace Builder

/-! ### Conversion -/

/-- Converting a statement cuts nothing off that trimming its text would not. -/
theorem trim_render_toFragment (b : Builder) :
    Text.trim (b.dialect.render b.toFragment) = Text.trim b.sql := by
  unfold toFragment sql Dialect.render
  rw [Fragment.trim_render_trim, Fragment.render_sealed]

theorem bindings_toFragment (b : Builder) : b.toFragment.bindings = b.body.bindings := by
  show (if b.orderBy = "" then b.body else b.body ++ .text (" " ++ b.orderBy)).bindings = _
  split
  · rfl
  · exact List.append_nil _

theorem slot_mem_sealed_build {b : Builder} (h : .slot ∈ b.build.sealed.tokens) :
    .slot ∈ b.body.tokens := by
  unfold Fragment.sealed at h
  rw [Token.mem_compact (by simp)] at h
  obtain ⟨t, ht, hslot⟩ := List.mem_map.mp h
  have hsame : t = .slot := by
    cases t <;> simp_all [Fragment.sealToken]
  rw [hsame] at ht
  have hwhole := Fragment.mem_of_mem_trim (by simp) ht
  split at hwhole
  · exact hwhole
  · rw [Fragment.append_tokens, Token.mem_append (by simp), Fragment.text_tokens,
      Token.mem_compact (by simp)] at hwhole
    simpa using hwhole

/-- Where it is converted a statement keeps its text, but for the blanks around it, unless a marker
with a blank stands there. -/
theorem render_toFragment_iff {b : Builder} (hslot : .slot ∉ b.body.tokens) :
    b.dialect.render b.toFragment = Text.trim b.sql ↔ b.toFragment.FlushMarkers b.dialect := by
  rw [← trim_render_toFragment, eq_comm]
  exact Fragment.trim_render_eq_self b.dialect (Token.apart_compact _) (Fragment.closed_sealed _)
    fun h => hslot (slot_mem_sealed_build h)

end Builder

/-! ### The end of a select statement -/

/-- A restriction that ends with something else than a blank: a condition, a statement in
parentheses, or a template with values that is not blank. -/
def Restriction.Plain : Restriction → Prop
  | filter _ => True
  | append template args =>
    Text.allBlank template = false ∧ ∀ arg ∈ args.values, ∃ v, arg = .value v
  | appendFormat _ _ => False
  | appendSubquery _ _ => True

variable (d : Dialect) (scope : Scope)

theorem Restriction.Plain.closed {r : Restriction} (hr : r.Plain) : r.Closed := by
  cases r with
  | append template args =>
    cases args with
    | positional values =>
      intro arg harg
      obtain ⟨v, rfl⟩ := hr.2 arg harg
      trivial
    | named bag =>
      intro entry hentry
      obtain ⟨v, hv⟩ := hr.2 entry.2 (List.mem_map_of_mem hentry)
      rw [hv]
      trivial
  | _ => trivial

theorem Restriction.endsFirm_fragment {r : Restriction} (hr : r.Plain) :
    Claiming.EndsFirm d (r.fragment d scope) := by
  have hparenthesis : ∀ (f : Fragment) (bindings : List Binding),
      Text.Firm (Fragment.render d.marker ⟨(f ++ .text ")").tokens, bindings⟩) := by
    intro f bindings
    rw [Fragment.render_extend, Fragment.render_text_tokens]
    exact Text.Firm.append ⟨')', rfl, rfl⟩
  cases r with
  | filter n =>
    apply Claiming.endsFirm_bind (P := fun _ => True) fun _ _ _ => trivial
    intro f _ names g hg
    cases hg
    exact hparenthesis _
  | append template args =>
    obtain ⟨hblank, hvalues⟩ := hr
    apply Claiming.yields_ofExcept_bind
    intro resolved hresolved
    have hplain : ∀ entry ∈ resolved, ∃ v, entry.2 = .value v := fun entry hentry =>
      hvalues entry.2 (Building.mem_values_of_resolve hresolved entry hentry)
    have hnames : ∀ name, .param name ∈ Template.scan (Text.trim template) →
        Text.Firm name ∧ (resolved.lookup name).isSome := by
      intro name hname
      refine ⟨Template.firm_of_mem_scan hname, ?_⟩
      apply Building.isSome_lookup_of_resolve hresolved
      exact Building.mem_distinct.mpr (Token.mem_paramNames.mpr hname)
    have hpiece := Building.endsFirm_expand d resolved hplain [] (by simp) _ hnames
      (Template.endFirm_scan hblank)
    apply Claiming.endsFirm_bind hpiece
    intro piece hfirm names f hf bindings
    cases hf
    rw [Fragment.render_extend]
    exact (hfirm bindings).append
  | appendFormat template args => exact hr.elim
  | appendSubquery head sub =>
    intro names f hf
    cases hf
    exact hparenthesis _

theorem Restriction.exists_of_mem_fragments {rs : List Restriction} {names : Names} {f : Fragment}
    (hf : f ∈ Parts.successes (Restriction.fragments d scope rs names)) :
    ∃ r ∈ rs, ∃ names, (r.fragment d scope names).1 = .ok f := by
  induction rs generalizing names with
  | nil => cases hf
  | cons r rs ih =>
    have hsplit : Parts.successes (Restriction.fragments d scope (r :: rs) names) =
        (r.fragment d scope names).1.toOption.toList ++
          Parts.successes (Restriction.fragments d scope rs (r.fragment d scope names).2) :=
      Parts.successes_cons _ _
    rw [hsplit] at hf
    rcases List.mem_append.mp hf with hfirst | hlater
    · refine ⟨r, List.mem_cons_self, names, ?_⟩
      cases hresult : (r.fragment d scope names).1 with
      | error e =>
        rw [hresult] at hfirst
        cases hfirst
      | ok g =>
        rw [hresult] at hfirst
        rw [List.mem_singleton.mp hfirst]
    · obtain ⟨other, hmem, hfragment⟩ := ih hlater
      exact ⟨other, List.mem_cons_of_mem _ hmem, hfragment⟩

namespace Parts

variable (s : Schema) (tableAlias : String) (p : Parts)

/-- The text of a statement without its ordering. -/
def text : String :=
  selection d s tableAlias ++ String.join p.joins ++ Fragment.sentinelText ++
    String.join (p.clause.map fun f => d.render ⟨f.tokens, p.clause.flatMap (·.bindings)⟩)

theorem firm_text (hclause : ∀ f ∈ p.clause, ∀ bindings,
    Text.Firm (Fragment.render d.marker ⟨f.tokens, bindings⟩)) :
    Text.Firm (p.text d s tableAlias) := by
  unfold text
  rcases List.eq_nil_or_concat' p.clause with hnone | ⟨front, f, hlast⟩
  · rw [hnone, List.map_nil, String.join_nil, String.append_empty]
    exact Text.Firm.append ⟨'1', rfl, rfl⟩
  · have hf : f ∈ p.clause := by simp [hlast]
    rw [hlast, List.map_append, String.join_append, List.map_singleton, String.join_cons,
      String.join_nil, String.append_empty]
    exact ((hclause f hf _).append).append

variable {d s tableAlias p}

theorem trim_text (hp : Text.Firm (p.text d s tableAlias)) :
    Text.trim (p.text d s tableAlias) = p.text d s tableAlias := by
  refine Text.trim_eq_self.mpr ⟨?_, hp.trimEnd⟩
  have hselect : Text.trimStart "SELECT " = "SELECT " := by decide
  unfold text selection
  simp only [String.append_assoc]
  exact (Text.trimStart_append_eq_self (by decide)).mpr hselect

theorem bodySql_builder (hp : Text.Firm (p.text d s tableAlias)) :
    (p.builder d s tableAlias).bodySql = p.text d s tableAlias := by
  have hrender : d.render (p.builder d s tableAlias).body = " " ++ p.text d s tableAlias ++ "" := by
    unfold Dialect.render builder
    rw [Fragment.render_compact, Fragment.render_cons, Fragment.render_cons, clauseTokens,
      Fragment.render_flatMap, String.append_empty]
    simp only [text, ← String.append_assoc]
    rfl
  have htrim : (p.builder d s tableAlias).bodySql =
      Text.trim (d.render (p.builder d s tableAlias).body) := rfl
  rw [htrim, hrender, Text.trim_of_blanks rfl rfl, trim_text hp]

theorem trim_ordering {keys : List String}
    (hkeys : ∀ key ∈ keys, ∃ t, key = t ++ String.ofList ['C']) :
    Text.trim (ordering keys) = ordering keys := by
  rcases ordering_eq_append hkeys with hnone | ⟨t, ht⟩
  · rw [hnone]
    rfl
  · refine Text.trim_eq_self.mpr ⟨?_, ?_⟩
    · cases keys with
      | nil => rfl
      | cons key keys =>
        have horder : Text.trimStart "ORDER BY " = "ORDER BY " := by decide
        exact (Text.trimStart_append_eq_self (by decide)).mpr horder
    · rw [ht]
      exact (Text.Firm.append ⟨'C', rfl, rfl⟩).trimEnd

/-- What is counted and cut into pages is the statement. -/
theorem pagedSql_builder (hp : Text.Firm (p.text d s tableAlias))
    (hkeys : ∀ key ∈ p.keys, ∃ t, key = t ++ String.ofList ['C']) :
    (p.builder d s tableAlias).pagedSql = (p.builder d s tableAlias).sql := by
  obtain ⟨blanks, hblanks, hordered, hwhole⟩ := sql_builder d s tableAlias p hkeys
  have htext : (p.builder d s tableAlias).sql ++ blanks = p.text d s tableAlias ++
      (if ordering p.keys = "" then "" else " " ++ ordering p.keys) := hwhole
  have hpaged : (p.builder d s tableAlias).pagedSql = p.text d s tableAlias ++
      (if ordering p.keys = "" then "" else " " ++ ordering p.keys) := by
    show withOrder (p.builder d s tableAlias).bodySql (ordering p.keys) = _
    unfold withOrder
    rw [bodySql_builder hp, trim_text hp, trim_ordering hkeys]
  have hblanks : blanks = "" := by
    by_cases hnone : ordering p.keys = ""
    · -- without an ordering the statement ends with its body, which has no blanks to cut off
      rw [if_pos hnone, String.append_empty] at htext
      rw [← htext] at hp
      exact hp.eq_empty_of_append hblanks
    · exact hordered hnone
  rw [hpaged, ← htext, hblanks, String.append_empty]

end Parts

namespace Builder

/-- A select statement with refinements that end with something else than a blank is counted and cut
into pages as it is. -/
theorem pagedSql_eq_sql (s : Schema) (tableAlias : String) (ops : List Refinement)
    (hops : ∀ r ∈ Refinement.restrictions ops, r.Plain) :
    let b := (Refinement.performAll ops ((new d).select s tableAlias)).2
    b.pagedSql = b.sql := by
  intro b
  have hclosed : Parts.empty.Closed := by
    intro f hf
    cases hf
  obtain ⟨hbuilder, -⟩ := Parts.performAll_builder d s tableAlias ops
    (fun r hr => (hops r hr).closed) hclosed
  rw [Parts.builder_empty, Parts.refineAll_eq] at hbuilder
  have hb : b = _ := hbuilder
  rw [hb]
  apply Parts.pagedSql_builder
  · apply Parts.firm_text
    intro f hf
    obtain ⟨r, hr, names, hfragment⟩ := Restriction.exists_of_mem_fragments d _ hf
    exact Restriction.endsFirm_fragment d _ (hops r hr) names f hfragment
  · intro key hkey
    obtain ⟨result, hresult, hsuccess⟩ := List.mem_filterMap.mp hkey
    obtain ⟨k, -, rfl⟩ := List.mem_map.mp hresult
    exact k.text_eq_append d _ hsuccess

section

variable {σ : Type} (b : Builder) (hpaged : b.pagedSql = b.sql) (exec : Executor σ)

include hpaged

theorem fetchCount_of_pagedSql :
    b.fetchCount exec = (do
      let rows ← exec ("SELECT COUNT(*) FROM (" ++ b.sql ++ ") T") b.body.bindings
      Run.ofExcept (decodedCount rows)) := by
  rw [fetchCount_eq, countSql_eq, hpaged]

theorem fetchPage_of_pagedSql (s : Schema) {page size : Nat} (h : IsPage page size) :
    b.fetchPage exec s page size = (do
      let rows ← exec ((b.dialect.paging.page size page).text b.sql) b.body.bindings
      Run.ofExcept (Entity.ofRows s rows.labeled)) := by
  rw [fetchPage_of_isPage b exec s h, pageText, hpaged]

end

/-- The text of a statement is the same however it is run, and so are its parameters.  Blanks around
it may be cut off.  Where it is converted all of them are, unless there is a marker at an end that
is written with a blank there; in a dialect whose sign is no blank that takes a name with a blank at
its end.  A select statement whose last restriction ends with something else is counted and cut into
pages as it is. -/
theorem sends_one_statement :
    (∀ b : Builder, .slot ∉ b.body.tokens →
      (b.dialect.render b.toFragment = Text.trim b.sql ↔ b.toFragment.FlushMarkers b.dialect) ∧
      b.toFragment.bindings = b.body.bindings ∧
      (∀ {σ : Type} (exec : Executor σ), b.fetchRows exec = exec b.sql b.body.bindings) ∧
      (b.toFragment.FlushMarkers b.dialect → ∀ (service : Service) (session : Session),
        session.dialect = b.dialect → Act.runFragment b.toFragment (service, session) =
          Act.run (Text.trim b.sql) b.body.bindings (service, session)) ∧
      (Text.isBlank b.dialect.sign = false →
        (b.dialect.typedMarkers = false → ∀ name,
          b.toFragment.tokens.getLast? = some (.param name) → Text.trimEnd name = name) →
        b.toFragment.FlushMarkers b.dialect)) ∧
    ∀ (d : Dialect) (s : Schema) (tableAlias : String) (ops : List Refinement),
      (∀ r ∈ Refinement.restrictions ops, r.Plain) →
      let b := (Refinement.performAll ops ((new d).select s tableAlias)).2
      (∀ {σ : Type} (exec : Executor σ), b.fetchCount exec = (do
        let rows ← exec ("SELECT COUNT(*) FROM (" ++ b.sql ++ ") T") b.body.bindings
        Run.ofExcept (decodedCount rows))) ∧
      ∀ {σ : Type} (exec : Executor σ) (entity : Schema) (page size : Nat), IsPage page size →
        b.fetchPage exec entity page size = (do
          let rows ← exec ((b.dialect.paging.page size page).text b.sql) b.body.bindings
          Run.ofExcept (Entity.ofRows entity rows.labeled)) := by
  constructor
  · intro b hslot
    have hiff := render_toFragment_iff hslot
    refine ⟨hiff, b.bindings_toFragment, fun _ => rfl, ?_, ?_⟩
    · intro hflush service session hdialect
      rw [Act.runFragment_apply, hdialect, hiff.mpr hflush, b.bindings_toFragment]
    · exact Fragment.flushMarkers_of_names b.dialect
  · intro d s tableAlias ops hops b
    have hpaged : b.pagedSql = b.sql := pagedSql_eq_sql d s tableAlias ops hops
    exact ⟨b.fetchCount_of_pagedSql hpaged, fun exec entity _ _ h =>
      b.fetchPage_of_pagedSql hpaged exec entity h⟩

/-- Orders with a note, which ends the statement as a marker. -/
theorem sends_one_statement_gifts :
    let gifts : List Refinement :=
      [.restrict (.append "AND t.note = :note" (.positional [.value (.varchar "gift")]))]
    let b := (Refinement.performAll gifts ((new .sqlite).select .order "t")).2
    .slot ∉ b.body.tokens ∧ (∀ r ∈ Refinement.restrictions gifts, r.Plain) ∧ IsPage 2 3 ∧
      b.toFragment.tokens.getLast? = some (.param "note") ∧
      b.dialect.render b.toFragment = Text.trim b.sql ∧
      ∀ exec : Executor Unit, b.fetchPage exec .order 2 3 = (do
        let rows ← exec ((b.dialect.paging.page 3 2).text b.sql) b.body.bindings
        Run.ofExcept (Entity.ofRows .order rows.labeled)) := by
  intro gifts b
  have hslot : .slot ∉ b.body.tokens := by decide +kernel
  have hplain : ∀ r ∈ Refinement.restrictions gifts, r.Plain := by
    intro r hr
    obtain rfl := List.mem_singleton.mp hr
    refine ⟨by decide, ?_⟩
    intro arg harg
    exact ⟨_, List.mem_singleton.mp harg⟩
  have hpage : IsPage 2 3 := ⟨by decide, by decide, by decide⟩
  have hlast : b.toFragment.tokens.getLast? = some (.param "note") := by decide +kernel
  obtain ⟨hiff, -, -, -, hnames⟩ := sends_one_statement.1 b hslot
  have hflush : b.toFragment.FlushMarkers b.dialect := by
    refine hnames (by decide +kernel) fun _ name hname => ?_
    rw [hlast] at hname
    cases hname
    decide
  exact ⟨hslot, hplain, hpage, hlast, hiff.mpr hflush, fun exec =>
    (sends_one_statement.2 .sqlite .order "t" gifts hplain).2 exec .order 2 3 hpage⟩

/-- A template whose value brings a marker along that ends with a blank. -/
theorem blank_behind_marker :
    ¬ ∀ (d : Dialect) (template : String) (args : Args),
      let b := (Building.append template args (new d)).2
      .slot ∉ b.body.tokens → b.dialect.render b.toFragment = Text.trim b.sql := by
  intro h
  have hsame := h .sqlite ":x" (.positional
    [.wrapped ⟨[.text "SELECT 1 AS ", .param "p "], .list [.varchar "b"] .varchar⟩])
    (by decide +kernel)
  revert hsame
  decide +kernel

end Builder

end BoundSql
