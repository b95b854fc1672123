import BoundSql.Dialect.Standard
import BoundSql.Proofs.PlainValues
import BoundSql.Proofs.Scanning

/-!
# Scanning what was written

A template is written as it is, only its placeholders get the sign of the dialect.  Scanned again,
the text gives the lexemes of the template back, with one exception: a sign that stood alone in
front of a placeholder of the other sign and is now followed by its like.  The two make one lexeme
with the name behind them, as if a variable of the server or a cast had been meant
(`Template.lexemes_written`).  So the placeholders of a template are found again in its statement
exactly if there is no such sign (`Building.scan_sql_append_new`, `Building.marker_absorbed`).
-/

namespace BoundSql

namespace Template

/-! ### Signs -/

section

variable {sign : Char}

theorem isQuote_of_isSign (h : isSign sign = true) : isQuote sign = false := by
  obtain rfl | rfl : sign = ':' ∨ sign = '@' := by simpa [isSign] using h
  · rfl
  · rfl

theorem isPlain_of_isSign (h : isSign sign = true) : isPlain sign = false := by
  simp [isPlain, h]

theorem isNamePart_of_isSign (h : isSign sign = true) : isNamePart sign = false := by
  obtain rfl | rfl : sign = ':' ∨ sign = '@' := by simpa [isSign] using h
  · rfl
  · rfl

theorem lexeme_of_isSign (h : isSign sign = true) (cs : List Char) :
    lexeme sign cs = signed sign cs := by
  unfold lexeme
  rw [if_neg (by simp [isQuote_of_isSign h]), if_pos h]

end

/-! ### What lexemes are written as -/

/-- The characters of a lexeme, where placeholders are written with `sign`. -/
def written (sign : Char) : Token → List Char
  | .text s => s.toList
  | .param name => sign :: name.toList
  | _ => []

/-- Behind a lone `sign` there is no placeholder. -/
def Clear (sign : Char) (t u : Token) : Prop := t = textOf [sign] → u.paramName? = none

instance (sign : Char) : DecidableRel (Clear sign) := fun t u =>
  inferInstanceAs (Decidable (t = textOf [sign] → u.paramName? = none))

@[simp] theorem written_textOf (sign : Char) (cs : List Char) : written sign (textOf cs) = cs :=
  String.toList_ofList

/-- A lexeme starts as the template does, or with a sign. -/
theorem lexeme_first (c : Char) (cs : List Char) :
    (∃ front, (lexeme c cs).1 = textOf (c :: front)) ∨
      (isSign c = true ∧ ∃ name, (lexeme c cs).1 = .param name) := by
  unfold lexeme
  split
  · left
    unfold literal
    cases cs.dropWhile (· != c) with
    | nil => exact ⟨_, rfl⟩
    | cons q rest => exact ⟨_, rfl⟩
  · split
    · next hsign =>
      unfold signed
      cases cs with
      | nil => exact .inl ⟨[], rfl⟩
      | cons d rest =>
        dsimp only
        split
        · exact .inl ⟨_, rfl⟩
        · split
          · exact .inr ⟨hsign, _, rfl⟩
          · exact .inl ⟨[], rfl⟩
    · exact .inl ⟨_, rfl⟩

theorem literal_written (sign : Char) {q : Char} {cs ds : List Char}
    (hend : (literal q cs).2 = [] → ds = []) :
    ∃ es, written sign (literal q cs).1 ++ ds = q :: es ∧
      literal q es = ((literal q cs).1, ds) := by
  have hbody : ∀ c ∈ cs.takeWhile (· != q), (c != q) = true := fun _ => List.mem_takeWhile_imp
  unfold literal at hend ⊢
  cases hrest : cs.dropWhile (· != q) with
  | nil =>
    rw [hrest] at hend
    obtain rfl := hend rfl
    obtain ⟨htake, hdrop⟩ := span_append_of_head? hbody [] (by simp)
    exact ⟨cs.takeWhile (· != q) ++ [], by simp, by rw [htake, hdrop]⟩
  | cons d rest =>
    obtain ⟨htake, hdrop⟩ := span_append_of_head? hbody (q :: ds) (by simp)
    exact ⟨cs.takeWhile (· != q) ++ q :: ds, by simp, by rw [htake, hdrop]⟩

section

variable {sign : Char} (hsign : isSign sign = true)

/-- What is written starts as the template does, or with the sign of a placeholder. -/
theorem head?_written (sign : Char) (cs : List Char) :
    ∀ d ∈ ((lexemes cs).flatMap (written sign)).head?, d ∈ cs.head? ∨
      (d = sign ∧ (∃ c ∈ cs.head?, isSign c = true) ∧
        ∃ name ts, lexemes cs = .param name :: ts) := by
  cases cs with
  | nil => simp [lexemes_nil]
  | cons c cs =>
    rw [lexemes_cons]
    rcases lexeme_first c cs with ⟨front, hfront⟩ | ⟨hc, name, hname⟩
    · intro d hd
      rw [hfront] at hd
      exact .inl (by simpa using hd)
    · intro d hd
      rw [hname] at hd ⊢
      exact .inr ⟨by simpa [written, eq_comm] using hd, ⟨c, rfl, hc⟩, name, _, rfl⟩

include hsign

/-- Where a run ended at the character behind it, it ends at what is written behind it. -/
theorem head?_written_of_dropWhile {p : Char → Bool} (hp : ∀ c, isSign c = true → p c = false)
    {cs ds : List Char}
    (hhead : ∀ d ∈ ds.head?, d ∈ (cs.dropWhile p).head? ∨
      (d = sign ∧ ∃ e ∈ (cs.dropWhile p).head?, isSign e = true)) :
    ∀ d ∈ ds.head?, p d = false := by
  intro d hd
  rcases hhead d hd with hsame | ⟨rfl, -⟩
  · have hstop := List.head?_dropWhile_not p cs
    rw [Option.mem_def.mp hsame] at hstop
    simpa using hstop
  · exact hp d hsign

theorem signed_written {c : Char} (hc : isSign c = true) {cs ds : List Char}
    (hend : (signed c cs).2 = [] → ds = [])
    (hhead : ∀ d ∈ ds.head?, d ∈ (signed c cs).2.head? ∨
      (d = sign ∧ ∃ e ∈ (signed c cs).2.head?, isSign e = true))
    (hclear : (signed c cs).1 = textOf [sign] → sign ∉ ds.head?) :
    ∃ d es, written sign (signed c cs).1 ++ ds = d :: es ∧
      isSign d = true ∧ signed d es = ((signed c cs).1, ds) := by
  cases cs with
  | nil =>
    obtain rfl := hend rfl
    exact ⟨c, [], by simp [signed], hc, rfl⟩
  | cons d rest =>
    simp only [signed] at hend hhead hclear ⊢
    have hname : ∀ e ∈ rest.takeWhile isNamePart, isNamePart e = true :=
      fun _ => List.mem_takeWhile_imp
    by_cases hd : d = c
    · -- a doubled sign and the name behind it
      rw [if_pos hd] at hhead ⊢
      have hstop := head?_written_of_dropWhile hsign (fun _ => isNamePart_of_isSign) hhead
      obtain ⟨htake, hdrop⟩ := span_append_of_head? hname ds hstop
      refine ⟨c, c :: (rest.takeWhile isNamePart ++ ds), by simp, hc, ?_⟩
      simp [htake, hdrop]
    · rw [if_neg hd] at hend hhead hclear ⊢
      by_cases hstart : isNameStart d = true
      · -- a placeholder
        rw [if_pos hstart] at hhead ⊢
        have hstop := head?_written_of_dropWhile hsign (fun _ => isNamePart_of_isSign) hhead
        have hpart := isNamePart_of_isNameStart hstart
        have hne : d ≠ sign := by
          rintro rfl
          rw [isNamePart_of_isSign hsign] at hpart
          cases hpart
        have hrun : (d :: rest).takeWhile isNamePart = d :: rest.takeWhile isNamePart :=
          List.takeWhile_cons_of_pos hpart
        have hpart' : ∀ e ∈ (d :: rest).takeWhile isNamePart, isNamePart e = true :=
          fun _ => List.mem_takeWhile_imp
        obtain ⟨htake, hdrop⟩ := span_append_of_head? hpart' ds hstop
        refine ⟨sign, (d :: rest).takeWhile isNamePart ++ ds, by simp [written], hsign, ?_⟩
        rw [hrun] at htake hdrop ⊢
        simp only [List.cons_append] at htake hdrop ⊢
        rw [if_neg hne, if_pos hstart, htake, hdrop]
      · -- a lone sign
        rw [if_neg hstart] at hhead hclear ⊢
        refine ⟨c, ds, by simp, hc, ?_⟩
        cases ds with
        | nil => rfl
        | cons e es =>
          have hlone : e ≠ c ∧ ¬ isNameStart e = true := by
            rcases hhead e rfl with hsame | ⟨rfl, -⟩
            · obtain rfl : d = e := by simpa using hsame
              exact ⟨hd, hstart⟩
            · refine ⟨?_, fun h => ?_⟩
              · rintro rfl
                exact hclear rfl rfl
              · have hpart := isNamePart_of_isNameStart h
                rw [isNamePart_of_isSign hsign] at hpart
                cases hpart
          simp only
          rw [if_neg hlone.1, if_neg hlone.2]

/-- A lexeme is found again in front of what is written behind it, unless it is a lone sign in front
of another one. -/
theorem lexeme_written {c : Char} {cs ds : List Char}
    (hend : (lexeme c cs).2 = [] → ds = [])
    (hhead : ∀ d ∈ ds.head?, d ∈ (lexeme c cs).2.head? ∨
      (d = sign ∧ ∃ e ∈ (lexeme c cs).2.head?, isSign e = true))
    (hclear : (lexeme c cs).1 = textOf [sign] → sign ∉ ds.head?) :
    ∃ d es, written sign (lexeme c cs).1 ++ ds = d :: es ∧
      lexeme d es = ((lexeme c cs).1, ds) := by
  by_cases hplain : isPlain c = true
  · rw [lexeme_of_plain hplain] at hhead ⊢
    have hstop := head?_written_of_dropWhile hsign (fun _ => isPlain_of_isSign) hhead
    have hrun : ∀ d ∈ cs.takeWhile isPlain, isPlain d = true := fun _ => List.mem_takeWhile_imp
    obtain ⟨htake, hdrop⟩ := span_append_of_head? hrun ds hstop
    refine ⟨c, cs.takeWhile isPlain ++ ds, by simp, ?_⟩
    rw [lexeme_of_plain hplain, htake, hdrop]
  · by_cases hquote : isQuote c = true
    · have hlexeme : ∀ cs, lexeme c cs = literal c cs := fun cs => if_pos hquote
      rw [hlexeme] at hend ⊢
      obtain ⟨es, hsplit, hliteral⟩ := literal_written sign hend
      exact ⟨c, es, hsplit, by rw [hlexeme, hliteral]⟩
    · have hc : isSign c = true := by
        simpa [isPlain, hquote] using hplain
      rw [lexeme_of_isSign hc] at hend hhead hclear ⊢
      obtain ⟨d, es, hsplit, hd, hsigned⟩ := signed_written hsign hc hend hhead hclear
      exact ⟨d, es, hsplit, by rw [lexeme_of_isSign hd, hsigned]⟩

/-- In front of a placeholder written with the same sign a lone sign makes one text with it. -/
theorem lexeme_doubled {cs : List Char} {name : String}
    (h : (lexeme sign cs).1 = .param name) :
    lexeme sign (sign :: cs) =
      (textOf (sign :: sign :: name.toList), (lexeme sign cs).2) := by
  rw [lexeme_of_isSign hsign] at h ⊢
  rw [lexeme_of_isSign hsign]
  cases cs with
  | nil => cases h
  | cons d rest =>
    simp only [signed] at h ⊢
    by_cases hd : d = sign
    · rw [if_pos hd] at h
      cases h
    · rw [if_neg hd] at h ⊢
      by_cases hstart : isNameStart d = true
      · rw [if_pos hstart] at h ⊢
        cases h
        simp
      · rw [if_neg hstart] at h
        cases h

end

/-- The tokens with each lone `sign` in front of a placeholder made one text with it. -/
def absorbed (sign : Char) : List Token → List Token
  | [] => []
  | t :: .param name :: ts =>
    if t = textOf [sign] then textOf (sign :: sign :: name.toList) :: absorbed sign ts
    else t :: absorbed sign (.param name :: ts)
  | t :: ts => t :: absorbed sign ts

section

variable {sign : Char}

theorem absorbed_cons {t : Token} {ts : List Token} (h : ∀ u ∈ ts.head?, Clear sign t u) :
    absorbed sign (t :: ts) = t :: absorbed sign ts := by
  cases ts with
  | nil => simp [absorbed]
  | cons u ts =>
    cases u with
    | param name =>
      have hne : t ≠ textOf [sign] := fun ht => by cases h _ rfl ht
      rw [absorbed, if_neg hne]
    | _ => simp [absorbed]

theorem clear_param (name : String) (u : Token) : Clear sign (.param name) u := by
  intro h
  cases h

/-- The character behind a lone sign is another one. -/
theorem not_mem_head?_of_lone (hsign : isSign sign = true) {c : Char} {cs : List Char}
    (h : (lexeme c cs).1 = textOf [sign]) : sign ∉ (lexeme c cs).2.head? := by
  have hc : c = sign := by
    rcases lexeme_first c cs with ⟨front, hfront⟩ | ⟨-, name, hname⟩
    · rw [hfront] at h
      have hchars := String.ofList_injective (Token.text.inj h)
      exact (List.cons.inj hchars).1
    · rw [hname] at h
      cases h
  subst hc
  rw [lexeme_of_isSign hsign] at h ⊢
  cases cs with
  | nil => simp [signed]
  | cons d rest =>
    simp only [signed] at h ⊢
    by_cases hd : d = c
    · rw [if_pos hd] at h
      have hchars := String.ofList_injective (Token.text.inj h)
      cases hchars
    · rw [if_neg hd] at h ⊢
      split at h
      · cases h
      · next hstart =>
        rw [if_neg hstart]
        simpa using hd

/-- Scanning what lexemes are written as gives the lexemes back, but for lone signs in front of
placeholders.  The induction is on the lexemes; what is written behind the first of them starts with
the character that ended it, or with a sign. -/
theorem lexemes_written (hsign : isSign sign = true) (cs : List Char) :
    lexemes ((lexemes cs).flatMap (written sign)) = absorbed sign (lexemes cs) := by
  induction cs using lexemes.induct with
  | case1 => rw [lexemes_nil, List.flatMap_nil, lexemes_nil, absorbed]
  | case2 c rest ih =>
    rw [lexemes_cons, List.flatMap_cons]
    have hhead := head?_written sign (lexeme c rest).2
    by_cases hclear : ∀ u ∈ (lexemes (lexeme c rest).2).head?, Clear sign (lexeme c rest).1 u
    · have hend : (lexeme c rest).2 = [] →
          (lexemes (lexeme c rest).2).flatMap (written sign) = [] := by
        intro hnil
        rw [hnil, lexemes_nil]
        rfl
      obtain ⟨d, es, hsplit, hlexeme⟩ := lexeme_written hsign hend
        (fun d hd => (hhead d hd).imp_right fun h => ⟨h.1, h.2.1⟩) (by
          intro hlone hmem
          rcases hhead sign hmem with hsame | ⟨-, -, name, ts, hfirst⟩
          · exact not_mem_head?_of_lone hsign hlone hsame
          · cases hclear (.param name) (by rw [hfirst]; rfl) hlone)
      rw [hsplit, lexemes_cons, hlexeme, ih, absorbed_cons hclear]
    · obtain ⟨name, ts, hlone, hrest⟩ : ∃ name ts, (lexeme c rest).1 = textOf [sign] ∧
          lexemes (lexeme c rest).2 = .param name :: ts := by
        simp only [Clear, not_forall] at hclear
        obtain ⟨u, hu, hlone, hname⟩ := hclear
        obtain ⟨ts, hts⟩ := List.head?_eq_some_iff.mp hu
        cases u with
        | param name => exact ⟨name, ts, hlone, hts⟩
        | _ => exact (hname rfl).elim
      rw [hrest, absorbed_cons fun u _ => clear_param name u] at ih
      -- scanned alone, what is behind the sign is a placeholder
      have hwritten : (Token.param name :: ts).flatMap (written sign) =
          sign :: (name.toList ++ ts.flatMap (written sign)) := rfl
      rw [hwritten, lexemes_cons] at ih
      obtain ⟨hname, hbehind⟩ := List.cons.inj ih
      rw [hlone, hrest, hwritten, written_textOf, List.singleton_append, lexemes_cons,
        lexeme_doubled hsign hname, hbehind, absorbed, if_pos rfl]

/-- Nothing is absorbed where no lone sign stands in front of a placeholder. -/
theorem absorbed_eq_self {ts : List Token} (h : ts.IsChain (Clear sign)) :
    absorbed sign ts = ts := by
  induction ts with
  | nil => rw [absorbed]
  | cons t ts ih =>
    rw [absorbed_cons (List.isChain_cons.mp h).1, ih h.of_cons]

theorem length_paramNames_absorbed (sign : Char) (ts : List Token) :
    (Token.paramNames (absorbed sign ts)).length ≤ (Token.paramNames ts).length ∧
      ((Token.paramNames (absorbed sign ts)).length = (Token.paramNames ts).length →
        ts.IsChain (Clear sign)) := by
  have hcons : ∀ t us, (Token.paramNames (t :: us)).length =
      (Token.paramNames [t]).length + (Token.paramNames us).length := by
    intro t us
    rw [← List.length_append, ← Token.paramNames_append_list, List.singleton_append]
  induction ts using absorbed.induct sign with
  | case1 => simp [absorbed]
  | case2 name ts ih =>
    rw [absorbed, if_pos rfl]
    simp only [textOf, Token.paramNames_cons_text, Token.paramNames_cons_param, List.length_cons]
    exact ⟨by omega, fun heq => by omega⟩
  | case3 t name ts ht ih =>
    have hclear : ∀ u ∈ (Token.param name :: ts).head?, Clear sign t u :=
      fun _ _ heq => (ht heq).elim
    rw [absorbed_cons hclear, hcons t, hcons t (.param name :: ts)]
    exact ⟨by omega, fun heq => List.isChain_cons.mpr ⟨hclear, ih.2 (by omega)⟩⟩
  | case4 t ts ht ih =>
    have hclear : ∀ u ∈ ts.head?, Clear sign t u := by
      rintro u hu -
      obtain ⟨rest, rfl⟩ := List.head?_eq_some_iff.mp hu
      cases u with
      | param name => exact (ht name rest rfl).elim
      | _ => rfl
    rw [absorbed_cons hclear, hcons t, hcons t ts]
    exact ⟨by omega, fun heq => List.isChain_cons.mpr ⟨hclear, ih.2 (by omega)⟩⟩

theorem paramNames_absorbed {ts : List Token} :
    Token.paramNames (absorbed sign ts) = Token.paramNames ts ↔ ts.IsChain (Clear sign) := by
  constructor
  · intro h
    exact (length_paramNames_absorbed sign ts).2 (congrArg List.length h)
  · intro h
    rw [absorbed_eq_self h]

end

end Template

/-! ### The text of a statement -/

/-- Free names that differ from each other are claimed as they are. -/
theorem Names.claimAll_of_free {names : Names} {bases : List String} (hbases : bases.Nodup)
    (hfree : ∀ base ∈ bases, base ∉ names.taken) : (names.claimAll bases).1 = bases := by
  induction bases generalizing names with
  | nil => rfl
  | cons base bases ih =>
    obtain ⟨hbase, hrest⟩ := List.nodup_cons.mp hbases
    have hclaim : names.claim base = (base, { names with taken := base :: names.taken }) := by
      unfold claim
      rw [if_neg (by simpa using hfree base List.mem_cons_self)]
    have hlater : ∀ other ∈ bases, other ∉ base :: names.taken := by
      intro other hother hmem
      rcases List.mem_cons.mp hmem with rfl | hmem
      · exact hbase hother
      · exact hfree other (List.mem_cons_of_mem _ hother) hmem
    simp only [claimAll, hclaim]
    rw [ih hrest hlater]

namespace Building

variable {d : Dialect} {template : String} {args : Args} {b : Builder}

theorem exists_values {text : String} {placeholders : List String}
    {resolved : List (String × Arg)} (hargs : ∀ arg ∈ args.values, ∃ v, arg = .value v)
    (hresolve : resolve text placeholders args = .ok resolved) :
    ∃ v : String → Value, ∀ name ∈ placeholders, resolved.lookup name = some (.value (v name)) := by
  have hvalue : ∀ name, ∃ v, name ∈ placeholders → resolved.lookup name = some (.value v) := by
    intro name
    cases hlookup : resolved.lookup name with
    | none =>
      refine ⟨.unknown, fun hname => ?_⟩
      have hsome := isSome_lookup_of_resolve hresolve name hname
      rw [hlookup] at hsome
      cases hsome
    | some arg =>
      have hmem := mem_values_of_resolve hresolve _ (mem_of_lookup hlookup)
      obtain ⟨v, rfl⟩ := hargs arg hmem
      exact ⟨v, fun _ => rfl⟩
  exact ⟨fun name => (hvalue name).choose, fun name hname => (hvalue name).choose_spec hname⟩

/-- In a statement that was empty no placeholder needs another name. -/
theorem append_new (hargs : ∀ arg ∈ args.values, ∃ v, arg = .value v)
    (happend : append template args (Builder.new d) = (.ok (), b)) :
    b.dialect = d ∧ b.orderBy = "" ∧
      b.body.tokens = Token.compact (.text " " :: Template.scan (Text.trim template)) := by
  let placeholders := Template.placeholders (Template.scan (Text.trim template))
  cases hresolve : resolve (Text.trim template) placeholders args with
  | error e =>
    rw [append_of_resolve_error hresolve] at happend
    cases happend
  | ok resolved =>
    obtain ⟨v, hv⟩ := exists_values hargs hresolve
    have hclaimed : ((Builder.new d).names.claimAll placeholders).1 = placeholders :=
      Names.claimAll_of_free (nodup_distinct _) (by simp [Builder.new, Names.none])
    have hsame : (Template.scan (Text.trim template)).map
        (Token.relabel (markerOf (placeholders.zip placeholders))) =
        Template.scan (Text.trim template) := by
      have hnames : placeholders.map (markerOf (placeholders.zip placeholders)) =
          placeholders.map id := by
        rw [List.map_id]
        exact (map_getD_lookup_zip (nodup_distinct _) le_rfl id).trans List.take_length
      rw [Token.map_relabel_congr (σ := id) fun name hname =>
        List.map_inj_left.mp hnames name (mem_distinct.mpr hname)]
      exact congrArg Fragment.tokens (Fragment.relabel_id ⟨_, []⟩)
    rw [append_of_values ⟨resolved, hresolve, hv⟩ rfl] at happend
    cases happend
    refine ⟨rfl, rfl, ?_⟩
    show Token.append [] (.text " " :: (Template.scan (Text.trim template)).map (Token.relabel
      (markerOf (placeholders.zip ((Builder.new d).names.claimAll placeholders).1)))) = _
    rw [hclaimed, hsame]
    rfl

end Building

namespace Template

variable {sign : Char} {ts : List Token}

theorem render_eq_written {d : Dialect} (hd : d.typedMarkers = false) (hts : .sentinel ∉ ts)
    (bindings : List Binding) :
    d.render ⟨ts, bindings⟩ = String.ofList (ts.flatMap (written d.sign)) := by
  induction ts with
  | nil => rfl
  | cons t ts ih =>
    have hrest : Fragment.render d.marker ⟨ts, bindings⟩ = _ :=
      ih fun hmem => hts (List.mem_cons_of_mem _ hmem)
    unfold Dialect.render
    rw [Fragment.render_cons, hrest, List.flatMap_cons, String.ofList_append]
    congr 1
    cases t with
    | text s => exact String.ofList_toList.symm
    | param name =>
      simp [Fragment.renderToken, Dialect.marker, hd, written]
    | slot => rfl
    | sentinel => exact (hts List.mem_cons_self).elim

theorem firm_written (hts : Token.EndFirm ts) :
    Text.Firm (String.ofList (ts.flatMap (written sign))) := by
  obtain ⟨t, hlast, ht⟩ := hts
  obtain ⟨front, rfl⟩ := List.getLast?_eq_some_iff.mp hlast
  rw [List.flatMap_append, String.ofList_append]
  apply Text.Firm.append
  cases t with
  | text s =>
    rw [List.flatMap_singleton, written, String.ofList_toList]
    exact ht
  | param name =>
    have hname : String.ofList (sign :: name.toList) = String.ofList [sign] ++ name := by simp
    rw [List.flatMap_singleton, written, hname]
    exact Text.Firm.append ht
  | slot => exact ht.elim
  | sentinel => exact ht.elim

theorem isBlank_of_isSign (h : isSign sign = true) : Text.isBlank sign = false := by
  obtain rfl | rfl : sign = ':' ∨ sign = '@' := by simpa [isSign] using h
  · rfl
  · rfl

/-- Of a trimmed template the text is trimmed as well. -/
theorem trim_written (hsign : isSign sign = true) {template : String}
    (h : Text.trim template = template) :
    Text.trim (String.ofList ((lexemes template.toList).flatMap (written sign))) =
      String.ofList ((lexemes template.toList).flatMap (written sign)) := by
  obtain ⟨hstart, hend⟩ := Text.trim_eq_self.mp h
  rw [Text.trim_eq_self]
  constructor
  · rw [Text.trimStart_eq_self, String.toList_ofList]
    intro c hc
    rcases head?_written _ _ c hc with hsame | ⟨rfl, -⟩
    · exact Text.trimStart_eq_self.mp hstart c hsame
    · exact isBlank_of_isSign hsign
  · by_cases hne : template = ""
    · rw [hne]
      rw [String.toList_empty, lexemes_nil]
      rfl
    · apply Text.Firm.trimEnd
      apply firm_written
      apply (firm_lexemes _).2
      rw [String.ofList_toList]
      exact Text.firm_of_trimEnd hne hend

end Template

namespace Building

variable {d : Dialect} {template : String} {args : Args} {b : Builder}

/-- The text of the statement is what the lexemes of the template are written as. -/
theorem sql_append_new (htyped : d.typedMarkers = false) (hsign : Template.isSign d.sign = true)
    (hargs : ∀ arg ∈ args.values, ∃ v, arg = .value v)
    (happend : append template args (Builder.new d) = (.ok (), b)) :
    b.sql = String.ofList
      ((Template.lexemes (Text.trim template).toList).flatMap (Template.written d.sign)) := by
  obtain ⟨rfl, horder, htokens⟩ := append_new hargs happend
  have honly : ∀ t ∈ b.body.tokens, (∀ s, t ≠ .text s) →
      ∃ name, t = .param name ∧ t ∈ Template.scan (Text.trim template) := by
    intro t ht hnotext
    rw [htokens, Token.mem_compact hnotext] at ht
    rcases List.mem_cons.mp ht with rfl | ht
    · exact (hnotext " " rfl).elim
    · rcases Template.text_or_param_of_mem_scan ht with ⟨s, rfl⟩ | ⟨name, rfl⟩
      · exact (hnotext s rfl).elim
      · exact ⟨name, rfl, ht⟩
  have hclosed : b.body.Closed := by
    intro hmem
    obtain ⟨name, hname, -⟩ := honly _ hmem (by simp)
    cases hname
  have hslot : .slot ∉ b.body.tokens := by
    intro hmem
    obtain ⟨name, hname, -⟩ := honly _ hmem (by simp)
    cases hname
  have hbody : b.dialect.render b.body = " " ++ String.ofList
      ((Template.lexemes (Text.trim template).toList).flatMap (Template.written b.dialect.sign)) ++
        "" := by
    have hlexemes : .sentinel ∉ Template.lexemes (Text.trim template).toList := by
      intro hmem
      apply hclosed
      rw [htokens, Token.sentinel_mem_compact]
      exact List.mem_cons_of_mem _ (Token.sentinel_mem_compact.mpr hmem)
    have hrender := Template.render_eq_written htyped hlexemes b.body.bindings
    unfold Dialect.render at hrender ⊢
    rw [← hrender, String.append_empty]
    show Fragment.render _ ⟨b.body.tokens, b.body.bindings⟩ = _
    rw [htokens, Fragment.render_compact, Fragment.render_cons, Template.scan,
      Fragment.render_compact]
    rfl
  have hflush : b.body.trim.FlushMarkers b.dialect := by
    apply Fragment.flushMarkers_of_names _ (Template.isBlank_of_isSign hsign)
    intro _ name hlast
    obtain ⟨_, -, hname⟩ := honly _ (Fragment.mem_of_mem_trim (by simp)
      (List.mem_of_getLast? hlast)) (by simp)
    exact (Template.firm_of_mem_scan hname).trimEnd
  have hapart : b.body.tokens.IsChain Token.Apart := by
    rw [htokens]
    exact Token.apart_compact _
  have htrim := (Fragment.trim_render_eq_self b.dialect hapart hclosed hslot).mpr hflush
  have hsql : b.sql = b.dialect.render b.body.trim := by
    unfold Builder.sql Builder.build
    rw [if_pos horder]
  have hcut : Text.trim (b.dialect.render b.body.trim) = Text.trim (b.dialect.render b.body) :=
    Fragment.trim_render_trim _ _
  rw [hsql, ← htrim, hcut, hbody, Text.trim_of_blanks rfl rfl]
  exact Template.trim_written hsign (Text.trim_trim _)

/-- The placeholders of a template with values are found again in the statement that it makes up,
under the same names and in the same order, unless a lone sign of the dialect stands in front of a
placeholder: written with the sign of the dialect, that becomes a variable of the server. -/
theorem scan_sql_append_new (hd : d ∈ Dialect.shipped)
    (hargs : ∀ arg ∈ args.values, ∃ v, arg = .value v)
    (happend : append template args (Builder.new d) = (.ok (), b)) :
    let lexemes := Template.lexemes (Text.trim template).toList
    (Token.paramNames (Template.scan b.sql) = Token.paramNames b.body.tokens ↔
      lexemes.IsChain (Template.Clear d.sign)) ∧
    (lexemes.IsChain (Template.Clear d.sign) →
      Template.scan b.sql = Template.scan (Text.trim template)) := by
  intro lexemes
  obtain ⟨htyped, hsign⟩ : d.typedMarkers = false ∧ Template.isSign d.sign = true := by
    have hshipped : ∀ d ∈ Dialect.shipped, d.typedMarkers = false ∧
        Template.isSign d.sign = true := by decide
    exact hshipped d hd
  have hscan : Template.scan b.sql = Token.compact (Template.absorbed d.sign lexemes) := by
    rw [sql_append_new htyped hsign hargs happend, Template.scan, String.toList_ofList,
      Template.lexemes_written hsign]
  obtain ⟨-, -, htokens⟩ := append_new hargs happend
  constructor
  · rw [hscan, htokens, Token.paramNames_compact, Token.paramNames_compact,
      Token.paramNames_cons_text, Template.scan, Token.paramNames_compact]
    exact Template.paramNames_absorbed
  · intro hclear
    rw [hscan, Template.absorbed_eq_self hclear]
    rfl

/-- With a cast, a sign of another dialect in front of a placeholder, and a literal. -/
theorem rescanned_in_sqlite :
    let b := (append "a = @x::int AND b = @:y AND c = ':z'"
      (.positional [.value (.varchar "s"), .value (.varchar "t")]) (Builder.new .sqlite)).2
    b.sql = "a = :x::int AND b = @:y AND c = ':z'" ∧
      Token.paramNames b.body.tokens = ["x", "y"] ∧
      Token.paramNames (Template.scan b.sql) = Token.paramNames b.body.tokens := by
  intro b
  have happend : append "a = @x::int AND b = @:y AND c = ':z'"
      (.positional [.value (.varchar "s"), .value (.varchar "t")]) (Builder.new .sqlite) =
      (.ok (), b) := ok_of_isOk (by decide +kernel)
  have hargs : ∀ arg ∈ (Args.positional [.value (.varchar "s"), .value (.varchar "t")]).values,
      ∃ v, arg = .value v := by simp [Args.values]
  obtain ⟨hnames, -⟩ := scan_sql_append_new (by simp [Dialect.shipped]) hargs happend
  exact ⟨by decide +kernel, by decide +kernel, hnames.mpr (by decide +kernel)⟩

/-- A lone sign in front of a placeholder that is written with the same sign. -/
theorem marker_absorbed :
    let c := append "SELECT @:x" (.positional [.value (.varchar "a")])
    let b := (c (Builder.new .postgresql)).2
    (c (Builder.new .postgresql)).1.isOk = true ∧ b.sql = "SELECT @@x" ∧
      Token.paramNames b.body.tokens = ["x"] ∧ Token.paramNames (Template.scan b.sql) = [] := by
  decide +kernel

end Building

end BoundSql
