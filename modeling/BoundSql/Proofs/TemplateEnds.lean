import BoundSql.Proofs.Trimming

/-!
# How templates end

Scanning loses nothing: each lexeme takes up a start of the template, as a text or as the marker of
a placeholder.  A template that ends with something else than a blank therefore ends with such a
text, or with a placeholder, and so does what is appended when values are bound to its placeholders
(`Building.firm_expand`): a claimed name ends with a letter, an underscore or a digit.
-/

namespace BoundSql

/-! ### Names -/

theorem Template.isBlank_of_isNamePart {c : Char} (hc : Template.isNamePart c = true) :
    Text.isBlank c = false := by
  by_contra hblank
  unfold isNamePart Char.isAlphanum Char.isAlpha Char.isUpper Char.isLower Char.isDigit at hc
  simp only [Bool.or_eq_true, Bool.and_eq_true, decide_eq_true_eq, beq_iff_eq, ge_iff_le,
    UInt32.le_iff_toNat_le] at hc
  simp only [Text.isBlank, Bool.or_eq_true, Bool.and_eq_true, decide_eq_true_eq, beq_iff_eq,
    Bool.not_eq_false] at hblank
  rcases hc with hc | rfl
  · have hcode : ((65 ≤ c.toNat ∧ c.toNat ≤ 90) ∨ 97 ≤ c.toNat ∧ c.toNat ≤ 122) ∨
        48 ≤ c.toNat ∧ c.toNat ≤ 57 := hc
    omega
  · simp at hblank

theorem Template.isNamePart_of_isNameStart {c : Char} (h : isNameStart c = true) :
    isNamePart c = true := by
  simp only [isNameStart, Bool.or_eq_true] at h
  simp only [isNamePart, Char.isAlphanum, Bool.or_eq_true]
  exact h.imp .inl id

theorem Template.firm_of_isNamePart {cs : List Char} (hne : cs ≠ [])
    (hcs : ∀ c ∈ cs, Template.isNamePart c = true) : Text.Firm (String.ofList cs) := by
  refine ⟨cs.getLast hne, ?_, isBlank_of_isNamePart (hcs _ (List.getLast_mem hne))⟩
  rw [String.toList_ofList]
  exact List.getLast_mem_getLast? hne

theorem Names.firm_claim (names : Names) {base : String} (hbase : Text.Firm base) :
    Text.Firm (names.claim base).1 := by
  have hnumber : ∀ n, Text.Firm (Numeric.natText n) := by
    intro n
    apply Template.firm_of_isNamePart Nat.toDigits_ne_nil
    intro c hc
    have hdigit : c.isDigit = true := Nat.isDigit_of_mem_toDigits (by decide) (by decide) hc
    simp [Template.isNamePart, Char.isAlphanum, hdigit]
  unfold claim
  split
  · exact (hnumber _).append
  · exact hbase

/-! ### Tokens -/

namespace Token

/-- The text or the name ends with something else than a blank. -/
def Firm : Token → Prop
  | text s => Text.Firm s
  | param name => Text.Firm name
  | _ => False

/-- The last one of the tokens does. -/
def EndFirm (ts : List Token) : Prop := ∃ t ∈ ts.getLast?, t.Firm

variable {t : Token} {ts : List Token}

theorem endFirm_cons : EndFirm (t :: ts) ↔ (ts = [] ∧ t.Firm) ∨ EndFirm ts := by
  unfold EndFirm
  rw [List.getLast?_cons]
  rcases List.eq_nil_or_concat' ts with rfl | ⟨front, u, rfl⟩
  · simp
  · simp

theorem EndFirm.consText (s : String) (hts : EndFirm ts) : EndFirm (consText s ts) := by
  unfold Token.consText
  split
  · exact hts
  · split
    · next u rest =>
      rw [endFirm_cons] at hts ⊢
      exact hts.imp (fun h => ⟨h.1, Text.Firm.append h.2⟩) id
    · exact endFirm_cons.mpr (.inr hts)

theorem EndFirm.compact (hts : EndFirm ts) : EndFirm (compact ts) := by
  induction ts with
  | nil => exact hts
  | cons t ts ih =>
    rcases endFirm_cons.mp hts with ⟨rfl, ht⟩ | hrest
    · cases t with
      | text s =>
        have hs : s ≠ "" := Text.Firm.ne_empty ht
        simpa [Token.compact, Token.consText, hs] using hts
      | _ => exact hts
    · cases t with
      | text s => exact (ih hrest).consText s
      | _ => exact endFirm_cons.mpr (.inr (ih hrest))

end Token

namespace Template

/-- A lexeme takes up what it is made of, which is its text or holds its name. -/
theorem lexeme_split (c : Char) (cs : List Char) :
    ∃ front, front ++ (lexeme c cs).2 = c :: cs ∧
      ((lexeme c cs).1 = textOf front ∨
        ∃ name, (lexeme c cs).1 = .param name ∧ Text.Firm name) := by
  unfold lexeme
  split
  · unfold literal
    have hsplit := List.takeWhile_append_dropWhile (p := (· != c)) (l := cs)
    cases hrest : cs.dropWhile (· != c) with
    | nil =>
      rw [hrest, List.append_nil] at hsplit
      exact ⟨_, by simp [hsplit], .inl rfl⟩
    | cons q rest =>
      -- the literal goes on to its quote
      have hq : q = c := by
        have hne := List.head?_dropWhile_not (· != c) cs
        rw [hrest] at hne
        simpa using hne
      rw [hrest, hq] at hsplit
      refine ⟨_, ?_, .inl rfl⟩
      simp only [List.cons_append, List.append_assoc, List.nil_append, hsplit]
  · split
    · unfold signed
      cases cs with
      | nil => exact ⟨[c], rfl, .inl rfl⟩
      | cons q rest =>
        dsimp only
        split
        · next hq =>
          refine ⟨_, ?_, .inl rfl⟩
          simp only [List.cons_append, List.takeWhile_append_dropWhile, hq]
        · split
          · next hstart =>
            refine ⟨c :: (q :: rest).takeWhile isNamePart, ?_, .inr ⟨_, rfl, ?_⟩⟩
            · rw [List.cons_append, List.takeWhile_append_dropWhile]
            · have hpart := isNamePart_of_isNameStart hstart
              apply firm_of_isNamePart
              · simp [hpart]
              · intro d hd
                exact List.mem_takeWhile_imp hd
          · exact ⟨[c], rfl, .inl rfl⟩
    · refine ⟨_, ?_, .inl rfl⟩
      rw [List.cons_append, List.takeWhile_append_dropWhile]

/-- The names of placeholders do not end with a blank, and what ends the template ends the last
lexeme. -/
theorem firm_lexemes (cs : List Char) :
    (∀ name, .param name ∈ lexemes cs → Text.Firm name) ∧
      (Text.Firm (String.ofList cs) → Token.EndFirm (lexemes cs)) := by
  induction cs using lexemes.induct with
  | case1 =>
    rw [lexemes]
    exact ⟨by simp, fun h => (h.ne_empty rfl).elim⟩
  | case2 c rest ih =>
    obtain ⟨front, hsplit, hlexeme⟩ := lexeme_split c rest
    rw [lexemes]
    constructor
    · intro name hname
      rcases List.mem_cons.mp hname with hfirst | hlater
      · rcases hlexeme with htext | ⟨other, hparam, hfirm⟩
        · rw [htext] at hfirst
          cases hfirst
        · rw [hparam] at hfirst
          cases hfirst
          exact hfirm
      · exact ih.1 name hlater
    · intro hfirm
      rw [Token.endFirm_cons]
      by_cases hrest : (lexeme c rest).2 = []
      · left
        rw [hrest, lexemes]
        refine ⟨rfl, ?_⟩
        rcases hlexeme with htext | ⟨name, hparam, hname⟩
        · rw [hrest, List.append_nil] at hsplit
          rw [htext, hsplit]
          exact hfirm
        · rw [hparam]
          exact hname
      · right
        apply ih.2
        rw [← hsplit, String.ofList_append] at hfirm
        apply Text.firm_of_trimEnd
        · simpa using hrest
        · exact (Text.trimEnd_append_eq_self (by simpa using hrest)).mp hfirm.trimEnd

theorem firm_of_mem_scan {template name : String} (h : .param name ∈ scan template) :
    Text.Firm name := by
  unfold scan at h
  rw [Token.mem_compact (by simp)] at h
  exact (firm_lexemes _).1 name h

/-- A template that is not blank ends, once it is trimmed, with something else than a blank. -/
theorem endFirm_scan {template : String} (h : Text.allBlank template = false) :
    Token.EndFirm (scan (Text.trim template)) := by
  unfold scan
  apply Token.EndFirm.compact
  apply (firm_lexemes _).2
  rw [String.ofList_toList]
  exact Text.firm_trim h

end Template

/-! ### What is appended -/

/-- What results ends with something else than a blank, whatever its markers stand for. -/
def Claiming.EndsFirm (d : Dialect) (c : Claiming Fragment) : Prop :=
  Yields (fun f => ∀ bindings, Text.Firm (Fragment.render d.marker ⟨f.tokens, bindings⟩)) c

namespace Claiming

variable {d : Dialect}

theorem endsFirm_bind {α : Type} {P : α → Prop} {c : Claiming α} {k : α → Claiming Fragment}
    (hc : Yields P c) (hk : ∀ a, P a → EndsFirm d (k a)) : EndsFirm d (c >>= k) :=
  Yields.bind hc hk

/-- A fragment in front matters where nothing comes behind it. -/
theorem endsFirm_behind {first : Fragment} {c : Claiming Fragment}
    (h : (c = pure .empty ∧
      ∀ bindings, Text.Firm (Fragment.render d.marker ⟨first.tokens, bindings⟩)) ∨ EndsFirm d c) :
    EndsFirm d (c >>= fun rest => pure (first ++ rest)) := by
  rcases h with ⟨rfl, hfirst⟩ | hc
  · intro names f hf bindings
    cases hf
    have hnothing : Fragment.render d.marker ⟨Fragment.empty.tokens, bindings⟩ = "" := rfl
    rw [Fragment.render_extend, hnothing, String.append_empty]
    exact hfirst bindings
  · apply endsFirm_bind hc
    intro rest hrest names f hf bindings
    cases hf
    rw [Fragment.render_extend]
    exact (hrest bindings).append

end Claiming

namespace Building

open Claiming

variable (d : Dialect)

theorem firm_render_pushTokens {t : Token} (ht : t.Firm) (bindings : List Binding) :
    Text.Firm (Fragment.render d.marker ⟨(Fragment.empty.pushTokens [t]).tokens, bindings⟩) := by
  have hrender : Fragment.render d.marker ⟨(Fragment.empty.pushTokens [t]).tokens, bindings⟩ =
      Fragment.renderToken d.marker bindings t := by
    show Fragment.render d.marker ⟨Token.compact [t], bindings⟩ = _
    rw [Fragment.render_compact, Fragment.render_cons]
    exact String.append_empty
  rw [hrender]
  cases t with
  | text s => exact ht
  | param name => exact d.firm_marker (fun _ => ht) _
  | slot => exact ht.elim
  | sentinel => exact ht.elim

/-- What is written for a template ends as the template does. -/
theorem endsFirm_expand (resolved : List (String × Arg))
    (hresolved : ∀ entry ∈ resolved, ∃ v, entry.2 = .value v) (again : List (String × List Token))
    (hagain : ∀ entry ∈ again, ∃ name, entry.2 = [.param name] ∧ Text.Firm name) (ts : List Token)
    (hnames : ∀ name, .param name ∈ ts → Text.Firm name ∧ (resolved.lookup name).isSome)
    (hts : Token.EndFirm ts) : Claiming.EndsFirm d (expand resolved again ts) := by
  induction again, ts using expand.induct with
  | case1 again =>
    obtain ⟨t, ht, -⟩ := hts
    cases ht
  | case2 again name ts tokens hname ih =>
    simp only [expand, hname]
    apply endsFirm_behind
    rcases Token.endFirm_cons.mp hts with ⟨rfl, -⟩ | hrest
    · left
      refine ⟨rfl, ?_⟩
      obtain ⟨written, htokens, hfirm⟩ := hagain (name, tokens) (mem_of_lookup hname)
      cases htokens
      exact firm_render_pushTokens d (t := .param written) hfirm
    · right
      exact ih hagain (fun other hmem => hnames other (List.mem_cons_of_mem _ hmem)) hrest
  | case3 again name ts hname ih =>
    simp only [expand, hname]
    obtain ⟨hfirm, hfound⟩ := hnames name List.mem_cons_self
    obtain ⟨arg, harg⟩ := Option.isSome_iff_exists.mp hfound
    obtain ⟨v, hv⟩ := hresolved (name, arg) (mem_of_lookup harg)
    cases hv
    -- a value stands as a marker under a claimed name, here and where the placeholder is repeated
    have hplace : Yields (fun value => ∃ unique, value = .param unique v ∧ Text.Firm unique)
        (place name (resolved.lookup name)) := by
      intro names value hvalue
      rw [harg] at hvalue
      cases hvalue
      exact ⟨_, rfl, names.firm_claim hfirm⟩
    apply endsFirm_bind hplace
    rintro _ ⟨unique, rfl, hunique⟩
    apply endsFirm_behind
    rcases Token.endFirm_cons.mp hts with ⟨rfl, -⟩ | hrest
    · left
      refine ⟨rfl, ?_⟩
      intro bindings
      rw [Fragment.render_param_tokens]
      exact d.firm_marker (fun _ => hunique) _
    · right
      apply ih _ _ (fun other hmem => hnames other (List.mem_cons_of_mem _ hmem)) hrest
      intro entry hentry
      rcases List.mem_cons.mp hentry with rfl | hentry
      · exact ⟨_, rfl, hunique⟩
      · exact hagain entry hentry
  | case4 again t ts ht ih =>
    rw [expand_cons ht]
    apply endsFirm_behind
    rcases Token.endFirm_cons.mp hts with ⟨rfl, hfirm⟩ | hrest
    · left
      exact ⟨rfl, firm_render_pushTokens d hfirm⟩
    · right
      exact ih hagain (fun other hmem => hnames other (List.mem_cons_of_mem _ hmem)) hrest

end Building

end BoundSql
