import BoundSql.Proofs.Scanning
import BoundSql.Template.Format

/-!
# What positional formatting does

Read from the left, a positional template is characters and slots: two equal braces are one of them,
digits between braces are the slot of the argument of that index, and a closing brace may stand
alone (`Spelled`).  Filling puts the arguments where the slots are.  It goes wrong at an opening
brace that starts nothing, or at a slot without an argument, whichever comes first, and only there
(`Formatted`).

A text is put into a template by writing its braces twice.  Whatever stands around it, it is read
back as it was (`spelled_escaped`), so a template made of escaped texts and slots comes out as the
texts and the arguments (`format_eq_iff`).
-/

namespace BoundSql

/-! ### Digits -/

namespace Numeric

theorem digitValue?_of_isDigit {c : Char} (hc : c.isDigit = true) :
    digitValue? c = some (c.toNat - 48) := by
  have hrange : 48 ≤ c.toNat ∧ c.toNat ≤ 57 := by
    simpa [Char.isDigit, UInt32.le_iff_toNat_le] using hc
  rw [digitValue?, if_pos hrange]

theorem readMore?_of_isDigit {cs : List Char} (hcs : ∀ c ∈ cs, c.isDigit = true) (n : Nat) :
    readMore? n cs = some (Nat.ofDigitChars 10 cs n) := by
  induction cs generalizing n with
  | nil => rfl
  | cons c cs ih =>
    rw [readMore?, digitValue?_of_isDigit (hcs c List.mem_cons_self), Option.bind_some,
      ih fun d hd => hcs d (List.mem_cons_of_mem _ hd)]
    rfl

/-- The digits of a number are read as that number. -/
theorem readDigits?_digits (n : Nat) : readDigits? (digits n) = some n := by
  have hread : readMore? 0 (digits n) = some n := by
    have hdigits : ∀ c ∈ digits n, c.isDigit = true := fun _ =>
      Nat.isDigit_of_mem_toDigits (by decide) (by decide)
    rw [readMore?_of_isDigit hdigits]
    exact congrArg some (Nat.ofDigitChars_toDigits (by decide) (by decide))
  have hne : digits n ≠ [] := Nat.toDigits_ne_nil
  cases hdigits : digits n with
  | nil => exact absurd hdigits hne
  | cons c cs => rwa [hdigits] at hread

theorem isSome_digitValue?_of_readMore? {cs : List Char} {m n : Nat}
    (h : readMore? m cs = some n) : ∀ c ∈ cs, (digitValue? c).isSome = true := by
  induction cs generalizing m with
  | nil => simp
  | cons c cs ih =>
    obtain ⟨d, hd, hrest⟩ := Option.bind_eq_some_iff.mp h
    intro x hx
    rcases List.mem_cons.mp hx with rfl | hx
    · rw [hd]
      rfl
    · exact ih hrest x hx

end Numeric

open Numeric

namespace Template

/-- Whatever reads as a number is digits. -/
theorem isDigit_of_readDigits? {cs : List Char} {n : Nat} (h : readDigits? cs = some n) :
    ∀ c ∈ cs, isDigit c = true := by
  cases cs with
  | nil => simp
  | cons c cs => exact isSome_digitValue?_of_readMore? h

/-- A slot is digits up to a closing brace that write an index. -/
theorem slotIndex?_eq_some_iff {cs rest : List Char} {i : Nat} :
    slotIndex? cs = some (i, rest) ↔
      ∃ ds, cs = ds ++ '\x7d' :: rest ∧ readDigits? ds = some i ∧ i < indexLimit := by
  constructor
  · intro h
    have hsplit := List.takeWhile_append_dropWhile (p := isDigit) (l := cs)
    unfold slotIndex? at h
    split at h
    · next index after hread hclose =>
      obtain ⟨rfl, rfl⟩ := Prod.mk.inj (Option.some.inj h)
      obtain ⟨hindex, hlimit⟩ := Option.filter_eq_some_iff.mp hread
      exact ⟨_, by rw [← hclose, hsplit], hindex, by simpa using hlimit⟩
    · cases h
  · rintro ⟨ds, rfl, hread, hlimit⟩
    obtain ⟨htake, hdrop⟩ := span_append_of_head? (isDigit_of_readDigits? hread) ('\x7d' :: rest)
      (by simp [isDigit, digitValue?])
    unfold slotIndex?
    rw [htake, hdrop, hread, Option.filter_some, if_pos (by simpa using hlimit)]
    rfl

/-! ### Reading templates -/

/-- What a positional template says at one place. -/
inductive Element where
  | char (c : Char)
  /-- The argument of the index. -/
  | slot (index : Nat)

/-- Read from the left, the characters are the elements and the rest behind them. -/
inductive Spelled : List Char → List Element → List Char → Prop where
  | done (cs : List Char) : Spelled cs [] cs
  | opening {cs rest : List Char} {es : List Element} (h : Spelled cs es rest) :
      Spelled ('\x7b' :: '\x7b' :: cs) (.char '\x7b' :: es) rest
  | closing {cs rest : List Char} {es : List Element} (h : Spelled cs es rest) :
      Spelled ('\x7d' :: '\x7d' :: cs) (.char '\x7d' :: es) rest
  | slot {ds cs rest : List Char} {i : Nat} {es : List Element} (hread : readDigits? ds = some i)
      (hlimit : i < indexLimit) (h : Spelled cs es rest) :
      Spelled ('\x7b' :: (ds ++ '\x7d' :: cs)) (.slot i :: es) rest
  | char {c : Char} {cs rest : List Char} {es : List Element} (hopen : c ≠ '\x7b')
      (hclose : c = '\x7d' → cs.head? ≠ some '\x7d') (h : Spelled cs es rest) :
      Spelled (c :: cs) (.char c :: es) rest

/-- An opening brace that starts neither two of them nor a slot. -/
def Stuck : List Char → Prop
  | c :: cs => c = '\x7b' ∧ cs.head? ≠ some '\x7b' ∧
      ∀ ds i rest, cs = ds ++ '\x7d' :: rest → readDigits? ds = some i → indexLimit ≤ i
  | [] => False

theorem Spelled.trans {cs ds rest : List Char} {es fs : List Element} (h : Spelled cs es ds)
    (h' : Spelled ds fs rest) : Spelled cs (es ++ fs) rest := by
  induction h with
  | done cs => exact h'
  | opening h ih => exact .opening (ih h')
  | closing h ih => exact .closing (ih h')
  | slot hread hlimit h ih => exact .slot hread hlimit (ih h')
  | char hopen hclose h ih => exact .char hopen hclose (ih h')

/-! ### Filling -/

section

variable (template : String) (args : List String)

/-- The element is no slot without an argument. -/
def Element.Known : Element → Prop
  | char _ => True
  | slot i => i < args.length

/-- What is written for an element. -/
def Element.filled : Element → List Char
  | char c => [c]
  | slot i => (args.getD i "").toList

theorem before_before (cs ds : List Char) (r : Except Fault (List Char)) :
    before cs (before ds r) = before (cs ++ ds) r := by
  cases r with
  | error e => rfl
  | ok s => simp [before, Except.map]

variable {template args} {cs rest : List Char} {es : List Element}

theorem fill_slot {i : Nat} (h : slotIndex? cs = some (i, rest)) :
    fill template args ('\x7b' :: cs) =
      if i < args.length then before (args.getD i "").toList (fill template args rest)
      else .error (.count (.missingArgument template i args.length)) := by
  have hdigit : ∀ tail, cs = '\x7b' :: tail → False := by
    rintro tail rfl
    simp [slotIndex?, isDigit, digitValue?, readDigits?] at h
  rw [fill.eq_4 template args cs hdigit]
  split
  · next hnone => simp [h] at hnone
  · next index after hsome =>
    obtain ⟨rfl, rfl⟩ := Prod.mk.inj (Option.some.inj (hsome.symm.trans h))
    split
    · next hnone => rw [if_neg (by simpa using hnone)]
    · next arg harg =>
      obtain ⟨hlt, rfl⟩ := List.getElem?_eq_some_iff.mp harg
      simp [hlt]

theorem fill_stuck (h : Stuck cs) :
    fill template args cs = .error (.template (.malformedSlot template)) := by
  cases cs with
  | nil => exact h.elim
  | cons c cs =>
    obtain ⟨rfl, hopen, hslot⟩ := h
    rw [fill.eq_4 template args cs (by rintro tail rfl; exact hopen rfl)]
    split
    · rfl
    · next index after hsome =>
      obtain ⟨ds, hsplit, hread, hlimit⟩ := slotIndex?_eq_some_iff.mp hsome
      exact absurd hlimit (Nat.not_lt.mpr (hslot ds index after hsplit hread))

/-- What was read is filled before the rest. -/
theorem fill_of_spelled (h : Spelled cs es rest) (hes : ∀ e ∈ es, e.Known args) :
    fill template args cs =
      before (es.flatMap (Element.filled args)) (fill template args rest) := by
  induction h with
  | done cs =>
    cases fill template args cs with
    | error e => rfl
    | ok s => rfl
  | opening h ih =>
    rw [fill.eq_2, ih fun e he => hes e (List.mem_cons_of_mem _ he), before_before]
    rfl
  | closing h ih =>
    rw [fill.eq_3, ih fun e he => hes e (List.mem_cons_of_mem _ he), before_before]
    rfl
  | slot hread hlimit h ih =>
    have hknown : _ < args.length := hes _ List.mem_cons_self
    rw [fill_slot (slotIndex?_eq_some_iff.mpr ⟨_, rfl, hread, hlimit⟩), if_pos hknown,
      ih fun e he => hes e (List.mem_cons_of_mem _ he), before_before]
    rfl
  | @char c cs rest es hopen hclose h ih =>
    have hplain := fill.eq_5 template args c cs (fun _ hc _ => hopen hc)
      (fun _ hc hcs => hclose hc (by rw [hcs]; rfl)) hopen
    rw [hplain, ih fun e he => hes e (List.mem_cons_of_mem _ he), before_before]
    rfl

/-- What filling the characters comes to. -/
inductive Filled (template : String) (args : List String) (cs : List Char) :
    Except Fault (List Char) → Prop where
  | whole {es : List Element} (h : Spelled cs es []) (hes : ∀ e ∈ es, e.Known args) :
      Filled template args cs (.ok (es.flatMap (Element.filled args)))
  | stuck {es : List Element} {rest : List Char} (h : Spelled cs es rest)
      (hes : ∀ e ∈ es, e.Known args) (hrest : Stuck rest) :
      Filled template args cs (.error (.template (.malformedSlot template)))
  | missing {es : List Element} {ds rest : List Char} {i : Nat}
      (h : Spelled cs es ('\x7b' :: (ds ++ '\x7d' :: rest))) (hes : ∀ e ∈ es, e.Known args)
      (hread : readDigits? ds = some i) (hlimit : i < indexLimit) (hi : args.length ≤ i) :
      Filled template args cs (.error (.count (.missingArgument template i args.length)))

/-- Known elements in front of characters are filled and change nothing else. -/
theorem Filled.before {ds : List Char} {r : Except Fault (List Char)}
    (h : Filled template args cs r) (es : List Element)
    (hread : ∀ fs rest, Spelled cs fs rest → Spelled ds (es ++ fs) rest)
    (hes : ∀ e ∈ es, e.Known args) :
    Filled template args ds (before (es.flatMap (Element.filled args)) r) := by
  have hboth : ∀ {fs : List Element}, (∀ e ∈ fs, e.Known args) → ∀ e ∈ es ++ fs, e.Known args :=
    fun hfs e he => (List.mem_append.mp he).elim (hes e) (hfs e)
  cases h with
  | whole h hfs =>
    have hwhole : Filled template args ds (.ok _) := .whole (hread _ _ h) (hboth hfs)
    rwa [List.flatMap_append] at hwhole
  | stuck h hfs hrest => exact .stuck (hread _ _ h) (hboth hfs) hrest
  | missing h hfs hdigits hlimit hi =>
    exact .missing (hread _ _ h) (hboth hfs) hdigits hlimit hi

/-- The induction follows the filling: each step reads one element, or ends it. -/
theorem filled_fill (template : String) (args : List String) (cs : List Char) :
    Filled template args cs (fill template args cs) := by
  induction cs using fill.induct args with
  | case1 =>
    rw [fill.eq_1]
    exact .whole (.done []) (by simp)
  | case2 rest ih =>
    rw [fill.eq_2]
    exact ih.before [.char '\x7b'] (fun _ _ => .opening) (by simp [Element.Known])
  | case3 rest ih =>
    rw [fill.eq_3]
    exact ih.before [.char '\x7d'] (fun _ _ => .closing) (by simp [Element.Known])
  | case4 rest hopen hslot =>
    have hstuck : Stuck ('\x7b' :: rest) := by
      refine ⟨rfl, ?_, ?_⟩
      · intro hhead
        obtain ⟨tail, rfl⟩ := List.head?_eq_some_iff.mp hhead
        exact hopen tail rfl
      · intro ds i after hsplit hread
        by_contra hlimit
        rw [slotIndex?_eq_some_iff.mpr ⟨ds, hsplit, hread, by omega⟩] at hslot
        cases hslot
    rw [fill_stuck hstuck]
    exact .stuck (.done _) (by simp) hstuck
  | case5 rest hopen i after hslot hshort hmissing =>
    have hi : args.length ≤ i := List.getElem?_eq_none_iff.mp hmissing
    obtain ⟨ds, rfl, hread, hlimit⟩ := slotIndex?_eq_some_iff.mp hslot
    rw [fill_slot hslot, if_neg (Nat.not_lt.mpr hi)]
    exact .missing (.done _) (by simp) hread hlimit hi
  | case6 rest hopen i after hslot hshort arg harg ih =>
    obtain ⟨hi, -⟩ := List.getElem?_eq_some_iff.mp harg
    obtain ⟨ds, rfl, hread, hlimit⟩ := slotIndex?_eq_some_iff.mp hslot
    rw [fill_slot hslot, if_pos hi]
    have hfilled := ih.before [.slot i] (fun _ _ => .slot hread hlimit)
      (by simpa [Element.Known] using hi)
    simpa [Element.filled] using hfilled
  | case7 c rest hopening hclosing hopen ih =>
    rw [fill.eq_5 template args c rest hopening hclosing hopen]
    refine ih.before [.char c] (fun _ _ => .char hopen ?_) (by simp [Element.Known])
    intro hc hhead
    obtain ⟨tail, rfl⟩ := List.head?_eq_some_iff.mp hhead
    exact hclosing tail hc rfl

theorem fill_eq_iff (template : String) (args : List String) (cs : List Char)
    (r : Except Fault (List Char)) : fill template args cs = r ↔ Filled template args cs r := by
  refine ⟨fun h => h ▸ filled_fill template args cs, fun h => ?_⟩
  cases h with
  | whole h hes =>
    rw [fill_of_spelled h hes, fill.eq_1]
    simp [before, Except.map]
  | stuck h hes hrest =>
    rw [fill_of_spelled h hes, fill_stuck hrest]
    rfl
  | missing h hes hread hlimit hi =>
    rw [fill_of_spelled h hes, fill_slot (slotIndex?_eq_some_iff.mpr ⟨_, rfl, hread, hlimit⟩),
      if_neg (Nat.not_lt.mpr hi)]
    rfl

end

/-! ### Escaped texts and slots -/

/-- The text with its braces written twice. -/
def escaped (s : String) : String :=
  String.ofList (s.toList.flatMap fun c => if c = '\x7b' ∨ c = '\x7d' then [c, c] else [c])

/-- Escaped texts with slots between them. -/
def positional {n : Nat} (start : String) (parts : List (Fin n × String)) : String :=
  escaped start ++
    String.join (parts.map fun (i, s) => "\x7b" ++ natText i ++ "\x7d" ++ escaped s)

/-- The texts with arguments between them. -/
def substituted (args : List String) (start : String)
    (parts : List (Fin args.length × String)) : String :=
  start ++ String.join (parts.map fun (i, s) => args[i] ++ s)

/-- An escaped text is read as the text, whatever comes behind it. -/
theorem spelled_escaped (s : String) (rest : List Char) :
    Spelled ((escaped s).toList ++ rest) (s.toList.map .char) rest := by
  unfold escaped
  rw [String.toList_ofList]
  induction s.toList with
  | nil => exact .done rest
  | cons c cs ih =>
    rw [List.flatMap_cons, List.map_cons, List.append_assoc]
    by_cases hopen : c = '\x7b'
    · subst hopen
      exact .opening ih
    · by_cases hclose : c = '\x7d'
      · subst hclose
        exact .closing ih
      · rw [if_neg (not_or.mpr ⟨hopen, hclose⟩)]
        exact .char hopen (fun h => absurd h hclose) ih

/-- What slots and escaped texts are read as. -/
def elements {n : Nat} (parts : List (Fin n × String)) : List Element :=
  parts.flatMap fun (i, s) => .slot i :: s.toList.map .char

theorem spelled_parts {n : Nat} (hn : n ≤ indexLimit) (parts : List (Fin n × String)) :
    Spelled (String.join (parts.map fun (i, s) =>
      "\x7b" ++ natText i ++ "\x7d" ++ escaped s)).toList (elements parts) [] := by
  induction parts with
  | nil => exact .done []
  | cons part parts ih =>
    obtain ⟨i, s⟩ := part
    have hslot := Spelled.slot (readDigits?_digits i) (Nat.lt_of_lt_of_le i.isLt hn)
      ((spelled_escaped s _).trans ih)
    simpa [elements, natText, String.join_cons] using hslot

section

variable {args : List String}

theorem known_chars (s : String) : ∀ e ∈ s.toList.map Element.char, e.Known args := by
  intro e he
  obtain ⟨c, -, rfl⟩ := List.mem_map.mp he
  trivial

theorem known_elements (parts : List (Fin args.length × String)) :
    ∀ e ∈ elements parts, e.Known args := by
  intro e he
  obtain ⟨⟨i, s⟩, -, hpart⟩ := List.mem_flatMap.mp he
  rcases List.mem_cons.mp hpart with rfl | htext
  · exact i.isLt
  · exact known_chars s e htext

theorem filled_chars (s : String) :
    (s.toList.map Element.char).flatMap (Element.filled args) = s.toList := by
  rw [List.flatMap_map]
  exact List.flatMap_singleton' s.toList

theorem filled_elements (parts : List (Fin args.length × String)) :
    (elements parts).flatMap (Element.filled args) =
      (String.join (parts.map fun (i, s) => args[i] ++ s)).toList := by
  induction parts with
  | nil => rfl
  | cons part parts ih =>
    obtain ⟨i, s⟩ := part
    have hslot : Element.filled args (.slot i) = args[i].toList := by simp [Element.filled]
    have hfirst : elements ((i, s) :: parts) =
        .slot i :: (s.toList.map .char ++ elements parts) := rfl
    rw [hfirst, List.flatMap_cons, List.flatMap_append, hslot, filled_chars, ih, List.map_cons,
      String.join_cons, String.toList_append, String.toList_append, List.append_assoc]

end

/-! ### Templates -/

/-- What formatting comes to: a template with placeholders is refused, and otherwise it is filled,
up to the first place that cannot be. -/
inductive Formatted (template : String) (args : List String) : Except Fault String → Prop where
  | refused (h : Token.paramNames (scan template) ≠ []) :
      Formatted template args
        (.error (.template (.placeholders template (Token.paramNames (scan template)).length)))
  | filled {r : Except Fault (List Char)} (h : Token.paramNames (scan template) = [])
      (hr : Filled template args template.toList r) :
      Formatted template args (r.map String.ofList)

theorem format_of_placeholders {template : String} (h : Token.paramNames (scan template) ≠ [])
    (args : List String) :
    format template args =
      .error (.template (.placeholders template (Token.paramNames (scan template)).length)) := by
  unfold format
  rw [if_pos (List.length_pos_iff.mpr h)]

theorem format_of_no_placeholders {template : String}
    (h : Token.paramNames (scan template) = []) (args : List String) :
    format template args = (fill template args template.toList).map String.ofList := by
  unfold format
  rw [h]
  rfl

/-- A template made of escaped texts and slots is filled with the texts and the arguments. -/
theorem fill_positional {args : List String} (hargs : args.length ≤ indexLimit) (start : String)
    (parts : List (Fin args.length × String)) (template : String) :
    fill template args (positional start parts).toList =
      .ok (substituted args start parts).toList := by
  have hread : Spelled (positional start parts).toList
      (start.toList.map .char ++ elements parts) [] := by
    unfold positional
    rw [String.toList_append]
    exact (spelled_escaped start _).trans (spelled_parts hargs parts)
  have hknown : ∀ e ∈ start.toList.map .char ++ elements parts, e.Known args := by
    intro e he
    rcases List.mem_append.mp he with hstart | hparts
    · exact known_chars start e hstart
    · exact known_elements parts e hparts
  rw [(fill_eq_iff _ _ _ _).mpr (.whole hread hknown), List.flatMap_append, filled_chars,
    filled_elements, ← String.toList_append]
  rfl

/-- A template made of escaped texts and slots is formatted as the texts with the arguments between
them, copied as they are, if it has no placeholders (and no more arguments than can be numbered by
64 bits).  Any template with placeholders is refused; any
other one is read from the left and filled, up to the first opening brace that starts nothing or the
first slot without an argument, and nothing else goes wrong. -/
theorem format_eq_iff (template : String) (args : List String) :
    (args.length ≤ indexLimit → ∀ (start : String) (parts : List (Fin args.length × String)),
      template = positional start parts → Token.paramNames (scan template) = [] →
        format template args = .ok (substituted args start parts)) ∧
      ∀ r, format template args = r ↔ Formatted template args r := by
  refine ⟨?_, ?_⟩
  · rintro hargs start parts rfl hnone
    rw [format_of_no_placeholders hnone, fill_positional hargs]
    show Except.ok (String.ofList _) = _
    rw [String.ofList_toList]
  · intro r
    by_cases hnone : Token.paramNames (scan template) = []
    · rw [format_of_no_placeholders hnone]
      constructor
      · rintro rfl
        exact .filled hnone (filled_fill template args template.toList)
      · intro h
        cases h with
        | refused h => exact absurd hnone h
        | filled _ hr => rw [(fill_eq_iff _ _ _ _).mpr hr]
    · rw [format_of_placeholders hnone]
      constructor
      · rintro rfl
        exact .refused hnone
      · intro h
        cases h with
        | refused _ => rfl
        | filled h _ => exact absurd h hnone

/-- Slots between braces, and an argument that looks like a template. -/
theorem format_between_braces :
    let args := ["orders", ":x \x7b0\x7d"]
    let template := "\x7b\x7b\x7b1\x7d\x7d\x7d FROM \x7b0\x7d\x7b\x7b"
    args.length ≤ indexLimit ∧
      template = positional (n := 2) "\x7b" [(1, "\x7d FROM "), (0, "\x7b")] ∧
      Token.paramNames (scan template) = [] ∧
      format template args = .ok "\x7b:x \x7b0\x7d\x7d FROM orders\x7b" := by
  intro args template
  have hargs : args.length ≤ indexLimit := by decide
  have htemplate : template =
      positional (n := 2) "\x7b" [(1, "\x7d FROM "), (0, "\x7b")] := by decide +kernel
  have hnone : Token.paramNames (scan template) = [] := by decide +kernel
  have hformat := (format_eq_iff template args).1 hargs "\x7b"
    [((1 : Fin 2), "\x7d FROM "), ((0 : Fin 2), "\x7b")] htemplate hnone
  exact ⟨hargs, htemplate, hnone, hformat⟩

end Template

end BoundSql
