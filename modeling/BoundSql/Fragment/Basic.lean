import BoundSql.Fragment.Names
import BoundSql.Template.Token
import BoundSql.Text.Blank
import BoundSql.Text.Split

/-!
# Fragments

A fragment of a statement is compact tokens together with the values that its parameter markers
stand for.  Fragments are put together by `extend`; the other operations here cut a filter clause
off, edit a select list, rename parameters and render the text.
-/

namespace BoundSql

/-- A value bound to a parameter of a statement. -/
structure Binding where
  name : String
  value : Value
  deriving DecidableEq

/-- The declared type of a binding, as a NULL. -/
def Binding.type (b : Binding) : Value := b.value.asType

/-- Tokens and the values bound to their markers. -/
structure Fragment where
  tokens : List Token
  bindings : List Binding

namespace Fragment

/-- The opening of a filter clause that every row passes. -/
def sentinelText : String := " WHERE 1=1"

/-- No text. -/
def empty : Fragment := ⟨[], []⟩

/-- A text alone. -/
def text (s : String) : Fragment := ⟨Token.compact [.text s], []⟩

/-- The opening of a filter clause. -/
def sentinel : Fragment := ⟨[.sentinel], []⟩

/-- A marker and the value it stands for. -/
def param (name : String) (value : Value) : Fragment := ⟨[.param name], [⟨name, value⟩]⟩

/-- The fragment with another one after it. -/
def extend (f g : Fragment) : Fragment :=
  ⟨Token.append f.tokens g.tokens, f.bindings ++ g.bindings⟩

instance : Append Fragment := ⟨extend⟩

/-- The fragment with a text after it. -/
def pushText (f : Fragment) (s : String) : Fragment := f ++ text s

/-- The fragment with tokens after it whose markers refer to bindings it has. -/
def pushTokens (f : Fragment) (ts : List Token) : Fragment :=
  { f with tokens := Token.append f.tokens ts }

def isEmpty (f : Fragment) : Bool := f.tokens.isEmpty

/-! ### Filter clause and select list -/

/-- The tokens before the last opening of a filter clause and those after it. -/
def cutFilter? : List Token → Option (List Token × List Token)
  | [] => none
  | t :: ts =>
    match cutFilter? ts with
    | some (before, clause) => some (t :: before, clause)
    | none => if t = .sentinel then some ([], ts) else none

/-- The filter clause without its opening, if there is one, and the fragment without both. -/
def takeFilterClause (f : Fragment) : Option (List Token) × Fragment :=
  match cutFilter? f.tokens with
  | some (before, clause) => (some clause, { f with tokens := before })
  | none => (none, f)

/-- The items of a select list that are not blank. -/
def selectItems (list : List Char) : List String :=
  ((Text.splitAt ", ".toList list).map String.ofList).filter (!Text.allBlank ·)

/-- The text with the items between its first `SELECT` and the `FROM` edited, if it has both. -/
def editText? (edit : List String → List String) (s : String) : Option String :=
  match Text.splitFirst? " FROM ".toList s.toList with
  | none => none
  | some (head, tail) =>
    (Text.splitFirst? "SELECT ".toList head).map fun (before, list) =>
      String.ofList before ++ "SELECT " ++ ", ".intercalate (edit (selectItems list))
        ++ " FROM " ++ String.ofList tail

/-- The tokens with the first select list among them edited, if there is one. -/
def editTokens? (edit : List String → List String) : List Token → Option (List Token)
  | [] => none
  | .text s :: ts =>
    match editText? edit s with
    | some edited => some (.text edited :: ts)
    | none => (editTokens? edit ts).map (.text s :: ·)
  | t :: ts => (editTokens? edit ts).map (t :: ·)

/-- The fragment with its select list edited, if it has one. -/
def editSelectList? (edit : List String → List String) (f : Fragment) : Option Fragment :=
  (editTokens? edit f.tokens).map fun ts => { f with tokens := ts }

/-! ### Blanks and sentinels -/

/-- Cuts the blanks off the start of the first token. -/
def trimFirst : List Token → List Token
  | .text s :: ts => .text (Text.trimStart s) :: ts
  | ts => ts

/-- Cuts the blanks off the end of the last token. -/
def trimLast : List Token → List Token
  | [] => []
  | [.text s] => [.text (Text.trimEnd s)]
  | t :: ts => t :: trimLast ts

/-- The fragment without the blanks around it. -/
def trim (f : Fragment) : Fragment :=
  { f with tokens := (trimLast (trimFirst f.tokens)).filter (· ≠ .text "") }

/-- A filter opening as plain text. -/
def sealToken : Token → Token
  | .sentinel => .text sentinelText
  | t => t

/-- The fragment with its filter openings as plain text, so that no join can take the clause. -/
def sealed (f : Fragment) : Fragment :=
  { f with tokens := Token.compact (f.tokens.map sealToken) }

/-! ### Renaming -/

/-- What the pairs, of which a later one wins over an earlier one, rename a name to. -/
def renamed (pairs : List (String × String)) (name : String) : String :=
  (pairs.reverse.lookup name).getD name

/-- Renames markers and bindings, all at once. -/
def rename (f : Fragment) (pairs : List (String × String)) : Fragment where
  tokens := f.tokens.map fun
    | .param name => .param (renamed pairs name)
    | t => t
  bindings := f.bindings.map fun b => { b with name := renamed pairs b.name }

/-- The fragment with every binding under a name of its own among `names`. -/
def claimNames (f : Fragment) (names : Names) : Fragment × Names :=
  let olds := f.bindings.map (·.name)
  let (news, names) := names.claimAll olds
  (f.rename ((olds.zip news).filter fun (old, new) => new != old), names)

/-! ### Rendering -/

/-- The value that a marker stands for: the last one bound under its name, NULL if there is
none. -/
def valueOf (bindings : List Binding) (name : String) : Value :=
  ((bindings.reverse.find? (·.name == name)).map (·.value)).getD Value.unknown

/-- The text of a token.  A slot that was never filled has none. -/
def renderToken (marker : String → Value → String) (bindings : List Binding) : Token → String
  | .text s => s
  | .param name => marker name (valueOf bindings name)
  | .slot => ""
  | .sentinel => sentinelText

/-- The text of the fragment, with markers as `marker` writes them. -/
def render (marker : String → Value → String) (f : Fragment) : String :=
  String.join (f.tokens.map (renderToken marker f.bindings))

end Fragment

end BoundSql
