import BoundSql.Declaration.TypeText
import BoundSql.Numeric.Digits
import BoundSql.Text.Split
import BoundSql.Text.Words

/-!
# Declarations

A record declaration with attributes, and the mapping to a table that it stands for.  Reading the
attributes fails at the first one that is wrong: field by field in the order of the declaration,
then the attributes of the record, then what the fields say together.
-/

namespace BoundSql.Declaration

/-- A literal in an attribute. -/
inductive Literal where
  | text (s : String)
  | flag (b : Bool)
  | number (n : Int)
  deriving DecidableEq, Repr

/-- An attribute, or what stands in the parentheses of one. -/
inductive Attribute where
  | literal (l : Literal)
  /-- `path` -/
  | word (path : String)
  /-- `path = literal` -/
  | assign (path : String) (l : Literal)
  /-- `path(item, item)` -/
  | group (path : String) (items : List Attribute)

instance : Inhabited Attribute := ⟨.word ""⟩

/-- A field as it is declared. -/
structure Field where
  name : String
  type : String
  attributes : List Attribute

/-- How the fields of a record are declared. -/
inductive Shape where
  | named
  | tuple
  | unit
  deriving DecidableEq, Repr

/-- A record as it is declared. -/
structure Source where
  name : String
  shape : Shape
  /-- The generic parameters with their brackets, empty if there are none. -/
  generics : String
  attributes : List Attribute
  fields : List Field

/-- What is wrong with a declaration. -/
inductive Mistake where
  | namedFields
  | generic
  | columnUsage
  | commaExpected
  | bareLiteral
  | nameUsage
  | keyUsage
  | generatedUsage
  | ignoreUsage
  | unknown (path : String)
  | generatedField (field : String)
  | tableUsage (default : String)
  | recordListUsage
  | recordUsage
  | manyKeys (record : String) (count : Nat)
  | ignoredKey (record : String)
  deriving DecidableEq, Repr

namespace Mistake

/-- A path with spaces around its colons. -/
def spaced (path : String) : String :=
  String.ofList
    ((" :: ".toList.intercalate (Text.splitAt "::".toList path.toList)).dropWhile (· == ' '))

def message : Mistake → String
  | namedFields => "Entity can only be derived for structs with named fields"
  | generic => "Entity cannot be derived for generic structs"
  | columnUsage =>
    "Error while parsing `column`, use it like: `#[column(attribute = value, ...)]`"
  | commaExpected => "Error while parsing `column`: expected `,`"
  | bareLiteral =>
    "Error while parsing `column`: unexpected literal in nested attribute, expected ident"
  | nameUsage => "Error while parsing `name`, use it like: `#[column(name = \"my_column\")]`"
  | keyUsage => "Error while parsing `primary_key`, use it like: `#[column(primary_key)]`"
  | generatedUsage =>
    "Error while parsing `auto_increment`, use it like: `#[column(auto_increment = false)]`"
  | ignoreUsage => "Error while parsing `ignore`, use it like: `#[column(ignore)]`"
  | unknown path =>
    "Unknown attribute `" ++ spaced path ++ "` inside column, expected one of `name`, "
      ++ "`primary_key`, `auto_increment`, `ignore`"
  | generatedField field =>
    "Field `" ++ field ++ "` uses `auto_increment` but only the primary key can be generated "
      ++ "by the database"
  | tableUsage default =>
    "Error while parsing `table_name`, use it like #[table_name(\"" ++ default ++ "_table\")]"
  | recordListUsage =>
    "Error while parsing `auto_increment`, use it like #[auto_increment(false)]"
  | recordUsage =>
    "Error while parsing `auto_increment`, use it like #[auto_increment] or "
      ++ "#[auto_increment(false)]"
  | manyKeys record count =>
    "Entity `" ++ record ++ "` declares " ++ Numeric.natText count
      ++ " primary keys, at most one column can be the primary key"
  | ignoredKey record => "The primary key of `" ++ record ++ "` cannot be ignored"

end Mistake

end BoundSql.Declaration
