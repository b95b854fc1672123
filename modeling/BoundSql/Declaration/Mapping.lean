import BoundSql.Declaration.Basic

/-!
# The mapping of a declaration

Reading the attributes of a declaration: which table and columns it names, which column is the key,
which columns the database generates and which fields are not stored.
-/

namespace BoundSql.Declaration

/-- How a field is stored. -/
structure FieldMapping where
  /-- The name as it is declared. -/
  ident : String
  /-- The name of the column. -/
  column : String
  nullable : Bool
  primaryKey : Bool
  generated : Option Bool
  ignored : Bool
  deriving DecidableEq, Repr

/-- How a record is stored. -/
structure Mapping where
  table : String
  generated : Option Bool
  fields : List FieldMapping
  deriving DecidableEq, Repr

/-- The name without the mark that lets it be a keyword. -/
def unmarked (ident : String) : String :=
  match ident.toList with
  | 'r' :: '#' :: rest => String.ofList rest
  | _ => ident

namespace FieldMapping

/-- The mapping of a field without attributes. -/
def plain (f : Field) : FieldMapping :=
  ⟨f.name, unmarked f.name, isOptionType f.type, false, none, false⟩

/-- What an attribute that has no value means to a field. -/
def withWord (m : FieldMapping) (path : String) : Except Mistake FieldMapping :=
  match path with
  | "name" => .error .nameUsage
  | "primary_key" => .ok { m with primaryKey := true, nullable := false }
  | "auto_increment" => .ok { m with generated := some true }
  | "ignore" => .ok { m with ignored := true }
  | path => .error (.unknown path)

/-- What an attribute with a value means to a field. -/
def withValue (m : FieldMapping) (path : String) (l : Literal) : Except Mistake FieldMapping :=
  match path, l with
  | "name", .text column => .ok { m with column }
  | "name", _ => .error .nameUsage
  | "primary_key", _ => .error .keyUsage
  | "auto_increment", .flag b => .ok { m with generated := some b }
  | "auto_increment", _ => .error .generatedUsage
  | "ignore", _ => .error .ignoreUsage
  | path, _ => .error (.unknown path)

/-- What an item in the parentheses of `column` means to a field.  A boolean alone is read as a
name, and parentheses after a name that takes none are what should have been a comma. -/
def withItem (m : FieldMapping) : Attribute → Except Mistake FieldMapping
  | .literal (.flag b) => m.withWord (if b then "true" else "false")
  | .literal _ => .error .bareLiteral
  | .word path => m.withWord path
  | .assign path l => m.withValue path l
  | .group path _ =>
    match m.withWord path with
    | .error e => .error e
    | .ok _ => .error .commaExpected

/-- What the items in the parentheses of `column` mean to a field. -/
def withItems (m : FieldMapping) : List Attribute → Except Mistake FieldMapping
  | [] => .ok m
  | item :: items =>
    match m.withItem item with
    | .error e => .error e
    | .ok m => m.withItems items

/-- What the attributes of a field mean to it.  Only `column` means anything. -/
def withAttributes (m : FieldMapping) : List Attribute → Except Mistake FieldMapping
  | [] => .ok m
  | .group "column" items :: rest =>
    match m.withItems items with
    | .error e => .error e
    | .ok m => m.withAttributes rest
  | .word "column" :: _ => .error .columnUsage
  | .assign "column" _ :: _ => .error .columnUsage
  | _ :: rest => m.withAttributes rest

/-- The mapping of a field.  Only a key can be generated. -/
def ofField (f : Field) : Except Mistake FieldMapping :=
  match (plain f).withAttributes f.attributes with
  | .error e => .error e
  | .ok m =>
    if m.generated.isSome && !m.primaryKey then .error (.generatedField f.name) else .ok m

/-- The mappings of fields; the first mistake wins. -/
def ofFields : List Field → Except Mistake (List FieldMapping)
  | [] => .ok []
  | f :: fs =>
    match ofField f with
    | .error e => .error e
    | .ok m => (ofFields fs).map (m :: ·)

end FieldMapping

/-- The table that the first `table_name` among the attributes names. -/
def tableName (default : String) : List Attribute → Except Mistake String
  | [] => .ok default
  | .group "table_name" [.literal (.text name)] :: _ => .ok name
  | .group "table_name" _ :: _ => .error (.tableUsage default)
  | .word "table_name" :: _ => .error (.tableUsage default)
  | .assign "table_name" _ :: _ => .error (.tableUsage default)
  | _ :: rest => tableName default rest

/-- What the first `auto_increment` among the attributes says. -/
def generatedKeys : List Attribute → Except Mistake (Option Bool)
  | [] => .ok none
  | .word "auto_increment" :: _ => .ok (some true)
  | .group "auto_increment" [.literal (.flag b)] :: _ => .ok (some b)
  | .group "auto_increment" _ :: _ => .error .recordListUsage
  | .assign "auto_increment" _ :: _ => .error .recordUsage
  | _ :: rest => generatedKeys rest

/-- The table of a record that names none: the name in snake case, without an underscore at its
start. -/
def defaultTable (record : String) : String :=
  match (Text.snakeCase record).toList with
  | '_' :: cs => String.ofList cs
  | cs => String.ofList cs

namespace Mapping

/-- The fields that are stored. -/
def columns (m : Mapping) : List FieldMapping := m.fields.filter (!·.ignored)

/-- The fields that are not stored. -/
def ignored (m : Mapping) : List FieldMapping := m.fields.filter (·.ignored)

/-- Refuses more than one key, and a key that is not stored. -/
def checkKeys (record : String) (m : Mapping) : Except Mistake Mapping :=
  let keys := (m.columns.filter (·.primaryKey)).length
  if keys > 1 then .error (.manyKeys record keys)
  else if m.fields.any fun f => f.ignored && f.primaryKey then .error (.ignoredKey record)
  else .ok m

/-- The mapping of a declaration. -/
def ofSource (s : Source) : Except Mistake Mapping :=
  if s.shape ≠ .named then .error .namedFields
  else if hasParameters s.generics then .error .generic
  else do
    let fields ← FieldMapping.ofFields s.fields
    let table ← tableName (defaultTable s.name) s.attributes
    let generated ← generatedKeys s.attributes
    checkKeys s.name ⟨table, generated, fields⟩

end Mapping

end BoundSql.Declaration
