import BoundSql.Dialect.Basic

/-!
# The dialects at hand

The four dialects that a registry starts with, and one with brackets for quotes whose markers name
the type of their value.
-/

namespace BoundSql.Dialect

def sqlite : Dialect where
  name := "sqlite"
  openQuote := '\x60'
  closeQuote := '\x60'
  sign := ':'
  typedMarkers := false
  paging := .limitOffset
  integerKeys := true
  timestampCast := "strftime('%Y-%m-%d %H:%M:%S', \x7b0\x7d)"

def mysql : Dialect where
  name := "mysql"
  openQuote := '\x60'
  closeQuote := '\x60'
  sign := '@'
  typedMarkers := false
  paging := .limitPair
  integerKeys := false
  timestampCast := "STR_TO_DATE(\x7b0\x7d, '%Y-%m-%d %H:%i:%s')"

def postgresql : Dialect where
  name := "postgresql"
  openQuote := '"'
  closeQuote := '"'
  sign := '@'
  typedMarkers := false
  paging := .derivedTable
  integerKeys := false
  timestampCast := "TO_TIMESTAMP(CAST(\x7b0\x7d AS TEXT), 'yyyy-MM-dd hh24:mi:ss')"

def oracle : Dialect where
  name := "oracle"
  openQuote := '"'
  closeQuote := '"'
  sign := ':'
  typedMarkers := false
  paging := .rowNumber
  integerKeys := false
  timestampCast := "TO_DATE(\x7b0\x7d, 'yyyy-mm-dd hh24:mi:ss')"

def bracket : Dialect where
  name := "bracket"
  openQuote := '['
  closeQuote := ']'
  sign := '$'
  typedMarkers := true
  paging := .rowNumber
  integerKeys := false
  timestampCast := sqlite.timestampCast

/-- The dialects that a registry starts with. -/
def shipped : List Dialect := [sqlite, mysql, postgresql, oracle]

end BoundSql.Dialect
