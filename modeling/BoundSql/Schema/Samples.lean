import BoundSql.Schema.Basic

/-!
# Sample schemas

Tables of a small shop, and tables that try the corners of the mapping: every type, names that need
quoting, fields whose numbered names collide, two columns of one name, a key alone, nothing at all.
-/

namespace BoundSql.Schema

/-- The types that the samples use. -/
def text : NativeType := .base .text

def int32 : NativeType := .base (.integer .int32)

def int64 : NativeType := .base (.integer .int64)

/-- A column that is the primary key. -/
def keyColumn (name : String) (native : NativeType) (generated : Option Bool) : Column :=
  ⟨name, name, native, true, generated⟩

def order : Schema where
  table := "orders"
  generated := none
  columns := [
    keyColumn "id" int64 (some true),
    .plain "status" int32,
    ⟨"customer_name", "customer", text, false, none⟩,
    .plain "amount" (.base .decimal),
    .plain "note" (.option text),
    .plain "created" (.base .timestamp)]
  transient := [.base .boolean]

def customer : Schema where
  table := "customer"
  generated := none
  columns := [
    keyColumn "id" (.base .uuid) none,
    .plain "name" text,
    .plain "vip" (.base .boolean)]
  transient := []

def orderItem : Schema where
  table := "order_items"
  generated := some false
  columns := [
    keyColumn "id" int64 none,
    .plain "order_id" int64,
    .plain "product" text,
    .plain "quantity" int32]
  transient := []

def auditLog : Schema where
  table := "audit_log"
  generated := none
  columns := [
    .plain "message" text,
    .plain "at" (.option (.base .timestamp))]
  transient := []

def typeZoo : Schema where
  table := "type_zoo"
  generated := none
  columns := [
    keyColumn "key" text none,
    .plain "f_bool" (.base .boolean),
    .plain "f_i8" (.base (.integer .int8)),
    .plain "f_i16" (.base (.integer .int16)),
    .plain "f_i32" int32,
    .plain "f_i64" int64,
    .plain "f_u8" (.base (.integer .uint8)),
    .plain "f_u16" (.base (.integer .uint16)),
    .plain "f_u32" (.base (.integer .uint32)),
    .plain "f_u64" (.base (.integer .uint64)),
    .plain "f_f32" (.base (.binary .single)),
    .plain "f_f64" (.base (.binary .double)),
    .plain "f_decimal" (.base .decimal),
    .plain "f_blob" (.option (.base .bytes)),
    .plain "f_date" (.base .date),
    .plain "f_time" (.base .time),
    .plain "f_ts" (.base .timestamp),
    .plain "f_tstz" (.base .offsetTimestamp),
    .plain "f_uuid" (.base .uuid),
    .plain "f_list" (.list int32),
    .plain "opt" (.option (.base (.integer .int16))),
    .plain "opt_list" (.option (.list (.option text)))]
  transient := []

def weird : Schema where
  table := "we`ird \"tbl]"
  generated := some true
  columns := [
    ⟨"k`e\"y]", "key", text, true, some false⟩,
    .plain "type" int32,
    ⟨"", "empty", .option (.base .boolean), false, none⟩,
    ⟨"naïve, col", "uni", .option text, false, none⟩]
  transient := [.list (.base (.integer .uint8))]

def clash : Schema where
  table := "clash"
  generated := some true
  columns := [
    .plain "a" int32,
    .plain "a1" int32,
    keyColumn "a11" int32 none,
    .plain "a2" (.option int32)]
  transient := []

def twice : Schema where
  table := "twice"
  generated := none
  columns := [⟨"x", "p", int32, false, none⟩, ⟨"x", "q", int32, false, none⟩]
  transient := []

def keyOnly : Schema where
  table := "key_only"
  generated := none
  columns := [keyColumn "id" (.option int64) (some true)]
  transient := []

def ledger : Schema where
  table := "ledger"
  generated := none
  columns := [
    keyColumn "code" (.base .decimal) none,
    .plain "at" (.base .offsetTimestamp),
    .plain "rate" (.base (.binary .double)),
    .plain "note" (.option text)]
  transient := []

def nothing : Schema where
  table := "nothing"
  generated := none
  columns := []
  transient := []

end BoundSql.Schema
