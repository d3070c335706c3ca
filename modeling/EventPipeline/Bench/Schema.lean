import EventPipeline.Json.Schema

/-! # Schemas of a test bench

Schemas that scripted handlers can require of the data of an event, each under a name.
-/

namespace EventPipeline.Bench

/-- Integers that fit in a word of 64 bits with a sign. -/
def longSchema : Json.Schema := .integer (-0x8000_0000_0000_0000) 0x7FFF_FFFF_FFFF_FFFF "i64"

/-- Integers that fit in a word of 64 bits without a sign. -/
def wordSchema : Json.Schema := .integer 0 0xFFFF_FFFF_FFFF_FFFF "u64"

/-- The schema with a name; any other name is that of no data. -/
def schemaOf : String → Json.Schema
  | "order" => .record "Order" [("uid", wordSchema, none)]
  | "invoice" =>
    .record "Invoice"
      [("id", .text, none), ("amount", .integer (-0x8000_0000) 0x7FFF_FFFF "i32", none),
        ("tags", .list .text, some (.array [])), ("note", .optional .text, none),
        ("paid", .boolean, none)]
  | "u64" => wordSchema
  | "i64" => longSchema
  | "u8" => .integer 0 255 "u8"
  | "bool" => .boolean
  | "string" => .text
  | "opt_string" => .optional .text
  | "vec_i64" => .list longSchema
  | "map_i64" => .map longSchema
  | _ => .unit

end EventPipeline.Bench
