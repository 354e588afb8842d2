import ApiDoc.Json.Decode

/-!
# Settings

How documentation is completed and written out.
-/

namespace ApiDoc

/-- The settings of a run. -/
structure Config where
  /-- Whether overriding members take missing documentation from what they override. -/
  inheritDocs : Bool := true
  /-- Whether the declarations of one function share their summaries. -/
  backfillOverloads : Bool := true
  /-- Whether hidden members are written out. -/
  includeHidden : Bool := false
  /-- Whether JSON text is spread over lines. -/
  prettyJson : Bool := true
  deriving DecidableEq, Repr, Inhabited

namespace Config

/-- The settings without any completion of documentation. -/
def withoutBackfill (config : Config) : Config :=
  { config with inheritDocs := false, backfillOverloads := false }

/-- The names of the settings, in order. -/
def fieldNames : List String :=
  ["inherit_docs", "backfill_overloads", "include_hidden", "pretty_json"]

/-- The settings in JSON. -/
def toJson (config : Config) : Json :=
  .object [("inherit_docs", .bool config.inheritDocs),
    ("backfill_overloads", .bool config.backfillOverloads),
    ("include_hidden", .bool config.includeHidden), ("pretty_json", .bool config.prettyJson)]

/-- The settings a JSON value stands for, over `base` where it is silent. -/
def ofJsonOver? (base : Config) (value : Json) : Option Config :=
  match value.strictRecord? fieldNames with
  | some [inheritDocs, backfillOverloads, includeHidden, prettyJson] => do
    return {
      inheritDocs := ← Json.withDefault base.inheritDocs Json.asBool? inheritDocs
      backfillOverloads := ← Json.withDefault base.backfillOverloads Json.asBool? backfillOverloads
      includeHidden := ← Json.withDefault base.includeHidden Json.asBool? includeHidden
      prettyJson := ← Json.withDefault base.prettyJson Json.asBool? prettyJson }
  | _ => none

/-- The settings a JSON value stands for. -/
def ofJson? : Json → Option Config := ofJsonOver? {}

/-- The settings with one of them set by name; `none` when there is no such setting. -/
def set? (config : Config) (name : String) (value : Bool) : Option Config :=
  if name = "inherit_docs" then some { config with inheritDocs := value }
  else if name = "backfill_overloads" then some { config with backfillOverloads := value }
  else if name = "include_hidden" then some { config with includeHidden := value }
  else if name = "pretty_json" then some { config with prettyJson := value }
  else none

end Config

end ApiDoc
