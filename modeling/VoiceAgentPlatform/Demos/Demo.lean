import VoiceAgentPlatform.Ddb

/-!
# Demos

`demo_loader.py`: the canonical shape of a demo, which both the loader and the store build through
`normalize_demo_dict`.

* `normalizeDemoDict`: the canonical demo of a raw dictionary.
* `demoFields`: its keys, each with how its value is read.
-/

namespace Demos

/-- The non-empty strings of a list. -/
def nonemptyStrings (xs : List PyVal) : List String :=
  xs.filterMap fun
    | .str s => if s = "" then none else some s
    | _ => none

/-- `_normalize_tool_ids`, with the ids of the registry when they are validated. -/
def normalizeToolIds (rawTools : PyVal) (registry : Option (List String)) : List String :=
  match rawTools with
  | .list xs =>
    match registry with
    | none => nonemptyStrings xs
    | some ids => (nonemptyStrings xs).filter fun t => ids.contains t
  | _ => []

/-- `_normalize_mcp_servers`. -/
def normalizeMcpServers (rawMcp : PyVal) : List String :=
  match rawMcp with
  | .list xs => nonemptyStrings xs
  | _ => []

/-- `v if isinstance(v, dict) else None`. -/
def dictOrNone : PyVal → PyVal
  | .dict d => .dict d
  | _ => .none

/-- `v if isinstance(v, list) else []`. -/
def listOrEmpty : PyVal → PyVal
  | .list xs => .list xs
  | _ => .list []

/-- A list of strings. -/
def strList (xs : List String) : PyVal := .list (xs.map .str)

/-- The keys of a canonical demo, each with the value `normalize_demo_dict` gives it. -/
def demoFields (registry : Option (List String)) : List (String × (PyDict → PyVal)) :=
  [ ("id", fun raw => raw.get "id"),
    ("label", fun raw => raw.get "label"),
    ("lang", fun raw => raw.get "lang"),
    ("engine", fun raw => raw.get "engine"),
    ("provider", fun raw => raw.get "provider"),
    ("voice", fun raw => raw.get "voice"),
    ("model", fun raw => raw.get "model"),
    ("system", fun raw => raw.get "system"),
    ("greeting", fun raw => raw.get "greeting"),
    ("kb_intro", fun raw => raw.get "kb_intro"),
    ("kb_ack", fun raw => raw.get "kb_ack"),
    ("kb_body", fun raw => (raw.get? "kb_body").getD (.str "")),
    ("tool_ids", fun raw =>
      strList (normalizeToolIds ((raw.get? "tool_ids").getD (raw.get "tools")) registry)),
    ("mcp_servers", fun raw => strList (normalizeMcpServers (raw.get "mcp_servers"))),
    ("filler", fun raw => dictOrNone (raw.get "filler")),
    ("asr_filter", fun raw => dictOrNone (raw.get "asr_filter")),
    ("tags", fun raw => listOrEmpty (raw.get "tags")) ]

/-- `normalize_demo_dict`; tool ids are validated against `registry` if one is given. -/
def normalizeDemoDict (raw : PyDict) (registry : Option (List String)) : PyDict :=
  (demoFields registry).map fun field => (field.1, field.2 raw)

theorem get_id_normalizeDemoDict (raw : PyDict) (registry : Option (List String)) :
    (normalizeDemoDict raw registry).get "id" = raw.get "id" := rfl

end Demos
