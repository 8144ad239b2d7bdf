import Mathlib.Algebra.Ring.Nat
import VoiceAgentPlatform.Demos.DemoStore

/-!
# Demos on disk

`DemoLoader` of `demo_loader.py`: every directory under the data root with a valid manifest is a demo.
Why a directory is skipped is only shown to administrators and left out. The modules of the project
that the loader imports, and the texts that Python makes of values, are parameters.

* `DemoDir`: what the loader finds in a directory.
* `loadOne`: the demo of a directory.
* `loaderCache`, `loaderDemos`: the demos of all directories, by id.
* `summaries`: `list` of the loader and of the store.
-/

namespace Demos

/-- A comparison, a length or a hash of a value that has none. -/
structure TypeError where

/-! ### One directory -/

/-- A directory under the data root: its path, its manifest, if it has one that can be parsed, and the
texts of the files that can be read, by their paths relative to the directory. -/
structure DemoDir where
  path : String
  manifest : Option PyVal
  readText : String → Option String

/-- `REQUIRED_FIELDS`. -/
def requiredFields : List String := ["id", "label", "lang"]

/-- `LOCALIZED_REQUIRED`. -/
def localizedRequired : List String := ["system", "greeting"]

/-- `LOCALIZED_OPTIONAL`. -/
def localizedOptional : List String := ["kb_intro", "kb_ack"]

/-- `isinstance(v, dict) and v`. -/
def isFullDict : PyVal → Bool
  | .dict entries => !entries.isEmpty
  | _ => false

/-- `v is None or isinstance(v, dict)`. -/
def isDictOrNone : PyVal → Bool
  | .dict _ => true
  | .none => true
  | _ => false

/-- The manifest has the fields of a demo. -/
def validManifest (manifest : PyDict) : Bool :=
  (requiredFields.all fun f => (manifest.get f).truthy) &&
    (localizedRequired.all fun f => isFullDict (manifest.get f)) &&
    localizedOptional.all fun f => isDictOrNone (manifest.get f)

/-- The text of a file of the knowledge base for one language. -/
def kbText (dir : DemoDir) : PyVal → String
  | .str rel => if rel = "" then "" else (dir.readText rel).getD ""
  | _ => ""

/-- The knowledge base that `kb_path` names; a file that cannot be read counts as empty. -/
def kbBody (pyStr : PyVal → String) (dir : DemoDir) : PyVal → PyVal
  | .none => .str ""
  | .dict entries => .dict (entries.map fun e => (e.1, .str (kbText dir e.2)))
  | kbPath => .str ((dir.readText (pyStr kbPath)).getD "")

/-- What the loader uses of Python and of the project: `str` of a value, and the ids in
`tools.registry.REGISTRY`, if it can be imported. -/
structure LoaderEnv where
  pyStr : PyVal → String
  registry : Option (List String)

/-- The demo of a manifest, without its directory. -/
def manifestDemo (env : LoaderEnv) (dir : DemoDir) (manifest : PyDict) : PyDict :=
  normalizeDemoDict (manifest.set "kb_body" (kbBody env.pyStr dir (manifest.get "kb_path")))
    env.registry

/-- `_load_one`. -/
def loadOne (env : LoaderEnv) (dir : DemoDir) : Option PyDict :=
  match dir.manifest with
  | some (.dict manifest) =>
    if validManifest manifest then some ((manifestDemo env dir manifest).set "_dir" (.str dir.path))
    else none
  | _ => none

/-! ### All directories -/

/-- Values that a dictionary can have as keys. -/
def isHashable : PyVal → Bool
  | .list _ => false
  | .dict _ => false
  | _ => true

/-- `DemoLoader.rescan`: of two demos with one id the first is kept. -/
def loaderCache (env : LoaderEnv) : List DemoDir → List PyDict → Except TypeError (List PyDict)
  | [], cache => .ok cache
  | dir :: rest, cache =>
    match loadOne env dir with
    | none => loaderCache env rest cache
    | some demo =>
      -- The id is looked up in a dictionary.
      if !isHashable (demo.get "id") then .error {}
      else if cache.any fun d => (d.get "id").same (demo.get "id") then loaderCache env rest cache
      else loaderCache env rest (cache ++ [demo])

/-- The id of a demo, if it is a string. -/
def stringId (demo : PyDict) : Option String :=
  match demo.get "id" with
  | .str id => some id
  | _ => none

/-- The demos in the order of their ids. Strings cannot be compared with anything else; ids that are
numbers are left in their places, since the table refuses the first of them in any order. -/
def sortById (demos : List PyDict) : Except TypeError (List PyDict) :=
  if demos.all fun d => (stringId d).isSome then
    .ok (demos.mergeSort fun d d' => (stringId d).getD "" ≤ (stringId d').getD "")
  else if demos.all fun d => (stringId d).isNone then .ok demos
  else .error {}

/-- `len(value)`. -/
def len : PyVal → Except TypeError ℕ
  | .str s => .ok s.length
  | .list xs => .ok xs.length
  | .dict entries => .ok entries.length
  | _ => .error {}

/-- `kb_chars_of`. -/
def kbCharsOf : PyVal → Except TypeError ℕ
  | .dict entries => do
    let lengths ← entries.mapM fun e => len (e.2.orElse (.str ""))
    return lengths.sum
  | value => len (value.orElse (.str ""))

/-- An entry of `list`. -/
structure Summary where
  id : PyVal
  label : PyVal
  lang : PyVal
  kbChars : ℕ

/-- The entries of `list` in the order of the demos. -/
def summaries (demos : List PyDict) : Except TypeError (List Summary) :=
  demos.mapM fun demo => do
    let kbChars ← kbCharsOf (demo.get "kb_body")
    return { id := demo.get "id", label := demo.get "label", lang := demo.get "lang", kbChars }

/-- The demos that `list` and then `get` give, as the migration reads them. -/
def loaderDemos (env : LoaderEnv) (dirs : List DemoDir) : Except TypeError (List PyDict) := do
  let cache ← loaderCache env dirs []
  let _ ← summaries cache
  sortById cache

end Demos
