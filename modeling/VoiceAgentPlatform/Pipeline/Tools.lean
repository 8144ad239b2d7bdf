import Mathlib.Logic.Function.Basic
import VoiceAgentPlatform.Lib.Repush

/-!
# The tools of a pipeline

The tool schemas that a pipeline offers its model and the handlers that it registers for them: the tools
of the registry that the demo enables, and the tools of its MCP servers. `bot.py` merges the schemas in one
function and registers the handlers in two others.

* `resolveDemoTools`, `mergeMcpTools`, `registerCallControlHandlers`, `buildTools`: as the source has them.
* `kept_mergeMcpTools`: of the MCP tools the first of each name is kept that no registry tool has.
* `ToolsAgree`: every schema has its own handler, and no tool has a handler that is not enabled.
* `toolsAgree_iff`: when this is so.
-/

namespace Pipeline

open Run

/-- `FunctionSchema`; what the model reads beside the name is not looked at. -/
structure FunctionSchema (β : Type) where
  name : String
  body : β
  deriving DecidableEq

structure ToolDefinition (β : Type) where
  id : String
  schema : FunctionSchema β
  scope : List String
  deriving DecidableEq

variable {β C : Type}

/-- `get_tool_defs`. -/
def getToolDefs (registry : String → Option (ToolDefinition β)) (ids : List String) (scope : String) :
    List (ToolDefinition β) :=
  ids.filterMap fun toolId =>
    match registry toolId with
    | none => none
    | some defn => if scope ∉ defn.scope then none else some defn

/-- `assemble_tools_schema`. -/
def assembleToolsSchema (defs : List (ToolDefinition β)) : List (FunctionSchema β) :=
  defs.map ToolDefinition.schema

/-- `DEFAULT_DEMO_ID`. -/
def defaultDemoId : String := "default"

/-- `_resolve_demo_tools`; `demos` are the tool ids of the loaded demos. -/
def resolveDemoTools (phoneToolsEnabled : Bool) (registry : String → Option (ToolDefinition β))
    (demos : String → Option (List String)) (demoId scope : String) : List (ToolDefinition β) :=
  if !phoneToolsEnabled then []
  else if demoId = defaultDemoId then []
  else
    match demos demoId with
    | none => []
    | some toolIds => getToolDefs registry toolIds scope

/-- What `_merge_mcp_tools` has gathered so far. -/
structure McpMerge (β C : Type) where
  merged : List (FunctionSchema β)
  seenMcp : List String
  keptMcp : List (C × FunctionSchema β)

/-- A tool of an MCP server is kept unless its name is taken. -/
def McpMerge.offer (registryNames : List String) (client : C) (m : McpMerge β C)
    (fs : FunctionSchema β) : McpMerge β C :=
  if fs.name ∈ registryNames ∨ fs.name ∈ m.seenMcp then m
  else
    { merged := m.merged ++ [fs]
      seenMcp := fs.name :: m.seenMcp
      keptMcp := m.keptMcp ++ [(client, fs)] }

/-- `_merge_mcp_tools`: the combined schema and the tools that were kept. -/
def mergeMcpTools (toolsSchema : Option (List (FunctionSchema β)))
    (mcpSchemas : List (C × List (FunctionSchema β))) :
    Option (List (FunctionSchema β)) × List (C × FunctionSchema β) :=
  let registrySchemas := toolsSchema.getD []
  let registryNames := registrySchemas.map FunctionSchema.name
  let m := mcpSchemas.foldl (fun m server => server.2.foldl (McpMerge.offer registryNames server.1) m)
    { merged := registrySchemas, seenMcp := [], keptMcp := [] }
  if m.merged.isEmpty then (none, []) else (some m.merged, m.keptMcp)

/-- What is called for a tool. -/
inductive Handler (C : Type) where
  /-- `_handle_end_call`. -/
  | endCall
  /-- `_handle_transfer`. -/
  | transferToHuman
  /-- `client._tool_wrapper`. -/
  | toolWrapper (client : C)
  /-- `_nova_mcp_tool_wrapper(client)`. -/
  | novaToolWrapper (client : C)
  /-- A filler is spoken before the inner handler is called. -/
  | filled (inner : Handler C) (toolName langKey : String)
  deriving DecidableEq

/-- The MCP client that a handler calls. -/
def Handler.client? : Handler C → Option C
  | endCall | transferToHuman => none
  | toolWrapper client | novaToolWrapper client => some client
  | filled inner _ _ => inner.client?

/-- `with_filler`. -/
def withFiller (fillerEnabled : Bool) (innerWrapper : Handler C) (toolName langKey : String) :
    Handler C :=
  if !fillerEnabled then innerWrapper else .filled innerWrapper toolName langKey

/-- The functions that are registered on the model, by name. -/
abbrev Functions (C : Type) := String → Option (Handler C)

/-- `llm.register_function`. -/
def Functions.registerFunction (llm : Functions C) (name : String) (handler : Handler C) : Functions C :=
  Function.update llm name (some handler)

/-- The names that `register_call_control_handlers` registers. -/
def callControlNames : List String := ["end_call", "transfer_to_human"]

/-- `register_call_control_handlers`. -/
def registerCallControlHandlers (llm : Functions C) : Functions C :=
  (llm.registerFunction "end_call" .endCall).registerFunction "transfer_to_human" .transferToHuman

/-- The two pipelines. -/
inductive Engine where
  | pipeline
  | novaSonic
  deriving DecidableEq

/-- How an engine wraps the calls of an MCP client. -/
def Engine.wrapper : Engine → C → Handler C
  | pipeline, client => .toolWrapper client
  | novaSonic, client => .novaToolWrapper client

/-- The combined schema of a pipeline, with the functions on its model. -/
structure Tools (β C : Type) where
  combinedSchema : Option (List (FunctionSchema β))
  functions : Functions C

/-- What `_build_pipeline` and `_build_nova_sonic_pipeline` make of the tools. -/
def buildTools (engine : Engine) (fillerEnabled : Bool) (langKey : String)
    (toolDefs : List (ToolDefinition β)) (mcpSchemas : List (C × List (FunctionSchema β))) : Tools β C :=
  let toolsSchema := if toolDefs.isEmpty then none else some (assembleToolsSchema toolDefs)
  let (combinedSchema, keptMcp) := mergeMcpTools toolsSchema mcpSchemas
  let llm := keptMcp.foldl (fun (llm : Functions C) tool =>
    llm.registerFunction tool.2.name
      (withFiller fillerEnabled (engine.wrapper tool.1) tool.2.name langKey)) fun _ => none
  -- The handlers of the registry are registered last, over those of the servers.
  { combinedSchema
    functions := if toolsSchema.isSome then registerCallControlHandlers llm else llm }

/-! ## The merge -/

/-- What the servers offer, in order. -/
def offers (mcpSchemas : List (C × List (FunctionSchema β))) : List (C × FunctionSchema β) :=
  mcpSchemas.flatMap fun server => server.2.map fun fs => (server.1, fs)

/-- For each name that no registry tool has, the first server that offers it. -/
def firstOffers (toolDefs : List (ToolDefinition β)) (mcpSchemas : List (C × List (FunctionSchema β))) :
    List (C × FunctionSchema β) :=
  firsts (fun tool => tool.2.name) (toolDefs.map fun defn => defn.schema.name) (offers mcpSchemas)

variable {toolDefs : List (ToolDefinition β)} {mcpSchemas : List (C × List (FunctionSchema β))}

/-- The tools that are kept, and what they add to the schema. -/
theorem kept_offers (registryNames : List String) (m : McpMerge β C)
    (tools : List (C × FunctionSchema β)) :
    let new := firsts (fun tool => tool.2.name) (registryNames ++ m.seenMcp) tools
    let m' := tools.foldl (fun m tool => m.offer registryNames tool.1 tool.2) m
    m'.keptMcp = m.keptMcp ++ new ∧ m'.merged = m.merged ++ new.map Prod.snd := by
  induction tools generalizing m with
  | nil => simp [firsts]
  | cons tool tools ih =>
    dsimp only
    rw [List.foldl_cons, firsts]
    by_cases htaken : tool.2.name ∈ registryNames ∨ tool.2.name ∈ m.seenMcp
    · have hsame : m.offer registryNames tool.1 tool.2 = m := if_pos htaken
      rw [hsame, if_pos (List.mem_append.mpr htaken)]
      exact ih m
    · -- The order of the names that are taken does not matter.
      have hcongr : firsts (fun tool : C × FunctionSchema β => tool.2.name)
          (registryNames ++ tool.2.name :: m.seenMcp) tools =
          firsts (fun tool => tool.2.name) (tool.2.name :: (registryNames ++ m.seenMcp)) tools :=
        firsts_congr (fun k => by simp only [List.mem_append, List.mem_cons]; tauto) tools
      have hnew : m.offer registryNames tool.1 tool.2 =
          { merged := m.merged ++ [tool.2]
            seenMcp := tool.2.name :: m.seenMcp
            keptMcp := m.keptMcp ++ [tool] } := if_neg htaken
      obtain ⟨hkept, hmerged⟩ := ih (m.offer registryNames tool.1 tool.2)
      rw [hkept, hmerged, hnew, if_neg (fun h => htaken (List.mem_append.mp h)), hcongr]
      simp

theorem foldl_servers (registryNames : List String) (m : McpMerge β C)
    (mcpSchemas : List (C × List (FunctionSchema β))) :
    mcpSchemas.foldl (fun m server => server.2.foldl (McpMerge.offer registryNames server.1) m) m =
      (offers mcpSchemas).foldl (fun m tool => m.offer registryNames tool.1 tool.2) m := by
  induction mcpSchemas generalizing m with
  | nil => rfl
  | cons server mcpSchemas ih =>
    rw [List.foldl_cons, ih]
    simp only [offers, List.flatMap_cons, List.foldl_append, List.foldl_map]

/-- The schema is the registry's, and behind it the first offer of each other name. -/
theorem mergeMcpTools_eq {toolsSchema : Option (List (FunctionSchema β))}
    (h : toolsSchema.getD [] = assembleToolsSchema toolDefs) :
    (mergeMcpTools toolsSchema mcpSchemas).1.getD [] =
        assembleToolsSchema toolDefs ++ (firstOffers toolDefs mcpSchemas).map Prod.snd ∧
      (mergeMcpTools toolsSchema mcpSchemas).2 = firstOffers toolDefs mcpSchemas := by
  have hnames : (assembleToolsSchema toolDefs).map FunctionSchema.name =
      toolDefs.map fun defn => defn.schema.name := by
    rw [assembleToolsSchema, List.map_map]
    rfl
  obtain ⟨hkept, hmerged⟩ := kept_offers (toolDefs.map fun defn => defn.schema.name)
    { merged := assembleToolsSchema toolDefs, seenMcp := [], keptMcp := [] } (offers mcpSchemas)
  rw [List.append_nil] at hkept hmerged
  simp only [mergeMcpTools, h, hnames, foldl_servers]
  split_ifs with hempty
  · -- There is no tool at all.
    rw [List.isEmpty_iff, hmerged] at hempty
    obtain ⟨hnone, hoffers⟩ := List.append_eq_nil_iff.mp hempty
    have hnone : assembleToolsSchema toolDefs = [] := hnone
    rw [hnone, firstOffers, List.map_eq_nil_iff.mp hoffers]
    exact ⟨rfl, rfl⟩
  · exact ⟨hmerged, hkept⟩

/-- The first server that offers a name is the one whose tool is kept. -/
theorem find?_firstOffers {name : String} (h : ∀ defn ∈ toolDefs, defn.schema.name ≠ name) :
    (firstOffers toolDefs mcpSchemas).find? (fun tool => tool.2.name = name) =
      (offers mcpSchemas).find? fun tool => tool.2.name = name := by
  refine find?_firsts (fun hmem => ?_) (offers mcpSchemas)
  obtain ⟨defn, hdefn, hname⟩ := List.mem_map.mp hmem
  exact h defn hdefn hname

theorem nodup_firstOffers : ((firstOffers toolDefs mcpSchemas).map fun tool => tool.2.name).Nodup :=
  nodup_firsts _ _

/-- No registry tool has the name of an MCP tool that is kept. -/
theorem mem_offers_of_mem_firstOffers {tool : C × FunctionSchema β}
    (h : tool ∈ firstOffers toolDefs mcpSchemas) :
    tool ∈ offers mcpSchemas ∧ ∀ defn ∈ toolDefs, defn.schema.name ≠ tool.2.name := by
  obtain ⟨hmem, hnew⟩ := mem_of_mem_firsts h
  exact ⟨hmem, fun defn hdefn hname => hnew (List.mem_map.mpr ⟨defn, hdefn, hname⟩)⟩

/-! ## The handlers -/

/-- The handler that `register_call_control_handlers` registers under a name. -/
def callControlHandler (name : String) : Option (Handler C) :=
  if name = "transfer_to_human" then some .transferToHuman
  else if name = "end_call" then some .endCall
  else none

theorem isSome_callControlHandler {name : String} :
    (callControlHandler name : Option (Handler C)).isSome ↔ name ∈ callControlNames := by
  rw [callControlHandler, callControlNames]
  split_ifs <;> simp_all

theorem client?_callControlHandler {name : String} {handler : Handler C}
    (h : callControlHandler name = some handler) : handler.client? = none := by
  rw [callControlHandler] at h
  split_ifs at h <;> obtain rfl := Option.some.inj h <;> rfl

theorem registerCallControlHandlers_apply (llm : Functions C) (name : String) :
    registerCallControlHandlers llm name = (callControlHandler name).or (llm name) := by
  rw [registerCallControlHandlers, callControlHandler, Functions.registerFunction,
    Functions.registerFunction, Function.update_apply, Function.update_apply]
  split_ifs <;> rfl

/-- Nothing else is registered. -/
theorem registered_of_notMem {f : C × FunctionSchema β → Handler C}
    {tools : List (C × FunctionSchema β)} (llm : Functions C) {name : String}
    (h : ∀ tool ∈ tools, tool.2.name ≠ name) :
    tools.foldl (fun (llm : Functions C) tool => llm.registerFunction tool.2.name (f tool)) llm name =
      llm name := by
  induction tools generalizing llm with
  | nil => rfl
  | cons tool tools ih =>
    obtain ⟨hne, hrest⟩ := List.forall_mem_cons.mp h
    rw [List.foldl_cons, ih _ hrest, Functions.registerFunction, Function.update_of_ne hne.symm]

/-- The handler under a name is the one of the tool that has it. -/
theorem registered_of_mem {f : C × FunctionSchema β → Handler C} {tools : List (C × FunctionSchema β)}
    (llm : Functions C) (h : (tools.map fun tool => tool.2.name).Nodup) {tool : C × FunctionSchema β}
    (hmem : tool ∈ tools) :
    tools.foldl (fun (llm : Functions C) tool => llm.registerFunction tool.2.name (f tool)) llm
      tool.2.name = some (f tool) := by
  induction tools generalizing llm with
  | nil => exact absurd hmem List.not_mem_nil
  | cons tool' tools ih =>
    rw [List.map_cons, List.nodup_cons] at h
    rw [List.foldl_cons]
    rcases List.mem_cons.mp hmem with rfl | hmem
    · -- No later tool has this name.
      have hnone : ∀ tool' ∈ tools, tool'.2.name ≠ tool.2.name := fun tool' hmem' heq =>
        h.1 (List.mem_map.mpr ⟨tool', hmem', heq⟩)
      rw [registered_of_notMem _ hnone, Functions.registerFunction, Function.update_self]
    · exact ih _ h.2 hmem

theorem client?_withFiller (fillerEnabled : Bool) (handler : Handler C) (toolName langKey : String) :
    (withFiller fillerEnabled handler toolName langKey).client? = handler.client? := by
  rw [withFiller]
  split <;> rfl

theorem client?_wrapper (engine : Engine) (client : C) :
    (engine.wrapper client).client? = some client := by
  cases engine <;> rfl

section Built

variable (engine : Engine) (fillerEnabled : Bool) (langKey : String)

/-- The registry schema of a pipeline. -/
theorem toolsSchema_getD (toolDefs : List (ToolDefinition β)) :
    (if toolDefs.isEmpty then none else some (assembleToolsSchema toolDefs)).getD [] =
      assembleToolsSchema toolDefs := by
  split_ifs with hempty
  · rw [List.isEmpty_iff.mp hempty]
    rfl
  · rfl

theorem combinedSchema_buildTools :
    (buildTools engine fillerEnabled langKey toolDefs mcpSchemas).combinedSchema.getD [] =
      assembleToolsSchema toolDefs ++ (firstOffers toolDefs mcpSchemas).map Prod.snd :=
  (mergeMcpTools_eq (toolsSchema_getD toolDefs)).1

/-- The call-control handlers stand over what the MCP servers offer, if some tool is enabled. -/
theorem functions_buildTools (name : String) :
    (buildTools engine fillerEnabled langKey toolDefs mcpSchemas).functions name =
      (if toolDefs.isEmpty then none else callControlHandler name).or
        ((firstOffers toolDefs mcpSchemas).foldl (fun (llm : Functions C) tool =>
          llm.registerFunction tool.2.name
            (withFiller fillerEnabled (engine.wrapper tool.1) tool.2.name langKey))
          (fun _ => none) name) := by
  rw [buildTools]
  simp only [(mergeMcpTools_eq (toolsSchema_getD toolDefs)).2]
  cases toolDefs.isEmpty with
  | true => rfl
  | false => exact registerCallControlHandlers_apply _ name

theorem functions_buildTools_of_callControl (hne : toolDefs ≠ []) {name : String}
    {handler : Handler C} (h : callControlHandler name = some handler) :
    (buildTools engine fillerEnabled langKey toolDefs mcpSchemas).functions name = some handler := by
  rw [functions_buildTools, if_neg (fun hempty => hne (List.isEmpty_iff.mp hempty)), h, Option.some_or]

theorem functions_buildTools_of_mem {tool : C × FunctionSchema β}
    (h : tool ∈ firstOffers toolDefs mcpSchemas) :
    (buildTools engine fillerEnabled langKey toolDefs mcpSchemas).functions tool.2.name =
      (if toolDefs.isEmpty then none else callControlHandler tool.2.name).or
        (some (withFiller fillerEnabled (engine.wrapper tool.1) tool.2.name langKey)) := by
  rw [functions_buildTools, registered_of_mem _ nodup_firstOffers h]

theorem functions_buildTools_of_notMem {name : String}
    (h : ∀ tool ∈ firstOffers toolDefs mcpSchemas, tool.2.name ≠ name) :
    (buildTools engine fillerEnabled langKey toolDefs mcpSchemas).functions name =
      if toolDefs.isEmpty then none else callControlHandler name := by
  rw [functions_buildTools, registered_of_notMem _ h, Option.or_none]

end Built

/-- The schema has distinct names, first the registry's and then the first offer of each other name; under
each name stands the handler of the tool whose schema it is; and no handler of a tool is registered that
is not enabled. -/
structure ToolsAgree (registry : String → Option (ToolDefinition β)) (toolDefs : List (ToolDefinition β))
    (mcpSchemas : List (C × List (FunctionSchema β))) (tools : Tools β C) : Prop where
  schema : tools.combinedSchema.getD [] =
    assembleToolsSchema toolDefs ++ (firstOffers toolDefs mcpSchemas).map Prod.snd
  distinct : ((tools.combinedSchema.getD []).map FunctionSchema.name).Nodup
  registryTool : ∀ defn ∈ toolDefs, ∃ handler,
    callControlHandler defn.schema.name = some handler ∧
      tools.functions defn.schema.name = some handler
  mcpTool : ∀ tool ∈ firstOffers toolDefs mcpSchemas, ∃ handler,
    tools.functions tool.2.name = some handler ∧ handler.client? = some tool.1
  notEnabled : ∀ toolId tool, registry toolId = some tool →
    (∀ defn ∈ toolDefs, defn.schema.name ≠ tool.schema.name) →
    ∀ handler, tools.functions tool.schema.name = some handler →
      ∃ client, handler.client? = some client

/-- The enabled tools are distinct; and if there are any, they are call-control tools, and each of the two
that is not enabled is neither offered by an MCP server nor in the registry. -/
def EnabledTogether (registry : String → Option (ToolDefinition β)) (toolDefs : List (ToolDefinition β))
    (mcpSchemas : List (C × List (FunctionSchema β))) : Prop :=
  (toolDefs.map fun defn => defn.schema.name).Nodup ∧
    (toolDefs ≠ [] →
      (∀ defn ∈ toolDefs, defn.schema.name ∈ callControlNames) ∧
        ∀ name ∈ callControlNames, (∀ defn ∈ toolDefs, defn.schema.name ≠ name) →
          (∀ tool ∈ offers mcpSchemas, tool.2.name ≠ name) ∧
            ∀ toolId tool, registry toolId = some tool → tool.schema.name ≠ name)

theorem functions_buildTools_of_mem_defs {defn : ToolDefinition β} (h : defn ∈ toolDefs)
    (engine : Engine) (fillerEnabled : Bool) (langKey : String) :
    (buildTools engine fillerEnabled langKey toolDefs mcpSchemas).functions defn.schema.name =
      callControlHandler defn.schema.name := by
  have hnone : ∀ tool ∈ firstOffers toolDefs mcpSchemas, tool.2.name ≠ defn.schema.name :=
    fun tool htool heq => (mem_offers_of_mem_firstOffers htool).2 defn h heq.symm
  rw [functions_buildTools_of_notMem _ _ _ hnone, if_neg]
  rw [List.isEmpty_iff]
  exact List.ne_nil_of_mem h

/-- No call-control handler stands over an MCP tool. -/
theorem EnabledTogether.callControl_eq_none {registry : String → Option (ToolDefinition β)}
    (h : EnabledTogether registry toolDefs mcpSchemas) {tool : C × FunctionSchema β}
    (htool : tool ∈ firstOffers toolDefs mcpSchemas) :
    (if toolDefs.isEmpty then none else callControlHandler tool.2.name : Option (Handler C)) = none := by
  obtain ⟨hmem, hnew⟩ := mem_offers_of_mem_firstOffers htool
  split_ifs with hempty
  · rfl
  · by_contra hsome
    have hname := isSome_callControlHandler.mp (Option.isSome_iff_ne_none.mpr hsome)
    have hsome' := (h.2 (fun h => hempty (List.isEmpty_iff.mpr h))).2 tool.2.name hname hnew
    exact hsome'.1 tool hmem rfl

theorem nodup_combined (h : (toolDefs.map fun defn => defn.schema.name).Nodup) :
    ((assembleToolsSchema toolDefs ++ (firstOffers toolDefs mcpSchemas).map Prod.snd).map
      FunctionSchema.name).Nodup := by
  rw [List.map_append, List.nodup_append, assembleToolsSchema, List.map_map, List.map_map]
  refine ⟨h, nodup_firstOffers, fun name hname name' hname' => ?_⟩
  obtain ⟨defn, hdefn, rfl⟩ := List.mem_map.mp hname
  obtain ⟨tool, htool, rfl⟩ := List.mem_map.mp hname'
  exact (mem_offers_of_mem_firstOffers htool).2 defn hdefn

theorem toolsAgree_buildTools (engine : Engine) (fillerEnabled : Bool) (langKey : String)
    {registry : String → Option (ToolDefinition β)}
    (h : EnabledTogether registry toolDefs mcpSchemas) :
    ToolsAgree registry toolDefs mcpSchemas
      (buildTools engine fillerEnabled langKey toolDefs mcpSchemas) := by
  have hschema : (buildTools engine fillerEnabled langKey toolDefs mcpSchemas).combinedSchema.getD [] =
      _ := combinedSchema_buildTools engine fillerEnabled langKey
  have hmcp : ∀ tool ∈ firstOffers toolDefs mcpSchemas, ∃ handler,
      (buildTools engine fillerEnabled langKey toolDefs mcpSchemas).functions tool.2.name =
        some handler ∧ handler.client? = some tool.1 := by
    intro tool htool
    rw [functions_buildTools_of_mem _ _ _ htool, h.callControl_eq_none htool]
    refine ⟨_, rfl, ?_⟩
    rw [client?_withFiller, client?_wrapper]
  refine ⟨hschema, hschema ▸ nodup_combined h.1, fun defn hdefn => ?_, hmcp, ?_⟩
  · have hname := (h.2 (List.ne_nil_of_mem hdefn)).1 defn hdefn
    obtain ⟨handler, hhandler⟩ := Option.isSome_iff_exists.mp
      ((isSome_callControlHandler (C := C)).mpr hname)
    exact ⟨handler, hhandler, (functions_buildTools_of_mem_defs hdefn _ _ _).trans hhandler⟩
  · intro toolId tool hregistry hnew handler hhandler
    by_cases hoffered : ∃ tool' ∈ firstOffers toolDefs mcpSchemas, tool'.2.name = tool.schema.name
    · obtain ⟨tool', htool', hname⟩ := hoffered
      obtain ⟨handler', hhandler', hclient⟩ := hmcp tool' htool'
      rw [hname, hhandler] at hhandler'
      exact ⟨tool'.1, Option.some.inj hhandler' ▸ hclient⟩
    · -- Only a call-control handler may stand here.
      rw [functions_buildTools_of_notMem _ _ _ fun tool' htool' hname => hoffered ⟨tool', htool', hname⟩]
        at hhandler
      split_ifs at hhandler with hempty
      have hname := isSome_callControlHandler.mp (Option.isSome_of_eq_some hhandler)
      have hfree := (h.2 (fun h => hempty (List.isEmpty_iff.mpr h))).2 _ hname hnew
      exact absurd rfl (hfree.2 toolId tool hregistry)

theorem enabledTogether_of_toolsAgree {registry : String → Option (ToolDefinition β)} {engine : Engine}
    {fillerEnabled : Bool} {langKey : String}
    (h : ToolsAgree registry toolDefs mcpSchemas
      (buildTools engine fillerEnabled langKey toolDefs mcpSchemas)) :
    EnabledTogether registry toolDefs mcpSchemas := by
  have hdistinct := h.distinct
  rw [h.schema, List.map_append, assembleToolsSchema, List.map_map] at hdistinct
  refine ⟨(List.nodup_append.mp hdistinct).1, fun hne => ⟨fun defn hdefn => ?_, ?_⟩⟩
  · obtain ⟨handler, hhandler, -⟩ := h.registryTool defn hdefn
    exact isSome_callControlHandler.mp (Option.isSome_of_eq_some hhandler)
  · intro name hname hnew
    obtain ⟨control, hcontrol⟩ := Option.isSome_iff_exists.mp
      ((isSome_callControlHandler (C := C)).mpr hname)
    have hclient := client?_callControlHandler hcontrol
    have hfunction :
        (buildTools engine fillerEnabled langKey toolDefs mcpSchemas).functions name = some control :=
      functions_buildTools_of_callControl engine fillerEnabled langKey hne hcontrol
    constructor
    · intro tool htool heq
      -- The first offer of this name has the handler of the tool that is not enabled.
      have hfind : ((offers mcpSchemas).find? fun tool => tool.2.name = name).isSome :=
        List.find?_isSome.mpr ⟨tool, htool, by simpa using heq⟩
      rw [← find?_firstOffers hnew] at hfind
      obtain ⟨first, hfirst⟩ := Option.isSome_iff_exists.mp hfind
      have hfirstName : first.2.name = name := by simpa using List.find?_some hfirst
      obtain ⟨handler, hhandler, hown⟩ := h.mcpTool first (List.mem_of_find?_eq_some hfirst)
      rw [hfirstName, hfunction, Option.some.injEq] at hhandler
      rw [← hhandler, hclient] at hown
      cases hown
    · intro toolId tool hregistry heq
      subst heq
      obtain ⟨client, hown⟩ := h.notEnabled toolId tool hregistry hnew control hfunction
      rw [hclient] at hown
      cases hown

/-- The schemas and the handlers of a pipeline agree exactly when the enabled tools are distinct and, if
there are any, are call-control tools, of which each that is not enabled is unknown to the MCP servers
and to the registry. -/
theorem toolsAgree_iff (engine : Engine) (fillerEnabled : Bool) (langKey : String)
    (phoneToolsEnabled : Bool) (registry : String → Option (ToolDefinition β))
    (demos : String → Option (List String)) (demoId scope : String)
    (mcpSchemas : List (C × List (FunctionSchema β))) :
    ToolsAgree registry (resolveDemoTools phoneToolsEnabled registry demos demoId scope) mcpSchemas
        (buildTools engine fillerEnabled langKey
          (resolveDemoTools phoneToolsEnabled registry demos demoId scope) mcpSchemas) ↔
      EnabledTogether registry (resolveDemoTools phoneToolsEnabled registry demos demoId scope)
        mcpSchemas :=
  ⟨enabledTogether_of_toolsAgree, toolsAgree_buildTools engine fillerEnabled langKey⟩

/-- The registry, with the names of its tools. -/
def bundledRegistry : String → Option (ToolDefinition Unit)
  | "end_call" => some ⟨"end_call", ⟨"end_call", ()⟩, ["phone", "web"]⟩
  | "transfer_to_human" => some ⟨"transfer_to_human", ⟨"transfer_to_human", ()⟩, ["phone", "web"]⟩
  | _ => none

/-- A demo enables `end_call` alone and has an MCP server with a tool `transfer_to_human`: the model is
offered the server's tool and calls the pipeline's. -/
theorem transferTool_misdirected :
    ¬ ToolsAgree bundledRegistry (getToolDefs bundledRegistry ["end_call"] "phone")
      [(1, [⟨"transfer_to_human", ()⟩])]
      (buildTools .pipeline false "en-US" (getToolDefs bundledRegistry ["end_call"] "phone")
        [(1, [⟨"transfer_to_human", ()⟩])]) := by
  intro h
  obtain ⟨handler, hhandler, hclient⟩ := h.mcpTool (1, ⟨"transfer_to_human", ()⟩) (by decide)
  have hown : handler = .transferToHuman := Option.some.inj (hhandler.symm.trans (by decide))
  rw [hown] at hclient
  cases hclient

end Pipeline
