import Mathlib.Data.List.Find
import Mathlib.Logic.Function.Basic
import VoiceAgentPlatform.Lib.Ordered
import VoiceAgentPlatform.Lib.PyVal
import VoiceAgentPlatform.Lib.Raising

/-!
# The provisioner of the Voice Connector

A custom resource of CloudFormation creates or updates a Voice Connector of Chime, its origination and the
number that is associated with it. When an update returns another physical id, CloudFormation deletes the
resource that was replaced.

* `Account`: the connectors and the associations, and what a call does to them; `Cloud`: which calls are
  raised, and the id of a new connector.
* `handleCreateUpdate`, `handleDelete`, `handler`: as the source has them.
* `handleCreateUpdate_ok`: what an update that is answered with success has done.
* `converges_iff`: when the account then is as the properties say.
-/

namespace Chime

open Raising (bind_ok bind_error bind_eq_ok_iff)

/-! ### The account -/

/-- A route of the origination. -/
structure Route where
  host : String
  port : ℕ
  protocol : String
  priority : ℕ
  weight : ℕ
  deriving DecidableEq

/-- A Voice Connector. -/
structure Connector where
  name : String
  routes : List Route
  disabled : Bool
  deriving DecidableEq

/-- The connectors by their ids, in the order in which they are listed, and for each number the id of the
connector that it is associated with. -/
structure Account where
  connectors : OrderedMap String Connector
  associated : String → Option String

/-- A call of `chime-sdk-voice`; the calls for the pages of a listing are one. -/
inductive Call where
  | listVoiceConnectors
  | createVoiceConnector (name : String)
  | putOrigination (id host : String)
  | associate (id number : String) (force : Bool)
  | disassociate (id number : String)
  | deleteVoiceConnector (id : String)
  deriving DecidableEq

/-- What the service decides: which calls raise, the pages of a listing and the id of a new connector. -/
structure Cloud where
  raises : Call → Bool
  pages : List (String × Connector) → List (List (String × Connector))
  pages_flatten : ∀ connectors, (pages connectors).flatten = connectors
  pages_ne_nil : ∀ connectors, pages connectors ≠ []
  newId : String

/-- What is raised. -/
inductive ApiError where
  | service
  | keyError
  deriving DecidableEq

/-- A program over the account; what a call did before another one raises stays. -/
abbrev Api := EStateM ApiError Account

/-- A call that changes the account if it does not raise. -/
def call (cloud : Cloud) (c : Call) (effect : Account → Account) : Api Unit :=
  if cloud.raises c then throw .service else modify effect

def Account.create (id name : String) (a : Account) : Account :=
  { a with connectors := a.connectors.set id ⟨name, [], false⟩ }

def Account.setOrigination (id : String) (routes : List Route) (disabled : Bool) (a : Account) : Account :=
  match a.connectors.get? id with
  | some c => { a with connectors := a.connectors.set id { c with routes, disabled } }
  | none => a

/-- Without `force`, a number that is associated stays where it is. -/
def Account.associate (id number : String) (force : Bool) (a : Account) : Account :=
  if force || a.associated number = none then
    { a with associated := Function.update a.associated number (some id) }
  else a

def Account.disassociate (id number : String) (a : Account) : Account :=
  if a.associated number = some id then
    { a with associated := Function.update a.associated number none }
  else a

def Account.delete (id : String) (a : Account) : Account :=
  { a with connectors := a.connectors.delete id }

/-! ### The code -/

/-- The properties of the resource. -/
structure Props where
  name : Option String
  originationIp : Option String := none
  phoneNumber : Option String := none
  forceAssociate : Option String := none
  retain : Option String := none
  deriving DecidableEq

/-- `props.get("OriginationIp") or ""`. -/
def Props.ip (props : Props) : String := PyText.orDefault props.originationIp ""

/-- `(props.get("PhoneNumber") or "").strip()`. -/
def Props.number (props : Props) : String := PyText.strip (PyText.orDefault props.phoneNumber "")

/-- `_truthy`. -/
def truthy (v : String) : Bool := (PyText.strip v).toLower ∈ ["1", "true", "yes", "on"]

def Props.force (props : Props) : Bool := truthy (props.forceAssociate.getD "false")

def Props.retained (props : Props) : Bool := truthy (props.retain.getD "true")

/-- `if cond: x`. -/
def when (cond : Bool) (x : Api Unit) : Api Unit := if cond then x else pure ()

/-- `try: x`, where what it raises is ignored. -/
def ignoring (x : Api Unit) : Api Unit := tryCatch x fun _ => pure ()

/-- `props["Name"]`. -/
def Props.nameOrRaise (props : Props) : Api String :=
  match props.name with
  | some name => pure name
  | none => throw .keyError

/-- The loop of `find_vc_by_name`, from a page on. -/
def findInPages (cloud : Cloud) (name : String) : List (List (String × Connector)) → Api (Option String)
  | [] => pure none
  | page :: rest => do
    call cloud .listVoiceConnectors id
    match page.find? fun c => c.2.name = name with
    | some c => return some c.1
    | none => findInPages cloud name rest

/-- `find_vc_by_name`. -/
def findVcByName (cloud : Cloud) (name : String) : Api (Option String) := do
  let a ← get
  findInPages cloud name (cloud.pages a.connectors.entries)

/-- `ensure_vc`. -/
def ensureVc (cloud : Cloud) (name : String) : Api String := do
  match ← findVcByName cloud name with
  | some id => return id
  | none =>
    call cloud (.createVoiceConnector name) (Account.create cloud.newId name)
    return cloud.newId

/-- `set_origination`. -/
def setOrigination (cloud : Cloud) (id ip : String) : Api Unit :=
  call cloud (.putOrigination id ip) (Account.setOrigination id [⟨ip, 5060, "UDP", 1, 1⟩] false)

/-- `assoc_number`. -/
def assocNumber (cloud : Cloud) (id number : String) (force : Bool) : Api Unit :=
  call cloud (.associate id number force) (Account.associate id number force)

/-- `disassoc_number`. -/
def disassocNumber (cloud : Cloud) (id number : String) : Api Unit :=
  call cloud (.disassociate id number) (Account.disassociate id number)

/-- The number of the properties before, if there are any. -/
def oldNumber (oldProps : Option Props) : String := (oldProps.map Props.number).getD ""

/-- `handle_create_update`, without the data of the answer. -/
def handleCreateUpdate (cloud : Cloud) (props : Props) (oldProps : Option Props) : Api String := do
  let name ← props.nameOrRaise
  let id ← ensureVc cloud name
  when ((oldProps.isNone || oldProps.bind Props.originationIp ≠ some props.ip) && props.ip ≠ "")
    (setOrigination cloud id props.ip)
  -- The old number is given back before the new one is claimed, and failing to is no failure.
  when (oldProps.isSome && oldNumber oldProps ≠ "" && oldNumber oldProps ≠ props.number)
    (ignoring (disassocNumber cloud id (oldNumber oldProps)))
  when (props.number ≠ "" && props.number ≠ oldNumber oldProps)
    (assocNumber cloud id props.number props.force)
  return id

/-- `physical_id and physical_id.startswith("vc-")`. -/
def isVcId (physicalId : Option String) : Bool :=
  physicalId.any fun id => "vc-".toList.isPrefixOf id.toList

/-- `handle_delete`, without the data of the answer. -/
def handleDelete (cloud : Cloud) (props : Props) (physicalId : Option String) : Api String := do
  let name ← props.nameOrRaise
  let id ← if isVcId physicalId then pure physicalId else findVcByName cloud name
  match id with
  -- Without a connector there is nothing to delete.
  | none => return PyText.orDefault physicalId "chime-voice-connector"
  | some id =>
    when (props.number ≠ "") (ignoring (disassocNumber cloud id props.number))
    when (!props.retained) (ignoring (call cloud (.deleteVoiceConnector id) (Account.delete id)))
    return id

inductive RequestType where
  | create
  | update
  | delete
  | unknown
  deriving DecidableEq

/-- A request of CloudFormation; old properties that are missing or empty are `none`. -/
structure Request where
  requestType : RequestType
  props : Props
  oldProps : Option Props
  physicalId : Option String

/-- What is sent to CloudFormation. -/
inductive Answer where
  | success (physicalId : String)
  | failed
  deriving DecidableEq

/-- The answer to what a program returned or raised, and the account that it leaves. -/
def answer (x : Api String) (a : Account) : Answer × Account :=
  match x a with
  | .ok id a => (.success id, a)
  | .error _ a => (.failed, a)

/-- `handler`. -/
def handler (cloud : Cloud) (event : Request) (a : Account) : Answer × Account :=
  match event.requestType with
  | .create => answer (handleCreateUpdate cloud event.props none) a
  | .update => answer (handleCreateUpdate cloud event.props event.oldProps) a
  | .delete => answer (handleDelete cloud event.props event.physicalId) a
  | .unknown => (.failed, a)

/-! ### What is to hold -/

/-- The only route leads to a host, over UDP and to port 5060. -/
def Connector.RoutesTo (c : Connector) (host : String) : Prop :=
  ∃ r, c.routes = [r] ∧ r.host = host ∧ r.port = 5060 ∧ r.protocol = "UDP"

/-- The connector with a physical id is as the properties say. -/
structure Converged (props : Props) (id : String) (a : Account) : Prop where
  connector : ∃ c, a.connectors.get? id = some c ∧ props.name = some c.name ∧
    (props.ip ≠ "" → c.RoutesTo props.ip)
  number : props.number ≠ "" → a.associated props.number = some id

/-- A Create, or an Update with the properties and the physical id before. -/
inductive Change where
  | create
  | update (oldProps : Option Props) (physicalId : Option String)

def Change.oldProps : Change → Option Props
  | .create => none
  | .update oldProps _ => oldProps

def Change.request (props : Props) : Change → Request
  | .create => ⟨.create, props, none, none⟩
  | .update oldProps physicalId => ⟨.update, props, oldProps, physicalId⟩

/-- Properties that are missing. -/
def noProps : Props := ⟨none, none, none, none, none⟩

/-- The Delete of what is replaced, if an update returned another physical id. -/
def followUp (cloud : Cloud) (id : String) (a : Account) : Change → Account
  | .create => a
  | .update oldProps physicalId =>
    if physicalId = some id then a
    else (handler cloud ⟨.delete, oldProps.getD noProps, none, physicalId⟩ a).2

/-- The id of the first connector with a name. -/
def Account.firstNamed (a : Account) (name : String) : Option String :=
  (a.connectors.entries.find? fun c => c.2.name = name).map Prod.fst

/-- The id of the connector with a name, or of the new one. -/
def vcId (cloud : Cloud) (a : Account) (name : String) : String := (a.firstNamed name).getD cloud.newId

/-- The Delete of what is replaced reaches the connector that replaces it: what it goes by is the name. -/
structure Reached (cloud : Cloud) (props oldProps : Props) (id : String) (physicalId : Option String) :
    Prop where
  replaced : physicalId ≠ some id
  byName : isVcId physicalId = false
  name_eq : oldProps.name = props.name
  listed : cloud.raises .listVoiceConnectors = false

/-- The properties, and the ones before, for which an account is as they say in the end. -/
structure Settled (cloud' : Cloud) (props : Props) (change : Change) (id : String) (a : Account) :
    Prop where
  /-- The address is new, or the connector already has the route. -/
  route : props.ip = "" ∨ change.oldProps.isNone = true ∨
    change.oldProps.bind Props.originationIp ≠ some props.ip ∨
    ∃ c, a.connectors.get? id = some c ∧ c.RoutesTo props.ip
  /-- The number is not associated elsewhere, or it is new and may be taken away from there. -/
  number : props.number = "" ∨ a.associated props.number = some id ∨
    props.number ≠ oldNumber change.oldProps ∧
      (props.force = true ∨ a.associated props.number = none)
  /-- The Delete of what is replaced takes nothing away. -/
  kept : ∀ oldProps physicalId, change = .update (some oldProps) physicalId →
    Reached cloud' props oldProps id physicalId →
      (props.number ≠ "" → props.number = oldProps.number →
        cloud'.raises (.disassociate id props.number) = true) ∧
      (oldProps.retained = false → cloud'.raises (.deleteVoiceConnector id) = true)

/-! ### Calls -/

variable {cloud : Cloud} {a b : Account}

theorem call_eq_ok_iff {c : Call} {effect : Account → Account} {u : Unit} :
    call cloud c effect a = .ok u b ↔ cloud.raises c = false ∧ b = effect a := by
  rw [call]
  split_ifs with hraises
  · constructor
    · rintro ⟨⟩
    · rintro ⟨hquiet, -⟩
      exact absurd hraises (Bool.eq_false_iff.mp hquiet)
  · constructor
    · rintro ⟨⟩
      exact ⟨Bool.eq_false_iff.mpr hraises, rfl⟩
    · rintro ⟨-, rfl⟩
      rfl

theorem ignoring_call (c : Call) (effect : Account → Account) :
    ignoring (call cloud c effect) a = .ok () (if cloud.raises c then a else effect a) := by
  rw [ignoring, call]
  split_ifs with hraises
  · rfl
  · rfl

theorem when_eq_ok_iff {cond : Bool} {x : Api Unit} {u : Unit} :
    when cond x a = .ok u b ↔ if cond then x a = .ok u b else b = a := by
  rw [when]
  cases cond with
  | false => simp [pure, EStateM.pure, eq_comm]
  | true => simp

/-! ### Names -/

/-- The search goes through the pages as through one list. -/
theorem findInPages_eq (name : String) (pages : List (List (String × Connector)))
    (hlisted : cloud.raises .listVoiceConnectors = false) :
    findInPages cloud name pages a =
      .ok ((pages.flatten.find? fun c => c.2.name = name).map Prod.fst) a := by
  induction pages with
  | nil => rfl
  | cons page rest ih =>
    have hcall : call cloud .listVoiceConnectors id a = .ok () a := call_eq_ok_iff.mpr ⟨hlisted, rfl⟩
    rw [findInPages, bind_ok hcall, List.flatten_cons, List.find?_append]
    cases hfind : page.find? fun c => c.2.name = name with
    | none => rw [Option.none_or]; exact ih
    | some c => rfl

theorem findVcByName_eq (name : String) (hlisted : cloud.raises .listVoiceConnectors = false) :
    findVcByName cloud name a = .ok (a.firstNamed name) a := by
  have hget : (get : Api Account) a = .ok a a := rfl
  rw [findVcByName, bind_ok hget, findInPages_eq name _ hlisted, cloud.pages_flatten]
  rfl

theorem findInPages_raises (name : String) {pages : List (List (String × Connector))}
    (hpages : pages ≠ []) (hlisted : cloud.raises .listVoiceConnectors = true) :
    findInPages cloud name pages a = .error .service a := by
  obtain ⟨page, rest, rfl⟩ := List.exists_cons_of_ne_nil hpages
  have hcall : call cloud .listVoiceConnectors id a = .error .service a := by
    rw [call, if_pos hlisted]
    rfl
  rw [findInPages, bind_error hcall]

theorem exists_of_firstNamed {name id : String} (h : a.firstNamed name = some id) :
    ∃ c, a.connectors.get? id = some c ∧ c.name = name := by
  rw [Account.firstNamed, Option.map_eq_some_iff] at h
  obtain ⟨⟨key, c⟩, hfind, rfl⟩ := h
  refine ⟨c, OrderedMap.mem_entries_iff.mp (List.mem_of_find?_eq_some hfind), ?_⟩
  simpa using List.find?_some hfind

/-- A connector that is created is the first with its name, if there was none. -/
theorem firstNamed_create {id name : String} (hfresh : a.connectors.get? id = none)
    (hname : a.firstNamed name = none) : (a.create id name).firstNamed name = some id := by
  rw [Account.firstNamed, Option.map_eq_none_iff] at hname
  rw [Account.firstNamed, Account.create, OrderedMap.entries_set_of_get?_eq_none _ hfresh,
    List.find?_append, hname]
  simp

/-- The origination of a connector does not change what is found. -/
theorem firstNamed_setOrigination (id name : String) (routes : List Route) (disabled : Bool) :
    (a.setOrigination id routes disabled).firstNamed name = a.firstNamed name := by
  rw [Account.setOrigination]
  cases hget : a.connectors.get? id with
  | none => rfl
  | some c =>
    -- The connector keeps its name and its place.
    have hnames : ∀ e ∈ a.connectors.entries,
        decide ((if e.1 = id then (id, { c with routes, disabled }) else e).2.name = name) =
          decide (e.2.name = name) := by
      rintro ⟨key, c'⟩ he
      by_cases hkey : key = id
      · subst hkey
        obtain rfl : c = c' := by simpa [hget] using OrderedMap.mem_entries_iff.mp he
        rw [if_pos rfl]
      · rw [if_neg hkey]
    simp only [Account.firstNamed, OrderedMap.entries_set_of_get?_eq_some _ hget, List.find?_map,
      Option.map_map]
    have hkeys : (Prod.fst ∘ fun e : String × Connector =>
        if e.1 = id then (id, { c with routes, disabled }) else e) = Prod.fst := by
      funext e
      by_cases hkey : e.1 = id <;> simp [hkey]
    rw [hkeys]
    exact congrArg (Option.map Prod.fst) (List.find?_congr hnames)

/-! ### Creating and updating -/

/-- The account in which there is a connector with a name. -/
def Account.ensured (cloud : Cloud) (name : String) (a : Account) : Account :=
  if (a.firstNamed name).isSome then a else a.create cloud.newId name

theorem ensureVc_ok {name id : String} (h : ensureVc cloud name a = .ok id b) :
    id = vcId cloud a name ∧ b = a.ensured cloud name := by
  rw [ensureVc, bind_eq_ok_iff] at h
  obtain ⟨found, a', hfind, h⟩ := h
  -- It returns, so the connectors could be listed.
  have hlisted : cloud.raises .listVoiceConnectors = false := by
    by_contra hraises
    have hget : (get : Api Account) a = .ok a a := rfl
    rw [findVcByName, bind_ok hget,
      findInPages_raises name (cloud.pages_ne_nil _) (by simpa using hraises)] at hfind
    cases hfind
  rw [findVcByName_eq name hlisted] at hfind
  cases hfind
  rw [vcId, Account.ensured]
  cases hfirst : a.firstNamed name with
  | some key =>
    rw [hfirst] at h
    cases h
    exact ⟨rfl, rfl⟩
  | none =>
    rw [hfirst] at h
    obtain ⟨_, a'', hcreate, h⟩ := bind_eq_ok_iff.mp h
    obtain ⟨-, rfl⟩ := call_eq_ok_iff.mp hcreate
    cases h
    exact ⟨rfl, rfl⟩

theorem firstNamed_ensured (hfresh : a.connectors.get? cloud.newId = none) (name : String) :
    (a.ensured cloud name).firstNamed name = some (vcId cloud a name) := by
  rw [Account.ensured, vcId]
  cases hfirst : a.firstNamed name with
  | some key => rw [Option.isSome_some, if_pos rfl, hfirst]; rfl
  | none => exact firstNamed_create hfresh hfirst

/-- The connector that there is then has the routes that it had before, or none. -/
theorem get?_ensured (hfresh : a.connectors.get? cloud.newId = none) (name : String) :
    ∃ c, (a.ensured cloud name).connectors.get? (vcId cloud a name) = some c ∧ c.name = name ∧
      c.routes = (a.connectors.get? (vcId cloud a name)).elim [] Connector.routes := by
  rw [Account.ensured, vcId]
  cases hfirst : a.firstNamed name with
  | some key =>
    obtain ⟨c, hget, hname⟩ := exists_of_firstNamed hfirst
    refine ⟨c, hget, hname, ?_⟩
    rw [Option.getD_some, hget]
    rfl
  | none =>
    refine ⟨⟨name, [], false⟩, OrderedMap.get?_set_self _ _ _, rfl, ?_⟩
    rw [Option.getD_none, hfresh]
    rfl

@[simp] theorem associated_ensured (name : String) : (a.ensured cloud name).associated = a.associated := by
  rw [Account.ensured]
  split_ifs <;> rfl

@[simp] theorem associated_setOrigination (id : String) (routes : List Route) (disabled : Bool) :
    (a.setOrigination id routes disabled).associated = a.associated := by
  rw [Account.setOrigination]
  cases a.connectors.get? id <;> rfl

@[simp] theorem connectors_associate (id number : String) (force : Bool) :
    (a.associate id number force).connectors = a.connectors := by
  rw [Account.associate]
  split_ifs <;> rfl

@[simp] theorem connectors_disassociate (id number : String) :
    (a.disassociate id number).connectors = a.connectors := by
  rw [Account.disassociate]
  split_ifs <;> rfl

theorem associated_disassociate (id m number : String) :
    (a.disassociate id m).associated number =
      if number = m ∧ a.associated number = some id then none else a.associated number := by
  rw [Account.disassociate]
  by_cases hassociated : a.associated m = some id
  · rw [if_pos hassociated]
    by_cases hnumber : number = m
    · subst hnumber
      rw [if_pos ⟨rfl, hassociated⟩]
      exact Function.update_self _ _ _
    · rw [if_neg fun h => hnumber h.1]
      exact Function.update_of_ne hnumber _ _
  · rw [if_neg hassociated, if_neg]
    rintro ⟨rfl, h⟩
    exact hassociated h

@[simp] theorem firstNamed_associate (id number name : String) (force : Bool) :
    (a.associate id number force).firstNamed name = a.firstNamed name := by
  rw [Account.firstNamed, connectors_associate, ← Account.firstNamed]

@[simp] theorem firstNamed_disassociate (id number name : String) :
    (a.disassociate id number).firstNamed name = a.firstNamed name := by
  rw [Account.firstNamed, connectors_disassociate, ← Account.firstNamed]

/-- What an update that returns has done to the connector and to the number. -/
structure Provisioned (props : Props) (oldProps : Option Props) (name id : String) (a b : Account) :
    Prop where
  found : b.firstNamed name = some id
  connector : ∃ c, b.connectors.get? id = some c ∧ c.name = name ∧
    c.routes = if (oldProps.isNone || oldProps.bind Props.originationIp ≠ some props.ip) && props.ip ≠ ""
      then [⟨props.ip, 5060, "UDP", 1, 1⟩] else (a.connectors.get? id).elim [] Connector.routes
  associated : b.associated props.number =
    if props.number ≠ "" ∧ props.number ≠ oldNumber oldProps ∧
      (props.force = true ∨ a.associated props.number = none) then some id
    else a.associated props.number

/-- The step of the origination. -/
theorem route_ok {cond : Bool} {id ip : String} {c : Connector} {u : Unit}
    (hget : a.connectors.get? id = some c) (h : when cond (setOrigination cloud id ip) a = .ok u b) :
    (∀ name, b.firstNamed name = a.firstNamed name) ∧ b.associated = a.associated ∧
      ∃ c', b.connectors.get? id = some c' ∧ c'.name = c.name ∧
        c'.routes = if cond then [⟨ip, 5060, "UDP", 1, 1⟩] else c.routes := by
  rw [when_eq_ok_iff] at h
  cases cond with
  | false =>
    obtain rfl : b = a := h
    exact ⟨fun _ => rfl, rfl, c, hget, rfl, rfl⟩
  | true =>
    obtain ⟨-, rfl⟩ := call_eq_ok_iff.mp h
    refine ⟨fun name => firstNamed_setOrigination _ _ _ _, associated_setOrigination _ _ _,
      { c with routes := [⟨ip, 5060, "UDP", 1, 1⟩], disabled := false }, ?_, rfl, rfl⟩
    rw [Account.setOrigination, hget]
    exact OrderedMap.get?_set_self _ _ _

/-- The step of the number before: it is freed, if the call is not raised. -/
theorem free_ok {cond : Bool} {id m : String} {u : Unit}
    (h : when cond (ignoring (disassocNumber cloud id m)) a = .ok u b) :
    b.connectors = a.connectors ∧ ∀ number, (cond = true → number ≠ m) →
      b.associated number = a.associated number := by
  rw [when_eq_ok_iff] at h
  cases cond with
  | false =>
    obtain rfl : b = a := h
    exact ⟨rfl, fun _ _ => rfl⟩
  | true =>
    rw [if_pos rfl, disassocNumber, ignoring_call] at h
    cases h
    split_ifs
    · exact ⟨rfl, fun _ _ => rfl⟩
    · refine ⟨connectors_disassociate _ _, fun number hne => ?_⟩
      rw [associated_disassociate, if_neg fun h => hne rfl h.1]

/-- The step of the number. -/
theorem give_ok {cond force : Bool} {id number : String} {u : Unit}
    (h : when cond (assocNumber cloud id number force) a = .ok u b) :
    b.connectors = a.connectors ∧ b.associated number =
      if cond = true ∧ (force = true ∨ a.associated number = none) then some id
      else a.associated number := by
  rw [when_eq_ok_iff] at h
  cases cond with
  | false =>
    obtain rfl : b = a := h
    exact ⟨rfl, by simp⟩
  | true =>
    obtain ⟨-, rfl⟩ := call_eq_ok_iff.mp h
    refine ⟨connectors_associate _ _ _, ?_⟩
    rw [Account.associate]
    -- The number is free, or it is taken away from another connector.
    by_cases hmay : force = true ∨ a.associated number = none
    · rw [if_pos (by simpa using hmay), if_pos ⟨rfl, hmay⟩]
      exact Function.update_self _ _ _
    · rw [if_neg (by simpa using hmay), if_neg fun h => hmay h.2]

theorem firstNamed_congr (h : b.connectors = a.connectors) (name : String) :
    b.firstNamed name = a.firstNamed name := by
  rw [Account.firstNamed, h, ← Account.firstNamed]

/-- A create or an update that returns has provisioned the connector whose id it returns. -/
theorem handleCreateUpdate_ok {props : Props} {oldProps : Option Props} {id : String}
    (hfresh : a.connectors.get? cloud.newId = none)
    (h : handleCreateUpdate cloud props oldProps a = .ok id b) :
    ∃ name, props.name = some name ∧ id = vcId cloud a name ∧ Provisioned props oldProps name id a b := by
  rw [handleCreateUpdate] at h
  obtain ⟨name, a₁, hname, h⟩ := bind_eq_ok_iff.mp h
  obtain ⟨vc, a₂, hensure, h⟩ := bind_eq_ok_iff.mp h
  obtain ⟨_, a₃, hroute, h⟩ := bind_eq_ok_iff.mp h
  obtain ⟨_, a₄, hfree, h⟩ := bind_eq_ok_iff.mp h
  obtain ⟨_, a₅, hgive, h⟩ := bind_eq_ok_iff.mp h
  cases h
  -- The name is read without a change to the account.
  obtain ⟨hprops, rfl⟩ : props.name = some name ∧ a₁ = a := by
    rw [Props.nameOrRaise] at hname
    cases hn : props.name with
    | none =>
      rw [hn] at hname
      cases hname
    | some n =>
      rw [hn] at hname
      cases hname
      exact ⟨rfl, rfl⟩
  obtain ⟨rfl, rfl⟩ := ensureVc_ok hensure
  obtain ⟨c, hget, hcname, hcroutes⟩ := get?_ensured hfresh name
  obtain ⟨hnamed, hassociated, c', hget', hname', hroutes⟩ := route_ok hget hroute
  obtain ⟨hconnectors₄, hfreed⟩ := free_ok hfree
  obtain ⟨hconnectors, hgiven⟩ := give_ok hgive
  have hnumber : a₄.associated props.number = a₁.associated props.number := by
    rw [hfreed _ fun hcond => ?_, hassociated, associated_ensured]
    simp only [Bool.and_eq_true, decide_eq_true_eq] at hcond
    exact Ne.symm hcond.2
  refine ⟨name, hprops, rfl, ?_, ⟨c', ?_, hname'.trans hcname, ?_⟩, ?_⟩
  · rw [firstNamed_congr (hconnectors.trans hconnectors₄), hnamed, firstNamed_ensured hfresh]
  · rw [hconnectors, hconnectors₄, hget']
  · rw [hroutes, hcroutes]
  · rw [hgiven, hnumber]
    simp only [Bool.and_eq_true, decide_eq_true_eq, and_assoc]

theorem routesTo_iff {props : Props} {oldProps : Option Props} {id : String} {c : Connector}
    (hroutes : c.routes =
      if (oldProps.isNone || oldProps.bind Props.originationIp ≠ some props.ip) && props.ip ≠ ""
      then [⟨props.ip, 5060, "UDP", 1, 1⟩] else (a.connectors.get? id).elim [] Connector.routes) :
    (props.ip ≠ "" → c.RoutesTo props.ip) ↔
      (props.ip = "" ∨ oldProps.isNone = true ∨ oldProps.bind Props.originationIp ≠ some props.ip ∨
        ∃ c, a.connectors.get? id = some c ∧ c.RoutesTo props.ip) := by
  by_cases hempty : props.ip = ""
  · exact ⟨fun _ => Or.inl hempty, fun _ hne => absurd hempty hne⟩
  -- Either the update sets the origination, or it was right already.
  by_cases hset : oldProps.isNone = true ∨ oldProps.bind Props.originationIp ≠ some props.ip
  · rw [if_pos (by simpa [hempty] using hset)] at hroutes
    exact ⟨fun _ => Or.inr (hset.elim Or.inl fun h => Or.inr (Or.inl h)),
      fun _ _ => ⟨_, hroutes, rfl, rfl, rfl⟩⟩
  · rw [if_neg (by simpa [hempty] using hset)] at hroutes
    constructor
    · intro hroutesTo
      obtain ⟨r, hr, hhost⟩ := hroutesTo hempty
      cases hget : a.connectors.get? id with
      | none =>
        rw [hroutes, hget] at hr
        cases hr
      | some c₀ =>
        rw [hroutes, hget] at hr
        exact Or.inr (Or.inr (Or.inr ⟨c₀, rfl, r, hr, hhost⟩))
    · rintro (hzero | hnone | hip | ⟨c₀, hget, r, hr, hhost⟩) -
      · exact absurd hzero hempty
      · exact absurd (Or.inl hnone) hset
      · exact absurd (Or.inr hip) hset
      · rw [hget] at hroutes
        exact ⟨r, hroutes.trans hr, hhost⟩

/-- The account after a create or an update, against the one before. -/
theorem converged_iff {props : Props} {oldProps : Option Props} {name id : String}
    (hname : props.name = some name) (h : Provisioned props oldProps name id a b) :
    Converged props id b ↔
      (props.ip = "" ∨ oldProps.isNone = true ∨ oldProps.bind Props.originationIp ≠ some props.ip ∨
        ∃ c, a.connectors.get? id = some c ∧ c.RoutesTo props.ip) ∧
      (props.number = "" ∨ a.associated props.number = some id ∨ props.number ≠ oldNumber oldProps ∧
        (props.force = true ∨ a.associated props.number = none)) := by
  obtain ⟨c, hget, hcname, hroutes⟩ := h.connector
  -- The number belongs to the connector by this update, or it did so before.
  have hnumber : (props.number ≠ "" → b.associated props.number = some id) ↔
      (props.number = "" ∨ a.associated props.number = some id ∨ props.number ≠ oldNumber oldProps ∧
        (props.force = true ∨ a.associated props.number = none)) := by
    rw [h.associated]
    by_cases hempty : props.number = ""
    · exact ⟨fun _ => Or.inl hempty, fun _ hne => absurd hempty hne⟩
    · split_ifs with hgiven
      · exact ⟨fun _ => Or.inr (Or.inr hgiven.2), fun _ _ => rfl⟩
      · refine ⟨fun hassociated => Or.inr (Or.inl (hassociated hempty)), fun hcases _ => ?_⟩
        rcases hcases with hzero | hassociated | hmay
        · exact absurd hzero hempty
        · exact hassociated
        · exact absurd ⟨hempty, hmay⟩ hgiven
  rw [← routesTo_iff hroutes, ← hnumber]
  constructor
  · rintro ⟨⟨c', hget', -, hroutesTo⟩, hassociated⟩
    obtain rfl : c = c' := Option.some.inj (hget.symm.trans hget')
    exact ⟨hroutesTo, hassociated⟩
  · rintro ⟨hroutesTo, hassociated⟩
    exact ⟨⟨c, hget, hname.trans (congrArg some hcname.symm), hroutesTo⟩, hassociated⟩

/-! ### The Delete of what is replaced -/

/-- The number of the properties is freed, if the call is not raised. -/
def Account.freed (cloud : Cloud) (old : Props) (id : String) (a : Account) : Account :=
  if old.number ≠ "" ∧ cloud.raises (.disassociate id old.number) = false then
    a.disassociate id old.number
  else a

/-- What a Delete does to the connector that it reaches. -/
def Account.removed (cloud : Cloud) (old : Props) (id : String) (a : Account) : Account :=
  if old.retained = false ∧ cloud.raises (.deleteVoiceConnector id) = false then
    (a.freed cloud old id).delete id
  else a.freed cloud old id

/-- The connector that a Delete reaches. -/
def target (cloud : Cloud) (old : Props) (physicalId : Option String) (a : Account) : Option String :=
  old.name.bind fun name =>
    if isVcId physicalId then physicalId
    else if cloud.raises .listVoiceConnectors then none else a.firstNamed name

theorem when_ignoring_call (cond : Bool) (c : Call) (effect : Account → Account) :
    when cond (ignoring (call cloud c effect)) a =
      .ok () (if cond = true ∧ cloud.raises c = false then effect a else a) := by
  rw [when]
  cases cond with
  | false => simp [pure, EStateM.pure]
  | true =>
    rw [if_pos rfl, ignoring_call]
    cases cloud.raises c <;> simp

/-- The end of a Delete that reaches a connector. -/
theorem remove_eq (old : Props) (id : String) :
    (do
      when (old.number ≠ "") (ignoring (disassocNumber cloud id old.number))
      when (!old.retained) (ignoring (call cloud (.deleteVoiceConnector id) (Account.delete id)))
      return id : Api String) a = .ok id (a.removed cloud old id) := by
  rw [disassocNumber, bind_ok (when_ignoring_call _ _ _), bind_ok (when_ignoring_call _ _ _)]
  simp only [decide_eq_true_eq, Bool.not_eq_true']
  rfl

theorem answer_snd (x : Api String) : (answer x a).2 = Raising.exitState x a := by
  rw [answer, Raising.exitState]
  cases x a <;> rfl

theorem findVcByName_raises (name : String) (hlisted : cloud.raises .listVoiceConnectors = true) :
    findVcByName cloud name a = .error .service a := by
  have hget : (get : Api Account) a = .ok a a := rfl
  rw [findVcByName, bind_ok hget, findInPages_raises name (cloud.pages_ne_nil _) hlisted]

/-- A Delete changes the account as far as it reaches a connector. -/
theorem handler_delete (old : Props) (physicalId : Option String) :
    (handler cloud ⟨.delete, old, none, physicalId⟩ a).2 =
      (target cloud old physicalId a).elim a fun id => a.removed cloud old id := by
  rw [handler]
  simp only
  rw [answer_snd, handleDelete, target]
  cases hname : old.name with
  | none =>
    have hraised : old.nameOrRaise a = .error .keyError a := by
      rw [Props.nameOrRaise, hname]
      rfl
    rw [Raising.exitState, bind_error hraised]
    rfl
  | some name =>
    have hread : old.nameOrRaise a = .ok name a := by
      rw [Props.nameOrRaise, hname]
      rfl
    rw [Raising.exitState, bind_ok hread, Option.bind_some]
    -- An id of Chime is taken as it is; anything else is looked up by the name.
    cases hid : isVcId physicalId with
    | true =>
      obtain ⟨id, rfl⟩ : ∃ id, physicalId = some id := by
        cases physicalId with
        | none => cases hid
        | some id => exact ⟨id, rfl⟩
      have hpure : (pure (some id) : Api (Option String)) a = .ok (some id) a := rfl
      rw [if_pos rfl, if_pos rfl, bind_ok hpure]
      simp only [remove_eq]
      rfl
    | false =>
      rw [if_neg Bool.false_ne_true, if_neg Bool.false_ne_true]
      cases hlisted : cloud.raises .listVoiceConnectors with
      | true =>
        rw [bind_error (findVcByName_raises name hlisted), if_pos rfl]
        rfl
      | false =>
        rw [bind_ok (findVcByName_eq name hlisted), if_neg Bool.false_ne_true]
        cases a.firstNamed name with
        | none => rfl
        | some id =>
          simp only [remove_eq]
          rfl

/-! ### What a Delete takes away -/

theorem connectors_freed (old : Props) (id : String) :
    (a.freed cloud old id).connectors = a.connectors := by
  rw [Account.freed]
  split_ifs
  · exact connectors_disassociate _ _
  · rfl

@[simp] theorem associated_delete (id : String) : (a.delete id).associated = a.associated := rfl

/-- A number is freed if it is that of the properties and associated with the connector. -/
theorem associated_freed (old : Props) (id number : String) :
    (a.freed cloud old id).associated number =
      if (old.number ≠ "" ∧ cloud.raises (.disassociate id old.number) = false) ∧ number = old.number ∧
        a.associated number = some id then none
      else a.associated number := by
  rw [Account.freed]
  by_cases hcalled : old.number ≠ "" ∧ cloud.raises (.disassociate id old.number) = false
  · rw [if_pos hcalled, associated_disassociate]
    simp only [hcalled.1, hcalled.2, ne_eq, not_false_eq_true, and_self, true_and]
  · rw [if_neg hcalled, if_neg fun h => hcalled h.1]

theorem associated_removed (old : Props) (id : String) :
    (a.removed cloud old id).associated = (a.freed cloud old id).associated := by
  rw [Account.removed]
  split_ifs
  · exact associated_delete id
  · rfl

theorem get?_removed (old : Props) (id key : String) :
    (a.removed cloud old id).connectors.get? key =
      if key = id ∧ old.retained = false ∧ cloud.raises (.deleteVoiceConnector id) = false then none
      else a.connectors.get? key := by
  rw [Account.removed]
  by_cases hdelete : old.retained = false ∧ cloud.raises (.deleteVoiceConnector id) = false
  · rw [if_pos hdelete, Account.delete, OrderedMap.get?_delete, connectors_freed]
    simp only [hdelete, and_self, and_true]
  · rw [if_neg hdelete, if_neg fun h => hdelete h.2, connectors_freed]

/-- A Delete that reaches another connector takes nothing away from the one of the properties. -/
theorem converged_removed_of_ne {props old : Props} {id id' : String} (hne : id ≠ id') :
    Converged props id (a.removed cloud old id') ↔ Converged props id a := by
  -- Another connector is deleted, and a number is taken from another connector only.
  have hconnector : (a.removed cloud old id').connectors.get? id = a.connectors.get? id := by
    rw [get?_removed, if_neg fun h => hne h.1]
  have hnumber : (a.removed cloud old id').associated props.number = some id ↔
      a.associated props.number = some id := by
    rw [associated_removed, associated_freed]
    split_ifs with hfreed
    · rw [hfreed.2.2]
      simp [hne.symm]
    · exact Iff.rfl
  constructor
  · rintro ⟨hget, hassociated⟩
    rw [hconnector] at hget
    exact ⟨hget, fun hempty => hnumber.mp (hassociated hempty)⟩
  · rintro ⟨hget, hassociated⟩
    rw [← hconnector] at hget
    exact ⟨hget, fun hempty => hnumber.mpr (hassociated hempty)⟩

/-- A Delete that reaches the connector of the properties leaves it as it should be if it neither frees its
number nor deletes it. -/
theorem converged_removed_self {props old : Props} {id : String} :
    Converged props id (a.removed cloud old id) ↔ Converged props id a ∧
      (props.number ≠ "" → props.number = old.number →
        cloud.raises (.disassociate id props.number) = true) ∧
      (old.retained = false → cloud.raises (.deleteVoiceConnector id) = true) := by
  constructor
  · rintro ⟨⟨c, hget, hname, hroutes⟩, hassociated⟩
    rw [get?_removed] at hget
    rw [associated_removed, associated_freed] at hassociated
    split_ifs at hget with hdelete
    refine ⟨⟨⟨c, hget, hname, hroutes⟩, fun hempty => ?_⟩, fun hempty hsame => ?_,
      fun hretained => ?_⟩
    · -- What the number is associated with now, it was associated with before.
      have hfinal := hassociated hempty
      split_ifs at hfinal
      exact hfinal
    · by_contra hraises
      have hfinal := hassociated hempty
      rw [Bool.not_eq_true] at hraises
      split_ifs at hfinal with hfreed
      exact hfreed ⟨⟨hsame ▸ hempty, hsame ▸ hraises⟩, hsame, hfinal⟩
    · by_contra hraises
      exact hdelete ⟨rfl, hretained, by simpa using hraises⟩
  · rintro ⟨⟨⟨c, hget, hname, hroutes⟩, hassociated⟩, hfree, hdelete⟩
    refine ⟨⟨c, ?_, hname, hroutes⟩, fun hempty => ?_⟩
    · rw [get?_removed, if_neg fun h => ?_, hget]
      rw [hdelete h.2.1] at h
      exact Bool.noConfusion h.2.2
    · rw [associated_removed, associated_freed, if_neg fun h => ?_, hassociated hempty]
      have hraises := hfree hempty h.2.1
      rw [h.2.1, h.1.2] at hraises
      exact Bool.noConfusion hraises

/-- When a Delete reaches the connector that was provisioned. -/
theorem target_eq_iff {props old : Props} {oldProps : Option Props} {name id : String}
    {physicalId : Option String} (hname : props.name = some name)
    (h : Provisioned props oldProps name id a b) (hreplaced : physicalId ≠ some id) :
    target cloud old physicalId b = some id ↔ Reached cloud props old id physicalId := by
  rw [target]
  constructor
  · intro htarget
    obtain ⟨oldName, hold, htarget⟩ := Option.bind_eq_some_iff.mp htarget
    split_ifs at htarget with hid hlisted
    · exact absurd htarget hreplaced
    · obtain ⟨c, hget, hcname⟩ := exists_of_firstNamed htarget
      obtain ⟨c', hget', hcname', -⟩ := h.connector
      -- The connector that is found by its name is the new one.
      obtain rfl : c = c' := Option.some.inj (hget.symm.trans hget')
      refine ⟨hreplaced, by simpa using hid, ?_, by simpa using hlisted⟩
      rw [hold, hname, ← hcname, ← hcname']
  · rintro ⟨-, hid, hold, hlisted⟩
    rw [hold, hname, Option.bind_some, if_neg (by simp [hid]), if_neg (by simp [hlisted])]
    exact h.found

/-- What the Delete of what is replaced changes. -/
theorem converged_followUp_iff {cloud' : Cloud} {props : Props} {change : Change} {name id : String}
    (hname : props.name = some name) (h : Provisioned props change.oldProps name id a b) :
    Converged props id (followUp cloud' id b change) ↔ Converged props id b ∧
      ∀ oldProps physicalId, change = .update (some oldProps) physicalId →
        Reached cloud' props oldProps id physicalId →
          (props.number ≠ "" → props.number = oldProps.number →
            cloud'.raises (.disassociate id props.number) = true) ∧
          (oldProps.retained = false → cloud'.raises (.deleteVoiceConnector id) = true) := by
  cases change with
  | create =>
    refine ⟨fun hconverged => ⟨hconverged, fun _ _ hchange => ?_⟩, And.left⟩
    cases hchange
  | update oldProps physicalId =>
    rw [followUp]
    -- Only an update that returns another physical id is followed by a Delete.
    by_cases hsame : physicalId = some id
    · rw [if_pos hsame]
      refine ⟨fun hconverged => ⟨hconverged, fun _ _ hchange hreached => ?_⟩, And.left⟩
      cases hchange
      exact absurd hsame hreached.replaced
    rw [if_neg hsame, handler_delete]
    cases oldProps with
    | none =>
      refine ⟨fun hconverged => ⟨hconverged, fun _ _ hchange => ?_⟩, And.left⟩
      cases hchange
    | some old =>
      -- The Delete matters only if it resolves to the connector that was just provisioned.
      have hreach : target cloud' old physicalId b = some id ↔ Reached cloud' props old id physicalId :=
        target_eq_iff hname h hsame
      rw [Option.getD_some]
      cases htarget : target cloud' old physicalId b with
      | none =>
        refine ⟨fun hconverged => ⟨hconverged, fun _ _ hchange hreached => ?_⟩, And.left⟩
        cases hchange
        rw [hreach.mpr hreached] at htarget
        cases htarget
      | some id' =>
        rw [Option.elim_some]
        by_cases hid : id = id'
        · subst hid
          rw [converged_removed_self]
          refine and_congr_right fun _ => ⟨fun hkept _ _ hchange _ => ?_, fun hkept => ?_⟩
          · cases hchange
            exact hkept
          · exact hkept old physicalId rfl (hreach.mp htarget)
        · rw [converged_removed_of_ne hid]
          refine ⟨fun hconverged => ⟨hconverged, fun _ _ hchange hreached => ?_⟩, And.left⟩
          cases hchange
          rw [hreach.mpr hreached] at htarget
          exact absurd (Option.some.inj htarget) hid

/-- An answer of success to a create or an update is that of `handle_create_update`. -/
theorem handleCreateUpdate_of_success {props : Props} {change : Change} {id : String}
    (h : handler cloud (change.request props) a = (.success id, b)) :
    handleCreateUpdate cloud props change.oldProps a = .ok id b := by
  have hanswer : answer (handleCreateUpdate cloud props change.oldProps) a = (.success id, b) := by
    cases change <;> exact h
  rw [answer] at hanswer
  cases hresult : handleCreateUpdate cloud props change.oldProps a with
  | ok id' b' =>
    rw [hresult] at hanswer
    cases hanswer
    rfl
  | error e b' =>
    rw [hresult] at hanswer
    cases hanswer

/-- After a create or an update that is answered with success, and the Delete of what it replaces, the
account is as the properties say exactly if it is settled: neither the route nor the number is taken to be
there without being there, and the Delete does not reach the connector itself. -/
theorem converges_iff (cloud cloud' : Cloud) (props : Props) (change : Change) (a a' : Account)
    (id : String) (hfresh : a.connectors.get? cloud.newId = none)
    (h : handler cloud (change.request props) a = (.success id, a')) :
    Converged props id (followUp cloud' id a' change) ↔
      Settled cloud' props change (vcId cloud a (props.name.getD "")) a := by
  obtain ⟨name, hname, hid, hprovisioned⟩ :=
    handleCreateUpdate_ok hfresh (handleCreateUpdate_of_success h)
  have hid' : vcId cloud a (props.name.getD "") = id := by rw [hname, hid, Option.getD_some]
  rw [hid', converged_followUp_iff hname hprovisioned, converged_iff hname hprovisioned]
  constructor
  · rintro ⟨⟨hroute, hnumber⟩, hkept⟩
    exact ⟨hroute, hnumber, hkept⟩
  · rintro ⟨hroute, hnumber, hkept⟩
    exact ⟨⟨hroute, hnumber⟩, hkept⟩

/-- A cloud in which nothing raises, and every listing has one page. -/
def calm (newId : String) : Cloud where
  raises _ := false
  pages connectors := [connectors]
  pages_flatten _ := List.flatten_singleton
  pages_ne_nil _ := List.cons_ne_nil _ _
  newId := newId

/-- The properties of a line. -/
def lineNamed (name : String) : Props where
  name := some name
  originationIp := some "198.51.100.7"
  phoneNumber := some "+15550100"

/-- An account with a connector for the old name, its route and its number. -/
def oldLine : Account where
  connectors := (∅ : OrderedMap String Connector).set "vc-old"
    ⟨"old", [⟨"198.51.100.7", 5060, "UDP", 1, 1⟩], false⟩
  associated := Function.update (fun _ => none) "+15550100" (some "vc-old")

/-- The line is renamed: the new connector has neither a route nor the number. -/
def rename : Change := .update (some (lineNamed "old")) (some "vc-old")

theorem rename_notConverged :
    (handler (calm "vc-new") (rename.request (lineNamed "new")) oldLine).1 = .success "vc-new" ∧
      ¬ Converged (lineNamed "new") "vc-new" (followUp (calm "vc-next") "vc-new"
        (handler (calm "vc-new") (rename.request (lineNamed "new")) oldLine).2 rename) :=
  ⟨by decide, fun h => absurd (h.number (by decide)) (by decide +kernel)⟩

/-- An account without connectors. -/
def noLine : Account := ⟨∅, fun _ => none⟩

theorem converges_iff_create :
    Converged (lineNamed "new") "vc-new" (followUp (calm "vc-next") "vc-new"
      (handler (calm "vc-new") (Change.create.request (lineNamed "new")) noLine).2 .create) :=
  (converges_iff (calm "vc-new") (calm "vc-next") (lineNamed "new") .create noLine _ "vc-new" rfl
    rfl).mpr ⟨Or.inr (Or.inl rfl), Or.inr (Or.inr ⟨by decide, Or.inr rfl⟩), fun _ _ h => Change.noConfusion h⟩

end Chime
