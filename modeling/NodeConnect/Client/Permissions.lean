import NodeConnect.Lib.LookupMap
import NodeConnect.Lib.ByteStream
import Mathlib.Data.Set.Basic
import Mathlib.Data.List.Nodup

/-! What a macaroon permits, as the two clients decide it. Both put the operations of the
macaroon into a map of maps. The inner map of an entity is made anew at every entry of that
entity, so an entry takes back what the earlier ones of its entity granted. The WASM client
also accepts a macaroon that grants the URI itself, and leaves the loop when it meets that grant. -/
namespace NodeConnect.Client
open Lib

structure Op where
  entity : String
  actions : List String
  deriving DecidableEq, Repr

structure BakeryOp where
  entity : String
  action : String
  deriving DecidableEq, Repr

def PermissionEntityCustomURI : String := "uri"

/-- From the entity to a map whose keys are the actions. -/
abbrev OpsMap := String → Option (String → Option Bool)

def makeEntity (macOpsMap : OpsMap) (entity : String) : OpsMap :=
  Function.update macOpsMap entity (some fun _ => none)

def setAction (entity : String) (macOpsMap : OpsMap) (action : String) : OpsMap :=
  Function.update macOpsMap entity ((macOpsMap entity).map fun macEntity => Function.update macEntity action (some true))

/-- The loop over the required operations. A key that is missing reads as `false`. -/
def containsAll (macOpsMap : OpsMap) : List BakeryOp → Bool
  | [] => true
  | op :: requiredOps =>
    match macOpsMap op.entity with
    | none => false
    | some macEntity => if !(macEntity op.action).getD false then false else containsAll macOpsMap requiredOps

namespace Mobile

def addOp (macOpsMap : OpsMap) (op : Op) : OpsMap :=
  op.actions.foldl (setAction op.entity) (makeEntity macOpsMap op.entity)

def lookupMap (macOps : List Op) : OpsMap := macOps.foldl addOp fun _ => none

def hasPermissions (macOps : List Op) (requiredOps : List BakeryOp) : Bool := containsAll (lookupMap macOps) requiredOps

end Mobile

namespace Wasm

variable (uri : String)

-- An error is the value with which the function returns out of the loop.
def addAction (entity : String) (macOpsMap : OpsMap) (action : String) : Except Bool OpsMap :=
  let macOpsMap := setAction entity macOpsMap action
  if entity = PermissionEntityCustomURI ∧ action = uri then .error true else .ok macOpsMap

def addOp (macOpsMap : OpsMap) (op : Op) : Except Bool OpsMap :=
  op.actions.foldlM (addAction uri op.entity) (makeEntity macOpsMap op.entity)

def lookupMap (macOps : List Op) : Except Bool OpsMap := macOps.foldlM (addOp uri) fun _ => none

def hasPermissions (macOps : List Op) (requiredOps : List BakeryOp) : Bool :=
  match lookupMap uri macOps with
  | .error result => result
  | .ok macOpsMap => containsAll macOpsMap requiredOps

end Wasm

/-- The operations that some entry lists. -/
def granted (macOps : List Op) : Set BakeryOp :=
  {required | ∃ op ∈ macOps, op.entity = required.entity ∧ required.action ∈ op.actions}

/-- The operations that the last entry of their entity lists. -/
def inForce (macOps : List Op) : Set BakeryOp :=
  {required | ∃ op, lastWith Op.entity required.entity macOps = some op ∧ required.action ∈ op.actions}

def GrantsURI (uri : String) (macOps : List Op) : Prop := ⟨PermissionEntityCustomURI,uri⟩ ∈ granted macOps

/-- The last entry of an entity lists every action that an entry of that entity lists. -/
def Covering (macOps : List Op) : Prop :=
  ∀ op ∈ macOps, ∀ last, lastWith Op.entity op.entity macOps = some last → op.actions ⊆ last.actions

theorem inForce_subset (macOps : List Op) : inForce macOps ⊆ granted macOps := by
  rintro required ⟨op,last,lists⟩
  obtain ⟨member,entity⟩ := mem_of_lastWith last
  exact ⟨op,member,entity,lists⟩

theorem granted_subset_iff (macOps : List Op) : granted macOps ⊆ inForce macOps ↔ Covering macOps := by
  constructor
  · intro kept op member last isLast action lists
    obtain ⟨found,same,listed⟩ := @kept ⟨op.entity,action⟩ ⟨op,member,rfl,lists⟩
    obtain rfl : found = last := Option.some.inj (same.symm.trans isLast)
    exact listed
  · rintro covering required ⟨op,member,entity,lists⟩
    obtain ⟨last,isLast⟩ := exists_lastWith Op.entity member
    exact ⟨last,entity ▸ isLast,covering op member last isLast lists⟩

theorem Covering.inForce_eq {macOps : List Op} (covering : Covering macOps) : inForce macOps = granted macOps :=
  (inForce_subset macOps).antisymm ((granted_subset_iff macOps).mpr covering)

/-- Operations with one entry for each entity lose nothing. -/
theorem covering_of_distinct {macOps : List Op} (distinct : (macOps.map Op.entity).Nodup) : Covering macOps := by
  intro op member last isLast
  obtain ⟨present,entity⟩ := mem_of_lastWith isLast
  rw [List.inj_on_of_nodup_map distinct present member entity]
  exact List.Subset.refl _

theorem granted_of_perm {macOps others : List Op} (perm : macOps.Perm others) : granted macOps = granted others := by
  ext required
  exact exists_congr fun op => and_congr perm.mem_iff Iff.rfl

/-- The inner loop fills the map that the entry has made. -/
theorem setActions_update (entity : String) (actions : List String) (macOpsMap : OpsMap) (macEntity : String → Option Bool) :
    actions.foldl (setAction entity) (Function.update macOpsMap entity (some macEntity)) =
      Function.update macOpsMap entity
        (some (actions.foldl (fun macEntity action => Function.update macEntity action (some true)) macEntity)) := by
  induction actions generalizing macEntity with
  | nil => rfl
  | cons action actions ih =>
    have set : setAction entity (Function.update macOpsMap entity (some macEntity)) action =
        Function.update macOpsMap entity (some (Function.update macEntity action (some true))) := by
      simp [setAction]
    rw [List.foldl_cons,set,ih,List.foldl_cons]

/-- The inner map that an entry leaves. -/
def actionMap (op : Op) : String → Option Bool :=
  op.actions.foldl (fun macEntity action => Function.update macEntity action (some true)) fun _ => none

theorem actionMap_iff (op : Op) (action : String) : (actionMap op action).getD false = true ↔ action ∈ op.actions := by
  have found := foldl_update id (fun _ => true) op.actions (fun _ => none) action
  rw [actionMap]
  refine (congrArg (fun entry => Option.getD entry false = true) found).to_iff.trans ?_
  constructor
  · intro present
    cases last : lastWith id action op.actions with
    | none => simp [last] at present
    | some entry =>
      obtain ⟨member,rfl⟩ := mem_of_lastWith last
      exact member
  · intro member
    obtain ⟨last,isLast⟩ := exists_lastWith id member
    rw [id] at isLast
    simp [isLast]

namespace Mobile

theorem addOp_eq (macOpsMap : OpsMap) (op : Op) :
    addOp macOpsMap op = Function.update macOpsMap op.entity (some (actionMap op)) :=
  setActions_update op.entity op.actions macOpsMap _

theorem lookupMap_eq (macOps : List Op) (entity : String) :
    lookupMap macOps entity = (lastWith Op.entity entity macOps).map actionMap := by
  have step : addOp = fun (macOpsMap : OpsMap) (op : Op) => Function.update macOpsMap op.entity (some (actionMap op)) :=
    funext₂ addOp_eq
  rw [lookupMap,step,foldl_update,Option.or_none]

end Mobile

theorem containsAll_lookupMap (macOps : List Op) (requiredOps : List BakeryOp) :
    containsAll (Mobile.lookupMap macOps) requiredOps = true ↔ ∀ op ∈ requiredOps, op ∈ inForce macOps := by
  induction requiredOps with
  | nil => simp [containsAll]
  | cons op requiredOps ih =>
    rw [containsAll,Mobile.lookupMap_eq,List.forall_mem_cons,← ih]
    cases last : lastWith Op.entity op.entity macOps with
    | none => simp [inForce,last]
    | some entry => simp [inForce,last,actionMap_iff]

/-- A macaroon passes exactly when each required operation stands in the last entry of its entity. -/
theorem Mobile.hasPermissions_iff (macOps : List Op) (requiredOps : List BakeryOp) :
    Mobile.hasPermissions macOps requiredOps = true ↔ ∀ op ∈ requiredOps, op ∈ inForce macOps :=
  containsAll_lookupMap macOps requiredOps

namespace Wasm

variable {uri : String}

/-- An entry that grants the URI ends the loop. -/
theorem addOp_grants (macOpsMap : OpsMap) (op : Op) (grants : op.entity = PermissionEntityCustomURI ∧ uri ∈ op.actions) :
    addOp uri macOpsMap op = .error true := by
  apply foldlM_eq_error (setAction op.entity) (fun action => action = uri)
  · intro macOpsMap action same
    exact if_pos ⟨grants.1,same⟩
  · intro macOpsMap action other
    exact if_neg fun both => other both.2
  · exact ⟨uri,grants.2,rfl⟩

theorem addOp_other (macOpsMap : OpsMap) (op : Op) (other : ¬ (op.entity = PermissionEntityCustomURI ∧ uri ∈ op.actions)) :
    addOp uri macOpsMap op = .ok (Mobile.addOp macOpsMap op) := by
  apply foldlM_eq_ok (setAction op.entity) (fun action => op.entity = PermissionEntityCustomURI ∧ action = uri)
  · intro macOpsMap action continues
    exact if_neg continues
  · rintro action member ⟨entity,rfl⟩
    exact other ⟨entity,member⟩

/-- The loop is left exactly when the URI is granted; otherwise it builds the map of the mobile client. -/
theorem lookupMap_grants (macOps : List Op) (grants : GrantsURI uri macOps) : lookupMap uri macOps = .error true :=
  foldlM_eq_error Mobile.addOp _ addOp_grants addOp_other macOps grants _

theorem lookupMap_other (macOps : List Op) (other : ¬ GrantsURI uri macOps) :
    lookupMap uri macOps = .ok (Mobile.lookupMap macOps) :=
  foldlM_eq_ok Mobile.addOp _ addOp_other macOps (fun op member grants => other ⟨op,member,grants⟩) _

theorem hasPermissions_iff (macOps : List Op) (requiredOps : List BakeryOp) :
    hasPermissions uri macOps requiredOps = true ↔
      GrantsURI uri macOps ∨ ∀ op ∈ requiredOps, op ∈ inForce macOps := by
  unfold hasPermissions
  by_cases grants : GrantsURI uri macOps
  · simp [lookupMap_grants macOps grants,grants]
  · simp only [lookupMap_other macOps grants,grants,false_or]
    exact containsAll_lookupMap macOps requiredOps

end Wasm

/-- A macaroon passes exactly when it lists every required operation. -/
def Mobile.Decides (macOps : List Op) : Prop :=
  ∀ requiredOps, Mobile.hasPermissions macOps requiredOps = true ↔ ∀ op ∈ requiredOps, op ∈ granted macOps

/-- A macaroon passes exactly when it grants the URI or lists every required operation. -/
def Wasm.Decides (uri : String) (macOps : List Op) : Prop :=
  ∀ requiredOps, Wasm.hasPermissions uri macOps requiredOps = true ↔
    GrantsURI uri macOps ∨ ∀ op ∈ requiredOps, op ∈ granted macOps

theorem covering_of_each {macOps : List Op}
    (each : ∀ requiredOps : List BakeryOp, (∀ op ∈ requiredOps, op ∈ granted macOps) →
      ∀ op ∈ requiredOps, op ∈ inForce macOps) :
    Covering macOps := by
  apply (granted_subset_iff macOps).mp
  intro required grants
  exact each [required] (List.forall_mem_singleton.mpr grants) required List.mem_cons_self

theorem Mobile.decides_iff (macOps : List Op) : Mobile.Decides macOps ↔ Covering macOps := by
  constructor
  · intro decides
    apply covering_of_each
    intro requiredOps grants
    exact (Mobile.hasPermissions_iff macOps requiredOps).mp ((decides requiredOps).mpr grants)
  · intro covering requiredOps
    rw [Mobile.hasPermissions_iff,covering.inForce_eq]

theorem Wasm.decides_iff (uri : String) (macOps : List Op) :
    Wasm.Decides uri macOps ↔ GrantsURI uri macOps ∨ Covering macOps := by
  constructor
  · intro decides
    by_cases grantsURI : GrantsURI uri macOps
    · exact .inl grantsURI
    · right
      apply covering_of_each
      intro requiredOps grants
      have passes := (Wasm.hasPermissions_iff macOps requiredOps).mp ((decides requiredOps).mpr (.inr grants))
      exact passes.resolve_left grantsURI
  · rintro (grantsURI | covering) requiredOps
    · simp [Wasm.hasPermissions_iff,grantsURI]
    · rw [Wasm.hasPermissions_iff,covering.inForce_eq]

/-- Where nothing is lost, only the set of the grants matters. -/
theorem hasPermissions_congr {macOps others : List Op} (covering : Covering macOps) (coveringOthers : Covering others)
    (same : granted others = granted macOps) (requiredOps : List BakeryOp) :
    Mobile.hasPermissions others requiredOps = Mobile.hasPermissions macOps requiredOps ∧
      ∀ uri, Wasm.hasPermissions uri others requiredOps = Wasm.hasPermissions uri macOps requiredOps := by
  constructor
  · apply Bool.eq_iff_iff.mpr
    rw [(Mobile.decides_iff others).mpr coveringOthers,(Mobile.decides_iff macOps).mpr covering,same]
  · intro uri
    apply Bool.eq_iff_iff.mpr
    rw [(Wasm.decides_iff uri others).mpr (.inr coveringOthers),(Wasm.decides_iff uri macOps).mpr (.inr covering)]
    unfold GrantsURI
    rw [same]

theorem hasPermissions_perm {macOps others : List Op} (distinct : (macOps.map Op.entity).Nodup)
    (perm : others.Perm macOps) (requiredOps : List BakeryOp) :
    Mobile.hasPermissions others requiredOps = Mobile.hasPermissions macOps requiredOps ∧
      ∀ uri, Wasm.hasPermissions uri others requiredOps = Wasm.hasPermissions uri macOps requiredOps := by
  apply hasPermissions_congr (covering_of_distinct distinct)
  · exact covering_of_distinct ((perm.map Op.entity).nodup_iff.mpr distinct)
  · exact granted_of_perm perm

/-- No macaroon passes without its grants. All of its grants count exactly when the last entry of
each entity repeats those of the earlier ones, and then only the set of the grants matters. -/
theorem hasPermissions_inclusion (macOps : List Op) :
    (∀ requiredOps, Mobile.hasPermissions macOps requiredOps = true → ∀ op ∈ requiredOps, op ∈ granted macOps) ∧
    (∀ uri requiredOps, Wasm.hasPermissions uri macOps requiredOps = true →
      GrantsURI uri macOps ∨ ∀ op ∈ requiredOps, op ∈ granted macOps) ∧
    (Mobile.Decides macOps ↔ Covering macOps) ∧
    (∀ uri, Wasm.Decides uri macOps ↔ GrantsURI uri macOps ∨ Covering macOps) ∧
    ∀ others, Covering macOps → Covering others → granted others = granted macOps → ∀ requiredOps,
      Mobile.hasPermissions others requiredOps = Mobile.hasPermissions macOps requiredOps ∧
      ∀ uri, Wasm.hasPermissions uri others requiredOps = Wasm.hasPermissions uri macOps requiredOps := by
  refine ⟨?_,?_,Mobile.decides_iff macOps,fun uri => Wasm.decides_iff uri macOps,?_⟩
  · intro requiredOps passes op member
    exact inForce_subset macOps ((Mobile.hasPermissions_iff macOps requiredOps).mp passes op member)
  · intro uri requiredOps passes
    apply ((Wasm.hasPermissions_iff macOps requiredOps).mp passes).imp_right
    intro all op member
    exact inForce_subset macOps (all op member)
  · intro others covering coveringOthers same requiredOps
    exact hasPermissions_congr covering coveringOthers same requiredOps

theorem hasPermissions_inclusion_distinct :
    Covering [⟨"info",["read"]⟩,⟨"offchain",["read","write"]⟩] ∧
      Mobile.Decides [⟨"info",["read"]⟩,⟨"offchain",["read","write"]⟩] := by
  have covering : Covering [⟨"info",["read"]⟩,⟨"offchain",["read","write"]⟩] := covering_of_distinct (by decide)
  exact ⟨covering,(hasPermissions_inclusion _).2.2.1.mpr covering⟩

/-- The second entry of an entity takes back the first; in the other order, or as one entry, nothing is lost. -/
theorem repeated_entity_forgets :
    ⟨"info","read"⟩ ∈ granted [⟨"info",["read"]⟩,⟨"info",["write"]⟩] ∧
    Mobile.hasPermissions [⟨"info",["read"]⟩,⟨"info",["write"]⟩] [⟨"info","read"⟩] = false ∧
    Wasm.hasPermissions "/lnrpc.Lightning/GetInfo" [⟨"info",["read"]⟩,⟨"info",["write"]⟩]
      [⟨"info","read"⟩] = false ∧
    Mobile.hasPermissions [⟨"info",["write"]⟩,⟨"info",["read"]⟩] [⟨"info","read"⟩] = true ∧
    Mobile.hasPermissions [⟨"info",["read","write"]⟩] [⟨"info","read"⟩] = true := by
  refine ⟨⟨⟨"info",["read"]⟩,List.mem_cons_self,rfl,List.mem_cons_self⟩,?_,?_,?_,?_⟩ <;> decide +kernel

/-! The calls of the two clients. The bytes of the macaroon's identifier, the permissions that are
known for a URI and the URI of a permission's name come from outside. -/

def LatestVersion : UInt8 := 3

inductive MacaroonError where
  | indexOutOfRange
  | invalidVersion (rawID : Bytes)
  | undecodable
  deriving DecidableEq, Repr

def extractMacaroonOps (unmarshal : Bytes → Option (List Op)) : (rawID : Bytes) → Except MacaroonError (List Op)
  | [] => .error .indexOutOfRange
  | version :: idProto =>
    if version ≠ LatestVersion then .error (.invalidVersion (version :: idProto))
    else
      match unmarshal idProto with
      | none => .error .undecodable
      | some ops => .ok ops

def isReadOnly (ops : List Op) : Bool := ops.all fun op => op.actions.all fun action => action = "read"

/-- What the client knows besides the macaroon. -/
structure Environment where
  unmarshal : Bytes → Option (List Op)
  jsonCBRegex : String → String
  uriPermissions : String → Option (List BakeryOp)

/-- The macaroon is checked against the permissions of the URI. There is no answer where the call panics. -/
def checkURI (env : Environment) (mac : Option Bytes) (permission : String)
    (hasPermissions : String → List Op → List BakeryOp → Bool) : Option Bool :=
  match mac with
  | none => some false
  | some rawID =>
    let uri := env.jsonCBRegex permission
    match env.uriPermissions uri with
    | none => some false
    | some ops =>
      match extractMacaroonOps env.unmarshal rawID with
      | .error .indexOutOfRange => none
      | .error _ => some false
      | .ok macOps => some (hasPermissions uri macOps ops)

def Mobile.HasPermissions (env : Environment) (mac : Option Bytes) (permission : String) : Option Bool :=
  if permission = "" then some false
  else checkURI env mac permission fun _ macOps ops => Mobile.hasPermissions macOps ops

def Wasm.HasPermissions (env : Environment) (mac : Option Bytes) (args : List String) : Option Bool :=
  match args with
  | [permission] => checkURI env mac permission Wasm.hasPermissions
  | _ => some false

/-- The macaroon has the version that is read, and its operations are these. -/
def Holds (env : Environment) (mac : Option Bytes) (macOps : List Op) : Prop :=
  ∃ idProto, mac = some (LatestVersion :: idProto) ∧ env.unmarshal idProto = some macOps

variable {env : Environment} {mac : Option Bytes} {permission : String}

theorem Holds.unique {macOps others : List Op} (holds : Holds env mac macOps) (again : Holds env mac others) :
    macOps = others := by
  obtain ⟨idProto,rfl,decoded⟩ := holds
  obtain ⟨_,same,decodedAgain⟩ := again
  cases same
  exact Option.some.inj (decoded.symm.trans decodedAgain)

theorem extractMacaroonOps_ok_iff (rawID : Bytes) (macOps : List Op) :
    extractMacaroonOps env.unmarshal rawID = .ok macOps ↔ Holds env (some rawID) macOps := by
  cases rawID with
  | nil => simp [extractMacaroonOps,Holds]
  | cons version idProto =>
    by_cases latest : version = LatestVersion
    · subst latest
      cases decoded : env.unmarshal idProto <;> simp [extractMacaroonOps,Holds,decoded]
    · simp [extractMacaroonOps,Holds,latest]

theorem extractMacaroonOps_panics {unmarshal : Bytes → Option (List Op)} {rawID : Bytes}
    (panics : extractMacaroonOps unmarshal rawID = .error .indexOutOfRange) : rawID = [] := by
  cases rawID with
  | nil => rfl
  | cons version idProto =>
    rw [extractMacaroonOps] at panics
    split at panics
    · cases panics
    · split at panics <;> cases panics

/-- A call panics only over a macaroon with an empty ID. -/
theorem checkURI_panics {hasPermissions : String → List Op → List BakeryOp → Bool}
    (panics : checkURI env mac permission hasPermissions = none) : mac = some [] := by
  unfold checkURI at panics
  split at panics
  · contradiction
  · dsimp only at panics
    split at panics
    · contradiction
    · split at panics
      · next extracted => rw [extractMacaroonOps_panics extracted]
      · contradiction
      · contradiction

theorem Mobile.HasPermissions_panics (panics : Mobile.HasPermissions env mac permission = none) : mac = some [] := by
  unfold Mobile.HasPermissions at panics
  split_ifs at panics
  exact checkURI_panics panics

/-- A call succeeds exactly with a macaroon that is read, a URI that is known and a check that passes. -/
theorem checkURI_iff (hasPermissions : String → List Op → List BakeryOp → Bool) :
    checkURI env mac permission hasPermissions = some true ↔
      ∃ macOps ops, Holds env mac macOps ∧ env.uriPermissions (env.jsonCBRegex permission) = some ops ∧
        hasPermissions (env.jsonCBRegex permission) macOps ops = true := by
  constructor
  · intro passes
    cases mac with
    | none => simp [checkURI] at passes
    | some rawID =>
      cases known : env.uriPermissions (env.jsonCBRegex permission) with
      | none => simp [checkURI,known] at passes
      | some ops =>
        cases extracted : extractMacaroonOps env.unmarshal rawID with
        | error err => cases err <;> simp [checkURI,known,extracted] at passes
        | ok macOps =>
          simp only [checkURI,known,extracted,Option.some.injEq] at passes
          exact ⟨macOps,ops,(extractMacaroonOps_ok_iff rawID macOps).mp extracted,rfl,passes⟩
  · rintro ⟨macOps,ops,holds,known,passes⟩
    obtain ⟨idProto,rfl,_⟩ := id holds
    have extracted := (extractMacaroonOps_ok_iff _ macOps).mpr holds
    simp [checkURI,known,extracted,passes]

theorem Mobile.HasPermissions_iff : Mobile.HasPermissions env mac permission = some true ↔
    permission ≠ "" ∧ ∃ macOps ops, Holds env mac macOps ∧
      env.uriPermissions (env.jsonCBRegex permission) = some ops ∧ ∀ op ∈ ops, op ∈ inForce macOps := by
  unfold Mobile.HasPermissions
  by_cases empty : permission = ""
  · simp [empty]
  · rw [if_neg empty,checkURI_iff]
    simp only [Mobile.hasPermissions_iff,ne_eq,empty,not_false_eq_true,true_and]

theorem Wasm.HasPermissions_iff : Wasm.HasPermissions env mac [permission] = some true ↔
    ∃ macOps ops, Holds env mac macOps ∧ env.uriPermissions (env.jsonCBRegex permission) = some ops ∧
      (GrantsURI (env.jsonCBRegex permission) macOps ∨ ∀ op ∈ ops, op ∈ inForce macOps) := by
  unfold Wasm.HasPermissions
  rw [checkURI_iff]
  simp only [Wasm.hasPermissions_iff]

/-- For a permission that is named and a macaroon that is read, the WASM client permits what the mobile
client does, and beyond that what a grant of the URI itself allows. -/
theorem wasm_iff_mobile {macOps : List Op} (named : permission ≠ "") (holds : Holds env mac macOps) :
    Wasm.HasPermissions env mac [permission] = some true ↔
      Mobile.HasPermissions env mac permission = some true ∨
        (env.uriPermissions (env.jsonCBRegex permission)).isSome ∧ GrantsURI (env.jsonCBRegex permission) macOps := by
  rw [Wasm.HasPermissions_iff,Mobile.HasPermissions_iff]
  constructor
  · rintro ⟨others,ops,again,known,grants | all⟩
    · obtain rfl := holds.unique again
      exact .inr ⟨by simp [known],grants⟩
    · exact .inl ⟨named,others,ops,again,known,all⟩
  · rintro (⟨_,others,ops,again,known,all⟩ | ⟨found,grants⟩)
    · exact ⟨others,ops,again,known,.inr all⟩
    · obtain ⟨ops,known⟩ := Option.isSome_iff_exists.mp found
      exact ⟨macOps,ops,holds,known,.inl grants⟩

/-- A macaroon that counts as read-only lists nothing but reading. -/
theorem granted_of_isReadOnly {macOps : List Op} (readOnly : isReadOnly macOps = true) {required : BakeryOp}
    (grants : required ∈ granted macOps) : required.action = "read" := by
  obtain ⟨op,member,_,lists⟩ := grants
  have actions := List.all_eq_true.mp readOnly op member
  exact of_decide_eq_true (List.all_eq_true.mp actions required.action lists)

/-- With such a macaroon the mobile client permits only what needs no more than reading. -/
theorem Mobile.permits_reading {macOps : List Op} {ops : List BakeryOp} (holds : Holds env mac macOps)
    (readOnly : isReadOnly macOps = true) (known : env.uriPermissions (env.jsonCBRegex permission) = some ops)
    (passes : Mobile.HasPermissions env mac permission = some true) : ∀ op ∈ ops, op.action = "read" := by
  obtain ⟨_,others,required,again,same,all⟩ := Mobile.HasPermissions_iff.mp passes
  obtain rfl := holds.unique again
  obtain rfl : ops = required := Option.some.inj (known.symm.trans same)
  intro op member
  exact granted_of_isReadOnly readOnly (inForce_subset macOps (all op member))

end NodeConnect.Client
