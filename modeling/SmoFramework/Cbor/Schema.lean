import SmoFramework.Cbor.ContextValue
import SmoFramework.Library.AssocMap

/-! Schemas of context values and their validation (`SchemaRegistry` in `core/cbor/context_value`). A
nested map is validated against the schema that is registered under the name of its field, not against
the entry of `nested_schemas`. -/
namespace SmoFramework.Cbor
open Library List AssocMap RawValue

inductive ValueType
  | nil | bool | int | float | string | bytes | array | map
  deriving DecidableEq, Repr

def ValueType.toNat : ValueType → ℕ
  | .nil => 0
  | .bool => 1
  | .int => 2
  | .float => 3
  | .string => 4
  | .bytes => 5
  | .array => 6
  | .map => 7

def RawValue.type : RawValue → ValueType
  | .nil => .nil
  | .bool _ => .bool
  | .int _ => .int
  | .float _ => .float
  | .string _ => .string
  | .bytes _ => .bytes
  | .array _ => .array
  | .map _ => .map

structure FieldSchema where
  name : Bytes
  type : ValueType
  required : Bool := true
  deriving DecidableEq, Repr

inductive Schema
  | mk (name : Bytes) (version : Bytes) (fields : List FieldSchema) (nestedSchemas : List (Bytes × Schema))

namespace Schema

def name : Schema → Bytes
  | mk name _ _ _ => name

def fields : Schema → List FieldSchema
  | mk _ _ fields _ => fields

def nestedSchemas : Schema → List (Bytes × Schema)
  | mk _ _ _ nested => nested

end Schema

/-- Schemas under their names, without empty field names. -/
structure SchemaRegistry where
  schemas : AssocMap Bytes Schema
  named : ∀ name schema, schemas.find name = some schema → schema.name = name
  fieldNames : ∀ name schema, schemas.find name = some schema →
    ∀ field ∈ schema.fields, field.name ≠ []

namespace SchemaRegistry

def empty : SchemaRegistry where
  schemas := AssocMap.empty
  named := fun _ _ h => by cases h
  fieldNames := fun _ _ h => by cases h

def schemaErr (code : ℕ) (message : String) : Error := smoErrProtocol code .error .noRetry .none message

def registerSchema (reg : SchemaRegistry) (schema : Schema) : Result Unit × SchemaRegistry :=
  if reg.schemas.contains schema.name then
    (.error (schemaErr 720 ("Schema already registered: " ++ shown schema.name)),reg)
  else if h : ∃ field ∈ schema.fields, field.name = [] then
    (.error (schemaErr 721 "Schema field name cannot be empty"),reg)
  else (.ok (),{
    schemas := reg.schemas.insert schema.name schema
    named := by
      intro name schema' hfind
      rw [find_insert] at hfind
      split_ifs at hfind with hname
      · cases hfind
        exact hname.symm
      · exact reg.named name schema' hfind
    fieldNames := by
      intro name schema' hfind field hfield hempty
      rw [find_insert] at hfind
      split_ifs at hfind with hname
      · cases hfind
        exact h ⟨field,hfield,hempty⟩
      · exact reg.fieldNames name schema' hfind field hfield hempty })

/-- What the loop of `validate` does for one field; `nested` is the recursive call. -/
def checkField (schema : Schema) (m : List (Bytes × RawValue))
    (nested : (x : RawValue) → (∃ key, findIn key m = some x) → Bytes → Result Unit)
    (field : FieldSchema) : Result Unit :=
  match hfind : findIn field.name m with
  | none =>
    if field.required then .error (schemaErr 724 ("Missing required field: " ++ shown field.name ++
      " in schema " ++ shown schema.name))
    else .ok ()
  | some x =>
    if x.type ≠ field.type then .error (schemaErr 725 ("Type mismatch for field " ++ shown field.name ++
      " in schema " ++ shown schema.name ++ ": expected " ++ toString field.type.toNat ++ ", got " ++
      toString x.type.toNat))
    else if field.type = .map then
      match findIn field.name schema.nestedSchemas with
      | none => .ok ()
      | some _ => nested x ⟨field.name,hfind⟩ field.name
    else .ok ()

def checkFields (check : FieldSchema → Result Unit) : List FieldSchema → Result Unit
  | [] => .ok ()
  | field::fields => match check field with
    | .error e => .error e
    | .ok () => checkFields check fields

lemma sizeOf_findIn_lt (h : findIn key m = some x) : sizeOf x < sizeOf (map m) := by
  have hmem := sizeOf_lt_of_mem (mem_of_findIn h)
  rw [Prod.mk.sizeOf_spec] at hmem
  rw [map.sizeOf_spec]
  omega

def validate (reg : SchemaRegistry) (value : RawValue) (schemaName : Bytes) : Result Unit :=
  match reg.schemas.find schemaName with
  | none => .error (schemaErr 722 ("Schema not found: " ++ shown schemaName))
  | some schema => match value with
    | .map m => checkFields (checkField schema m fun x _hx name => reg.validate x name) schema.fields
    | _ => .error (schemaErr 723 "Value is not a map for schema validation")
termination_by value
decreasing_by
  obtain ⟨key,hx⟩ := _hx
  exact sizeOf_findIn_lt hx

end SchemaRegistry

/-! What a schema asks for. -/

def Schema.Admits (schema : Schema) (m : List (Bytes × RawValue)) : Prop :=
  ∀ field ∈ schema.fields,
    (field.required = true → (findIn field.name m).isSome = true) ∧
      ∀ x, findIn field.name m = some x → x.type = field.type

def Schema.Nests (schema : Schema) (name : Bytes) (entry : Schema) : Prop :=
  (∃ field ∈ schema.fields, field.name = name ∧ field.type = .map) ∧
    findIn name schema.nestedSchemas = some entry

inductive Conforms : Schema → RawValue → Prop
  | map {schema : Schema} {m : List (Bytes × RawValue)} (fields : schema.Admits m)
      (nested : ∀ name entry x, schema.Nests name entry → findIn name m = some x →
        Conforms entry x) : Conforms schema (.map m)

lemma conforms_map :
    Conforms schema (.map m) ↔ schema.Admits m ∧
      ∀ name entry x, schema.Nests name entry → findIn name m = some x → Conforms entry x := by
  constructor
  · rintro ⟨hfields,hnested⟩
    exact ⟨hfields,hnested⟩
  · rintro ⟨hfields,hnested⟩
    exact .map hfields hnested

namespace SchemaRegistry
variable {reg : SchemaRegistry} {schema : Schema} {m : List (Bytes × RawValue)}

lemma checkFields_eq_ok {check : FieldSchema → Result Unit} :
    checkFields check fields = .ok () ↔ ∀ field ∈ fields, check field = .ok () := by
  induction fields with
  | nil => simp [checkFields]
  | cons field fields ih =>
    rw [checkFields,forall_mem_cons,← ih]
    cases check field with
    | error e => simp
    | ok u => simp

lemma checkField_eq_ok {check : RawValue → Bytes → Result Unit} :
    checkField schema m (fun x _ name => check x name) field = .ok () ↔
      (field.required = true → (findIn field.name m).isSome = true) ∧
      ∀ x, findIn field.name m = some x → x.type = field.type ∧
        (field.type = .map → ∀ entry, findIn field.name schema.nestedSchemas = some entry →
          check x field.name = .ok ()) := by
  unfold checkField
  split
  · rename_i hnone
    simp [hnone]
  · rename_i x hsome
    rw [ite_error_eq_ok,not_not]
    simp only [hsome,Option.isSome_some,implies_true,true_and,Option.some.injEq,forall_eq']
    refine and_congr_right fun _ => ?_
    split_ifs with hmap
    · cases findIn field.name schema.nestedSchemas with
      | none => simp
      | some entry => simp [hmap]
    · simp [hmap]

lemma validate_map_eq_ok (hschema : reg.schemas.find name = some schema) :
    reg.validate (.map m) name = .ok () ↔ schema.Admits m ∧
      ∀ key entry x, schema.Nests key entry → findIn key m = some x →
        reg.validate x key = .ok () := by
  rw [validate,hschema]
  rw [checkFields_eq_ok]
  simp only [checkField_eq_ok]
  constructor
  · intro h
    refine ⟨fun field hfield => ⟨(h field hfield).1,fun x hx => ((h field hfield).2 x hx).1⟩,?_⟩
    rintro _ entry x ⟨⟨field,hfield,rfl,hmap⟩,hentry⟩ hx
    exact ((h field hfield).2 x hx).2 hmap entry hentry
  · rintro ⟨hadmits,hnested⟩ field hfield
    refine ⟨(hadmits field hfield).1,fun x hx => ⟨(hadmits field hfield).2 x hx,?_⟩⟩
    exact fun hmap entry hentry => hnested _ entry x ⟨⟨field,hfield,rfl,hmap⟩,hentry⟩ hx

lemma validate_unregistered (hschema : reg.schemas.find name = none) (v : RawValue) :
    reg.validate v name ≠ .ok () := by
  rw [validate,hschema]
  exact fun h => by cases h

def ConformsAs (reg : SchemaRegistry) (name : Bytes) (v : RawValue) : Prop :=
  ∃ schema, reg.schemas.find name = some schema ∧ Conforms schema v

/-- In every map with the fields of a registered schema, the nested maps conform to the schemas
registered under the names of their fields exactly if they conform to the nested ones. -/
def NestedAgree (reg : SchemaRegistry) : Prop :=
  ∀ name schema, reg.schemas.find name = some schema →
    ∀ m, (map m).WF → schema.Admits m →
      ((∀ key entry x, schema.Nests key entry → findIn key m = some x → reg.ConformsAs key x) ↔
        ∀ key entry x, schema.Nests key entry → findIn key m = some x → Conforms entry x)

lemma wf_of_findIn (hwf : (map m).WF)
    (h : findIn key m = some x) : x.WF := by
  have hentries : ∀ m : List (Bytes × RawValue), wfEntries m → ∀ e ∈ m, e.2.WF := by
    intro m
    induction m with
    | nil => exact fun _ e he => absurd he not_mem_nil
    | cons e m ih =>
      intro hm
      exact forall_mem_cons.mpr ⟨hm.1,ih hm.2⟩
  exact hentries m hwf.2 (key,x) (mem_of_findIn h)

lemma nested_congr {v : RawValue → Bytes → Prop} {w : RawValue → Bytes → Prop}
    (h : ∀ key x, findIn key m = some x → (v x key ↔ w x key)) :
    (∀ key entry x, schema.Nests key entry → findIn key m = some x → v x key) ↔
      ∀ key entry x, schema.Nests key entry → findIn key m = some x → w x key :=
  forall_congr' fun key => forall_congr' fun _ => forall_congr' fun x => forall_congr' fun _ =>
    forall_congr' fun hx => h key x hx

lemma NestedAgree.validate_iff (hagree : reg.NestedAgree) (v : RawValue) (hwf : v.WF) (name : Bytes) :
    reg.validate v name = .ok () ↔ reg.ConformsAs name v := by
  cases hschema : reg.schemas.find name with
  | none =>
    refine iff_of_false (validate_unregistered hschema v) ?_
    rintro ⟨schema,hfind,-⟩
    rw [hschema] at hfind
    cases hfind
  | some schema =>
    have has : reg.ConformsAs name v ↔ Conforms schema v := by
      simp [ConformsAs,hschema]
    rw [has]
    cases hv : v with
    | map m =>
      rw [hv] at hwf
      rw [validate_map_eq_ok hschema,conforms_map]
      refine and_congr_right fun hadmits => ?_
      rw [← hagree name schema hschema m hwf hadmits]
      exact nested_congr fun key x hx => hagree.validate_iff x (wf_of_findIn hwf hx) key
    | _ =>
      refine iff_of_false ?_ (fun h => by cases h)
      rw [validate,hschema]
      exact fun h => by cases h
termination_by v
decreasing_by
  rw [hv]
  exact sizeOf_findIn_lt hx

/-- Validation is conformance for every registered name and every value, if and only if the schemas
registered under the names of nested fields agree with the nested ones. -/
theorem validate_conforms_iff (reg : SchemaRegistry) :
    (∀ name schema, reg.schemas.find name = some schema → ∀ v : ContextValue,
      (reg.validate v.raw name = .ok () ↔ Conforms schema v.raw)) ↔ reg.NestedAgree := by
  constructor
  · intro h name schema hschema m hwf hadmits
    have hsame : ∀ key x, x.WF → (reg.validate x key = .ok () ↔ reg.ConformsAs key x) := by
      intro key x hx
      cases hkey : reg.schemas.find key with
      | none => exact iff_of_false (validate_unregistered hkey x) (by simp [ConformsAs,hkey])
      | some schema' =>
        rw [h key schema' hkey ⟨x,hx⟩]
        simp [ConformsAs,hkey]
    have hmap := h name schema hschema ⟨.map m,hwf⟩
    rw [validate_map_eq_ok hschema,conforms_map,and_congr_right_iff] at hmap
    rw [← hmap hadmits]
    exact (nested_congr fun key x hx => hsame key x (wf_of_findIn hwf hx)).symm
  · intro hagree name schema hschema v
    rw [hagree.validate_iff v.raw v.wf name]
    simp [ConformsAs,hschema]

def outerSchema : Schema :=
  .mk [0x6F] [] [{ name := [0x66], type := .map }] [([0x66],.mk [0x69] [] [] [])]

def outerRegistry : SchemaRegistry := (empty.registerSchema outerSchema).2

def outerValue : ContextValue where
  raw := .map [([0x66],.map [])]
  wf := by simp [RawValue.WF,wfEntries]

/-- The value conforms, and is refused since no schema is registered under the name of the field. -/
theorem nested_schema_not_found : outerRegistry.schemas.find [0x6F] = some outerSchema ∧
    Conforms outerSchema outerValue.raw ∧
    outerRegistry.validate outerValue.raw [0x6F] = .error (schemaErr 722 "Schema not found: f") := by
  have hfind : outerRegistry.schemas.find [0x6F] = some outerSchema := rfl
  refine ⟨hfind,?_,?_⟩
  · refine .map ?_ ?_
    · intro field hfield
      cases mem_singleton.mp hfield
      exact ⟨fun _ => rfl,fun x hx => by cases hx; rfl⟩
    · rintro name entry x ⟨⟨field,hfield,rfl,-⟩,hentry⟩ hx
      cases mem_singleton.mp hfield
      cases hentry
      cases hx
      exact .map (fun field hfield => absurd hfield not_mem_nil)
        fun name entry x hnests => absurd hnests.1.choose_spec.1 not_mem_nil
  · have hinner : outerRegistry.validate (.map []) [0x66] =
        .error (schemaErr 722 "Schema not found: f") := by
      rw [validate]
      rfl
    have hfield : checkField outerSchema [([0x66],.map [])]
        (fun x _ name => outerRegistry.validate x name) { name := [0x66], type := .map } =
          outerRegistry.validate (.map []) [0x66] := rfl
    rw [validate]
    change checkFields _ [{ name := [0x66], type := .map }] = _
    change (match checkField outerSchema [([0x66],.map [])]
      (fun x _ name => outerRegistry.validate x name) { name := [0x66], type := .map } with
      | .error e => Except.error e
      | .ok () => _) = _
    rw [hfield,hinner]

end SchemaRegistry
end SmoFramework.Cbor
