import SmoFramework.Acl.PolicyEngine
import SmoFramework.Federation.Messages

/-! Policies that go from one mesh to another (`core/federation/policy_federation`). A delta names the
sets that were added, updated and removed; its bytes hold of each rule only a part of the conditions, and
the receiver loads the sets into its engine but takes none out. -/
namespace SmoFramework.Federation
open Library Library.BigEndian List
open Certificate (appendBytes readU32)
open Acl (PolicyDecision PolicyRule PolicyResult Policies PolicyEvaluationContext RuleSort loadPolicySet
  evaluateImpl allRules)

/-- `acl::PolicySet` with the fields that no evaluation reads. -/
structure PolicySet extends Acl.PolicySet where
  description : String := ""
  version : String := ""
  createdAt : Int64 := 0
  createdBy : String := ""

structure PolicyDelta where
  meshId : String := ""
  version : UInt64 := 0
  addedPolicies : List PolicySet := []
  removedPolicies : List String := []
  updatedPolicies : List PolicySet := []
  timestamp : Int64 := 0

/-! Writing. -/

def bytesOf (s : String) : Bytes := s.toList.map fun c => UInt8.ofNat c.toNat

def writeString (s : String) : Bytes := appendBytes (bytesOf s)

def writeCount (n : ℕ) : Bytes := write32 (UInt32.ofNat n)

variable (rule : PolicyRule)

/-- Of the conditions only the required capabilities, the mesh and the expression are written. -/
def writeRule : Bytes :=
  writeString rule.name ++ (writeString rule.description ++ (write32 rule.priority.toUInt32 ++
    (writeCount rule.requiredCapabilities.length ++ (rule.requiredCapabilities.flatMap writeString ++
      ([rule.effect.toByte] ++ (writeString rule.meshId ++ writeString rule.whereExpression))))))

variable (policy : PolicySet)

def writePolicy : Bytes :=
  writeString policy.name ++ (writeString policy.description ++ (writeCount policy.rules.length ++
    (policy.rules.flatMap writeRule ++ (writeString policy.version ++
      (write64 policy.createdAt.toUInt64 ++ writeString policy.createdBy)))))

def PolicyDelta.serialize (d : PolicyDelta) : Bytes :=
  writeString d.meshId ++ (write64 d.version ++ (writeCount d.addedPolicies.length ++
    (d.addedPolicies.flatMap writePolicy ++ (writeCount d.removedPolicies.length ++
      (d.removedPolicies.flatMap writeString ++ (writeCount d.updatedPolicies.length ++
        (d.updatedPolicies.flatMap writePolicy ++ write64 d.timestamp.toUInt64)))))))

/-! Reading. -/

def readText : Reader UInt8 Error String := do
  let s ← readString
  pure (shown s)

variable (e : Error)

def readWord64 : Reader UInt8 Error UInt64 := do
  let bytes ← Reader.vector 8 e
  pure (read64 bytes.toList)

variable (code : ℕ)

/-- A rule of an added set, where the codes of the errors count from 5, or of an updated one, where they
count from 12. -/
def readRule : Reader UInt8 Error PolicyRule := do
  let name ← readText
  let description ← readText
  let priority ← readU32 (serializationError (code+1) "Truncated priority")
  let capsCount ← readU32 (serializationError (code+2) "Truncated caps count")
  let requiredCapabilities ← readText.times capsCount.toNat
  let effect ← Reader.symbol (serializationError (code+3) "Truncated effect")
  let meshId ← readText
  let whereExpression ← readText
  pure { name, description, priority := priority.toInt32, requiredCapabilities,
         effect := .ofByte effect, meshId, whereExpression }

def readPolicy : Reader UInt8 Error PolicySet := do
  let name ← readText
  let description ← readText
  let rulesCount ← readU32 (serializationError code "Truncated rules count")
  let rules ← (readRule code).times rulesCount.toNat
  let version ← readText
  let createdAt ← readInt64 (serializationError (code+4) "Truncated created_at")
  let createdBy ← readText
  pure { name, rules, description, version, createdAt, createdBy }

def PolicyDelta.read : Reader UInt8 Error PolicyDelta := do
  let meshId ← readText
  let version ← readWord64 (serializationError 3 "Truncated version")
  let addedCount ← readU32 (serializationError 4 "Truncated added count")
  let addedPolicies ← (readPolicy 5).times addedCount.toNat
  let removedCount ← readU32 (serializationError 10 "Truncated removed count")
  let removedPolicies ← readText.times removedCount.toNat
  let updatedCount ← readU32 (serializationError 11 "Truncated updated count")
  let updatedPolicies ← (readPolicy 12).times updatedCount.toNat
  let timestamp ← readInt64 (serializationError 17 "Truncated timestamp")
  pure { meshId, version, addedPolicies, removedPolicies, updatedPolicies, timestamp }

def PolicyDelta.deserialize (data : Bytes) : Result PolicyDelta := (read.run data).map Prod.fst

/-! The receiver. -/

structure PolicyChange where
  meshId : String
  policy : PolicySet
  added : Bool

structure Applied where
  policies : Policies
  changes : List PolicyChange := []

namespace Applied

def load (meshId : String) (added : Bool) (a : Applied) (policy : PolicySet) : Applied where
  policies := loadPolicySet a.policies policy.toPolicySet
  changes := a.changes ++ [⟨meshId,policy,added⟩]

/-- A removed policy is only told; the engine has no operation that takes a set out. -/
def tellRemoved (meshId : String) (a : Applied) (name : String) : Applied where
  policies := a.policies
  changes := a.changes ++ [⟨meshId,{ name, rules := [] },false⟩]

end Applied

variable (policies : Policies)

def applyPolicyDelta (d : PolicyDelta) : Applied :=
  let added := d.addedPolicies.foldl (Applied.load d.meshId true) { policies }
  let removed := d.removedPolicies.foldl (Applied.tellRemoved d.meshId) added
  d.updatedPolicies.foldl (Applied.load d.meshId false) removed

def handlePolicyDelta (data : Bytes) : Result Applied := do
  let d ← PolicyDelta.deserialize data
  pure (applyPolicyDelta policies d)

/-! What of a delta the bytes hold. -/

/-- A rule without the conditions that are not written. -/
def carriedRule : PolicyRule :=
  { name := rule.name, description := rule.description, priority := rule.priority,
    requiredCapabilities := rule.requiredCapabilities, effect := rule.effect, meshId := rule.meshId,
    whereExpression := rule.whereExpression }

def PolicySet.carried : PolicySet :=
  { policy with rules := policy.rules.map carriedRule }

def PolicyDelta.carried (d : PolicyDelta) : PolicyDelta :=
  { d with
    addedPolicies := d.addedPolicies.map PolicySet.carried
    updatedPolicies := d.updatedPolicies.map PolicySet.carried }

structure TextFits (s : String) : Prop where
  bytes : ∀ c ∈ s.toList, c.toNat < 256
  length : s.length < 2^32

structure RuleFits (rule : PolicyRule) : Prop where
  name : TextFits rule.name
  description : TextFits rule.description
  count : rule.requiredCapabilities.length < 2^32
  requiredCapabilities : ∀ cap ∈ rule.requiredCapabilities, TextFits cap
  meshId : TextFits rule.meshId
  whereExpression : TextFits rule.whereExpression

structure PolicySet.Fits (policy : PolicySet) : Prop where
  name : TextFits policy.name
  description : TextFits policy.description
  count : policy.rules.length < 2^32
  rules : ∀ rule ∈ policy.rules, RuleFits rule
  version : TextFits policy.version
  createdBy : TextFits policy.createdBy

/-- What is written with a length or a number of four bytes fits them. -/
structure PolicyDelta.Fits (d : PolicyDelta) : Prop where
  meshId : TextFits d.meshId
  addedCount : d.addedPolicies.length < 2^32
  addedPolicies : ∀ policy ∈ d.addedPolicies, policy.Fits
  removedCount : d.removedPolicies.length < 2^32
  removedPolicies : ∀ name ∈ d.removedPolicies, TextFits name
  updatedCount : d.updatedPolicies.length < 2^32
  updatedPolicies : ∀ policy ∈ d.updatedPolicies, policy.Fits

section Reads
open Reader (Reads)

variable {s : String}

lemma shown_bytesOf (h : ∀ c ∈ s.toList, c.toNat < 256) : shown (bytesOf s) = s := by
  have hback : (bytesOf s).map (fun b => Char.ofNat b.toNat) = s.toList := by
    rw [bytesOf,map_map]
    refine (map_congr_left fun c hc => ?_).trans (map_id _)
    change Char.ofNat (UInt8.ofNat c.toNat).toNat = c
    rw [UInt8.toNat_ofNat_of_lt' (h c hc),Char.ofNat_toNat]
  rw [shown,hback,String.ofList_toList]

lemma reads_readString {part : Bytes} (h : part.length < 2^32) :
    Reads readString (appendBytes part) part := by
  intro rest
  exact (Reader.run_sized_eq_ok fun _ _ _ => Certificate.run_readU32_eq_ok).mpr
    ⟨h,by rw [appendBytes,append_assoc]⟩

lemma reads_readText (h : TextFits s) : Reads readText (writeString s) s := by
  have hlen : (bytesOf s).length < 2^32 := by
    rw [bytesOf,length_map]
    exact h.length
  have hread : Reads readText (writeString s) (shown (bytesOf s)) := (reads_readString hlen).bind_pure
  rwa [shown_bytesOf h.bytes] at hread

lemma reads_readInt64 (v : Int64) : Reads (readInt64 e) (write64 v.toUInt64) v := by
  have hread : Reads (readInt64 e) (write64 v.toUInt64) (read64 (write64 v.toUInt64)).toInt64 :=
    (Reads.part e (length_write64 _)).bind_pure
  rwa [read64_write64] at hread

lemma reads_readWord64 (v : UInt64) : Reads (readWord64 e) (write64 v) v := by
  have hread : Reads (readWord64 e) (write64 v) (read64 (write64 v)) :=
    (Reads.part e (length_write64 _)).bind_pure
  rwa [read64_write64] at hread

/-- A number and as many values behind it. -/
theorem reads_counted {α γ ι : Type} {r : Reader UInt8 Error α} {write : ι → Bytes} {value : ι → α}
    {xs : List ι} {f : List α → Reader UInt8 Error γ} {rest : Bytes} {c : γ} (e : Error)
    (hcount : xs.length < 2^32) (h : ∀ x ∈ xs, Reads r (write x) (value x))
    (hf : Reads (f (xs.map value)) rest c) : Reads (do
      let count ← readU32 e
      let as ← r.times count.toNat
      f as) (writeCount xs.length ++ (xs.flatMap write ++ rest)) c := by
  have hv : (UInt32.ofNat xs.length).toNat = xs.length := UInt32.toNat_ofNat_of_lt' hcount
  refine (Certificate.reads_readU32 e _).bind ?_
  rw [hv]
  exact (Reads.times h).bind hf

lemma reads_readRule {rule : PolicyRule} (h : RuleFits rule) :
    Reads (readRule code) (writeRule rule) (carriedRule rule) := by
  have hcarried : carriedRule rule = { carriedRule rule with
      priority := rule.priority.toUInt32.toInt32
      requiredCapabilities := rule.requiredCapabilities.map id
      effect := .ofByte rule.effect.toByte } := by
    rw [map_id,PolicyDecision.ofByte_toByte]
    rfl
  rw [hcarried]
  exact (reads_readText h.name).bind ((reads_readText h.description).bind
    ((Certificate.reads_readU32 _ _).bind (reads_counted _ h.count
      (fun cap hcap => reads_readText (h.requiredCapabilities cap hcap))
      ((Reads.symbol _ _).bind ((reads_readText h.meshId).bind
        (reads_readText h.whereExpression).bind_pure)))))

lemma reads_readPolicy {policy : PolicySet} (h : policy.Fits) :
    Reads (readPolicy code) (writePolicy policy) policy.carried :=
  (reads_readText h.name).bind ((reads_readText h.description).bind
    (reads_counted _ h.count (fun rule hrule => reads_readRule code (h.rules rule hrule))
      ((reads_readText h.version).bind ((reads_readInt64 _ _).bind
        (reads_readText h.createdBy).bind_pure))))

end Reads

/-- The bytes of a delta are read as the delta without the conditions that are not written. -/
theorem PolicyDelta.deserialize_serialize {d : PolicyDelta} (h : d.Fits) :
    deserialize d.serialize = .ok d.carried := by
  have hnames : d.carried = { d.carried with removedPolicies := d.removedPolicies.map id } := by
    rw [map_id]
    rfl
  rw [hnames]
  exact Reader.Reads.whole ((reads_readText h.meshId).bind ((reads_readWord64 _ _).bind
    (reads_counted _ h.addedCount (fun policy hp => reads_readPolicy 5 (h.addedPolicies policy hp))
    (reads_counted _ h.removedCount (fun name hn => reads_readText (h.removedPolicies name hn))
    (reads_counted _ h.updatedCount (fun policy hp => reads_readPolicy 12 (h.updatedPolicies policy hp))
      (reads_readInt64 _ _).bind_pure)))))

/-! What the engine of the receiver holds. -/

variable (sets : List PolicySet)

def lastNamed (name : String) : Option PolicySet :=
  sets.reverse.find? fun policy => policy.name = name

/-- An engine with the policies it had before, less the removed ones, and with the sets installed over
them. -/
def Holds (engine previous : Policies) (removed : List String) (sets : List PolicySet) : Prop :=
  ∀ name, engine.find name = match lastNamed sets name with
    | some policy => some policy.toPolicySet
    | none => if name ∈ removed then none else previous.find name

def installed : Policies :=
  sets.foldl (fun policies policy => loadPolicySet policies policy.toPolicySet) policies

lemma holds_installed :
    Holds (installed policies sets) policies [] sets := by
  intro name
  induction sets using reverseRecOn with
  | nil => rfl
  | append_singleton sets policy ih =>
    rw [installed,foldl_append,foldl_cons,foldl_nil,loadPolicySet,AssocMap.find_insert,
      lastNamed,reverse_concat,find?_cons]
    by_cases hname : policy.name = name
    · simp [hname]
    · rw [if_neg (Ne.symm hname),decide_eq_false hname]
      exact ih

lemma policies_foldl_load (meshId : String) (added : Bool) (sets : List PolicySet) (a : Applied) :
    (sets.foldl (Applied.load meshId added) a).policies = installed a.policies sets := by
  induction sets generalizing a with
  | nil => rfl
  | cons policy sets ih => exact ih _

lemma policies_foldl_tellRemoved (meshId : String) (names : List String) (a : Applied) :
    (names.foldl (Applied.tellRemoved meshId) a).policies = a.policies := by
  induction names generalizing a with
  | nil => rfl
  | cons name names ih => exact ih _

lemma policies_applyPolicyDelta (d : PolicyDelta) :
    (applyPolicyDelta policies d).policies =
      installed policies (d.addedPolicies ++ d.updatedPolicies) := by
  rw [applyPolicyDelta,policies_foldl_load,policies_foldl_tellRemoved,policies_foldl_load,installed,
    installed,installed,foldl_append]

lemma handlePolicyDelta_serialize {d : PolicyDelta} (h : d.Fits) (policies : Policies) :
    handlePolicyDelta policies d.serialize = .ok (applyPolicyDelta policies d.carried) := by
  rw [handlePolicyDelta,PolicyDelta.deserialize_serialize h]
  rfl

/-- After a delta has come the engine decides as one that holds what it held before and the sets of the
delta with the conditions that are written. -/
theorem handlePolicyDelta_decides (d : PolicyDelta) (hfits : d.Fits) (policies : Policies) :
    ∃ applied, handlePolicyDelta policies d.serialize = .ok applied ∧
      ∀ engine, Holds engine policies []
          ((d.addedPolicies ++ d.updatedPolicies).map PolicySet.carried) →
        ∀ context result, Acl.Possible applied.policies context result ↔
          Acl.Possible engine context result := by
  refine ⟨_,handlePolicyDelta_serialize hfits policies,fun engine hengine context result => ?_⟩
  have hsame : ∀ name,
      (applyPolicyDelta policies d.carried).policies.find name = engine.find name := by
    intro name
    rw [policies_applyPolicyDelta,hengine name,map_append]
    exact holds_installed policies _ name
  exact ⟨.of_find_eq hsame,.of_find_eq fun name => (hsame name).symm⟩

def limited : PolicyDelta where
  addedPolicies := [{ name := "p", rules := [{ name := "r", forbiddenCapabilities := ["x"] }] }]

def withdrawn : PolicyDelta where
  removedPolicies := ["p"]

def granting : Acl.PolicySet := ⟨"p",[{ name := "r" }]⟩

lemma textFits_empty : TextFits "" := ⟨by simp,by decide⟩

lemma textFits_p : TextFits "p" := ⟨by simp,by decide⟩

lemma textFits_r : TextFits "r" := ⟨by simp,by decide⟩

lemma fits_limited : limited.Fits where
  meshId := textFits_empty
  addedCount := by decide
  addedPolicies := by
    intro policy hpolicy
    obtain rfl := mem_singleton.mp hpolicy
    refine ⟨textFits_p,textFits_empty,by decide,?_,textFits_empty,textFits_empty⟩
    intro rule hrule
    obtain rfl := mem_singleton.mp hrule
    exact ⟨textFits_r,textFits_empty,by decide,forall_mem_nil _,textFits_empty,textFits_empty⟩
  removedCount := by decide
  removedPolicies := forall_mem_nil _
  updatedCount := by decide
  updatedPolicies := forall_mem_nil _

lemma fits_withdrawn : withdrawn.Fits where
  meshId := textFits_empty
  addedCount := by decide
  addedPolicies := forall_mem_nil _
  removedCount := by decide
  removedPolicies := by
    intro name hname
    obtain rfl := mem_singleton.mp hname
    exact textFits_p
  updatedCount := by decide
  updatedPolicies := forall_mem_nil _

theorem handlePolicyDelta_decides_limited : ∃ applied, handlePolicyDelta .empty limited.serialize =
    .ok applied ∧ ∀ engine, Holds engine .empty []
          ((limited.addedPolicies ++ limited.updatedPolicies).map PolicySet.carried) →
        ∀ context result, Acl.Possible applied.policies context result ↔
          Acl.Possible engine context result :=
  handlePolicyDelta_decides limited fits_limited .empty

/-- The receiver grants what the sender's rule does not grant, and goes on granting what the sender has
taken back. -/
theorem received_policies_grant :
    (∃ applied engine, handlePolicyDelta .empty limited.serialize = .ok applied ∧
      Holds engine .empty limited.removedPolicies
        (limited.addedPolicies ++ limited.updatedPolicies) ∧
      (∀ result, Acl.Possible applied.policies { sessionCaps := ["x"] } result →
        result.decision = .allow) ∧
      ∀ result, Acl.Possible engine { sessionCaps := ["x"] } result → result.decision = .deny) ∧
    ∃ applied engine,
      handlePolicyDelta (loadPolicySet .empty granting) withdrawn.serialize = .ok applied ∧
      Holds engine (loadPolicySet .empty granting) withdrawn.removedPolicies
        (withdrawn.addedPolicies ++ withdrawn.updatedPolicies) ∧
      (∀ result, Acl.Possible applied.policies {} result → result.decision = .allow) ∧
      ∀ result, Acl.Possible engine {} result → result.decision = .deny := by
  have hlimited := handlePolicyDelta_serialize fits_limited .empty
  have hwithdrawn := handlePolicyDelta_serialize fits_withdrawn (loadPolicySet .empty granting)
  constructor
  · refine ⟨_,installed .empty limited.addedPolicies,hlimited,holds_installed _ _,?_,?_⟩
    · exact fun result h => h.decision_eq (by decide) (RuleSort.favouring {}) rfl
    · exact fun result h => h.decision_eq (by decide) (RuleSort.favouring {}) rfl
  · refine ⟨_,.empty,hwithdrawn,?_,?_,?_⟩
    · intro name
      split_ifs with hname
      · rfl
      · have hne : name ≠ granting.name := fun h => hname (mem_singleton.mpr h)
        rw [loadPolicySet,AssocMap.find_insert,if_neg hne]
        rfl
    · exact fun result h => h.decision_eq (by decide) (RuleSort.favouring {}) rfl
    · exact fun result h => h.decision_eq (by decide) (RuleSort.favouring {}) rfl

end SmoFramework.Federation
