import Mathlib.Data.List.Induction
import Mathlib.Data.List.Sort
import Mathlib.Data.List.TakeWhile
import SmoFramework.Errors
import SmoFramework.Library.AssocMap
import SmoFramework.Library.Double

/-! The policy engine (`core/acl/policy_engine`): rules are tried from the highest priority down,
and the best grant is compared with the best denial. The order of equal priorities is open, so the
sort is a parameter. Policy files and the result cache are left out. -/
namespace SmoFramework.Acl
open Library List Double AssocMap

/-- The effect of a rule from another mesh is a byte cast without a check. -/
inductive PolicyDecision
  | allow | deny | conditional | audit | sandbox | rateLimit | readOnly
  | unnamed (value : UInt8) (h : 6 < value)
  deriving DecidableEq

namespace PolicyDecision

def toByte : PolicyDecision → UInt8
  | allow => 0
  | deny => 1
  | conditional => 2
  | audit => 3
  | sandbox => 4
  | rateLimit => 5
  | readOnly => 6
  | unnamed value _ => value

def ofByte (b : UInt8) : PolicyDecision :=
  if h : 6 < b then unnamed b h
  else match b.toNat with
    | 0 => allow
    | 1 => deny
    | 2 => conditional
    | 3 => audit
    | 4 => sandbox
    | 5 => rateLimit
    | _ => readOnly

lemma ofByte_toByte (d : PolicyDecision) : ofByte d.toByte = d := by
  cases d with
  | unnamed value h => exact dif_pos h
  | _ => rfl

end PolicyDecision

structure PolicyRule where
  name : String := ""
  description : String := ""
  priority : Int32 := 0
  requiredCapabilities : List String := []
  forbiddenCapabilities : List String := []
  requiredRoles : List String := []
  forbiddenRoles : List String := []
  effect : PolicyDecision := .allow
  minTrustScore : Option Int32 := none
  maxTrustScore : Option Int32 := none
  requiredCertifications : List String := []
  meshId : String := ""
  whereExpression : String := ""
  deriving DecidableEq

structure PolicySet where
  name : String
  rules : List PolicyRule

structure PolicyEvaluationContext where
  sessionRoles : List String := []
  sessionCaps : List String := []
  sessionTrustScore : Double := .ofInt 0
  sessionMeshId : String := ""
  customAttributes : AssocMap String String := empty

structure PolicyResult where
  decision : PolicyDecision := .deny
  reason : String := ""
  matchedRules : List String := []
  requiredCapabilities : List String := []
  missingCapabilities : List String := []
  matchedConditions : List String := []
  metadata : AssocMap String String := empty

abbrev Policies := AssocMap String PolicySet

variable (policies : Policies)

def loadPolicySet (policySet : PolicySet) : Policies :=
  policies.insert policySet.name policySet

def allRules : List PolicyRule :=
  policies.entries.flatMap (fun e => e.2.rules)

/-- What `std::sort` promises for the comparison `a.priority > b.priority`. -/
structure RuleSort where
  run : List PolicyRule → List PolicyRule
  perm : ∀ rules, (run rules).Perm rules
  sorted : ∀ rules, (run rules).Pairwise (fun a b => b.priority ≤ a.priority)

variable (rule : PolicyRule) (context : PolicyEvaluationContext)

def matchesContext : Bool :=
  !(rule.meshId ≠ "" && rule.meshId ≠ context.sessionMeshId)

def evaluateExpression (_ : String) (_ : PolicyEvaluationContext) : Bool := true

def checkCapability : Bool × PolicyResult → String → Bool × PolicyResult
  | (capsOk,result),cap =>
    if cap ∈ context.sessionCaps then
      (capsOk,{ result with requiredCapabilities := result.requiredCapabilities ++ [cap] })
    else (false,{ result with missingCapabilities := result.missingCapabilities ++ [cap] })

structure Highest where
  priority : Int32 := Int32.minValue
  rule : Option PolicyRule := none

def Highest.consider (highest : Highest) (rule : PolicyRule) : Highest :=
  if rule.priority > highest.priority then ⟨rule.priority,some rule⟩ else highest

structure Tally where
  result : PolicyResult
  highestAllow : Highest := {}
  highestDeny : Highest := {}

def PolicyResult.addMatch (result : PolicyResult) (rule : PolicyRule) : PolicyResult :=
  { result with
    matchedConditions := if rule.whereExpression = "" then result.matchedConditions
      else result.matchedConditions ++ ["where: " ++ rule.whereExpression]
    matchedRules := result.matchedRules ++ [rule.name] }

/-- A rule that matches completely. A byte without a name is counted on neither side. -/
def Tally.record (tally : Tally) (rule : PolicyRule) : Tally :=
  let result := tally.result.addMatch rule
  match rule.effect with
  | .deny => ⟨result,tally.highestAllow,tally.highestDeny.consider rule⟩
  | .allow | .audit | .sandbox | .rateLimit | .readOnly | .conditional =>
    ⟨result,tally.highestAllow.consider rule,tally.highestDeny⟩
  | .unnamed _ _ => ⟨result,tally.highestAllow,tally.highestDeny⟩

/-- The body of the loop over the rules. An error is an early return. -/
def visit (tally : Tally) (rule : PolicyRule) : Except PolicyResult Tally :=
  if !matchesContext rule context then .ok tally
  else
    let (capsOk,result) := rule.requiredCapabilities.foldl (checkCapability context) (true,tally.result)
    let tally := { tally with result := result }
    if !capsOk then .ok tally
    else if rule.forbiddenCapabilities.any (· ∈ context.sessionCaps) then .ok tally
    else if !(rule.requiredRoles.isEmpty || rule.requiredRoles.any (· ∈ context.sessionRoles)) then
      .ok { tally with result := { result with
        missingCapabilities := result.missingCapabilities ++ rule.requiredRoles.map ("role:" ++ ·) } }
    else if rule.minTrustScore.any (fun m => context.sessionTrustScore.lt (.ofInt m.toInt)) then
      .error { result with decision := .deny, reason := "Insufficient trust score" }
    else if rule.maxTrustScore.any (fun m => (ofInt m.toInt).lt context.sessionTrustScore) then
      .error { result with decision := .deny, reason := "Trust score too high" }
    else if !rule.requiredCertifications.all context.customAttributes.contains then .ok tally
    else if rule.whereExpression ≠ "" && !evaluateExpression rule.whereExpression context then
      .ok tally
    else .ok (tally.record rule)

def PolicyRule.reason : String :=
  if rule.description = "" then rule.name else rule.description

def PolicyRule.metadata (rule : PolicyRule) (metadata : AssocMap String String) :
    AssocMap String String :=
  match rule.effect with
  | .audit => metadata.insert "audit" "true"
  | .sandbox => metadata.insert "sandbox" "true"
  | .rateLimit => metadata.insert "ratelimit" "true"
  | .readOnly => metadata.insert "readonly" "true"
  | _ => metadata

def Tally.conclude (tally : Tally) : PolicyResult :=
  match tally.highestAllow.rule,
    decide (tally.highestAllow.priority > tally.highestDeny.priority) with
  | some rule,true => { tally.result with
      decision := rule.effect, reason := rule.reason, metadata := rule.metadata tally.result.metadata }
  | _,_ =>
    match tally.highestDeny.rule,decide (tally.highestDeny.priority ≠ Int32.minValue) with
    | some rule,true => { tally.result with decision := .deny, reason := rule.reason }
    | _,_ => tally.result

def evaluateImpl (sort : RuleSort) (policies : Policies) (context : PolicyEvaluationContext) :
    Result PolicyResult :=
  let start : Tally := { result := { decision := .deny, reason := "No matching policy" } }
  match (sort.run (allRules policies)).foldlM (visit context) start with
  | .error result => .ok result
  | .ok tally => .ok tally.conclude

/-! The results that the order of equal priorities and of the table leaves open. -/

lemma pairwise_insertionSort (rules : List PolicyRule) :
    (rules.insertionSort (fun a b => b.priority ≤ a.priority)).Pairwise
      (fun a b => b.priority ≤ a.priority) := by
  exact List.pairwise_insertionSort _ _

def RuleSort.following {order rules : List PolicyRule} (hperm : order.Perm rules)
    (hsorted : order.Pairwise (fun a b => b.priority ≤ a.priority)) : RuleSort where
  run r := if r = rules then order else r.insertionSort (fun a b => b.priority ≤ a.priority)
  perm r := by
    split_ifs with h
    · exact h ▸ hperm
    · exact List.perm_insertionSort _ _
  sorted r := by
    split_ifs with h
    · exact hsorted
    · exact pairwise_insertionSort r

variable {rules : List PolicyRule}

lemma RuleSort.following_run (hperm : order.Perm rules)
    (hsorted : order.Pairwise (fun a b => b.priority ≤ a.priority)) :
    (RuleSort.following hperm hsorted).run rules = order := if_pos rfl

def Possible (result : PolicyResult) : Prop :=
  ∃ sort, evaluateImpl sort policies context = .ok result

variable {result : PolicyResult} {policies} {context}

theorem Possible.of_find_eq
    (h : ∀ name, policies.find name = policies'.find name) (hp : Possible policies context result) :
    Possible policies' context result := by
  obtain ⟨sort,hrun⟩ := hp
  have hrules : (allRules policies).Perm (allRules policies') :=
    (perm_of_find_eq h).flatMap_right _
  refine ⟨.following ((sort.perm _).trans hrules) (sort.sorted (allRules policies)),?_⟩
  unfold evaluateImpl at hrun ⊢
  rw [RuleSort.following_run]
  exact hrun

lemma Possible.evaluateImpl_eq
    (hp : Possible policies context result) (hrules : (allRules policies).length ≤ 1)
    (sort : RuleSort) : evaluateImpl sort policies context = .ok result := by
  have hsame : ∀ sort' : RuleSort, sort'.run (allRules policies) = allRules policies := by
    intro sort'
    have hperm := sort'.perm (allRules policies)
    match hcase : allRules policies,hrules with
    | [],_ => rwa [hcase,perm_nil] at hperm
    | [rule],_ => rwa [hcase,perm_singleton] at hperm
  obtain ⟨sort',hrun⟩ := hp
  unfold evaluateImpl at hrun ⊢
  rw [hsame] at hrun ⊢
  exact hrun

lemma Possible.decision_eq (hp : Possible policies context result)
    (hrules : (allRules policies).length ≤ 1) (sort : RuleSort)
    (h : evaluateImpl sort policies context = .ok result') :
    result.decision = result'.decision := by
  have hsame := (hp.evaluateImpl_eq hrules sort).symm.trans h
  rw [Except.ok.inj hsame]

/-! Which rules count. -/

namespace PolicyRule

structure Applicable (rule : PolicyRule) (context : PolicyEvaluationContext) : Prop where
  mesh : rule.meshId = "" ∨ rule.meshId = context.sessionMeshId
  required : ∀ cap ∈ rule.requiredCapabilities, cap ∈ context.sessionCaps
  forbidden : ∀ cap ∈ rule.forbiddenCapabilities, cap ∉ context.sessionCaps
  roles : rule.requiredRoles = [] ∨ ∃ role ∈ rule.requiredRoles, role ∈ context.sessionRoles

/-- A bound is violated when the comparison of the source says so; a score that is not a number
violates none. -/
def TrustViolated (context : PolicyEvaluationContext) : Prop :=
  (∃ m ∈ rule.minTrustScore, context.sessionTrustScore.lt (.ofInt m.toInt)) ∨
    ∃ m ∈ rule.maxTrustScore, (ofInt m.toInt).lt context.sessionTrustScore

structure Matching (rule : PolicyRule) (context : PolicyEvaluationContext) : Prop where
  applicable : rule.Applicable context
  trust : ¬rule.TrustViolated context
  certifications : ∀ cert ∈ rule.requiredCertifications, context.customAttributes.contains cert

end PolicyRule

def PolicyDecision.nonDeny : PolicyDecision → Bool
  | .allow | .conditional | .audit | .sandbox | .rateLimit | .readOnly => true
  | .deny | .unnamed _ _ => false

open Classical in
noncomputable def side (context : PolicyEvaluationContext) (effect : PolicyDecision → Prop)
    (rules : List PolicyRule) : List PolicyRule :=
  rules.filter (fun rule => rule.Matching context ∧ effect rule.effect)

variable {rule} {effect : PolicyDecision → Prop}

lemma mem_side
    : rule ∈ side context effect rules ↔
      rule ∈ rules ∧ rule.Matching context ∧ effect rule.effect := by
  simp [side]

lemma foldl_side_cons
    (rule : PolicyRule) (rules : List PolicyRule) (highest : Highest) :
    (side context effect (rule::rules)).foldl Highest.consider highest =
      (side context effect rules).foldl Highest.consider
        ((side context effect [rule]).foldl Highest.consider highest) := by
  rw [← foldl_append]
  congr 1
  exact filter_append [rule] rules

/-! One rule. -/

section Visit
variable {context : PolicyEvaluationContext} {rule : PolicyRule} {tally : Tally}

lemma matchesContext_iff : matchesContext rule context = true ↔
    rule.meshId = "" ∨ rule.meshId = context.sessionMeshId := by
  simp [matchesContext]

lemma foldl_checkCapability (context : PolicyEvaluationContext) (caps : List String) (capsOk : Bool)
    (result : PolicyResult) : ((caps.foldl (checkCapability context) (capsOk,result)).1 = true ↔
      capsOk = true ∧ ∀ cap ∈ caps, cap ∈ context.sessionCaps) ∧
    (caps.foldl (checkCapability context) (capsOk,result)).2.decision = result.decision := by
  induction caps generalizing capsOk result with
  | nil => simp
  | cons cap caps ih =>
    by_cases hcap : cap ∈ context.sessionCaps
    · simp [checkCapability,hcap,ih]
    · simp [checkCapability,hcap,ih]

lemma record_eq (tally : Tally) (rule : PolicyRule) :
    tally.record rule = ⟨tally.result.addMatch rule,
      if rule.effect.nonDeny then tally.highestAllow.consider rule else tally.highestAllow,
      if rule.effect = .deny then tally.highestDeny.consider rule else tally.highestDeny⟩ := by
  unfold Tally.record
  cases rule.effect <;> rfl

lemma trustViolated_iff : rule.TrustViolated context ↔
    rule.minTrustScore.any (fun m => context.sessionTrustScore.lt (.ofInt m.toInt)) = true ∨
      rule.maxTrustScore.any (fun m => (ofInt m.toInt).lt context.sessionTrustScore) = true := by
  simp [PolicyRule.TrustViolated,Option.any_eq_true]

structure Counted (context : PolicyEvaluationContext) (rule : PolicyRule) (before after : Tally) :
    Prop where
  decision : after.result.decision = before.result.decision
  allow : after.highestAllow =
    (side context (·.nonDeny) [rule]).foldl Highest.consider before.highestAllow
  deny : after.highestDeny =
    (side context (· = .deny) [rule]).foldl Highest.consider before.highestDeny

variable {result : PolicyResult}

lemma Counted.skip (h : result.decision = tally.result.decision) (hnot : ¬rule.Matching context) :
    Counted context rule tally ⟨result,tally.highestAllow,tally.highestDeny⟩ :=
  ⟨h,by simp [side,hnot],by simp [side,hnot]⟩

lemma Counted.record (h : result.decision = tally.result.decision)
    (hmatch : rule.Matching context) :
    Counted context rule tally (Tally.record ⟨result,tally.highestAllow,tally.highestDeny⟩ rule) := by
  rw [record_eq]
  refine ⟨h,?_,?_⟩
  · by_cases heffect : rule.effect.nonDeny = true
    · simp [side,hmatch,heffect]
    · simp [side,heffect]
  · by_cases heffect : rule.effect = .deny
    · simp [side,hmatch,heffect]
    · simp [side,heffect]

def judge (context : PolicyEvaluationContext) (tally : Tally) (rule : PolicyRule) :
    Except PolicyResult Tally :=
  if rule.minTrustScore.any (fun m => context.sessionTrustScore.lt (.ofInt m.toInt)) then
    .error { tally.result with decision := .deny, reason := "Insufficient trust score" }
  else if rule.maxTrustScore.any (fun m => (ofInt m.toInt).lt context.sessionTrustScore) then
    .error { tally.result with decision := .deny, reason := "Trust score too high" }
  else if !rule.requiredCertifications.all context.customAttributes.contains then .ok tally
  else if rule.whereExpression ≠ "" && !evaluateExpression rule.whereExpression context then
    .ok tally
  else .ok (tally.record rule)

lemma visit_eq (context : PolicyEvaluationContext) (tally : Tally) (rule : PolicyRule) :
    ∃ result : PolicyResult, result.decision = tally.result.decision ∧
      (¬rule.Applicable context ∧ visit context tally rule = .ok { tally with result } ∨
        rule.Applicable context ∧ visit context tally rule = judge context { tally with result } rule) := by
  have hcaps := foldl_checkCapability context rule.requiredCapabilities true tally.result
  simp only [true_and] at hcaps
  unfold visit
  generalize rule.requiredCapabilities.foldl (checkCapability context) (true,tally.result) = r at hcaps
  obtain ⟨capsOk,result⟩ := r
  obtain ⟨hcaps,hdecision⟩ := hcaps
  by_cases hmesh : matchesContext rule context = true
  case neg =>
    rw [if_pos (by simpa using hmesh)]
    exact ⟨tally.result,rfl,.inl ⟨fun h => hmesh (matchesContext_iff.mpr h.mesh),rfl⟩⟩
  rw [if_neg (by simpa using hmesh)]
  dsimp only
  by_cases hok : capsOk = true
  case neg =>
    rw [if_pos (by simpa using hok)]
    exact ⟨result,hdecision,.inl ⟨fun h => hok (hcaps.mpr h.required),rfl⟩⟩
  rw [if_neg (by simpa using hok)]
  by_cases hforbidden : rule.forbiddenCapabilities.any (· ∈ context.sessionCaps) = true
  case pos =>
    rw [if_pos hforbidden]
    obtain ⟨cap,hcap,hheld⟩ := any_eq_true.mp hforbidden
    exact ⟨result,hdecision,.inl ⟨fun h => h.forbidden cap hcap (of_decide_eq_true hheld),rfl⟩⟩
  rw [if_neg hforbidden]
  by_cases hroles :
      (rule.requiredRoles.isEmpty || rule.requiredRoles.any (· ∈ context.sessionRoles)) = true
  case neg =>
    rw [if_pos (by simpa using hroles)]
    refine ⟨{ result with missingCapabilities := ?_ },hdecision,
      .inl ⟨fun h => hroles (by simpa using h.roles),?_⟩⟩
    · exact result.missingCapabilities ++ rule.requiredRoles.map ("role:" ++ ·)
    · rfl
  rw [if_neg (by rw [hroles]; decide)]
  have happ : rule.Applicable context := {
    mesh := matchesContext_iff.mp hmesh
    required := hcaps.mp hok
    forbidden := by simpa using hforbidden
    roles := by simpa using hroles }
  exact ⟨result,hdecision,.inr ⟨happ,rfl⟩⟩

lemma judge_cases (happ : rule.Applicable context)
    (hresult : result.decision = before.result.decision) : (rule.TrustViolated context ∧
      ∃ out, judge context { before with result } rule = .error out ∧ out.decision = .deny) ∨
    (¬rule.TrustViolated context ∧
      ∃ after, judge context { before with result } rule = .ok after ∧
        Counted context rule before after) := by
  unfold judge
  have hkept : ∀ hmin hmax, ¬rule.TrustViolated context := fun hmin hmax h =>
    (trustViolated_iff.mp h).elim hmin hmax
  split_ifs with hmin hmax hcerts hwhere
  · exact .inl ⟨trustViolated_iff.mpr (.inl hmin),_,rfl,rfl⟩
  · exact .inl ⟨trustViolated_iff.mpr (.inr hmax),_,rfl,rfl⟩
  · refine .inr ⟨hkept hmin hmax,_,rfl,.skip hresult fun h => ?_⟩
    simp [all_eq_true.mpr h.certifications] at hcerts
  · simp [evaluateExpression] at hwhere
  · exact .inr ⟨hkept hmin hmax,_,rfl,
      .record hresult ⟨happ,hkept hmin hmax,all_eq_true.mp (by simpa using hcerts)⟩⟩

lemma visit_cases (context : PolicyEvaluationContext) (tally : Tally) (rule : PolicyRule) :
    (rule.Applicable context ∧ rule.TrustViolated context ∧
      ∃ result, visit context tally rule = .error result ∧ result.decision = .deny) ∨
    ((rule.Applicable context → ¬rule.TrustViolated context) ∧
      ∃ after, visit context tally rule = .ok after ∧ Counted context rule tally after) := by
  obtain ⟨result,hresult,⟨hnot,hvisit⟩ | ⟨happ,hvisit⟩⟩ := visit_eq context tally rule
  · exact .inr ⟨fun h => absurd h hnot,_,hvisit,.skip hresult fun h => hnot h.applicable⟩
  · rw [hvisit]
    obtain ⟨hviolated,hout⟩ | ⟨hkept,hafter⟩ := judge_cases happ hresult
    · exact .inl ⟨happ,hviolated,hout⟩
    · exact .inr ⟨fun _ => hkept,hafter⟩

end Visit

/-! All rules. -/

/-- What a run of `consider` can end with: no rule beats it, and it is the start or one of the
rules. -/
structure Highest.Of (rules : List PolicyRule) (highest : Highest) : Prop where
  le : ∀ rule ∈ rules, rule.priority ≤ highest.priority
  held : highest = {} ∨ ∃ rule ∈ rules, Int32.minValue < rule.priority ∧
    highest = ⟨rule.priority,some rule⟩

lemma Highest.Of.nil : Highest.Of [] {} := ⟨fun _ h => (by cases h),.inl rfl⟩

lemma Highest.Of.consider {highest : Highest} (h : highest.Of rules) (rule : PolicyRule) :
    (highest.consider rule).Of (rules ++ [rule]) := by
  unfold Highest.consider
  by_cases hlt : highest.priority < rule.priority
  · rw [if_pos hlt]
    constructor
    · intro r hr
      rcases mem_append.mp hr with hr | hr
      · exact Int32.le_of_lt (Int32.lt_of_le_of_lt (h.le r hr) hlt)
      · obtain rfl := mem_singleton.mp hr
        exact Int32.le_refl _
    · exact .inr ⟨rule,by simp,Int32.lt_of_le_of_lt (Int32.minValue_le _) hlt,rfl⟩
  · rw [if_neg hlt]
    constructor
    · intro r hr
      rcases mem_append.mp hr with hr | hr
      · exact h.le r hr
      · obtain rfl := mem_singleton.mp hr
        exact Int32.not_lt.mp hlt
    · rcases h.held with h | ⟨r,hr,hmin,heq⟩
      · exact .inl h
      · exact .inr ⟨r,mem_append_left _ hr,hmin,heq⟩

lemma foldlM_visit (context : PolicyEvaluationContext) (rules : List PolicyRule) (tally : Tally) :
    ((∃ rule ∈ rules, rule.Applicable context ∧ rule.TrustViolated context) ∧
      ∃ result, rules.foldlM (visit context) tally = .error result ∧ result.decision = .deny) ∨
    ((∀ rule ∈ rules, rule.Applicable context → ¬rule.TrustViolated context) ∧
      ∃ after, rules.foldlM (visit context) tally = .ok after ∧
        after.result.decision = tally.result.decision ∧
        after.highestAllow =
          (side context (·.nonDeny) rules).foldl Highest.consider tally.highestAllow ∧
        after.highestDeny =
          (side context (· = .deny) rules).foldl Highest.consider tally.highestDeny) := by
  induction rules generalizing tally with
  | nil => exact .inr ⟨by simp,tally,rfl,rfl,rfl,rfl⟩
  | cons rule rules ih =>
    rw [foldlM_cons]
    obtain ⟨happ,htrust,result,hvisit,hdeny⟩ | ⟨hno,next,hvisit,hcounted⟩ :=
      visit_cases context tally rule
    · exact .inl ⟨⟨rule,mem_cons_self,happ,htrust⟩,result,by rw [hvisit]; rfl,hdeny⟩
    · rw [hvisit]
      obtain ⟨⟨r,hr,hviolated⟩,hresult⟩ | ⟨hrest,after,hrun,hdecision,hallow,hdeny⟩ := ih next
      · exact .inl ⟨⟨r,mem_cons_of_mem _ hr,hviolated⟩,hresult⟩
      · refine .inr ⟨forall_mem_cons.mpr ⟨hno,hrest⟩,after,hrun,
          hdecision.trans hcounted.decision,?_,?_⟩
        · rw [foldl_side_cons,← hcounted.allow,hallow]
        · rw [foldl_side_cons,← hcounted.deny,hdeny]

structure Wins (policies : Policies) (context : PolicyEvaluationContext) (rule : PolicyRule) :
    Prop where
  loaded : rule ∈ allRules policies
  matching : rule.Matching context
  nonDeny : rule.effect.nonDeny
  above : Int32.minValue < rule.priority
  highest : ∀ other ∈ allRules policies, other.Matching context → other.effect.nonDeny →
    other.priority ≤ rule.priority
  beatsDeny : ∀ other ∈ allRules policies, other.Matching context → other.effect = .deny →
    other.priority < rule.priority

def TrustKept (policies : Policies) (context : PolicyEvaluationContext) : Prop :=
  ∀ rule ∈ allRules policies, rule.Applicable context → ¬rule.TrustViolated context

lemma foldl_consider_of (rules : List PolicyRule) : (rules.foldl Highest.consider {}).Of rules := by
  induction rules using reverseRecOn with
  | nil => exact .nil
  | append_singleton rules rule ih =>
    rw [foldl_append]
    exact ih.consider rule

lemma nonDeny_ne_deny {d : PolicyDecision} (h : d.nonDeny) : d ≠ .deny := by
  rintro rfl
  cases h

def decided (allow deny : Highest) : PolicyDecision :=
  match allow.rule with
  | some rule => if deny.priority < allow.priority then rule.effect else .deny
  | none => .deny

lemma decided_some (h : deny.priority < rule.priority) :
    decided ⟨rule.priority,some rule⟩ deny = rule.effect := if_pos h

lemma conclude_decision {tally : Tally} (hresult : tally.result.decision = .deny) :
    tally.conclude.decision = decided tally.highestAllow tally.highestDeny := by
  have hdeny : (match tally.highestDeny.rule,decide (tally.highestDeny.priority ≠ Int32.minValue) with
      | some rule,true => { tally.result with decision := .deny, reason := rule.reason }
      | _,_ => tally.result).decision = .deny := by
    split
    · rfl
    · exact hresult
  unfold Tally.conclude decided
  cases hrule : tally.highestAllow.rule with
  | none => exact hdeny
  | some rule =>
    by_cases hlt : tally.highestDeny.priority < tally.highestAllow.priority
    · simp [hlt]
    · simpa [hlt] using hdeny

section Evaluate
variable (sort : RuleSort) (policies : Policies) (context : PolicyEvaluationContext)

noncomputable def bestAllow : Highest :=
  (side context (·.nonDeny) (sort.run (allRules policies))).foldl Highest.consider {}

noncomputable def bestDeny : Highest :=
  (side context (· = .deny) (sort.run (allRules policies))).foldl Highest.consider {}

lemma evaluateImpl_cases :
    ∃ result, evaluateImpl sort policies context = .ok result ∧
      ((¬TrustKept policies context ∧ result.decision = .deny) ∨
        (TrustKept policies context ∧ result.decision =
          decided (bestAllow sort policies context) (bestDeny sort policies context))) := by
  have hmem : ∀ rule, rule ∈ sort.run (allRules policies) ↔ rule ∈ allRules policies :=
    fun rule => (sort.perm _).mem_iff
  unfold evaluateImpl
  obtain ⟨⟨rule,hrule,happ,htrust⟩,result,hrun,hdeny⟩ | ⟨hkept,after,hrun,hdecision,hallow,hdeny⟩ :=
    foldlM_visit context (sort.run (allRules policies))
      { result := { decision := .deny, reason := "No matching policy" } }
  · exact ⟨result,by simp only [hrun],.inl ⟨fun h => h rule ((hmem rule).mp hrule) happ htrust,hdeny⟩⟩
  · refine ⟨after.conclude,by simp only [hrun],.inr
      ⟨fun rule hrule => hkept rule ((hmem rule).mpr hrule),?_⟩⟩
    rw [conclude_decision hdecision,hallow,hdeny]
    rfl

lemma bestAllow_of : (bestAllow sort policies context).Of
      (side context (·.nonDeny) (sort.run (allRules policies))) := foldl_consider_of _

lemma bestDeny_of : (bestDeny sort policies context).Of
      (side context (· = .deny) (sort.run (allRules policies))) := foldl_consider_of _

variable {sort} {policies} {context}

lemma mem_side_run :
    rule ∈ side context effect (sort.run (allRules policies)) ↔
      rule ∈ allRules policies ∧ rule.Matching context ∧ effect rule.effect := by
  rw [mem_side,(sort.perm _).mem_iff]

lemma wins_of_bestAllow (hrule : (bestAllow sort policies context).rule = some rule)
    (hlt : (bestDeny sort policies context).priority < (bestAllow sort policies context).priority) :
    Wins policies context rule := by
  have hof := bestAllow_of sort policies context
  obtain hstart | ⟨r,hr,habove,heq⟩ := hof.held
  · rw [hstart] at hrule
    cases hrule
  · rw [heq] at hrule hlt hof
    obtain rfl := Option.some.inj hrule
    obtain ⟨hloaded,hmatching,hnon⟩ := mem_side_run.mp hr
    exact {
      loaded := hloaded
      matching := hmatching
      nonDeny := hnon
      above := habove
      highest := fun other ho hm he => hof.le other (mem_side_run.mpr ⟨ho,hm,he⟩)
      beatsDeny := fun other ho hm he =>
        Int32.lt_of_le_of_lt
          ((bestDeny_of sort policies context).le other (mem_side_run.mpr ⟨ho,hm,he⟩)) hlt }

lemma bestAllow_of_wins (sort : RuleSort) (htop : Wins policies context top) :
    ∃ rule, bestAllow sort policies context = ⟨rule.priority,some rule⟩ ∧
      (bestDeny sort policies context).priority < rule.priority := by
  have hof := bestAllow_of sort policies context
  have hle := hof.le top (mem_side_run.mpr ⟨htop.loaded,htop.matching,htop.nonDeny⟩)
  obtain hstart | ⟨rule,hrule,habove,heq⟩ := hof.held
  · rw [hstart] at hle
    exact absurd htop.above (Int32.not_lt.mpr hle)
  · refine ⟨rule,heq,?_⟩
    rw [heq] at hle
    obtain hstart | ⟨r,hr,-,hdeny⟩ := (bestDeny_of sort policies context).held
    · rw [hstart]
      exact habove
    · obtain ⟨hloaded,hmatching,heffect⟩ := mem_side_run.mp hr
      rw [hdeny]
      exact Int32.lt_of_lt_of_le (htop.beatsDeny r hloaded hmatching heffect) hle

lemma wins_of_decided
    (h : decided (bestAllow sort policies context) (bestDeny sort policies context) ≠ .deny) :
    ∃ top, Wins policies context top ∧
      decided (bestAllow sort policies context) (bestDeny sort policies context) = top.effect := by
  unfold decided at h ⊢
  cases hrule : (bestAllow sort policies context).rule with
  | none => simp [hrule] at h
  | some rule =>
    simp only [hrule] at h ⊢
    split_ifs at h ⊢ with hlt
    · exact ⟨rule,wins_of_bestAllow hrule hlt,rfl⟩
    · exact absurd rfl h

end Evaluate

/-- The decision rule, whatever the order of equal priorities. -/
theorem evaluateImpl_decision_rule (sort : RuleSort) (policies : Policies)
    (context : PolicyEvaluationContext) :
    ∃ result, evaluateImpl sort policies context = .ok result ∧ (result.decision ≠ .deny ↔
        TrustKept policies context ∧ ∃ top, Wins policies context top) ∧
      (result.decision ≠ .deny → ∃ top, Wins policies context top ∧
        result.decision = top.effect) := by
  obtain ⟨result,hrun,⟨hviolated,hdeny⟩ | ⟨hkept,hdecision⟩⟩ := evaluateImpl_cases sort policies context
  · exact ⟨result,hrun,⟨fun h => absurd hdeny h,fun h => absurd h.1 hviolated⟩,fun h => absurd hdeny h⟩
  · refine ⟨result,hrun,?_⟩
    rw [hdecision]
    refine ⟨⟨fun h => ⟨hkept,(wins_of_decided h).imp fun _ hw => hw.1⟩,?_⟩,wins_of_decided⟩
    rintro ⟨-,top,htop⟩
    obtain ⟨rule,heq,hlt⟩ := bestAllow_of_wins sort htop
    have hwins : Wins policies context rule :=
      wins_of_bestAllow (congrArg Highest.rule heq) (by rwa [heq])
    rw [heq,decided_some hlt]
    exact nonDeny_ne_deny hwins.nonDeny

/-! The conditions that a rule writes down. -/

/-- Also the forbidden roles, which `visit` never reads, and the trust bounds as comparisons that
hold. -/
structure PolicyRule.Satisfied (rule : PolicyRule) (context : PolicyEvaluationContext) : Prop where
  mesh : rule.meshId = "" ∨ rule.meshId = context.sessionMeshId
  requiredCapabilities : ∀ cap ∈ rule.requiredCapabilities, cap ∈ context.sessionCaps
  forbiddenCapabilities : ∀ cap ∈ rule.forbiddenCapabilities, cap ∉ context.sessionCaps
  requiredRoles : rule.requiredRoles = [] ∨ ∃ role ∈ rule.requiredRoles, role ∈ context.sessionRoles
  forbiddenRoles : ∀ role ∈ rule.forbiddenRoles, role ∉ context.sessionRoles
  minTrust : ∀ m ∈ rule.minTrustScore, (ofInt m.toInt).le context.sessionTrustScore
  maxTrust : ∀ m ∈ rule.maxTrustScore, context.sessionTrustScore.le (.ofInt m.toInt)
  certifications : ∀ cert ∈ rule.requiredCertifications, context.customAttributes.contains cert

/-- What `visit` overlooks: a forbidden role that the session has, and a bound on a score that is not
a number. -/
def PolicyRule.Overlooked (rule : PolicyRule) (context : PolicyEvaluationContext) : Prop :=
  (∃ role ∈ rule.forbiddenRoles, role ∈ context.sessionRoles) ∨
    context.sessionTrustScore = .nan ∧ (rule.minTrustScore ≠ none ∨ rule.maxTrustScore ≠ none)

lemma PolicyRule.satisfied_iff {rule : PolicyRule} {context : PolicyEvaluationContext} :
    rule.Satisfied context ↔ rule.Matching context ∧ ¬rule.Overlooked context := by
  have hsome : ∀ {bound : Option Int32}, bound ≠ none ↔ ∃ m, m ∈ bound :=
    Option.ne_none_iff_exists'
  constructor
  · intro h
    refine ⟨⟨⟨h.mesh,h.requiredCapabilities,h.forbiddenCapabilities,h.requiredRoles⟩,?_,
      h.certifications⟩,?_⟩
    · rintro (⟨m,hm,hlt⟩ | ⟨m,hm,hlt⟩)
      · exact (ofInt_le_iff.mp (h.minTrust m hm)).2 hlt
      · exact (le_ofInt_iff.mp (h.maxTrust m hm)).2 hlt
    · rintro (⟨role,hrole,hheld⟩ | ⟨hnan,hbound | hbound⟩)
      · exact h.forbiddenRoles role hrole hheld
      · obtain ⟨m,hm⟩ := hsome.mp hbound
        exact (ofInt_le_iff.mp (h.minTrust m hm)).1 hnan
      · obtain ⟨m,hm⟩ := hsome.mp hbound
        exact (le_ofInt_iff.mp (h.maxTrust m hm)).1 hnan
  · rintro ⟨⟨happ,htrust,hcerts⟩,hseen⟩
    obtain ⟨hroles,hscore⟩ := not_or.mp hseen
    exact {
      mesh := happ.mesh
      requiredCapabilities := happ.required
      forbiddenCapabilities := happ.forbidden
      requiredRoles := happ.roles
      forbiddenRoles := fun role hrole hheld => hroles ⟨role,hrole,hheld⟩
      minTrust := fun m hm => ofInt_le_iff.mpr
        ⟨fun hnan => hscore ⟨hnan,.inl (hsome.mpr ⟨m,hm⟩)⟩,fun hlt => htrust (.inl ⟨m,hm,hlt⟩)⟩
      maxTrust := fun m hm => le_ofInt_iff.mpr
        ⟨fun hnan => hscore ⟨hnan,.inr (hsome.mpr ⟨m,hm⟩)⟩,fun hlt => htrust (.inr ⟨m,hm,hlt⟩)⟩
      certifications := hcerts }

def RuleSort.favouring (favourite : PolicyRule) : RuleSort where
  run rules := (if favourite ∈ rules then favourite::rules.erase favourite else rules).insertionSort
    (fun a b => b.priority ≤ a.priority)
  perm rules := by
    refine (List.perm_insertionSort _ _).trans ?_
    split_ifs with h
    · exact (List.perm_cons_erase h).symm
    · exact List.Perm.refl _
  sorted rules := pairwise_insertionSort _

lemma foldl_consider_of_le (h : ∀ rule ∈ rules, rule.priority ≤ highest.priority) :
    rules.foldl Highest.consider highest = highest := by
  induction rules with
  | nil => rfl
  | cons rule rules ih =>
    obtain ⟨hrule,hrules⟩ := forall_mem_cons.mp h
    rw [foldl_cons,Highest.consider,if_neg (Int32.not_lt.mpr hrule)]
    exact ih hrules

lemma RuleSort.favouring_run (h : favourite ∈ rules) : ∃ before after,
      (RuleSort.favouring favourite).run rules = before ++ favourite::after ∧
        ∀ rule ∈ before, favourite.priority < rule.priority := by
  have hrun : (RuleSort.favouring favourite).run rules =
      (favourite::rules.erase favourite).insertionSort (fun a b => b.priority ≤ a.priority) := by
    simp only [RuleSort.favouring,if_pos h]
  rw [hrun,insertionSort_cons_eq_take_drop]
  refine ⟨_,_,rfl,fun rule hrule => ?_⟩
  simpa using mem_takeWhile_imp hrule

lemma bestAllow_favouring (htop : Wins policies context top) :
    bestAllow (RuleSort.favouring top) policies context = ⟨top.priority,some top⟩ := by
  have hle : ∀ rule ∈ side context (·.nonDeny) ((RuleSort.favouring top).run (allRules policies)),
      rule.priority ≤ top.priority := fun rule hrule => by
    obtain ⟨hloaded,hmatching,hnon⟩ := mem_side_run.mp hrule
    exact htop.highest rule hloaded hmatching hnon
  obtain ⟨before,after,hrun,hbefore⟩ := RuleSort.favouring_run htop.loaded
  unfold bestAllow
  rw [hrun] at hle ⊢
  have hnone : side context (·.nonDeny) before = [] := by
    refine eq_nil_iff_forall_not_mem.mpr fun rule hrule => ?_
    have hmem : rule ∈ side context (·.nonDeny) (before ++ top::after) := by
      rw [mem_side] at hrule ⊢
      exact ⟨mem_append_left _ hrule.1,hrule.2⟩
    exact Int32.not_lt.mpr (hle rule hmem) (hbefore rule (mem_side.mp hrule).1)
  have hside : side context (·.nonDeny) (before ++ top::after) =
      top::side context (·.nonDeny) after := by
    have happend : side context (·.nonDeny) (before ++ top::after) =
        side context (·.nonDeny) before ++ side context (·.nonDeny) (top::after) :=
      filter_append _ _
    rw [happend,hnone,nil_append]
    exact filter_cons_of_pos (by simpa using ⟨htop.matching,htop.nonDeny⟩)
  rw [hside] at hle ⊢
  rw [foldl_cons,Highest.consider,if_pos htop.above]
  exact foldl_consider_of_le fun rule hrule => hle rule (mem_cons_of_mem _ hrule)

/-- A grant always comes with a satisfied rule of its effect, whatever the order of equal
priorities, exactly if for every rule that may win nothing is overlooked in some matching rule of the
same effect. -/
theorem grants_satisfied_iff (policies : Policies) (context : PolicyEvaluationContext) :
    (∀ sort result, evaluateImpl sort policies context = .ok result → result.decision ≠ .deny →
      ∃ rule ∈ allRules policies, rule.effect = result.decision ∧ rule.Satisfied context) ↔
    (TrustKept policies context → ∀ top, Wins policies context top →
      ∃ rule ∈ allRules policies, rule.effect = top.effect ∧ rule.Matching context ∧
        ¬rule.Overlooked context) := by
  simp only [PolicyRule.satisfied_iff]
  constructor
  · intro h hkept top htop
    obtain ⟨result,hrun,⟨hviolated,-⟩ | ⟨-,hdecision⟩⟩ :=
      evaluateImpl_cases (RuleSort.favouring top) policies context
    · exact absurd hkept hviolated
    · obtain ⟨rule,heq,hlt⟩ := bestAllow_of_wins (RuleSort.favouring top) htop
      rw [bestAllow_favouring htop] at heq hdecision
      obtain rfl : top = rule := Option.some.inj (congrArg Highest.rule heq)
      rw [decided_some hlt] at hdecision
      have := h _ result hrun (hdecision ▸ nonDeny_ne_deny htop.nonDeny)
      rwa [hdecision] at this
  · intro h sort result hrun hne
    obtain ⟨result',hrun',hcases⟩ := evaluateImpl_cases sort policies context
    obtain rfl : result' = result := Except.ok.inj (hrun'.symm.trans hrun)
    obtain ⟨-,hdeny⟩ | ⟨hkept,hdecision⟩ := hcases
    · exact absurd hdeny hne
    · rw [hdecision] at hne ⊢
      obtain ⟨top,htop,heffect⟩ := wins_of_decided hne
      rw [heffect]
      exact h hkept top htop

/-- A rule that forbids the role the session has still grants access. -/
theorem grants_forbidden_role :
    let rule : PolicyRule := { name := "members", forbiddenRoles := ["Guest"] }
    let policies := loadPolicySet empty ⟨"mesh",[rule]⟩
    let context : PolicyEvaluationContext := { sessionRoles := ["Guest"] }
    ∃ result, evaluateImpl (.favouring rule) policies context = .ok result ∧
      result.decision = .allow ∧ ∀ rule ∈ allRules policies, ¬rule.Satisfied context := by
  intro rule policies context
  refine ⟨_,rfl,rfl,fun r hr h => ?_⟩
  obtain rfl : r = rule := mem_singleton.mp hr
  exact h.forbiddenRoles "Guest" (by simp [rule]) (by simp [context])

end SmoFramework.Acl
