import Mathlib.Data.List.Sort
import SmoFramework.Genesis.Json
import SmoFramework.Library.KeyedLog

/-! The authority's node registry (`core/authority/registry`). The database is modelled by the rows
of its tables together with the constraints of the schema, which SQLite keeps whatever is executed.
A fault of the storage is an argument of the call that meets it. -/
namespace SmoFramework.Authority
open Library List
open Genesis (text isSpace)

/-! Display names. -/

def isAlnum (c : UInt8) : Bool :=
  (48 ≤ c && c ≤ 57) || (65 ≤ c && c ≤ 90) || (97 ≤ c && c ≤ 122)

def toLower (c : UInt8) : UInt8 := if 65 ≤ c ∧ c ≤ 90 then c+32 else c

def nameErr (code : ℕ) : String → Error := smoErrCert code .warn .noRetry .none

def isNameChar (c : UInt8) : Bool := isAlnum c || c == 45 || c == 95 || c == 46

def validateDisplayName (name : Bytes) : Result Unit :=
  if name = [] then .error (nameErr 221 "display name cannot be empty")
  else if name.length > 128 then .error (nameErr 222 "display name too long (max 128 chars)")
  else if ¬isAlnum (name.getD 0 0) then
    .error (nameErr 221 "display name must start with alphanumeric character")
  else match name.find? (fun c => !isNameChar c) with
    | some c => .error (nameErr 221 ("display name contains invalid character: " ++ shown [c]))
    | none => .ok ()

/-- `normalize_display_name`: blanks cut off at both ends, letters in lower case. -/
def normalizeDisplayName (name : Bytes) : Bytes :=
  (((name.dropWhile isSpace).reverse.dropWhile isSpace).reverse).map toLower

lemma toLower_of_isAlnum : isAlnum c = true →
    isSpace c = false ∧ isAlnum (toLower c) = true ∧ c ≠ 0 :=
  Numeral.forall_byte
    (P := fun c => isAlnum c = true → isSpace c = false ∧ isAlnum (toLower c) = true ∧ c ≠ 0)
    (by decide +kernel) c

lemma normalizeDisplayName_cons (hc : isAlnum c = true) (rest : Bytes) :
    ∃ rest', normalizeDisplayName (c::rest) = toLower c::rest' := by
  have hspace := (toLower_of_isAlnum hc).1
  have hlast : ∃ l, (rest.reverse ++ [c]).dropWhile isSpace = l ++ [c] := by
    rw [dropWhile_append]
    split_ifs
    · exact ⟨[],by simp [hspace]⟩
    · exact ⟨_,rfl⟩
  obtain ⟨l,hl⟩ := hlast
  refine ⟨l.reverse.map toLower,?_⟩
  rw [normalizeDisplayName,dropWhile_cons_of_neg (by simp [hspace]),reverse_cons,hl]
  simp

lemma validateDisplayName_eq_ok (h : validateDisplayName name = .ok ()) :
    ∃ c rest, name = c::rest ∧ isAlnum c = true := by
  cases name with
  | nil => cases h
  | cons c rest =>
    simp only [validateDisplayName,ite_error_eq_ok,not_not] at h
    exact ⟨c,rest,rfl,h.2.2.1⟩

/-! The tables. -/

structure NodeRecord where
  nodeIdHex : Bytes := []
  displayName : Bytes := []
  meshId : Bytes := []
  role : Bytes := []
  certFingerprint : Bytes := []
  status : Bytes := []
  epoch : UInt64 := 0
  enrolledAt : Int64 := 0
  lastSeen : Int64 := 0
  deriving DecidableEq, Repr

structure AliasRecord where
  aliasName : Bytes := []
  nodeIdHex : Bytes := []
  createdAt : Int64 := 0
  deriving DecidableEq, Repr

structure CertificateRecord where
  nodeIdHex : Bytes := []
  serialNumber : Bytes := []
  certFingerprint : Bytes := []
  issuerPubkeyHex : Bytes := []
  subjectPubkeyHex : Bytes := []
  role : Bytes := []
  status : Bytes := []
  epoch : UInt64 := 0
  issuedAt : Int64 := 0
  expiresAt : Int64 := 0
  deriving DecidableEq, Repr

/-- The rows, under the primary keys, unique columns and references of the schema. -/
structure Registry where
  nodes : List NodeRecord := []
  aliases : List AliasRecord := []
  certificates : List CertificateRecord := []
  idsDistinct : KeyedLog.Distinct NodeRecord.nodeIdHex nodes := by decide
  namesDistinct : KeyedLog.Distinct NodeRecord.displayName nodes := by decide
  aliasesDistinct : KeyedLog.Distinct AliasRecord.aliasName aliases := by decide
  fingerprintsDistinct : KeyedLog.Distinct CertificateRecord.certFingerprint certificates := by decide
  aliasesRefer : ∀ a ∈ aliases, a.nodeIdHex ∈ nodes.map NodeRecord.nodeIdHex := by decide
  certificatesRefer : ∀ c ∈ certificates, c.nodeIdHex ∈ nodes.map NodeRecord.nodeIdHex := by decide

def cStr (s : Bytes) : Bytes := s.takeWhile (· ≠ 0)

namespace Registry

variable (r : Registry)

/-- `INSERT INTO nodes`; nothing is inserted against a constraint. -/
def insertNode (row : NodeRecord) : Option Registry :=
  if h : row.nodeIdHex ∉ r.nodes.map NodeRecord.nodeIdHex ∧
      row.displayName ∉ r.nodes.map NodeRecord.displayName then
    some { r with
      nodes := r.nodes ++ [row]
      idsDistinct := r.idsDistinct.concat h.1
      namesDistinct := r.namesDistinct.concat h.2
      aliasesRefer := fun a ha => map_append ▸ mem_append_left _ (r.aliasesRefer a ha)
      certificatesRefer := fun c hc =>
        map_append ▸ mem_append_left _ (r.certificatesRefer c hc) }
  else none

def insertCertificate (row : CertificateRecord) : Option Registry :=
  if h : row.certFingerprint ∉ r.certificates.map CertificateRecord.certFingerprint ∧
      row.nodeIdHex ∈ r.nodes.map NodeRecord.nodeIdHex then
    some { r with
      certificates := r.certificates ++ [row]
      fingerprintsDistinct := r.fingerprintsDistinct.concat h.1
      certificatesRefer := forall_mem_append.mpr
        ⟨r.certificatesRefer,forall_mem_singleton.mpr h.2⟩ }
  else none

def insertAlias (row : AliasRecord) : Option Registry :=
  if h : row.aliasName ∉ r.aliases.map AliasRecord.aliasName ∧
      row.nodeIdHex ∈ r.nodes.map NodeRecord.nodeIdHex then
    some { r with
      aliases := r.aliases ++ [row]
      aliasesDistinct := r.aliasesDistinct.concat h.1
      aliasesRefer := forall_mem_append.mpr
        ⟨r.aliasesRefer,forall_mem_singleton.mpr h.2⟩ }
  else none

def clashes (row other : NodeRecord) : Bool :=
  other.nodeIdHex == row.nodeIdHex || other.displayName == row.displayName

def replacing (row : NodeRecord) (nodes : List NodeRecord) : List NodeRecord :=
  nodes.filter (fun other => !clashes row other) ++ [row]

lemma distinct_replacing {key : NodeRecord → Bytes} {nodes : List NodeRecord}
    (h : KeyedLog.Distinct key nodes) (hkey : ∀ other, key other = key row → clashes row other) :
    KeyedLog.Distinct key (replacing row nodes) := by
  refine (h.filter _).concat fun hmem => ?_
  obtain ⟨other,hother,heq⟩ := mem_map.mp hmem
  simp [hkey other heq] at hother

/-- `INSERT OR REPLACE INTO nodes`. The statement fails if an alias or a certificate would be left
without its node. -/
def replaceNode (row : NodeRecord) : Option Registry :=
  if h : (∀ a ∈ r.aliases, a.nodeIdHex ∈ (replacing row r.nodes).map NodeRecord.nodeIdHex) ∧
      ∀ c ∈ r.certificates, c.nodeIdHex ∈ (replacing row r.nodes).map NodeRecord.nodeIdHex then
    some { r with
      nodes := replacing row r.nodes
      idsDistinct := distinct_replacing r.idsDistinct fun other h => by simp [clashes,h]
      namesDistinct := distinct_replacing r.namesDistinct fun other h => by simp [clashes,h]
      aliasesRefer := h.1
      certificatesRefer := h.2 }
  else none

end Registry

/-! The operations. -/

inductive Connection
  | closed
  | opened
  deriving DecidableEq, Repr

/-- Any result of SQLite but success and a constraint; the text says where and what. -/
def storageFault (message : String) : Error :=
  smoErr .storage 904 .error .retrySafe .retryOperation message

def constraintErr : String → Error := smoErrCert 220 .warn .retrySafe .none

def executed {α : Type} (fault : Option String) (refused : Error) (done : Option α) : Result α :=
  match fault,done with
  | some message,_ => .error (storageFault message)
  | none,none => .error refused
  | none,some a => .ok a

lemma executed_eq_ok {α : Type} {fault : Option String} {refused : Error} {done : Option α} {a : α} :
    executed fault refused done = .ok a ↔ fault = none ∧ done = some a := by
  cases fault with
  | some message => simp [executed]
  | none => cases done with
    | none => simp [executed]
    | some a' => simp [executed]

structure EnrollCall where
  enrolledAt : Int64 := 0
  aliasCreatedAt : Int64 := 0
  beginFault : Option String := none
  nodeFault : Option String := none
  certificateFault : Option String := none
  aliasFault : Option String := none
  commitFault : Option String := none

structure Enrollment where
  nodeIdHex : Bytes
  displayName : Bytes
  meshId : Bytes
  role : Bytes
  certFingerprint : Bytes
  certIssuerPubkeyHex : Bytes
  certSubjectPubkeyHex : Bytes
  epoch : UInt64
  certIssuedAt : Int64
  certExpiresAt : Int64

structure EnrollResult where
  node : NodeRecord
  certificate : CertificateRecord
  certFingerprint : Bytes

namespace Enrollment

variable (e : Enrollment)

def node (enrolledAt : Int64) : NodeRecord where
  nodeIdHex := cStr e.nodeIdHex
  displayName := cStr (normalizeDisplayName e.displayName)
  meshId := cStr e.meshId
  role := cStr e.role
  certFingerprint := cStr e.certFingerprint
  status := text "active"
  epoch := e.epoch
  enrolledAt

def certificate : CertificateRecord where
  nodeIdHex := cStr e.nodeIdHex
  serialNumber := cStr e.certFingerprint
  certFingerprint := cStr e.certFingerprint
  issuerPubkeyHex := cStr e.certIssuerPubkeyHex
  subjectPubkeyHex := cStr e.certSubjectPubkeyHex
  role := cStr e.role
  status := text "active"
  epoch := e.epoch
  issuedAt := e.certIssuedAt
  expiresAt := e.certExpiresAt

def alias_ (createdAt : Int64) : AliasRecord where
  aliasName := cStr (normalizeDisplayName e.displayName)
  nodeIdHex := cStr e.nodeIdHex
  createdAt

def result : EnrollResult where
  node := { nodeIdHex := e.nodeIdHex, displayName := normalizeDisplayName e.displayName,
            meshId := e.meshId, role := e.role, certFingerprint := e.certFingerprint,
            status := text "active", epoch := e.epoch }
  certificate := { nodeIdHex := e.nodeIdHex, certFingerprint := e.certFingerprint,
                   issuerPubkeyHex := e.certIssuerPubkeyHex,
                   subjectPubkeyHex := e.certSubjectPubkeyHex, role := e.role,
                   status := text "active", epoch := e.epoch }
  certFingerprint := e.certFingerprint

/-- The rollback clears the extended error code before it is asked for, so a name taken twice is
reported like any other constraint. -/
def insertRows (call : EnrollCall) (e : Enrollment) (r : Registry) : Result Registry := do
  executed call.beginFault (storageFault "begin failed") (some ())
  let r ← executed call.nodeFault (constraintErr "constraint violation (insert node)")
    (r.insertNode (e.node call.enrolledAt))
  let r ← executed call.certificateFault (constraintErr "constraint violation (insert certificate)")
    (r.insertCertificate e.certificate)
  let r ← executed call.aliasFault
    (constraintErr ("display name already taken: " ++ shown (normalizeDisplayName e.displayName)))
    (r.insertAlias (e.alias_ call.aliasCreatedAt))
  executed call.commitFault (storageFault "commit failed") (some r)

end Enrollment

/-- `enroll_node`: all rows or none. -/
def enrollNode (call : EnrollCall) (db : Connection) (e : Enrollment) (r : Registry) :
    Result EnrollResult × Registry :=
  match db with
  | .closed => (.error (smoErr .storage 900 .critical .noRetry .rebootNode "database not open"),r)
  | .opened => match e.insertRows call r with
    | .error err => (.error err,r)
    | .ok r => (.ok e.result,r)

def NodeRecord.bound (node : NodeRecord) : NodeRecord where
  nodeIdHex := cStr node.nodeIdHex
  displayName := cStr (normalizeDisplayName node.displayName)
  meshId := cStr node.meshId
  role := cStr node.role
  certFingerprint := cStr node.certFingerprint
  status := cStr node.status
  epoch := node.epoch
  enrolledAt := node.enrolledAt
  lastSeen := node.lastSeen

variable (fault : Option String) (db : Connection)

def registerNode (node : NodeRecord) (r : Registry) : Result Unit × Registry :=
  match db with
  | .closed => (.error (storageFault "prepare register_node: out of memory"),r)
  | .opened =>
    match executed fault (constraintErr "constraint violation (register_node)")
        (r.replaceNode node.bound) with
    | .error err => (.error err,r)
    | .ok r => (.ok (),r)

def textLe : Bytes → Bytes → Bool
  | [],_ => true
  | _::_,[] => false
  | a::s,b::t => a < b || (a == b && textLe s t)

/-- `list_nodes`: the nodes of a mesh, or all of them for an empty name, by display name. -/
def listNodes (meshId : Bytes) (r : Registry) : Result (List NodeRecord) :=
  match db with
  | .closed => .error (storageFault "prepare list_nodes: out of memory")
  | .opened => executed fault (storageFault "prepare list_nodes")
    (some ((r.nodes.filter fun node => meshId == [] || node.meshId == cStr meshId).insertionSort
      fun a b => textLe a.displayName b.displayName))

variable (nodeIdHex : Bytes)

def Registry.findNode (r : Registry) : Option NodeRecord :=
  r.nodes.find? fun row => row.nodeIdHex == cStr nodeIdHex

/-! What a registration leaves behind. -/

variable {r r' : Registry} {row : NodeRecord}

lemma Registry.insertNode_eq_some (h : r.insertNode row = some r') :
    row.nodeIdHex ∉ r.nodes.map NodeRecord.nodeIdHex ∧
      r'.nodes = r.nodes ++ [row] ∧ r'.aliases = r.aliases ∧ r'.certificates = r.certificates := by
  unfold insertNode at h
  split at h
  · rename_i hnew
    cases h
    exact ⟨hnew.1,rfl,rfl,rfl⟩
  · cases h

lemma Registry.insertCertificate_eq_some {row : CertificateRecord}
    (h : r.insertCertificate row = some r') : r'.nodes = r.nodes ∧ r'.aliases = r.aliases ∧
      r'.certificates = r.certificates ++ [row] := by
  unfold insertCertificate at h
  split at h
  · cases h
    exact ⟨rfl,rfl,rfl⟩
  · cases h

lemma Registry.insertAlias_eq_some {row : AliasRecord} (h : r.insertAlias row = some r') :
    r'.nodes = r.nodes ∧ r'.aliases = r.aliases ++ [row] ∧
      r'.certificates = r.certificates := by
  unfold insertAlias at h
  split at h
  · cases h
    exact ⟨rfl,rfl,rfl⟩
  · cases h

variable {e : Enrollment}

lemma Enrollment.displayName_node_ne_nil
    (hname : validateDisplayName name = .ok ()) (he : e.displayName = normalizeDisplayName name)
    (enrolledAt : Int64) : (e.node enrolledAt).displayName ≠ [] := by
  obtain ⟨c,rest,rfl,hc⟩ := validateDisplayName_eq_ok hname
  obtain ⟨rest1,h1⟩ := normalizeDisplayName_cons hc rest
  have hc1 := (toLower_of_isAlnum hc).2.1
  obtain ⟨rest2,h2⟩ := normalizeDisplayName_cons hc1 rest1
  have hc2 := (toLower_of_isAlnum (toLower_of_isAlnum hc1).2.1).2.2
  simp [Enrollment.node,he,h1,h2,cStr,hc2]

structure Registry.Enrolled (r r' : Registry) (e : Enrollment) (call : EnrollCall) : Prop where
  new : (e.node call.enrolledAt).nodeIdHex ∉ r.nodes.map NodeRecord.nodeIdHex
  nodes : r'.nodes = r.nodes ++ [e.node call.enrolledAt]
  certificates : r'.certificates = r.certificates ++ [e.certificate]
  aliases : r'.aliases = r.aliases ++ [e.alias_ call.aliasCreatedAt]

lemma Enrollment.enrolled {call : EnrollCall} (h : e.insertRows call r = .ok r') :
    r.Enrolled r' e call := by
  simp only [insertRows,bind_eq_ok,executed_eq_ok] at h
  obtain ⟨-,-,r1,⟨-,h1⟩,r2,⟨-,h2⟩,r3,⟨-,h3⟩,-,h4⟩ := h
  obtain ⟨hnew,hn1,ha1,hc1⟩ := Registry.insertNode_eq_some h1
  obtain ⟨hn2,ha2,hc2⟩ := Registry.insertCertificate_eq_some h2
  obtain ⟨hn3,ha3,hc3⟩ := Registry.insertAlias_eq_some h3
  cases h4
  exact ⟨hnew,by rw [hn3,hn2,hn1],by rw [hc3,hc2,hc1],by rw [ha3,ha2,ha1]⟩

theorem enrollNode_cases (call : EnrollCall) (db : Connection) (e : Enrollment) (r : Registry) :
    (∃ err, enrollNode call db e r = (.error err,r)) ∨
    ∃ r', enrollNode call db e r = (.ok e.result,r') ∧ r.Enrolled r' e call := by
  cases db with
  | closed => exact .inl ⟨_,rfl⟩
  | opened =>
    unfold enrollNode
    cases hrows : e.insertRows call r with
    | error err => exact .inl ⟨err,rfl⟩
    | ok r' => exact .inr ⟨r',rfl,Enrollment.enrolled hrows⟩

lemma Registry.replaceNode_nodes (h : r.replaceNode row = some r') :
    r'.nodes = replacing row r.nodes := by
  unfold replaceNode at h
  split at h
  · cases h
    rfl
  · cases h

lemma Registry.find_replacing (row : NodeRecord) (nodes : List NodeRecord) :
    (replacing row nodes).find? (fun other => other.nodeIdHex == row.nodeIdHex) = some row := by
  have hkept : (nodes.filter fun other => !clashes row other).find?
      (fun other => other.nodeIdHex == row.nodeIdHex) = none := by
    rw [find?_eq_none]
    intro other hother
    simp only [mem_filter,clashes,Bool.not_or,Bool.and_eq_true,Bool.not_eq_true'] at hother
    simp [hother.2.1]
  rw [replacing,find?_append,hkept]
  simp

/-- No alias and no certificate refers to a row without a name, except to the node's own. -/
def Registry.Admits (r : Registry) (nodeIdHex : Bytes) : Prop :=
  ∀ other ∈ r.nodes, other.displayName = [] → other.nodeIdHex ≠ nodeIdHex →
    (∀ a ∈ r.aliases, a.nodeIdHex ≠ other.nodeIdHex) ∧
    ∀ c ∈ r.certificates, c.nodeIdHex ≠ other.nodeIdHex

lemma Registry.mem_replacing_iff (hname : row.displayName = []) (hother : other ∈ r.nodes) :
    other.nodeIdHex ∈ (replacing row r.nodes).map NodeRecord.nodeIdHex ↔
      other.nodeIdHex = row.nodeIdHex ∨ other.displayName ≠ [] := by
  constructor
  · intro h
    obtain ⟨kept,hkept,heq⟩ := mem_map.mp h
    rcases mem_append.mp hkept with hkept | hkept
    · -- Only one row has this id.
      obtain ⟨hmem,hclash⟩ := mem_filter.mp hkept
      obtain rfl : kept = other := r.idsDistinct.eq_of_key_eq hmem hother heq
      refine .inr fun hempty => ?_
      simp [clashes,hempty,hname] at hclash
    · exact .inl (mem_singleton.mp hkept ▸ heq.symm)
  · intro h
    by_cases hid : other.nodeIdHex = row.nodeIdHex
    · exact mem_map.mpr ⟨row,by simp [replacing],hid.symm⟩
    · have hnamed := h.resolve_left hid
      refine mem_map.mpr ⟨other,mem_append_left _ (mem_filter.mpr ⟨hother,?_⟩),rfl⟩
      simp [clashes,hid,hname,hnamed]

lemma Registry.isSome_replaceNode_iff (hname : row.displayName = []) :
    (r.replaceNode row).isSome = true ↔ r.Admits row.nodeIdHex := by
  have hsome : (r.replaceNode row).isSome = true ↔
      (∀ a ∈ r.aliases, a.nodeIdHex ∈ (replacing row r.nodes).map NodeRecord.nodeIdHex) ∧
      ∀ c ∈ r.certificates, c.nodeIdHex ∈ (replacing row r.nodes).map NodeRecord.nodeIdHex := by
    unfold replaceNode
    split
    · rename_i h
      simpa using h
    · rename_i h
      simpa using h
  -- Every reference is to some row.
  have hkept : ∀ {id : Bytes}, id ∈ r.nodes.map NodeRecord.nodeIdHex →
      (id ∈ (replacing row r.nodes).map NodeRecord.nodeIdHex ↔
        ∀ other ∈ r.nodes, other.displayName = [] → other.nodeIdHex ≠ row.nodeIdHex →
          id ≠ other.nodeIdHex) := by
    intro id hid
    obtain ⟨owner,howner,rfl⟩ := mem_map.mp hid
    rw [mem_replacing_iff hname howner]
    constructor
    · rintro h other hother hempty hne heq
      obtain rfl : owner = other := r.idsDistinct.eq_of_key_eq howner hother heq
      exact h.elim hne fun hnamed => hnamed hempty
    · intro h
      by_contra hnot
      rw [not_or,not_not] at hnot
      exact h owner howner hnot.2 hnot.1 rfl
  rw [hsome]
  constructor
  · rintro ⟨haliases,hcerts⟩ other hother hempty hne
    exact ⟨fun a ha => (hkept (r.aliasesRefer a ha)).mp (haliases a ha) other hother hempty hne,
      fun c hc => (hkept (r.certificatesRefer c hc)).mp (hcerts c hc) other hother hempty hne⟩
  · intro h
    exact ⟨fun a ha => (hkept (r.aliasesRefer a ha)).mpr fun other hother hempty hne =>
        (h other hother hempty hne).1 a ha,
      fun c hc => (hkept (r.certificatesRefer c hc)).mpr fun other hother hempty hne =>
        (h other hother hempty hne).2 c hc⟩

lemma Registry.Enrolled.admits_iff (h : r.Enrolled r' e call)
    (hname : (e.node call.enrolledAt).displayName ≠ []) (nodeIdHex : Bytes) :
    r'.Admits nodeIdHex ↔ r.Admits nodeIdHex := by
  have hnew : ∀ other ∈ r.nodes, (e.node call.enrolledAt).nodeIdHex ≠ other.nodeIdHex :=
    fun other hother heq => h.new (heq ▸ mem_map_of_mem hother)
  simp only [Admits,h.nodes,h.certificates,h.aliases,forall_mem_append,forall_mem_singleton]
  constructor
  · rintro ⟨hold,-⟩ other hother hempty hne
    obtain ⟨ha,hc⟩ := hold other hother hempty hne
    exact ⟨ha.1,hc.1⟩
  · intro hold
    refine ⟨fun other hother hempty hne => ?_,fun hempty => absurd hempty hname⟩
    obtain ⟨ha,hc⟩ := hold other hother hempty hne
    exact ⟨⟨ha,hnew other hother⟩,hc,hnew other hother⟩

lemma nodes_registerNode {node : NodeRecord}
    (hname : node.displayName = []) (r : Registry) :
    (db = .opened ∧ fault = none ∧ r.Admits (cStr node.nodeIdHex) →
      (registerNode fault db node r).2.nodes = Registry.replacing node.bound r.nodes) ∧
    (¬(db = .opened ∧ fault = none ∧ r.Admits (cStr node.nodeIdHex)) →
      (registerNode fault db node r).2 = r) := by
  have hbound : node.bound.displayName = [] := by
    rw [NodeRecord.bound,hname]
    rfl
  have hadmits : (r.replaceNode node.bound).isSome = true ↔ r.Admits (cStr node.nodeIdHex) :=
    Registry.isSome_replaceNode_iff hbound
  cases db with
  | closed => exact ⟨fun h => absurd h.1 (by decide),fun _ => rfl⟩
  | opened =>
    unfold registerNode
    cases hdone : executed fault (constraintErr "constraint violation (register_node)")
        (r.replaceNode node.bound) with
    | error e =>
      refine ⟨fun h => ?_,fun _ => rfl⟩
      obtain ⟨r',hr'⟩ := Option.isSome_iff_exists.mp (hadmits.mpr h.2.2)
      rw [executed_eq_ok.mpr ⟨h.2.1,hr'⟩] at hdone
      cases hdone
    | ok r' =>
      obtain ⟨hfault,hreplace⟩ := executed_eq_ok.mp hdone
      refine ⟨fun _ => Registry.replaceNode_nodes hreplace,fun h => ?_⟩
      exact absurd ⟨rfl,hfault,hadmits.mp (by rw [hreplace]; rfl)⟩ h

end SmoFramework.Authority
