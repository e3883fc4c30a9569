import SmoFramework.Crypto.RecoveryCrypto
import SmoFramework.Genesis.Manifest

/-! The recovery package of version 1 and its text form (`core/genesis/recovery_package`). -/
namespace SmoFramework.Genesis
open Library.TextSearch Library.Numeral Crypto List

structure RecoveryPackage where
  meshId : Bytes := []
  rootPublicKey : Bytes := []
  rootKeypairEncrypted : Bytes := []
  manifestRevision : UInt32 := 1
  manifestSchema : UInt32 := 1
  genesisManifestJson : Bytes := []
  createdAt : UInt64 := 0
  recoveryParams : Argon2idParams := {}
  deriving DecidableEq

namespace RecoveryPackage

def fields (p : RecoveryPackage) : List (String × Bytes) :=
  [("mesh_id",jsonEsc p.meshId),
   ("root_public_key",jsonEsc p.rootPublicKey),
   ("root_keypair_encrypted",jsonEsc (bytesToHex p.rootKeypairEncrypted)),
   ("crypto_domain",text "\"recovery\""),
   ("kdf",text "\"Argon2id\""),
   ("aead",text "\"AES-256-GCM\""),
   ("argon2_memory_kib",decimal p.recoveryParams.memoryKib.toNat),
   ("argon2_iterations",decimal p.recoveryParams.iterations.toNat),
   ("argon2_lanes",decimal p.recoveryParams.lanes.toNat),
   ("manifest_revision",decimal p.manifestRevision.toNat),
   ("manifest_schema",decimal p.manifestSchema.toNat),
   ("genesis_manifest_json",jsonEsc p.genesisManifestJson)]

def jsonText (p : RecoveryPackage) : Bytes :=
  text "\x7b\n" ++ (p.fields.flatMap jsonLine ++
    (jsonField "created_at" (decimal p.createdAt.toNat) ++ text "\n\x7d\n"))

def serialize (p : RecoveryPackage) : Result Bytes := .ok p.jsonText

/-- The parameters are optional in the text. -/
def orDefault (params : Argon2idParams) : Argon2idParams where
  memoryKib := if params.memoryKib = 0 then ({} : Argon2idParams).memoryKib else params.memoryKib
  iterations := if params.iterations = 0 then ({} : Argon2idParams).iterations else params.iterations
  lanes := if params.lanes = 0 then ({} : Argon2idParams).lanes else params.lanes

def readFields (json keypair : Bytes) : RecoveryPackage where
  meshId := jsonExtractStr (text "mesh_id") json
  rootPublicKey := jsonExtractStr (text "root_public_key") json
  genesisManifestJson := jsonExtractStr (text "genesis_manifest_json") json
  manifestRevision := (jsonExtractInt (text "manifest_revision") json).toUInt32
  manifestSchema := (jsonExtractInt (text "manifest_schema") json).toUInt32
  createdAt := jsonExtractInt (text "created_at") json
  recoveryParams := orDefault {
    memoryKib := (jsonExtractInt (text "argon2_memory_kib") json).toUInt32
    iterations := (jsonExtractInt (text "argon2_iterations") json).toUInt32
    lanes := (jsonExtractInt (text "argon2_lanes") json).toUInt32 }
  rootKeypairEncrypted := keypair

/-- No result when the hex text has an odd length: its last digit is then written past the end
of the vector. -/
def deserialize (json : Bytes) : Option (Result RecoveryPackage) :=
  (decodeHex (jsonExtractStr (text "root_keypair_encrypted") json)).map fun keypair =>
    let pkg := readFields json keypair
    if pkg.meshId = [] ∨ pkg.rootPublicKey = [] then
      .error (smoErrGenesis 1404 .critical .noRetry .manualIntervention
        "recovery package missing required fields")
    else .ok pkg

lemma deserialize_eq_ok : deserialize json = some (.ok q) ↔
      (∃ keypair, decodeHex (jsonExtractStr (text "root_keypair_encrypted") json) = some keypair ∧
        readFields json keypair = q) ∧ q.meshId ≠ [] ∧ q.rootPublicKey ≠ [] := by
  simp only [deserialize,Option.map_eq_some_iff,ite_error_eq_ok,not_or]
  constructor
  · rintro ⟨keypair,hhex,⟨hm,hr⟩,h⟩
    cases h
    exact ⟨⟨keypair,hhex,rfl⟩,hm,hr⟩
  · rintro ⟨⟨keypair,hhex,rfl⟩,hm,hr⟩
    exact ⟨keypair,hhex,⟨hm,hr⟩,rfl⟩

/-- `verify_passphrase`, over any function that opens an envelope. -/
def verifyPassphrase (openEnvelope : Bytes → Bytes → Bytes → Result Bytes) (p : RecoveryPackage)
    (passphrase : Bytes) : Bool :=
  if p.rootKeypairEncrypted = [] then false
  else (openEnvelope p.rootKeypairEncrypted p.meshId passphrase).isOk

/-! When the reader finds its lines. -/

/-- The texts a package puts between quotes need no escaping. -/
def PlainTexts (p : RecoveryPackage) : Prop :=
  Plain p.meshId ∧ Plain p.rootPublicKey ∧ Plain p.genesisManifestJson

def restoredKeys : List String :=
  ["mesh_id","root_public_key","root_keypair_encrypted","manifest_revision","manifest_schema",
   "genesis_manifest_json","created_at"]

def rawText (p : RecoveryPackage) (name : String) : Bytes :=
  if name = "mesh_id" then p.meshId
  else if name = "root_public_key" then p.rootPublicKey
  else if name = "genesis_manifest_json" then p.genesisManifestJson
  else []

/-- No text holds the key of a later line. -/
def KeysFresh (p : RecoveryPackage) : Prop :=
  restoredKeys.Pairwise fun name key => ¬text key <:+: p.rawText name

instance (p : RecoveryPackage) : Decidable p.PlainTexts := inferInstanceAs (Decidable (_ ∧ _ ∧ _))
instance (p : RecoveryPackage) : Decidable p.KeysFresh :=
  inferInstanceAs (Decidable (List.Pairwise _ _))

lemma isKey_restoredKeys : ∀ key ∈ restoredKeys, IsKey (text key) := by decide +kernel

variable {p : RecoveryPackage}

lemma infix_jsonEsc (hkey : IsKey key) :
    key <:+: jsonEsc s ↔ key <:+: escaped s := by
  have hfront : jsonEsc s = [] ++ 34::(escaped s ++ [34]) := rfl
  have hnil : ¬key <:+: [] := hkey.not_within (by simp)
  rw [hfront,infix_append_cons (hkey.not_mem (by decide)),infix_append_cons (hkey.not_mem (by decide))]
  simp [hnil]

lemma not_underscore_decimal (n : ℕ) : 95 ∉ decimal n := fun h => by
  simpa [isDigit,digitVal] using isDigit_of_mem_decimal h

lemma plain_bytesToHex (data : Bytes) : Plain (bytesToHex data) :=
  ⟨fun h => absurd (isDigit_of_mem_bytesToHex h) (by decide),
    fun h => absurd (isDigit_of_mem_bytesToHex h) (by decide)⟩

lemma not_underscore_bytesToHex (data : Bytes) : 95 ∉ bytesToHex data :=
  fun h => absurd (isDigit_of_mem_bytesToHex h) (by decide)

lemma not_infix_value (hp : p.PlainTexts) (hkey : IsKey key)
    (hf : f ∈ p.fields) (hraw : ¬key <:+: p.rawText f.1) : ¬key <:+: f.2 := by
  obtain ⟨hmesh,hroot,hgenesis⟩ := hp
  simp only [fields,mem_cons,not_mem_nil,or_false] at hf
  rcases hf with rfl | rfl | rfl | rfl | rfl | rfl | rfl | rfl | rfl | rfl | rfl | rfl
  · rwa [infix_jsonEsc hkey,escaped_eq_self hmesh]
  · rwa [infix_jsonEsc hkey,escaped_eq_self hroot]
  · rw [infix_jsonEsc hkey,escaped_eq_self (plain_bytesToHex _)]
    exact hkey.not_within (not_underscore_bytesToHex _)
  iterate 3 exact hkey.not_within (by decide +kernel)
  iterate 5 exact hkey.not_within (not_underscore_decimal _)
  · rwa [infix_jsonEsc hkey,escaped_eq_self hgenesis]

lemma jsonText_split {value : Bytes}
    (hsplit : p.fields = pre ++ (key,value)::post) :
    p.jsonText = [123] ++ 10::(pre.flatMap jsonLine ++ (jsonField key value ++
      44::10::(post.flatMap jsonLine ++
        (jsonField "created_at" (decimal p.createdAt.toNat) ++ text "\n\x7d\n")))) := by
  have hopen : text "\x7b\n" = [123,10] := by decide +kernel
  have hcomma : text ",\n" = [44,10] := by decide +kernel
  simp [jsonText,hsplit,hopen,jsonLine,hcomma]

lemma find_line (hkey : IsKey (text key))
    {value : Bytes} (hsplit : p.fields = pre ++ (key,value)::post)
    (hpre : ∀ f ∈ pre, ¬text key <:+: text f.1 ∧ ¬text key <:+: f.2) :
    ∃ rest, find (text key) p.jsonText = some (text key ++ 34::58::32::(value ++ 44::rest)) := by
  rw [jsonText_split hsplit,find_append_cons (hkey.not_mem (by decide)) (hkey.not_within (by decide)),
    find_lines hkey hpre,find_jsonField_self hkey]
  exact ⟨_,rfl⟩

lemma find_createdAt (hpre : ∀ f ∈ p.fields, ¬text "created_at" <:+: text f.1 ∧
      ¬text "created_at" <:+: f.2) : ∃ rest, find (text "created_at") p.jsonText =
        some (text "created_at" ++ 34::58::32::(decimal p.createdAt.toNat ++ 10::rest)) := by
  have hkey := isKey_restoredKeys "created_at" (by decide)
  have hopen : text "\x7b\n" = [123,10] := by decide +kernel
  have hclose : text "\n\x7d\n" = [10,125,10] := by decide +kernel
  have hstart : p.jsonText = [123] ++ 10::(p.fields.flatMap jsonLine ++
      (jsonField "created_at" (decimal p.createdAt.toNat) ++ [10,125,10])) := by
    simp [jsonText,hopen,hclose]
  rw [hstart,find_append_cons (hkey.not_mem (by decide)) (hkey.not_within (by decide)),
    find_lines hkey hpre]
  exact ⟨_,rfl⟩

def lineNames : List String :=
  ["mesh_id","root_public_key","root_keypair_encrypted","crypto_domain","kdf","aead",
   "argon2_memory_kib","argon2_iterations","argon2_lanes","manifest_revision","manifest_schema",
   "genesis_manifest_json"]

lemma fields_names (p : RecoveryPackage) : p.fields.map Prod.fst = lineNames := rfl

/-- Of the first `n` lines, those with a restored key are among the first `m` such keys, and
none has this key in its name. -/
def Precedes (n m : ℕ) (key : String) : Prop :=
  restoredKeys = restoredKeys.take m ++ key::restoredKeys.drop (m+1) ∧
    ∀ name ∈ lineNames.take n, ¬text key <:+: text name ∧
      (name ∈ restoredKeys → name ∈ restoredKeys.take m)

instance (n m : ℕ) (key : String) : Decidable (Precedes n m key) :=
  inferInstanceAs (Decidable (_ ∧ _))

lemma rawText_of_not_mem (h : name ∉ restoredKeys) : p.rawText name = [] := by
  simp only [restoredKeys,mem_cons,not_or] at h
  simp [rawText,h]

lemma not_infix_before (hp : p.PlainTexts) (hfresh : p.KeysFresh)
    (h : Precedes n m key) : ∀ f ∈ p.fields.take n, ¬text key <:+: text f.1 ∧ ¬text key <:+: f.2 := by
  obtain ⟨hsplit,hnames⟩ := h
  have hmem : key ∈ restoredKeys := by
    rw [hsplit]
    simp
  have hkey := isKey_restoredKeys key hmem
  intro f hf
  have hname : f.1 ∈ lineNames.take n := by
    rw [← fields_names p,← map_take]
    exact mem_map_of_mem hf
  obtain ⟨hno,hbefore⟩ := hnames f.1 hname
  refine ⟨hno,not_infix_value hp hkey ((take_subset n _) hf) ?_⟩
  by_cases hr : f.1 ∈ restoredKeys
  · unfold KeysFresh at hfresh
    rw [hsplit,pairwise_append] at hfresh
    exact hfresh.2.2 f.1 (hbefore hr) key mem_cons_self
  · rw [rawText_of_not_mem hr]
    exact hkey.not_within (by simp)

section
variable (hp : p.PlainTexts) (hfresh : p.KeysFresh) {key : String} (n m : ℕ)
include hp hfresh

lemma extractStr_line {s : Bytes} (hs : Plain s) (h : Precedes n m key)
    (hsplit : p.fields = p.fields.take n ++ (key,jsonEsc s)::p.fields.drop (n+1)) :
    jsonExtractStr (text key) p.jsonText = s := by
  have hkey := isKey_restoredKeys key (by rw [h.1]; simp)
  obtain ⟨rest,hfind⟩ := find_line hkey hsplit (not_infix_before hp hfresh h)
  have hquoted : find (text key) p.jsonText =
      some (text key ++ 34::58::32::34::(escaped s ++ 34::44::rest)) := by
    simpa [jsonEsc] using hfind
  rw [jsonExtractStr_of_find hkey hquoted]
  exact takeWhile_escaped.mpr hs

lemma extractInt_line {v : ℕ} (hv : v < 2^64) (h : Precedes n m key)
    (hsplit : p.fields = p.fields.take n ++ (key,decimal v)::p.fields.drop (n+1)) :
    jsonExtractInt (text key) p.jsonText = UInt64.ofNat v := by
  have hkey := isKey_restoredKeys key (by rw [h.1]; simp)
  obtain ⟨rest,hfind⟩ := find_line hkey hsplit (not_infix_before hp hfresh h)
  exact jsonExtractInt_of_find hkey hv (by decide) hfind

lemma extractInt_createdAt : jsonExtractInt (text "created_at") p.jsonText = p.createdAt := by
  have hline : Precedes 12 6 "created_at" := by decide +kernel
  have hpre := not_infix_before hp hfresh hline
  obtain ⟨rest,hfind⟩ := find_createdAt hpre
  have hread := jsonExtractInt_of_find (isKey_restoredKeys _ (by decide)) p.createdAt.toNat_lt
    (by decide) hfind
  simpa using hread

lemma deserialize_jsonText (hmesh : p.meshId ≠ []) (hroot : p.rootPublicKey ≠ []) :
    ∃ params, deserialize p.jsonText = some (.ok { p with recoveryParams := params }) := by
  have hm := extractStr_line hp hfresh 0 0 hp.1 (by decide +kernel) rfl
  have hr := extractStr_line hp hfresh 1 1 hp.2.1 (by decide +kernel) rfl
  have hk := extractStr_line hp hfresh 2 2 (plain_bytesToHex _) (by decide +kernel) rfl
  have hrev := extractInt_line hp hfresh 9 3 (v := p.manifestRevision.toNat)
    (p.manifestRevision.toNat_lt.trans (by decide)) (by decide +kernel) rfl
  have hsch := extractInt_line hp hfresh 10 4 (v := p.manifestSchema.toNat)
    (p.manifestSchema.toNat_lt.trans (by decide)) (by decide +kernel) rfl
  have hg := extractStr_line hp hfresh 11 5 hp.2.2 (by decide +kernel) rfl
  have hc := extractInt_createdAt hp hfresh
  refine ⟨(readFields p.jsonText p.rootKeypairEncrypted).recoveryParams,deserialize_eq_ok.mpr
    ⟨⟨_,hk.symm ▸ decodeHex_bytesToHex _,?_⟩,hmesh,hroot⟩⟩
  simp [readFields,hm,hr,hg,hrev,hsch,hc]

end

/-! Reading a text back shows that it needed no escaping. -/

lemma backslash_not_mem_names : ∀ name ∈ lineNames, 92 ∉ text name := by decide +kernel

lemma backslash_not_mem_lines {fields : List (String × Bytes)}
    (h : ∀ f ∈ fields, 92 ∉ text f.1 ∧ 92 ∉ f.2) : 92 ∉ fields.flatMap jsonLine := by
  have hopen : 92 ∉ text "  \"" := by decide +kernel
  have hsep : 92 ∉ text "\": " := by decide +kernel
  have hcomma : 92 ∉ text ",\n" := by decide +kernel
  intro hm
  obtain ⟨f,hf,hmem⟩ := mem_flatMap.mp hm
  obtain ⟨hname,hvalue⟩ := h f hf
  simp [jsonLine,jsonField,hopen,hsep,hcomma,hname,hvalue] at hmem

lemma plain_of_extractStr {key : String} (n : ℕ) {s : Bytes}
    (hsplit : p.fields = p.fields.take n ++ (key,jsonEsc s)::p.fields.drop (n+1))
    (hpre : ∀ f ∈ p.fields.take n, 92 ∉ f.2)
    (hread : jsonExtractStr (text key) p.jsonText = s) : Plain s := by
  have hnames : ∀ f ∈ p.fields, 92 ∉ text f.1 := fun f hf =>
    backslash_not_mem_names f.1 (fields_names p ▸ mem_map_of_mem hf)
  have hlines : 92 ∉ (p.fields.take n).flatMap jsonLine := backslash_not_mem_lines
    (fun f hf => ⟨hnames f (take_subset n _ hf),hpre f hf⟩)
  have hkey : 92 ∉ text key := hnames (key,jsonEsc s) (by rw [hsplit]; simp)
  have htext : p.jsonText = ([123,10] ++ ((p.fields.take n).flatMap jsonLine ++ [32,32,34])) ++
      (text key ++ 34::58::32::34::(escaped s ++ 34::44::10::((p.fields.drop (n+1)).flatMap jsonLine ++
        (jsonField "created_at" (decimal p.createdAt.toNat) ++ text "\n\x7d\n")))) := by
    rw [jsonText_split hsplit,jsonField_append]
    simp [jsonEsc]
  rw [htext] at hread
  rcases jsonExtractStr_cases (text key) _ (escaped s) _ with h | h
  · exact takeWhile_escaped.mp (h.symm.trans hread)
  · rw [hread] at h
    refine ⟨hread ▸ quote_not_mem_jsonExtractStr _ _,fun hm => ?_⟩
    have := h 92 hm
    simp [hkey,hlines] at this

/-- `deserialize` takes what `serialize` wrote and restores everything but the parameters. -/
def RoundTrips (p : RecoveryPackage) : Prop :=
  ∃ data q, p.serialize = .ok data ∧ deserialize data = some (.ok q) ∧ q.meshId = p.meshId ∧
    q.rootPublicKey = p.rootPublicKey ∧ q.rootKeypairEncrypted = p.rootKeypairEncrypted ∧
    q.manifestRevision = p.manifestRevision ∧ q.manifestSchema = p.manifestSchema ∧
    q.genesisManifestJson = p.genesisManifestJson ∧ q.createdAt = p.createdAt

lemma RoundTrips.reads (h : p.RoundTrips) :
    jsonExtractStr (text "mesh_id") p.jsonText = p.meshId ∧
      jsonExtractStr (text "root_public_key") p.jsonText = p.rootPublicKey ∧
      jsonExtractStr (text "genesis_manifest_json") p.jsonText = p.genesisManifestJson ∧
      jsonExtractInt (text "created_at") p.jsonText = p.createdAt := by
  obtain ⟨data,q,hdata,hq,hm,hr,-,-,-,hg,hc⟩ := h
  cases hdata
  obtain ⟨⟨keypair,-,rfl⟩,-⟩ := deserialize_eq_ok.mp hq
  exact ⟨hm,hr,hg,hc⟩

lemma plainTexts_of_roundTrips (h : p.RoundTrips) : p.PlainTexts := by
  obtain ⟨hm,hr,hg,-⟩ := h.reads
  have hmesh : Plain p.meshId := plain_of_extractStr 0 rfl (by simp) hm
  have hvalue : ∀ {s : Bytes}, Plain s → 92 ∉ jsonEsc s := fun hs => by
    simp [jsonEsc,escaped_eq_self hs,hs.2]
  have hroot : Plain p.rootPublicKey := plain_of_extractStr 1 rfl
    (by simp [fields,hvalue hmesh]) hr
  have hdec : ∀ n, 92 ∉ decimal n := fun n h => absurd (isDigit_of_mem_decimal h) (by decide)
  have hdomain : 92 ∉ text "\"recovery\"" ∧ 92 ∉ text "\"Argon2id\"" ∧
      92 ∉ text "\"AES-256-GCM\"" := by decide +kernel
  exact ⟨hmesh,hroot,plain_of_extractStr 11 rfl
    (by simp [fields,hvalue hmesh,hvalue hroot,hvalue (plain_bytesToHex _),hdec,hdomain]) hg⟩

lemma not_roundTrips_manifest {m : GenesisManifest} (h : m.serialize = .ok p.genesisManifestJson) :
    ¬p.RoundTrips :=
  fun hp => GenesisManifest.not_plain_serialize h (plainTexts_of_roundTrips hp).2.2

/-- Only packages whose texts need no escaping are restored, and where no text holds the key of
a later line those are. -/
theorem roundTrips_iff_plainTexts (p : RecoveryPackage) (hmesh : p.meshId ≠ [])
    (hroot : p.rootPublicKey ≠ []) :
    (p.RoundTrips → p.PlainTexts) ∧ (p.KeysFresh → (p.RoundTrips ↔ p.PlainTexts)) := by
  refine ⟨plainTexts_of_roundTrips,fun hfresh => ⟨plainTexts_of_roundTrips,fun hp => ?_⟩⟩
  obtain ⟨params,h⟩ := deserialize_jsonText hp hfresh hmesh hroot
  exact ⟨_,_,rfl,h,rfl,rfl,rfl,rfl,rfl,rfl,rfl⟩

def samplePackage : RecoveryPackage where
  meshId := text "mesh-1"
  rootPublicKey := text "ab12"
  rootKeypairEncrypted := [1,254]
  createdAt := 1700000000

theorem roundTrips_samplePackage :
    samplePackage.meshId ≠ [] ∧ samplePackage.rootPublicKey ≠ [] ∧ samplePackage.RoundTrips :=
  have hne : samplePackage.meshId ≠ [] ∧ samplePackage.rootPublicKey ≠ [] := by decide +kernel
  ⟨hne.1,hne.2,((roundTrips_iff_plainTexts samplePackage hne.1 hne.2).2 (by decide +kernel)).mpr
    (by decide +kernel)⟩

/-- A package with the default manifest in it, and one whose mesh id holds the key of a later
line. -/
theorem manifest_package_not_restored :
    (∃ (p : RecoveryPackage) (m : GenesisManifest), p.meshId ≠ [] ∧ p.rootPublicKey ≠ [] ∧
      m.serialize = .ok p.genesisManifestJson ∧ ¬p.RoundTrips) ∧
    ∃ p : RecoveryPackage, p.meshId ≠ [] ∧ p.rootPublicKey ≠ [] ∧ p.PlainTexts ∧ ¬p.RoundTrips := by
  refine ⟨⟨{ samplePackage with genesisManifestJson := _ },{},?_,?_,rfl,?_⟩,
    ⟨{ samplePackage with meshId := text "created_at:7" },?_,?_,?_,?_⟩⟩
  · decide +kernel
  · decide +kernel
  · exact not_roundTrips_manifest (m := {}) rfl
  · decide +kernel
  · decide +kernel
  · decide +kernel
  · exact fun h => absurd h.reads.2.2.2 (by decide +kernel)

end RecoveryPackage

end SmoFramework.Genesis
