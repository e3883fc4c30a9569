import SmoFramework.Crypto.RecoveryCrypto
import SmoFramework.Crypto.ShamirRecovery
import SmoFramework.Genesis.Json

/-! The recovery package of version 2: the root seed split among shareholders, each share sealed
under a passphrase (`RecoveryPackageV2` of `core/genesis/recovery_package`). -/
namespace SmoFramework.Genesis
open Crypto Crypto.RecoveryCryptoProvider List

structure UnlockedKeypair where
  publicKey : Bytes
  secretKey : Bytes
  deriving DecidableEq

/-- `crypto_eddsa_key_pair`: the public key and the long secret key of a seed. -/
abbrev EddsaKeyPair := Bytes → List.Vector UInt8 32 × List.Vector UInt8 64

def deriveKeypairFromSeed (keyPair : EddsaKeyPair) (seed : Bytes) : Result UnlockedKeypair :=
  if seed.length ≠ 32 then
    .error (smoErrCrypto 172 .error .noRetry .manualIntervention "Ed25519 seed must be 32 bytes")
  else .ok ⟨(keyPair seed).1.toList,(keyPair seed).2.toList⟩

structure ShamirSharePackage where
  shareholderIndex : UInt8
  encryptedShare : Bytes
  kdfParams : Argon2idParams

structure RecoveryPackageV2 where
  meshId : Bytes := []
  rootPublicKey : Bytes := []
  manifestRevision : UInt32 := 1
  manifestSchema : UInt32 := 2
  genesisManifestJson : Bytes := []
  createdAt : UInt64 := 0
  threshold : UInt8 := 0
  totalShares : UInt8 := 0
  shares : List ShamirSharePackage := []
  defaultKdfParams : Argon2idParams := {}

def shareAad : Bytes := text "shamir-share"

/-! Recovering. -/

section
variable (gcm : Gcm) (argon2 : Argon2)

def ShamirSharePackage.unlockShare (sp : ShamirSharePackage) (passphrase : Bytes) :
    Result ShamirShare :=
  match openEnvelope gcm argon2 sp.encryptedShare shareAad passphrase with
  | .error e => .error (smoErrGenesis 1411 .error .noRetry .manualIntervention
      ("failed to decrypt share: " ++ e.message))
  | .ok plaintext =>
    if plaintext.length ≠ 33 then
      .error (smoErrGenesis 1412 .error .noRetry .manualIntervention
        "decrypted share has invalid size (expected 33)")
    else ShamirShare.deserialize plaintext

namespace RecoveryPackageV2

def verifyAndUnlockShare (pkg : RecoveryPackageV2) (shareholderIndex : UInt8) (passphrase : Bytes) :
    Result ShamirShare :=
  match pkg.shares.find? (fun sp => sp.shareholderIndex == shareholderIndex) with
  | some sp => sp.unlockShare gcm argon2 passphrase
  | none => .error (smoErrGenesis 1416 .error .noRetry .manualIntervention
      ("shareholder index " ++ toString shareholderIndex.toNat ++ " not found"))

def recover (keyPair : EddsaKeyPair) (pkg : RecoveryPackageV2) (passphrases : List (UInt8 × Bytes)) :
    Result UnlockedKeypair :=
  if passphrases.length < pkg.threshold.toNat then
    .error (smoErrGenesis 1417 .error .noRetry .manualIntervention
      ("insufficient passphrases provided (need at least " ++ toString pkg.threshold.toNat ++ ")"))
  else do
    let shares ← passphrases.mapM fun q => pkg.verifyAndUnlockShare gcm argon2 q.1 q.2
    let secret ← shamirRecover shares pkg.threshold
    if secret.length ≠ 32 then
      .error (smoErrGenesis 1418 .error .noRetry .manualIntervention
        "recovered secret has invalid size (expected 32)")
    else
      let kp ← deriveKeypairFromSeed keyPair secret
      if bytesToHex kp.publicKey ≠ pkg.rootPublicKey then
        .error (smoErrGenesis 1419 .error .noRetry .manualIntervention
          "recovered public key does not match package root_public_key")
      else .ok kp

/-! Creating. -/

variable {σ : Type*}

def sealShares (params : Argon2idParams) (rng : RngRef σ) :
    List (ShamirShare × Bytes) → σ → Result (List ShamirSharePackage) × σ
  | [],ctx => (.ok [],ctx)
  | (share,passphrase)::rest,ctx =>
    match share.serialize with
    | .error e => (.error e,ctx)
    | .ok plain =>
      match sealEnvelope gcm argon2 plain shareAad passphrase params rng ctx with
      | (.error e,ctx) => (.error e,ctx)
      | (.ok envelope,ctx) =>
        match sealShares params rng rest ctx with
        | (.error e,ctx) => (.error e,ctx)
        | (.ok packages,ctx) => (.ok (⟨share.index,envelope,params⟩::packages),ctx)

def seedOf (keypair : UnlockedKeypair) : Result Bytes :=
  if keypair.secretKey.length = 32 then .ok keypair.secretKey
  else if keypair.secretKey.length = 64 then .ok (keypair.secretKey.take 32)
  else .error (smoErrGenesis 1423 .error .noRetry .manualIntervention "invalid secret key size")

/-- No result where splitting the seed has none within the fuel. `now` is the clock in seconds. -/
def create (fuel : ℕ) (meshId : Bytes) (keypair : UnlockedKeypair) (threshold totalShares : UInt8)
    (params : Argon2idParams) (passphrases : List Bytes) (now : UInt64) (rng : RngRef σ) (ctx : σ) :
    Option (Result RecoveryPackageV2 × σ) :=
  if threshold = 0 ∨ threshold > totalShares then
    some (.error (smoErrGenesis 1420 .error .noRetry .manualIntervention
      "invalid threshold/total_shares"),ctx)
  else if passphrases.length ≠ totalShares.toNat then
    some (.error (smoErrGenesis 1421 .error .noRetry .manualIntervention
      "shareholder_passphrases count must equal total_shares"),ctx)
  else if totalShares.toNat > 255 then
    some (.error (smoErrGenesis 1422 .error .noRetry .manualIntervention
      "total_shares cannot exceed 255"),ctx)
  else match seedOf keypair with
    | .error e => some (.error e,ctx)
    | .ok secret =>
      (shamirSplit fuel rng ctx secret totalShares threshold).map fun
        | (.error e,ctx) => (.error e,ctx)
        | (.ok shares,ctx) =>
          match sealShares gcm argon2 params rng (shares.zip passphrases) ctx with
          | (.error e,ctx) => (.error e,ctx)
          | (.ok packages,ctx) => (.ok {
              meshId
              rootPublicKey := bytesToHex keypair.publicKey
              threshold
              totalShares
              shares := packages
              defaultKdfParams := params
              createdAt := now },ctx)

end RecoveryPackageV2
end

namespace RecoveryPackageV2
variable {σ : Type*} {gcm : Gcm} {argon2 : Argon2}

def Seals (gcm : Gcm) (argon2 : Argon2) (owner : ShamirShare × Bytes) (sp : ShamirSharePackage) :
    Prop :=
  sp.shareholderIndex = owner.1.index ∧ sp.unlockShare gcm argon2 owner.2 = .ok owner.1

lemma sealShares_seals (hindex : ∀ o ∈ owners, o.1.index ≠ 0)
    (h : sealShares gcm argon2 params rng owners ctx = (.ok packages,ctx')) :
    List.Forall₂ (Seals gcm argon2) owners packages := by
  induction owners generalizing ctx ctx' packages with
  | nil =>
    cases h
    exact .nil
  | cons o owners ih =>
    obtain ⟨share,passphrase⟩ := o
    simp only [sealShares] at h
    cases hplain : share.serialize with
    | error e => simp [hplain] at h
    | ok plain =>
      rcases hseal : sealEnvelope gcm argon2 plain shareAad passphrase params rng ctx with ⟨_ | env,ctx₁⟩
      · simp [hplain,hseal] at h
      · rcases hrest : sealShares gcm argon2 params rng owners ctx₁ with ⟨_ | rest,ctx₂⟩
        · simp [hplain,hseal,hrest] at h
        · obtain ⟨rfl,-⟩ : ⟨share.index,env,params⟩::rest = packages ∧ ctx₂ = ctx' := by
            simpa [hplain,hseal,hrest] using h
          refine .cons ⟨rfl,?_⟩ (ih (fun o ho => hindex o (mem_cons_of_mem _ ho)) hrest)
          have hback := ShamirShare.deserialize_serialize hplain
            (hindex (share,passphrase) mem_cons_self)
          have hlen : plain.length = 33 := by
            by_contra hlen
            simp [ShamirShare.deserialize,hlen] at hback
          simp [ShamirSharePackage.unlockShare,openEnvelope_sealEnvelope hseal,hlen,hback]

lemma find_seals (h : List.Forall₂ (Seals gcm argon2) owners packages)
    (hidx : (owners.map fun o => o.1.index).Nodup) (ho : o ∈ owners) :
    ∃ sp, packages.find? (fun sp => sp.shareholderIndex == o.1.index) = some sp ∧
      sp.unlockShare gcm argon2 o.2 = .ok o.1 := by
  induction h with
  | nil => cases ho
  | @cons a sp owners packages ha _ ih =>
    rw [map_cons,nodup_cons] at hidx
    rcases mem_cons.mp ho with rfl | ho
    · exact ⟨sp,by simp [ha.1],ha.2⟩
    · have hne : a.1.index ≠ o.1.index := fun heq =>
        hidx.1 (heq ▸ mem_map_of_mem (f := fun o => o.1.index) ho)
      obtain ⟨sp',hfind,hopen⟩ := ih hidx.2 ho
      exact ⟨sp',by rw [find?_cons_of_neg (by simp [ha.1,hne])]; exact hfind,hopen⟩

lemma sharesOf_indices (rng : RngRef σ) (ctx : σ) (secret : Bytes) (N M : UInt8) :
    (sharesOf rng ctx secret N M).map ShamirShare.index =
      (List.range N.toNat).map fun i => UInt8.ofNat (i+1) := by
  simp [sharesOf,shareTable]

lemma sharesOf_indices_nodup (rng : RngRef σ) (ctx : σ) (secret : Bytes) (N M : UInt8) :
    ((sharesOf rng ctx secret N M).map ShamirShare.index).Nodup := by
  rw [sharesOf_indices]
  refine nodup_range.map_on ?_
  intro i hi j hj heq
  have hN := N.toNat_lt
  have hnat := congrArg UInt8.toNat heq
  rw [UInt8.toNat_ofNat',UInt8.toNat_ofNat'] at hnat
  rw [mem_range] at hi hj
  omega

lemma verifyAndUnlockShare_ok {rng : RngRef σ} {ctx : σ} {secret : Bytes} {N M : UInt8}
    {passphrases : List Bytes} {pkg : RecoveryPackageV2} (hcount : passphrases.length = N.toNat)
    (hseals : List.Forall₂ (Seals gcm argon2) ((sharesOf rng ctx secret N M).zip passphrases) pkg.shares)
    {q : UInt8 × Bytes} (hlo : 1 ≤ q.1) (hhi : q.1 ≤ N)
    (hpass : passphrases[q.1.toNat-1]? = some q.2) :
    ∃ share ∈ sharesOf rng ctx secret N M, share.index = q.1 ∧
      pkg.verifyAndUnlockShare gcm argon2 q.1 q.2 = .ok share := by
  have hlo' : 1 ≤ q.1.toNat := UInt8.le_iff_toNat_le.mp hlo
  have hhi' := UInt8.le_iff_toNat_le.mp hhi
  have hlen : (sharesOf rng ctx secret N M).length = N.toNat := shareTable_length _ _
  have hk : q.1.toNat-1 < (sharesOf rng ctx secret N M).length := by omega
  obtain ⟨share,hshare⟩ : ∃ share, (sharesOf rng ctx secret N M)[q.1.toNat-1]? = some share :=
    ⟨_,getElem?_eq_getElem hk⟩
  have hindex : share.index = q.1 := by
    have hmap := congrArg (·[q.1.toNat-1]?) (sharesOf_indices rng ctx secret N M)
    simp only [getElem?_map,hshare,Option.map_some] at hmap
    rw [getElem?_range (by omega),Option.map_some,Nat.sub_add_cancel hlo',UInt8.ofNat_toNat] at hmap
    exact Option.some.inj hmap
  have howner : (share,q.2) ∈ (sharesOf rng ctx secret N M).zip passphrases :=
    mem_of_getElem? (getElem?_zip_eq_some.mpr ⟨hshare,hpass⟩)
  have hidx : (((sharesOf rng ctx secret N M).zip passphrases).map fun o => o.1.index).Nodup := by
    have hfst : ((sharesOf rng ctx secret N M).zip passphrases).map Prod.fst =
        sharesOf rng ctx secret N M := map_fst_zip (by omega)
    have hnodup := sharesOf_indices_nodup rng ctx secret N M
    rwa [← hfst,map_map] at hnodup
  obtain ⟨sp,hfind,hopen⟩ := find_seals hseals hidx howner
  refine ⟨share,mem_of_getElem? hshare,hindex,?_⟩
  rw [hindex] at hfind
  simp [verifyAndUnlockShare,hfind,hopen]

lemma mapM_unlock {shares : List ShamirShare} (unlock : UInt8 × Bytes → Result ShamirShare)
    {pairs : List (UInt8 × Bytes)}
    (h : ∀ q ∈ pairs, ∃ share ∈ shares, share.index = q.1 ∧ unlock q = .ok share) :
    ∃ chosen, pairs.mapM unlock = .ok chosen ∧ (∀ s ∈ chosen, s ∈ shares) ∧
      chosen.map ShamirShare.index = pairs.map Prod.fst := by
  induction pairs with
  | nil => exact ⟨[],rfl,by simp,rfl⟩
  | cons q pairs ih =>
    obtain ⟨share,hmem,hindex,hq⟩ := h q mem_cons_self
    obtain ⟨chosen,hchosen,hsub,hmap⟩ := ih (fun r hr => h r (mem_cons_of_mem _ hr))
    refine ⟨share::chosen,?_,?_,by simp [hindex,hmap]⟩
    · rw [mapM_cons,hq,hchosen]
      rfl
    · rintro s (_ | ⟨_,hs⟩)
      · exact hmem
      · exact hsub s hs

lemma create_ok {meshId : Bytes}
    (h : create gcm argon2 fuel meshId keypair M N params passphrases now rng ctx =
      some (.ok pkg,ctx')) : ∃ secret, seedOf keypair = .ok secret ∧ secret.length = 32 ∧ M ≠ 0 ∧
      passphrases.length = N.toNat ∧ pkg.threshold = M ∧
      pkg.rootPublicKey = bytesToHex keypair.publicKey ∧
      List.Forall₂ (Seals gcm argon2) ((sharesOf rng ctx secret N M).zip passphrases) pkg.shares := by
  unfold create at h
  split_ifs at h with hM hcount hmax
  · simp at h
  · simp at h
  · simp at h
  cases hseed : seedOf keypair with
  | error e => simp [hseed] at h
  | ok secret =>
    rw [hseed] at h
    obtain ⟨⟨r,ctx₁⟩,hsplit,hrest⟩ := Option.map_eq_some_iff.mp h
    cases r with
    | error e => simp at hrest
    | ok shares =>
      obtain ⟨hlen,hM0,-,-,rfl⟩ := shamirSplit_ok hsplit
      rcases hseal : sealShares gcm argon2 params rng
        ((sharesOf rng ctx secret N M).zip passphrases) ctx₁ with ⟨_ | packages,ctx₂⟩
      · simp [hseal] at hrest
      · simp only [hseal] at hrest
        obtain ⟨rfl,-⟩ := hrest
        refine ⟨secret,rfl,hlen,hM0,not_ne_iff.mp hcount,rfl,rfl,sealShares_seals ?_ hseal⟩
        exact fun o ho => (mem_sharesOf (of_mem_zip ho).1).1

/-- Any `M` or more shareholders of a created package recover the root key with their own
passphrases, in any order, and fewer passphrases never do. -/
theorem recover_create (fuel : ℕ) (meshId : Bytes) (keypair : UnlockedKeypair) (M N : UInt8)
    (params : Argon2idParams) (passphrases : List Bytes) (now : UInt64) (rng : RngRef σ)
    (ctx ctx' : σ) (pkg : RecoveryPackageV2) (keyPair : EddsaKeyPair) (seed : Bytes)
    (hcreate : create gcm argon2 fuel meshId keypair M N params passphrases now rng ctx =
      some (.ok pkg,ctx'))
    (hseed : seedOf keypair = .ok seed) (hkey : (keyPair seed).1.toList = keypair.publicKey)
    (pairs : List (UInt8 × Bytes)) (hdistinct : (pairs.map Prod.fst).Nodup)
    (hpairs : ∀ q ∈ pairs, 1 ≤ q.1 ∧ q.1 ≤ N ∧ passphrases[q.1.toNat-1]? = some q.2) :
    (M.toNat ≤ pairs.length → pkg.recover gcm argon2 keyPair pairs =
      .ok ⟨keypair.publicKey,(keyPair seed).2.toList⟩) ∧
    ∀ few : List (UInt8 × Bytes), few.length < M.toNat →
      ∃ e, pkg.recover gcm argon2 keyPair few = .error e := by
  obtain ⟨secret,hsecret,hlen,hM0,hcount,hM,hroot,hseals⟩ := create_ok hcreate
  obtain rfl : secret = seed := Except.ok.inj (hsecret.symm.trans hseed)
  constructor
  · intro henough
    obtain ⟨chosen,hchosen,hsub,hmap⟩ := mapM_unlock
      (fun q => pkg.verifyAndUnlockShare gcm argon2 q.1 q.2)
      (fun q hq => verifyAndUnlockShare_ok hcount hseals (hpairs q hq).1 (hpairs q hq).2.1
        (hpairs q hq).2.2)
    have hlength : chosen.length = pairs.length := by
      simpa using congrArg length hmap
    have hsecret : shamirRecover chosen M = .ok secret :=
      shamirRecover_sharesOf hlen hM0 hsub (hmap ▸ hdistinct) (hlength ▸ henough)
    rw [recover,hM,if_neg (by omega)]
    simp [hchosen,hsecret,hlen,deriveKeypairFromSeed,hkey,hroot,bind,Except.bind]
  · intro few hfew
    rw [recover,hM,if_pos hfew]
    exact ⟨_,rfl⟩

def plainGcm : Gcm where
  encrypt := fun _ _ _ plain => .ok (plain,List.replicate 16 0)
  decrypt := fun _ _ _ ct _ => .ok ct
  tag_length h := by
    cases h
    rfl
  decrypt_encrypt h := by
    cases h
    rfl

def sampleKeypair : UnlockedKeypair := ⟨List.replicate 32 9,List.replicate 32 7⟩

def sampleCreate : Option (Result RecoveryPackageV2 × Unit) :=
  create plainGcm (fun _ _ _ => List.Vector.replicate 32 5) 4 (text "mesh-1") sampleKeypair 2 3 {}
    [[1],[2],[3]] 0 (constRng 1) ()

lemma sampleCreate_ok : ∃ pkg, sampleCreate = some (.ok pkg,()) := by
  have hok : (sampleCreate.any fun r => r.1.isOk) = true := by decide +kernel
  cases hc : sampleCreate with
  | none => simp [hc] at hok
  | some r =>
    obtain ⟨_ | pkg,_⟩ := r
    · simp [hc,Except.toBool] at hok
    · exact ⟨pkg,rfl⟩

theorem recover_create_two_of_three : ∃ pkg, sampleCreate = some (.ok pkg,()) ∧
    pkg.recover plainGcm (fun _ _ _ => List.Vector.replicate 32 5)
      (fun _ => (List.Vector.replicate 32 9,List.Vector.replicate 64 8)) [(3,[3]),(1,[1])] =
      .ok ⟨List.replicate 32 9,List.replicate 64 8⟩ := by
  obtain ⟨pkg,hpkg⟩ := sampleCreate_ok
  exact ⟨pkg,hpkg,(recover_create 4 _ _ 2 3 _ _ _ _ _ _ pkg
    (fun _ => (List.Vector.replicate 32 9,List.Vector.replicate 64 8)) (replicate 32 7) hpkg
    rfl rfl [(3,[3]),(1,[1])] (by decide) (by decide)).1 (by decide)⟩

end RecoveryPackageV2

end SmoFramework.Genesis
