import SmoFramework.Certificate.Codec

/-! Certificate signing requests (`core/certificate`): their bytes and the check of their
signature. -/
namespace SmoFramework
open Library

/-- The functions of a crypto suite that enrollment calls; `sign` takes the random bytes it draws.
-/
structure CryptoProvider where
  verify : Bytes → Bytes → Bytes → Result Bool
  sign : ℕ → Bytes → Bytes → Result Bytes
  hash : Bytes → Result Bytes

structure KeypairResult where
  publicKey : Bytes
  secretKey : Bytes
  deriving DecidableEq, Repr

structure CertificateSigningRequest where
  newPublicKey : Bytes := []
  meshId : Bytes := []
  oldCertHash : Bytes := []
  displayName : Bytes := []
  platform : Bytes := []
  version : Bytes := []
  timestamp : Int64 := 0
  signature : Bytes := []
  deriving DecidableEq, Repr

namespace CertificateSigningRequest
open Certificate (appendBytes appendU64 readBytes readU64)

def serializeBody (csr : CertificateSigningRequest) : Bytes :=
  appendBytes csr.newPublicKey ++ (appendBytes csr.meshId ++ (appendBytes csr.oldCertHash ++
    (appendBytes csr.displayName ++ (appendBytes csr.platform ++ (appendBytes csr.version ++
      appendU64 csr.timestamp.toUInt64)))))

def serialize (csr : CertificateSigningRequest) : Bytes :=
  csr.serializeBody ++ appendBytes csr.signature

def malformedRequest (field : String) : Error :=
  smoErrCert 209 .alert .noRetry .none ("failed to parse CSR " ++ field)

def readRequest : Reader UInt8 Error CertificateSigningRequest := do
  let newPublicKey ← readBytes (malformedRequest "new_public_key")
  let meshId ← readBytes (malformedRequest "mesh_id")
  let oldCertHash ← readBytes (malformedRequest "old_cert_hash")
  let displayName ← readBytes (malformedRequest "display_name")
  let platform ← readBytes (malformedRequest "platform")
  let version ← readBytes (malformedRequest "version")
  let timestamp ← readU64 (malformedRequest "timestamp")
  let signature ← readBytes (malformedRequest "signature")
  pure { newPublicKey, meshId, oldCertHash, displayName, platform, version,
         timestamp := timestamp.toInt64, signature }

/-- `deserialize`: what follows the signature is ignored. -/
def deserialize (data : Bytes) : Result CertificateSigningRequest := do
  let (csr,_) ← readRequest.run data
  pure csr

def verify (crypto : CryptoProvider) (signerPubkey : Bytes) (csr : CertificateSigningRequest) :
    Result Bool :=
  if csr.signature = [] then .error (smoErrCert 209 .alert .noRetry .none "CSR has no signature")
  else crypto.verify csr.serializeBody csr.signature signerPubkey

end CertificateSigningRequest
end SmoFramework
