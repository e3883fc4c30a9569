import SmoFramework.Sync.VersionVectorWire

/-! Merkle trees and their bytes (`MerkleNode`, `MerkleTree`). -/
namespace SmoFramework.Sync
open Library Library.LittleEndian List Reader VersionVector

abbrev Hash := List.Vector UInt8 32

structure MerkleNode where
  hash : Hash := List.Vector.replicate 32 0
  epoch : UInt64 := 0
  data : Bytes := []
  deriving DecidableEq

/-- `enum class TreeID : uint8_t`; a byte from the network is cast to it. -/
structure TreeID where
  val : UInt8
  deriving DecidableEq, Repr

structure MerkleTree where
  id : TreeID
  epoch : UInt64 := 0
  versionVector : VersionVector := {}
  rootHash : Hash := List.Vector.replicate 32 0
  buckets : List MerkleNode := []

namespace MerkleNode

def serialize (n : MerkleNode) : Bytes :=
  n.hash.toList ++ (put64 n.epoch ++ (put32 (UInt32.ofNat n.data.length) ++ n.data))

def read : Reader UInt8 Error MerkleNode := do
  let hash ← Reader.vector 32 (truncated "MerkleNode: truncated")
  let epoch ← word64 (truncated "MerkleNode: truncated")
  let data ← part (truncated "MerkleNode: truncated") (truncated "MerkleNode: data truncated")
  pure { hash, epoch, data }

def deserialize (data : Bytes) : Result MerkleNode := (read.run data).map Prod.fst

/-- What is left of a node after `std::move`: its vector is empty. -/
def movedFrom (n : MerkleNode) : MerkleNode := { n with data := [] }

end MerkleNode

namespace MerkleTree

def serialize (it : Iteration Bytes) (t : MerkleTree) : Bytes :=
  t.id.val::(put64 t.epoch ++ (put32 (UInt32.ofNat (t.versionVector.serialize it).length) ++
    (t.versionVector.serialize it ++ (t.rootHash.toList ++ (put32 (UInt32.ofNat t.buckets.length) ++
      t.buckets.flatMap MerkleNode.serialize)))))

/-- The size by which the position is advanced is taken from the bucket after it has been moved into
the tree. -/
def readBuckets : ℕ → Bytes → Result (List MerkleNode)
  | 0, _ => .ok []
  | n+1, data => do
    let bucket ← MerkleNode.deserialize data
    let buckets ← readBuckets n (data.drop (32+8+4+bucket.movedFrom.data.length))
    .ok (bucket::buckets)

def read : Reader UInt8 Error MerkleTree := do
  let id ← Reader.symbol (truncated "MerkleTree: truncated header")
  let epoch ← word64 (truncated "MerkleTree: truncated header")
  let vv ← part (truncated "MerkleTree: truncated header")
    (truncated "MerkleTree: version_vector truncated")
  let versionVector ← Reader.lift (VersionVector.deserialize vv)
  let rootHash ← Reader.vector 32 (truncated "MerkleTree: root_hash truncated")
  let bcount ← word32 (truncated "MerkleTree: root_hash truncated")
  let rest ← get
  let buckets ← Reader.lift (readBuckets bcount.toNat rest)
  pure { id := ⟨id⟩, epoch, versionVector, rootHash, buckets }

def deserialize (data : Bytes) : Result MerkleTree := (read.run data).map Prod.fst

/-- The same tree, with its buckets, which `operator==` does not compare. -/
def Same (t t' : MerkleTree) : Prop :=
  t.id = t'.id ∧ t.epoch = t'.epoch ∧ t.versionVector.eq t'.versionVector = true ∧
    t.rootHash = t'.rootHash ∧ t.buckets = t'.buckets

end MerkleTree

/-! Buckets. -/

namespace MerkleNode

lemma length_serialize (n : MerkleNode) : n.serialize.length = 44+n.data.length := by
  have hhash : n.hash.toList.length = 32 := n.hash.toList_length
  simp only [serialize,length_append,hhash,length_put64,length_put32]
  omega

lemma deserialize_eq_ok {data : Bytes} :
    deserialize data = .ok n ↔ n.data.length < 2^32 ∧ n.serialize <+: data := by
  rw [deserialize,map_fst_eq_ok]
  simp only [read,run_bind_eq_ok,run_vector_eq_ok,run_word64_eq_ok,run_part_eq_ok,run_pure_eq_ok]
  constructor
  · rintro ⟨_,hash,_,rfl,epoch,_,rfl,bytes,rest,⟨hlen,rfl⟩,rfl,rfl⟩
    exact ⟨hlen,rest,by simp only [serialize,append_assoc]⟩
  · rintro ⟨hlen,rest,rfl⟩
    exact ⟨rest,n.hash,_,append_assoc _ _ _,n.epoch,_,append_assoc _ _ _,n.data,rest,
      ⟨hlen,append_assoc _ _ _⟩,rfl,rfl⟩

end MerkleNode

namespace MerkleTree

/-- Every bucket stands where the loop looks for it, 44 bytes behind the one before. -/
def Aligned (buckets : List MerkleNode) (data : Bytes) : Prop :=
  ∀ i b, buckets[i]? = some b → b.serialize <+: data.drop (44*i)

variable {bs : List MerkleNode} {data : Bytes}

lemma aligned_cons :
    Aligned (b::bs) data ↔ b.serialize <+: data ∧ Aligned bs (data.drop 44) := by
  constructor
  · intro h
    refine ⟨h 0 b rfl,fun i c hc => ?_⟩
    have hnext := h (i+1) c hc
    rwa [Nat.mul_succ,Nat.add_comm,← drop_drop] at hnext
  · rintro ⟨hb,hbs⟩ i c hc
    cases i with
    | zero =>
      cases hc
      exact hb
    | succ i =>
      rw [Nat.mul_succ,Nat.add_comm,← drop_drop]
      exact hbs i c hc

lemma length_readBuckets (h : readBuckets n data = .ok bs) : bs.length = n := by
  induction n generalizing data bs with
  | zero =>
    cases h
    rfl
  | succ n ih =>
    obtain ⟨b,-,h⟩ := bind_eq_ok.mp h
    obtain ⟨bs',hrest,h⟩ := bind_eq_ok.mp h
    cases h
    exact congrArg (·+1) (ih hrest)

lemma readBuckets_eq_ok (h : ∀ b ∈ bs, b.data.length < 2^32) :
    readBuckets bs.length data = .ok bs ↔ Aligned bs data := by
  induction bs generalizing data with
  | nil => exact iff_of_true rfl (by rintro i b ⟨⟩)
  | cons b bs ih =>
    obtain ⟨hb,hbs⟩ := forall_mem_cons.mp h
    rw [aligned_cons,← ih hbs]
    constructor
    · intro hread
      obtain ⟨b',hnode,hread⟩ := bind_eq_ok.mp hread
      obtain ⟨bs',hrest,hread⟩ := bind_eq_ok.mp hread
      cases hread
      exact ⟨(MerkleNode.deserialize_eq_ok.mp hnode).2,hrest⟩
    · rintro ⟨hnode,hrest⟩
      exact bind_eq_ok.mpr ⟨b,MerkleNode.deserialize_eq_ok.mpr ⟨hb,hnode⟩,
        bind_eq_ok.mpr ⟨bs,hrest,rfl⟩⟩

lemma aligned_of_last (h : ∀ b ∈ bs, b.data = []) (last : MerkleNode) :
    Aligned (bs ++ [last]) ((bs ++ [last]).flatMap MerkleNode.serialize) := by
  induction bs with
  | nil =>
    rw [nil_append,aligned_cons]
    exact ⟨prefix_append _ _,by rintro i b ⟨⟩⟩
  | cons b bs ih =>
    obtain ⟨hb,hbs⟩ := forall_mem_cons.mp h
    have hlen : b.serialize.length = 44 := by rw [b.length_serialize,hb]; rfl
    rw [cons_append,flatMap_cons,aligned_cons,drop_left' hlen]
    exact ⟨prefix_append _ _,ih hbs⟩

/-! Trees. -/

lemma deserialize_eq_ok : deserialize data = .ok t ↔
    ∃ (vv rest : Bytes) (bcount : UInt32), vv.length < 2^32 ∧
      data = t.id.val::(put64 t.epoch ++ (put32 (UInt32.ofNat vv.length) ++ (vv ++
        (t.rootHash.toList ++ (put32 bcount ++ rest))))) ∧
      VersionVector.deserialize vv = .ok t.versionVector ∧
      readBuckets bcount.toNat rest = .ok t.buckets := by
  rw [deserialize,map_fst_eq_ok]
  simp only [read,run_bind_eq_ok,run_symbol_eq_ok,run_word64_eq_ok,run_word32_eq_ok,
    run_part_eq_ok,run_vector_eq_ok,run_lift_eq_ok,run_get_eq_ok,
    run_pure_eq_ok]
  constructor
  · rintro ⟨_,id,_,rfl,epoch,_,rfl,vv,_,⟨hlen,rfl⟩,versionVector,_,⟨hvv,rfl⟩,rootHash,_,rfl,bcount,_,
      rfl,rest,_,⟨rfl,rfl⟩,buckets,_,⟨hbuckets,rfl⟩,rfl,rfl⟩
    exact ⟨vv,_,bcount,hlen,rfl,hvv,hbuckets⟩
  · rintro ⟨vv,rest,bcount,hlen,rfl,hvv,hbuckets⟩
    exact ⟨rest,t.id.val,_,rfl,t.epoch,_,rfl,vv,_,⟨hlen,rfl⟩,t.versionVector,_,⟨hvv,rfl⟩,t.rootHash,_,
      rfl,bcount,_,rfl,rest,_,⟨rfl,rfl⟩,t.buckets,_,⟨hbuckets,rfl⟩,rfl,rfl⟩

lemma size_of_same {t t' : MerkleTree} (h : t.Same t') (it : Iteration Bytes) :
    (t.versionVector.serialize it).length = (t'.versionVector.serialize it).length := by
  rw [length_serialize,length_serialize]
  have hdots := (AssocMap.equal_iff _ _).mp h.2.2.1
  exact congrArg (4+·) ((AssocMap.perm_of_find_eq hdots).map _).sum_eq

/-- A tree comes back from its bytes exactly if its version vector and the number of its buckets fit
their four bytes, and if every bucket stands where the loop looks for it. -/
theorem roundTrip_iff (it : Iteration Bytes) (t : MerkleTree)
    (hdata : ∀ b ∈ t.buckets, b.data.length < 2^32) :
    (∃ t', deserialize (t.serialize it) = .ok t' ∧ t'.Same t) ↔
      (t.versionVector.serialize it).length < 2^32 ∧ t.buckets.length < 2^32 ∧
        Aligned t.buckets (t.buckets.flatMap MerkleNode.serialize) := by
  constructor
  · rintro ⟨t',hread,hsame⟩
    obtain ⟨vv,rest,bcount,hlen,hbytes,hvv,hbuckets⟩ := deserialize_eq_ok.mp hread
    -- The version vector that was read is no longer than the bytes it was read from.
    have hsize := size_deserialize_le hvv
    rw [← length_serialize it,size_of_same hsame] at hsize
    obtain ⟨-,hbytes⟩ := cons.inj hbytes
    obtain ⟨-,hbytes⟩ := append_inj hbytes (by simp)
    obtain ⟨hvvLen,hbytes⟩ := append_inj hbytes (by simp)
    have hmod := congrArg UInt32.toNat (put32_inj.mp hvvLen)
    rw [UInt32.toNat_ofNat',UInt32.toNat_ofNat_of_lt' hlen] at hmod
    have hfits : (t.versionVector.serialize it).length = vv.length := by omega
    obtain ⟨-,hbytes⟩ := append_inj hbytes hfits
    obtain ⟨-,hbytes⟩ := append_inj hbytes (by simp)
    obtain ⟨hbcount,hrest⟩ := append_inj hbytes (by simp)
    have hcount := length_readBuckets hbuckets
    rw [hsame.2.2.2.2] at hcount hbuckets
    rw [← hcount,← hrest] at hbuckets
    exact ⟨hfits.trans_lt hlen,hcount.trans_lt bcount.toNat_lt,(readBuckets_eq_ok hdata).mp hbuckets⟩
  · rintro ⟨hvv,hcount,haligned⟩
    obtain ⟨vv,hread,hdots⟩ := deserialize_serialize hvv
    refine ⟨{ t with versionVector := vv },deserialize_eq_ok.mpr ⟨_,_,UInt32.ofNat t.buckets.length,
      hvv,rfl,hread,?_⟩,rfl,rfl,hdots,rfl,rfl⟩
    rw [UInt32.toNat_ofNat_of_lt' hcount]
    exact (readBuckets_eq_ok hdata).mpr haligned

def lastFilled : MerkleTree :=
  { id := ⟨1⟩, epoch := 7, buckets := [{ epoch := 5 },{ epoch := 6, data := [1,2] }] }

theorem roundTrip_lastFilled :
    ∃ t', deserialize (lastFilled.serialize default) = .ok t' ∧ t'.Same lastFilled :=
  (roundTrip_iff default lastFilled (by decide)).mpr ⟨by decide +kernel,by decide,
    show Aligned ([{ epoch := 5 }] ++ [{ epoch := 6, data := [1,2] }]) _ from
      aligned_of_last (by decide) _⟩

/-- The second bucket is read one byte too early and comes back with another hash. -/
def firstFilled (epoch : UInt64) : MerkleTree :=
  { id := ⟨1⟩, buckets := [{ data := [1] },{ epoch }] }

def shiftedHash : Hash := ⟨1::List.replicate 31 0,rfl⟩

theorem bucket_read_early :
    (deserialize ((firstFilled 0).serialize default)).map MerkleTree.buckets =
      .ok [{ data := [1] },{ hash := shiftedHash }] ∧
    (deserialize ((firstFilled 0x8000000000000000).serialize default)).map MerkleTree.buckets =
      .error (truncated "MerkleNode: data truncated") := by
  constructor <;> decide +kernel

end MerkleTree
end SmoFramework.Sync
