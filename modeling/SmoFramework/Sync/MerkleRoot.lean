import SmoFramework.Sync.MerkleTree

/-! The hashes of a Merkle tree (`MerkleTree::rebuild`). No function from all byte strings to 32 bytes is
injective, so a hash is asked to be so on the bytes that it is shown. -/
namespace SmoFramework.Sync
open List

/-- `std::memcpy` of at most 32 bytes over a hash. -/
def Hash.copy (h : Bytes) (old : Hash) : Hash :=
  ⟨h.take 32 ++ old.toList.drop (h.take 32).length,by simp⟩

lemma Hash.toList_copy (hlen : h.length = 32) (old : Hash) : (copy h old).toList = h := by
  have htake : h.take 32 = h := take_of_length_le hlen.le
  change h.take 32 ++ old.toList.drop (h.take 32).length = h
  rw [htake,hlen,drop_of_length_le old.toList_length.le,append_nil]

namespace MerkleNode

def rebuild (hash : Bytes → Bytes) (n : MerkleNode) : MerkleNode :=
  if n.data ≠ [] then { n with hash := Hash.copy (hash n.data) n.hash }
  else { n with hash := List.Vector.replicate 32 0, epoch := 0 }

end MerkleNode

namespace MerkleTree

def allHashes (buckets : List MerkleNode) : Bytes := buckets.flatMap fun b => b.hash.toList

def rebuild (hash : Bytes → Bytes) (t : MerkleTree) : MerkleTree :=
  let buckets := t.buckets.map (MerkleNode.rebuild hash)
  { t with buckets, rootHash := Hash.copy (hash (allHashes buckets)) t.rootHash }

/-- The bytes that are hashed to rebuild a tree. -/
def hashed (hash : Bytes → Bytes) (t : MerkleTree) : Set Bytes :=
  {data | data ≠ [] ∧ ∃ b ∈ t.buckets, b.data = data} ∪
    {allHashes (t.buckets.map (MerkleNode.rebuild hash))}

/-- On these bytes the hash has 32 bytes, no collision, and no hash that an empty bucket has. -/
structure Ideal (hash : Bytes → Bytes) (inputs : Set Bytes) : Prop where
  length : ∀ x ∈ inputs, (hash x).length = 32
  injective : Set.InjOn hash inputs
  nonzero : ∀ x ∈ inputs, hash x ≠ List.replicate 32 0

def bucketHash (hash : Bytes → Bytes) (data : Bytes) : Bytes :=
  if data ≠ [] then hash data else List.replicate 32 0

section
variable {hash : Bytes → Bytes} {inputs : Set Bytes}

lemma Ideal.toList_rebuild (h : Ideal hash inputs) {b : MerkleNode}
    (hb : b.data ≠ [] → b.data ∈ inputs) :
    (b.rebuild hash).hash.toList = bucketHash hash b.data := by
  unfold MerkleNode.rebuild bucketHash
  by_cases hdata : b.data ≠ []
  · rw [if_pos hdata,if_pos hdata]
    exact Hash.toList_copy (h.length _ (hb hdata)) _
  · rw [if_neg hdata,if_neg hdata]
    rfl

lemma Ideal.length_bucketHash (h : Ideal hash inputs)
    (hdata : data ≠ [] → data ∈ inputs) : (bucketHash hash data).length = 32 := by
  unfold bucketHash
  split_ifs with hne
  · exact h.length _ (hdata hne)
  · exact length_replicate

lemma Ideal.bucketHash_inj (h : Ideal hash inputs)
    (hdata : data ≠ [] → data ∈ inputs) (hdata' : data' ≠ [] → data' ∈ inputs)
    (heq : bucketHash hash data = bucketHash hash data') : data = data' := by
  unfold bucketHash at heq
  split_ifs at heq with hne hne' hne'
  · exact h.injective (hdata hne) (hdata' hne') heq
  · exact absurd heq (h.nonzero _ (hdata hne))
  · exact absurd heq.symm (h.nonzero _ (hdata' hne'))
  · rw [not_not.mp hne,not_not.mp hne']

lemma flatten_inj_of_length {blocks blocks' : List Bytes} (h : ∀ b ∈ blocks, b.length = 32)
    (h' : ∀ b ∈ blocks', b.length = 32) (heq : blocks.flatten = blocks'.flatten) : blocks = blocks' := by
  have hmap : ∀ {bs : List Bytes}, (∀ b ∈ bs, b.length = 32) →
      bs.map length = replicate bs.length 32 := fun hbs =>
    eq_replicate_iff.mpr ⟨length_map _,fun n hn => by
      obtain ⟨b,hb,rfl⟩ := mem_map.mp hn
      exact hbs b hb⟩
  have hcount := congrArg length heq
  rw [length_flatten,length_flatten,hmap h,hmap h',sum_replicate,sum_replicate] at hcount
  refine eq_iff_flatten_eq.mpr ⟨heq,?_⟩
  rw [hmap h,hmap h',Nat.eq_of_mul_eq_mul_right (by decide) hcount]

end

variable {hash : Bytes → Bytes} {t : MerkleTree}

lemma allHashes_rebuild (h : Ideal hash inputs) (ht : t.hashed hash ⊆ inputs) :
    allHashes (t.buckets.map (MerkleNode.rebuild hash)) =
      ((t.buckets.map MerkleNode.data).map (bucketHash hash)).flatten := by
  rw [allHashes,flatMap_map,map_map,flatMap_def]
  refine congrArg flatten (map_congr_left fun b hb => ?_)
  exact h.toList_rebuild fun hne => ht (Or.inl ⟨hne,b,hb,rfl⟩)

lemma data_rebuild (hash : Bytes → Bytes) (t : MerkleTree) :
    (t.rebuild hash).buckets.map MerkleNode.data = t.buckets.map MerkleNode.data := by
  change (t.buckets.map (MerkleNode.rebuild hash)).map MerkleNode.data = _
  rw [map_map]
  refine map_congr_left fun b _ => ?_
  change (b.rebuild hash).data = b.data
  unfold MerkleNode.rebuild
  split_ifs <;> rfl

lemma Ideal.data_eq (h : Ideal hash inputs)
    {datas datas' : List Bytes} (hd : ∀ d ∈ datas, d ≠ [] → d ∈ inputs)
    (hd' : ∀ d ∈ datas', d ≠ [] → d ∈ inputs)
    (heq : (datas.map (bucketHash hash)).flatten = (datas'.map (bucketHash hash)).flatten) :
    datas = datas' := by
  have hblocks : datas.map (bucketHash hash) = datas'.map (bucketHash hash) := by
    refine flatten_inj_of_length ?_ ?_ heq
    · rw [forall_mem_map]
      exact fun d hmem => h.length_bucketHash (hd d hmem)
    · rw [forall_mem_map]
      exact fun d hmem => h.length_bucketHash (hd' d hmem)
  clear heq
  induction datas generalizing datas' with
  | nil => exact (map_eq_nil_iff.mp hblocks.symm).symm
  | cons d datas ih =>
    cases datas' with
    | nil => cases hblocks
    | cons d' datas' =>
      obtain ⟨hd₀,hd⟩ := forall_mem_cons.mp hd
      obtain ⟨hd₀',hd'⟩ := forall_mem_cons.mp hd'
      obtain ⟨hfirst,hrest⟩ := cons.inj hblocks
      rw [h.bucketHash_inj hd₀ hd₀' hfirst,ih hd hd' hrest]

lemma data_rebuild_eq_iff (hash : Bytes → Bytes) (t t' : MerkleTree) :
    ((t.rebuild hash).buckets.length = (t'.rebuild hash).buckets.length ∧
      ∀ i : ℕ, ((t.rebuild hash).buckets[i]?).map MerkleNode.data =
        ((t'.rebuild hash).buckets[i]?).map MerkleNode.data) ↔
      t.buckets.map MerkleNode.data = t'.buckets.map MerkleNode.data := by
  rw [← data_rebuild hash t,← data_rebuild hash t']
  constructor
  · rintro ⟨-,hall⟩
    refine ext_getElem? fun i => ?_
    rw [getElem?_map,getElem?_map]
    exact hall i
  · intro heq
    refine ⟨by simpa using congrArg length heq,fun i => ?_⟩
    rw [← getElem?_map,← getElem?_map,heq]

lemma Ideal.toList_rootHash (h : Ideal hash inputs) (ht : t.hashed hash ⊆ inputs) :
    (t.rebuild hash).rootHash.toList =
      hash ((t.buckets.map MerkleNode.data).map (bucketHash hash)).flatten := by
  rw [← allHashes_rebuild h ht]
  exact Hash.toList_copy (h.length _ (ht (Or.inr rfl))) _

/-- With an ideal hash the roots of two rebuilt trees are equal exactly if the trees have as many
buckets and the same data in each of them. -/
theorem rebuild_rootHash_eq_iff (hash : Bytes → Bytes) (t t' : MerkleTree)
    (h : Ideal hash (t.hashed hash ∪ t'.hashed hash)) :
    (t.rebuild hash).rootHash = (t'.rebuild hash).rootHash ↔
      (t.rebuild hash).buckets.length = (t'.rebuild hash).buckets.length ∧
        ∀ i : ℕ, ((t.rebuild hash).buckets[i]?).map MerkleNode.data =
          ((t'.rebuild hash).buckets[i]?).map MerkleNode.data := by
  have hsub : t.hashed hash ⊆ t.hashed hash ∪ t'.hashed hash := Set.subset_union_left
  have hsub' : t'.hashed hash ⊆ t.hashed hash ∪ t'.hashed hash := Set.subset_union_right
  rw [data_rebuild_eq_iff,← List.Vector.toList_injective.eq_iff,h.toList_rootHash hsub,
    h.toList_rootHash hsub']
  constructor
  · intro hroot
    have hin := hsub (Or.inr rfl)
    have hin' := hsub' (Or.inr rfl)
    rw [allHashes_rebuild h hsub] at hin
    rw [allHashes_rebuild h hsub'] at hin'
    refine h.data_eq ?_ ?_ (h.injective hin hin' hroot)
    · rw [forall_mem_map]
      exact fun b hb hne => hsub (Or.inl ⟨hne,b,hb,rfl⟩)
    · rw [forall_mem_map]
      exact fun b hb hne => hsub' (Or.inl ⟨hne,b,hb,rfl⟩)
  · intro heq
    rw [heq]

def paddedHash (data : Bytes) : Bytes :=
  UInt8.ofNat data.length::(data ++ List.replicate 31 0).take 31

def oneBucket (data : Bytes) : MerkleTree := { id := ⟨1⟩, buckets := [{ data }] }

def oneBucketInputs : List Bytes :=
  [[1],allHashes ((oneBucket [1]).buckets.map (MerkleNode.rebuild paddedHash)),
  [2],allHashes ((oneBucket [2]).buckets.map (MerkleNode.rebuild paddedHash))]

lemma hashed_oneBucket (data : Bytes) : (oneBucket data).hashed paddedHash ⊆
    {data,allHashes ((oneBucket data).buckets.map (MerkleNode.rebuild paddedHash))} := by
  rintro x (⟨-,b,hb,rfl⟩ | hx)
  · rw [mem_singleton.mp hb]
    exact Or.inl rfl
  · exact Or.inr hx

lemma ideal_oneBucket : Ideal paddedHash
    ((oneBucket [1]).hashed paddedHash ∪ (oneBucket [2]).hashed paddedHash) := by
  have hmem : ∀ x ∈ (oneBucket [1]).hashed paddedHash ∪ (oneBucket [2]).hashed paddedHash,
      x ∈ oneBucketInputs := by
    rintro x (hx | hx)
    · rcases hashed_oneBucket [1] hx with rfl | rfl
      · exact mem_cons_self
      · exact mem_cons_of_mem _ mem_cons_self
    · rcases hashed_oneBucket [2] hx with rfl | rfl
      · exact mem_cons_of_mem _ (mem_cons_of_mem _ mem_cons_self)
      · exact mem_cons_of_mem _ (mem_cons_of_mem _ (mem_cons_of_mem _ mem_cons_self))
  have hlength : ∀ x ∈ oneBucketInputs, (paddedHash x).length = 32 := by decide +kernel
  have hinj : ∀ x ∈ oneBucketInputs, ∀ y ∈ oneBucketInputs, paddedHash x = paddedHash y → x = y := by
    decide +kernel
  have hnonzero : ∀ x ∈ oneBucketInputs, paddedHash x ≠ replicate 32 0 := by decide +kernel
  exact ⟨fun x hx => hlength x (hmem x hx),fun x hx y hy heq => hinj x (hmem x hx) y (hmem y hy) heq,
    fun x hx => hnonzero x (hmem x hx)⟩

/-- Another byte in the only bucket gives another root. -/
theorem rebuild_oneBucket_ne : ((oneBucket [1]).rebuild paddedHash).rootHash ≠
    ((oneBucket [2]).rebuild paddedHash).rootHash := by
  intro heq
  have hsame := (rebuild_rootHash_eq_iff paddedHash _ _ ideal_oneBucket).mp heq
  exact absurd (hsame.2 0) (by decide)

end MerkleTree
end SmoFramework.Sync
