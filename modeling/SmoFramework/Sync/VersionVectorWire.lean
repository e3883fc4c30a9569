import SmoFramework.Library.CheckedReader
import SmoFramework.Library.LittleEndian
import SmoFramework.Sync.VersionVector

/-! The bytes of a version vector (`VersionVector::serialize`, `deserialize`). Integers are copied to the
wire as they lie in memory, lowest byte first. The compaction mode is not sent. -/
namespace SmoFramework.Sync
open Library Library.LittleEndian List AssocMap

def truncated (message : String) : Error := smoErr .sync 1 .error .noRetry .none message

namespace VersionVector

def writeDot (dot : Bytes × UInt64) : Bytes :=
  put32 (UInt32.ofNat dot.1.length) ++ (dot.1 ++ put64 dot.2)

variable (it : Iteration Bytes)

def serialize (vv : VersionVector) : Bytes :=
  put32 (UInt32.ofNat vv.dots.entries.length) ++ (it.list vv.dots.entries).flatMap writeDot

def readDot : Reader UInt8 Error (Bytes × UInt64) := do
  let nid ← part (truncated "VersionVector: truncated node_id length")
    (truncated "VersionVector: truncated node_id or epoch")
  let ep ← word64 (truncated "VersionVector: truncated node_id or epoch")
  pure (nid,ep)

/-- The loop over the dots; one that comes again overwrites the one before. -/
def readDots : ℕ → AssocMap Bytes UInt64 → Reader UInt8 Error (AssocMap Bytes UInt64)
  | 0, dots => pure dots
  | n+1, dots => do
    let dot ← readDot
    readDots n (dots.insert dot.1 dot.2)

def read : Reader UInt8 Error VersionVector := do
  let count ← word32 (truncated "VersionVector: truncated header")
  let dots ← readDots count.toNat AssocMap.empty
  pure { dots }

def deserialize (data : Bytes) : Result VersionVector := (read.run data).map Prod.fst

/-! The size of the bytes. -/

variable (dots : List (Bytes × UInt64))

def size : ℕ := (dots.map fun dot => 12+dot.1.length).sum

lemma length_writeDot (dot : Bytes × UInt64) : (writeDot dot).length = 12+dot.1.length := by
  simp only [writeDot,length_append,length_put32,length_put64]
  omega

lemma length_flatMap_writeDot :
    (dots.flatMap writeDot).length = size dots := by
  rw [length_flatMap]
  exact congrArg sum (map_congr_left fun dot _ => length_writeDot dot)

lemma length_serialize (vv : VersionVector) :
    (vv.serialize it).length = 4+size vv.dots.entries := by
  rw [serialize,length_append,length_put32,length_flatMap_writeDot]
  exact congrArg (4+·) ((it.perm vv.dots.entries).map _).sum_eq

lemma size_insertIn_le (k : Bytes) (v : UInt64) (dots : List (Bytes × UInt64)) :
    size (AssocMap.insertIn k v dots) ≤ size dots+(12+k.length) := by
  induction dots with
  | nil => exact Nat.le_of_eq (Nat.add_comm _ _)
  | cons dot dots ih =>
    unfold insertIn
    split_ifs with hk
    · subst hk
      exact Nat.le_add_right _ _
    · change 12+dot.1.length+size _ ≤ 12+dot.1.length+size dots+_
      omega

lemma run_readDot_eq_ok :
    readDot.run data = .ok (dot,rest) ↔ dot.1.length < 2^32 ∧ data = writeDot dot ++ rest := by
  simp only [readDot,Reader.run_bind_eq_ok,run_part_eq_ok,run_word64_eq_ok,Reader.run_pure_eq_ok,
    writeDot,append_assoc]
  constructor
  · rintro ⟨nid,_,⟨hlen,rfl⟩,ep,_,rfl,rfl,rfl⟩
    exact ⟨hlen,rfl⟩
  · rintro ⟨hlen,rfl⟩
    exact ⟨dot.1,_,⟨hlen,rfl⟩,dot.2,rest,rfl,rfl,rfl⟩

lemma size_readDots_le {dots dots' : AssocMap Bytes UInt64}
    (h : (readDots n dots).run data = .ok (dots',rest)) :
    size dots'.entries+rest.length ≤ size dots.entries+data.length := by
  induction n generalizing dots data with
  | zero =>
    obtain ⟨rfl,rfl⟩ := Reader.run_pure_eq_ok.mp h
    exact Nat.le_refl _
  | succ n ih =>
    obtain ⟨dot,mid,hdot,hrest⟩ := Reader.run_bind_eq_ok.mp h
    obtain ⟨-,rfl⟩ := run_readDot_eq_ok.mp hdot
    have hinsert : size (dots.insert dot.1 dot.2).entries ≤ _ := size_insertIn_le _ _ _
    have hle := ih hrest
    rw [length_append,length_writeDot]
    omega

lemma size_deserialize_le (h : deserialize data = .ok vv) :
    4+size vv.dots.entries ≤ data.length := by
  obtain ⟨_,hread⟩ := Reader.map_fst_eq_ok.mp h
  obtain ⟨count,mid,hcount,hread⟩ := Reader.run_bind_eq_ok.mp hread
  obtain ⟨dots,rest,hdots,hread⟩ := Reader.run_bind_eq_ok.mp hread
  obtain ⟨rfl,-⟩ := Reader.run_pure_eq_ok.mp hread
  have hle : size dots.entries+rest.length ≤ 0+mid.length := size_readDots_le hdots
  rw [run_word32_eq_ok.mp hcount,length_append,length_put32]
  dsimp only
  omega

/-! What was written is read. -/

lemma reads_readDots {dots : List (Bytes × UInt64)} (h : ∀ dot ∈ dots, dot.1.length < 2^32)
    (m : AssocMap Bytes UInt64) : Reader.Reads (readDots dots.length m) (dots.flatMap writeDot)
      (dots.foldl (fun m dot => m.insert dot.1 dot.2) m) := by
  induction dots generalizing m with
  | nil => exact Reader.Reads.pure m
  | cons dot dots ih =>
    obtain ⟨hdot,hdots⟩ := forall_mem_cons.mp h
    have hread : Reader.Reads readDot (writeDot dot) dot :=
      fun rest => run_readDot_eq_ok.mpr ⟨hdot,rfl⟩
    exact hread.bind (ih hdots _)

lemma length_le_size {dots : List (Bytes × UInt64)} (h : dot ∈ dots) :
    dot.1.length ≤ size dots := by
  have hle := (sublist_flatten_of_mem (mem_map_of_mem (f := writeDot) h)).length_le
  rw [← flatMap_def,length_flatMap_writeDot,length_writeDot] at hle
  omega

lemma count_le_size : dots.length ≤ size dots := by
  induction dots with
  | nil => exact Nat.zero_le _
  | cons dot dots ih =>
    change dots.length+1 ≤ 12+dot.1.length+size dots
    omega

lemma reads_serialize {vv : VersionVector} (hcount : vv.dots.entries.length < 2^32)
    (hids : ∀ dot ∈ vv.dots.entries, dot.1.length < 2^32) (it : Iteration Bytes) :
    ∃ vv', Reader.Reads read (vv.serialize it) vv' ∧ ∀ id, vv'.dots.find id = vv.dots.find id := by
  have hperm := it.perm vv.dots.entries
  have hv : (UInt32.ofNat vv.dots.entries.length).toNat = (it.list vv.dots.entries).length :=
    (UInt32.toNat_ofNat_of_lt' hcount).trans hperm.length_eq.symm
  have hread : Reader.Reads read (vv.serialize it) _ :=
    (reads_word32 _ _).bind (by
      rw [hv]
      exact (reads_readDots (fun dot hdot => hids dot (hperm.mem_iff.mp hdot)) .empty).bind_pure)
  refine ⟨_,hread,fun id => ?_⟩
  have hnodup := (hperm.map Prod.fst).nodup_iff.mpr vv.dots.nodup
  have hfind := find_foldl_insert (fun v => v) hnodup empty id
  rw [Option.map_id',findIn_perm hperm vv.dots.nodup] at hfind
  exact hfind.trans Option.or_none

lemma deserialize_serialize {it : Iteration Bytes} (h : (vv.serialize it).length < 2^32) :
    ∃ vv', deserialize (vv.serialize it) = .ok vv' ∧ vv'.eq vv = true := by
  have hlen := length_serialize it vv
  have hcount := count_le_size vv.dots.entries
  have hids : ∀ dot ∈ vv.dots.entries, dot.1.length < 2^32 := by
    intro dot hdot
    have hle := length_le_size hdot
    omega
  obtain ⟨vv',hread,hsame⟩ := reads_serialize (by omega) hids it
  exact ⟨vv',hread.whole,(equal_iff _ _).mpr hsame⟩

lemma stable_read : Reader.Stable read := by
  have hword (e : Error) : Reader.Stable (word32 e) := (Reader.Stable.vector 4 e).bind fun _ => .pure _
  have hdot : Reader.Stable readDot :=
    (Reader.Stable.sized (hword _) _).bind fun _ =>
      ((Reader.Stable.vector 8 _).bind fun _ => .pure _).bind fun _ => .pure _
  have hdots (n : ℕ) (m : AssocMap Bytes UInt64) : Reader.Stable (readDots n m) := by
    induction n generalizing m with
    | zero => exact .pure m
    | succ n ih => exact hdot.bind fun _ => ih _
  exact (hword _).bind fun count => (hdots count.toNat _).bind fun _ => .pure _

end VersionVector

/-! Which bytes are looked at: the same reader with a position, every access checked. -/

namespace VersionVectorAccess
open Cursor
variable (data : Bytes) (e : Error)

def readU32 : Checked Error UInt32 := do
  let bytes ← part data 4 e
  pure (get32 bytes)

/-- The id and the epoch, behind one test for both. -/
def readEntry (nlen : UInt32) (e : Error) : Checked Error (Bytes × UInt64) := do
  let pos ← get
  if pos+nlen.toNat+8 > data.length then throw (.failed e)
  else
    let nid ← slice data pos nlen.toNat
    let ep ← slice data (pos+nlen.toNat) 8
    set (pos+nlen.toNat+8)
    pure (nid,get64 ep)

def readDot : Checked Error (Bytes × UInt64) := do
  let nlen ← readU32 data (truncated "VersionVector: truncated node_id length")
  readEntry data nlen (truncated "VersionVector: truncated node_id or epoch")

def readDots : ℕ → AssocMap Bytes UInt64 → Checked Error (AssocMap Bytes UInt64)
  | 0, dots => pure dots
  | n+1, dots => do
    let dot ← readDot data
    readDots n (dots.insert dot.1 dot.2)

def read : Checked Error VersionVector := do
  let count ← readU32 data (truncated "VersionVector: truncated header")
  let dots ← readDots data count.toNat AssocMap.empty
  pure { dots }

variable {data}

lemma follows_readU32 : Follows data (readU32 data e) (word32 e) :=
  .part e fun _ => .pure _

lemma follows_readEntry (nlen : UInt32) (e : Error) : Follows data (readEntry data nlen e) (do
    let nid ← Reader.vector nlen.toNat e
    let ep ← word64 e
    pure (nid.toList,ep)) := by
  have hparts : readEntry data nlen e = (do
      let nid ← part data nlen.toNat e
      let ep ← part data 8 e
      pure (nid,get64 ep)) := by
    funext pos
    change (if _ then _ else _ : Checked Error (Bytes × UInt64)) pos = StateT.run (_ >>= _) pos
    rw [StateT.run_bind]
    by_cases hid : pos+nlen.toNat ≤ data.length
    · rw [run_part hid]
      change _ = StateT.run (part data 8 e >>= fun ep => pure (_,get64 ep)) (pos+nlen.toNat)
      rw [StateT.run_bind]
      by_cases hboth : pos+nlen.toNat+8 ≤ data.length
      · rw [run_part hboth,if_neg (not_lt.mpr hboth),slice,if_pos hid,slice,if_pos hboth]
        rfl
      · rw [run_part_eq_failed hboth,if_pos (not_le.mp hboth)]
        rfl
    · rw [run_part_eq_failed hid,if_pos (by omega)]
      rfl
  rw [hparts]
  exact .part e fun _ => by
    rw [word64,bind_assoc]
    exact .part e fun _ => .pure _

lemma follows_readDot : Follows data (readDot data) VersionVector.readDot := by
  have hread : VersionVector.readDot = (do
      let nlen ← word32 (truncated "VersionVector: truncated node_id length")
      let nid ← Reader.vector nlen.toNat (truncated "VersionVector: truncated node_id or epoch")
      let ep ← word64 (truncated "VersionVector: truncated node_id or epoch")
      pure (nid.toList,ep)) := by
    simp only [VersionVector.readDot,LittleEndian.part,Reader.sized,bind_assoc,pure_bind]
  rw [hread]
  exact (follows_readU32 _).bind fun nlen => follows_readEntry nlen _

lemma follows_readDots (n : ℕ) (m : AssocMap Bytes UInt64) :
    Follows data (readDots data n m) (VersionVector.readDots n m) := by
  induction n generalizing m with
  | zero => exact .pure m
  | succ n ih => exact follows_readDot.bind fun _ => ih _

lemma follows_read : Follows data (read data) VersionVector.read :=
  (follows_readU32 _).bind fun _ => (follows_readDots _ _).bind fun _ => .pure _

end VersionVectorAccess

/-- Vectors with few and short enough ids come back whatever the order of the map, no part of their
bytes is accepted, and on no bytes at all does the reader look outside of them. -/
theorem VersionVector.serialize_round_trip (vv : VersionVector) (hcount : vv.dots.entries.length < 2^32)
    (hids : ∀ dot ∈ vv.dots.entries, dot.1.length < 2^32) (it : Iteration Bytes) :
    (∃ vv', deserialize (vv.serialize it) = .ok vv' ∧ ∀ id, vv'.dots.find id = vv.dots.find id) ∧
    (∀ part, part <+: vv.serialize it → part ≠ vv.serialize it → ∃ e, deserialize part = .error e) ∧
    ∀ data, Cursor.Inside VersionVectorAccess.read data ∧
      (VersionVectorAccess.read data).run' 0 = (deserialize data).mapError Cursor.Fault.failed := by
  obtain ⟨vv',hread,hsame⟩ := reads_serialize hcount hids it
  refine ⟨⟨vv',hread.whole,hsame⟩,?_,fun data => ⟨?_,VersionVectorAccess.follows_read.run'⟩⟩
  · rintro part ⟨tail,htail⟩ hcut
    rw [← htail] at hread hcut
    obtain ⟨e,he⟩ := stable_read.fails_on_part hread fun hnil => hcut (by rw [hnil,append_nil])
    exact ⟨e,by rw [deserialize,he]; rfl⟩
  · exact (Cursor.SafeOn.of_follows (fun _ => VersionVectorAccess.follows_read) stable_read data).1

theorem VersionVector.serialize_round_trip_two : let vv := set (set {} [7] 3) [8,9] 4
    (∃ vv', deserialize (vv.serialize default) = .ok vv' ∧ ∀ id, vv'.dots.find id = vv.dots.find id) ∧
    ∀ part, part <+: vv.serialize default → part ≠ vv.serialize default →
      ∃ e, deserialize part = .error e := by
  intro vv
  have h := serialize_round_trip vv (by decide) (by decide) default
  exact ⟨h.1,h.2.1⟩

end SmoFramework.Sync
