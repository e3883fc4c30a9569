import SmoFramework.Compiler.WasmEmitter

/-! The numbers that the emitter writes, read by the rules of the format for 64 bits. -/
namespace SmoFramework.Compiler
open Library Library.Attempt Library.Leb128 Library.Reader

lemma low7_eq (v : Int64) : v.toUInt64.toUInt8 &&& 0x7F = UInt8.ofNat (v.toInt % 128).toNat := by
  have hwrap : v.toInt = v.toUInt64.toNat ∨ v.toInt = v.toUInt64.toNat-2^64 := by
    have hcond : v.toInt = _ := BitVec.toInt_eq_toNat_cond v.toBitVec
    rw [hcond]
    split_ifs
    · exact .inl rfl
    · exact .inr rfl
  have hlow : (v.toInt % 128).toNat = v.toUInt64.toNat % 128 := by omega
  apply UInt8.toNat_inj.mp
  rw [UInt8.toNat_and,UInt64.toNat_toUInt8,UInt8.toNat_ofNat']
  change _ &&& 2^7-1 = _
  rw [Nat.and_two_pow_sub_one_eq_mod]
  omega

lemma toInt_shiftRight7 (v : Int64) : (v >>> 7).toInt = v.toInt/128 := by
  change (v.toBitVec.sshiftRight 7).toInt = _
  rw [BitVec.toInt_sshiftRight,Int.shiftRight_eq_div_pow]
  rfl

lemma group_bits : ∀ k < 128, (UInt8.ofNat k &&& 0x40 ≠ 0 ↔ 64 ≤ k) ∧
    UInt8.ofNat k ||| 0x80 = UInt8.ofNat (k+128) := by decide +kernel

theorem sleb128Groups_eq (n : ℕ) (v : Int64) : sleb128Groups n v = signed.groups n v.toInt := by
  induction n generalizing v with
  | zero => rfl
  | succ n ih =>
    obtain ⟨hsign,hmore⟩ := group_bits (v.toInt % 128).toNat (by omega)
    have hzero : v >>> 7 = 0 ↔ v.toInt/128 = 0 := by
      rw [← Int64.toInt_inj,toInt_shiftRight7]
      rfl
    have hminus : v >>> 7 = -1 ↔ v.toInt/128 = -1 := by
      rw [← Int64.toInt_inj,toInt_shiftRight7]
      rfl
    have hstop : (v >>> 7 = 0 ∧ ¬UInt8.ofNat (v.toInt % 128).toNat &&& 0x40 ≠ 0) ∨
        (v >>> 7 = -1 ∧ UInt8.ofNat (v.toInt % 128).toNat &&& 0x40 ≠ 0) ↔
          signed.value (v.toInt % 128).toNat = v.toInt := by
      rw [hsign,hzero,hminus]
      simp only [signed]
      split_ifs <;> omega
    rw [sleb128Groups,low7_eq,hmore,ih,toInt_shiftRight7]
    exact if_congr hstop rfl rfl

/-- A word that is read as the number whatever follows, and no word that is read so is shorter. -/
def Shortest (f : Form) (word : Bytes) (n : ℤ) : Prop :=
  Reads (f.read () 64 : Reader UInt8 Unit ℤ) word n ∧
    ∀ other, Reads (f.read () 64 : Reader UInt8 Unit ℤ) other n → word.length ≤ other.length

lemma shortest_groups {f : Form} {n : ℤ} (h : f.Fits 64 n) : Shortest f (f.groups 10 n) n := by
  refine ⟨Form.reads_groups h (by decide) (by decide),fun other hother => ?_⟩
  have hread := hother []
  rw [List.append_nil] at hread
  exact Form.length_groups_le_of_read hread

/-- Every number is written as the shortest word for it, which has at most ten bytes. -/
theorem numbers_written_shortest (s : WasmEmitter) :
    (∀ v : UInt64, ∃ word : Bytes, word.length ≤ 10 ∧ Shortest unsigned word v.toNat ∧
      Returns (writeUleb128 v.toNat) s () { s with binary := s.binary ++ word }) ∧
    ∀ v : Int64, ∃ word : Bytes, word.length ≤ 10 ∧ Shortest signed word v.toInt ∧
      Returns (writeSleb128 v) s () { s with binary := s.binary ++ word } := by
  constructor
  · intro v
    have hlt := v.toNat_lt
    refine ⟨_,Form.length_groups_le,shortest_groups (f := unsigned) (n := v.toNat) ?_,?_⟩
    · exact ⟨Int.natCast_nonneg _,by exact_mod_cast hlt⟩
    · rw [← groups_eq_unsigned (Nat.lt_succ_self v.toNat) (by omega)]
      exact returns_update.mpr rfl
  · intro v
    refine ⟨_,Form.length_groups_le,shortest_groups (f := signed) ?_,?_⟩
    · exact ⟨v.le_toInt,v.toInt_lt⟩
    · rw [← sleb128Groups_eq]
      exact returns_update.mpr rfl

end SmoFramework.Compiler
