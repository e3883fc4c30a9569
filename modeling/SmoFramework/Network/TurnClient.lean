import Mathlib.Data.Vector.Basic
import SmoFramework.Errors
import SmoFramework.Library.BigEndian
import SmoFramework.Library.FuelLoop

/-! The two requests of the TURN client that name its software. The loop that should pad the name
tests the length of the name, which it does not change. -/
namespace SmoFramework.Network.Turn
open Library Library.BigEndian

structure Config where
  defaultLifetime : UInt32 := 600
  softwareName : Bytes := literal "smo-node/0.0.7"

abbrev TransactionId := List.Vector UInt8 12

def header (type : UInt8) (tid : TransactionId) : Bytes :=
  [0x00,type,0,0,0x21,0x12,0xA4,0x42] ++ tid.toList

def attr (type : UInt8) (value : Bytes) : Bytes := [0x00,type,0,4] ++ value

/-- `while (sw.size() % 4 != 0) msg.push_back(0)` behind the SOFTWARE attribute. -/
def appendSoftware (sw msg : Bytes) (fuel : ℕ) : Option Bytes :=
  FuelLoop.while_ (fun _ : Bytes => decide (sw.length % 4 ≠ 0)) (fun msg => msg ++ [0]) fuel
    (msg ++ ([0x80,0x22] ++ (write16 (UInt16.ofNat sw.length) ++ sw)))

/-- The length of the message behind its header, in the place left for it. -/
def setLength (msg : Bytes) : Bytes :=
  let msgLen := UInt16.ofNat (msg.length-20)
  (msg.set 2 (msgLen >>> 8).toUInt8).set 3 (msgLen &&& 0xFF).toUInt8

def finish (config : Config) (msg : Bytes) (fuel : ℕ) : Option Bytes :=
  (appendSoftware config.softwareName msg fuel).map setLength

/-- The parameters are not used: the lifetime asked for is the one of the configuration. -/
def buildAllocateRequest (config : Config) (tid : TransactionId) (_lifetime : UInt32) (_evenPort : Bool)
    (fuel : ℕ) : Option Bytes :=
  finish config (header 0x03 tid ++ (attr 0x19 [0x11,0,0,0] ++
    (attr 0x0D (write32 config.defaultLifetime) ++ attr 0x17 [0,0,1,0]))) fuel

def buildRefreshRequest (config : Config) (tid : TransactionId) (lifetime : UInt32) (fuel : ℕ) :
    Option Bytes :=
  finish config (header 0x04 tid ++ attr 0x0D (write32 lifetime)) fuel

/-- A length divisible by 4, and what the header says of it. -/
def WellSized (msg : Bytes) : Prop :=
  msg.length % 4 = 0 ∧ (read16 (msg.getD 2 0) (msg.getD 3 0)).toNat = msg.length-20

/-- The builder comes to an end, with a message of which both are true. -/
def Builds (build : ℕ → Option Bytes) : Prop := ∃ fuel msg, build fuel = some msg ∧ WellSized msg

lemma wellSized_setLength (hmod : msg.length % 4 = 0) (hlow : 20 ≤ msg.length)
    (hhigh : msg.length-20 < 2^16) : WellSized (setLength msg) := by
  have hlen : (setLength msg).length = msg.length := by simp [setLength]
  have hget2 : (setLength msg).getD 2 0 = (UInt16.ofNat (msg.length-20) >>> 8).toUInt8 := by
    simp [setLength,List.getD_eq_getElem?_getD,show 2 < msg.length by omega]
  have hget3 : (setLength msg).getD 3 0 = (UInt16.ofNat (msg.length-20) &&& 0xFF).toUInt8 := by
    simp [setLength,List.getD_eq_getElem?_getD,show 3 < msg.length by omega]
  rw [WellSized,hlen,hget2,hget3,read16_write16]
  exact ⟨hmod,UInt16.toNat_ofNat_of_lt' hhigh⟩

lemma finish_eq_none (h : config.softwareName.length % 4 ≠ 0) (msg : Bytes)
    (fuel : ℕ) : finish config msg fuel = none := by
  have hnone : appendSoftware config.softwareName msg fuel = none :=
    FuelLoop.while_diverges (fun _ => True) (fun _ _ => trivial) (fun _ _ => decide_eq_true h) trivial
      fuel
  rw [finish,hnone]
  rfl

lemma builds_finish_iff (hmod : msg.length % 4 = 0)
    (hlow : 20 ≤ msg.length) (hhigh : msg.length ≤ 2^15) (hname : config.softwareName.length < 2^15) :
    Builds (finish config msg) ↔ config.softwareName.length % 4 = 0 := by
  constructor
  · rintro ⟨fuel,out,hout,-⟩
    by_contra hpad
    rw [finish_eq_none hpad] at hout
    cases hout
  · intro hpad
    have hsome : appendSoftware config.softwareName msg 1 = some _ :=
      if_neg (by simp [hpad])
    refine ⟨1,_,by rw [finish,hsome]; rfl,wellSized_setLength ?_ ?_ ?_⟩ <;>
      simp only [List.length_append,List.length_cons,List.length_nil,write16] <;> omega

/-- Both requests are built, for every transaction id and lifetime, exactly for the names whose length
is divisible by 4. -/
theorem requests_built_iff {config : Config} (hname : config.softwareName.length < 2^15) :
    (∀ tid lifetime evenPort, Builds (buildAllocateRequest config tid lifetime evenPort) ∧
      Builds (buildRefreshRequest config tid lifetime)) ↔ config.softwareName.length % 4 = 0 := by
  have hlen (type : UInt8) (tid : TransactionId) : (header type tid).length = 20 := by
    simp [header]
  have hallocate (tid : TransactionId) (lifetime : UInt32) (evenPort : Bool) :
      Builds (buildAllocateRequest config tid lifetime evenPort) ↔ _ :=
    builds_finish_iff (by simp [hlen,attr]) (by simp [hlen]) (by simp [hlen,attr]) hname
  have hrefresh (tid : TransactionId) (lifetime : UInt32) :
      Builds (buildRefreshRequest config tid lifetime) ↔ _ :=
    builds_finish_iff (by simp [hlen,attr]) (by simp [hlen]) (by simp [hlen,attr]) hname
  simp only [hallocate,hrefresh,and_self]
  exact ⟨fun h => h ⟨List.replicate 12 0,rfl⟩ 0 false,fun h _ _ _ => h⟩

theorem requests_built_short_name : (literal "smo1").length < 2^15 ∧ ∀ tid lifetime evenPort,
    Builds (buildAllocateRequest { softwareName := literal "smo1" } tid lifetime evenPort) ∧
      Builds (buildRefreshRequest { softwareName := literal "smo1" } tid lifetime) :=
  ⟨by decide,(requests_built_iff (by decide)).mpr (by decide)⟩

/-- The name that a client has if none is configured has 14 bytes. -/
theorem default_requests_diverge : ({} : Config).softwareName.length = 14 ∧
    ∀ tid lifetime evenPort fuel, buildAllocateRequest {} tid lifetime evenPort fuel = none ∧
      buildRefreshRequest {} tid lifetime fuel = none :=
  ⟨by decide,fun _ _ _ _ => ⟨finish_eq_none (by decide) _ _,finish_eq_none (by decide) _ _⟩⟩

end SmoFramework.Network.Turn
