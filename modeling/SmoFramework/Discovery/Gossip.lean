import SmoFramework.Cbor.Codec
import SmoFramework.Library.FuelLoop
import SmoFramework.Recovery.Crl

/-! The receiving side of the gossip engine (`core/discovery/gossip`): the loop that cuts a message
into typed segments and hands their payloads out, and the handler that merges revocations. The
counters and the telemetry are left out, and so is the choice of peers on the sending side. -/
namespace SmoFramework.Discovery
open Library Library.BigEndian List FuelLoop
open Recovery (CrlEntry Crl)
open Cbor (View)

def contents (received : Bytes) (view : View) : Bytes := (received.drop view.off).take view.len

/-- `delta_handlers_`: a handler gets a view of the message and may change the state, also the
table of handlers itself. -/
abbrev Handlers (σ : Type*) := UInt8 → σ → Option (View → Result Unit × σ)

def payloadLen (data : Bytes) : UInt32 :=
  read32 (data.getD 4 0) (data.getD 3 0) (data.getD 2 0) (data.getD 1 0)

def segmentLen (data : Bytes) : ℕ := (5+payloadLen data).toNat

/-- The variables of `apply_gossip`, the views handed out so far, and the answer once the loop has
been left. -/
structure Applying (σ : Type*) where
  off : ℕ := 0
  state : σ
  calls : List View := []
  answer : Option (Result Unit) := none

namespace Applying
variable {σ : Type*}

def data (received : Bytes) (l : Applying σ) : Bytes := received.drop l.off

def running (received : Bytes) (l : Applying σ) : Bool :=
  l.answer.isNone && 5 ≤ (l.data received).length

def body (find : Handlers σ) (received : Bytes) (l : Applying σ) : Applying σ :=
  let data := l.data received
  if segmentLen data > data.length then { l with answer := some (.ok ()) }
  else
    let payload : View := ⟨l.off+5,(payloadLen data).toNat⟩
    let l := { l with off := l.off+segmentLen data }
    match find (data.getD 0 0) l.state with
    | none => l
    | some handler =>
      let l := { l with calls := l.calls ++ [payload] }
      match handler payload with
      | (.error e,state) => { l with state, answer := some (.error e) }
      | (.ok (),state) => { l with state }

end Applying

/-- `apply_gossip`: its answer, the state the handlers leave and the views they got. -/
def applyGossip {σ : Type*} (find : Handlers σ) (received : Bytes) (fuel : ℕ) (state : σ) :
    Option (Result Unit × σ × List View) :=
  if received = [] then some (.ok (),state,[])
  else (FuelLoop.while_ (Applying.running received) (Applying.body find received) fuel
    { state }).map fun l => (l.answer.getD (.ok ()),l.state,l.calls)

/-- `assemble_gossip_payload` writes every segment so. -/
def segment (dt : UInt8) (payload : Bytes) : Bytes :=
  dt::((write32 (UInt32.ofNat payload.length)).reverse ++ payload)

/-! Where the loop comes along. -/

/-- The offsets at which a loop that no handler stops reads a header. -/
inductive Meets (received : Bytes) : ℕ → Prop
  | start : Meets received 0
  | next {off : ℕ} : Meets received off → 5 ≤ (received.drop off).length →
      segmentLen (received.drop off) ≤ (received.drop off).length →
      Meets received (off+segmentLen (received.drop off))

/-- A header whose segment length is a true sum, or one that has wrapped around and still moves the
loop past it and has its payload inside the message. -/
def HeaderFits (data : Bytes) : Prop :=
  5+(payloadLen data).toNat < 2^32 ∨ segmentLen data ≠ 0 ∧ 5+(payloadLen data).toNat ≤ data.length

lemma segmentLen_eq (data : Bytes) : segmentLen data = (5+(payloadLen data).toNat) % 2^32 := by
  rfl

/-- A segment that passes the length check and has a fitting header is inside the message. -/
theorem HeaderFits.payload (h : HeaderFits data) (hle : segmentLen data ≤ data.length) :
    0 < segmentLen data ∧ 5+(payloadLen data).toNat ≤ data.length := by
  have hlen := segmentLen_eq data
  rcases h with h | h <;> omega

namespace Applying
variable {σ : Type*} {find : Handlers σ} {received : Bytes}

lemma body_cases (find : Handlers σ) (received : Bytes) (l : Applying σ) :
    (l.data received).length < segmentLen (l.data received) ∧
      body find received l = { l with answer := some (.ok ()) } ∨
    segmentLen (l.data received) ≤ (l.data received).length ∧
      ∃ calls state answer, body find received l =
        ⟨l.off+segmentLen (l.data received),state,l.calls ++ calls,answer⟩ ∧
        (answer = none → l.answer = none) ∧
        ∀ view ∈ calls, view = ⟨l.off+5,(payloadLen (l.data received)).toNat⟩ := by
  unfold body
  dsimp only
  by_cases hbreak : segmentLen (l.data received) > (l.data received).length
  · rw [if_pos hbreak]
    exact Or.inl ⟨hbreak,rfl⟩
  · rw [if_neg hbreak]
    refine Or.inr ⟨not_lt.mp hbreak,?_⟩
    cases find ((l.data received).getD 0 0) l.state with
    | none => exact ⟨[],l.state,l.answer,by simp,id,by simp⟩
    | some handler =>
      dsimp only
      obtain ⟨result,state⟩ := handler ⟨l.off+5,(payloadLen (l.data received)).toNat⟩
      cases result with
      | error e => exact ⟨_,state,some (.error e),rfl,by simp,by simp⟩
      | ok u => exact ⟨_,state,l.answer,rfl,id,by simp⟩

lemma body_calls (find : Handlers σ) (received : Bytes) (l : Applying σ) :
    l.calls ⊆ (body find received l).calls := by
  rcases body_cases find received l with ⟨-,hbody⟩ | ⟨-,calls,state,answer,hbody,-,-⟩
  · rw [hbody]
    exact List.Subset.refl _
  · rw [hbody]
    exact subset_append_left _ _

variable {l : Applying σ}

lemma while_calls (h : FuelLoop.while_ (running received) (body find received) fuel l = some t) :
    l.calls ⊆ t.calls := by
  induction fuel generalizing l with
  | zero => cases h
  | succ fuel ih =>
    unfold while_ at h
    split_ifs at h with hrun
    · exact List.Subset.trans (body_calls find received l) (ih h)
    · cases h
      exact List.Subset.refl _

lemma running_iff :
    l.running received = true ↔ l.answer = none ∧ 5 ≤ (l.data received).length := by
  simp [running]

structure Inv (received : Bytes) (l : Applying σ) : Prop where
  inside : ∀ view ∈ l.calls, view.off+view.len ≤ received.length
  meets : l.answer = none → Meets received l.off

def left (received : Bytes) (l : Applying σ) : ℕ :=
  (received.length-l.off)+(if l.answer.isNone then 1 else 0)

/-- Fitting headers make every turn keep the invariant and come closer to the end. -/
theorem Inv.body (find : Handlers σ)
    (hfits : ∀ off, Meets received off → 5 ≤ (received.drop off).length → HeaderFits (received.drop off))
    (h : Inv received l) (hrun : l.running received = true) : Inv received (l.body find received) ∧
      left received (l.body find received) < left received l := by
  obtain ⟨hanswer,hsize⟩ := running_iff.mp hrun
  have hlen : (l.data received).length = received.length-l.off := length_drop
  rcases body_cases find received l with ⟨-,hbody⟩ | ⟨hle,calls,state,answer,hbody,hnone,hview⟩
  · rw [hbody]
    exact ⟨⟨h.inside,fun hnone => by simp at hnone⟩,by simp [left,hanswer]⟩
  · obtain ⟨hpos,hpayload⟩ := (hfits l.off (h.meets hanswer) hsize).payload hle
    change 0 < segmentLen (l.data received) at hpos
    change 5+(payloadLen (l.data received)).toNat ≤ (l.data received).length at hpayload
    rw [hbody]
    refine ⟨⟨?_,fun _ => .next (h.meets hanswer) hsize hle⟩,?_⟩
    · intro view hmem
      rcases mem_append.mp hmem with hmem | hmem
      · exact h.inside view hmem
      · rw [hview view hmem]
        dsimp only
        omega
    · have hbound : (if answer.isNone then 1 else 0) ≤ 1 := by split_ifs <;> omega
      simp only [left,hanswer,Option.isNone_none,if_true]
      omega

end Applying

/-! A message is harmless, whatever the handlers do, exactly if the headers on its way fit. -/

def acceptAll : Handlers Unit := fun _ state => some fun _ => (.ok (),state)

lemma body_acceptAll {l : Applying Unit}
    (hle : segmentLen (l.data received) ≤ (l.data received).length) :
    l.body acceptAll received = { l with
      off := l.off+segmentLen (l.data received)
      calls := l.calls ++ [⟨l.off+5,(payloadLen (l.data received)).toNat⟩] } := by
  unfold Applying.body
  rw [if_neg (not_lt.mpr hle)]
  rfl

variable {off : ℕ} {t : Applying Unit}

lemma while_acceptAll {fuel : ℕ} (hsize : 5 ≤ (received.drop off).length)
    (hle : segmentLen (received.drop off) ≤ (received.drop off).length)
    (h : FuelLoop.while_ (Applying.running received) (Applying.body acceptAll received) fuel
      ⟨off,(),calls,none⟩ = some t)
    : ∃ fuel', FuelLoop.while_ (Applying.running received) (Applying.body acceptAll received) fuel'
      ⟨off+segmentLen (received.drop off),(),
        calls ++ [⟨off+5,(payloadLen (received.drop off)).toNat⟩],none⟩ = some t := by
  cases fuel with
  | zero => cases h
  | succ fuel =>
    have hrunning : Applying.running received (⟨off,(),calls,none⟩ : Applying Unit) = true :=
      Applying.running_iff.mpr ⟨rfl,hsize⟩
    unfold while_ at h
    rw [if_pos hrunning,body_acceptAll (l := ⟨off,(),calls,none⟩) hle] at h
    exact ⟨fuel,h⟩

/-- A loop that ends has been at every offset it meets, with the same outcome from there. -/
theorem Meets.reached (h : Meets received off)
    (hrun : FuelLoop.while_ (Applying.running received) (Applying.body acceptAll received) fuel
      { state := () } = some t) :
    ∃ fuel' calls, FuelLoop.while_ (Applying.running received) (Applying.body acceptAll received)
      fuel' ⟨off,(),calls,none⟩ = some t := by
  induction h with
  | start => exact ⟨fuel,[],hrun⟩
  | next _ hsize hle ih =>
    obtain ⟨fuel',calls,hoff⟩ := ih
    obtain ⟨fuel'',hnext⟩ := while_acceptAll hsize hle hoff
    exact ⟨fuel'',_,hnext⟩

lemma while_stuck {received : Bytes} (hsize : 5 ≤ (received.drop off).length)
    (hzero : segmentLen (received.drop off) = 0) (calls : List View) (fuel : ℕ) :
    FuelLoop.while_ (Applying.running received) (Applying.body acceptAll received) fuel
      ⟨off,(),calls,none⟩ = none := by
  refine while_diverges (fun l => l.off = off ∧ l.answer = none) ?_ ?_ ⟨rfl,rfl⟩ fuel
  · rintro l ⟨rfl,hanswer⟩
    have hlen : segmentLen (l.data received) = 0 := hzero
    rw [body_acceptAll (by omega)]
    exact ⟨by rw [hlen,Nat.add_zero],hanswer⟩
  · rintro l ⟨rfl,hanswer⟩
    exact Applying.running_iff.mpr ⟨hanswer,hsize⟩

lemma headerFits_of_inside
    (hwhile : FuelLoop.while_ (Applying.running received) (Applying.body acceptAll received) fuel
      { state := () } = some t)
    (hinside : ∀ view ∈ t.calls, view.off+view.len ≤ received.length) (hmeets : Meets received off)
    (hsize : 5 ≤ (received.drop off).length) :
    HeaderFits (received.drop off) := by
  obtain ⟨fuel',calls',hoff⟩ := hmeets.reached hwhile
  by_contra hbad
  simp only [HeaderFits,not_or,not_and] at hbad
  have hlen := segmentLen_eq (received.drop off)
  have hplen := (payloadLen (received.drop off)).toNat_lt
  by_cases hzero : segmentLen (received.drop off) = 0
  · rw [while_stuck hsize hzero] at hoff
    cases hoff
  · have hle : segmentLen (received.drop off) ≤ (received.drop off).length := by omega
    have hbehind := hbad.2 hzero
    obtain ⟨fuel'',hnext⟩ := while_acceptAll hsize hle hoff
    have hmem := Applying.while_calls hnext (mem_append_right _ (mem_singleton_self _))
    have hview := hinside _ hmem
    change off+5+(payloadLen (received.drop off)).toNat ≤ received.length at hview
    rw [length_drop] at hbehind
    omega

lemma Applying.while_inside {σ : Type} (find : Handlers σ)
    (hfits : ∀ off, Meets received off → 5 ≤ (received.drop off).length →
      HeaderFits (received.drop off)) (state : σ) :
    ∃ t, FuelLoop.while_ (running received) (body find received) (received.length+2)
      { state } = some t ∧ ∀ view ∈ t.calls, view.off+view.len ≤ received.length := by
  have hstart : Inv received ({ state } : Applying σ) := ⟨by simp,fun _ => .start⟩
  have hfuel : left received ({ state } : Applying σ) < received.length+2 := by
    simp [left]
  obtain ⟨t,hwhile,hinv,-⟩ := while_measure (Inv received) (left received)
    (fun l hl hrun => hl.body find hfits hrun) hstart hfuel
  exact ⟨t,hwhile,hinv.inside⟩

/-- For every message: the loop ends and hands out parts of the message only, whatever the
handlers, if and only if every header it can come to fits. -/
theorem applyGossip_safe_iff (received : Bytes) :
    (∀ (σ : Type) (find : Handlers σ) (state : σ), ∃ fuel result state' calls,
      applyGossip find received fuel state = some (result,state',calls) ∧
        ∀ view ∈ calls, view.off+view.len ≤ received.length) ↔
      ∀ off, Meets received off → 5 ≤ (received.drop off).length →
        HeaderFits (received.drop off) := by
  by_cases hnil : received = []
  · subst hnil
    refine ⟨fun _ off _ hsize => by simp at hsize,fun _ σ find state => ?_⟩
    exact ⟨0,.ok (),state,[],rfl,by simp⟩
  constructor
  · intro hsafe off hmeets hsize
    obtain ⟨fuel,result,state,calls,hrun,hinside⟩ := hsafe Unit acceptAll ()
    rw [applyGossip,if_neg hnil,Option.map_eq_some_iff] at hrun
    obtain ⟨t,hwhile,hout⟩ := hrun
    cases hout
    exact headerFits_of_inside hwhile hinside hmeets hsize
  · intro hfits σ find state
    obtain ⟨t,hwhile,hinside⟩ := Applying.while_inside find hfits state
    refine ⟨received.length+2,t.answer.getD (.ok ()),t.state,t.calls,?_,hinside⟩
    rw [applyGossip,if_neg hnil,hwhile]
    rfl

/-- Two messages of five bytes: one never ends, and the other hands out a view of four gigabytes. -/
theorem applyGossip_unsafe :
    (∀ fuel, applyGossip acceptAll [0,0xFB,0xFF,0xFF,0xFF] fuel () = none) ∧
      applyGossip acceptAll [1,0xFF,0xFF,0xFF,0xFF] 2 () =
        some (.ok (),(),[⟨5,4294967295⟩]) := by
  refine ⟨fun fuel => ?_,by decide⟩
  rw [applyGossip,while_stuck (by decide) (by decide)]
  rfl

/-! What a peer assembles is handed out segment by segment. -/

lemma payloadLen_segment (h : payload.length < 2^32) (dt : UInt8) (rest : Bytes) :
    (payloadLen (segment dt payload ++ rest)).toNat = payload.length := by
  obtain ⟨b3,b2,b1,b0,hbytes⟩ : ∃ b3 b2 b1 b0,
    write32 (UInt32.ofNat payload.length) = [b3,b2,b1,b0] := ⟨_,_,_,_,rfl⟩
  have hread : payloadLen (segment dt payload ++ rest) = read32 b3 b2 b1 b0 := by
    rw [segment,hbytes]
    rfl
  rw [hread,toNat_read32,← hbytes,write32_eq,UInt32.toNat_ofNat_of_lt' h,ofBE_toBE_of_lt h]

lemma length_segment (dt : UInt8) (payload : Bytes) :
    (segment dt payload).length = 5+payload.length := by
  simp [segment]
  omega

def payloads : ℕ → List (UInt8 × Bytes) → List (UInt8 × View)
  | _, [] => []
  | off, (dt,payload)::segments =>
    (dt,⟨off+5,payload.length⟩)::payloads (off+5+payload.length) segments

/-- The handlers called one after the other, up to the first error. -/
def deliver {σ : Type*} (find : Handlers σ) :
    List (UInt8 × View) → σ → List View → Result Unit × σ × List View
  | [], state, calls => (.ok (),state,calls)
  | (dt,view)::rest, state, calls => match find dt state with
    | none => deliver find rest state calls
    | some handler => match handler view with
      | (.error e,state) => (.error e,state,calls ++ [view])
      | (.ok (),state) => deliver find rest state (calls ++ [view])

def message (segments : List (UInt8 × Bytes)) : Bytes :=
  segments.flatMap fun s => segment s.1 s.2

lemma contents_payloads (segments : List (UInt8 × Bytes)) (pre : Bytes) :
    (payloads pre.length segments).map (fun p => (p.1,contents (pre ++ message segments) p.2)) =
      segments := by
  induction segments generalizing pre with
  | nil => rfl
  | cons s segments ih =>
    obtain ⟨dt,payload⟩ := s
    have hmessage : pre ++ message ((dt,payload)::segments) =
        (pre ++ segment dt payload) ++ message segments := by
      simp [message]
    have hlen : (pre ++ segment dt payload).length = pre.length+5+payload.length := by
      rw [length_append,length_segment]
      omega
    have htail := ih (pre ++ segment dt payload)
    rw [hlen,← hmessage] at htail
    rw [payloads,map_cons]
    congr 2
    -- the payload stands behind the five bytes of the header
    have hsplit : pre ++ message ((dt,payload)::segments) =
        (pre ++ dt::(write32 (UInt32.ofNat payload.length)).reverse) ++
          (payload ++ message segments) := by
      simp [message,segment]
    rw [contents,hsplit,drop_left' (by simp),take_left]

variable {σ : Type*}

lemma body_segment (find : Handlers σ) (l : Applying σ) (h : 5+payload.length < 2^32)
    (hdata : l.data received = segment dt payload ++ rest) : l.running received = l.answer.isNone ∧
    l.body find received =
      let l' := { l with off := l.off+5+payload.length }
      match find dt l.state with
      | none => l'
      | some handler =>
        let calls := l.calls ++ [⟨l.off+5,payload.length⟩]
        match handler ⟨l.off+5,payload.length⟩ with
        | (.error e,state) => { l' with state, calls, answer := some (.error e) }
        | (.ok (),state) => { l' with state, calls } := by
  have hplen := payloadLen_segment (by omega : payload.length < 2^32) dt rest
  have hseg : segmentLen (segment dt payload ++ rest) = 5+payload.length := by
    rw [segmentLen_eq,hplen,Nat.mod_eq_of_lt h]
  have hsize : (segment dt payload ++ rest).length = 5+payload.length+rest.length := by
    rw [length_append,length_segment]
  constructor
  · rw [Applying.running,hdata,decide_eq_true (by omega),Bool.and_true]
  · have hle : ¬ 5+payload.length > 5+payload.length+rest.length := by omega
    unfold Applying.body
    simp only [hdata,hseg,hplen,hsize,if_neg hle]
    rw [Nat.add_assoc]
    rfl

variable {segments : List (UInt8 × Bytes)}

theorem while_message (find : Handlers σ) (h : ∀ s ∈ segments, 5+s.2.length < 2^32)
    (pre : Bytes) (state : σ) (calls : List View) :
    ∃ l, FuelLoop.while_ (Applying.running (pre ++ message segments))
        (Applying.body find (pre ++ message segments)) (segments.length+1)
        ⟨pre.length,state,calls,none⟩ = some l ∧ (l.answer.getD (.ok ()),l.state,l.calls) =
        deliver find (payloads pre.length segments) state calls ∧
      (l.answer = none ∧ l.off = (pre ++ message segments).length ∨ ∃ e, l.answer = some (.error e)) := by
  induction segments generalizing pre state calls with
  | nil =>
    refine ⟨⟨pre.length,state,calls,none⟩,?_,rfl,Or.inl ⟨rfl,by simp [message]⟩⟩
    simp [message,while_,Applying.running,Applying.data]
  | cons s segments ih =>
    obtain ⟨dt,payload⟩ := s
    have hmessage : pre ++ message ((dt,payload)::segments) =
        (pre ++ segment dt payload) ++ message segments := by
      simp [message]
    have hlen : (pre ++ segment dt payload).length = pre.length+5+payload.length := by
      rw [length_append,length_segment,Nat.add_assoc]
    have hrest := ih (fun s hs => h s (mem_cons_of_mem _ hs)) (pre ++ segment dt payload)
    rw [hlen,← hmessage] at hrest
    have hdata : Applying.data (pre ++ message ((dt,payload)::segments))
        (⟨pre.length,state,calls,none⟩ : Applying σ) = segment dt payload ++ message segments := by
      rw [Applying.data,hmessage,append_assoc,drop_left]
    obtain ⟨hrunning,hbody⟩ := body_segment find _ (h _ (mem_cons_self ..)) hdata
    unfold while_
    rw [hrunning,Option.isNone_none,if_pos rfl,hbody,payloads,deliver]
    cases find dt state with
    | none => exact hrest state calls
    | some handler =>
      dsimp only
      obtain ⟨result,state'⟩ := handler ⟨pre.length+5,payload.length⟩
      cases result with
      | error e =>
        refine ⟨⟨pre.length+5+payload.length,state',calls ++ [⟨pre.length+5,payload.length⟩],
          some (.error e)⟩,?_,rfl,Or.inr ⟨e,rfl⟩⟩
        simp [while_,Applying.running]
      | ok u => exact hrest state' _

theorem applyGossip_message (find : Handlers σ)
    (h : ∀ s ∈ segments, 5+s.2.length < 2^32) (state : σ) :
    applyGossip find (message segments) (segments.length+1) state =
      some (deliver find (payloads 0 segments) state []) := by
  cases segments with
  | nil => rfl
  | cons s segments =>
    have hne : message (s::segments) ≠ [] := by simp [message,segment]
    obtain ⟨l,hwhile,hdeliver,-⟩ := while_message find h [] state []
    change while_ (Applying.running (message (s::segments)))
      (Applying.body find (message (s::segments))) _ { state } = some l at hwhile
    rw [applyGossip,hwhile,Option.map_some,hdeliver]
    rfl

/-! Merging revocations. -/

variable (clock : ℕ → Int64) (received : List CrlEntry)

def mergeEntries (crl : Crl) : Crl :=
  received.zipIdx.foldl (fun crl entry =>
    (crl.revoke entry.1.certFingerprint entry.1.nodeIdHex entry.1.reason entry.1.epoch
      (clock entry.2)).2) crl

def crlHandler (payload : Bytes) (crl : Crl) : Result Unit × Crl :=
  match Crl.deserialize payload with
  | .error e => (.error e,crl)
  | .ok received => (.ok (),mergeEntries clock (received.entriesSince 0) crl)

def crlHandlers (deltas : List ((ℕ → Int64) × Bytes)) (crl : Crl) : Crl :=
  deltas.foldl (fun crl delta => (crlHandler delta.1 delta.2 crl).2) crl

lemma mergeEntries_entries (crl : Crl) :
    (mergeEntries clock received crl).entries =
      KeyedLog.merge CrlEntry.certFingerprint crl.entries
        (received.zipIdx.map fun entry => { entry.1 with revokedAt := clock entry.2 }) := by
  unfold mergeEntries KeyedLog.merge
  generalize received.zipIdx = stamped
  induction stamped generalizing crl with
  | nil => rfl
  | cons entry stamped ih => rw [foldl_cons,ih,Crl.revoke_entries,map_cons,foldl_cons]

/-- A list has taken these revocations in: they are revoked now, nothing else is that was not, and
what was there before has stayed. -/
structure Absorbs (crl : Crl) (revoked : Set Bytes) (crl' : Crl) : Prop where
  fingerprints : crl'.fingerprints = crl.fingerprints ∪ revoked
  extends_ : crl.entries <+: crl'.entries
  distinct : crl.Distinct → crl'.Distinct

lemma Absorbs.trans (h : Absorbs crl revoked crl') (h' : Absorbs crl' revoked' crl'') :
    Absorbs crl (revoked ∪ revoked') crl'' where
  fingerprints := by rw [h'.fingerprints,h.fingerprints,Set.union_assoc]
  extends_ := h.extends_.trans h'.extends_
  distinct := fun hcrl => h'.distinct (h.distinct hcrl)

lemma absorbs_mergeEntries (received crl : Crl) :
    Absorbs crl received.fingerprints (mergeEntries clock received.entries crl) := by
  have hentries := mergeEntries_entries clock received.entries crl
  have hkeys : KeyedLog.keys CrlEntry.certFingerprint (received.entries.zipIdx.map fun entry =>
      { entry.1 with revokedAt := clock entry.2 }) = received.fingerprints := by
    ext fp
    rw [KeyedLog.mem_keys,map_map]
    change fp ∈ received.entries.zipIdx.map (CrlEntry.certFingerprint ∘ Prod.fst) ↔ _
    rw [← map_map,zipIdx_map_fst]
    rfl
  constructor
  · rw [Crl.fingerprints,hentries,KeyedLog.keys_merge,hkeys]
    rfl
  · rw [hentries]
    exact KeyedLog.merge_extends _ _
  · intro h
    rw [Crl.Distinct,hentries]
    exact h.merge _

lemma crlHandler_eq {payload : Bytes} {received : Crl}
    (h : Crl.deserialize payload = .ok received) (crl : Crl) :
    crlHandler clock payload crl = (.ok (),mergeEntries clock received.entries crl) := by
  rw [crlHandler,h]
  simp [Crl.entriesSince]

lemma absorbs_crlHandlers (crl : Crl) {deltas : List ((ℕ → Int64) × Crl)}
    (h : ∀ c ∈ deltas.map Prod.snd, c.Fits) :
    Absorbs crl {fp | ∃ c ∈ deltas.map Prod.snd, fp ∈ c.fingerprints}
      (crlHandlers (deltas.map fun d => (d.1,d.2.serialize)) crl) := by
  induction deltas generalizing crl with
  | nil => exact ⟨by simp [crlHandlers],prefix_rfl,id⟩
  | cons d deltas ih =>
    have hd := absorbs_mergeEntries d.1 d.2 crl
    have htail := ih (mergeEntries d.1 d.2.entries crl) fun c hc => h c (mem_cons_of_mem _ hc)
    have hstep : crlHandlers ((d::deltas).map fun d => (d.1,d.2.serialize)) crl =
        crlHandlers (deltas.map fun d => (d.1,d.2.serialize))
          (mergeEntries d.1 d.2.entries crl) := by
      rw [crlHandlers,map_cons,foldl_cons,crlHandler_eq _ (Crl.deserialize_serialize (h d.2 (by simp)))]
      rfl
    convert hd.trans htail using 1
    ext fp
    simp

/-- Payloads written by other nodes, whose length has 32 bits in a segment, leave the union of all
revocations, whatever their order and number. Nothing that was there is removed or changed, and no
certificate has two entries. -/
theorem crlHandlers_merge (crl : Crl) (hcrl : crl.Distinct) (deltas : List ((ℕ → Int64) × Crl))
    (hpayload : ∀ d ∈ deltas, d.2.serialize.length < 2^32) :
    let final := crlHandlers (deltas.map fun d => (d.1,d.2.serialize)) crl
    (∀ fp, final.isRevoked fp = .ok true ↔
      crl.isRevoked fp = .ok true ∨ ∃ d ∈ deltas, d.2.isRevoked fp = .ok true) ∧
    crl.entries <+: final.entries ∧
    (∀ fp, final.isRevoked fp = .ok true →
      (final.entries.map CrlEntry.certFingerprint).count fp = 1) ∧
    ∀ deltas' : List ((ℕ → Int64) × Crl),
      (∀ c, c ∈ deltas'.map Prod.snd ↔ c ∈ deltas.map Prod.snd) → ∀ fp,
        (crlHandlers (deltas'.map fun d => (d.1,d.2.serialize)) crl).isRevoked fp =
          final.isRevoked fp := by
  intro final
  have hall : ∀ c ∈ deltas.map Prod.snd, c.Fits := 
    forall_mem_map.mpr fun d hd => Crl.fits_of_length (hpayload d hd)
  have habs := absorbs_crlHandlers crl hall
  refine ⟨fun fp => ?_,habs.extends_,fun fp hfp => ?_,fun deltas' hsame fp => ?_⟩
  · simp only [Crl.isRevoked_iff]
    rw [habs.fingerprints]
    simp only [mem_map,exists_exists_and_eq_and]
    rfl
  · exact count_eq_one_of_mem (habs.distinct hcrl) ((Crl.isRevoked_iff fp final).mp hfp)
  · -- the union depends only on which lists were received
    have habs' := absorbs_crlHandlers crl fun c hc => hall c ((hsame c).mp hc)
    refine Crl.isRevoked_congr ?_ fp
    rw [habs'.fingerprints,habs.fingerprints]
    simp only [hsame]

theorem crlHandlers_merge_two : let one : Crl := ⟨[{ certFingerprint := [97], epoch := 2 }]⟩
    let two : Crl := ⟨[{ certFingerprint := [98], epoch := 3 },{ certFingerprint := [97] }]⟩
    (crlHandlers [(fun _ => 7,two.serialize)] one).isRevoked [98] = .ok true := by
  have h := crlHandlers_merge ⟨[{ certFingerprint := [97], epoch := 2 }]⟩ (by simp [KeyedLog.Distinct])
    [(fun _ => 7,⟨[{ certFingerprint := [98], epoch := 3 },{ certFingerprint := [97] }]⟩)]
    (by
      intro d hd
      obtain rfl := mem_singleton.mp hd
      decide)
  exact (h.1 [98]).mpr (Or.inr ⟨_,mem_singleton_self _,rfl⟩)

end SmoFramework.Discovery
