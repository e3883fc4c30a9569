import SmoFramework.Federation.Authentication

/-! Two endpoints of a federation handshake, one started as initiator and one passive, whose messages
arrive unmodified and in order. -/
namespace SmoFramework.Federation
open Library

structure Exchange where
  initiator : FederationHandshake
  responder : FederationHandshake
  toResponder : List Bytes := []
  toInitiator : List Bytes := []

inductive Delivery
  | responder (call : Call)
  | initiator (call : Call)

namespace Exchange
open FederationHandshake

def start (initiator responder : FederationHandshake) (call : Call) : Exchange where
  initiator := (initiator.startAsInitiator call).after
  responder := responder
  toResponder := (initiator.startAsInitiator call).sent.toList

/-- The next message for one of the endpoints arrives, and what it sends is put behind what is on its way
to the other. -/
def deliver (x : Exchange) : Delivery → Exchange
  | .responder call => match x.toResponder with
    | [] => x
    | message::rest =>
      let out := x.responder.handleMessage call message
      { x with responder := out.after, toResponder := rest,
               toInitiator := x.toInitiator ++ out.sent.toList }
  | .initiator call => match x.toInitiator with
    | [] => x
    | message::rest =>
      let out := x.initiator.handleMessage call message
      { x with initiator := out.after, toInitiator := rest,
               toResponder := x.toResponder ++ out.sent.toList }

def run (x : Exchange) (deliveries : List Delivery) : Exchange := deliveries.foldl deliver x

/-! What the endpoints know of each other. -/

/-- A message of the initiator with the mesh id `id`: its hello or an ack. -/
def FromInitiator (id message : Bytes) : Prop :=
  (∃ hello : FederationHello, message = 0x01::hello.serialize ∧ hello.localMeshId = id) ∨
    ∃ payload, message = 0x03::payload

/-- The responder sends its peer's id back as the remote id, which the initiator takes for the id of
its peer. -/
structure Mirrored (id : Bytes) (x : Exchange) : Prop where
  toResponder : ∀ m ∈ x.toResponder, FromInitiator id m
  responder : x.responder.state = .init ∨
    (x.responder.state ≠ .sentHello ∧ ReadOf id x.responder.peerMeshId)
  toInitiator : ∀ m ∈ x.toInitiator, x.responder.state ≠ .init ∧
    ∃ auth : FederationAuth, m = 0x02::auth.serialize ∧ auth.remoteMeshId = x.responder.peerMeshId
  initiator : x.initiator.state = .sentHello ∨
    (x.initiator.state = .completed ∧ x.responder.state ≠ .init ∧
      x.initiator.peerMeshId = x.responder.peerMeshId)

lemma mem_taken {m' m : Bytes} {call : Call} (h : m ∈ (call.taken m').toList) : m = m' := by
  unfold Call.taken at h
  cases hsend : call.sendFn m' with
  | error e => simp [hsend] at h
  | ok u => simpa [hsend] using h

section
variable {id : Bytes} {x : Exchange}

lemma Mirrored.of_hello (hx : Mirrored id x) {call : Call} {payload : Bytes} {hello : FederationHello}
    {rest : List Bytes} (hqueue : x.toResponder = (0x01::payload)::rest)
    (hstate : x.responder.state = .init ∨ x.responder.state = .sentHello)
    (hread : FederationHello.deserialize call.behind payload = .ok hello) :
    ReadOf id hello.localMeshId ∧ x.toInitiator = [] ∧ x.initiator.state = .sentHello := by
  have hinit : x.responder.state = .init := by
    rcases hx.responder with hinit | ⟨hno,-⟩
    · exact hinit
    · exact hstate.resolve_right hno
  refine ⟨?_,List.eq_nil_iff_forall_not_mem.mpr fun m hm => (hx.toInitiator m hm).1 hinit,?_⟩
  · have hmem := hx.toResponder (0x01::payload) (by rw [hqueue]; exact List.mem_cons_self)
    rcases hmem with ⟨hello',heq,rfl⟩ | ⟨_,heq⟩
    · cases heq
      exact FederationHello.readOf_deserialize hread
    · cases heq
  · rcases hx.initiator with hsent | ⟨-,hno,-⟩
    · exact hsent
    · exact absurd hinit hno

lemma Mirrored.step_responder (hx : Mirrored id x) (call : Call) :
    Mirrored id (x.deliver (.responder call)) := by
  unfold deliver
  cases hqueue : x.toResponder with
  | nil => exact hx
  | cons m rest =>
    have hmem := hx.toResponder
    rw [hqueue] at hmem
    obtain ⟨hm,hrest⟩ := List.forall_mem_cons.mp hmem
    have hstep := x.responder.handleMessage_step call m
    dsimp only
    generalize x.responder.handleMessage call m = out at hstep ⊢
    obtain ⟨result,sent,after⟩ := out
    cases hstep with
    | quiet => exact ⟨hrest,hx.responder,by simpa using hx.toInitiator,hx.initiator⟩
    | heard state read silent =>
      obtain ⟨hid,hnone,hsent⟩ := hx.of_hello hqueue state read
      exact ⟨hrest,Or.inr ⟨by rintro ⟨⟩,hid⟩,by simp [hnone],Or.inl hsent⟩
    | answered state read speaks =>
      obtain ⟨hid,hnone,hsent⟩ := hx.of_hello hqueue state read
      refine ⟨hrest,Or.inr ⟨by rintro ⟨⟩,hid⟩,fun m' hm' => ⟨by rintro ⟨⟩,?_⟩,Or.inl hsent⟩
      rw [hnone] at hm'
      exact ⟨_,mem_taken hm',rfl⟩
    | named ack state read =>
      rcases hm with ⟨_,heq,-⟩ | ⟨_,heq⟩
      · cases heq
      · cases heq
    | acknowledged state read accepted =>
      have hstarted : x.responder.state ≠ .init := by
        rw [state]
        decide
      refine ⟨hrest,Or.inr ⟨by rintro ⟨⟩,(hx.responder.resolve_left hstarted).2⟩,?_,?_⟩
      · intro m' hm'
        exact ⟨by rintro ⟨⟩,(hx.toInitiator m' (by simpa using hm')).2⟩
      · exact hx.initiator.imp_right fun h => ⟨h.1,by rintro ⟨⟩,h.2.2⟩

lemma Mirrored.step_initiator (hx : Mirrored id x) (call : Call) :
    Mirrored id (x.deliver (.initiator call)) := by
  unfold deliver
  cases hqueue : x.toInitiator with
  | nil => exact hx
  | cons m rest =>
    have hmem := hx.toInitiator
    rw [hqueue] at hmem
    obtain ⟨⟨hstarted,auth,rfl,hremote⟩,hrest⟩ := List.forall_mem_cons.mp hmem
    have hstep := x.initiator.handleMessage_step call (0x02::auth.serialize)
    dsimp only
    generalize x.initiator.handleMessage call (0x02::auth.serialize) = out at hstep ⊢
    obtain ⟨result,sent,after⟩ := out
    cases hstep with
    | quiet => exact ⟨by simpa using hx.toResponder,hx.responder,hrest,hx.initiator⟩
    | named ack state read =>
      obtain ⟨-,hshort,-⟩ := hx.responder.resolve_left hstarted
      have hpeer := (FederationAuth.readOf_deserialize read).2 (hremote ▸ hshort)
      refine ⟨fun m' hm' => ?_,hx.responder,hrest,Or.inr ⟨rfl,hstarted,hpeer.trans hremote⟩⟩
      rcases List.mem_append.mp hm' with hm' | hm'
      · exact hx.toResponder m' hm'
      · exact Or.inr ⟨_,mem_taken hm'⟩

end

lemma mirrored_start (cryptoA cryptoB : CryptoProvider) (a b : Config) (madeA madeB : Int64)
    (call : Call) :
    Mirrored a.localMeshId (start (create cryptoA a madeA) (create cryptoB b madeB) call) where
  toResponder := fun _ hm => Or.inl ⟨_,mem_taken hm,rfl⟩
  responder := Or.inl rfl
  toInitiator := by simp [start]
  initiator := Or.inl rfl

lemma Mirrored.run {x : Exchange} {id : Bytes} (hx : Mirrored id x) (deliveries : List Delivery) :
    Mirrored id (x.run deliveries) := by
  induction deliveries generalizing x with
  | nil => exact hx
  | cons delivery deliveries ih =>
    cases delivery with
    | responder call => exact ih (hx.step_responder call)
    | initiator call => exact ih (hx.step_initiator call)

/-- When both endpoints have completed, each of them has recorded the other one's mesh id exactly if the
two ids are the same, and short enough to be sent. -/
theorem peers_recorded_iff (cryptoA cryptoB : CryptoProvider) (a b : Config) (madeA madeB : Int64)
    (call : Call) (deliveries : List Delivery) {x : Exchange}
    (hrun : x = (start (create cryptoA a madeA) (create cryptoB b madeB) call).run deliveries)
    (hinitiator : x.initiator.state = .completed) (hresponder : x.responder.state = .completed) :
    x.initiator.peerMeshId = b.localMeshId ∧ x.responder.peerMeshId = a.localMeshId ↔
      a.localMeshId = b.localMeshId ∧ a.localMeshId.length < 2^32 := by
  have hx : Mirrored a.localMeshId x :=
    hrun ▸ (mirrored_start cryptoA cryptoB a b madeA madeB call).run _
  have hsame : x.initiator.peerMeshId = x.responder.peerMeshId := by
    rcases hx.initiator with hno | ⟨-,-,hsame⟩
    · cases hno.symm.trans hinitiator
    · exact hsame
  obtain ⟨hshort,hread⟩ : ReadOf a.localMeshId x.responder.peerMeshId := by
    rcases hx.responder with hno | ⟨-,hread⟩
    · cases hno.symm.trans hresponder
    · exact hread
  constructor
  · rintro ⟨hb,ha⟩
    exact ⟨ha.symm.trans (hsame.symm.trans hb),ha ▸ hshort⟩
  · rintro ⟨hab,hlen⟩
    exact ⟨hsame.trans ((hread hlen).trans hab),hread hlen⟩

def met (id : Bytes) : Exchange :=
  (start (create oneSigner gateway 0) (create oneSigner { gateway with localMeshId := id } 0) {}).run
    [.responder {},.initiator {},.responder {}]

theorem peers_recorded_same : (met [1]).initiator.state = .completed ∧
    (met [1]).responder.state = .completed ∧ (met [1]).initiator.peerMeshId = [1] ∧
    (met [1]).responder.peerMeshId = [1] := by
  have hinitiator : (met [1]).initiator.state = .completed := by decide +kernel
  have hresponder : (met [1]).responder.state = .completed := by decide +kernel
  have hrecorded := peers_recorded_iff (x := met [1]) _ _ _ _ _ _ _ _ rfl hinitiator hresponder
  exact ⟨hinitiator,hresponder,hrecorded.mpr ⟨rfl,by decide +kernel⟩⟩

/-- Two meshes with the ids `[1]` and `[2]`: the initiator takes itself for its peer. -/
theorem initiator_records_itself : (met [2]).initiator.state = .completed ∧
    (met [2]).responder.state = .completed ∧ (met [2]).responder.peerMeshId = [1] ∧
    (met [2]).initiator.peerMeshId = [1] := by
  refine ⟨?_,?_,?_,?_⟩ <;> decide +kernel

end Exchange
end SmoFramework.Federation
