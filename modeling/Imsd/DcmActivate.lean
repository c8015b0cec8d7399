import Imsd.DcmRequest

/-!
# What the server does

Specifications of the two entry points, as `Exec.Does` facts: the state left, the outputs and the
value.

An `ActivateRequest` is a datagram that holds a QMI message with the id `IMS_DCM_PDP_ACTIVATE` in
which the first TLVs `0x10` to `0x13` carry 32-bit values, the one in `0x12` being a slot.  Other
TLVs, their order and what lies behind the message are arbitrary.

`toRequest` makes a `DcmRequest` of it, `handle_activate` is the specification of the handler on
it, and `activateRequest` builds one from the four values.  `notify_does` is the specification of
the indication.
-/

namespace Imsd

open Bytes Tlv Exec

/-- A well-formed PDP-activate request. -/
structure ActivateRequest where
  datagram : Datagram
  message : QmiMessage
  msgid_eq : message.header.msgid.toNat = imsDcmPdpActivate
  holds : Holds datagram.inbuff 0 message.encode
  inbuffLen_eq : datagram.inbuffLen = message.encode.length
  pdpSequence : UInt32
  pdpSubscription : UInt32
  simSlot : UInt32
  pdpInstance : UInt32
  sequence_eq : first 0x10 message.tlvs = some (toLE 4 pdpSequence.toNat)
  subscription_eq : first 0x11 message.tlvs = some (toLE 4 pdpSubscription.toNat)
  slot_eq : first 0x12 message.tlvs = some (toLE 4 simSlot.toNat)
  instance_eq : first 0x13 message.tlvs = some (toLE 4 pdpInstance.toNat)
  simSlot_lt : simSlot.toNat < maxSimSlots

namespace ActivateRequest

variable (r : ActivateRequest)

/-- The session after the request: only the low byte of the sequence id is taken over. -/
def session (p : DcmPdpSession) : DcmPdpSession :=
  { p with
    pdpSequenceId := UInt32.ofNat (r.pdpSequence.toNat % 256)
    pdpSubscriptionId := r.pdpSubscription
    slotId := r.simSlot
    pdpInstanceId := r.pdpInstance }

/-- The server after the request. -/
def after (server : QRTRServer) : QRTRServer :=
  (registerClient r.datagram.clientAddr server).setSession r.simSlot.toNat r.session

/-- The answer to the request. -/
def response (server : QRTRServer) : QmiMessage :=
  pdpActivateResponse r.message.header.transactionId imsDcmPdpActivate
    (r.session (server.pdpSession r.simSlot.toNat))

/-- The outputs for the request. -/
def outputs (server : QRTRServer) : List Output :=
  [.networkStart r.simSlot, .sendto r.datagram.clientAddr (r.response server).encode]

theorem simSlotOf_eq : simSlotOf r.message.tlvs = r.simSlot.toNat := by
  rw [simSlotOf, r.slot_eq, Option.map_some, Option.getD_some]
  exact ofLE_toLE_of_lt r.simSlot.toNat_lt

/-- A PDP-activate request with all four values is a request. -/
def toRequest : DcmRequest where
  datagram := r.datagram
  message := r.message
  holds := r.holds
  inbuffLen_eq := r.inbuffLen_eq
  values_eq := by
    have hlength : ∀ {x : UInt32} {o : Option (List UInt8)}, o = some (toLE 4 x.toNat) →
        ∀ v, o = some v → v.length = 4 := by
      rintro x o rfl v hv
      cases hv
      exact length_toLE 4 x.toNat
    intro _ tlvid hid
    simp only [List.mem_cons, List.not_mem_nil, or_false] at hid
    rcases hid with rfl | rfl | rfl | rfl
    · exact hlength r.sequence_eq
    · exact hlength r.subscription_eq
    · exact hlength r.slot_eq
    · exact hlength r.instance_eq
  simSlot_lt := by
    intro _
    rw [simSlotOf_eq]
    exact r.simSlot_lt

/-- A 32-bit value is read back whole. -/
theorem ofNat_ofLE (x : UInt32) : UInt32.ofNat (ofLE ((toLE 4 x.toNat).take 4)) = x := by
  rw [show (toLE 4 x.toNat).take 4 = toLE 4 x.toNat from rfl, ofLE_toLE_of_lt x.toNat_lt,
    UInt32.ofNat_toNat]

/-- One byte of it is its lowest byte. -/
theorem ofLE_low_byte (x : UInt32) : ofLE ((toLE 4 x.toNat).take 1) = x.toNat % 256 := by
  simp [toLE]

theorem activateSession_eq : activateSession r.message.tlvs = r.session := by
  funext p
  rw [activateSession, valueOr_some r.sequence_eq, valueOr_some r.subscription_eq,
    valueOr_some r.slot_eq, valueOr_some r.instance_eq, ofLE_low_byte, ofNat_ofLE, ofNat_ofLE,
    ofNat_ofLE]
  rfl

end ActivateRequest

/-- **The handler on a well-formed PDP-activate request.** -/
theorem handle_activate (r : ActivateRequest) {n : ℕ} (hn : cursorBound ≤ n)
    (server : QRTRServer) :
    Does Access.output? (handleIncomingQrtrRequest n r.datagram) server (r.after server)
      (r.outputs server) ⟨⟩ := by
  have h := DcmRequest.handle_pdpActivate (r := r.toRequest) hn r.msgid_eq server
  rw [DcmRequest.after, DcmRequest.response,
    show r.toRequest.message.tlvs = r.message.tlvs from rfl,
    r.simSlotOf_eq, r.activateSession_eq, UInt32.ofNat_toNat] at h
  exact h

/-! ### The indication -/

/-- The lookup prefers the second session. -/
theorem activeSimSlot_eq (server : QRTRServer) (slotId : UInt32) :
    activeSimSlot server slotId =
      if slotId = (server.pdpSession 1).slotId then some 1
      else if slotId = (server.pdpSession 0).slotId then some 0 else none := by
  simp [activeSimSlot, maxSimSlots, List.range_succ]

/-- The lookup finds one of the array's sessions. -/
theorem activeSimSlot_lt {server : QRTRServer} {slotId : UInt32} {i : ℕ}
    (h : activeSimSlot server slotId = some i) : i < maxSimSlots := by
  rw [activeSimSlot_eq] at h
  split_ifs at h <;> cases h <;> decide

theorem scan_does (s : QRTRServer) :
    Does Access.output? (Exec.emitAll ((List.range maxSimSlots).map Access.session)) s s [] ⟨⟩ :=
  Does.emitAll _ s

/-- The fan-out sends the message once for every key. -/
theorem fanOut_does (addrs : List SockaddrQrtr) (outbuff : List UInt8) (s : QRTRServer) :
    Does Access.output? (Exec.emitAll (addrs.map fun addr => Access.out (.sendto addr outbuff))) s s
      (addrs.map fun addr => .sendto addr outbuff) ⟨⟩ := by
  have hobs : Access.output? ∘ (fun addr => Access.out (.sendto addr outbuff)) =
      some ∘ fun addr => .sendto addr outbuff := rfl
  refine ⟨rfl, rfl, ?_⟩
  rw [emitAll_apply, List.filterMap_map, hobs, List.filterMap_eq_map]

/-- **The indication**, for a slot that the lookup finds. -/
theorem notify_does {server : QRTRServer} {slotId : UInt32} {i : ℕ}
    (hi : activeSimSlot server slotId = some i) (ipAddress : List UInt8) :
    let outbuff := (pdpIndication (nextTransactionId server.transactionId) (server.pdpSession i)
      ipAddress).encode
    Does Access.output? (notifyPdpIpaddressChange slotId ipAddress) server
      { server with transactionId := nextTransactionId server.transactionId }
      (server.clients.map fun addr => .sendto addr outbuff) (some outbuff) := by
  intro outbuff
  refine (scan_does server).bind_nil ((Does.get server).bind_nil ?_)
  rw [hi]
  refine (Does.modify _ server).bind_nil ((Does.get _).bind_nil ?_)
  refine (readSession_does (activeSimSlot_lt hi) _).bind_nil ?_
  rw [← List.append_nil (server.clients.map _)]
  exact (fanOut_does server.clients outbuff _).bind (Does.pure _ _)

/-- No session, no indication. -/
theorem notify_none {server : QRTRServer} {slotId : UInt32}
    (hi : activeSimSlot server slotId = none) (ipAddress : List UInt8) :
    Does Access.output? (notifyPdpIpaddressChange slotId ipAddress) server server [] none := by
  refine (scan_does server).bind_nil ((Does.get server).bind_nil ?_)
  rw [hi]
  exact Does.pure _ _

/-! ### Building a request -/

/-- The message with the four values as its TLVs. -/
def activateMessage (pdpSequence pdpSubscription simSlot pdpInstance : UInt32) : QmiMessage :=
  outgoing 0x00 1 imsDcmPdpActivate
    [qmiGenericUint32TTlv 0x10 pdpSequence, qmiGenericUint32TTlv 0x11 pdpSubscription,
      qmiGenericUint32TTlv 0x12 simSlot, qmiGenericUint32TTlv 0x13 pdpInstance]

/-- The datagram with this message. -/
def activateDatagram (clientAddr : SockaddrQrtr) (family_eq : clientAddr.sqFamily = afQipcrtr)
    (pdpSequence pdpSubscription simSlot pdpInstance : UInt32) : Datagram where
  inbuff :=
    memory (activateMessage pdpSequence pdpSubscription simSlot pdpInstance).encode fun _ => 0
  inbuffLen := 35
  inbuffLen_le := by norm_num
  clientAddr
  family_eq

/-- A PDP-activate request of a peer. -/
def activateRequest (clientAddr : SockaddrQrtr) (family_eq : clientAddr.sqFamily = afQipcrtr)
    (pdpSequence pdpSubscription simSlot pdpInstance : UInt32)
    (simSlot_lt : simSlot.toNat < maxSimSlots) : ActivateRequest where
  datagram := activateDatagram clientAddr family_eq pdpSequence pdpSubscription simSlot pdpInstance
  message := activateMessage pdpSequence pdpSubscription simSlot pdpInstance
  msgid_eq := rfl
  holds := holds_memory _ _
  inbuffLen_eq := by
    simp [activateDatagram, activateMessage, outgoing, qmiGenericUint32TTlv, Tlv.size,
      sizeofQmiPacket]
  pdpSequence
  pdpSubscription
  simSlot
  pdpInstance
  sequence_eq := rfl
  subscription_eq := rfl
  slot_eq := rfl
  instance_eq := rfl
  simSlot_lt

/-- The requests that activate the first and the second slot. -/
def firstSlotRequest : ActivateRequest := activateRequest ⟨42, 1, 0x4000⟩ rfl 1 1 0 1 (by decide)
@[inherit_doc firstSlotRequest] def secondSlotRequest : ActivateRequest :=
  activateRequest ⟨42, 1, 0x4000⟩ rfl 2 1 1 2 (by decide)

end Imsd
