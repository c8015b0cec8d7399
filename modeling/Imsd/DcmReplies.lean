import Imsd.QmiDecode
import Imsd.System

/-!
# Requests and their replies

What the handler makes of every well-formed request, seen from the peer that sent it and from the
rest of the process.

* `handle_replies`: one reply for each of the five commands and none for other messages; the reply
  is a message that the readers of `qmi-util.c` accept; and a message other than PDP-activate
  leaves the sessions and the WDS clients alone.
* `receive_perm`: the order of the TLVs of a PDP-activate request does not matter.

Both are read off the specification of the handler, which takes nothing from the TLVs but what
`Tlv.first` finds there.
-/

namespace Imsd

open Bytes Tlv Exec

/-- The system after any datagram.  The handler does not look at the slots, so its calls of
`request_network_start` can follow it. -/
def System.receive (s : System) (d : Datagram) : System :=
  let result := handleIncomingQrtrRequest cursorBound d s.server
  (result.2.log.filterMap Access.output?).foldl System.perform { s with server := result.1 }

/-- The five commands. -/
def imsDcmCommands : List ℕ :=
  [imsDcmPdpActivate, imsDcmLinkAdd, imsDcmRegister, imsDcmEnableStatus, imsDcmClear]

/-! ### Reading a reply -/

section Readers

variable {m : ℕ → UInt8} {messageType : UInt8} {transactionId : UInt16} {msgid : ℕ}
  {tlvs : List Tlv}

/-- The header of an outgoing message. -/
theorem header_outgoing (hid : msgid < 65536) (hlen : (encodeAll tlvs).length < 65536)
    (hm : Holds m 0 (outgoing messageType transactionId msgid tlvs).encode) :
    (getQmiMessageType m).res = some messageType.toNat ∧
      (getQmiTransactionId m).res = some transactionId.toNat ∧
      (getQmiMessageId m).res = some msgid ∧ loadLE m 5 2 = (encodeAll tlvs).length := by
  have hmsgid := QmiMessage.res_getQmiMessageId hm
  have hlength := loadLE_toLE (QmiMessage.holds_header hm).2.2.2
  simp only [outgoing, UInt16.toNat_ofNat'] at hmsgid hlength
  refine ⟨QmiMessage.res_getQmiMessageType hm, QmiMessage.res_getQmiTransactionId hm, ?_, ?_⟩
  · rw [hmsgid, Nat.mod_eq_of_lt hid]
  · rw [hlength]
    omega

/-- A reply of `len` bytes as the readers see it. -/
structure ReplyAt (m : ℕ → UInt8) (len transactionId msgid numTlvs : ℕ) : Prop where
  messageType : (getQmiMessageType m).res = some 0x02
  transactionId : (getQmiTransactionId m).res = some transactionId
  msgid : (getQmiMessageId m).res = some msgid
  length : loadLE m 5 2 = len - sizeofQmiPacket
  success : ∀ n, len ≤ n → (didQmiOpFail n m len).res = some qmiResultSuccess
  count : ∀ n, len ≤ n → (countTlvsInMessage n m len).res = some numTlvs

/-- A message that starts with a result TLV for success is a reply. -/
theorem replyAt_outgoing (hid : msgid < 65536) (hlen : (encodeAll tlvs).length ≤ 1000)
    (hm : Holds m 0
      (outgoing 0x02 transactionId msgid (qmiGenericResultInd 0x00 0x00 :: tlvs)).encode) :
    ReplyAt m
      (outgoing 0x02 transactionId msgid (qmiGenericResultInd 0x00 0x00 :: tlvs)).encode.length
      transactionId.toNat msgid (tlvs.length + 1) := by
  have hsize : (encodeAll (qmiGenericResultInd 0x00 0x00 :: tlvs)).length =
      7 + (encodeAll tlvs).length := by
    rw [encodeAll_cons, List.length_append]
    rfl
  have hs : sizeofQmiPacket = 7 := rfl
  have hencode := QmiMessage.length_encode
    (outgoing 0x02 transactionId msgid (qmiGenericResultInd 0x00 0x00 :: tlvs))
  rw [show (outgoing 0x02 transactionId msgid (qmiGenericResultInd 0x00 0x00 :: tlvs)).tlvs =
    qmiGenericResultInd 0x00 0x00 :: tlvs from rfl, hsize] at hencode
  obtain ⟨htype, htid, hmsgid, hlength⟩ := header_outgoing hid (by rw [hsize]; omega) hm
  have hat := QmiMessage.messageAt hm rfl (by omega) (by omega)
  exact
    { messageType := htype
      transactionId := htid
      msgid := hmsgid
      length := by rw [hlength, hsize, hencode]; omega
      success := fun _ hn => hat.didQmiOpFail hn
      count := fun _ hn => hat.countTlvsInMessage hn }

end Readers

/-! ### One reply for each command -/

/-- What the handler does for a request, with the replies as their readers see them. -/
structure Answered (r : DcmRequest) (s : System) : Prop where
  returns : (handleIncomingQrtrRequest cursorBound r.datagram s.server).2.res = some ⟨⟩
  reply : r.message.header.msgid.toNat ∈ imsDcmCommands →
    ∃ reply, messagesSent (handleIncomingQrtrRequest cursorBound r.datagram s.server).2.log =
        [(r.datagram.clientAddr, reply)] ∧
      ∀ m, Holds m 0 reply → ReplyAt m reply.length r.message.header.transactionId.toNat
        r.message.header.msgid.toNat
        (if r.message.header.msgid.toNat = imsDcmPdpActivate then 4 else 1)
  silent : r.message.header.msgid.toNat ∉ imsDcmCommands →
    messagesSent (handleIncomingQrtrRequest cursorBound r.datagram s.server).2.log = []
  frame : r.message.header.msgid.toNat ≠ imsDcmPdpActivate →
    (s.receive r.datagram).server.pdpSession = s.server.pdpSession ∧
      (s.receive r.datagram).slot = s.slot

/-- Outputs that only send leave the slots, and the server, as they are. -/
theorem foldl_perform_sendto (s : System) (messages : List (SockaddrQrtr × List UInt8)) :
    (messages.map fun x => Output.sendto x.1 x.2).foldl System.perform s = s := by
  induction messages with
  | nil => rfl
  | cons x messages ih =>
    rw [List.map_cons, List.foldl_cons]
    exact ih

/-- The frame condition for a handler that only sends. -/
theorem frame_of_does {r : DcmRequest} {s : System}
    {messages : List (SockaddrQrtr × List UInt8)}
    (h : Does Access.output? (handleIncomingQrtrRequest cursorBound r.datagram) s.server
      (registerClient r.datagram.clientAddr s.server)
      (messages.map fun x => Output.sendto x.1 x.2) ⟨⟩) :
    (s.receive r.datagram).server.pdpSession = s.server.pdpSession ∧
      (s.receive r.datagram).slot = s.slot := by
  have hreceive : s.receive r.datagram =
      { s with server := registerClient r.datagram.clientAddr s.server } := by
    unfold System.receive
    dsimp only
    rw [h.out, h.state, foldl_perform_sendto]
  rw [hreceive]
  exact ⟨registerClient_pdpSession _ _, rfl⟩

/-- A message other than PDP-activate leaves the sessions and the WDS clients alone. -/
theorem frame_of_ne_pdpActivate {r : DcmRequest}
    (h : r.message.header.msgid.toNat ≠ imsDcmPdpActivate) (s : System) :
    (s.receive r.datagram).server.pdpSession = s.server.pdpSession ∧
      (s.receive r.datagram).slot = s.slot := by
  by_cases hplain : r.message.header.msgid.toNat ∈
      [imsDcmLinkAdd, imsDcmRegister, imsDcmEnableStatus, imsDcmClear]
  · exact @frame_of_does r s [(_, _)] (DcmRequest.handle_plain s.server hplain)
  · exact @frame_of_does r s [] (DcmRequest.handle_unknown s.server
      fun hmem => (List.mem_cons.1 hmem).elim h hplain)

/-- **Every well-formed request is answered as its id demands.** -/
theorem handle_replies (r : DcmRequest) (s : System) : Answered r s := by
  have hid : r.message.header.msgid.toNat < 65536 := r.message.header.msgid.toNat_lt
  by_cases hactivate : r.message.header.msgid.toNat = imsDcmPdpActivate
  · have hdoes := DcmRequest.handle_pdpActivate le_rfl hactivate s.server
    refine ⟨hdoes.res, fun _ => ⟨(r.response s.server).encode, ?_, fun m hm => ?_⟩, fun h => ?_,
      fun h => absurd hactivate h⟩
    · rw [messagesSent, hdoes.out]
      rfl
    · rw [if_pos hactivate, hactivate]
      exact replyAt_outgoing (by decide) (by simp [qmiGenericUint8TTlv, qmiGenericUint32TTlv,
        Tlv.size]) hm
    · rw [hactivate] at h
      exact absurd (by decide) h
  · by_cases hplain : r.message.header.msgid.toNat ∈
        [imsDcmLinkAdd, imsDcmRegister, imsDcmEnableStatus, imsDcmClear]
    · have hdoes := DcmRequest.handle_plain (n := cursorBound) s.server hplain
      refine ⟨hdoes.res, fun _ => ⟨_, by rw [messagesSent, hdoes.out]; rfl, fun m hm => ?_⟩,
        fun h => absurd (List.mem_cons_of_mem _ hplain) h,
        fun h => frame_of_ne_pdpActivate h s⟩
      rw [if_neg hactivate]
      exact replyAt_outgoing hid (by simp) hm
    · have hunknown : r.message.header.msgid.toNat ∉ imsDcmCommands := by
        rw [imsDcmCommands, List.mem_cons]
        exact not_or.2 ⟨hactivate, hplain⟩
      have hdoes := DcmRequest.handle_unknown (n := cursorBound) s.server hunknown
      exact ⟨hdoes.res, fun h => absurd h hunknown,
        fun _ => by rw [messagesSent, hdoes.out]; rfl,
        fun h => frame_of_ne_pdpActivate h s⟩

/-! ### The order of the TLVs -/

/-- The system after a PDP-activate request, in closed form. -/
theorem receive_pdpActivate {r : DcmRequest}
    (h : r.message.header.msgid.toNat = imsDcmPdpActivate) (s : System) :
    s.receive r.datagram =
      System.requestNetworkStart { s with server := r.after s.server }
        (UInt32.ofNat (simSlotOf r.message.tlvs)) := by
  have hdoes := DcmRequest.handle_pdpActivate le_rfl h s.server
  unfold System.receive
  dsimp only
  rw [hdoes.out, hdoes.state]
  rfl

/-- The session depends on the first TLVs with the four ids only. -/
theorem activateSession_congr {ts ts' : List Tlv} (h : ∀ tlvid, first tlvid ts' = first tlvid ts) :
    activateSession ts' = activateSession ts := by
  funext p
  simp only [activateSession, valueOr, h]

/-- **The order of the TLVs does not matter**: a PDP-activate request none of whose ids comes twice
and the same request with its TLVs in any other order get the same reply and leave the same
sessions and slots. -/
theorem receive_perm {r r' : DcmRequest}
    (hactivate : r.message.header.msgid.toNat = imsDcmPdpActivate)
    (hheader : r'.message.header = r.message.header)
    (haddr : r'.datagram.clientAddr = r.datagram.clientAddr)
    (hnodup : (r.message.tlvs.map Tlv.id).Nodup)
    (hperm : r'.message.tlvs.Perm r.message.tlvs) (s : System) :
    messagesSent (handleIncomingQrtrRequest cursorBound r'.datagram s.server).2.log =
        messagesSent (handleIncomingQrtrRequest cursorBound r.datagram s.server).2.log ∧
      (s.receive r'.datagram).server.pdpSession = (s.receive r.datagram).server.pdpSession ∧
      (s.receive r'.datagram).slot = (s.receive r.datagram).slot := by
  have hactivate' : r'.message.header.msgid.toNat = imsDcmPdpActivate := by rw [hheader, hactivate]
  have hfirst : ∀ tlvid, first tlvid r'.message.tlvs = first tlvid r.message.tlvs :=
    fun tlvid => first_perm hperm hnodup tlvid
  have hslot : simSlotOf r'.message.tlvs = simSlotOf r.message.tlvs := by
    rw [simSlotOf, simSlotOf, hfirst]
  have hafter : r'.after s.server = r.after s.server := by
    rw [DcmRequest.after, DcmRequest.after, haddr, hslot, activateSession_congr hfirst]
  have hresponse : r'.response s.server = r.response s.server := by
    rw [DcmRequest.response, DcmRequest.response, hheader, hslot, activateSession_congr hfirst]
  refine ⟨?_, ?_⟩
  · rw [messagesSent, messagesSent, (DcmRequest.handle_pdpActivate le_rfl hactivate s.server).out,
      (DcmRequest.handle_pdpActivate le_rfl hactivate' s.server).out, hresponse, haddr]
    rfl
  · rw [receive_pdpActivate hactivate, receive_pdpActivate hactivate', hafter, hslot]
    exact ⟨rfl, rfl⟩

/-- A request of a peer, whose TLVs `0x10` to `0x13`, if it is a PDP-activate request, all have
four bytes. -/
def dcmRequest (clientAddr : SockaddrQrtr) (family_eq : clientAddr.sqFamily = afQipcrtr)
    (message : QmiMessage) (length_le : message.encode.length ≤ 1023)
    (values_eq : message.header.msgid.toNat = imsDcmPdpActivate →
      ∀ t ∈ message.tlvs, t.id ∈ [0x10, 0x11, 0x12, 0x13] → t.value.length = 4)
    (simSlot_lt : message.header.msgid.toNat = imsDcmPdpActivate →
      simSlotOf message.tlvs < maxSimSlots) : DcmRequest where
  datagram := ⟨memory message.encode fun _ => 0, message.encode.length, length_le, clientAddr,
    family_eq⟩
  message
  holds := holds_memory _ _
  inbuffLen_eq := rfl
  values_eq := by
    intro h tlvid hid v hfirst
    obtain ⟨t, ht, rfl, rfl⟩ := exists_of_first hfirst
    exact values_eq h t ht hid
  simSlot_lt

def samplePeer : SockaddrQrtr := ⟨afQipcrtr, 1, 1⟩

theorem sqFamily_samplePeer : samplePeer.sqFamily = afQipcrtr := rfl

/-- The four TLVs in their usual order. -/
def usualTlvs : List Tlv :=
  [qmiGenericUint32TTlv 0x10 7, qmiGenericUint32TTlv 0x11 1, qmiGenericUint32TTlv 0x12 1,
    qmiGenericUint32TTlv 0x13 3]

/-- A request with the TLVs in some order. -/
def orderedRequest (tlvs : List Tlv) (h : tlvs.Perm usualTlvs) : DcmRequest :=
  dcmRequest samplePeer sqFamily_samplePeer ⟨⟨0x00, 1, 0x20, 28⟩, tlvs⟩
    (by
      have hlen : (encodeAll tlvs).length = (encodeAll usualTlvs).length :=
        (h.flatMap_right encode).length_eq
      rw [QmiMessage.length_encode, hlen]
      decide)
    (fun _ t ht _ => by
      have hall : ∀ t ∈ usualTlvs, t.value.length = 4 := by decide
      exact hall t (h.mem_iff.1 ht))
    (fun _ => by
      rw [simSlotOf, first_perm h (by decide)]
      decide)

/-- The usual order, and the other way round. -/
def usualRequest : DcmRequest := orderedRequest usualTlvs (.refl _)
@[inherit_doc usualRequest] def reversedRequest : DcmRequest :=
  orderedRequest usualTlvs.reverse (List.reverse_perm _)

theorem clientAddr_orderedRequest {tlvs : List Tlv} (h : tlvs.Perm usualTlvs) :
    (orderedRequest tlvs h).datagram.clientAddr = samplePeer := rfl

theorem receive_perm_reversedRequest :
    let s : System := ⟨initializeQmiServer, fun _ => freshSlot, false⟩
    messagesSent (handleIncomingQrtrRequest cursorBound reversedRequest.datagram s.server).2.log =
        messagesSent (handleIncomingQrtrRequest cursorBound usualRequest.datagram s.server).2.log ∧
      (s.receive reversedRequest.datagram).server.pdpSession =
        (s.receive usualRequest.datagram).server.pdpSession ∧
      (s.receive reversedRequest.datagram).slot = (s.receive usualRequest.datagram).slot := by
  have hnodup : (usualRequest.message.tlvs.map Tlv.id).Nodup := by
    show (usualTlvs.map Tlv.id).Nodup
    decide
  have haddr : reversedRequest.datagram.clientAddr = usualRequest.datagram.clientAddr :=
    (clientAddr_orderedRequest (List.reverse_perm _)).trans
      (clientAddr_orderedRequest (.refl _)).symm
  exact @receive_perm usualRequest reversedRequest rfl rfl haddr hnodup
    (List.reverse_perm usualTlvs) ⟨initializeQmiServer, fun _ => freshSlot, false⟩

end Imsd
