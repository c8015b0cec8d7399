import Imsd.QmiMessage

/-!
# `dcm.c`: the DCM server

The server answers the requests of its QRTR peers and sends them an indication when a PDP
connection gets its address.  The two entry points are computations over the `QRTRServer`:

* `handleIncomingQrtrRequest n d`: one datagram.  The fuel `n` bounds the passes of each TLV walk.
* `notifyPdpIpaddressChange slotId ip`: the indication.  Its value is the message built, `none`
  standing for `FALSE`.

They log every byte of the datagram they read, every index into `PDP_Session` they use, and their
outputs: the calls of `request_network_start` and the messages sent.

The slot of a request is an index into `PDP_Session` that nobody checks.  What lies behind the
array is other memory; a computation that touches it has logged that and ends there.
-/

namespace Imsd

open Bytes Tlv

/-- `MAX_SIM_SLOTS`. -/
def maxSimSlots : ℕ := 2

/-- `AF_QIPCRTR`. -/
def afQipcrtr : UInt16 := 42

/-! ### Data -/

/-- `struct sockaddr_qrtr`. -/
structure SockaddrQrtr where
  sqFamily : UInt16
  sqNode : UInt32
  sqPort : UInt32
  deriving DecidableEq

/-- Its bytes; two bytes of padding follow the family. -/
def SockaddrQrtr.encode (a : SockaddrQrtr) : List UInt8 :=
  toLE 2 a.sqFamily.toNat ++ [0, 0] ++ toLE 4 a.sqNode.toNat ++ toLE 4 a.sqPort.toNat

/-- `g_int_equal`: the keys agree as `gint`s, that is, in their first four bytes. -/
def gIntEqual (a b : SockaddrQrtr) : Bool := ofLE (a.encode.take 4) = ofLE (b.encode.take 4)

/-- The fields of `_DCM_PDP_Session` that the server uses. -/
structure DcmPdpSession where
  internalPdpId : UInt8
  pdpSequenceId : UInt32
  pdpInstanceId : UInt32
  slotId : UInt32
  pdpSubscriptionId : UInt32
  deriving DecidableEq

/-- `QRTRServer`.  `clients` are the keys of the hash table.  `pdpSession` is the array
`PDP_Session[MAX_SIM_SLOTS]`: no computation gets at an element from `maxSimSlots` on
(`touchSession`). -/
structure QRTRServer where
  clients : List SockaddrQrtr
  transactionId : UInt16
  pdpSession : ℕ → DcmPdpSession

/-- The server as `initialize_qmi_server` sets it up, from zeroed memory. -/
def initializeQmiServer : QRTRServer := ⟨[], 99, fun _ => ⟨0, 0, 0, 0, 0⟩⟩

/-- The server with `PDP_Session[i]` changed by `g`. -/
def QRTRServer.setSession (server : QRTRServer) (i : ℕ) (g : DcmPdpSession → DcmPdpSession) :
    QRTRServer :=
  { server with pdpSession := Function.update server.pdpSession i (g (server.pdpSession i)) }

/-- What `recvfrom` delivers: at most 1023 bytes, in a buffer whose other bytes are whatever lies
there, and the sender's address. -/
structure Datagram where
  inbuff : ℕ → UInt8
  inbuffLen : ℕ
  inbuffLen_le : inbuffLen ≤ 1023
  clientAddr : SockaddrQrtr
  family_eq : clientAddr.sqFamily = afQipcrtr

/-- What the server does to others. -/
inductive Output
  | networkStart (slot : UInt32)
  | sendto (addr : SockaddrQrtr) (bytes : List UInt8)
  deriving DecidableEq

/-- What the server logs: the offsets of `inbuff` and the indices of `PDP_Session` it uses, and
its outputs. -/
inductive Access
  | read (i : ℕ)
  | session (i : ℕ)
  | out (o : Output)
  deriving DecidableEq

/-- The outputs among the accesses. -/
def Access.output? : Access → Option Output
  | .out o => some o
  | _ => none

/-- The commands. -/
def imsDcmPdpActivate : ℕ := 0x0020
@[inherit_doc imsDcmPdpActivate] def imsDcmLinkAdd : ℕ := 0x0023
@[inherit_doc imsDcmPdpActivate] def imsDcmRegister : ℕ := 0x002e
@[inherit_doc imsDcmPdpActivate] def imsDcmEnableStatus : ℕ := 0x0034
@[inherit_doc imsDcmPdpActivate] def imsDcmClear : ℕ := 0x0033

/-! ### Primitives -/

/-- A computation over the server. -/
abbrev DcmM (α : Type) := Exec QRTRServer Access α

/-- Read from the datagram. -/
def recv {α : Type} (x : Traced ℕ α) : DcmM α := Exec.lift (x.mapLog Access.read)

/-- Get at `PDP_Session[i]`, or at the memory behind the array. -/
def touchSession (i : ℕ) : DcmM PUnit := do
  Exec.emitAll [Access.session i]
  if i < maxSimSlots then pure ⟨⟩ else Exec.lift Traced.stuck

/-- Use `PDP_Session[i]`. -/
def readSession (i : ℕ) : DcmM DcmPdpSession := do
  touchSession i
  let server ← Exec.get
  pure (server.pdpSession i)

/-- Write to `PDP_Session[i]`. -/
def updateSession (i : ℕ) (g : DcmPdpSession → DcmPdpSession) : DcmM PUnit := do
  touchSession i
  Exec.modify fun server => server.setSession i g

/-- A message whose length field counts the bytes after the header. -/
def outgoing (messageType : UInt8) (transactionId : UInt16) (msgid : ℕ) (tlvs : List Tlv) :
    QmiMessage :=
  ⟨⟨messageType, transactionId, UInt16.ofNat msgid, UInt16.ofNat (encodeAll tlvs).length⟩, tlvs⟩

/-! ### The indication -/

/-- The loop over the sessions: the last one with the slot id. -/
def activeSimSlot (server : QRTRServer) (slotId : UInt32) : Option ℕ :=
  (List.range maxSimSlots).foldl
    (fun active i => if slotId = (server.pdpSession i).slotId then some i else active) none

/-- `struct ipaddr_block`, with the address behind it; the size has eight bits. -/
def ipaddrBlock (ipAddress : List UInt8) : Tlv :=
  ⟨0x11, toLE 4 0 ++ UInt8.ofNat ipAddress.length :: ipAddress.take (ipAddress.length % 256), by
    have : min (ipAddress.length % 256) ipAddress.length < 256 :=
      lt_of_le_of_lt (min_le_left _ _) (Nat.mod_lt _ (by norm_num))
    simp only [List.length_append, length_toLE, List.length_cons, List.length_take]
    omega⟩

/-- The indication for the session. -/
def pdpIndication (transactionId : UInt16) (session : DcmPdpSession) (ipAddress : List UInt8) :
    QmiMessage :=
  outgoing 0x04 transactionId imsDcmPdpActivate
    [qmiGenericResultInd 0x00 0x00, qmiGenericUint8TTlv 0x01 session.internalPdpId,
      qmiGenericUint32TTlv 0x10 session.pdpSequenceId, ipaddrBlock ipAddress,
      qmiGenericUint32TTlv 0x12 session.pdpInstanceId]

/-- Transaction ids run from 1 to 99. -/
def nextTransactionId (id : UInt16) : UInt16 := if id = 99 then 1 else id + 1

/-- `notify_pdp_ipaddress_change`; `ipAddress` are the bytes of the string. -/
def notifyPdpIpaddressChange (slotId : UInt32) (ipAddress : List UInt8) :
    DcmM (Option (List UInt8)) := do
  Exec.emitAll ((List.range maxSimSlots).map Access.session)
  let server ← Exec.get
  match activeSimSlot server slotId with
  | none => pure none
  | some active =>
    Exec.modify fun server =>
      { server with transactionId := nextTransactionId server.transactionId }
    let server ← Exec.get
    let session ← readSession active
    let outbuff := (pdpIndication server.transactionId session ipAddress).encode
    -- the fan-out: one `sendto` for every key of the table
    Exec.emitAll (server.clients.map fun addr => Access.out (.sendto addr outbuff))
    pure (some outbuff)

/-! ### Requests -/

/-- The sender goes into the table unless the table finds a key equal to its address. -/
def registerClient (addr : SockaddrQrtr) (server : QRTRServer) : QRTRServer :=
  if server.clients.any fun key => gIntEqual key addr then server
  else { server with clients := server.clients ++ [addr] }

/-- Look for a TLV and, if there is one, store its first `width` data bytes in the session. -/
def storeTlv (n : ℕ) (d : Datagram) (slot : ℕ) (tlvid : UInt8) (width : ℕ)
    (store : ℕ → DcmPdpSession → DcmPdpSession) : DcmM PUnit := do
  let offset ← recv (getTlvOffsetById n d.inbuff d.inbuffLen tlvid)
  if offset > 0 then
    let data ← recv (load d.inbuff (offset + 3) width)
    updateSession slot (store data)
  else pure ⟨⟩

/-- The TLV `0x10` is read through `struct qmi_generic_uint8_t_tlv`, the others as 32 bits. -/
def storePdpSequenceId (n : ℕ) (d : Datagram) (slot : ℕ) : DcmM PUnit :=
  storeTlv n d slot 0x10 1 fun data p => { p with pdpSequenceId := UInt32.ofNat data }

@[inherit_doc storePdpSequenceId]
def storePdpSubscriptionId (n : ℕ) (d : Datagram) (slot : ℕ) : DcmM PUnit :=
  storeTlv n d slot 0x11 4 fun data p => { p with pdpSubscriptionId := UInt32.ofNat data }

@[inherit_doc storePdpSequenceId]
def storeSlotId (n : ℕ) (d : Datagram) (slot : ℕ) : DcmM PUnit :=
  storeTlv n d slot 0x12 4 fun data p => { p with slotId := UInt32.ofNat data }

@[inherit_doc storePdpSequenceId]
def storePdpInstanceId (n : ℕ) (d : Datagram) (slot : ℕ) : DcmM PUnit :=
  storeTlv n d slot 0x13 4 fun data p => { p with pdpInstanceId := UInt32.ofNat data }

/-- `sim_slot`: the TLV `0x12`, or the first slot without it. -/
def readSimSlot (n : ℕ) (d : Datagram) : DcmM ℕ := do
  let offset ← recv (getTlvOffsetById n d.inbuff d.inbuffLen 0x12)
  if offset > 0 then recv (load d.inbuff (offset + 3) 4) else pure 0

/-- `struct ims_dcm_pdp_activate_response`. -/
def pdpActivateResponse (transactionId : UInt16) (msgid : ℕ) (session : DcmPdpSession) :
    QmiMessage :=
  outgoing 0x02 transactionId msgid
    [qmiGenericResultInd 0x00 0x00, qmiGenericUint8TTlv 0x10 session.internalPdpId,
      qmiGenericUint32TTlv 0x11 session.pdpSequenceId,
      qmiGenericUint32TTlv 0x12 session.pdpInstanceId]

/-- The case `IMS_DCM_PDP_ACTIVATE`. -/
def pdpActivate (n : ℕ) (d : Datagram) (transactionId : UInt16) (msgid : ℕ) : DcmM PUnit := do
  let simSlot ← readSimSlot n d
  storePdpSequenceId n d simSlot
  storePdpSubscriptionId n d simSlot
  storeSlotId n d simSlot
  storePdpInstanceId n d simSlot
  Exec.emitAll [Access.out (.networkStart (UInt32.ofNat simSlot))]
  let session ← readSession simSlot
  Exec.emitAll
    [Access.out (.sendto d.clientAddr (pdpActivateResponse transactionId msgid session).encode)]

/-- The other commands get a plain result. -/
def plainResponse (d : Datagram) (transactionId : UInt16) (msgid : ℕ) : DcmM PUnit :=
  Exec.emitAll [Access.out (.sendto d.clientAddr
    (outgoing 0x02 transactionId msgid [qmiGenericResultInd 0x00 0x00]).encode)]

/-- The `switch` over the message id, which is read again for it. -/
def dispatch (n : ℕ) (d : Datagram) (transactionId : UInt16) (msgid command : ℕ) :
    DcmM PUnit :=
  if command = imsDcmPdpActivate then pdpActivate n d transactionId msgid
  else if command = imsDcmLinkAdd ∨ command = imsDcmRegister ∨ command = imsDcmEnableStatus ∨
      command = imsDcmClear then plainResponse d transactionId msgid
  else pure ⟨⟩

/-- `handle_incoming_qrtr_request`, for a datagram that was received. -/
def handleIncomingQrtrRequest (n : ℕ) (d : Datagram) : DcmM PUnit := do
  Exec.modify (registerClient d.clientAddr)
  -- the debug dump reads the whole datagram
  recv ⟨List.range d.inbuffLen, some PUnit.unit⟩
  let msgid ← recv (getQmiMessageId d.inbuff)
  let transactionId ← recv (getQmiTransactionId d.inbuff)
  let command ← recv (getQmiMessageId d.inbuff)
  dispatch n d (UInt16.ofNat transactionId) msgid command

end Imsd
