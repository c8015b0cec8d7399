import Imsd.DcmClients
import Imsd.DcmReplies

/-!
# The indications as their receivers read them

`IndicationAt` lists what the readers of `qmi-util.c` find in an indication: the header, five TLVs
with their positions, and the fields of each.  `indicationAt_of_holds` is the layout, for every
address of at most 255 bytes: the length of the block in the middle moves the last TLV, and the
three sizes that the code computes separately agree.

A run of the server is a list of calls (`runCalls`), requests and notifications in any order.
`notify_after_calls` says what the next notification does after every run; the transaction id
counts the indications that the run has built, and nothing else.
-/

namespace Imsd

open Bytes Tlv Exec

/-! ### The layout -/

/-- What the readers find in an indication at address `0`: for each TLV its offset, its length
and its value. -/
structure IndicationAt (m : ℕ → UInt8) (n transactionId : ℕ) (session : DcmPdpSession)
    (ipAddress : List UInt8) : Prop where
  messageType : (getQmiMessageType m).res = some 0x04
  transactionId : (getQmiTransactionId m).res = some transactionId
  msgid : (getQmiMessageId m).res = some imsDcmPdpActivate
  length : loadLE m 5 2 = 33 + ipAddress.length
  tlvs : messageTlvs m (40 + ipAddress.length) =
    some (pdpIndication 0 session ipAddress).tlvs
  count : (countTlvsInMessage n m (40 + ipAddress.length)).res = some 5
  success : (didQmiOpFail n m (40 + ipAddress.length)).res = some qmiResultSuccess
  result : (getTlvOffsetById n m (40 + ipAddress.length) 0x02).res = some 7 ∧
    loadLE m 8 2 = 4 ∧ loadLE m 10 2 = 0 ∧ loadLE m 12 2 = 0
  pdpId : (getTlvOffsetById n m (40 + ipAddress.length) 0x01).res = some 14 ∧
    loadLE m 15 2 = 1 ∧ loadLE m 17 1 = session.internalPdpId.toNat
  pdpSequence : (getTlvOffsetById n m (40 + ipAddress.length) 0x10).res = some 18 ∧
    loadLE m 19 2 = 4 ∧ loadLE m 21 4 = session.pdpSequenceId.toNat
  ipaddr : (getTlvOffsetById n m (40 + ipAddress.length) 0x11).res = some 25 ∧
    loadLE m 26 2 = 5 + ipAddress.length ∧ loadLE m 28 4 = 0 ∧
    loadLE m 32 1 = ipAddress.length ∧ Holds m 33 ipAddress
  pdpInstance : (getTlvOffsetById n m (40 + ipAddress.length) 0x12).res =
      some (33 + ipAddress.length) ∧
    loadLE m (34 + ipAddress.length) 2 = 4 ∧
    loadLE m (36 + ipAddress.length) 4 = session.pdpInstanceId.toNat

/-- The value of the address block, for an address whose length fits into its size field. -/
theorem value_ipaddrBlock {ipAddress : List UInt8} (h : ipAddress.length ≤ 255) :
    (ipaddrBlock ipAddress).value =
      toLE 4 0 ++ ([UInt8.ofNat ipAddress.length] ++ ipAddress) := by
  have hmod : ipAddress.length % 256 = ipAddress.length := Nat.mod_eq_of_lt (by omega)
  show toLE 4 0 ++ UInt8.ofNat ipAddress.length :: ipAddress.take (ipAddress.length % 256) = _
  rw [hmod, List.take_length, List.singleton_append]

theorem size_ipaddrBlock {ipAddress : List UInt8} (h : ipAddress.length ≤ 255) :
    (ipaddrBlock ipAddress).size = 8 + ipAddress.length := by
  rw [Tlv.size, value_ipaddrBlock h]
  simp only [List.length_append, length_toLE, List.length_singleton]
  omega

section Layout

variable (transactionId : UInt16) (session : DcmPdpSession) {ipAddress : List UInt8}

theorem length_pdpIndication_tlvs (h : ipAddress.length ≤ 255) :
    (encodeAll (pdpIndication transactionId session ipAddress).tlvs).length =
      33 + ipAddress.length := by
  simp only [pdpIndication, outgoing, encodeAll_cons, encodeAll_nil, List.length_append,
    Tlv.length_encode, size_ipaddrBlock h, List.length_nil]
  simp only [qmiGenericResultInd, qmiGenericUint8TTlv, qmiGenericUint32TTlv, Tlv.size,
    List.length_append, length_toLE, List.length_singleton]
  omega

theorem length_pdpIndication (h : ipAddress.length ≤ 255) :
    (pdpIndication transactionId session ipAddress).encode.length = 40 + ipAddress.length := by
  rw [QmiMessage.length_encode, length_pdpIndication_tlvs transactionId session h, sizeofQmiPacket]
  omega

variable {transactionId session}

/-- **The readers find the whole layout in an indication.** -/
theorem indicationAt_of_holds (h : ipAddress.length ≤ 255) {m : ℕ → UInt8} {n : ℕ}
    (hm : Holds m 0 (pdpIndication transactionId session ipAddress).encode)
    (hn : 40 + ipAddress.length ≤ n) :
    IndicationAt m n transactionId.toNat session ipAddress := by
  have hlen := length_pdpIndication transactionId session h
  have hs : sizeofQmiPacket = 7 := rfl
  have hat := QmiMessage.messageAt hm hlen.symm (by omega) (by omega)
  have hfirst := fun tlvid => hat.getTlvOffsetById hn tlvid
  -- the five TLVs, one after the other
  obtain ⟨-, hl₁, hv₁, hm₁⟩ := holds_head (QmiMessage.holds_tlvs hm)
  rw [show sizeofQmiPacket + (qmiGenericResultInd 0 0).size = 14 from rfl] at hm₁
  obtain ⟨-, hl₂, hv₂, hm₂⟩ := holds_head hm₁
  rw [show 14 + (qmiGenericUint8TTlv 0x01 session.internalPdpId).size = 18 from rfl] at hm₂
  obtain ⟨-, hl₃, hv₃, hm₃⟩ := holds_head hm₂
  rw [show 18 + (qmiGenericUint32TTlv 0x10 session.pdpSequenceId).size = 25 from rfl] at hm₃
  obtain ⟨-, hl₄, hv₄, hm₄⟩ := holds_head hm₃
  rw [show 25 + (ipaddrBlock ipAddress).size = 33 + ipAddress.length by
    rw [size_ipaddrBlock h]; omega] at hm₄
  obtain ⟨-, hl₅, hv₅, -⟩ := holds_head hm₄
  obtain ⟨hresult, hresponse⟩ := holds_append.1 hv₁
  rw [value_ipaddrBlock h] at hl₄ hv₄
  obtain ⟨hfamily, hsize, haddress⟩ := by
    simpa only [holds_append, length_toLE, List.length_singleton] using hv₄
  have hinstance : firstOffset 0x12 sizeofQmiPacket
      (pdpIndication transactionId session ipAddress).tlvs =
      some (25 + (ipaddrBlock ipAddress).size) := rfl
  have hread : ∀ {w k c : ℕ}, Holds m c (toLE w k) → k < 256 ^ w → loadLE m c w = k :=
    fun hk hlt => (loadLE_toLE hk).trans (Nat.mod_eq_of_lt hlt)
  have htlvs := length_pdpIndication_tlvs transactionId session h
  obtain ⟨htype, htid, hmsgid, hlength⟩ := header_outgoing (by decide)
    (show (encodeAll (pdpIndication transactionId session ipAddress).tlvs).length < 65536 by
      omega) hm
  exact
    { messageType := htype
      transactionId := htid
      msgid := hmsgid
      length := hlength.trans htlvs
      tlvs := hat.messageTlvs_eq
      count := hat.countTlvsInMessage hn
      success := hat.didQmiOpFail hn
      result := ⟨hfirst 0x02, hl₁, hread hresult (by norm_num), hread hresponse (by norm_num)⟩
      pdpId := ⟨hfirst 0x01, hl₂, by
        simpa using @loadLE_of_holds m _ [session.internalPdpId] hv₂⟩
      pdpSequence := ⟨hfirst 0x10, hl₃, hread hv₃ session.pdpSequenceId.toNat_lt⟩
      ipaddr := by
        refine ⟨hfirst 0x11, ?_, hread hfamily (by norm_num), ?_, haddress⟩
        · rw [hl₄]
          simp only [List.length_append, length_toLE, List.length_singleton]
          omega
        · have hn := loadLE_of_holds hsize
          simp only [List.length_singleton, ofLE_cons, ofLE_nil, UInt8.toNat_ofNat'] at hn
          rw [hn]
          omega
      pdpInstance := by
        refine ⟨?_, ?_, ?_⟩
        · rw [hfirst 0x12, hinstance, size_ipaddrBlock h, Option.getD_some]
          congr 1
          omega
        · rw [show 34 + ipAddress.length = 33 + ipAddress.length + 1 by omega]
          exact hl₅
        · rw [show 36 + ipAddress.length = 33 + ipAddress.length + 3 by omega]
          exact hread hv₅ session.pdpInstanceId.toNat_lt }

end Layout

/-! ### Runs -/

/-- A call of one of the two entry points. -/
inductive ServerCall
  | request (d : Datagram)
  | notify (slotId : UInt32) (ipAddress : List UInt8)

/-- The server after a call, and the indication that the call has built. -/
def QRTRServer.call (server : QRTRServer) : ServerCall → QRTRServer × Option (List UInt8)
  | .request d => ((handleIncomingQrtrRequest cursorBound d server).1, none)
  | .notify slotId ipAddress =>
    let result := notifyPdpIpaddressChange slotId ipAddress server
    (result.1, result.2.res.join)

/-- The server after a list of calls, and the indications that they have built, in order. -/
def runCalls (start : QRTRServer) (calls : List ServerCall) : QRTRServer × List (List UInt8) :=
  calls.foldl (fun r c => ((r.1.call c).1, r.2 ++ (r.1.call c).2.toList)) (start, [])

theorem runCalls_snoc (start : QRTRServer) (calls : List ServerCall) (c : ServerCall) :
    runCalls start (calls ++ [c]) =
      (((runCalls start calls).1.call c).1,
        (runCalls start calls).2 ++ ((runCalls start calls).1.call c).2.toList) := by
  rw [runCalls, List.foldl_append]
  rfl

/-- The counter as it is after `k` indications: its next value is `k % 99 + 1`. -/
def CountsTo (server : QRTRServer) (k : ℕ) : Prop :=
  (nextTransactionId server.transactionId).toNat = k % 99 + 1

theorem CountsTo.next {server server' : QRTRServer} {k : ℕ} (h : CountsTo server k)
    (h' : server'.transactionId = nextTransactionId server.transactionId) :
    CountsTo server' (k + 1) := by
  unfold CountsTo at h ⊢
  rw [h']
  generalize nextTransactionId server.transactionId = id at h ⊢
  unfold nextTransactionId
  by_cases hid : id = 99
  · rw [hid] at h ⊢
    have h99 : (99 : UInt16).toNat = 99 := rfl
    have h1 : (1 : UInt16).toNat = 1 := rfl
    rw [if_pos rfl, h1]
    omega
  · have hne : id.toNat ≠ 99 := fun he => hid (UInt16.toNat_inj.1 he)
    have h1 : (1 : UInt16).toNat = 1 := rfl
    rw [if_neg hid, UInt16.toNat_add, h1]
    omega

/-- A call moves the counter on if and only if it has built an indication. -/
theorem CountsTo.call {server : QRTRServer} {k : ℕ} (h : CountsTo server k) (c : ServerCall) :
    CountsTo (server.call c).1 (k + (server.call c).2.toList.length) := by
  cases c with
  | request d =>
    have hregister : (registerClient d.clientAddr server).transactionId = server.transactionId := by
      unfold registerClient
      split_ifs <;> rfl
    have hkeep : (server.call (.request d)).1.transactionId = server.transactionId :=
      (handle_keeps (g := QRTRServer.transactionId) (fun _ _ _ => rfl) cursorBound d server).trans
        hregister
    unfold CountsTo
    rw [hkeep]
    exact h
  | notify slotId ipAddress =>
    cases hi : activeSimSlot server slotId with
    | none =>
      have hdoes := notify_none hi ipAddress
      rw [QRTRServer.call, hdoes.state, hdoes.res]
      exact h
    | some i =>
      have hdoes := notify_does hi ipAddress
      rw [QRTRServer.call, hdoes.state, hdoes.res]
      exact h.next rfl

/-- **The counter counts the indications of a run.** -/
theorem countsTo_runCalls {start : QRTRServer} (h : start.transactionId = 99)
    (calls : List ServerCall) :
    CountsTo (runCalls start calls).1 (runCalls start calls).2.length := by
  induction calls using List.reverseRecOn with
  | nil =>
    unfold CountsTo runCalls
    rw [List.foldl_nil, h]
    rfl
  | append_singleton calls c ih =>
    rw [runCalls_snoc, List.length_append]
    exact ih.call c

/-- **The next indication of a run.**  When the lookup finds a session, every client is sent one
message with this layout; its transaction id is `k % 99 + 1` after `k` indications, if the counter
has started as `initialize_qmi_server` sets it.  When the lookup fails, nothing happens. -/
theorem notify_after_calls (start : QRTRServer) (calls : List ServerCall) (slotId : UInt32)
    {ipAddress : List UInt8} (hip : ipAddress.length ≤ 255) :
    ∃ server built, runCalls start calls = (server, built) ∧
      (activeSimSlot server slotId = none →
        (notifyPdpIpaddressChange slotId ipAddress server).1 = server ∧
        (notifyPdpIpaddressChange slotId ipAddress server).2.res = some none ∧
        messagesSent (notifyPdpIpaddressChange slotId ipAddress server).2.log = []) ∧
      ∀ i, activeSimSlot server slotId = some i →
        ∃ message transactionId,
          (notifyPdpIpaddressChange slotId ipAddress server).2.res = some (some message) ∧
          messagesSent (notifyPdpIpaddressChange slotId ipAddress server).2.log =
            (server.clients.map fun addr => (addr, message)) ∧
          message.length = 40 + ipAddress.length ∧
          (start.transactionId = 99 → transactionId = built.length % 99 + 1) ∧
          ∀ m, Holds m 0 message → ∀ n, message.length ≤ n →
            IndicationAt m n transactionId (server.pdpSession i) ipAddress := by
  refine ⟨(runCalls start calls).1, (runCalls start calls).2, rfl, fun hnone => ?_,
    fun i hi => ?_⟩
  · have hdoes := notify_none hnone ipAddress
    exact ⟨hdoes.state, hdoes.res, by rw [messagesSent, hdoes.out]; rfl⟩
  · have hdoes := notify_does hi ipAddress
    have hlen := length_pdpIndication
      (nextTransactionId (runCalls start calls).1.transactionId)
      ((runCalls start calls).1.pdpSession i) hip
    refine ⟨_, _, hdoes.res, messagesSent_notify hdoes.res, hlen,
      fun h => countsTo_runCalls h calls, fun m hm n hn => ?_⟩
    rw [hlen] at hn
    exact indicationAt_of_holds hip hm hn

/-- After one indication and one failed lookup, the next indication has the id `2`. -/
theorem notify_after_two_calls : ∃ message,
    (notifyPdpIpaddressChange 0 [0x31, 0x30] (runCalls initializeQmiServer
      [.notify 0 [0x31], .notify 5 [0x31]]).1).2.res = some (some message) ∧
    message.length = 42 ∧ ∀ m, Holds m 0 message → (getQmiTransactionId m).res = some 2 := by
  obtain ⟨server, built, hrun, -, hfound⟩ := @notify_after_calls initializeQmiServer
    [.notify 0 [0x31], .notify 5 [0x31]] 0 [0x31, 0x30] (by norm_num)
  cases hrun
  obtain ⟨message, transactionId, hres, -, hlen, htid, hread⟩ := hfound 1 rfl
  refine ⟨message, hres, hlen, fun m hm => ?_⟩
  rw [(hread m hm 42 (by rw [hlen]; norm_num)).transactionId, htid rfl]
  rfl

end Imsd
