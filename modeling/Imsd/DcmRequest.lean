import Imsd.Dcm
import Imsd.QmiDecode

/-!
# What the handler does with a request

A `DcmRequest` is a datagram that holds a QMI message and nothing else.  If the message is a
PDP-activate request, those of the TLVs `0x10` to `0x13` that it carries have four bytes, and its
slot is one of the array's.  Its other TLVs, and the messages with other ids, are arbitrary.

`handle_pdpActivate`, `handle_plain` and `handle_unknown` specify the handler as `Exec.Does`
facts: the state left, the outputs and the value.  All it takes from the TLVs is what
`Tlv.first` finds.  For arbitrary datagrams `handle_keeps` says what the handler leaves alone.
-/

namespace Imsd

open Bytes Tlv Exec

/-- As many passes as a 16-bit cursor has values. -/
def cursorBound : ℕ := 65536

/-- The slot that the handler takes from the TLVs. -/
def simSlotOf (ts : List Tlv) : ℕ := ((first 0x12 ts).map ofLE).getD 0

/-- A well-formed request. -/
structure DcmRequest where
  datagram : Datagram
  message : QmiMessage
  holds : Holds datagram.inbuff 0 message.encode
  inbuffLen_eq : datagram.inbuffLen = message.encode.length
  values_eq : message.header.msgid.toNat = imsDcmPdpActivate →
    ∀ tlvid ∈ [0x10, 0x11, 0x12, 0x13], ∀ v, first tlvid message.tlvs = some v → v.length = 4
  simSlot_lt : message.header.msgid.toNat = imsDcmPdpActivate →
    simSlotOf message.tlvs < maxSimSlots

/-- The number in the first `width` bytes of the first TLV with the id, or `x` without one. -/
def valueOr (ts : List Tlv) (tlvid : UInt8) (width : ℕ) (x : UInt32) : UInt32 :=
  ((first tlvid ts).map fun v => UInt32.ofNat (ofLE (v.take width))).getD x

/-- The session after a PDP-activate request with the TLVs `ts`: of the sequence id only the low
byte is taken over. -/
def activateSession (ts : List Tlv) (p : DcmPdpSession) : DcmPdpSession :=
  { p with
    pdpSequenceId := valueOr ts 0x10 1 p.pdpSequenceId
    pdpSubscriptionId := valueOr ts 0x11 4 p.pdpSubscriptionId
    slotId := valueOr ts 0x12 4 p.slotId
    pdpInstanceId := valueOr ts 0x13 4 p.pdpInstanceId }

theorem valueOr_some {ts : List Tlv} {tlvid : UInt8} {v : List UInt8} (h : first tlvid ts = some v)
    (width : ℕ) (x : UInt32) : valueOr ts tlvid width x = UInt32.ofNat (ofLE (v.take width)) := by
  simp [valueOr, h]

theorem valueOr_none {ts : List Tlv} {tlvid : UInt8} (h : first tlvid ts = none) (width : ℕ)
    (x : UInt32) : valueOr ts tlvid width x = x := by
  simp [valueOr, h]

/-! ### What the primitives do -/

namespace QRTRServer

variable (server : QRTRServer) (i : ℕ) (g g' : DcmPdpSession → DcmPdpSession)

@[simp] theorem setSession_pdpSession_self :
    (server.setSession i g).pdpSession i = g (server.pdpSession i) := by
  simp [setSession]

@[simp] theorem setSession_pdpSession_of_ne {i j : ℕ} (h : j ≠ i) :
    (server.setSession i g).pdpSession j = server.pdpSession j := by
  simp [setSession, h]

@[simp] theorem setSession_id : (server.setSession i fun p => p) = server := by
  simp [setSession]

/-- Two changes to one session are one. -/
@[simp] theorem setSession_setSession :
    (server.setSession i g).setSession i g' = server.setSession i (g' ∘ g) := by
  simp [setSession]

end QRTRServer

@[simp] theorem registerClient_pdpSession (addr : SockaddrQrtr) (server : QRTRServer) :
    (registerClient addr server).pdpSession = server.pdpSession := by
  unfold registerClient
  split_ifs <;> rfl

theorem recv_does {α : Type} {x : Traced ℕ α} {a : α} (s : QRTRServer) (h : x.res = some a) :
    Does Access.output? (recv x) s s [] a :=
  Does.lift s h (by simp [Access.output?])

section Session

variable {i : ℕ} (hi : i < maxSimSlots)
include hi

theorem touchSession_does (s : QRTRServer) : Does Access.output? (touchSession i) s s [] ⟨⟩ := by
  refine (Does.emitAll [Access.session i] s).bind_nil ?_
  rw [if_pos hi]
  exact Does.pure _ s

theorem updateSession_does (g : DcmPdpSession → DcmPdpSession) (s : QRTRServer) :
    Does Access.output? (updateSession i g) s (s.setSession i g) [] ⟨⟩ :=
  (touchSession_does hi s).bind_nil (Does.modify _ s)

theorem readSession_does (s : QRTRServer) :
    Does Access.output? (readSession i) s s [] (s.pdpSession i) :=
  (touchSession_does hi s).bind_nil ((Does.get s).bind_nil (Does.pure _ s))

end Session

/-- Behind the array a computation ends. -/
theorem touchSession_of_le {i : ℕ} (hi : maxSimSlots ≤ i) (s : QRTRServer) :
    touchSession i s = (s, ⟨[Access.session i], none⟩) := by
  have hstuck : touchSession i = (do
      Exec.emitAll [Access.session i]
      Exec.lift Traced.stuck) := by
    unfold touchSession
    rw [if_neg (by omega)]
  rw [hstuck]
  rfl

/-- An output, and nothing else. -/
theorem output_does (o : Output) (s : QRTRServer) :
    Does Access.output? (Exec.emitAll [Access.out o]) s s [o] ⟨⟩ :=
  Does.emitAll [Access.out o] s

/-! ### A request -/

namespace DcmRequest

variable (r : DcmRequest) {n : ℕ} {tlvid : UInt8}

/-- The search for a TLV, in messages too short for one, too: if the TLV is there, it has a
value. -/
theorem res_getTlvOffsetById (hn : cursorBound ≤ n)
    (hv : ∀ v, first tlvid r.message.tlvs = some v → v.length = 4) :
    (getTlvOffsetById n r.datagram.inbuff r.datagram.inbuffLen tlvid).res =
      some ((firstOffset tlvid sizeofQmiPacket r.message.tlvs).getD 0) := by
  have hmax := r.datagram.inbuffLen_le
  have hs : sizeofQmiPacket = 7 := rfl
  have hcb : cursorBound = 65536 := rfl
  by_cases hmin : sizeofQmiPacket + 4 ≤ r.datagram.inbuffLen
  · exact (QmiMessage.messageAt r.holds r.inbuffLen_eq hmin (by omega)).getTlvOffsetById
      (by omega) tlvid
  · rcases first_cases tlvid sizeofQmiPacket r.message.tlvs with
      ⟨-, hp⟩ | ⟨v, p, hfirst, hp, hge⟩
    · rw [getTlvOffsetById, tlvWalk, if_pos (by omega), hp]
      rfl
    · -- its value would not fit
      have hle := (first_eq_some (QmiMessage.holds_tlvs r.holds) hfirst hp).2
      have hlength := hv v hfirst
      have hlen := r.inbuffLen_eq
      rw [r.message.length_encode] at hlen
      omega

/-- `storeTlv` stores the value of the TLV, or nothing. -/
theorem storeTlv_does (hn : cursorBound ≤ n)
    (hv : ∀ v, first tlvid r.message.tlvs = some v → v.length = 4) {slot : ℕ}
    (hslot : slot < maxSimSlots) (width : ℕ) (hwidth : width ≤ 4)
    {store : ℕ → DcmPdpSession → DcmPdpSession} {g : DcmPdpSession → DcmPdpSession}
    (hsome : ∀ v, first tlvid r.message.tlvs = some v → store (ofLE (v.take width)) = g)
    (hnone : first tlvid r.message.tlvs = none → g = fun p => p) (s : QRTRServer) :
    Does Access.output? (storeTlv n r.datagram slot tlvid width store) s (s.setSession slot g)
      [] ⟨⟩ := by
  refine (recv_does s (r.res_getTlvOffsetById hn hv)).bind_nil ?_
  rcases first_cases tlvid sizeofQmiPacket r.message.tlvs with
    ⟨hfirst, hp⟩ | ⟨v, p, hfirst, hp, hge⟩
  · rw [hp, hnone hfirst, QRTRServer.setSession_id]
    exact Does.pure _ s
  · have hs : sizeofQmiPacket = 7 := rfl
    have hval := (first_eq_some (QmiMessage.holds_tlvs r.holds) hfirst hp).1
    rw [hp, Option.getD_some, if_pos (by omega), ← hsome v hfirst]
    refine (recv_does s ?_).bind_nil (updateSession_does hslot _ _)
    rw [res_load, loadLE_take hval (by rw [hv v hfirst]; exact hwidth)]

theorem readSimSlot_does (hn : cursorBound ≤ n)
    (hv : ∀ v, first 0x12 r.message.tlvs = some v → v.length = 4) (s : QRTRServer) :
    Does Access.output? (readSimSlot n r.datagram) s s [] (simSlotOf r.message.tlvs) := by
  refine (recv_does s (r.res_getTlvOffsetById hn hv)).bind_nil ?_
  rcases first_cases 0x12 sizeofQmiPacket r.message.tlvs with
    ⟨hfirst, hp⟩ | ⟨v, p, hfirst, hp, hge⟩
  · rw [hp, simSlotOf, hfirst]
    exact Does.pure _ s
  · have hs : sizeofQmiPacket = 7 := rfl
    have hval := (first_eq_some (QmiMessage.holds_tlvs r.holds) hfirst hp).1
    rw [hp, Option.getD_some, if_pos (by omega)]
    refine recv_does s ?_
    rw [simSlotOf, hfirst, res_load, ← hv v hfirst, loadLE_of_holds hval]
    rfl

/-- The server after a PDP-activate request. -/
def after (server : QRTRServer) : QRTRServer :=
  (registerClient r.datagram.clientAddr server).setSession (simSlotOf r.message.tlvs)
    (activateSession r.message.tlvs)

/-- The answer to a PDP-activate request. -/
def response (server : QRTRServer) : QmiMessage :=
  pdpActivateResponse r.message.header.transactionId imsDcmPdpActivate
    (activateSession r.message.tlvs (server.pdpSession (simSlotOf r.message.tlvs)))

variable {r}

/-- The four stores of a PDP-activate request make up its session. -/
theorem storePdpSession_does (hn : cursorBound ≤ n)
    (hv : ∀ tlvid ∈ [0x10, 0x11, 0x12, 0x13], ∀ v, first tlvid r.message.tlvs = some v →
      v.length = 4) {slot : ℕ} (hslot : slot < maxSimSlots) {α : Type} {s s' : QRTRServer}
    {f : DcmM α} {out : List Output} {a : α}
    (hf : Does Access.output? f (s.setSession slot (activateSession r.message.tlvs)) s' out a) :
    Does Access.output? (do
      storePdpSequenceId n r.datagram slot
      storePdpSubscriptionId n r.datagram slot
      storeSlotId n r.datagram slot
      storePdpInstanceId n r.datagram slot
      f) s s' out a := by
  refine (r.storeTlv_does hn (hv 0x10 (by simp)) hslot 1 (by norm_num)
    (g := fun p => { p with pdpSequenceId := valueOr r.message.tlvs 0x10 1 p.pdpSequenceId })
    (fun v h => by simp only [valueOr_some h])
    (fun h => by simp only [valueOr_none h]) s).bind_nil ?_
  refine (r.storeTlv_does hn (hv 0x11 (by simp)) hslot 4 le_rfl
    (g := fun p => { p with
      pdpSubscriptionId := valueOr r.message.tlvs 0x11 4 p.pdpSubscriptionId })
    (fun v h => by simp only [valueOr_some h])
    (fun h => by simp only [valueOr_none h]) _).bind_nil ?_
  refine (r.storeTlv_does hn (hv 0x12 (by simp)) hslot 4 le_rfl
    (g := fun p => { p with slotId := valueOr r.message.tlvs 0x12 4 p.slotId })
    (fun v h => by simp only [valueOr_some h])
    (fun h => by simp only [valueOr_none h]) _).bind_nil ?_
  refine (r.storeTlv_does hn (hv 0x13 (by simp)) hslot 4 le_rfl
    (g := fun p => { p with pdpInstanceId := valueOr r.message.tlvs 0x13 4 p.pdpInstanceId })
    (fun v h => by simp only [valueOr_some h])
    (fun h => by simp only [valueOr_none h]) _).bind_nil ?_
  rw [QRTRServer.setSession_setSession, QRTRServer.setSession_setSession,
    QRTRServer.setSession_setSession]
  exact hf

/-- What the handler does is what the `switch` does, after the registration. -/
theorem handle_does {server s' : QRTRServer} {out : List Output}
    (h : Does Access.output? (dispatch n r.datagram r.message.header.transactionId
      r.message.header.msgid.toNat r.message.header.msgid.toNat)
      (registerClient r.datagram.clientAddr server) s' out ⟨⟩) :
    Does Access.output? (handleIncomingQrtrRequest n r.datagram) server s' out ⟨⟩ := by
  have hmsgid := QmiMessage.res_getQmiMessageId r.holds
  have htid := QmiMessage.res_getQmiTransactionId r.holds
  refine (Does.modify _ server).bind_nil <| (recv_does _ rfl).bind_nil <|
    (recv_does _ hmsgid).bind_nil <| (recv_does _ htid).bind_nil <|
    (recv_does _ hmsgid).bind_nil ?_
  rw [UInt16.ofNat_toNat]
  exact h

/-- **The handler on a PDP-activate request.** -/
theorem handle_pdpActivate (hn : cursorBound ≤ n)
    (h : r.message.header.msgid.toNat = imsDcmPdpActivate) (server : QRTRServer) :
    Does Access.output? (handleIncomingQrtrRequest n r.datagram) server (r.after server)
      [.networkStart (UInt32.ofNat (simSlotOf r.message.tlvs)),
        .sendto r.datagram.clientAddr (r.response server).encode] ⟨⟩ := by
  have hv := r.values_eq h
  refine handle_does ?_
  rw [dispatch, if_pos h, h]
  have hslot := r.simSlot_lt h
  refine (r.readSimSlot_does hn (hv 0x12 (by simp)) _).bind_nil
    (storePdpSession_does hn hv hslot ?_)
  have hstart := output_does (.networkStart (UInt32.ofNat (simSlotOf r.message.tlvs)))
    (r.after server)
  have hreply := output_does (.sendto r.datagram.clientAddr (r.response server).encode)
    (r.after server)
  refine hstart.bind ((readSession_does hslot _).bind_nil ?_)
  simpa [response, after] using hreply

/-- **The handler on the other commands.** -/
theorem handle_plain (server : QRTRServer) (h : r.message.header.msgid.toNat ∈
      [imsDcmLinkAdd, imsDcmRegister, imsDcmEnableStatus, imsDcmClear]) :
    Does Access.output? (handleIncomingQrtrRequest n r.datagram) server
      (registerClient r.datagram.clientAddr server)
      [.sendto r.datagram.clientAddr (outgoing 0x02 r.message.header.transactionId
        r.message.header.msgid.toNat [qmiGenericResultInd 0x00 0x00]).encode] ⟨⟩ := by
  refine handle_does ?_
  have hne : r.message.header.msgid.toNat ≠ imsDcmPdpActivate := by
    intro he
    rw [he] at h
    exact absurd h (by decide)
  rw [dispatch, if_neg hne, if_pos (by simpa using h)]
  exact output_does _ _

/-- **The handler on any other message.** -/
theorem handle_unknown (server : QRTRServer) (h : r.message.header.msgid.toNat ∉
      [imsDcmPdpActivate, imsDcmLinkAdd, imsDcmRegister, imsDcmEnableStatus, imsDcmClear]) :
    Does Access.output? (handleIncomingQrtrRequest n r.datagram) server
      (registerClient r.datagram.clientAddr server) [] ⟨⟩ := by
  refine handle_does ?_
  simp only [List.mem_cons, List.not_mem_nil, or_false, not_or] at h
  rw [dispatch, if_neg h.1, if_neg (by tauto)]
  exact Does.pure _ _

end DcmRequest

/-! ### What a request leaves alone -/

section Keeps

variable {γ : Type} {g : QRTRServer → γ}

theorem touchSession_keeps (i : ℕ) : Keeps g (touchSession i) :=
  (Keeps.emitAll _).bind fun _ => .ite (.pure _) (.lift _)

theorem storeTlv_keeps (hg : ∀ s i f, g (s.setSession i f) = g s) (n : ℕ) (d : Datagram)
    (slot : ℕ) (tlvid : UInt8) (width : ℕ) (store : ℕ → DcmPdpSession → DcmPdpSession) :
    Keeps g (storeTlv n d slot tlvid width store) :=
  (Keeps.lift _).bind fun _ => .ite
    ((Keeps.lift _).bind fun _ => (touchSession_keeps _).bind fun _ => .modify fun _ => hg _ _ _)
    (.pure _)

theorem readSession_keeps (i : ℕ) : Keeps g (readSession i) :=
  (touchSession_keeps i).bind fun _ => Keeps.get.bind fun _ => .pure _

theorem pdpActivate_keeps (hg : ∀ s i f, g (s.setSession i f) = g s) (n : ℕ) (d : Datagram)
    (transactionId : UInt16) (msgid : ℕ) : Keeps g (pdpActivate n d transactionId msgid) :=
  ((Keeps.lift _).bind fun _ => .ite (.lift _) (.pure _)).bind fun _ =>
    (storeTlv_keeps hg _ _ _ _ _ _).bind fun _ => (storeTlv_keeps hg _ _ _ _ _ _).bind fun _ =>
    (storeTlv_keeps hg _ _ _ _ _ _).bind fun _ => (storeTlv_keeps hg _ _ _ _ _ _).bind fun _ =>
    (Keeps.emitAll _).bind fun _ => (readSession_keeps _).bind fun _ => .emitAll _

theorem dispatch_keeps (hg : ∀ s i f, g (s.setSession i f) = g s) (n : ℕ) (d : Datagram)
    (transactionId : UInt16) (msgid command : ℕ) :
    Keeps g (dispatch n d transactionId msgid command) :=
  .ite (pdpActivate_keeps hg _ _ _ _) (.ite (.emitAll _) (.pure _))

/-- **Whatever the datagram, a request touches the table of clients and the sessions only**: what
depends on neither stays, and what does not depend on the sessions is decided by the
registration. -/
theorem handle_keeps (hg : ∀ s i f, g (s.setSession i f) = g s) (n : ℕ) (d : Datagram)
    (server : QRTRServer) :
    g (handleIncomingQrtrRequest n d server).1 = g (registerClient d.clientAddr server) := by
  have hrest : Keeps g (do
      recv ⟨List.range d.inbuffLen, some PUnit.unit⟩
      let msgid ← recv (getQmiMessageId d.inbuff)
      let transactionId ← recv (getQmiTransactionId d.inbuff)
      let command ← recv (getQmiMessageId d.inbuff)
      dispatch n d (UInt16.ofNat transactionId) msgid command) :=
    (Keeps.lift _).bind fun _ => (Keeps.lift _).bind fun _ => (Keeps.lift _).bind fun _ =>
      (Keeps.lift _).bind fun _ => dispatch_keeps hg _ _ _ _ _
  exact hrest (registerClient d.clientAddr server)

end Keeps

end Imsd
