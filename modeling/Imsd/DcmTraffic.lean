import Imsd.DcmIndications

/-!
# The traffic of the server

What the server sends in a run of any calls: requests of any peers with any bytes in them, complete
or not, and notifications.

* `out_handle`: for every datagram, and whether or not the handler returns from its TLV walks, there
  is at most one reply, to the sender, and a start of the network only together with it, for a slot
  that exists.
* `internalPdpId_of_run`: no call sets the id of a PDP connection.
* `sent_after_calls`: after every run of calls that have returned, what the next call sends is a
  reply to this request or an indication of this address, goes to somebody who has sent a request
  before, and is well formed.
-/

namespace Imsd

open Bytes Tlv Exec EventSystem

/-! ### One datagram -/

/-- The ids of the PDP connections. -/
def QRTRServer.internalPdpId (server : QRTRServer) (i : ℕ) : UInt8 :=
  (server.pdpSession i).internalPdpId

/-- The outputs of a computation. -/
def outputs {α : Type} (x : DcmM α) (server : QRTRServer) : List Output :=
  (x server).2.log.filterMap Access.output?

/-- A computation without outputs, which leaves the ids of the PDP connections alone. -/
structure Quiet {α : Type} (x : DcmM α) : Prop where
  logs : Logs (Access.output? · = none) x
  keeps : Keeps QRTRServer.internalPdpId x

/-- What follows a quiet computation decides about the outputs. -/
theorem Quiet.bind_induction {α : Type} {x : DcmM α} {f : α → DcmM PUnit} {server : QRTRServer}
    (h : Quiet x) (motive : List Output → Prop) (hnil : motive [])
    (hf : ∀ a server', (x server).2.res = some a → server'.internalPdpId = server.internalPdpId →
      motive (outputs (f a) server')) : motive (outputs (x >>= f) server) :=
  h.logs.out_bind_induction motive hnil fun a ha => hf a _ ha (h.keeps server)

theorem Quiet.recv {α : Type} (x : Traced ℕ α) : Quiet (recv x) where
  logs := .lift fun e he => by
    obtain ⟨i, -, rfl⟩ := List.mem_map.1 he
    rfl
  keeps := .lift _

theorem Quiet.readSimSlot (n : ℕ) (d : Datagram) : Quiet (readSimSlot n d) where
  logs := (recv _).logs.bind fun _ => .ite (recv _).logs (.pure _)
  keeps := (recv _).keeps.bind fun _ => .ite (recv _).keeps (.pure _)

theorem Quiet.touchSession (i : ℕ) : Quiet (touchSession i) where
  logs := .bind (.emitAll (by simp [Access.output?])) fun _ =>
    .ite (.pure _) (.lift fun _ he => absurd he List.not_mem_nil)
  keeps := touchSession_keeps i

/-- A write to a session that does not touch the id. -/
theorem Quiet.updateSession (i : ℕ) {g : DcmPdpSession → DcmPdpSession}
    (hg : ∀ p, (g p).internalPdpId = p.internalPdpId) : Quiet (updateSession i g) where
  logs := (touchSession i).logs.bind fun _ => .modify _
  keeps := (touchSession i).keeps.bind fun _ => .modify fun server => by
    funext j
    by_cases hj : j = i
    · subst hj
      simp [QRTRServer.internalPdpId, hg]
    · simp [QRTRServer.internalPdpId, hj]

theorem Quiet.storeTlv (n : ℕ) (d : Datagram) (slot : ℕ) (tlvid : UInt8) (width : ℕ)
    {store : ℕ → DcmPdpSession → DcmPdpSession}
    (hstore : ∀ data p, (store data p).internalPdpId = p.internalPdpId) :
    Quiet (storeTlv n d slot tlvid width store) where
  logs := (recv _).logs.bind fun _ => .ite
    ((recv _).logs.bind fun data => (updateSession slot (hstore data)).logs) (.pure _)
  keeps := (recv _).keeps.bind fun _ => .ite
    ((recv _).keeps.bind fun data => (updateSession slot (hstore data)).keeps) (.pure _)

section Stores

variable (n : ℕ) (d : Datagram) (slot : ℕ)

theorem Quiet.storePdpSequenceId : Quiet (storePdpSequenceId n d slot) :=
  .storeTlv n d slot _ _ fun _ _ => rfl

theorem Quiet.storePdpSubscriptionId : Quiet (storePdpSubscriptionId n d slot) :=
  .storeTlv n d slot _ _ fun _ _ => rfl

theorem Quiet.storeSlotId : Quiet (storeSlotId n d slot) := .storeTlv n d slot _ _ fun _ _ => rfl

theorem Quiet.storePdpInstanceId : Quiet (storePdpInstanceId n d slot) :=
  .storeTlv n d slot _ _ fun _ _ => rfl

end Stores

/-- A slot behind the array does not get past the search that has given it. -/
theorem slot_lt_of_storeSlotId {n : ℕ} {d : Datagram} {slot : ℕ} {server server' : QRTRServer}
    {u : PUnit} (hslot : (readSimSlot n d server).2.res = some slot)
    (hstored : (storeSlotId n d slot server').2.res = some u) : slot < maxSimSlots := by
  cases hsearch : (getTlvOffsetById n d.inbuff d.inbuffLen 0x12).res with
  | none =>
    rw [readSimSlot, bind_of_none (x := recv _) hsearch] at hslot
    cases hslot
  | some offset =>
    by_cases h0 : offset > 0
    · by_contra hle
      rw [storeSlotId, storeTlv, bind_of_some (x := recv _) hsearch, if_pos h0] at hstored
      have hnone : ∀ g s, (updateSession slot g s).2.res = none := fun g s => by
        rw [updateSession, bind_of_none (by rw [touchSession_of_le (not_lt.1 hle)])]
      dsimp only at hstored
      rw [bind_of_some (x := recv (load d.inbuff (offset + 3) 4)) rfl] at hstored
      cases (hnone _ _).symm.trans hstored
    · rw [readSimSlot, bind_of_some (x := recv _) hsearch, if_neg h0] at hslot
      cases hslot
      decide

/-- The reply to a command, for PDP-activate with a session. -/
inductive ReplyTo (d : Datagram) (ids : ℕ → UInt8) : ℕ → List Output → Prop
  | activate (transactionId : UInt16) (slot : ℕ) (session : DcmPdpSession) :
      (getQmiTransactionId d.inbuff).res = some transactionId.toNat →
      slot < maxSimSlots → session.internalPdpId = ids slot →
      ReplyTo d ids imsDcmPdpActivate
        [.networkStart (UInt32.ofNat slot), .sendto d.clientAddr
          (pdpActivateResponse transactionId imsDcmPdpActivate session).encode]
  | plain (transactionId : UInt16) (msgid : ℕ) :
      (getQmiTransactionId d.inbuff).res = some transactionId.toNat →
      msgid ∈ [imsDcmLinkAdd, imsDcmRegister, imsDcmEnableStatus, imsDcmClear] →
      ReplyTo d ids msgid [.sendto d.clientAddr
        (outgoing 0x02 transactionId msgid [qmiGenericResultInd 0x00 0x00]).encode]

/-- What a request may make the server do: nothing, or answer a command. -/
def MayReply (d : Datagram) (ids : ℕ → UInt8) (msgid : ℕ) (out : List Output) : Prop :=
  out = [] ∨ ReplyTo d ids msgid out

section Outputs

variable {d : Datagram} {server : QRTRServer} {ids : ℕ → UInt8} {transactionId : UInt16}

theorem out_pdpActivate (n : ℕ)
    (htid : (getQmiTransactionId d.inbuff).res = some transactionId.toNat)
    (hids : server.internalPdpId = ids) :
    MayReply d ids imsDcmPdpActivate
      (outputs (pdpActivate n d transactionId imsDcmPdpActivate) server) := by
  rw [pdpActivate]
  refine (Quiet.readSimSlot n d).bind_induction (MayReply d ids _) (Or.inl rfl)
    fun slot s₁ hslot h₁ => ?_
  refine (Quiet.storePdpSequenceId n d slot).bind_induction (MayReply d ids _) (Or.inl rfl)
    fun _ s₂ _ h₂ => ?_
  refine (Quiet.storePdpSubscriptionId n d slot).bind_induction (MayReply d ids _) (Or.inl rfl)
    fun _ s₃ _ h₃ => ?_
  refine (Quiet.storeSlotId n d slot).bind_induction (MayReply d ids _) (Or.inl rfl)
    fun _ s₄ hstored h₄ => ?_
  refine (Quiet.storePdpInstanceId n d slot).bind_induction (MayReply d ids _) (Or.inl rfl)
    fun _ s₅ _ h₅ => Or.inr ?_
  have hlt : slot < maxSimSlots := slot_lt_of_storeSlotId hslot hstored
  have hids₅ : s₅.internalPdpId = ids := by rw [h₅, h₄, h₃, h₂, h₁, hids]
  have hreply : Does Access.output? (do
      Exec.emitAll [Access.out (.networkStart (UInt32.ofNat slot))]
      let session ← readSession slot
      Exec.emitAll [Access.out (.sendto d.clientAddr
        (pdpActivateResponse transactionId imsDcmPdpActivate session).encode)]) s₅ s₅
      [.networkStart (UInt32.ofNat slot), .sendto d.clientAddr
        (pdpActivateResponse transactionId imsDcmPdpActivate (s₅.pdpSession slot)).encode] ⟨⟩ :=
    (output_does _ s₅).bind ((readSession_does hlt s₅).bind_nil (output_does _ s₅))
  rw [outputs, hreply.out]
  exact .activate transactionId slot (s₅.pdpSession slot) htid hlt (congrFun hids₅ slot)

theorem out_dispatch (n : ℕ) {msgid : ℕ}
    (htid : (getQmiTransactionId d.inbuff).res = some transactionId.toNat)
    (hids : server.internalPdpId = ids) :
    MayReply d ids msgid (outputs (dispatch n d transactionId msgid msgid) server) := by
  rw [dispatch]
  split_ifs with hactivate hplain
  · subst hactivate
    exact out_pdpActivate n htid hids
  · exact Or.inr (.plain transactionId msgid htid (by simpa using hplain))
  · exact Or.inl rfl

theorem internalPdpId_registerClient (addr : SockaddrQrtr) (server : QRTRServer) :
    (registerClient addr server).internalPdpId = server.internalPdpId := by
  funext i
  rw [QRTRServer.internalPdpId, registerClient_pdpSession, QRTRServer.internalPdpId]

theorem outputs_recv_bind {α : Type} {x : Traced ℕ α} {a : α} (h : x.res = some a)
    (f : α → DcmM PUnit) (server : QRTRServer) :
    outputs (recv x >>= f) server = outputs (f a) server :=
  ((recv_does server h).bind_apply f).2.2

/-- The transaction id of a request, as it lies in its bytes. -/
theorem loadLE_transactionId (h : (getQmiTransactionId d.inbuff).res = some transactionId.toNat) :
    loadLE d.inbuff 1 2 = transactionId.toNat :=
  Option.some_inj.1 h

/-- What the handler puts out for a datagram. -/
theorem mayReply_handle (n : ℕ) (d : Datagram) (server : QRTRServer) :
    MayReply d server.internalPdpId (loadLE d.inbuff 3 2)
      (outputs (handleIncomingQrtrRequest n d) server) := by
  have hids := internalPdpId_registerClient d.clientAddr server
  have hlt : loadLE d.inbuff 1 2 < 2 ^ 16 := loadLE_lt _ _ _
  have htid : (getQmiTransactionId d.inbuff).res =
      some (UInt16.ofNat (loadLE d.inbuff 1 2)).toNat := by
    rw [getQmiTransactionId, res_load, UInt16.toNat_ofNat', Nat.mod_eq_of_lt hlt]
  show MayReply d _ _ (outputs (do
    recv ⟨List.range d.inbuffLen, some PUnit.unit⟩
    let msgid ← recv (getQmiMessageId d.inbuff)
    let transactionId ← recv (getQmiTransactionId d.inbuff)
    let command ← recv (getQmiMessageId d.inbuff)
    dispatch n d (UInt16.ofNat transactionId) msgid command) (registerClient d.clientAddr server))
  have hmsgid : (getQmiMessageId d.inbuff).res = some (loadLE d.inbuff 3 2) := rfl
  have hid : (getQmiTransactionId d.inbuff).res = some (loadLE d.inbuff 1 2) := rfl
  rw [outputs_recv_bind rfl, outputs_recv_bind hmsgid, outputs_recv_bind hid,
    outputs_recv_bind hmsgid]
  exact out_dispatch n htid hids

/-- **Every datagram gets at most one reply**, whatever its bytes, and the network is started only
together with one. -/
theorem out_handle (n : ℕ) (d : Datagram) (server : QRTRServer) :
    outputs (handleIncomingQrtrRequest n d) server = [] ∨
      (loadLE d.inbuff 3 2 ∈ [imsDcmLinkAdd, imsDcmRegister, imsDcmEnableStatus, imsDcmClear] ∧
        ∃ transactionId : UInt16, transactionId.toNat = loadLE d.inbuff 1 2 ∧
          outputs (handleIncomingQrtrRequest n d) server = [.sendto d.clientAddr (outgoing 0x02
            transactionId (loadLE d.inbuff 3 2) [qmiGenericResultInd 0x00 0x00]).encode]) ∨
      loadLE d.inbuff 3 2 = imsDcmPdpActivate ∧ ∃ slot reply, slot < maxSimSlots ∧
        outputs (handleIncomingQrtrRequest n d) server =
          [.networkStart (UInt32.ofNat slot), .sendto d.clientAddr reply] := by
  rcases mayReply_handle n d server with hnone | hreply
  · exact Or.inl hnone
  generalize outputs (handleIncomingQrtrRequest n d) server = out at hreply ⊢
  generalize hmsgid : loadLE d.inbuff 3 2 = msgid at hreply ⊢
  cases hreply with
  | activate transactionId slot session _ hslot _ =>
    exact Or.inr (Or.inr ⟨rfl, slot, _, hslot, rfl⟩)
  | plain transactionId _ htid hplain =>
    exact Or.inr (Or.inl ⟨hplain, transactionId, (loadLE_transactionId htid).symm, rfl⟩)

end Outputs

/-! ### The ids of the PDP connections -/

theorem keeps_pdpActivate (n : ℕ) (d : Datagram) (transactionId : UInt16) (msgid : ℕ) :
    Keeps QRTRServer.internalPdpId (pdpActivate n d transactionId msgid) :=
  (Quiet.readSimSlot n d).keeps.bind fun slot =>
    (Quiet.storePdpSequenceId n d slot).keeps.bind fun _ =>
    (Quiet.storePdpSubscriptionId n d slot).keeps.bind fun _ =>
    (Quiet.storeSlotId n d slot).keeps.bind fun _ =>
    (Quiet.storePdpInstanceId n d slot).keeps.bind fun _ =>
    (Keeps.emitAll _).bind fun _ => (readSession_keeps slot).bind fun _ => .emitAll _

/-- No datagram sets the id of a PDP connection. -/
theorem internalPdpId_handle (n : ℕ) (d : Datagram) (server : QRTRServer) :
    (handleIncomingQrtrRequest n d server).1.internalPdpId = server.internalPdpId := by
  have hrest : Keeps QRTRServer.internalPdpId (do
      recv ⟨List.range d.inbuffLen, some PUnit.unit⟩
      let msgid ← recv (getQmiMessageId d.inbuff)
      let transactionId ← recv (getQmiTransactionId d.inbuff)
      let command ← recv (getQmiMessageId d.inbuff)
      dispatch n d (UInt16.ofNat transactionId) msgid command) :=
    (Keeps.lift _).bind fun _ => (Keeps.lift _).bind fun _ => (Keeps.lift _).bind fun _ =>
      (Keeps.lift _).bind fun _ => .ite (keeps_pdpActivate _ _ _ _) (.ite (.emitAll _) (.pure _))
  exact (hrest _).trans (internalPdpId_registerClient _ _)

/-! ### Runs -/

/-- What a call sends. -/
def QRTRServer.sent (server : QRTRServer) : ServerCall → List (SockaddrQrtr × List UInt8)
  | .request d => messagesSent (handleIncomingQrtrRequest cursorBound d server).2.log
  | .notify slotId ipAddress =>
    messagesSent (notifyPdpIpaddressChange slotId ipAddress server).2.log

/-- The call returns: no walk goes on for ever, and no slot lies behind the array. -/
def QRTRServer.returns (server : QRTRServer) : ServerCall → Bool
  | .request d => (handleIncomingQrtrRequest cursorBound d server).2.res.isSome
  | .notify slotId ipAddress => (notifyPdpIpaddressChange slotId ipAddress server).2.res.isSome

/-- One call that returns. -/
def CallStep (server : QRTRServer) (c : ServerCall) (server' : QRTRServer) : Prop :=
  server.returns c = true ∧ (server.call c).1 = server'

/-- The server as it is set up. -/
def QRTRServer.Initial (server : QRTRServer) : Prop := server = initializeQmiServer

/-- Somebody at this address has sent a request. -/
def HasRequested (calls : List ServerCall) (addr : SockaddrQrtr) : Prop :=
  ∃ d, .request d ∈ calls ∧ d.clientAddr = addr

section Runs

variable {calls : List ServerCall} {server : QRTRServer}

/-- No call sets the id of a PDP connection. -/
theorem internalPdpId_call (server : QRTRServer) (c : ServerCall) :
    (server.call c).1.internalPdpId = server.internalPdpId := by
  cases c with
  | request d => rw [QRTRServer.call, internalPdpId_handle]
  | notify slotId ipAddress =>
    cases hi : activeSimSlot server slotId with
    | none => rw [QRTRServer.call, (notify_none hi ipAddress).state]
    | some i =>
      rw [QRTRServer.call, (notify_does hi ipAddress).state]
      rfl

/-- **They stay as they are set up.** -/
theorem internalPdpId_of_run (h : Run QRTRServer.Initial CallStep unguarded calls server) :
    server.internalPdpId = fun _ => 0 := by
  refine h.inv (fun _ server => server.internalPdpId = fun _ => 0) ?_ ?_
  · rintro server rfl
    rfl
  · rintro calls server c _ - ih - ⟨-, rfl⟩
    rw [internalPdpId_call, ih]

/-- What a call does to the table. -/
theorem clients_call (server : QRTRServer) (c : ServerCall) :
    (server.call c).1.clients = match c with
      | .request d => (registerClient d.clientAddr server).clients
      | .notify _ _ => server.clients := by
  cases c with
  | request d => exact handle_clients cursorBound d server
  | notify slotId ipAddress =>
    cases hi : activeSimSlot server slotId with
    | none => rw [QRTRServer.call, (notify_none hi ipAddress).state]
    | some i => rw [QRTRServer.call, (notify_does hi ipAddress).state]

/-- **The table holds only addresses that have sent a request.** -/
theorem hasRequested_of_run (h : Run QRTRServer.Initial CallStep unguarded calls server) :
    ∀ addr ∈ server.clients, HasRequested calls addr := by
  refine h.inv (fun calls server => ∀ addr ∈ server.clients, HasRequested calls addr) ?_ ?_
  · rintro server rfl addr haddr
    exact absurd haddr List.not_mem_nil
  · rintro calls server c _ - ih - ⟨-, rfl⟩ addr haddr
    have hbefore : addr ∈ server.clients → HasRequested (calls ++ [c]) addr := by
      intro haddr
      obtain ⟨d, hd, hdaddr⟩ := ih addr haddr
      exact ⟨d, List.mem_append_left _ hd, hdaddr⟩
    rw [clients_call] at haddr
    cases c with
    | request d =>
      dsimp only [registerClient] at haddr
      split_ifs at haddr with hany
      · exact hbefore haddr
      · rcases List.mem_append.1 haddr with haddr | haddr
        · exact hbefore haddr
        · exact ⟨d, by simp, (List.mem_singleton.1 haddr).symm⟩
    | notify slotId ipAddress => exact hbefore haddr

end Runs

/-- What the receiver of a message finds, by the call that has sent it. -/
def ServerCall.Announces (addr : SockaddrQrtr) (message : List UInt8) : ServerCall → Prop
  | .request d =>
    addr = d.clientAddr ∧ loadLE d.inbuff 3 2 ∈ imsDcmCommands ∧
      (loadLE d.inbuff 3 2 = imsDcmPdpActivate → QmiMessage.tlv 0x10 message = some [0]) ∧
      ∀ m, Holds m 0 message → ReplyAt m message.length (loadLE d.inbuff 1 2)
        (loadLE d.inbuff 3 2) (if loadLE d.inbuff 3 2 = imsDcmPdpActivate then 4 else 1)
  | .notify _ ipAddress =>
    ipAddress.length ≤ 255 → ∃ transactionId session, session.internalPdpId = 0 ∧
      ∀ m, Holds m 0 message → ∀ n, message.length ≤ n →
        IndicationAt m n transactionId session ipAddress

theorem announces_of_replyTo {d : Datagram} {out : List Output}
    (h : ReplyTo d (fun _ => 0) (loadLE d.inbuff 3 2) out) :
    ∃ message, out.filterMap Output.message? = [(d.clientAddr, message)] ∧
      (ServerCall.request d).Announces d.clientAddr message := by
  generalize hmsgid : loadLE d.inbuff 3 2 = msgid at h
  cases h with
  | activate transactionId slot session htid _ hsession =>
    refine ⟨_, rfl, rfl, ?_⟩
    rw [hmsgid]
    refine ⟨by decide, fun _ => ?_, fun m hm => ?_⟩
    · rw [(tlv_pdpActivateResponse transactionId session imsDcmPdpActivate).1, hsession]
    · rw [if_pos rfl, loadLE_transactionId htid]
      exact replyAt_outgoing (by decide) (by simp [qmiGenericUint8TTlv, qmiGenericUint32TTlv,
        Tlv.size]) hm
  | plain transactionId _ htid hplain =>
    have hne : msgid ≠ imsDcmPdpActivate := by
      rintro rfl
      exact absurd hplain (by decide)
    refine ⟨_, rfl, rfl, ?_⟩
    rw [hmsgid]
    refine ⟨List.mem_cons_of_mem _ hplain, fun h => absurd h hne, fun m hm => ?_⟩
    rw [if_neg hne, loadLE_transactionId htid]
    have hlt : msgid < 65536 := by
      rw [← hmsgid]
      exact loadLE_lt d.inbuff 3 2
    exact replyAt_outgoing hlt (by simp) hm

/-- **Everything the server sends**, in a run of any calls that return. -/
theorem sent_after_calls {calls : List ServerCall} {server : QRTRServer}
    (h : Run QRTRServer.Initial CallStep unguarded calls server) (c : ServerCall) :
    (∀ d, c = .request d → (server.sent c).length ≤ 1) ∧
      ∀ x ∈ server.sent c, HasRequested (calls ++ [c]) x.1 ∧ c.Announces x.1 x.2 := by
  have hids := internalPdpId_of_run h
  have hclients := hasRequested_of_run h
  cases c with
  | request d =>
    have hout := mayReply_handle cursorBound d server
    rw [hids] at hout
    have hsent : server.sent (.request d) =
      (outputs (handleIncomingQrtrRequest cursorBound d) server).filterMap Output.message? := rfl
    rcases hout with hnone | hreply
    · rw [hsent, hnone]
      simp
    · obtain ⟨message, hmessage, hannounces⟩ := announces_of_replyTo hreply
      rw [hsent, hmessage]
      refine ⟨fun _ _ => le_rfl, fun x hx => ?_⟩
      obtain rfl := List.mem_singleton.1 hx
      exact ⟨⟨d, by simp, rfl⟩, hannounces⟩
  | notify slotId ipAddress =>
    refine ⟨fun d h => ServerCall.noConfusion h, fun x hx => ?_⟩
    cases hi : activeSimSlot server slotId with
    | none =>
      rw [QRTRServer.sent, messagesSent, (notify_none hi ipAddress).out] at hx
      exact absurd hx List.not_mem_nil
    | some i =>
      rw [QRTRServer.sent, messagesSent_notify (notify_does hi ipAddress).res] at hx
      obtain ⟨addr, haddr, rfl⟩ := List.mem_map.1 hx
      obtain ⟨d, hd, hdaddr⟩ := hclients addr haddr
      refine ⟨⟨d, List.mem_append_left _ hd, hdaddr⟩, fun hip => ?_⟩
      refine ⟨(nextTransactionId server.transactionId).toNat, server.pdpSession i,
        congrFun hids i, fun m hm n hn => ?_⟩
      rw [length_pdpIndication _ _ hip] at hn
      exact indicationAt_of_holds hip hm hn

/-- After the request of a peer for the first slot, a notification for it goes to that peer. -/
theorem sent_after_request : ∃ message,
    ((firstSlotRequest.after initializeQmiServer).sent (.notify 0 [0x31])) =
        [(⟨42, 1, 0x4000⟩, message)] ∧
      (ServerCall.notify 0 [0x31]).Announces ⟨42, 1, 0x4000⟩ message := by
  have hdoes := handle_activate firstSlotRequest le_rfl initializeQmiServer
  have hrun : Run QRTRServer.Initial CallStep unguarded [.request firstSlotRequest.datagram]
      (firstSlotRequest.after initializeQmiServer) := by
    have hstart : Run QRTRServer.Initial CallStep unguarded [] initializeQmiServer := .start rfl
    refine hstart.snoc trivial ⟨?_, hdoes.state⟩
    rw [QRTRServer.returns, hdoes.res]
    rfl
  obtain ⟨message, hsent⟩ : ∃ message,
      ((firstSlotRequest.after initializeQmiServer).sent (.notify 0 [0x31])) =
        [(⟨42, 1, 0x4000⟩, message)] := ⟨_, rfl⟩
  refine ⟨message, hsent, ((sent_after_calls hrun (.notify 0 [0x31])).2 (_, message) ?_).2⟩
  rw [hsent]
  exact List.mem_singleton_self _

end Imsd
