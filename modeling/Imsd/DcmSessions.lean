import Imsd.DcmActivate

/-!
# What the sessions hold

Two properties of the sessions under well-formed PDP-activate requests.

* A request's values go back as they came in (`GivesBack`).  The sequence id of a request has 32
  bits, but the handler reads it through the structure for one byte: `givesBack_iff` says that
  they go back exactly when the sequence id fits into that byte.
* The indication for a slot carries the values of the latest response for the slot
  (`ActivationHistory.IndicationMatches`).  The session is written at the slot's index but looked
  up by its slot id, and a session never written has the slot id `0`: `indicationMatches_iff`.

The second rests on `serve_pdpSession`: the sessions after a list of requests are those of the
abstract `record`, which keeps one session for each slot and knows nothing of the others.
-/

namespace Imsd

open Bytes Tlv Exec

/-- The message of an output. -/
def Output.message? : Output → Option (SockaddrQrtr × List UInt8)
  | .sendto addr bytes => some (addr, bytes)
  | _ => none

/-- The messages sent, with their destinations. -/
def messagesSent (log : List Access) : List (SockaddrQrtr × List UInt8) :=
  (log.filterMap Access.output?).filterMap Output.message?

theorem messagesSent_of_activate (r : ActivateRequest) (server : QRTRServer) :
    messagesSent (handleIncomingQrtrRequest cursorBound r.datagram server).2.log =
      [(r.datagram.clientAddr, (r.response server).encode)] := by
  rw [messagesSent, (handle_activate r le_rfl server).out]
  rfl

/-! ### The TLVs of the two messages -/

section Messages

variable (transactionId : UInt16) (session : DcmPdpSession)

theorem tlv_pdpActivateResponse (msgid : ℕ) :
    QmiMessage.tlv 0x10 (pdpActivateResponse transactionId msgid session).encode =
        some [session.internalPdpId] ∧
      QmiMessage.tlv 0x11 (pdpActivateResponse transactionId msgid session).encode =
        some (toLE 4 session.pdpSequenceId.toNat) ∧
      QmiMessage.tlv 0x12 (pdpActivateResponse transactionId msgid session).encode =
        some (toLE 4 session.pdpInstanceId.toNat) := by
  simp only [QmiMessage.tlv_encode]
  exact ⟨rfl, rfl, rfl⟩

theorem tlv_pdpIndication (ipAddress : List UInt8) :
    QmiMessage.tlv 0x01 (pdpIndication transactionId session ipAddress).encode =
        some [session.internalPdpId] ∧
      QmiMessage.tlv 0x10 (pdpIndication transactionId session ipAddress).encode =
        some (toLE 4 session.pdpSequenceId.toNat) ∧
      QmiMessage.tlv 0x12 (pdpIndication transactionId session ipAddress).encode =
        some (toLE 4 session.pdpInstanceId.toNat) := by
  simp only [QmiMessage.tlv_encode]
  exact ⟨rfl, rfl, rfl⟩

end Messages

/-- A 32-bit field determines its value. -/
theorem toLE_toNat_inj {x y : UInt32} : toLE 4 x.toNat = toLE 4 y.toNat ↔ x = y := by
  refine ⟨fun h => ?_, fun h => h ▸ rfl⟩
  have h' := congrArg ofLE h
  rw [ofLE_toLE, ofLE_toLE] at h'
  have hx := x.toNat_lt
  have hy := y.toNat_lt
  exact UInt32.toNat_inj.1 (by omega)

/-! ### Values go back as they came in -/

/-- The response and the session give back the values of the request. -/
def GivesBack (r : ActivateRequest) (server : QRTRServer) : Prop :=
  let result := handleIncomingQrtrRequest cursorBound r.datagram server
  let session := result.1.pdpSession r.simSlot.toNat
  ∃ response, messagesSent result.2.log = [(r.datagram.clientAddr, response)] ∧
    QmiMessage.tlv 0x11 response = some (toLE 4 r.pdpSequence.toNat) ∧
    session.pdpSequenceId = r.pdpSequence ∧
    QmiMessage.tlv 0x12 response = some (toLE 4 r.pdpInstance.toNat) ∧
    session.pdpInstanceId = r.pdpInstance ∧
    session.pdpSubscriptionId = r.pdpSubscription ∧
    session.slotId = r.simSlot

/-- The low byte is the whole sequence id. -/
theorem ofNat_mod_eq_iff (x : UInt32) : UInt32.ofNat (x.toNat % 256) = x ↔ x.toNat < 256 := by
  have hx := x.toNat_lt
  rw [← UInt32.toNat_inj, UInt32.toNat_ofNat']
  omega

/-- **The values of a request go back as they came in if and only if its sequence id fits into
eight bits.** -/
theorem givesBack_iff (r : ActivateRequest) (server : QRTRServer) :
    GivesBack r server ↔ r.pdpSequence.toNat < 256 := by
  have hsession : (handleIncomingQrtrRequest cursorBound r.datagram server).1.pdpSession
      r.simSlot.toNat = r.session (server.pdpSession r.simSlot.toNat) := by
    rw [(handle_activate r le_rfl server).state]
    simp [ActivateRequest.after]
  obtain ⟨-, hseq, hinst⟩ := tlv_pdpActivateResponse r.message.header.transactionId
    (r.session (server.pdpSession r.simSlot.toNat)) imsDcmPdpActivate
  rw [← ofNat_mod_eq_iff]
  constructor
  · rintro ⟨response, -, -, h, -⟩
    rwa [hsession] at h
  · intro h
    refine ⟨_, messagesSent_of_activate r server, ?_⟩
    rw [hsession]
    refine ⟨?_, h, hinst, rfl, rfl, rfl⟩
    rw [ActivateRequest.response, hseq]
    exact congrArg (fun x : UInt32 => some (toLE 4 x.toNat)) h

/-- The sequence id `0x100` comes back as `0`. -/
theorem not_givesBack : ¬ GivesBack (activateRequest ⟨42, 1, 1⟩ rfl 0x100 1 0 1 (by decide))
    initializeQmiServer := by
  rintro ⟨response, -, -, h, -⟩
  rw [(handle_activate _ le_rfl initializeQmiServer).state] at h
  exact absurd h (by simp [ActivateRequest.after, activateRequest, ActivateRequest.session])

/-! ### One session for each slot -/

/-- The server after a list of requests. -/
def serve (server : QRTRServer) (rs : List ActivateRequest) : QRTRServer :=
  rs.foldl (fun server r => (handleIncomingQrtrRequest cursorBound r.datagram server).1) server

/-- The session of a slot, as it should be after a list of requests: that of the slot's own
requests. -/
def record (i : ℕ) (p : DcmPdpSession) (rs : List ActivateRequest) : DcmPdpSession :=
  rs.foldl (fun p r => if r.simSlot.toNat = i then r.session p else p) p

theorem record_append (i : ℕ) (p : DcmPdpSession) (rs rs' : List ActivateRequest) :
    record i p (rs ++ rs') = record i (record i p rs) rs' :=
  List.foldl_append

/-- Requests for other slots leave a record alone. -/
theorem record_of_forall_ne {i : ℕ} (p : DcmPdpSession) {rs : List ActivateRequest}
    (h : ∀ r ∈ rs, r.simSlot.toNat ≠ i) : record i p rs = p := by
  induction rs generalizing p with
  | nil => rfl
  | cons r rs ih =>
    have hr := h r (by simp)
    rw [record, List.foldl_cons, if_neg hr]
    exact ih p fun x hx => h x (by simp [hx])

/-- **The table is a record for each slot.** -/
theorem serve_pdpSession (server : QRTRServer) (rs : List ActivateRequest) (i : ℕ) :
    (serve server rs).pdpSession i = record i (server.pdpSession i) rs := by
  induction rs generalizing server with
  | nil => rfl
  | cons r rs ih =>
    rw [serve, List.foldl_cons, record, List.foldl_cons]
    refine (ih _).trans ?_
    rw [(handle_activate r le_rfl server).state]
    by_cases hi : r.simSlot.toNat = i
    · subst hi
      simp [ActivateRequest.after, record]
    · simp [ActivateRequest.after, record, hi, Ne.symm hi]

/-- Nothing ever writes the PDP id. -/
theorem record_internalPdpId (i : ℕ) (p : DcmPdpSession) (rs : List ActivateRequest) :
    (record i p rs).internalPdpId = p.internalPdpId := by
  induction rs generalizing p with
  | nil => rfl
  | cons r rs ih =>
    rw [record, List.foldl_cons]
    refine (ih _).trans ?_
    split_ifs <;> rfl

/-- A slot's record carries the slot's number once the slot has been activated. -/
theorem record_slotId (i : ℕ) (p : DcmPdpSession) (rs : List ActivateRequest) :
    (record i p rs).slotId.toNat =
      if ∃ r ∈ rs, r.simSlot.toNat = i then i else p.slotId.toNat := by
  induction rs generalizing p with
  | nil => simp [record]
  | cons r rs ih =>
    rw [record, List.foldl_cons]
    refine (ih _).trans ?_
    by_cases hr : r.simSlot.toNat = i
    · simp [hr, ActivateRequest.session]
    · simp [hr]

/-! ### The indication -/

/-- A history of requests: all of them, and the latest one for its slot. -/
structure ActivationHistory where
  before : List ActivateRequest
  latest : ActivateRequest
  after : List ActivateRequest
  latest_last : ∀ r ∈ after, r.simSlot ≠ latest.simSlot

namespace ActivationHistory

variable (h : ActivationHistory)

/-- All requests, in order. -/
def requests : List ActivateRequest := h.before ++ h.latest :: h.after

/-- The indication for the slot carries the PDP id, the sequence id and the instance id of the
latest response for it. -/
def IndicationMatches (ipAddress : List UInt8) : Prop :=
  ∃ response indication,
    messagesSent (handleIncomingQrtrRequest cursorBound h.latest.datagram
      (serve initializeQmiServer h.before)).2.log = [(h.latest.datagram.clientAddr, response)] ∧
    (notifyPdpIpaddressChange h.latest.simSlot ipAddress
      (serve initializeQmiServer h.requests)).2.res = some (some indication) ∧
    ∃ pdpId sequenceId instanceId,
      QmiMessage.tlv 0x10 response = some pdpId ∧ QmiMessage.tlv 0x01 indication = some pdpId ∧
      QmiMessage.tlv 0x11 response = some sequenceId ∧
      QmiMessage.tlv 0x10 indication = some sequenceId ∧
      QmiMessage.tlv 0x12 response = some instanceId ∧
      QmiMessage.tlv 0x12 indication = some instanceId

/-- The session that the latest request for the slot left. -/
def session : DcmPdpSession :=
  h.latest.session (record h.latest.simSlot.toNat ⟨0, 0, 0, 0, 0⟩ h.before)

/-- It is still there at the end. -/
theorem serve_requests_self :
    (serve initializeQmiServer h.requests).pdpSession h.latest.simSlot.toNat = h.session := by
  rw [serve_pdpSession, requests, record_append, ← List.singleton_append, record_append,
    record_of_forall_ne _ fun r hr he => h.latest_last r hr (UInt32.toNat_inj.1 he)]
  simp [record, session, initializeQmiServer]

/-- The slot was activated after all. -/
theorem exists_request : ∃ r ∈ h.requests, r.simSlot.toNat = h.latest.simSlot.toNat :=
  ⟨h.latest, by simp [requests], rfl⟩

end ActivationHistory

/-- There are two slots. -/
theorem ActivateRequest.simSlot_cases (r : ActivateRequest) : r.simSlot = 0 ∨ r.simSlot = 1 := by
  have h := r.simSlot_lt
  have h2 : maxSimSlots = 2 := rfl
  rw [h2] at h
  rw [← UInt32.toNat_inj, ← UInt32.toNat_inj]
  have h0 : (0 : UInt32).toNat = 0 := rfl
  have h1 : (1 : UInt32).toNat = 1 := rfl
  omega

theorem exists_second_iff {rs : List ActivateRequest} :
    (∃ r ∈ rs, r.simSlot.toNat = 1) ↔ ∃ r ∈ rs, r.simSlot = 1 := by
  simp only [← UInt32.toNat_inj]
  rfl

/-- The slot ids in the table: that of the first session is `0`, activated or not. -/
theorem slotId_serve_zero (rs : List ActivateRequest) :
    ((serve initializeQmiServer rs).pdpSession 0).slotId = 0 := by
  rw [serve_pdpSession, ← UInt32.toNat_inj, record_slotId]
  split_ifs <;> rfl

@[inherit_doc slotId_serve_zero]
theorem slotId_serve_one (rs : List ActivateRequest) :
    ((serve initializeQmiServer rs).pdpSession 1).slotId =
      if ∃ r ∈ rs, r.simSlot = 1 then 1 else 0 := by
  rw [serve_pdpSession, ← UInt32.toNat_inj, record_slotId]
  by_cases h : ∃ r ∈ rs, r.simSlot = 1
  · rw [if_pos (exists_second_iff.2 h), if_pos h]; rfl
  · rw [if_neg (mt exists_second_iff.1 h), if_neg h]; rfl

/-- Where the lookup ends up: in the slot's own session, unless it is the first slot and the
second one was never activated. -/
theorem activeSimSlot_requests (h : ActivationHistory) :
    activeSimSlot (serve initializeQmiServer h.requests) h.latest.simSlot =
      if h.latest.simSlot = 1 ∨ ∃ r ∈ h.requests, r.simSlot = 1 then some h.latest.simSlot.toNat
      else some 1 := by
  rw [activeSimSlot_eq, slotId_serve_zero, slotId_serve_one]
  rcases h.latest.simSlot_cases with hs | hs
  · rw [hs]
    by_cases h1 : ∃ r ∈ h.requests, r.simSlot = 1
    · rw [if_pos h1, if_pos (Or.inr h1), if_neg (by decide), if_pos rfl]; rfl
    · rw [if_neg h1, if_pos rfl, if_neg (by simpa using h1)]
  · have hself := h.exists_request
    rw [hs] at hself
    rw [hs, if_pos (exists_second_iff.1 hself), if_pos rfl, if_pos (Or.inl rfl)]
    rfl

/-- The indication matches when the session looked up agrees with the one the latest request
left. -/
theorem indicationMatches_iff_session {h : ActivationHistory} {i : ℕ}
    (hi : activeSimSlot (serve initializeQmiServer h.requests) h.latest.simSlot = some i)
    (ipAddress : List UInt8) :
    h.IndicationMatches ipAddress ↔
      ((serve initializeQmiServer h.requests).pdpSession i).pdpSequenceId =
          h.session.pdpSequenceId ∧
        ((serve initializeQmiServer h.requests).pdpSession i).pdpInstanceId =
          h.session.pdpInstanceId := by
  have hsent : messagesSent (handleIncomingQrtrRequest cursorBound h.latest.datagram
      (serve initializeQmiServer h.before)).2.log = [(h.latest.datagram.clientAddr,
        (pdpActivateResponse h.latest.message.header.transactionId imsDcmPdpActivate
          h.session).encode)] := by
    rw [messagesSent_of_activate, ActivateRequest.response, serve_pdpSession]
    rfl
  have hnotify := (notify_does hi ipAddress).res
  obtain ⟨hr₁, hr₂, hr₃⟩ := tlv_pdpActivateResponse h.latest.message.header.transactionId
    h.session imsDcmPdpActivate
  obtain ⟨hi₁, hi₂, hi₃⟩ := tlv_pdpIndication
    (nextTransactionId (serve initializeQmiServer h.requests).transactionId)
    ((serve initializeQmiServer h.requests).pdpSession i) ipAddress
  have hpdp : ((serve initializeQmiServer h.requests).pdpSession i).internalPdpId =
      h.session.internalPdpId := by
    rw [serve_pdpSession, record_internalPdpId]
    exact (record_internalPdpId _ _ h.before).symm
  constructor
  · rintro ⟨response, indication, hs, hn, pdpId, sequenceId, instanceId, -, -, h₁, h₂, h₃, h₄⟩
    obtain rfl : (pdpActivateResponse h.latest.message.header.transactionId imsDcmPdpActivate
        h.session).encode = response := by simpa using hsent.symm.trans hs
    obtain rfl := Option.some.inj (Option.some.inj (hnotify.symm.trans hn))
    exact ⟨toLE_toNat_inj.1 (Option.some.inj (hi₂.symm.trans (h₂.trans (h₁.symm.trans hr₂)))),
      toLE_toNat_inj.1 (Option.some.inj (hi₃.symm.trans (h₄.trans (h₃.symm.trans hr₃))))⟩
  · rintro ⟨hseq, hinst⟩
    rw [hpdp] at hi₁
    rw [hseq] at hi₂
    rw [hinst] at hi₃
    exact ⟨_, _, hsent, hnotify, _, _, _, hr₁, hi₁, hr₂, hi₂, hr₃, hi₃⟩

/-- **The indication carries the values of the latest response for its slot if and only if the
slot is the second one, or the second one was activated, or the values are zero.** -/
theorem indicationMatches_iff (h : ActivationHistory) (ipAddress : List UInt8) :
    h.IndicationMatches ipAddress ↔
      h.latest.simSlot = 1 ∨ (∃ r ∈ h.requests, r.simSlot = 1) ∨
        h.latest.pdpSequence.toNat % 256 = 0 ∧ h.latest.pdpInstance = 0 := by
  rw [← or_assoc]
  have hactive := activeSimSlot_requests h
  by_cases hown : h.latest.simSlot = 1 ∨ ∃ r ∈ h.requests, r.simSlot = 1
  · rw [if_pos hown] at hactive
    rw [indicationMatches_iff_session hactive, h.serve_requests_self]
    exact iff_of_true ⟨rfl, rfl⟩ (Or.inl hown)
  · rw [if_neg hown] at hactive
    have hnever : ¬ ∃ r ∈ h.requests, r.simSlot.toNat = 1 :=
      mt exists_second_iff.1 fun h1 => hown (Or.inr h1)
    -- the lookup ends up in the second session, which still holds its zeros
    have hzero : (serve initializeQmiServer h.requests).pdpSession 1 = ⟨0, 0, 0, 0, 0⟩ := by
      rw [serve_pdpSession, record_of_forall_ne _ fun r hr he => hnever ⟨r, hr, he⟩]
      rfl
    rw [indicationMatches_iff_session hactive, hzero, or_iff_right hown]
    refine and_congr ?_ eq_comm
    rw [eq_comm, ← UInt32.toNat_inj, ActivationHistory.session, ActivateRequest.session,
      UInt32.toNat_ofNat']
    have hlt := h.latest.pdpSequence.toNat_lt
    change _ = 0 ↔ _
    omega

/-- One activation of the first slot: the indication carries the zeros of the second session. -/
theorem not_indicationMatches : ¬ ActivationHistory.IndicationMatches
    ⟨[], activateRequest ⟨42, 1, 1⟩ rfl 0x65 1 0 1 (by decide), [], by simp⟩
    [0x31, 0x2e, 0x31, 0x2e, 0x31, 0x2e, 0x31] := by
  intro h
  have hactive := activeSimSlot_requests
    ⟨[], activateRequest ⟨42, 1, 1⟩ rfl 0x65 1 0 1 (by decide), [], by simp⟩
  rw [if_neg (by simp [ActivationHistory.requests, activateRequest])] at hactive
  have hseq := ((indicationMatches_iff_session hactive _).1 h).1
  rw [serve_pdpSession] at hseq
  exact absurd hseq (by simp [ActivationHistory.requests, ActivationHistory.session, record,
    activateRequest, initializeQmiServer, ActivateRequest.session])

end Imsd
