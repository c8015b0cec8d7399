import Imsd.DcmSessions

/-!
# The clients of the server

The table of clients should hold one entry for every sender, a sender being a pair of node and
port, and an indication should go to each of them once (`ServesEachSender`).  But `g_int_hash` and
`g_int_equal` see only the first four bytes of an address, which are the address family and its
padding: to the table all senders are the same (`gIntEqual_of_family`), and it keeps the first one
only (`clients_receive`).  `servesEachSender_iff` draws the line: one sender, or none.

Nothing but the registration touches the table (`KeepsClients`), whatever the datagram holds and
whether or not the walk over it returns.
-/

namespace Imsd

open Bytes Exec

/-- Who sent a datagram: node and port. -/
def SockaddrQrtr.peer (a : SockaddrQrtr) : UInt32 × UInt32 := (a.sqNode, a.sqPort)

/-- The server after a list of datagrams. -/
def receive (n : ℕ) (server : QRTRServer) (ds : List Datagram) : QRTRServer :=
  ds.foldl (fun server d => (handleIncomingQrtrRequest n d server).1) server

/-- One entry for every sender and no other, and a successful indication goes to each sender
once. -/
def ServesEachSender (n : ℕ) (ds : List Datagram) : Prop :=
  let server := receive n initializeQmiServer ds
  (∀ peer, server.clients.countP (fun key => key.peer = peer) =
      if ∃ d ∈ ds, d.clientAddr.peer = peer then 1 else 0) ∧
    ∀ slotId ipAddress outbuff,
      (notifyPdpIpaddressChange slotId ipAddress server).2.res = some (some outbuff) →
      ∀ peer, (messagesSent (notifyPdpIpaddressChange slotId ipAddress server).2.log).countP
          (fun message => message.1.peer = peer ∧ message.2 = outbuff) =
        if ∃ d ∈ ds, d.clientAddr.peer = peer then 1 else 0

/-! ### Only the registration touches the table -/

/-- A computation that leaves the table of clients alone. -/
def KeepsClients {α : Type} (x : DcmM α) : Prop := ∀ s, (x s).1.clients = s.clients

theorem KeepsClients.dispatch (n : ℕ) (d : Datagram) (transactionId : UInt16)
    (msgid command : ℕ) : KeepsClients (Imsd.dispatch n d transactionId msgid command) :=
  dispatch_keeps (fun _ _ _ => rfl) n d transactionId msgid command

/-- A datagram registers its sender; the rest of the handler does not matter. -/
theorem handle_clients (n : ℕ) (d : Datagram) (server : QRTRServer) :
    (handleIncomingQrtrRequest n d server).1.clients =
      (registerClient d.clientAddr server).clients :=
  handle_keeps (fun _ _ _ => rfl) n d server

/-! ### The table -/

/-- **The table takes all QRTR addresses for the same.** -/
theorem gIntEqual_of_family {a b : SockaddrQrtr} (h : a.sqFamily = b.sqFamily) :
    gIntEqual a b = true := by
  simp [gIntEqual, SockaddrQrtr.encode, toLE, h]

/-- The table holds the first sender and nobody else. -/
theorem clients_receive (n : ℕ) (ds : List Datagram) :
    (receive n initializeQmiServer ds).clients = (ds.head?.map Datagram.clientAddr).toList := by
  induction ds using List.reverseRecOn with
  | nil => rfl
  | append_singleton ds d ih =>
    rw [receive, List.foldl_append]
    refine (handle_clients n d (receive n initializeQmiServer ds)).trans ?_
    cases ds with
    | nil => rfl
    | cons d₀ ds =>
      have hfam : gIntEqual d₀.clientAddr d.clientAddr = true :=
        gIntEqual_of_family (d₀.family_eq.trans d.family_eq.symm)
      rw [registerClient, ih]
      simp [hfam, ih]

/-- A successful indication sends its message to every entry of the table. -/
theorem messagesSent_notify {server : QRTRServer} {slotId : UInt32} {ipAddress outbuff : List UInt8}
    (h : (notifyPdpIpaddressChange slotId ipAddress server).2.res = some (some outbuff)) :
    messagesSent (notifyPdpIpaddressChange slotId ipAddress server).2.log =
      server.clients.map fun addr => (addr, outbuff) := by
  cases hactive : activeSimSlot server slotId with
  | none => rw [(notify_none hactive ipAddress).res] at h; simp at h
  | some i =>
    have hdoes := notify_does hactive ipAddress
    obtain rfl := Option.some.inj (Option.some.inj (hdoes.res.symm.trans h))
    rw [messagesSent, hdoes.out, List.filterMap_map]
    exact congrFun List.filterMap_eq_map _

/-- One entry for every sender and no other, when the first one is the only entry. -/
theorem countP_head_iff (ds : List Datagram) :
    (∀ peer, (ds.head?.map Datagram.clientAddr).toList.countP (fun key => key.peer = peer) =
      if ∃ d ∈ ds, d.clientAddr.peer = peer then 1 else 0) ↔
      ∀ d ∈ ds, ∀ d' ∈ ds, d.clientAddr.peer = d'.clientAddr.peer := by
  cases ds with
  | nil => simp
  | cons d₀ ds =>
    constructor
    · have hfirst : (∀ peer, ([d₀.clientAddr].countP fun key => key.peer = peer) =
          if ∃ d ∈ d₀ :: ds, d.clientAddr.peer = peer then 1 else 0) →
          ∀ d ∈ d₀ :: ds, d₀.clientAddr.peer = d.clientAddr.peer := by
        intro h d hd
        -- the entry for `d` is the first one
        have := h d.clientAddr.peer
        rw [if_pos ⟨d, hd, rfl⟩] at this
        by_contra hne
        simp [hne] at this
      exact fun h d hd d' hd' => (hfirst h d hd).symm.trans (hfirst h d' hd')
    · intro h peer
      by_cases hp : d₀.clientAddr.peer = peer
      · rw [if_pos ⟨d₀, by simp, hp⟩]
        simp [hp]
      · rw [if_neg fun ⟨d, hd, he⟩ => hp ((h d₀ (by simp) d hd).trans he)]
        simp [hp]

/-- **Every sender is served if and only if there are no two different ones.** -/
theorem servesEachSender_iff (n : ℕ) (ds : List Datagram) :
    ServesEachSender n ds ↔
      ∀ d ∈ ds, ∀ d' ∈ ds, d.clientAddr.peer = d'.clientAddr.peer := by
  rw [← countP_head_iff, ← clients_receive n]
  refine ⟨fun h => h.1, fun h => ⟨h, fun slotId ipAddress outbuff hres peer => ?_⟩⟩
  rw [messagesSent_notify hres, List.countP_map, ← h peer]
  congr 1
  funext key
  simp

/-- The indications for two peers go to the first one only. -/
theorem not_servesEachSender :
    ¬ ServesEachSender cursorBound
      [(activateRequest ⟨42, 1, 1⟩ rfl 1 1 0 1 (by decide)).datagram,
        (activateRequest ⟨42, 1, 2⟩ rfl 1 1 0 1 (by decide)).datagram] := by
  rintro ⟨h, -⟩
  have h2 := h (1, 2)
  rw [clients_receive] at h2
  exact absurd h2 (by decide)

end Imsd
