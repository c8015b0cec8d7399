import Imsd.DcmSessions
import Imsd.WdsSlot

/-!
# The server and its slots

A `System` is the DCM server together with the array `WDS_Client`.  Its events are those of the
main loop:

* `request r`: a well-formed PDP-activate request.  The handler calls `request_network_start` for
  the slot it has parsed, which activates that slot's client;
* `tick i`: a call of a timer of slot `i`.  At the last step it calls
  `notify_pdp_ipaddress_change`;
* `complete i p answer`: the completion of a request of slot `i`.  A callback of one slot that is
  not survived is the end of the process for both.

A label also says which indication the event has made the server emit.  `step_request_iff`,
`step_tick_iff` and `step_complete_iff` say what each event can do.
-/

namespace Imsd

open EventSystem Exec

/-- The server, the slots of `WDS_Client[MAX_SIM_SLOTS]`, and whether the process has come to its
end in a callback. -/
structure System where
  server : QRTRServer
  slot : ℕ → Slot
  crashed : Bool

inductive SystemEvent
  | request (r : ActivateRequest)
  | tick (i : ℕ)
  | complete (i : ℕ) (p : Pending) (answer : Answer)

/-- An event as it happened, and the indication that it emitted. -/
structure SystemLabel where
  event : SystemEvent
  indication : Option (List UInt8)

/-- The slot of an event. -/
def SystemEvent.owner : SystemEvent → ℕ
  | .request r => r.simSlot.toNat
  | .tick i => i
  | .complete i _ _ => i

namespace System

def setSlot (s : System) (i : ℕ) (t : Slot) : System :=
  { s with slot := Function.update s.slot i t }

/-- `request_network_start`. -/
def requestNetworkStart (s : System) (simSlot : UInt32) : System :=
  s.setSlot simSlot.toNat ((s.slot simSlot.toNat).activate simSlot)

/-- What an output of the server does within the process. -/
def perform (s : System) : Output → System
  | .networkStart simSlot => s.requestNetworkStart simSlot
  | .sendto _ _ => s

/-- A request.  The handler does not look at the slots, so its calls of `request_network_start`
can follow it. -/
def request (s : System) (r : ActivateRequest) : System :=
  let result := handleIncomingQrtrRequest cursorBound r.datagram s.server
  (result.2.log.filterMap Access.output?).foldl perform { s with server := result.1 }

/-- `notify_pdp_ipaddress_change`, if a timer function has called it. -/
def notify (s : System) : Option (UInt32 × List UInt8) → System × Option (List UInt8)
  | none => (s, none)
  | some (slotId, ipAddress) =>
    let result := notifyPdpIpaddressChange slotId ipAddress s.server
    ({ s with server := result.1 }, result.2.res.join)

/-- One event, if it can happen. -/
def step (s : System) (e : SystemEvent) : Option (System × SystemLabel) :=
  if s.crashed then none
  else match e with
    | .request r => some (s.request r, ⟨.request r, none⟩)
    | .tick i => ((s.slot i).step .tick).map fun (t, l) =>
      let (s', indication) := (s.setSlot i t).notify l.notified
      (s', ⟨.tick i, indication⟩)
    | .complete i p answer => ((s.slot i).step (.complete p answer)).map fun (t, _) =>
      ({ s.setSlot i t with crashed := t.crashed }, ⟨.complete i p answer, none⟩)

/-- The step relation. -/
def Step (s : System) (l : SystemLabel) (s' : System) : Prop := s.step l.event = some (s', l)

/-- The server as it is set up, and slots before their first activation. -/
def Initial (s : System) : Prop :=
  s.server = initializeQmiServer ∧ (∀ i, (s.slot i).Idle) ∧ s.crashed = false

/-- The process before its first event. -/
def freshSystem : System := ⟨initializeQmiServer, fun _ => freshSlot, false⟩

/-- The system after the completion of a request of slot `i`. -/
def complete (s : System) (i : ℕ) (p : Pending) (answer : Answer) : System :=
  { s.setSlot i ((s.slot i).complete p answer) with
    crashed := (ready? (s.slot i).client answer).isNone }

@[simp] theorem setSlot_server (s : System) (i : ℕ) (t : Slot) :
    (s.setSlot i t).server = s.server := rfl

@[simp] theorem setSlot_slot_self (s : System) (i : ℕ) (t : Slot) :
    (s.setSlot i t).slot i = t := by
  simp [setSlot]

@[simp] theorem setSlot_slot_of_ne (s : System) {i j : ℕ} (t : Slot) (h : j ≠ i) :
    (s.setSlot i t).slot j = s.slot j := by
  simp [setSlot, h]

@[simp] theorem setSlot_crashed (s : System) (i : ℕ) (t : Slot) :
    (s.setSlot i t).crashed = s.crashed := rfl

section Complete

variable (s : System) (i : ℕ) (p : Pending) (answer : Answer)

@[simp] theorem complete_server : (s.complete i p answer).server = s.server := rfl

@[simp] theorem complete_slot_self :
    (s.complete i p answer).slot i = (s.slot i).complete p answer := by
  simp [complete]

@[simp] theorem complete_slot_of_ne {j : ℕ} (h : j ≠ i) :
    (s.complete i p answer).slot j = s.slot j := by
  simp [complete, h]

/-- The process survives a completion when its callback does. -/
theorem complete_crashed :
    (s.complete i p answer).crashed = !answer.survived (s.slot i).client :=
  ready?_isNone _ answer

end Complete

/-! ### What an event does -/

/-- The system after a request, in closed form. -/
def activated (s : System) (r : ActivateRequest) : System :=
  { s with
    server := r.after s.server
    slot := Function.update s.slot r.simSlot.toNat
      ((s.slot r.simSlot.toNat).activate r.simSlot) }

/-- **A request activates its own slot**, and nothing else of the slots changes. -/
theorem request_eq (s : System) (r : ActivateRequest) : s.request r = s.activated r := by
  obtain ⟨hstate, -, hout⟩ := handle_activate r le_rfl s.server
  unfold request
  dsimp only
  rw [hout, hstate]
  rfl

variable (s : System)

@[simp] theorem notify_crashed (n : Option (UInt32 × List UInt8)) :
    (s.notify n).1.crashed = s.crashed := by
  rcases n with _ | ⟨slotId, ipAddress⟩ <;> rfl

@[simp] theorem notify_slot (n : Option (UInt32 × List UInt8)) : (s.notify n).1.slot = s.slot := by
  rcases n with _ | ⟨slotId, ipAddress⟩ <;> rfl

/-- An indication leaves the sessions alone. -/
@[simp] theorem notify_pdpSession (n : Option (UInt32 × List UInt8)) :
    (s.notify n).1.server.pdpSession = s.server.pdpSession := by
  rcases n with _ | ⟨slotId, ipAddress⟩
  · rfl
  · show (notifyPdpIpaddressChange slotId ipAddress s.server).1.pdpSession = s.server.pdpSession
    cases hi : activeSimSlot s.server slotId with
    | none => rw [(notify_none hi ipAddress).state]
    | some i => rw [(notify_does hi ipAddress).state]

/-- A call of `notify_pdp_ipaddress_change` emits an indication when the lookup finds a
session. -/
theorem notify_isSome {slotId : UInt32} (h : (activeSimSlot s.server slotId).isSome)
    (ipAddress : List UInt8) : (s.notify (some (slotId, ipAddress))).2.isSome := by
  obtain ⟨i, hi⟩ := Option.isSome_iff_exists.1 h
  show ((notifyPdpIpaddressChange slotId ipAddress s.server).2.res.join).isSome
  rw [(notify_does hi ipAddress).res]
  rfl

variable {s : System} {s' : System} {indication : Option (List UInt8)}

theorem step_request_iff {r : ActivateRequest} :
    s.Step ⟨.request r, indication⟩ s' ↔
      s.crashed = false ∧ s' = s.activated r ∧ indication = none := by
  rw [← request_eq]
  unfold Step step
  dsimp only
  split_ifs with hcrashed
  · exact iff_of_false (by simp) fun h => by simp [hcrashed] at h
  · constructor
    · intro h
      cases h
      exact ⟨Bool.eq_false_of_not_eq_true hcrashed, rfl, rfl⟩
    · rintro ⟨-, rfl, rfl⟩
      rfl

theorem step_tick_iff {i : ℕ} :
    s.Step ⟨.tick i, indication⟩ s' ↔
      s.crashed = false ∧ ((s.slot i).crashed = false ∧ 0 < (s.slot i).timers) ∧
        (s.setSlot i (s.slot i).tick).notify (getWdsReadyToConnect (s.slot i).client).notified =
          (s', indication) := by
  unfold Step step Slot.step
  dsimp only
  split_ifs with hcrashed hslot h0
  · exact iff_of_false (by simp) fun h => by simp [hcrashed] at h
  · exact iff_of_false (by simp) fun h => by simp [hslot] at h
  · exact iff_of_false (by simp) fun h => by omega
  · rw [Option.map_some, Option.some_inj]
    constructor
    · intro h
      cases h
      exact ⟨Bool.eq_false_of_not_eq_true hcrashed,
        ⟨Bool.eq_false_of_not_eq_true hslot, Nat.pos_of_ne_zero h0⟩, rfl⟩
    · rintro ⟨-, -, h⟩
      rw [h]

theorem step_complete_iff {i : ℕ} {p : Pending} {answer : Answer} :
    s.Step ⟨.complete i p answer, indication⟩ s' ↔
      s.crashed = false ∧ ((s.slot i).crashed = false ∧
        p ∈ (s.slot i).pending ∧ answer.answers p.request) ∧
        s' = s.complete i p answer ∧ indication = none := by
  unfold Step step Slot.step
  dsimp only
  split_ifs with hcrashed hslot hp
  · exact iff_of_false (by simp) fun h => by simp [hcrashed] at h
  · exact iff_of_false (by simp) fun h => by simp [hslot] at h
  · constructor
    · intro h
      cases h
      exact ⟨Bool.eq_false_of_not_eq_true hcrashed,
        ⟨Bool.eq_false_of_not_eq_true hslot, hp⟩, rfl, rfl⟩
    · rintro ⟨-, -, rfl, rfl⟩
      rfl
  · exact iff_of_false (by simp) fun h => hp h.2.1.2

theorem event_of_step_eq {e : SystemEvent} {l : SystemLabel} (h : s.step e = some (s', l)) :
    l.event = e := by
  unfold step at h
  split_ifs at h
  cases e with
  | request r => cases h; rfl
  | tick i =>
    obtain ⟨_, -, h⟩ := Option.map_eq_some_iff.1 h
    cases h; rfl
  | complete i p answer =>
    obtain ⟨_, -, h⟩ := Option.map_eq_some_iff.1 h
    cases h; rfl

theorem step_of_step_eq {e : SystemEvent} {l : SystemLabel} (h : s.step e = some (s', l)) :
    s.Step l s' := by
  rw [Step, event_of_step_eq h, h]

end System

end Imsd
