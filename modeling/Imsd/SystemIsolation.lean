import Imsd.System

/-!
# Do the slots interfere?

The server, its table of sessions and the array of clients are shared by the slots, and events of
the two come in any order.  What belongs to slot `i` is its client, with its timers and requests,
and its session; no event of another slot changes them (`System.frame_of_eventStep`).  But the
process is shared, too: a callback that is not survived ends it for both.

`slots_isolated` is about the runs that survive every callback: at the end of such a run each slot
is what it is when only its own events happen, and adjacent events of different slots commute.
`not_slots_isolated` is a run with an answer that takes the other slot along.

The indications do not belong to a slot: their transaction ids count through the slots, and the
lookup of a session can end up with that of the other slot.

`System.exists_slot_run` connects the system with the model of one slot.
-/

namespace Imsd

open EventSystem

namespace System

/-- One event, whatever indication it emits. -/
def EventStep (s : System) (e : SystemEvent) (s' : System) : Prop :=
  ∃ indication, s.Step ⟨e, indication⟩ s'

/-- The callback of a completion, if the event is one, is survived. -/
def Survives (s : System) : SystemEvent → Prop
  | .complete i _ answer => answer.survived (s.slot i).client = true
  | _ => True

/-- One event that is survived. -/
def SurvivedStep (s : System) (e : SystemEvent) (s' : System) : Prop :=
  s.Survives e ∧ s.EventStep e s'

/-- What slot `i` can see: its own state, its session, and whether the process is still there. -/
def view (i : ℕ) (s : System) : (Slot × DcmPdpSession) × Bool :=
  ((s.slot i, s.server.pdpSession i), s.crashed)

variable {s s' : System} {i : ℕ}

theorem view_eq_iff {t : System} :
    t.view i = s.view i ↔ (t.slot i = s.slot i ∧
      t.server.pdpSession i = s.server.pdpSession i) ∧ t.crashed = s.crashed :=
  Prod.ext_iff.trans (and_congr_left' Prod.ext_iff)

theorem eventStep_request_iff {r : ActivateRequest} :
    s.EventStep (.request r) s' ↔ s.crashed = false ∧ s' = s.activated r :=
  ⟨fun ⟨_, h⟩ => (step_request_iff.1 h).imp_right And.left,
    fun ⟨halive, h⟩ => ⟨none, step_request_iff.2 ⟨halive, h, rfl⟩⟩⟩

theorem eventStep_tick_iff :
    s.EventStep (.tick i) s' ↔
      s.crashed = false ∧ ((s.slot i).crashed = false ∧ 0 < (s.slot i).timers) ∧
        s' = ((s.setSlot i (s.slot i).tick).notify
          (getWdsReadyToConnect (s.slot i).client).notified).1 := by
  constructor
  · rintro ⟨indication, h⟩
    obtain ⟨halive, hpos, h⟩ := step_tick_iff.1 h
    exact ⟨halive, hpos, by rw [h]⟩
  · rintro ⟨halive, hpos, rfl⟩
    exact ⟨_, step_tick_iff.2 ⟨halive, hpos, rfl⟩⟩

theorem eventStep_complete_iff {p : Pending} {answer : Answer} :
    s.EventStep (.complete i p answer) s' ↔
      s.crashed = false ∧ ((s.slot i).crashed = false ∧
        p ∈ (s.slot i).pending ∧ answer.answers p.request) ∧ s' = s.complete i p answer :=
  ⟨fun ⟨_, h⟩ => (step_complete_iff.1 h).imp_right (And.imp_right And.left),
    fun ⟨halive, hp, h⟩ => ⟨none, step_complete_iff.2 ⟨halive, hp, h, rfl⟩⟩⟩

theorem eventStep_of_step_eq {e : SystemEvent} {l : SystemLabel}
    (h : s.step e = some (s', l)) : s.EventStep e s' := by
  obtain ⟨event, indication⟩ := l
  obtain rfl : event = e := event_of_step_eq h
  exact ⟨indication, step_of_step_eq h⟩

/-- Nothing happens after the end of the process. -/
theorem EventStep.alive {e : SystemEvent} (h : s.EventStep e s') : s.crashed = false := by
  cases e with
  | request r => exact (eventStep_request_iff.1 h).1
  | tick i => exact (eventStep_tick_iff.1 h).1
  | complete i p answer => exact (eventStep_complete_iff.1 h).1

/-! ### What an event does to a view -/

/-- The session of a slot after a request. -/
theorem after_pdpSession (r : ActivateRequest) (server : QRTRServer) (j : ℕ) :
    (r.after server).pdpSession j =
      if j = r.simSlot.toNat then r.session (server.pdpSession j) else server.pdpSession j := by
  unfold ActivateRequest.after
  split_ifs with hj
  · subst hj
    rw [QRTRServer.setSession_pdpSession_self, registerClient_pdpSession]
  · rw [QRTRServer.setSession_pdpSession_of_ne _ _ hj, registerClient_pdpSession]

theorem activated_slot_self (s : System) (r : ActivateRequest) :
    (s.activated r).slot r.simSlot.toNat = (s.slot r.simSlot.toNat).activate r.simSlot :=
  Function.update_self _ _ _

theorem activated_session_self (s : System) (r : ActivateRequest) :
    (s.activated r).server.pdpSession r.simSlot.toNat =
      r.session (s.server.pdpSession r.simSlot.toNat) :=
  (after_pdpSession r s.server r.simSlot.toNat).trans (if_pos rfl)

/-- **No event of another slot changes a slot, or its session.** -/
theorem frame_of_eventStep {e : SystemEvent} (h : s.EventStep e s') (hne : e.owner ≠ i) :
    s'.slot i = s.slot i ∧ s'.server.pdpSession i = s.server.pdpSession i := by
  have hne' : i ≠ e.owner := Ne.symm hne
  cases e with
  | request r =>
    obtain ⟨-, rfl⟩ := eventStep_request_iff.1 h
    exact ⟨Function.update_of_ne hne' _ _,
      (after_pdpSession r s.server i).trans (if_neg hne')⟩
  | tick j =>
    obtain ⟨-, -, rfl⟩ := eventStep_tick_iff.1 h
    rw [notify_slot, notify_pdpSession, setSlot_server]
    exact ⟨setSlot_slot_of_ne s _ hne', rfl⟩
  | complete j p answer =>
    obtain ⟨-, -, rfl⟩ := eventStep_complete_iff.1 h
    exact ⟨complete_slot_of_ne s j p answer hne', rfl⟩

/-- An event that is survived leaves the process alive. -/
theorem SurvivedStep.alive {e : SystemEvent} (h : s.SurvivedStep e s') : s'.crashed = false := by
  obtain ⟨hsurvives, h⟩ := h
  cases e with
  | request r =>
    obtain ⟨halive, rfl⟩ := eventStep_request_iff.1 h
    exact halive
  | tick j =>
    obtain ⟨halive, -, rfl⟩ := eventStep_tick_iff.1 h
    rw [notify_crashed]
    exact halive
  | complete j p answer =>
    obtain ⟨-, -, rfl⟩ := eventStep_complete_iff.1 h
    rw [complete_crashed, show answer.survived (s.slot j).client = true from hsurvives]
    rfl

/-- **Every event that is survived acts on the view of its owner, by what that view holds.** -/
theorem localViews : LocalViews SurvivedStep SystemEvent.owner view where
  frame := by
    intro s e s' i h hne
    exact view_eq_iff.2 ⟨frame_of_eventStep h.2 hne, h.alive.trans h.2.alive.symm⟩
  self := by
    intro s e s' t h hview
    obtain ⟨⟨hslot, hsession⟩, hcrashed⟩ := view_eq_iff.1 hview
    have halive : t.crashed = false := hcrashed.trans h.2.alive
    suffices hstep : ∃ t', t.SurvivedStep e t' ∧ t'.slot e.owner = s'.slot e.owner ∧
        t'.server.pdpSession e.owner = s'.server.pdpSession e.owner by
      obtain ⟨t', ht, hslot', hsession'⟩ := hstep
      exact ⟨t', ht, view_eq_iff.2 ⟨⟨hslot', hsession'⟩, ht.alive.trans h.alive.symm⟩⟩
    obtain ⟨hsurvives, h⟩ := h
    cases e with
    | request r =>
      obtain ⟨-, rfl⟩ := eventStep_request_iff.1 h
      refine ⟨_, ⟨trivial, eventStep_request_iff.2 ⟨halive, rfl⟩⟩, ?_, ?_⟩
      · show (t.activated r).slot r.simSlot.toNat = (s.activated r).slot r.simSlot.toNat
        rw [activated_slot_self, activated_slot_self]
        exact congrArg (Slot.activate · r.simSlot) hslot
      · show (t.activated r).server.pdpSession r.simSlot.toNat =
          (s.activated r).server.pdpSession r.simSlot.toNat
        rw [activated_session_self, activated_session_self]
        exact congrArg r.session hsession
    | tick i =>
      obtain ⟨-, hpos, rfl⟩ := eventStep_tick_iff.1 h
      have hslot : t.slot i = s.slot i := hslot
      rw [← hslot] at hpos
      refine ⟨_, ⟨trivial, eventStep_tick_iff.2 ⟨halive, hpos, rfl⟩⟩, ?_, ?_⟩
      · show System.slot _ i = System.slot _ i
        rw [notify_slot, notify_slot, setSlot_slot_self, setSlot_slot_self, hslot]
      · rw [notify_pdpSession, notify_pdpSession]
        exact hsession
    | complete i p answer =>
      obtain ⟨-, hp, rfl⟩ := eventStep_complete_iff.1 h
      have hslot : t.slot i = s.slot i := hslot
      have hsurvives : answer.survived (s.slot i).client = true := hsurvives
      rw [← hslot] at hp hsurvives
      refine ⟨_, ⟨hsurvives, eventStep_complete_iff.2 ⟨halive, hp, rfl⟩⟩, ?_, hsession⟩
      show (t.complete i p answer).slot i = (s.complete i p answer).slot i
      rw [complete_slot_self, complete_slot_self, hslot]

/-! ### The run of one slot -/

/-- The event for slot `i` that an event is, if it is one. -/
def slotEvent (i : ℕ) : SystemEvent → Option SlotEvent
  | .request r => if r.simSlot.toNat = i then some (.activate r.simSlot) else none
  | .tick j => if j = i then some .tick else none
  | .complete j p answer => if j = i then some (.complete p answer) else none

theorem slotEvent_of_ne {e : SystemEvent} (h : e.owner ≠ i) : slotEvent i e = none := by
  cases e <;> exact if_neg h

/-- **An event of the system is a step of its slot.** -/
theorem exists_slot_step {l : SystemLabel} (hs : s.Step l s') (h : l.event.owner = i)
    (hslot : (s.slot i).crashed = false) :
    ∃ l', (s.slot i).Step l' (s'.slot i) ∧ slotEvent i l.event = some l'.event := by
  obtain ⟨event, indication⟩ := l
  cases event with
  | request r =>
    obtain rfl : r.simSlot.toNat = i := h
    obtain ⟨-, rfl, -⟩ := step_request_iff.1 hs
    refine ⟨⟨.activate r.simSlot, _, none⟩, Slot.step_activate_iff.2 ⟨?_, ?_, rfl, rfl⟩, if_pos rfl⟩
    · exact hslot
    · exact activated_slot_self s r
  | tick j =>
    obtain rfl : j = i := h
    obtain ⟨-, ⟨-, hpos⟩, hnotify⟩ := step_tick_iff.1 hs
    refine ⟨⟨.tick, _, _⟩, Slot.step_tick_iff.2 ⟨hslot, hpos, ?_, rfl, rfl⟩, if_pos rfl⟩
    obtain ⟨rfl, -⟩ := Prod.ext_iff.1 hnotify
    rw [notify_slot, setSlot_slot_self]
  | complete j p answer =>
    obtain rfl : j = i := h
    obtain ⟨-, ⟨-, hp⟩, rfl, -⟩ := step_complete_iff.1 hs
    exact ⟨⟨.complete p answer, _, none⟩,
      Slot.step_complete_iff.2 ⟨hslot, hp, complete_slot_self _ _ _ _, rfl, rfl⟩, if_pos rfl⟩

/-- As long as the process is there, no slot has ended it. -/
theorem slot_alive_of_step {l : SystemLabel} (hs : s.Step l s')
    (hslot : (s.slot i).crashed = false) (halive : s'.crashed = false) :
    (s'.slot i).crashed = false := by
  by_cases howner : l.event.owner = i
  · obtain ⟨event, indication⟩ := l
    cases event with
    | request r =>
      obtain rfl : r.simSlot.toNat = i := howner
      obtain ⟨-, rfl, -⟩ := step_request_iff.1 hs
      rw [activated_slot_self]
      exact hslot
    | tick j =>
      obtain rfl : j = i := howner
      obtain ⟨-, -, hnotify⟩ := step_tick_iff.1 hs
      obtain ⟨rfl, -⟩ := Prod.ext_iff.1 hnotify
      rw [notify_slot, setSlot_slot_self]
      exact hslot
    | complete j p answer =>
      obtain rfl : j = i := howner
      obtain ⟨-, -, rfl, -⟩ := step_complete_iff.1 hs
      rw [complete_slot_self]
      exact halive
  · rw [(frame_of_eventStep ⟨_, hs⟩ howner).1]
    exact hslot

/-- **A run of the system is a run of each of its slots**: what is known of the runs of a slot
holds within the system. -/
theorem exists_slot_run {tr : List SystemLabel} (h : Run Initial Step unguarded tr s) (i : ℕ) :
    (s.crashed = false → (s.slot i).crashed = false) ∧
      ∃ tr', Run Slot.Idle Slot.Step unguarded tr' (s.slot i) ∧
        tr'.map Label.event = tr.filterMap fun l => slotEvent i l.event := by
  induction h with
  | start hi => exact ⟨fun _ => (hi.2.1 i).2.2.2, [], .start (hi.2.1 i), rfl⟩
  | @snoc tr s s' l _ _ hs ih =>
    obtain ⟨hslot, tr', hr, hevents⟩ := ih
    have hslot := hslot (show s.EventStep l.event s' from ⟨_, hs⟩).alive
    rw [List.filterMap_append, ← hevents]
    refine ⟨slot_alive_of_step hs hslot, ?_⟩
    by_cases howner : l.event.owner = i
    · obtain ⟨l', hs', hl'⟩ := exists_slot_step hs howner hslot
      exact ⟨tr' ++ [l'], hr.snoc trivial hs', by simp [hl']⟩
    · obtain ⟨hsame, -⟩ := frame_of_eventStep ⟨_, hs⟩ howner
      exact ⟨tr', by rw [hsame]; exact hr, by simp [slotEvent_of_ne howner]⟩

/-! ### Runs from event to event -/

/-- The events one after the other, if they can happen. -/
def runEvents : System → List SystemEvent → Option System
  | s, [] => some s
  | s, e :: events => (s.step e).bind fun r => runEvents r.1 events

theorem path_of_runEvents {events : List SystemEvent} (h : s.runEvents events = some s') :
    Path EventStep s events s' := by
  induction events generalizing s with
  | nil =>
    cases h
    exact .nil _
  | cons e events ih =>
    obtain ⟨⟨s₁, l⟩, hs, h⟩ := Option.bind_eq_some_iff.1 h
    have hs : s.step e = some (s₁, l) := hs
    refine .cons ⟨l.indication, ?_⟩ (ih h)
    rw [Step, hs, ← event_of_step_eq hs]

end System

/-- What the run `events` from `s` to `s'` does to the slots, each slot does alone. -/
structure SlotsIsolated (s : System) (events : List SystemEvent) (s' : System) : Prop where
  own_events : ∀ i, ∃ t, Path System.EventStep s (events.filter fun e => e.owner = i) t ∧
    (t.slot i).client = (s'.slot i).client ∧ t.server.pdpSession i = s'.server.pdpSession i
  frame : ∀ i t e t', System.EventStep t e t' → e.owner ≠ i →
    (t'.slot i).client = (t.slot i).client ∧ t'.server.pdpSession i = t.server.pdpSession i
  commute : ∀ pre e₁ e₂ post, events = pre ++ e₁ :: e₂ :: post → e₁.owner ≠ e₂.owner →
    ∃ t, Path System.EventStep s (pre ++ e₂ :: e₁ :: post) t ∧
      ∀ i, (t.slot i).client = (s'.slot i).client ∧
        t.server.pdpSession i = s'.server.pdpSession i

/-- **Slots whose callbacks are all survived do not interfere.** -/
theorem slots_isolated {s s' : System} {events : List SystemEvent}
    (h : Path System.SurvivedStep s events s') : SlotsIsolated s events s' where
  own_events i := by
    obtain ⟨t, ht, hview⟩ := System.localViews.exists_path_filter i h rfl
    obtain ⟨⟨hslot, hsession⟩, -⟩ := System.view_eq_iff.1 hview
    exact ⟨t, ht.mono fun _ _ _ => And.right, by rw [hslot], hsession⟩
  frame i t e t' ht hne := by
    obtain ⟨hslot, hsession⟩ := System.frame_of_eventStep ht hne
    exact ⟨by rw [hslot], hsession⟩
  commute pre e₁ e₂ post hevents hne := by
    subst hevents
    obtain ⟨t, ht, hviews⟩ := System.localViews.exists_path_swap_within hne h
    refine ⟨t, ht.mono fun _ _ _ => And.right, fun i => ?_⟩
    obtain ⟨⟨hslot, hsession⟩, -⟩ := System.view_eq_iff.1 (hviews i)
    exact ⟨by rw [hslot], hsession⟩

/-- Both slots are activated and take a tick; then the first one gets an answer. -/
theorem slots_isolated_both : ∃ s s' events,
    (∃ e ∈ events, e.owner = 0) ∧ (∃ e ∈ events, e.owner = 1) ∧
      Path System.SurvivedStep s events s' ∧ SlotsIsolated s events s' := by
  have hpath : Path System.SurvivedStep System.freshSystem
      [.request firstSlotRequest, .request secondSlotRequest, .tick 1, .tick 0,
        .complete 0 ⟨1, .getProfileList 0⟩ (.getProfileList .noOutput)] _ :=
    .cons ⟨trivial, System.eventStep_request_iff.2 ⟨rfl, rfl⟩⟩ <|
    .cons ⟨trivial, System.eventStep_request_iff.2 ⟨rfl, rfl⟩⟩ <|
    .cons ⟨trivial, System.eventStep_tick_iff.2 ⟨rfl, by decide, rfl⟩⟩ <|
    .cons ⟨trivial, System.eventStep_tick_iff.2 ⟨rfl, by decide, rfl⟩⟩ <|
    .cons ⟨rfl, System.eventStep_complete_iff.2 ⟨rfl, by decide, rfl⟩⟩ <|
    .nil _
  exact ⟨_, _, _, ⟨_, List.mem_cons_self, rfl⟩,
    ⟨_, List.mem_cons_of_mem _ List.mem_cons_self, rfl⟩, hpath, slots_isolated hpath⟩

/-- The event of slot `i` that is no activation. -/
def SlotEvent.onSlot (i : ℕ) : SlotEvent → Option SystemEvent
  | .activate _ => none
  | .tick => some (.tick i)
  | .complete p answer => some (.complete i p answer)

/-- Both slots are activated, and the second one comes to ask for its settings. -/
def settingsAsked : List SystemEvent :=
  [.request firstSlotRequest, .request secondSlotRequest] ++
    ((bringUp (.ok (some 7))).take 17).filterMap (SlotEvent.onSlot 1)

/-- The answer does not come in time. -/
def settingsTimeout : SystemEvent := .complete 1 ⟨1, .getCurrentSettings⟩ (.getCurrentSettings none)

/-- The answer of the second slot is the end of the process, and there is no tick of the first one
after it. -/
theorem not_slots_isolated :
    ¬ ∀ s s' events, Path System.EventStep s events s' → SlotsIsolated s events s' := by
  intro hall
  have h : (System.freshSystem.runEvents (settingsAsked ++ [.tick 0, settingsTimeout])).isSome := by
    decide +kernel
  obtain ⟨s', hs'⟩ := Option.isSome_iff_exists.1 h
  obtain ⟨t, ht, -⟩ := (hall _ _ _ (System.path_of_runEvents hs')).commute settingsAsked
    (.tick 0) settingsTimeout [] rfl (by decide)
  obtain ⟨s₁, -, ht⟩ := path_append_iff.1 ht
  obtain ⟨s₂, hcrash, ht⟩ := path_cons_iff.1 ht
  obtain ⟨s₃, htick, -⟩ := path_cons_iff.1 ht
  obtain ⟨-, -, rfl⟩ := System.eventStep_complete_iff.1 hcrash
  have halive := htick.alive
  rw [System.complete_crashed] at halive
  exact absurd halive Bool.noConfusion

end Imsd
