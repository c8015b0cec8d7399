import Imsd.DcmSearch
import Imsd.DcmActivate

/-!
# What the handler touches

`StaysInBounds` says that the handler reads no byte behind the datagram, indexes `PDP_Session`
below its size only, and starts the network for a slot that exists only.  `staysInBounds_iff`
gives the exact condition on the bytes, `Datagram.Fits`: the header fields are there and, for
PDP-activate requests, every search finds its way and the slot exists (`RequestFits`).

What would come after a search that never returns is not touched, and nothing is asked of it.
-/

namespace Imsd

open Bytes Exec Fueled

/-- Every access of the handler is within bounds. -/
def StaysInBounds (d : Datagram) (server : QRTRServer) : Prop :=
  Safe (Access.InBounds d.inbuffLen) (fun n => handleIncomingQrtrRequest n d) server

/-! ### The condition -/

section Condition

variable (m : ℕ → UInt8) (len : ℕ)

/-- Storing the value found in the session of the slot fits, and so does the rest of the request
if the search ends. -/
def StoreFits (slot : ℕ) (tlvid : UInt8) (width : ℕ) (rest : Prop) : Prop :=
  SearchFits m len tlvid width ∧ ((∃ p, FoundAt m len tlvid p) → slot < maxSimSlots) ∧
    (SearchEnds m len tlvid → rest)

/-- The slot, if there is one, exists. -/
def SlotFits : Prop := ∀ p, FoundAt m len 0x12 p → loadLE m (p + 3) 4 < maxSimSlots

/-- The searches of a PDP-activate request, in their order: `0x12` for the slot, then `0x10`,
`0x11`, `0x12` again and `0x13`.  The slot is used as soon as a value is stored. -/
def RequestFits : Prop :=
  SearchFits m len 0x12 4 ∧ (SearchEnds m len 0x12 →
    SearchFits m len 0x10 1 ∧ ((∃ p, FoundAt m len 0x10 p) → SlotFits m len) ∧
      (SearchEnds m len 0x10 →
        SearchFits m len 0x11 4 ∧
          (SearchEnds m len 0x11 → SlotFits m len ∧ SearchFits m len 0x13 4)))

end Condition

/-- The datagram has the header fields, and its searches fit if it is a PDP-activate request. -/
def Datagram.Fits (d : Datagram) : Prop :=
  5 ≤ d.inbuffLen ∧
    (loadLE d.inbuff 3 2 = imsDcmPdpActivate → RequestFits d.inbuff d.inbuffLen)

section Datagram

variable (d : Datagram) {tlvid : UInt8} {server server' : QRTRServer}

/-! ### Storing a TLV -/

section Store

variable {slot width : ℕ} {store : ℕ → DcmPdpSession → DcmPdpSession}

/-- `width` bytes from `c` on lie in the datagram. -/
theorem safe_load_iff {c : ℕ} (hw : 0 < width) :
    (∀ e ∈ (recv (load d.inbuff c width) server).2.log, e.InBounds d.inbuffLen) ↔
      c + width ≤ d.inbuffLen := by
  have hlog : (recv (load d.inbuff c width) server).2.log =
      (load d.inbuff c width).log.map Access.read := rfl
  rw [hlog, List.forall_mem_map]
  constructor
  · intro h
    have : c + (width - 1) < d.inbuffLen := h _ (mem_log_load.2 (by omega))
    omega
  · intro h a ha
    have := mem_log_load.1 ha
    show a < d.inbuffLen
    omega

theorem safe_updateSession_iff (g : DcmPdpSession → DcmPdpSession) :
    (∀ e ∈ (updateSession slot g server).2.log, e.InBounds d.inbuffLen) ↔ slot < maxSimSlots := by
  have hlog : (updateSession slot g server).2.log = [Access.session slot] := by
    by_cases hslot : slot < maxSimSlots
    · unfold updateSession touchSession
      rw [if_pos hslot]
      rfl
    · rw [updateSession, bind_of_none (by rw [touchSession_of_le (not_lt.1 hslot)]),
        touchSession_of_le (not_lt.1 hslot)]
  rw [hlog, List.forall_mem_singleton]
  exact Iff.rfl

/-- What `storeTlv` does with the offset its search returned. -/
def storeValue (d : Datagram) (slot width : ℕ) (store : ℕ → DcmPdpSession → DcmPdpSession)
    (offset : ℕ) : DcmM PUnit :=
  if offset > 0 then do
    let data ← recv (load d.inbuff (offset + 3) width)
    updateSession slot (store data)
  else pure ⟨⟩

theorem fueled_storeTlv : Fueled fun n => storeTlv n d slot tlvid width store :=
  (fueled_search d tlvid).bind fun _ => .const _

theorem safe_storeValue_iff {offset : ℕ} (hw : 0 < width) :
    (∀ e ∈ (storeValue d slot width store offset server).2.log, e.InBounds d.inbuffLen) ↔
      (0 < offset → offset + 3 + width ≤ d.inbuffLen ∧ slot < maxSimSlots) := by
  unfold storeValue
  by_cases h0 : 0 < offset
  · rw [if_pos h0, imp_iff_right h0, bind_of_some rfl, List.forall_mem_append, safe_load_iff d hw,
      safe_updateSession_iff]
  · rw [if_neg h0]
    exact iff_of_true (by simp) fun h => absurd h h0

theorem isSome_storeValue {offset : ℕ} (hslot : 0 < offset → slot < maxSimSlots) :
    (storeValue d slot width store offset server).2.res.isSome := by
  unfold storeValue
  split_ifs with h0
  · rw [bind_of_some rfl]
    show (updateSession slot _ server).2.res.isSome
    rw [(updateSession_does (hslot h0) _ server).res]
    rfl
  · rfl

/-- **When storing a TLV stays within bounds.** -/
theorem safe_storeTlv_iff (hw : 0 < width) :
    Safe (Access.InBounds d.inbuffLen) (fun n => storeTlv n d slot tlvid width store) server ↔
      SearchFits d.inbuff d.inbuffLen tlvid width ∧
        ((∃ p, FoundAt d.inbuff d.inbuffLen tlvid p) → slot < maxSimSlots) := by
  refine (safe_bind_iff (f := fun _ => storeValue d slot width store) (fueled_search d tlvid)
    fun _ => .const _).trans ?_
  simp only [safe_search_iff, returns_search_iff, safe_const_iff, safe_storeValue_iff d hw]
  constructor
  · rintro ⟨hreads, hvalue⟩
    have hfits : SearchFits d.inbuff d.inbuffLen tlvid width :=
      (searchFits_iff d width).2 ⟨hreads, fun o ho h0 => (hvalue server o ⟨rfl, ho⟩ h0).1⟩
    refine ⟨hfits, fun hfound => ?_⟩
    obtain ⟨o, ho, h0⟩ := (exists_pos_returns_iff d hfits).2 hfound
    exact (hvalue server o ⟨rfl, ho⟩ h0).2
  · rintro ⟨hfits, hslot⟩
    obtain ⟨hreads, hvalue⟩ := (searchFits_iff d width).1 hfits
    exact ⟨hreads, fun _ o ho h0 =>
      ⟨hvalue o ho.2 h0, hslot ((exists_pos_returns_iff d hfits).1 ⟨o, ho.2, h0⟩)⟩⟩

/-- Whether storing a TLV returns. -/
theorem returns_storeTlv_iff (hfits : SearchFits d.inbuff d.inbuffLen tlvid width)
    (hslot : (∃ p, FoundAt d.inbuff d.inbuffLen tlvid p) → slot < maxSimSlots) :
    (∃ server' u, Returns (fun n => storeTlv n d slot tlvid width store) server server' u) ↔
      SearchEnds d.inbuff d.inbuffLen tlvid := by
  rw [← exists_returns_iff d hfits]
  have hbind := @returns_bind_iff _ _ _ _ _ (fun _ => storeValue d slot width store) server
    (fueled_search d tlvid) fun _ => .const _
  constructor
  · rintro ⟨server', u, h⟩
    obtain ⟨_, o, ho, -⟩ := hbind.1 h
    exact ⟨o, ((returns_search_iff d).1 ho).2⟩
  · rintro ⟨o, ho⟩
    obtain ⟨u, hu⟩ :=
      Option.isSome_iff_exists.1 (@isSome_storeValue d server slot width store o fun h0 =>
        hslot ((exists_pos_returns_iff d hfits).1 ⟨o, ho, h0⟩))
    exact ⟨_, u, hbind.2 ⟨server, o, (returns_search_iff d).2 ⟨rfl, ho⟩, 0, rfl, hu⟩⟩

/-- **Storing a TLV, and then something whose bounds do not depend on the server.** -/
theorem safe_storeTlv_bind_iff {α : Type} {f : ℕ → DcmM α} {R : Prop} (hw : 0 < width)
    (hf : Fueled f) (hR : ∀ server, Safe (Access.InBounds d.inbuffLen) f server ↔ R) :
    Safe (Access.InBounds d.inbuffLen)
        (fun n => storeTlv n d slot tlvid width store >>= fun _ => f n) server ↔
      StoreFits d.inbuff d.inbuffLen slot tlvid width R := by
  rw [StoreFits, safe_bind_iff (fueled_storeTlv d) fun _ => hf, safe_storeTlv_iff d hw, and_assoc]
  refine and_congr_right fun hfits => and_congr_right fun hslot => ?_
  simp only [hR, ← @returns_storeTlv_iff d tlvid server slot width store hfits hslot]
  exact ⟨fun h ⟨s', u, hs⟩ => h s' u hs, fun h s' u hs => h ⟨s', u, hs⟩⟩

end Store

/-! ### The handler -/

theorem fueled_readSimSlot : Fueled fun n => readSimSlot n d :=
  (fueled_search d 0x12).bind fun _ => .const _

theorem safe_readSimSlot_iff :
    Safe (Access.InBounds d.inbuffLen) (fun n => readSimSlot n d) server ↔
      SearchFits d.inbuff d.inbuffLen 0x12 4 := by
  refine (safe_bind_iff (f := fun _ offset => if offset > 0 then
    recv (load d.inbuff (offset + 3) 4) else pure 0) (fueled_search d 0x12)
    fun _ => .const _).trans ?_
  rw [searchFits_iff, safe_search_iff]
  refine and_congr_right fun _ => ?_
  simp only [returns_search_iff, safe_const_iff]
  constructor
  · intro h o ho h0
    have := h server o ⟨rfl, ho⟩
    rw [if_pos h0] at this
    exact (safe_load_iff d (by decide)).1 this
  · rintro h _ o ⟨rfl, ho⟩
    by_cases h0 : 0 < o
    · rw [if_pos h0]
      exact (safe_load_iff d (by decide)).2 (h o ho h0)
    · rw [if_neg h0]
      simp

/-- The slot that the first search gives. -/
def SlotGiven (slot : ℕ) : Prop :=
  (∃ p, FoundAt d.inbuff d.inbuffLen 0x12 p ∧ slot = loadLE d.inbuff (p + 3) 4) ∨
    slot = 0 ∧ (d.inbuffLen < sizeofQmiPacket + 4 ∨
      SearchAt d.inbuff d.inbuffLen 0x12 d.inbuffLen)

theorem exists_slotGiven_iff :
    (∃ slot, SlotGiven d slot) ↔ SearchEnds d.inbuff d.inbuffLen 0x12 := by
  constructor
  · rintro ⟨slot, ⟨p, hp, -⟩ | ⟨-, hend⟩⟩
    · exact Or.inr (Or.inl ⟨p, hp⟩)
    · exact hend.imp_right Or.inr
  · rintro (hend | ⟨p, hp⟩ | hend)
    · exact ⟨0, Or.inr ⟨rfl, Or.inl hend⟩⟩
    · exact ⟨_, Or.inl ⟨p, hp, rfl⟩⟩
    · exact ⟨0, Or.inr ⟨rfl, Or.inr hend⟩⟩

theorem slotFits_iff :
    SlotFits d.inbuff d.inbuffLen ↔ ∀ slot, SlotGiven d slot → slot < maxSimSlots := by
  constructor
  · rintro h slot (⟨p, hp, rfl⟩ | ⟨rfl, -⟩)
    · exact h p hp
    · decide
  · exact fun h p hp => h _ (Or.inl ⟨p, hp, rfl⟩)

/-- The slot is the value found, or the first slot. -/
theorem returns_readSimSlot_iff {slot : ℕ} (hfits : SearchFits d.inbuff d.inbuffLen 0x12 4) :
    Returns (fun n => readSimSlot n d) server server' slot ↔
      server' = server ∧ SlotGiven d slot := by
  refine (returns_bind_iff (f := fun _ offset => if offset > 0 then
    recv (load d.inbuff (offset + 3) 4) else pure 0) (fueled_search d 0x12)
    fun _ => .const _).trans ?_
  simp only [returns_search_iff, returns_const_iff, SearchFits.returns_iff d hfits]
  constructor
  · rintro ⟨_, o, ⟨rfl, ho⟩, hs, hr⟩
    rcases ho with hp | ⟨rfl, hend⟩
    · rw [if_pos hp.1.pos] at hs hr
      exact ⟨hs.symm, Or.inl ⟨o, hp, (Option.some.inj hr).symm⟩⟩
    · exact ⟨hs.symm, Or.inr ⟨(Option.some.inj hr).symm, hend⟩⟩
  · rintro ⟨rfl, ⟨p, hp, rfl⟩ | ⟨rfl, hend⟩⟩
    · refine ⟨server', p, ⟨rfl, Or.inl hp⟩, ?_⟩
      rw [if_pos hp.1.pos]
      exact ⟨rfl, rfl⟩
    · exact ⟨server', 0, ⟨rfl, Or.inr ⟨rfl, hend⟩⟩, rfl, rfl⟩

/-- The end of a PDP-activate request. -/
def startAndReply (d : Datagram) (transactionId : UInt16) (msgid slot : ℕ) : DcmM PUnit := do
  Exec.emitAll [Access.out (.networkStart (UInt32.ofNat slot))]
  let session ← readSession slot
  Exec.emitAll
    [Access.out (.sendto d.clientAddr (pdpActivateResponse transactionId msgid session).encode)]

/-- The rest of a PDP-activate request, once the slot is known. -/
def storeAndStart (n : ℕ) (d : Datagram) (transactionId : UInt16) (msgid slot : ℕ) :
    DcmM PUnit := do
  storePdpSequenceId n d slot
  storePdpSubscriptionId n d slot
  storeSlotId n d slot
  storePdpInstanceId n d slot
  startAndReply d transactionId msgid slot

section Activate

variable {transactionId : UInt16} {msgid slot : ℕ}

theorem safe_startAndReply_iff :
    Safe (Access.InBounds d.inbuffLen) (fun _ => startAndReply d transactionId msgid slot) server ↔
      slot < maxSimSlots := by
  rw [safe_const_iff]
  by_cases hslot : slot < maxSimSlots
  · refine iff_of_true ?_ hslot
    have hlog : (startAndReply d transactionId msgid slot server).2.log =
        [Access.out (.networkStart (UInt32.ofNat slot)), Access.session slot,
          Access.out (.sendto d.clientAddr
            (pdpActivateResponse transactionId msgid (server.pdpSession slot)).encode)] := by
      unfold startAndReply readSession touchSession
      rw [if_pos hslot]
      rfl
    have h2 : maxSimSlots = 2 := rfl
    rw [hlog]
    simp only [List.forall_mem_cons, Access.InBounds, List.not_mem_nil]
    refine ⟨?_, hslot, trivial, fun _ hf => hf.elim⟩
    rw [UInt32.toNat_ofNat']
    omega
  · have htouched : Access.session slot ∈ (readSession slot server).2.log := by
      refine mem_log_bind.2 (Or.inl ?_)
      rw [touchSession_of_le (not_lt.1 hslot)]
      exact List.mem_singleton_self _
    refine iff_of_false (fun h => hslot (h (Access.session slot) ?_)) hslot
    exact mem_log_bind.2 (Or.inr ⟨⟨⟩, rfl, mem_log_bind.2 (Or.inl htouched)⟩)

theorem fueled_storeAndStart :
    Fueled fun n => storeAndStart n d transactionId msgid slot :=
  (fueled_storeTlv d).bind fun _ => (fueled_storeTlv d).bind fun _ =>
    (fueled_storeTlv d).bind fun _ => (fueled_storeTlv d).bind fun _ => .const _

/-- The four stores and the start, for a given slot. -/
theorem safe_storeAndStart_iff :
    Safe (Access.InBounds d.inbuffLen) (fun n => storeAndStart n d transactionId msgid slot)
        server ↔
      StoreFits d.inbuff d.inbuffLen slot 0x10 1 (StoreFits d.inbuff d.inbuffLen slot 0x11 4
        (StoreFits d.inbuff d.inbuffLen slot 0x12 4 (StoreFits d.inbuff d.inbuffLen slot 0x13 4
          (slot < maxSimSlots)))) :=
  safe_storeTlv_bind_iff d (by decide)
    ((fueled_storeTlv d).bind fun _ => (fueled_storeTlv d).bind fun _ =>
      (fueled_storeTlv d).bind fun _ => .const _) fun _ =>
  safe_storeTlv_bind_iff d (by decide)
    ((fueled_storeTlv d).bind fun _ => (fueled_storeTlv d).bind fun _ => .const _) fun _ =>
  safe_storeTlv_bind_iff d (by decide) ((fueled_storeTlv d).bind fun _ => .const _) fun _ =>
  safe_storeTlv_bind_iff d (by decide) (.const _) fun _ => safe_startAndReply_iff d

/-- The conditions of the stores, gathered for every slot that the first search can give. -/
theorem forall_storeFits_iff (hfits : SearchFits d.inbuff d.inbuffLen 0x12 4) :
    (∀ slot, SlotGiven d slot →
      StoreFits d.inbuff d.inbuffLen slot 0x10 1 (StoreFits d.inbuff d.inbuffLen slot 0x11 4
        (StoreFits d.inbuff d.inbuffLen slot 0x12 4 (StoreFits d.inbuff d.inbuffLen slot 0x13 4
          (slot < maxSimSlots))))) ↔
    (SearchEnds d.inbuff d.inbuffLen 0x12 →
      SearchFits d.inbuff d.inbuffLen 0x10 1 ∧
        ((∃ p, FoundAt d.inbuff d.inbuffLen 0x10 p) → SlotFits d.inbuff d.inbuffLen) ∧
        (SearchEnds d.inbuff d.inbuffLen 0x10 →
          SearchFits d.inbuff d.inbuffLen 0x11 4 ∧
            (SearchEnds d.inbuff d.inbuffLen 0x11 →
              SlotFits d.inbuff d.inbuffLen ∧ SearchFits d.inbuff d.inbuffLen 0x13 4))) := by
  have hends : ∀ {tlvid}, (∃ p, FoundAt d.inbuff d.inbuffLen tlvid p) →
      SearchEnds d.inbuff d.inbuffLen tlvid := fun h => Or.inr (Or.inl h)
  rw [← exists_slotGiven_iff, slotFits_iff]
  unfold StoreFits
  constructor
  · rintro h ⟨slot, hslot⟩
    refine ⟨(h slot hslot).1, fun hfound slot' hslot' => (h slot' hslot').2.1 hfound, fun h10 => ?_⟩
    refine ⟨((h slot hslot).2.2 h10).1, fun h11 => ⟨fun slot' hslot' => ?_, ?_⟩⟩
    · -- a slot from the datagram is used as an index by the third store; the default is one
      obtain ⟨-, hlt, hrest⟩ := ((h slot' hslot').2.2 h10).2.2 h11
      rcases hslot' with ⟨p, hp, hv⟩ | ⟨rfl, -⟩
      · exact hlt ⟨p, hp⟩
      · decide
    · exact ((((h slot hslot).2.2 h10).2.2 h11).2.2
        ((exists_slotGiven_iff d).1 ⟨slot, hslot⟩)).1
  · intro h slot hslot
    obtain ⟨h10, hfound, hrest⟩ := h ⟨slot, hslot⟩
    refine ⟨h10, fun hf => hfound hf slot hslot, fun he10 => ?_⟩
    obtain ⟨h11, hrest⟩ := hrest he10
    have hlt := fun he => (hrest he).1 slot hslot
    -- the third search is the one that gave the slot: it fits and has ended
    exact ⟨h11, fun hf => hlt (hends hf), fun he11 => ⟨hfits, fun _ => hlt he11,
      fun _ => ⟨(hrest he11).2, fun _ => hlt he11, fun _ => hlt he11⟩⟩⟩

/-- **When a PDP-activate request stays within bounds.** -/
theorem safe_pdpActivate_iff :
    Safe (Access.InBounds d.inbuffLen) (fun n => pdpActivate n d transactionId msgid) server ↔
      RequestFits d.inbuff d.inbuffLen := by
  refine (safe_bind_iff (f := fun n => storeAndStart n d transactionId msgid)
    (fueled_readSimSlot d) fun _ => fueled_storeAndStart d).trans ?_
  simp only [safe_readSimSlot_iff, safe_storeAndStart_iff]
  refine and_congr_right fun hfits => ?_
  rw [← forall_storeFits_iff d hfits]
  constructor
  · exact fun h slot hslot => h server slot ((returns_readSimSlot_iff d hfits).2 ⟨rfl, hslot⟩)
  · exact fun h server' slot hslot => h slot ((returns_readSimSlot_iff d hfits).1 hslot).2

end Activate

/-- The other commands touch nothing but the sender. -/
theorem safe_dispatch_iff {transactionId : UInt16} {msgid command : ℕ} :
    Safe (Access.InBounds d.inbuffLen) (fun n => dispatch n d transactionId msgid command)
        server ↔
      (command = imsDcmPdpActivate → RequestFits d.inbuff d.inbuffLen) := by
  unfold dispatch
  by_cases hc : command = imsDcmPdpActivate
  · simp only [if_pos hc, safe_pdpActivate_iff, imp_iff_right hc]
  · refine iff_of_true ?_ fun h => absurd h hc
    simp only [if_neg hc, safe_const_iff]
    split_ifs
    · have hlog : (plainResponse d transactionId msgid server).2.log = [Access.out (.sendto
        d.clientAddr (outgoing 0x02 transactionId msgid [qmiGenericResultInd 0 0]).encode)] := rfl
      rw [hlog]
      simp [Access.InBounds]
    · simp

theorem fueled_dispatch {transactionId : UInt16} {msgid command : ℕ} :
    Fueled fun n => dispatch n d transactionId msgid command :=
  Fueled.ite ((fueled_readSimSlot d).bind fun _ => fueled_storeAndStart d) (.const _)

/-- A read whose value is known, and what follows it. -/
theorem safe_recv_bind_iff {α β : Type} {x : Traced ℕ α} {a : α} {f : ℕ → α → DcmM β}
    (hx : x.res = some a) (hf : ∀ a, Fueled fun n => f n a) :
    Safe (Access.InBounds d.inbuffLen) (fun n => recv x >>= f n) server ↔
      (∀ i ∈ x.log, i < d.inbuffLen) ∧
        Safe (Access.InBounds d.inbuffLen) (fun n => f n a) server := by
  have hlog : (recv x server).2.log = x.log.map Access.read := rfl
  rw [safe_bind_iff (.const _) hf, safe_const_iff, hlog, List.forall_mem_map]
  refine and_congr Iff.rfl ⟨fun h => h server a ⟨0, rfl, hx⟩, ?_⟩
  rintro h s' a' ⟨n, hs, hr⟩
  obtain rfl : server = s' := hs
  obtain rfl : a = a' := Option.some.inj (hx.symm.trans hr)
  exact h

/-- **The handler stays within bounds if and only if the datagram fits.** -/
theorem staysInBounds_iff (server : QRTRServer) : StaysInBounds d server ↔ d.Fits := by
  have hdispatch : ∀ tid msgid command : ℕ,
      Fueled fun n => dispatch n d (UInt16.ofNat tid) msgid command :=
    fun _ _ _ => fueled_dispatch d
  have hread : ∀ {i : ℕ}, (∀ a ∈ (load d.inbuff i 2).log, a < d.inbuffLen) ↔
      i + 2 ≤ d.inbuffLen := by
    intro i
    simp only [mem_log_load]
    exact ⟨fun h => h (i + 1) (by omega), fun h a ha => by omega⟩
  -- the four reads one after the other, then the `switch`
  refine (@safe_recv_bind_iff d (registerClient d.clientAddr server) _ _ _ _ _ rfl fun _ =>
    (Fueled.const _).bind fun msgid => (Fueled.const _).bind fun tid =>
    (Fueled.const _).bind fun command => hdispatch tid msgid command).trans ?_
  refine (and_congr_right fun _ => (safe_recv_bind_iff d rfl fun msgid =>
    (Fueled.const _).bind fun tid => (Fueled.const _).bind fun command =>
    hdispatch tid msgid command).trans <|
    and_congr_right fun _ => (safe_recv_bind_iff d rfl fun tid =>
    (Fueled.const _).bind fun command => hdispatch tid _ command).trans <|
    and_congr_right fun _ => (safe_recv_bind_iff d rfl fun command =>
    hdispatch _ _ command).trans <|
    and_congr_right fun _ => safe_dispatch_iff d).trans ?_
  constructor
  · rintro ⟨-, hmsgid, -, -, hfits⟩
    exact ⟨hread.1 hmsgid, hfits⟩
  · rintro ⟨h5, hfits⟩
    exact ⟨by simp, hread.2 h5, hread.2 (by omega), hread.2 h5, hfits⟩

end Datagram

/-- A PDP-activate request for a third slot. -/
def thirdSlotRequest : Datagram := activateDatagram ⟨42, 1, 1⟩ rfl 1 1 2 1

/-- It is stored behind the end of `PDP_Session`. -/
theorem not_staysInBounds : ¬ StaysInBounds thirdSlotRequest initializeQmiServer := by
  intro h
  have hmem : Access.session 2 ∈
      (handleIncomingQrtrRequest 5 thirdSlotRequest initializeQmiServer).2.log := by
    decide +kernel
  exact absurd (h 5 _ hmem) (by simp [Access.InBounds, maxSimSlots])

end Imsd