import Imsd.DcmIndications
import Imsd.WdsSlot

/-!
# The text of the address

`packet_session.ip_address` is a buffer of `128` bytes which keeps its contents from session to
session.  `wds_get_current_settings_ready` copies the text of an address into it, without the NUL
behind it; a notification reads it up to the first NUL.  What is read is the text copied last and,
if a longer one was there before, the rest of that one.

`address_text_iff`: the text is that of the address stored last (`ShowsAddress`) exactly when no
address stored before it, in whatever session, has a longer text.  The invariant is `Overwritten`:
the bytes before the first NUL are as many as the longest text has.
-/

namespace Imsd

open Bytes EventSystem

/-! ### Texts copied over each other -/

/-- A buffer of `n` bytes, zeroed at first, after these texts have been copied to its start. -/
def Overwritten (n : ℕ) (texts : List (List UInt8)) (buf : List UInt8) : Prop :=
  ∃ written, buf = written ++ List.replicate (n - written.length) 0 ∧ (∀ b ∈ written, b ≠ 0) ∧
    ∀ k, written.length ≤ k ↔ ∀ t ∈ texts, t.length ≤ k

section Overwritten

variable {n : ℕ} {texts : List (List UInt8)} {buf src : List UInt8}

theorem overwritten_nil (n : ℕ) : Overwritten n [] (List.replicate n 0) :=
  ⟨[], rfl, by simp, by simp⟩

/-- One more text, and what can be read then. -/
theorem Overwritten.memcpy (h : Overwritten n texts buf) (hsrc : ∀ b ∈ src, b ≠ 0) :
    Overwritten n (texts ++ [src]) (memcpy buf src) ∧
      (cString (memcpy buf src) = src ↔ ∀ t ∈ texts, t.length ≤ src.length) := by
  obtain ⟨written, rfl, hne, hlongest⟩ := h
  -- the new text, and what the longest one had behind it
  have hne' : ∀ b ∈ src ++ written.drop src.length, b ≠ 0 := fun b hb =>
    (List.mem_append.1 hb).elim (hsrc b) fun hb => hne b (List.mem_of_mem_drop hb)
  have hlen : (src ++ written.drop src.length).length =
      src.length + (written.length - src.length) := by
    rw [List.length_append, List.length_drop]
  have hbuf : Imsd.memcpy (written ++ List.replicate (n - written.length) 0) src =
      (src ++ written.drop src.length) ++
        List.replicate (n - (src ++ written.drop src.length).length) 0 := by
    rw [Imsd.memcpy, List.drop_append, List.drop_replicate, List.append_assoc, hlen]
    congr 3
    omega
  refine ⟨⟨_, hbuf, hne', fun k => ?_⟩, ?_⟩
  · rw [List.forall_mem_append, List.forall_mem_singleton, ← hlongest, hlen]
    omega
  · rw [hbuf, cString_append_replicate hne', List.append_right_eq_self,
      List.drop_eq_nil_iff, hlongest]

end Overwritten

/-! ### Addresses as texts -/

theorem digit_of_mem_decimal {n : ℕ} {b : UInt8} (h : b ∈ decimal n) :
    48 ≤ b.toNat ∧ b.toNat ≤ 57 := by
  obtain ⟨c, hc, rfl⟩ := List.mem_map.1 h
  have hdigit : c.isDigit = true := Nat.isDigit_of_mem_toDigits (by decide) (by decide) hc
  have h48 : 48 ≤ c.toNat ∧ c.toNat ≤ 57 := by
    simpa [Char.isDigit, UInt32.le_iff_toNat_le] using hdigit
  rw [UInt8.toNat_ofNat', Nat.mod_eq_of_lt (by omega)]
  exact h48

theorem ne_zero_of_mem_decimal {n : ℕ} {b : UInt8} (h : b ∈ decimal n) : b ≠ 0 := by
  rintro rfl
  have h48 := (digit_of_mem_decimal h).1
  rw [UInt8.toNat_zero] at h48
  omega

theorem length_decimal_le {n : ℕ} (h : n < 256) : (decimal n).length ≤ 3 := by
  rw [decimal, List.length_map]
  exact Nat.toDigits_length 10 n 3 (by decide) (by omega)

theorem ne_zero_of_mem_ntop {address : UInt32} {b : UInt8} (h : b ∈ qmiInet4Ntop address) :
    b ≠ 0 := by
  simp only [qmiInet4Ntop, List.mem_append, List.mem_cons] at h
  have hdot : (46 : UInt8) ≠ 0 := by decide
  rcases h with ((h | rfl | h) | rfl | h) | rfl | h
  · exact ne_zero_of_mem_decimal h
  · exact hdot
  · exact ne_zero_of_mem_decimal h
  · exact hdot
  · exact ne_zero_of_mem_decimal h
  · exact hdot
  · exact ne_zero_of_mem_decimal h

/-- A text and its NUL fit into `INET_ADDRSTRLEN` bytes. -/
theorem length_ntop_lt (address : UInt32) : (qmiInet4Ntop address).length < 16 := by
  have h := address.toNat_lt
  have h₁ := @length_decimal_le (address.toNat / 2 ^ 24) (by omega)
  have h₂ := @length_decimal_le (address.toNat / 2 ^ 16 % 256) (by omega)
  have h₃ := @length_decimal_le (address.toNat / 2 ^ 8 % 256) (by omega)
  have h₄ := @length_decimal_le (address.toNat % 256) (by omega)
  simp only [qmiInet4Ntop, List.length_append, List.length_cons]
  omega

/-! ### What the callbacks have stored -/

/-- The addresses that these events store, in order. -/
def storedAddresses (tr : List Label) : List UInt32 :=
  tr.filterMap fun l => l.event.answer?.bind Answer.address?

/-- The slot before its first activation, with a zeroed buffer. -/
def Zeroed (s : Slot) : Prop := s.Idle ∧ s.client.ipAddress = List.replicate 128 0

/-- The buffer after these addresses. -/
def addressBuffer (addresses : List UInt32) : List UInt8 :=
  addresses.foldl (fun buf addr => memcpy buf (qmiInet4Ntop addr)) (List.replicate 128 0)

theorem addressBuffer_snoc (addresses : List UInt32) (addr : UInt32) :
    addressBuffer (addresses ++ [addr]) = memcpy (addressBuffer addresses) (qmiInet4Ntop addr) := by
  rw [addressBuffer, List.foldl_append]
  rfl

theorem overwritten_addressBuffer (addresses : List UInt32) :
    Overwritten 128 (addresses.map qmiInet4Ntop) (addressBuffer addresses) := by
  induction addresses using List.reverseRecOn with
  | nil => exact overwritten_nil 128
  | append_singleton addresses addr ih =>
    rw [addressBuffer_snoc, List.map_append]
    exact (ih.memcpy fun b => ne_zero_of_mem_ntop).1

/-- What a callback does to the buffer. -/
theorem ready_addressBuffer (client : WDSClient) (a : Answer) :
    (ready client a).client.ipAddress =
      (a.address?.toList).foldl (fun buf addr => memcpy buf (qmiInet4Ntop addr))
        client.ipAddress := by
  cases a with
  | getProfileList reply =>
    obtain ⟨step, list, -, h⟩ := getProfileList_client client reply
    rw [h]
    rfl
  | getProfileSettings reply =>
    obtain ⟨step, profileId, list, -, h⟩ := getProfileSettings_client client reply
    rw [h]
    rfl
  | createProfile reply => rcases reply with _ | _ | (_ | _) <;> rfl
  | modifyProfile reply => rfl
  | addLink link => rcases link with _ | _ <;> rfl
  | bindMuxDataPort reply => rcases reply with _ | _ | _ <;> rfl
  | startNetwork reply => rcases reply with _ | (_ | _) | (_ | _) <;> rfl
  | getCurrentSettings output =>
    rw [ready_getCurrentSettings, Answer.address?]
    cases output.bind CurrentSettings.address? <;> rfl

/-- **What one event does to the buffer.** -/
theorem step_addressBuffer {s s' : Slot} {l : Label} (hs : s.Step l s') :
    s'.client.ipAddress =
      (storedAddresses [l]).foldl (fun buf addr => memcpy buf (qmiInet4Ntop addr))
        s.client.ipAddress := by
  obtain ⟨event, session, notified⟩ := l
  cases event with
  | activate simSlot =>
    obtain ⟨-, rfl, -, -⟩ := Slot.step_activate_iff.1 hs
    rfl
  | tick =>
    obtain ⟨-, -, rfl, -, -⟩ := Slot.step_tick_iff.1 hs
    obtain ⟨step, done, endpointType, endpointIfnum, hclient⟩ := tick_client s.client
    show (getWdsReadyToConnect s.client).client.ipAddress = _
    rw [hclient]
    rfl
  | complete p a =>
    obtain ⟨-, -, rfl, -, -⟩ := Slot.step_complete_iff.1 hs
    have hstored : storedAddresses [⟨.complete p a, session, notified⟩] =
        a.address?.toList := by
      show List.filterMap _ _ = _
      cases h : a.address? <;> simp [SlotEvent.answer?, h]
    rw [hstored]
    exact ready_addressBuffer s.client a

/-- **What a whole run leaves in it.** -/
theorem addressBuffer_of_run {tr : List Label} {s : Slot}
    (h : Run Zeroed Slot.Step unguarded tr s) :
    s.client.ipAddress = addressBuffer (storedAddresses tr) := by
  refine h.inv (fun tr s => s.client.ipAddress = addressBuffer (storedAddresses tr))
    (fun s hs => hs.2) fun tr s l s' _ ih _ hs => ?_
  have hsplit : storedAddresses (tr ++ [l]) = storedAddresses tr ++ storedAddresses [l] :=
    List.filterMap_append
  rw [step_addressBuffer hs, ih, hsplit, addressBuffer, addressBuffer, List.foldl_append]

/-- The buffer holds the text of the address, and the next notification puts it into TLV `0x11`
of the indication. -/
structure ShowsAddress (s : Slot) (addr : UInt32) : Prop where
  text : cString s.client.ipAddress = qmiInet4Ntop addr
  indicated : ∀ l s', s.Step l s' → ∀ arg ∈ l.notified,
    (ipaddrBlock arg.2).id = 0x11 ∧ (ipaddrBlock arg.2).value =
      toLE 4 0 ++ ([UInt8.ofNat (qmiInet4Ntop addr).length] ++ qmiInet4Ntop addr)

/-- A notification hands over the text in the buffer. -/
theorem notified_text {s s' : Slot} {l : Label} (hs : s.Step l s') {arg : UInt32 × List UInt8}
    (h : arg ∈ l.notified) : arg.2 = cString s.client.ipAddress := by
  obtain ⟨event, session, notified⟩ := l
  cases event with
  | activate simSlot =>
    obtain ⟨-, -, -, rfl⟩ := Slot.step_activate_iff.1 hs
    cases h
  | tick =>
    obtain ⟨-, -, -, -, rfl⟩ := Slot.step_tick_iff.1 hs
    rw [tick_notified] at h
    split_ifs at h
    · cases h
      rfl
    · cases h
  | complete p a =>
    obtain ⟨-, -, -, -, rfl⟩ := Slot.step_complete_iff.1 hs
    cases h

theorem showsAddress_iff {s : Slot} {addr : UInt32} :
    ShowsAddress s addr ↔ cString s.client.ipAddress = qmiInet4Ntop addr := by
  refine ⟨ShowsAddress.text, fun h => ⟨h, fun l s' hs arg harg => ⟨rfl, ?_⟩⟩⟩
  have hlen := length_ntop_lt addr
  rw [notified_text hs harg, h, value_ipaddrBlock (by omega)]

/-- **The text is that of the latest address exactly when no earlier one is longer.** -/
theorem address_text_iff {tr : List Label} {s : Slot} {earlier : List UInt32} {addr : UInt32}
    (hr : Run Zeroed Slot.Step unguarded tr s) (hlast : storedAddresses tr = earlier ++ [addr]) :
    ShowsAddress s addr ↔
      ∀ a ∈ earlier, (qmiInet4Ntop a).length ≤ (qmiInet4Ntop addr).length := by
  rw [showsAddress_iff, addressBuffer_of_run hr, hlast, addressBuffer_snoc,
    ((overwritten_addressBuffer earlier).memcpy fun b => ne_zero_of_mem_ntop).2,
    List.forall_mem_map]

/-! ### Two runs -/

/-- The slot before its first activation, with zeros for its memory. -/
def zeroedSlot : Slot :=
  { freshSlot with client := { freshSlot.client with ipAddress := List.replicate 128 0 } }

/-- The `n`-th session of a slot, in which it is given the address, up to its notification. -/
def sessionWith (n : ℕ) (addr : UInt32) : List SlotEvent :=
  [.activate 0, .tick,
    .complete ⟨n, .getProfileList 0⟩ (.getProfileList (.ok (some [⟨0, 3⟩]))),
    .complete ⟨n, .getProfileSettings 0 3⟩ (.getProfileSettings (.ok (some 2))),
    .tick, .tick, .tick,
    .complete ⟨n, .addLink⟩ (.addLink (some ("qmapmux0.0", 1))),
    .tick, .tick, .tick,
    .complete ⟨n, .bindMuxDataPort 4 1 1⟩ (.bindMuxDataPort (.ok ⟨⟩)),
    .tick, .tick,
    .complete ⟨n, .startNetwork 3⟩ (.startNetwork (.ok (some 7))),
    .tick, .tick,
    .complete ⟨n, .getCurrentSettings⟩ (currentSettings addr),
    .tick, .tick]

/-- Two sessions, one after the other. -/
def twoSessions (addr addr' : UInt32) : Option (List Label × Slot) :=
  simulate Slot.step (fun _ _ _ => true) [] zeroedSlot (sessionWith 1 addr ++ sessionWith 2 addr')

theorem run_of_twoSessions {addr addr' : UInt32} {r : List Label × Slot}
    (h : twoSessions addr addr' = some r) : Run Zeroed Slot.Step unguarded r.1 r.2 := by
  have hstart : Run Zeroed Slot.Step unguarded [] zeroedSlot := .start ⟨⟨rfl, rfl, rfl, rfl⟩, rfl⟩
  exact hstart.simulate h fun _ _ _ _ _ hs _ => ⟨trivial, Slot.step_of_step_eq hs⟩

/-- `1.1.1.1`, and then `10.10.10.10`. -/
theorem address_text_longer :
    ∃ tr s, storedAddresses tr = [0x01010101, 0x0A0A0A0A] ∧ ShowsAddress s 0x0A0A0A0A := by
  have h : (twoSessions 0x01010101 0x0A0A0A0A).any fun r =>
      decide (storedAddresses r.1 = [0x01010101, 0x0A0A0A0A]) := by
    decide +kernel
  obtain ⟨r, hr, h⟩ := (Option.any_eq_true _ _).1 h
  have hlast : storedAddresses r.1 = [0x01010101] ++ [0x0A0A0A0A] := of_decide_eq_true h
  have hlonger : ∀ a ∈ [0x01010101], (qmiInet4Ntop a).length ≤ (qmiInet4Ntop 0x0A0A0A0A).length :=
    List.forall_mem_singleton.2 (by decide +kernel)
  exact ⟨r.1, r.2, hlast, (address_text_iff (run_of_twoSessions hr) hlast).2 hlonger⟩

/-- `10.10.10.10`, and then `1.1.1.1`: the text is `1.1.1.10.10`. -/
theorem not_shows_address :
    ¬ ∀ tr s earlier addr, Run Zeroed Slot.Step unguarded tr s →
      storedAddresses tr = earlier ++ [addr] → ShowsAddress s addr := by
  intro hall
  have h : (twoSessions 0x0A0A0A0A 0x01010101).any fun r =>
      decide (storedAddresses r.1 = [0x0A0A0A0A, 0x01010101]) &&
        decide (cString r.2.client.ipAddress = [49, 46, 49, 46, 49, 46, 49, 48, 46, 49, 48]) := by
    decide +kernel
  obtain ⟨r, hr, h⟩ := (Option.any_eq_true _ _).1 h
  obtain ⟨hlast, htext⟩ := Bool.and_eq_true_iff.1 h
  have hshows := (hall r.1 r.2 [0x0A0A0A0A] 0x01010101 (run_of_twoSessions hr)
    (of_decide_eq_true hlast)).text
  rw [of_decide_eq_true htext] at hshows
  exact absurd hshows (by decide +kernel)

end Imsd
