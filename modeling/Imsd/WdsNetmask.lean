import Imsd.Lib.Bits
import Imsd.WdsAddress

/-!
# From a netmask to a prefix

`wds_get_current_settings_ready` prints the netmask as a text, reads the text back with
`inet_pton`, and counts the ones of what it has got, a number with the bytes of the address the
other way round.  `netmask_to_cidr` says that nothing is lost on the way: the prefix is the number
of ones of the netmask, for every netmask, and its length for one whose ones come first.

`inetPton_ntop` is the round trip of addresses through their texts.
-/

namespace Imsd

open Bits Bytes

/-! ### Reading an address -/

/-- A digit of an octet: no octet has a leading zero, or is more than `255`. -/
def octetDigit (octet : Option ℕ) (ch : UInt8) : Option (Option ℕ) :=
  let digit := ch.toNat - 48
  match octet with
  | none => some (some digit)
  | some 0 => none
  | some n => if n * 10 + digit ≤ 255 then some (some (n * 10 + digit)) else none

/-- What `inet_pton` has read: octets that are complete, and the one it is at, if it has a digit. -/
structure PtonState where
  octets : List UInt8
  octet : Option ℕ

/-- One character. -/
def ptonStep (s : PtonState) (ch : UInt8) : Option PtonState :=
  if 48 ≤ ch.toNat ∧ ch.toNat ≤ 57 then
    (octetDigit s.octet ch).map fun octet => ⟨s.octets, octet⟩
  else if ch = 46 ∧ s.octets.length < 3 then
    s.octet.map fun n => ⟨s.octets ++ [UInt8.ofNat n], none⟩
  else none

/-- `inet_pton` for `AF_INET`: the four bytes of the address, if the text is one. -/
def inetPton (src : List UInt8) : Option (List UInt8) :=
  (src.foldlM ptonStep ⟨[], none⟩).bind fun s =>
    if s.octets.length = 3 then s.octet.map fun n => s.octets ++ [UInt8.ofNat n] else none

/-- `mm_count_bits_set`. -/
def mmCountBitsSet (number : ℕ) : ℕ :=
  if number = 0 then 0 else mmCountBitsSet (number &&& (number - 1)) + 1
termination_by number
decreasing_by exact lt_of_le_of_lt Nat.and_le_right (by omega)

/-- `mm_netmask_to_cidr`: `num` stays zero if the text is no address. -/
def mmNetmaskToCidr (netmask : List UInt8) : ℕ :=
  mmCountBitsSet (ofLE ((inetPton netmask).getD [0, 0, 0, 0]))

/-! ### Round trip -/

theorem digitChar_toNat {d : ℕ} (h : d < 10) : (UInt8.ofNat d.digitChar.toNat).toNat - 48 = d := by
  interval_cases d <;> rfl

theorem octetDigit_none (ch : UInt8) : octetDigit none ch = some (some (ch.toNat - 48)) :=
  rfl

theorem octetDigit_succ {m : ℕ} {ch : UInt8} (h : (m + 1) * 10 + (ch.toNat - 48) ≤ 255) :
    octetDigit (some (m + 1)) ch = some (some ((m + 1) * 10 + (ch.toNat - 48))) :=
  if_pos h

/-- The digits of an octet are read back. -/
theorem octetDigit_decimal (n : ℕ) (h : n < 256) :
    (decimal n).foldlM octetDigit none = some (some n) := by
  induction n using Nat.strongRecOn with
  | ind n ih =>
    by_cases hbase : n < 10
    · have hdecimal : decimal n = [UInt8.ofNat n.digitChar.toNat] := by
        rw [decimal, Nat.toDigits_of_lt_base hbase, List.map_singleton]
      rw [hdecimal, List.foldlM_cons, octetDigit_none, digitChar_toNat hbase]
      rfl
    · have hdecimal : decimal n = decimal (n / 10) ++ [UInt8.ofNat (n % 10).digitChar.toNat] := by
        rw [decimal, Nat.toDigits_of_base_le (by decide) (not_lt.1 hbase), List.map_append]
        rfl
      have hlast := digitChar_toNat (Nat.mod_lt n (by decide : 0 < 10))
      obtain ⟨m, hm⟩ : ∃ m, n / 10 = m + 1 := ⟨n / 10 - 1, by omega⟩
      have hn : (m + 1) * 10 + n % 10 = n := by omega
      rw [hdecimal, List.foldlM_append, ih (n / 10) (by omega) (by omega), hm]
      simp only [Option.bind_eq_bind, Option.bind_some, List.foldlM_cons, List.foldlM_nil]
      rw [octetDigit_succ (by omega), hlast, hn]
      rfl

/-- Digits leave the octets that are complete alone. -/
theorem foldlM_digits {ds : List UInt8} (h : ∀ b ∈ ds, 48 ≤ b.toNat ∧ b.toNat ≤ 57)
    (octets : List UInt8) (octet : Option ℕ) :
    ds.foldlM ptonStep ⟨octets, octet⟩ =
      (ds.foldlM octetDigit octet).map fun octet => ⟨octets, octet⟩ := by
  induction ds generalizing octet with
  | nil => rfl
  | cons d ds ih =>
    have hd : ptonStep ⟨octets, octet⟩ d =
        (octetDigit octet d).map fun octet => ⟨octets, octet⟩ := if_pos (h d List.mem_cons_self)
    rw [List.foldlM_cons, List.foldlM_cons, hd]
    cases octetDigit octet d with
    | none => rfl
    | some octet' => exact ih (fun b hb => h b (List.mem_cons_of_mem d hb)) octet'

/-- An octet is read. -/
theorem foldlM_decimal {n : ℕ} (hn : n < 256) (octets : List UInt8) :
    (decimal n).foldlM ptonStep ⟨octets, none⟩ = some ⟨octets, some n⟩ := by
  rw [foldlM_digits fun b hb => digit_of_mem_decimal hb, octetDigit_decimal n hn]
  rfl

/-- An octet and the dot behind it are read. -/
theorem foldlM_decimal_dot {n : ℕ} (hn : n < 256) {octets : List UInt8} (h : octets.length < 3)
    (rest : List UInt8) :
    (decimal n ++ 46 :: rest).foldlM ptonStep ⟨octets, none⟩ =
      rest.foldlM ptonStep ⟨octets ++ [UInt8.ofNat n], none⟩ := by
  have hdot : ptonStep ⟨octets, some n⟩ 46 = some ⟨octets ++ [UInt8.ofNat n], none⟩ :=
    (if_neg (by decide)).trans (if_pos ⟨rfl, h⟩)
  rw [List.foldlM_append, foldlM_decimal hn]
  show (46 :: rest).foldlM ptonStep ⟨octets, some n⟩ = _
  rw [List.foldlM_cons, hdot]
  rfl

/-- **An address is read back from its text**: its bytes, the highest first. -/
theorem inetPton_ntop (address : UInt32) :
    inetPton (qmiInet4Ntop address) = some (toLE 4 address.toNat).reverse := by
  have h := address.toNat_lt
  have hbytes : (toLE 4 address.toNat).reverse =
      [UInt8.ofNat (address.toNat / 2 ^ 24), UInt8.ofNat (address.toNat / 2 ^ 16 % 256),
        UInt8.ofNat (address.toNat / 2 ^ 8 % 256), UInt8.ofNat (address.toNat % 256)] := by
    have hmod : ∀ n, UInt8.ofNat (n % 256) = UInt8.ofNat n := by
      intro n
      apply UInt8.toNat_inj.1
      rw [UInt8.toNat_ofNat', UInt8.toNat_ofNat', Nat.mod_mod]
    simp only [toLE, Nat.div_div_eq_div_mul, hmod]
    rfl
  unfold inetPton qmiInet4Ntop
  simp only [List.append_assoc, List.cons_append]
  rw [foldlM_decimal_dot (by omega) (by simp), foldlM_decimal_dot (by omega) (by simp),
    foldlM_decimal_dot (by omega) (by simp), foldlM_decimal (by omega), hbytes]
  rfl

/-! ### The prefix -/

theorem mmCountBitsSet_eq (number : ℕ) : mmCountBitsSet number = bitCount number := by
  fun_induction mmCountBitsSet number with
  | case1 => exact bitCount_zero.symm
  | case2 number h ih => rw [ih, bitCount_and_pred h]

/-- **The prefix is the number of ones of the netmask**, and its length for a netmask of ones
followed by zeros. -/
theorem netmask_to_cidr (addr : UInt32) :
    inetPton (qmiInet4Ntop addr) = some (toLE 4 addr.toNat).reverse ∧
      mmNetmaskToCidr (qmiInet4Ntop addr) = bitCount addr.toNat ∧
      ∀ n, addr.toNat = 2 ^ (32 - n) * (2 ^ n - 1) →
        mmNetmaskToCidr (qmiInet4Ntop addr) = n := by
  have hcidr : mmNetmaskToCidr (qmiInet4Ntop addr) = bitCount addr.toNat := by
    rw [mmNetmaskToCidr, inetPton_ntop, Option.getD_some, mmCountBitsSet_eq,
      bitCount_ofLE_perm (List.reverse_perm _), ofLE_toLE_of_lt addr.toNat_lt]
  refine ⟨inetPton_ntop addr, hcidr, fun n hn => ?_⟩
  rw [hcidr, hn, bitCount_two_pow_mul, bitCount_two_pow_sub_one]

/-- `255.255.255.0`. -/
theorem netmask_to_cidr_24 : mmNetmaskToCidr (qmiInet4Ntop 0xFFFFFF00) = 24 :=
  (netmask_to_cidr 0xFFFFFF00).2.2 24 (by decide)

end Imsd
