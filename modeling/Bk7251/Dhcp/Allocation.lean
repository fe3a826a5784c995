import Bk7251.Dhcp.AckSound
import Bk7251.Lib.MaskedCounter
import Bk7251.Lib.Walk

/-!
# When an address is found

`next_yiaddr` counts in the host bits of the cursor until an address is valid. The count carries through the
set bits of the network and goes around in one aligned block of addresses, which is the whole subnet for a mask
of leading ones.
-/
namespace Bk7251.Dhcp

open Lib

section

variable (d : DhcpServerData)

def networkBits : Nat := (ntohl (d.myIp &&& d.netmask)).toNat

def hostBits : Nat := (ntohl (~~~d.netmask)).toNat

/-- The size of the aligned block that the search goes around in. -/
def blockSize : Nat := Nat.gcd (2 ^ 32) ((networkBits d ||| hostBits d) + 1)

/-- The search comes to the address: it is in the block in which it starts. -/
def InBlock (ip : UInt32) : Prop :=
  (ntohl ip).toNat / blockSize d = (nextInSubnet d d.currentIp).toNat / blockSize d

/-- The call returns, and with a usable free address for a new client if the subnet has one. -/
def Allocates (mac : List UInt8) : Prop :=
  ∃ d' ip, nextYiaddr d mac = some (d', ip) ∧
    (acLookupMac d mac = clientIpNotFound → (∃ z, Usable d z ∧ Free d z) → Usable d ip ∧ Free d ip)

/-! ### The cursor as a counter -/

theorem toNat_nextInSubnet (currentIp : UInt32) :
    (nextInSubnet d currentIp).toNat = maskedSucc (networkBits d) (hostBits d) currentIp.toNat := by
  have one : (1 : UInt32).toNat = 1 := rfl
  rw [nextInSubnet, UInt32.toNat_or, UInt32.toNat_and, UInt32.toNat_add, one, maskedSucc, networkBits, hostBits]
  congr 1
  -- what the sum loses in the wrap is no host bit
  apply Nat.eq_of_testBit_eq
  intro i
  rw [Nat.testBit_and, Nat.testBit_and, Nat.testBit_mod_two_pow]
  by_cases inside : i < 32
  · rw [decide_eq_true inside, Bool.true_and]
  · have bound : (ntohl (~~~d.netmask)).toNat < 2 ^ i :=
      Nat.lt_of_lt_of_le (UInt32.toNat_lt _) (Nat.pow_le_pow_right Nat.two_pos (Nat.not_lt.mp inside))
    rw [Nat.testBit_lt_two_pow bound, Bool.and_false, Bool.and_false]

theorem masked_nextInSubnet (currentIp : UInt32) :
    Masked (networkBits d) (hostBits d) (nextInSubnet d currentIp).toNat := by
  rw [toNat_nextInSubnet]
  exact masked_maskedSucc _ _ _

theorem toNat_iterate (currentIp : UInt32) (k : Nat) :
    ((nextInSubnet d)^[k] currentIp).toNat = (maskedSucc (networkBits d) (hostBits d))^[k] currentIp.toNat := by
  induction k generalizing currentIp with
  | zero => rfl
  | succ k ih => rw [Function.iterate_succ_apply, Function.iterate_succ_apply, ih, toNat_nextInSubnet]

theorem exists_block : ∃ t, blockSize d = 2 ^ t ∧ Stops (networkBits d) (hostBits d) t :=
  exists_stops (UInt32.toNat_lt _) (UInt32.toNat_lt _)

variable {d}

/-- The addresses of the subnet are values of the counter. -/
theorem masked_of_inSubnet {ip : UInt32} (subnet : inSubnet d ip) :
    Masked (networkBits d) (hostBits d) (ntohl ip).toNat := by
  have ones : (ntohl d.netmask).toNat ||| hostBits d = 2 ^ 32 - 1 := by
    rw [hostBits, ← UInt32.toNat_or, ntohl, ntohl, ← swap32_or]
    have all : d.netmask ||| ~~~d.netmask = 0xFFFFFFFF := UInt32.or_not_self
    rw [all]
    rfl
  have network : networkBits d = (ntohl ip).toNat &&& (ntohl d.netmask).toNat := by
    rw [networkBits, ← subnet, ntohl, swap32_and, UInt32.toNat_and]
    rfl
  constructor
  · intro i set
    rw [network, Nat.testBit_and, Bool.and_eq_true] at set
    exact set.1
  · intro i set
    have inside : i < 32 := by
      by_contra above
      have bound : (ntohl ip).toNat < 2 ^ i :=
        Nat.lt_of_lt_of_le (UInt32.toNat_lt _) (Nat.pow_le_pow_right Nat.two_pos (Nat.not_lt.mp above))
      rw [Nat.testBit_lt_two_pow bound] at set
      cases set
    -- a bit that is not in the netmask is a host bit
    have either := congrArg (Nat.testBit · i) ones
    simp only [Nat.testBit_or, Nat.testBit_two_pow_sub_one, decide_eq_true inside, Bool.or_eq_true] at either
    rw [network, Nat.testBit_and, set, Bool.true_and]
    exact either

/-! ### The search as a walk -/

/-- The next candidate, as long as the search goes on. -/
def nextCandidate (d : DhcpServerData) (currentIp : UInt32) : Option UInt32 :=
  if acValidIp d currentIp then none else some (nextInSubnet d currentIp)

theorem seekValidIp_eq_walk (fuel : Nat) (currentIp : UInt32) :
    seekValidIp d fuel currentIp = walk (nextCandidate d) fuel currentIp := by
  induction fuel generalizing currentIp with
  | zero => rfl
  | succ fuel ih =>
    rw [seekValidIp, walk, nextCandidate]
    by_cases valid : acValidIp d currentIp
    · rw [if_pos valid, if_pos valid]
    · rw [if_neg valid, if_neg valid]
      exact ih _

theorem walk_of_iterate (k : Nat) (currentIp : UInt32) (valid : acValidIp d ((nextInSubnet d)^[k] currentIp)) :
    (walk (nextCandidate d) (k + 1) currentIp).isSome := by
  induction k generalizing currentIp with
  | zero =>
    have here : acValidIp d currentIp := valid
    rw [walk, nextCandidate, if_pos here]
    rfl
  | succ k ih =>
    rw [walk, nextCandidate]
    by_cases here : acValidIp d currentIp
    · rw [if_pos here]
      rfl
    · rw [if_neg here]
      exact ih _ valid

/-- The candidates below `n` that the search does not stop at. -/
def invalidBelow (d : DhcpServerData) (n : Nat) : Finset Nat :=
  (Finset.range n).filter fun i => ¬acValidIp d (UInt32.ofNat i)

def invalidIps (d : DhcpServerData) : Finset UInt32 := (invalidBelow d seekFuel).image UInt32.ofNat

theorem card_invalidBelow {n : Nat} {ip : UInt32} (valid : acValidIp d ip) (below : ip.toNat < n) :
    (invalidBelow d n).card < n := by
  calc (invalidBelow d n).card < (Finset.range n).card := by
        apply Finset.card_lt_card
        apply Finset.filter_ssubset.mpr
        refine ⟨ip.toNat, Finset.mem_range.mpr below, ?_⟩
        rw [UInt32.ofNat_toNat]
        exact not_not.mpr valid
    _ = n := Finset.card_range n

theorem card_invalidIps {ip : UInt32} (valid : acValidIp d ip) : (invalidIps d).card < seekFuel :=
  Nat.lt_of_le_of_lt Finset.card_image_le (card_invalidBelow valid ip.toNat_lt)

theorem mem_invalidIps {ip : UInt32} (invalid : ¬acValidIp d ip) : ip ∈ invalidIps d := by
  have below : ip.toNat < seekFuel := ip.toNat_lt
  refine Finset.mem_image.mpr ⟨ip.toNat, Finset.mem_filter.mpr ⟨Finset.mem_range.mpr below, ?_⟩, ?_⟩
  · rwa [UInt32.ofNat_toNat]
  · exact UInt32.ofNat_toNat

/-- A search that comes to a valid address ends in time. -/
theorem seekValidIp_isSome {k : Nat} {currentIp : UInt32} (valid : acValidIp d ((nextInSubnet d)^[k] currentIp)) :
    (seekValidIp d seekFuel currentIp).isSome := by
  obtain ⟨found, ends⟩ := Option.isSome_iff_exists.mp (walk_of_iterate k currentIp valid)
  rw [seekValidIp_eq_walk]
  apply walk_isSome_of_acyclic (invalidIps d)
  · intro ip _ more
    -- each candidate that is passed over is one of the invalid ones
    apply mem_invalidIps
    intro stops
    rw [nextCandidate, if_pos stops] at more
    cases more
  · exact acyclic_of_walk ends
  · exact card_invalidIps valid

/-- It ends in the block in which it began. -/
theorem seekValidIp_together {t fuel : Nat} (stops : Stops (networkBits d) (hostBits d) t)
    {currentIp found : UInt32} (masked : Masked (networkBits d) (hostBits d) currentIp.toNat)
    (seek : seekValidIp d fuel currentIp = some found) : Together t currentIp.toNat found.toNat := by
  induction fuel generalizing currentIp with
  | zero => cases seek
  | succ fuel ih =>
    rw [seekValidIp] at seek
    split at seek
    next =>
      obtain rfl := Option.some.inj seek
      rfl
    next =>
      have step := masked.together stops
      rw [← toNat_nextInSubnet] at step
      exact (ih (masked_nextInSubnet d currentIp) seek).trans step

/-- With a mask of leading ones the block is the subnet. -/
theorem inBlock_of_leading_ones {k : Nat} (ones : hostBits d = 2 ^ k - 1) {ip : UInt32}
    (subnet : inSubnet d ip) : InBlock d ip := by
  obtain ⟨t, size, stops⟩ := exists_block d
  have start := masked_nextInSubnet d d.currentIp
  have there := masked_of_inSubnet subnet
  rw [ones] at stops start there
  rw [InBlock, size]
  exact together_of_low start there stops

theorem seekValidIp_spec_start {fuel : Nat} {found : UInt32}
    (seek : seekValidIp d fuel (nextInSubnet d d.currentIp) = some found) :
    Usable d (htonl found) ∧ Free d (htonl found) := by
  obtain ⟨subnet, valid⟩ := seekValidIp_spec _ _ _ (inSubnet_nextInSubnet _) seek
  have same : ntohl (htonl found) = found := swap32_swap32 found
  exact usable_of_valid subnet (by rwa [same])

theorem seekValidIp_found_iff :
    (seekValidIp d seekFuel (nextInSubnet d d.currentIp)).isSome ↔
      ∃ ip, Usable d ip ∧ Free d ip ∧ InBlock d ip := by
  obtain ⟨t, size, stops⟩ := exists_block d
  have start := masked_nextInSubnet d d.currentIp
  constructor
  · intro ends
    obtain ⟨found, seek⟩ := Option.isSome_iff_exists.mp ends
    obtain ⟨usable, free⟩ := seekValidIp_spec_start seek
    refine ⟨htonl found, usable, free, ?_⟩
    have same : ntohl (htonl found) = found := swap32_swap32 found
    rw [InBlock, size, same]
    exact seekValidIp_together stops start seek
  · rintro ⟨ip, usable, free, block⟩
    rw [InBlock, size] at block
    obtain ⟨k, counted⟩ := start.reaches (masked_of_inSubnet usable.subnet) stops block
    rw [← toNat_iterate] at counted
    have valid := ((usable_free_iff ip).mp ⟨usable, free⟩).2
    rw [← UInt32.toNat_inj.mp counted] at valid
    exact seekValidIp_isSome valid

/-- A search that never leaves some invalid candidates never ends. -/
theorem seekValidIp_eq_none {places : List UInt32}
    (closed : ∀ c ∈ places, ¬acValidIp d c ∧ nextInSubnet d c ∈ places) (fuel : Nat) {currentIp : UInt32}
    (start : currentIp ∈ places) : seekValidIp d fuel currentIp = none := by
  induction fuel generalizing currentIp with
  | zero => rfl
  | succ fuel ih =>
    obtain ⟨invalid, next⟩ := closed currentIp start
    rw [seekValidIp, if_neg invalid]
    exact ih next

end

/-- The allocation ends, and with a usable free address, exactly for a client that has one already and where
there is such an address in the block that the search goes around in. -/
theorem allocates_iff (d : DhcpServerData) (mac : List UInt8) :
    Allocates d mac ↔
      acLookupMac d mac ≠ clientIpNotFound ∨ ∃ ip, Usable d ip ∧ Free d ip ∧ InBlock d ip := by
  rw [← seekValidIp_found_iff]
  by_cases known : acLookupMac d mac ≠ clientIpNotFound
  · refine iff_of_true ⟨d, acLookupMac d mac, ?_, fun none => absurd none known⟩ (.inl known)
    rw [nextYiaddr, if_neg known]
  · have none : acLookupMac d mac = clientIpNotFound := not_not.mp known
    constructor
    · rintro ⟨d', ip, next, -⟩
      rw [nextYiaddr, if_pos none] at next
      obtain ⟨found, seek, -⟩ := Option.map_eq_some_iff.mp next
      exact .inr (by rw [seek]; rfl)
    · intro ends
      obtain ⟨found, seek⟩ := Option.isSome_iff_exists.mp (ends.resolve_left known)
      refine ⟨(acAdd { d with currentIp := found } mac (htonl found)).1, htonl found, ?_,
        fun _ _ => seekValidIp_spec_start seek⟩
      rw [nextYiaddr, if_pos none, seek]
      rfl

/-- The server 192.168.0.1 with the mask 255.255.255.252 after its only host address was offered. -/
def smallSubnet : DhcpServerData :=
  { dhcpServerInit homeIp 0xFCFFFFFF homeIp with
    ipMacMapping := [⟨[2, 0, 0, 0, 0, 1], 0x0200A8C0⟩], currentIp := 0xC0A80002 }

theorem allocates_not_again :
    nextYiaddr (dhcpServerInit homeIp 0xFCFFFFFF homeIp) [2, 0, 0, 0, 0, 1] = some (smallSubnet, 0x0200A8C0) ∧
      ¬Allocates smallSubnet [2, 0, 0, 0, 0, 2] := by
  refine ⟨by decide +kernel, ?_⟩
  rintro ⟨d', ip, next, -⟩
  have closed : ∀ c ∈ [(0xC0A80000 : UInt32), 0xC0A80001, 0xC0A80002, 0xC0A80003],
      ¬acValidIp smallSubnet c ∧
        nextInSubnet smallSubnet c ∈ [(0xC0A80000 : UInt32), 0xC0A80001, 0xC0A80002, 0xC0A80003] := by
    simp only [List.forall_mem_cons]
    refine ⟨?_, ?_, ?_, ?_, fun _ none => nomatch none⟩
    all_goals decide
  have start : nextInSubnet smallSubnet smallSubnet.currentIp ∈
      [(0xC0A80000 : UInt32), 0xC0A80001, 0xC0A80002, 0xC0A80003] := by decide
  have seek := seekValidIp_eq_none closed seekFuel start
  have unknown : acLookupMac smallSubnet [2, 0, 0, 0, 0, 2] = clientIpNotFound := by decide
  rw [nextYiaddr, if_pos unknown, seek] at next
  cases next

end Bk7251.Dhcp
