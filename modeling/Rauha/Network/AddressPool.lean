import Mathlib.Data.UInt
import Rauha.Backend.Allocator
import Rauha.Library.Transition
import Rauha.Network.Script

/-!
# The address pool

`parseCidr` reads the subnet of the configuration; what it accepts is a `Subnet` (`parseCidr_ok`),
with the facts about prefix and host bits that the arithmetic of the allocator rests on.

The allocator works with offsets into the subnet.  Here it is described in terms of addresses: the
host addresses of the subnet, and those of them that are taken (`Taken`).  `address_pool_sound`
says of every state of the pool what the next `allocate` gives.
-/

namespace Rauha

open Text Transition

/-! ## The configured subnet -/

variable {p : ℕ}

lemma mod_eq_zero_of_and_mask {bits : UInt32} (hp : p < 32)
    (h : bits &&& ((2 ^ 32 - 1 : UInt32) >>> UInt32.ofNat p) = 0) :
    bits.toNat % 2 ^ (32 - p) = 0 := by
  have hmask : ((2 ^ 32 - 1 : UInt32) >>> UInt32.ofNat p).toNat = 2 ^ (32 - p) - 1 := by
    interval_cases p <;> decide
  have hand := congrArg UInt32.toNat h
  rw [UInt32.toNat_and, hmask, Nat.and_two_pow_sub_one_eq_mod] at hand
  exact hand

/-- An IPv4 CIDR like `10.89.0.0/16`. -/
def parseCidr (std : IpText) (cidr : String) : Except RauhaError (UInt32 × ℕ) :=
  match splitOnce '/' cidr.toList with
  | none => .error (.InvalidInput ("subnet " ++ Nftables.debugText cidr ++
      " is not a CIDR (expected e.g. \"10.89.0.0/16\")"))
  | some (addr, pre) =>
    match std.parse addr with
    | some (.V4 octets) =>
      match parseUnsigned 255 pre with
      | none => .error (.InvalidInput ("subnet prefix " ++
          Nftables.debugText (String.ofList pre) ++ " is not a number"))
      | some p =>
        if 32 < p then
          .error (.InvalidInput ("subnet prefix /" ++ toString p ++ " is invalid (max /32)"))
        else if p < 16 then
          .error (.InvalidInput ("subnet /" ++ toString p ++ " is larger than /16 — " ++
            "refusing: a zone network that big exhausts the address space Rauha is " ++
            "allowed to manage"))
        else if 30 < p then
          .error (.InvalidInput ("subnet /" ++ toString p ++ " is too small — /30 is the " ++
            "minimum that fits a gateway plus at least one zone (got " ++ cidr ++ ")"))
        else
          let bits := UInt32.ofBitVec octets
          let hostMask := if p = 32 then 0 else (2 ^ 32 - 1 : UInt32) >>> UInt32.ofNat p
          if bits &&& hostMask ≠ 0 then
            .error (.InvalidInput ("subnet " ++ cidr ++
              " has host bits set (expected a network address like 10.89.0.0/16)"))
          else .ok (bits, p)
    | _ => .error (.InvalidInput
        ("subnet address " ++ Nftables.debugText (String.ofList addr) ++ " is not IPv4"))

/-- **What the configuration accepts** is a subnet. -/
lemma parseCidr_ok {std : IpText} {cidr : String} {base : UInt32}
    (h : parseCidr std cidr = .ok (base, p)) :
    ∃ subnet : Subnet, subnet.base = base ∧ subnet.prefixLen = p := by
  unfold parseCidr at h
  split at h
  · cases h
  split at h
  · split at h
    · cases h
    · split_ifs at h with hmax hlow hhigh hwhole
      · omega
      rw [ite_not] at h
      split_ifs at h with hbits
      cases h
      exact ⟨⟨_, _, by omega, by omega, mod_eq_zero_of_and_mask (by omega) hbits⟩, rfl, rfl⟩
  · cases h

/-! ## Addresses -/

namespace IpAllocator

variable (self : IpAllocator)

/-- The last address of the subnet. -/
def broadcast : UInt32 := self.offsetToIp (2 ^ (32 - self.subnet.prefixLen) - 1)

/-- An address that is in use: marked, or handed out and not released. -/
def Taken (ip : UInt32) : Prop :=
  ∃ offset ∈ self.allocated, self.validatedOffset ip = some offset

inductive Op where
  | allocate
  | markAllocated (ip : UInt32)
  | release (ip : UInt32)

/-- An allocation that fails leaves the pool as it is. -/
def apply (self : IpAllocator) : Op → IpAllocator
  | .allocate =>
    match self.allocate with
    | .ok (_, next) => next
    | .error _ => self
  | .markAllocated ip => self.markAllocated ip
  | .release ip => self.release ip

/-- **The pool as it should be.**  The host addresses are those between the network and the
    broadcast address that are not the gateway.  What is handed out is one of them, was free, and
    all host addresses below it are taken; only if all are taken there is none.  The operations
    change what is taken as they say; the two reserved offsets stay; and no shift, subtraction or
    addition leaves the 32 bits. -/
structure Sound : Prop where
  ends : self.gateway.toNat = self.subnet.base.toNat + 1 ∧
    self.broadcast.toNat = self.subnet.base.toNat + (2 ^ (32 - self.subnet.prefixLen) - 1)
  hosts : ∀ ip, self.contains ip = true ↔
    self.subnet.base < ip ∧ ip < self.broadcast ∧ ip ≠ self.gateway
  inside : ∀ ip next, self.allocate = .ok (ip, next) →
    self.subnet.base < ip ∧ ip < self.broadcast ∧ ip ≠ self.gateway ∧ ¬ self.Taken ip
  lowest : ∀ ip next, self.allocate = .ok (ip, next) →
    ∀ ip', self.contains ip' = true → ip' < ip → self.Taken ip'
  allocates : ∀ ip next, self.allocate = .ok (ip, next) →
    ∀ ip', next.Taken ip' ↔ ip' = ip ∨ self.Taken ip'
  marks : ∀ ip ip', (self.markAllocated ip).Taken ip' ↔
    ip' = ip ∧ self.contains ip = true ∨ self.Taken ip'
  releases : ∀ ip ip', (self.release ip).Taken ip' ↔ ip' ≠ ip ∧ self.Taken ip'
  exhausted : (∃ e, self.allocate = .error e) ↔ ∀ ip, self.contains ip = true → self.Taken ip
  reserved : 0 ∈ self.allocated ∧ 1 ∈ self.allocated
  shift : self.subnet.prefixLen ≤ 32 ∧ 2 ≤ 2 ^ (32 - self.subnet.prefixLen) ∧
    2 ^ (32 - self.subnet.prefixLen) < 2 ^ 32
  addition : ∀ offset < 2 ^ (32 - self.subnet.prefixLen), self.subnet.base.toNat + offset < 2 ^ 32

variable {self}

/-! ## Offsets and addresses -/

lemma four_le_size : 4 ≤ 2 ^ (32 - self.subnet.prefixLen) := by
  have hle := self.subnet.le_thirty
  calc 4 = 2 ^ 2 := by norm_num
    _ ≤ 2 ^ (32 - self.subnet.prefixLen) := Nat.pow_le_pow_right (by norm_num) (by omega)

lemma size_lt : 2 ^ (32 - self.subnet.prefixLen) < 2 ^ 32 := by
  have hlow := self.subnet.sixteen_le
  exact Nat.pow_lt_pow_right (by norm_num) (by omega)

/-- The last address of the subnet is the one behind the last host. -/
lemma toNat_broadcast : self.broadcast.toNat = self.subnet.base.toNat + self.maxHostOffset + 1 := by
  have hsize := @four_le_size self
  have hlt := @size_lt self
  have hsum := offsetToIp_no_overflow (le_refl self.maxHostOffset)
  have hbits : (2 : ℕ) ∣ self.subnet.base.toNat := by
    have hle := self.subnet.le_thirty
    have hdvd : 2 ^ 1 ∣ 2 ^ (32 - self.subnet.prefixLen) := pow_dvd_pow 2 (by omega)
    exact dvd_trans hdvd (Nat.dvd_of_mod_eq_zero self.subnet.host_bits)
  have heven : (2 : ℕ) ∣ 2 ^ (32 - self.subnet.prefixLen) := by
    have hle := self.subnet.le_thirty
    exact dvd_pow_self 2 (by omega)
  unfold broadcast offsetToIp
  unfold maxHostOffset at hsum ⊢
  rw [UInt32.toNat_add, UInt32.toNat_ofNat_of_lt' (by
    change _ < 2 ^ 32
    omega), Nat.mod_eq_of_lt (by omega)]
  omega

variable {ip : UInt32} {offset : ℕ}

/-- A host address is its offset above the base. -/
lemma toNat_of_validatedOffset (h : self.validatedOffset ip = some offset) :
    ip.toNat = self.subnet.base.toNat + offset := by
  obtain ⟨rfl, -, hle⟩ := validatedOffset_eq_some_iff.mp h
  have hsum := offsetToIp_no_overflow hle
  have hip : ip = self.subnet.base + (ip - self.subnet.base) := by
    rw [UInt32.add_comm, UInt32.sub_add_cancel]
  rw [hip, UInt32.toNat_add, ← hip]
  exact Nat.mod_eq_of_lt hsum

lemma toNat_gateway : self.gateway.toNat = self.subnet.base.toNat + 1 := by
  have hsize := @four_le_size self
  have hsum := @offsetToIp_no_overflow self 1 (by
    unfold maxHostOffset
    omega)
  rw [gateway, offsetToIp, UInt32.toNat_add]
  exact Nat.mod_eq_of_lt hsum

lemma validatedOffset_offsetToIp (hlow : 1 < offset) (hle : offset ≤ self.maxHostOffset) :
    self.validatedOffset (self.offsetToIp offset) = some offset :=
  validatedOffset_eq_some_iff.mpr ⟨ipToOffset_offsetToIp hle, hlow, hle⟩

/-- **The host addresses** are those between the ends of the subnet, but for the gateway. -/
lemma contains_iff : self.contains ip = true ↔
    self.subnet.base < ip ∧ ip < self.broadcast ∧ ip ≠ self.gateway := by
  have hlast := @toNat_broadcast self
  have hgateway := @toNat_gateway self
  rw [contains, Option.isSome_iff_exists, UInt32.lt_iff_toNat_lt, UInt32.lt_iff_toNat_lt, ne_eq,
    ← UInt32.toNat_inj]
  constructor
  · rintro ⟨offset, hoffset⟩
    have hip := toNat_of_validatedOffset hoffset
    obtain ⟨-, hlow, hle⟩ := validatedOffset_eq_some_iff.mp hoffset
    omega
  · rintro ⟨hbase, hlt, hne⟩
    have hle : ip.toNat - self.subnet.base.toNat ≤ self.maxHostOffset := by omega
    have hsum := offsetToIp_no_overflow hle
    have hip : self.offsetToIp (ip.toNat - self.subnet.base.toNat) = ip := by
      rw [← UInt32.toNat_inj, offsetToIp, UInt32.toNat_add, UInt32.toNat_ofNat_of_lt' (by
        change _ < 2 ^ 32
        omega), Nat.mod_eq_of_lt (by omega)]
      omega
    exact ⟨_, hip ▸ validatedOffset_offsetToIp (by omega) hle⟩

lemma taken_iff (h : self.validatedOffset ip = some offset) :
    self.Taken ip ↔ offset ∈ self.allocated := by
  unfold Taken
  rw [h]
  constructor
  · rintro ⟨offset', hmem, hsome⟩
    cases hsome
    exact hmem
  · intro hmem
    exact ⟨offset, hmem, rfl⟩

/-! ## Allocation -/

lemma allocate_error_iff :
    (∃ e, self.allocate = .error e) ↔
      ∀ offset, 1 < offset → offset ≤ self.maxHostOffset → offset ∈ self.allocated := by
  have hfree : (∃ e, self.allocate = .error e) ↔ self.freeOffset = none := by
    unfold allocate
    cases self.freeOffset <;> simp
  rw [hfree, freeOffset, List.find?_eq_none]
  simp only [List.mem_range'_1, decide_not, Bool.not_eq_true', decide_eq_false_iff_not, not_not]
  constructor
  · intro h offset hlow hle
    exact h offset ⟨by omega, by omega⟩
  · rintro h offset ⟨hlow, hlt⟩
    exact h offset (by omega) (by omega)

variable {next : IpAllocator}

/-- The offsets below the one that is handed out are taken. -/
lemma allocate_lowest (h : self.allocate = .ok (ip, next))
    (hoffset : self.validatedOffset ip = some offset) :
    ∀ lower, 1 < lower → lower < offset → lower ∈ self.allocated := by
  intro lower hlow hlt
  unfold allocate at h
  split at h
  · rename_i found hfree
    cases h
    obtain ⟨-, i, hi, hfound, hbefore⟩ := List.find?_eq_some_iff_getElem.mp hfree
    rw [List.length_range'] at hi
    rw [List.getElem_range'] at hfound
    rw [validatedOffset_offsetToIp (by omega) (by omega)] at hoffset
    cases hoffset
    have hnot := hbefore (lower - 2) (by omega)
    rw [List.getElem_range'] at hnot
    have hlower : 2 + 1 * (lower - 2) = lower := by omega
    rw [hlower] at hnot
    simpa using hnot
  · cases h

lemma sound_inside (h : self.allocate = .ok (ip, next)) :
    self.subnet.base < ip ∧ ip < self.broadcast ∧ ip ≠ self.gateway ∧ ¬ self.Taken ip := by
  obtain ⟨offset, hoffset, hfree, -⟩ := allocate_ok h
  obtain ⟨-, hlow, hle⟩ := validatedOffset_eq_some_iff.mp hoffset
  have hip := toNat_of_validatedOffset hoffset
  have hlast := @toNat_broadcast self
  have hgateway := @toNat_gateway self
  refine ⟨?_, ?_, ?_, ?_⟩
  · rw [UInt32.lt_iff_toNat_lt]
    omega
  · rw [UInt32.lt_iff_toNat_lt]
    omega
  · rintro rfl
    omega
  · rw [taken_iff hoffset]
    exact hfree

variable {ip' : UInt32}

lemma sound_lowest (h : self.allocate = .ok (ip, next)) (hhost : self.contains ip' = true)
    (hlt : ip' < ip) : self.Taken ip' := by
  obtain ⟨offset, hoffset, -, -⟩ := allocate_ok h
  obtain ⟨offset', hoffset'⟩ := Option.isSome_iff_exists.mp hhost
  have hip := toNat_of_validatedOffset hoffset
  have hip' := toNat_of_validatedOffset hoffset'
  rw [UInt32.lt_iff_toNat_lt] at hlt
  rw [taken_iff hoffset']
  have hlow := (validatedOffset_eq_some_iff.mp hoffset').2.1
  exact allocate_lowest h hoffset offset' hlow (by omega)

lemma sound_exhausted :
    (∃ e, self.allocate = .error e) ↔ ∀ ip, self.contains ip = true → self.Taken ip := by
  rw [allocate_error_iff]
  constructor
  · intro h ip hhost
    obtain ⟨offset, hoffset⟩ := Option.isSome_iff_exists.mp hhost
    obtain ⟨-, hlow, hle⟩ := validatedOffset_eq_some_iff.mp hoffset
    exact (taken_iff hoffset).mpr (h offset hlow hle)
  · intro h offset hlow hle
    have hoffset := validatedOffset_offsetToIp hlow hle
    refine (taken_iff hoffset).mp (h _ ?_)
    rw [contains, hoffset]
    rfl

/-! ## What is taken after an operation -/

/-- Only offsets are added and removed, so the offset of an address is always the same. -/
lemma taken_insert (h : self.validatedOffset ip = some offset) :
    ({ self with allocated := insert offset self.allocated } : IpAllocator).Taken ip' ↔
      ip' = ip ∨ self.Taken ip' := by
  constructor
  · rintro ⟨offset', hmem, hoffset'⟩
    have hoffset' : self.validatedOffset ip' = some offset' := hoffset'
    rcases Finset.mem_insert.mp hmem with rfl | hmem
    · exact .inl (validatedOffset_inj hoffset' h)
    · exact .inr ⟨offset', hmem, hoffset'⟩
  · rintro (rfl | ⟨offset', hmem, hoffset'⟩)
    · exact ⟨offset, Finset.mem_insert_self _ _, h⟩
    · exact ⟨offset', Finset.mem_insert_of_mem hmem, hoffset'⟩

lemma sound_marks (ip ip' : UInt32) : (self.markAllocated ip).Taken ip' ↔
    ip' = ip ∧ self.contains ip = true ∨ self.Taken ip' := by
  unfold markAllocated contains
  cases hoffset : self.validatedOffset ip with
  | none => simp
  | some offset => simpa using taken_insert hoffset

lemma sound_releases (ip ip' : UInt32) :
    (self.release ip).Taken ip' ↔ ip' ≠ ip ∧ self.Taken ip' := by
  unfold release
  cases hoffset : self.validatedOffset ip with
  | none =>
    refine ⟨fun h => ⟨?_, h⟩, fun h => h.2⟩
    rintro rfl
    obtain ⟨offset, -, hsome⟩ := h
    rw [hoffset] at hsome
    cases hsome
  | some offset =>
    constructor
    · rintro ⟨offset', hmem, hoffset'⟩
      have hoffset' : self.validatedOffset ip' = some offset' := hoffset'
      obtain ⟨hne, hmem⟩ := Finset.mem_erase.mp hmem
      refine ⟨?_, offset', hmem, hoffset'⟩
      rintro rfl
      rw [hoffset] at hoffset'
      cases hoffset'
      exact hne rfl
    · rintro ⟨hne, offset', hmem, hoffset'⟩
      refine ⟨offset', Finset.mem_erase_of_ne_of_mem ?_ hmem, hoffset'⟩
      rintro rfl
      exact hne (validatedOffset_inj hoffset' hoffset)

/-! ## Runs -/

lemma apply_allocate_cases :
    self.apply .allocate = self ∨ ∃ offset, self.apply .allocate =
      { self with allocated := insert offset self.allocated } := by
  unfold apply
  cases hallocate : self.allocate with
  | error e => exact .inl rfl
  | ok result =>
    obtain ⟨ip, next⟩ := result
    obtain ⟨offset, -, -, rfl⟩ := allocate_ok hallocate
    exact .inr ⟨offset, rfl⟩

/-- The offsets of the network address and of the gateway stay taken: no address has them. -/
lemma reserved_apply (op : Op) (h : 0 ∈ self.allocated ∧ 1 ∈ self.allocated) :
    0 ∈ (self.apply op).allocated ∧ 1 ∈ (self.apply op).allocated := by
  cases op with
  | allocate =>
    rcases @apply_allocate_cases self with heq | ⟨offset, heq⟩ <;> rw [heq]
    · exact h
    · exact ⟨Finset.mem_insert_of_mem h.1, Finset.mem_insert_of_mem h.2⟩
  | markAllocated ip =>
    simp only [apply, markAllocated]
    split
    · exact ⟨Finset.mem_insert_of_mem h.1, Finset.mem_insert_of_mem h.2⟩
    · exact h
  | release ip =>
    simp only [apply, release]
    split
    · rename_i offset hoffset
      have hlow := (validatedOffset_eq_some_iff.mp hoffset).2.1
      exact ⟨Finset.mem_erase_of_ne_of_mem (by omega) h.1,
        Finset.mem_erase_of_ne_of_mem (by omega) h.2⟩
    · exact h

lemma subnet_apply (op : Op) : (self.apply op).subnet = self.subnet := by
  cases op with
  | allocate => rcases @apply_allocate_cases self with heq | ⟨offset, heq⟩ <;> rw [heq]
  | markAllocated ip =>
    simp only [apply, markAllocated]
    split <;> rfl
  | release ip =>
    simp only [apply, release]
    split <;> rfl

lemma Sound.of_reserved (h : 0 ∈ self.allocated ∧ 1 ∈ self.allocated) : self.Sound where
  ends := by
    have hlast := @toNat_broadcast self
    have hsize := @four_le_size self
    unfold maxHostOffset at hlast
    exact ⟨toNat_gateway, by omega⟩
  hosts _ := contains_iff
  inside _ _ hok := sound_inside hok
  lowest _ _ hok _ hhost hlt := sound_lowest hok hhost hlt
  allocates ip next hok ip' := by
    obtain ⟨offset, hoffset, -, rfl⟩ := allocate_ok hok
    exact taken_insert hoffset
  marks := sound_marks
  releases := sound_releases
  exhausted := sound_exhausted
  reserved := h
  shift := by
    have hle := self.subnet.le_thirty
    have hsize := @four_le_size self
    exact ⟨by omega, by omega, size_lt⟩
  addition offset hlt := by
    have hlast := @toNat_broadcast self
    have hword := self.broadcast.toNat_lt
    unfold maxHostOffset at hlast
    omega

end IpAllocator

open IpAllocator

/-- **The pool.**  Whatever the configuration accepts is a subnet; its pool starts with no host
    address taken, and after any operations, on whatever addresses, it is a sound pool of that
    subnet. -/
theorem address_pool_sound {std : IpText} {cidr : String} {base : UInt32} {p : ℕ}
    (h : parseCidr std cidr = .ok (base, p)) :
    ∃ subnet : Subnet, subnet.base = base ∧ subnet.prefixLen = p ∧
      (∀ ip, ¬ (IpAllocator.new subnet).Taken ip) ∧
      ∀ ops, (run IpAllocator.apply (.new subnet) ops).subnet = subnet ∧
        (run IpAllocator.apply (.new subnet) ops).Sound := by
  obtain ⟨subnet, hbase, hprefix⟩ := parseCidr_ok h
  refine ⟨subnet, hbase, hprefix, ?_, fun ops => ⟨?_, ?_⟩⟩
  · rintro ip ⟨offset, hmem, hoffset⟩
    have hlow := (validatedOffset_eq_some_iff.mp hoffset).2.1
    rcases Finset.mem_insert.mp hmem with rfl | hone
    · omega
    · have := Finset.mem_singleton.mp hone
      omega
  · exact run_invariant (I := fun pool : IpAllocator => pool.subnet = subnet)
      (fun pool op hsubnet => (subnet_apply op).trans hsubnet) rfl ops
  · refine Sound.of_reserved (run_invariant
      (I := fun pool : IpAllocator => 0 ∈ pool.allocated ∧ 1 ∈ pool.allocated)
      (fun pool op hreserved => reserved_apply op hreserved) ?_ ops)
    exact ⟨Finset.mem_insert_self _ _, Finset.mem_insert_of_mem (Finset.mem_singleton_self _)⟩

/-- The smallest subnet: one host, and no second. -/
theorem address_pool_sound_small : ∃ subnet : Subnet, subnet.base = 0x0A000000 ∧
    subnet.prefixLen = 30 ∧
    (run IpAllocator.apply (.new subnet) [.allocate, .allocate]).Sound := by
  have hread : parseCidr Nftables.sampleText "10.0.0.0/30" = .ok (0x0A000000, 30) := by
    decide +kernel
  obtain ⟨subnet, hbase, hprefix, -, hruns⟩ := address_pool_sound hread
  exact ⟨subnet, hbase, hprefix, (hruns _).2⟩

end Rauha
