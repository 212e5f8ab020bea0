import Rauha.Common.Zone

/-!
# The address allocator

Addresses of zones come from one subnet.  The allocator keeps the set of host-part offsets in use,
in memory only: a restart begins with the network address and the gateway and marks what recovery
finds.

`allocate_ok` is its contract: the address handed out is in the subnet and its offset was free.
`validatedOffset_inj` says that offsets identify the addresses of the subnet.
-/

namespace Rauha

/-- A subnet as the configuration accepts it: between `/16` and `/30`, with no host bits set. -/
structure Subnet where
  base : UInt32
  prefixLen : ℕ
  sixteen_le : 16 ≤ prefixLen
  le_thirty : prefixLen ≤ 30
  host_bits : base.toNat % 2 ^ (32 - prefixLen) = 0

/-- The default, `10.89.0.0/16`. -/
def Subnet.default : Subnet := ⟨0x0A590000, 16, by decide, by decide, by decide⟩

structure IpAllocator where
  subnet : Subnet
  allocated : Finset ℕ

namespace IpAllocator

/-- The network address and the gateway are taken from the start. -/
def new (subnet : Subnet) : IpAllocator := ⟨subnet, {0, 1}⟩

variable (self : IpAllocator)

def maxHostOffset : ℕ := 2 ^ (32 - self.subnet.prefixLen) - 2

def offsetToIp (offset : ℕ) : UInt32 := self.subnet.base + UInt32.ofNat offset

/-- The subtraction wraps. -/
def ipToOffset (ip : UInt32) : ℕ := (ip - self.subnet.base).toNat

def validatedOffset (ip : UInt32) : Option ℕ :=
  if 1 < self.ipToOffset ip ∧ self.ipToOffset ip ≤ self.maxHostOffset then
    some (self.ipToOffset ip)
  else none

def gateway : UInt32 := self.offsetToIp 1

def contains (ip : UInt32) : Bool := (self.validatedOffset ip).isSome

/-- The lowest free offset above the gateway. -/
def freeOffset : Option ℕ :=
  (List.range' 2 (self.maxHostOffset - 1)).find? fun offset => offset ∉ self.allocated

def allocate : Except RauhaError (UInt32 × IpAllocator) :=
  match self.freeOffset with
  | some offset =>
    .ok (self.offsetToIp offset, { self with allocated := insert offset self.allocated })
  | none => .error (.NetworkError ("IP address pool exhausted (" ++ toString self.allocated.card ++
      " addresses allocated out of " ++ toString self.maxHostOffset ++ ")"))

def markAllocated (ip : UInt32) : IpAllocator :=
  match self.validatedOffset ip with
  | some offset => { self with allocated := insert offset self.allocated }
  | none => self

def release (ip : UInt32) : IpAllocator :=
  match self.validatedOffset ip with
  | some offset => { self with allocated := self.allocated.erase offset }
  | none => self

/-- The address of a zone, if it has one, is marked or released. -/
def marked (net : Option ZoneNetworkState) : IpAllocator :=
  match net with
  | some net => self.markAllocated net.ip
  | none => self

def released (net : Option ZoneNetworkState) : IpAllocator :=
  match net with
  | some net => self.release net.ip
  | none => self

variable {self}

lemma maxHostOffset_lt : self.maxHostOffset < 2 ^ 32 := by
  have h : 2 ^ (32 - self.subnet.prefixLen) ≤ 2 ^ 32 := Nat.pow_le_pow_right (by omega) (by omega)
  unfold maxHostOffset
  omega

/-- The addition of `offsetToIp` does not overflow. -/
lemma offsetToIp_no_overflow {offset : ℕ} (h : offset ≤ self.maxHostOffset) :
    self.subnet.base.toNat + offset < 2 ^ 32 := by
  have hp := self.subnet.le_thirty
  have hhost := self.subnet.host_bits
  have hbase := self.subnet.base.toNat_lt
  unfold maxHostOffset at h
  obtain ⟨k, hk⟩ := Nat.dvd_of_mod_eq_zero hhost
  set size := 2 ^ (32 - self.subnet.prefixLen) with hsize
  have htotal : 2 ^ 32 = size * 2 ^ self.subnet.prefixLen := by
    rw [hsize, ← pow_add]
    congr 1
    omega
  have hpos : 0 < size := by positivity
  -- the base is a multiple of the size below the whole, so one more size still fits
  have hkey : size * k + size ≤ 2 ^ 32 := by
    rw [hk, htotal] at hbase
    have hk' : k < 2 ^ self.subnet.prefixLen := Nat.lt_of_mul_lt_mul_left hbase
    rw [htotal]
    calc size * k + size = size * (k + 1) := by ring
      _ ≤ size * 2 ^ self.subnet.prefixLen := Nat.mul_le_mul_left _ hk'
  omega

lemma ipToOffset_offsetToIp {offset : ℕ} (h : offset ≤ self.maxHostOffset) :
    self.ipToOffset (self.offsetToIp offset) = offset := by
  unfold ipToOffset offsetToIp
  rw [UInt32.add_comm, UInt32.add_sub_cancel]
  exact UInt32.toNat_ofNat_of_lt' (lt_of_le_of_lt h maxHostOffset_lt)

lemma validatedOffset_eq_some_iff {ip : UInt32} {offset : ℕ} :
    self.validatedOffset ip = some offset ↔
      self.ipToOffset ip = offset ∧ 1 < offset ∧ offset ≤ self.maxHostOffset := by
  unfold validatedOffset
  split_ifs with h
  · simp only [Option.some.injEq]
    constructor
    · rintro rfl
      exact ⟨rfl, h⟩
    · rintro ⟨rfl, -⟩
      rfl
  · simp only [false_iff]
    rintro ⟨rfl, h'⟩
    exact h h'

/-- **Offsets identify addresses.** -/
lemma validatedOffset_inj {ip ip' : UInt32} {offset : ℕ}
    (h : self.validatedOffset ip = some offset) (h' : self.validatedOffset ip' = some offset) :
    ip = ip' := by
  obtain ⟨heq, -⟩ := validatedOffset_eq_some_iff.mp h
  obtain ⟨heq', -⟩ := validatedOffset_eq_some_iff.mp h'
  have hsub : ip - self.subnet.base = ip' - self.subnet.base :=
    UInt32.toNat_inj.mp (heq.trans heq'.symm)
  exact (UInt32.sub_left_inj _).mp hsub

/-- **What `allocate` hands out** is an address of the subnet whose offset was free. -/
lemma allocate_ok {ip : UInt32} {next : IpAllocator} (h : self.allocate = .ok (ip, next)) :
    ∃ offset, self.validatedOffset ip = some offset ∧ offset ∉ self.allocated ∧
      next = { self with allocated := insert offset self.allocated } := by
  unfold allocate at h
  split at h
  · rename_i offset hfree
    cases h
    have hmem := List.mem_of_find?_eq_some hfree
    have hnot : offset ∉ self.allocated := by simpa using List.find?_some hfree
    simp only [List.mem_range'_1] at hmem
    have hle : offset ≤ self.maxHostOffset := by omega
    refine ⟨offset, ?_, hnot, rfl⟩
    exact validatedOffset_eq_some_iff.mpr ⟨ipToOffset_offsetToIp hle, by omega, hle⟩
  · cases h

end IpAllocator

end Rauha
