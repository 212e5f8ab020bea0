import Rauha.Backend.Allocator

/-!
# Capabilities and the kernel form of a policy

Capability names are written with or without `CAP_` and in any case; the kernel side knows bit
positions.  `toEnforcement` is the one place that says what a policy means for enforcement, and
`policyToKernel` puts it into the record that the hooks read.

What upper case is belongs to the Unicode tables of the standard library, so it is a parameter.
-/

namespace Rauha

def linuxCapabilities : List String :=
  ["CAP_CHOWN", "CAP_DAC_OVERRIDE", "CAP_DAC_READ_SEARCH", "CAP_FOWNER", "CAP_FSETID", "CAP_KILL",
    "CAP_SETGID", "CAP_SETUID", "CAP_SETPCAP", "CAP_LINUX_IMMUTABLE", "CAP_NET_BIND_SERVICE",
    "CAP_NET_BROADCAST", "CAP_NET_ADMIN", "CAP_NET_RAW", "CAP_IPC_LOCK", "CAP_IPC_OWNER",
    "CAP_SYS_MODULE", "CAP_SYS_RAWIO", "CAP_SYS_CHROOT", "CAP_SYS_PTRACE", "CAP_SYS_PACCT",
    "CAP_SYS_ADMIN", "CAP_SYS_BOOT", "CAP_SYS_NICE", "CAP_SYS_RESOURCE", "CAP_SYS_TIME",
    "CAP_SYS_TTY_CONFIG", "CAP_MKNOD", "CAP_LEASE", "CAP_AUDIT_WRITE", "CAP_AUDIT_CONTROL",
    "CAP_SETFCAP", "CAP_MAC_OVERRIDE", "CAP_MAC_ADMIN", "CAP_SYSLOG", "CAP_WAKE_ALARM",
    "CAP_BLOCK_SUSPEND", "CAP_AUDIT_READ", "CAP_PERFMON", "CAP_BPF", "CAP_CHECKPOINT_RESTORE"]

section

variable (toUppercase : String → String)

def canonicalLinuxCapabilityName (capability : String) : String :=
  let upper := toUppercase capability
  if upper.startsWith "CAP_" then upper else "CAP_" ++ upper

def linuxCapabilityBit (capability : String) : Option ℕ :=
  linuxCapabilities.findIdx? (· == canonicalLinuxCapabilityName toUppercase capability)

def capabilitiesToMask : List String → Except RauhaError UInt64
  | [] => .ok 0
  | capability :: rest =>
    match linuxCapabilityBit toUppercase capability with
    | none => .error (.InvalidPolicy ("unknown capability: " ++ capability))
    | some bit => (capabilitiesToMask rest).map fun mask => (1 <<< UInt64.ofNat bit) ||| mask

/-- Whether a policy grants `CAP_SYS_PTRACE`, under either of its names. -/
def allowsPtrace (policy : ZonePolicy) : Bool :=
  policy.capabilities.any fun capability =>
    let upper := toUppercase capability
    upper = "CAP_SYS_PTRACE" || upper = "SYS_PTRACE"

structure ZoneEnforcement where
  capsMask : UInt64
  allowPtrace : Bool
  allowHostNet : Bool
  deriving DecidableEq, Repr

def toEnforcement (policy : ZonePolicy) : Except RauhaError ZoneEnforcement :=
  (capabilitiesToMask toUppercase policy.capabilities).map fun capsMask =>
    ⟨capsMask, allowsPtrace toUppercase policy, policy.network.mode = .Host⟩

end

/-! ## The record in the policy map -/

namespace Backend

def policyFlagAllowPtrace : UInt32 := 1

def policyFlagAllowHostNet : UInt32 := 2

structure ZonePolicyKernel where
  capsMask : UInt64
  flags : UInt32
  deriving DecidableEq, Repr

def enforcementToKernel (zone : ZoneEnforcement) : ZonePolicyKernel where
  capsMask := zone.capsMask
  flags := (if zone.allowPtrace then policyFlagAllowPtrace else 0) |||
    (if zone.allowHostNet then policyFlagAllowHostNet else 0)

/-- The kernel form of a policy; there is none if a capability is unknown. -/
def policyToKernel (toUppercase : String → String) (policy : ZonePolicy) :
    Option ZonePolicyKernel :=
  (toEnforcement toUppercase policy).toOption.map enforcementToKernel

end Backend

end Rauha
