import RootSeeker.Contracts.Common
import RootSeeker.Python.IpAddresses

/-!
# The network guard

The guard reads the host of a URL with `ip_address` and blocks internal addresses.
A host that `ip_address` does not read is taken for a name, also where the resolver
reads an address.
-/

namespace RootSeeker.InfraCore

open Python Contracts

/-- `ip.is_private or ip.is_loopback or ip.is_link_local`. -/
def isInternal (address : IpAddress) : Bool :=
  address.isPrivate || address.isLoopback || address.isLinkLocal

structure NetworkGuard where
  allowPrivate : Bool

namespace NetworkGuard

variable (tables : UrlTables) (std : Stdlib) (guard : NetworkGuard)

/-- `_validate_host`. -/
def validateHost (host : PyStr) : Except PyError Unit :=
  match ipAddress host with
  | none => .ok ()
  | some address =>
    if !guard.allowPrivate && isInternal address then
      .error (.valueError (py "private/loopback address is blocked: " ++ host))
    else .ok ()

/-- `validate_url`; the text for a `ValueError` of `urlparse` is our own. -/
def validateUrl (url : PyStr) : Except PyError Unit :=
  match urlparse tables std url with
  | none => .error (.valueError (py "Invalid URL"))
  | some parsed =>
    if parsed.scheme ≠ py "http" ∧ parsed.scheme ≠ py "https" then
      .error (.valueError (py "only http/https are allowed"))
    else if parsed.hostname std = [] then
      .error (.valueError (py "hostname is required"))
    else guard.validateHost (parsed.hostname std)

end NetworkGuard

/-! ## Internal addresses -/

/-- The guard without exceptions. -/
def strictGuard : NetworkGuard where
  allowPrivate := false

/-- A URL that the guard lets through has no host that the resolver reads as an internal
address. -/
def BlocksInternal (tables : UrlTables) (std : Stdlib) (url : PyStr) : Prop :=
  strictGuard.validateUrl tables std url = .ok () →
    ∀ parsed, urlparse tables std url = some parsed →
      ∀ address, Spells (parsed.hostname std) address → isInternal address = false

theorem validateHost_eq_ok_iff (host : PyStr) :
    strictGuard.validateHost host = .ok () ↔
      ∀ address, ipAddress host = some address → isInternal address = false := by
  unfold NetworkGuard.validateHost
  cases ipAddress host with
  | none => simp
  | some address => cases hinternal : isInternal address <;> simp [strictGuard, hinternal]

theorem validateUrl_eq_ok_iff {tables : UrlTables} {std : Stdlib} {url : PyStr} {parsed : Url}
    (hparsed : urlparse tables std url = some parsed) :
    strictGuard.validateUrl tables std url = .ok () ↔
      (parsed.scheme = py "http" ∨ parsed.scheme = py "https") ∧
        parsed.hostname std ≠ [] ∧ strictGuard.validateHost (parsed.hostname std) = .ok () := by
  rw [NetworkGuard.validateUrl, hparsed]
  simp only
  by_cases hweb : parsed.scheme = py "http" ∨ parsed.scheme = py "https"
  · rw [if_neg (by tauto)]
    by_cases hempty : parsed.hostname std = []
    · simp [hempty]
    · simp [hempty, hweb]
  · rw [if_pos (by tauto)]
    simp [hweb]

/-- An address that is written in a form that the resolver reads is not the empty text. -/
theorem ne_nil_of_resolveIPv4 {host : PyStr} {value : ℕ}
    (hresolve : resolveIPv4 host = some value) : host ≠ [] := by
  rintro rfl
  rw [show resolveIPv4 [] = none from rfl] at hresolve
  exact absurd hresolve (by simp)

/-- The guard keeps internal addresses out exactly where an IPv4 address is written in the
one way that it reads: four decimal numbers without leading zeros.  IPv6 addresses are
kept out in every form. -/
theorem guard_blocks_internal_iff (tables : UrlTables) (std : Stdlib) (url : PyStr) :
    BlocksInternal tables std url ↔
      ∀ parsed, urlparse tables std url = some parsed →
        (parsed.scheme = py "http" ∨ parsed.scheme = py "https") →
          ∀ value, resolveIPv4 (parsed.hostname std) = some value →
            isInternal (.v4 value) = true → (parseIPv4 (parsed.hostname std)).isSome = true := by
  constructor
  · intro hblocks parsed hparsed hweb value hresolve hinternal
    by_contra hloose
    have hread := ipAddress_of_resolveIPv4 hresolve
    rw [if_neg hloose] at hread
    have haccepted : strictGuard.validateUrl tables std url = .ok () := by
      rw [validateUrl_eq_ok_iff hparsed, validateHost_eq_ok_iff, hread]
      exact ⟨hweb, ne_nil_of_resolveIPv4 hresolve, by simp⟩
    have hblocked := hblocks haccepted parsed hparsed (.v4 value) (.v4 hresolve)
    rw [hinternal] at hblocked
    exact absurd hblocked (by simp)
  · intro hstrict haccepted parsed hparsed address hspells
    obtain ⟨hweb, _, hhost⟩ := (validateUrl_eq_ok_iff hparsed).mp haccepted
    rw [validateHost_eq_ok_iff] at hhost
    cases address with
    | v6 value => exact hhost _ (ipAddress_of_spells_v6 hspells)
    | v4 value =>
      have hresolve := resolveIPv4_of_spells hspells
      rw [Bool.eq_false_iff]
      intro hinternal
      have hquad := hstrict parsed hparsed hweb value hresolve hinternal
      have hread := ipAddress_of_resolveIPv4 hresolve
      rw [if_pos hquad] at hread
      exact absurd hinternal (by simp [hhost _ hread])

/-- Tables without characters that expand. -/
def plainTables : UrlTables where
  expands := fun _ => false
  bracketsAccepted := fun _ => true

/-- The loopback address as one decimal number passes the guard. -/
theorem decimal_loopback_passes :
    ¬BlocksInternal plainTables asciiStdlib (py "http://2130706433/") := by
  intro hblocks
  have haccepted : strictGuard.validateUrl plainTables asciiStdlib
      (py "http://2130706433/") = .ok () := by
    decide +kernel
  have hparsed : urlparse plainTables asciiStdlib (py "http://2130706433/") =
      some ⟨py "http", py "2130706433", py "/", [], [], []⟩ := by
    decide +kernel
  have hresolve : resolveIPv4 (Url.hostname asciiStdlib
      ⟨py "http", py "2130706433", py "/", [], [], []⟩) = some 0x7F000001 := by
    decide +kernel
  have hblocked := hblocks haccepted _ hparsed _ (.v4 hresolve)
  exact absurd hblocked (by decide +kernel)

end RootSeeker.InfraCore
