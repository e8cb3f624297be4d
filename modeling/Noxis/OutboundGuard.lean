import Mathlib

/-! The guard for outbound URLs: how a URL is taken apart, and which addresses its host may
not resolve to. -/
namespace Noxis

inductive IpAddress where
  | v4 (bits : BitVec 32)
  | v6 (bits : BitVec 128)
  deriving DecidableEq

/-- A network: its address, and how many of the leading bits count. -/
structure IpNetwork where
  address : IpAddress
  prefixLength : ℕ

def ipv4 (a b c d : BitVec 8) : IpAddress := .v4 (a ++ b ++ c ++ d)

/-- An address is in no network of the other version. -/
def IpNetwork.contains (net : IpNetwork) (ip : IpAddress) : Bool :=
  match net.address, ip with
  | .v4 base, .v4 bits => base >>> (32 - net.prefixLength) = bits >>> (32 - net.prefixLength)
  | .v6 base, .v6 bits => base >>> (128 - net.prefixLength) = bits >>> (128 - net.prefixLength)
  | _, _ => false

def privateNets : List IpNetwork :=
  [⟨ipv4 127 0 0 0, 8⟩, ⟨ipv4 10 0 0 0, 8⟩, ⟨ipv4 172 16 0 0, 12⟩, ⟨ipv4 192 168 0 0, 16⟩,
    ⟨ipv4 169 254 0 0, 16⟩, ⟨.v6 1, 128⟩, ⟨.v6 (0xfc00 <<< 112), 7⟩, ⟨.v6 (0xfe80 <<< 112), 10⟩,
    ⟨ipv4 0 0 0 0, 8⟩]

def IpAddress.isPrivate (ip : IpAddress) : Bool := privateNets.any fun net => net.contains ip

/-- What the parser leaves to Unicode tables: the authorities it refuses (brackets that hold
no address, characters that normalise to delimiters), and lower case. -/
structure UrlLibrary where
  refuses : List Char → Bool
  lower : List Char → List Char

namespace Url

/-- Leading control characters and spaces are dropped, tabs and line ends everywhere. -/
def clean (url : List Char) : List Char :=
  (url.dropWhile fun c => c.toNat ≤ 32).filter fun c => c ∉ ['\t', '\r', '\n']

def isSchemeChar (c : Char) : Bool := c.isAlphanum || c ∈ ['+', '-', '.']

/-- The scheme in lower case and what follows it; without a well-formed one all is left. -/
def splitScheme (url : List Char) : List Char × List Char :=
  let lead := url.takeWhile (· ≠ ':')
  match lead, url.dropWhile (· ≠ ':') with
  | first :: _, _ :: rest =>
      if first.isAlpha && lead.all isSchemeChar then (lead.map Char.toLower, rest) else ([], url)
  | _, _ => ([], url)

def netloc : List Char → List Char
  | '/' :: '/' :: rest => rest.takeWhile fun c => c ∉ ['/', '?', '#']
  | _ => []

/-- The part of the authority that names the host: without user data, brackets and port. -/
def hostPart (netloc : List Char) : List Char :=
  let hostinfo := (netloc.reverse.takeWhile (· ≠ '@')).reverse
  if '[' ∈ hostinfo then ((hostinfo.dropWhile (· ≠ '[')).drop 1).takeWhile (· ≠ ']')
  else hostinfo.takeWhile (· ≠ ':')

/-- The host in lower case; the zone of a scoped address keeps its case. -/
def hostname (lib : UrlLibrary) (netloc : List Char) : Option String :=
  let host := hostPart netloc
  if host.isEmpty then none
  else some (String.ofList (lib.lower (host.takeWhile (· ≠ '%')) ++ host.dropWhile (· ≠ '%')))

end Url

/-- The error the guard raises; the first is the parser's own. -/
inductive OutboundError where
  | malformed
  | unsupportedScheme (scheme : List Char)
  | missingHost
  | unresolved (host : String)
  | privateAddress (ip : IpAddress)
  deriving DecidableEq

/-- What `getaddrinfo` answers for a host; `none` where it does not resolve. -/
abbrev Resolution := String → Option (List IpAddress)

def validateOutboundUrl (lib : UrlLibrary) (resolve : Resolution) (url : String) :
    Except OutboundError Unit :=
  let (scheme, rest) := Url.splitScheme (Url.clean url.toList)
  let netloc := Url.netloc rest
  if lib.refuses netloc then .error .malformed
  else if scheme ∉ ["http".toList, "https".toList] then .error (.unsupportedScheme scheme)
  else match Url.hostname lib netloc with
    | none => .error .missingHost
    | some host => match resolve host with
      | none => .error (.unresolved host)
      | some infos => match infos.find? IpAddress.isPrivate with
        | some ip => .error (.privateAddress ip)
        | none => .ok ()

/-- A URL of a web scheme whose host resolves to addresses outside the private networks. -/
structure PublicUrl (lib : UrlLibrary) (resolve : Resolution) (url : String) : Prop where
  wellFormed : lib.refuses (Url.netloc (Url.splitScheme (Url.clean url.toList)).2) = false
  scheme : (Url.splitScheme (Url.clean url.toList)).1 ∈ ["http".toList, "https".toList]
  resolves : ∃ host infos,
    Url.hostname lib (Url.netloc (Url.splitScheme (Url.clean url.toList)).2) = some host ∧
      resolve host = some infos ∧ ∀ ip ∈ infos, ∀ net ∈ privateNets, net.contains ip = false

theorem isPrivate_eq_false_iff {ip : IpAddress} :
    ip.isPrivate = false ↔ ∀ net ∈ privateNets, net.contains ip = false := by
  rw [IpAddress.isPrivate, List.any_eq_false]
  simp only [Bool.not_eq_true]

theorem validateOutboundUrl_ok_iff {lib : UrlLibrary} {resolve : Resolution} {url : String} :
    validateOutboundUrl lib resolve url = .ok () ↔ PublicUrl lib resolve url := by
  unfold validateOutboundUrl
  dsimp only
  constructor
  · intro accepted
    split_ifs at accepted with refused unsupported
    split at accepted
    · cases accepted
    · rename_i host named
      split at accepted
      · cases accepted
      · rename_i infos resolved
        split at accepted
        · cases accepted
        · rename_i noPrivate
          refine ⟨by simpa using refused, unsupported, host, infos, named, resolved, ?_⟩
          intro ip known
          have notPrivate := List.find?_eq_none.mp noPrivate ip known
          exact isPrivate_eq_false_iff.mp (by simpa using notPrivate)
  · rintro ⟨wellFormed, scheme, host, infos, named, resolved, allPublic⟩
    have noPrivate : infos.find? IpAddress.isPrivate = none := by
      rw [List.find?_eq_none]
      intro ip known
      rw [isPrivate_eq_false_iff.mpr (allPublic ip known)]
      simp
    rw [if_neg (by simp [wellFormed]), if_neg (not_not.mpr scheme), named]
    simp only [resolved, noPrivate]

end Noxis
