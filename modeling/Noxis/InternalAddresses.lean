import Noxis.GuardCoverage

/-! What the outbound guard lets through: internal destinations by their octets, against the
networks that the guard knows. -/
namespace Noxis

/-- Loopback, the three private ranges, link-local and unspecified, by the four octets. -/
def InternalOctets (a b c d : ℕ) : Prop :=
  a = 127 ∨ a = 10 ∨ (a = 172 ∧ 16 ≤ b ∧ b ≤ 31) ∨ (a = 192 ∧ b = 168) ∨ (a = 169 ∧ b = 254) ∨
    (a = 0 ∧ b = 0 ∧ c = 0 ∧ d = 0)

namespace IpAddress

/-- An IPv4-mapped IPv6 address stands for the IPv4 address in its last 32 bits. -/
def denotes : IpAddress → IpAddress
  | .v6 bits => if bits.toNat / 2 ^ 32 = 0xffff then .v4 (bits.setWidth 32) else .v6 bits
  | ip => ip

/-- The address names an internal destination: in IPv6 loopback, unspecified, a unique local
address or a link-local one. -/
def Internal (ip : IpAddress) : Prop :=
  match ip.denotes with
  | .v4 bits => InternalOctets (bits.toNat / 2 ^ 24) (bits.toNat / 2 ^ 16 % 256)
      (bits.toNat / 2 ^ 8 % 256) (bits.toNat % 256)
  | .v6 bits => bits.toNat = 1 ∨ bits.toNat = 0 ∨ bits.toNat / 2 ^ 120 ∈ [0xfc, 0xfd] ∨
      bits.toNat / 2 ^ 118 = 0xfe80 / 2 ^ 6

/-- `::ffff:a.b.c.d`. -/
def mapped (inner : BitVec 32) : IpAddress := .v6 (.ofNat 128 (0xffff * 2 ^ 32 + inner.toNat))

/-- The internal destinations that the guard does not know: `::`, and the IPv4-mapped form of an
internal IPv4 address. -/
def Missed (ip : IpAddress) : Prop :=
  ip = .v6 0 ∨ ∃ inner, (IpAddress.v4 inner).Internal ∧ ip = mapped inner

/-! ### The networks as ranges of numbers -/

theorem contains_v4 (base bits : BitVec 32) (n : ℕ) :
    IpNetwork.contains ⟨.v4 base, n⟩ (.v4 bits) = true ↔
      base.toNat / 2 ^ (32 - n) = bits.toNat / 2 ^ (32 - n) := by
  simp [IpNetwork.contains, BitVec.toNat_eq, Nat.shiftRight_eq_div_pow]

theorem contains_v6 (base bits : BitVec 128) (n : ℕ) :
    IpNetwork.contains ⟨.v6 base, n⟩ (.v6 bits) = true ↔
      base.toNat / 2 ^ (128 - n) = bits.toNat / 2 ^ (128 - n) := by
  simp [IpNetwork.contains, BitVec.toNat_eq, Nat.shiftRight_eq_div_pow]

theorem isPrivate_v4 (bits : BitVec 32) :
    (IpAddress.v4 bits).isPrivate = true ↔
      bits.toNat / 2 ^ 24 = 127 ∨ bits.toNat / 2 ^ 24 = 10 ∨ bits.toNat / 2 ^ 20 = 0xac1 ∨
        bits.toNat / 2 ^ 16 = 0xc0a8 ∨ bits.toNat / 2 ^ 16 = 0xa9fe ∨ bits.toNat / 2 ^ 24 = 0 := by
  have other : ∀ base n, IpNetwork.contains ⟨.v6 base, n⟩ (.v4 bits) = false := fun _ _ => rfl
  simp only [isPrivate, privateNets, List.any_cons, List.any_nil, Bool.or_eq_true, ipv4,
    contains_v4, other, Bool.false_eq_true, or_false, false_or]
  change (127 = bits.toNat / 2 ^ 24 ∨ 10 = bits.toNat / 2 ^ 24 ∨ 0xac1 = bits.toNat / 2 ^ 20 ∨
    0xc0a8 = bits.toNat / 2 ^ 16 ∨ 0xa9fe = bits.toNat / 2 ^ 16 ∨ 0 = bits.toNat / 2 ^ 24) ↔ _
  omega

theorem isPrivate_v6 (bits : BitVec 128) :
    (IpAddress.v6 bits).isPrivate = true ↔
      bits.toNat = 1 ∨ bits.toNat / 2 ^ 121 = 0x7e ∨ bits.toNat / 2 ^ 118 = 0x3fa := by
  have other : ∀ base n, IpNetwork.contains ⟨.v4 base, n⟩ (.v6 bits) = false := fun _ _ => rfl
  simp only [isPrivate, privateNets, List.any_cons, List.any_nil, Bool.or_eq_true, ipv4,
    contains_v6, other, Bool.false_eq_true, or_false, false_or]
  change (1 = bits.toNat / 1 ∨ 0x7e = bits.toNat / 2 ^ 121 ∨ 0x3fa = bits.toNat / 2 ^ 118) ↔ _
  omega

/-- The guard knows every internal IPv4 address. -/
theorem isPrivate_of_internal_v4 {bits : BitVec 32} (internal : (IpAddress.v4 bits).Internal) :
    (IpAddress.v4 bits).isPrivate = true := by
  rw [isPrivate_v4]
  simp only [Internal, denotes, InternalOctets] at internal
  omega

theorem mapped_toNat (inner : BitVec 32) :
    (BitVec.ofNat 128 (0xffff * 2 ^ 32 + inner.toNat)).toNat = 0xffff * 2 ^ 32 + inner.toNat := by
  have small := inner.isLt
  rw [BitVec.toNat_ofNat, Nat.mod_eq_of_lt (by omega)]

theorem denotes_mapped (inner : BitVec 32) : (mapped inner).denotes = .v4 inner := by
  have small := inner.isLt
  rw [mapped, denotes, mapped_toNat, if_pos (by omega)]
  congr 1
  apply BitVec.eq_of_toNat_eq
  rw [BitVec.toNat_setWidth, mapped_toNat]
  omega

theorem internal_mapped (inner : BitVec 32) :
    (mapped inner).Internal ↔ (IpAddress.v4 inner).Internal := by
  unfold Internal
  rw [denotes_mapped]
  exact Iff.rfl

theorem eq_mapped {bits : BitVec 128} (high : bits.toNat / 2 ^ 32 = 0xffff) :
    IpAddress.v6 bits = mapped (bits.setWidth 32) := by
  rw [mapped]
  congr 1
  apply BitVec.eq_of_toNat_eq
  rw [mapped_toNat, BitVec.toNat_setWidth]
  omega

/-- Of the internal addresses, exactly the missed ones are in no network of the guard. -/
theorem internal_and_not_isPrivate_iff (ip : IpAddress) :
    ip.Internal ∧ ip.isPrivate = false ↔ ip.Missed := by
  cases ip with
  | v4 bits =>
      constructor
      · rintro ⟨internal, outside⟩
        rw [isPrivate_of_internal_v4 internal] at outside
        cases outside
      · rintro (same | ⟨_, -, same⟩) <;> cases same
  | v6 bits =>
      rw [← Bool.not_eq_true, isPrivate_v6]
      constructor
      · rintro ⟨internal, outside⟩
        by_cases high : bits.toNat / 2 ^ 32 = 0xffff
        · rw [eq_mapped high] at internal ⊢
          exact .inr ⟨_, (internal_mapped _).mp internal, rfl⟩
        · have own : (IpAddress.v6 bits).denotes = .v6 bits := if_neg high
          simp only [Internal, own, List.mem_cons, List.not_mem_nil, or_false] at internal
          have zero : bits.toNat = 0 := by omega
          exact .inl (congrArg IpAddress.v6 (BitVec.eq_of_toNat_eq (by simpa using zero)))
      · rintro (same | ⟨inner, internal, same⟩)
        · obtain rfl := IpAddress.v6.inj same
          refine ⟨?_, by decide⟩
          simp [Internal, denotes]
        · have number : bits.toNat = 0xffff * 2 ^ 32 + inner.toNat := by
            rw [IpAddress.v6.inj same, mapped_toNat]
          have small := inner.isLt
          rw [same, internal_mapped]
          exact ⟨internal, by omega⟩

end IpAddress

/-- A well-formed URL of a web scheme with this host. -/
structure WebUrl (lib : UrlLibrary) (url host : String) : Prop where
  wellFormed : lib.refuses (Url.netloc (Url.splitScheme (Url.clean url.toList)).2) = false
  scheme : (Url.splitScheme (Url.clean url.toList)).1 ∈ ["http".toList, "https".toList]
  host : Url.hostname lib (Url.netloc (Url.splitScheme (Url.clean url.toList)).2) = some host

theorem WebUrl.accepted_iff {lib : UrlLibrary} {url host : String} (web : WebUrl lib url host)
    {resolve : Resolution} {infos : List IpAddress} (resolved : resolve host = some infos) :
    validateOutboundUrl lib resolve url = .ok () ↔ ∀ ip ∈ infos, ip.isPrivate = false := by
  rw [validateOutboundUrl_ok_iff]
  constructor
  · rintro ⟨-, -, host', infos', named, resolved', outside⟩ ip member
    obtain rfl := Option.some.inj (web.host.symm.trans named)
    obtain rfl := Option.some.inj (resolved.symm.trans resolved')
    exact isPrivate_eq_false_iff.mpr (outside ip member)
  · intro outside
    exact ⟨web.wellFormed, web.scheme, host, infos, web.host, resolved,
      fun ip member => isPrivate_eq_false_iff.mp (outside ip member)⟩

/-- The guard keeps internal destinations out if and only if it meets another address that it
refuses, or none that it misses. -/
theorem internal_refused_iff {lib : UrlLibrary} {url host : String} (web : WebUrl lib url host)
    {resolve : Resolution} {infos : List IpAddress} (resolved : resolve host = some infos) :
    (validateOutboundUrl lib resolve url = .ok () → ∀ ip ∈ infos, ¬ ip.Internal) ↔
      (∃ ip ∈ infos, ip.isPrivate = true) ∨ ∀ ip ∈ infos, ¬ ip.Missed := by
  rw [web.accepted_iff resolved]
  constructor
  · intro refused
    by_cases met : ∃ ip ∈ infos, ip.isPrivate = true
    · exact .inl met
    · have outside : ∀ ip ∈ infos, ip.isPrivate = false := by simpa using met
      refine .inr fun ip member missed => refused outside ip member ?_
      exact (ip.internal_and_not_isPrivate_iff.mpr missed).1
  · rintro (⟨ip, member, met⟩ | none_missed) outside ip' member' internal
    · rw [outside ip member] at met
      cases met
    · exact none_missed ip' member'
        (ip'.internal_and_not_isPrivate_iff.mp ⟨internal, outside ip' member'⟩)

/-- `llm.example.org` resolves to a public address. -/
theorem internal_refused_iff_public_host :
    validateOutboundUrl Demo.asciiUrls Demo.lookup "https://llm.example.org/v1" = .ok () ∧
      ∀ ip ∈ [ipv4 93 184 216 34], ¬ ip.Internal := by
  have web : WebUrl Demo.asciiUrls "https://llm.example.org/v1" "llm.example.org" :=
    ⟨rfl, by decide +kernel, by decide +kernel⟩
  have resolved : Demo.lookup "llm.example.org" = some [ipv4 93 184 216 34] := by decide
  have accepted := (web.accepted_iff resolved).mpr (by decide)
  refine ⟨accepted, (internal_refused_iff web resolved).mpr (.inr ?_) accepted⟩
  intro ip member missed
  obtain rfl := List.mem_singleton.mp member
  rcases missed with same | ⟨_, -, same⟩ <;> cases same

/-- A host that resolves to `::ffff:127.0.0.1` is accepted. -/
theorem mapped_loopback_accepted :
    ¬ (validateOutboundUrl Demo.asciiUrls (fun _ => some [IpAddress.mapped 0x7f000001])
        "http://llm.example.org/v1" = .ok () →
      ∀ ip ∈ [IpAddress.mapped 0x7f000001], ¬ ip.Internal) := by
  intro refused
  have web : WebUrl Demo.asciiUrls "http://llm.example.org/v1" "llm.example.org" :=
    ⟨rfl, by decide +kernel, by decide +kernel⟩
  have outside : ∀ ip ∈ [IpAddress.mapped 0x7f000001], ip.isPrivate = false := by decide
  refine refused ((web.accepted_iff rfl).mpr outside) _ List.mem_cons_self ?_
  rw [IpAddress.internal_mapped]
  exact .inl (by decide)

end Noxis
