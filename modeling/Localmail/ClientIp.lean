/-
The client address behind trusted proxies: the entries of an `X-Forwarded-For`
header are walked from the right, and the first that is no trusted proxy is the
client.
-/
import Localmail.SearchRequest
import Localmail.StripText

namespace Localmail

inductive IpAddress where
  | v4 (value : BitVec 32)
  | v6 (value : BitVec 128) (scope : Option Text)
deriving Repr, DecidableEq

inductive IpNetwork where
  | v4 (network netmask : BitVec 32)
  | v6 (network netmask : BitVec 128)
deriving Repr, DecidableEq

/-- `address in network`; a network has no address of the other version. -/
def IpNetwork.contains : IpNetwork → IpAddress → Bool
  | .v4 network netmask, .v4 value => value &&& netmask = network
  | .v6 network netmask, .v6 value _ => value &&& netmask = network
  | _, _ => false

/-- What the standard library decides about a text: `ipaddress.ip_address`, the
canonical text of an address, and `str.isdigit` of a code point. -/
structure AddressRules where
  ipAddress : Text → Option IpAddress
  str : IpAddress → Text
  isDigit : CodePoint → Bool

section Resolver

variable (rules : AddressRules)

/-- `[address]:port` without brackets and port, and `address:port` without the
port. -/
def withoutPort (entry : Text) : Option Text :=
  match entry with
  | .scalar '[' :: rest =>
      if .scalar ']' ∈ rest then some (rest.takeWhile (· ≠ .scalar ']'))
      else none
  | _ =>
      if entry.count (.scalar ':') = 1 then
        match rpartitionColon entry with
        | some (host, port) =>
            if port ≠ [] ∧ port.all rules.isDigit ∧ host ≠ [] then some host
            else some entry
        | none => some entry
      else some entry

/-- `_normalise_xff_entry`: also without a zone. -/
def normaliseXffEntry (raw : Text) : Option Text :=
  if strip raw = [] then none
  else do
    let host ← withoutPort rules (strip raw)
    let address := host.takeWhile (· ≠ .scalar '%')
    if address = [] then none else some address

def inTrusted (trusted : List IpNetwork) (address : IpAddress) : Bool :=
  trusted.any fun network => network.contains address

/-- The entries of a header that are not blank. -/
def xffEntries (header : Text) : List Text :=
  ((header.splitOn (.scalar ',')).map strip).filter fun entry => entry ≠ []

/-- The address an entry names. -/
def entryAddress (raw : Text) : Option IpAddress :=
  (normaliseXffEntry rules raw).bind rules.ipAddress

/-- The walk over the entries, the rightmost first. -/
def walkEntries (trusted : List IpNetwork) (maxHops : Nat) (peer : Text) :
    Nat → List Text → Text
  | _, [] => peer
  | walked, raw :: rest =>
      if maxHops ≤ walked then peer
      else
        match entryAddress rules raw with
        | none => peer
        | some address =>
            if inTrusted trusted address then
              walkEntries trusted maxHops peer (walked + 1) rest
            else rules.str address

/-- The socket peer is a trusted proxy. -/
def peerTrusted (trusted : List IpNetwork) (peer : Text) : Bool :=
  (rules.ipAddress peer).any (inTrusted trusted)

/-- `resolve_client_ip`. -/
def resolveClientIp (trusted : List IpNetwork) (maxHops : Nat)
    (socketPeer xffHeader : Option Text) : Option Text :=
  match socketPeer with
  | none => none
  | some peer =>
      if trusted = [] then some peer
      else if peerTrusted rules trusted peer then
        match xffHeader with
        | none => some peer
        | some header =>
            some (walkEntries rules trusted maxHops peer 0
              (xffEntries header).reverse)
      else some peer

/-! ### The walk -/

variable {rules} {trusted : List IpNetwork} {maxHops walked : Nat} {peer : Text}

/-- An entry is the address of a trusted proxy. -/
def IsProxy (rules : AddressRules) (trusted : List IpNetwork) (raw : Text) :
    Prop :=
  ∃ address, entryAddress rules raw = some address ∧
    inTrusted trusted address = true

/-- Trusted proxies are passed, and the first other address is the client. -/
theorem walkEntries_client {proxies : List Text} {entry : Text}
    {address : IpAddress} (rest : List Text)
    (hproxies : ∀ proxy ∈ proxies, IsProxy rules trusted proxy)
    (haddress : entryAddress rules entry = some address)
    (huntrusted : inTrusted trusted address = false)
    (hhops : walked + proxies.length < maxHops) :
    walkEntries rules trusted maxHops peer walked
      (proxies ++ entry :: rest) = rules.str address := by
  induction proxies generalizing walked with
  | nil =>
      have hwalked : ¬maxHops ≤ walked := Nat.not_le_of_lt hhops
      simp [walkEntries, hwalked, haddress, huntrusted]
  | cons proxy proxies ih =>
      obtain ⟨given, hgiven, htrusted⟩ := hproxies proxy List.mem_cons_self
      have hlater := ih (fun other hother =>
        hproxies other (List.mem_cons_of_mem _ hother))
        (by rw [List.length_cons] at hhops; omega : walked + 1 + _ < maxHops)
      have hwalked : ¬maxHops ≤ walked := by omega
      simp [walkEntries, hwalked, hgiven, htrusted, hlater]

/-- A walk ends at the peer, or at the first entry that is no trusted proxy. -/
theorem walkEntries_cases (entries : List Text) :
    walkEntries rules trusted maxHops peer walked entries = peer ∨
      ∃ proxies entry rest address, entries = proxies ++ entry :: rest ∧
        (∀ proxy ∈ proxies, IsProxy rules trusted proxy) ∧
        entryAddress rules entry = some address ∧
        inTrusted trusted address = false ∧
        walkEntries rules trusted maxHops peer walked entries =
          rules.str address := by
  induction entries generalizing walked with
  | nil => exact .inl rfl
  | cons raw rest ih =>
      by_cases hwalked : maxHops ≤ walked
      · left
        simp [walkEntries, hwalked]
      · cases haddress : entryAddress rules raw with
        | none =>
            left
            simp [walkEntries, haddress]
        | some address =>
            cases htrusted : inTrusted trusted address with
            | false =>
                right
                refine ⟨[], raw, rest, address, rfl, nofun, haddress, htrusted,
                  ?_⟩
                simp [walkEntries, hwalked, haddress, htrusted]
            | true =>
                have hstep : walkEntries rules trusted maxHops peer walked
                    (raw :: rest) = walkEntries rules trusted maxHops peer
                      (walked + 1) rest := by
                  simp [walkEntries, hwalked, haddress, htrusted]
                rcases @ih (walked + 1) with hpeer |
                  ⟨proxies, entry, others, given, rfl, hproxies, hgiven⟩
                · left
                  rw [hstep, hpeer]
                · right
                  refine ⟨raw :: proxies, entry, others, given, rfl, ?_, ?_⟩
                  · intro proxy hproxy
                    rcases List.mem_cons.mp hproxy with rfl | hlater
                    · exact ⟨address, haddress, htrusted⟩
                    · exact hproxies proxy hlater
                  · rw [hstep]
                    exact hgiven

/-- What is put before a header comes before its entries. -/
theorem xffEntries_append (before header : Text) :
    xffEntries (before ++ .scalar ',' :: header) =
      xffEntries before ++ xffEntries header := by
  simp [xffEntries, List.splitOn_append_cons_self]

end Resolver

section Resolved

variable {rules : AddressRules} {trusted : List IpNetwork} {maxHops : Nat}
  {peer : Text}

theorem resolveClientIp_untrusted
    (htrusted : peerTrusted rules trusted peer = false)
    (header : Option Text) :
    resolveClientIp rules trusted maxHops (some peer) header = some peer := by
  simp [resolveClientIp, htrusted]

theorem resolveClientIp_trusted (htrusted : peerTrusted rules trusted peer = true)
    (header : Text) :
    resolveClientIp rules trusted maxHops (some peer) (some header) =
      some (walkEntries rules trusted maxHops peer 0
        (xffEntries header).reverse) := by
  have hsome : trusted ≠ [] := by
    rintro rfl
    cases haddress : rules.ipAddress peer <;>
      simp [peerTrusted, inTrusted, haddress] at htrusted
  simp [resolveClientIp, htrusted, hsome]

theorem reverse_split {entries before proxies : List Text} {entry : Text}
    (hentries : entries = before ++ entry :: proxies) :
    entries.reverse = proxies.reverse ++ entry :: before.reverse := by
  rw [hentries]
  simp

/-- Behind trusted proxies the client's entry decides alone. -/
theorem resolveClientIp_client
    (htrusted : peerTrusted rules trusted peer = true) {header : Text}
    {before proxies : List Text} {entry : Text} {address : IpAddress}
    (hentries : xffEntries header = before ++ entry :: proxies)
    (hproxies : ∀ proxy ∈ proxies, IsProxy rules trusted proxy)
    (haddress : entryAddress rules entry = some address)
    (huntrusted : inTrusted trusted address = false)
    (hhops : proxies.length + 1 ≤ maxHops) :
    resolveClientIp rules trusted maxHops (some peer) (some header) =
      some (rules.str address) := by
  rw [resolveClientIp_trusted htrusted, reverse_split hentries,
    walkEntries_client _ _ haddress huntrusted]
  · rw [List.length_reverse]
    omega
  · intro proxy hproxy
    exact hproxies proxy (List.mem_reverse.mp hproxy)

end Resolved

/-- The client address does not depend on the header of an untrusted peer.
Behind at most `maxHops` trusted entries it is the entry left of them, whatever
stands before it, and in every case it is the peer or the rightmost entry that
is no trusted proxy. -/
theorem client_ip_not_chosen (rules : AddressRules) (trusted : List IpNetwork)
    (maxHops : Nat) (socketPeer : Option Text) :
    (socketPeer.any (peerTrusted rules trusted) = false →
      ∀ header other,
        resolveClientIp rules trusted maxHops socketPeer header =
          resolveClientIp rules trusted maxHops socketPeer other) ∧
    (socketPeer.any (peerTrusted rules trusted) = true →
      ∀ header before entry proxies address,
        xffEntries header = before ++ entry :: proxies →
        (∀ proxy ∈ proxies, IsProxy rules trusted proxy) →
        entryAddress rules entry = some address →
        inTrusted trusted address = false → proxies.length + 1 ≤ maxHops →
        resolveClientIp rules trusted maxHops socketPeer (some header) =
            some (rules.str address) ∧
          ∀ attacker, resolveClientIp rules trusted maxHops socketPeer
              (some (attacker ++ .scalar ',' :: header)) =
            some (rules.str address)) ∧
    ∀ header,
      resolveClientIp rules trusted maxHops socketPeer header = socketPeer ∨
        ∃ given ∈ header, ∃ before entry proxies address,
          xffEntries given = before ++ entry :: proxies ∧
          (∀ proxy ∈ proxies, IsProxy rules trusted proxy) ∧
          entryAddress rules entry = some address ∧
          inTrusted trusted address = false ∧
          resolveClientIp rules trusted maxHops socketPeer header =
            some (rules.str address) := by
  cases socketPeer with
  | none => exact ⟨fun _ _ _ => rfl, nofun, fun _ => .inl rfl⟩
  | some peer =>
      refine ⟨?_, ?_, ?_⟩
      · intro htrusted header other
        rw [resolveClientIp_untrusted htrusted,
          resolveClientIp_untrusted htrusted]
      · intro htrusted header before entry proxies address hentries hproxies
          haddress huntrusted hhops
        refine ⟨resolveClientIp_client htrusted hentries hproxies haddress
          huntrusted hhops, ?_⟩
        intro attacker
        have hlonger : xffEntries (attacker ++ .scalar ',' :: header) =
            (xffEntries attacker ++ before) ++ entry :: proxies := by
          rw [xffEntries_append, hentries, List.append_assoc]
        exact resolveClientIp_client htrusted hlonger hproxies haddress
          huntrusted hhops
      · intro header
        cases htrusted : peerTrusted rules trusted peer with
        | false => exact .inl (resolveClientIp_untrusted htrusted header)
        | true =>
            cases header with
            | none =>
                left
                simp [resolveClientIp, htrusted]
            | some given =>
                rw [resolveClientIp_trusted htrusted]
                rcases @walkEntries_cases rules trusted maxHops 0 peer
                    (xffEntries given).reverse with hpeer |
                  ⟨proxies, entry, rest, address, hentries, hproxies,
                    haddress, huntrusted, hclient⟩
                · left
                  rw [hpeer]
                · right
                  refine ⟨given, rfl, rest.reverse, entry, proxies.reverse,
                    address, ?_, ?_, haddress, huntrusted, congrArg some hclient⟩
                  · rw [← List.reverse_reverse (xffEntries given)]
                    exact reverse_split hentries
                  · intro proxy hproxy
                    exact hproxies proxy (List.mem_reverse.mp hproxy)

namespace ClientIpWitness

/-- Two addresses, the second of which is a proxy's. -/
def rules : AddressRules where
  ipAddress := fun value =>
    if value = text "1.2.3.4" then some (.v4 0x01020304)
    else if value = text "10.0.0.1" then some (.v4 0x0A000001) else none
  str := fun address =>
    if address = .v4 0x01020304 then text "1.2.3.4" else text "10.0.0.1"
  isDigit := CodePoint.isAsciiDigit

def proxies : List IpNetwork :=
  [.v4 0x0A000000 0xFF000000]

end ClientIpWitness

open ClientIpWitness in
theorem client_ip_not_chosen_proxied :
    resolveClientIp rules proxies 2 (some (text "10.0.0.1"))
        (some (text "6.6.6.6" ++
          .scalar ',' :: text " 1.2.3.4:80, 10.0.0.1")) =
      some (text "1.2.3.4") := by
  have hclient := (client_ip_not_chosen rules proxies 2
    (some (text "10.0.0.1"))).2.1 (by decide) (text " 1.2.3.4:80, 10.0.0.1") []
    (text "1.2.3.4:80") [text "10.0.0.1"] (.v4 0x01020304) (by decide)
    (by
      intro proxy hproxy
      obtain rfl := List.mem_singleton.mp hproxy
      exact ⟨.v4 0x0A000001, by decide, by decide⟩)
    (by decide) (by decide) (by decide)
  exact hclient.2 (text "6.6.6.6")

end Localmail
