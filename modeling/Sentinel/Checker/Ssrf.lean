import Sentinel.Library.IpText

/-!
# Checker — Ssrf

The network guard of the probe (`internal/checker/ssrf.go`): the port list, the address filter
`isIPBlocked`, the target check `validateTargetURL`, and the `DialContext` hook through which
the HTTP transport opens every connection.

`dialContext` takes the resolver's answers as an argument of each call, so a resolver may
answer differently every time it is asked. What it hands to the base dialer, if anything, is its
result; `baseCalls` collects these over a sequence of addresses the transport asks for, which is
how an initial request and its redirects look from here.
-/

namespace Sentinel.Checker

open IpText

/-- The text of an address, a host or a port. -/
abbrev Text := List Char

/-! ### Ports -/

/-- White space as `unicode.IsSpace` has it. -/
def isSpace (c : Char) : Bool :=
  c.toNat ∈ [9, 10, 11, 12, 13, 32, 0x85, 0xa0, 0x1680, 0x2028, 0x2029, 0x202f, 0x205f, 0x3000] ||
    (0x2000 ≤ c.toNat && c.toNat ≤ 0x200a)

/-- Drops the characters of a set at both ends. -/
def trim (p : Char → Bool) (s : Text) : Text := ((s.dropWhile p).reverse.dropWhile p).reverse

/-- `strings.TrimSpace`. -/
def trimSpace (s : Text) : Text := trim isSpace s

/-- The value of a non-empty run of decimal digits. -/
def digits (s : Text) : Option Nat :=
  if s = [] then none else s.foldlM (fun n c => (decVal c).map fun d => n * 10 + d) 0

/-- `strconv.Atoi` for 64-bit integers. -/
def atoi : Text → Option Int
  | '-' :: s => (digits s).bind fun n => if n ≤ 2 ^ 63 then some (-(n : Int)) else none
  | '+' :: s => (digits s).bind fun n => if n < 2 ^ 63 then some (n : Int) else none
  | s => (digits s).bind fun n => if n < 2 ^ 63 then some (n : Int) else none

def defaultPorts : List Int := [80, 443, 8080, 8443]

/-- One item of the list: a port, unless it is blank, no number or out of range. -/
def parsePort (item : Text) : Option Int :=
  match atoi (trimSpace item) with
  | some portNum => if 0 < portNum ∧ portNum ≤ 65535 then some portNum else none
  | none => none

/-- `ParseAllowedPorts`: the keys of the map it returns. -/
def parseAllowedPorts (raw : Text) : List Int :=
  if trimSpace raw = [] then defaultPorts
  else
    let ports := (raw.splitOn ',').filterMap parsePort
    if ports = [] then defaultPorts else ports

/-- Whatever the text, the ports are at least one and all of them ports. -/
theorem parseAllowedPorts_valid (raw : Text) :
    parseAllowedPorts raw ≠ [] ∧ ∀ p ∈ parseAllowedPorts raw, 0 < p ∧ p ≤ 65535 := by
  have hdef : defaultPorts ≠ [] ∧ ∀ p ∈ defaultPorts, 0 < p ∧ p ≤ 65535 := by decide
  unfold parseAllowedPorts
  split
  · exact hdef
  · simp only
    split
    · exact hdef
    · rename_i hne
      refine ⟨hne, fun p hp => ?_⟩
      obtain ⟨item, -, hitem⟩ := List.mem_filterMap.mp hp
      unfold parsePort at hitem
      split at hitem
      · split at hitem
        · rename_i hrange
          cases hitem
          exact hrange
        · cases hitem
      · cases hitem

/-! ### Blocked addresses -/

/-- A network: its number and the length of its prefix. -/
structure IPNet where
  number : List UInt8
  ones : Nat
deriving DecidableEq, Repr

/-- The `i`-th byte of a mask of `ones` bits. -/
def maskByte (ones i : Nat) : UInt8 := UInt8.ofNat (256 - 2 ^ (8 - min 8 (ones - 8 * i)))

/-- `IPNet.Contains`, on the bytes of an address that is already unwrapped. -/
def IPNet.contains (n : IPNet) (ip : List UInt8) : Bool :=
  ip.length = n.number.length &&
    (n.number.zip ip).zipIdx.all fun x =>
      x.1.1 &&& maskByte n.ones x.2 == x.1.2 &&& maskByte n.ones x.2

def defaultBlockedIPv4CIDRs : List IPNet :=
  [⟨[0, 0, 0, 0], 8⟩, ⟨[10, 0, 0, 0], 8⟩, ⟨[100, 64, 0, 0], 10⟩, ⟨[127, 0, 0, 0], 8⟩,
    ⟨[169, 254, 0, 0], 16⟩, ⟨[172, 16, 0, 0], 12⟩, ⟨[192, 168, 0, 0], 16⟩, ⟨[224, 0, 0, 0], 4⟩,
    ⟨[240, 0, 0, 0], 4⟩]

def defaultBlockedIPv6CIDRs : List IPNet :=
  [⟨List.replicate 16 0, 128⟩, ⟨List.replicate 15 0 ++ [1], 128⟩,
    ⟨0xfc :: List.replicate 15 0, 7⟩, ⟨0xfe :: 0x80 :: List.replicate 14 0, 10⟩,
    ⟨0xff :: List.replicate 15 0, 8⟩]

/-- The `i`-th byte. -/
def byte (bs : List UInt8) (i : Nat) : UInt8 := bs.getD i 0

def isLoopback (ip : IP) : Bool :=
  match ip.to4 with
  | some ip4 => byte ip4 0 == 127
  | none => ip.bytes == List.replicate 15 0 ++ [1]

def isPrivate (ip : IP) : Bool :=
  match ip.to4 with
  | some ip4 =>
      byte ip4 0 == 10 || (byte ip4 0 == 172 && byte ip4 1 &&& 0xf0 == 16) ||
        (byte ip4 0 == 192 && byte ip4 1 == 168)
  | none => byte ip.bytes 0 &&& 0xfe == 0xfc

def isLinkLocalUnicast (ip : IP) : Bool :=
  match ip.to4 with
  | some ip4 => byte ip4 0 == 169 && byte ip4 1 == 254
  | none => byte ip.bytes 0 == 0xfe && byte ip.bytes 1 &&& 0xc0 == 0x80

def isLinkLocalMulticast (ip : IP) : Bool :=
  match ip.to4 with
  | some ip4 => byte ip4 0 == 224 && byte ip4 1 == 0 && byte ip4 2 == 0
  | none => byte ip.bytes 0 == 0xff && byte ip.bytes 1 &&& 0x0f == 0x02

def isMulticast (ip : IP) : Bool :=
  match ip.to4 with
  | some ip4 => byte ip4 0 &&& 0xf0 == 0xe0
  | none => byte ip.bytes 0 == 0xff

def isUnspecified (ip : IP) : Bool :=
  match ip.to4 with
  | some ip4 => ip4 == List.replicate 4 0
  | none => ip.bytes == List.replicate 16 0

/-- The second line of `IsIPBlocked`: the predicates of the `net` package. -/
def isReserved (ip : IP) : Bool :=
  isLoopback ip || isPrivate ip || isLinkLocalUnicast ip || isLinkLocalMulticast ip ||
    isMulticast ip || isUnspecified ip

/-- `IsIPBlocked`; `none` is the nil address. -/
def isIPBlocked : Option IP → Bool
  | none => true
  | some ip =>
      match h : ip.to4 with
      | some ipv4 =>
          defaultBlockedIPv4CIDRs.any (·.contains ipv4) ||
            isReserved (IP.of4 ipv4 (IP.to4_length h))
      | none => defaultBlockedIPv6CIDRs.any (·.contains ip.bytes) || isReserved ip

theorem isIPBlocked_v4 {ip : IP} {ipv4 : List UInt8} (h : ip.to4 = some ipv4) :
    isIPBlocked (some ip) = (defaultBlockedIPv4CIDRs.any (·.contains ipv4) ||
      isReserved (IP.of4 ipv4 (IP.to4_length h))) := by
  rw [isIPBlocked]
  split
  · rename_i b hb
    cases h.symm.trans hb
    rfl
  · rename_i hn
    cases h.symm.trans hn

/-- The filter gives the same answer for the 16-byte form of an address. -/
theorem isIPBlocked_of16 (ip : IP) :
    isIPBlocked (some (IP.of16 ip.to16 ip.length_to16)) = isIPBlocked (some ip) := by
  cases h : ip.to4 with
  | some ipv4 => rw [isIPBlocked_v4 h, isIPBlocked_v4 ((IP.to4_of16 ip).trans h)]
  | none =>
      have hbytes : ip.to16 = ip.bytes := by
        rw [IP.to16, if_neg]
        intro hl
        simp [IP.to4, hl] at h
      have hip : IP.of16 ip.to16 ip.length_to16 = ip := by
        cases ip
        simp only [IP.of16, hbytes]
      rw [hip]

/-! ### Targets -/

/-- What `url.Parse` returns, as far as the guard reads it. -/
structure Url where
  scheme : Text
  host : Text
deriving DecidableEq, Repr

/-- The errors of the guard. -/
inductive SsrfError where
  | invalidURL (e : String)
  | disallowedScheme
  | emptyHost
  | disallowedPort (port : Int)
  | invalidAddress (addr : Text) (e : AddrError)
  | invalidPort (port : Text)
  | blockedIP (ip : IP)
  | resolution (host : Text) (e : String)
  | noIPResolved (host : Text)
  | blockedHost (host : Text) (ip : Option IP)
deriving DecidableEq, Repr

/-- `net.IP.String`, of an address that may be nil. -/
def ipString : Option IP → String
  | none => "<nil>"
  | some ip => String.ofList ip.text

def SsrfError.message : SsrfError → String
  | invalidURL e => "invalid URL: " ++ e
  | disallowedScheme => "ssrf: only http and https schemes are allowed"
  | emptyHost => "ssrf: URL host is empty"
  | disallowedPort port => "ssrf: target port is not allowed: " ++ toString port
  | invalidAddress addr e =>
      "ssrf: invalid target address: address " ++ String.ofList addr ++ ": " ++ e.reason
  | invalidPort port => "ssrf: invalid target port: strconv.Atoi: parsing " ++ String.ofList port
  | blockedIP ip => "ssrf: target IP address is blocked: " ++ String.ofList ip.text
  | resolution host e => "ssrf: DNS resolution failed for " ++ String.ofList host ++ ": " ++ e
  | noIPResolved host => "ssrf: no IP addresses resolved for host for " ++ String.ofList host
  | blockedHost host ip =>
      "ssrf: target IP address is blocked: host " ++ String.ofList host ++
        " resolved to blocked IP " ++ ipString ip

/-- The port a target names, or its scheme's. -/
def targetPort (u : Url) : Int :=
  let port := if u.scheme.map Char.toLower = "https".toList then 443 else 80
  if ':' ∈ u.host then
    match splitHostPort u.host with
    | .ok (_, p) => (atoi p).getD port
    | .error _ => port
  else port

/-- `ValidateTargetURL`. The parser of URLs is a parameter. -/
def validateTargetURL (urlParse : String → Except String Url) (rawURL : String)
    (allowedPorts : Option (Int → Bool)) : Except SsrfError Url := do
  let u ← (urlParse rawURL).mapError .invalidURL
  let scheme := u.scheme.map Char.toLower
  if scheme ≠ "http".toList ∧ scheme ≠ "https".toList then throw .disallowedScheme
  if u.host = [] then throw .emptyHost
  if allowedPorts.any fun ports => !ports (targetPort u) then throw (.disallowedPort (targetPort u))
  return u

/-! ### Dialing -/

/-- The settings of the transport that decide what is dialed. -/
structure SafeTransportConfig where
  allowedPorts : Option (Int → Bool)

/-- The ports in force: `NewSafeHTTPClient` puts the default list in place of a nil map. -/
def SafeTransportConfig.ports (cfg : SafeTransportConfig) : Int → Bool :=
  cfg.allowedPorts.getD fun port => (parseAllowedPorts []).contains port

/-- A resolver as it answers one call: the addresses of a host on a network. -/
abbrev Resolver := String → Text → Except String (List (Option IP))

def isBracket (c : Char) : Bool := c = '[' || c = ']'

/-- The branch for a host name: the first of its addresses, when none of them is blocked. -/
def pinResolved (lookupIP : Resolver) (host : Text) : Except SsrfError (Option IP) :=
  match lookupIP "ip" host with
  | .error e => .error (.resolution host e)
  | .ok [] => .error (.noIPResolved host)
  | .ok (pinnedIP :: ips) =>
      match (pinnedIP :: ips).find? fun ip => isIPBlocked ip with
      | some ip => .error (.blockedHost host ip)
      | none => .ok pinnedIP

/-- The `DialContext` of `NewSafeHTTPClient`: an error, or the network and address it hands to
the base dialer, whose result it then returns. -/
def dialContext (cfg : SafeTransportConfig) (lookupIP : Resolver) (network : String)
    (addr : Text) : Except SsrfError (String × Text) :=
  match splitHostPort addr with
  | .error e => .error (.invalidAddress addr e)
  | .ok (host, portStr) =>
      match atoi portStr with
      | none => .error (.invalidPort portStr)
      | some port =>
          if cfg.ports port = false then .error (.disallowedPort port)
          else
            match parseIP (trim isBracket host) with
            | some parsedIP =>
                -- the host is an address already
                if isIPBlocked (some parsedIP) then .error (.blockedIP parsedIP)
                else .ok (network, joinHostPort parsedIP.text portStr)
            | none =>
                match pinResolved lookupIP host with
                | .error e => .error e
                | .ok pinnedIP => .ok (network, joinHostPort (ipString pinnedIP).toList portStr)

/-- What is pinned for a host name is the first answer, and no answer is blocked. -/
theorem pinResolved_ok {lookupIP : Resolver} {host : Text} {pinned : Option IP}
    (h : pinResolved lookupIP host = .ok pinned) :
    ∃ ip ips, pinned = some ip ∧ lookupIP "ip" host = .ok (some ip :: ips) ∧
      ∀ x ∈ some ip :: ips, isIPBlocked x = false := by
  unfold pinResolved at h
  split at h
  · cases h
  · cases h
  · rename_i first ips hlookup
    split at h
    · cases h
    · rename_i hfind
      obtain rfl : first = pinned := by simpa using h
      have hall : ∀ x ∈ first :: ips, isIPBlocked x = false := by
        intro x hx
        simpa using List.find?_eq_none.mp hfind x hx
      cases first with
      | none => exact absurd (hall none List.mem_cons_self) (by simp [isIPBlocked])
      | some ip => exact ⟨ip, ips, rfl, hlookup, hall⟩

/-- `ip` is the address the guard validated for a host: the host itself, or the first of its
resolved addresses, of which none is blocked. -/
def Validated (lookupIP : Resolver) (host : Text) (ip : IP) : Prop :=
  (parseIP (trim isBracket host) = some ip ∧ isIPBlocked (some ip) = false) ∨
    (parseIP (trim isBracket host) = none ∧ ∃ ips, lookupIP "ip" host = .ok (some ip :: ips) ∧
      ∀ x ∈ some ip :: ips, isIPBlocked x = false)

theorem Validated.unblocked {lookupIP : Resolver} {host : Text} {ip : IP}
    (h : Validated lookupIP host ip) : isIPBlocked (some ip) = false := by
  rcases h with ⟨-, h⟩ | ⟨-, ips, -, h⟩
  · exact h
  · exact h _ List.mem_cons_self

/-- All that `dialContext` hands to the base dialer: a validated address and an allowed port. -/
theorem dialContext_ok {cfg : SafeTransportConfig} {lookupIP : Resolver} {network : String}
    {addr : Text} {call : String × Text} (h : dialContext cfg lookupIP network addr = .ok call) :
    ∃ host portStr port ip, splitHostPort addr = .ok (host, portStr) ∧
      atoi portStr = some port ∧ cfg.ports port = true ∧ Validated lookupIP host ip ∧
      call = (network, joinHostPort ip.text portStr) := by
  unfold dialContext at h
  split at h
  · cases h
  · rename_i host portStr hsplit
    split at h
    · cases h
    · rename_i port hatoi
      by_cases hport : cfg.ports port = false
      · rw [if_pos hport] at h
        cases h
      · rw [if_neg hport] at h
        have hallowed : cfg.ports port = true := by simpa using hport
        split at h
        · rename_i ip hip
          by_cases hb : isIPBlocked (some ip) = true
          · rw [if_pos hb] at h
            cases h
          · rw [if_neg hb] at h
            exact ⟨host, portStr, port, ip, hsplit, hatoi, hallowed, .inl ⟨hip, by simpa using hb⟩,
              (Except.ok.inj h).symm⟩
        · rename_i hip
          split at h
          · cases h
          · rename_i pinned hpin
            obtain ⟨ip, ips, rfl, hlookup, hall⟩ := pinResolved_ok hpin
            refine ⟨host, portStr, port, ip, hsplit, hatoi, hallowed,
              .inr ⟨hip, ips, hlookup, hall⟩, ?_⟩
            simpa [ipString] using (Except.ok.inj h).symm

/-- A host is refused whatever its port: it is a blocked address, or a name that does not
resolve, resolves to nothing, or has a blocked address among its answers. -/
def Refused (lookupIP : Resolver) (host : Text) : Prop :=
  match parseIP (trim isBracket host) with
  | some ip => isIPBlocked (some ip) = true
  | none =>
      match lookupIP "ip" host with
      | .error _ => True
      | .ok ips => ips = [] ∨ ∃ ip ∈ ips, isIPBlocked ip = true

theorem not_refused {lookupIP : Resolver} {host : Text} {ip : IP}
    (h : Validated lookupIP host ip) : ¬ Refused lookupIP host := by
  rcases h with ⟨hip, hb⟩ | ⟨hip, ips, hlookup, hall⟩
  · simp [Refused, hip, hb]
  · simp only [Refused, hip, hlookup, not_or, not_exists, not_and]
    exact ⟨List.cons_ne_nil _ _, fun x hx => by simp [hall x hx]⟩

/-! ### The calls of the base dialer -/

/-- One address the transport asks for, with the resolver as it is at that moment. -/
structure Ask where
  network : String
  addr : Text
  lookupIP : Resolver

/-- What the base dialer is handed for one address. -/
def Ask.baseCall (cfg : SafeTransportConfig) (ask : Ask) : Option (String × Text) :=
  (dialContext cfg ask.lookupIP ask.network ask.addr).toOption

/-- The calls of the base dialer over a sequence of addresses. -/
def baseCalls (cfg : SafeTransportConfig) (asks : List Ask) : List (String × Text) :=
  asks.filterMap (Ask.baseCall cfg)

/-- `addr` is an address literal and a port, both let through. -/
def Pinned (cfg : SafeTransportConfig) (addr : Text) : Prop :=
  ∃ (host portStr : Text) (ip : IP) (port : Int), addr = joinHostPort host portStr ∧
    splitHostPort addr = .ok (host, portStr) ∧ parseIP host = some ip ∧
      isIPBlocked (some ip) = false ∧ atoi portStr = some port ∧ cfg.ports port = true

/-- `call` dials, on the network of `ask`, the address validated for its host. -/
def Ask.Dialed (cfg : SafeTransportConfig) (ask : Ask) (call : String × Text) : Prop :=
  ∃ host portStr port ip, splitHostPort ask.addr = .ok (host, portStr) ∧
    atoi portStr = some port ∧ cfg.ports port = true ∧ Validated ask.lookupIP host ip ∧
      call = (ask.network, joinHostPort ip.text portStr)

theorem Ask.dialed {cfg : SafeTransportConfig} {ask : Ask} {call : String × Text}
    (h : ask.baseCall cfg = some call) : ask.Dialed cfg call := by
  rw [Ask.baseCall] at h
  cases hd : dialContext cfg ask.lookupIP ask.network ask.addr with
  | error e => rw [hd] at h; cases h
  | ok c =>
      rw [hd] at h
      exact dialContext_ok (hd.trans (congrArg Except.ok (Option.some.inj h)))

/-- A dialed address is an unblocked literal with an allowed port, and reads back as such. -/
theorem Ask.Dialed.pinned {cfg : SafeTransportConfig} {ask : Ask} {call : String × Text}
    (h : ask.Dialed cfg call) : Pinned cfg call.2 := by
  obtain ⟨host, portStr, port, ip, hsplit, hatoi, hport, hvalid, rfl⟩ := h
  obtain ⟨hc, hl, hr⟩ := splitHostPort_port hsplit
  obtain ⟨hnl, hnr⟩ := text_no_brackets ip
  refine ⟨ip.text, portStr, IP.of16 ip.to16 ip.length_to16, port, rfl, split_join hnl hnr hc hl hr,
    parseIP_text ip, ?_, hatoi, hport⟩
  rw [isIPBlocked_of16]
  exact hvalid.unblocked

/-- **The probe dials only pinned addresses**: over every sequence of addresses the transport
asks for, each with answers of its own, every call of the base dialer is an address literal that
is not blocked with a port that is allowed, and it is the address validated for the host asked
for. For a host that is refused nothing is dialed. -/
theorem baseCalls_pinned (cfg : SafeTransportConfig) (asks : List Ask) :
    (∀ call ∈ baseCalls cfg asks, Pinned cfg call.2 ∧ ∃ ask ∈ asks, ask.Dialed cfg call) ∧
      ∀ ask ∈ asks, ∀ host portStr, splitHostPort ask.addr = .ok (host, portStr) →
        Refused ask.lookupIP host → ask.baseCall cfg = none := by
  refine ⟨fun call hcall => ?_, fun ask _ host portStr hsplit href => ?_⟩
  · obtain ⟨ask, hask, hbase⟩ := List.mem_filterMap.mp hcall
    have hdialed := Ask.dialed hbase
    exact ⟨hdialed.pinned, ask, hask, hdialed⟩
  · cases hbase : ask.baseCall cfg with
    | none => rfl
    | some call =>
        obtain ⟨host', portStr', port, ip, hsplit', -, -, hvalid, -⟩ := Ask.dialed hbase
        obtain ⟨rfl, rfl⟩ : host' = host ∧ portStr' = portStr := by
          simpa [hsplit'] using hsplit
        exact absurd href (not_refused hvalid)

end Sentinel.Checker
