import Sentinel.Api.Target
import Sentinel.Library.IpText

/-!
# Api — Hosts

Which hosts `IsValidTargetConstraint.validate` refuses, of those that a parsed URL can have.

* `Host`: an IPv4 address, an IPv6 address or a domain name, each with the text that the parser of
  URLs writes for it.
* `Host.Local`: the hosts that are local or private.
* `validateTarget_iff`: the API refuses exactly these, but for names that begin like an address and
  for IPv4 addresses in the form of IPv6.
-/

namespace Sentinel.Api

open IpText

/-! ### Hosts -/

/-- The eight groups of an IPv6 address. -/
structure Groups where
  toList : List Nat
  length_eq : toList.length = 8
  lt : ∀ g ∈ toList, g < 65536

/-- A text in lower case without the marks of an IPv6 address. -/
def isDomainText (s : List Char) : Bool :=
  s ≠ [] && s.all fun c => c.toLower = c && c ≠ ':' && c ≠ '[' && c ≠ ']'

/-- A domain name as the parser leaves it. -/
structure DomainName where
  toList : List Char
  valid : isDomainText toList = true

inductive Host where
  | ipv4 (a b c d : UInt8)
  | ipv6 (groups : Groups)
  | domain (name : DomainName)

/-- The text of a host in brackets, if it is in brackets. -/
def Host.bare : Host → List Char
  | .ipv4 a b c d => dotted [a.toNat, b.toNat, c.toNat, d.toNat]
  | .ipv6 groups => textV6 groups.toList
  | .domain name => name.toList

/-- The `hostname` of a URL. -/
def Host.text : Host → List Char
  | .ipv6 groups => '[' :: (textV6 groups.toList ++ [']'])
  | host => host.bare

/-- An IPv4 address as a number. -/
def ipv4Number (a b c d : Nat) : Nat := ((a * 256 + b) * 256 + c) * 256 + d

/-- The networks of local and private addresses, with the lengths of their prefixes. -/
def localNetworks : List (Nat × Nat) :=
  [(ipv4Number 0 0 0 0, 8), (ipv4Number 10 0 0 0, 8), (ipv4Number 127 0 0 0, 8),
    (ipv4Number 169 254 0 0, 16), (ipv4Number 172 16 0 0, 12), (ipv4Number 192 168 0 0, 16)]

/-- A number with the prefix of one of the networks. -/
def isLocalNumber (n : Nat) : Bool :=
  localNetworks.any fun net => n / 2 ^ (32 - net.2) = net.1 / 2 ^ (32 - net.2)

def localNames : List String :=
  ["localhost", "db", "postgres", "redis", "api", "worker", "frontend", "sentinel_db"]

/-- An IPv4 address in the form of IPv6, `::ffff:0:0/96`. -/
def Groups.Maps (groups : Groups) (n : Nat) : Prop :=
  ∃ high low, groups.toList = [0, 0, 0, 0, 0, 0xffff, high, low] ∧ n = high * 65536 + low

/-- The hosts that are to be refused. -/
def Host.Local : Host → Prop
  | .ipv4 a b c d => isLocalNumber (ipv4Number a.toNat b.toNat c.toNat d.toNat) = true
  | .ipv6 groups => groups.toList = [0, 0, 0, 0, 0, 0, 0, 0] ∨
      groups.toList = [0, 0, 0, 0, 0, 0, 0, 1] ∨ ∃ n, groups.Maps n ∧ isLocalNumber n = true
  | .domain name => String.ofList name.toList ∈ localNames

/-! ### What is refused -/

/-- A text that begins like a local address. -/
def beginsLocal (hostname : List Char) : Bool :=
  (blockedPrefixes.any fun p => p.toList.isPrefixOf hostname) ||
    (match172 hostname).any fun secondOctet => 16 ≤ secondOctet && secondOctet ≤ 31

/-- The hosts that are refused and should not be, or should be and are not. -/
def Host.Misjudged : Host → Prop
  | .ipv4 .. => False
  | .ipv6 groups => ∃ n, groups.Maps n ∧ isLocalNumber n = true
  | .domain name => beginsLocal name.toList = true

/-- The first two bytes of a local address, in the order in which they are looked for. -/
def LocalBytes (a b : Nat) : Prop :=
  (a = 127 ∨ a = 10 ∨ a = 192 ∧ b = 168 ∨ a = 169 ∧ b = 254 ∨ a = 0) ∨ a = 172 ∧ 16 ≤ b ∧ b ≤ 31

theorem isLocalNumber_iff {a b c d : Nat} (hb : b < 256) (hc : c < 256) (hd : d < 256) :
    isLocalNumber (ipv4Number a b c d) = true ↔ LocalBytes a b := by
  have height : ∀ x, ipv4Number a b c d / 2 ^ (32 - 8) = ipv4Number x 0 0 0 / 2 ^ (32 - 8) ↔
      a = x := by
    intro x
    unfold ipv4Number
    omega
  have hsixteen : ∀ x y, y < 256 → (ipv4Number a b c d / 2 ^ (32 - 16) =
      ipv4Number x y 0 0 / 2 ^ (32 - 16) ↔ a = x ∧ b = y) := by
    intro x y hy
    unfold ipv4Number
    omega
  have htwelve : ipv4Number a b c d / 2 ^ (32 - 12) = ipv4Number 172 16 0 0 / 2 ^ (32 - 12) ↔
      a = 172 ∧ 16 ≤ b ∧ b ≤ 31 := by
    unfold ipv4Number
    omega
  simp only [isLocalNumber, localNetworks, List.any_cons, List.any_nil, Bool.or_false,
    Bool.or_eq_true, decide_eq_true_eq, height, htwelve, hsixteen 169 254 (by decide),
    hsixteen 192 168 (by decide)]
  unfold LocalBytes
  omega

theorem DomainName.ne_nil (name : DomainName) : name.toList ≠ [] :=
  of_decide_eq_true (Bool.and_eq_true_iff.mp name.valid).1

theorem DomainName.char (name : DomainName) :
    ∀ c ∈ name.toList, c.toLower = c ∧ c ≠ ':' ∧ c ≠ '[' ∧ c ≠ ']' := by
  intro c hc
  have hvalid := List.all_eq_true.mp (Bool.and_eq_true_iff.mp name.valid).2 c hc
  simpa [and_assoc] using hvalid

/-! ### Texts -/

section Texts

variable {s : List Char}

theorem stripBrackets_plain (h : ∀ c ∈ s, c ≠ '[' ∧ c ≠ ']') : stripBrackets s = s := by
  have hhead : s.head? ≠ some '[' := fun hc => (h _ (List.mem_of_head? hc)).1 rfl
  have hlast : s.getLast? ≠ some ']' := fun hc => (h _ (List.mem_of_getLast? hc)).2 rfl
  rw [stripBrackets, if_neg hhead]
  exact if_neg hlast

theorem stripBrackets_bracketed : stripBrackets ('[' :: (s ++ [']'])) = s := by
  simp [stripBrackets]

theorem map_toLower (h : ∀ c ∈ s, c.toLower = c) : s.map Char.toLower = s :=
  (List.map_congr_left h).trans (List.map_id s)

/-- The characters of an address are in lower case and are no brackets. -/
theorem address_char {c : Char} (h : c = '.' ∨ c = ':' ∨ ∃ d < 16, c = digitChar d) :
    c.toLower = c ∧ c ≠ '[' ∧ c ≠ ']' := by
  rcases h with rfl | rfl | ⟨d, hd, rfl⟩
  · decide
  · decide
  · interval_cases d <;> decide

end Texts

namespace Host

theorem bare_chars : ∀ host : Host, ∀ c ∈ host.bare, c.toLower = c ∧ c ≠ '[' ∧ c ≠ ']'
  | ipv4 a b c d, _, hc => by
      have hbytes := map_toNat_lt [a, b, c, d]
      exact address_char ((mem_dotted hbytes _ hc).imp_right .inr)
  | ipv6 groups, _, hc => address_char (.inr (mem_textV6 groups.lt _ hc))
  | domain name, c, hc => ⟨(name.char c hc).1, (name.char c hc).2.2⟩

theorem bare_ne_nil : ∀ host : Host, host.bare ≠ []
  | ipv4 .. => dotted_ne_nil (List.cons_ne_nil _ _)
  | ipv6 groups => List.ne_nil_of_mem (colon_mem_textV6 groups.length_eq)
  | domain name => name.ne_nil

/-- What is left of the `hostname` of a URL. -/
theorem stripBrackets_text (host : Host) :
    stripBrackets (host.text.map Char.toLower) = host.bare := by
  have hchars := host.bare_chars
  have hlower : host.bare.map Char.toLower = host.bare := map_toLower fun c hc => (hchars c hc).1
  cases host with
  | ipv4 | domain =>
      exact (congrArg stripBrackets hlower).trans (stripBrackets_plain fun c hc => (hchars c hc).2)
  | ipv6 groups =>
      show stripBrackets (Char.toLower '[' :: (textV6 groups.toList ++ [']']).map Char.toLower) = _
      rw [List.map_append, show (textV6 groups.toList).map Char.toLower = textV6 groups.toList from
        hlower]
      exact stripBrackets_bracketed

end Host

/-! ### Names -/

/-- What a text is refused for. -/
def refuses (hostname : List Char) : Bool :=
  String.ofList hostname ∈ blockedExact || beginsLocal hostname

/-- The answer for a URL that is parsed. -/
theorem validateTarget_parsed {rt : Runtime} {value : String} {parsed : WebUrl}
    (hvalue : isBlank value = false) (hparse : rt.parseURL value = some parsed)
    (hprotocol : parsed.protocol = "http:" ∨ parsed.protocol = "https:") {host : Host}
    (hhost : parsed.hostname = String.ofList host.text) :
    validateTarget rt (some (.str value)) = !refuses host.bare := by
  have hlower : ¬ (parsed.protocol.toList.map Char.toLower ≠ "http:".toList ∧
      parsed.protocol.toList.map Char.toLower ≠ "https:".toList) := by
    rcases hprotocol with h | h <;> rw [h] <;> decide
  have hstripped : stripBrackets (parsed.hostname.toList.map Char.toLower) = host.bare := by
    rw [hhost, String.toList_ofList]
    exact host.stripBrackets_text
  unfold validateTarget
  simp only [hvalue, Bool.false_eq_true, if_false, hparse, if_neg hlower, hstripped,
    if_neg host.bare_ne_nil]
  unfold refuses beginsLocal
  generalize host.bare = hostname
  by_cases hexact : String.ofList hostname ∈ blockedExact
  · rw [if_pos hexact, decide_eq_true hexact]
    rfl
  · rw [if_neg hexact, decide_eq_false hexact, Bool.false_or]
    cases blockedPrefixes.any fun p => p.toList.isPrefixOf hostname with
    | true => rfl
    | false => cases match172 hostname <;> rfl

theorem ofList_mem {s : List Char} {names : List String} :
    String.ofList s ∈ names ↔ s ∈ names.map String.toList := by
  constructor
  · exact fun h => List.mem_map.mpr ⟨_, h, String.toList_ofList⟩
  · rintro h
    obtain ⟨p, hp, rfl⟩ := List.mem_map.mp h
    rwa [String.ofList_toList]

/-- A text that begins like an address has a dot. -/
theorem dot_mem_of_beginsLocal {s : List Char} (h : beginsLocal s = true) : '.' ∈ s := by
  have hprefixes : ∀ p ∈ blockedPrefixes, '.' ∈ p.toList := by decide
  rcases Bool.or_eq_true_iff.mp h with h | h
  · obtain ⟨p, hp, hprefix⟩ := List.any_eq_true.mp h
    exact (List.isPrefixOf_iff_prefix.mp hprefix).subset (hprefixes p hp)
  · unfold match172 at h
    split at h
    · rename_i hprefix
      exact (List.isPrefixOf_iff_prefix.mp hprefix).subset (by decide)
    · cases h

/-- A name is refused if it is one of those listed, and for what it begins with. -/
theorem refuses_domain (name : DomainName) : refuses name.toList = true ↔
    String.ofList name.toList ∈ localNames ∨ beginsLocal name.toList = true := by
  have hlisted : ∀ s ∈ blockedExact.map String.toList, ':' ∉ s →
      s ∈ localNames.map String.toList ∨ beginsLocal s = true := by decide
  have hnames : ∀ s ∈ localNames, s ∈ blockedExact := by decide
  have hcolon : ':' ∉ name.toList := fun hmem => (name.char _ hmem).2.1 rfl
  rw [refuses, Bool.or_eq_true, decide_eq_true_eq]
  constructor
  · rintro (h | h)
    · exact (hlisted _ (ofList_mem.mp h) hcolon).imp_left ofList_mem.mpr
    · exact .inr h
  · exact Or.imp_left (hnames _)

/-- An IPv6 address is refused if it is `::` or `::1`. -/
theorem refuses_ipv6 (groups : Groups) : refuses (textV6 groups.toList) = true ↔
    groups.toList = [0, 0, 0, 0, 0, 0, 0, 0] ∨ groups.toList = [0, 0, 0, 0, 0, 0, 0, 1] := by
  have hlisted : ∀ s ∈ blockedExact.map String.toList, ':' ∈ s →
      parseV6 s = some [0, 0, 0, 0, 0, 0, 0, 0] ∨ parseV6 s = some [0, 0, 0, 0, 0, 0, 0, 1] := by
    decide
  have hread := parseV6_textV6 groups.length_eq groups.lt
  have hbegins : beginsLocal (textV6 groups.toList) = false := by
    by_contra h
    rcases mem_textV6 groups.lt '.' (dot_mem_of_beginsLocal (Bool.eq_true_of_not_eq_false h)) with
      hdot | ⟨d, hd, hdot⟩
    · exact absurd hdot (by decide)
    · exact not_separator_digitChar hd (.inl hdot.symm)
  rw [refuses, hbegins, Bool.or_false, decide_eq_true_eq, ofList_mem]
  constructor
  · intro h
    have hcases := hlisted _ h (colon_mem_textV6 groups.length_eq)
    rwa [hread, Option.some.injEq, Option.some.injEq] at hcases
  · rintro (h | h) <;> rw [h] <;> decide

/-! ### IPv4 -/

theorem match172_dotted {a b : Nat} (ha : a < 256) (hb : b < 256) (s : List Char) :
    match172 (decimal a ++ '.' :: (decimal b ++ '.' :: s)) = if a = 172 then some b else none := by
  have h172 : "172.".toList.isPrefixOf (decimal a ++ '.' :: (decimal b ++ '.' :: s)) = true ↔
      a = 172 := by
    rw [List.isPrefixOf_iff_prefix, show "172.".toList = decimal 172 ++ '.' :: [] from rfl,
      field_prefix_iff (dot_not_mem_decimal (by decide)) (dot_not_mem_decimal ha)]
    exact ⟨fun h => (decimal_injective (by decide) ha h.1).symm,
      fun h => ⟨congrArg decimal h.symm, List.nil_prefix⟩⟩
  unfold match172
  by_cases h : a = 172
  · rw [if_pos (h172.mpr h), if_pos h]
    subst h
    obtain ⟨hlow, hhigh⟩ := length_decimal b
    have htake : (decimal b ++ '.' :: s).takeWhile Char.isDigit = decimal b := by
      rw [List.takeWhile_append_of_pos (isDigit_decimal hb), List.takeWhile_cons_of_neg (by decide),
        List.append_nil]
    have hdot : (decimal b ++ '.' :: s)[(decimal b).length]? = some '.' := by
      rw [List.getElem?_append_right (Nat.le_refl _), Nat.sub_self]
      rfl
    have hdrop : (decimal 172 ++ '.' :: (decimal b ++ '.' :: s)).drop 4 = decimal b ++ '.' :: s :=
      rfl
    simp only [hdrop, htake]
    rw [if_pos ⟨hlow, hhigh, hdot⟩, ofDigitChars_decimal hb]
  · rw [if_neg (mt h172.mp h), if_neg h]

theorem beginsLocal_dotted {a b : Nat} (ha : a < 256) (hb : b < 256) (s : List Char) :
    beginsLocal (decimal a ++ '.' :: (decimal b ++ '.' :: s)) = true ↔ LocalBytes a b := by
  have hfield : ∀ {x y : Nat} {t u : List Char}, x < 256 → y < 256 →
      (decimal x ++ '.' :: t <+: decimal y ++ '.' :: u ↔ y = x ∧ t <+: u) := by
    intro x y t u hx hy
    rw [field_prefix_iff (dot_not_mem_decimal hx) (dot_not_mem_decimal hy)]
    exact and_congr_left' ⟨fun h => (decimal_injective hx hy h).symm, fun h => h ▸ rfl⟩
  have hone : ∀ (p : String) (x : Nat), x < 256 → p.toList = decimal x ++ '.' :: [] →
      (p.toList.isPrefixOf (decimal a ++ '.' :: (decimal b ++ '.' :: s)) = true ↔ a = x) := by
    intro p x hx hp
    rw [List.isPrefixOf_iff_prefix, hp, hfield hx ha]
    exact and_iff_left List.nil_prefix
  have htwo : ∀ (p : String) (x y : Nat), x < 256 → y < 256 →
      p.toList = decimal x ++ '.' :: (decimal y ++ '.' :: []) →
      (p.toList.isPrefixOf (decimal a ++ '.' :: (decimal b ++ '.' :: s)) = true ↔
        a = x ∧ b = y) := by
    intro p x y hx hy hp
    rw [List.isPrefixOf_iff_prefix, hp, hfield hx ha, hfield hy hb]
    exact and_congr_right' (and_iff_left List.nil_prefix)
  have hsecond : ((if a = 172 then some b else none).any fun secondOctet =>
      16 ≤ secondOctet && secondOctet ≤ 31) = true ↔ a = 172 ∧ 16 ≤ b ∧ b ≤ 31 := by
    by_cases h : a = 172 <;> simp [h]
  rw [beginsLocal, match172_dotted ha hb, Bool.or_eq_true, hsecond]
  simp only [blockedPrefixes, List.any_cons, List.any_nil, Bool.or_false, Bool.or_eq_true,
    hone "127." 127 (by decide) rfl, hone "10." 10 (by decide) rfl, hone "0." 0 (by decide) rfl,
    htwo "192.168." 192 168 (by decide) (by decide) rfl,
    htwo "169.254." 169 254 (by decide) (by decide) rfl]
  exact Iff.rfl

/-- An IPv4 address is refused if it is in one of the local networks. -/
theorem refuses_ipv4 (a b c d : UInt8) :
    refuses (dotted [a.toNat, b.toNat, c.toNat, d.toNat]) = true ↔
      isLocalNumber (ipv4Number a.toNat b.toNat c.toNat d.toNat) = true := by
  have hlisted : ∀ s ∈ blockedExact.map String.toList, '.' ∈ s → beginsLocal s = true := by decide
  have hbegins : refuses (dotted [a.toNat, b.toNat, c.toNat, d.toNat]) = true ↔
      beginsLocal (dotted [a.toNat, b.toNat, c.toNat, d.toNat]) = true := by
    rw [refuses, Bool.or_eq_true, decide_eq_true_eq, ofList_mem]
    exact or_iff_right_of_imp fun h => hlisted _ h (dot_mem_dotted ..)
  rw [hbegins, isLocalNumber_iff b.toNat_lt c.toNat_lt d.toNat_lt]
  exact beginsLocal_dotted a.toNat_lt b.toNat_lt _

/-! ### Hosts -/

/-- **When the API judges a host right.** Of every text that is parsed to a URL of HTTP: it refuses
the local hosts and no others, unless the host is a name that begins like a local address or a local
IPv4 address in the form of IPv6. -/
theorem validateTarget_iff (rt : Runtime) (hblank : ∀ value, isBlank value = true →
    rt.parseURL value = none) (value : String) (parsed : WebUrl)
    (hparse : rt.parseURL value = some parsed)
    (hprotocol : parsed.protocol = "http:" ∨ parsed.protocol = "https:") (host : Host)
    (hhost : parsed.hostname = String.ofList host.text) :
    (validateTarget rt (some (.str value)) = false ↔ host.Local) ↔ ¬ host.Misjudged := by
  have hvalue : isBlank value = false := by
    by_contra h
    rw [hblank value (Bool.eq_true_of_not_eq_false h)] at hparse
    cases hparse
  rw [validateTarget_parsed hvalue hparse hprotocol hhost, Bool.not_eq_false']
  cases host with
  | ipv4 a b c d => exact iff_of_true (refuses_ipv4 a b c d) not_false
  | ipv6 groups =>
      have hdisjoint : (∃ n, groups.Maps n ∧ isLocalNumber n = true) →
          ¬ (groups.toList = [0, 0, 0, 0, 0, 0, 0, 0] ∨
            groups.toList = [0, 0, 0, 0, 0, 0, 0, 1]) := by
        rintro ⟨n, ⟨high, low, hgroups, -⟩, -⟩ h
        rw [hgroups] at h
        simp at h
      show (refuses (textV6 groups.toList) = true ↔ _ ∨ _ ∨ _) ↔ ¬ _
      rw [refuses_ipv6, ← or_assoc, iff_self_or]
      exact ⟨fun h hmaps => hdisjoint hmaps (h hmaps), fun h hmaps => absurd hmaps h⟩
  | domain name =>
      have hlisted : ∀ s ∈ localNames.map String.toList, ¬ beginsLocal s = true := by decide
      have hdisjoint : String.ofList name.toList ∈ localNames → ¬ beginsLocal name.toList = true :=
        fun h => hlisted _ (ofList_mem.mp h)
      show (refuses name.toList = true ↔ String.ofList name.toList ∈ localNames) ↔ ¬ _
      rw [refuses_domain, or_iff_left_iff_imp]
      exact ⟨fun h hbegins => hdisjoint (h hbegins) hbegins, fun h hbegins => absurd hbegins h⟩

/-! ### Cases -/

def publicName : DomainName := ⟨"example.com".toList, by decide⟩

/-- A public name that begins like a private address. -/
def numberedName : DomainName := ⟨"10.example.com".toList, by decide⟩

/-- The address `127.0.0.1` in the form of IPv6. -/
def mappedLoopback : Groups := ⟨[0, 0, 0, 0, 0, 0xffff, 0x7f00, 1], by decide, by decide⟩

/-- What the parser makes of some URLs. -/
def someUrls : Runtime where
  env _ := none
  toNumber _ := .nan
  stringify _ := ""
  toLowerCase s := s
  textLength := String.length
  parseURL value :=
    if value = "https://example.com/" then some ⟨"https:", "example.com"⟩
    else if value = "http://10.example.com/" then some ⟨"http:", "10.example.com"⟩
    else if value = "http://[::ffff:127.0.0.1]/" then some ⟨"http:", "[::ffff:7f00:1]"⟩
    else none

theorem validateTarget_public :
    validateTarget someUrls (some (.str "https://example.com/")) = false ↔
      (Host.domain publicName).Local := by
  have hblank : ∀ value, isBlank value = true → someUrls.parseURL value = none := by
    intro value hvalue
    have hne : ∀ url, isBlank url = false → value ≠ url := by
      rintro url hurl rfl
      rw [hurl] at hvalue
      cases hvalue
    show (if _ then _ else if _ then _ else if _ then _ else _) = _
    rw [if_neg (hne _ (by decide)), if_neg (hne _ (by decide)), if_neg (hne _ (by decide))]
  refine (validateTarget_iff someUrls hblank _ ⟨"https:", "example.com"⟩ rfl (.inr rfl)
    (.domain publicName) rfl).mpr ?_
  show ¬ beginsLocal publicName.toList = true
  decide

/-- The public name is refused, and the loopback address is not. -/
theorem validateTarget_misjudges :
    (someUrls.parseURL "http://10.example.com/" =
        some ⟨"http:", String.ofList (Host.domain numberedName).text⟩ ∧
      validateTarget someUrls (some (.str "http://10.example.com/")) = false ∧
      ¬ (Host.domain numberedName).Local) ∧
    someUrls.parseURL "http://[::ffff:127.0.0.1]/" =
        some ⟨"http:", String.ofList (Host.ipv6 mappedLoopback).text⟩ ∧
      validateTarget someUrls (some (.str "http://[::ffff:127.0.0.1]/")) = true ∧
      (Host.ipv6 mappedLoopback).Local := by
  refine ⟨⟨by decide, by decide, ?_⟩, by decide, by decide, ?_⟩
  · show ¬ String.ofList numberedName.toList ∈ localNames
    decide
  · exact .inr (.inr ⟨_, ⟨0x7f00, 1, rfl, rfl⟩, by decide⟩)

end Sentinel.Api
