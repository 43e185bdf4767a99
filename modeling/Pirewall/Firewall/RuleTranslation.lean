/-
# Pirewall.Firewall.RuleTranslation -- v1 rules as nft expressions

The v1 backend turns a `FirewallRule` into nft rules in libnftables' JSON: a list of expressions, of which the
`match` ones say which packets the rest applies to. An nft rule matches a packet when every `match` does;
reading a field of a header the packet does not carry is no match (nft adds the protocol test a transport
field depends on by itself).

Set against it is the scope a rule names: its two networks, its protocol and its ports. The translation keeps
the networks always, the destination port for TCP and UDP only, the protocol only through that port, and the
source port never; `deployed_scope_exact_iff` says for which rules that loses nothing.
-/
import Mathlib.Tactic
import Pirewall.Core.Models

namespace Pirewall

/-! ## Packets -/

/-- The transport header of a packet. -/
inductive Transport where
  | tcp (sourcePort destinationPort : Fin 65536)
  | udp (sourcePort destinationPort : Fin 65536)
  | icmp
  | icmpv6
  | other
  deriving DecidableEq

namespace Transport

def protocol : Transport → Protocol
  | tcp _ _ => .tcp
  | udp _ _ => .udp
  | icmp => .icmp
  | icmpv6 => .icmpv6
  | other => .other

def sourcePort : Transport → Option (Fin 65536)
  | tcp port _ => some port
  | udp port _ => some port
  | icmp => none
  | icmpv6 => none
  | other => none

def destinationPort : Transport → Option (Fin 65536)
  | tcp _ port => some port
  | udp _ port => some port
  | icmp => none
  | icmpv6 => none
  | other => none

end Transport

/-- An IPv4 packet in the forward chain. -/
structure IPv4Packet where
  source : IPv4Address
  destination : IPv4Address
  transport : Transport
  deriving DecidableEq

/-! ## What a rule names -/

/-- The packets a rule is about: those of its networks, of its protocol and of its ports, where set. -/
def FirewallRule.InScope (rule : FirewallRule) (packet : IPv4Packet) : Prop :=
  (rule.source.contains packet.source = true ∧ rule.destination.contains packet.destination = true) ∧
    (rule.protocol = .any ∨ packet.transport.protocol = rule.protocol) ∧
    (∀ port, rule.sourcePort = some port → packet.transport.sourcePort = some port) ∧
    ∀ port, rule.destinationPort = some port → packet.transport.destinationPort = some port

/-! ## nft expressions -/

/-- The header a payload expression reads. -/
inductive PayloadProtocol where
  | ip | tcp | udp
  deriving DecidableEq

/-- The field of it. -/
inductive PayloadField where
  | saddr | daddr | sport | dport
  deriving DecidableEq

/-- The right side of a match. -/
inductive MatchValue where
  /-- `{"prefix": {"addr": addr, "len": len}}`. -/
  | cidr (addr : IPv4Address) (len : Nat)
  | number (value : Nat)
  deriving DecidableEq

/-- The expressions the backend emits; every match is an `==`. -/
inductive NftExpression where
  | matchField (protocol : PayloadProtocol) (field : PayloadField) (right : MatchValue)
  | drop
  | accept
  | counter
  | log (label : String)
  | limit (ratePerSecond : Nat)
  deriving DecidableEq

/-- The field of a packet's header, `none` where the packet has no such header or the header no such field. -/
def IPv4Packet.payload (packet : IPv4Packet) : PayloadProtocol → PayloadField → Option Nat
  | .ip, .saddr => some packet.source.toNat
  | .ip, .daddr => some packet.destination.toNat
  | .tcp, .sport => match packet.transport with
      | .tcp port _ => some port.val
      | _ => none
  | .tcp, .dport => match packet.transport with
      | .tcp _ port => some port.val
      | _ => none
  | .udp, .sport => match packet.transport with
      | .udp port _ => some port.val
      | _ => none
  | .udp, .dport => match packet.transport with
      | .udp _ port => some port.val
      | _ => none
  | _, _ => none

/-- Whether a field equals the right side of a match. -/
def MatchValue.admits : MatchValue → Nat → Bool
  | .cidr addr len, value => BitVec.ofNat 32 value &&& netmask len == addr &&& netmask len
  | .number wanted, value => value == wanted

/-- Whether a packet gets past an expression; only a match stops one. -/
def NftExpression.admits (packet : IPv4Packet) : NftExpression → Bool
  | .matchField protocol field right => match packet.payload protocol field with
      | some value => right.admits value
      | none => false
  | .drop => true
  | .accept => true
  | .counter => true
  | .log _ => true
  | .limit _ => true

/-- Whether every match of a list of expressions holds. -/
def expressionsMatch (expressions : List NftExpression) (packet : IPv4Packet) : Bool :=
  expressions.all (NftExpression.admits packet)

/-! ## The translation -/

/-- `_PROTOCOL_PAYLOAD_NAME`. -/
def protocolPayloadName : Protocol → Option PayloadProtocol
  | .tcp => some .tcp
  | .udp => some .udp
  | .icmp => none
  | .icmpv6 => none
  | .other => none
  | .any => none

/-- `_address_match`. -/
def addressMatch (field : PayloadField) (network : IPv4Network) : NftExpression :=
  .matchField .ip field (.cidr network.networkAddress network.prefixlen)

/-- `_port_match`. -/
def portMatch (protocolName : PayloadProtocol) (field : PayloadField) (port : Fin 65536) : NftExpression :=
  .matchField protocolName field (.number port.val)

/-- `_match_expressions`. -/
def matchExpressions (rule : FirewallRule) : List NftExpression :=
  let expressions := [addressMatch .saddr rule.source, addressMatch .daddr rule.destination]
  match protocolPayloadName rule.protocol, rule.destinationPort with
  | some protocolName, some port => expressions ++ [portMatch protocolName .dport port]
  | _, _ => expressions

/-- `_verdict_expressions`. -/
def verdictExpressions (rule : FirewallRule) (rateLimitPerSecond : Nat) : Except String (List NftExpression) :=
  match rule.action with
  | .block => .ok [.drop]
  | .monitor => .ok [.log "pirewall-monitor: ", .counter]
  | .rateLimit => .ok [.limit rateLimitPerSecond, .accept]
  | .allow => .error "nftables backend has no translation for action <FirewallAction.ALLOW: 'allow'>"

/-- An `add rule` command of the JSON interface. -/
structure AddRuleCommand where
  family : String
  table : String
  chain : String
  comment : String
  expr : List NftExpression
  deriving DecidableEq

/-- An `add rule` to the adaptive chain. -/
def addAdaptiveRule (comment : String) (expr : List NftExpression) : AddRuleCommand :=
  ⟨"inet", "pirewall", "adaptive", comment, expr⟩

/-- `_build_add_commands`: a rate limit is followed by a drop for what exceeds it. -/
def buildAddCommands (rule : FirewallRule) (comment : String) (rateLimitPerSecond : Nat) :
    Except String (List AddRuleCommand) := do
  let baseExpr := matchExpressions rule
  let verdict ← verdictExpressions rule rateLimitPerSecond
  let commands := [addAdaptiveRule comment (baseExpr ++ verdict)]
  if rule.action = .rateLimit then pure (commands ++ [addAdaptiveRule comment (baseExpr ++ [.drop])])
  else pure commands

/-! ## What the expressions match -/

/-- A prefix match on an address is membership in the network. -/
theorem cidr_admits (network : IPv4Network) (address : IPv4Address) :
    (MatchValue.cidr network.networkAddress network.prefixlen).admits address.toNat =
      network.contains address := by
  rw [MatchValue.admits, network.networkAddress_and_netmask, IPv4Network.contains, BitVec.ofNat_toNat,
    BitVec.setWidth_eq]

/-- What `_match_expressions` matches: the networks, and the destination port where it is translated. -/
theorem expressionsMatch_matchExpressions (rule : FirewallRule) (packet : IPv4Packet) :
    expressionsMatch (matchExpressions rule) packet = true ↔
      (rule.source.contains packet.source = true ∧ rule.destination.contains packet.destination = true) ∧
        ∀ protocolName port, protocolPayloadName rule.protocol = some protocolName →
          rule.destinationPort = some port → packet.payload protocolName .dport = some port.val := by
  have haddresses : expressionsMatch [addressMatch .saddr rule.source, addressMatch .daddr rule.destination]
      packet = (rule.source.contains packet.source && rule.destination.contains packet.destination) := by
    simp only [expressionsMatch, List.all_cons, List.all_nil, Bool.and_true, addressMatch,
      NftExpression.admits, IPv4Packet.payload, cidr_admits]
  unfold matchExpressions
  split
  · rename_i protocolName port hname hport
    have hadmits : NftExpression.admits packet (portMatch protocolName .dport port) = true ↔
        packet.payload protocolName .dport = some port.val := by
      rw [portMatch, NftExpression.admits]
      cases packet.payload protocolName .dport with
      | none => simp
      | some value => simp [MatchValue.admits]
    rw [expressionsMatch, List.all_append, Bool.and_eq_true, ← expressionsMatch, haddresses,
      Bool.and_eq_true, List.all_cons, List.all_nil, Bool.and_true, hadmits, hname, hport]
    constructor
    · rintro ⟨haddr, hread⟩
      refine ⟨haddr, ?_⟩
      intro _ _ hname' hport'
      obtain rfl := Option.some.inj hname'
      obtain rfl := Option.some.inj hport'
      exact hread
    · rintro ⟨haddr, hread⟩
      exact ⟨haddr, hread protocolName port rfl rfl⟩
  · rename_i hnone
    rw [haddresses, Bool.and_eq_true]
    refine ⟨fun haddr => ⟨haddr, ?_⟩, fun h => h.1⟩
    intro protocolName port hname hport
    exact absurd hport (hnone protocolName port hname)

/-- A command carries the matches of its rule and no others. -/
theorem buildAddCommands_expressionsMatch {rule : FirewallRule} {comment : String} {rateLimitPerSecond : Nat}
    {commands : List AddRuleCommand} (h : buildAddCommands rule comment rateLimitPerSecond = .ok commands)
    {command : AddRuleCommand} (hcommand : command ∈ commands) (packet : IPv4Packet) :
    expressionsMatch command.expr packet = expressionsMatch (matchExpressions rule) packet := by
  have hplain : ∀ verdict : List NftExpression, verdict.all (NftExpression.admits packet) = true →
      expressionsMatch (matchExpressions rule ++ verdict) packet =
        expressionsMatch (matchExpressions rule) packet := by
    intro verdict hverdict
    rw [expressionsMatch, List.all_append, hverdict, Bool.and_true]
    rfl
  cases haction : rule.action with
  | allow =>
    rw [buildAddCommands, verdictExpressions, haction] at h
    exact absurd h (by simp [bind, Except.bind])
  | monitor =>
    simp only [buildAddCommands, verdictExpressions, haction, bind, Except.bind, pure, Except.pure,
      reduceCtorEq, if_false, Except.ok.injEq] at h
    subst h
    obtain rfl := List.mem_singleton.mp hcommand
    exact hplain _ rfl
  | rateLimit =>
    simp only [buildAddCommands, verdictExpressions, haction, bind, Except.bind, pure, Except.pure,
      if_true, Except.ok.injEq] at h
    subst h
    rcases List.mem_cons.mp hcommand with rfl | hcommand
    · exact hplain _ rfl
    · obtain rfl := List.mem_singleton.mp hcommand
      exact hplain _ rfl
  | block =>
    simp only [buildAddCommands, verdictExpressions, haction, bind, Except.bind, pure, Except.pure,
      reduceCtorEq, if_false, Except.ok.injEq] at h
    subst h
    obtain rfl := List.mem_singleton.mp hcommand
    exact hplain _ rfl

/-! ## Scope -/

/-- A packet between the first addresses of the rule's two networks. -/
def FirewallRule.probe (rule : FirewallRule) (transport : Transport) : IPv4Packet :=
  ⟨rule.source.networkAddress, rule.destination.networkAddress, transport⟩

/-- The translation matches a probe whatever its transport, unless it translated the destination port. -/
theorem probe_matches {rule : FirewallRule} {transport : Transport}
    (h : ∀ protocolName port, protocolPayloadName rule.protocol = some protocolName →
      rule.destinationPort = some port → (rule.probe transport).payload protocolName .dport = some port.val) :
    expressionsMatch (matchExpressions rule) (rule.probe transport) = true :=
  (expressionsMatch_matchExpressions rule _).mpr
    ⟨⟨rule.source.contains_networkAddress, rule.destination.contains_networkAddress⟩, h⟩

/-- No payload name: the rule's protocol and ports are all dropped. -/
theorem probe_matches_of_unnamed {rule : FirewallRule} (h : protocolPayloadName rule.protocol = none)
    (transport : Transport) : expressionsMatch (matchExpressions rule) (rule.probe transport) = true := by
  refine probe_matches ?_
  intro protocolName port hname
  rw [h] at hname
  exact absurd hname (by simp)

/-- No destination port: again everything but the networks is dropped. -/
theorem probe_matches_of_portless {rule : FirewallRule} (h : rule.destinationPort = none)
    (transport : Transport) : expressionsMatch (matchExpressions rule) (rule.probe transport) = true := by
  refine probe_matches ?_
  intro protocolName port _ hport
  rw [h] at hport
  exact absurd hport (by simp)

/-- A packet from another source port that the translation still matches. -/
theorem exists_probe_of_sourcePort (rule : FirewallRule) (port : Fin 65536) :
    ∃ transport : Transport, transport.sourcePort ≠ some port ∧
      expressionsMatch (matchExpressions rule) (rule.probe transport) = true := by
  have hother : port + 1 ≠ port := by
    intro h
    exact absurd (add_left_cancel (h.trans (add_zero port).symm)) (by decide)
  by_cases hudp : rule.protocol = .udp
  · refine ⟨.udp (port + 1) (rule.destinationPort.getD 0), fun h => hother (Option.some.inj h), ?_⟩
    refine probe_matches ?_
    intro protocolName destination hname hport
    rw [hudp] at hname
    obtain rfl := Option.some.inj hname
    rw [hport]
    rfl
  · refine ⟨.tcp (port + 1) (rule.destinationPort.getD 0), fun h => hother (Option.some.inj h), ?_⟩
    refine probe_matches ?_
    intro protocolName destination hname hport
    have htcp : protocolName = .tcp := by
      cases hprotocol : rule.protocol <;> rw [hprotocol] at hname hudp <;>
        simp_all [protocolPayloadName]
    rw [htcp, hport]
    rfl

/-- Where the translation loses nothing: there is no source port, and the rule either names neither protocol
nor port, or names TCP or UDP together with a destination port. -/
def FirewallRule.Translatable (rule : FirewallRule) : Prop :=
  rule.sourcePort = none ∧
    ((rule.protocol = .any ∧ rule.destinationPort = none) ∨
      ((rule.protocol = .tcp ∨ rule.protocol = .udp) ∧ rule.destinationPort ≠ none))

theorem translatable_of_exact {rule : FirewallRule}
    (h : ∀ packet, expressionsMatch (matchExpressions rule) packet = true ↔ rule.InScope packet) :
    rule.Translatable := by
  have hprotocol : ∀ transport,
      expressionsMatch (matchExpressions rule) (rule.probe transport) = true →
        rule.protocol = .any ∨ transport.protocol = rule.protocol := fun transport hmatch =>
    ((h _).mp hmatch).2.1
  have hsource : rule.sourcePort = none := by
    cases hport : rule.sourcePort with
    | none => rfl
    | some port =>
      obtain ⟨transport, hother, hmatch⟩ := exists_probe_of_sourcePort rule port
      exact absurd (((h _).mp hmatch).2.2.1 port hport) hother
  refine ⟨hsource, ?_⟩
  cases hdestination : rule.destinationPort with
  | none =>
    -- with no port the protocol is dropped, so only `any` is translated as it stands
    refine .inl ⟨?_, rfl⟩
    have htcp := hprotocol (.tcp 0 0) (probe_matches_of_portless hdestination _)
    have hudp := hprotocol (.udp 0 0) (probe_matches_of_portless hdestination _)
    rcases htcp with hany | htcp
    · exact hany
    · rcases hudp with hany | hudp
      · exact hany
      · exact absurd (htcp.trans hudp.symm) (by simp [Transport.protocol])
  | some port =>
    refine .inr ⟨?_, by simp⟩
    cases hname : protocolPayloadName rule.protocol with
    | some protocolName =>
      cases hrule : rule.protocol <;> rw [hrule] at hname <;> simp_all [protocolPayloadName]
    | none =>
      -- the port is dropped: a TCP packet to another port is matched
      have hmatch := probe_matches_of_unnamed hname (.tcp 0 (port + 1))
      have hwanted := ((h _).mp hmatch).2.2.2 port hdestination
      exact absurd (add_left_cancel ((Option.some.inj hwanted).trans (add_zero port).symm)) (by decide)

/-- A translated destination port is the test of protocol and port together. -/
theorem payload_dport_iff {protocol : Protocol} {protocolName : PayloadProtocol}
    (h : protocolPayloadName protocol = some protocolName) (packet : IPv4Packet) (port : Fin 65536) :
    packet.payload protocolName .dport = some port.val ↔
      packet.transport.protocol = protocol ∧ packet.transport.destinationPort = some port := by
  cases protocol with
  | tcp =>
    obtain rfl := Option.some.inj h
    cases htransport : packet.transport <;>
      simp [IPv4Packet.payload, htransport, Transport.protocol, Transport.destinationPort, Fin.ext_iff]
  | udp =>
    obtain rfl := Option.some.inj h
    cases htransport : packet.transport <;>
      simp [IPv4Packet.payload, htransport, Transport.protocol, Transport.destinationPort, Fin.ext_iff]
  | icmp => exact absurd h (by simp [protocolPayloadName])
  | icmpv6 => exact absurd h (by simp [protocolPayloadName])
  | other => exact absurd h (by simp [protocolPayloadName])
  | any => exact absurd h (by simp [protocolPayloadName])

theorem exact_of_translatable {rule : FirewallRule} (h : rule.Translatable) (packet : IPv4Packet) :
    expressionsMatch (matchExpressions rule) packet = true ↔ rule.InScope packet := by
  obtain ⟨hsource, hrest⟩ := h
  rw [expressionsMatch_matchExpressions]
  refine and_congr_right fun _ => ?_
  rcases hrest with ⟨hany, hportless⟩ | ⟨hnamed, hport⟩
  · simp [hany, hsource, hportless, protocolPayloadName]
  · obtain ⟨port, hport⟩ := Option.ne_none_iff_exists'.mp hport
    obtain ⟨protocolName, hname⟩ : ∃ protocolName, protocolPayloadName rule.protocol = some protocolName := by
      rcases hnamed with hrule | hrule <;> exact ⟨_, by rw [hrule]; rfl⟩
    have hany : rule.protocol ≠ .any := by
      rcases hnamed with hrule | hrule <;> rw [hrule] <;> simp
    simp only [hname, hport, hsource, hany, Option.some.injEq, forall_eq', false_or, reduceCtorEq,
      false_implies, implies_true, true_and]
    rw [← payload_dport_iff hname]
    constructor
    · intro hread
      exact hread protocolName port rfl rfl
    · rintro hread _ _ rfl rfl
      exact hread

/-- The nft rules a v1 rule is deployed as match its scope, and nothing else, exactly when it is
`Translatable`; every command carries the rule's matches. -/
theorem deployed_scope_exact_iff (rule : FirewallRule) :
    ((∀ packet, expressionsMatch (matchExpressions rule) packet = true ↔ rule.InScope packet) ↔
        rule.Translatable) ∧
      ∀ comment rateLimitPerSecond commands,
        buildAddCommands rule comment rateLimitPerSecond = .ok commands →
          ∀ command ∈ commands, ∀ packet,
            expressionsMatch command.expr packet = expressionsMatch (matchExpressions rule) packet :=
  ⟨⟨translatable_of_exact, exact_of_translatable⟩,
    fun _ _ _ hbuild _ hcommand packet => buildAddCommands_expressionsMatch hbuild hcommand packet⟩

/-- The block of a device for the pings it sends another. -/
def pingRule : FirewallRule where
  action := .block
  direction := .inbound
  source := .host (IPv4Address.ofOctets 10 0 0 20)
  destination := .host (IPv4Address.ofOctets 10 0 0 30)
  protocol := .icmp
  sourcePort := none
  destinationPort := none
  reason := "ping flood"
  threatScore := none
  evidence := []
  metadata := .empty
  target := none
  target_is_source := fun _ h => absurd h (by simp)
  id := "rule-1"
  priority := 100
  status := .active
  createdAt := 0
  expiresAt := some 600
  deployedAt := some 0

/-- Its deployment drops the device's HTTPS as well. -/
theorem ping_rule_drops_https :
    ¬ ∀ (rule : FirewallRule) (packet : IPv4Packet),
      expressionsMatch (matchExpressions rule) packet = true ↔ rule.InScope packet := by
  intro h
  have hscope := (h pingRule ⟨IPv4Address.ofOctets 10 0 0 20, IPv4Address.ofOctets 10 0 0 30,
    .tcp 40000 443⟩).mp (by decide)
  rcases hscope.2.1 with hany | hicmp
  · exact absurd hany (by decide)
  · exact absurd hicmp (by decide)

end Pirewall
