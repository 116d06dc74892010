import WakameVdc.Lib.Ipv4

/-!
# Security group rules

`SecurityGroup.parse_rule` of `models/security_group.rb`. The `IPAddress` gem is
a parameter: it reads a text as an address or raises `ArgumentError`.
-/

namespace WakameVdc

open Lib

structure IPAddr where
  address : Text
  u32 : Ipv4
  prefixLen : Nat
  deriving DecidableEq, Repr

inductive RuleError
  | invalidSecurityGroupRuleSyntax (text : Text)
  | argumentError
  | noMethodError
  | typeError
  deriving DecidableEq, Repr

/-- The hash `parse_rule` returns; a key it does not set is `none`. -/
structure ParsedRule where
  ipProtocol : Text
  ipFport : Option Int
  ipTport : Option Int
  icmpType : Option Int
  icmpCode : Option Int
  protocol : Option Text
  ipSource : Text
  deriving DecidableEq, Repr

namespace SecurityGroup

/-- `rule.strip.gsub(/[\s\t]+/, '')` -/
def squeeze (rule : Text) : Text := (Text.strip rule).filter fun c => !Text.isSpace c

/-- `a, b = list` -/
def firstTwo (l : List Text) : Option Text × Option Text := (l[0]?, l[1]?)

/-- `ip_addr, prefix = ip_source.split('/', 2)`, and the prefix goes if it reads
as zero. -/
def dropZeroPrefix (ipSource : Option Text) : Except RuleError (Option Text) :=
  match ipSource with
  | none => .error .noMethodError
  | some src =>
    let (ipAddr, pre) := firstTwo (Text.split2 '/' src)
    if (pre.map Text.toI).getD 0 = 0 then .ok ipAddr else .ok (some src)

/-- What scanning the protocol left: nothing for `ip6`, else the source and
whether a group was named. -/
def scanProtocol : Text → Option Text → Bool → Except RuleError (Option (Option Text × Bool))
  | [], ipSource, fromGroup => .ok (some (ipSource, fromGroup))
  | 'i' :: 'p' :: '6' :: _, _, _ => .ok none
  | 'i' :: 'p' :: '4' :: t, ipSource, fromGroup => do
    let ipSource ← dropZeroPrefix ipSource
    scanProtocol t ipSource fromGroup
  | 's' :: 'g' :: '-' :: t, ipSource, _ =>
    if t.head?.any Text.isWord then scanProtocol (t.dropWhile Text.isWord) ipSource true
    else .error (.invalidSecurityGroupRuleSyntax
      ("Unexpected protocol '".toList ++ ('s' :: 'g' :: '-' :: t).take 20 ++ ['\'']))
  | t, _, _ =>
    .error (.invalidSecurityGroupRuleSyntax ("Unexpected protocol '".toList ++ t.take 20 ++ ['\'']))
termination_by t => t.length
decreasing_by
  · simp only [List.length_cons]; omega
  · have := List.length_dropWhile_le Text.isWord t
    simp only [List.length_cons]; omega

/-- The `:protocol` and `:ip_source` of the rule. -/
def readSource (ipAddress : Text → Option IPAddr) (protocol : Text) (ipSource : Option Text)
    (fromGroup : Bool) : Except RuleError (Option Text × Text) :=
  if fromGroup then .ok (none, protocol)
  else match ipSource with
    | none => .error .noMethodError
    | some src =>
      match ipAddress src with
      | none => .error .argumentError
      | some ip =>
        if ip.u32 = 0 then .ok (some protocol, ip.address ++ "/0".toList)
        else .ok (some protocol, ip.address ++ '/' :: Text.ofNat ip.prefixLen)

def checkPort (port : Int) : Except RuleError Unit :=
  if 1 ≤ port ∧ port ≤ 65535 then .ok ()
  else .error (.invalidSecurityGroupRuleSyntax
    ("Out of range port number: ".toList ++ Text.ofInt port))

def icmpTypes : List Int := [0, 3, 5, 8, 11, 12, 13, 14, 15, 16, 17, 18]

def icmpCodes : List Int := [0, 1, 2, 3, 4, 5, 6, 7, 8, 9, 10, 11, 12, 13, 14, 15]

/-- `nil.to_i` is zero. -/
def portNumber (t : Option Text) : Int := (t.map Text.toI).getD 0

def portRule (ipProtocol : Text) (ipFport ipTport : Int) (protocol : Option Text) (ipSource : Text) :
    Except RuleError (Option ParsedRule) := do
  checkPort ipFport
  checkPort ipTport
  if ipFport ≤ ipTport then
    return some { ipProtocol, ipFport := some ipFport, ipTport := some ipTport, icmpType := none,
                  icmpCode := none, protocol, ipSource }
  else throw (.invalidSecurityGroupRuleSyntax
    ("Invalid IP port range: ".toList ++ Text.ofInt ipFport ++ " <= ".toList ++ Text.ofInt ipTport))

/-- The type is read from the first field and the code from the second; the
hash is filled the other way round. -/
def icmpRule (ipProtocol : Text) (icmpType icmpCode : Int) (protocol : Option Text)
    (ipSource : Text) : Except RuleError (Option ParsedRule) :=
  if icmpType ≠ -1 ∧ icmpType ∉ icmpTypes then
    .error (.invalidSecurityGroupRuleSyntax
      ("Unsupported ICMP type number: ".toList ++ Text.ofInt icmpType))
  else if icmpCode ≠ -1 ∧ icmpCode ∉ icmpCodes then
    .error (.invalidSecurityGroupRuleSyntax
      ("Unsupported ICMP code number: ".toList ++ Text.ofInt icmpCode))
  else if icmpCode ≠ -1 ∧ icmpType = -1 then .ok none
  else
    .ok (some { ipProtocol, ipFport := none, ipTport := none, icmpType := some icmpCode,
                icmpCode := some icmpType, protocol, ipSource })

/-- The three fields of a line, each but the middle one split at its colons. -/
structure Fields where
  ipProtocol : Option Text
  ipFport : Option Text
  ipTport : Text
  protocol : Option Text
  ipSource : Option Text
  deriving DecidableEq, Repr

def readFields (rule : Text) : Option Fields :=
  match Text.split ',' (squeeze rule) with
  | fromPair :: ipTport :: sourcePair :: _ =>
    let (ipProtocol, ipFport) := firstTwo (Text.split ':' fromPair)
    let (protocol, ipSource) := firstTwo (Text.split ':' sourcePair)
    some { ipProtocol, ipFport, ipTport, protocol, ipSource }
  | _ => none

def readRule (f : Fields) (protocol : Option Text) (ipSource : Text) :
    Except RuleError (Option ParsedRule) :=
  match f.ipProtocol with
  | none => .error (.invalidSecurityGroupRuleSyntax "Unsupported protocol: ".toList)
  | some ipProtocol =>
    if ipProtocol = "tcp".toList ∨ ipProtocol = "udp".toList then
      portRule ipProtocol (portNumber f.ipFport) (Text.toI f.ipTport) protocol ipSource
    else if ipProtocol = "icmp".toList then
      icmpRule ipProtocol (portNumber f.ipFport) (Text.toI f.ipTport) protocol ipSource
    else .error (.invalidSecurityGroupRuleSyntax ("Unsupported protocol: ".toList ++ ipProtocol))

def parseRule (ipAddress : Text → Option IPAddr) (rule : Text) :
    Except RuleError (Option ParsedRule) :=
  match readFields rule with
  | none => .ok none
  | some f =>
    match f.protocol with
    | none => .error .typeError
    | some protocol => do
      match ← scanProtocol protocol f.ipSource false with
      | none => return none
      | some (ipSource, fromGroup) =>
        let (protocol, ipSource) ← readSource ipAddress protocol ipSource fromGroup
        readRule f protocol ipSource

end SecurityGroup

end WakameVdc
