import PacketWire.Parser

/-!
# Addresses of peers

A socket address is an IP address with the number of a service behind a colon. An address of
version 4 is four numbers with dots; one of version 6 is eight groups of hexadecimal digits with
colons, in brackets, where a double colon stands for at least one group of zeros and the last two
groups may be written as an address of version 4.
-/

namespace PacketWire

inductive IpAddress where
  | v4 (bytes : List Nat)
  | v6 (groups : List Nat) (scope : Nat)
  deriving DecidableEq, Repr

structure SocketAddress where
  host : IpAddress
  service : Nat
  deriving DecidableEq, Repr

namespace SocketAddress

open PacketWire.Parser

/-- A number of base `radix` up to `high`. -/
def numberUpTo (radix high : Nat) : Parser Nat := do
  let n ← number radix
  if n ≤ high then return n else failure

/-- One of the four numbers: no zero stands in front of another digit. -/
def byte : Parser Nat :=
  (char '0' *> notBefore) <|> do
    let n ← numberUpTo 10 255
    if n = 0 then failure else return n
where
  notBefore : Parser Nat
    | c :: rest => if c.isDigit then none else some (0, c :: rest)
    | [] => some (0, [])

def fourBytes : Parser (List Nat) := do
  let first ← byte
  return first :: (← times 3 (char '.' *> byte))

/-- A group of up to four hexadecimal digits. -/
def group : Parser Nat := fun text =>
  if (text.takeWhile (digitValue · < 16)).length ≤ 4 then number 16 text else none

/-- At most `n` groups with colons between them, and whether they end in an address of version
4. -/
def groups : (n : Nat) → (first : Bool) → Parser (List Nat × Bool)
  | 0, _ => pure ([], false)
  | n + 1, first =>
    let colon : Parser Unit := if first then pure () else char ':'
    (do
      colon
      if n = 0 then failure
      match ← fourBytes with
      | [a, b, c, d] => return ([a * 256 + b, c * 256 + d], true)
      | _ => failure) <|>
    (do
      colon
      let g ← group
      let (rest, embedded) ← groups n false
      return (g :: rest, embedded)) <|>
    pure ([], false)

def eightGroups : Parser (List Nat) := do
  let (head, embedded) ← groups 8 true
  if head.length = 8 then return head
  else if embedded then failure
  else do
    literal "::"
    let (tail, _) ← groups (7 - head.length) true
    return head ++ List.replicate (8 - head.length - tail.length) 0 ++ tail

def serviceSuffix : Parser Nat :=
  char ':' *> numberUpTo 10 65535

def address : Parser SocketAddress :=
  (do
    let bytes ← fourBytes
    return ⟨.v4 bytes, ← serviceSuffix⟩) <|>
  (do
    char '['
    let groups ← eightGroups
    let scope ← opt (char '%' *> numberUpTo 10 (UInt32.size - 1))
    char ']'
    return ⟨.v6 groups (scope.getD 0), ← serviceSuffix⟩)

/-- The address that a text writes. -/
def parse? (text : String) : Option SocketAddress :=
  address.runAll text.toList

end SocketAddress

/-- A place to connect to: a host, by address or by name, and the number of a service there. -/
structure Target where
  host : String
  service : Nat
  deriving DecidableEq, Repr

/-- Why a text is no target. -/
inductive TargetError where
  | noService
  | badService
  deriving DecidableEq, Repr

namespace Target

open PacketWire.Parser

/-- The target that a text writes: the service follows the last colon. -/
def parse (text : String) : Except TargetError Target :=
  let reversed := text.toList.reverse
  match reversed.dropWhile (· != ':') with
  | [] => .error .noService
  | _ :: host =>
    let digits := (reversed.takeWhile (· != ':')).reverse
    match (opt (char '+') *> number 10).runAll digits with
    | some n =>
      if n < UInt16.size then .ok ⟨String.ofList host.reverse, n⟩ else .error .badService
    | none => .error .badService

end Target

end PacketWire
