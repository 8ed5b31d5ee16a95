import ADT.Lib.Basics

/-!
# Lib.NetAddress — addresses of the internet protocol

Addresses are read from their texts as numbers of 32 or 128 bits; a block list holds networks of both families.  An
address of the sixth version that embeds one of the fourth is in the networks of the embedded one as well.
-/

namespace ADT.NetAddress

def digitsValue (cs : List Char) : ℕ := cs.foldl (fun n c => n * 10 + (c.toNat - 48)) 0

/-- A number below 256, without leading zeros. -/
def octet (cs : List Char) : Option ℕ :=
  if cs ≠ [] ∧ cs.length ≤ 3 ∧ cs.all Char.isDigit ∧ (cs.head? ≠ some '0' ∨ cs.length = 1) ∧ digitsValue cs < 256 then
    some (digitsValue cs)
  else none

def parseIPv4 (cs : List Char) : Option ℕ :=
  match (cs.splitOn '.').mapM octet with
  | some [a, b, c, d] => some (((a * 256 + b) * 256 + c) * 256 + d)
  | _ => none

/-- One to four hexadecimal digits. -/
def hexGroup (cs : List Char) : Option ℕ :=
  if cs = [] ∨ 4 < cs.length then none
  else (cs.mapM hexDigit).map fun digits => digits.foldl (fun n d => n * 16 + d) 0

def groups (cs : List Char) : Option (List ℕ) :=
  if cs = [] then some [] else (cs.splitOn ':').mapM hexGroup

/-- The last groups may be written as an address of the fourth version. -/
def lastGroups (cs : List Char) : Option (List ℕ) :=
  let parts := cs.splitOn ':'
  match parts.getLast?.bind parseIPv4 with
  | some a => (parts.dropLast.mapM hexGroup).map fun front => front ++ [a / 65536, a % 65536]
  | none => groups cs

/-- The texts before and after the first `::`. -/
def splitDouble : List Char → Option (List Char × List Char)
  | ':' :: ':' :: rest => some ([], rest)
  | c :: rest => (splitDouble rest).map fun p => (c :: p.1, p.2)
  | [] => none

def groupsValue (gs : List ℕ) : ℕ := gs.foldl (fun n g => n * 65536 + g) 0

def withoutZone (cs : List Char) : Option (List Char) :=
  match cs.dropWhile (· ≠ '%') with
  | [] => some cs
  | _ :: zone =>
    if zone ≠ [] ∧ zone.all fun c => c.isAlphanum || c == '-' || c == '.' || c == ':' then
      some (cs.takeWhile (· ≠ '%'))
    else none

def parseIPv6 (cs : List Char) : Option ℕ := do
  let cs ← withoutZone cs
  match splitDouble cs with
  | none =>
    let gs ← lastGroups cs
    if gs.length = 8 then some (groupsValue gs) else none
  | some (before, after) =>
    let front ← groups before
    let back ← lastGroups after
    if front.length + back.length ≤ 7 then
      some (groupsValue (front ++ List.replicate (8 - front.length - back.length) 0 ++ back))
    else none

/-- `isIP`: the version, or zero. -/
def isIP (address : String) : ℕ :=
  if (parseIPv4 address.toList).isSome then 4 else if (parseIPv6 address.toList).isSome then 6 else 0

/-- The address begins with the first `width` bits of the network. -/
def inSubnet (bits address network width : ℕ) : Bool := address / 2 ^ (bits - width) == network / 2 ^ (bits - width)

structure BlockList where
  ipv4 : List (String × ℕ)
  ipv6 : List (String × ℕ)

namespace BlockList

variable (list : BlockList)

def checkIPv4 (address : ℕ) : Bool :=
  list.ipv4.any fun net => (parseIPv4 net.1.toList).any fun network => inSubnet 32 address network net.2

def checkIPv6 (address : ℕ) : Bool :=
  (list.ipv6.any fun net => (parseIPv6 net.1.toList).any fun network => inSubnet 128 address network net.2) ||
    address / 2 ^ 32 == 0xFFFF && list.checkIPv4 (address % 2 ^ 32)

/-- `check`, in the family of the address. -/
def check (address : String) : Bool :=
  match parseIPv4 address.toList with
  | some a => list.checkIPv4 a
  | none => (parseIPv6 address.toList).any list.checkIPv6

end BlockList

end ADT.NetAddress
