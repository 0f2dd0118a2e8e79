import Mathlib.Data.List.Basic

/-
  Internet addresses of the standard library: their kinds,
  how the four parts of an address are written, and how
  `str::parse::<IpAddr>` reads an address.

  Main declarations:
    * `Ipv4Addr`, `Ipv6Addr`, `IpAddr`
    * `Ipv4Addr.toIpv6Mapped`
    * `Ipv4Addr.text`
    * `readIpv4`, `readIpv6`, `parseIpAddr`
    * `parseIpAddr_text`, `parseIpAddr_bracket`
-/

------------------------------------------------------------
-- Addresses
------------------------------------------------------------

namespace IcpHandler

namespace Model

/- `Ipv4Addr`, by its octets. -/
structure Ipv4Addr where
  a : UInt8
  b : UInt8
  c : UInt8
  d : UInt8
  deriving DecidableEq

/- `Ipv6Addr`, by its segments. -/
structure Ipv6Addr where
  segments : List UInt16
  length_eq : segments.length = 8
  deriving DecidableEq

/- `IpAddr` -/
inductive IpAddr where
  | v4 (ip : Ipv4Addr)
  | v6 (ip : Ipv6Addr)
  deriving DecidableEq

namespace Ipv4Addr

variable (ip : Ipv4Addr)

def isPrivate : Bool :=
  ip.a == 10 ||
    (ip.a == 172 && decide (16 ≤ ip.b ∧ ip.b ≤ 31)) ||
    (ip.a == 192 && ip.b == 168)

def isLoopback : Bool := ip.a == 127

def isLinkLocal : Bool := ip.a == 169 && ip.b == 254

def isUnspecified : Bool := ip == ⟨0, 0, 0, 0⟩

def isBroadcast : Bool := ip == ⟨255, 255, 255, 255⟩

def isMulticast : Bool := decide (224 ≤ ip.a ∧ ip.a ≤ 239)

/- Two octets as one segment. -/
def joined (high low : UInt8) : UInt16 :=
  UInt16.ofNat (high.toNat * 256 + low.toNat)

/- `Ipv4Addr::to_ipv6_mapped`, `::ffff:a.b.c.d` -/
def toIpv6Mapped : Ipv6Addr :=
  ⟨[0, 0, 0, 0, 0, 65535, joined ip.a ip.b, joined ip.c ip.d],
    rfl⟩

end Ipv4Addr

namespace Ipv6Addr

variable (ip : Ipv6Addr)

def first : UInt16 := ip.segments.headD 0

def isLoopback : Bool := ip.segments == [0, 0, 0, 0, 0, 0, 0, 1]

def isUnspecified : Bool :=
  ip.segments == [0, 0, 0, 0, 0, 0, 0, 0]

def isMulticast : Bool := ip.first &&& 0xff00 == 0xff00

end Ipv6Addr

end Model

end IcpHandler

------------------------------------------------------------
-- Reading Addresses
------------------------------------------------------------

namespace IcpHandler

namespace Model

/- What was read of a text, and what is left of it. -/
abbrev Reader (α : Type) := List Char → Option (α × List Char)

/- `char::to_digit` -/
def toDigit (radix : Nat) (c : Char) : Option Nat :=
  let n := c.toNat
  let value :=
    if 48 ≤ n ∧ n ≤ 57 then some (n - 48)
    else if 97 ≤ n ∧ n ≤ 122 then some (n - 87)
    else if 65 ≤ n ∧ n ≤ 90 then some (n - 55)
    else none
  value.filter (· < radix)

/- The digits a text starts with. -/
def readDigits (radix : Nat) :
    List Char → List Nat × List Char
  | [] => ([], [])
  | c :: rest =>
      match toDigit radix c with
      | some digit =>
          let read := readDigits radix rest
          (digit :: read.1, read.2)
      | none => ([], c :: rest)

/- `Parser::read_number` -/
def readNumber
    (radix maxDigits bound : Nat)
    (allowZeroPrefix : Bool) : Reader Nat := fun text =>
  let read := readDigits radix text
  let count := read.1.length
  let value := read.1.foldl (fun n digit => n * radix + digit) 0
  if count > maxDigits then none
  else if count = 0 then none
  else if !allowZeroPrefix && text.head? == some '0' &&
      decide (count > 1) then
    none
  else if value < bound then some (value, read.2)
  else none

/- `Parser::read_separator` -/
def readSeparator
    {α : Type}
    (separator : Char)
    (index : Nat)
    (inner : Reader α) : Reader α := fun text =>
  if index = 0 then inner text
  else
    match text with
    | c :: rest => if c = separator then inner rest else none
    | [] => none

def readOctet (index : Nat) : Reader UInt8 := fun text =>
  (readSeparator '.' index (readNumber 10 3 256 false) text).map
    fun read => (UInt8.ofNat read.1, read.2)

/- `Parser::read_ipv4_addr` -/
def readIpv4 : Reader Ipv4Addr := fun text => do
  let (a, text) ← readOctet 0 text
  let (b, text) ← readOctet 1 text
  let (c, text) ← readOctet 2 text
  let (d, text) ← readOctet 3 text
  pure (⟨a, b, c, d⟩, text)

/-
  `read_groups`, for as many groups as may still come. It says
  whether the last ones were written as an IPv4 address, which
  stands for two.
-/
def readGroups :
    Nat → Nat → List Char → List UInt16 × Bool × List Char
  | 0, _, text => ([], false, text)
  | more + 1, index, text =>
      let ipv4 :=
        if 0 < more then readSeparator ':' index readIpv4 text
        else none
      match ipv4 with
      | some (ip, rest) =>
          ([Ipv4Addr.joined ip.a ip.b,
            Ipv4Addr.joined ip.c ip.d], true, rest)
      | none =>
          match readSeparator ':' index
              (readNumber 16 4 65536 true) text with
          | some (group, rest) =>
              let read := readGroups more (index + 1) rest
              (UInt16.ofNat group :: read.1, read.2)
          | none => ([], false, text)

theorem length_readGroups_le
    (more index : Nat)
    (text : List Char) :
    (readGroups more index text).1.length ≤ more := by
  induction more generalizing index text with
  | zero => exact Nat.le_refl 0
  | succ more ih =>
      unfold readGroups
      dsimp only
      split
      · rename_i ip rest hFound
        by_cases hMore : 0 < more
        · exact Nat.succ_le_succ hMore
        · rw [if_neg hMore] at hFound
          cases hFound
      · split
        · exact Nat.succ_le_succ (ih _ _)
        · exact Nat.zero_le _

/- `Parser::read_ipv6_addr` -/
def readIpv6 : Reader Ipv6Addr := fun text =>
  let head := readGroups 8 0 text
  if hFull : head.1.length = 8 then
    some (⟨head.1, hFull⟩, head.2.2)
  else if head.2.1 then none
  else
    match head.2.2 with
    | ':' :: ':' :: rest =>
        let tail := readGroups (7 - head.1.length) 0 rest
        let zeros :=
          List.replicate
            (8 - head.1.length - tail.1.length) 0
        some
          (⟨head.1 ++ zeros ++ tail.1, by
              have hHead := length_readGroups_le 8 0 text
              have hTail :=
                length_readGroups_le (7 - head.1.length) 0 rest
              simp only [List.length_append,
                List.length_replicate, zeros, head, tail] at *
              omega⟩,
            tail.2.2)
    | _ => none

/- `str::parse::<IpAddr>` -/
def parseIpAddr (s : String) : Option IpAddr :=
  let read :=
    match readIpv4 s.toList with
    | some (ip, rest) => some (IpAddr.v4 ip, rest)
    | none =>
        (readIpv6 s.toList).map fun (ip, rest) =>
          (IpAddr.v6 ip, rest)
  match read with
  | some (ip, []) => some ip
  | _ => none

end Model

end IcpHandler

------------------------------------------------------------
-- Written Addresses
------------------------------------------------------------

namespace IcpHandler

namespace Model

def digitChar (digit : Nat) : Char := Char.ofNat (48 + digit)

/- A number below 1000 without leading zeros. -/
def octetText (n : Nat) : List Char :=
  if n < 10 then [digitChar n]
  else if n < 100 then [digitChar (n / 10), digitChar (n % 10)]
  else
    [digitChar (n / 100), digitChar (n / 10 % 10),
      digitChar (n % 10)]

/- `Display` for `Ipv4Addr` -/
def Ipv4Addr.text (ip : Ipv4Addr) : String :=
  String.ofList
    (octetText ip.a.toNat ++ '.' ::
      (octetText ip.b.toNat ++ '.' ::
        (octetText ip.c.toNat ++ '.' ::
          octetText ip.d.toNat)))

theorem toDigit_digitChar
    {digit : Nat}
    (hDigit : digit < 10) :
    toDigit 10 (digitChar digit) = some digit := by
  have hAll :
      ∀ d : Fin 10, toDigit 10 (digitChar d) = some d.val := by
    decide
  exact hAll ⟨digit, hDigit⟩

theorem digitChar_ne_zero
    {digit : Nat}
    (hDigit : digit < 10)
    (hPositive : 0 < digit) :
    digitChar digit ≠ '0' := by
  have hAll :
      ∀ d : Fin 10, 0 < d.val → digitChar d ≠ '0' := by
    decide
  exact hAll ⟨digit, hDigit⟩ hPositive

/- The text does not go on with a digit. -/
def EndsNumber (rest : List Char) : Prop :=
  readDigits 10 rest = ([], rest)

theorem endsNumber_nil : EndsNumber [] := rfl

theorem endsNumber_dot (rest : List Char) :
    EndsNumber ('.' :: rest) := rfl

/- An octet is read as it was written. -/
theorem readNumber_octetText
    {n : Nat}
    (hOctet : n < 256)
    {rest : List Char}
    (hEnds : EndsNumber rest) :
    readNumber 10 3 256 false (octetText n ++ rest) =
      some (n, rest) := by
  unfold EndsNumber at hEnds
  unfold octetText readNumber
  by_cases hOne : n < 10
  · simp [hOne, readDigits, toDigit_digitChar, hEnds, hOctet]
  · by_cases hTwo : n < 100
    · have hHead := digitChar_ne_zero
        (show n / 10 < 10 by omega) (by omega)
      have hValue : n / 10 * 10 + n % 10 = n := by omega
      simp [hOne, hTwo, readDigits,
        toDigit_digitChar (show n / 10 < 10 by omega),
        toDigit_digitChar (show n % 10 < 10 by omega), hEnds,
        hHead, hValue, hOctet]
    · have hHead := digitChar_ne_zero
        (show n / 100 < 10 by omega) (by omega)
      have hValue :
          (n / 100 * 10 + n / 10 % 10) * 10 + n % 10 = n := by
        omega
      simp [hOne, hTwo, readDigits,
        toDigit_digitChar (show n / 100 < 10 by omega),
        toDigit_digitChar (show n / 10 % 10 < 10 by omega),
        toDigit_digitChar (show n % 10 < 10 by omega), hEnds,
        hHead, hValue, hOctet]

theorem readOctet_zero
    (octet : UInt8)
    {rest : List Char}
    (hEnds : EndsNumber rest) :
    readOctet 0 (octetText octet.toNat ++ rest) =
      some (octet, rest) := by
  unfold readOctet readSeparator
  rw [if_pos rfl, readNumber_octetText octet.toNat_lt hEnds]
  simp

theorem readOctet_succ
    (index : Nat)
    (octet : UInt8)
    {rest : List Char}
    (hEnds : EndsNumber rest) :
    readOctet (index + 1)
        ('.' :: (octetText octet.toNat ++ rest)) =
      some (octet, rest) := by
  unfold readOctet readSeparator
  rw [if_neg (Nat.succ_ne_zero index)]
  dsimp only
  rw [if_pos rfl, readNumber_octetText octet.toNat_lt hEnds]
  simp

/- A written address is read again. -/
theorem parseIpAddr_text (ip : Ipv4Addr) :
    parseIpAddr ip.text = some (.v4 ip) := by
  have hRead :
      readIpv4 ip.text.toList = some (ip, []) := by
    unfold readIpv4 Ipv4Addr.text
    rw [String.toList_ofList,
      readOctet_zero ip.a (endsNumber_dot _)]
    simp only [Option.bind_eq_bind, Option.bind_some]
    rw [readOctet_succ 0 ip.b (endsNumber_dot _)]
    simp only [Option.bind_some]
    rw [readOctet_succ 1 ip.c (endsNumber_dot _)]
    simp only [Option.bind_some]
    have hLast := readOctet_succ 2 ip.d endsNumber_nil
    rw [List.append_nil] at hLast
    rw [hLast]
    rfl
  unfold parseIpAddr
  rw [hRead]

example :
    parseIpAddr "::ffff:127.0.0.1" =
      some (.v6 (Ipv4Addr.toIpv6Mapped ⟨127, 0, 0, 1⟩)) := by
  decide

/- No number starts with a bracket. -/
theorem readNumber_bracket
    {radix : Nat}
    (hRadix : radix = 10 ∨ radix = 16)
    (maxDigits bound : Nat)
    (allowZeroPrefix : Bool)
    (rest : List Char) :
    readNumber radix maxDigits bound allowZeroPrefix
      ('[' :: rest) = none := by
  have hDigits :
      readDigits radix ('[' :: rest) = ([], '[' :: rest) := by
    rcases hRadix with rfl | rfl
    · rfl
    · rfl
  unfold readNumber
  rw [hDigits]
  rfl

theorem readIpv4_bracket (rest : List Char) :
    readIpv4 ('[' :: rest) = none := by
  unfold readIpv4 readOctet readSeparator
  rw [if_pos rfl, readNumber_bracket (.inl rfl)]
  rfl

/- Nothing in brackets is read as an address. -/
theorem parseIpAddr_bracket (rest : List Char) :
    parseIpAddr (String.ofList ('[' :: rest)) = none := by
  have hGroups :
      readGroups 8 0 ('[' :: rest) =
        ([], false, '[' :: rest) := by
    unfold readGroups readSeparator
    rw [if_pos (by decide), if_pos rfl, readIpv4_bracket]
    dsimp only
    rw [if_pos rfl, readNumber_bracket (.inr rfl)]
  have hNone : readIpv6 ('[' :: rest) = none := by
    unfold readIpv6
    simp [hGroups]
  unfold parseIpAddr
  rw [String.toList_ofList, readIpv4_bracket, hNone]
  rfl

end Model

end IcpHandler
