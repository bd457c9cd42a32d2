import KeyedCoding.Text.CharClass
import KeyedCoding.Text.Utf8
import KeyedCoding.Url.Address
import KeyedCoding.Url.Punycode

/-! Domain names in URLs: escapes are resolved, characters are normalized, and labels are checked. -/

namespace KeyedCoding.Url.Domain

/-- The bytes of characters, in which two hexadecimal digits after a percent sign are one byte. -/
def unescape (cs : List Char) : List UInt8 :=
  match cs with
  | [] => []
  | '%' :: a :: b :: rest =>
    match Text.hexValue? a, Text.hexValue? b with
    | some high, some low => (high * 16 + low).toUInt8 :: unescape rest
    -- A percent sign without two digits stands for itself.
    | _, _ => '%'.toNat.toUInt8 :: unescape (a :: b :: rest)
  | c :: rest => Text.Utf8.encode c.toString ++ unescape rest
termination_by cs.length

/-- Whether a character leaves no trace in a domain name. -/
def isIgnored (c : Char) : Bool :=
  let n := c.toNat
  n == 0xad || n == 0x34f || (0x180b ≤ n && n ≤ 0x180f) || n == 0x200b || n == 0x2060 ||
    n == 0x2064 || n == 0xfeff || (0xfe00 ≤ n && n ≤ 0xfe0f)

/-- The normal form of a character: letters are small, wide forms are narrow, full stops are points. -/
def normalize (c : Char) : Char :=
  let n := c.toNat
  if n == 0x3002 || n == 0xff61 then '.'
  else if 0xff01 ≤ n && n ≤ 0xff5e then (Char.ofNat (n - 0xff01 + 0x21)).toLower
  else c.toLower

/-- Whether an ASCII character may not stand in a domain name. -/
def isForbidden (c : Char) : Bool :=
  c.toNat ≤ 0x20 || c == '\x7f' || "%#/:<>?@[\\]^|".toList.contains c

/-- Whether a character may stand in a domain name. -/
def isAllowed (c : Char) : Bool :=
  if c.toNat < 0x80 then !isForbidden c
  else Text.isPrintable c && !Text.isBlank c && c.toNat != 0xfffd

/-- Whether a label is in order: no mark opens it, and what it carries can be read. -/
def isLabel (label : List Char) : Bool :=
  match label with
  | [] => true
  | 'x' :: 'n' :: '-' :: '-' :: carried =>
    -- What is carried has to be needed: some character of it is none of the plain ones.
    match Punycode.decode? carried with
    | some cs => cs.any (0x80 ≤ ·.toNat) && cs.all isAllowed &&
      !((cs.head?.map Text.isGraphemeExtend).getD false)
    | none => false
  | c :: _ => !Text.isGraphemeExtend c

/-- The normal form of a domain name. -/
def normalForm? (host : List Char) : Option (List Char) := do
  let text ← Text.Utf8.decode? (unescape host)
  let name := (text.toList.filter fun c => !isIgnored c).map normalize
  if name.all isAllowed && (splitAt '.' name).all isLabel then some name else none

/-- Checks a host that is a domain name or an address. -/
def check (host : List Char) : Except Fault Unit :=
  match host with
  | '[' :: _ => V6.check host
  | _ =>
    match normalForm? host with
    | none => .error .badDomain
    | some [] => .error .emptyHost
    | some name => if V4.isMeant name then V4.check name else .ok ()

/-- Whether a character may not stand in a host that is not a domain name. -/
def isForbiddenOpaque (c : Char) : Bool := "\x00\t\n\r #/:<>?@[\\]^|".toList.contains c

/-- Checks a host that is not a domain name. -/
def checkOpaque (host : List Char) : Except Fault Unit :=
  match host with
  | '[' :: _ => V6.check host
  | _ => if host.any isForbiddenOpaque then .error .badHostChar else .ok ()

end KeyedCoding.Url.Domain
