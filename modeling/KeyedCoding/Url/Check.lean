import KeyedCoding.Url.Domain

/-! Checking URLs: scheme, user, host and port have to be in order; path, query and fragment may hold anything. -/

namespace KeyedCoding.Url

/-- What a scheme means for what follows it. -/
inductive SchemeKind where
  | file
  | special
  | other
  deriving DecidableEq, Repr

namespace SchemeKind

/-- The kind of a scheme, given in small letters. -/
def ofName (name : String) : SchemeKind :=
  if name = "file" then file
  else if ["http", "https", "ws", "wss", "ftp"].contains name then special
  else other

end SchemeKind

/-- Whether a character does not count at the ends of a URL. -/
def isOuterBlank (c : Char) : Bool := c.toNat ≤ 0x20

/-- The characters of a text that count. -/
def significant (text : String) : List Char :=
  let trimmed := ((text.toList.dropWhile isOuterBlank).reverse.dropWhile isOuterBlank).reverse
  trimmed.filter fun c => c ≠ '\t' && c ≠ '\n' && c ≠ '\r'

/-- Whether a character may stand in a scheme. -/
def isSchemeChar (c : Char) : Bool := c.isAlphanum || c = '+' || c = '-' || c = '.'

/-- The scheme before the first colon, in small letters, and what follows the colon. -/
def scheme? (cs : List Char) : Option (String × List Char) :=
  match cs, cs.dropWhile isSchemeChar with
  | first :: _, ':' :: rest =>
    if first.isAlpha then
      some (String.ofList ((cs.takeWhile isSchemeChar).map Char.toLower), rest)
    else none
  | _, _ => none

/-- Whether a character ends the authority. -/
def endsAuthority (kind : SchemeKind) (c : Char) : Bool :=
  c = '/' || c = '?' || c = '#' || (kind = .special && c = '\\')

/-- The part of an authority before its last at sign, and the part after it. -/
def splitUser (authority : List Char) : Option (List Char) × List Char :=
  if authority.contains '@' then
    let host := (authority.reverse.takeWhile (· ≠ '@')).reverse
    (some (authority.take (authority.length - host.length - 1)), host)
  else (none, authority)

/-- The host before the first colon outside brackets, and what follows it. -/
def splitHost (inBrackets : Bool) : List Char → List Char × List Char
  | [] => ([], [])
  | c :: rest =>
    if c = ':' ∧ inBrackets = false then ([], c :: rest)
    else
      -- Inside brackets a colon belongs to the address.
      let inBrackets := if c = '[' then true else if c = ']' then false else inBrackets
      let (host, after) := splitHost inBrackets rest
      (c :: host, after)

/-- The largest port. -/
def maxPort : Nat := 65535

/-- Checks a port; it may be missing behind its colon. -/
def checkPort (digits : List Char) : Except Fault Unit :=
  match V4.digitsValue? 10 (digits.takeWhile (· ≠ '\\')) with
  | some port => if port ≤ maxPort then .ok () else .error .badPort
  | none => .error .badPort

/-- Whether a user part names a user or a password. -/
def namesUser (user : Option (List Char)) : Bool :=
  match user with
  | none => false
  | some cs => cs != [] && cs != [':']

/-- Checks what follows two slashes: a user, a host and a port. -/
def checkAuthority (kind : SchemeKind) (cs : List Char) : Except Fault Unit := do
  let authority := cs.takeWhile (!endsAuthority kind ·)
  let after := cs.dropWhile (!endsAuthority kind ·)
  let (user, rest) := splitUser authority
  if user = some [] ∧ rest.isEmpty ∧ ¬ after.isEmpty then .error .emptyHost
  else
    let (host, port) := splitHost false rest
    if host.isEmpty then
      -- A host may be missing only where nothing else tells where to look.
      if kind = .special || !port.isEmpty || namesUser user then .error .emptyHost else .ok ()
    else
      if kind = .special then Domain.check host else Domain.checkOpaque host
      match port with
      | _ :: digits => checkPort digits
      | [] => .ok ()

/-- Whether a text names a drive. -/
def isDrive (cs : List Char) : Bool :=
  match cs with
  | [letter, mark] => letter.isAlpha && (mark = ':' || mark = '|')
  | _ => false

/-- Checks what follows the scheme of files: two slashes open a host, which may be missing. -/
def checkFile (cs : List Char) : Except Fault Unit :=
  match cs with
  | a :: b :: rest =>
    -- A backslash stands for a slash here.
    if (a = '/' ∨ a = '\\') ∧ (b = '/' ∨ b = '\\') then
      let host := rest.takeWhile fun c => !endsAuthority .special c
      -- A drive letter is no host.
      if host.isEmpty || isDrive host then .ok () else Domain.check host
    else .ok ()
  | _ => .ok ()

/-- Checks a URL. -/
def check (text : String) : Except Fault Unit :=
  match scheme? (significant text) with
  | none => .error .relative
  | some (name, rest) =>
    -- Any number of slashes opens the host of a special scheme.
    match SchemeKind.ofName name with
    | .file => checkFile rest
    | .special => checkAuthority .special (rest.dropWhile fun c => c = '/' || c = '\\')
    | .other =>
      -- Without two slashes there is no host to check.
      match rest with
      | '/' :: '/' :: after => checkAuthority .other after
      | _ => .ok ()

end KeyedCoding.Url
