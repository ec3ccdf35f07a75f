import OtelMagnify.Lib.GoString

/-! URLs as Go's `net/url` parses and writes them. -/
namespace NetUrl
open GoString

/-- The parts of a URL that are escaped in different ways. -/
inductive Encoding where
  | path
  | userPassword
  | host
  | zone
  | queryComponent
  | fragment
  deriving DecidableEq, Repr

def Encoding.isHost (mode : Encoding) : Bool := mode = .host || mode = .zone

def shouldEscape (b : UInt8) (mode : Encoding) : Bool :=
  let c := Char.ofNat b.toNat
  if c.isAlphanum then false
  else if mode.isHost && "!$&'()*+,;=:[]<>\"".toList.contains c then false
  else if "-_.~".toList.contains c then false
  else if "$&+,/:;=?@".toList.contains c then
    match mode with
    | .path => c = '?'
    | .userPassword => c = '@' || c = '/' || c = '?' || c = ':'
    | .queryComponent => true
    | .fragment => false
    | .host | .zone => true
  else if mode = .fragment && "!()*".toList.contains c then false
  else true

def isHex (c : Char) : Bool := c.isDigit || ('a' ≤ c && c ≤ 'f') || ('A' ≤ c && c ≤ 'F')

def unhex (c : Char) : ℕ :=
  if c.isDigit then c.toNat - '0'.toNat
  else if 'a' ≤ c then c.toNat - 'a'.toNat + 10
  else c.toNat - 'A'.toNat + 10

/-- Whether `%ab` may stand in a part: a host escapes no ASCII byte but the percent sign, and a zone
none that it could not hold as it is, spaces apart. -/
def escapeAllowed (mode : Encoding) (a b : Char) : Bool :=
  let v := 16 * unhex a + unhex b
  match mode with
  | .host => 8 ≤ unhex a || v = 0x25
  | .zone => v = 0x25 || v = 0x20 || !shouldEscape (UInt8.ofNat v) .host
  | _ => true

/-- The bytes of `unescape`. -/
def unescapeBytes (mode : Encoding) : GoString → Option (List UInt8)
  | [] => some []
  | .char '%' :: .char a :: .char b :: s =>
    if isHex a && isHex b && escapeAllowed mode a b then
      (UInt8.ofNat (16 * unhex a + unhex b) :: ·) <$> unescapeBytes mode s
    else none
  | .char '%' :: _ => none
  | .char '+' :: s =>
    ((if mode = .queryComponent then 0x20 else 0x2b) :: ·) <$> unescapeBytes mode s
  | .char c :: s =>
    if mode.isHost && c.toNat < 0x80 && shouldEscape (UInt8.ofNat c.toNat) mode then none
    else (String.utf8EncodeChar c ++ ·) <$> unescapeBytes mode s
  | .bad b :: s => (b :: ·) <$> unescapeBytes mode s

def unescape (mode : Encoding) (s : GoString) : Option GoString := decode <$> unescapeBytes mode s

def upperHex (n : ℕ) : Char := "0123456789ABCDEF".toList.getD n '0'

def escapeByte (mode : Encoding) (b : UInt8) : GoString :=
  if shouldEscape b mode then
    if b = 0x20 ∧ mode = .queryComponent then [.char '+']
    else [.char '%', .char (upperHex (b.toNat / 16)), .char (upperHex (b.toNat % 16))]
  else [.char (Char.ofNat b.toNat)]

def escape (mode : Encoding) (s : GoString) : GoString := s.bytes.flatMap (escapeByte mode)

/-- A part in both forms. `raw` is empty when it would be what `text` is escaped to. -/
structure Part where
  text : GoString := []
  raw : GoString := []
  deriving DecidableEq, Repr

/-- `setPath` and `setFragment` -/
def Part.parse (mode : Encoding) (s : GoString) : Option Part := do
  let text ← unescape mode s
  return { text, raw := if s = escape mode text then [] else s }

def validEncoded (mode : Encoding) (s : GoString) : Bool :=
  s.all fun
    | .char c =>
      if "!$&'()*+,;=:@[]%".toList.contains c then true
      else c.toNat < 0x80 && !shouldEscape (UInt8.ofNat c.toNat) mode
    | .bad _ => false

/-- `EscapedPath` and `EscapedFragment` -/
def Part.escaped (mode : Encoding) (p : Part) : GoString :=
  if p.raw ≠ [] ∧ validEncoded mode p.raw ∧ unescape mode p.raw = some p.text then p.raw
  else if mode = .path ∧ p.text = ofString "*" then p.text
  else escape mode p.text

structure Userinfo where
  username : GoString
  password : Option GoString
  deriving DecidableEq, Repr

structure URL where
  scheme : GoString := []
  opaqueData : GoString := []
  user : Option Userinfo := none
  host : GoString := []
  path : Part := {}
  omitHost : Bool := false
  forceQuery : Bool := false
  rawQuery : GoString := []
  fragment : Part := {}
  deriving DecidableEq, Repr

def isSchemeChar (c : Char) : Bool := c.isAlphanum || c = '+' || c = '-' || c = '.'

/-- `getScheme`: the text before a colon that can be a scheme, in lower case, and the rest. -/
def getScheme (s : GoString) : Option (GoString × GoString) :=
  let (scheme, rest) := s.span fun
    | .char c => isSchemeChar c
    | .bad _ => false
  match scheme, rest with
  | [], .char ':' :: _ => none
  | .char c :: _, .char ':' :: rest =>
    if c.isAlpha then
      some (scheme.map fun
        | .char c => .char c.toLower
        | .bad b => .bad b, rest)
    else some ([], s)
  | _, _ => some ([], s)

def validOptionalPort (s : GoString) : Bool :=
  match s with
  | [] => true
  | .char ':' :: digits => digits.all fun
    | .char c => c.isDigit
    | .bad _ => false
  | _ => false

/-- The port with its colon, from the last colon on. -/
def colonPort (s : GoString) : Option (GoString × GoString) :=
  (cutLast ':' s).map fun (host, port) => (host, .char ':' :: port)

/-- `parseHost`. What becomes of a host with a bracket, which should hold an IPv6 address, is left
to `literal`. -/
def parseHost (literal : GoString → Option GoString) (s : GoString) : Option GoString :=
  if .char '[' ∈ s then literal s
  else
    match colonPort s with
    | some (_, port) => if validOptionalPort port then unescape .host s else none
    | none => unescape .host s

def validUserinfo (s : GoString) : Bool :=
  s.all fun
    | .char c => c.isAlphanum || "-._:~!$&'()*+,;=%@".toList.contains c
    | .bad _ => false

def parseUserinfo (s : GoString) : Option Userinfo :=
  if !validUserinfo s then none
  else if .char ':' ∈ s then do
    let (username, password) := cut ':' s
    let username ← unescape .userPassword username
    let password ← unescape .userPassword password
    return { username, password := some password }
  else do
    let username ← unescape .userPassword s
    return { username, password := none }

def parseAuthority (literal : GoString → Option GoString) (s : GoString) :
    Option (Option Userinfo × GoString) :=
  match cutLast '@' s with
  | none => do
    let host ← parseHost literal s
    return (none, host)
  | some (userinfo, host) => do
    let host ← parseHost literal host
    let user ← parseUserinfo userinfo
    return (some user, host)

def isControl : Rune → Bool
  | .char c => c.toNat < 0x20 || c.toNat = 0x7f
  | .bad _ => false

/-- The query, and whether there is an empty one that has to be written. -/
def cutQuery (s : GoString) : GoString × GoString × Bool :=
  let (rest, query) := cut '?' s
  (rest, query, .char '?' ∈ s && query = [])

/-- The part of `parse` behind the scheme and the query. -/
def parseHier (literal : GoString → Option GoString) (u : URL) (rest : GoString) : Option URL :=
  if !rest.hasPrefix (ofString "/") && u.scheme ≠ [] then some { u with opaqueData := rest }
  else if !rest.hasPrefix (ofString "/") && .char ':' ∈ (cut '/' rest).1 then none
  else if (u.scheme ≠ [] || !rest.hasPrefix (ofString "///")) && rest.hasPrefix (ofString "//") then do
    let authority := rest.drop 2
    let (user, host) ← parseAuthority literal (authority.takeWhile (· ≠ .char '/'))
    let path ← Part.parse .path (authority.dropWhile (· ≠ .char '/'))
    return { u with user, host, path }
  else do
    let path ← Part.parse .path rest
    return { u with path, omitHost := u.scheme ≠ [] && rest.hasPrefix (ofString "/") }

/-- `parse`, without the fragment. -/
def parseRequest (literal : GoString → Option GoString) (s : GoString) : Option URL :=
  if s.any isControl then none
  else if s = ofString "*" then some { path := { text := ofString "*" } }
  else do
    let (scheme, rest) ← getScheme s
    let (rest, rawQuery, forceQuery) := cutQuery rest
    parseHier literal { scheme, rawQuery, forceQuery } rest

/-- `url.Parse`; the texts of its errors are left out. -/
def parse (literal : GoString → Option GoString) (s : GoString) : Option URL := do
  let (s, fragment) := cut '#' s
  let u ← parseRequest literal s
  if fragment = [] then return u
  let fragment ← Part.parse .fragment fragment
  return { u with fragment }

def Userinfo.string (u : Userinfo) : GoString :=
  if u.username = [] ∧ u.password.getD [] = [] then []
  else
    escape .userPassword u.username ++
      match u.password with
      | some password => .char ':' :: escape .userPassword password
      | none => []

def URL.authority (u : URL) : GoString :=
  if u.scheme = [] && u.host = [] && u.user = none then []
  else if u.omitHost && u.host = [] && u.user = none then []
  else
    (if u.host ≠ [] || u.path.text ≠ [] || u.user ≠ none then ofString "//" else []) ++
      (match u.user with
        | some user => user.string ++ [.char '@']
        | none => []) ++
      escape .host u.host

/-- What `String` writes before the query. -/
def URL.hier (u : URL) : GoString :=
  let pre := if u.scheme = [] then [] else u.scheme ++ [.char ':']
  if u.opaqueData ≠ [] then pre ++ u.opaqueData
  else
    let pre := pre ++ u.authority
    let path := u.path.escaped .path
    if path ≠ [] && !path.hasPrefix (ofString "/") && u.host ≠ [] then pre ++ .char '/' :: path
    else if pre = [] && .char ':' ∈ (cut '/' path).1 then ofString "./" ++ path
    else pre ++ path

def URL.string (u : URL) : GoString :=
  u.hier ++ (if u.forceQuery || u.rawQuery ≠ [] then .char '?' :: u.rawQuery else []) ++
    (if u.fragment.text ≠ [] then .char '#' :: u.fragment.escaped .fragment else [])

def URL.splitHostPort (u : URL) : GoString × GoString :=
  let (host, port) :=
    match colonPort u.host with
    | some (host, port) => if validOptionalPort port then (host, port.tail) else (u.host, [])
    | none => (u.host, [])
  if host.hasPrefix (ofString "[") && host.hasSuffix (ofString "]") then
    ((host.drop 1).dropLast, port)
  else (host, port)

def URL.hostname (u : URL) : GoString := u.splitHostPort.1

def URL.port (u : URL) : GoString := u.splitHostPort.2

/-- `ParseQuery`: the items it accepts, in their order. -/
def parseQuery (query : GoString) : List (GoString × GoString) :=
  (split '&' query).filterMap fun item =>
    if item = [] || .char ';' ∈ item then none
    else do
      let (key, value) := cut '=' item
      let key ← unescape .queryComponent key
      let value ← unescape .queryComponent value
      return (key, value)

/-- `Values.Encode` of the values `values key` for each key. -/
def encodeQuery (keys : List GoString) (values : GoString → List GoString) : GoString :=
  join (ofString "&") <| (sortedSet keys).flatMap fun key =>
    (values key).map fun value =>
      escape .queryComponent key ++ .char '=' :: escape .queryComponent value

end NetUrl
