import RemoteModels.Url.Host

/-!
# URLs

An absolute URL is read leniently and kept in its normal form: the scheme and the host in lower
case, the usual port left out, dot segments resolved, and every part percent encoded as far as it
has to be.

What is kept is what is written out again, so a URL that was read and one that is read from its text
are the same kind of thing, with no memory of how it was spelled.

* `Url.parse` — the URL of a text.
* `Url.text` — the URL written out.
-/

set_option autoImplicit false

namespace RemoteModels

/-- Who is spoken to: user, password, host and port. -/
structure Authority where
  username : String := ""
  password : Option String := none
  host : String
  port : Option Nat := none
deriving DecidableEq

/-- The path of a URL: segments behind slashes, or a text without structure. -/
inductive UrlPath where
  | segments (l : List String)
  | plain (text : String)
deriving DecidableEq

/-- An absolute URL in its normal form. -/
structure Url where
  scheme : String
  authority : Option Authority
  path : UrlPath
  query : Option String := none
  fragment : Option String := none
deriving DecidableEq

namespace Url

/-! ## Writing

The parts are joined with their marks; a part that is not there leaves no mark. -/

def Authority.text (a : Authority) : String :=
  let password := match a.password with
    | some p => ":" ++ p
    | none => ""
  let user := a.username ++ password
  let port := match a.port with
    | some n => ":" ++ toString n
    | none => ""
  "//" ++ (if user = "" then "" else user ++ "@") ++ a.host ++ port

def UrlPath.text : UrlPath → String
  | .segments l => String.join (l.map ("/" ++ ·))
  | .plain s => s

/-- A path that would read as an authority gets a dot in front. -/
def pathText (u : Url) : String :=
  match u.authority, u.path with
  | none, .segments ("" :: s :: rest) => "/." ++ UrlPath.text (.segments ("" :: s :: rest))
  | _, p => UrlPath.text p

def optional (mark : String) : Option String → String
  | some s => mark ++ s
  | none => ""

/-- The URL as a text. -/
def text (u : Url) : String :=
  let authority := match u.authority with
    | some a => Authority.text a
    | none => ""
  u.scheme ++ ":" ++ authority ++ u.pathText ++ optional "?" u.query ++ optional "#" u.fragment

def hasHost (u : Url) : Bool :=
  match u.authority with
  | some a => a.host != ""
  | none => false

/-- The URL without user and password. -/
def withoutUser (u : Url) : Url :=
  { u with authority := u.authority.map fun a => { a with username := "", password := none } }

/-! ## Schemes

A scheme decides how the rest is read: whether there has to be a host, and whether a backslash is as
good as a slash. -/

/-- The usual port of a well-known scheme. -/
def usualPort : String → Option Nat
  | "http" => some 80
  | "ws" => some 80
  | "https" => some 443
  | "wss" => some 443
  | "ftp" => some 21
  | _ => none

/-- Whether a scheme is well known: its URLs have a host, and backslashes count as slashes. -/
def isSpecial (scheme : String) : Bool := (usualPort scheme).isSome || scheme == "file"

/-- Reads the scheme of a URL in front of its colon. -/
def readScheme : List Char → Option (String × List Char)
  | [] => none
  | c :: rest =>
    let isPart (x : Char) : Bool := x.isAlphanum || x == '+' || x == '-' || x == '.'
    if c.isAlpha then
      match rest.dropWhile isPart with
      | ':' :: after =>
        some (String.ofList ((c :: rest.takeWhile isPart).map Char.toLower), after)
      | _ => none
    else none

/-! ## Paths

Dot segments are resolved while the path is read, in their encoded spellings too. -/

/-- Whether a character divides segments. -/
def isSlash (special : Bool) (c : Char) : Bool := c == '/' || (special && c == '\\')

/-- Whether a character ends a path. -/
def endsPath (c : Char) : Bool := c == '?' || c == '#'

def lowered (s : String) : String := String.ofList (s.toList.map Char.toLower)

/-- A segment that stands for where it is. -/
def isHere (s : String) : Bool := [".", "%2e"].contains (lowered s)

/-- A segment that stands for the one above. -/
def isAbove (s : String) : Bool := ["..", ".%2e", "%2e.", "%2e%2e"].contains (lowered s)

/-- A segment that names a drive, which is never left. -/
def isDrive (s : String) : Bool :=
  match s.toList with
  | [c, d] => c.isAlpha && (d == ':' || d == '|')
  | _ => false

/-- Leaves the last segment, the first of the list. -/
def leave : List String → List String
  | [] => []
  | s :: rest => if isDrive s then s :: rest else rest

/-- Resolves dot segments.  The first argument holds the segments so far, the last one first. -/
def resolve : List String → List String → List String
  | done, [] => done.reverse
  | done, [s] =>
    if isAbove s then (leave done).reverse ++ [""]
    else if isHere s then done.reverse ++ [""]
    else done.reverse ++ [s]
  | done, s :: rest =>
    if isAbove s then resolve (leave done) rest
    else if isHere s then resolve done rest
    else resolve (s :: done) rest

/-- The segments of a path behind its first slash. -/
def readSegments (special : Bool) (cs : List Char) : List String :=
  resolve [] ((Text.parts (isSlash special) cs).map (encode inPath))

/-- The path behind the authority. -/
def readPath (special : Bool) (cs : List Char) : UrlPath :=
  match cs with
  | [] => .segments (if special then [""] else [])
  | c :: rest =>
    if isSlash special c then .segments (readSegments special rest)
    else .segments (readSegments special (c :: rest))

/-! ## Authorities

The last `@` ends the user, so one may stand in a password. -/

/-- Whether a character ends the authority. -/
def endsAuthority (special : Bool) (c : Char) : Bool := isSlash special c || endsPath c

/-- Cuts at the last `@`. -/
def splitUser (cs : List Char) : Option (List Char × List Char) :=
  let reversed := cs.reverse
  match reversed.dropWhile (· ≠ '@') with
  | [] => none
  | _at :: before => some (before.reverse, (reversed.takeWhile (· ≠ '@')).reverse)

/-- The user and password of a URL. -/
def readUser (cs : List Char) : String × Option String :=
  let name := cs.takeWhile (· ≠ ':')
  match cs.dropWhile (· ≠ ':') with
  | _colon :: c :: rest => (encode inUserinfo name, some (encode inUserinfo (c :: rest)))
  | _ => (encode inUserinfo name, none)

/-- Cuts a host from its port at the first colon outside brackets. -/
def splitPort : Bool → List Char → List Char × Option (List Char)
  | _, [] => ([], none)
  | inside, c :: rest =>
    if c = ':' ∧ !inside then ([], some rest)
    else
      let (host, port) := splitPort (c = '[' || (inside && c ≠ ']')) rest
      (c :: host, port)

/-- A port: digits up to 65535; none at all and the usual one are left out. -/
def readPort (scheme : String) (cs : List Char) : Option (Option Nat) :=
  if cs.isEmpty then some none
  else if cs.all Char.isDigit then
    match natIn 10 cs with
    | some n =>
      if 65535 < n then none
      else some (if some n = usualPort scheme then none else some n)
    | none => none
  else none

/-- The authority of a URL. -/
def readAuthority (scheme : String) (cs : List Char) : Option Authority := do
  let special := isSpecial scheme
  let (user, rest) := match splitUser cs with
    | some (u, rest) => (readUser u, rest)
    | none => (("", none), cs)
  let (hostText, portText) := splitPort false rest
  let host ← if special then parseHost hostText else parsePlainHost hostText
  if host = "" && (portText.isSome || user.1 ≠ "" || user.2.isSome) then none
  let port ← match portText with
    | some p => readPort scheme p
    | none => some none
  return { username := user.1, password := user.2, host := host, port := port }

/-! ## Whole URLs

There are three ways to go on behind the scheme: for files, for the other well-known schemes, and
for all the rest. -/

/-- The query and the fragment behind a path. -/
def readTail (special : Bool) (cs : List Char) : Option String × Option String :=
  let queryText := cs.takeWhile (· ≠ '#')
  let query := match queryText with
    | '?' :: q => some (encode (if special then inSpecialQuery else inQuery) q)
    | _ => none
  let fragment := match cs.dropWhile (· ≠ '#') with
    | _mark :: f => some (encode inFragment f)
    | [] => none
  (query, fragment)

/-- A URL from its scheme, authority, path and tail. -/
def assemble (scheme : String) (authority : Option Authority) (path : UrlPath)
    (tail : List Char) : Url :=
  let (query, fragment) := readTail (isSpecial scheme) tail
  { scheme := scheme, authority := authority, path := path, query := query, fragment := fragment }

/-- Reads on behind the slashes in front of the authority. -/
def readWithAuthority (scheme : String) (cs : List Char) : Option Url := do
  let special := isSpecial scheme
  let authority ← readAuthority scheme (cs.takeWhile (!endsAuthority special ·))
  let rest := cs.dropWhile (!endsAuthority special ·)
  return assemble scheme (some authority) (readPath special (rest.takeWhile (!endsPath ·)))
    (rest.dropWhile (!endsPath ·))

/-- Reads on in a URL of a file, which may name a host. -/
def readFile (cs : List Char) : Option Url := do
  let noHost (path : List Char) : Url :=
    assemble "file" (some { host := "" }) (readPath true (path.takeWhile (!endsPath ·)))
      (path.dropWhile (!endsPath ·))
  match cs with
  | a :: b :: rest =>
    if isSlash true a && isSlash true b then
      let hostText := rest.takeWhile (!endsAuthority true ·)
      let path := rest.dropWhile (!endsAuthority true ·)
      if hostText.isEmpty then return noHost path
      else if isDrive (String.ofList hostText) then return noHost rest
      else
        let host ← parseHost hostText
        if host = "localhost" then return noHost path
        else
          return assemble "file" (some { host := host })
            (readPath true (path.takeWhile (!endsPath ·))) (path.dropWhile (!endsPath ·))
    else return noHost cs
  | _ => return noHost cs

/-- Reads on behind a scheme that is not well known. -/
def readOther (scheme : String) (cs : List Char) : Option Url :=
  let path := cs.takeWhile (!endsPath ·)
  let tail := cs.dropWhile (!endsPath ·)
  match cs with
  | '/' :: '/' :: rest => readWithAuthority scheme rest
  | '/' :: _ => some (assemble scheme none (readPath false path) tail)
  | _ => some (assemble scheme none (.plain (encode inControls path)) tail)

/-- Leaves out controls and spaces at both ends, and tabs and line breaks everywhere. -/
def tidy (cs : List Char) : List Char :=
  let isEdge (c : Char) : Bool := c.toNat ≤ 0x20
  let trimmed := ((cs.dropWhile isEdge).reverse.dropWhile isEdge).reverse
  trimmed.filter fun c => c ≠ '\t' && c ≠ '\n' && c ≠ '\r'

/-- The URL of a text. -/
def parse (s : String) : Option Url := do
  let (scheme, rest) ← readScheme (tidy s.toList)
  if scheme = "file" then readFile rest
  else if isSpecial scheme then readWithAuthority scheme (rest.dropWhile (isSlash true))
  else readOther scheme rest

end Url
end RemoteModels
