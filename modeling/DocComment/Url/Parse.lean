import DocComment.Url.Basic

namespace DocComment.Url

private def isControlOrBlank (c : Char) : Bool :=
  c.toNat ≤ 32

/-- Blanks and control characters around an address and line ends and tabs in it do not count. -/
private def cleaned (text : List Char) : List Char :=
  (Text.dropEndWhile isControlOrBlank (text.dropWhile isControlOrBlank)).filter fun c =>
    c != '\t' && c != '\n' && c != '\r'

private def isSchemeChar (c : Char) : Bool :=
  c.isAlphanum || c == '+' || c == '-' || c == '.'

/-- The scheme in small letters and the text after its colon. -/
private def scheme? (text : List Char) : Option (List Char × List Char) :=
  match text with
  | [] => none
  | c :: _ =>
    if !c.isAlpha then none
    else match text.dropWhile isSchemeChar with
      | ':' :: rest => some ((text.takeWhile isSchemeChar).map Char.toLower, rest)
      | _ => none

private def inFragment (c : Char) : Bool :=
  [' ', '"', '<', '>', '\x60'].contains c

private def inPath (c : Char) : Bool :=
  inFragment c || ['#', '?', '\x7b', '\x7d'].contains c

private def inUser (c : Char) : Bool :=
  inPath c || ['/', ':', ';', '=', '@', '[', '\\', ']', '^', '|'].contains c

private def inQuery (special : Bool) (c : Char) : Bool :=
  [' ', '"', '#', '<', '>'].contains c || (special && c == '\x27')

private def isSlash (special : Bool) (c : Char) : Bool :=
  c == '/' || (special && c == '\\')

/-- Ends the authority. -/
private def endsAuthority (special : Bool) (c : Char) : Bool :=
  isSlash special c || c == '?' || c == '#'

/-- The path, query and fragment in the rest of an address. -/
structure Tail where
  path : List Char
  query : Option (List Char) := none
  fragment : Option (List Char) := none

/-- Adds the segments of text to a path, one at each slash. -/
private def addSegments (special file : Bool) (path : List Char) : List (List Char) → List Char
  | [] => path
  | [last] => addSegment file path (percentText inPath last) false
  | segment :: rest =>
    addSegments special file (addSegment file path (percentText inPath segment) true) rest

private def extendPath (special file : Bool) (path text : List Char) : List Char :=
  let extended := addSegments special file path (Text.splitBy (isSlash special) text)
  if file then filePath extended else extended

private def splitFragment (text : List Char) : List Char × Option (List Char) :=
  match Text.splitOnce (· == '#') text with
  | some (before, fragment) => (before, some (percentText inFragment fragment))
  | none => (text, none)

/-- Query and fragment; the text starts at the query. -/
private def queryTail (special : Bool) (path text : List Char) : Tail :=
  let (before, fragment) := splitFragment text
  match before with
  | '?' :: query => ⟨path, some (percentText (inQuery special) query), fragment⟩
  | _ => ⟨path, none, fragment⟩

private def isPathEnd (c : Char) : Bool :=
  c == '?' || c == '#'

/-- Extends a path by text up to a query or fragment. -/
private def tailFrom (special file : Bool) (path text : List Char) : Tail :=
  queryTail special (extendPath special file path (text.takeWhile fun c => !isPathEnd c))
    (text.dropWhile fun c => !isPathEnd c)

/-- The user part up to the last at-sign of an authority, in written form. -/
private def userText (user : List Char) : List Char :=
  let (name, password) := match Text.splitOnce (· == ':') user with
    | some (name, password) => (name, password)
    | none => (user, [])
  let name := percentText inUser name
  let password := if password.isEmpty then [] else ':' :: percentText inUser password
  if name.isEmpty && password.isEmpty then [] else name ++ password ++ ['@']

private def splitUser (authority : List Char) : Option (List Char × List Char) :=
  if authority.contains '@' then
    let host := (authority.reverse.takeWhile (· != '@')).reverse
    some (authority.take (authority.length - host.length - 1), host)
  else none

/-- A host up to a colon outside brackets, and the text after it. -/
private def splitPort (brackets : Bool) : List Char → List Char × List Char
  | [] => ([], [])
  | c :: rest =>
    if c == ':' && !brackets then ([], c :: rest)
    else
      let (host, port) := splitPort (if c == '[' then true else if c == ']' then false else brackets) rest
      (c :: host, port)

/-- A port in written form; the default one is left out. -/
private def portText? (scheme text : List Char) : Option (List Char) :=
  match text with
  | [] => some []
  | ':' :: digits =>
    if !digits.all Char.isDigit then none
    else
      let port := Text.decimalValue digits
      if 65535 < port then none
      else if digits.isEmpty || defaultPort? scheme == some port then some []
      else some (':' :: (toString port).toList)
  | _ => none

/-- User, host and port in written form, and the host alone. -/
private def authority? (scheme text : List Char) : Option (List Char × List Char) := do
  let special := isSpecial scheme
  let user := splitUser text
  let afterUser := match user with
    | some (_, host) => host
    | none => text
  let (hostText, port) := splitPort false afterUser
  if hostText.isEmpty && (special || !port.isEmpty || user.isSome) then none
  else
    let host ← if special then specialHost? hostText else opaqueHost? hostText
    let port ← portText? scheme port
    some ((match user with | some (user, _) => userText user | none => []) ++ host ++ port, host)

private def build (scheme : List Char) (authority : Option (List Char)) (host : List Char) (tail : Tail) :
    Url :=
  ⟨scheme, authority, host, tail.path, tail.query, tail.fragment⟩

/-- The address after the two slashes of its authority. -/
private def afterSlashes? (scheme text : List Char) : Option Url := do
  let special := isSpecial scheme
  let (authority, host) ← authority? scheme (text.takeWhile fun c => !endsAuthority special c)
  let rest := text.dropWhile fun c => !endsAuthority special c
  let tail := match rest with
    | c :: after =>
      if isSlash special c then tailFrom special false ['/'] after
      else if special then tailFrom special false ['/'] rest
      else queryTail special [] rest
    | [] => ⟨if special then ['/'] else [], none, none⟩
  some (build scheme (some authority) host tail)

/-- The path of an address that has no authority and no slash at the start. -/
private def opaqueTail (text : List Char) : Tail :=
  queryTail false (percentText (fun _ => false) (text.takeWhile fun c => !isPathEnd c))
    (text.dropWhile fun c => !isPathEnd c)

private def startsWithDrive (text : List Char) : Bool :=
  isDriveLetter (text.take 2) &&
    ((text.drop 2).head?.all fun c => c == '/' || c == '\\' || c == '?' || c == '#')

private def file (host : List Char) (tail : Tail) : Url :=
  build "file".toList (some host) host tail

/-- A file after the slashes of its authority. -/
private def fileAfterSlashes? (text : List Char) : Option Url :=
  let hostText := text.takeWhile fun c => !endsAuthority true c
  let rest := text.dropWhile fun c => !endsAuthority true c
  if isDriveLetter hostText then some (file [] (tailFrom true true ['/'] text))
  else
    let path := match rest with
      | c :: after => if isSlash true c then after else rest
      | [] => []
    let tail := tailFrom true true ['/'] path
    if hostText.isEmpty then some (file [] tail)
    else (specialHost? hostText).map fun host =>
      if host == "localhost".toList || startsWithDrive path then file [] tail else file host tail

private def withFragment (base : Url) (text : List Char) : Url :=
  { base with fragment := some (percentText inFragment text) }

/-- The host that a path without one belongs to. -/
private def baseHost (base : Option Url) : List Char :=
  match base with
  | some base => base.host
  | none => []

/-- A file, perhaps relative to another one. -/
private def file? (base : Option Url) (text : List Char) : Option Url :=
  match text with
  | a :: rest =>
    if isSlash true a then
      match rest with
      | b :: after =>
        if isSlash true b then fileAfterSlashes? after
        else some (file (baseHost base) (tailFrom true true ['/'] rest))
      | [] => some (file (baseHost base) (tailFrom true true ['/'] []))
    else
      match base with
      | none => some (file [] (tailFrom true true ['/'] text))
      | some base =>
        if a == '?' then
          let tail := queryTail true base.path text
          some { base with query := tail.query, fragment := tail.fragment }
        else if a == '#' then some (withFragment base rest)
        else if startsWithDrive text then some (file [] (tailFrom true true ['/'] text))
        else some (build base.scheme base.authority base.host
          (tailFrom true true (popSegment true base.path) text))
  | [] =>
    match base with
    | none => some (file [] ⟨['/'], none, none⟩)
    | some base => some { base with fragment := none }

/-- An address that has no scheme of its own. -/
private def relative? (base : Url) (text : List Char) : Option Url :=
  let special := isSpecial base.scheme
  let keepAuthority (tail : Tail) : Url := build base.scheme base.authority base.host tail
  match text with
  | [] => some { base with fragment := none }
  | c :: rest =>
    if c == '?' then some (keepAuthority (queryTail special base.path text))
    else if c == '#' then some (withFragment base rest)
    else if isSlash true c then
      match rest with
      | d :: after =>
        if isSlash true d then
          afterSlashes? base.scheme
            (if c == '/' && d == '/' then after else after.dropWhile (isSlash true))
        else some (keepAuthority (tailFrom special false ['/'] rest))
      | [] => some (keepAuthority (tailFrom special false ['/'] []))
    else
      let parent := popSegment false base.path
      some (keepAuthority (tailFrom special false (if parent.isEmpty then ['/'] else parent) text))

private def withScheme? (base : Option Url) (scheme text : List Char) : Option Url :=
  if isFile scheme then
    file? (base.bind fun base => if isFile base.scheme then some base else none) text
  else if isSpecial scheme then
    let slashes := (text.takeWhile (isSlash true)).length
    match base with
    | some base =>
      if slashes < 2 && base.scheme == scheme then relative? base text
      else afterSlashes? scheme (text.drop slashes)
    | none => afterSlashes? scheme (text.drop slashes)
  else
    match text with
    | '/' :: '/' :: rest => afterSlashes? scheme rest
    | '/' :: rest => some (build scheme none [] (tailFrom false false ['/'] rest))
    | _ => some (build scheme none [] (opaqueTail text))

/-- Reads an address. One without a scheme needs a base. -/
def read? (base : Option Url) (text : String) : Option Url :=
  let text := cleaned text.toList
  match scheme? text with
  | some (scheme, rest) => withScheme? base scheme rest
  | none =>
    base.bind fun base =>
      match text with
      | '#' :: rest => some (withFragment base rest)
      | _ =>
        if base.isOpaque then none
        else if isFile base.scheme then file? (some base) text
        else relative? base text

/-- Reads an address that stands alone. -/
def parse? (text : String) : Option Url :=
  read? none text

/-- Reads an address relative to this one. -/
def join? (base : Url) (text : String) : Option Url :=
  read? (some base) text

end DocComment.Url
