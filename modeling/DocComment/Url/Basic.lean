import DocComment.Text.Basic
import DocComment.Url.Host

namespace DocComment.Url

/-- The segments that mean the parent. -/
def isDoubleDot (segment : List Char) : Bool :=
  ["..", "%2e%2e", "%2e%2E", "%2E%2e", "%2E%2E", "%2e.", "%2E.", ".%2e", ".%2E"].contains
    (String.ofList segment)

def isSingleDot (segment : List Char) : Bool :=
  [".", "%2e", "%2E"].contains (String.ofList segment)

/-- A letter and a colon or bar, as the name of a drive. -/
def isDriveLetter : List Char → Bool
  | [letter, mark] => letter.isAlpha && (mark == ':' || mark == '|')
  | _ => false

def isNormalDriveLetter : List Char → Bool
  | [letter, ':'] => letter.isAlpha
  | _ => false

/-- A path up to and with its last slash, and the segment after it. -/
def splitLast (path : List Char) : List Char × List Char :=
  let last := (path.reverse.takeWhile (· != '/')).reverse
  (path.take (path.length - last.length), last)

/-- Removes the last segment; the drive of a file stays. -/
def popSegment (file : Bool) (path : List Char) : List Char :=
  let (before, last) := splitLast path
  if file && isNormalDriveLetter last then path else before

/-- Removes a slash at the end, if there is a segment before it that is no drive. -/
private def dropEndSlash (path : List Char) : List Char :=
  if path.getLast? == some '/' && path.dropLast.contains '/' then
    if isNormalDriveLetter (splitLast path.dropLast).2 then path else path.dropLast
  else path

private def endSlash (path : List Char) : List Char :=
  if path.getLast? == some '/' then path else path ++ ['/']

/-- Adds a segment, and a slash if one came after it. -/
def addSegment (file : Bool) (path segment : List Char) (slash : Bool) : List Char :=
  if isDoubleDot segment then
    let parent := popSegment file (dropEndSlash path)
    if slash then endSlash parent else parent
  else if isSingleDot segment then endSlash path
  else
    let segment := match segment with
      | [letter, _] => if file && path == ['/'] && isDriveLetter segment then [letter, ':'] else segment
      | _ => segment
    path ++ segment ++ (if slash then ['/'] else [])

/-- The path of a file has one slash at its start. -/
def filePath (path : List Char) : List Char :=
  '/' :: path.dropWhile (· == '/')

end DocComment.Url

namespace DocComment

/-- The parts of an address, each as it is written. -/
structure Url where
  scheme : List Char
  /-- User, host and port. -/
  authority : Option (List Char)
  host : List Char
  path : List Char
  query : Option (List Char)
  fragment : Option (List Char)
  deriving Repr, DecidableEq

namespace Url

/-- The schemes whose addresses always have a path below a host, with their default ports. -/
def specialSchemes : List (String × Option Nat) :=
  [("http", some 80), ("https", some 443), ("ws", some 80), ("wss", some 443), ("ftp", some 21),
   ("file", none)]

def isSpecial (scheme : List Char) : Bool :=
  (specialSchemes.lookup (String.ofList scheme)).isSome

def isFile (scheme : List Char) : Bool :=
  scheme == "file".toList

def defaultPort? (scheme : List Char) : Option Nat :=
  (specialSchemes.lookup (String.ofList scheme)).join

/-- Whether relative addresses mean nothing against this one. -/
def isOpaque (url : Url) : Bool :=
  url.authority.isNone && url.path.head? != some '/'

/-- The text of an address. A path that starts with two slashes is kept apart from the authority. -/
def chars (url : Url) : List Char :=
  url.scheme ++ ':' :: (match url.authority with
    | some authority => '/' :: '/' :: authority
    | none => if "//".toList.isPrefixOf url.path then ['/', '.'] else []) ++ url.path ++
    (match url.query with
    | some query => '?' :: query
    | none => []) ++
    (match url.fragment with
    | some fragment => '#' :: fragment
    | none => [])

def text (url : Url) : String :=
  String.ofList url.chars

end Url

end DocComment
