import DocComment.Text.Basic
import DocComment.Unicode.Case
import DocComment.Unicode.Word

namespace DocComment.Text

def isSlugSeparator (c : Char) : Bool :=
  Unicode.isWhite c || c == '-'

/-- Replaces every run of separators by one hyphen; `pending` tells that a run came just before. -/
def joinSeparators (pending : Bool) : List Char → List Char
  | [] => []
  | c :: rest =>
    if isSlugSeparator c then
      if pending then joinSeparators true rest else '-' :: joinSeparators true rest
    else c :: joinSeparators false rest

/-- Lowercase text without punctuation, its words joined by single hyphens. -/
def slugChars (text : List Char) : List Char :=
  let kept := (Unicode.lower text).filter fun c => Unicode.isWord c || isSlugSeparator c
  joinSeparators false (trim kept)

def slug (text : String) : String :=
  String.ofList (slugChars text.toList)

end DocComment.Text
