import DocComment.Entity.Basic
import DocComment.Text.Basic

namespace DocComment.Comment

def isTerminator (c : Char) : Bool :=
  c == '.' || c == '!' || c == '?'

/-- Cuts a text after the first terminator that a blank or the end of the text follows. -/
def cutSentence? : List Char → Option (List Char × List Char)
  | [] => none
  | c :: rest =>
    if isTerminator c && rest.head?.all Unicode.isWhite then some ([c], rest)
    else (cutSentence? rest).map fun (sentence, after) => (c :: sentence, after)

def isBreak : Entity → Bool
  | .leaf .softBreak | .leaf .hardBreak => true
  | _ => false

/-- Splits inline content after its first sentence, which ends in a text that is not nested. Without
an end all of it is the sentence. Blanks and breaks between the two are dropped. -/
def splitFirstSentence : List Entity → List Entity × List Entity
  | [] => ([], [])
  | entity :: rest =>
    let cut? := match entity with
      | .leaf (.text written) => cutSentence? written.toList
      | _ => none
    match cut? with
    | some (sentence, after) =>
      let remainder := Text.trimStart after
      ([.leaf (.text (String.ofList sentence))],
        if remainder.isEmpty then rest.dropWhile isBreak
        else .leaf (.text (String.ofList remainder)) :: rest)
    | none =>
      let (first, others) := splitFirstSentence rest
      (entity :: first, others)

end DocComment.Comment
