import DocComment.Markup.LineMarks

namespace DocComment.Markup

private def isTagSpace (c : Char) : Bool :=
  isLineBlank c || c == '\n'

private def isAttributeStart (c : Char) : Bool :=
  c.isAlpha || c == '_' || c == ':'

private def isAttributeRest (c : Char) : Bool :=
  isAttributeStart c || c.isDigit || c == '.' || c == '-'

private def isUnquoted (c : Char) : Bool :=
  !(isTagSpace c || c == '"' || c == '\'' || c == '=' || c == '<' || c == '>' || c == '`')

/-- Skips the value of an attribute. -/
private def attributeValue? (text : List Char) : Option (List Char) :=
  match text with
  | '"' :: rest => (Text.splitOnce (· == '"') rest).map (·.2)
  | '\'' :: rest => (Text.splitOnce (· == '\'') rest).map (·.2)
  | c :: rest => if isUnquoted c then some (rest.dropWhile isUnquoted) else none
  | [] => none

/-- Skips one attribute: a name and perhaps a value. -/
private def attribute? (text : List Char) : Option (List Char) :=
  match text with
  | c :: rest =>
    if isAttributeStart c then
      let afterName := rest.dropWhile isAttributeRest
      match afterName.dropWhile isTagSpace with
      | '=' :: value => attributeValue? (value.dropWhile isTagSpace)
      | _ => some afterName
    else none
  | [] => none

/-- Skips attributes, each after some space, up to the end of the tag. -/
private def attributesEnd? : Nat → List Char → Option (List Char)
  | 0, _ => none
  | fuel + 1, text =>
    let next := text.dropWhile isTagSpace
    match next with
    | '>' :: rest => some rest
    | '/' :: '>' :: rest => some rest
    | _ =>
      if next.length == text.length then none
      else (attribute? next).bind (attributesEnd? fuel)

private def isTagNameRest (c : Char) : Bool :=
  c.isAlphanum || c == '-'

/-- An opening or closing tag. -/
def tagEnd? (text : List Char) : Option (List Char) :=
  match text with
  | '/' :: c :: rest =>
    if c.isAlpha then
      match (rest.dropWhile isTagNameRest).dropWhile isTagSpace with
      | '>' :: after => some after
      | _ => none
    else none
  | c :: rest =>
    if c.isAlpha then attributesEnd? (text.length + 1) (rest.dropWhile isTagNameRest) else none
  | [] => none

/-- The text after the first occurrence of `close`. -/
def after? (close : List Char) : List Char → Option (List Char)
  | [] => if close.isEmpty then some [] else none
  | c :: rest => (Text.stripStart close (c :: rest)).or (after? close rest)

/-- Any raw markup inside a line of text: a tag, a comment, a processing instruction, a
declaration or a character data section. -/
def inlineMarkupEnd? (text : List Char) : Option (List Char) :=
  match text with
  | '!' :: '-' :: '-' :: rest =>
    match rest with
    | '>' :: after => some after
    | '-' :: '>' :: after => some after
    | _ => after? ['-', '-', '>'] rest
  | '!' :: '[' :: rest => (Text.stripStart "CDATA[".toList rest).bind (after? [']', ']', '>'])
  | '!' :: c :: rest =>
    if c.isAlpha then
      let afterName := rest.dropWhile Char.isAlpha
      match afterName with
      | d :: _ => if isTagSpace d then after? ['>'] afterName else none
      | [] => none
    else none
  | '?' :: rest => after? ['?', '>'] rest
  | _ => tagEnd? text

private def isSchemeRest (c : Char) : Bool :=
  c.isAlphanum || c == '.' || c == '-' || c == '+'

/-- An address with a scheme of 2 to 32 characters, up to the closing bracket. -/
private def addressEnd? (text : List Char) : Option (List Char × List Char) :=
  match text with
  | c :: rest =>
    let scheme := rest.takeWhile isSchemeRest
    if c.isAlpha && 1 ≤ scheme.length && scheme.length ≤ 31 then
      match rest.drop scheme.length with
      | ':' :: tail =>
        let path := tail.takeWhile fun d => !(d.toNat ≤ 0x20 || d == '<' || d == '>')
        match tail.drop path.length with
        | '>' :: after => some (c :: scheme ++ ':' :: path, after)
        | _ => none
      | _ => none
    else none
  | [] => none

private def isMailboxChar (c : Char) : Bool :=
  c.isAlphanum || ".!#$%&'*+/=?^_`\x7b|\x7d~-".toList.contains c

/-- A label of a host name: letters, digits and inner hyphens, at most 63 of them. -/
private def isHostLabel (label : List Char) : Bool :=
  !label.isEmpty && label.length ≤ 63 && label.head? != some '-' && label.getLast? != some '-'

/-- A mail address up to the closing bracket. -/
private def mailEnd? (text : List Char) : Option (List Char × List Char) :=
  let mailbox := text.takeWhile isMailboxChar
  if mailbox.isEmpty then none
  else match text.drop mailbox.length with
    | '@' :: tail =>
      let host := tail.takeWhile fun c => c.isAlphanum || c == '-' || c == '.'
      match tail.drop host.length with
      | '>' :: after =>
        if (Text.splitBy (· == '.') host).all isHostLabel then some (mailbox ++ '@' :: host, after)
        else none
      | _ => none
    | _ => none

/-- An autolink: the address it shows and points to, and the text after it. -/
def autolink? (text : List Char) : Option (List Char × List Char) :=
  (addressEnd? text).or (mailEnd? text)

/-- Names of tags that start a block of raw markup. -/
def blockTags : List String :=
  ["address", "article", "aside", "base", "basefont", "blockquote", "body", "caption", "center",
   "col", "colgroup", "dd", "details", "dialog", "dir", "div", "dl", "dt", "fieldset",
   "figcaption", "figure", "footer", "form", "frame", "frameset", "h1", "h2", "h3", "h4", "h5",
   "h6", "head", "header", "hr", "html", "iframe", "legend", "li", "link", "main", "menu",
   "menuitem", "nav", "noframes", "ol", "optgroup", "option", "p", "param", "search", "section",
   "summary", "table", "tbody", "td", "tfoot", "th", "thead", "title", "tr", "track", "ul"]

private def startsTag (name : String) (text : List Char) : Bool :=
  let chars := name.toList
  (text.take chars.length).map Char.toLower == chars &&
    match text.drop chars.length with
    | [] => true
    | c :: _ => isLineBlank c || c == '>'

/-- Tags whose block runs to their closing tag. -/
private def verbatimTags : List String :=
  ["pre", "style", "script", "textarea"]

/-- How a block of raw markup that starts with an angle bracket ends. -/
inductive HtmlEnd where
  /-- At the line that holds this text. -/
  | holding (close : List Char)
  /-- Before a blank line. -/
  | blankLine
  deriving Repr, DecidableEq

/-- Blocks that may interrupt a paragraph. -/
def interruptingHtml? (text : List Char) : Option HtmlEnd :=
  match verbatimTags.find? (startsTag · text) with
  | some name => some (.holding ("</" ++ name ++ ">").toList)
  | none =>
    match text with
    | '!' :: '-' :: '-' :: _ => some (.holding ['-', '-', '>'])
    | '?' :: _ => some (.holding ['?', '>'])
    | '!' :: '[' :: 'C' :: 'D' :: 'A' :: 'T' :: 'A' :: '[' :: _ => some (.holding [']', ']', '>'])
    | '!' :: c :: _ => if c.isAlpha then some (.holding ['>']) else none
    | _ =>
      let body := match text with
        | '/' :: rest => rest
        | _ => text
      let name := body.takeWhile Char.isAlphanum
      let known := blockTags.contains (String.ofList (name.map Char.toLower))
      let ended := match body.drop name.length with
        | [] => true
        | '/' :: '>' :: _ => true
        | c :: _ => c == ' ' || c == '\t' || c == '>'
      if known && ended then some .blankLine else none

/-- The block of raw markup that starts after an opening angle bracket. A single complete tag
alone on its line starts one too. -/
def htmlBlock? (text : List Char) : Option HtmlEnd :=
  (interruptingHtml? text).or <|
    match tagEnd? text with
    | some rest => if isBlankLine rest then some .blankLine else none
    | none => none

end DocComment.Markup
