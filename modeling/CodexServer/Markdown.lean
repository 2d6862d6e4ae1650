import CodexServer.ChatEvent
import Mathlib.Data.List.DropRight

/-!
# Markdown for Telegram

`_TelegramHtmlRenderer` makes HTML of the tokens of the CommonMark parser (with strikethrough and
without HTML), in the few tags that Telegram takes. The renderer's state is the `env` of one run.
-/

namespace CodexServer.Markdown

abbrev Text := List Char

/-! ### Python's strings -/

/-- `html.escape` of one character. -/
def escapeChar (c : Char) : Text :=
  if c = '&' then "&amp;".toList
  else if c = '<' then "&lt;".toList
  else if c = '>' then "&gt;".toList
  else if c = '"' then "&quot;".toList
  else if c = '\'' then "&#x27;".toList
  else [c]

def escape (text : Text) : Text := text.flatMap escapeChar

def lstrip (text : Text) : Text := text.dropWhile isPythonSpace

def rstrip (text : Text) : Text := text.rdropWhile isPythonSpace

def strip (text : Text) : Text := rstrip (lstrip text)

/-- `rstrip("\n")` -/
def rstripNewlines (text : Text) : Text := text.rdropWhile fun c => c = '\n'

/-- `urlparse(url).scheme` -/
def urlScheme (url : Text) : Text :=
  let url := (url.dropWhile fun c => c.toNat ≤ 32).filter fun c =>
    c ≠ '\t' && c ≠ '\r' && c ≠ '\n'
  let scheme := url.takeWhile fun c => c ≠ ':'
  if scheme.length < url.length && scheme.head?.any Char.isAlpha &&
      scheme.all (fun c => c.isAlphanum || c = '+' || c = '-' || c = '.')
  then scheme.map Char.toLower else []

def allowedLinkSchemes : List Text :=
  ["http".toList, "https".toList, "tg".toList, "mailto".toList]

/-! ### Tokens -/

/-- The characters that the parser leaves in an address; it encodes the others. -/
def isEncoded (c : Char) : Bool :=
  c.isAlphanum || ";/?:@&=+$,-_.!~*'()#%".toList.contains c

structure Href where
  value : Text
  encoded : ∀ c ∈ value, isEncoded c = true

inductive InlineToken
  | text (content : Text)
  | softbreak
  | hardbreak
  | codeInline (content : Text)
  | image (content : Text)
  | strongOpen
  | strongClose
  | emOpen
  | emClose
  | sOpen
  | sClose
  | linkOpen (href : Option Href)
  | linkClose

inductive Token
  | paragraphOpen
  | paragraphClose
  | headingOpen
  | headingClose
  | blockquoteOpen
  | blockquoteClose
  | bulletListOpen
  | bulletListClose
  /-- With the attribute `start`. -/
  | orderedListOpen (start : Option Nat)
  | orderedListClose
  | listItemOpen
  | listItemClose
  | fence (info content : Text)
  | codeBlock (content : Text)
  | hr
  | inline (children : List InlineToken)

/-! ### The renderer -/

inductive ListTag
  | ul
  | ol
deriving DecidableEq

structure ListEntry where
  kind : ListTag
  number : Nat
deriving DecidableEq

/-- The last entry of `list_stack` is first here. -/
structure Env where
  listStack : List ListEntry := []
  bqDepth : Option Int := none
  skipLinkClose : Nat := 0

def linkOpen (env : Env) (href : Option Href) : Text × Env :=
  let href := (href.map Href.value).getD []
  if urlScheme href ∈ allowedLinkSchemes then
    ("<a href=\"".toList ++ escape href ++ "\">".toList, env)
  else ([], { env with skipLinkClose := env.skipLinkClose + 1 })

def linkClose (env : Env) : Text × Env :=
  if env.skipLinkClose = 0 then ("</a>".toList, env)
  else ([], { env with skipLinkClose := env.skipLinkClose - 1 })

def codeInline (content : Text) : Text :=
  "<code>".toList ++ escape content ++ "</code>".toList

/-- The rule of an inline token. -/
def inlineRule (env : Env) : InlineToken → Text × Env
  | .text content => (escape content, env)
  | .softbreak | .hardbreak => ("\n".toList, env)
  | .codeInline content => (codeInline content, env)
  | .image content => (escape content, env)
  | .strongOpen => ("<b>".toList, env)
  | .strongClose => ("</b>".toList, env)
  | .emOpen => ("<i>".toList, env)
  | .emClose => ("</i>".toList, env)
  | .sOpen => ("<s>".toList, env)
  | .sClose => ("</s>".toList, env)
  | .linkOpen href => linkOpen env href
  | .linkClose => linkClose env

def renderInline (env : Env) : List InlineToken → Text × Env
  | [] => ([], env)
  | token :: tokens =>
      let first := inlineRule env token
      let last := renderInline first.2 tokens
      (first.1 ++ last.1, last.2)

def paragraphClose (env : Env) : Text :=
  if env.listStack.isEmpty && (env.bqDepth.getD 0 == 0) then "\n\n".toList else "\n".toList

def openList (env : Env) (kind : ListTag) (number : Nat) : Env :=
  { env with listStack := ⟨kind, number⟩ :: env.listStack }

/-- Popping an empty stack raises. -/
def closeList (env : Env) : Option (Text × Env) :=
  match env.listStack with
  | [] => none
  | _ :: listStack =>
      some (if listStack.isEmpty then "\n".toList else [], { env with listStack := listStack })

/-- `int(attrGet("start") or 1)` -/
def startOf (start : Option Nat) : Nat :=
  match start with
  | some start => if start = 0 then 1 else start
  | none => 1

/-- The indent and the marker of an item, and the number of the next one. -/
def listItemOpen (env : Env) : Option (Text × Env) :=
  match env.listStack with
  | [] => none
  | ⟨kind, number⟩ :: listStack =>
      let indent := List.replicate (2 * listStack.length) ' '
      match kind with
      | .ol => some (indent ++ (toString number).toList ++ ". ".toList,
          { env with listStack := ⟨.ol, number + 1⟩ :: listStack })
      | .ul => some (indent ++ "• ".toList, env)

def fence (info content : Text) : Text :=
  let lang := (strip info).takeWhile fun c => !isPythonSpace c
  let klass := if lang.isEmpty then [] else
    " class=\"language-".toList ++ escape lang ++ "\"".toList
  "<pre><code".toList ++ klass ++ ">".toList ++ escape (rstripNewlines content) ++
    "</code></pre>\n\n".toList

def codeBlock (content : Text) : Text :=
  "<pre><code>".toList ++ escape (rstripNewlines content) ++ "</code></pre>\n\n".toList

/-- The rule of a token, `none` where it raises. A token without a rule is rendered as nothing. -/
def rule (env : Env) : Token → Option (Text × Env)
  | .inline children => some (renderInline env children)
  | .paragraphOpen | .listItemClose => some ([], env)
  | .paragraphClose => some (paragraphClose env, env)
  | .headingOpen => some ("<b>".toList, env)
  | .headingClose => some ("</b>\n\n".toList, env)
  | .blockquoteOpen => some ("<blockquote>".toList,
      { env with bqDepth := some (env.bqDepth.getD 0 + 1) })
  | .blockquoteClose => env.bqDepth.map fun depth =>
      ("</blockquote>\n\n".toList, { env with bqDepth := some (depth - 1) })
  | .bulletListOpen => some ([], openList env .ul 0)
  | .bulletListClose => closeList env
  | .orderedListOpen start => some ([], openList env .ol (startOf start))
  | .orderedListClose => closeList env
  | .listItemOpen => listItemOpen env
  | .fence info content => some (fence info content, env)
  | .codeBlock content => some (codeBlock content, env)
  | .hr => some (List.replicate 12 '─' ++ "\n\n".toList, env)

/-- Each token with what it is rendered as. -/
def renderEach (env : Env) : List Token → Option (List (Token × Text) × Env)
  | [] => some ([], env)
  | token :: tokens =>
      (rule env token).bind fun first =>
        (renderEach first.2 tokens).map fun last => ((token, first.1) :: last.1, last.2)

/-- `RendererHTML.render` -/
def render (env : Env) (tokens : List Token) : Option (Text × Env) :=
  (renderEach env tokens).map fun rendered => ((rendered.1.map Prod.snd).flatten, rendered.2)

/-! ### What the parser yields -/

/-- An inline token with nothing inside. -/
inductive InlineLeaf
  | text (content : Text)
  | softbreak
  | hardbreak
  | codeInline (content : Text)
  | image (content : Text)

def InlineLeaf.token : InlineLeaf → InlineToken
  | text content => .text content
  | softbreak => .softbreak
  | hardbreak => .hardbreak
  | codeInline content => .codeInline content
  | image content => .image content

inductive Emphasis
  | strong
  | em
  | s

def Emphasis.opens : Emphasis → InlineToken
  | strong => .strongOpen
  | em => .emOpen
  | s => .sOpen

def Emphasis.closes : Emphasis → InlineToken
  | strong => .strongClose
  | em => .emClose
  | s => .sClose

/-- A well-nested row of inline tokens, inside of a link or not. Links are nested in links or not: the
parser takes no link for the text of another, but it does take an autolink there. -/
inductive Line (nested : Bool) : Bool → Type
  | nil {linked : Bool} : Line nested linked
  | leaf {linked : Bool} (inner : InlineLeaf) (rest : Line nested linked) : Line nested linked
  | emphasis {linked : Bool} (style : Emphasis) (body rest : Line nested linked) : Line nested linked
  | link (href : Option Href) (body : Line nested (!nested)) (rest : Line nested false) :
      Line nested false

variable {nested : Bool}

def Line.tokens : {linked : Bool} → Line nested linked → List InlineToken
  | _, nil => []
  | _, leaf inner rest => inner.token :: rest.tokens
  | _, emphasis style body rest => style.opens :: (body.tokens ++ style.closes :: rest.tokens)
  | _, link href body rest => .linkOpen href :: (body.tokens ++ .linkClose :: rest.tokens)

inductive BlockLeaf
  | fence (info content : Text)
  | codeBlock (content : Text)
  | hr

def BlockLeaf.token : BlockLeaf → Token
  | fence info content => .fence info content
  | codeBlock content => .codeBlock content
  | hr => .hr

inductive ListKind
  | bullet
  | ordered (start : Nat)
deriving DecidableEq

/-- The parser leaves out a start of one. -/
def ListKind.opens : ListKind → Token
  | bullet => .bulletListOpen
  | ordered start => .orderedListOpen (if start = 1 then none else some start)

def ListKind.closes : ListKind → Token
  | bullet => .bulletListClose
  | ordered _ => .orderedListClose

inductive Level
  | blocks
  | items

/-- A well-nested row of blocks, or of the items of a list. -/
inductive Forest (nested : Bool) : Level → Type
  | nil {level : Level} : Forest nested level
  | paragraph (line : Line nested false) (rest : Forest nested .blocks) : Forest nested .blocks
  | heading (line : Line nested false) (rest : Forest nested .blocks) : Forest nested .blocks
  | leaf (inner : BlockLeaf) (rest : Forest nested .blocks) : Forest nested .blocks
  | quote (body rest : Forest nested .blocks) : Forest nested .blocks
  | list (kind : ListKind) (items : Forest nested .items) (rest : Forest nested .blocks) :
      Forest nested .blocks
  | item (body : Forest nested .blocks) (rest : Forest nested .items) : Forest nested .items

def Forest.tokens : {level : Level} → Forest nested level → List Token
  | _, nil => []
  | _, paragraph line rest =>
      .paragraphOpen :: .inline line.tokens :: .paragraphClose :: rest.tokens
  | _, heading line rest => .headingOpen :: .inline line.tokens :: .headingClose :: rest.tokens
  | _, leaf inner rest => inner.token :: rest.tokens
  | _, quote body rest => .blockquoteOpen :: (body.tokens ++ .blockquoteClose :: rest.tokens)
  | _, list kind items rest => kind.opens :: (items.tokens ++ kind.closes :: rest.tokens)
  | _, item body rest => .listItemOpen :: (body.tokens ++ .listItemClose :: rest.tokens)

end CodexServer.Markdown
