import CodexServer.Markdown

/-!
# Messages of bounded length

`TelegramMarkdown.render_html` cuts the HTML into messages: at a blank line, a line end or a space
outside of code blocks if there is one late enough, and else by force.
-/

namespace CodexServer.Markdown

def messageLimit : Nat := 4096

def preOpen : Text := "<pre>".toList

def preClose : Text := "</pre>".toList

/-- The last index where `sep` is found; the text begins at the index given first. -/
def rfindFrom (sep : Text) : Nat → Text → Option Nat
  | _, [] => none
  | index, c :: text =>
      match rfindFrom sep (index + 1) text with
      | some found => some found
      | none => if sep.isPrefixOf (c :: text) then some index else none

/-- `text.rfind(sep, 0, stop)` -/
def rfind (sep text : Text) (stop : Nat) : Option Nat := rfindFrom sep 0 (text.take stop)

/-- The first index where `sep` is found. -/
def findFrom (sep : Text) : Nat → Text → Option Nat
  | _, [] => none
  | index, c :: text =>
      if sep.isPrefixOf (c :: text) then some index else findFrom sep (index + 1) text

/-- `text.find(sep, start)` -/
def find (sep text : Text) (start : Nat) : Option Nat := findFrom sep start (text.drop start)

/-- The loop of `_pre_ranges` from a position on. -/
def preRangesFrom (text : Text) : Nat → Nat → List (Nat × Nat)
  | 0, _ => []
  | fuel + 1, pos =>
      match find preOpen text pos with
      | none => []
      | some start =>
          match find preClose text start with
          | none => [(start, text.length)]
          | some last =>
              (start, last + preClose.length) :: preRangesFrom text fuel (last + preClose.length)

/-- `_pre_ranges`. The position grows with each range. -/
def preRanges (text : Text) : List (Nat × Nat) := preRangesFrom text (text.length + 1) 0

def inside (ranges : List (Nat × Nat)) (index : Nat) : Bool :=
  ranges.any fun range => range.1 < index && index < range.2

/-- `while idx > 0 and inside(idx)`. The index falls with each turn. -/
def outside (ranges : List (Nat × Nat)) (sep text : Text) : Nat → Option Nat → Option Nat
  | fuel + 1, some index =>
      if 0 < index && inside ranges index then outside ranges sep text fuel (rfind sep text index)
      else some index
  | _, index => index

/-- The place after the separator that is taken. -/
def separatorCut (ranges : List (Nat × Nat)) (text : Text) (limit : Nat) :
    List (Text × Nat) → Option Nat
  | [] => none
  | (sep, threshold) :: seps =>
      match outside ranges sep text limit (rfind sep text limit) with
      | some index =>
          if threshold < index then some (index + sep.length)
          else separatorCut ranges text limit seps
      | none => separatorCut ranges text limit seps

/-- The separators, and the place that each has to be after. -/
def separators (limit : Nat) : List (Text × Nat) :=
  [("\n\n".toList, limit / 2), ("\n".toList, limit / 2), (" ".toList, 0)]

def codeClose : Text := "</code></pre>".toList

def codeOpen : Text := "<pre><code>".toList

/-- `_safe_cut`: where to cut, and whether by force. -/
def safeCut (text : Text) (limit : Nat) : Nat × Bool :=
  let ranges := preRanges (text.take (limit + preClose.length))
  match separatorCut ranges text limit (separators limit) with
  | some cut => (cut, false)
  | none =>
      let safeLimit := limit - codeClose.length
      match rfind "\n".toList text safeLimit with
      | some line => if 0 < line then (line + 1, true) else (safeLimit, true)
      | none => (safeLimit, true)

/-- A turn of the loop: a chunk, and the rest. -/
def cutOff (limit : Nat) (rest : Text) : Text × Text :=
  let cut := safeCut rest limit
  let head := rstrip (rest.take cut.1)
  if cut.2 then (head ++ codeClose, codeOpen ++ lstrip (rest.drop cut.1))
  else (head, lstrip (rest.drop cut.1))

/-- The loop of `_split_chunks`, `none` where it has not ended. -/
def splitFrom (limit : Nat) : Nat → Text → Option (List Text)
  | 0, _ => none
  | fuel + 1, rest =>
      if limit < rest.length then
        (splitFrom limit fuel (cutOff limit rest).2).map fun chunks => (cutOff limit rest).1 :: chunks
      else some (if rest.isEmpty then [] else [rest])

def splitChunks (text : Text) (limit : Nat) : Option (List Text) :=
  splitFrom limit (text.length + 1) text

/-- What `render_html` has rendered before it is cut. -/
def renderedText {nested : Bool} (blocks : Forest nested .blocks) : Option Text :=
  (render {} blocks.tokens).map fun rendered => strip rendered.1

/-- `render_html`, over the parser, which takes an autolink in the text of a link. The renderer raises
on nothing that the parser yields, and the loop ends. -/
def renderHtml (parse : Text → Forest true .blocks) (text : Text) : List Text :=
  if (strip text).isEmpty then []
  else ((renderedText (parse text)).bind fun rendered => splitChunks rendered messageLimit).getD []

end CodexServer.Markdown
