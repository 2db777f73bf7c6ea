import Backtick.Tree.Parse

/-!
# Reading tokens by position

The parser again, over one list of tokens and by positions in it. A sub-parser is
given the position where it starts and its limit, the position of its boundary
token, and answers with the position where it stopped. All that could go wrong is
checked as it happens: each read of a token against the list, each cut of the
template against its length, and each position that a sub-parser answers with
against its limit.
-/

namespace Backtick

open Parse

inductive Stop
  /-- A token was read at a position outside the list. -/
  | outside
  /-- The template was cut at columns outside it. -/
  | cut
  /-- A sub-parser answered with a position beyond its limit. -/
  | overrun
  /-- The tokens make no tree. -/
  | refused (e : SyntaxError)
deriving DecidableEq, Repr

abbrev Checked (α : Type) := Except Stop α

structure Cursor where
  template : Bytes
  toks : List Token

namespace Cursor

variable (c : Cursor)

def refuse {α : Type} (t : Token) (cause : SyntaxCause) : Checked α :=
  .error (.refused ⟨cause, t.start⟩)

/-- A sub-parser that has to answer with a position up to its limit. -/
def within {α : Type} (limit : Nat) (x : Checked (α × Nat)) : Checked (α × Nat) := do
  let (a, next) <- x
  if next ≤ limit then .ok (a, next) else .error .overrun

/-! ## Tokens and spans -/

def read (i : Nat) : Checked Token :=
  match c.toks[i]? with
  | some t => .ok t
  | none => .error .outside

def look (i limit : Nat) : Checked Token :=
  if i < limit then c.read i else c.read limit

def expect (i limit : Nat) (kind : TokenKind) (cause : Token -> SyntaxCause) : Checked Token := do
  let t <- c.look i limit
  if t.kind ≠ kind then refuse t (cause t) else .ok t

def slice (start stop : Int) : Checked Bytes :=
  if 0 ≤ start ∧ start ≤ stop ∧ stop ≤ c.template.length then
    .ok ((c.template.drop start.toNat).take (stop - start).toNat)
  else
    .error .cut

def span (start stop : Int) : Checked Span :=
  if start < 0 || (c.template.length : Int) < stop || stop < start then
    .ok ⟨start, stop, []⟩
  else do
    let source <- c.slice start stop
    .ok ⟨start, stop, source⟩

def between (first last : Token) : Checked Span :=
  c.span first.start last.stop

def quoted (t : Token) : Checked StringLiteral := do
  let place <- c.between t t
  match t.lexeme with
  | [] => .ok ⟨place, [], none⟩
  | mark :: rest =>
      let value := if rest.getLast? = some mark then rest.dropLast else rest
      .ok ⟨place, value, if mark = 0 then none else some mark⟩

/-! ## Scans -/

/-- The first position of a token of a class from `i` on and before the limit. -/
def find (kind : TokenKind) (i limit : Nat) : Checked (Option {j : Nat // i ≤ j}) :=
  if i < limit then do
    let t <- c.read i
    if t.kind = kind then
      .ok (some ⟨i, Nat.le_refl i⟩)
    else
      let found <- find kind (i + 1) limit
      .ok (found.map fun j => ⟨j.1, Nat.le_of_succ_le j.2⟩)
  else
    .ok none
termination_by limit - i

/-- The position of the parenthesis that closes the depth, from `i` on and before the limit. -/
def matchParen (depth i limit : Nat) : Checked (Option (Fin limit)) :=
  if h : i < limit then do
    let t <- c.read i
    match t.kind with
    | .openParen => matchParen (depth + 1) (i + 1) limit
    | .closeParen =>
        match depth with
        | 0 => .ok (some ⟨i, h⟩)
        | depth + 1 => matchParen depth (i + 1) limit
    | _ => matchParen depth (i + 1) limit
  else
    .ok none
termination_by limit - i

/-- The positions of the commas outside parentheses, from `i` on and before the limit. -/
def commas (depth : Int) (i limit : Nat) : Checked (List (Fin limit)) :=
  if h : i < limit then do
    let t <- c.read i
    match t.kind with
    | .openParen => commas (depth + 1) (i + 1) limit
    | .closeParen => commas (depth - 1) (i + 1) limit
    | .comma =>
        if depth = 0 then do
          let more <- commas depth (i + 1) limit
          .ok (⟨i, h⟩ :: more)
        else
          commas depth (i + 1) limit
    | _ => commas depth (i + 1) limit
  else
    .ok []
termination_by limit - i

/-! ## Values -/

def getCall (pos limit : Nat) : Checked (GetCall × Nat) :=
  within limit do
    let word <- c.read pos
    let _ <- c.expect (pos + 1) limit .openParen (.noOpenParen .get)
    let name <- c.look (pos + 2) limit
    if name.kind ≠ .string || limit ≤ pos + 2 then
      refuse name (.nameNotString name)
    else
      let close <- c.expect (pos + 3) limit .closeParen (.noCloseParen .get)
      let place <- c.between word close
      let literal <- c.quoted name
      .ok (⟨place, some literal⟩, pos + 4)

def lengthCall (pos limit : Nat) : Checked (Expr × Nat) :=
  within limit do
    let word <- c.read pos
    let _ <- c.expect (pos + 1) limit .openParen (.noOpenParen .length)
    let arg <- c.look (pos + 2) limit
    if arg.kind ≠ .getWord || limit ≤ pos + 2 then
      refuse arg (.argumentNotGet arg)
    else
      let (call, next) <- c.getCall (pos + 2) limit
      let close <- c.expect next limit .closeParen (.noCloseParen .length)
      let place <- c.between word close
      .ok (.length place (some call), next + 1)

mutual

def value (pos limit : Nat) : Checked (Expr × Nat) :=
  within limit do
    let t <- c.look pos limit
    match t.kind with
    | .string =>
        let literal <- c.quoted t
        .ok (.string literal, pos + 1)
    | .number =>
        match Numeral.read? t.lexeme with
        | some n =>
            let place <- c.between t t
            .ok (.number place n, pos + 1)
        | none => refuse t (.badNumber t.lexeme)
    | .trueWord =>
        let place <- c.between t t
        .ok (.boolean place true, pos + 1)
    | .falseWord =>
        let place <- c.between t t
        .ok (.boolean place false, pos + 1)
    | .getWord =>
        let (call, next) <- c.getCall pos limit
        .ok (.get call, next)
    | .lengthWord => c.lengthCall pos limit
    | .ifWord => choice pos limit
    | _ => if limit ≤ pos then refuse t (.noValue t) else refuse t (.notAValue t)
termination_by (limit, 1)

def choice (pos limit : Nat) : Checked (Expr × Nat) :=
  within limit do
    let word <- c.read pos
    let opening <- c.expect (pos + 1) limit .openParen (.noOpenParen .choose)
    match <- c.matchParen 0 (pos + 2) limit with
    | none => refuse opening .unclosedIf
    | some close => arguments word (pos + 2) close
termination_by (limit, 0)

def arguments (word : Token) (pos close : Nat) : Checked (Expr × Nat) := do
  match <- c.commas 0 pos close with
  | [comma, comma'] =>
      let test <- condition pos comma
      let yes <- argument (comma + 1) comma'
      let no <- argument (comma' + 1) close
      let last <- c.read close
      let place <- c.between word last
      .ok (.choose place test yes no, close + 1)
  | _ :: _ :: extra :: more =>
      let t <- c.read extra
      refuse t (.argumentCount (more.length + 4))
  | found =>
      let t <- c.read close
      refuse t (.argumentCount (found.length + 1))
termination_by (close, 4)

def argument (pos limit : Nat) : Checked Expr := do
  let (v, next) <- value pos limit
  if next < limit then
    let t <- c.read next
    refuse t (.strayAfterArgument t)
  else
    .ok v
termination_by (limit, 2)

def condition (pos limit : Nat) : Checked Expr := do
  let (left, next) <- value pos limit
  if limit ≤ next then
    .ok left
  else
    let t <- c.read next
    match t.kind.comparator? with
    | some op =>
        let right <- argument (next + 1) limit
        let place <-
          c.span ((left.span?.map Span.start).getD 0) ((right.span?.map Span.stop).getD 0)
        .ok (.compare place left op right)
    | none => refuse t (.noComparator t)
termination_by (limit, 3)

end

/-! ## Segments -/

def formula (pos : Nat) : Checked (Segment × {next : Nat // pos < next}) := do
  let opening <- c.read pos
  match <- c.find .closeBrace (pos + 1) c.toks.length with
  | none => refuse opening .missingBrace
  | some close =>
      let last <- c.read close
      let place <- c.between opening last
      if pos + 1 < close then
        let (v, next) <- c.value (pos + 1) close
        if next < close then
          let t <- c.read next
          if startsValue t.kind then
            refuse t .secondValue
          else
            refuse t (.strayInFormula t)
        else
          .ok (.formula place (some v), ⟨close + 1, Nat.lt_succ_of_lt close.2⟩)
      else
        .ok (.formula place none, ⟨close + 1, Nat.lt_succ_of_lt close.2⟩)

def segments (pos limit : Nat) : Checked (List Segment × Nat) :=
  if pos < limit then do
    let t <- c.read pos
    match t.kind with
    | .string =>
        let place <- c.between t t
        let (more, last) <- segments (pos + 1) limit
        .ok (.text ⟨place, t.lexeme, none⟩ :: more, last)
    | .openFormula =>
        let (segment, next) <- c.formula pos
        let (more, last) <- segments next limit
        .ok (segment :: more, last)
    | _ => refuse t (.noSegment t)
  else
    .ok ([], pos)
termination_by limit - pos
decreasing_by
  · omega
  · have := next.2
    omega

def body : Nat -> Checked (TemplateBody × Nat)
  | 0 => .error .outside
  | limit + 1 => do
      let first <- c.read 0
      let last <- c.read limit
      let place <- c.between first last
      let (parts, next) <- c.segments 0 (limit + 1)
      .ok (⟨place, parts⟩, next)

def sourceFile : Checked (SourceFile × Nat) :=
  match c.toks.length with
  | 0 => .error (.refused ⟨.missingEnd, 1⟩)
  | last + 1 => do
      let eof <- c.read last
      if eof.kind ≠ .eof then
        .error (.refused ⟨.missingEnd, eof.stop⟩)
      else
        let first <- c.read 0
        let place <- c.between first eof
        let (parts, next) <-
          if 0 < last then do
            let (parts, next) <- c.body last
            .ok (some parts, next)
          else
            .ok (none, 0)
        if next ≠ last then
          let t <- c.read next
          refuse t .tokensLeft
        else
          let stop <- c.between eof eof
          .ok (⟨place, parts, some stop⟩, next + 1)

end Cursor

end Backtick
