import Backtick.Number.Numeral
import Backtick.Tree.Basic

/-!
# Trees from tokens

The grammar of a template:

    template  = (text | formula)* eof
    formula   = opening value? "}"
    value     = string | number | TRUE | FALSE
              | GET "(" string ")"
              | LENGTH "(" GET "(" string ")" ")"
              | IF "(" value (comparator value)? "," value "," value ")"

A sub-parser is given the tokens before a boundary and the boundary token
itself. It answers with a node and the number of tokens it took. Reading past
the boundary finds the boundary token, whose column a fault then reports. The
parentheses and commas of `IF` are found by counting depth.
-/

namespace Backtick

inductive CallWord
  | get
  | length
  | choose
deriving DecidableEq, Repr

def CallWord.text : CallWord -> Bytes
  | .get => "GET"
  | .length => "LENGTH"
  | .choose => "IF"

inductive SyntaxCause
  | missingEnd
  | missingBrace
  | secondValue
  | strayInFormula (found : Token)
  | noSegment (found : Token)
  | noValue (found : Token)
  | notAValue (found : Token)
  | badNumber (lexeme : Bytes)
  | noOpenParen (call : CallWord) (found : Token)
  | noCloseParen (call : CallWord) (found : Token)
  | nameNotString (found : Token)
  | argumentNotGet (found : Token)
  | unclosedIf
  | argumentCount (count : Nat)
  | strayAfterArgument (found : Token)
  | noComparator (found : Token)
  | tokensLeft
deriving DecidableEq, Repr

def Token.shown (t : Token) : Bytes :=
  if t.kind = .eof then "end of template"
  else if t.kind = .closeBrace then "end of formula"
  else if t.kind.isKeyword then "keyword " ++ t.lexeme
  else Text.quote t.lexeme

def SyntaxCause.message : SyntaxCause -> Bytes
  | .missingEnd => "missing end of template"
  | .missingBrace => "missing '\x7d' for formula"
  | .secondValue => "formula cannot contain more than one value"
  | .strayInFormula found => "unexpected " ++ found.shown ++ " in formula"
  | .noSegment found => "expected text or formula, found " ++ found.shown
  | .noValue found => "expected value, found " ++ found.shown
  | .notAValue found => "unexpected " ++ found.shown ++ ", expected value"
  | .badNumber lexeme => "invalid number " ++ Text.quote lexeme
  | .noOpenParen call found => "expected '(' after " ++ call.text ++ ", found " ++ found.shown
  | .noCloseParen call found =>
      "expected ')' after " ++ call.text ++ " argument, found " ++ found.shown
  | .nameNotString found => "GET argument must be a string literal, found " ++ found.shown
  | .argumentNotGet found => "LENGTH argument must be a GET call, found " ++ found.shown
  | .unclosedIf => "missing ')' for IF"
  | .argumentCount count =>
      "IF expects 3 arguments separated by ',', found " ++ Bytes.ofNat count
  | .strayAfterArgument found => "unexpected " ++ found.shown ++ " after IF argument"
  | .noComparator found => "expected comparator, found " ++ found.shown
  | .tokensLeft => "not all tokens parsed"

/-- A cause with the column of the offending token. -/
structure SyntaxError where
  cause : SyntaxCause
  column : Int
deriving DecidableEq, Repr

namespace Parse

def failAt {α : Type} (t : Token) (cause : SyntaxCause) : Except SyntaxError α :=
  .error ⟨cause, t.start⟩

/-- The part of the template between two columns; it has no text if they are out of order. -/
def spanOf (template : Bytes) (start stop : Int) : Span :=
  if start < 0 || (template.length : Int) < stop || stop < start then
    ⟨start, stop, []⟩
  else
    ⟨start, stop, (template.drop start.toNat).take (stop - start).toNat⟩

/-- The span from the start of one token to the end of another. -/
def between (template : Bytes) (first last : Token) : Span :=
  spanOf template first.start last.stop

def tokenSpan (template : Bytes) (t : Token) : Span :=
  between template t t

/-- The token at an index, or the boundary token from the boundary on. -/
def tokenAt (toks : List Token) (bound : Token) (i : Nat) : Token :=
  toks.getD i bound

/-- A quoted text without its marks; an unterminated one keeps all behind its opening mark. -/
def quoted (template : Bytes) (t : Token) : StringLiteral :=
  match t.lexeme with
  | [] => ⟨tokenSpan template t, [], none⟩
  | mark :: rest =>
      let value := if rest.getLast? = some mark then rest.dropLast else rest
      ⟨tokenSpan template t, value, if mark = 0 then none else some mark⟩

/-! ## Delimiters -/

/--
The tokens up to the parenthesis that closes the depth, that parenthesis, and
the tokens behind it.
-/
def closing? (depth : Nat) : List Token -> Option (List Token × Token × List Token)
  | [] => none
  | t :: rest =>
      let go (depth : Nat) :=
        (closing? depth rest).map fun (inner, close, after) => (t :: inner, close, after)
      match t.kind with
      | .openParen => go (depth + 1)
      | .closeParen =>
          match depth with
          | 0 => some ([], t, rest)
          | depth + 1 => go depth
      | _ => go depth

/-- The commas outside parentheses, each with the tokens since the one before it, and the last
run. -/
def atCommas (depth : Int) : List Token -> List (List Token × Token) × List Token
  | [] => ([], [])
  | t :: rest =>
      let extend (parts : List (List Token × Token) × List Token) :=
        match parts with
        | ([], last) => ([], t :: last)
        | ((run, comma) :: more, last) => ((t :: run, comma) :: more, last)
      match t.kind with
      | .openParen => extend (atCommas (depth + 1) rest)
      | .closeParen => extend (atCommas (depth - 1) rest)
      | .comma =>
          if depth = 0 then
            let (more, last) := atCommas depth rest
            (([], t) :: more, last)
          else
            extend (atCommas depth rest)
      | _ => extend (atCommas depth rest)

theorem length_closing? {depth : Nat} {toks inner after : List Token} {close : Token}
    (h : closing? depth toks = some (inner, close, after)) :
    inner.length + 1 + after.length = toks.length := by
  induction toks generalizing depth inner with
  | nil => simp [closing?] at h
  | cons t rest ih =>
      have step {d : Nat}
          (hd : ((closing? d rest).map fun (inner, close, after) =>
            (t :: inner, close, after)) = some (inner, close, after)) :
          inner.length + 1 + after.length = (t :: rest).length := by
        cases hr : closing? d rest with
        | none => simp [hr] at hd
        | some found =>
            obtain ⟨inner', close', after'⟩ := found
            simp only [hr, Option.map_some, Option.some.injEq, Prod.mk.injEq] at hd
            obtain ⟨rfl, rfl, rfl⟩ := hd
            have := ih hr
            simp only [List.length_cons]
            omega
      unfold closing? at h
      split at h
      · exact step h
      · split at h
        · simp only [Option.some.injEq, Prod.mk.injEq] at h
          obtain ⟨rfl, rfl, rfl⟩ := h
          simp only [List.length_nil, List.length_cons]
          omega
        · exact step h
      · exact step h

/-- Total number of tokens in the parts between commas, the commas included. -/
def partsLength (parts : List (List Token × Token) × List Token) : Nat :=
  parts.1.foldr (fun part total => part.1.length + 1 + total) parts.2.length

theorem partsLength_atCommas (depth : Int) (toks : List Token) :
    partsLength (atCommas depth toks) = toks.length := by
  induction toks generalizing depth with
  | nil => simp [atCommas, partsLength]
  | cons t rest ih =>
      unfold atCommas
      split
      · have := ih (depth + 1)
        revert this
        rcases atCommas (depth + 1) rest with ⟨_ | ⟨⟨run, comma⟩, more⟩, last⟩
        · simp [partsLength]
        · simp [partsLength]
          omega
      · have := ih (depth - 1)
        revert this
        rcases atCommas (depth - 1) rest with ⟨_ | ⟨⟨run, comma⟩, more⟩, last⟩
        · simp [partsLength]
        · simp [partsLength]
          omega
      · have := ih depth
        revert this
        split <;> rcases atCommas depth rest with ⟨_ | ⟨⟨run, comma⟩, more⟩, last⟩ <;>
          simp [partsLength] <;> omega
      · have := ih depth
        revert this
        rcases atCommas depth rest with ⟨_ | ⟨⟨run, comma⟩, more⟩, last⟩
        · simp [partsLength]
        · simp [partsLength]
          omega

/-! ## Values -/

def startsValue : TokenKind -> Bool
  | .string | .number | .trueWord | .falseWord | .getWord | .lengthWord | .ifWord => true
  | _ => false

/-- Reads `GET "(" string ")"` from tokens that begin with the word. -/
def getCall (template : Bytes) (toks : List Token) (bound : Token) :
    Except SyntaxError (GetCall × Nat) :=
  let word := tokenAt toks bound 0
  let opening := tokenAt toks bound 1
  let name := tokenAt toks bound 2
  let close := tokenAt toks bound 3
  if opening.kind ≠ .openParen then
    failAt opening (.noOpenParen .get opening)
  else if name.kind ≠ .string || toks.length ≤ 2 then
    failAt name (.nameNotString name)
  else if close.kind ≠ .closeParen then
    failAt close (.noCloseParen .get close)
  else
    .ok (⟨between template word close, some (quoted template name)⟩, 4)

/-- Reads `LENGTH "(" get-call ")"` from tokens that begin with the word. -/
def lengthCall (template : Bytes) (toks : List Token) (bound : Token) :
    Except SyntaxError (Expr × Nat) :=
  let word := tokenAt toks bound 0
  let opening := tokenAt toks bound 1
  let arg := tokenAt toks bound 2
  if opening.kind ≠ .openParen then
    failAt opening (.noOpenParen .length opening)
  else if arg.kind ≠ .getWord || toks.length ≤ 2 then
    failAt arg (.argumentNotGet arg)
  else do
    let (call, taken) <- getCall template (toks.drop 2) bound
    let close := tokenAt toks bound (2 + taken)
    if close.kind ≠ .closeParen then
      failAt close (.noCloseParen .length close)
    else
      .ok (.length (between template word close) (some call), 2 + taken + 1)

def comparisonSpan (template : Bytes) (left right : Expr) : Span :=
  spanOf template ((left.span?.map Span.start).getD 0) ((right.span?.map Span.stop).getD 0)

mutual

/-- Reads one value from the tokens before a boundary. -/
def value (template : Bytes) (toks : List Token) (bound : Token) :
    Except SyntaxError (Expr × Nat) :=
  match toks with
  | [] => failAt bound (.noValue bound)
  | t :: rest =>
      match t.kind with
      | .string => .ok (.string (quoted template t), 1)
      | .number =>
          match Numeral.read? t.lexeme with
          | some n => .ok (.number (tokenSpan template t) n, 1)
          | none => failAt t (.badNumber t.lexeme)
      | .trueWord => .ok (.boolean (tokenSpan template t) true, 1)
      | .falseWord => .ok (.boolean (tokenSpan template t) false, 1)
      | .getWord => do
          let (call, taken) <- getCall template (t :: rest) bound
          .ok (.get call, taken)
      | .lengthWord => lengthCall template (t :: rest) bound
      | .ifWord => choice template t rest bound
      | _ => failAt t (.notAValue t)
termination_by (toks.length, 1)

/-- Reads the arguments of `IF` behind its word. -/
def choice (template : Bytes) (word : Token) (toks : List Token) (bound : Token) :
    Except SyntaxError (Expr × Nat) :=
  match toks with
  | [] => failAt bound (if bound.kind = .openParen then .unclosedIf else .noOpenParen .choose bound)
  | opening :: inside =>
      if opening.kind ≠ .openParen then
        failAt opening (.noOpenParen .choose opening)
      else
        match _hc : closing? 0 inside with
        | none => failAt opening .unclosedIf
        | some (args, close, _) =>
            match hp : atCommas 0 args with
            | ([(test, comma), (yes, comma')], no) => do
                let cond <- condition template test comma
                let yes <- argument template yes comma'
                let no <- argument template no close
                .ok (.choose (between template word close) cond yes no, args.length + 3)
            | (_ :: _ :: (_, extra) :: more, _) => failAt extra (.argumentCount (more.length + 4))
            | (parts, _) => failAt close (.argumentCount (parts.length + 1))
termination_by (toks.length, 0)
decreasing_by
  all_goals
    have hargs := length_closing? _hc
    have hparts := partsLength_atCommas 0 args
    rw [hp] at hparts
    simp [partsLength] at hparts
    exact Prod.Lex.left _ _ (by simp only [List.length_cons]; omega)

/-- Reads a value that is all the tokens before a boundary. -/
def argument (template : Bytes) (toks : List Token) (bound : Token) : Except SyntaxError Expr := do
  let (v, taken) <- value template toks bound
  match toks.drop taken with
  | [] => .ok v
  | t :: _ => failAt t (.strayAfterArgument t)
termination_by (toks.length, 2)

/-- Reads a value, or two joined by a comparator, that are all the tokens before a boundary. -/
def condition (template : Bytes) (toks : List Token) (bound : Token) :
    Except SyntaxError Expr := do
  let (left, taken) <- value template toks bound
  match _hd : toks.drop taken with
  | [] => .ok left
  | t :: rest =>
      match t.kind.comparator? with
      | some op =>
          let right <- argument template rest bound
          .ok (.compare (comparisonSpan template left right) left op right)
      | none => failAt t (.noComparator t)
termination_by (toks.length, 3)
decreasing_by
  · exact Prod.Lex.right _ (by decide)
  · have hlen := congrArg List.length _hd
    simp only [List.length_drop, List.length_cons] at hlen
    exact Prod.Lex.left _ _ (by omega)

end

/-! ## Segments -/

/-- The tokens before the first close brace, that brace, and the tokens behind it. -/
def braced? : List Token -> Option (List Token × Token × List Token)
  | [] => none
  | t :: rest =>
      if t.kind = .closeBrace then
        some ([], t, rest)
      else
        (braced? rest).map fun (inner, close, after) => (t :: inner, close, after)

theorem length_braced? {toks inner after : List Token} {close : Token}
    (h : braced? toks = some (inner, close, after)) : after.length < toks.length := by
  induction toks generalizing inner with
  | nil => simp [braced?] at h
  | cons t rest ih =>
      unfold braced? at h
      split at h
      · simp only [Option.some.injEq, Prod.mk.injEq] at h
        obtain ⟨_, _, rfl⟩ := h
        simp
      · cases hr : braced? rest with
        | none => simp [hr] at h
        | some found =>
            obtain ⟨inner', close', after'⟩ := found
            simp only [hr, Option.map_some, Option.some.injEq, Prod.mk.injEq] at h
            obtain ⟨_, rfl, rfl⟩ := h
            have := ih hr
            simp only [List.length_cons]
            omega

def formulaValue (template : Bytes) (toks : List Token) (close : Token) :
    Except SyntaxError (Option Expr) :=
  if toks.isEmpty then
    .ok none
  else do
    let (v, taken) <- value template toks close
    match toks.drop taken with
    | [] => .ok (some v)
    | t :: _ =>
        if startsValue t.kind then
          failAt t .secondValue
        else
          failAt t (.strayInFormula t)

/-- The segments made of all tokens before the end, and the tokens left over. -/
def segments (template : Bytes) (toks : List Token) :
    Except SyntaxError (List Segment × List Token) :=
  match toks with
  | [] => .ok ([], [])
  | t :: rest =>
      match t.kind with
      | .string => do
          let (more, left) <- segments template rest
          .ok (.text ⟨tokenSpan template t, t.lexeme, none⟩ :: more, left)
      | .openFormula =>
          match _hb : braced? rest with
          | none => failAt t .missingBrace
          | some (inner, close, after) => do
              let v <- formulaValue template inner close
              let (more, left) <- segments template after
              .ok (.formula (between template t close) v :: more, left)
      | _ => failAt t (.noSegment t)
termination_by toks.length
decreasing_by
  · simp
  · have := length_braced? _hb
    simp only [List.length_cons]
    omega

def body (template : Bytes) (toks : List Token) (eof : Token) :
    Except SyntaxError (Option TemplateBody) :=
  match toks with
  | [] => .ok none
  | first :: rest => do
      let last := (first :: rest).getLastD first
      let (parts, left) <- segments template (first :: rest)
      if left.isEmpty then
        .ok (some ⟨between template first last, parts⟩)
      else
        failAt (left.headD eof) .tokensLeft

/-- The tree of tokens among which there is no white space. -/
def sourceFile (template : Bytes) (toks : List Token) : Except SyntaxError SourceFile :=
  match toks.getLast? with
  | none => .error ⟨.missingEnd, 1⟩
  | some eof =>
      if eof.kind ≠ .eof then
        .error ⟨.missingEnd, eof.stop⟩
      else do
        let parts <- body template toks.dropLast eof
        let first := toks.headD eof
        .ok ⟨between template first eof, parts, some (tokenSpan template eof)⟩

end Parse

/-- The tree of a template from its tokens; white space between tokens counts for nothing. -/
def parse (template : Bytes) (toks : List Token) : Except SyntaxError SourceFile :=
  Parse.sourceFile template (toks.filter fun t => t.kind ≠ .whitespace)

end Backtick
