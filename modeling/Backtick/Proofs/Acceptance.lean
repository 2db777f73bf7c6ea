import Mathlib
import Backtick.Proofs.Parsing

/-!
# Trees and the tokens read off them

A tree that the parser returns can be read off from left to right, and gives
back the significant tokens: each token is seen in it by its class or by the
text or number that it stands for.
-/

namespace Backtick

open Grammar

inductive Leaf
  | word (kind : TokenKind)
  | text (value : Bytes)
  | quoted (value : Bytes)
  | number (value : Binary64)
deriving DecidableEq

/-- A quoted lexeme without its marks; the closing one may be absent. -/
def unquoted : Bytes -> Bytes
  | [] => []
  | mark :: rest => if rest.getLast? = some mark then rest.dropLast else rest

/-- What is seen of a token. Inside a formula a string is quoted, outside it is a text run. -/
def Token.leaf (inside : Bool) (t : Token) : Leaf :=
  match t.kind with
  | .string => if inside then .quoted (unquoted t.lexeme) else .text t.lexeme
  | .number => .number ((Numeral.read? t.lexeme).getD .nan)
  | kind => .word kind

/-- What is seen of a list of tokens that begins inside or outside a formula. -/
def Token.leaves : Bool -> List Token -> List Leaf
  | _, [] => []
  | inside, t :: rest =>
      t.leaf inside ::
        Token.leaves (t.kind = .openFormula || (inside && t.kind ≠ .closeBrace)) rest

def Comparator.kind : Comparator -> TokenKind
  | .less => .less
  | .lessEqual => .lessEqual
  | .strictEqual => .strictEqual
  | .greater => .greater
  | .greaterEqual => .greaterEqual
  | .unknown code => .unknown code

def GetCall.leaves (call : GetCall) : List Leaf :=
  [.word .getWord, .word .openParen] ++ call.name.elim [] (fun name => [.quoted name.value]) ++
    [.word .closeParen]

def Expr.leaves : Expr -> List Leaf
  | .string literal => [.quoted literal.value]
  | .number _ x => [.number x]
  | .boolean _ b => [.word (if b then .trueWord else .falseWord)]
  | .get call => call.leaves
  | .length _ arg =>
      [.word .lengthWord, .word .openParen] ++ arg.elim [] GetCall.leaves ++ [.word .closeParen]
  | .choose _ test yes no =>
      [.word .ifWord, .word .openParen] ++ test.leaves ++ [.word .comma] ++ yes.leaves ++
        [.word .comma] ++ no.leaves ++ [.word .closeParen]
  | .compare _ left op right => left.leaves ++ [.word op.kind] ++ right.leaves
  | .missing => []

def Segment.leaves : Segment -> List Leaf
  | .text literal => [.text literal.value]
  | .formula _ value =>
      [.word .openFormula] ++ value.elim [] Expr.leaves ++ [.word .closeBrace]
  | .missing => []

def SourceFile.leaves (file : SourceFile) : List Leaf :=
  file.segments.flatMap Segment.leaves ++ file.eof.elim [] fun _ => [.word .eof]

theorem quoted_value (template : Bytes) (t : Token) :
    (Parse.quoted template t).value = unquoted t.lexeme := by
  unfold Parse.quoted unquoted
  cases t.lexeme <;> rfl

theorem kind_of_comparator {kind : TokenKind} {op : Comparator}
    (h : kind.comparator? = some op) : op.kind = kind := by
  cases kind <;> simp [TokenKind.comparator?] at h <;> subst h <;> rfl

theorem leaf_of_comparator {t : Token} {op : Comparator} (h : t.kind.comparator? = some op) :
    t.leaf true = .word op.kind := by
  rw [kind_of_comparator h]
  unfold Token.leaf
  split
  · rename_i hkind; simp [hkind, TokenKind.comparator?] at h
  · rename_i hkind; simp [hkind, TokenKind.comparator?] at h
  · rfl

/-- Inside a formula and without braces, every token is seen as it is there. -/
theorem leaves_append {toks : List Token}
    (h : ∀ t ∈ toks, t.kind ≠ .closeBrace ∧ t.kind ≠ .openFormula) (rest : List Token) :
    Token.leaves true (toks ++ rest) = toks.map (Token.leaf true) ++ Token.leaves true rest := by
  induction toks with
  | nil => rfl
  | cons t more ih =>
      rw [List.forall_mem_cons] at h
      simp [Token.leaves, h.1, ih h.2]

theorem GetCall.Derived.leaves {template : Bytes} {toks : List Token} {call : GetCall}
    (h : call.Derived template toks) : toks.map (Token.leaf true) = call.leaves := by
  cases h with
  | mk hword hopening hname hclose =>
      simp [Token.leaf, hword, hopening, hname, hclose, GetCall.leaves, quoted_value]

theorem Expr.Derived.leaves {template : Bytes} {place : Place} {toks : List Token} {e : Expr}
    (h : e.Derived template place toks) : toks.map (Token.leaf true) = e.leaves := by
  induction h with
  | string h => simp [Token.leaf, h, Expr.leaves, quoted_value]
  | number h hread => simp [Token.leaf, h, hread, Expr.leaves]
  | yes h => simp [Token.leaf, h, Expr.leaves]
  | no h => simp [Token.leaf, h, Expr.leaves]
  | get h => exact h.leaves
  | length hword hopening h hclose =>
      simp [h.leaves, Expr.leaves, Token.leaf, hword, hopening, hclose]
  | choose hword hopening _ hcomma _ hcomma' _ hclose ihtest ihyes ihno =>
      simp [ihtest, ihyes, ihno, Expr.leaves, Token.leaf, hword, hopening, hcomma, hcomma', hclose]
  | condition _ ih => exact ih
  | comparison _ hop _ ihleft ihright =>
      simp [ihleft, ihright, Expr.leaves, leaf_of_comparator hop]

theorem Segment.Derived.leaves {template : Bytes} {toks : List Token} {segment : Segment}
    (h : segment.Derived template toks) (rest : List Token) :
    Token.leaves false (toks ++ rest) = segment.leaves ++ Token.leaves false rest := by
  cases h with
  | text h => simp [Token.leaves, Token.leaf, h, Segment.leaves]
  | emptyFormula hopening hclose =>
      simp [Token.leaves, Token.leaf, hopening, hclose, Segment.leaves]
  | @formula _ close _ _ hopening h hclose =>
      have hinner := leaves_append (Parse.ne_brace_of_derived h) (close :: rest)
      simp [Token.leaves, Token.leaf, hopening, hclose, hinner, h.leaves, Segment.leaves]

theorem SegmentsDerived.leaves {template : Bytes} {toks : List Token} {segments : List Segment}
    (h : SegmentsDerived template toks segments) (rest : List Token) :
    Token.leaves false (toks ++ rest) =
      segments.flatMap Segment.leaves ++ Token.leaves false rest := by
  induction h with
  | nil => rfl
  | cons hfirst _ ih => rw [List.append_assoc, hfirst.leaves, ih]; simp

theorem SourceFile.Derived.leaves {template : Bytes} {toks : List Token} {file : SourceFile}
    (h : file.Derived template toks) : file.leaves = Token.leaves false toks := by
  cases h with
  | @mk toks eof body hbody heof =>
      rw [hbody.segments.leaves]
      simp [SourceFile.leaves, SourceFile.segments, Token.leaves, Token.leaf, heof]

/--
The parser accepts a list of tokens exactly if the classes of its significant
tokens are derived in the grammar and every number among them can be read. The
tree it returns is the one that these tokens make, node by node, and reading the
tree off gives them back.
-/
theorem parse_accepts_exactly_the_grammar (template : Bytes) (toks : List Token) :
    ((∃ file, parse template toks = .ok file) ↔
      Derives .sourceFile ((significant toks).map Token.kind) ∧
        NumbersRead (significant toks)) ∧
    (∀ file, parse template toks = .ok file ↔ file.Derived template (significant toks)) ∧
    ∀ file, parse template toks = .ok file →
      file.leaves = Token.leaves false (significant toks) := by
  refine ⟨?_, fun file => parse_eq_ok_iff, ?_⟩
  · simp only [parse_eq_ok_iff]
    exact exists_derived_iff template (significant toks)
  · intro file h
    exact (parse_eq_ok_iff.mp h).leaves

end Backtick
