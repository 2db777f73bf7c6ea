import Mathlib
import Backtick.Proofs.Delimiters

/-!
# The grammar of templates

The grammar is given twice. `Grammar.Derives` speaks of token classes only and
is the grammar as documented. The relations `Derived` tie tokens to the tree
that they make, node by node. A list of tokens makes a tree exactly if its
classes are derived and every number among it can be read.
-/

namespace Backtick

namespace Grammar

inductive Symbol
  | sourceFile
  | templateString
  | formula
  | value
  | getCall
  | lengthCall
  | ifExpression
  | condition
  | comparator

/-- The lists of token classes that a symbol derives. -/
inductive Derives : Symbol -> List TokenKind -> Prop
  | sourceFile {body : List TokenKind} :
      Derives .templateString body -> Derives .sourceFile (body ++ [.eof])
  | nothing : Derives .templateString []
  | text {rest : List TokenKind} :
      Derives .templateString rest -> Derives .templateString (.string :: rest)
  | segment {f rest : List TokenKind} :
      Derives .formula f -> Derives .templateString rest -> Derives .templateString (f ++ rest)
  | emptyFormula : Derives .formula [.openFormula, .closeBrace]
  | formula {v : List TokenKind} :
      Derives .value v -> Derives .formula (.openFormula :: v ++ [.closeBrace])
  | string : Derives .value [.string]
  | number : Derives .value [.number]
  | yes : Derives .value [.trueWord]
  | no : Derives .value [.falseWord]
  | get {c : List TokenKind} : Derives .getCall c -> Derives .value c
  | length {c : List TokenKind} : Derives .lengthCall c -> Derives .value c
  | choose {c : List TokenKind} : Derives .ifExpression c -> Derives .value c
  | getCall : Derives .getCall [.getWord, .openParen, .string, .closeParen]
  | lengthCall {c : List TokenKind} :
      Derives .getCall c -> Derives .lengthCall (.lengthWord :: .openParen :: c ++ [.closeParen])
  | ifExpression {test yes no : List TokenKind} :
      Derives .condition test -> Derives .value yes -> Derives .value no ->
      Derives .ifExpression
        (.ifWord :: .openParen :: test ++ .comma :: yes ++ .comma :: no ++ [.closeParen])
  | condition {v : List TokenKind} : Derives .value v -> Derives .condition v
  | comparison {left op right : List TokenKind} :
      Derives .value left -> Derives .comparator op -> Derives .value right ->
      Derives .condition (left ++ op ++ right)
  | comparator {op : TokenKind}
      (h : op ∈ [.less, .lessEqual, .strictEqual, .greater, .greaterEqual]) :
      Derives .comparator [op]

/-- The two places of an expression: a comparison stands only in a condition. -/
inductive Place
  | value
  | condition

def Place.symbol : Place -> Symbol
  | .value => .value
  | .condition => .condition

end Grammar

open Grammar Parse

/-! ## Trees with the tokens they are made of -/

inductive GetCall.Derived (template : Bytes) : List Token -> GetCall -> Prop
  | mk {word opening name close : Token}
      (hword : word.kind = .getWord) (hopening : opening.kind = .openParen)
      (hname : name.kind = .string) (hclose : close.kind = .closeParen) :
      GetCall.Derived template [word, opening, name, close]
        ⟨between template word close, some (quoted template name)⟩

inductive Expr.Derived (template : Bytes) : Place -> List Token -> Expr -> Prop
  | string {t : Token} (h : t.kind = .string) :
      Expr.Derived template .value [t] (.string (quoted template t))
  | number {t : Token} {x : Binary64} (h : t.kind = .number)
      (hread : Numeral.read? t.lexeme = some x) :
      Expr.Derived template .value [t] (.number (tokenSpan template t) x)
  | yes {t : Token} (h : t.kind = .trueWord) :
      Expr.Derived template .value [t] (.boolean (tokenSpan template t) true)
  | no {t : Token} (h : t.kind = .falseWord) :
      Expr.Derived template .value [t] (.boolean (tokenSpan template t) false)
  | get {toks : List Token} {call : GetCall} (h : call.Derived template toks) :
      Expr.Derived template .value toks (.get call)
  | length {word opening close : Token} {toks : List Token} {call : GetCall}
      (hword : word.kind = .lengthWord) (hopening : opening.kind = .openParen)
      (h : call.Derived template toks) (hclose : close.kind = .closeParen) :
      Expr.Derived template .value (word :: opening :: toks ++ [close])
        (.length (between template word close) (some call))
  | choose {word opening comma comma' close : Token} {tests yess nos : List Token}
      {test yes no : Expr}
      (hword : word.kind = .ifWord) (hopening : opening.kind = .openParen)
      (htest : Expr.Derived template .condition tests test) (hcomma : comma.kind = .comma)
      (hyes : Expr.Derived template .value yess yes) (hcomma' : comma'.kind = .comma)
      (hno : Expr.Derived template .value nos no) (hclose : close.kind = .closeParen) :
      Expr.Derived template .value
        (word :: opening :: tests ++ comma :: yess ++ comma' :: nos ++ [close])
        (.choose (between template word close) test yes no)
  | condition {toks : List Token} {e : Expr} (h : Expr.Derived template .value toks e) :
      Expr.Derived template .condition toks e
  | comparison {sign : Token} {lefts rights : List Token} {op : Comparator} {left right : Expr}
      (hleft : Expr.Derived template .value lefts left) (hop : sign.kind.comparator? = some op)
      (hright : Expr.Derived template .value rights right) :
      Expr.Derived template .condition (lefts ++ sign :: rights)
        (.compare (comparisonSpan template left right) left op right)

inductive Segment.Derived (template : Bytes) : List Token -> Segment -> Prop
  | text {t : Token} (h : t.kind = .string) :
      Segment.Derived template [t] (.text ⟨tokenSpan template t, t.lexeme, none⟩)
  | emptyFormula {opening close : Token} (hopening : opening.kind = .openFormula)
      (hclose : close.kind = .closeBrace) :
      Segment.Derived template [opening, close] (.formula (between template opening close) none)
  | formula {opening close : Token} {toks : List Token} {e : Expr}
      (hopening : opening.kind = .openFormula) (h : e.Derived template .value toks)
      (hclose : close.kind = .closeBrace) :
      Segment.Derived template (opening :: toks ++ [close])
        (.formula (between template opening close) (some e))

inductive SegmentsDerived (template : Bytes) : List Token -> List Segment -> Prop
  | nil : SegmentsDerived template [] []
  | cons {first rest : List Token} {segment : Segment} {more : List Segment}
      (hfirst : segment.Derived template first) (hrest : SegmentsDerived template rest more) :
      SegmentsDerived template (first ++ rest) (segment :: more)

inductive BodyDerived (template : Bytes) : List Token -> Option TemplateBody -> Prop
  | nil : BodyDerived template [] none
  | cons {first : Token} {rest : List Token} {segments : List Segment}
      (h : SegmentsDerived template (first :: rest) segments) :
      BodyDerived template (first :: rest)
        (some ⟨between template first ((first :: rest).getLastD first), segments⟩)

inductive SourceFile.Derived (template : Bytes) : List Token -> SourceFile -> Prop
  | mk {toks : List Token} {eof : Token} {body : Option TemplateBody}
      (hbody : BodyDerived template toks body) (heof : eof.kind = .eof) :
      SourceFile.Derived template (toks ++ [eof])
        ⟨between template ((toks ++ [eof]).headD eof) eof, body, some (tokenSpan template eof)⟩

/-! ## From trees to classes -/

def NumbersRead (toks : List Token) : Prop :=
  ∀ t ∈ toks, t.kind = .number → (Numeral.read? t.lexeme).isSome

@[simp] theorem numbersRead_nil : NumbersRead [] := by
  simp [NumbersRead]

@[simp] theorem numbersRead_cons (t : Token) (rest : List Token) :
    NumbersRead (t :: rest) ↔
      (t.kind = .number → (Numeral.read? t.lexeme).isSome) ∧ NumbersRead rest := by
  simp [NumbersRead]

@[simp] theorem numbersRead_append (first second : List Token) :
    NumbersRead (first ++ second) ↔ NumbersRead first ∧ NumbersRead second := by
  simp only [NumbersRead, List.mem_append]
  constructor
  · intro h
    exact ⟨fun t ht => h t (.inl ht), fun t ht => h t (.inr ht)⟩
  · rintro ⟨hfirst, hsecond⟩ t (ht | ht)
    · exact hfirst t ht
    · exact hsecond t ht

theorem comparator?_isSome_iff (kind : TokenKind) :
    (∃ op, kind.comparator? = some op) ↔
      kind ∈ [.less, .lessEqual, .strictEqual, .greater, .greaterEqual] := by
  cases kind <;> simp [TokenKind.comparator?]

theorem ne_number_of_comparator {t : Token} {op : Comparator}
    (h : t.kind.comparator? = some op) : t.kind ≠ .number := by
  intro hkind
  simp [hkind, TokenKind.comparator?] at h

theorem GetCall.Derived.derives {template : Bytes} {toks : List Token} {call : GetCall}
    (h : call.Derived template toks) : Derives .getCall (toks.map Token.kind) := by
  cases h with
  | mk hword hopening hname hclose =>
      simp only [List.map_cons, List.map_nil, hword, hopening, hname, hclose]
      exact .getCall

theorem GetCall.Derived.numbersRead {template : Bytes} {toks : List Token} {call : GetCall}
    (h : call.Derived template toks) : NumbersRead toks := by
  cases h with
  | mk hword hopening hname hclose => simp [hword, hopening, hname, hclose]

theorem Expr.Derived.derives {template : Bytes} {place : Place} {toks : List Token} {e : Expr}
    (h : e.Derived template place toks) : Derives place.symbol (toks.map Token.kind) := by
  induction h with
  | string h => simpa [h, Place.symbol] using Derives.string
  | number h _ => simpa [h, Place.symbol] using Derives.number
  | yes h => simpa [h, Place.symbol] using Derives.yes
  | no h => simpa [h, Place.symbol] using Derives.no
  | get h => exact .get h.derives
  | length hword hopening h hclose =>
      simpa [hword, hopening, hclose, Place.symbol] using Derives.length (.lengthCall h.derives)
  | choose hword hopening _ hcomma _ hcomma' _ hclose ihtest ihyes ihno =>
      simpa [hword, hopening, hcomma, hcomma', hclose, Place.symbol] using
        Derives.choose (.ifExpression ihtest ihyes ihno)
  | condition _ ih => exact .condition ih
  | comparison _ hop _ ihleft ihright =>
      have hsign := Derives.comparator ((comparator?_isSome_iff _).mp ⟨_, hop⟩)
      simpa [Place.symbol] using Derives.comparison ihleft hsign ihright

theorem Expr.Derived.numbersRead {template : Bytes} {place : Place} {toks : List Token}
    {e : Expr} (h : e.Derived template place toks) : NumbersRead toks := by
  induction h with
  | string h => simp [h]
  | number h hread => simp [hread]
  | yes h => simp [h]
  | no h => simp [h]
  | get h => exact h.numbersRead
  | length hword hopening h hclose => simp [hword, hopening, hclose, h.numbersRead]
  | choose hword hopening _ hcomma _ hcomma' _ hclose ihtest ihyes ihno =>
      simp [hword, hopening, hcomma, hcomma', hclose, ihtest, ihyes, ihno]
  | condition _ ih => exact ih
  | comparison _ hop _ ihleft ihright =>
      simp [ihleft, ihright, ne_number_of_comparator hop]

theorem Segment.Derived.derives {template : Bytes} {toks rest : List Token} {segment : Segment}
    (h : segment.Derived template toks)
    (hrest : Derives .templateString (rest.map Token.kind)) :
    Derives .templateString ((toks ++ rest).map Token.kind) := by
  rw [List.map_append]
  cases h with
  | text h => simpa [h] using Derives.text hrest
  | emptyFormula hopening hclose =>
      simpa [hopening, hclose] using Derives.segment .emptyFormula hrest
  | formula hopening h hclose =>
      simpa [hopening, hclose] using Derives.segment (.formula h.derives) hrest

theorem Segment.Derived.numbersRead {template : Bytes} {toks : List Token} {segment : Segment}
    (h : segment.Derived template toks) : NumbersRead toks := by
  cases h with
  | text h => simp [h]
  | emptyFormula hopening hclose => simp [hopening, hclose]
  | formula hopening h hclose => simp [hopening, hclose, h.numbersRead]

theorem SegmentsDerived.derives {template : Bytes} {toks : List Token} {segments : List Segment}
    (h : SegmentsDerived template toks segments) :
    Derives .templateString (toks.map Token.kind) := by
  induction h with
  | nil => exact .nothing
  | cons hfirst _ ih => exact hfirst.derives ih

theorem SegmentsDerived.numbersRead {template : Bytes} {toks : List Token}
    {segments : List Segment} (h : SegmentsDerived template toks segments) :
    NumbersRead toks := by
  induction h with
  | nil => simp
  | cons hfirst _ ih => simp [hfirst.numbersRead, ih]

/-- The tokens of a body make its segments. -/
theorem BodyDerived.segments {template : Bytes} {toks : List Token} {body : Option TemplateBody}
    (h : BodyDerived template toks body) :
    SegmentsDerived template toks (body.elim [] TemplateBody.segments) := by
  cases h with
  | nil => exact .nil
  | cons h => exact h

theorem SourceFile.Derived.derives {template : Bytes} {toks : List Token} {file : SourceFile}
    (h : file.Derived template toks) : Derives .sourceFile (toks.map Token.kind) := by
  cases h with
  | mk hbody heof => simpa [heof] using Derives.sourceFile hbody.segments.derives

theorem SourceFile.Derived.numbersRead {template : Bytes} {toks : List Token} {file : SourceFile}
    (h : file.Derived template toks) : NumbersRead toks := by
  cases h with
  | mk hbody heof => simp [heof, hbody.segments.numbersRead]

/-! ## From classes to trees -/

def Makes (template : Bytes) (toks : List Token) : Symbol -> Prop
  | .sourceFile => ∃ file, SourceFile.Derived template toks file
  | .templateString => ∃ segments, SegmentsDerived template toks segments
  | .formula => ∃ segment, Segment.Derived template toks segment
  | .value | .lengthCall | .ifExpression => ∃ e, Expr.Derived template .value toks e
  | .getCall => ∃ call, GetCall.Derived template toks call
  | .condition => ∃ e, Expr.Derived template .condition toks e
  | .comparator => ∃ sign op, toks = [sign] ∧ sign.kind.comparator? = some op

theorem SegmentsDerived.of_nil {template : Bytes} {segments : List Segment}
    (h : SegmentsDerived template [] segments) : segments = [] := by
  generalize hall : ([] : List Token) = all at h
  cases h with
  | nil => rfl
  | cons hfirst hrest =>
      obtain ⟨rfl, -⟩ := List.append_eq_nil_iff.mp hall.symm
      cases hfirst

theorem exists_bodyDerived {template : Bytes} {toks : List Token} {segments : List Segment}
    (h : SegmentsDerived template toks segments) :
    ∃ body, BodyDerived template toks body ∧ body.elim [] TemplateBody.segments = segments := by
  cases toks with
  | nil => exact ⟨_, .nil, h.of_nil.symm⟩
  | cons first rest => exact ⟨_, .cons h, rfl⟩

/-- Tokens of derived classes make a tree, if the numbers among them can be read. -/
theorem makes_of_derives (template : Bytes) {symbol : Symbol} {kinds : List TokenKind}
    (h : Derives symbol kinds) (toks : List Token) (hkinds : toks.map Token.kind = kinds)
    (hread : NumbersRead toks) : Makes template toks symbol := by
  induction h generalizing toks with
  | sourceFile _ ih =>
      obtain ⟨body, last, rfl, hbody, hlast⟩ := List.map_eq_append_iff.mp hkinds
      obtain ⟨eof, rfl, heof⟩ := List.map_eq_singleton_iff.mp hlast
      rw [numbersRead_append] at hread
      obtain ⟨segments, hsegments⟩ := ih body hbody hread.1
      obtain ⟨_, hderived, -⟩ := exists_bodyDerived hsegments
      exact ⟨_, .mk hderived heof⟩
  | nothing =>
      obtain rfl := List.map_eq_nil_iff.mp hkinds
      exact ⟨[], .nil⟩
  | text _ ih =>
      obtain ⟨t, rest, rfl, ht, hrest⟩ := List.map_eq_cons_iff.mp hkinds
      rw [numbersRead_cons] at hread
      obtain ⟨segments, hsegments⟩ := ih rest hrest hread.2
      exact ⟨_, .cons (.text ht) hsegments⟩
  | segment _ _ ihf ihrest =>
      obtain ⟨first, rest, rfl, hfirst, hrest⟩ := List.map_eq_append_iff.mp hkinds
      rw [numbersRead_append] at hread
      obtain ⟨segment, hsegment⟩ := ihf first hfirst hread.1
      obtain ⟨segments, hsegments⟩ := ihrest rest hrest hread.2
      exact ⟨_, .cons hsegment hsegments⟩
  | emptyFormula =>
      obtain ⟨opening, rest, rfl, hopening, hrest⟩ := List.map_eq_cons_iff.mp hkinds
      obtain ⟨close, rfl, hclose⟩ := List.map_eq_singleton_iff.mp hrest
      exact ⟨_, .emptyFormula hopening hclose⟩
  | formula _ ih =>
      obtain ⟨front, last, rfl, hfront, hlast⟩ := List.map_eq_append_iff.mp hkinds
      obtain ⟨opening, inner, rfl, hopening, hinner⟩ := List.map_eq_cons_iff.mp hfront
      obtain ⟨close, rfl, hclose⟩ := List.map_eq_singleton_iff.mp hlast
      simp only [numbersRead_append, numbersRead_cons] at hread
      obtain ⟨e, he⟩ := ih inner hinner hread.1.2
      exact ⟨_, .formula hopening he hclose⟩
  | string =>
      obtain ⟨t, rfl, ht⟩ := List.map_eq_singleton_iff.mp hkinds
      exact ⟨_, .string ht⟩
  | number =>
      obtain ⟨t, rfl, ht⟩ := List.map_eq_singleton_iff.mp hkinds
      obtain ⟨x, hx⟩ := Option.isSome_iff_exists.mp (hread t (by simp) ht)
      exact ⟨_, .number ht hx⟩
  | yes =>
      obtain ⟨t, rfl, ht⟩ := List.map_eq_singleton_iff.mp hkinds
      exact ⟨_, .yes ht⟩
  | no =>
      obtain ⟨t, rfl, ht⟩ := List.map_eq_singleton_iff.mp hkinds
      exact ⟨_, .no ht⟩
  | get _ ih =>
      obtain ⟨call, hcall⟩ := ih toks hkinds hread
      exact ⟨_, .get hcall⟩
  | length _ ih => exact ih toks hkinds hread
  | choose _ ih => exact ih toks hkinds hread
  | getCall =>
      obtain ⟨word, rest, rfl, hword, hrest⟩ := List.map_eq_cons_iff.mp hkinds
      obtain ⟨opening, rest, rfl, hopening, hrest⟩ := List.map_eq_cons_iff.mp hrest
      obtain ⟨name, rest, rfl, hname, hrest⟩ := List.map_eq_cons_iff.mp hrest
      obtain ⟨close, rfl, hclose⟩ := List.map_eq_singleton_iff.mp hrest
      exact ⟨_, .mk hword hopening hname hclose⟩
  | lengthCall _ ih =>
      obtain ⟨front, last, rfl, hfront, hlast⟩ := List.map_eq_append_iff.mp hkinds
      obtain ⟨word, front, rfl, hword, hopened⟩ := List.map_eq_cons_iff.mp hfront
      obtain ⟨opening, inner, rfl, hopening, hinner⟩ := List.map_eq_cons_iff.mp hopened
      obtain ⟨close, rfl, hclose⟩ := List.map_eq_singleton_iff.mp hlast
      simp only [numbersRead_append, numbersRead_cons] at hread
      obtain ⟨call, hcall⟩ := ih inner hinner hread.1.2.2
      exact ⟨_, .length hword hopening hcall hclose⟩
  | ifExpression _ _ _ ihtest ihyes ihno =>
      obtain ⟨front, last, rfl, hfront, hlast⟩ := List.map_eq_append_iff.mp hkinds
      obtain ⟨close, rfl, hclose⟩ := List.map_eq_singleton_iff.mp hlast
      obtain ⟨front, third, rfl, hfirst, hthird⟩ := List.map_eq_append_iff.mp hfront
      obtain ⟨comma', nos, rfl, hcomma', hnos⟩ := List.map_eq_cons_iff.mp hthird
      obtain ⟨first, second, rfl, hwords, hsecond⟩ := List.map_eq_append_iff.mp hfirst
      obtain ⟨comma, yess, rfl, hcomma, hyess⟩ := List.map_eq_cons_iff.mp hsecond
      obtain ⟨word, first, rfl, hword, hopened⟩ := List.map_eq_cons_iff.mp hwords
      obtain ⟨opening, tests, rfl, hopening, htests⟩ := List.map_eq_cons_iff.mp hopened
      simp only [numbersRead_append, numbersRead_cons] at hread
      obtain ⟨test, htest⟩ := ihtest tests htests hread.1.1.1.2.2
      obtain ⟨yes, hyes⟩ := ihyes yess hyess hread.1.1.2.2
      obtain ⟨no, hno⟩ := ihno nos hnos hread.1.2.2
      exact ⟨_, .choose hword hopening htest hcomma hyes hcomma' hno hclose⟩
  | condition _ ih =>
      obtain ⟨e, he⟩ := ih toks hkinds hread
      exact ⟨e, .condition he⟩
  | comparison _ _ _ ihleft ihop ihright =>
      obtain ⟨front, rights, rfl, hfront, hrights⟩ := List.map_eq_append_iff.mp hkinds
      obtain ⟨lefts, signs, rfl, hlefts, hsigns⟩ := List.map_eq_append_iff.mp hfront
      simp only [numbersRead_append] at hread
      obtain ⟨left, hleft⟩ := ihleft lefts hlefts hread.1.1
      obtain ⟨sign, op, rfl, hop⟩ := ihop signs hsigns hread.1.2
      obtain ⟨right, hright⟩ := ihright rights hrights hread.2
      exact ⟨_, by simpa using Expr.Derived.comparison hleft hop hright⟩
  | comparator h =>
      obtain ⟨sign, rfl, hsign⟩ := List.map_eq_singleton_iff.mp hkinds
      obtain ⟨op, hop⟩ := (comparator?_isSome_iff _).mpr h
      exact ⟨sign, op, rfl, by rw [hsign, hop]⟩

/-- Tokens make a tree exactly if their classes are derived and their numbers can be read. -/
theorem exists_derived_iff (template : Bytes) (toks : List Token) :
    (∃ file, SourceFile.Derived template toks file) ↔
      Derives .sourceFile (toks.map Token.kind) ∧ NumbersRead toks := by
  constructor
  · rintro ⟨file, h⟩
    exact ⟨h.derives, h.numbersRead⟩
  · rintro ⟨hderives, hread⟩
    exact makes_of_derives template hderives toks rfl hread

end Backtick
