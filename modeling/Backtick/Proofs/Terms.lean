import Mathlib
import Backtick.Proofs.Figures
import Backtick.Proofs.Lexemes
import Backtick.Proofs.Outcome
import Backtick.Proofs.Quoting

/-!
# Scripts read back

The script of an expression is one operand: it reads back as the term that the
expression denotes, whatever follows that does not extend its last word or
number. Sums of operands, and with them whole scripts, read back likewise.
-/

namespace Backtick

namespace Script

open Scan (StopsAt)

/-- Whether a byte can extend a word or a number. -/
def isTail (b : UInt8) : Bool :=
  isFigure b || Bytes.isLetter b

/-- What may follow a whole term: nothing that extends it. -/
structure Ends (rest : Bytes) : Prop where
  tail : StopsAt isTail rest
  plus : expect? '+' rest = none
  choice : expect? '?' rest = none

def Reads (text : Bytes) (t : Term) : Prop :=
  ∀ fuel rest, 2 * text.length < fuel → StopsAt isTail rest →
    primary? fuel (text ++ rest) = some (t, rest)

theorem skip_cons {b : UInt8} (h : b ≠ ' '.toUInt8) (rest : Bytes) :
    skip (b :: rest) = b :: rest := by
  simp [skip, h]

theorem expect?_cons {c : Char} (h : c.toUInt8 ≠ ' '.toUInt8) (rest : Bytes) :
    expect? c (c.toUInt8 :: rest) = some rest := by
  rw [expect?, skip_cons h]
  exact if_pos rfl

theorem primary?_blank (fuel : Nat) (source : Bytes) :
    primary? fuel (' '.toUInt8 :: source) = primary? fuel source := by
  cases fuel with
  | zero => rw [primary?, primary?]
  | succ fuel =>
      have hskip : skip (' '.toUInt8 :: source) = skip source := by simp [skip]
      rw [primary?, primary?, hskip]

theorem ends_close (rest : Bytes) : Ends (')'.toUInt8 :: rest) :=
  ⟨Scan.stopsAt_cons.mpr (by decide), rfl, rfl⟩

theorem ends_comma (rest : Bytes) : Ends (','.toUInt8 :: rest) :=
  ⟨Scan.stopsAt_cons.mpr (by decide), rfl, rfl⟩

theorem ends_colon (rest : Bytes) : Ends (' '.toUInt8 :: ':'.toUInt8 :: rest) :=
  ⟨Scan.stopsAt_cons.mpr (by decide), rfl, rfl⟩

theorem term?_of_reads {text rest : Bytes} {t : Term} {fuel : Nat} (h : Reads text t)
    (hfuel : 2 * text.length + 1 < fuel) (hrest : Ends rest) :
    term? fuel (text ++ rest) = some (t, rest) := by
  obtain ⟨fuel, rfl⟩ : ∃ more, fuel = more + 2 := ⟨fuel - 2, by omega⟩
  have hfirst := h (fuel + 1) rest (by omega) hrest.tail
  have hsum : summands? (fuel + 1) t rest = some (t, rest) := by
    rw [summands?, hrest.plus]
  rw [term?, hfirst]
  simp only [bind, Option.bind, hsum, hrest.choice]
  rfl

theorem term?_blank (fuel : Nat) (source : Bytes) :
    term? fuel (' '.toUInt8 :: source) = term? fuel source := by
  cases fuel with
  | zero => rw [term?, term?]
  | succ fuel => rw [term?, term?, primary?_blank]

/-! ## Operands -/

theorem reads_quote (text : Bytes) : Reads (Text.quote text) (.text (Utf8.latin text)) := by
  intro fuel rest hfuel _
  obtain ⟨inner, htext, hread⟩ := quoted?_quote text rest
  obtain ⟨fuel, rfl⟩ : ∃ more, fuel = more + 1 := ⟨fuel - 1, by omega⟩
  rw [htext, primary?, skip_cons (by decide)]
  dsimp only
  rw [if_pos rfl, hread]
  rfl

theorem reads_empty : Reads ↑"\"\"" (.text []) := by
  have hquote : Text.quote [] = ↑"\"\"" := by
    rw [Text.quote, Utf8.pieces_nil]
    rfl
  have hlatin : Utf8.latin [] = [] := by rw [Utf8.latin, Utf8.pieces_nil]; rfl
  have hreads := reads_quote []
  rwa [hquote, hlatin] at hreads

theorem takeWhile_append_stops {p : UInt8 -> Bool} {run rest : Bytes} (hrun : ∀ b ∈ run, p b)
    (hrest : StopsAt p rest) :
    (run ++ rest).takeWhile p = run ∧ (run ++ rest).dropWhile p = rest := by
  rw [List.takeWhile_append_of_pos hrun, List.dropWhile_append_of_pos hrun]
  cases rest with
  | nil => simp
  | cons b rest => simp [Scan.stopsAt_cons.mp hrest]

theorem stopsAt_of_tail {p : UInt8 -> Bool} {rest : Bytes} (h : StopsAt isTail rest)
    (hp : ∀ b, p b → isTail b) : StopsAt p rest := by
  intro b hb
  rw [← Bool.not_eq_true]
  intro hpb
  exact absurd (hp b hpb) (by simp [h b hb])

theorem plain_of_tail (b : UInt8) (h : isTail b) :
    b ≠ ' '.toUInt8 ∧ b ≠ '"'.toUInt8 ∧ b ≠ '-'.toUInt8 ∧ b ≠ '('.toUInt8 := by
  revert b
  decide +kernel

theorem reads_pointed {text : Bytes} {d : Decimal} {units : Nat} (htext : Numeral.Pointed text d)
    (hread : d.read .double = units) (h : IsBinary64 units) :
    Reads text (.number (.finite false units h)) := by
  intro fuel rest hfuel hrest
  have hvalue := htext.read? hread h
  cases htext with
  | @mk b more places hb hmore hplaces =>
      obtain ⟨fuel, rfl⟩ : ∃ more, fuel = more + 1 := ⟨fuel - 1, by omega⟩
      have hfigures : ∀ x ∈ b :: more ++ '.'.toUInt8 :: places, isFigure x := by
        intro x hx
        simp only [List.cons_append, List.mem_cons, List.mem_append] at hx
        rcases hx with rfl | hx | rfl | hx
        · simp [isFigure, hb]
        · simp [isFigure, hmore x hx]
        · rfl
        · simp [isFigure, hplaces x hx]
      have hstops := stopsAt_of_tail hrest (p := isFigure) fun b hb => by simp [isTail, hb]
      obtain ⟨htake, hdrop⟩ := takeWhile_append_stops hfigures hstops
      have hplain := plain_of_tail b (by simp [isTail, isFigure, hb])
      rw [List.cons_append, List.cons_append, primary?, skip_cons hplain.1]
      dsimp only
      rw [← List.cons_append, ← List.cons_append, if_neg hplain.2.1, if_neg hplain.2.2.1,
        if_neg hplain.2.2.2, if_pos hb, htake, hdrop, hvalue]
      rfl

theorem reads_negative {text : Bytes} {t : Term} (h : Reads text t) :
    Reads ('-'.toUInt8 :: text) (.negate t) := by
  intro fuel rest hfuel hrest
  obtain ⟨fuel, rfl⟩ : ∃ more, fuel = more + 1 := ⟨fuel - 1, by omega⟩
  rw [List.length_cons] at hfuel
  rw [List.cons_append, primary?, skip_cons (by decide)]
  dsimp only
  rw [if_neg (by decide), if_pos rfl, h fuel rest (by omega) hrest]
  rfl

/-- The term of a number: a minus sign is an operator. -/
def Term.ofNumber : Binary64 -> Term
  | .finite true units h => .negate (.number (.finite false units h))
  | x => .number x

theorem reads_number {x : Binary64} (h : x.isFinite) : Reads (number x) (.ofNumber x) := by
  cases x with
  | nan => cases h
  | infinite negative => cases h
  | finite negative units hunits =>
      obtain ⟨d, hpointed, hread⟩ := pointed_number hunits
      have hreads := reads_pointed hpointed hread hunits
      cases negative with
      | false => exact hreads
      | true =>
          rw [number_negative hunits]
          exact reads_negative hreads

/-! ## Words and calls -/

theorem not_digit_of_letter (b : UInt8) (h : Bytes.isLetter b) : Bytes.isDigit b = false := by
  revert b
  decide +kernel

theorem primary?_word {name rest : Bytes} (hne : name ≠ []) (hname : ∀ b ∈ name, Bytes.isLetter b)
    (hrest : StopsAt Bytes.isLetter rest) (fuel : Nat) :
    primary? (fuel + 1) (name ++ rest) =
      if name = ↑"true" then some (.flag true, rest)
      else if name = ↑"false" then some (.flag false, rest)
      else do
        let rest <- expect? '(' rest
        let (first, rest) <- term? fuel rest
        match unary? name with
        | some f =>
            let rest <- expect? ')' rest
            return (f first, rest)
        | none =>
            let op <- comparator? name
            let rest <- expect? ',' rest
            let (second, rest) <- term? fuel rest
            let rest <- expect? ')' rest
            return (.compare op first second, rest) := by
  obtain ⟨htake, hdrop⟩ := takeWhile_append_stops hname hrest
  cases name with
  | nil => exact absurd rfl hne
  | cons b more =>
      have hb := hname b List.mem_cons_self
      have hplain := plain_of_tail b (by simp [isTail, hb])
      rw [List.cons_append, primary?, skip_cons hplain.1]
      dsimp only
      rewrite [← List.cons_append, if_neg hplain.2.1, if_neg hplain.2.2.1, if_neg hplain.2.2.2,
        if_neg (by simp [not_digit_of_letter b hb]), htake, hdrop]
      rfl

theorem reads_flag (value : Bool) :
    Reads (if value then ↑"true" else ↑"false") (.flag value) := by
  intro fuel rest hfuel hrest
  obtain ⟨fuel, rfl⟩ : ∃ more, fuel = more + 1 := ⟨fuel - 1, by omega⟩
  have hstops := stopsAt_of_tail hrest (p := Bytes.isLetter) fun b hb => by simp [isTail, hb]
  cases value with
  | false =>
      rw [if_neg Bool.false_ne_true, primary?_word (by decide +kernel) (by decide +kernel) hstops,
        if_neg (by decide +kernel), if_pos rfl]
  | true =>
      rw [if_pos rfl, primary?_word (by decide +kernel) (by decide +kernel) hstops, if_pos rfl]

/-- The names of functions: words other than the two flags. -/
structure IsName (name : Bytes) : Prop where
  nonempty : name ≠ []
  letters : ∀ b ∈ name, Bytes.isLetter b
  notTrue : name ≠ ↑"true"
  notFalse : name ≠ ↑"false"

instance (name : Bytes) : Decidable (IsName name) :=
  decidable_of_iff (name ≠ [] ∧ (∀ b ∈ name, Bytes.isLetter b) ∧ name ≠ ↑"true" ∧ name ≠ ↑"false")
    ⟨fun ⟨h₁, h₂, h₃, h₄⟩ => ⟨h₁, h₂, h₃, h₄⟩, fun ⟨h₁, h₂, h₃, h₄⟩ => ⟨h₁, h₂, h₃, h₄⟩⟩

theorem primary?_call {name inner rest : Bytes} {t : Term} {fuel : Nat} (hname : IsName name)
    (h : Reads inner t) (hfuel : 2 * inner.length + 1 < fuel) (hrest : Ends rest) :
    primary? (fuel + 1) (name ++ '('.toUInt8 :: (inner ++ rest)) =
      match unary? name with
      | some f => (expect? ')' rest).map fun rest => (f t, rest)
      | none => do
          let op <- comparator? name
          let rest <- expect? ',' rest
          let (second, rest) <- term? fuel rest
          let rest <- expect? ')' rest
          return (.compare op t second, rest) := by
  rw [primary?_word hname.nonempty hname.letters (Scan.stopsAt_cons.mpr (by decide)),
    if_neg hname.notTrue, if_neg hname.notFalse, expect?_cons (by decide)]
  simp only [bind, Option.bind, term?_of_reads h hfuel hrest]
  cases unary? name with
  | none => rfl
  | some f => cases expect? ')' rest <;> rfl

theorem reads_unary (name : Bytes) {inner : Bytes} {f : Term -> Term} {t : Term}
    (hname : IsName name) (hf : unary? name = some f) (h : Reads inner t) :
    Reads (name ++ ↑"(" ++ inner ++ ↑")") (f t) := by
  intro fuel rest hfuel _
  obtain ⟨fuel, rfl⟩ : ∃ more, fuel = more + 1 := ⟨fuel - 1, by omega⟩
  have htext : name ++ ↑"(" ++ inner ++ ↑")" ++ rest =
      name ++ '('.toUInt8 :: (inner ++ ')'.toUInt8 :: rest) := by
    simp only [List.append_assoc]
    rfl
  have hopening : (Bytes.ofString "(").length = 1 := rfl
  simp only [List.length_append, hopening] at hfuel
  rw [htext, primary?_call hname h (by omega) (ends_close rest), hf, expect?_cons (by decide)]
  rfl

theorem reads_compare {name left right : Bytes} {op : Comparator} {l r : Term}
    (hname : IsName name) (hunary : unary? name = none) (hop : comparator? name = some op)
    (hl : Reads left l) (hr : Reads right r) :
    Reads (name ++ ↑"(" ++ left ++ ↑", " ++ right ++ ↑")") (.compare op l r) := by
  intro fuel rest hfuel _
  obtain ⟨fuel, rfl⟩ : ∃ more, fuel = more + 1 := ⟨fuel - 1, by omega⟩
  have htext : name ++ ↑"(" ++ left ++ ↑", " ++ right ++ ↑")" ++ rest =
      name ++ '('.toUInt8 ::
        (left ++ ','.toUInt8 :: ' '.toUInt8 :: (right ++ ')'.toUInt8 :: rest)) := by
    simp only [List.append_assoc]
    rfl
  have hopening : (Bytes.ofString "(").length = 1 := rfl
  simp only [List.length_append, hopening] at hfuel
  have hright : term? fuel (right ++ ')'.toUInt8 :: rest) = some (r, ')'.toUInt8 :: rest) :=
    term?_of_reads hr (by omega) (ends_close rest)
  rw [htext, primary?_call hname hl (by omega) (ends_comma _), hunary, hop,
    expect?_cons (by decide)]
  simp only [bind, Option.bind, term?_blank, hright]
  rfl

theorem term?_choose {test yes no rest : Bytes} {c y n : Term} {fuel : Nat} (hc : Reads test c)
    (hy : Reads yes y) (hn : Reads no n)
    (hfuel : 2 * (test.length + yes.length + no.length) + 2 < fuel) (hrest : Ends rest) :
    term? fuel (test ++ ' '.toUInt8 :: '?'.toUInt8 :: ' '.toUInt8 ::
        (yes ++ ' '.toUInt8 :: ':'.toUInt8 :: ' '.toUInt8 :: (no ++ rest))) =
      some (.choose c y n, rest) := by
  obtain ⟨fuel, rfl⟩ : ∃ more, fuel = more + 2 := ⟨fuel - 2, by omega⟩
  have htest := fun rest => hc (fuel + 1) (' '.toUInt8 :: rest) (by omega)
    (Scan.stopsAt_cons.mpr (by decide))
  have hsum : ∀ rest, summands? (fuel + 1) c (' '.toUInt8 :: '?'.toUInt8 :: rest) =
      some (c, ' '.toUInt8 :: '?'.toUInt8 :: rest) := fun rest => by rw [summands?]; rfl
  have hmark : ∀ rest, expect? '?' (' '.toUInt8 :: '?'.toUInt8 :: rest) = some rest :=
    fun _ => rfl
  have hcolon : ∀ rest, expect? ':' (' '.toUInt8 :: ':'.toUInt8 :: rest) = some rest :=
    fun _ => rfl
  have hyes : ∀ rest, term? (fuel + 1) (yes ++ ' '.toUInt8 :: ':'.toUInt8 :: rest) =
      some (y, ' '.toUInt8 :: ':'.toUInt8 :: rest) :=
    fun rest => term?_of_reads hy (by omega) (ends_colon rest)
  have hno : term? (fuel + 1) (no ++ rest) = some (n, rest) :=
    term?_of_reads hn (by omega) hrest
  rw [term?, htest]
  simp only [bind, Option.bind, hsum, hmark, term?_blank, hyes, hcolon, hno]
  rfl

theorem reads_choose {test yes no : Bytes} {c y n : Term} (hc : Reads test c) (hy : Reads yes y)
    (hn : Reads no n) :
    Reads (↑"(isTruthy(" ++ test ++ ↑") ? " ++ yes ++ ↑" : " ++ no ++ ↑")")
      (.choose (.isTruthy c) y n) := by
  intro fuel rest hfuel _
  have htest : Reads (↑"isTruthy" ++ ↑"(" ++ test ++ ↑")") (.isTruthy c) :=
    reads_unary "isTruthy" (by decide +kernel) rfl hc
  have htext : ↑"(isTruthy(" ++ test ++ ↑") ? " ++ yes ++ ↑" : " ++ no ++ ↑")" ++ rest =
      '('.toUInt8 :: ((↑"isTruthy" ++ ↑"(" ++ test ++ ↑")") ++ ' '.toUInt8 :: '?'.toUInt8 ::
        ' '.toUInt8 :: (yes ++ ' '.toUInt8 :: ':'.toUInt8 :: ' '.toUInt8 ::
          (no ++ ')'.toUInt8 :: rest))) := by
    simp only [List.append_assoc]
    rfl
  have hlength : (↑"(isTruthy(" ++ test ++ ↑") ? " ++ yes ++ ↑" : " ++ no ++ ↑")" : Bytes).length =
      test.length + yes.length + no.length + 18 := by
    simp only [List.length_append, show (Bytes.ofString "(isTruthy(").length = 10 from rfl,
      show (Bytes.ofString ") ? ").length = 4 from rfl,
      show (Bytes.ofString " : ").length = 3 from rfl,
      show (Bytes.ofString ")").length = 1 from rfl]
    omega
  have hinner : (↑"isTruthy" ++ ↑"(" ++ test ++ ↑")" : Bytes).length = test.length + 10 := by
    simp only [List.length_append, show (Bytes.ofString "isTruthy").length = 8 from rfl,
      show (Bytes.ofString "(").length = 1 from rfl, show (Bytes.ofString ")").length = 1 from rfl]
    omega
  obtain ⟨fuel, rfl⟩ : ∃ more, fuel = more + 1 := ⟨fuel - 1, by omega⟩
  rw [htext, primary?, skip_cons (by decide)]
  dsimp only
  rw [if_neg (by decide), if_neg (by decide), if_pos rfl,
    term?_choose htest hy hn (by omega) (ends_close rest)]
  rfl

/-! ## Sums -/

theorem join_cons (sep part : Bytes) (rest : List Bytes) :
    Bytes.join sep (part :: rest) = part ++ rest.flatMap (sep ++ ·) := by
  induction rest generalizing part with
  | nil => simp [Bytes.join]
  | cons next rest ih =>
      have hjoin : Bytes.join sep (part :: next :: rest) =
          part ++ sep ++ Bytes.join sep (next :: rest) := rfl
      rw [hjoin, ih, List.flatMap_cons, List.append_assoc, List.append_assoc]

theorem stopsAt_summands (parts : List Bytes) :
    StopsAt isTail (parts.flatMap (Bytes.ofString " + " ++ ·)) := by
  cases parts with
  | nil => exact Scan.stopsAt_nil _
  | cons part parts => exact Scan.stopsAt_cons.mpr rfl

theorem summands?_append {parts : List Bytes} {terms : List Term}
    (h : List.Forall₂ Reads parts terms) (acc : Term) {fuel : Nat}
    (hfuel : 2 * (parts.flatMap (Bytes.ofString " + " ++ ·)).length < fuel) :
    summands? fuel acc (parts.flatMap (Bytes.ofString " + " ++ ·)) =
      some (terms.foldl .add acc, []) := by
  induction h generalizing acc fuel with
  | nil =>
      obtain ⟨fuel, rfl⟩ : ∃ more, fuel = more + 1 := ⟨fuel - 1, by omega⟩
      rw [summands?]
      rfl
  | @cons part t parts terms hpart _ ih =>
      have hsep : (Bytes.ofString " + ").length = 3 := rfl
      rw [List.flatMap_cons, List.length_append, List.length_append, hsep] at hfuel
      obtain ⟨fuel, rfl⟩ : ∃ more, fuel = more + 1 := ⟨fuel - 1, by omega⟩
      have hplus : ∀ rest,
          expect? '+' (Bytes.ofString " + " ++ rest) = some (' '.toUInt8 :: rest) := fun _ => rfl
      rw [List.flatMap_cons, List.append_assoc, summands?, hplus]
      dsimp only
      rw [primary?_blank, hpart fuel _ (by omega) (stopsAt_summands parts)]
      exact ih (.add acc t) (by omega)

/-- A sum of operands is read from the left. -/
theorem read?_join {part : Bytes} {parts : List Bytes} {t : Term} {terms : List Term}
    (hpart : Reads part t) (hparts : List.Forall₂ Reads parts terms) :
    read? (Bytes.join " + " (part :: parts)) = some (terms.foldl .add t) := by
  have hfirst := fun fuel hfuel => hpart fuel _ hfuel (stopsAt_summands parts)
  rw [read?, join_cons]
  generalize hlength : 2 * (part ++ parts.flatMap (Bytes.ofString " + " ++ ·)).length = size
  rw [List.length_append] at hlength
  rw [term?, hfirst (size + 1) (by omega)]
  dsimp only [bind, Option.bind]
  rw [summands?_append hparts t (by omega)]
  rfl

end Script

/-! ## Scripts of trees -/

def GetCall.term (call : GetCall) : Script.Term :=
  .get (.text (Utf8.latin call.nameValue))

def Expr.term : Expr -> Script.Term
  | .string literal => .text (Utf8.latin literal.value)
  | .number _ x => .ofNumber x
  | .boolean _ b => .flag b
  | .get call => call.term
  | .length _ arg => .length (arg.elim (.text []) GetCall.term)
  | .choose _ test yes no => .choose (.isTruthy test.term) yes.term no.term
  | .compare _ left op right => .compare op left.term right.term
  | .missing => .text []

def Segment.term : Segment -> Script.Term
  | .text literal => .text (Utf8.latin literal.value)
  | .formula _ value => value.elim (.text []) Expr.term
  | .missing => .text []

def Expr.isFinite : Expr -> Bool
  | .number _ x => x.isFinite
  | .choose _ test yes no => test.isFinite && yes.isFinite && no.isFinite
  | .compare _ left _ right => left.isFinite && right.isFinite
  | _ => true

def Segment.isFinite : Segment -> Bool
  | .formula _ (some e) => e.isFinite
  | _ => true

def SourceFile.isFinite (file : SourceFile) : Bool :=
  file.segments.all Segment.isFinite

namespace Script

theorem reads_getCall {call : GetCall} {text : Bytes} (h : call.emit = .ok text) :
    Reads text call.term := by
  unfold GetCall.emit at h
  cases hname : call.name with
  | none => rw [hname] at h; cases h
  | some name =>
      rw [hname] at h
      cases h
      have hvalue : call.nameValue = name.value := by rw [GetCall.nameValue, hname]; rfl
      rw [GetCall.term, hvalue]
      exact reads_unary "get" (by decide +kernel) rfl (reads_quote name.value)

theorem reads_comparison {op : Comparator} {name left right : Bytes} {l r : Term}
    (h : op.function? = some name) (hl : Reads left l) (hr : Reads right r) :
    Reads (name ++ ↑"(" ++ left ++ ↑", " ++ right ++ ↑")") (.compare op l r) := by
  cases op <;> cases h <;>
    exact reads_compare (by decide +kernel) rfl rfl hl hr

/-- The script of an expression reads back as its term. -/
theorem reads_expr {e : Expr} {text : Bytes} (h : e.emit = .ok text) (hfinite : e.isFinite) :
    Reads text e.term := by
  induction e generalizing text with
  | string literal =>
      cases h
      exact reads_quote literal.value
  | number span x =>
      cases h
      exact reads_number hfinite
  | boolean span b =>
      cases h
      exact reads_flag b
  | get call => exact reads_getCall h
  | length span arg =>
      cases arg with
      | none => cases h
      | some call =>
          obtain ⟨inner, hinner, hrest⟩ := bind_eq_ok_iff.mp h
          cases hrest
          exact reads_unary "length" (by decide +kernel) rfl (reads_getCall hinner)
  | choose span test yes no ihtest ihyes ihno =>
      obtain ⟨testText, htest, h⟩ := bind_eq_ok_iff.mp h
      obtain ⟨yesText, hyes, h⟩ := bind_eq_ok_iff.mp h
      obtain ⟨noText, hno, h⟩ := bind_eq_ok_iff.mp h
      cases h
      simp only [Expr.isFinite, Bool.and_eq_true] at hfinite
      exact reads_choose (ihtest htest hfinite.1.1) (ihyes hyes hfinite.1.2) (ihno hno hfinite.2)
  | compare span left op right ihleft ihright =>
      obtain ⟨leftText, hleft, h⟩ := bind_eq_ok_iff.mp h
      obtain ⟨rightText, hright, h⟩ := bind_eq_ok_iff.mp h
      simp only [Expr.isFinite, Bool.and_eq_true] at hfinite
      cases hop : op.function? with
      | none => rw [hop] at h; cases h
      | some name =>
          rw [hop] at h
          cases h
          exact reads_comparison hop (ihleft hleft hfinite.1) (ihright hright hfinite.2)
  | missing => cases h

theorem reads_segment {segment : Segment} {text : Bytes} (h : segment.emit = .ok text)
    (hfinite : segment.isFinite) :
    Reads (↑"toText(" ++ text ++ ↑")") (.toText segment.term) := by
  have hreads : Reads text segment.term := by
    cases segment with
    | text literal =>
        cases h
        exact reads_quote literal.value
    | formula span value =>
        cases value with
        | none =>
            cases h
            exact reads_empty
        | some e => exact reads_expr h hfinite
    | missing => cases h
  exact reads_unary "toText" (by decide +kernel) rfl hreads

theorem reads_segments {segments : List Segment} {parts : List Bytes}
    (h : emitSegments segments = .ok parts) (hfinite : segments.all Segment.isFinite) :
    List.Forall₂ Reads parts (segments.map fun segment => .toText segment.term) := by
  induction segments generalizing parts with
  | nil =>
      cases h
      exact .nil
  | cons segment rest ih =>
      obtain ⟨text, htext, h⟩ := bind_eq_ok_iff.mp h
      obtain ⟨more, hmore, h⟩ := bind_eq_ok_iff.mp h
      cases h
      rw [List.all_cons, Bool.and_eq_true] at hfinite
      exact .cons (reads_segment htext hfinite.1) (ih hmore hfinite.2)

/-- The sum of terms from the left; the empty one is the empty text. -/
def Term.sum : List Term -> Term
  | [] => .text []
  | t :: rest => rest.foldl .add t

/-- The script of a template reads back as the sum of its segments. -/
theorem read?_emit {file : SourceFile} {source : Bytes} (h : file.emit = .ok source)
    (hfinite : file.isFinite) :
    read? source = some (.sum (file.segments.map fun segment => .toText segment.term)) := by
  unfold SourceFile.emit at h
  unfold SourceFile.isFinite at hfinite
  cases hsegments : file.segments with
  | nil =>
      rw [hsegments] at h
      cases h
      decide +kernel
  | cons segment rest =>
      rw [hsegments] at h hfinite
      obtain ⟨parts, hparts, h⟩ := bind_eq_ok_iff.mp h
      cases h
      have hreads := reads_segments hparts hfinite
      cases hreads with
      | cons hpart hrest => exact read?_join hpart hrest

end Script

end Backtick
