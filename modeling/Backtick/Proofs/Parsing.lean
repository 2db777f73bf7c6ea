import Mathlib
import Backtick.Proofs.Grammar
import Backtick.Proofs.Outcome

/-!
# The parser accepts its grammar

The parser finds the end of a formula and the parentheses and commas of `IF` by
scanning ahead, and then reads the parts between them. Completeness rests on
the scans passing over every derived part; soundness rests on the depth of each
part being zero, so that no call inside it can take the boundary for its own
closing parenthesis.
-/

namespace Backtick

open Grammar

namespace Parse

/-! ## Tokens that the scans pass over -/

/-- Both scans pass over the tokens, that for commas from the depth `least` on. -/
structure Passed (least : Nat) (toks : List Token) : Prop where
  closing : ∀ (d : Nat) (rest : List Token),
    closing? d (toks ++ rest) = behind toks (closing? d rest)
  commas : ∀ (d : Nat) (rest : List Token), least ≤ d →
    atCommas d (toks ++ rest) = Parts.behind toks (atCommas d rest)

theorem Passed.append {least : Nat} {first second : List Token} (hfirst : Passed least first)
    (hsecond : Passed least second) : Passed least (first ++ second) where
  closing d rest := by
    rw [List.append_assoc, hfirst.closing, hsecond.closing, behind_behind]
  commas d rest hd := by
    rw [List.append_assoc, hfirst.commas d _ hd, hsecond.commas d _ hd, Parts.behind_behind]

theorem Passed.deeper {toks : List Token} (h : Passed 0 toks) : Passed 1 toks where
  closing := h.closing
  commas d rest _ := h.commas d rest (Nat.zero_le d)

/-- The classes that the scans stop at or count. -/
def isDelimiter : TokenKind -> Bool
  | .openParen | .closeParen | .comma => true
  | _ => false

theorem Passed.plain {t : Token} {kind : TokenKind} (h : t.kind = kind)
    (hkind : isDelimiter kind = false) : Passed 0 [t] := by
  have hopen : t.kind ≠ .openParen := by rintro hk; simp [← h, hk, isDelimiter] at hkind
  have hclose : t.kind ≠ .closeParen := by rintro hk; simp [← h, hk, isDelimiter] at hkind
  have hcomma : t.kind ≠ .comma := by rintro hk; simp [← h, hk, isDelimiter] at hkind
  constructor
  · intro d rest
    simp [closing?_cons, hclose, turn_of_other hopen hclose]
  · intro d rest _
    simp [atCommas_cons, hcomma, turn_of_other hopen hclose]

/-- A comma inside parentheses. -/
theorem Passed.comma {t : Token} (h : t.kind = .comma) : Passed 1 [t] := by
  have hturn : turn t = 0 := turn_of_other (by simp [h]) (by simp [h])
  constructor
  · intro d rest
    simp [closing?_cons, h, hturn]
  · intro d rest hd
    have hne : d ≠ 0 := by omega
    simp [atCommas_cons, hne, hturn]

/-- What is passed inside parentheses is passed with the parentheses around it. -/
theorem Passed.enclosed {opening close : Token} {toks : List Token}
    (hopening : opening.kind = .openParen) (h : Passed 1 toks)
    (hclose : close.kind = .closeParen) : Passed 0 (opening :: toks ++ [close]) where
  closing d rest := by
    rw [List.append_assoc, List.cons_append, closing?_open hopening, h.closing,
      List.singleton_append, closing?_close hclose, behind_behind, behind_behind]
    rfl
  commas d rest _ := by
    rw [List.append_assoc, List.cons_append, atCommas_open hopening,
      h.commas _ _ (Nat.le_add_left 1 d), List.singleton_append, atCommas_close hclose,
      Parts.behind_behind, Parts.behind_behind]
    rfl

theorem not_delimiter_of_comparator {t : Token} {op : Comparator}
    (h : t.kind.comparator? = some op) : isDelimiter t.kind = false := by
  cases hkind : t.kind <;> simp_all [TokenKind.comparator?, isDelimiter]

theorem passed_getCall {template : Bytes} {toks : List Token} {call : GetCall}
    (h : call.Derived template toks) : Passed 0 toks := by
  cases h with
  | mk hword hopening hname hclose =>
      exact (Passed.plain hword rfl).append
        (.enclosed hopening (Passed.plain hname rfl).deeper hclose)

theorem passed_expr {template : Bytes} {place : Place} {toks : List Token} {e : Expr}
    (h : e.Derived template place toks) : Passed 0 toks := by
  induction h with
  | string h => exact .plain h rfl
  | number h _ => exact .plain h rfl
  | yes h => exact .plain h rfl
  | no h => exact .plain h rfl
  | get h => exact passed_getCall h
  | length hword hopening h hclose =>
      exact (Passed.plain hword rfl).append (.enclosed hopening (passed_getCall h).deeper hclose)
  | choose hword hopening _ hcomma _ hcomma' _ hclose ihtest ihyes ihno =>
      have hargs := (ihtest.deeper.append ((Passed.comma hcomma).append ihyes.deeper)).append
        ((Passed.comma hcomma').append ihno.deeper)
      simpa using (Passed.plain hword rfl).append (.enclosed hopening hargs hclose)
  | condition _ ih => exact ih
  | comparison _ hop _ ihleft ihright =>
      exact ihleft.append ((Passed.plain rfl (not_delimiter_of_comparator hop)).append ihright)

/-! ## Completeness -/

theorem getCall_derived {template : Bytes} {toks : List Token} {call : GetCall}
    (h : call.Derived template toks) (rest : List Token) (bound : Token) :
    getCall template (toks ++ rest) bound = .ok (call, toks.length) := by
  cases h with
  | mk hword hopening hname hclose => simp [getCall, tokenAt, hopening, hname, hclose]

/-- The parser reads an expression in its place, whatever tokens and boundary follow a value. -/
def ReadAs (template : Bytes) (toks : List Token) (e : Expr) : Place -> Prop
  | .value => ∀ (rest : List Token) (bound : Token),
      value template (toks ++ rest) bound = .ok (e, toks.length)
  | .condition => ∀ bound : Token, condition template toks bound = .ok e

theorem ReadAs.argument {template : Bytes} {toks : List Token} {e : Expr}
    (h : ReadAs template toks e .value) (bound : Token) :
    argument template toks bound = .ok e := by
  have hvalue := h [] bound
  rw [List.append_nil] at hvalue
  rw [Parse.argument, hvalue]
  simp

theorem readAs_length {template : Bytes} {word opening close : Token} {toks : List Token}
    {call : GetCall} (hword : word.kind = .lengthWord) (hopening : opening.kind = .openParen)
    (h : call.Derived template toks) (hclose : close.kind = .closeParen) :
    ReadAs template (word :: opening :: toks ++ [close])
      (.length (between template word close) (some call)) .value := by
  intro rest bound
  have hcall := getCall_derived h (close :: rest) bound
  cases h with
  | mk hget hopening' hname hclose' =>
      simp only [List.cons_append, List.nil_append] at hcall ⊢
      rw [value]
      simp [hword, lengthCall, tokenAt, hopening, hget, hcall, hclose]

/-- `IF` behind its opening parenthesis: the scans first, then the three arguments. -/
theorem choice_open (template : Bytes) (word bound : Token) {opening : Token}
    (hopening : opening.kind = .openParen) (inside : List Token) :
    choice template word (opening :: inside) bound =
      match closing? 0 inside with
      | none => failAt opening .unclosedIf
      | some (args, close, _) =>
          match atCommas 0 args with
          | ([(test, comma), (yes, comma')], no) => do
              let cond <- condition template test comma
              let yes <- argument template yes comma'
              let no <- argument template no close
              .ok (.choose (between template word close) cond yes no, args.length + 3)
          | (_ :: _ :: (_, extra) :: more, _) => failAt extra (.argumentCount (more.length + 4))
          | (parts, _) => failAt close (.argumentCount (parts.length + 1)) := by
  rw [choice]
  simp only [hopening, ne_eq, not_true_eq_false, if_false]
  cases closing? 0 inside with
  | none => rfl
  | some found =>
      obtain ⟨args, close, after⟩ := found
      dsimp only
      rcases atCommas 0 args with
        ⟨_ | ⟨first, _ | ⟨second, _ | ⟨third, more⟩⟩⟩, last⟩ <;> rfl

/-- The scans find the delimiters of derived arguments, and the arguments are read. -/
theorem readAs_choose {template : Bytes} {word opening comma comma' close : Token}
    {tests yess nos : List Token} {test yes no : Expr}
    (hword : word.kind = .ifWord) (hopening : opening.kind = .openParen)
    (htest : Passed 0 tests) (rtest : ReadAs template tests test .condition)
    (hcomma : comma.kind = .comma)
    (hyes : Passed 0 yess) (ryes : ReadAs template yess yes .value)
    (hcomma' : comma'.kind = .comma)
    (hno : Passed 0 nos) (rno : ReadAs template nos no .value)
    (hclose : close.kind = .closeParen) :
    ReadAs template (word :: opening :: tests ++ comma :: yess ++ comma' :: nos ++ [close])
      (.choose (between template word close) test yes no) .value := by
  intro rest bound
  have hargs : Passed 1 (tests ++ comma :: yess ++ comma' :: nos) :=
    (htest.deeper.append ((Passed.comma hcomma).append hyes.deeper)).append
      ((Passed.comma hcomma').append hno.deeper)
  have hfound : closing? 0 ((tests ++ comma :: yess ++ comma' :: nos) ++ close :: rest) =
      some (tests ++ comma :: yess ++ comma' :: nos, close, rest) := by
    rw [hargs.closing, closing?_cons]
    simp [hclose, behind]
  have hlast : atCommas 0 nos = ([], nos) := by
    simpa [atCommas, Parts.behind] using hno.commas 0 [] (Nat.le_refl 0)
  have hmiddle : atCommas 0 (yess ++ comma' :: nos) = ([(yess, comma')], nos) := by
    have hpass := hyes.commas 0 (comma' :: nos) (Nat.le_refl 0)
    rw [Nat.cast_zero] at hpass
    rw [hpass, atCommas_cons]
    simp [hcomma', hlast, Parts.behind]
  have hparts : atCommas 0 (tests ++ comma :: yess ++ comma' :: nos) =
      ([(tests, comma), (yess, comma')], nos) := by
    have hpass := htest.commas 0 (comma :: yess ++ comma' :: nos) (Nat.le_refl 0)
    rw [Nat.cast_zero] at hpass
    rw [List.append_assoc, hpass, List.cons_append, atCommas_cons]
    simp [hcomma, hmiddle, Parts.behind]
  have hlist : word :: opening :: tests ++ comma :: yess ++ comma' :: nos ++ [close] ++ rest =
      word :: opening :: ((tests ++ comma :: yess ++ comma' :: nos) ++ close :: rest) := by
    simp
  rw [hlist, value]
  simp only [hword]
  rw [choice_open template word bound hopening, hfound]
  dsimp only
  rw [hparts]
  simp [rtest comma, ryes.argument comma', rno.argument close]
  omega

theorem condition_of_end {template : Bytes} {toks : List Token} {bound : Token} {left : Expr}
    {taken : Nat} (hvalue : value template toks bound = .ok (left, taken))
    (hdrop : toks.drop taken = []) : condition template toks bound = .ok left := by
  rw [condition, hvalue]
  simp only [ok_bind]
  rw [hdrop]

theorem condition_of_sign {template : Bytes} {toks rest : List Token} {bound sign : Token}
    {left : Expr} {taken : Nat} (hvalue : value template toks bound = .ok (left, taken))
    (hdrop : toks.drop taken = sign :: rest) :
    condition template toks bound =
      match sign.kind.comparator? with
      | some op => do
          let right <- argument template rest bound
          .ok (.compare (comparisonSpan template left right) left op right)
      | none => failAt sign (.noComparator sign) := by
  rw [condition, hvalue]
  simp only [ok_bind]
  rewrite [hdrop]
  rfl

theorem readAs_derived {template : Bytes} {place : Place} {toks : List Token} {e : Expr}
    (h : e.Derived template place toks) : ReadAs template toks e place := by
  induction h with
  | string h => intro rest bound; simp [value, h]
  | number h hread => intro rest bound; simp [value, h, hread]
  | yes h => intro rest bound; simp [value, h]
  | no h => intro rest bound; simp [value, h]
  | @get toks call h =>
      intro rest bound
      have hcall := getCall_derived h rest bound
      cases h with
      | mk hword hopening hname hclose =>
          simp only [List.cons_append, List.nil_append] at hcall ⊢
          rw [value]
          simp [hword, hcall]
  | length hword hopening h hclose => exact readAs_length hword hopening h hclose
  | choose hword hopening htest hcomma hyes hcomma' hno hclose rtest ryes rno =>
      exact readAs_choose hword hopening (passed_expr htest) rtest hcomma (passed_expr hyes) ryes
        hcomma' (passed_expr hno) rno hclose
  | @condition toks e h ih =>
      intro bound
      have hvalue := ih [] bound
      rw [List.append_nil] at hvalue
      exact condition_of_end hvalue (List.drop_length)
  | @comparison sign lefts rights op left right hleft hop hright ihleft ihright =>
      intro bound
      rw [condition_of_sign (ihleft (sign :: rights) bound) List.drop_left, hop]
      simp [ihright.argument bound]

/-- No value holds a brace. -/
theorem ne_brace_of_derived {template : Bytes} {place : Place} {toks : List Token} {e : Expr}
    (h : e.Derived template place toks) :
    ∀ t ∈ toks, t.kind ≠ .closeBrace ∧ t.kind ≠ .openFormula := by
  have ofGet {toks : List Token} {call : GetCall} (h : call.Derived template toks) :
      ∀ t ∈ toks, t.kind ≠ .closeBrace ∧ t.kind ≠ .openFormula := by
    cases h with
    | mk hword hopening hname hclose => simp [hword, hopening, hname, hclose]
  induction h with
  | string h => simp [h]
  | number h _ => simp [h]
  | yes h => simp [h]
  | no h => simp [h]
  | get h => exact ofGet h
  | length hword hopening h hclose =>
      simp only [List.cons_append, List.forall_mem_cons, List.forall_mem_append]
      simpa [hword, hopening, hclose] using ofGet h
  | choose hword hopening _ hcomma _ hcomma' _ hclose ihtest ihyes ihno =>
      simp only [List.cons_append, List.forall_mem_cons, List.forall_mem_append]
      exact ⟨by simp [hword], by simp [hopening],
        ⟨⟨ihtest, by simp [hcomma], ihyes⟩, by simp [hcomma'], ihno⟩, by simp [hclose]⟩
  | condition _ ih => exact ih
  | @comparison sign _ _ op _ _ _ hop _ ihleft ihright =>
      have hsign : sign.kind ≠ .closeBrace ∧ sign.kind ≠ .openFormula := by
        constructor <;> intro hk <;> simp [hk, TokenKind.comparator?] at hop
      simp only [List.forall_mem_append, List.forall_mem_cons]
      exact ⟨ihleft, hsign, ihright⟩

theorem braced?_append {inner after : List Token} {close : Token}
    (hinner : ∀ t ∈ inner, t.kind ≠ .closeBrace) (hclose : close.kind = .closeBrace) :
    braced? (inner ++ close :: after) = some (inner, close, after) := by
  induction inner with
  | nil => simp [braced?, hclose]
  | cons t rest ih =>
      rw [List.forall_mem_cons] at hinner
      simp [braced?, hinner.1, ih hinner.2]

theorem formulaValue_derived {template : Bytes} {toks : List Token} {e : Expr}
    (h : e.Derived template .value toks) (close : Token) :
    formulaValue template toks close = .ok (some e) := by
  have hvalue := readAs_derived h [] close
  rw [List.append_nil] at hvalue
  have hne : toks ≠ [] := by
    rintro rfl
    simp [value, failAt] at hvalue
  simp [formulaValue, hne, hvalue]

theorem segments_text (template : Bytes) {t : Token} (h : t.kind = .string)
    (rest : List Token) :
    segments template (t :: rest) = (do
      let (more, left) <- segments template rest
      .ok (.text ⟨tokenSpan template t, t.lexeme, none⟩ :: more, left)) := by
  rw [segments]
  simp [h]

theorem segments_unclosed (template : Bytes) {opening : Token} {rest : List Token}
    (hopening : opening.kind = .openFormula) (h : braced? rest = none) :
    segments template (opening :: rest) = failAt opening .missingBrace := by
  rw [segments]
  simp only [hopening]
  rw [h]

theorem segments_braced (template : Bytes) {opening close : Token} {rest inner after : List Token}
    (hopening : opening.kind = .openFormula) (h : braced? rest = some (inner, close, after)) :
    segments template (opening :: rest) = (do
      let v <- formulaValue template inner close
      let (more, left) <- segments template after
      .ok (.formula (between template opening close) v :: more, left)) := by
  rw [segments]
  simp only [hopening]
  rw [h]

theorem segments_formula (template : Bytes) {opening close : Token} {inner : List Token}
    (hopening : opening.kind = .openFormula) (hinner : ∀ t ∈ inner, t.kind ≠ .closeBrace)
    (hclose : close.kind = .closeBrace) (after : List Token) :
    segments template (opening :: inner ++ close :: after) = (do
      let v <- formulaValue template inner close
      let (more, left) <- segments template after
      .ok (.formula (between template opening close) v :: more, left)) :=
  segments_braced template hopening (braced?_append hinner hclose)

theorem segments_derived {template : Bytes} {toks : List Token} {parts : List Segment}
    (h : SegmentsDerived template toks parts) : segments template toks = .ok (parts, []) := by
  induction h with
  | nil => simp [segments]
  | @cons _ rest _ _ hfirst _ ih =>
      cases hfirst with
      | text h => simp [segments_text template h, ih]
      | emptyFormula hopening hclose =>
          have hsegments := segments_formula template hopening (List.forall_mem_nil _) hclose rest
          simpa [formulaValue, ih] using hsegments
      | formula hopening h hclose =>
          have hbraces := fun t ht => (ne_brace_of_derived h t ht).1
          have hsegments := segments_formula template hopening hbraces hclose rest
          simpa [formulaValue_derived h, ih] using hsegments

theorem body_derived {template : Bytes} {toks : List Token} {parts : Option TemplateBody}
    (h : BodyDerived template toks parts) (eof : Token) :
    body template toks eof = .ok parts := by
  cases h with
  | nil => rfl
  | cons h => simp [body, segments_derived h]

theorem sourceFile_derived {template : Bytes} {toks : List Token} {file : SourceFile}
    (h : file.Derived template toks) : sourceFile template toks = .ok file := by
  cases h with
  | mk hbody heof => simp [sourceFile, heof, body_derived hbody]

/-! ## Soundness -/

/-- Tokens that the scan passes over have as many opening as closing parentheses. -/
theorem Passed.depth_eq_zero {least : Nat} {toks : List Token} (h : Passed least toks) :
    depth toks = 0 := by
  have hfound := h.closing 0 [⟨[], .closeParen, 0, 0⟩]
  rw [closing?_cons] at hfound
  simp only [behind] at hfound
  simpa using (closing?_split hfound).2.2

/-- A boundary that no call among the tokens can take for its own parenthesis. -/
def Bounds (bound : Token) (toks : List Token) : Prop :=
  bound.kind = .closeParen → depth toks = 0

def ValueSound (template : Bytes) (toks : List Token) : Prop :=
  ∀ (bound : Token) (e : Expr) (taken : Nat), Bounds bound toks →
    value template toks bound = .ok (e, taken) →
    ∃ first rest, toks = first ++ rest ∧ first.length = taken ∧
      e.Derived template .value first

theorem unless_eq_ok_iff {α : Type} {p : Prop} [Decidable p] {t : Token} {cause : SyntaxCause}
    {x : Except SyntaxError α} {a : α} :
    (if p then failAt t cause else x) = .ok a ↔ ¬p ∧ x = .ok a := by
  by_cases hp : p <;> simp [hp, failAt]

/-- A call of `GET` is either whole, or lacks a parenthesis that the boundary stands in for. -/
theorem getCall_cases {template : Bytes} {toks : List Token} {word bound : Token}
    {call : GetCall} {taken : Nat} (hword : word.kind = .getWord)
    (h : getCall template (word :: toks) bound = .ok (call, taken)) :
    taken = 4 ∧
      ((∃ first rest, word :: toks = first ++ rest ∧ first.length = 4 ∧
          call.Derived template first) ∨
        (toks.length = 2 ∧ bound.kind = .closeParen ∧ depth (word :: toks) = 1)) := by
  unfold getCall at h
  simp only [tokenAt] at h
  obtain ⟨hopening, h⟩ := unless_eq_ok_iff.mp h
  obtain ⟨hname, h⟩ := unless_eq_ok_iff.mp h
  obtain ⟨hclose, h⟩ := unless_eq_ok_iff.mp h
  rcases toks with _ | ⟨opening, _ | ⟨name, _ | ⟨close, rest⟩⟩⟩
  · simp at hname
  · simp at hname
  · simp only [List.getD_cons_zero, List.getD_cons_succ, List.getD_nil, ne_eq,
      not_not] at hopening hclose
    simp only [Except.ok.injEq, Prod.mk.injEq] at h
    have hstring : name.kind = .string := by simpa using hname
    refine ⟨h.2.symm, .inr ⟨rfl, hclose, ?_⟩⟩
    simp [turn, hword, hopening, hstring]
  · simp only [List.getD_cons_zero, List.getD_cons_succ, ne_eq, not_not] at hopening hclose
    simp only [Except.ok.injEq, Prod.mk.injEq] at h
    have hstring : name.kind = .string := by simpa using hname
    obtain ⟨rfl, rfl⟩ := h
    exact ⟨rfl, .inl ⟨[word, opening, name, close], rest, rfl, rfl,
      .mk hword hopening hstring hclose⟩⟩

theorem getCall_sound {template : Bytes} {toks : List Token} {word bound : Token}
    {call : GetCall} {taken : Nat} (hword : word.kind = .getWord)
    (hbounds : Bounds bound (word :: toks))
    (h : getCall template (word :: toks) bound = .ok (call, taken)) :
    ∃ first rest, word :: toks = first ++ rest ∧ first.length = taken ∧
      call.Derived template first := by
  obtain ⟨rfl, hwhole | ⟨-, hclose, hdepth⟩⟩ := getCall_cases hword h
  · exact hwhole
  · have hzero := hbounds hclose
    omega

theorem lengthCall_sound {template : Bytes} {toks : List Token} {word bound : Token}
    {e : Expr} {taken : Nat} (hword : word.kind = .lengthWord)
    (hbounds : Bounds bound (word :: toks))
    (h : lengthCall template (word :: toks) bound = .ok (e, taken)) :
    ∃ first rest, word :: toks = first ++ rest ∧ first.length = taken ∧
      e.Derived template .value first := by
  unfold lengthCall at h
  simp only [tokenAt] at h
  obtain ⟨hopening, h⟩ := unless_eq_ok_iff.mp h
  obtain ⟨harg, h⟩ := unless_eq_ok_iff.mp h
  rcases toks with _ | ⟨opening, _ | ⟨arg, rest⟩⟩
  · simp at harg
  · simp at harg
  simp only [List.getD_cons_zero, List.getD_cons_succ, ne_eq, not_not] at hopening
  have hget : arg.kind = .getWord := by simpa using harg
  simp only [List.drop_succ_cons, List.drop_zero] at h
  obtain ⟨⟨call, n⟩, hcall, h⟩ := bind_eq_ok_iff.mp h
  obtain ⟨rfl, hcases⟩ := getCall_cases hget hcall
  have hword0 : turn word = 0 := by simp [turn, hword]
  have hopening1 := turn_of_open hopening
  obtain ⟨hclose, h⟩ := unless_eq_ok_iff.mp h
  simp only [ne_eq, not_not] at hclose
  simp only [Except.ok.injEq, Prod.mk.injEq] at h
  obtain ⟨rfl, rfl⟩ := h
  rcases hcases with ⟨first, after, heq, hlen, hderived⟩ | ⟨-, hbound, hdepth⟩
  · rcases after with _ | ⟨close, after⟩
    · -- the call ends at the boundary, so one parenthesis is left open
      have hindex : (word :: opening :: arg :: rest).length ≤ 6 := by
        have := congrArg List.length heq
        simp [hlen] at this ⊢
        omega
      rw [List.getD_eq_default _ _ hindex] at hclose
      have hzero := hbounds hclose
      have hcalls := (passed_getCall hderived).depth_eq_zero
      rw [List.append_nil] at heq
      rw [depth_cons, depth_cons, heq, hcalls] at hzero
      omega
    · have hat : (word :: opening :: arg :: rest).getD 6 bound = close := by
        rw [heq]
        simp [List.getD_eq_getElem?_getD, hlen]
      rw [hat] at hclose ⊢
      refine ⟨word :: opening :: first ++ [close], after, by simp [heq], by simp [hlen], ?_⟩
      exact .length hword hopening hderived hclose
  · have hzero := hbounds hbound
    rw [depth_cons, depth_cons, hdepth] at hzero
    omega

theorem argument_sound {template : Bytes} {toks : List Token} {bound : Token} {e : Expr}
    (hsound : ValueSound template toks) (hbounds : Bounds bound toks)
    (h : argument template toks bound = .ok e) : e.Derived template .value toks := by
  rw [argument] at h
  obtain ⟨⟨v, taken⟩, hvalue, h⟩ := bind_eq_ok_iff.mp h
  obtain ⟨first, rest, rfl, rfl, hderived⟩ := hsound bound v taken hbounds hvalue
  simp only [List.drop_left] at h
  cases rest with
  | nil =>
      cases h
      simpa using hderived
  | cons t rest => simp [failAt] at h

theorem condition_sound {template : Bytes} {toks : List Token} {bound : Token} {e : Expr}
    (hsound : ∀ part : List Token, part.length ≤ toks.length → ValueSound template part)
    (hbounds : Bounds bound toks) (h : condition template toks bound = .ok e) :
    e.Derived template .condition toks := by
  have hvalue : ∃ left taken, value template toks bound = .ok (left, taken) := by
    rw [condition] at h
    obtain ⟨⟨left, taken⟩, hvalue, -⟩ := bind_eq_ok_iff.mp h
    exact ⟨left, taken, hvalue⟩
  obtain ⟨left, taken, hvalue⟩ := hvalue
  obtain ⟨first, rest, rfl, rfl, hleft⟩ :=
    hsound toks (Nat.le_refl _) bound left taken hbounds hvalue
  cases rest with
  | nil =>
      rw [condition_of_end hvalue (by simp)] at h
      cases h
      simpa using hleft.condition
  | cons sign rights =>
      rw [condition_of_sign hvalue List.drop_left] at h
      cases hop : sign.kind.comparator? with
      | none => simp [hop, failAt] at h
      | some op =>
          simp only [hop] at h
          obtain ⟨right, hargument, h⟩ := bind_eq_ok_iff.mp h
          cases h
          -- the left operand and the sign leave the depth as it was
          have hright : Bounds bound rights := by
            intro hclose
            have hdepth := hbounds hclose
            have hsign := (Passed.plain rfl (not_delimiter_of_comparator hop)).depth_eq_zero
            rw [depth_append, (passed_expr hleft).depth_eq_zero, depth_cons] at hdepth
            rw [depth_cons, depth_nil] at hsign
            omega
          have hlen : rights.length ≤ (first ++ sign :: rights).length := by
            simp only [List.length_append, List.length_cons]
            omega
          exact .comparison hleft hop (argument_sound (hsound rights hlen) hright hargument)

/-- `IF` succeeds only where the scans find two commas before its closing parenthesis. -/
theorem choice_cases {template : Bytes} {word bound : Token} {toks : List Token} {e : Expr}
    {taken : Nat} (h : choice template word toks bound = .ok (e, taken)) :
    ∃ opening inside args close after tests comma yess comma' nos test yes no,
      toks = opening :: inside ∧ opening.kind = .openParen ∧
      closing? 0 inside = some (args, close, after) ∧
      atCommas 0 args = ([(tests, comma), (yess, comma')], nos) ∧
      condition template tests comma = .ok test ∧ argument template yess comma' = .ok yes ∧
      argument template nos close = .ok no ∧
      e = .choose (between template word close) test yes no ∧ taken = args.length + 3 := by
  cases toks with
  | nil =>
      rw [choice] at h
      cases h
  | cons opening inside =>
      by_cases hopening : opening.kind = .openParen
      · rw [choice_open template word bound hopening] at h
        cases hfound : closing? 0 inside with
        | none => simp [hfound, failAt] at h
        | some found =>
            obtain ⟨args, close, after⟩ := found
            simp only [hfound] at h
            rcases hparts : atCommas 0 args with
              ⟨_ | ⟨⟨tests, comma⟩, _ | ⟨⟨yess, comma'⟩, _ | ⟨⟨extra, comma''⟩, more⟩⟩⟩, nos⟩
            · simp [hparts, failAt] at h
            · simp [hparts, failAt] at h
            · simp only [hparts] at h
              obtain ⟨test, htest, h⟩ := bind_eq_ok_iff.mp h
              obtain ⟨yes, hyes, h⟩ := bind_eq_ok_iff.mp h
              obtain ⟨no, hno, h⟩ := bind_eq_ok_iff.mp h
              cases h
              exact ⟨opening, inside, args, close, after, tests, comma, yess, comma', nos, test,
                yes, no, rfl, hopening, hfound, hparts, htest, hyes, hno, rfl, rfl⟩
            · simp [hparts, failAt] at h
      · rw [choice] at h
        simp [hopening, failAt] at h

/-- The arguments of `IF` make its node, if values are read soundly from fewer tokens. -/
theorem choice_sound {template : Bytes} {word bound : Token} {toks : List Token} {e : Expr}
    {taken : Nat} (hword : word.kind = .ifWord)
    (hsound : ∀ part : List Token, part.length ≤ toks.length → ValueSound template part)
    (h : choice template word toks bound = .ok (e, taken)) :
    ∃ first rest, word :: toks = first ++ rest ∧ first.length = taken ∧
      e.Derived template .value first := by
  obtain ⟨opening, inside, args, close, after, tests, comma, yess, comma', nos, test, yes, no,
    rfl, hopening, hfound, hparts, htest, hyes, hno, rfl, rfl⟩ := choice_cases h
  obtain ⟨rfl, hclose, hdepth⟩ := closing?_split hfound
  obtain ⟨rfl, hcomma, hcomma', -, -, hnos⟩ := atCommas_two hparts (by simpa using hdepth)
  simp only [List.length_cons, List.length_append] at hsound
  have dtest := condition_sound (fun part hpart => hsound part (by omega))
    (fun hkind => by simp [hcomma] at hkind) htest
  have dyes := argument_sound (hsound yess (by omega))
    (fun hkind => by simp [hcomma'] at hkind) hyes
  have dno := argument_sound (hsound nos (by omega)) (fun _ => hnos) hno
  refine ⟨word :: opening :: tests ++ comma :: yess ++ comma' :: nos ++ [close], after,
    by simp, by simp; omega, ?_⟩
  exact .choose hword hopening dtest hcomma dyes hcomma' dno hclose

theorem value_sound (template : Bytes) (toks : List Token) : ValueSound template toks := by
  -- a choice reads its arguments from fewer tokens than it has
  induction hn : toks.length using Nat.strong_induction_on generalizing toks with
  | _ n ih =>
      intro bound e taken hbounds h
      cases toks with
      | nil => simp [value, failAt] at h
      | cons t rest =>
          rw [value] at h
          split at h
          · cases h
            exact ⟨[t], rest, rfl, rfl, .string ‹_›⟩
          · cases hread : Numeral.read? t.lexeme with
            | none => simp [hread, failAt] at h
            | some x =>
                simp only [hread] at h
                cases h
                exact ⟨[t], rest, rfl, rfl, .number ‹_› hread⟩
          · cases h
            exact ⟨[t], rest, rfl, rfl, .yes ‹_›⟩
          · cases h
            exact ⟨[t], rest, rfl, rfl, .no ‹_›⟩
          · obtain ⟨⟨call, n⟩, hcall, h⟩ := bind_eq_ok_iff.mp h
            cases h
            obtain ⟨first, after, heq, hlen, hderived⟩ := getCall_sound ‹_› hbounds hcall
            exact ⟨first, after, heq, hlen, .get hderived⟩
          · exact lengthCall_sound ‹_› hbounds h
          · refine choice_sound ‹_› (fun part hpart => ?_) h
            exact ih part.length (by simp only [List.length_cons] at hn; omega) part rfl
          · simp [failAt] at h

theorem braced?_split {toks inner after : List Token} {close : Token}
    (h : braced? toks = some (inner, close, after)) :
    toks = inner ++ close :: after ∧ close.kind = .closeBrace := by
  induction toks generalizing inner with
  | nil => simp [braced?] at h
  | cons t rest ih =>
      unfold braced? at h
      split at h
      · rename_i hclose
        cases h
        exact ⟨rfl, hclose⟩
      · cases hr : braced? rest with
        | none => simp [hr] at h
        | some found =>
            obtain ⟨inner', close', after'⟩ := found
            simp only [hr, Option.map_some, Option.some.injEq, Prod.mk.injEq] at h
            obtain ⟨rfl, rfl, rfl⟩ := h
            obtain ⟨rfl, hclose⟩ := ih hr
            exact ⟨rfl, hclose⟩

theorem formulaValue_sound {template : Bytes} {opening close : Token} {toks : List Token}
    {v : Option Expr} (hopening : opening.kind = .openFormula) (hclose : close.kind = .closeBrace)
    (h : formulaValue template toks close = .ok v) :
    Segment.Derived template (opening :: toks ++ [close])
      (.formula (between template opening close) v) := by
  cases toks with
  | nil =>
      cases h
      exact .emptyFormula hopening hclose
  | cons t rest =>
      simp only [formulaValue, List.isEmpty_cons, Bool.false_eq_true, if_false] at h
      obtain ⟨⟨e, taken⟩, hvalue, h⟩ := bind_eq_ok_iff.mp h
      have hbounds : Bounds close (t :: rest) := fun hkind => by simp [hclose] at hkind
      obtain ⟨first, left, heq, rfl, hderived⟩ :=
        value_sound template (t :: rest) close e taken hbounds hvalue
      rw [heq] at h ⊢
      simp only [List.drop_left] at h
      cases left with
      | nil =>
          cases h
          simpa using Segment.Derived.formula hopening hderived hclose
      | cons u left =>
          dsimp only at h
          split at h <;> cases h

/-- The parser leaves no tokens over. -/
theorem segments_sound {template : Bytes} (toks : List Token) {parts : List Segment}
    {left : List Token} (h : segments template toks = .ok (parts, left)) :
    left = [] ∧ SegmentsDerived template toks parts := by
  induction hn : toks.length using Nat.strong_induction_on generalizing toks parts with
  | _ n ih =>
      cases toks with
      | nil =>
          rw [segments] at h
          cases h
          exact ⟨rfl, .nil⟩
      | cons t rest =>
          simp only [List.length_cons] at hn
          rw [segments] at h
          split at h
          · rename_i hkind
            obtain ⟨⟨more, left'⟩, hrest, h⟩ := bind_eq_ok_iff.mp h
            cases h
            obtain ⟨hleft, hmore⟩ := ih rest.length (by omega) rest hrest rfl
            exact ⟨hleft, .cons (.text hkind) hmore⟩
          · rename_i hkind
            cases hb : braced? rest with
            | none =>
                rw [hb] at h
                simp [failAt] at h
            | some found =>
                obtain ⟨inner, close, after⟩ := found
                rw [hb] at h
                obtain ⟨v, hv, h⟩ := bind_eq_ok_iff.mp h
                obtain ⟨⟨more, left'⟩, hrest, h⟩ := bind_eq_ok_iff.mp h
                cases h
                have hlen := length_braced? hb
                obtain ⟨rfl, hclose⟩ := braced?_split hb
                obtain ⟨hleft, hmore⟩ := ih after.length (by omega) after hrest rfl
                refine ⟨hleft, ?_⟩
                simpa using SegmentsDerived.cons (formulaValue_sound hkind hclose hv) hmore
          · simp [failAt] at h

theorem body_sound {template : Bytes} {toks : List Token} {eof : Token}
    {parts : Option TemplateBody} (h : body template toks eof = .ok parts) :
    BodyDerived template toks parts := by
  cases toks with
  | nil =>
      cases h
      exact .nil
  | cons first rest =>
      obtain ⟨⟨segs, left⟩, hsegments, h⟩ := bind_eq_ok_iff.mp h
      obtain ⟨rfl, hderived⟩ := segments_sound (first :: rest) hsegments
      cases h
      exact .cons hderived

theorem sourceFile_sound {template : Bytes} {toks : List Token} {file : SourceFile}
    (h : sourceFile template toks = .ok file) : file.Derived template toks := by
  unfold sourceFile at h
  cases hlast : toks.getLast? with
  | none => simp [hlast] at h
  | some eof =>
      obtain ⟨front, rfl⟩ := List.getLast?_eq_some_iff.mp hlast
      simp only [hlast] at h
      split at h
      · cases h
      · rename_i heof
        obtain ⟨parts, hbody, h⟩ := bind_eq_ok_iff.mp h
        cases h
        rw [List.dropLast_concat] at hbody
        exact .mk (body_sound hbody) (not_not.mp heof)

end Parse

/-- The tokens that count: all but white space. -/
def significant (toks : List Token) : List Token :=
  toks.filter fun t => t.kind ≠ .whitespace

/-- The parser's trees are exactly those that the significant tokens make. -/
theorem parse_eq_ok_iff {template : Bytes} {toks : List Token} {file : SourceFile} :
    parse template toks = .ok file ↔ file.Derived template (significant toks) :=
  ⟨Parse.sourceFile_sound, Parse.sourceFile_derived⟩

end Backtick
