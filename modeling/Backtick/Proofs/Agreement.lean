import Mathlib
import Backtick.Proofs.Acceptance
import Backtick.Proofs.Shape
import Backtick.Proofs.Terms

/-!
# Scripts and trees agree

The script of a template, read and run, does what its tree does once every stray
byte of the tree is shown as a character: it puts the same questions to the
bindings, yields the same text, and fails in the same cases with the same kinds.
-/

namespace Backtick

/-! ## Trees with stray bytes shown -/

def StringLiteral.latin (literal : StringLiteral) : StringLiteral :=
  { literal with value := Utf8.latin literal.value }

def GetCall.latin (call : GetCall) : GetCall :=
  { call with name := call.name.map StringLiteral.latin }

/-- The expression with its stray bytes shown as characters. -/
def Expr.latin : Expr -> Expr
  | .string literal => .string literal.latin
  | .number span x => .number span x
  | .boolean span b => .boolean span b
  | .get call => .get call.latin
  | .length span arg => .length span (arg.map GetCall.latin)
  | .choose span test yes no => .choose span test.latin yes.latin no.latin
  | .compare span left op right => .compare span left.latin op right.latin
  | .missing => .missing

def Segment.latin : Segment -> Segment
  | .text literal => .text literal.latin
  | .formula span value => .formula span (value.map Expr.latin)
  | .missing => .missing

def SourceFile.latin (file : SourceFile) : SourceFile :=
  { file with
    body := file.body.map fun body => { body with segments := body.segments.map Segment.latin } }

theorem SourceFile.segments_latin (file : SourceFile) :
    file.latin.segments = file.segments.map Segment.latin := by
  unfold SourceFile.segments SourceFile.latin
  cases file.body <;> rfl

namespace Script

/-! ## One step of a script and of a tree -/

def Raised (fn : Bindings) (fault : Fault) : Prop :=
  (∃ name, fn.get name = .error fault) ∨ ∃ v, fn.length v = .error fault

/-- A fault of the bindings, and that of a tree which it brought down. -/
def Brings (fn : Bindings) (cause fault : Fault) : Prop :=
  Raised fn cause ∧ fault.kinds = .evaluation :: cause.kinds

variable {fn : Bindings}

theorem related_askGet (name name' : Bytes) (column : Int) :
    Traced.Related (Brings fn) (fn.askGet name)
      ((fn.askGet name).mapFault (evaluationFault name' column)) := by
  refine ⟨rfl, ?_⟩
  unfold Bindings.askGet Traced.mapFault
  cases h : fn.get name with
  | ok v => exact .ok _
  | error fault => exact .error ⟨.inl ⟨name, h⟩, rfl⟩

theorem related_askLength (v : Value) (name : Bytes) (column : Int) :
    Traced.Related (Brings fn) (fn.askLength v)
      ((fn.askLength v).mapFault (evaluationFault name column)) := by
  refine ⟨rfl, ?_⟩
  unfold Bindings.askLength Traced.mapFault
  cases h : fn.length v with
  | ok n => exact .ok _
  | error fault => exact .error ⟨.inr ⟨v, h⟩, rfl⟩

theorem related_getCall {call : GetCall} {text : Bytes} (h : call.emit = .ok text) :
    Traced.Related (Brings fn) (call.term.run fn) (call.latin.evaluate fn) := by
  unfold GetCall.emit at h
  cases hname : call.name with
  | none => rw [hname] at h; cases h
  | some name =>
      have hvalue : call.nameValue = name.value := by rw [GetCall.nameValue, hname]; rfl
      have hlatin : call.latin.name = some name.latin := by rw [GetCall.latin, hname]; rfl
      rw [GetCall.term, hvalue, GetCall.evaluate, hlatin]
      exact related_askGet _ _ _

theorem run_ofNumber (x : Binary64) :
    (Term.ofNumber x).run fn = pure (.made (.double x)) := by
  cases x with
  | nan => rfl
  | infinite negative => rfl
  | finite negative units h => cases negative <;> rfl

theorem run_choose (c y n : Term) :
    (Term.choose (.isTruthy c) y n).run fn = (do
      let r <- c.run fn
      if r.value.truthy then y.run fn else n.run fn) := by
  rw [Term.run, Term.run, Traced.bind_assoc]
  congr 1
  funext r
  rw [Traced.pure_bind]
  cases hr : r.value.truthy <;> rfl

/-- An expression and its script do the same. -/
theorem related_expr {e : Expr} {text : Bytes} (h : e.emit = .ok text) :
    Traced.Related (Brings fn) (e.term.run fn) (e.latin.evaluate fn) := by
  induction e generalizing text with
  | string literal => exact .pure _
  | number span x =>
      rw [Expr.term, run_ofNumber]
      exact .pure _
  | boolean span b => exact .pure _
  | get call => exact related_getCall h
  | length span arg =>
      cases arg with
      | none => cases h
      | some call =>
          obtain ⟨inner, hinner, -⟩ := bind_eq_ok_iff.mp h
          exact .bind (related_getCall hinner) fun r => related_askLength _ _ _
  | choose span test yes no ihtest ihyes ihno =>
      obtain ⟨testText, htest, h⟩ := bind_eq_ok_iff.mp h
      obtain ⟨yesText, hyes, h⟩ := bind_eq_ok_iff.mp h
      obtain ⟨noText, hno, -⟩ := bind_eq_ok_iff.mp h
      rw [Expr.term, run_choose]
      refine .bind (ihtest htest) fun r => ?_
      split
      · exact ihyes hyes
      · exact ihno hno
  | compare span left op right ihleft ihright =>
      obtain ⟨leftText, hleft, h⟩ := bind_eq_ok_iff.mp h
      obtain ⟨rightText, hright, -⟩ := bind_eq_ok_iff.mp h
      exact .bind (ihleft hleft) fun l => .bind (ihright hright) fun r => .pure _
  | missing => cases h

/-! ## Whole scripts -/

theorem related_segment {segment : Segment} {text : Bytes} (h : segment.emit = .ok text) :
    Traced.Related (Brings fn) ((Term.toText segment.term).run fn)
      (segment.latin.evaluate fn >>= fun v => pure (.made (.string v.text))) := by
  cases segment with
  | text literal => exact .pure _
  | formula span value =>
      cases value with
      | none => exact .pure _
      | some e =>
          have hrun : (Term.toText (Segment.formula span (some e)).term).run fn =
              (e.term.run fn >>= fun r => pure (.made (.string r.value.text))) := rfl
          have hvalue : (Segment.formula span (some e)).latin.evaluate fn =
              (e.latin.evaluate fn >>= fun r => pure r.value) := rfl
          rw [hrun, hvalue, Traced.bind_assoc]
          exact .bind (related_expr h) fun r => .pure _
  | missing => cases h

/-- What a sum so far and the segments behind it do, by induction on the segments. -/
theorem related_sum {segments : List Segment} {parts : List Bytes}
    (h : emitSegments segments = .ok parts) {acc : Term} {x : Traced Bytes}
    (hacc : Traced.Related (Brings fn) (acc.run fn) (x >>= fun s => pure (.made (.string s)))) :
    Traced.Related (Brings fn)
      (((segments.map fun segment => Term.toText segment.term).foldl .add acc).run fn)
      (x >>= fun s => renderSegments fn (segments.map Segment.latin) >>= fun more =>
        pure (.made (.string (s ++ more)))) := by
  induction segments generalizing parts acc x with
  | nil =>
      simpa [renderSegments] using hacc
  | cons segment rest ih =>
      obtain ⟨text, htext, h⟩ := bind_eq_ok_iff.mp h
      obtain ⟨more, hmore, -⟩ := bind_eq_ok_iff.mp h
      have hstep : Traced.Related (Brings fn) ((Term.add acc (.toText segment.term)).run fn)
          ((x >>= fun s => segment.latin.evaluate fn >>= fun v => pure (s ++ v.text)) >>=
            fun s => pure (.made (.string s))) := by
        simp only [Traced.bind_assoc, Traced.pure_bind]
        exact hacc.bind_map fun s => (related_segment htext).bind_map fun v => .pure _
      have hrest := ih hmore hstep
      simp only [Traced.bind_assoc, Traced.pure_bind] at hrest
      simp only [List.map_cons, List.foldl_cons, renderSegments, Traced.bind_assoc,
        Traced.pure_bind, ← List.append_assoc]
      exact hrest

/-- A template and the sum of its segments do the same. -/
theorem related_file {file : SourceFile} {source : Bytes} (h : file.emit = .ok source) :
    Traced.Related (Brings fn)
      ((Term.sum (file.segments.map fun segment => .toText segment.term)).run fn)
      (file.latin.render fn >>= fun s => pure (.made (.string s))) := by
  unfold SourceFile.emit at h
  rw [SourceFile.render, SourceFile.segments_latin]
  cases hsegments : file.segments with
  | nil => exact .pure _
  | cons segment rest =>
      rw [hsegments] at h
      obtain ⟨parts, hparts, -⟩ := bind_eq_ok_iff.mp h
      obtain ⟨text, htext, hparts⟩ := bind_eq_ok_iff.mp hparts
      obtain ⟨more, hmore, -⟩ := bind_eq_ok_iff.mp hparts
      have hfirst : Traced.Related (Brings fn) ((Term.toText segment.term).run fn)
          ((segment.latin.evaluate fn >>= fun v => pure v.text) >>=
            fun s => pure (.made (.string s))) := by
        simp only [Traced.bind_assoc, Traced.pure_bind]
        exact related_segment htext
      have hsum := related_sum hmore hfirst
      simp only [Traced.bind_assoc, Traced.pure_bind] at hsum
      simp only [List.map_cons, renderSegments, Traced.bind_assoc, Traced.pure_bind]
      exact hsum

/-- Both fail because of the same answer of the bindings, and name its kinds below their own. -/
def SameFailure (fn : Bindings) (f g : Fault) : Prop :=
  ∃ cause, Raised fn cause ∧ f.kinds = .evaluation :: cause.kinds ∧
    g.kinds = .evaluation :: cause.kinds

theorem related_render {file : SourceFile} {source : Bytes} (h : file.emit = .ok source)
    (hfinite : file.isFinite) :
    Traced.Related (SameFailure fn) (render fn source) (file.latin.render fn) := by
  have hfile : Traced.Related (Brings fn) _ _ := related_file h
  obtain ⟨hcalls, houtcome⟩ := hfile
  unfold render
  rw [read?_emit h hfinite]
  dsimp only [Traced.mapFault]
  generalize Term.run fn _ = run at hcalls houtcome ⊢
  cases hrender : (file.latin.render fn).outcome with
  | ok s =>
      rw [Traced.bind_of_ok hrender] at hcalls houtcome
      cases hrun : run.outcome with
      | error fault => rw [hrun] at houtcome; cases houtcome
      | ok r =>
          rw [hrun] at houtcome
          cases houtcome
          refine ⟨?_, ?_⟩
          · simpa [pure, Traced.done] using hcalls
          · rw [hrender]
            exact .ok s
  | error g =>
      rw [Traced.bind_of_error hrender] at hcalls houtcome
      cases hrun : run.outcome with
      | ok r => rw [hrun] at houtcome; cases houtcome
      | error f =>
          rw [hrun] at houtcome
          cases houtcome with
          | error hbrings =>
              refine ⟨hcalls, ?_⟩
              rw [hrender]
              exact .error ⟨f, hbrings.1, rfl, hbrings.2⟩

end Script

/-! ## Compiled templates -/

namespace Scan

theorem Lexeme.number_isFinite {lexeme rest : Bytes} (h : Lexeme .number lexeme rest)
    {x : Binary64} (hread : Numeral.read? lexeme = some x) : x.isFinite := by
  have hdecimal : ∃ d, Numeral.readAs .double lexeme = Numeral.ofDecimal .double false d := by
    have hfirst : ∀ b : UInt8, ('1'.toUInt8 ≤ b && b ≤ '9'.toUInt8) = true → Bytes.isDigit b := by
      decide +kernel
    generalize hkind : TokenKind.number = kind at h
    cases h with
    | whole hdigit hdigits _ =>
        exact ⟨_, Numeral.readAs_whole .double (hfirst _ hdigit) hdigits⟩
    | fraction hdigit hdigits hplaces _ =>
        exact ⟨_, Numeral.readAs_fraction .double (hfirst _ hdigit) hdigits hplaces⟩
    | word => exact absurd hkind (TokenKind.ne_ofWord (by decide) _)
    | _ => cases hkind
  obtain ⟨d, hd⟩ := hdecimal
  rw [Numeral.read?, hd] at hread
  cases hvalue : Numeral.ofDecimal .double false d with
  | error e => rw [hvalue] at hread; cases hread
  | ok y =>
      rw [hvalue] at hread
      cases hread
      exact Numeral.isFinite_of_ofDecimal hvalue

end Scan

theorem Expr.Derived.isFinite {template : Bytes} {place : Grammar.Place} {toks : List Token}
    {e : Expr} (h : e.Derived template place toks)
    (hfinite : ∀ t ∈ toks, t.kind = .number → ∀ x, Numeral.read? t.lexeme = some x → x.isFinite) :
    e.isFinite := by
  induction h with
  | string | yes | no | get | length => rfl
  | number h hread => exact hfinite _ List.mem_cons_self h _ hread
  | choose _ _ _ _ _ _ _ _ ihtest ihyes ihno =>
      simp only [List.mem_append, List.mem_cons] at hfinite
      simp [Expr.isFinite, ihtest fun t ht => hfinite t (by simp [ht]),
        ihyes fun t ht => hfinite t (by simp [ht]), ihno fun t ht => hfinite t (by simp [ht])]
  | condition _ ih => exact ih hfinite
  | comparison _ _ _ ihleft ihright =>
      simp only [List.mem_append, List.mem_cons] at hfinite
      simp [Expr.isFinite, ihleft fun t ht => hfinite t (by simp [ht]),
        ihright fun t ht => hfinite t (by simp [ht])]

theorem StringLiteral.latin_of_isValid {literal : StringLiteral}
    (h : Utf8.isValid literal.value) : literal.latin = literal := by
  rw [StringLiteral.latin, Utf8.latin_of_isValid h]

theorem GetCall.Derived.latin {template : Bytes} {toks : List Token} {call : GetCall}
    (h : call.Derived template toks)
    (hvalid : ∀ t ∈ toks, t.kind = .string → Utf8.isValid (unquoted t.lexeme)) :
    call.latin = call := by
  cases h with
  | @mk word opening name close _ _ hname _ =>
      have hvalue : Utf8.isValid (Parse.quoted template name).value := by
        rw [quoted_value]
        exact hvalid name (by simp) hname
      simp only [GetCall.latin, Option.map_some, StringLiteral.latin_of_isValid hvalue]

theorem Expr.Derived.latin {template : Bytes} {place : Grammar.Place} {toks : List Token}
    {e : Expr} (h : e.Derived template place toks)
    (hvalid : ∀ t ∈ toks, t.kind = .string → Utf8.isValid (unquoted t.lexeme)) :
    e.latin = e := by
  induction h with
  | @string t h =>
      have hvalue : Utf8.isValid (Parse.quoted template t).value := by
        rw [quoted_value]
        exact hvalid t List.mem_cons_self h
      rw [Expr.latin, StringLiteral.latin_of_isValid hvalue]
  | number | yes | no => rfl
  | get h => rw [Expr.latin, h.latin hvalid]
  | length _ _ h _ =>
      rw [Expr.latin, Option.map_some, h.latin fun t ht => hvalid t (by simp [ht])]
  | choose _ _ _ _ _ _ _ _ ihtest ihyes ihno =>
      simp only [List.mem_append, List.mem_cons] at hvalid
      rw [Expr.latin, ihtest fun t ht => hvalid t (by simp [ht]),
        ihyes fun t ht => hvalid t (by simp [ht]), ihno fun t ht => hvalid t (by simp [ht])]
  | condition _ ih => exact ih hvalid
  | comparison _ _ _ ihleft ihright =>
      simp only [List.mem_append, List.mem_cons] at hvalid
      rw [Expr.latin, ihleft fun t ht => hvalid t (by simp [ht]),
        ihright fun t ht => hvalid t (by simp [ht])]

namespace Scan

/-- A lexeme other than a string is made of bytes below 128. -/
theorem Lexeme.ascii {kind : TokenKind} {lexeme rest : Bytes} (h : Lexeme kind lexeme rest)
    (hkind : kind ≠ .string) : ∀ b ∈ lexeme, b < 0x80 := by
  have hdigit : ∀ b : UInt8, Bytes.isDigit b → b < 0x80 := by decide +kernel
  have hletter : ∀ b : UInt8, Bytes.isLetter b → b < 0x80 := by decide +kernel
  have hfirst : ∀ b : UInt8, ('1'.toUInt8 ≤ b && b ≤ '9'.toUInt8) = true → b < 0x80 := by
    decide +kernel
  cases h with
  | blank hmore _ =>
      simp only [List.mem_cons]
      rintro b (rfl | hb)
      · decide
      · rw [hmore b hb]; decide
  | quoted | unclosed => exact absurd rfl hkind
  | whole hfirst' hdigits _ =>
      simp only [List.mem_cons]
      rintro b (rfl | hb)
      · exact hfirst _ hfirst'
      · exact hdigit b (hdigits b hb)
  | fraction hfirst' hdigits hplaces _ =>
      simp only [List.cons_append, List.mem_cons, List.mem_append]
      rintro b (rfl | hb | rfl | hb)
      · exact hfirst _ hfirst'
      · exact hdigit b (hdigits b hb)
      · decide
      · exact hdigit b (hplaces b hb)
  | word hfirst' hmore _ =>
      simp only [List.mem_cons]
      rintro b (rfl | hb)
      · exact hletter _ hfirst'
      · exact hletter b (hmore b hb)
  | _ => decide +kernel

theorem isValid_ascii_append {run : Bytes} (h : ∀ b ∈ run, b < 0x80) (rest : Bytes) :
    Utf8.isValid (run ++ rest) = Utf8.isValid rest := by
  induction run with
  | nil => rfl
  | cons b run ih =>
      obtain ⟨hb, hrun⟩ := List.forall_mem_cons.mp h
      rw [List.cons_append, Utf8.isValid_cons hb, ih hrun]

theorem Lexeme.isValid_append {kind : TokenKind} {lexeme after : Bytes}
    (h : Lexeme kind lexeme after) (hafter : after ≠ []) (rest : Bytes) :
    Utf8.isValid (lexeme ++ rest) =
      ((kind ≠ .string || Utf8.isValid (unquoted lexeme)) && Utf8.isValid rest) := by
  by_cases hkind : kind = .string
  · subst hkind
    generalize hstring : TokenKind.string = kind at h
    cases h with
    | @quoted mark value _ hmark hvalue =>
        have hascii : mark < 0x80 := by rcases hmark with rfl | rfl <;> decide
        have hunquoted : unquoted (mark :: value ++ [mark]) = value := by simp [unquoted]
        rw [hunquoted, List.append_assoc, List.cons_append, Utf8.isValid_cons hascii,
          List.singleton_append, Utf8.isValid_append hascii]
        simp
    | unclosed => exact absurd rfl hafter
    | word => exact absurd hstring (TokenKind.ne_ofWord (by decide) _)
    | _ => cases hstring
  · rw [isValid_ascii_append (h.ascii hkind)]
    simp [hkind]

theorem Takes.isValid {inner rest : Bytes} {lexed : List (TokenKind × Bytes)}
    (h : Takes inner lexed rest) (hrest : rest ≠ []) (hvalid : Utf8.isValid inner) :
    ∀ lexeme, (.string, lexeme) ∈ lexed → Utf8.isValid (unquoted lexeme) := by
  induction h with
  | nil => nofun
  | cons hlexeme _ _ ih =>
      rw [hlexeme.isValid_append (by simp [hrest]), Bool.and_eq_true] at hvalid
      intro lexeme hmem
      rcases List.mem_cons.mp hmem with heq | hmem
      · cases heq
        simpa using hvalid.1
      · exact ih hrest hvalid.2 lexeme hmem

end Scan

theorem ValueDerived.isFinite {template inner rest : Bytes} {lexed : List (TokenKind × Bytes)}
    {column : Nat} {value : Option Expr} {span : Span}
    (h : ValueDerived template (significant (Scan.placed column lexed)) value)
    (hinner : Scan.Takes inner lexed rest) (hrest : rest ≠ []) :
    (Segment.formula span value).isFinite := by
  generalize htoks : significant (Scan.placed column lexed) = toks at h
  cases h with
  | none => rfl
  | some h =>
      refine h.isFinite fun t ht hkind x hread => ?_
      rw [← htoks] at ht
      have hmem := Scan.mem_of_mem_placed (List.mem_of_mem_filter ht)
      rw [hkind] at hmem
      obtain ⟨after, -, hlexeme⟩ := hinner.lexeme hrest hmem
      exact hlexeme.number_isFinite hread

theorem ValueDerived.latin {template inner rest : Bytes} {lexed : List (TokenKind × Bytes)}
    {column : Nat} {value : Option Expr}
    (h : ValueDerived template (significant (Scan.placed column lexed)) value)
    (hinner : Scan.Takes inner lexed rest) (hrest : rest ≠ []) (hvalid : Utf8.isValid inner) :
    value.map Expr.latin = value := by
  generalize htoks : significant (Scan.placed column lexed) = toks at h
  cases h with
  | none => rfl
  | some h =>
      refine congrArg Option.some (h.latin fun t ht hkind => ?_)
      rw [← htoks] at ht
      have hmem := Scan.mem_of_mem_placed (List.mem_of_mem_filter ht)
      rw [hkind] at hmem
      exact hinner.isValid hrest hvalid _ hmem

theorem Shape.isFinite {template : Bytes} {column : Nat} {body : Bytes} {segments : List Segment}
    (h : Shape template column body segments) : segments.all Segment.isFinite := by
  induction h with
  | nil | text => rfl
  | formula _ hinner hvalue _ ih =>
      rw [List.all_cons, List.all_cons, ih, Bool.and_true]
      exact hvalue.isFinite hinner (List.cons_ne_nil _ _)

theorem textAt_latin {template run : Bytes} (column : Nat) (h : Utf8.isValid run) :
    (textAt template column run).latin = textAt template column run := by
  have hvalue : Utf8.isValid (StringLiteral.mk
      (Parse.tokenSpan template (Scan.tokenAt column .string run)) run none).value := h
  rw [textAt, Segment.latin, StringLiteral.latin_of_isValid hvalue]

theorem Shape.latin {template : Bytes} {column : Nat} {body : Bytes} {segments : List Segment}
    (h : Shape template column body segments) (hvalid : Utf8.isValid body) :
    segments.map Segment.latin = segments := by
  induction h with
  | nil => rfl
  | text _ _ => rw [List.map_singleton, textAt_latin _ hvalid]
  | formula _ hinner hvalue _ ih =>
      rw [Utf8.isValid_append (by decide), Utf8.isValid_cons (by decide),
        Utf8.isValid_append (by decide), Bool.and_eq_true, Bool.and_eq_true] at hvalid
      obtain ⟨hrun, hinside, hrest⟩ := hvalid
      rw [List.map_cons, List.map_cons, textAt_latin _ hrun, ih hrest, formulaAt, Segment.latin,
        hvalue.latin hinner (List.cons_ne_nil _ _) hinside]

/-- The template with the stray bytes of its tree shown as characters. -/
def Template.latin (t : Template) : Template :=
  { t with file := t.file.map SourceFile.latin }

def Template.isFinite (t : Template) : Bool :=
  t.file.all SourceFile.isFinite

/-- A template is that of the tree which was checked. -/
theorem Template.file_of_ofFile {file : Option SourceFile} {t : Template}
    (h : Template.ofFile file = .ok t) : t.file = file := by
  cases file with
  | none =>
      cases h
      rfl
  | some tree =>
      obtain ⟨source, -, h⟩ := bind_eq_ok_iff.mp h
      cases h
      rfl

theorem Script.related_template {fn : Bindings} {file : Option SourceFile} {t : Template}
    (h : Template.ofFile file = .ok t) (hfinite : t.isFinite) :
    Traced.Related (SameFailure fn) (t.renderScript fn) (t.latin.render fn) := by
  cases file with
  | none =>
      cases h
      have hread : read? ↑"\"\"" = some (.text []) := by decide +kernel
      unfold Template.renderScript Script.render
      rw [Template.blank, hread]
      exact .pure []
  | some tree =>
      obtain ⟨source, hsource, h⟩ := bind_eq_ok_iff.mp h
      cases h
      exact related_render hsource hfinite

/--
The template of a tree holds that tree, and if its numbers are finite, its script does what the
tree does once the stray bytes are shown as characters. Compiled trees are of this kind, so that
on valid text the two ways of rendering agree.
-/
theorem script_renders_like_tree (fn : Bindings) :
    (∀ file t, Template.ofFile file = .ok t → t.file = file ∧ (t.isFinite →
      Traced.Related (Script.SameFailure fn) (t.renderScript fn) (t.latin.render fn))) ∧
    ∀ cancelled template t, (compile cancelled template).outcome = .ok t →
      Template.ofFile t.file = .ok t ∧ t.isFinite ∧
      (Utf8.isValid template →
        Traced.Related (Script.SameFailure fn) (t.renderScript fn) (t.render fn)) := by
  refine ⟨fun _ _ h => ⟨Template.file_of_ofFile h, Script.related_template h⟩, ?_⟩
  intro cancelled template t h
  rcases compile_cases h with rfl | ⟨-, body, file, rfl, hfile, -, hshape, hemit, hnames⟩
  · exact ⟨rfl, rfl, fun _ => @Script.related_template fn none _ rfl rfl⟩
  · have hof : Template.ofFile t.file = .ok t := by
      rw [hfile, Template.ofFile, hemit, ok_bind, ← hnames, ← hfile]
      rfl
    have hfinite : t.isFinite := by
      rw [Template.isFinite, hfile]
      exact hshape.isFinite
    refine ⟨hof, hfinite, fun hvalid => ?_⟩
    have hrelated : Traced.Related (Script.SameFailure fn) _ _ :=
      Script.related_template hof hfinite
    have hbody : Utf8.isValid body := by
      rw [inBackticks, Utf8.isValid_cons (by decide), Utf8.isValid_append (by decide),
        Bool.and_eq_true] at hvalid
      exact hvalid.1
    have hrender : t.latin.render fn = t.render fn := by
      rw [Template.render, Template.render, Template.latin, hfile]
      dsimp only [Option.map]
      rw [SourceFile.render, SourceFile.segments_latin, hshape.latin hbody, SourceFile.render]
    rwa [hrender] at hrelated

/-- A tree with a stray byte and a negative number, and a compiled text. -/
theorem script_renders_like_tree_sample :
    let fn : Bindings := ⟨fun name => .ok (.string name), fun _ => .ok 2⟩
    let span : Span := ⟨0, 0, []⟩
    let tree : SourceFile := ⟨span, some ⟨span, [.text ⟨span, [0xFF], none⟩,
      .formula span (some (.compare span (.number span Binary64.one.neg) .less
        (.length span (some ⟨span, some ⟨span, [0xC3], none⟩⟩))))]⟩, none⟩
    let template := inBackticks "a$\x7bGET('x')\x7d"
    (∃ t, Template.ofFile (some tree) = .ok t ∧ t.file = some tree ∧ tree.isFinite ∧
      Traced.Related (Script.SameFailure fn) (t.renderScript fn) (t.latin.render fn)) ∧
    ∃ t, (compile false template).outcome = .ok t ∧ Utf8.isValid template ∧
      Traced.Related (Script.SameFailure fn) (t.renderScript fn) (t.render fn) := by
  have htext : (compile false (inBackticks "a$\x7bGET('x')\x7d")).outcome.isOk = true := by cbv
  have hvalid : Utf8.isValid (inBackticks "a$\x7bGET('x')\x7d") = true := by cbv
  intro fn span tree template
  have hfinite : tree.isFinite = true := by decide +kernel
  have htree : (Template.ofFile (some tree)).isOk = true := by decide +kernel
  clear_value tree
  obtain ⟨t, ht⟩ := exists_ok htree
  obtain ⟨u, hu⟩ := exists_ok htext
  obtain ⟨hfile, hrelated⟩ := (script_renders_like_tree fn).1 _ t ht
  have htfinite : t.isFinite = true := by rwa [Template.isFinite, hfile]
  exact ⟨⟨t, ht, hfile, hfinite, hrelated htfinite⟩, u, hu, hvalid,
    ((script_renders_like_tree fn).2 false template u hu).2.2 hvalid⟩

end Backtick
