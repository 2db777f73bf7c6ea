import Mathlib
import Backtick.Proofs.Tiling

/-!
# The stream of tokens

Text runs and formulas take turns in the tokens of a template. No formula opens
in a text run, and every token of a formula is the longest of its class at its
place.
-/

namespace Backtick

open Scan

/-! ## Tokens inside a formula -/

/-- A digit but zero, more digits, and possibly a point with digits behind it. -/
inductive IsNumeral : Bytes -> Prop
  | whole {first : UInt8} {digits : Bytes} (hfirst : '1'.toUInt8 ≤ first ∧ first ≤ '9'.toUInt8)
      (hdigits : ∀ b ∈ digits, Bytes.isDigit b) : IsNumeral (first :: digits)
  | fraction {first : UInt8} {digits places : Bytes}
      (hfirst : '1'.toUInt8 ≤ first ∧ first ≤ '9'.toUInt8)
      (hdigits : ∀ b ∈ digits, Bytes.isDigit b) (hplaces : ∀ b ∈ places, Bytes.isDigit b) :
      IsNumeral (first :: digits ++ '.'.toUInt8 :: places)

/-- A run of letters that ends where the letters end, with the class of its text. -/
structure Token.IsWord (t : Token) (behind : Bytes) : Prop where
  ne_nil : t.lexeme ≠ []
  letters : ∀ b ∈ t.lexeme, Bytes.isLetter b
  longest : StopsAt Bytes.isLetter behind
  kind : t.kind = .ofWord t.lexeme
  reserved : t.kind.isKeyword ↔ t.lexeme ∈ TokenKind.keywords

/-- What a token inside a formula looks like, before some bytes and some tokens. -/
def Token.Fits (t : Token) (behind : Bytes) (after : List Token) : Prop :=
  match t.kind with
  | .whitespace =>
      t.lexeme ≠ [] ∧ (∀ b ∈ t.lexeme, b = ' '.toUInt8) ∧ StopsAt (· = ' '.toUInt8) behind
  | .string => ∃ mark value, (mark = '"'.toUInt8 ∨ mark = '\''.toUInt8) ∧ mark ∉ value ∧
      (t.lexeme = mark :: value ++ [mark] ∨
        t.lexeme = mark :: value ∧ after.head?.map Token.kind = some .eof)
  | .number =>
      IsNumeral t.lexeme ∧ ∀ more, more <+: behind → IsNumeral (t.lexeme ++ more) → more = []
  | .openFormula => t.lexeme = ['$'.toUInt8, '{'.toUInt8]
  | .closeBrace => t.lexeme = ['}'.toUInt8]
  | .openParen => t.lexeme = ['('.toUInt8]
  | .closeParen => t.lexeme = [')'.toUInt8]
  | .comma => t.lexeme = [','.toUInt8]
  | .less => t.lexeme = ['<'.toUInt8] ∧ StopsAt (· = '='.toUInt8) behind
  | .lessEqual => t.lexeme = ['<'.toUInt8, '='.toUInt8]
  | .strictEqual =>
      t.lexeme = ['='.toUInt8, '='.toUInt8, '='.toUInt8] ∧ StopsAt (· = '='.toUInt8) behind
  | .greater => t.lexeme = ['>'.toUInt8] ∧ StopsAt (· = '='.toUInt8) behind
  | .greaterEqual => t.lexeme = ['>'.toUInt8, '='.toUInt8]
  | .identifier | .ifWord | .getWord | .lengthWord | .trueWord | .falseWord => t.IsWord behind
  | .eof | .unknown _ => False

theorem IsNumeral.bytes {text : Bytes} (h : IsNumeral text) :
    (∀ b ∈ text, Bytes.isDigit b || b = '.'.toUInt8) ∧ text.count '.'.toUInt8 ≤ 1 := by
  have hfirst : ∀ b : UInt8, '1'.toUInt8 ≤ b ∧ b ≤ '9'.toUInt8 → Bytes.isDigit b := by
    decide +kernel
  have hpoint (digits : Bytes) (hdigits : ∀ b ∈ digits, Bytes.isDigit b) :
      digits.count '.'.toUInt8 = 0 := by
    refine List.count_eq_zero.mpr fun hmem => ?_
    exact absurd (hdigits _ hmem) (by decide)
  cases h with
  | @whole first digits h1 hdigits =>
      have hall : ∀ b ∈ first :: digits, Bytes.isDigit b :=
        List.forall_mem_cons.mpr ⟨hfirst first h1, hdigits⟩
      exact ⟨fun b hb => by simp [hall b hb], by rw [hpoint _ hall]; exact Nat.zero_le 1⟩
  | @fraction first digits places h1 hdigits hplaces =>
      have hall : ∀ b ∈ first :: digits, Bytes.isDigit b :=
        List.forall_mem_cons.mpr ⟨hfirst first h1, hdigits⟩
      refine ⟨fun b hb => ?_, ?_⟩
      · rcases List.mem_append.mp hb with hb | hb
        · simp [hall b hb]
        · rcases List.mem_cons.mp hb with rfl | hb
          · simp
          · simp [hplaces b hb]
      · rw [List.count_append, hpoint _ hall, List.count_cons_self, hpoint _ hplaces]

/-- A numeral grows only by digits, and by a point if it has none. -/
theorem IsNumeral.of_append {lexeme rest : Bytes} {b : UInt8}
    (h : IsNumeral (lexeme ++ b :: rest)) :
    Bytes.isDigit b ∨ b = '.'.toUInt8 ∧ '.'.toUInt8 ∉ lexeme := by
  obtain ⟨hbytes, hcount⟩ := h.bytes
  have hb := hbytes b (by simp)
  simp only [Bool.or_eq_true, decide_eq_true_eq] at hb
  refine hb.imp_right fun hpoint => ⟨hpoint, fun hmem => ?_⟩
  have hbefore := List.count_pos_iff.mpr hmem
  rw [List.count_append, hpoint, List.count_cons_self] at hcount
  omega

/-- The end of a text stops whatever does not go on with a backtick. -/
theorem Scan.StopsAt.before_backtick {p : UInt8 → Bool} {rest : Bytes} (h : StopsAt p rest)
    (hp : p '`'.toUInt8 = false) : StopsAt p (rest ++ ['`'.toUInt8]) := by
  cases rest with
  | nil => exact stopsAt_cons.mpr hp
  | cons b rest => exact stopsAt_cons.mpr (stopsAt_cons.mp h)

/-- The scanner takes the longest numeral. -/
theorem Scan.Lexeme.longest_numeral {lexeme rest : Bytes} (h : Lexeme .number lexeme rest) :
    IsNumeral lexeme ∧
      ∀ more, more <+: rest ++ ['`'.toUInt8] → IsNumeral (lexeme ++ more) → more = [] := by
  -- a longer numeral would go on with the byte at which the scanner stopped
  have hlongest {p : UInt8 → Bool} (hstop : StopsAt p rest) (hp : p '`'.toUInt8 = false)
      (hgrow : ∀ b more, IsNumeral (lexeme ++ b :: more) → p b) (more : Bytes)
      (hmore : more <+: rest ++ ['`'.toUInt8]) (hnumeral : IsNumeral (lexeme ++ more)) :
      more = [] := by
    cases more with
    | nil => rfl
    | cons b more =>
        obtain ⟨after, hafter⟩ := hmore
        have hstop' := hstop.before_backtick hp
        rw [← hafter, List.cons_append, stopsAt_cons, hgrow b more hnumeral] at hstop'
        cases hstop'
  generalize hkind : TokenKind.number = kind at h
  cases h with
  | whole hfirst hdigits hrest =>
      refine ⟨.whole (by simpa using hfirst) hdigits, hlongest hrest (by decide) ?_⟩
      intro b more hnumeral
      simpa using hnumeral.of_append.imp_right And.left
  | fraction hfirst hdigits hplaces hrest =>
      refine ⟨.fraction (by simpa using hfirst) hdigits hplaces, hlongest hrest (by decide) ?_⟩
      intro b more hnumeral
      refine hnumeral.of_append.resolve_right fun hpoint => hpoint.2 ?_
      simp
  | word => exact absurd hkind (TokenKind.ne_ofWord (by decide) _)
  | _ => cases hkind

theorem TokenKind.isKeyword_ofWord (word : Bytes) :
    (TokenKind.ofWord word).isKeyword ↔ word ∈ TokenKind.keywords := by
  unfold TokenKind.ofWord TokenKind.keywords
  simp only [List.mem_cons, List.not_mem_nil, or_false]
  split_ifs with h1 h2 h3 h4 h5 <;> simp_all [TokenKind.isKeyword]

theorem Token.IsWord.fits {t : Token} {behind : Bytes} (h : t.IsWord behind)
    (after : List Token) : t.Fits behind after := by
  have hkind : t.kind ∈ [.ifWord, .getWord, .lengthWord, .trueWord, .falseWord, .identifier] := by
    by_contra hother
    exact TokenKind.ne_ofWord hother _ h.kind
  unfold Token.Fits
  simp only [List.mem_cons, List.not_mem_nil, or_false] at hkind
  rcases hkind with hkind | hkind | hkind | hkind | hkind | hkind <;> rw [hkind] <;> exact h

theorem Scan.Lexeme.fits {kind : TokenKind} {lexeme rest : Bytes} (h : Lexeme kind lexeme rest)
    (column : Nat) {after : List Token}
    (hend : rest = [] → after.head?.map Token.kind = some .eof) :
    (tokenAt column kind lexeme).Fits (rest ++ ['`'.toUInt8]) after := by
  have hnumber := fun hkind : kind = .number => (hkind ▸ h).longest_numeral
  cases h with
  | blank hmore hrest =>
      refine ⟨List.cons_ne_nil _ _, ?_, hrest.before_backtick (by decide)⟩
      exact List.forall_mem_cons.mpr ⟨rfl, hmore⟩
  | quoted hmark hvalue => exact ⟨_, _, hmark, hvalue, .inl rfl⟩
  | unclosed hmark hvalue => exact ⟨_, _, hmark, hvalue, .inr ⟨rfl, hend rfl⟩⟩
  | openFormula | closeBrace | openParen | closeParen | comma | lessEqual | greaterEqual => rfl
  | less hrest | greater hrest | strictEqual hrest => exact ⟨rfl, hrest.before_backtick (by decide)⟩
  | whole | fraction => exact hnumber rfl
  | word hfirst hmore hrest =>
      refine Token.IsWord.fits ⟨List.cons_ne_nil _ _, ?_, ?_, rfl, ?_⟩ after
      · exact List.forall_mem_cons.mpr ⟨hfirst, hmore⟩
      · exact hrest.before_backtick (by decide)
      · exact TokenKind.isKeyword_ofWord _

/-! ## Runs and formulas -/

structure Token.IsRun (t : Token) : Prop where
  kind : t.kind = .string
  lexeme : ¬['$'.toUInt8, '{'.toUInt8] <:+: t.lexeme

/-- Each of some tokens fits, before the tokens behind it and the bytes of the template there. -/
def AllFit (template : Bytes) : List Token -> List Token -> Prop
  | [], _ => True
  | t :: rest, after =>
      t.Fits (template.drop t.stop.toNat) (rest ++ after) ∧ AllFit template rest after

/-- Text runs and formulas in turn, the last of which may be unclosed, and the end. -/
inductive TokenStream (template : Bytes) : List Token -> Prop
  | done {eof : Token} (heof : eof.kind = .eof) : TokenStream template [eof]
  | text {run eof : Token} (hrun : run.IsRun) (heof : eof.kind = .eof) :
      TokenStream template [run, eof]
  | unclosed {run opening eof : Token} {inner : List Token} (hrun : run.IsRun)
      (hopening : opening.kind = .openFormula) (hinner : ∀ t ∈ inner, t.kind ≠ .closeBrace)
      (heof : eof.kind = .eof) (hfit : AllFit template (opening :: inner) [eof]) :
      TokenStream template (run :: opening :: inner ++ [eof])
  | closed {run opening close : Token} {inner rest : List Token} (hrun : run.IsRun)
      (hopening : opening.kind = .openFormula) (hinner : ∀ t ∈ inner, t.kind ≠ .closeBrace)
      (hclose : close.kind = .closeBrace)
      (hfit : AllFit template (opening :: inner ++ [close]) rest)
      (hrest : TokenStream template rest) :
      TokenStream template (run :: opening :: inner ++ close :: rest)

/-- The tokens behind the opening of a formula, to the end of the template. -/
inductive InsideStream (template : Bytes) : List Token -> Prop
  | unclosed {eof : Token} {inner : List Token} (hinner : ∀ t ∈ inner, t.kind ≠ .closeBrace)
      (heof : eof.kind = .eof) (hfit : AllFit template inner [eof]) :
      InsideStream template (inner ++ [eof])
  | closed {close : Token} {inner rest : List Token} (hinner : ∀ t ∈ inner, t.kind ≠ .closeBrace)
      (hclose : close.kind = .closeBrace) (hfit : AllFit template (inner ++ [close]) rest)
      (hrest : TokenStream template rest) : InsideStream template (inner ++ close :: rest)

theorem Scan.not_infix_of_noOpening {run : Bytes} (h : NoOpening run) :
    ¬['$'.toUInt8, '{'.toUInt8] <:+: run := by
  induction run with
  | nil => simp
  | cons a rest ih =>
      obtain ⟨hopen, hrest⟩ := noOpening_cons_iff.mp h
      rw [List.infix_cons_iff, not_or]
      refine ⟨?_, ih hrest⟩
      rintro ⟨after, hafter⟩
      cases hafter
      exact hopen ⟨rfl, rfl⟩

theorem InsideStream.cons {template : Bytes} {t : Token} {toks : List Token}
    (h : InsideStream template toks) (hkind : t.kind ≠ .closeBrace)
    (hfit : t.Fits (template.drop t.stop.toNat) toks) : InsideStream template (t :: toks) := by
  cases h with
  | @unclosed eof inner hinner heof hfits =>
      have hall : ∀ u ∈ t :: inner, u.kind ≠ .closeBrace := List.forall_mem_cons.mpr ⟨hkind, hinner⟩
      exact @InsideStream.unclosed template eof (t :: inner) hall heof ⟨hfit, hfits⟩
  | @closed close inner rest hinner hclose hfits hrest =>
      have hall : ∀ u ∈ t :: inner, u.kind ≠ .closeBrace := List.forall_mem_cons.mpr ⟨hkind, hinner⟩
      refine @InsideStream.closed template close (t :: inner) rest hall hclose ?_ hrest
      exact ⟨by simpa using hfit, hfits⟩

theorem InsideStream.behind_run {template : Bytes} {run opening : Token} {toks : List Token}
    (h : InsideStream template (opening :: toks)) (hopening : opening.kind = .openFormula)
    (hrun : run.IsRun) : TokenStream template (run :: opening :: toks) := by
  generalize hall : opening :: toks = all at h
  cases h with
  | @unclosed eof inner hinner heof hfits =>
      cases inner with
      | nil =>
          cases hall
          rw [hopening] at heof
          cases heof
      | cons first inner =>
          cases hall
          exact .unclosed hrun hopening (List.forall_mem_cons.mp hinner).2 heof hfits
  | @closed close inner rest hinner hclose hfits hrest =>
      cases inner with
      | nil =>
          cases hall
          rw [hopening] at hclose
          cases hclose
      | cons first inner =>
          cases hall
          exact .closed hrun hopening (List.forall_mem_cons.mp hinner).2 hclose hfits hrest

theorem Scan.Lexes.of_nil {mode : Mode} {lexed : List (TokenKind × Bytes)}
    (h : Lexes mode [] lexed) : lexed = [] := by
  cases mode with
  | formula => exact h.eq_nil
  | text =>
      generalize htext : ([] : Bytes) = text at h
      cases h with
      | done => rfl
      | text hne => exact absurd htext.symm hne

/-- The tokens scanned from a place in a template to its end, in either mode. -/
theorem Scan.Lexes.stream {template bytes : Bytes} {mode : Mode}
    {lexed : List (TokenKind × Bytes)} (h : Lexes mode bytes lexed) {column : Nat}
    (hplace : template.drop column = bytes ++ ['`'.toUInt8]) :
    (mode = .text → TokenStream template (placed column (lexed ++ [(.eof, [])]))) ∧
      (mode = .formula → InsideStream template (placed column (lexed ++ [(.eof, [])]))) := by
  induction h generalizing column with
  | done mode =>
      exact ⟨fun _ => .done rfl, fun _ => @InsideStream.unclosed template _ [] nofun rfl trivial⟩
  | @text run rest more hne hrun hrest hmore ih =>
      refine ⟨fun _ => ?_, nofun⟩
      have hisRun : (tokenAt column .string run).IsRun := ⟨rfl, not_infix_of_noOpening hrun⟩
      rw [List.append_assoc] at hplace
      have hinside := (ih (drop_of_append hplace)).2 rfl
      -- the run goes up to the end of the text or to the opening of a formula
      rcases hrest with rfl | ⟨after, rfl⟩
      · obtain rfl := hmore.eq_nil
        exact .text hisRun rfl
      · obtain ⟨more, rfl, -⟩ := hmore.of_opening rfl
        exact hinside.behind_run rfl hisRun
  | @token kind lexeme rest more hlexeme hmore ih =>
      refine ⟨nofun, fun _ => ?_⟩
      rw [List.append_assoc] at hplace
      have hbehind := drop_of_append hplace
      obtain ⟨htext, hformula⟩ := ih hbehind
      have hend : rest = [] → (placed (column + lexeme.length) (more ++ [(.eof, [])])).head?.map
          Token.kind = some .eof := by
        rintro rfl
        rw [hmore.of_nil]
        rfl
      have hfit := hlexeme.fits column hend
      rw [← hbehind] at hfit
      by_cases hbrace : kind = .closeBrace
      · subst hbrace
        exact @InsideStream.closed template _ [] _ nofun rfl ⟨hfit, trivial⟩ (htext rfl)
      · exact (hformula (if_neg hbrace)).cons hbrace hfit

/--
The tokens of a template are text runs and closed formulas in turn; behind them
there may be one more run, and behind that an unclosed formula. Every token of a
formula is the longest of its class. What is not enclosed in backticks has none.
-/
theorem tokens_form_stream {template : Bytes} {toks : List Token}
    (h : tokenize template = .ok toks) :
    Scan.body? template = none ∧ toks = [] ∨ TokenStream template toks := by
  unfold tokenize at h
  cases hbody : Scan.body? template with
  | none =>
      rw [hbody] at h
      cases h
      exact .inl ⟨rfl, rfl⟩
  | some body =>
      rw [hbody] at h
      obtain rfl := eq_inBackticks_of_body? hbody
      obtain ⟨lexed, hlexes, rfl⟩ := tokens_eq_ok_iff.mp h
      exact .inr ((hlexes.stream (drop_inBackticks body)).1 rfl)

/-- A closed formula with tokens of most classes, and an unclosed one that ends in a string. -/
theorem tokens_form_stream_sample :
    TokenStream "`a$\x7bIF(x >=1.5,'\x7d')\x7d$\x7b \"b`"
      [⟨"a", .string, 1, 2⟩, ⟨"$\x7b", .openFormula, 2, 4⟩, ⟨"IF", .ifWord, 4, 6⟩,
        ⟨"(", .openParen, 6, 7⟩, ⟨"x", .identifier, 7, 8⟩, ⟨" ", .whitespace, 8, 9⟩,
        ⟨">=", .greaterEqual, 9, 11⟩, ⟨"1.5", .number, 11, 14⟩, ⟨",", .comma, 14, 15⟩,
        ⟨"'\x7d'", .string, 15, 18⟩, ⟨")", .closeParen, 18, 19⟩, ⟨"\x7d", .closeBrace, 19, 20⟩,
        ⟨"", .string, 20, 20⟩, ⟨"$\x7b", .openFormula, 20, 22⟩, ⟨" ", .whitespace, 22, 23⟩,
        ⟨"\"b", .string, 23, 25⟩, ⟨"", .eof, 25, 25⟩] :=
  (tokens_form_stream (by cbv)).resolve_left fun h => absurd h.1 (by decide +kernel)

end Backtick
