import Mathlib
import Backtick.Proofs.Tiling
import Backtick.Session.Completion

/-!
# Places and tokens

Completion finds out by a scan of its own what the bytes before a position have
opened. Wherever these bytes can be split into tokens, the scan agrees with the
tokens: it ends outside of formulas, in a formula or in a string exactly if they do.
-/

namespace Backtick

open Scan

/-! ## Lexemes by their signs -/

namespace Scan

/-- The bytes that open or close something, or part arguments. -/
def marks : Bytes :=
  ['(', ')', ',', '}', '\'', '"'].map Char.toUInt8

/-- A lexeme of a formula by what it means for what is open. -/
inductive Sign : TokenKind -> Bytes -> Bytes -> Prop
  | openParen {rest : Bytes} : Sign .openParen ['('.toUInt8] rest
  | closeParen {rest : Bytes} : Sign .closeParen [')'.toUInt8] rest
  | comma {rest : Bytes} : Sign .comma [','.toUInt8] rest
  | closeBrace {rest : Bytes} : Sign .closeBrace ['}'.toUInt8] rest
  | quoted {mark : UInt8} {value rest : Bytes}
      (hmark : mark = '"'.toUInt8 ∨ mark = '\''.toUInt8) (hvalue : mark ∉ value) :
      Sign .string (mark :: value ++ [mark]) rest
  | unclosed {mark : UInt8} {value : Bytes}
      (hmark : mark = '"'.toUInt8 ∨ mark = '\''.toUInt8) (hvalue : mark ∉ value) :
      Sign .string (mark :: value) []
  | other {kind : TokenKind} {lexeme rest : Bytes}
      (hkind : kind ∉ [.openParen, .closeParen, .comma, .closeBrace, .string])
      (hbytes : ∀ b ∈ lexeme, b ∉ marks) : Sign kind lexeme rest

theorem not_mark_of_isLetter {b : UInt8} (h : Bytes.isLetter b) : b ∉ marks := by
  revert b
  decide +kernel

theorem not_mark_of_isDigit {b : UInt8} (h : Bytes.isDigit b) : b ∉ marks := by
  revert b
  decide +kernel

theorem not_mark_of_first {b : UInt8} (h : '1'.toUInt8 ≤ b && b ≤ '9'.toUInt8) : b ∉ marks := by
  revert b
  decide +kernel

theorem Lexeme.sign {kind : TokenKind} {lexeme rest : Bytes} (h : Lexeme kind lexeme rest) :
    Sign kind lexeme rest := by
  cases h with
  | openParen => exact .openParen
  | closeParen => exact .closeParen
  | comma => exact .comma
  | closeBrace => exact .closeBrace
  | quoted hmark hvalue => exact .quoted hmark hvalue
  | unclosed hmark hvalue => exact .unclosed hmark hvalue
  | openFormula | less | lessEqual | greater | greaterEqual | strictEqual =>
      exact .other (by decide) (by decide +kernel)
  | blank hmore =>
      refine .other (by decide) (List.forall_mem_cons.mpr ⟨by decide, fun b hb => ?_⟩)
      rw [hmore b hb]
      decide
  | whole hfirst hdigits =>
      exact .other (by decide) (List.forall_mem_cons.mpr
        ⟨not_mark_of_first hfirst, fun b hb => not_mark_of_isDigit (hdigits b hb)⟩)
  | fraction hfirst hdigits hplaces =>
      refine .other (by decide) fun b hb => ?_
      rcases List.mem_append.mp hb with hb | hb
      · rcases List.mem_cons.mp hb with rfl | hb
        · exact not_mark_of_first hfirst
        · exact not_mark_of_isDigit (hdigits b hb)
      · rcases List.mem_cons.mp hb with rfl | hb
        · decide
        · exact not_mark_of_isDigit (hplaces b hb)
  | @word first more _ hfirst hmore =>
      refine .other ?_ (List.forall_mem_cons.mpr
        ⟨not_mark_of_isLetter hfirst, fun b hb => not_mark_of_isLetter (hmore b hb)⟩)
      intro hkind
      refine TokenKind.ne_ofWord ?_ (first :: more) rfl
      revert hkind
      generalize TokenKind.ofWord (first :: more) = kind
      simp only [List.mem_cons, List.not_mem_nil, or_false]
      rintro (rfl | rfl | rfl | rfl | rfl) <;> decide

/-- Bytes from one quote on that do not have it again. -/
def IsOpenString (lexeme : Bytes) : Prop :=
  ∃ mark value, (mark = '"'.toUInt8 ∨ mark = '\''.toUInt8) ∧ mark ∉ value ∧ lexeme = mark :: value

theorem not_isOpenString_quoted (mark : UInt8) (value : Bytes) :
    ¬IsOpenString (mark :: value ++ [mark]) := by
  rintro ⟨mark', value', -, hvalue, heq⟩
  obtain ⟨rfl, rfl⟩ := List.cons.inj heq
  exact hvalue (List.mem_append_right value List.mem_cons_self)

/-- A string with something behind it is closed. -/
theorem Lexeme.not_isOpenString {kind : TokenKind} {lexeme rest : Bytes}
    (h : Lexeme kind lexeme rest) (hrest : rest ≠ []) (hkind : kind = .string) :
    ¬IsOpenString lexeme := by
  subst hkind
  obtain ⟨mark, value, -, -, rfl⟩ := h.of_string hrest
  exact not_isOpenString_quoted mark value

end Scan

/-! ## Regions behind lexemes -/

namespace Place.Region

theorem behind_append (r : Region) (offset : Nat) (first second : Bytes) :
    r.behind offset (first ++ second) =
      (r.behind offset first).behind (offset + first.length) second := by
  induction first generalizing r offset with
  | nil => rfl
  | cons b first ih =>
      rw [List.cons_append, behind, behind, ih, List.length_cons, Nat.add_assoc, Nat.add_comm 1]

/-- Bytes that open no string and close no formula leave a formula open. -/
theorem behind_formula {text : Bytes} (h : ∀ b ∈ text, b ∉ marks) (offset : Nat) :
    formula.behind offset text = formula := by
  induction text generalizing offset with
  | nil => rfl
  | cons b text ih =>
      obtain ⟨hb, htext⟩ := List.forall_mem_cons.mp h
      simp only [marks, List.map_cons, List.map_nil, List.mem_cons, List.not_mem_nil, or_false,
        not_or] at hb
      have hstep : formula.step offset b = formula := by simp [step, hb]
      rw [behind, hstep, ih htext]

theorem behind_quoted {mark : UInt8} {value : Bytes} (h : mark ∉ value) (start offset : Nat) :
    (quoted mark start).behind offset value = quoted mark start := by
  induction value generalizing offset with
  | nil => rfl
  | cons b value ih =>
      rw [List.mem_cons, not_or] at h
      have hstep : (quoted mark start).step offset b = quoted mark start := by
        simp [step, Ne.symm h.1]
      rw [behind, hstep, ih h.2]

theorem step_mark {mark : UInt8} (h : mark = '"'.toUInt8 ∨ mark = '\''.toUInt8) (offset : Nat) :
    formula.step offset mark = quoted mark offset := by
  rcases h with rfl | rfl <;> rfl

theorem behind_unclosed {mark : UInt8} {value : Bytes}
    (hmark : mark = '"'.toUInt8 ∨ mark = '\''.toUInt8) (hvalue : mark ∉ value) (offset : Nat) :
    formula.behind offset (mark :: value) = quoted mark offset := by
  rw [behind, step_mark hmark, behind_quoted hvalue]

/-- Neither in a formula nor in a string. -/
def Outside (r : Region) : Prop :=
  r = plain ∨ r = dollar

/-- A run of literal text leads to no formula, unless it completes the opening of one. -/
theorem Outside.behind_run {r : Region} (hr : r.Outside) {run : Bytes} (hrun : NoOpening run)
    (hhead : r = dollar → run.head? ≠ some '{'.toUInt8) (offset : Nat) :
    (r.behind offset run).Outside := by
  induction run generalizing r offset with
  | nil => exact hr
  | cons b run ih =>
      obtain ⟨hopen, hmore⟩ := noOpening_cons_iff.mp hrun
      have hstep : r.step offset b = if b = '$'.toUInt8 then dollar else plain := by
        rcases hr with rfl | rfl
        · rfl
        · have hb : b ≠ '{'.toUInt8 := by simpa using hhead rfl
          simp [step, hb]
      rw [behind, hstep]
      split
      · rename_i hb
        exact ih (.inr rfl) hmore (fun _ hbrace => hopen ⟨hb, hbrace⟩) _
      · exact ih (.inl rfl) hmore nofun _

theorem Outside.behind_opening {r : Region} (hr : r.Outside) (offset : Nat) :
    r.behind offset ['$'.toUInt8, '{'.toUInt8] = formula := by
  rcases hr with rfl | rfl <;> rfl

/-- A region in which the scanner is inside a formula, or right before the opening of one. -/
def Ready (r : Region) (text : Bytes) : Prop :=
  r = formula ∨ r.Outside ∧ AtOpening text

/-- A lexeme that neither closes the formula nor leaves a string open leads into the formula. -/
theorem Ready.behind_lexeme {r : Region} {kind : TokenKind} {lexeme rest : Bytes}
    (hr : r.Ready (lexeme ++ rest)) (h : Lexeme kind lexeme rest) (hkind : kind ≠ .closeBrace)
    (hclosed : kind = .string → ¬IsOpenString lexeme) (offset : Nat) :
    r.behind offset lexeme = formula := by
  rcases hr with rfl | ⟨hout, hopening⟩
  · cases h.sign with
    | openParen | closeParen | comma => rfl
    | closeBrace => exact absurd rfl hkind
    | @quoted mark value _ hmark hvalue =>
        rw [behind_append, behind_unclosed hmark hvalue]
        exact if_pos rfl
    | unclosed hmark hvalue => exact absurd ⟨_, _, hmark, hvalue, rfl⟩ (hclosed rfl)
    | other _ hbytes => exact behind_formula hbytes offset
  · rcases hopening with hnil | ⟨after, hafter⟩
    · exact absurd (List.append_eq_nil_iff.mp hnil).1 h.ne_nil
    · obtain ⟨-, rfl, -⟩ := h.of_opening hafter
      exact hout.behind_opening offset

end Place.Region

/-! ## How a scanned text ends -/

/-- Classes of tokens that open a formula and do not close it. -/
def LeavesOpen (kinds : List TokenKind) : Prop :=
  ∃ inner, .openFormula :: inner <:+ kinds ∧ .closeBrace ∉ inner

theorem not_leavesOpen_nil : ¬LeavesOpen [] := by
  rintro ⟨inner, hsuffix, -⟩
  exact List.cons_ne_nil _ _ (List.suffix_nil.mp hsuffix)

theorem leavesOpen_append (before : List TokenKind) {inner : List TokenKind}
    (h : .closeBrace ∉ inner) : LeavesOpen (before ++ .openFormula :: inner) :=
  ⟨inner, List.suffix_append _ _, h⟩

theorem LeavesOpen.of_cons {kind : TokenKind} {kinds : List TokenKind}
    (h : LeavesOpen (kind :: kinds)) (hkind : kind = .openFormula → .closeBrace ∈ kinds) :
    LeavesOpen kinds := by
  obtain ⟨inner, hsuffix, hinner⟩ := h
  rcases List.suffix_cons_iff.mp hsuffix with heq | hsuffix
  · cases heq
    exact absurd (hkind rfl) hinner
  · exact ⟨inner, hsuffix, hinner⟩

/-- The end of a text neither opens nor closes a formula. -/
theorem leavesOpen_concat_eof (kinds : List TokenKind) :
    LeavesOpen (kinds ++ [.eof]) ↔ LeavesOpen kinds := by
  constructor
  · rintro ⟨inner, hsuffix, hinner⟩
    rcases List.suffix_concat_iff.mp hsuffix with hnil | ⟨front, hfront, hkinds⟩
    · cases hnil
    · rcases front with _ | ⟨kind, front⟩
      · cases hfront
      · obtain ⟨rfl, rfl⟩ := List.cons.inj hfront
        exact ⟨front, hkinds, fun hmem => hinner (List.mem_append_left _ hmem)⟩
  · rintro ⟨inner, ⟨front, rfl⟩, hinner⟩
    rw [List.append_assoc, List.cons_append]
    exact leavesOpen_append front (by simpa using hinner)

namespace Scan

open Place

theorem Takes.of_cons {kind : TokenKind} {lexeme text rest : Bytes}
    {more : List (TokenKind × Bytes)} (h : Takes text ((kind, lexeme) :: more) rest) :
    ∃ inner, text = lexeme ++ inner ∧ Lexeme kind lexeme (inner ++ rest) ∧
      Takes inner more rest := by
  cases h with
  | cons hlexeme _ hmore => exact ⟨_, rfl, hlexeme, hmore⟩

theorem Takes.closeBrace_not_mem {inner rest : Bytes} {lexed : List (TokenKind × Bytes)}
    (h : Takes inner lexed rest) : .closeBrace ∉ lexed.map Prod.fst := by
  induction h with
  | nil => exact List.not_mem_nil
  | cons _ hkind _ ih => exact fun hmem => (List.mem_cons.mp hmem).elim (hkind ·.symm) ih

/-- How a scanned text ends: outside of formulas, or in a formula that a part of it opens. -/
inductive Ending (r : Region) (offset : Nat) : Bytes -> List (TokenKind × Bytes) -> Prop
  | outside {text : Bytes} {lexed : List (TokenKind × Bytes)}
      (hregion : (r.behind offset text).Outside) (hclosed : ¬LeavesOpen (lexed.map Prod.fst)) :
      Ending r offset text lexed
  | inside {front inner : Bytes} {before after : List (TokenKind × Bytes)}
      (hregion : r.behind offset (front ++ ['$'.toUInt8, '{'.toUInt8]) = .formula)
      (hbefore : before.flatMap Prod.snd = front) (hafter : Takes inner after []) :
      Ending r offset (front ++ '$'.toUInt8 :: '{'.toUInt8 :: inner)
        (before ++ (.openFormula, ['$'.toUInt8, '{'.toUInt8]) :: after)

/-- One more lexeme in front leaves the ending as it is, unless it opens a formula for good. -/
theorem Ending.cons {r : Region} {offset : Nat} {kind : TokenKind} {lexeme rest : Bytes}
    {more : List (TokenKind × Bytes)}
    (h : Ending (r.behind offset lexeme) (offset + lexeme.length) rest more)
    (hkind : kind = .openFormula → .closeBrace ∈ more.map Prod.fst) :
    Ending r offset (lexeme ++ rest) ((kind, lexeme) :: more) := by
  cases h with
  | outside hregion hclosed =>
      exact .outside (by rwa [Region.behind_append]) fun hopen => hclosed (hopen.of_cons hkind)
  | @inside front inner before after hregion hbefore hafter =>
      have hends := @Ending.inside r offset (lexeme ++ front) inner ((kind, lexeme) :: before) after
        (by rwa [List.append_assoc, Region.behind_append]) (by rw [List.flatMap_cons, hbefore])
        hafter
      rwa [List.append_assoc] at hends

/-- What the scanner reaches from literal text, and from inside a formula. -/
theorem Lexes.ending {mode : Mode} {text : Bytes} {lexed : List (TokenKind × Bytes)}
    (h : Lexes mode text lexed) (offset : Nat) :
    (mode = .text → Ending .plain offset text lexed) ∧
      (mode = .formula → ∀ r : Region, r.Ready text → Takes text lexed [] ∨
        Ending r offset text lexed ∧ .closeBrace ∈ lexed.map Prod.fst) := by
  induction h generalizing offset with
  | done mode =>
      exact ⟨fun _ => .outside (.inl rfl) not_leavesOpen_nil, fun _ _ _ => .inl (.nil [])⟩
  | @text run rest more hne hrun hrest hmore ih =>
      refine ⟨fun _ => ?_, nofun⟩
      have hout : (Region.plain.behind offset run).Outside :=
        Region.Outside.behind_run (.inl rfl) hrun nofun offset
      rcases (ih (offset + run.length)).2 rfl _ (.inr ⟨hout, hrest⟩) with htakes | ⟨hends, -⟩
      · -- no formula is closed behind the run, so the text ends in the one behind it, if any
        rcases hrest with rfl | ⟨after, rfl⟩
        · obtain rfl := hmore.eq_nil
          exact Ending.cons (.outside hout not_leavesOpen_nil) nofun
        · obtain ⟨more, rfl, -⟩ := hmore.of_opening rfl
          obtain ⟨inner, htext, -, hinner⟩ := htakes.of_cons
          cases htext
          refine @Ending.inside _ _ run inner [(.string, run)] more ?_ (by simp) hinner
          rw [Region.behind_append]
          exact hout.behind_opening _
      · exact hends.cons nofun
  | @token kind lexeme rest more hlexeme hmore ih =>
      refine ⟨nofun, fun _ r hr => ?_⟩
      obtain ⟨htext, hformula⟩ := ih (offset + lexeme.length)
      by_cases hbrace : kind = .closeBrace
      · subst hbrace
        refine .inr ⟨Ending.cons ?_ nofun, List.mem_cons_self⟩
        obtain rfl := hlexeme.of_closeBrace
        have hformula : r = .formula := by
          rcases hr with hr | ⟨-, hnil | ⟨after, hafter⟩⟩
          · exact hr
          · cases hnil
          · cases hafter
        rw [hformula]
        exact htext rfl
      · have hmode : Mode.after kind = .formula := if_neg hbrace
        by_cases hrest : rest = []
        · -- the last lexeme may be a string without an end
          subst hrest
          rw [hmode] at hmore
          obtain rfl := hmore.eq_nil
          exact .inl (.cons hlexeme hbrace (.nil []))
        · rcases hformula hmode .formula (.inl rfl) with htakes | ⟨hends, hclose⟩
          · exact .inl (.cons (by rwa [List.append_nil]) hbrace htakes)
          · rw [← hr.behind_lexeme hlexeme hbrace (hlexeme.not_isOpenString hrest) offset] at hends
            exact .inr ⟨hends.cons fun _ => hclose, List.mem_cons_of_mem _ hclose⟩

theorem Takes.eq_nil {lexed : List (TokenKind × Bytes)} {rest : Bytes} (h : Takes [] lexed rest) :
    lexed = [] := by
  generalize htext : ([] : Bytes) = text at h
  cases h with
  | nil => rfl
  | cons hlexeme => exact absurd (List.append_eq_nil_iff.mp htext.symm).1 hlexeme.ne_nil

/-- The text of an open formula ends in the formula, or in the string that is its last lexeme. -/
theorem Takes.region {inner : Bytes} {lexed : List (TokenKind × Bytes)}
    (h : Takes inner lexed []) (offset : Nat) :
    Region.formula.behind offset inner = .formula ∧
        (∀ word ∈ lexed, word.1 = .string → ¬IsOpenString word.2) ∨
      ∃ front mark value, lexed = front ++ [(.string, mark :: value)] ∧
        IsOpenString (mark :: value) ∧ Region.formula.behind offset inner =
          .quoted mark (offset + (front.flatMap Prod.snd).length) := by
  generalize hrest : ([] : Bytes) = rest at h
  induction h generalizing offset with
  | nil => exact .inl ⟨rfl, nofun⟩
  | @cons kind lexeme inner rest more hlexeme hkind hmore ih =>
      subst hrest
      by_cases hopen : kind = .string ∧ IsOpenString lexeme
      · obtain ⟨rfl, hopen⟩ := hopen
        -- nothing can follow a string without an end
        have hinner : inner ++ [] = [] := by
          by_contra hne
          exact hlexeme.not_isOpenString hne rfl hopen
        obtain rfl := List.append_eq_nil_iff.mp hinner |>.1
        obtain rfl := hmore.eq_nil
        obtain ⟨mark, value, hmark, hvalue, rfl⟩ := id hopen
        refine .inr ⟨[], mark, value, rfl, hopen, ?_⟩
        rw [List.append_nil]
        exact Region.behind_unclosed hmark hvalue offset
      · have hclosed : kind = .string → ¬IsOpenString lexeme := fun hk ho => hopen ⟨hk, ho⟩
        have hregion : Region.formula.behind offset lexeme = .formula :=
          Region.Ready.behind_lexeme (.inl rfl) hlexeme hkind hclosed offset
        rw [Region.behind_append, hregion]
        rcases ih (offset + lexeme.length) rfl with
          ⟨hbehind, hall⟩ | ⟨front, mark, value, rfl, hstring, hbehind⟩
        · exact .inl ⟨hbehind, List.forall_mem_cons.mpr ⟨hclosed, hall⟩⟩
        · refine .inr ⟨(kind, lexeme) :: front, mark, value, rfl, hstring, ?_⟩
          rw [hbehind, List.flatMap_cons, List.length_append, Nat.add_assoc]

/-- The region at the end of a text, by its lexemes. -/
theorem Lexes.region {text : Bytes} {lexed : List (TokenKind × Bytes)}
    (h : Lexes .text text lexed) :
    (Region.plain.behind 0 text).Outside ∧ ¬LeavesOpen (lexed.map Prod.fst) ∨
      LeavesOpen (lexed.map Prod.fst) ∧
        (Region.plain.behind 0 text = .formula ∧
            (∀ word ∈ lexed.getLast?, word.1 = .string → ¬IsOpenString word.2) ∨
          ∃ front mark value, lexed = front ++ [(.string, mark :: value)] ∧
            IsOpenString (mark :: value) ∧
            Region.plain.behind 0 text = .quoted mark (front.flatMap Prod.snd).length) := by
  cases (h.ending 0).1 rfl with
  | outside hregion hclosed => exact .inl ⟨hregion, hclosed⟩
  | @inside front inner before after hregion hbefore hafter =>
      right
      constructor
      · rw [List.map_append]
        exact leavesOpen_append _ hafter.closeBrace_not_mem
      · have hsplit : front ++ '$'.toUInt8 :: '{'.toUInt8 :: inner =
            (front ++ ['$'.toUInt8, '{'.toUInt8]) ++ inner := by simp
        rw [hsplit, Region.behind_append, hregion]
        rcases hafter.region _ with ⟨hbehind, hall⟩ | ⟨init, mark, value, rfl, hstring, hbehind⟩
        · refine .inl ⟨hbehind, fun word hword => ?_⟩
          -- the last lexeme is the opening of the formula, or stands in it
          rw [List.getLast?_append_cons] at hword
          rcases List.mem_cons.mp (List.mem_of_getLast? hword) with rfl | hmem
          · nofun
          · exact hall word hmem
        · refine .inr ⟨before ++ (.openFormula, ['$'.toUInt8, '{'.toUInt8]) :: init, mark, value,
            by simp, hstring, ?_⟩
          rw [hbehind, List.flatMap_append, List.flatMap_cons, hbefore]
          refine congrArg (Region.quoted mark) ?_
          simp only [List.length_append, List.length_cons, List.length_nil]
          omega

end Scan

/-! ## Where the tokens end -/

/-- The tokens end in a formula: one of them opens it, and none behind it closes it. -/
def InsideFormula (toks : List Token) : Prop :=
  LeavesOpen (toks.map Token.kind)

/-- The tokens end in a string of a formula: the last one before the end has no closing quote. -/
structure InsideString (toks : List Token) (t : Token) : Prop where
  inside : InsideFormula toks
  last : toks.dropLast.getLast? = some t
  kind : t.kind = .string
  lexeme : IsOpenString t.lexeme

namespace Scan

open Place

theorem map_kind_placed (column : Nat) (lexed : List (TokenKind × Bytes)) :
    (placed column lexed).map Token.kind = lexed.map Prod.fst := by
  induction lexed generalizing column with
  | nil => rfl
  | cons word lexed ih =>
      obtain ⟨kind, lexeme⟩ := word
      rw [placed, List.map_cons, List.map_cons, ih]
      rfl

theorem insideFormula_placed (column : Nat) (lexed : List (TokenKind × Bytes)) :
    InsideFormula (placed column (lexed ++ [(.eof, [])])) ↔ LeavesOpen (lexed.map Prod.fst) := by
  rw [InsideFormula, map_kind_placed, List.map_append]
  exact leavesOpen_concat_eof _

theorem dropLast_placed (column : Nat) (lexed : List (TokenKind × Bytes)) :
    (placed column (lexed ++ [(.eof, [])])).dropLast = placed column lexed := by
  rw [placed_append]
  exact List.dropLast_concat

theorem getLast?_placed (column : Nat) (front : List (TokenKind × Bytes))
    (word : TokenKind × Bytes) :
    (placed column (front ++ [word])).getLast? =
      some (tokenAt (column + (front.flatMap Prod.snd).length) word.1 word.2) := by
  rw [placed_append, ← List.length_flatMap]
  exact List.getLast?_concat

/-- The tokens of a text end in a string exactly if its last lexeme is an open string. -/
theorem insideString_placed {lexed : List (TokenKind × Bytes)} {t : Token} :
    InsideString (placed 1 (lexed ++ [(.eof, [])])) t ↔
      LeavesOpen (lexed.map Prod.fst) ∧ ∃ front lexeme, lexed = front ++ [(.string, lexeme)] ∧
        IsOpenString lexeme ∧
        t = tokenAt (1 + (front.flatMap Prod.snd).length) .string lexeme := by
  constructor
  · intro h
    have hlast := h.last
    refine ⟨(insideFormula_placed 1 lexed).mp h.inside, ?_⟩
    rw [dropLast_placed] at hlast
    rcases List.eq_nil_or_concat' lexed with rfl | ⟨front, word, rfl⟩
    · cases hlast
    · obtain ⟨kind, lexeme⟩ := word
      rw [getLast?_placed] at hlast
      cases hlast
      obtain rfl : kind = .string := h.kind
      exact ⟨front, lexeme, rfl, h.lexeme, rfl⟩
  · rintro ⟨hopen, front, lexeme, rfl, hstring, rfl⟩
    refine ⟨(insideFormula_placed 1 _).mpr hopen, ?_, rfl, hstring⟩
    rw [dropLast_placed, getLast?_placed]

end Scan

/--
The place of a position is that at which the tokens of the bytes before it end: in a
formula exactly if they end in a formula and not in a string, in a text if they end
outside of formulas, and in a string by what stands before its opening quote. The
bytes behind the position are of no account.
-/
theorem place_agrees_with_tokens {p : Bytes} {toks : List Token}
    (h : tokenize (inBackticks p) = .ok toks) {input : Bytes} {position : Nat}
    (hp : input.take position = p) :
    (Place.behind input position = .formula ↔ InsideFormula toks ∧ ¬∃ t, InsideString toks t) ∧
      (¬InsideFormula toks → Place.behind input position = .text) ∧
      ∀ t, InsideString toks t → Place.behind input position =
        if Place.endsAtGet (p.take (t.start - 1).toNat) then .name else .text := by
  rw [tokenize_inBackticks] at h
  obtain ⟨lexed, hlexes, rfl⟩ := tokens_eq_ok_iff.mp h
  have htake (offset : Nat) (hoffset : offset ≤ p.length) : input.take offset = p.take offset := by
    rw [← hp, List.length_take] at hoffset
    rw [← hp, List.take_take, Nat.min_eq_left (hoffset.trans (Nat.min_le_left _ _))]
  unfold Place.behind
  rw [hp]
  rcases hlexes.region with ⟨hregion, hclosed⟩ | ⟨hopen, hends⟩
  · have hnot := mt (insideFormula_placed 1 lexed).mp hclosed
    rcases hregion with hregion | hregion <;> rw [hregion] <;>
      exact ⟨⟨nofun, fun hin => absurd hin.1 hnot⟩, fun _ => rfl, fun t ht => absurd ht.inside hnot⟩
  · have hinside := (insideFormula_placed 1 lexed).mpr hopen
    rcases hends with ⟨hregion, hlast⟩ | ⟨front, mark, value, rfl, hstring, hregion⟩
    · have hnone : ¬∃ t, InsideString (placed 1 (lexed ++ [(.eof, [])])) t := by
        rintro ⟨t, ht⟩
        obtain ⟨-, front, lexeme, rfl, hstring, -⟩ := insideString_placed.mp ht
        exact hlast _ List.getLast?_concat rfl hstring
      rw [hregion]
      exact ⟨⟨fun _ => ⟨hinside, hnone⟩, fun _ => rfl⟩, fun hnot => absurd hinside hnot,
        fun t ht => absurd ⟨t, ht⟩ hnone⟩
    · have hsome := insideString_placed.mpr ⟨hopen, front, mark :: value, rfl, hstring, rfl⟩
      have hoffset : (front.flatMap Prod.snd).length ≤ p.length := by
        rw [← hlexes.flatMap, List.flatMap_append, List.length_append]
        exact Nat.le_add_right _ _
      rw [hregion]
      dsimp only
      rw [htake _ hoffset]
      refine ⟨⟨fun hformula => ?_, fun hin => absurd ⟨_, hsome⟩ hin.2⟩,
        fun hnot => absurd hinside hnot, fun t ht => ?_⟩
      · split at hformula <;> cases hformula
      · -- the token of the string begins at the column of its quote, one behind its offset
        obtain ⟨-, front', lexeme, heq, -, rfl⟩ := insideString_placed.mp ht
        obtain ⟨rfl, -⟩ := List.append_inj' heq rfl
        have hstart : (((1 + (front.flatMap Prod.snd).length : Nat) : Int) - 1).toNat =
            (front.flatMap Prod.snd).length := by omega
        rw [tokenAt, hstart]

/-- A quote in the text, a brace in a string, and a second formula that ends in a name. -/
theorem place_agrees_with_tokens_sample :
    ∃ toks, tokenize (inBackticks "'$\x7b'\x7d'\x7d$\x7bGET ('N") = .ok toks ∧
      InsideString toks ⟨"'N", .string, 15, 17⟩ ∧
      Place.behind "'$\x7b'\x7d'\x7d$\x7bGET ('N')\x7d" 16 = .name := by
  obtain ⟨toks, htokens, htoks⟩ : ∃ toks,
      tokenize (inBackticks "'$\x7b'\x7d'\x7d$\x7bGET ('N") = .ok toks ∧
        toks = [⟨"'", .string, 1, 2⟩, ⟨"$\x7b", .openFormula, 2, 4⟩, ⟨"'\x7d'", .string, 4, 7⟩,
          ⟨"\x7d", .closeBrace, 7, 8⟩, ⟨"", .string, 8, 8⟩, ⟨"$\x7b", .openFormula, 8, 10⟩,
          ⟨"GET", .getWord, 10, 13⟩, ⟨" ", .whitespace, 13, 14⟩, ⟨"(", .openParen, 14, 15⟩,
          ⟨"'N", .string, 15, 17⟩, ⟨"", .eof, 17, 17⟩] := ⟨_, by cbv, rfl⟩
  have hstring : InsideString toks ⟨"'N", .string, 15, 17⟩ := by
    rw [htoks]
    exact ⟨⟨[.getWord, .whitespace, .openParen, .string, .eof],
      ⟨[.string, .openFormula, .string, .closeBrace, .string], rfl⟩, by decide⟩,
      rfl, rfl, _, _, .inr rfl, by decide +kernel, rfl⟩
  refine ⟨toks, htokens, hstring, ?_⟩
  rw [(place_agrees_with_tokens htokens (by cbv)).2.2 _ hstring]
  cbv

end Backtick
