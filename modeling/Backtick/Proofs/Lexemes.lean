import Mathlib
import Backtick.Token.Scan

/-!
# Lexemes of formulas

Inside a formula the scanner takes the longest token of its class. `Lexeme` says
which bytes make a token of a class and what must not follow them; the scanner
takes a token exactly if it is a lexeme.
-/

namespace Backtick.Scan

def StopsAt (p : UInt8 -> Bool) (rest : Bytes) : Prop :=
  ∀ b ∈ rest.head?, p b = false

/-- A class, the bytes of a token of it, and the bytes behind it. -/
inductive Lexeme : TokenKind -> Bytes -> Bytes -> Prop
  | blank {more rest : Bytes} (hmore : ∀ b ∈ more, b = ' '.toUInt8)
      (hrest : StopsAt (· = ' '.toUInt8) rest) :
      Lexeme .whitespace (' '.toUInt8 :: more) rest
  | quoted {mark : UInt8} {value rest : Bytes}
      (hmark : mark = '"'.toUInt8 ∨ mark = '\''.toUInt8) (hvalue : mark ∉ value) :
      Lexeme .string (mark :: value ++ [mark]) rest
  | unclosed {mark : UInt8} {value : Bytes}
      (hmark : mark = '"'.toUInt8 ∨ mark = '\''.toUInt8) (hvalue : mark ∉ value) :
      Lexeme .string (mark :: value) []
  | openFormula {rest : Bytes} : Lexeme .openFormula ['$'.toUInt8, '{'.toUInt8] rest
  | closeBrace {rest : Bytes} : Lexeme .closeBrace ['}'.toUInt8] rest
  | openParen {rest : Bytes} : Lexeme .openParen ['('.toUInt8] rest
  | closeParen {rest : Bytes} : Lexeme .closeParen [')'.toUInt8] rest
  | comma {rest : Bytes} : Lexeme .comma [','.toUInt8] rest
  | less {rest : Bytes} (hrest : StopsAt (· = '='.toUInt8) rest) :
      Lexeme .less ['<'.toUInt8] rest
  | lessEqual {rest : Bytes} : Lexeme .lessEqual ['<'.toUInt8, '='.toUInt8] rest
  | greater {rest : Bytes} (hrest : StopsAt (· = '='.toUInt8) rest) :
      Lexeme .greater ['>'.toUInt8] rest
  | greaterEqual {rest : Bytes} : Lexeme .greaterEqual ['>'.toUInt8, '='.toUInt8] rest
  | strictEqual {rest : Bytes} (hrest : StopsAt (· = '='.toUInt8) rest) :
      Lexeme .strictEqual ['='.toUInt8, '='.toUInt8, '='.toUInt8] rest
  | whole {first : UInt8} {digits rest : Bytes}
      (hfirst : '1'.toUInt8 ≤ first && first ≤ '9'.toUInt8)
      (hdigits : ∀ b ∈ digits, Bytes.isDigit b)
      (hrest : StopsAt (fun b => Bytes.isDigit b || b = '.'.toUInt8) rest) :
      Lexeme .number (first :: digits) rest
  | fraction {first : UInt8} {digits places rest : Bytes}
      (hfirst : '1'.toUInt8 ≤ first && first ≤ '9'.toUInt8)
      (hdigits : ∀ b ∈ digits, Bytes.isDigit b) (hplaces : ∀ b ∈ places, Bytes.isDigit b)
      (hrest : StopsAt Bytes.isDigit rest) :
      Lexeme .number (first :: digits ++ '.'.toUInt8 :: places) rest
  | word {first : UInt8} {more rest : Bytes} (hfirst : Bytes.isLetter first)
      (hmore : ∀ b ∈ more, Bytes.isLetter b) (hrest : StopsAt Bytes.isLetter rest) :
      Lexeme (.ofWord (first :: more)) (first :: more) rest

/-! ## Runs -/

theorem stopsAt_nil (p : UInt8 -> Bool) : StopsAt p [] := by
  simp [StopsAt]

theorem stopsAt_cons {p : UInt8 -> Bool} {b : UInt8} {rest : Bytes} :
    StopsAt p (b :: rest) ↔ p b = false := by
  simp [StopsAt]

theorem runLength_append {p : UInt8 -> Bool} {run rest : Bytes} (hrun : ∀ b ∈ run, p b)
    (hrest : StopsAt p rest) : runLength p (run ++ rest) = run.length := by
  have hstop : rest.takeWhile p = [] := by
    cases rest with
    | nil => rfl
    | cons b rest => simp [stopsAt_cons.mp hrest]
  rw [runLength, List.takeWhile_append_of_pos hrun, hstop, List.append_nil]

theorem runLength_le (p : UInt8 -> Bool) (bytes : Bytes) : runLength p bytes ≤ bytes.length :=
  (List.takeWhile_prefix p).length_le

theorem take_runLength (p : UInt8 -> Bool) (bytes : Bytes) :
    bytes.take (runLength p bytes) = bytes.takeWhile p := by
  induction bytes with
  | nil => rfl
  | cons b rest ih =>
      by_cases hb : p b
      · have hlen : runLength p (b :: rest) = runLength p rest + 1 := by simp [runLength, hb]
        rw [hlen, List.take_succ_cons, ih, List.takeWhile_cons_of_pos hb]
      · simp [runLength, hb]

theorem drop_runLength (p : UInt8 -> Bool) (bytes : Bytes) :
    bytes.drop (runLength p bytes) = bytes.dropWhile p := by
  have hsplit := List.take_append_drop (runLength p bytes) bytes
  rw [take_runLength] at hsplit
  exact List.append_cancel_left (hsplit.trans (List.takeWhile_append_dropWhile).symm)

theorem stopsAt_drop_runLength (p : UInt8 -> Bool) (bytes : Bytes) :
    StopsAt p (bytes.drop (runLength p bytes)) := by
  rw [drop_runLength]
  intro b hb
  have hnot := List.head?_dropWhile_not p bytes
  rw [Option.mem_def] at hb
  rw [hb] at hnot
  simpa using hnot

theorem all_take_runLength (p : UInt8 -> Bool) (bytes : Bytes) :
    ∀ b ∈ bytes.take (runLength p bytes), p b := by
  rw [take_runLength]
  intro b hb
  exact List.mem_takeWhile_imp hb

theorem quotedRest_le (mark : UInt8) (bytes : Bytes) : quotedRest mark bytes ≤ bytes.length := by
  induction bytes with
  | nil => simp [quotedRest]
  | cons b rest ih =>
      unfold quotedRest
      split <;> simp only [List.length_cons] <;> omega

theorem quotedRest_closed {mark : UInt8} {value : Bytes} (h : mark ∉ value) (rest : Bytes) :
    quotedRest mark (value ++ mark :: rest) = value.length + 1 := by
  induction value with
  | nil => simp [quotedRest]
  | cons b value ih =>
      rw [List.mem_cons, not_or] at h
      simp [quotedRest, Ne.symm h.1, ih h.2]

theorem quotedRest_unclosed {mark : UInt8} {value : Bytes} (h : mark ∉ value) :
    quotedRest mark value = value.length := by
  induction value with
  | nil => rfl
  | cons b value ih =>
      rw [List.mem_cons, not_or] at h
      simp [quotedRest, Ne.symm h.1, ih h.2]

theorem numeralRest_le (rest : Bytes) : numeralRest rest ≤ rest.length := by
  have hwhole := runLength_le Bytes.isDigit rest
  unfold numeralRest
  dsimp only
  split
  · rename_i point fraction hdrop
    have hlen := congrArg List.length hdrop
    have hfraction := runLength_le Bytes.isDigit fraction
    simp only [List.length_drop, List.length_cons] at hlen
    split <;> omega
  · exact hwhole

/-! ## What the scanner takes -/

theorem lexeme_quoted {mark : UInt8} (hmark : mark = '"'.toUInt8 ∨ mark = '\''.toUInt8)
    (rest : Bytes) :
    Lexeme .string (mark :: rest.take (quotedRest mark rest))
      (rest.drop (quotedRest mark rest)) := by
  by_cases hin : mark ∈ rest
  · obtain ⟨value, after, rfl, hvalue⟩ := List.eq_append_cons_of_mem hin
    have hlen := quotedRest_closed hvalue after
    have hsplit : value ++ mark :: after = (value ++ [mark]) ++ after := by simp
    rw [hlen, hsplit, List.take_left' (by simp), List.drop_left' (by simp)]
    exact .quoted hmark hvalue
  · rw [quotedRest_unclosed hin, List.take_length, List.drop_length]
    exact .unclosed hmark hin

theorem lexeme_number {first : UInt8} (hfirst : '1'.toUInt8 ≤ first && first ≤ '9'.toUInt8)
    (rest : Bytes) :
    Lexeme .number (first :: rest.take (numeralRest rest)) (rest.drop (numeralRest rest)) := by
  have hdigits := all_take_runLength Bytes.isDigit rest
  have hstop := stopsAt_drop_runLength Bytes.isDigit rest
  cases hdrop : rest.drop (runLength Bytes.isDigit rest) with
  | nil =>
      have hlen : numeralRest rest = runLength Bytes.isDigit rest := by
        simp [numeralRest, hdrop]
      rw [hlen, hdrop]
      exact .whole hfirst hdigits (stopsAt_nil _)
  | cons point fraction =>
      by_cases hpoint : point = '.'.toUInt8
      · have hlen : numeralRest rest =
            runLength Bytes.isDigit rest + (1 + runLength Bytes.isDigit fraction) := by
          simp [numeralRest, hdrop, hpoint, Nat.add_assoc]
        rw [hlen, List.take_add, ← List.drop_drop, hdrop, hpoint, Nat.add_comm 1,
          List.take_succ_cons, List.drop_succ_cons]
        exact .fraction hfirst hdigits (all_take_runLength _ _) (stopsAt_drop_runLength _ _)
      · have hlen : numeralRest rest = runLength Bytes.isDigit rest := by
          simp [numeralRest, hdrop, hpoint]
        rw [hdrop, stopsAt_cons] at hstop
        rw [hlen, hdrop]
        refine .whole hfirst hdigits (stopsAt_cons.mpr ?_)
        simp [hstop, hpoint]

/-- A sign that is longer if an equality sign follows. -/
theorem lexeme_sign {short long : TokenKind} {first : UInt8} {rest : Bytes} {kind : TokenKind}
    {extra : Nat}
    (hshort : StopsAt (· = '='.toUInt8) rest → Lexeme short [first] rest)
    (hlong : ∀ after, Lexeme long [first, '='.toUInt8] after)
    (h : (if rest.head? = some '='.toUInt8 then
        (.ok (long, 1) : Except LexicalCause (TokenKind × Nat))
      else .ok (short, 0)) = .ok (kind, extra)) :
    extra ≤ rest.length ∧ Lexeme kind (first :: rest.take extra) (rest.drop extra) := by
  cases rest with
  | nil =>
      cases h
      exact ⟨Nat.le_refl _, hshort (stopsAt_nil _)⟩
  | cons b after =>
      by_cases hb : b = '='.toUInt8
      · subst hb
        cases h
        exact ⟨by simp, hlong after⟩
      · rw [if_neg (by simpa using hb)] at h
        cases h
        exact ⟨Nat.zero_le _, hshort (stopsAt_cons.mpr (by simpa using hb))⟩

theorem lexeme_openFormula {rest : Bytes} (h : rest.head? = some '{'.toUInt8) :
    1 ≤ rest.length ∧
      Lexeme .openFormula ('$'.toUInt8 :: rest.take 1) (rest.drop 1) := by
  obtain ⟨after, rfl⟩ := List.head?_eq_some_iff.mp h
  exact ⟨by simp, .openFormula⟩

/-- Three equality signs are a token only if there is no fourth. -/
theorem lexeme_strictEqual {rest : Bytes} (h : runLength (· = '='.toUInt8) rest = 2) :
    2 ≤ rest.length ∧
      Lexeme .strictEqual ('='.toUInt8 :: rest.take 2) (rest.drop 2) := by
  have hall := all_take_runLength (· = '='.toUInt8) rest
  have hstop := stopsAt_drop_runLength (· = '='.toUInt8) rest
  have hle := runLength_le (· = '='.toUInt8) rest
  rw [h] at hall hstop hle
  have hsigns : rest.take 2 = List.replicate 2 '='.toUInt8 :=
    List.eq_replicate_iff.mpr ⟨by simp [hle], by simpa using hall⟩
  rw [hsigns]
  exact ⟨hle, .strictEqual hstop⟩

theorem lexeme_of_formulaToken {first : UInt8} {rest : Bytes} {kind : TokenKind} {extra : Nat}
    (h : formulaToken first rest = .ok (kind, extra)) :
    extra ≤ rest.length ∧ Lexeme kind (first :: rest.take extra) (rest.drop extra) := by
  unfold formulaToken at h
  by_cases hblank : first = ' '.toUInt8
  · rw [if_pos hblank] at h
    cases h
    subst hblank
    refine ⟨runLength_le _ _, .blank ?_ (stopsAt_drop_runLength _ _)⟩
    simpa using all_take_runLength (· = ' '.toUInt8) rest
  rw [if_neg hblank] at h
  by_cases hquote : (first = '"'.toUInt8 || first = '\''.toUInt8) = true
  · rw [if_pos hquote] at h
    cases h
    exact ⟨quotedRest_le _ _, lexeme_quoted (by simpa using hquote) rest⟩
  rw [if_neg hquote] at h
  by_cases hopen : (first = '$'.toUInt8 && rest.head? = some '{'.toUInt8) = true
  · rw [if_pos hopen] at h
    cases h
    simp only [Bool.and_eq_true, decide_eq_true_eq] at hopen
    obtain ⟨rfl, hbrace⟩ := hopen
    exact lexeme_openFormula hbrace
  rw [if_neg hopen] at h
  by_cases hbrace : first = '}'.toUInt8
  · rw [if_pos hbrace] at h
    cases h
    subst hbrace
    exact ⟨Nat.zero_le _, .closeBrace⟩
  rw [if_neg hbrace] at h
  by_cases hparen : first = '('.toUInt8
  · rw [if_pos hparen] at h
    cases h
    subst hparen
    exact ⟨Nat.zero_le _, .openParen⟩
  rw [if_neg hparen] at h
  by_cases hclose : first = ')'.toUInt8
  · rw [if_pos hclose] at h
    cases h
    subst hclose
    exact ⟨Nat.zero_le _, .closeParen⟩
  rw [if_neg hclose] at h
  by_cases hcomma : first = ','.toUInt8
  · rw [if_pos hcomma] at h
    cases h
    subst hcomma
    exact ⟨Nat.zero_le _, .comma⟩
  rw [if_neg hcomma] at h
  by_cases hless : first = '<'.toUInt8
  · rw [if_pos hless] at h
    subst hless
    exact lexeme_sign .less (fun _ => .lessEqual) h
  rw [if_neg hless] at h
  by_cases hgreater : first = '>'.toUInt8
  · rw [if_pos hgreater] at h
    subst hgreater
    exact lexeme_sign .greater (fun _ => .greaterEqual) h
  rw [if_neg hgreater] at h
  by_cases hequal : first = '='.toUInt8
  · rw [if_pos hequal] at h
    subst hequal
    dsimp only at h
    by_cases htwo : runLength (· = '='.toUInt8) rest = 2
    · rw [if_pos htwo] at h
      cases h
      exact lexeme_strictEqual htwo
    · rw [if_neg htwo] at h
      cases h
  rw [if_neg hequal] at h
  by_cases hdigit : ('1'.toUInt8 ≤ first && first ≤ '9'.toUInt8) = true
  · rw [if_pos hdigit] at h
    cases h
    exact ⟨numeralRest_le _, lexeme_number hdigit rest⟩
  rw [if_neg hdigit] at h
  by_cases hletter : Bytes.isLetter first = true
  · rw [if_pos hletter] at h
    cases h
    exact ⟨runLength_le _ _, .word hletter (all_take_runLength _ _) (stopsAt_drop_runLength _ _)⟩
  rw [if_neg hletter] at h
  cases h

/-- The bytes that begin a token of a formula and are neither digits nor letters. -/
def signs : Bytes :=
  [' ', '"', '\'', '$', '}', '(', ')', ',', '<', '>', '='].map Char.toUInt8

theorem formulaToken_plain {first : UInt8} (h : first ∉ signs) (rest : Bytes) :
    formulaToken first rest =
      if '1'.toUInt8 ≤ first && first ≤ '9'.toUInt8 then
        .ok (.number, numeralRest rest)
      else if Bytes.isLetter first then
        .ok (.ofWord (first :: rest.take (runLength Bytes.isLetter rest)),
          runLength Bytes.isLetter rest)
      else
        .error (rejected first rest) := by
  simp only [signs, List.map_cons, List.map_nil, List.mem_cons, List.not_mem_nil, or_false,
    not_or] at h
  obtain ⟨h1, h2, h3, h4, h5, h6, h7, h8, h9, h10, h11⟩ := h
  unfold formulaToken
  rw [if_neg h1, if_neg (by simp [h2, h3]), if_neg (by simp [h4]), if_neg h5, if_neg h6,
    if_neg h7, if_neg h8, if_neg h9, if_neg h10, if_neg h11]

theorem not_sign_of_digit {first : UInt8}
    (h : ('1'.toUInt8 ≤ first && first ≤ '9'.toUInt8) = true) : first ∉ signs := by
  have hsigns : ∀ b ∈ signs, ('1'.toUInt8 ≤ b && b ≤ '9'.toUInt8) = false := by decide +kernel
  intro hmem
  rw [hsigns first hmem] at h
  cases h

theorem not_sign_of_letter {first : UInt8} (h : Bytes.isLetter first = true) :
    first ∉ signs ∧ ('1'.toUInt8 ≤ first && first ≤ '9'.toUInt8) = false := by
  have hsigns : ∀ b ∈ signs, Bytes.isLetter b = false := by decide +kernel
  refine ⟨?_, ?_⟩
  · intro hmem
    rw [hsigns first hmem] at h
    cases h
  · -- the digits come before both ranges of letters
    simp only [Bytes.isLetter, Bool.or_eq_true, Bool.and_eq_true, decide_eq_true_eq,
      UInt8.le_iff_toNat_le] at h
    simp only [Bool.and_eq_false_iff, decide_eq_false_iff_not, UInt8.le_iff_toNat_le]
    have ha : 'a'.toUInt8.toNat = 97 := rfl
    have hA : 'A'.toUInt8.toNat = 65 := rfl
    have h9 : '9'.toUInt8.toNat = 57 := rfl
    omega

theorem numeralRest_whole {digits rest : Bytes} (hdigits : ∀ b ∈ digits, Bytes.isDigit b)
    (hrest : StopsAt (fun b => Bytes.isDigit b || b = '.'.toUInt8) rest) :
    numeralRest (digits ++ rest) = digits.length := by
  have hstop : StopsAt Bytes.isDigit rest := by
    intro b hb
    have := hrest b hb
    simp only [Bool.or_eq_false_iff] at this
    exact this.1
  have hrun := runLength_append hdigits hstop
  unfold numeralRest
  dsimp only
  rw [hrun, List.drop_left]
  cases rest with
  | nil => rfl
  | cons b after =>
      have hb := stopsAt_cons.mp hrest
      simp only [Bool.or_eq_false_iff, decide_eq_false_iff_not] at hb
      simp [hb.2]

theorem numeralRest_fraction {digits places rest : Bytes}
    (hdigits : ∀ b ∈ digits, Bytes.isDigit b) (hplaces : ∀ b ∈ places, Bytes.isDigit b)
    (hrest : StopsAt Bytes.isDigit rest) :
    numeralRest (digits ++ '.'.toUInt8 :: (places ++ rest)) =
      digits.length + 1 + places.length := by
  have hpoint : StopsAt Bytes.isDigit ('.'.toUInt8 :: (places ++ rest)) :=
    stopsAt_cons.mpr (by decide)
  have hrun := runLength_append hdigits hpoint
  unfold numeralRest
  dsimp only
  rw [hrun, List.drop_left]
  simp [runLength_append hplaces hrest]

/-- The scanner takes every lexeme. -/
theorem Lexeme.formulaToken {kind : TokenKind} {lexeme rest : Bytes}
    (h : Lexeme kind lexeme rest) :
    ∃ first more, lexeme = first :: more ∧
      Scan.formulaToken first (more ++ rest) = .ok (kind, more.length) := by
  cases h with
  | @blank more rest hmore hrest =>
      refine ⟨_, more, rfl, ?_⟩
      have hrun := runLength_append (p := (· = ' '.toUInt8)) (by simpa using hmore) hrest
      rw [Scan.formulaToken, if_pos rfl, hrun]
  | @quoted mark value rest hmark hvalue =>
      refine ⟨mark, value ++ [mark], rfl, ?_⟩
      have hrun := quotedRest_closed hvalue rest
      have hne : mark ≠ ' '.toUInt8 := by rcases hmark with rfl | rfl <;> decide
      rw [Scan.formulaToken, if_neg hne, if_pos (by simpa using hmark)]
      simp [hrun]
  | @unclosed mark value hmark hvalue =>
      refine ⟨mark, value, rfl, ?_⟩
      have hne : mark ≠ ' '.toUInt8 := by rcases hmark with rfl | rfl <;> decide
      rw [Scan.formulaToken, if_neg hne, if_pos (by simpa using hmark), List.append_nil,
        quotedRest_unclosed hvalue]
  | openFormula => exact ⟨_, _, rfl, rfl⟩
  | closeBrace => exact ⟨_, _, rfl, rfl⟩
  | openParen => exact ⟨_, _, rfl, rfl⟩
  | closeParen => exact ⟨_, _, rfl, rfl⟩
  | comma => exact ⟨_, _, rfl, rfl⟩
  | @less rest hrest =>
      refine ⟨_, _, rfl, ?_⟩
      have hne : rest.head? ≠ some '='.toUInt8 := fun heq => by simpa using hrest _ heq
      exact if_neg hne
  | lessEqual => exact ⟨_, _, rfl, rfl⟩
  | @greater rest hrest =>
      refine ⟨_, _, rfl, ?_⟩
      have hne : rest.head? ≠ some '='.toUInt8 := fun heq => by simpa using hrest _ heq
      exact if_neg hne
  | greaterEqual => exact ⟨_, _, rfl, rfl⟩
  | @strictEqual rest hrest =>
      refine ⟨_, _, rfl, ?_⟩
      have hsigns : ∀ b ∈ ['='.toUInt8, '='.toUInt8], decide (b = '='.toUInt8) := by simp
      exact if_pos (runLength_append hsigns hrest)
  | @whole first digits rest hfirst hdigits hrest =>
      refine ⟨first, digits, rfl, ?_⟩
      rw [formulaToken_plain (not_sign_of_digit hfirst), if_pos hfirst,
        numeralRest_whole hdigits hrest]
  | @fraction first digits places rest hfirst hdigits hplaces hrest =>
      refine ⟨first, digits ++ '.'.toUInt8 :: places, rfl, ?_⟩
      have hrun := numeralRest_fraction hdigits hplaces hrest
      rw [formulaToken_plain (not_sign_of_digit hfirst), if_pos hfirst, List.append_assoc,
        List.cons_append, hrun]
      simp [Nat.add_assoc, Nat.add_comm 1]
  | @word first more rest hfirst hmore hrest =>
      refine ⟨first, more, rfl, ?_⟩
      obtain ⟨hsign, hdigit⟩ := not_sign_of_letter hfirst
      rw [formulaToken_plain hsign, if_neg (by simp [hdigit]), if_pos hfirst,
        runLength_append hmore hrest, List.take_left]

/-! ## What may follow a lexeme -/

/-- The bytes that could make a token of a class longer. -/
def grows : TokenKind -> UInt8 -> Bool
  | .whitespace, b => b = ' '.toUInt8
  | .number, b => Bytes.isDigit b || b = '.'.toUInt8
  | .less, b | .greater, b | .strictEqual, b => b = '='.toUInt8
  | .identifier, b | .ifWord, b | .getWord, b | .lengthWord, b | .trueWord, b | .falseWord, b =>
      Bytes.isLetter b
  | _, _ => false

theorem grows_ofWord (word : Bytes) (b : UInt8) : grows (.ofWord word) b = Bytes.isLetter b := by
  unfold TokenKind.ofWord
  split_ifs <;> rfl

/-- A lexeme with something behind it stays one before whatever does not make it longer. -/
theorem Lexeme.before {kind : TokenKind} {lexeme rest tail : Bytes} (h : Lexeme kind lexeme rest)
    (hrest : rest ≠ []) (htail : ∀ b ∈ tail.head?, b ∈ rest.head? ∨ grows kind b = false) :
    Lexeme kind lexeme tail := by
  have hstops {p : UInt8 → Bool} (hp : ∀ b, grows kind b = false → p b = false)
      (hstop : StopsAt p rest) : StopsAt p tail :=
    fun b hb => (htail b hb).elim (hstop b) (hp b)
  cases h with
  | blank hmore hstop => exact .blank hmore (hstops (fun _ h => h) hstop)
  | quoted hmark hvalue => exact .quoted hmark hvalue
  | unclosed => exact absurd rfl hrest
  | openFormula => exact .openFormula
  | closeBrace => exact .closeBrace
  | openParen => exact .openParen
  | closeParen => exact .closeParen
  | comma => exact .comma
  | less hstop => exact .less (hstops (fun _ h => h) hstop)
  | lessEqual => exact .lessEqual
  | greater hstop => exact .greater (hstops (fun _ h => h) hstop)
  | greaterEqual => exact .greaterEqual
  | strictEqual hstop => exact .strictEqual (hstops (fun _ h => h) hstop)
  | whole hfirst hdigits hstop => exact .whole hfirst hdigits (hstops (fun _ h => h) hstop)
  | fraction hfirst hdigits hplaces hstop =>
      exact .fraction hfirst hdigits hplaces
        (hstops (fun _ h => (Bool.or_eq_false_iff.mp h).1) hstop)
  | word hfirst hmore hstop =>
      exact .word hfirst hmore (hstops (fun b h => (grows_ofWord _ b).symm.trans h) hstop)

end Backtick.Scan
