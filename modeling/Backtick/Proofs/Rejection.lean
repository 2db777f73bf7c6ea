import Mathlib
import Backtick.Proofs.Blame

/-!
# Where the scanner stops

The scanner stops at a byte inside a formula at which no token begins. What it
has scanned up to there does not depend on what follows: the same tokens come out
if the template ends at that byte, and any template that begins in the same way
is refused at the same column.
-/

namespace Backtick

open Scan Parse

namespace Scan

/-! ## Bytes at which no token begins -/

/-- A byte, with the one behind it, begins a token other than an equality sign. -/
def BeginsToken (b : UInt8) (next : Option UInt8) : Prop :=
  b ∈ [' ', '"', '\'', '}', '(', ')', ',', '<', '>'].map Char.toUInt8 ∨
    '1'.toUInt8 ≤ b ∧ b ≤ '9'.toUInt8 ∨ Bytes.isLetter b ∨
    b = '$'.toUInt8 ∧ next = some '{'.toUInt8

/-- A text begins with equality signs, but not with three, or with a byte that begins no token. -/
def Unscannable : Bytes -> Prop
  | [] => False
  | b :: rest =>
      b = '='.toUInt8 ∧ runLength (· = '='.toUInt8) (b :: rest) ≠ 3 ∨
        b ≠ '='.toUInt8 ∧ ¬BeginsToken b rest.head?

/-- Number of the bytes for which a text is refused: a run of equality signs, or one byte. -/
def refusedLength (text : Bytes) : Nat :=
  max 1 (runLength (· = '='.toUInt8) text)

theorem runLength_cons_of_pos {p : UInt8 → Bool} {b : UInt8} (h : p b) (rest : Bytes) :
    runLength p (b :: rest) = runLength p rest + 1 := by
  simp [runLength, h]

theorem formulaToken_dollar (rest : Bytes) :
    formulaToken '$'.toUInt8 rest =
      if rest.head? = some '{'.toUInt8 then .ok (.openFormula, 1)
      else .error (rejected '$'.toUInt8 rest) := by
  by_cases hopen : rest.head? = some '{'.toUInt8
  · obtain ⟨after, rfl⟩ := List.head?_eq_some_iff.mp hopen
    rfl
  · rw [if_neg hopen, formulaToken, if_neg (by decide), if_neg (by decide),
      if_neg (by simp [hopen])]
    rfl

theorem formulaToken_of_begins {b : UInt8} {rest : Bytes} (h : BeginsToken b rest.head?) :
    ∃ found, formulaToken b rest = .ok found := by
  rcases h with hsign | hdigit | hletter | ⟨rfl, hopen⟩
  · simp only [List.map_cons, List.map_nil, List.mem_cons, List.not_mem_nil, or_false] at hsign
    have hpair (short long : TokenKind) : ∃ found,
        (if rest.head? = some '='.toUInt8 then
          (.ok (long, 1) : Except LexicalCause (TokenKind × Nat)) else .ok (short, 0)) =
        .ok found := by
      split <;> exact ⟨_, rfl⟩
    rcases hsign with rfl | rfl | rfl | rfl | rfl | rfl | rfl | rfl | rfl
    case inr.inr.inr.inr.inr.inr.inr.inl => exact hpair .less .lessEqual
    case inr.inr.inr.inr.inr.inr.inr.inr => exact hpair .greater .greaterEqual
    all_goals exact ⟨_, rfl⟩
  · have hdigit' : ('1'.toUInt8 ≤ b && b ≤ '9'.toUInt8) = true := by simpa using hdigit
    rw [formulaToken_plain (not_sign_of_digit hdigit'), if_pos hdigit']
    exact ⟨_, rfl⟩
  · obtain ⟨hsign, hdigit⟩ := not_sign_of_letter hletter
    rw [formulaToken_plain hsign, if_neg (by simp [hdigit]), if_pos hletter]
    exact ⟨_, rfl⟩
  · rw [formulaToken_dollar, if_pos hopen]
    exact ⟨_, rfl⟩

theorem formulaToken_of_not_begins {b : UInt8} {rest : Bytes} (hequal : b ≠ '='.toUInt8)
    (h : ¬BeginsToken b rest.head?) : formulaToken b rest = .error (rejected b rest) := by
  unfold BeginsToken at h
  simp only [not_or, not_and] at h
  obtain ⟨hsign, hdigit, hletter, hopen⟩ := h
  by_cases hdollar : b = '$'.toUInt8
  · subst hdollar
    rw [formulaToken_dollar, if_neg (hopen rfl)]
  · have hsigns : signs ⊆ '$'.toUInt8 :: '='.toUInt8 ::
        [' ', '"', '\'', '}', '(', ')', ',', '<', '>'].map Char.toUInt8 := by decide
    have hplain : b ∉ signs := by
      intro hmem
      rcases List.mem_cons.mp (hsigns hmem) with rfl | hmem
      · exact hdollar rfl
      · rcases List.mem_cons.mp hmem with rfl | hmem
        · exact hequal rfl
        · exact hsign hmem
    rw [formulaToken_plain hplain, if_neg (by simpa using hdigit), if_neg hletter]

/-- The scanner refuses exactly the texts that begin with no token. -/
theorem rejected_iff (b : UInt8) (rest : Bytes) :
    (∃ cause, formulaToken b rest = .error cause) ↔ Unscannable (b :: rest) := by
  unfold Unscannable
  dsimp only
  by_cases hequal : b = '='.toUInt8
  · subst hequal
    have htoken : formulaToken '='.toUInt8 rest =
        if runLength (· = '='.toUInt8) rest = 2 then .ok (.strictEqual, 2)
        else .error (.equality ('='.toUInt8 :: rest.take (runLength (· = '='.toUInt8) rest))) := rfl
    rw [htoken, runLength_cons_of_pos (by simp)]
    by_cases hthree : runLength (· = '='.toUInt8) rest = 2
    · simp [hthree]
    · simp [hthree]
  · by_cases hbegin : BeginsToken b rest.head?
    · obtain ⟨found, hfound⟩ := formulaToken_of_begins hbegin
      simp [hfound, hequal, hbegin]
    · simp [formulaToken_of_not_begins hequal hbegin, hequal, hbegin]

theorem Unscannable.not_opening {b : UInt8} {rest : Bytes} (h : Unscannable (b :: rest)) :
    ¬(b = '$'.toUInt8 ∧ rest.head? = some '{'.toUInt8) := by
  rintro ⟨rfl, hopen⟩
  rcases h with ⟨hequal, -⟩ | ⟨-, hbegin⟩
  · exact absurd hequal (by decide)
  · exact hbegin (.inr (.inr (.inr ⟨rfl, hopen⟩)))

/-! ## How much of a text is looked at -/

theorem runLength_concat {p : UInt8 → Bool} {b : UInt8} (hb : p b = false) (text : Bytes) :
    runLength p (text ++ [b]) = runLength p text := by
  induction text with
  | nil => simp [runLength, hb]
  | cons a text ih =>
      by_cases ha : p a
      · rw [List.cons_append, runLength_cons_of_pos ha, runLength_cons_of_pos ha, ih]
      · simp [runLength, ha]

/-- A backtick behind a text changes nothing. -/
theorem unscannable_backtick_iff {text : Bytes} (hne : text ≠ []) :
    Unscannable (text ++ ['`'.toUInt8]) ↔ Unscannable text := by
  obtain ⟨b, rest, rfl⟩ := List.exists_cons_of_ne_nil hne
  have hrun := runLength_concat (p := (· = '='.toUInt8)) (b := '`'.toUInt8) (by decide) (b :: rest)
  have hnext : (rest ++ ['`'.toUInt8]).head? = some '{'.toUInt8 ↔
      rest.head? = some '{'.toUInt8 := by
    cases rest with
    | nil => decide
    | cons c rest => rfl
  rw [List.cons_append] at hrun ⊢
  unfold Unscannable BeginsToken
  dsimp only
  rw [hrun, hnext]

theorem refusedLength_backtick (text : Bytes) :
    refusedLength (text ++ ['`'.toUInt8]) = refusedLength text := by
  unfold refusedLength
  rw [runLength_concat (by decide)]

theorem refusedLength_le {text : Bytes} (hne : text ≠ []) : refusedLength text ≤ text.length :=
  Nat.max_le.mpr ⟨List.length_pos_of_ne_nil hne, runLength_le _ text⟩

theorem cons_of_take_eq {α : Type} {a : α} {rest text : List α} {n : Nat}
    (h : text.take (n + 1) = (a :: rest).take (n + 1)) :
    ∃ rest', text = a :: rest' ∧ rest'.take n = rest.take n := by
  cases text with
  | nil => simp at h
  | cons b rest' =>
      rw [List.take_succ_cons, List.take_succ_cons, List.cons.injEq] at h
      exact ⟨rest', by rw [h.1], h.2⟩

theorem runLength_congr {p : UInt8 → Bool} {text text' : Bytes}
    (hlength : runLength p text < text.length)
    (heq : text'.take (runLength p text + 1) = text.take (runLength p text + 1)) :
    runLength p text' = runLength p text := by
  induction text generalizing text' with
  | nil => simp at hlength
  | cons b rest ih =>
      obtain ⟨rest', rfl, hrest⟩ := cons_of_take_eq heq
      by_cases hb : p b
      · rw [runLength_cons_of_pos hb] at hlength hrest ⊢
        rw [runLength_cons_of_pos hb, ih (by simpa using hlength) hrest]
      · simp [runLength, hb]

/-- A text is refused for the bytes that are looked at, whatever follows them. -/
theorem Unscannable.congr {text text' : Bytes} (h : Unscannable text)
    (hlength : refusedLength text < text.length)
    (heq : text'.take (refusedLength text + 1) = text.take (refusedLength text + 1)) :
    Unscannable text' := by
  have hle : runLength (· = '='.toUInt8) text ≤ refusedLength text := Nat.le_max_right 1 _
  have hone : 1 ≤ refusedLength text := Nat.le_max_left 1 _
  have hrun : runLength (· = '='.toUInt8) text' = runLength (· = '='.toUInt8) text := by
    refine runLength_congr (by omega) ?_
    have hless := congrArg (List.take (runLength (· = '='.toUInt8) text + 1)) heq
    rwa [List.take_take, List.take_take, Nat.min_eq_left (by omega)] at hless
  cases text with
  | nil => cases h
  | cons b rest =>
      obtain ⟨rest', rfl, hrest⟩ := cons_of_take_eq heq
      have hnext : rest'.head? = rest.head? := by
        have hheads := congrArg List.head? hrest
        rwa [List.head?_take, List.head?_take, if_neg (by omega), if_neg (by omega)] at hheads
      unfold Unscannable at h ⊢
      dsimp only at h ⊢
      rw [hrun, hnext]
      exact h

/-! ## Turns before another text -/

/-- A text run that is not the last token is followed by the opening of a formula. -/
theorem Turns.of_opening {rest text : Bytes} {b : UInt8}
    {lexed : List (TokenKind × Bytes)} (h : Turns (.formula, rest) lexed (.formula, b :: text))
    (hopen : ¬(b = '$'.toUInt8 ∧ text.head? = some '{'.toUInt8)) (hrest : AtOpening rest) :
    ∃ after more, rest = '$'.toUInt8 :: '{'.toUInt8 :: after ∧
      lexed = (.openFormula, ['$'.toUInt8, '{'.toUInt8]) :: more := by
  have hbytes := h.bytes
  rcases hrest with rfl | ⟨after, rfl⟩
  · simp at hbytes
  · refine ⟨after, ?_⟩
    generalize hstart : (Mode.formula, '$'.toUInt8 :: '{'.toUInt8 :: after) = start at h
    cases h with
    | refl =>
        cases hstart
        exact absurd ⟨rfl, rfl⟩ hopen
    | step hfirst hmore =>
        cases hfirst with
        | text => cases hstart
        | token hlexeme =>
            rw [Prod.mk.injEq] at hstart
            obtain ⟨rfl, rfl, -⟩ := hlexeme.of_opening hstart.2.symm
            exact ⟨_, rfl, rfl⟩

/-- Turns depend on no more of the text where they end than its first byte. -/
theorem Turns.exchange {before : Mode × Bytes} {b : UInt8} {text tail : Bytes}
    {lexed : List (TokenKind × Bytes)} (h : Turns before lexed (.formula, b :: text))
    (hopen : ¬(b = '$'.toUInt8 ∧ text.head? = some '{'.toUInt8)) (htail : ∀ c ∈ tail.head?, c = b) :
    Turns (before.1, lexed.flatMap Prod.snd ++ tail) lexed (.formula, tail) := by
  generalize hend : (Mode.formula, b :: text) = after at h
  induction h with
  | refl =>
      subst hend
      exact .refl _
  | @step before middle after word more hfirst hmore ih =>
      subst hend
      have hbytes := hmore.bytes
      rw [List.flatMap_cons, List.append_assoc]
      refine .step ?_ (ih rfl)
      cases hfirst with
      | @text run rest hne hrun hrest =>
          obtain ⟨after, more, rfl, rfl⟩ := hmore.of_opening hopen hrest
          exact .text (by simp) hrun (.inr ⟨_, rfl⟩)
      | @token kind lexeme rest hlexeme =>
          dsimp only at hbytes
          subst hbytes
          -- one byte behind the token counts: that of the next token, or the first of the tail
          refine .token (hlexeme.before (by simp) fun c hc => .inl ?_)
          cases hflat : more.flatMap Prod.snd with
          | nil =>
              rw [hflat] at hc
              rw [htail c hc]
              rfl
          | cons d flat =>
              rw [hflat] at hc
              exact hc

theorem Turns.tokens {before after : Mode × Bytes} {lexed : List (TokenKind × Bytes)}
    (h : Turns before lexed after) (column : Nat) :
    Scan.tokens before.1 column before.2 =
      (Scan.tokens after.1 (column + (lexed.flatMap Prod.snd).length) after.2).map
        (placed column lexed ++ ·) := by
  induction h generalizing column with
  | refl state =>
      rw [List.flatMap_nil, List.length_nil, Nat.add_zero]
      cases Scan.tokens state.1 column state.2 <;> rfl
  | @step before middle after word more hfirst hmore ih =>
      rw [hfirst.tokens, ih, List.flatMap_cons, List.length_append, Nat.add_assoc]
      generalize Scan.tokens after.1 _ after.2 = found
      cases found <;> rfl

/-! ## Inside a formula -/

/-- A token inside a formula that leaves neither the formula nor a string open at its end. -/
def StaysInside (t : Token) : Prop :=
  t.kind ≠ .closeBrace ∧ (t.kind = .string → ∃ mark value,
    (mark = '"'.toUInt8 ∨ mark = '\''.toUInt8) ∧ mark ∉ value ∧ t.lexeme = mark :: value ++ [mark])

/-- Behind the tokens a formula is open and every string in it is closed. -/
def EndsInFormula (toks : List Token) : Prop :=
  ∃ front opening inner, toks = front ++ opening :: inner ∧ opening.kind = .openFormula ∧
    ∀ t ∈ inner, StaysInside t

theorem EndsInFormula.cons {toks : List Token} (h : EndsInFormula toks) (t : Token) :
    EndsInFormula (t :: toks) := by
  obtain ⟨front, opening, inner, rfl, hopening, hinner⟩ := h
  exact ⟨t :: front, opening, inner, rfl, hopening, hinner⟩

/-- Turns that end at a byte inside a formula, seen from literal text and from inside a formula. -/
theorem Turns.endsInFormula {before : Mode × Bytes} {b : UInt8} {text : Bytes}
    {lexed : List (TokenKind × Bytes)} (h : Turns before lexed (.formula, b :: text))
    (hopen : ¬(b = '$'.toUInt8 ∧ text.head? = some '{'.toUInt8)) (column : Nat) :
    (before.1 = .text → EndsInFormula (placed column lexed)) ∧
      (before.1 = .formula → (∀ t ∈ placed column lexed, StaysInside t) ∨
        EndsInFormula (placed column lexed)) := by
  generalize hend : (Mode.formula, b :: text) = after at h
  induction h generalizing column with
  | refl =>
      subst hend
      exact ⟨nofun, fun _ => .inl nofun⟩
  | @step before middle after word more hfirst hmore ih =>
      subst hend
      have hbytes := hmore.bytes
      obtain ⟨htext, hformula⟩ := ih (column + word.2.length) rfl
      cases hfirst with
      | @text run rest _ _ hrest =>
          refine ⟨fun _ => ?_, nofun⟩
          obtain ⟨after, more, rfl, rfl⟩ := hmore.of_opening hopen hrest
          rcases hformula rfl with hinside | hends
          · exact ⟨[tokenAt column .string run], _, _, rfl, rfl,
              (List.forall_mem_cons.mp hinside).2⟩
          · exact hends.cons _
      | @token kind lexeme rest hlexeme =>
          refine ⟨nofun, fun _ => ?_⟩
          by_cases hbrace : kind = .closeBrace
          · exact .inr ((htext (if_pos hbrace)).cons _)
          · rcases hformula (if_neg hbrace) with hinside | hends
            · refine .inl (List.forall_mem_cons.mpr ⟨⟨hbrace, ?_⟩, hinside⟩)
              rintro (rfl : kind = .string)
              dsimp only at hbytes
              exact hlexeme.of_string (by simp [hbytes])
            · exact .inr (hends.cons _)

end Scan

/-! ## Lexical errors -/

theorem Scan.Turns.tokenize_exchange {body text : Bytes} {b : UInt8}
    {lexed : List (TokenKind × Bytes)} (h : Turns (.text, body) lexed (.formula, b :: text))
    (hopen : ¬(b = '$'.toUInt8 ∧ text.head? = some '{'.toUInt8)) (tail : Bytes)
    (htail : ∀ c ∈ tail.head?, c = b) :
    tokenize (inBackticks (lexed.flatMap Prod.snd ++ tail)) =
      (Scan.tokens .formula (1 + (lexed.flatMap Prod.snd).length) tail).map
        (placed 1 lexed ++ ·) := by
  rw [tokenize_inBackticks]
  exact (h.exchange hopen htail).tokens 1

/-- A template that begins as another one does, up to some bytes of a text in it. -/
theorem exists_body_of_take_eq {other pre text : Bytes} {n : Nat} (hn : 0 < n)
    (hlength : n < text.length) (hother : (Scan.body? other).isSome)
    (heq : other.take (('`'.toUInt8 :: pre).length + (n + 1)) =
      ('`'.toUInt8 :: pre ++ text).take (('`'.toUInt8 :: pre).length + (n + 1))) :
    ∃ text', other = inBackticks (pre ++ text') ∧ text' ≠ [] ∧
      (text' ++ ['`'.toUInt8]).take (n + 1) = text.take (n + 1) := by
  obtain ⟨body, hbody⟩ := Option.isSome_iff_exists.mp hother
  obtain rfl := eq_inBackticks_of_body? hbody
  have hsize : (text.take (n + 1)).length = n + 1 := by
    rw [List.length_take, Nat.min_eq_left hlength]
  have hsplit := List.take_append_drop (('`'.toUInt8 :: pre).length + (n + 1)) (inBackticks body)
  rw [heq, List.take_length_add_append, inBackticks, List.append_assoc, List.cons_append,
    List.cons.injEq] at hsplit
  generalize (List.drop _ _ : Bytes) = tail at hsplit
  rcases List.eq_nil_or_concat' (text.take (n + 1) ++ tail) with hnil | ⟨text', b, hb⟩
  · rw [List.append_eq_nil_iff.mp hnil |>.1] at hsize
    cases hsize
  · rw [hb, ← List.append_assoc] at hsplit
    obtain ⟨rfl, hmark⟩ := List.append_inj' hsplit.2.symm rfl
    cases hmark
    refine ⟨text', rfl, ?_, ?_⟩
    · rintro rfl
      have := congrArg List.length hb
      simp only [List.length_append, List.length_cons, List.length_nil, hsize] at this
      omega
    · rw [← hb, List.take_left' hsize]

/--
A lexical error points to a byte inside a formula and outside its strings at which
no token begins. Cut off there, the template is scanned into the tokens before the
error and the end. Whatever begins as the template does, up to the byte behind the
refused ones, is refused at the same column.
-/
theorem lexical_error_located {template : Bytes} {e : LexicalError}
    (h : tokenize template = .error e) :
    ∃ before : List Token,
      (∃ body lexed rest, template = inBackticks body ∧
        Turns (.text, body) lexed (.formula, rest) ∧ before = placed 1 lexed ∧
        e.column = 1 + (lexed.flatMap Prod.snd).length) ∧
      EndsInFormula before ∧ Unscannable (template.drop e.column) ∧
      tokenize (template.take e.column ++ ['`'.toUInt8]) =
        .ok (before ++ [⟨[], .eof, e.column, e.column⟩]) ∧
      ∀ other, (Scan.body? other).isSome →
        other.take (e.column + (refusedLength (template.drop e.column) + 1)) =
          template.take (e.column + (refusedLength (template.drop e.column) + 1)) →
        ∃ e', tokenize other = .error e' ∧ e'.column = e.column := by
  cases hbody : Scan.body? template with
  | none =>
      rw [tokenize, hbody] at h
      cases h
  | some body =>
      obtain rfl := eq_inBackticks_of_body? hbody
      rw [tokenize_inBackticks] at h
      obtain ⟨lexed, b, rest, hturns, hcolumn, hcause⟩ := turns_of_error (.text, body) h
      have hbytes : body = lexed.flatMap Prod.snd ++ b :: rest := hturns.bytes
      have hrefused := (rejected_iff b rest).mp ⟨_, hcause⟩
      have hopen := hrefused.not_opening
      have htemplate : inBackticks body =
          '`'.toUInt8 :: lexed.flatMap Prod.snd ++ (b :: rest ++ ['`'.toUInt8]) := by
        rw [inBackticks, hbytes, List.append_assoc]
        rfl
      have hfront : ('`'.toUInt8 :: lexed.flatMap Prod.snd).length = e.column := by
        rw [hcolumn, List.length_cons, Nat.add_comm]
      have hrest := (unscannable_backtick_iff (List.cons_ne_nil b rest)).mpr hrefused
      refine ⟨placed 1 lexed, ⟨body, lexed, b :: rest, rfl, hturns, rfl, hcolumn⟩,
        (hturns.endsInFormula hopen 1).1 rfl, ?_, ?_, ?_⟩
      · rw [htemplate, List.drop_left' hfront]
        exact hrest
      · have hcut := hturns.tokenize_exchange hopen [] (by simp)
        rw [← hcolumn, List.append_nil, tokens_nil] at hcut
        rw [htemplate, List.take_left' hfront]
        exact hcut
      · intro other hother heq
        rw [htemplate, List.drop_left' hfront, ← hfront] at heq
        have hlength : refusedLength (b :: rest ++ ['`'.toUInt8]) <
            (b :: rest ++ ['`'.toUInt8]).length := by
          rw [refusedLength_backtick, List.length_append]
          exact Nat.lt_succ_of_le (refusedLength_le (List.cons_ne_nil b rest))
        obtain ⟨text', rfl, hne, htake⟩ :=
          exists_body_of_take_eq (Nat.le_max_left 1 _) hlength hother heq
        obtain ⟨b', rest', rfl⟩ := List.exists_cons_of_ne_nil hne
        have hrefused' := (unscannable_backtick_iff hne).mp (hrest.congr hlength htake)
        obtain ⟨cause', hcause'⟩ := (rejected_iff b' rest').mpr hrefused'
        have hsame : b' = b := by
          have := congrArg List.head? htake
          simpa using this
        have hagain := hturns.tokenize_exchange hopen (b' :: rest') (by simp [hsame])
        rw [← hcolumn, Scan.tokens, hcause'] at hagain
        exact ⟨⟨cause', e.column⟩, hagain, rfl⟩

/-- Four equality signs in a formula, behind a string with a brace in it. -/
theorem lexical_error_located_sample :
    tokenize "`<$\x7bGET('\x7d')====1\x7d>`" = .error ⟨.equality "====", 12⟩ ∧
      (∃ before, EndsInFormula before ∧
        tokenize "`<$\x7bGET('\x7d')`" = .ok (before ++ [⟨[], .eof, 12, 12⟩])) ∧
      Unscannable "====1\x7d>`" ∧
      ∃ e, tokenize "`<$\x7bGET('\x7d')====1, ?`" = .error e ∧ e.column = 12 := by
  have herror : tokenize "`<$\x7bGET('\x7d')====1\x7d>`" = .error ⟨.equality "====", 12⟩ := by cbv
  obtain ⟨before, -, hends, hrefused, hcut, hother⟩ := lexical_error_located herror
  exact ⟨herror, ⟨before, hends, hcut⟩, hrefused, hother _ (by decide +kernel) (by decide +kernel)⟩

end Backtick
