import Mathlib
import Backtick.Proofs.Canonical
import Backtick.Proofs.Tiling

/-!
# Blanks inside formulas

Blanks between the tokens of a formula say nothing. However many are put between
them, or if all of them are left out, the same tokens are scanned: of the classes
that a tree has next to each other, none goes on with what the next begins with.
-/

namespace Backtick

open Scan Parse

namespace Scan

/-! ## Neighbours -/

def begins : TokenKind -> UInt8 -> Bool
  | .whitespace, b => b = ' '.toUInt8
  | .string, b => b = '"'.toUInt8 || b = '\''.toUInt8
  | .number, b => '1'.toUInt8 ≤ b && b ≤ '9'.toUInt8
  | .openFormula, b => b = '$'.toUInt8
  | .closeBrace, b => b = '}'.toUInt8
  | .openParen, b => b = '('.toUInt8
  | .closeParen, b => b = ')'.toUInt8
  | .comma, b => b = ','.toUInt8
  | .less, b | .lessEqual, b => b = '<'.toUInt8
  | .greater, b | .greaterEqual, b => b = '>'.toUInt8
  | .strictEqual, b => b = '='.toUInt8
  | .identifier, b | .ifWord, b | .getWord, b | .lengthWord, b | .trueWord, b | .falseWord, b =>
      Bytes.isLetter b
  | .eof, _ | .unknown _, _ => false

theorem begins_ofWord (word : Bytes) (b : UInt8) : begins (.ofWord word) b = Bytes.isLetter b := by
  unfold TokenKind.ofWord
  split_ifs <;> rfl

theorem Lexeme.begins {kind : TokenKind} {lexeme rest : Bytes} (h : Lexeme kind lexeme rest) :
    ∃ b more, lexeme = b :: more ∧ Scan.begins kind b := by
  cases h with
  | quoted hmark _ => exact ⟨_, _, rfl, by simpa [Scan.begins] using hmark⟩
  | unclosed hmark _ => exact ⟨_, _, rfl, by simpa [Scan.begins] using hmark⟩
  | whole hfirst _ _ => exact ⟨_, _, rfl, hfirst⟩
  | fraction hfirst _ _ _ => exact ⟨_, _, rfl, hfirst⟩
  | word hfirst _ _ => exact ⟨_, _, rfl, (begins_ofWord _ _).trans hfirst⟩
  | _ => exact ⟨_, _, rfl, rfl⟩

/-- A token of the first class does not go on with what begins one of the second. -/
def Apart (kind next : TokenKind) : Prop :=
  ∀ b, begins next b → grows kind b = false

def operands : List TokenKind :=
  [.string, .number, .trueWord, .falseWord, .getWord, .lengthWord, .ifWord]

/-- The classes that stand before and behind operands and calls. -/
def fences : List TokenKind :=
  [.openFormula, .closeBrace, .openParen, .closeParen, .comma, .less, .lessEqual, .strictEqual,
    .greater, .greaterEqual]

theorem apart_operand {kind next : TokenKind} (hkind : kind ∈ fences) (hnext : next ∈ operands) :
    Apart kind next := by
  have hfence : ∀ kind ∈ fences, ∀ b, b ≠ '='.toUInt8 → grows kind b = false := by
    simp [fences, grows]
  have hoperand : ∀ next ∈ operands, begins next '='.toUInt8 = false := by decide +kernel
  intro b hb
  refine hfence kind hkind b ?_
  rintro rfl
  rw [hoperand next hnext] at hb
  cases hb

theorem apart_fence {kind next : TokenKind} (hkind : kind ∈ operands) (hnext : next ∈ fences) :
    Apart kind next := by
  have hfence : ∀ next ∈ fences, ∀ b, begins next b →
      b ∈ ['$', '}', '(', ')', ',', '<', '>', '='].map Char.toUInt8 := by
    simp +contextual [fences, begins]
  have hoperand : ∀ b ∈ ['$', '}', '(', ')', ',', '<', '>', '='].map Char.toUInt8,
      ∀ kind ∈ operands, grows kind b = false := by decide +kernel
  exact fun b hb => hoperand b (hfence next hnext b hb) kind hkind

/-- Classes that go on with nothing that is next to them, neither inside nor at fences. -/
def Fenced (kinds : List TokenKind) : Prop :=
  ∀ before ∈ fences, ∀ after ∈ fences, (before :: kinds ++ [after]).IsChain Apart

theorem Fenced.operand {kind : TokenKind} (h : kind ∈ operands) : Fenced [kind] := by
  intro before hbefore after hafter
  exact .cons_cons (apart_operand hbefore h) (.cons_cons (apart_fence h hafter) (.singleton after))

theorem Fenced.join {left right : List TokenKind} {fence : TokenKind} (hleft : Fenced left)
    (hfence : fence ∈ fences) (hright : Fenced right) : Fenced (left ++ fence :: right) := by
  intro before hbefore after hafter
  have hboth := List.isChain_split.mpr
    ⟨hleft before hbefore fence hfence, hright fence hfence after hafter⟩
  simpa using hboth

theorem Fenced.call {word : TokenKind} {inner : List TokenKind} (hword : word ∈ operands)
    (h : Fenced inner) : Fenced (word :: .openParen :: inner ++ [.closeParen]) := by
  intro before hbefore after hafter
  have hinner : ((.openParen :: inner) ++ .closeParen :: [after]).IsChain Apart :=
    List.isChain_split.mpr ⟨h .openParen (by decide) .closeParen (by decide),
      .cons_cons (fun _ _ => rfl) (.singleton after)⟩
  have hall := List.IsChain.cons_cons (apart_operand hbefore hword)
    (.cons_cons (apart_fence hword (by decide)) hinner)
  simpa using hall

end Scan

/-! The tokens of an expression go on with nothing that is next to them. -/

theorem GetCall.Derived.fenced {template : Bytes} {toks : List Token} {call : GetCall}
    (h : call.Derived template toks) : Fenced (toks.map Token.kind) := by
  cases h with
  | mk hword hopening hname hclose =>
      simp only [List.map_cons, List.map_nil, hword, hopening, hname, hclose]
      exact .call (by decide) (.operand (show TokenKind.string ∈ operands by decide))

theorem mem_fences_of_comparator {kind : TokenKind} {op : Comparator}
    (h : kind.comparator? = some op) : kind ∈ fences := by
  cases kind <;> cases h <;> decide

theorem Expr.Derived.fenced {template : Bytes} {place : Grammar.Place} {toks : List Token}
    {e : Expr} (h : e.Derived template place toks) : Fenced (toks.map Token.kind) := by
  induction h with
  | string h | number h _ | yes h | no h =>
      rw [List.map_singleton, h]
      exact .operand (by decide)
  | get h => exact h.fenced
  | length hword hopening h hclose =>
      rw [List.map_append, List.map_cons, List.map_cons, hword, hopening, List.map_singleton,
        hclose]
      exact .call (by decide) h.fenced
  | choose hword hopening _ hcomma _ hcomma' _ hclose ihtest ihyes ihno =>
      have hfence : TokenKind.comma ∈ fences := by decide
      have hall := Fenced.call (show TokenKind.ifWord ∈ operands by decide)
        ((ihtest.join hfence ihyes).join hfence ihno)
      simpa [hword, hopening, hcomma, hcomma', hclose] using hall
  | condition _ ih => exact ih
  | comparison _ hop _ ihleft ihright =>
      rw [List.map_append, List.map_cons]
      exact ihleft.join (mem_fences_of_comparator hop) ihright

namespace Scan

/-! ## Blanks between words -/

def nonblank (lexed : List (TokenKind × Bytes)) : List (TokenKind × Bytes) :=
  lexed.filter fun word => word.1 ≠ .whitespace

/-- Any number of blanks before each of the words and behind them. -/
inductive Spaced : List (TokenKind × Bytes) -> Bytes -> Prop
  | nil (n : Nat) : Spaced [] (Bytes.blanks n)
  | cons (n : Nat) {word : TokenKind × Bytes} {words : List (TokenKind × Bytes)} {text : Bytes}
      (h : Spaced words text) : Spaced (word :: words) (Bytes.blanks n ++ (word.2 ++ text))

theorem blanks_append (n m : Nat) (text : Bytes) :
    Bytes.blanks n ++ (Bytes.blanks m ++ text) = Bytes.blanks (n + m) ++ text := by
  simp [Bytes.blanks, ← List.append_assoc, List.replicate_append_replicate]

theorem Spaced.blanks {words : List (TokenKind × Bytes)} {text : Bytes} (h : Spaced words text)
    (n : Nat) : Spaced words (Bytes.blanks n ++ text) := by
  cases h with
  | nil m =>
      have hall := blanks_append n m []
      rw [List.append_nil, List.append_nil] at hall
      rw [hall]
      exact .nil (n + m)
  | cons m h =>
      rw [blanks_append]
      exact .cons (n + m) h

/-- A word that can be scanned inside a formula, and is not blank. -/
structure IsWord (word : TokenKind × Bytes) : Prop where
  nonblank : word.1 ≠ .whitespace
  inside : word.1 ≠ .closeBrace
  lexeme : ∃ after, after ≠ [] ∧ Lexeme word.1 word.2 after

theorem Takes.inside {inner rest : Bytes} {lexed : List (TokenKind × Bytes)}
    (h : Takes inner lexed rest) : ∀ word ∈ lexed, word.1 ≠ .closeBrace := by
  induction h with
  | nil => exact nofun
  | cons _ hkind _ ih => exact List.forall_mem_cons.mpr ⟨hkind, ih⟩

theorem Lexeme.of_whitespace {lexeme rest : Bytes} (h : Lexeme .whitespace lexeme rest) :
    lexeme = Bytes.blanks lexeme.length := by
  generalize hkind : TokenKind.whitespace = kind at h
  cases h with
  | blank hmore _ => exact List.eq_replicate_of_mem (List.forall_mem_cons.mpr ⟨rfl, hmore⟩)
  | word => exact absurd hkind (TokenKind.ne_ofWord (by decide) _)
  | _ => cases hkind

theorem Takes.blank_words {inner rest : Bytes} {lexed : List (TokenKind × Bytes)}
    (h : Takes inner lexed rest) (hrest : rest ≠ []) :
    ∀ word ∈ lexed, word.1 = .whitespace → word.2 = Bytes.blanks word.2.length := by
  intro word hmem hblank
  obtain ⟨after, -, hlexeme⟩ := h.lexeme hrest hmem
  rw [hblank] at hlexeme
  exact hlexeme.of_whitespace

theorem Takes.isWord {inner rest : Bytes} {lexed : List (TokenKind × Bytes)}
    (h : Takes inner lexed rest) (hrest : rest ≠ []) : ∀ word ∈ nonblank lexed, IsWord word := by
  intro word hword
  obtain ⟨hmem, hblank⟩ := List.mem_filter.mp hword
  exact ⟨by simpa using hblank, h.inside word hmem, h.lexeme hrest hmem⟩

/-- Only a blank token begins or goes on with a blank. -/
theorem not_blank {kind : TokenKind} (h : kind ≠ .whitespace) :
    begins kind ' '.toUInt8 = false ∧ grows kind ' '.toUInt8 = false := by
  cases kind with
  | whitespace => exact absurd rfl h
  | _ => exact ⟨rfl, rfl⟩

theorem head?_blanks_append {n : Nat} {text : Bytes} {b : UInt8}
    (h : b ∈ (Bytes.blanks n ++ text).head?) : b = ' '.toUInt8 ∨ b ∈ text.head? := by
  cases n with
  | zero => exact .inr h
  | succ n => exact .inl (Option.some.inj h).symm

/-- Behind a word comes a blank or what begins the next word. -/
theorem Spaced.head? {words : List (TokenKind × Bytes)} {text rest : Bytes}
    (h : Spaced words text) (hwords : ∀ word ∈ words, IsWord word) {b : UInt8}
    (hb : b ∈ (text ++ '}'.toUInt8 :: rest).head?) :
    b = ' '.toUInt8 ∨
      ∃ kind ∈ (words.map Prod.fst ++ [TokenKind.closeBrace]).head?, begins kind b := by
  cases h with
  | nil n =>
      refine (head?_blanks_append hb).imp_right fun hb => ⟨.closeBrace, rfl, ?_⟩
      cases hb
      rfl
  | @cons n word words text h =>
      rw [List.append_assoc] at hb
      refine (head?_blanks_append hb).imp_right fun hb => ⟨word.1, rfl, ?_⟩
      obtain ⟨after, -, hlexeme⟩ := (hwords word List.mem_cons_self).lexeme
      obtain ⟨first, more, hword, hbegins⟩ := hlexeme.begins
      rw [hword] at hb
      cases hb
      exact hbegins

theorem Takes.blanks {inner rest : Bytes} {lexed : List (TokenKind × Bytes)}
    (h : Takes inner lexed rest) (hstop : StopsAt (· = ' '.toUInt8) (inner ++ rest)) (n : Nat) :
    ∃ lexed', Takes (Bytes.blanks n ++ inner) lexed' rest ∧ nonblank lexed' = nonblank lexed := by
  cases n with
  | zero => exact ⟨lexed, h, rfl⟩
  | succ n =>
      have hblank : Lexeme .whitespace (Bytes.blanks (n + 1)) (inner ++ rest) :=
        .blank (fun b hb => List.eq_of_mem_replicate hb) hstop
      exact ⟨_, .cons hblank nofun h, by simp [nonblank]⟩

/-- Words that are apart are scanned as they are, whatever the blanks between them. -/
theorem Spaced.takes {words : List (TokenKind × Bytes)} {text : Bytes} (h : Spaced words text)
    (rest : Bytes) (hwords : ∀ word ∈ words, IsWord word)
    (hchain : (words.map Prod.fst ++ [TokenKind.closeBrace]).IsChain Apart) :
    ∃ lexed, Takes text lexed ('}'.toUInt8 :: rest) ∧ nonblank lexed = words := by
  induction h with
  | nil n =>
      obtain ⟨lexed, htakes, hlexed⟩ :=
        (Takes.nil ('}'.toUInt8 :: rest)).blanks (stopsAt_cons.mpr rfl) n
      rw [List.append_nil] at htakes
      exact ⟨lexed, htakes, hlexed⟩
  | @cons n word words text h ih =>
      obtain ⟨hword, hmore⟩ := List.forall_mem_cons.mp hwords
      obtain ⟨hblank, hinside, after, hafter, hlexeme⟩ := hword
      rw [List.map_cons, List.cons_append, List.isChain_cons] at hchain
      obtain ⟨lexed, htakes, hlexed⟩ := ih hmore hchain.2
      -- the word goes on neither with a blank nor with what begins the next word
      have hbefore : Lexeme word.1 word.2 (text ++ '}'.toUInt8 :: rest) := by
        refine hlexeme.before hafter fun b hb => .inr ?_
        rcases h.head? hmore hb with rfl | ⟨next, hnext, hbegins⟩
        · exact (not_blank hblank).2
        · exact hchain.1 next hnext b hbegins
      obtain ⟨first, more, hfirst, hbegins⟩ := hlexeme.begins
      have hstop : StopsAt (· = ' '.toUInt8) (word.2 ++ text ++ '}'.toUInt8 :: rest) := by
        rw [hfirst]
        refine stopsAt_cons.mpr (decide_eq_false ?_)
        rintro rfl
        rw [(not_blank hblank).1] at hbegins
        cases hbegins
      obtain ⟨lexed', htakes', hlexed'⟩ := (Takes.cons hbefore hinside htakes).blanks hstop n
      refine ⟨lexed', htakes', ?_⟩
      rw [hlexed', nonblank, List.filter_cons_of_pos (by simpa using hblank)]
      exact congrArg _ hlexed

/-! ## Blanks in a text -/

/-- Whether what follows a token of a class is inside a formula. -/
def insideAfter (inside : Bool) : TokenKind -> Bool
  | .openFormula => true
  | .closeBrace => false
  | _ => inside

theorem insideAfter_of_ne {kind : TokenKind} (h : kind ≠ .closeBrace) :
    insideAfter true kind = true := by
  cases kind with
  | closeBrace => exact absurd rfl h
  | _ => rfl

/-- The text of words, with blanks put in inside formulas and blank words left out. -/
inductive Respaced : Bool -> List (TokenKind × Bytes) -> Bytes -> Prop
  | nil (inside : Bool) : Respaced inside [] []
  | keep {inside : Bool} {word : TokenKind × Bytes} {words : List (TokenKind × Bytes)}
      {text : Bytes} (h : Respaced (insideAfter inside word.1) words text) :
      Respaced inside (word :: words) (word.2 ++ text)
  | leave {inside : Bool} {lexeme : Bytes} {words : List (TokenKind × Bytes)} {text : Bytes}
      (h : Respaced inside words text) : Respaced inside ((.whitespace, lexeme) :: words) text
  | put {words : List (TokenKind × Bytes)} {text : Bytes} (h : Respaced true words text) :
      Respaced true words (' '.toUInt8 :: text)

theorem Respaced.blanks {words : List (TokenKind × Bytes)} {text : Bytes}
    (h : Respaced true words text) (n : Nat) : Respaced true words (Bytes.blanks n ++ text) := by
  induction n with
  | zero => exact h
  | succ n ih => exact .put ih

theorem Respaced.of_text {kind : TokenKind} {lexeme text : Bytes}
    {words : List (TokenKind × Bytes)} (h : Respaced false ((kind, lexeme) :: words) text)
    (hkind : kind ≠ .whitespace) :
    ∃ text', text = lexeme ++ text' ∧ Respaced (insideAfter false kind) words text' := by
  generalize hinside : false = inside at h
  cases h with
  | keep h => exact ⟨_, rfl, hinside ▸ h⟩
  | leave => exact absurd rfl hkind
  | put => cases hinside

/-- Up to the brace that closes a formula, a text has any number of blanks between the words. -/
theorem Respaced.inside {words more : List (TokenKind × Bytes)} {text : Bytes}
    (h : Respaced true (words ++ (.closeBrace, ['}'.toUInt8]) :: more) text)
    (hinside : ∀ word ∈ words, word.1 ≠ .closeBrace)
    (hblank : ∀ word ∈ words, word.1 = .whitespace → word.2 = Bytes.blanks word.2.length) :
    ∃ inner text', text = inner ++ '}'.toUInt8 :: text' ∧ Spaced (nonblank words) inner ∧
      Respaced false more text' := by
  generalize hmode : true = inside at h
  generalize hall : words ++ (.closeBrace, ['}'.toUInt8]) :: more = all at h
  induction h generalizing words with
  | nil => simp at hall
  | @keep inside word rest text h ih =>
      subst hmode
      cases words with
      | nil =>
          cases hall
          exact ⟨[], text, rfl, .nil 0, h⟩
      | cons first words =>
          rw [List.cons_append, List.cons.injEq] at hall
          obtain ⟨rfl, rfl⟩ := hall
          obtain ⟨hfirst, hmore⟩ := List.forall_mem_cons.mp hinside
          obtain ⟨hblankfirst, hblankmore⟩ := List.forall_mem_cons.mp hblank
          obtain ⟨inner, text', rfl, hspaced, hrest⟩ :=
            ih hmore hblankmore (insideAfter_of_ne hfirst).symm rfl
          refine ⟨first.2 ++ inner, text', (List.append_assoc ..).symm, ?_, hrest⟩
          by_cases hwhite : first.1 = .whitespace
          · rw [nonblank, List.filter_cons_of_neg (by simpa using hwhite), hblankfirst hwhite]
            exact hspaced.blanks _
          · rw [nonblank, List.filter_cons_of_pos (by simpa using hwhite)]
            exact .cons 0 hspaced
  | @leave inside lexeme rest text h ih =>
      cases words with
      | nil => cases hall
      | cons first words =>
          rw [List.cons_append, List.cons.injEq] at hall
          obtain ⟨rfl, rfl⟩ := hall
          obtain ⟨inner, text', htext, hspaced, hrest⟩ :=
            ih (List.forall_mem_cons.mp hinside).2 (List.forall_mem_cons.mp hblank).2 hmode rfl
          exact ⟨inner, text', htext, by simpa [nonblank] using hspaced, hrest⟩
  | @put rest text h ih =>
      obtain ⟨inner, text', rfl, hspaced, hrest⟩ := ih hinside hblank rfl hall
      exact ⟨' '.toUInt8 :: inner, text', rfl, hspaced.blanks 1, hrest⟩

end Scan

/-! ## Templates with other blanks -/

def Token.word (t : Token) : TokenKind × Bytes :=
  (t.kind, t.lexeme)

theorem words_placed (column : Nat) (lexed : List (TokenKind × Bytes)) :
    (placed column lexed).map Token.word = lexed := by
  induction lexed generalizing column with
  | nil => rfl
  | cons first lexed ih =>
      rw [placed, List.map_cons, ih]
      rfl

theorem words_significant (column : Nat) (lexed : List (TokenKind × Bytes)) :
    (significant (placed column lexed)).map Token.word = nonblank lexed := by
  conv_rhs => rw [← words_placed column lexed, nonblank, List.filter_map]
  rfl

/-- A token that was scanned says what its class and lexeme say. -/
theorem Token.Scanned.says_word {template : Bytes} {t : Token} (h : t.Scanned template) :
    t.Says template t.word where
  kind := rfl
  string hkind := by
    obtain ⟨after, hafter, hlexeme⟩ := h.lexeme
    rw [hkind] at hlexeme
    obtain ⟨mark, value, hmark, -, htext⟩ := hlexeme.of_string hafter
    have hzero : mark ≠ 0 := by rcases hmark with rfl | rfl <;> decide
    exact ⟨mark, mark, value, hzero, hzero, htext, htext⟩
  number _ := ⟨rfl, h.source.symm⟩

theorem says_nonblank {template : Bytes} {column : Nat} {lexed : List (TokenKind × Bytes)}
    (h : ∀ t ∈ significant (placed column lexed), t.Scanned template) :
    List.Forall₂ (Token.Says template) (significant (placed column lexed)) (nonblank lexed) := by
  rw [← words_significant column, List.forall₂_map_right_iff, List.forall₂_same]
  exact fun t ht => (h t ht).says_word

/-- The words of a value are apart from each other and from the brace behind them. -/
theorem ValueDerived.chain {template : Bytes} {column : Nat} {lexed : List (TokenKind × Bytes)}
    {value : Option Expr}
    (h : ValueDerived template (significant (placed column lexed)) value) :
    ((nonblank lexed).map Prod.fst ++ [TokenKind.closeBrace]).IsChain Apart := by
  have hkinds : (nonblank lexed).map Prod.fst =
      (significant (placed column lexed)).map Token.kind := by
    rw [← words_significant column, List.map_map]
    rfl
  rw [hkinds]
  generalize significant (placed column lexed) = toks at h
  cases h with
  | none => exact .singleton _
  | some h => exact (h.fenced .openFormula (by decide) .closeBrace (by decide)).tail

/-- With other blanks in its formulas, a text has a shape of the same form. -/
theorem Shape.respaced {template : Bytes} {column : Nat} {body : Bytes} {segments : List Segment}
    (h : Shape template column body segments) {after : Bytes}
    (hplace : template.drop column = body ++ after) :
    ∃ lexed, Lexes .text body lexed ∧
      ∀ template' column' body' after', Respaced false (lexed ++ [(.eof, [])]) body' →
        template'.drop column' = body' ++ after' →
        ∃ segments', Shape template' column' body' segments' ∧
          List.Forall₂ (Segment.Alike fun _ _ => True) segments segments' := by
  induction h with
  | nil =>
      refine ⟨[], .done _, fun template' column' body' after' hbody _ => ?_⟩
      obtain ⟨text, rfl, hend⟩ := hbody.of_text nofun
      cases hend
      exact ⟨[], .nil _, .nil⟩
  | @text column run hne hrun =>
      refine ⟨_, lexes_run hne hrun, fun template' column' body' after' hbody _ => ?_⟩
      obtain ⟨text, rfl, htext⟩ := hbody.of_text nofun
      obtain ⟨text, rfl, hend⟩ := htext.of_text nofun
      cases hend
      rw [List.append_nil]
      exact ⟨_, .text hne hrun, .cons (.text rfl) .nil⟩
  | @formula column run inner rest lexed value segments hrun hinner hvalue _ ih =>
      obtain ⟨hinside, hbehind⟩ := drop_of_formula hplace
      obtain ⟨more, hmore, hshapes⟩ := ih hbehind
      refine ⟨_, hinner.lexes_formula hrun hmore,
        fun template' column' body' after' hbody hplace' => ?_⟩
      obtain ⟨text, rfl, htext⟩ := hbody.of_text nofun
      obtain ⟨text, rfl, hformula⟩ := htext.of_text nofun
      rw [List.append_eq, List.append_assoc] at hformula
      obtain ⟨inner', rest', rfl, hspaced, hrest⟩ :=
        hformula.inside hinner.inside (hinner.blank_words (List.cons_ne_nil _ _))
      obtain ⟨hinside', hbehind'⟩ := drop_of_formula hplace'
      obtain ⟨segments', hshape, halike⟩ := hshapes _ _ _ _ hrest hbehind'
      -- the same words are scanned at other columns, so they say the same
      obtain ⟨lexed', htakes, hlexed⟩ :=
        hspaced.takes rest' (hinner.isWord (List.cons_ne_nil _ _)) hvalue.chain
      have hsays := says_nonblank (scanned_of_takes hinner (List.cons_ne_nil _ _) hinside)
      rw [← hlexed] at hsays
      have hlike := like_of_spelled hsays (by rw [htakes.flatMap, hinside'])
      obtain ⟨value', hvalue', hformula⟩ := hvalue.alike hlike
      exact ⟨_, .formula hrun htakes hvalue' hshape,
        .cons (.text rfl) (.cons (hformula _ _) halike)⟩

/-! ## Editing blanks -/

/-- The text of tokens, with blanks put before each token that is inside a formula. -/
def padded (pad : Token -> Nat) : Bool -> List Token -> Bytes
  | _, [] => []
  | inside, t :: rest =>
      Bytes.blanks (if inside then pad t else 0) ++
        (t.lexeme ++ padded pad (insideAfter inside t.kind) rest)

def unpadded (toks : List Token) : Bytes :=
  (significant toks).flatMap Token.lexeme

/-- A template whose tokens are written as a text; a template without tokens stays as it is. -/
def rewritten (write : List Token -> Bytes) (template : Bytes) : Bytes :=
  match tokenize template with
  | .ok (t :: toks) => inBackticks (write (t :: toks))
  | _ => template

/-- A template compiles to the canonical form, the names and the script of another, and renders
the same; a fault of one is at another column in the other. -/
def CompilesAs (cancelled : Bool) (template : Bytes) (t : Template) : Prop :=
  ∃ t', (compile cancelled template).outcome = .ok t' ∧
    t'.file.map SourceFile.canonical = t.file.map SourceFile.canonical ∧
    t'.names = t.names ∧ t'.source = t.source ∧
    ∀ fn, Traced.Related (SameCall fun _ _ => True) (t.render fn) (t'.render fn) ∧
      t'.renderScript fn = t.renderScript fn

theorem respaced_padded (pad : Token -> Nat) (inside : Bool) (toks : List Token) :
    Respaced inside (toks.map Token.word) (padded pad inside toks) := by
  induction toks generalizing inside with
  | nil => exact .nil inside
  | cons t toks ih =>
      cases inside with
      | false => exact .keep (ih _)
      | true => exact .blanks (.keep (ih _)) (pad t)

theorem respaced_unpadded (inside : Bool) (toks : List Token) :
    Respaced inside (toks.map Token.word) (unpadded toks) := by
  induction toks generalizing inside with
  | nil => exact .nil inside
  | cons t toks ih =>
      obtain ⟨lexeme, kind, start, stop⟩ := t
      by_cases hblank : kind = .whitespace
      · subst hblank
        exact .leave (ih inside)
      · rw [unpadded, significant, List.filter_cons_of_pos (by simpa using hblank)]
        exact .keep (ih _)

theorem Compiled.respaced {body body' : Bytes} {t : Template} {file : SourceFile}
    {toks : List Token} (h : Compiled body t file) (htoks : tokenize (inBackticks body) = .ok toks)
    (hbody : Respaced false (toks.map Token.word) body') :
    CompilesAs false (inBackticks body') t := by
  obtain ⟨lexed, hlexes, hshapes⟩ := h.shape.respaced (drop_inBackticks body)
  rw [tokenize_inBackticks, hlexes.tokens, Except.ok.injEq] at htoks
  rw [← htoks, words_placed] at hbody
  obtain ⟨segments, hshape, halike⟩ := hshapes _ _ _ _ hbody (drop_inBackticks body')
  obtain ⟨t', file', hcompile, hcompiled, rfl⟩ := hshape.compile
  have hplain := h.plain_of_alike hcompiled halike
  have hsource := h.source_of_plain hcompiled hplain
  refine ⟨t', hcompile, ?_, ?_, hsource, fun fn => ⟨?_, ?_⟩⟩
  · rw [hcompiled.tree, h.tree, Option.map_some, Option.map_some, ← file'.canonical_plain, hplain,
      file.canonical_plain]
  · rw [hcompiled.names, h.names, ← file'.names_plain, hplain, file.names_plain]
  · rw [h.render, hcompiled.render]
    exact related_of_alike halike fn
  · rw [Template.renderScript, Template.renderScript, hsource]

theorem compilesAs_rewritten {cancelled : Bool} {template : Bytes} {t : Template}
    (h : (compile cancelled template).outcome = .ok t) {write : List Token → Bytes}
    (hwrite : ∀ toks, Respaced false (toks.map Token.word) (write toks)) :
    CompilesAs cancelled (rewritten write template) t := by
  cases hbody : Scan.body? template with
  | none =>
      have htokens : tokenize template = .ok [] := by rw [tokenize, hbody]
      rw [rewritten, htokens]
      rcases compile_cases h with rfl | ⟨-, body, -, rfl, -⟩
      · exact ⟨_, h, rfl, rfl, rfl, fun fn => ⟨.pure _, rfl⟩⟩
      · rw [body?_inBackticks] at hbody
        cases hbody
  | some body =>
      obtain rfl := eq_inBackticks_of_body? hbody
      obtain ⟨rfl, file, hcompiled⟩ := compiled_of_ok h
      obtain ⟨lexed, hlexes, -⟩ := hcompiled.shape.lexes
      have htokens := (tokenize_inBackticks body).trans (hlexes.tokens 1)
      have hne : placed 1 (lexed ++ [(.eof, [])]) ≠ [] := by
        rw [placed_append]
        simp [placed]
      obtain ⟨first, rest, htoks⟩ := List.exists_cons_of_ne_nil hne
      rw [htoks] at htokens
      rw [rewritten, htokens]
      exact hcompiled.respaced htokens (hwrite _)

theorem padded_zero (inside : Bool) (toks : List Token) :
    padded (fun _ => 0) inside toks = (toks.map Token.word).flatMap Prod.snd := by
  induction toks generalizing inside with
  | nil => rfl
  | cons t toks ih =>
      rw [padded, ih, ite_self, List.map_cons, List.flatMap_cons]
      rfl

/-- A template that no blank is put in stays as it is. -/
theorem rewritten_padded_zero (template : Bytes) :
    rewritten (padded (fun _ => 0) false) template = template := by
  unfold rewritten
  split
  · rename_i t toks htokens
    cases hbody : Scan.body? template with
    | none =>
        rw [tokenize, hbody] at htokens
        cases htokens
    | some body =>
        obtain rfl := eq_inBackticks_of_body? hbody
        rw [tokenize_inBackticks] at htokens
        obtain ⟨lexed, hlexes, htoks⟩ := tokens_eq_ok_iff.mp htokens
        rw [padded_zero, htoks, words_placed, List.flatMap_append, hlexes.flatMap]
        simp
  · rfl

/--
However many blanks are put between the tokens of the formulas of a template, and
if all blank tokens are left out, it compiles to a template of the same canonical
form, names and script that renders the same.
-/
theorem formula_blanks_insignificant {cancelled : Bool} {template : Bytes} {t : Template}
    (h : (compile cancelled template).outcome = .ok t) :
    rewritten (padded (fun _ => 0) false) template = template ∧
      (∀ pad, CompilesAs cancelled (rewritten (padded pad false) template) t) ∧
      CompilesAs cancelled (rewritten unpadded template) t :=
  ⟨rewritten_padded_zero template,
    fun pad => compilesAs_rewritten h (respaced_padded pad false),
    compilesAs_rewritten h (respaced_unpadded false)⟩

/-- A formula with one more blank before each of its tokens, and without any blank. -/
theorem formula_blanks_insignificant_sample :
    ∃ t, (compile false "`$\x7bIF(GET('x')<= TRUE,' ',GET('') )\x7d`").outcome = .ok t ∧
      CompilesAs false "`$\x7b IF ( GET ( 'x' ) <=   TRUE , ' ' , GET ( '' )   ) \x7d`" t ∧
      CompilesAs false "`$\x7bIF(GET('x')<=TRUE,' ',GET(''))\x7d`" t := by
  have hok : (compile false "`$\x7bIF(GET('x')<= TRUE,' ',GET('') )\x7d`").outcome.isOk = true := by
    cbv
  have hpadded :
      rewritten (padded (fun _ => 1) false) "`$\x7bIF(GET('x')<= TRUE,' ',GET('') )\x7d`" =
        "`$\x7b IF ( GET ( 'x' ) <=   TRUE , ' ' , GET ( '' )   ) \x7d`" := by cbv
  have hunpadded : rewritten unpadded "`$\x7bIF(GET('x')<= TRUE,' ',GET('') )\x7d`" =
      "`$\x7bIF(GET('x')<=TRUE,' ',GET(''))\x7d`" := by cbv
  obtain ⟨t, ht⟩ := exists_ok hok
  obtain ⟨-, hpad, hleave⟩ := formula_blanks_insignificant ht
  exact ⟨t, ht, hpadded ▸ hpad fun _ => 1, hunpadded ▸ hleave⟩

end Backtick
