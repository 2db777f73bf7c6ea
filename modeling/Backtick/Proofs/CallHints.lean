import Mathlib
import Backtick.Proofs.Likeness
import Backtick.Proofs.Parentheses
import Backtick.Proofs.Slices

/-!
# Calls that the tokens leave open

Where the strings of the last formula and the text before it leave no parenthesis
open, the call found at the end of a text is the one that the tokens leave open: the
walk stops at the same parenthesis, the commas it counts are those of the tokens, and
the name is that of a token, unless a blank or a number comes between.
-/

namespace Backtick

open Scan

/-! ## Names before a parenthesis -/

/-- The class of a reserved word or of an identifier. -/
def TokenKind.IsName (kind : TokenKind) : Prop :=
  kind.isKeyword ∨ kind = .identifier

instance : DecidablePred TokenKind.IsName :=
  fun kind => inferInstanceAs (Decidable (kind.isKeyword ∨ kind = .identifier))

def TokenKind.names : List TokenKind :=
  [.identifier, .ifWord, .getWord, .lengthWord, .trueWord, .falseWord]

theorem TokenKind.isName_iff {kind : TokenKind} : kind.IsName ↔ kind ∈ TokenKind.names := by
  cases kind <;> simp [IsName, isKeyword, names]

theorem TokenKind.isName_ofWord (word : Bytes) : (TokenKind.ofWord word).IsName := by
  unfold TokenKind.ofWord
  split_ifs
  any_goals exact .inl rfl
  exact .inr rfl

theorem rtakeWhile_append_of_last {p : UInt8 -> Bool} {text : Bytes} (hne : text ≠ [])
    (h : ∀ b ∈ text.getLast?, p b = false) (front : Bytes) : (front ++ text).rtakeWhile p = [] := by
  obtain ⟨init, b, rfl⟩ := (List.eq_nil_or_concat' text).resolve_left hne
  have hb : ¬p b := by simpa using h b List.getLast?_concat
  rw [← List.append_assoc, List.rtakeWhile_concat_neg _ _ _ hb]

theorem rtakeWhile_append_of_all {p : UInt8 -> Bool} {text : Bytes} (h : ∀ b ∈ text, p b)
    (front : Bytes) : (front ++ text).rtakeWhile p = front.rtakeWhile p ++ text := by
  have hall : ∀ b ∈ text.reverse, p b := fun b hb => h b (List.mem_reverse.mp hb)
  rw [List.rtakeWhile, List.reverse_append, List.takeWhile_append_of_pos hall,
    List.reverse_append, List.reverse_reverse, List.rtakeWhile]

namespace Scan

open OpenCall

theorem Lexeme.of_isName {kind : TokenKind} {lexeme rest : Bytes} (h : Lexeme kind lexeme rest)
    (hname : kind.IsName) :
    ∃ first more, lexeme = first :: more ∧ (∀ b ∈ lexeme, Bytes.isLetter b) ∧
      StopsAt Bytes.isLetter rest := by
  cases h with
  | word hfirst hmore hrest =>
      exact ⟨_, _, rfl, List.forall_mem_cons.mpr ⟨hfirst, hmore⟩, hrest⟩
  | _ => exact absurd hname (by simp [TokenKind.IsName, TokenKind.isKeyword])

theorem Lexeme.blank_stops {lexeme rest : Bytes} (h : Lexeme .whitespace lexeme rest) :
    ∃ more, lexeme = ' '.toUInt8 :: more ∧ StopsAt (· = ' '.toUInt8) rest := by
  generalize hkind : TokenKind.whitespace = kind at h
  cases h with
  | blank _ hrest => exact ⟨_, rfl, hrest⟩
  | word => exact absurd hkind (TokenKind.ne_ofWord (by decide) _)
  | _ => cases hkind

theorem last_word {inner rest : Bytes} {words : List (TokenKind × Bytes)} {kind : TokenKind}
    {lexeme : Bytes} (h : Takes inner (words ++ [(kind, lexeme)]) rest) :
    ∃ left, inner = left ++ lexeme ∧ Takes left words (lexeme ++ rest) ∧
      Lexeme kind lexeme rest := by
  obtain ⟨left, right, rfl, hleft, hright⟩ := h.split
  obtain ⟨inner, rfl, hlexeme, hnil⟩ := hright.of_cons
  cases hnil
  rw [List.append_nil] at hleft ⊢
  exact ⟨left, rfl, hleft, hlexeme⟩

/-- No byte of a name ends a lexeme that is neither a name nor a number. -/
theorem Lexeme.last_not_name {kind : TokenKind} {lexeme rest : Bytes}
    (h : Lexeme kind lexeme rest) (hrest : rest ≠ []) (hname : ¬kind.IsName)
    (hnumber : kind ≠ .number) : ∀ b ∈ lexeme.getLast?, isNameByte b = false := by
  intro b hb
  cases h with
  | blank hmore =>
      rcases List.mem_cons.mp (List.mem_of_getLast? hb) with rfl | hb
      · decide
      · rw [hmore b hb]
        decide
  | quoted hmark =>
      rw [List.getLast?_concat] at hb
      obtain rfl := Option.some.inj hb
      rcases hmark with rfl | rfl <;> decide
  | unclosed => exact absurd rfl hrest
  | whole | fraction => exact absurd rfl hnumber
  | word => exact absurd (TokenKind.isName_ofWord _) hname
  | _ =>
      obtain rfl := Option.some.inj hb
      decide

/-- No name ends at the opening of a formula, or at a lexeme that is neither a name nor a number. -/
theorem Takes.name_eq_nil {inner rest : Bytes} {words : List (TokenKind × Bytes)}
    (h : Takes inner words rest) (hrest : rest ≠ [])
    (hlast : ∀ word ∈ words.getLast?, ¬word.1.IsName ∧ word.1 ≠ .number) (before : Bytes) :
    (before ++ '$'.toUInt8 :: '{'.toUInt8 :: inner).rtakeWhile isNameByte = [] := by
  rcases List.eq_nil_or_concat' words with rfl | ⟨init, ⟨kind, lexeme⟩, rfl⟩
  · cases h
    exact rtakeWhile_append_of_last (by simp) (by decide +kernel) before
  · obtain ⟨left, rfl, -, hlexeme⟩ := last_word h
    obtain ⟨hname, hnumber⟩ := hlast _ List.getLast?_concat
    rw [← List.cons_append, ← List.cons_append, ← List.append_assoc]
    exact rtakeWhile_append_of_last hlexeme.ne_nil
      (hlexeme.last_not_name hrest hname hnumber) _

/-- A name is found whole and alone, unless a number stands right before it. -/
theorem Takes.name_eq_lexeme {inner rest lexeme : Bytes} {kind : TokenKind}
    {words : List (TokenKind × Bytes)} (h : Takes inner (words ++ [(kind, lexeme)]) rest)
    (hname : kind.IsName) (hlast : ∀ word ∈ words.getLast?, word.1 ≠ .number) (before : Bytes) :
    (before ++ '$'.toUInt8 :: '{'.toUInt8 :: inner).rtakeWhile isNameByte = lexeme := by
  obtain ⟨left, rfl, hleft, hlexeme⟩ := last_word h
  obtain ⟨first, more, rfl, hletters, -⟩ := hlexeme.of_isName hname
  have hbytes : ∀ b ∈ first :: more, isNameByte b := fun b hb => by
    simp [isNameByte, hletters b hb]
  have hnil := hleft.name_eq_nil (by simp)
    (fun word hword => ⟨fun hprevious => ?_, hlast word hword⟩) before
  · rw [← List.cons_append, ← List.cons_append, ← List.append_assoc,
      rtakeWhile_append_of_all hbytes, hnil, List.nil_append]
  · -- two names in a row would have been one
    obtain ⟨init, rfl⟩ := List.getLast?_eq_some_iff.mp hword
    obtain ⟨-, -, -, hprevious'⟩ := last_word hleft
    obtain ⟨-, -, -, -, hstops⟩ := hprevious'.of_isName hprevious
    have hfirst := hletters first List.mem_cons_self
    rw [List.cons_append, stopsAt_cons, hfirst] at hstops
    cases hstops

end Scan

/-- Names stand right before the parentheses of their calls, and numbers right before neither. -/
structure CallsAdjoin (kinds : List TokenKind) : Prop where
  blank : ∀ name : TokenKind, name.IsName → ¬[name, .whitespace, .openParen] <:+: kinds
  number : ¬[.number, .openParen] <:+: kinds
  digits : ∀ name : TokenKind, name.IsName → ¬[.number, name, .openParen] <:+: kinds

instance (kinds : List TokenKind) : Decidable (CallsAdjoin kinds) :=
  decidable_of_iff ((∀ name ∈ TokenKind.names, ¬[name, .whitespace, .openParen] <:+: kinds) ∧
      ¬[.number, .openParen] <:+: kinds ∧
      ∀ name ∈ TokenKind.names, ¬[.number, name, .openParen] <:+: kinds)
    ⟨fun h => ⟨fun name hname => h.1 name (TokenKind.isName_iff.mp hname), h.2.1,
        fun name hname => h.2.2 name (TokenKind.isName_iff.mp hname)⟩,
      fun h => ⟨fun name hname => h.blank name (TokenKind.isName_iff.mpr hname), h.number,
        fun name hname => h.digits name (TokenKind.isName_iff.mpr hname)⟩⟩

theorem CallsAdjoin.of_append {kinds more : List TokenKind} (h : CallsAdjoin (kinds ++ more)) :
    CallsAdjoin kinds :=
  have hlonger {part : List TokenKind} (hpart : part <:+: kinds) : part <:+: kinds ++ more :=
    hpart.trans (List.prefix_append kinds more).isInfix
  ⟨fun name hname hpart => h.blank name hname (hlonger hpart),
    fun hpart => h.number (hlonger hpart),
    fun name hname hpart => h.digits name hname (hlonger hpart)⟩

namespace Scan

open OpenCall

/-- The last token that counts, if the last one is no blank. -/
theorem getLast?_significant {kind : TokenKind} (h : kind ≠ .whitespace) (column : Nat)
    (words : List (TokenKind × Bytes)) (lexeme : Bytes) :
    (significant (placed column (words ++ [(kind, lexeme)]))).getLast? =
      some (tokenAt (column + (words.map fun t => t.2.length).sum) kind lexeme) := by
  rw [placed_append, significant_append, placed, significant_tokenAt h]
  exact List.getLast?_concat

theorem significant_concat_blank (column : Nat) (words : List (TokenKind × Bytes))
    (lexeme : Bytes) :
    significant (placed column (words ++ [(.whitespace, lexeme)])) =
      significant (placed column words) := by
  rw [placed_append, significant_append, placed, significant_blank]
  exact List.append_nil _

/-- Blanks in a row are one. -/
theorem Takes.not_blanks {inner rest lexeme lexeme' : Bytes} {words : List (TokenKind × Bytes)}
    (h : Takes inner (words ++ [(.whitespace, lexeme)] ++ [(.whitespace, lexeme')]) rest) :
    False := by
  obtain ⟨left, -, hleft, hlast⟩ := last_word h
  obtain ⟨-, -, -, hprevious⟩ := last_word hleft
  obtain ⟨more, rfl, -⟩ := hlast.blank_stops
  obtain ⟨-, -, hstops⟩ := hprevious.blank_stops
  rw [List.cons_append, stopsAt_cons] at hstops
  simp at hstops

/-- What stands before a parenthesis that adjoins its name: the name, or nothing that ends in
one. -/
theorem Takes.name_or_none {inner rest : Bytes} {words : List (TokenKind × Bytes)}
    (h : Takes inner words rest) (hadjoin : CallsAdjoin (words.map Prod.fst ++ [.openParen]))
    (column : Nat) :
    (∃ init kind lexeme, words = init ++ [(kind, lexeme)] ∧ kind.IsName ∧
        ∀ word ∈ init.getLast?, word.1 ≠ .number) ∨
      (∀ word ∈ words.getLast?, ¬word.1.IsName ∧ word.1 ≠ .number) ∧
        ∀ t ∈ (significant (placed column words)).getLast?, ¬t.kind.IsName := by
  rcases List.eq_nil_or_concat' words with rfl | ⟨init, ⟨kind, lexeme⟩, rfl⟩
  · exact .inr ⟨nofun, nofun⟩
  rw [List.map_append, List.append_assoc] at hadjoin
  by_cases hname : kind.IsName
  · refine .inl ⟨init, kind, lexeme, rfl, hname, fun word hword hnumber => ?_⟩
    obtain ⟨init, rfl⟩ := List.getLast?_eq_some_iff.mp hword
    exact hadjoin.digits kind hname ⟨init.map Prod.fst, [], by simp [hnumber]⟩
  · right
    constructor
    · intro word hword
      rw [List.getLast?_concat] at hword
      obtain rfl := Option.some.inj hword
      refine ⟨hname, ?_⟩
      rintro rfl
      exact hadjoin.number ⟨init.map Prod.fst, [], by simp⟩
    · by_cases hblank : kind = .whitespace
      · subst hblank
        rw [significant_concat_blank]
        rcases List.eq_nil_or_concat' init with rfl | ⟨init, ⟨kind, lexeme'⟩, rfl⟩
        · nofun
        · have hkind : kind ≠ .whitespace := by
            rintro rfl
            exact h.not_blanks
          rw [getLast?_significant hkind]
          rintro t ht hname
          obtain rfl := Option.some.inj ht
          exact hadjoin.blank kind hname ⟨init.map Prod.fst, [], by simp⟩
      · rw [getLast?_significant hblank]
        rintro t ht
        obtain rfl := Option.some.inj ht
        exact hname

/-- The name found before a parenthesis is that of the last token that counts. -/
theorem Takes.name_iff {inner rest : Bytes} {words : List (TokenKind × Bytes)}
    (h : Takes inner words rest) (hrest : rest ≠ [])
    (hadjoin : CallsAdjoin (words.map Prod.fst ++ [.openParen])) (before : Bytes) (column : Nat)
    (name : Bytes) :
    name = (before ++ '$'.toUInt8 :: '{'.toUInt8 :: inner).rtakeWhile isNameByte ∧ name ≠ [] ↔
      ∃ t ∈ (significant (placed column words)).getLast?, t.kind.IsName ∧ name = t.lexeme := by
  rcases h.name_or_none hadjoin column with
    ⟨init, kind, lexeme, rfl, hname, hnumber⟩ | ⟨hwords, htoks⟩
  · have hblank : kind ≠ .whitespace := by
      rintro rfl
      simp [TokenKind.IsName, TokenKind.isKeyword] at hname
    obtain ⟨-, -, -, hlexeme⟩ := last_word h
    rw [h.name_eq_lexeme hname hnumber, getLast?_significant hblank]
    constructor
    · rintro ⟨rfl, -⟩
      exact ⟨_, rfl, hname, rfl⟩
    · rintro ⟨t, ht, -, rfl⟩
      obtain rfl := Option.some.inj ht
      exact ⟨rfl, hlexeme.ne_nil⟩
  · rw [h.name_eq_nil hrest hwords]
    constructor
    · exact fun hname => absurd hname.1 hname.2
    · rintro ⟨t, ht, hname, -⟩
      exact absurd hname (htoks t ht)

end Scan

/-! ## The last formula -/

/-- The tokens before and behind the last one that opens a formula. -/
structure LastFormula (toks before inner : List Token) : Prop where
  split : ∃ opening : Token, opening.kind = .openFormula ∧ toks = before ++ opening :: inner
  last : ∀ t ∈ inner, t.kind ≠ .openFormula

/-- Tokens that end in a formula end in the last one. -/
theorem LastFormula.closeBrace_not_mem {toks before inner : List Token}
    (h : LastFormula toks before inner) (hinside : InsideFormula toks) :
    ∀ t ∈ inner, t.kind ≠ .closeBrace := by
  obtain ⟨opening, hopening, rfl⟩ := h.split
  obtain ⟨kinds, hsuffix, hkinds⟩ := hinside
  rw [List.map_append, List.map_cons, hopening] at hsuffix
  rcases suffix_append_cases hsuffix with hsuffix | ⟨front, -, heq⟩
  · intro t ht hclose
    rcases List.suffix_cons_iff.mp hsuffix with heq | hsuffix
    · obtain ⟨-, rfl⟩ := List.cons.inj heq
      exact hkinds (hclose ▸ List.mem_map_of_mem ht)
    · obtain ⟨t', ht', hopen⟩ := List.mem_map.mp (hsuffix.subset List.mem_cons_self)
      exact absurd hopen (h.last t' ht')
  · intro t ht hclose
    have hmem : TokenKind.closeBrace ∈ .openFormula :: kinds := by
      rw [heq]
      refine List.mem_append_right _ (List.mem_cons_of_mem _ ?_)
      exact hclose ▸ List.mem_map_of_mem ht
    exact hkinds ((List.mem_cons.mp hmem).resolve_left (by decide))

namespace Scan

/-- Lexemes behind the opening of a formula that is not closed make up the rest of the text. -/
theorem Lexes.takes_of_opening {mode : Mode} {text lexeme : Bytes}
    {before words : List (TokenKind × Bytes)}
    (h : Lexes mode text (before ++ (.openFormula, lexeme) :: words))
    (hwords : .closeBrace ∉ words.map Prod.fst) :
    lexeme = ['$'.toUInt8, '{'.toUInt8] ∧
      ∃ inner, text = before.flatMap Prod.snd ++ '$'.toUInt8 :: '{'.toUInt8 :: inner ∧
        Takes inner words [] := by
  induction before generalizing mode text with
  | nil =>
      cases h with
      | @token _ _ rest _ hlexeme hmore =>
          generalize hkind : TokenKind.openFormula = kind at hlexeme hmore
          cases hlexeme with
          | openFormula =>
              refine ⟨rfl, rest, rfl, ?_⟩
              exact ((hmore.ending 0).2 rfl .formula (.inl rfl)).resolve_right
                fun hends => hwords hends.2
          | word => exact absurd hkind (TokenKind.ne_ofWord (by decide) _)
          | _ => cases hkind
  | cons word before ih =>
      cases h with
      | text _ _ _ hmore =>
          obtain ⟨hlexeme, inner, hrest, hinner⟩ := ih hmore
          exact ⟨hlexeme, inner, by rw [hrest, List.flatMap_cons, List.append_assoc], hinner⟩
      | token _ hmore =>
          obtain ⟨hlexeme, inner, hrest, hinner⟩ := ih hmore
          exact ⟨hlexeme, inner, by rw [hrest, List.flatMap_cons, List.append_assoc], hinner⟩

/-- A token before the last one parts the lexemes. -/
theorem placed_split {column : Nat} {lexed : List (TokenKind × Bytes)} {before rest : List Token}
    {t : Token} (h : placed column (lexed ++ [(.eof, [])]) = before ++ t :: rest)
    (ht : t.kind ≠ .eof) :
    ∃ first lexeme second, lexed = first ++ (t.kind, lexeme) :: second ∧
      placed column first = before ∧ t.start = (column + (first.flatMap Prod.snd).length : Nat) ∧
      placed (column + (first.flatMap Prod.snd).length + lexeme.length)
        (second ++ [(.eof, [])]) = rest := by
  obtain ⟨first, more, hlexed, hfirst, hmore⟩ := placed_eq_append h
  rw [← List.length_flatMap] at hmore
  obtain _ | ⟨⟨kind, lexeme⟩, more⟩ := more
  · cases hmore
  · obtain ⟨rfl, hrest⟩ := List.cons.inj hmore
    rcases List.eq_nil_or_concat' more with rfl | ⟨second, last, rfl⟩
    · obtain ⟨-, heof⟩ := List.append_inj' hlexed rfl
      cases heof
      exact absurd rfl ht
    · rw [← List.cons_append, ← List.append_assoc] at hlexed
      obtain ⟨rfl, hlast⟩ := List.append_inj' hlexed rfl
      cases hlast
      exact ⟨first, lexeme, second, rfl, hfirst, rfl, hrest⟩

theorem Lexeme.of_openParen {lexeme rest : Bytes} (h : Lexeme .openParen lexeme rest) :
    lexeme = ['('.toUInt8] := by
  generalize hkind : TokenKind.openParen = kind at h
  cases h with
  | openParen => rfl
  | word => exact absurd hkind (TokenKind.ne_ofWord (by decide) _)
  | _ => cases hkind

/-- The text of a formula at one of the parentheses that its tokens open. -/
theorem Takes.at_paren {inner : Bytes} {words : List (TokenKind × Bytes)} (h : Takes inner words [])
    {column : Nat} {before args : List Token} {o : Token}
    (hsplit : placed column (words ++ [(.eof, [])]) = before ++ o :: args)
    (ho : o.kind = .openParen) :
    ∃ left right first second column', inner = left ++ '('.toUInt8 :: right ∧
      Takes left first ('('.toUInt8 :: right) ∧ Takes right second [] ∧
      placed column first = before ∧ o.start = (column + left.length : Nat) ∧
      placed column' (second ++ [(.eof, [])]) = args := by
  obtain ⟨first, lexeme, second, rfl, hbefore, hstart, hargs⟩ :=
    placed_split hsplit (by rw [ho]; decide)
  obtain ⟨left, rest, rfl, hleft, hrest⟩ := h.split
  obtain ⟨right, rfl, hlexeme, hright⟩ := hrest.of_cons
  rw [ho] at hlexeme
  obtain rfl := hlexeme.of_openParen
  rw [List.append_nil] at hleft
  rw [hleft.flatMap] at hstart
  exact ⟨left, right, first, second, _, rfl, hleft, hright, hbefore, hstart, hargs⟩

end Scan

/-! ## Calls -/

/-- The longest run of name bytes right before a token. -/
def nameBefore (p : Bytes) (t : Token) : Bytes :=
  (p.take (t.start - 1).toNat).rtakeWhile OpenCall.isNameByte

/-- The call that the tokens leave open: the name right before the last open parenthesis, and the
index of the argument that they end in. -/
def EndsInCall (toks : List Token) (c : OpenCall) : Prop :=
  ∃ before name o args, Parse.LastOpen toks (before ++ [name]) o args ∧ name.kind.IsName ∧
    c = ⟨name.lexeme, Parse.outerCommas 0 args⟩

namespace Scan

open OpenCall
open Bytes (height)

/-- The tokens of an open formula weigh what they stand for, if its strings are balanced. -/
theorem Takes.weighs_end {inner : Bytes} {words : List (TokenKind × Bytes)}
    (h : Takes inner words []) {column : Nat}
    (hstrings : ∀ t ∈ placed column (words ++ [(.eof, [])]), t.kind = .string →
      Balanced height t.lexeme) :
    ∀ t ∈ placed column (words ++ [(.eof, [])]), t.Weighs := by
  rw [placed_append, List.forall_mem_append] at *
  refine ⟨h.weighs hstrings.1, fun t ht => ?_⟩
  obtain rfl := List.mem_singleton.mp ht
  exact Token.weighs_of_balanced (Bytes.balanced_of_not_mark nofun) (by rintro ⟨⟩) (by rintro ⟨⟩)

theorem Takes.flatMap_end {inner rest : Bytes} {words : List (TokenKind × Bytes)}
    (h : Takes inner words rest) (column : Nat) :
    (placed column (words ++ [(.eof, [])])).flatMap Token.lexeme = inner := by
  rw [flatMap_lexeme_placed, List.flatMap_append, h.flatMap]
  exact List.append_nil inner

theorem outerCommas_end (d : Int) (column : Nat) (words : List (TokenKind × Bytes)) :
    Parse.outerCommas d (placed column (words ++ [(.eof, [])])) =
      Parse.outerCommas d (placed column words) := by
  induction words generalizing d column with
  | nil => simp [placed, Parse.outerCommas, tokenAt]
  | cons word words ih =>
      obtain ⟨kind, lexeme⟩ := word
      rw [List.cons_append, placed, Parse.outerCommas, ih, placed, Parse.outerCommas]

/-- A formula that the end of a text leaves open, by its lexemes: its strings are balanced, and if
it leaves no parenthesis open, neither does the text in front of it. -/
structure OpenText (front inner : Bytes) (words : List (TokenKind × Bytes)) : Prop where
  takes : Takes inner words []
  strings : ∀ t ∈ placed (front.length + 3) (words ++ [(.eof, [])]), t.kind = .string →
    Balanced height t.lexeme
  closes : ClosesAll Parse.depth (placed (front.length + 3) (words ++ [(.eof, [])])) →
    ClosesAll height front

namespace OpenText

variable {front inner : Bytes} {words : List (TokenKind × Bytes)}

/-- The text before a token of the formula. -/
theorem take_start (left right : Bytes) {t : Token}
    (ht : t.start = (front.length + 3 + left.length : Nat)) :
    (front ++ '$'.toUInt8 :: '{'.toUInt8 :: (left ++ right)).take (t.start - 1).toNat =
      front ++ '$'.toUInt8 :: '{'.toUInt8 :: left := by
  have hlength : (t.start - 1).toNat =
      (front ++ '$'.toUInt8 :: '{'.toUInt8 :: left).length := by
    simp only [ht, List.length_append, List.length_cons]
    omega
  have hsplit : front ++ '$'.toUInt8 :: '{'.toUInt8 :: (left ++ right) =
      (front ++ '$'.toUInt8 :: '{'.toUInt8 :: left) ++ right := by simp
  rw [hlength, hsplit, List.take_left]

/-- The call at the last open parenthesis of the tokens is the one found. -/
theorem at?_of_split (h : OpenText front inner words) {before args : List Token} {o : Token}
    (hsplit : placed (front.length + 3) (words ++ [(.eof, [])]) = before ++ o :: args)
    (ho : o.kind = .openParen) (hargs : Balanced Parse.depth args) (c : OpenCall) :
    let p := front ++ '$'.toUInt8 :: '{'.toUInt8 :: inner
    at? p p.length = some c ↔
      c = ⟨nameBefore p o, Parse.outerCommas 0 args⟩ ∧ c.name ≠ [] := by
  intro p
  have hweighs : ∀ t ∈ args, t.Weighs := fun t ht =>
    h.takes.weighs_end h.strings t (by rw [hsplit]; simp [ht])
  obtain ⟨left, right, first, second, column, rfl, -, hright, -, hstart, rfl⟩ :=
    h.takes.at_paren hsplit ho
  have hbalanced := Token.balanced_flatMap hweighs hargs
  rw [hright.flatMap_end] at hbalanced
  have hcommas : commas right = Parse.outerCommas 0 (placed column second) := by
    rw [commas, hright.commas column, Nat.zero_add]
  have hp : p = (front ++ '$'.toUInt8 :: '{'.toUInt8 :: left) ++ '('.toUInt8 :: right := by
    simp [p]
  rw [nameBefore, take_start left _ hstart, outerCommas_end, ← hcommas, hp]
  exact at?_of_balanced hbalanced _ c

/-- The call found is that of the last open parenthesis of the tokens, if they have one. -/
theorem at?_iff (h : OpenText front inner words) (c : OpenCall) :
    let p := front ++ '$'.toUInt8 :: '{'.toUInt8 :: inner
    at? p p.length = some c ↔ ∃ before o args,
      Parse.LastOpen (significant (placed (front.length + 3) (words ++ [(.eof, [])])))
        before o args ∧
        c = ⟨nameBefore p o, Parse.outerCommas 0 args⟩ ∧ c.name ≠ [] := by
  intro p
  simp only [Parse.lastOpen_significant]
  constructor
  · intro hcall
    rcases Parse.closesAll_or_balanced (placed (front.length + 3) (words ++ [(.eof, [])])) with
      hcloses | ⟨before, o, args, hsplit, ho, hargs⟩
    · -- nothing is open, neither in the formula nor before it
      have hinner := Token.closesAll_flatMap (h.takes.weighs_end h.strings) hcloses
      rw [h.takes.flatMap_end] at hinner
      have hopening : ClosesAll height ['$'.toUInt8, '{'.toUInt8] := by decide
      have hnone := at?_of_closesAll
        (Bytes.closesAll_append (h.closes hcloses) (Bytes.closesAll_append hopening hinner))
      exact absurd (hnone.symm.trans hcall) nofun
    · refine ⟨_, o, _, ⟨before, args, hsplit, ho, rfl, rfl, hargs⟩, ?_⟩
      rw [Parse.outerCommas_significant]
      exact (h.at?_of_split hsplit ho hargs c).mp hcall
  · rintro ⟨-, o, -, ⟨before, args, hsplit, ho, rfl, rfl, hargs⟩, hc⟩
    rw [Parse.outerCommas_significant] at hc
    exact (h.at?_of_split hsplit ho hargs c).mpr hc

/-- The name found before an open parenthesis is the token before it, if calls adjoin. -/
theorem nameBefore_iff (h : OpenText front inner words)
    (hadjoin : CallsAdjoin ((placed (front.length + 3) (words ++ [(.eof, [])])).map Token.kind))
    {before args : List Token} {o : Token}
    (hlast : Parse.LastOpen (significant (placed (front.length + 3) (words ++ [(.eof, [])])))
      before o args) (name : Bytes) :
    name = nameBefore (front ++ '$'.toUInt8 :: '{'.toUInt8 :: inner) o ∧ name ≠ [] ↔
      ∃ t ∈ before.getLast?, t.kind.IsName ∧ name = t.lexeme := by
  obtain ⟨front', behind, hsplit, ho, rfl, -, -⟩ := Parse.lastOpen_significant.mp hlast
  obtain ⟨left, right, first, second, column, rfl, hleft, -, rfl, hstart, -⟩ :=
    h.takes.at_paren hsplit ho
  rw [hsplit, List.map_append, List.map_cons, ho, map_kind_placed, ← List.singleton_append,
    ← List.append_assoc] at hadjoin
  rw [nameBefore, take_start left _ hstart]
  exact hleft.name_iff (List.cons_ne_nil _ _) hadjoin.of_append front _ name

end OpenText

/-- The text of tokens that end in a formula, at the last opening of one. -/
theorem exists_openText {p : Bytes} {toks before inner : List Token}
    (h : tokenize (inBackticks p) = .ok toks) (hinside : InsideFormula toks)
    (hlast : LastFormula toks before inner)
    (hstrings : ∀ t ∈ inner, t.kind = .string → Balanced height t.lexeme)
    (hbefore : (∃ before o args, Parse.LastOpen (significant inner) before o args) ∨
      ClosesAll height (before.flatMap Token.lexeme)) :
    ∃ front text words, p = front ++ '$'.toUInt8 :: '{'.toUInt8 :: text ∧
      inner = placed (front.length + 3) (words ++ [(.eof, [])]) ∧ OpenText front text words := by
  rw [tokenize_inBackticks] at h
  obtain ⟨lexed, hlexes, rfl⟩ := tokens_eq_ok_iff.mp h
  obtain ⟨opening, hopening, hsplit⟩ := hlast.split
  have hclosed := hlast.closeBrace_not_mem hinside
  obtain ⟨first, lexeme, words, rfl, rfl, -, rfl⟩ :=
    placed_split hsplit (by rw [hopening]; decide)
  rw [hopening] at hlexes
  have hwords : .closeBrace ∉ words.map Prod.fst := by
    intro hmem
    rw [← map_kind_placed (1 + (first.flatMap Prod.snd).length + lexeme.length)] at hmem
    obtain ⟨t, ht, hclose⟩ := List.mem_map.mp hmem
    refine hclosed t ?_ hclose
    rw [placed_append]
    exact List.mem_append_left _ ht
  obtain ⟨rfl, text, hp, htakes⟩ := hlexes.takes_of_opening hwords
  rw [flatMap_lexeme_placed] at hbefore
  have hcolumn : 1 + (first.flatMap Prod.snd).length + ['$'.toUInt8, '{'.toUInt8].length =
      (first.flatMap Prod.snd).length + 3 := by
    simp only [List.length_cons, List.length_nil]
    omega
  rw [hcolumn] at hstrings hbefore ⊢
  refine ⟨_, text, words, hp, rfl, htakes, hstrings, fun hcloses => hbefore.resolve_left ?_⟩
  rintro ⟨before, o, args, hopen⟩
  exact Parse.not_lastOpen_of_closesAll hcloses hopen

end Scan

/--
The call found at the end of a text whose tokens end in a formula. Where the strings of
the last formula are balanced, and either it or nothing leaves a parenthesis open, the
parenthesis found is the last one that its tokens leave open, the argument is that of
the tokens, and the name is the run of name bytes before the parenthesis. Where in
addition names adjoin their parentheses, and numbers neither, that name is the token
before the parenthesis.
-/
theorem openCall_agrees_with_tokens {p : Bytes} {toks before inner : List Token}
    (h : tokenize (inBackticks p) = .ok toks) (hinside : InsideFormula toks)
    (hlast : LastFormula toks before inner)
    (hstrings : ∀ t ∈ inner, t.kind = .string → Balanced Bytes.height t.lexeme)
    (hbefore : (∃ before o args, Parse.LastOpen (significant inner) before o args) ∨
      ClosesAll Bytes.height (before.flatMap Token.lexeme)) :
    (∀ c, OpenCall.at? p p.length = some c ↔ ∃ before o args,
      Parse.LastOpen (significant inner) before o args ∧
        c = ⟨nameBefore p o, Parse.outerCommas 0 args⟩ ∧ c.name ≠ []) ∧
      (CallsAdjoin (inner.map Token.kind) →
        ∀ c, OpenCall.at? p p.length = some c ↔ EndsInCall (significant inner) c) := by
  obtain ⟨front, text, words, rfl, rfl, hopen⟩ :=
    exists_openText h hinside hlast hstrings hbefore
  refine ⟨hopen.at?_iff, fun hadjoin c => (hopen.at?_iff c).trans ?_⟩
  constructor
  · rintro ⟨before, o, args, hparen, rfl, hne⟩
    obtain ⟨t, ht, hname, heq⟩ := (hopen.nameBefore_iff hadjoin hparen _).mp ⟨rfl, hne⟩
    obtain ⟨front, rfl⟩ := List.getLast?_eq_some_iff.mp ht
    exact ⟨front, t, o, args, hparen, hname, by rw [heq]⟩
  · rintro ⟨before, name, o, args, hparen, hname, rfl⟩
    obtain ⟨heq, hne⟩ := (hopen.nameBefore_iff hadjoin hparen _).mpr
      ⟨name, List.getLast?_concat, hname, rfl⟩
    exact ⟨_, o, args, hparen, by rw [heq], hne⟩

/-- A text with an open parenthesis, a balanced one in a string, and a nested call. -/
def hintText : Bytes :=
  "(a $\x7bIF(GET('(k)'), 'f', "

def hintArguments : List Token :=
  [⟨"GET", .getWord, 9, 12⟩, ⟨"(", .openParen, 12, 13⟩, ⟨"'(k)'", .string, 13, 18⟩,
    ⟨")", .closeParen, 18, 19⟩, ⟨",", .comma, 19, 20⟩, ⟨" ", .whitespace, 20, 21⟩,
    ⟨"'f'", .string, 21, 24⟩, ⟨",", .comma, 24, 25⟩, ⟨" ", .whitespace, 25, 26⟩,
    ⟨"", .eof, 26, 26⟩]

theorem openCall_agrees_with_tokens_sample :
    ∃ toks before inner, tokenize (inBackticks hintText) = .ok toks ∧
      LastFormula toks before inner ∧ EndsInCall (significant inner) ⟨"IF", 2⟩ ∧
      OpenCall.at? hintText hintText.length = some ⟨"IF", 2⟩ := by
  obtain ⟨toks, htokens, htoks⟩ : ∃ toks, tokenize (inBackticks hintText) = .ok toks ∧
      toks = [⟨"(a ", .string, 1, 4⟩] ++ ⟨"$\x7b", .openFormula, 4, 6⟩ ::
        ⟨"IF", .ifWord, 6, 8⟩ :: ⟨"(", .openParen, 8, 9⟩ :: hintArguments := ⟨_, by cbv, rfl⟩
  have hlast : LastFormula toks _ _ := ⟨⟨_, rfl, htoks⟩, by decide⟩
  have hinside : InsideFormula toks := by
    rw [htoks]
    exact leavesOpen_append [.string] (by decide)
  have hopen : Parse.LastOpen (significant (⟨"IF", .ifWord, 6, 8⟩ :: ⟨"(", .openParen, 8, 9⟩ ::
      hintArguments)) [⟨"IF", .ifWord, 6, 8⟩] ⟨"(", .openParen, 8, 9⟩ (significant hintArguments) :=
    Parse.lastOpen_iff.mpr ⟨rfl, rfl, by decide +kernel⟩
  have hcall : OpenCall.at? hintText hintText.length = some ⟨"IF", 2⟩ := by cbv
  have hagrees := (openCall_agrees_with_tokens htokens hinside hlast (by decide +kernel)
    (.inl ⟨_, _, _, hopen⟩)).2 (by decide +kernel) ⟨"IF", 2⟩
  exact ⟨toks, _, _, htokens, hlast, hagrees.mp hcall, hcall⟩

/-- The tokens of a text end in a formula and in no string, and these stand in the formula. -/
def EndsBehind (p : Bytes) (inner : List Token) : Prop :=
  ∃ toks before, tokenize (inBackticks p) = .ok toks ∧ InsideFormula toks ∧
    (¬∃ t, InsideString toks t) ∧ LastFormula toks before inner

theorem endsBehind_of_tokens {p : Bytes} {before inner : List Token} {opening : Token}
    (h : tokenize (inBackticks p) = .ok (before ++ opening :: inner))
    (hopening : opening.kind = .openFormula)
    (hinner : ∀ t ∈ inner, t.kind ≠ .openFormula ∧ t.kind ≠ .closeBrace)
    (hstring : ∀ t ∈ (before ++ opening :: inner).dropLast.getLast?, t.kind ≠ .string) :
    EndsBehind p inner := by
  refine ⟨_, before, h, ?_, ?_, ⟨opening, hopening, rfl⟩, fun t ht => (hinner t ht).1⟩
  · rw [InsideFormula, List.map_append, List.map_cons, hopening]
    refine leavesOpen_append _ fun hmem => ?_
    obtain ⟨t, ht, hclose⟩ := List.mem_map.mp hmem
    exact (hinner t ht).2 hclose
  · rintro ⟨t, ht⟩
    exact hstring t ht.last ht.kind

theorem not_endsInCall {toks : List Token} (h : ∀ t ∈ toks, ¬t.kind.IsName) (c : OpenCall) :
    ¬EndsInCall toks c := by
  rintro ⟨before, name, o, args, hopen, hname, -⟩
  refine h name ?_ hname
  rw [hopen.split]
  simp

/--
A parenthesis in a string hides the call, and so does a blank behind its name; a
parenthesis in the text before the formula, or one behind a number, is taken for a call.
-/
theorem openCall_differs_from_tokens :
    ((∃ inner, EndsBehind "$\x7bIF('('," inner ∧ EndsInCall (significant inner) ⟨"IF", 1⟩) ∧
      OpenCall.at? "$\x7bIF('('," 9 = none) ∧
    ((∃ inner, EndsBehind "$\x7bIF (" inner ∧ EndsInCall (significant inner) ⟨"IF", 0⟩) ∧
      OpenCall.at? "$\x7bIF (" 6 = none) ∧
    ((∃ inner, EndsBehind "IF($\x7b" inner ∧ ∀ c, ¬EndsInCall (significant inner) c) ∧
      OpenCall.at? "IF($\x7b" 5 = some ⟨"IF", 0⟩) ∧
    (∃ inner, EndsBehind "$\x7b1(" inner ∧ ∀ c, ¬EndsInCall (significant inner) c) ∧
      OpenCall.at? "$\x7b1(" 4 = some ⟨"1", 0⟩ := by
  refine ⟨⟨⟨_, @endsBehind_of_tokens _ [⟨"", .string, 1, 1⟩]
      [⟨"IF", .ifWord, 3, 5⟩, ⟨"(", .openParen, 5, 6⟩, ⟨"'('", .string, 6, 9⟩, ⟨",", .comma, 9, 10⟩,
        ⟨"", .eof, 10, 10⟩] ⟨"$\x7b", .openFormula, 1, 3⟩ (by cbv) rfl (by decide)
      (by decide +kernel), ?_⟩, by cbv⟩,
    ⟨⟨_, @endsBehind_of_tokens _ [⟨"", .string, 1, 1⟩]
      [⟨"IF", .ifWord, 3, 5⟩, ⟨" ", .whitespace, 5, 6⟩, ⟨"(", .openParen, 6, 7⟩,
        ⟨"", .eof, 7, 7⟩] ⟨"$\x7b", .openFormula, 1, 3⟩ (by cbv) rfl (by decide)
      (by decide +kernel), ?_⟩, by cbv⟩,
    ⟨⟨_, @endsBehind_of_tokens _ [⟨"IF(", .string, 1, 4⟩] [⟨"", .eof, 6, 6⟩]
      ⟨"$\x7b", .openFormula, 4, 6⟩ (by cbv) rfl (by decide) (by decide +kernel), ?_⟩, by cbv⟩,
    ⟨_, @endsBehind_of_tokens _ [⟨"", .string, 1, 1⟩]
      [⟨"1", .number, 3, 4⟩, ⟨"(", .openParen, 4, 5⟩, ⟨"", .eof, 5, 5⟩]
      ⟨"$\x7b", .openFormula, 1, 3⟩ (by cbv) rfl (by decide) (by decide +kernel), ?_⟩, by cbv⟩
  · exact ⟨[], _, _, _, Parse.lastOpen_iff.mpr ⟨rfl, rfl, by decide +kernel⟩, .inl rfl, rfl⟩
  · exact ⟨[], _, _, _, Parse.lastOpen_iff.mpr ⟨rfl, rfl, by decide +kernel⟩, .inl rfl, rfl⟩
  · exact not_endsInCall (by decide)
  · exact not_endsInCall (by decide)

end Backtick
