import Mathlib
import Backtick.Proofs.Canonical

/-!
# The names of a template

The names that a compiled template reports can be read off its tokens: they are the
quoted texts behind `GET (`, from left to right. The list without repetitions has each
of them where it occurs first.
-/

namespace Backtick

open Scan Parse

/-! ## Names among tokens -/

def insideMarks (lexeme : Bytes) : Bytes :=
  lexeme.tail.dropLast

/-- The name that tokens ask for, if they begin with `GET (` and a quoted text. -/
def askedFirst? : List Token -> Option Bytes
  | word :: opening :: name :: _ =>
      if word.kind = .getWord ∧ opening.kind = .openParen ∧ name.kind = .string then
        some (insideMarks name.lexeme)
      else
        none
  | _ => none

def asked (toks : List Token) : List Bytes :=
  toks.tails.filterMap askedFirst?

theorem asked_cons (t : Token) (rest : List Token) :
    asked (t :: rest) = (askedFirst? (t :: rest)).toList ++ asked rest := by
  rw [asked, List.tails_cons, List.filterMap_cons]
  cases askedFirst? (t :: rest) <;> rfl

def Asks (toks : List Token) (names : List Bytes) : Prop :=
  ∀ rest, asked (toks ++ rest) = names ++ asked rest

theorem Asks.nil : Asks [] [] :=
  fun _ => rfl

theorem Asks.token {t : Token} {kind : TokenKind} (h : t.kind = kind) (hne : kind ≠ .getWord) :
    Asks [t] [] := by
  subst h
  intro rest
  have hnone : askedFirst? (t :: rest) = none := by
    unfold askedFirst?
    split <;> simp_all
  rw [List.singleton_append, asked_cons, hnone]
  rfl

theorem Asks.append {first second : List Token} {names more : List Bytes}
    (hfirst : Asks first names) (hsecond : Asks second more) :
    Asks (first ++ second) (names ++ more) := by
  intro rest
  rw [List.append_assoc, hfirst, hsecond, List.append_assoc]

theorem Asks.cons {t : Token} {kind : TokenKind} {rest : List Token} {names : List Bytes}
    (h : t.kind = kind) (hne : kind ≠ .getWord) (hrest : Asks rest names) :
    Asks (t :: rest) names :=
  (Asks.token h hne).append hrest

/-! ## Names of a tree -/

/-- The name in quotes of a token is the text between its marks. -/
def Token.Closed (template : Bytes) (t : Token) : Prop :=
  t.kind = .string → (quoted template t).value = insideMarks t.lexeme

theorem Token.Scanned.closed {template : Bytes} {t : Token} (h : t.Scanned template) :
    t.Closed template := by
  intro hkind
  obtain ⟨after, hafter, hlexeme⟩ := h.lexeme
  rw [hkind] at hlexeme
  obtain ⟨mark, value, hmark, -, htext⟩ := hlexeme.of_string hafter
  have hzero : mark ≠ 0 := by rcases hmark with rfl | rfl <;> decide
  rw [quoted_of_lexeme hzero htext, htext]
  simp [insideMarks]

theorem GetCall.Derived.asks {template : Bytes} {toks : List Token} {call : GetCall}
    (h : call.Derived template toks) (hclosed : ∀ t ∈ toks, t.Closed template) :
    Asks toks call.names := by
  cases h with
  | @mk word opening name close hword hopening hname hclose =>
      have hvalue := hclosed name (by simp) hname
      have hbehind : Asks [opening, name, close] [] :=
        .cons hopening (by decide) (.cons hname (by decide) (.token hclose (by decide)))
      intro rest
      have hrest := hbehind rest
      simp only [List.cons_append, List.nil_append] at hrest ⊢
      rw [asked_cons, hrest]
      simp [askedFirst?, hword, hopening, hname, GetCall.names, hvalue]

theorem ne_getWord_of_comparator {kind : TokenKind} {op : Comparator}
    (h : kind.comparator? = some op) : kind ≠ .getWord := by
  rintro rfl
  cases h

/-- The tokens of an expression ask for its names. -/
theorem Expr.Derived.asks {template : Bytes} {place : Grammar.Place} {toks : List Token}
    {e : Expr} (h : e.Derived template place toks) (hclosed : ∀ t ∈ toks, t.Closed template) :
    Asks toks e.names := by
  induction h with
  | string h | number h _ | yes h | no h => exact .token h (by decide)
  | get h => exact h.asks hclosed
  | length hword hopening h hclose =>
      simp only [List.forall_mem_append, List.forall_mem_cons] at hclosed
      have hcall := (h.asks hclosed.1.2.2).append (.token hclose (by decide))
      rw [List.append_nil] at hcall
      exact .cons hword (by decide) (.cons hopening (by decide) hcall)
  | choose hword hopening _ hcomma _ hcomma' _ hclose ihtest ihyes ihno =>
      simp only [List.forall_mem_append, List.forall_mem_cons] at hclosed
      obtain ⟨⟨⟨⟨-, -, htest⟩, -, hyes⟩, -, hno⟩, -⟩ := hclosed
      have htests := Asks.cons hword (by decide) (.cons hopening (by decide) (ihtest htest))
      have hyess := htests.append (.cons hcomma (by decide) (ihyes hyes))
      have hnos := hyess.append (.cons hcomma' (by decide) (ihno hno))
      have hall := hnos.append (.token hclose (by decide))
      rwa [List.append_nil] at hall
  | condition _ ih => exact ih hclosed
  | comparison _ hop _ ihleft ihright =>
      simp only [List.forall_mem_append, List.forall_mem_cons] at hclosed
      exact (ihleft hclosed.1).append
        (.cons rfl (ne_getWord_of_comparator hop) (ihright hclosed.2.2))

theorem ValueDerived.asks {template : Bytes} {toks : List Token} {value : Option Expr}
    (h : ValueDerived template toks value) (hclosed : ∀ t ∈ toks, t.Closed template)
    (column length : Nat) :
    Asks (opening column :: toks ++ [closing (column + 2 + length)])
      (formulaAt template column length value).names := by
  have hinner : Asks toks (formulaAt template column length value).names := by
    cases h with
    | none => exact .nil
    | some h => exact h.asks hclosed
  have hopen := Asks.cons (t := opening column) rfl
    (show TokenKind.openFormula ≠ .getWord by decide) hinner
  have hall := hopen.append (.token (t := closing (column + 2 + length)) rfl
    (show TokenKind.closeBrace ≠ .getWord by decide))
  rwa [List.append_nil] at hall

/-- The tokens of a text ask for the names of the segments it makes. -/
theorem Shape.asks {template : Bytes} {column : Nat} {body after : Bytes}
    {segments : List Segment} (h : Shape template column body segments)
    (hplace : template.drop column = body ++ after) :
    ∃ lexed, Lexes .text body lexed ∧
      Asks (significant (placed column lexed)) (segments.flatMap Segment.names) := by
  induction h with
  | nil column => exact ⟨[], .done _, .nil⟩
  | @text column run hne hrun =>
      exact ⟨[(.string, run)], lexes_run hne hrun,
        .token rfl (show TokenKind.string ≠ .getWord by decide)⟩
  | @formula column run inner rest lexed value segments hrun hinner hvalue _ ih =>
      obtain ⟨hinside, hbehind⟩ := drop_of_formula hplace
      obtain ⟨more, hmore, hasks⟩ := ih hbehind
      have hscanned := scanned_of_takes hinner (by simp) hinside
      have hformula := hvalue.asks (fun t ht => (hscanned t ht).closed) (column + run.length)
        inner.length
      refine ⟨_, hinner.lexes_formula hrun hmore, ?_⟩
      rw [significant_placed column run hinner]
      exact .cons rfl (show TokenKind.string ≠ .getWord by decide) (hformula.append hasks)

/-! ## Names without repetitions -/

/-- A list has each member of another once, in the order in which they occur first. -/
structure FirstsOf (names firsts : List Bytes) : Prop where
  nodup : firsts.Nodup
  mem_iff : ∀ name, name ∈ firsts ↔ name ∈ names
  ordered : firsts.Pairwise fun a b => names.idxOf a < names.idxOf b

theorem FirstsOf.nil : FirstsOf [] [] :=
  ⟨.nil, by simp, .nil⟩

/-- One more name at the end leaves the order of the members as it is. -/
theorem FirstsOf.ordered_append {names firsts : List Bytes} (h : FirstsOf names firsts)
    (name : Bytes) :
    firsts.Pairwise fun a b => (names ++ [name]).idxOf a < (names ++ [name]).idxOf b := by
  refine h.ordered.imp_of_mem fun {a b} ha hb hlt => ?_
  rwa [List.idxOf_append_of_mem ((h.mem_iff a).mp ha),
    List.idxOf_append_of_mem ((h.mem_iff b).mp hb)]

theorem FirstsOf.seen {names firsts : List Bytes} (h : FirstsOf names firsts) {name : Bytes}
    (hname : name ∈ firsts) : FirstsOf (names ++ [name]) firsts where
  nodup := h.nodup
  mem_iff other := by
    rw [h.mem_iff, List.mem_append, List.mem_singleton]
    constructor
    · exact .inl
    · rintro (hother | rfl)
      · exact hother
      · exact (h.mem_iff _).mp hname
  ordered := h.ordered_append name

theorem FirstsOf.unseen {names firsts : List Bytes} (h : FirstsOf names firsts) {name : Bytes}
    (hname : name ∉ firsts) : FirstsOf (names ++ [name]) (firsts ++ [name]) where
  nodup := List.nodup_append.mpr ⟨h.nodup, List.nodup_singleton name, by
    rintro a ha _ hb rfl
    exact hname (List.mem_singleton.mp hb ▸ ha)⟩
  mem_iff other := by rw [List.mem_append, List.mem_append, h.mem_iff]
  ordered := by
    refine List.pairwise_append.mpr ⟨h.ordered_append name, List.pairwise_singleton _ _, ?_⟩
    intro a ha b hb
    obtain rfl := List.mem_singleton.mp hb
    have hmem := (h.mem_iff a).mp ha
    have hnot : b ∉ names := fun hb => hname ((h.mem_iff b).mpr hb)
    rw [List.idxOf_append_of_mem hmem, List.idxOf_append_of_notMem hnot]
    exact Nat.lt_of_lt_of_le (List.idxOf_lt_length_of_mem hmem) (Nat.le_add_right _ _)

theorem FirstsOf.foldl {names firsts : List Bytes} (h : FirstsOf names firsts)
    (more : List Bytes) :
    FirstsOf (names ++ more)
      (more.foldl (fun seen name => if seen.contains name then seen else seen ++ [name])
        firsts) := by
  induction more generalizing names firsts with
  | nil => rwa [List.append_nil]
  | cons name more ih =>
      rw [List.append_cons, List.foldl_cons]
      split
      · rename_i hname
        exact ih (h.seen (by simpa using hname))
      · rename_i hname
        exact ih (h.unseen (by simpa using hname))

theorem firstsOf_uniqueNames (t : Template) : FirstsOf t.names t.uniqueNames :=
  FirstsOf.nil.foldl t.names

/-! ## Names of a compiled template -/

/-- The names reported are those asked for by the tokens, and without repetitions each is at its
first place. -/
theorem names_eq_asked {cancelled : Bool} {template : Bytes} {t : Template}
    (h : (compile cancelled template).outcome = .ok t) :
    (∃ toks, tokenize template = .ok toks ∧ t.names = asked (significant toks)) ∧
      FirstsOf t.names t.uniqueNames := by
  refine ⟨?_, firstsOf_uniqueNames t⟩
  cases hbody : Scan.body? template with
  | none =>
      have htokens : tokenize template = .ok [] := by rw [tokenize, hbody]
      unfold compile at h
      rw [htokens] at h
      cases h
      exact ⟨[], htokens, rfl⟩
  | some body =>
      obtain rfl := eq_inBackticks_of_body? hbody
      obtain ⟨-, file, hfile⟩ := compiled_of_ok h
      obtain ⟨lexed, hlexes, hasks⟩ := hfile.shape.asks (drop_inBackticks body)
      refine ⟨_, (tokenize_inBackticks body).trans (hlexes.tokens 1), ?_⟩
      rw [hfile.names, significant_end, hasks]
      exact (List.append_nil _).symm

/-- A template that asks for `b`, then for `a` under `LENGTH`, and again in its branches. -/
def askingText : Bytes :=
  "`$\x7bIF(GET('b') < LENGTH( GET(\"a\")), IF(GET('b'), GET('a'), 'GET'), GET(\"c\"))\x7d`"

theorem names_eq_asked_sample : ∃ t toks, (compile false askingText).outcome = .ok t ∧
    t.names = ["b", "a", "b", "a", "c"] ∧ t.uniqueNames = ["b", "a", "c"] ∧
    tokenize askingText = .ok toks ∧ asked (significant toks) = ["b", "a", "b", "a", "c"] ∧
    FirstsOf ["b", "a", "b", "a", "c"] ["b", "a", "c"] := by
  have hok : ((compile false askingText).outcome.map fun t => (t.names, t.uniqueNames)) =
      .ok (["b", "a", "b", "a", "c"], ["b", "a", "c"]) := by cbv
  obtain ⟨t, ht, hnames⟩ := map_eq_ok_iff.mp hok
  obtain ⟨hall, hunique⟩ := Prod.mk.inj hnames
  obtain ⟨⟨toks, htoks, hasked⟩, hfirsts⟩ := names_eq_asked ht
  rw [hall, hunique] at hfirsts
  exact ⟨t, toks, ht, hall, hunique, htoks, hasked.symm.trans hall, hfirsts⟩

end Backtick
