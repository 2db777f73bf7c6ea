import Mathlib
import Backtick.Proofs.Cursor
import Backtick.Proofs.Parsing
import Backtick.Template.Compile

/-!
# Positions stay in bounds

The parser by positions takes the same steps as the parser on lists: at each call
the tokens from its position up to its limit are the list that the other one is
given, and the token at the limit is the boundary. So it answers the same, at the
position behind the tokens that were taken, and none of its checks ever fails. No
call can take the boundary for its own parenthesis, since a boundary that is a
parenthesis has parentheses in balance before it.
-/

namespace Backtick

open Parse

namespace Cursor

/-! ## Agreement -/

/-- Related results, or the same error for the tokens; a check that fails agrees with nothing. -/
inductive Agrees {α β : Type} (R : α → β → Prop) : Checked α -> Except SyntaxError β -> Prop
  | ok {a : α} {b : β} (h : R a b) : Agrees R (.ok a) (.ok b)
  | refused {e : SyntaxError} (h : e.cause ≠ .tokensLeft) :
      Agrees R (.error (.refused e)) (.error e)

/-- The same node, at the position behind the tokens that were taken and up to a limit. -/
inductive Ends {α : Type} (pos limit : Nat) : α × Nat -> α × Nat -> Prop
  | mk {a : α} {n : Nat} (h : pos + n ≤ limit) : Ends pos limit (a, pos + n) (a, n)

section Agreement

variable {α β γ δ : Type} {R : α → β → Prop} {S : γ → δ → Prop}

theorem Agrees.refuse {cause : SyntaxCause} (h : cause ≠ .tokensLeft) (t : Token) :
    Agrees R (Cursor.refuse t cause) (failAt t cause) :=
  .refused h

theorem Agrees.bind {x : Checked α} {y : Except SyntaxError β} {f : α → Checked γ}
    {g : β → Except SyntaxError δ} (h : Agrees R x y)
    (hf : ∀ a b, y = .ok b → R a b → Agrees S (f a) (g b)) : Agrees S (x >>= f) (y >>= g) := by
  cases h with
  | ok h => exact hf _ _ rfl h
  | refused h => exact .refused h

theorem Agrees.unless {p : Prop} [Decidable p] {cause : SyntaxCause} (hcause : cause ≠ .tokensLeft)
    {t : Token} {x : Checked α} {y : Except SyntaxError β} (h : ¬p → Agrees R x y) :
    Agrees R (if p then Cursor.refuse t cause else x) (if p then failAt t cause else y) := by
  split
  · exact .refuse hcause t
  · exact h ‹_›

/-- A sub-parser passes its check if no more tokens were taken than there are before the limit. -/
theorem Agrees.within {pos limit : Nat} {x : Checked (α × Nat)}
    {y : Except SyntaxError (α × Nat)}
    (h : Agrees (fun a b => a = (b.1, pos + b.2)) x y)
    (hbound : ∀ a n, y = .ok (a, n) → pos + n ≤ limit) :
    Agrees (Ends pos limit) (Cursor.within limit x) y := by
  cases h with
  | refused h => exact .refused h
  | @ok a b h =>
      obtain rfl := h
      have hle := hbound b.1 b.2 rfl
      unfold Cursor.within
      rw [ok_bind]
      dsimp only
      rw [if_pos hle]
      exact .ok (.mk hle)

theorem Agrees.unbounded {pos limit : Nat} {x : Checked (α × Nat)}
    {y : Except SyntaxError (α × Nat)} (h : Agrees (Ends pos limit) x y) :
    Agrees (fun a b => a = (b.1, pos + b.2)) x y := by
  cases h with
  | refused h => exact .refused h
  | ok h =>
      cases h
      exact .ok rfl

end Agreement

variable {c : Cursor}

/-! ## Spans -/

theorem span_eq (c : Cursor) (start stop : Int) :
    c.span start stop = .ok (spanOf c.template start stop) := by
  unfold span spanOf
  split
  · rfl
  · rename_i hin
    simp only [Bool.or_eq_true, decide_eq_true_eq, not_or, not_lt] at hin
    rw [slice, if_pos ⟨hin.1.1, hin.2, hin.1.2⟩, ok_bind]

theorem between_eq (c : Cursor) (first last : Token) :
    c.between first last = .ok (Parse.between c.template first last) :=
  c.span_eq first.start last.stop

theorem quoted_eq (c : Cursor) (t : Token) : c.quoted t = .ok (Parse.quoted c.template t) := by
  unfold quoted Parse.quoted tokenSpan
  rw [between_eq, ok_bind]
  cases t.lexeme <;> rfl

/-! ## Windows -/

/-- The tokens from a position up to a limit, and the token at the limit. -/
structure Window (c : Cursor) (pos limit : Nat) (toks : List Token) (bound : Token) : Prop where
  limit_eq : limit = pos + toks.length
  drop_eq : ∃ after, c.toks.drop pos = toks ++ bound :: after

section Windows

variable {pos limit : Nat} {toks : List Token} {bound : Token}

theorem read_of_drop {first rest : List Token} {t : Token}
    (h : c.toks.drop pos = first ++ t :: rest) : c.read (pos + first.length) = .ok t := by
  have hget : c.toks[pos + first.length]? = some t := by
    rw [← List.getElem?_drop, h, List.getElem?_append_right (Nat.le_refl _), Nat.sub_self]
    rfl
  rw [read, hget]

theorem Window.read {first rest : List Token} {t : Token}
    (h : Window c pos limit (first ++ t :: rest) bound) : c.read (pos + first.length) = .ok t := by
  obtain ⟨after, hdrop⟩ := h.drop_eq
  rw [List.append_assoc] at hdrop
  exact read_of_drop hdrop

theorem Window.head {t : Token} (h : Window c pos limit (t :: toks) bound) :
    c.read pos = .ok t := by
  rw [← List.nil_append (t :: toks)] at h
  exact h.read

/-- A position before the limit or not, what is found there is what the list has. -/
theorem Window.look (h : Window c pos limit toks bound) (i : Nat) :
    c.look (pos + i) limit = .ok (tokenAt toks bound i) := by
  obtain ⟨hlimit, after, hdrop⟩ := h
  unfold Cursor.look tokenAt
  by_cases hi : i < toks.length
  · rw [if_pos (by omega), List.getD_eq_getElem _ _ hi]
    have hsplit : c.toks.drop pos =
        toks.take i ++ toks[i] :: (toks.drop (i + 1) ++ bound :: after) := by
      rw [hdrop, ← List.cons_append, ← List.drop_eq_getElem_cons hi, ← List.append_assoc,
        List.take_append_drop]
    have hread := read_of_drop hsplit
    rwa [List.length_take, Nat.min_eq_left (Nat.le_of_lt hi)] at hread
  · rw [if_neg (by omega), List.getD_eq_default _ _ (by omega), hlimit]
    exact read_of_drop hdrop

theorem Window.expect (h : Window c pos limit toks bound) (i : Nat) (kind : TokenKind)
    (cause : Token → SyntaxCause) :
    c.expect (pos + i) limit kind cause =
      if (tokenAt toks bound i).kind ≠ kind then
        refuse (tokenAt toks bound i) (cause (tokenAt toks bound i))
      else
        .ok (tokenAt toks bound i) := by
  unfold Cursor.expect
  rw [h.look, ok_bind]

/-- An expected token that is not there is refused on both sides. -/
theorem Window.agrees_expect {γ δ : Type} {S : γ → δ → Prop} (h : Window c pos limit toks bound)
    {i : Nat} {kind : TokenKind} {cause : Token → SyntaxCause} (hcause : ∀ t, cause t ≠ .tokensLeft)
    {f : Token → Checked γ} {y : Except SyntaxError δ}
    (hf : (tokenAt toks bound i).kind = kind → Agrees S (f (tokenAt toks bound i)) y) :
    Agrees S (c.expect (pos + i) limit kind cause >>= f)
      (if (tokenAt toks bound i).kind ≠ kind then
        failAt (tokenAt toks bound i) (cause (tokenAt toks bound i))
      else y) := by
  rw [h.expect]
  split
  · exact .refuse (hcause _) _
  · rename_i hkind
    exact hf (not_not.mp hkind)

theorem Window.skip {first rest : List Token} (h : Window c pos limit (first ++ rest) bound) :
    Window c (pos + first.length) limit rest bound := by
  obtain ⟨hlimit, after, hdrop⟩ := h
  refine ⟨?_, after, ?_⟩
  · rw [hlimit, List.length_append, Nat.add_assoc]
  · rw [← List.drop_drop, hdrop, List.append_assoc, List.drop_left]

theorem Window.tail {t : Token} (h : Window c pos limit (t :: toks) bound) :
    Window c (pos + 1) limit toks bound := by
  rw [← List.singleton_append] at h
  exact h.skip

theorem Window.upTo {first rest : List Token} {t : Token}
    (h : Window c pos limit (first ++ t :: rest) bound) :
    Window c pos (pos + first.length) first t := by
  obtain ⟨-, after, hdrop⟩ := h
  exact ⟨rfl, rest ++ bound :: after, by rw [hdrop, List.append_assoc]; rfl⟩

end Windows

/-! ## Scans -/

/-- The tokens from a position up to a limit, which may be the end of the list. -/
structure Stretch (c : Cursor) (pos limit : Nat) (toks : List Token) : Prop where
  limit_eq : limit = pos + toks.length
  drop_eq : ∃ after, c.toks.drop pos = toks ++ after

section Scans

variable {i limit : Nat} {toks : List Token}

theorem Window.stretch {bound : Token} (h : Window c i limit toks bound) :
    Stretch c i limit toks := by
  obtain ⟨after, hdrop⟩ := h.drop_eq
  exact ⟨h.limit_eq, bound :: after, hdrop⟩

theorem Stretch.head {t : Token} (h : Stretch c i limit (t :: toks)) : c.read i = .ok t := by
  obtain ⟨after, hdrop⟩ := h.drop_eq
  rw [List.cons_append, ← List.nil_append (t :: _)] at hdrop
  exact read_of_drop hdrop

theorem Stretch.tail {t : Token} (h : Stretch c i limit (t :: toks)) :
    Stretch c (i + 1) limit toks := by
  obtain ⟨hlimit, after, hdrop⟩ := h
  refine ⟨?_, after, ?_⟩
  · rw [hlimit, List.length_cons, Nat.add_assoc, Nat.add_comm 1]
  · rw [← List.drop_drop, hdrop]
    rfl

/-- The parenthesis that closes a depth is found where it is in the list. -/
theorem matchParen_eq (h : Stretch c i limit toks) (d : Nat) :
    ∃ found, c.matchParen d i limit = .ok found ∧
      found.map Fin.val = (closing? d toks).map fun part => i + part.1.length := by
  induction toks generalizing d i with
  | nil =>
      have hlimit : limit = i := h.limit_eq
      exact ⟨none, by rw [matchParen, dif_neg (by omega)], rfl⟩
  | cons t rest ih =>
      have hlimit := h.limit_eq
      rw [List.length_cons] at hlimit
      have hstep (d : Nat) : ∃ found, c.matchParen d (i + 1) limit = .ok found ∧
          found.map Fin.val = (behind [t] (closing? d rest)).map fun part => i + part.1.length := by
        obtain ⟨found, hfound, heq⟩ := ih h.tail d
        refine ⟨found, hfound, ?_⟩
        rw [heq]
        cases closing? d rest with
        | none => rfl
        | some part => simp [behind, Nat.add_assoc, Nat.add_comm 1]
      rw [matchParen, dif_pos (by omega), h.head, ok_bind, closing?_cons]
      by_cases hopen : t.kind = .openParen
      · rw [if_neg (by simp [hopen]), turn_of_open hopen]
        simp only [hopen]
        exact hstep (d + 1)
      · by_cases hclose : t.kind = .closeParen
        · simp only [hclose]
          cases d with
          | zero => exact ⟨_, rfl, by simp⟩
          | succ d =>
              have hback : (((d + 1 : Nat) : Int) + -1).toNat = d := by omega
              rw [if_neg (by simp), turn_of_close hclose, hback]
              exact hstep d
        · rw [if_neg (by simp [hclose]), turn_of_other hopen hclose]
          split
          · exact absurd ‹_› hopen
          · exact absurd ‹_› hclose
          · exact hstep d

/-- The positions of commas that part tokens from a position on. -/
def marks (i : Nat) : List (List Token × Token) -> List Nat
  | [] => []
  | (run, _) :: more => (i + run.length) :: marks (i + run.length + 1) more

theorem marks_behind (i : Nat) (t : Token) (parts : Parts) :
    marks i (Parts.behind [t] parts).1 = marks (i + 1) parts.1 := by
  obtain ⟨_ | ⟨⟨run, comma⟩, more⟩, last⟩ := parts
  · rfl
  · simp [Parts.behind, marks, Nat.add_assoc, Nat.add_comm 1]

theorem length_marks (i : Nat) (parts : List (List Token × Token)) :
    (marks i parts).length = parts.length := by
  induction parts generalizing i with
  | nil => rfl
  | cons part more ih => simp [marks, ih]

/-- The commas outside parentheses are found where they part the list. -/
theorem commas_eq (h : Stretch c i limit toks) (d : Int) :
    ∃ found, c.commas d i limit = .ok found ∧
      found.map Fin.val = marks i (atCommas d toks).1 := by
  induction toks generalizing d i with
  | nil =>
      have hlimit : limit = i := h.limit_eq
      exact ⟨[], by rw [commas, dif_neg (by omega)], rfl⟩
  | cons t rest ih =>
      have hlimit := h.limit_eq
      rw [List.length_cons] at hlimit
      have hstep (d : Int) : ∃ found, c.commas d (i + 1) limit = .ok found ∧
          found.map Fin.val = marks i (Parts.behind [t] (atCommas d rest)).1 := by
        rw [marks_behind]
        exact ih h.tail d
      rw [commas, dif_pos (by omega), h.head, ok_bind, atCommas_cons]
      by_cases hopen : t.kind = .openParen
      · have hpass : ¬(t.kind = .comma ∧ d = 0) := by simp [hopen]
        rw [if_neg hpass, turn_of_open hopen]
        simp only [hopen]
        exact hstep (d + 1)
      · by_cases hclose : t.kind = .closeParen
        · have hpass : ¬(t.kind = .comma ∧ d = 0) := by simp [hclose]
          rw [if_neg hpass, turn_of_close hclose]
          simp only [hclose]
          exact hstep (d - 1)
        · rw [turn_of_other hopen hclose, Int.add_zero]
          split
          · exact absurd ‹_› hopen
          · exact absurd ‹_› hclose
          · rename_i hcomma
            by_cases hd : d = 0
            · obtain ⟨found, hfound, heq⟩ := ih h.tail d
              rw [if_pos hd, if_pos ⟨hcomma, hd⟩, hfound, ok_bind]
              exact ⟨_, rfl, by simp [marks, heq]⟩
            · rw [if_neg hd, if_neg fun h => hd h.2]
              exact hstep d
          · rename_i hcomma
            rw [if_neg fun h => hcomma h.1]
            exact hstep d

end Scans

/-! ## Values -/

section Values

variable {pos limit : Nat} {toks : List Token} {bound word : Token}

theorem getCall_agrees (h : Window c pos limit (word :: toks) bound)
    (hwhole : ∀ call n, Parse.getCall c.template (word :: toks) bound = .ok (call, n) →
      n ≤ (word :: toks).length) :
    Agrees (Ends pos limit) (c.getCall pos limit)
      (Parse.getCall c.template (word :: toks) bound) := by
  have hlimit := h.limit_eq
  have hshort : decide (limit ≤ pos + 2) = decide ((word :: toks).length ≤ 2) := by
    rw [decide_eq_decide]
    omega
  refine .within ?_ fun call n hcall => ?_
  · unfold Parse.getCall
    rw [h.head, ok_bind]
    refine h.agrees_expect (fun _ => by rintro ⟨⟩) fun _ => ?_
    rw [h.look, ok_bind, hshort]
    refine .unless (by rintro ⟨⟩) fun _ => h.agrees_expect (fun _ => by rintro ⟨⟩) fun _ => ?_
    rw [between_eq, ok_bind, quoted_eq, ok_bind]
    exact .ok rfl
  · have hle := hwhole call n hcall
    omega

-- Before a boundary that is a parenthesis, a call that lacks its own would take that one.
example : Cursor.getCall ⟨[], [⟨"GET", .getWord, 0, 3⟩, ⟨"(", .openParen, 3, 4⟩,
    ⟨"'x'", .string, 4, 7⟩, ⟨")", .closeParen, 7, 8⟩]⟩ 0 3 = .error .overrun := by
  cbv

theorem lengthCall_agrees (h : Window c pos limit (word :: toks) bound)
    (hword : word.kind = .lengthWord) (hbounds : Bounds bound (word :: toks)) :
    Agrees (Ends pos limit) (c.lengthCall pos limit)
      (Parse.lengthCall c.template (word :: toks) bound) := by
  have hlimit := h.limit_eq
  have hshort : decide (limit ≤ pos + 2) = decide ((word :: toks).length ≤ 2) := by
    rw [decide_eq_decide]
    omega
  refine .within ?_ fun e n hcall => ?_
  · unfold Parse.lengthCall
    rw [h.head, ok_bind]
    refine h.agrees_expect (fun _ => by rintro ⟨⟩) fun hopening => ?_
    rw [h.look, ok_bind, hshort]
    refine .unless (by rintro ⟨⟩) fun hpass => ?_
    rcases toks with _ | ⟨opening, _ | ⟨arg, rest⟩⟩
    · simp at hpass
    · simp at hpass
    have hget : arg.kind = .getWord := by simpa [tokenAt] using hpass
    have hinner : Agrees (Ends (pos + 2) limit) (c.getCall (pos + 2) limit)
        (Parse.getCall c.template (arg :: rest) bound) := by
      refine getCall_agrees h.tail.tail fun call n hcall => ?_
      obtain ⟨rfl, ⟨first, after, heq, hlen, -⟩ | ⟨-, hclose, hdepth⟩⟩ := getCall_cases hget hcall
      · rw [heq, List.length_append]
        omega
      · -- two parentheses would be open before a boundary that closes one
        have hzero := hbounds hclose
        have hone : turn opening = 1 := turn_of_open hopening
        have hnone : turn word = 0 := turn_of_other (by simp [hword]) (by simp [hword])
        rw [depth_cons, depth_cons, hdepth] at hzero
        omega
    refine hinner.bind fun a b _ hends => ?_
    cases hends with
    | @mk call n hle =>
        dsimp only
        rw [Nat.add_assoc]
        refine h.agrees_expect (fun _ => by rintro ⟨⟩) fun _ => ?_
        rw [between_eq, ok_bind]
        exact .ok rfl
  · obtain ⟨first, rest, heq, rfl, -⟩ := lengthCall_sound hword hbounds hcall
    have := congrArg List.length heq
    rw [List.length_append] at this
    omega

def IsBoundary (t : Token) : Prop :=
  t.kind ∈ [.closeBrace, .comma, .closeParen]

def ValuesAgree (c : Cursor) (size : Nat) : Prop :=
  ∀ pos limit toks bound, toks.length ≤ size → Window c pos limit toks bound →
    IsBoundary bound → Bounds bound toks →
    Agrees (Ends pos limit) (c.value pos limit) (Parse.value c.template toks bound)

theorem ValuesAgree.mono {size size' : Nat} (h : ValuesAgree c size') (hle : size ≤ size') :
    ValuesAgree c size :=
  fun pos limit toks bound hsize => h pos limit toks bound (Nat.le_trans hsize hle)

theorem Window.of_drop_nil (h : Window c pos limit toks bound) {n : Nat}
    (hdrop : toks.drop n = []) : limit ≤ pos + n := by
  have hlimit := h.limit_eq
  have hle := List.drop_eq_nil_iff.mp hdrop
  omega

theorem Window.of_drop_cons (h : Window c pos limit toks bound) {n : Nat} {t : Token}
    {rest : List Token} (hdrop : toks.drop n = t :: rest) :
    pos + n < limit ∧ Window c (pos + n) limit (t :: rest) bound := by
  have hlength := congrArg List.length hdrop
  rw [List.length_drop, List.length_cons] at hlength
  have htake : (toks.take n).length = n := by
    rw [List.length_take]
    omega
  have hskip := h
  rw [← List.take_append_drop n toks, hdrop] at hskip
  have hlimit := h.limit_eq
  exact ⟨by omega, htake ▸ hskip.skip⟩

theorem argument_agrees (h : Window c pos limit toks bound)
    (hvalue : Agrees (Ends pos limit) (c.value pos limit) (Parse.value c.template toks bound)) :
    Agrees Eq (c.argument pos limit) (Parse.argument c.template toks bound) := by
  rw [argument, Parse.argument]
  refine hvalue.bind fun _ _ _ hends => ?_
  cases hends with
  | @mk v n _ =>
      dsimp only
      cases hdrop : toks.drop n with
      | nil =>
          rw [if_neg (Nat.not_lt.mpr (h.of_drop_nil hdrop))]
          exact .ok rfl
      | cons t rest =>
          obtain ⟨hlt, hrest⟩ := h.of_drop_cons hdrop
          rw [if_pos hlt, hrest.head, ok_bind]
          exact .refuse (by rintro ⟨⟩) t

theorem condition_agrees (hvalues : ValuesAgree c toks.length) (h : Window c pos limit toks bound)
    (hcomma : bound.kind = .comma) :
    Agrees Eq (c.condition pos limit) (Parse.condition c.template toks bound) := by
  have hboundary : IsBoundary bound := by simp [IsBoundary, hcomma]
  have hbounds (part : List Token) : Bounds bound part := fun hkind => by simp [hcomma] at hkind
  have hvalue := hvalues pos limit toks bound (Nat.le_refl _) h hboundary (hbounds toks)
  generalize hleft : Parse.value c.template toks bound = found at hvalue
  generalize hleft' : c.value pos limit = found' at hvalue
  cases hvalue with
  | @refused e hcause =>
      rw [condition, hleft', Parse.condition, hleft]
      exact .refused hcause
  | ok hends =>
      cases hends with
      | @mk left n _ =>
          rw [condition, hleft', ok_bind]
          dsimp only
          cases hdrop : toks.drop n with
          | nil =>
              rw [if_pos (h.of_drop_nil hdrop), condition_of_end hleft hdrop]
              exact .ok rfl
          | cons sign rest =>
              obtain ⟨hlt, hrest⟩ := h.of_drop_cons hdrop
              rw [if_neg (Nat.not_le.mpr hlt), hrest.head, ok_bind, condition_of_sign hleft hdrop]
              cases sign.kind.comparator? with
              | none => exact .refuse (by rintro ⟨⟩) sign
              | some op =>
                  have hlength : rest.length ≤ toks.length := by
                    have := congrArg List.length hdrop
                    rw [List.length_drop, List.length_cons] at this
                    omega
                  have hright := argument_agrees hrest.tail
                    (hvalues _ _ rest bound hlength hrest.tail hboundary (hbounds rest))
                  refine hright.bind fun right _ _ hsame => ?_
                  subst hsame
                  rw [span_eq, ok_bind]
                  exact .ok rfl

/-- The arguments of `IF` between its parentheses, read from lists. -/
def chosen (template : Bytes) (word close : Token) (args : List Token) :
    Except SyntaxError (Expr × Nat) :=
  match atCommas 0 args with
  | ([(test, comma), (yes, comma')], no) => do
      let cond <- Parse.condition template test comma
      let yes <- Parse.argument template yes comma'
      let no <- Parse.argument template no close
      .ok (.choose (Parse.between template word close) cond yes no, args.length + 3)
  | (_ :: _ :: (_, extra) :: more, _) => failAt extra (.argumentCount (more.length + 4))
  | (parts, _) => failAt close (.argumentCount (parts.length + 1))

theorem choice_eq_chosen (template : Bytes) (word bound : Token) {opening : Token}
    (hopening : opening.kind = .openParen) (inside : List Token) :
    Parse.choice template word (opening :: inside) bound =
      match closing? 0 inside with
      | none => failAt opening .unclosedIf
      | some (args, close, _) => chosen template word close args := by
  rw [choice_open template word bound hopening]
  cases closing? 0 inside <;> rfl

theorem chosen_two {template : Bytes} {word close comma comma' : Token}
    {args tests yess nos : List Token}
    (hparts : atCommas 0 args = ([(tests, comma), (yess, comma')], nos)) :
    chosen template word close args = (do
      let test <- Parse.condition template tests comma
      let yes <- Parse.argument template yess comma'
      let no <- Parse.argument template nos close
      .ok (.choose (Parse.between template word close) test yes no, args.length + 3)) := by
  rw [chosen, hparts]

section Arguments

variable {args : List Token} {close : Token}

/-- Two commas part the tokens before a parenthesis into a condition and two arguments. -/
theorem arguments_two (hvalues : ValuesAgree c args.length) (h : Window c pos limit args close)
    (hclose : close.kind = .closeParen) (hdepth : depth args = 0)
    {tests yess nos : List Token} {comma comma' : Token}
    (hparts : atCommas 0 args = ([(tests, comma), (yess, comma')], nos)) :
    Agrees Eq (c.condition pos (pos + tests.length)) (Parse.condition c.template tests comma) ∧
      Agrees Eq
        (c.argument (pos + tests.length + 1) (pos + tests.length + 1 + yess.length))
        (Parse.argument c.template yess comma') ∧
      Agrees Eq (c.argument (pos + tests.length + 1 + yess.length + 1) limit)
        (Parse.argument c.template nos close) := by
  obtain ⟨rfl, hcomma, hcomma', -, -, hnos⟩ := atCommas_two hparts hdepth
  rw [List.append_assoc] at h
  simp only [List.length_append, List.length_cons] at hvalues
  have hyess := h.skip.tail
  have hlast := hyess.skip.tail
  refine ⟨condition_agrees (hvalues.mono (by omega)) h.upTo hcomma, argument_agrees hyess.upTo ?_,
    argument_agrees hlast ?_⟩
  · exact hvalues _ _ yess comma' (by omega) hyess.upTo (by simp [IsBoundary, hcomma'])
      fun hkind => by simp [hcomma'] at hkind
  · exact hvalues _ _ nos close (by omega) hlast (by simp [IsBoundary, hclose]) fun _ => hnos

/-- A third comma is found where it parts the tokens. -/
theorem Window.read_third (h : Window c pos limit args close) {tests yess run nos : List Token}
    {comma comma' extra : Token} {more : List (List Token × Token)}
    (hparts : atCommas 0 args = ((tests, comma) :: (yess, comma') :: (run, extra) :: more, nos)) :
    c.read (pos + tests.length + 1 + yess.length + 1 + run.length) = .ok extra := by
  have hjoined := joined_atCommas 0 args
  rw [hparts] at hjoined
  simp only [← hjoined, Parts.joined, List.flatMap_cons, List.append_assoc, List.cons_append,
    List.nil_append] at h
  exact h.skip.tail.skip.tail.read

theorem arguments_agree (hvalues : ValuesAgree c args.length)
    (h : Window c (pos + 2) limit args close) (hread : c.read limit = .ok close)
    (hclose : close.kind = .closeParen) (hdepth : depth args = 0) (word : Token) :
    Agrees (fun a b => a = (b.1, pos + b.2)) (c.arguments word (pos + 2) limit)
      (chosen c.template word close args) := by
  obtain ⟨marked, hmarked, hmarks⟩ := commas_eq h.stretch 0
  rw [arguments, hmarked, ok_bind]
  rcases hparts : atCommas 0 args with
    ⟨_ | ⟨⟨tests, comma⟩, _ | ⟨⟨yess, comma'⟩, _ | ⟨⟨run, extra⟩, more⟩⟩⟩, nos⟩
  · rw [hparts] at hmarks
    obtain rfl := List.map_eq_nil_iff.mp hmarks
    rw [chosen, hparts, hread]
    exact .refuse (by rintro ⟨⟩) close
  · rw [hparts] at hmarks
    obtain ⟨_, rfl, -⟩ := List.map_eq_singleton_iff.mp hmarks
    rw [chosen, hparts, hread]
    exact .refuse (by rintro ⟨⟩) close
  · rw [hparts] at hmarks
    obtain ⟨⟨_, hmark⟩, _, rfl, rfl, hrest⟩ := List.map_eq_cons_iff.mp hmarks
    obtain ⟨⟨_, hmark'⟩, rfl, rfl⟩ := List.map_eq_singleton_iff.mp hrest
    obtain ⟨htest, hyes, hno⟩ := arguments_two hvalues h hclose hdepth hparts
    rw [chosen_two hparts]
    refine htest.bind fun test _ _ hsame => ?_
    subst hsame
    refine hyes.bind fun yes _ _ hsame => ?_
    subst hsame
    refine hno.bind fun no _ _ hsame => ?_
    subst hsame
    have hlimit := h.limit_eq
    rw [hread, ok_bind, between_eq, ok_bind]
    exact .ok (congrArg (Prod.mk _) (by omega))
  · rw [hparts] at hmarks
    obtain ⟨_, _, rfl, -, hrest⟩ := List.map_eq_cons_iff.mp hmarks
    obtain ⟨_, _, rfl, -, hthird⟩ := List.map_eq_cons_iff.mp hrest
    obtain ⟨⟨_, hmark⟩, marked, rfl, rfl, hmore⟩ := List.map_eq_cons_iff.mp hthird
    have hcount : marked.length = more.length := by
      rw [← List.length_map Fin.val, hmore, length_marks]
    dsimp only
    rw [chosen, hparts, h.read_third hparts, ok_bind, hcount]
    exact .refuse (by rintro ⟨⟩) extra

end Arguments

theorem choice_agrees (hvalues : ValuesAgree c toks.length) (hword : word.kind = .ifWord)
    (h : Window c pos limit (word :: toks) bound) (hboundary : IsBoundary bound) :
    Agrees (Ends pos limit) (c.choice pos limit) (Parse.choice c.template word toks bound) := by
  rw [choice]
  refine .within ?_ fun e n hchoice => ?_
  · rw [h.head, ok_bind, h.expect]
    cases toks with
    | nil =>
        have hkind : bound.kind ≠ .openParen := by
          intro hkind
          simp [IsBoundary, hkind] at hboundary
        have hat : tokenAt [word] bound 1 = bound := rfl
        rw [Parse.choice, if_neg hkind, hat, if_pos hkind]
        exact .refuse (by rintro ⟨⟩) bound
    | cons opening inside =>
        have hat : tokenAt (word :: opening :: inside) bound 1 = opening := rfl
        rw [hat]
        by_cases hopening : opening.kind = .openParen
        · have hinside : Window c (pos + 2) limit inside bound := h.tail.tail
          obtain ⟨found, hfound, hmatch⟩ := matchParen_eq hinside.stretch 0
          rw [if_neg (not_not.mpr hopening), ok_bind, hfound, ok_bind,
            choice_eq_chosen c.template word bound hopening]
          cases hclosing : closing? 0 inside with
          | none =>
              rw [hclosing, Option.map_none, Option.map_eq_none_iff] at hmatch
              subst hmatch
              exact .refuse (by rintro ⟨⟩) opening
          | some part =>
              obtain ⟨args, close, after⟩ := part
              rw [hclosing, Option.map_some, Option.map_eq_some_iff] at hmatch
              obtain ⟨⟨_, hplace⟩, rfl, rfl⟩ := hmatch
              obtain ⟨rfl, hclose, hdepth⟩ := closing?_split hclosing
              have hsize : args.length ≤ (opening :: (args ++ close :: after)).length := by
                simp only [List.length_cons, List.length_append]
                omega
              -- the arguments are in balance, so none of them takes the closing parenthesis
              exact arguments_agree (hvalues.mono hsize) hinside.upTo hinside.read hclose
                (by simpa using hdepth) word
        · rw [if_pos hopening, Parse.choice, if_pos hopening]
          exact .refuse (by rintro ⟨⟩) opening
  · have hsound := fun (part : List Token) (_ : part.length ≤ toks.length) =>
      value_sound c.template part
    obtain ⟨first, rest, heq, rfl, -⟩ := choice_sound hword hsound hchoice
    have hlimit := h.limit_eq
    rw [heq, List.length_append] at hlimit
    omega

/-- A value is read alike if the values of shorter windows are. -/
theorem value_agrees (hvalues : ∀ size < toks.length, ValuesAgree c size)
    (h : Window c pos limit toks bound) (hboundary : IsBoundary bound)
    (hbounds : Bounds bound toks) :
    Agrees (Ends pos limit) (c.value pos limit) (Parse.value c.template toks bound) := by
  rw [value]
  refine .within ?_ fun e n hvalue => ?_
  · cases toks with
    | nil =>
        have hlook : c.look pos limit = .ok bound := h.look 0
        have hlimit : limit = pos := h.limit_eq
        rw [hlook, ok_bind, Parse.value, if_pos (Nat.le_of_eq hlimit)]
        have hrefuse : Agrees (fun a b : Expr × Nat => a = (b.1, pos + b.2))
            (refuse bound (.noValue bound)) (failAt bound (.noValue bound)) :=
          .refuse (by rintro ⟨⟩) bound
        simp only [IsBoundary, List.mem_cons, List.not_mem_nil, or_false] at hboundary
        rcases hboundary with hkind | hkind | hkind
        all_goals
          rw [hkind]
          exact hrefuse
    | cons t rest =>
        have hlook : c.look pos limit = .ok t := h.look 0
        have hlimit := h.limit_eq
        rw [hlook, ok_bind, Parse.value]
        cases hkind : t.kind with
        | string =>
            rw [quoted_eq, ok_bind]
            exact .ok rfl
        | number =>
            cases Numeral.read? t.lexeme with
            | none => exact .refuse (by rintro ⟨⟩) t
            | some x =>
                dsimp only
                rw [between_eq, ok_bind]
                exact .ok rfl
        | trueWord =>
            dsimp only
            rw [between_eq, ok_bind]
            exact .ok rfl
        | falseWord =>
            dsimp only
            rw [between_eq, ok_bind]
            exact .ok rfl
        | getWord =>
            refine (getCall_agrees h fun call n hcall => ?_).bind fun _ _ _ hends => ?_
            · obtain ⟨first, after, heq, rfl, -⟩ := getCall_sound hkind hbounds hcall
              rw [heq, List.length_append]
              omega
            · cases hends
              exact .ok rfl
        | lengthWord => exact (lengthCall_agrees h hkind hbounds).unbounded
        | ifWord =>
            exact (choice_agrees (hvalues _ (Nat.lt_succ_self _)) hkind h hboundary).unbounded
        | _ =>
            dsimp only
            rw [if_neg (by rw [hlimit, List.length_cons]; omega)]
            exact .refuse (by rintro ⟨⟩) t
  · -- what is accepted is a phrase of the grammar, and all its tokens are before the limit
    obtain ⟨first, rest, rfl, rfl, -⟩ := value_sound c.template toks bound e n hbounds hvalue
    rw [h.limit_eq, List.length_append]
    omega

theorem valuesAgree (c : Cursor) (size : Nat) : ValuesAgree c size := by
  induction size using Nat.strong_induction_on with
  | _ size ih =>
      intro pos limit toks bound hsize h hboundary hbounds
      exact value_agrees (fun n hn => ih n (by omega)) h hboundary hbounds

end Values

/-! ## Segments -/

theorem find_eq {i limit : Nat} {toks : List Token} (h : c.toks.drop i = toks)
    (hlimit : limit = i + toks.length) :
    ∃ found, c.find .closeBrace i limit = .ok found ∧
      found.map Subtype.val = (braced? toks).map fun part => i + part.1.length := by
  induction toks generalizing i with
  | nil => exact ⟨none, by rw [find, if_neg (by simp [hlimit])], rfl⟩
  | cons t rest ih =>
      rw [List.length_cons] at hlimit
      have hread : c.read i = .ok t := @read_of_drop c i [] rest t h
      rw [find, if_pos (by omega), hread, ok_bind, braced?]
      by_cases hkind : t.kind = .closeBrace
      · rw [if_pos hkind, if_pos hkind]
        exact ⟨_, rfl, rfl⟩
      · have hrest : c.toks.drop (i + 1) = rest := by rw [← List.drop_drop, h]; rfl
        obtain ⟨found, hfound, heq⟩ := ih hrest (by omega)
        rw [if_neg hkind, if_neg hkind, hfound, ok_bind]
        refine ⟨_, rfl, ?_⟩
        have hsame (found : Option {j : Nat // i + 1 ≤ j}) :
            (found.map fun j => (⟨j.1, Nat.le_of_succ_le j.2⟩ : {j : Nat // i ≤ j})).map
              Subtype.val = found.map Subtype.val := by
          cases found <;> rfl
        rw [hsame, heq]
        cases braced? rest with
        | none => rfl
        | some part => simp [Nat.add_assoc, Nat.add_comm 1]

/-- The end behind the tokens is no brace. -/
theorem braced?_concat (toks : List Token) {eof : Token} (h : eof.kind = .eof) :
    braced? (toks ++ [eof]) =
      (braced? toks).map fun part => (part.1, part.2.1, part.2.2 ++ [eof]) := by
  induction toks with
  | nil => simp [braced?, h]
  | cons t rest ih =>
      rw [List.cons_append, braced?, braced?, ih]
      split
      · rfl
      · cases braced? rest <;> rfl

section Segments

variable {pos limit : Nat} {toks : List Token} {opening eof : Token}

structure Body (c : Cursor) (pos limit : Nat) (toks : List Token) (eof : Token) : Prop where
  limit_eq : limit = pos + toks.length
  drop_eq : c.toks.drop pos = toks ++ [eof]
  eof_kind : eof.kind = .eof

theorem Body.window (h : Body c pos limit toks eof) : Window c pos limit toks eof :=
  ⟨h.limit_eq, [], h.drop_eq⟩

theorem Body.length_eq (h : Body c pos limit toks eof) : c.toks.length = limit + 1 := by
  have hlength := congrArg List.length h.drop_eq
  have hlimit := h.limit_eq
  rw [List.length_drop, List.length_append, List.length_singleton] at hlength
  omega

theorem Body.skip {first rest : List Token} (h : Body c pos limit (first ++ rest) eof) :
    Body c (pos + first.length) limit rest eof := by
  obtain ⟨hlimit, hdrop, hkind⟩ := h
  refine ⟨?_, ?_, hkind⟩
  · rw [hlimit, List.length_append, Nat.add_assoc]
  · rw [← List.drop_drop, hdrop, List.append_assoc, List.drop_left]

theorem Body.tail {t : Token} (h : Body c pos limit (t :: toks) eof) :
    Body c (pos + 1) limit toks eof := by
  rw [← List.singleton_append] at h
  exact h.skip

theorem Body.find_eq (h : Body c pos limit (opening :: toks) eof) :
    ∃ found, c.find .closeBrace (pos + 1) c.toks.length = .ok found ∧
      found.map Subtype.val = (braced? toks).map fun part => pos + 1 + part.1.length := by
  have hrest : c.toks.drop (pos + 1) = toks ++ [eof] := by
    rw [← List.drop_drop, h.drop_eq]
    rfl
  have hlength : c.toks.length = pos + 1 + (toks ++ [eof]).length := by
    rw [h.length_eq, h.limit_eq, List.length_append, List.length_cons, List.length_singleton]
    omega
  obtain ⟨found, hfound, heq⟩ := Cursor.find_eq hrest hlength
  rw [braced?_concat toks h.eof_kind, Option.map_map] at heq
  exact ⟨found, hfound, heq⟩

theorem formula_unclosed (h : Body c pos limit (opening :: toks) eof)
    (hbraced : braced? toks = none) : c.formula pos = refuse opening .missingBrace := by
  obtain ⟨found, hfound, heq⟩ := h.find_eq
  rw [hbraced, Option.map_none, Option.map_eq_none_iff] at heq
  subst heq
  rw [formula, h.window.head, ok_bind, hfound, ok_bind]

theorem formula_agrees {inner after : List Token} {close : Token}
    (h : Body c pos limit (opening :: toks) eof)
    (hbraced : braced? toks = some (inner, close, after)) :
    Agrees
      (fun a v => a.1 = .formula (Parse.between c.template opening close) v ∧
        a.2.1 = pos + 1 + inner.length + 1)
      (c.formula pos) (formulaValue c.template inner close) := by
  obtain ⟨found, hfound, heq⟩ := h.find_eq
  rw [hbraced, Option.map_some, Option.map_eq_some_iff] at heq
  obtain ⟨⟨_, hplace⟩, rfl, rfl⟩ := heq
  obtain ⟨rfl, hclose⟩ := braced?_split hbraced
  have hrest := h.window.tail
  rw [formula, h.window.head, ok_bind, hfound, ok_bind]
  dsimp only
  rw [hrest.read, ok_bind, between_eq, ok_bind]
  cases inner with
  | nil =>
      rw [if_neg (by simp)]
      exact .ok ⟨rfl, rfl⟩
  | cons t inner =>
      have hboundary : IsBoundary close := by simp [IsBoundary, hclose]
      have hbounds : Bounds close (t :: inner) := fun hkind => by simp [hclose] at hkind
      have hvalue := valuesAgree c _ _ _ (t :: inner) close (Nat.le_refl _) hrest.upTo hboundary
        hbounds
      rw [if_pos (by simp), formulaValue, if_neg (by simp)]
      refine hvalue.bind fun _ _ _ hends => ?_
      cases hends with
      | @mk v n _ =>
          dsimp only
          cases hdrop : (t :: inner).drop n with
          | nil =>
              rw [if_neg (Nat.not_lt.mpr (hrest.upTo.of_drop_nil hdrop))]
              exact .ok ⟨rfl, rfl⟩
          | cons u left =>
              obtain ⟨hlt, hleft⟩ := hrest.upTo.of_drop_cons hdrop
              rw [if_pos hlt, hleft.head, ok_bind]
              dsimp only
              split
              · exact .refuse (by rintro ⟨⟩) u
              · exact .refuse (by rintro ⟨⟩) u

/-- The segments of a body are read up to its limit. -/
theorem segments_agree (h : Body c pos limit toks eof) :
    Agrees (fun a b => a = (b.1, limit) ∧ b.2 = []) (c.segments pos limit)
      (Parse.segments c.template toks) := by
  induction hsize : toks.length using Nat.strong_induction_on generalizing pos toks with
  | _ size ih =>
      have hlimit := h.limit_eq
      cases toks with
      | nil =>
          rw [List.length_nil, Nat.add_zero] at hlimit
          rw [segments, if_neg (by omega), Parse.segments, hlimit]
          exact .ok ⟨rfl, rfl⟩
      | cons t rest =>
          rw [List.length_cons] at hlimit hsize
          rw [segments, if_pos (by omega), h.window.head, ok_bind]
          cases hkind : t.kind with
          | string =>
              rw [segments_text c.template hkind]
              dsimp only
              rw [between_eq, ok_bind]
              refine (ih rest.length (by omega) h.tail rfl).bind fun _ _ _ hsame => ?_
              obtain ⟨rfl, hleft⟩ := hsame
              exact .ok ⟨rfl, hleft⟩
          | openFormula =>
              cases hbraced : braced? rest with
              | none =>
                  dsimp only
                  rw [formula_unclosed h hbraced, segments_unclosed c.template hkind hbraced]
                  exact .refuse (by rintro ⟨⟩) t
              | some part =>
                  obtain ⟨inner, close, after⟩ := part
                  rw [segments_braced c.template hkind hbraced]
                  refine (formula_agrees h hbraced).bind fun a v _ hformula => ?_
                  obtain ⟨segment, next, hnext⟩ := a
                  obtain ⟨rfl, rfl⟩ := hformula
                  have hshorter := length_braced? hbraced
                  obtain ⟨rfl, -⟩ := braced?_split hbraced
                  refine (ih after.length (by omega) h.tail.skip.tail rfl).bind
                    fun _ _ _ hsame => ?_
                  obtain ⟨rfl, hleft⟩ := hsame
                  exact .ok ⟨rfl, hleft⟩
          | _ =>
              rw [Parse.segments]
              simp only [hkind]
              exact .refuse (by rintro ⟨⟩) t

theorem body_agrees {last : Nat} {first : Token} {rest : List Token}
    (h : Body c 0 (last + 1) (first :: rest) eof) :
    Agrees (fun a b => b = some a.1 ∧ a.2 = last + 1) (c.body (last + 1))
      (Parse.body c.template (first :: rest) eof) := by
  have hlast : c.read last = .ok ((first :: rest).getLastD first) := by
    have hlength := h.limit_eq
    have hsplit := h.window
    rw [← List.dropLast_append_getLast (List.cons_ne_nil first rest)] at hsplit
    have hindex : 0 + ((first :: rest).length - 1) = last := by omega
    have hread := hsplit.read
    rw [List.length_dropLast, hindex] at hread
    exact hread
  rw [body, Parse.body, h.window.head, ok_bind, hlast, ok_bind, between_eq, ok_bind]
  refine (segments_agree h).bind fun _ _ _ hsame => ?_
  obtain ⟨rfl, hleft⟩ := hsame
  dsimp only
  rw [hleft, if_pos List.isEmpty_nil]
  exact .ok ⟨rfl, rfl⟩

/-- The whole run answers as the parser on lists does, at the position behind the last token. -/
theorem sourceFile_agrees (c : Cursor) :
    Agrees (fun a file => a = (file, c.toks.length)) c.sourceFile
      (Parse.sourceFile c.template c.toks) := by
  rcases List.eq_nil_or_concat' c.toks with hnil | ⟨front, eof, hconcat⟩
  · rw [sourceFile, Parse.sourceFile, hnil]
    exact .refused (by rintro ⟨⟩)
  · have hlength : c.toks.length = front.length + 1 := by
      rw [hconcat, List.length_append, List.length_singleton]
    have hwindow : Window c 0 front.length front eof :=
      ⟨(Nat.zero_add _).symm, [], hconcat⟩
    have heof : c.read front.length = .ok eof := by
      have hread := @read_of_drop c 0 front [] eof hconcat
      rwa [Nat.zero_add] at hread
    unfold sourceFile Parse.sourceFile
    rw [hlength, hconcat, List.getLast?_concat, List.dropLast_concat]
    dsimp only
    rw [heof, ok_bind]
    by_cases hkind : eof.kind = .eof
    · rw [if_neg (not_not.mpr hkind), if_neg (not_not.mpr hkind)]
      cases front with
      | nil =>
          have hfirst : c.read 0 = .ok eof := heof
          rw [hfirst, ok_bind, between_eq, ok_bind, if_neg (by simp), ok_bind]
          dsimp only
          rw [if_neg (by simp), ok_bind]
          exact .ok rfl
      | cons first rest =>
          have hbody : Body c 0 (rest.length + 1) (first :: rest) eof :=
            ⟨(Nat.zero_add _).symm, hconcat, hkind⟩
          rw [hwindow.head, ok_bind, between_eq, ok_bind, if_pos (by simp)]
          refine (body_agrees hbody).bind fun answer _ _ hsame => ?_
          obtain ⟨rfl, hnext : answer.2 = (first :: rest).length⟩ := hsame
          rw [ok_bind]
          dsimp only
          rw [if_neg (not_not.mpr hnext), between_eq, ok_bind, hnext]
          exact .ok rfl
    · rw [if_pos hkind, if_pos hkind]
      exact .refused (by rintro ⟨⟩)

end Segments

end Cursor

def parseByPosition (template : Bytes) (toks : List Token) : Checked (SourceFile × Nat) :=
  Cursor.sourceFile ⟨template, significant toks⟩

/--
On any tokens the parser by positions ends in one of two ways, and with the answer
of the parser: with its tree, at the position behind the last token, which is the
end, or with its syntax error, which is never that tokens are left.
-/
theorem positions_stay_in_bounds (template : Bytes) (toks : List Token) :
    (∃ file, parse template toks = .ok file ∧
      parseByPosition template toks = .ok (file, (significant toks).length) ∧
      (significant toks).getLast?.map Token.kind = some .eof) ∨
    ∃ e, parse template toks = .error e ∧ parseByPosition template toks = .error (.refused e) ∧
      e.cause ≠ .tokensLeft ∧ e.toFault.kinds = [.grammar] := by
  have hagrees := Cursor.sourceFile_agrees ⟨template, significant toks⟩
  change Cursor.Agrees _ (parseByPosition template toks) (parse template toks) at hagrees
  generalize hrun : parseByPosition template toks = run at hagrees
  generalize hparse : parse template toks = found at hagrees
  cases hagrees with
  | @refused e hcause => exact .inr ⟨e, rfl, rfl, hcause, rfl⟩
  | @ok answer file hsame =>
      subst hsame
      have hderived := parse_eq_ok_iff.mp hparse
      refine .inl ⟨file, rfl, rfl, ?_⟩
      generalize significant toks = all at hderived
      cases hderived with
      | mk hbody heof => rw [List.getLast?_concat, Option.map_some, heof]

end Backtick
