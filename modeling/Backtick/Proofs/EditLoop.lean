import Mathlib
import Backtick.Proofs.Outcome
import Backtick.Proofs.Persistence
import Backtick.Session.Editor

/-!
# The answers in the edit loop

As long as the text in the editor cannot be loaded, the user is asked whether to edit again.
Each prompt reads its answer as the first line of what is left of the input, and loses what
has arrived behind that line in the same read. So the prompts are answered by the lines of the
input in turn exactly if the lines, but for the last one, arrive in reads of their own. Then
every answer counts.
-/

namespace Backtick

/-! ## The first line of a text -/

namespace Bytes

theorem cut?_of_not_mem {sep : UInt8} {text : Bytes} (h : sep ∉ text) : cut? sep text = none := by
  induction text with
  | nil => rfl
  | cons b text ih =>
      rw [List.mem_cons, not_or] at h
      rw [cut?, if_neg (Ne.symm h.1), ih h.2]
      rfl

theorem cut?_append {sep : UInt8} {line : Bytes} (h : sep ∉ line) (rest : Bytes) :
    cut? sep (line ++ sep :: rest) = some (line, rest) := by
  induction line with
  | nil => exact if_pos rfl
  | cons b line ih =>
      rw [List.mem_cons, not_or] at h
      rw [List.cons_append, cut?, if_neg (Ne.symm h.1), ih h.2]
      rfl

/-- A text is divided in one way only at the first occurrence of a byte. -/
theorem append_cons_inj {sep : UInt8} {first second rest rest' : Bytes} (hfirst : sep ∉ first)
    (hsecond : sep ∉ second) (h : first ++ sep :: rest = second ++ sep :: rest') :
    first = second ∧ rest = rest' := by
  have hcut := congrArg (cut? sep) h
  rw [cut?_append hfirst, cut?_append hsecond] at hcut
  exact Prod.mk.inj (Option.some.inj hcut)

end Bytes

namespace InputStream

/-! ## What a prompt reads -/

/--
A line is read from a stream in some reads, the last of which begins with the end of the line;
what it has behind that is lost.
-/
structure Draws (stream : InputStream) (reads : InputStream) (ending lost : Bytes)
    (rest : InputStream) : Prop where
  stream_eq : stream = reads ++ (ending ++ '\n'.toUInt8 :: lost) :: rest
  single : '\n'.toUInt8 ∉ reads.flatten ++ ending

section Draws

variable {stream reads rest : InputStream} {ending lost : Bytes}

theorem exists_draws (h : '\n'.toUInt8 ∈ stream.flatten) :
    ∃ reads ending lost rest, Draws stream reads ending lost rest := by
  induction stream with
  | nil => cases h
  | cons chunk stream ih =>
      by_cases hchunk : '\n'.toUInt8 ∈ chunk
      · obtain ⟨ending, lost, rfl, hending⟩ := List.eq_append_cons_of_mem hchunk
        exact ⟨[], ending, lost, stream, rfl, hending⟩
      · have hstream : '\n'.toUInt8 ∈ stream.flatten :=
          (List.mem_append.mp (List.flatten_cons ▸ h)).resolve_left hchunk
        obtain ⟨reads, ending, lost, rest, rfl, hsingle⟩ := ih hstream
        refine ⟨chunk :: reads, ending, lost, rest, rfl, ?_⟩
        rw [List.flatten_cons, List.append_assoc, List.mem_append, not_or]
        exact ⟨hchunk, hsingle⟩

theorem Draws.flatten_eq (h : Draws stream reads ending lost rest) :
    stream.flatten = (reads.flatten ++ ending) ++ '\n'.toUInt8 :: (lost ++ rest.flatten) := by
  rw [h.stream_eq]
  simp

theorem Draws.lines_eq (h : Draws stream reads ending lost rest) :
    Text.lines stream.flatten =
      (reads.flatten ++ ending) :: Text.lines (lost ++ rest.flatten) := by
  rw [h.flatten_eq, Text.lines_append h.single]

/-- Reads without a line feed are put together. -/
theorem lineFrom?_append (before : Bytes) (reads stream : InputStream)
    (h : '\n'.toUInt8 ∉ before ++ reads.flatten) :
    lineFrom? before (reads ++ stream) = lineFrom? (before ++ reads.flatten) stream := by
  induction reads generalizing before with
  | nil => rw [List.nil_append, List.flatten_nil, List.append_nil]
  | cons chunk reads ih =>
      rw [List.flatten_cons, ← List.append_assoc] at h ⊢
      have hchunk : '\n'.toUInt8 ∉ before ++ chunk :=
        fun hmem => h (List.mem_append_left _ hmem)
      rw [List.cons_append, lineFrom?, Bytes.cut?_of_not_mem hchunk]
      exact ih (before ++ chunk) h

theorem Draws.line?_eq (h : Draws stream reads ending lost rest)
    (hshort : (reads.flatten ++ ending).length < Text.lineLimit) :
    stream.line? = some (reads.flatten ++ ending, rest) := by
  have hreads : '\n'.toUInt8 ∉ [] ++ reads.flatten :=
    fun hmem => h.single (List.mem_append_left _ hmem)
  have hfrom : lineFrom? [] stream = some (reads.flatten ++ ending, rest) := by
    rw [h.stream_eq, lineFrom?_append _ _ _ hreads, List.nil_append, lineFrom?, ← List.append_assoc,
      Bytes.cut?_append h.single]
  rw [line?, hfrom]
  exact if_pos hshort

/-- The last line need not be ended. -/
theorem line?_of_not_mem (h : '\n'.toUInt8 ∉ stream.flatten) (hne : stream.flatten ≠ [])
    (hshort : stream.flatten.length < Text.lineLimit) :
    stream.line? = some (stream.flatten, []) := by
  have hfrom : lineFrom? [] stream = some (stream.flatten, []) := by
    have happend := lineFrom?_append [] stream [] h
    rw [List.append_nil, List.nil_append] at happend
    rw [happend, lineFrom?, if_neg (by simpa using hne)]
  rw [line?, hfrom]
  exact if_pos hshort

theorem line?_of_flatten_eq_nil (h : stream.flatten = []) : stream.line? = none := by
  have hfrom : lineFrom? [] stream = none := by
    have happend := lineFrom?_append [] stream [] (by simp [h])
    rw [List.append_nil, List.nil_append, h] at happend
    exact happend
  rw [line?, hfrom]

end Draws

/-! ## What prompts read one after another -/

/-- The answers that so many prompts hear, up to one that hears none. -/
def heard : Nat -> InputStream -> List Bytes
  | 0, _ => []
  | n + 1, stream =>
      match stream.line? with
      | none => []
      | some (answer, rest) => answer :: heard n rest

def left : Nat -> InputStream -> InputStream
  | 0, stream => stream
  | n + 1, stream =>
      match stream.line? with
      | none => []
      | some (_, rest) => left n rest

def behindLines : Nat -> Bytes -> Bytes
  | 0, text => text
  | n + 1, text =>
      match Bytes.cut? '\n'.toUInt8 text with
      | none => []
      | some (_, rest) => behindLines n rest

/-- So many prompts each begin to read where the line of their number begins. -/
def InTurn (n : Nat) (stream : InputStream) : Prop :=
  ∀ j < n, (left j stream).flatten = behindLines j stream.flatten

/-- So many lines at the start of a stream arrive in reads of their own. -/
inductive Separately : Nat -> InputStream -> Prop
  | nothing {stream : InputStream} : Separately 0 stream
  | line {n : Nat} {reads rest : InputStream} {line : Bytes} (single : '\n'.toUInt8 ∉ line)
      (text : reads.flatten = line ++ ['\n'.toUInt8]) (others : Separately n rest) :
      Separately (n + 1) (reads ++ rest)

section Prompts

variable {stream reads rest : InputStream} {ending lost : Bytes} {n : Nat}

theorem inTurn_one (stream : InputStream) : InTurn 1 stream := by
  intro j hj
  obtain rfl : j = 0 := Nat.lt_one_iff.mp hj
  rfl

/-- A further prompt reads in turn if nothing is lost behind the first line. -/
theorem Draws.inTurn_iff (h : Draws stream reads ending lost rest)
    (hshort : (reads.flatten ++ ending).length < Text.lineLimit) :
    InTurn (n + 2) stream ↔ lost = [] ∧ InTurn (n + 1) rest := by
  have hleft : ∀ j, left (j + 1) stream = left j rest := fun j => by
    rw [left, h.line?_eq hshort]
  have hbehind : ∀ j, behindLines (j + 1) stream.flatten =
      behindLines j (lost ++ rest.flatten) := fun j => by
    rw [h.flatten_eq, behindLines, Bytes.cut?_append h.single]
  constructor
  · intro hturn
    have hlost : lost = [] := by
      have hfirst := hturn 1 (Nat.succ_lt_succ (Nat.zero_lt_succ n))
      rw [hleft, hbehind] at hfirst
      exact List.append_left_eq_self.mp hfirst.symm
    refine ⟨hlost, fun j hj => ?_⟩
    have hnext := hturn (j + 1) (Nat.succ_lt_succ hj)
    rwa [hleft, hbehind, hlost, List.nil_append] at hnext
  · rintro ⟨rfl, hturn⟩ (_ | j) hj
    · rfl
    · rw [hleft, hbehind, List.nil_append]
      exact hturn j (Nat.lt_of_succ_lt_succ hj)

/-- Empty reads may come before a line. -/
theorem Separately.append_left {empty : InputStream} (hempty : empty.flatten = [])
    (h : Separately n stream) : Separately n (empty ++ stream) := by
  cases h with
  | nothing => exact .nothing
  | line single text others =>
      rw [← List.append_assoc]
      exact .line single (by rw [List.flatten_append, hempty, List.nil_append, text]) others

/-- The reads of an ended line reach at least as far as the first line feed. -/
theorem Draws.exists_extra (h : Draws stream reads ending lost rest) {reads' rest' : InputStream}
    (hstream : stream = reads' ++ rest') (hmem : '\n'.toUInt8 ∈ reads'.flatten) :
    ∃ extra, reads' = reads ++ (ending ++ '\n'.toUInt8 :: lost) :: extra ∧
      rest = extra ++ rest' := by
  have hearlier : '\n'.toUInt8 ∉ reads.flatten := fun hmem => h.single (List.mem_append_left _ hmem)
  rcases List.append_eq_append_iff.mp (h.stream_eq.symm.trans hstream) with
    ⟨extra, hreads, hrest⟩ | ⟨extra, hreads, -⟩
  · cases extra with
    | nil =>
        rw [hreads, List.append_nil] at hmem
        exact absurd hmem hearlier
    | cons chunk extra =>
        obtain ⟨rfl, rfl⟩ := List.cons.inj hrest
        exact ⟨extra, hreads, rfl⟩
  · rw [hreads, List.flatten_append] at hearlier
    exact absurd (List.mem_append_left _ hmem) hearlier

/-- The first line arrives in reads of its own if nothing is lost behind it. -/
theorem Draws.separately_iff (h : Draws stream reads ending lost rest) :
    Separately (n + 1) stream ↔ lost = [] ∧ Separately n rest := by
  constructor
  · intro hseparate
    generalize hstream : stream = whole at hseparate
    cases hseparate with
    | @line _ reads' rest' line single text others =>
        obtain ⟨extra, rfl, rfl⟩ := h.exists_extra hstream (by rw [text]; simp)
        have hline : (reads.flatten ++ ending) ++ '\n'.toUInt8 :: (lost ++ extra.flatten) =
            line ++ ['\n'.toUInt8] := by
          rw [← text]
          simp
        have hempty := List.append_eq_nil_iff.mp (Bytes.append_cons_inj h.single single hline).2
        exact ⟨hempty.1, others.append_left hempty.2⟩
  · rintro ⟨rfl, hrest⟩
    have hstream : stream = (reads ++ [ending ++ ['\n'.toUInt8]]) ++ rest := by
      rw [h.stream_eq, List.append_assoc, List.singleton_append]
    rw [hstream]
    exact .line h.single (by simp) hrest

/-- Two lines are divided by a line feed. -/
theorem lineFeed_mem_of_lines {text : Bytes} (h : 1 < (Text.lines text).length) :
    '\n'.toUInt8 ∈ text := by
  by_contra hsingle
  rw [Text.lines_of_not_mem hsingle] at h
  split at h
  · exact absurd h (by decide)
  · exact absurd h (Nat.lt_irrefl 1)

/--
As many prompts as there are lines read in turn exactly if the lines before the last of them
arrive in reads of their own.
-/
theorem inTurn_iff_separately (hlines : n < (Text.lines stream.flatten).length)
    (hshort : ∀ line ∈ (Text.lines stream.flatten).take (n + 1), line.length < Text.lineLimit) :
    InTurn (n + 1) stream ↔ Separately n stream := by
  induction n generalizing stream with
  | zero => exact iff_of_true (inTurn_one stream) .nothing
  | succ n ih =>
      obtain ⟨reads, ending, lost, rest, hdraws⟩ :=
        exists_draws (lineFeed_mem_of_lines (Nat.lt_of_le_of_lt (Nat.succ_pos n) hlines))
      rw [hdraws.lines_eq] at hlines hshort
      rw [List.take_succ_cons, List.forall_mem_cons] at hshort
      rw [hdraws.inTurn_iff hshort.1, hdraws.separately_iff]
      refine and_congr_right ?_
      rintro rfl
      exact ih (Nat.lt_of_succ_lt_succ hlines) hshort.2

theorem heard_of_flatten_eq_nil (h : stream.flatten = []) (n : Nat) : heard n stream = [] := by
  cases n with
  | zero => rfl
  | succ n => rw [heard, line?_of_flatten_eq_nil h]

/-- Prompts that read in turn hear the lines of the text. -/
theorem InTurn.heard_eq (h : InTurn n stream)
    (hshort : ∀ line ∈ (Text.lines stream.flatten).take n, line.length < Text.lineLimit) :
    heard n stream = (Text.lines stream.flatten).take n := by
  induction n generalizing stream with
  | zero => rw [heard, List.take_zero]
  | succ n ih =>
      by_cases hmem : '\n'.toUInt8 ∈ stream.flatten
      · obtain ⟨reads, ending, lost, rest, hdraws⟩ := exists_draws hmem
        rw [hdraws.lines_eq] at hshort ⊢
        rw [List.take_succ_cons, List.forall_mem_cons] at hshort
        rw [heard, hdraws.line?_eq hshort.1, List.take_succ_cons]
        cases n with
        | zero => rfl
        | succ n =>
            obtain ⟨rfl, hrest⟩ := (hdraws.inTurn_iff hshort.1).mp h
            exact congrArg (_ :: ·) (ih hrest hshort.2)
      · by_cases hnil : stream.flatten = []
        · rw [heard_of_flatten_eq_nil hnil, hnil, Text.lines_nil, List.take_nil]
        · rw [Text.lines_of_not_mem hmem, if_neg hnil, List.take_succ_cons, List.take_nil]
            at hshort ⊢
          rw [heard, line?_of_not_mem hmem hnil (hshort _ List.mem_cons_self)]
          exact congrArg (stream.flatten :: ·) (heard_of_flatten_eq_nil List.flatten_nil n)

end Prompts

end InputStream

/-! ## What the answers call for -/

namespace Editing

/-- How an editing ends with a text; a text that cannot be loaded does not end it. -/
def verdict? (content : Bytes) : Option Ending :=
  if (Text.trim content).isEmpty then
    some .cancelled
  else
    match loadVariables content with
    | .ok values => some (.edited values)
    | .error _ => none

def questions (n : Nat) : Bytes :=
  (List.replicate n question).flatten

/--
What answers call for, where the texts the editor leaves are rejected up to one that ends the
editing. If none of so many answers declines, the editor is run on the first text and on each
that was rejected. An answer that declines, or is missing, ends the editing after the run
before it.
-/
structure Honours (answers : List Bytes) (text : Bytes) (rejected : List Bytes) (e : Ending)
    (t : Transcript) : Prop where
  accepted : rejected.length ≤ answers.length →
    (∀ answer ∈ answers.take rejected.length, declines answer = false) →
      t.ending = e ∧ t.seen = text :: rejected ∧ t.stdout = questions rejected.length
  refused : ∀ k < rejected.length, k ≤ answers.length →
    (∀ answer ∈ answers.take k, declines answer = false) →
      (∀ answer, answers[k]? = some answer → declines answer = true) →
        t.ending = .declined ∧ t.seen = text :: rejected.take k ∧ t.stdout = questions (k + 1)

section Rounds

variable {text content final : Bytes} {rejected answers : List Bytes} {e : Ending}
  {t : Transcript}

theorem run_of_verdict (h : verdict? final = some e) (text : Bytes) (stdin : InputStream)
    (more : List Bytes) :
    run text stdin (final :: more) = ⟨e, [text], [], []⟩ := by
  by_cases hblank : (Text.trim final).isEmpty
  · rw [verdict?, if_pos hblank] at h
    rw [run, if_pos hblank, Option.some.inj h]
  · cases hload : loadVariables final with
    | ok values =>
        simp only [verdict?, if_neg hblank, hload] at h
        simp only [run, if_neg hblank, hload, Option.some.inj h]
    | error f =>
        simp only [verdict?, if_neg hblank, hload] at h
        cases h

/-- After a text that is rejected, the answer decides. -/
theorem run_of_rejected (h : verdict? content = none) (text : Bytes) (stdin : InputStream)
    (contents : List Bytes) :
    ∃ complaint : Bytes,
      (stdin.line? = none →
        run text stdin (content :: contents) = ⟨.declined, [text], question, complaint⟩) ∧
      ∀ answer rest, stdin.line? = some (answer, rest) →
        run text stdin (content :: contents) =
          if declines answer then ⟨.declined, [text], question, complaint⟩
          else (run content rest contents).after text question complaint := by
  by_cases hblank : (Text.trim content).isEmpty
  · rw [verdict?, if_pos hblank] at h
    cases h
  · cases hload : loadVariables content with
    | ok values =>
        simp only [verdict?, if_neg hblank, hload] at h
        cases h
    | error f =>
        refine ⟨"\n" ++ f.message ++ "\n", fun hline => ?_, fun answer rest hline => ?_⟩
        · simp only [run, if_neg hblank, hload, hline]
        · simp only [run, if_neg hblank, hload, hline]

theorem questions_succ (n : Nat) : questions (n + 1) = question ++ questions n := by
  rw [questions, List.replicate_succ, List.flatten_cons, questions]

/-- An editing that ends at its first prompt, where the answer declines or is missing. -/
theorem honours_declined {complaint : Bytes}
    (hanswers : ∀ answer ∈ answers.head?, declines answer = true) :
    Honours answers text (content :: rejected) e ⟨.declined, [text], question, complaint⟩ := by
  have hfirst : ∀ n < answers.length,
      ¬ ∀ answer ∈ answers.take (n + 1), declines answer = false := by
    intro n hn haccepted
    cases answers with
    | nil => exact absurd hn (Nat.not_lt_zero n)
    | cons answer answers =>
        have hnot := haccepted answer List.mem_cons_self
        rw [hanswers answer rfl] at hnot
        cases hnot
  constructor
  · intro hlength haccepted
    exact absurd haccepted (hfirst _ hlength)
  · rintro (_ | k) - hlength haccepted -
    · exact ⟨rfl, rfl, by rw [questions_succ]; exact (List.append_nil _).symm⟩
    · exact absurd haccepted (hfirst k hlength)

/-- An answer that does not decline goes before the others. -/
theorem Honours.cons {answer complaint : Bytes} (h : Honours answers content rejected e t)
    (haccepted : declines answer = false) :
    Honours (answer :: answers) text (content :: rejected) e
      (t.after text question complaint) := by
  constructor
  · intro hlength hothers
    rw [List.length_cons, List.take_succ_cons, List.forall_mem_cons] at hothers
    obtain ⟨hending, hseen, hasked⟩ := h.accepted (Nat.le_of_succ_le_succ hlength) hothers.2
    refine ⟨hending, congrArg (text :: ·) hseen, ?_⟩
    rw [List.length_cons, questions_succ]
    exact congrArg (question ++ ·) hasked
  · rintro (_ | k) hk hlength hothers hdeclines
    · exact absurd (hdeclines answer rfl) (by rw [haccepted]; exact Bool.false_ne_true)
    · rw [List.take_succ_cons, List.forall_mem_cons] at hothers
      obtain ⟨hending, hseen, hasked⟩ := h.refused k (Nat.lt_of_succ_lt_succ hk)
        (Nat.le_of_succ_le_succ hlength) hothers.2 hdeclines
      refine ⟨hending, congrArg (text :: ·) hseen, ?_⟩
      rw [questions_succ]
      exact congrArg (question ++ ·) hasked

/-- Whatever the input, the loop does what the answers call for that its prompts hear. -/
theorem run_honours_heard (hrejected : ∀ content ∈ rejected, verdict? content = none)
    (hfinal : verdict? final = some e) (text : Bytes) (stdin : InputStream)
    (more : List Bytes) :
    Honours (stdin.heard rejected.length) text rejected e
      (run text stdin (rejected ++ final :: more)) := by
  induction rejected generalizing text stdin with
  | nil =>
      rw [List.nil_append, run_of_verdict hfinal]
      exact ⟨fun _ _ => ⟨rfl, rfl, rfl⟩, fun k hk => absurd hk (Nat.not_lt_zero k)⟩
  | cons content rejected ih =>
      obtain ⟨hcontent, hothers⟩ := List.forall_mem_cons.mp hrejected
      obtain ⟨complaint, hnone, hsome⟩ :=
        run_of_rejected hcontent text stdin (rejected ++ final :: more)
      rw [List.cons_append, List.length_cons, InputStream.heard]
      cases hline : stdin.line? with
      | none =>
          rw [hnone hline]
          exact honours_declined (by simp)
      | some found =>
          obtain ⟨answer, rest⟩ := found
          rw [hsome answer rest hline]
          cases hdeclines : declines answer with
          | true => exact honours_declined (by simp [hdeclines])
          | false => exact (ih hothers content rest).cons hdeclines

/-- Only as many answers count as texts are rejected. -/
theorem Honours.of_take (h : Honours (answers.take rejected.length) text rejected e t) :
    Honours answers text rejected e t := by
  constructor
  · intro hlength haccepted
    refine h.accepted (by rw [List.length_take_of_le hlength]) ?_
    rwa [List.take_take, Nat.min_self]
  · intro k hk hlength haccepted hdeclines
    refine h.refused k hk ?_ ?_ ?_
    · rw [List.length_take]
      exact Nat.le_min.mpr ⟨hk.le, hlength⟩
    · rwa [List.take_take, Nat.min_eq_left hk.le]
    · rwa [List.getElem?_take_of_lt hk]

/--
Whatever the input, the loop does what the answers call for that its prompts hear. Where the
input has a line, within the limit, for each text that is rejected, the prompts are answered by
the lines in turn exactly if the lines before the last arrive in reads of their own; and then
the loop does what these lines call for.
-/
theorem answers_honoured_if_separate (text : Bytes) (stdin : InputStream)
    (rejected : List Bytes) (final : Bytes) (more : List Bytes) (e : Ending)
    (hrejected : ∀ content ∈ rejected, verdict? content = none)
    (hfinal : verdict? final = some e) :
    let t := run text stdin (rejected ++ final :: more)
    let n := rejected.length
    let lines := Text.lines stdin.flatten
    Honours (stdin.heard n) text rejected e t ∧
      (n ≤ lines.length → (∀ line ∈ lines.take n, line.length < Text.lineLimit) →
        (stdin.InTurn n ↔ stdin.Separately (n - 1)) ∧
          (stdin.InTurn n → Honours lines text rejected e t)) := by
  intro t n lines
  have hheard : Honours (stdin.heard n) text rejected e t :=
    run_honours_heard hrejected hfinal text stdin more
  refine ⟨hheard, fun hlines hshort => ⟨?_, fun hturn => ?_⟩⟩
  · rcases Nat.eq_zero_or_pos n with hzero | hpos
    · rw [hzero]
      exact iff_of_true (fun j hj => absurd hj (Nat.not_lt_zero j)) .nothing
    · obtain ⟨m, hm⟩ := Nat.exists_eq_add_one_of_ne_zero hpos.ne'
      rw [hm] at hlines hshort ⊢
      exact InputStream.inTurn_iff_separately hlines hshort
  · rw [hturn.heard_eq hshort] at hheard
    exact hheard.of_take

end Rounds

def unclosed : Bytes := "A: [1"

def loadable : Bytes := "X: 1\n"

theorem verdict?_unclosed : verdict? unclosed = none := by
  rw [← Option.isNone_iff_eq_none]
  decide +kernel

theorem exists_verdict?_loadable : ∃ values, loadVariables loadable = .ok values ∧
    verdict? loadable = some (.edited values) := by
  obtain ⟨values, hvalues⟩ := exists_ok (x := loadVariables loadable) (by decide +kernel)
  exact ⟨values, hvalues, by rw [verdict?, if_neg (by decide +kernel), hvalues]⟩

def separateAnswers : InputStream := ["y\n"] ++ ["", "Ye", "s\n"]

/-- Two texts are rejected and two answers heard, and the third text ends the editing. -/
theorem answers_honoured_if_separate_sample :
    ∃ values, loadVariables loadable = .ok values ∧ verdict? loadable = some (.edited values) ∧
      (∀ content ∈ [unclosed, unclosed], verdict? content = none) ∧
      let t := run (textOf []) separateAnswers [unclosed, unclosed, loadable]
      t.ending = .edited values ∧ t.seen = [textOf [], unclosed, unclosed] := by
  obtain ⟨values, hvalues, hfinal⟩ := exists_verdict?_loadable
  have hrejected : ∀ content ∈ [unclosed, unclosed], verdict? content = none := by
    simp [verdict?_unclosed]
  obtain ⟨-, hlines⟩ := answers_honoured_if_separate (textOf []) separateAnswers
    [unclosed, unclosed] loadable [] (.edited values) hrejected hfinal
  obtain ⟨hturn, hhonours⟩ := hlines (by decide +kernel) (by decide +kernel)
  have hsingle : '\n'.toUInt8 ∉ Bytes.ofString "y" := by decide +kernel
  have hseparate : separateAnswers.Separately 1 := .line hsingle (by decide +kernel) .nothing
  obtain ⟨hending, hseen, -⟩ := (hhonours (hturn.mpr hseparate)).accepted (by decide +kernel)
    (by decide +kernel)
  exact ⟨values, hvalues, hfinal, hrejected, hending, hseen⟩

/--
Two answers that arrive in one read: neither of them declines, but the second prompt hears
nothing, and the editing is taken for declined.
-/
theorem second_answer_lost :
    (∃ values, verdict? loadable = some (.edited values)) ∧ verdict? unclosed = none ∧
      Text.lines (InputStream.ofBytes "y\ny\n").flatten = ["y", "y"] ∧ declines "y" = false ∧
      let t := run (textOf []) (.ofBytes "y\ny\n") [unclosed, unclosed, loadable]
      t.ending = .declined ∧ t.seen = [textOf [], unclosed] := by
  obtain ⟨values, -, hfinal⟩ := exists_verdict?_loadable
  have hrejected : ∀ content ∈ [unclosed, unclosed], verdict? content = none := by
    simp [verdict?_unclosed]
  have hhonours := run_honours_heard hrejected hfinal (textOf []) (.ofBytes "y\ny\n") []
  have hheard : (InputStream.ofBytes "y\ny\n").heard 2 = [↑"y"] := by decide +kernel
  rw [List.length_cons, List.length_singleton, hheard] at hhonours
  obtain ⟨hending, hseen, -⟩ := hhonours.refused 1 (by decide) (by decide) (by decide +kernel)
    (by simp)
  exact ⟨⟨values, hfinal⟩, verdict?_unclosed, by decide +kernel, by decide +kernel, hending, hseen⟩

end Editing

end Backtick
