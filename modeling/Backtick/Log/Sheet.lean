import Backtick.Log.Record

/-!
# Writing records field by field

A record is written on a sheet. Groups are entered and left as they come; a group of
which nothing was written is taken back from the sheet, while the place that it had
opened stays open for the fields that follow it.
-/

namespace Backtick.Log

/-- How fields and groups are written. -/
structure Style where
  /-- What stands between two fields. -/
  gap : Bytes
  /-- Groups are written in braces; otherwise their names stand before the keys. -/
  nested : Bool
  /-- A key behind the names of its groups, with the mark that follows it. -/
  key : Bytes -> Bytes -> Bytes
  value : Datum -> Bytes

/-- What is written so far. -/
structure Sheet where
  out : Bytes
  /-- What stands before the next field. -/
  separator : Bytes
  /-- The names of the groups, each with a dot. -/
  path : Bytes
  /-- Number of groups around the next field. -/
  depth : Nat

namespace Sheet

/-- The separator behind a text: none at its start and behind a brace. -/
def separatorAfter (st : Style) (text : Bytes) : Bytes :=
  if text.isEmpty || (st.nested && text.getLast? = some 0x7B) then [] else st.gap

/-- A key, with what separates it from the field before. -/
def putKey (st : Style) (name : Bytes) (s : Sheet) : Sheet :=
  { s with out := s.out ++ s.separator ++ st.key s.path name, separator := st.gap }

def putField (st : Style) (name : Bytes) (d : Datum) (s : Sheet) : Sheet :=
  let s := s.putKey st name
  { s with out := s.out ++ st.value d }

def enter (st : Style) (s : Sheet) (name : Bytes) : Sheet :=
  if st.nested then
    let s := s.putKey st name
    { s with out := s.out ++ "\x7b", separator := [], depth := s.depth + 1 }
  else
    { s with path := s.path ++ name ++ ".", depth := s.depth + 1 }

def leave (st : Style) (s : Sheet) (name : Bytes) : Sheet :=
  if st.nested then
    { s with out := s.out ++ "\x7d", separator := st.gap, depth := s.depth - 1 }
  else
    { s with
      path := s.path.take (s.path.length - (name.length + 1))
      separator := st.gap
      depth := s.depth - 1 }

/-- An attribute that is no group, and whether anything was written; at the top, times follow
the layout. -/
def leaf (c : Config) (st : Style) (name : Bytes) (d : Datum) (s : Sheet) : Sheet × Bool :=
  match if s.depth = 0 then c.replace? (name, d) else some (name, d) with
  | none => (s, false)
  | some a => if a.isBlank then (s, false) else (s.putField st a.1 a.2, true)

/-- A group given how its attributes are written; one without a name adds no level. -/
def group (st : Style) (name : Bytes) (members : Sheet -> Sheet × Bool) (s : Sheet) :
    Sheet × Bool :=
  let inner := if name.isEmpty then s else s.enter st name
  let (t, written) := members inner
  if written then
    (if name.isEmpty then t else t.leave st name, true)
  else
    ({ t with out := t.out.take s.out.length }, false)

mutual

/-- An attribute, and whether it counts as written. -/
def attr (c : Config) (st : Style) (name : Bytes) : Datum -> Sheet -> Sheet × Bool
  | .group attrs, s => if attrs.isEmpty then (s, true) else group st name (putAttrs c st attrs) s
  | .failure _ detail, s =>
      if detail.isEmpty then (s, true) else group st name (putAttrs c st detail) s
  | d, s => leaf c st name d s

/-- Attributes, and whether any of them counts as written. -/
def putAttrs (c : Config) (st : Style) : List (Bytes × Datum) -> Sheet -> Sheet × Bool
  | [], s => (s, false)
  | (name, d) :: rest, s =>
      let (t, first) := attr c st name d s
      let (u, more) := putAttrs c st rest t
      (u, first || more)

end

end Sheet

/-- The context of a logger as far as it can be written before a record comes. -/
structure Prepared where
  text : Bytes
  path : Bytes
  groups : List Bytes
  /-- Number of the groups that are entered in the text. -/
  entered : Nat

namespace Prepared

def empty : Prepared := ⟨[], [], [], 0⟩

/-- The sheet on which the context is continued, inside all of its groups. -/
def sheet (st : Style) (p : Prepared) : Sheet :=
  (p.groups.drop p.entered).foldl (Sheet.enter st)
    ⟨p.text, Sheet.separatorAfter st p.text, p.path, p.entered⟩

/-- The context after a further step. Groups are entered once something stands in them. -/
def add (c : Config) (st : Style) (p : Prepared) : Context -> Prepared
  | .group name => { p with groups := p.groups ++ [name] }
  | .attrs attached =>
      if attached.all fun a => a.2.isEmptyGroup then
        p
      else
        let (s, written) := (p.sheet st).putAttrs c st attached
        if written then ⟨s.out, s.path, p.groups, p.groups.length⟩ else p

def ofContext (c : Config) (st : Style) (context : List Context) : Prepared :=
  context.foldl (add c st) .empty

end Prepared

namespace Sheet

/-- The text of a context behind what is written. -/
def putPrepared (st : Style) (p : Prepared) (s : Sheet) : Sheet :=
  if p.text.isEmpty then
    { s with depth := p.entered }
  else
    { s with
      out := s.out ++ s.separator ++ p.text
      separator := separatorAfter st p.text
      depth := p.entered }

/-- The attributes of a record inside the groups of its context, and how many groups are open
behind them. -/
def putOwn (c : Config) (st : Style) (p : Prepared) (own : List Attr) (s : Sheet) :
    Sheet × Nat :=
  if own.isEmpty then
    (s, p.entered)
  else
    let inner := (p.groups.drop p.entered).foldl (enter st) { s with path := s.path ++ p.path }
    let (t, written) := inner.putAttrs c st own
    if written then (t, p.groups.length)
    else ({ t with out := t.out.take s.out.length }, p.entered)

def record (c : Config) (st : Style) (context : List Context) (r : Record) : Bytes :=
  let start : Bytes := if st.nested then "\x7b" else []
  let (heading, _) := putAttrs c st (r.heading c) ⟨start, [], [], 0⟩
  let p := Prepared.ofContext c st context
  let (s, opened) := putOwn c st p r.attrs (heading.putPrepared st p)
  let close : Bytes := if st.nested then List.replicate (opened + 1) 0x7D else []
  s.out ++ close ++ "\n"

end Sheet

end Backtick.Log
