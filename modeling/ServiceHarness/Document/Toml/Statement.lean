import ServiceHarness.Document.Toml.Fault
import ServiceHarness.Document.Toml.Token

/-!
# Statements

The structure of a document before any text in it is looked at: table headers
and assignments, whose keys and scalars are still as they were written.  Where
a key or a value should stand but does not, an empty one is put in; it cannot
be decoded later, so that every other fault of structure comes first.

`statements` is a machine with one step per token.  Its mode says what it is
reading, and inside a value a stack of frames holds the arrays and inline
tables that are open.
-/

namespace ServiceHarness.Document.Toml

open ServiceHarness.Text

structure Raw where
  style : Style
  start : Nat
  text : List Char
  deriving DecidableEq, Repr

def Raw.stop (r : Raw) : Nat := r.start + Utf8.width r.text

def Raw.span (r : Raw) : Span := ⟨r.start, r.stop⟩

def Raw.absent (index : Nat) : Raw := ⟨.bare, index, []⟩

structure Assignment (ν : Type) where
  path : List Raw
  value : ν
  deriving DecidableEq, Repr

inductive Value where
  | scalar (raw : Raw)
  | array (span : Span) (items : List Value)
  | inline (span : Span) (entries : List (Assignment Value))
  deriving Repr

inductive Statement where
  | header (array : Bool) (span : Span) (path : List Raw)
  | assign (assignment : Assignment Value)
  deriving Repr

/-- An open array or inline table.  Items, entries and keys are in reverse. -/
inductive Frame where
  | array (start : Nat) (items : List Value) (wantsValue : Bool)
  | inline (start : Nat) (entries : List (Assignment Value)) (need : Need) (path : List Raw)
  deriving Repr

/-- The place of a value: the key it is assigned to, in reverse, and the frames
around it, the innermost first. -/
structure Place where
  path : List Raw
  frames : List Frame
  deriving Repr

inductive Mode where
  | line
  | key (path : List Raw) (afterDot : Bool)
  | headerStart (start : Nat)
  | header (array : Bool) (start : Nat) (path : List Raw) (wantsKey : Bool)
  | headerClose (start : Nat) (path : List Raw)
  | value (place : Place)
  | scalar (place : Place) (start : Nat) (text gap : List Char)
  | inlineKey (place : Place) (start : Nat) (entries : List (Assignment Value))
      (path : List Raw) (afterDot : Bool)
  | rest
  | skip
  deriving Repr

structure Machine where
  done : List Statement
  mode : Mode
  deriving Repr

abbrev Stepped := Except Fault Machine

def maxDepth : Nat := 80

def textStyle? : TokenKind → Option Style
  | .literal => some .literal
  | .longLiteral => some .longLiteral
  | .basic => some .basic
  | .longBasic => some .longBasic
  | _ => none

def Token.key? (t : Token) : Option Raw :=
  match t.kind with
  | .atom => some ⟨.bare, t.start, t.text⟩
  | kind => (textStyle? kind).map fun style => ⟨style, t.start, t.text⟩

def Token.fault (t : Token) (problem : Problem) : Fault := ⟨problem, ⟨t.start, t.stop⟩⟩

def Token.faultBefore (t : Token) (problem : Problem) : Fault := ⟨problem, .point t.start⟩

def isCommentCharacter (c : Char) : Bool :=
  c == '\t' || (0x20 ≤ c.toNat && c.toNat ≤ 0x7E) || 0x80 ≤ c.toNat

def checkComment (index : Nat) : List Char → Except Fault Unit
  | [] => .ok ()
  | c :: rest =>
      if isCommentCharacter c then checkComment (index + c.utf8Size) rest
      else .error ⟨.commentCharacter, ⟨index, index + c.utf8Size⟩⟩

def Token.check (t : Token) : Except Fault Unit :=
  match t.kind with
  | .comment => checkComment t.start t.text
  | .newline => if t.text = ['\r'] then .error ⟨.loneReturn, .point t.stop⟩ else .ok ()
  | _ => .ok ()

namespace Machine

def become (m : Machine) (mode : Mode) : Machine := { m with mode := mode }

def finishStatement (m : Machine) (s : Statement) (mode : Mode) : Machine :=
  ⟨s :: m.done, mode⟩

def finishValue (m : Machine) (place : Place) (v : Value) : Machine :=
  match place.frames with
  | [] => m.finishStatement (.assign ⟨place.path.reverse, v⟩) .rest
  | .array start items _ :: frames =>
      m.become (.value ⟨place.path, .array start (v :: items) false :: frames⟩)
  | .inline start entries _ path :: frames =>
      m.become (.value ⟨place.path,
        .inline start (⟨path.reverse, v⟩ :: entries) .comma [] :: frames⟩)

def openFrame (m : Machine) (place : Place) (t : Token) (frame : Frame) : Stepped :=
  if place.frames.length < maxDepth then
    .ok (m.become (.value { place with frames := frame :: place.frames }))
  else .error (t.fault .tooDeep)

def startValue (m : Machine) (place : Place) (t : Token) : Stepped :=
  match t.kind with
  | .openBracket => m.openFrame place t (.array t.start [] true)
  | .openBrace => m.openFrame place t (.inline t.start [] .key [])
  | .dot => .ok (m.become (.scalar place t.start t.text.reverse []))
  | .atom => .ok (m.become (.scalar place t.start t.text.reverse []))
  | kind =>
      match textStyle? kind with
      | some style => .ok (m.finishValue place (.scalar ⟨style, t.start, t.text⟩))
      | none => .error (t.faultBefore .unquoted)

def stepRest (m : Machine) (t : Token) : Stepped :=
  match t.kind with
  | .blank => .ok m
  | .comment => .ok m
  | .newline => .ok (m.become .line)
  | .finish => .ok (m.become .line)
  | _ => .error (t.faultBefore .wantsLineEnd)

def stepSkip (m : Machine) (t : Token) : Machine :=
  match t.kind with
  | .newline => m.become .line
  | _ => m

def stepLine (m : Machine) (t : Token) : Stepped :=
  match t.kind with
  | .openBracket => .ok (m.become (.headerStart t.start))
  | .closeBracket => .error (t.faultBefore .wantsTableOpen)
  | .equals => .ok (m.become (.value ⟨[.absent t.start], []⟩))
  | .dot => .ok (m.become (.key [.absent t.start] true))
  | .comma => .error (t.faultBefore .wantsKey)
  | .openBrace => .error (t.faultBefore .wantsKey)
  | .closeBrace => .error (t.faultBefore .wantsKey)
  | _ =>
      match t.key? with
      | some key => .ok (m.become (.key [key] false))
      | none => .ok m

def stepKeyEnd (m : Machine) (path : List Raw) (t : Token) : Stepped :=
  match t.kind with
  | .blank => .ok (m.become (.key path false))
  | .dot => .ok (m.become (.key path true))
  | .equals => .ok (m.become (.value ⟨path, []⟩))
  | _ => .error (t.faultBefore .keyWithoutValue)

def stepKey (m : Machine) (path : List Raw) (afterDot : Bool) (t : Token) : Stepped :=
  if afterDot then
    match t.kind with
    | .blank => .ok m
    | .dot => .ok (m.become (.key (.absent t.start :: path) true))
    | _ =>
        match t.key? with
        | some key => .ok (m.become (.key (key :: path) false))
        | none => m.stepKeyEnd (.absent t.start :: path) t
  else m.stepKeyEnd path t

/-- A token at the place where a header should close.  Without a usable key the
rest of the line does not matter. -/
def stepHeaderEnd (m : Machine) (array : Bool) (start : Nat) (path : List Raw) (usable : Bool)
    (t : Token) : Stepped :=
  if t.kind = .closeBracket then
    if array then .ok (m.become (.headerClose start path))
    else .ok (m.finishStatement (.header false ⟨start, t.stop⟩ path.reverse) .rest)
  else if usable then
    let behind := match path with
      | [] => start
      | key :: _ => key.stop
    .error ⟨if array then .arrayTableUnclosed else .tableUnclosed, .point behind⟩
  else
    .ok ((m.finishStatement (.header array ⟨start, t.start⟩ path.reverse) .skip).stepSkip t)

def stepHeader (m : Machine) (array : Bool) (start : Nat) (path : List Raw) (wantsKey : Bool)
    (t : Token) : Stepped :=
  if wantsKey then
    match t.kind with
    | .blank => .ok (m.become (.header array start path true))
    | .dot => .ok (m.become (.header array start (.absent t.start :: path) true))
    | _ =>
        match t.key? with
        | some key => .ok (m.become (.header array start (key :: path) false))
        | none => m.stepHeaderEnd array start (.absent t.start :: path) false t
  else
    match t.kind with
    | .blank => .ok m
    | .dot => .ok (m.become (.header array start path true))
    | _ => m.stepHeaderEnd array start path true t

def stepHeaderStart (m : Machine) (start : Nat) (t : Token) : Stepped :=
  if t.kind = .openBracket then .ok (m.become (.header true start [] true))
  else m.stepHeader false start [] true t

def stepHeaderClose (m : Machine) (start : Nat) (path : List Raw) (t : Token) : Stepped :=
  if t.kind = .closeBracket then
    .ok (m.finishStatement (.header true ⟨start, t.stop⟩ path.reverse) .rest)
  else .error (t.faultBefore .arrayTableHalfClosed)

def stepTop (m : Machine) (place : Place) (t : Token) : Stepped :=
  let absent := m.finishValue place (.scalar (.absent t.start))
  match t.kind with
  | .blank => .ok m
  | .comment => absent.stepRest t
  | .comma => absent.stepRest t
  | .newline => absent.stepRest t
  | .finish => absent.stepRest t
  | .equals => .error (t.fault .extraEquals)
  | .closeBrace => .error (t.faultBefore .braceNotOpen)
  | .closeBracket => .error (t.faultBefore .bracketNotOpen)
  | _ => m.startValue place t

def stepArray (m : Machine) (outer : Place) (start : Nat) (items : List Value)
    (wantsValue : Bool) (t : Token) : Stepped :=
  let inner := fun wantsValue : Bool =>
    { outer with frames := .array start items wantsValue :: outer.frames }
  match t.kind with
  | .blank => .ok m
  | .comment => .ok m
  | .newline => .ok m
  | .finish => .error (t.faultBefore .arrayUnclosed)
  | .comma =>
      if wantsValue then .error (t.fault .arrayComma) else .ok (m.become (.value (inner true)))
  | .equals => .error (t.fault .arrayEquals)
  | .closeBracket => .ok (m.finishValue outer (.array ⟨start, t.stop⟩ items.reverse))
  | .closeBrace => .error (t.faultBefore .braceNotOpen)
  | _ =>
      if wantsValue then m.startValue (inner true) t
      else .error (t.faultBefore .arrayWantsComma)

/-- The inline table closes.  A key without a value takes an empty literal. -/
def closeInline (m : Machine) (outer : Place) (start : Nat)
    (entries : List (Assignment Value)) (need : Need) (path : List Raw) (t : Token) : Machine :=
  let missing : Assignment Value := ⟨path.reverse, .scalar ⟨.literal, t.start, []⟩⟩
  let entries := match need with
    | .equals => missing :: entries
    | .value => missing :: entries
    | _ => entries
  m.finishValue outer (.inline ⟨start, t.stop⟩ entries.reverse)

def stepInlineText (m : Machine) (outer : Place) (start : Nat)
    (entries : List (Assignment Value)) (need : Need) (path : List Raw) (t : Token) : Stepped :=
  match need with
  | .key =>
      match t.key? with
      | some key => .ok (m.become (.inlineKey outer start entries [key] false))
      | none => .ok (m.become (.inlineKey outer start entries [.absent t.start] true))
  | .equals => .error (t.faultBefore .inlineWantsEquals)
  | .value =>
      m.startValue { outer with frames := .inline start entries .value path :: outer.frames } t
  | .comma => .error (t.faultBefore .inlineWantsComma)

def stepInline (m : Machine) (outer : Place) (start : Nat) (entries : List (Assignment Value))
    (need : Need) (path : List Raw) (t : Token) : Stepped :=
  let inner := fun (need : Need) (path : List Raw) =>
    m.become (.value { outer with frames := .inline start entries need path :: outer.frames })
  match t.kind with
  | .blank => .ok (inner need path)
  | .comment => .ok (inner need path)
  | .newline => .ok (inner need path)
  | .finish => .error (t.faultBefore .inlineUnclosed)
  | .comma =>
      if need = .comma then .ok (inner .key []) else .error (t.faultBefore (.inlineComma need))
  | .equals =>
      match need with
      | .key => .ok (inner .value [.absent t.start])
      | .equals => .ok (inner .value path)
      | need => .error (t.faultBefore (.inlineEquals need))
  | .closeBrace => .ok (m.closeInline outer start entries need path t)
  | .closeBracket =>
      .error (t.faultBefore (if need = .value then .bracketNotOpen else .inlineElement))
  | .openBracket =>
      match need with
      | .value => m.stepInlineText outer start entries need path t
      | .equals => .error (t.faultBefore .inlineWantsEquals)
      | need => .error (t.faultBefore (.inlineWantsKey need))
  | .openBrace =>
      match need with
      | .value => m.stepInlineText outer start entries need path t
      | .equals => .error (t.faultBefore .inlineWantsEquals)
      | need => .error (t.faultBefore (.inlineWantsKey need))
  | _ => m.stepInlineText outer start entries need path t

def stepInlineKey (m : Machine) (outer : Place) (start : Nat)
    (entries : List (Assignment Value)) (path : List Raw) (afterDot : Bool) (t : Token) :
    Stepped :=
  match t.kind with
  | .blank => .ok m
  | .dot =>
      let path := if afterDot then .absent t.start :: path else path
      .ok (m.become (.inlineKey outer start entries path true))
  | _ =>
      if afterDot then
        match t.key? with
        | some key => .ok (m.become (.inlineKey outer start entries (key :: path) false))
        | none => m.stepInline outer start entries .equals (.absent t.start :: path) t
      else m.stepInline outer start entries .equals path t

def stepValue (m : Machine) (place : Place) (t : Token) : Stepped :=
  match place.frames with
  | [] => m.stepTop place t
  | .array start items wantsValue :: frames =>
      m.stepArray ⟨place.path, frames⟩ start items wantsValue t
  | .inline start entries need path :: frames =>
      m.stepInline ⟨place.path, frames⟩ start entries need path t

def stepBehindScalar (m : Machine) (place : Place) (raw : Raw) (t : Token) : Stepped :=
  let m := m.finishValue place (.scalar raw)
  match m.mode with
  | .value place => m.stepValue place t
  | _ => m.stepRest t

/-- Atoms and dots go on an unquoted scalar, also behind blanks. -/
def stepScalar (m : Machine) (place : Place) (start : Nat) (text gap : List Char) (t : Token) :
    Stepped :=
  let longer := Mode.scalar place start (t.text.reverse ++ gap ++ text) []
  match t.kind with
  | .blank => .ok (m.become (.scalar place start text t.text.reverse))
  | .dot => .ok (m.become longer)
  | .atom => .ok (m.become longer)
  | _ => m.stepBehindScalar place ⟨.bare, start, text.reverse⟩ t

def stepMode (m : Machine) (t : Token) : Stepped :=
  match m.mode with
  | .line => m.stepLine t
  | .key path afterDot => m.stepKey path afterDot t
  | .headerStart start => m.stepHeaderStart start t
  | .header array start path wantsKey => m.stepHeader array start path wantsKey t
  | .headerClose start path => m.stepHeaderClose start path t
  | .value place => m.stepValue place t
  | .scalar place start text gap => m.stepScalar place start text gap t
  | .inlineKey place start entries path afterDot =>
      m.stepInlineKey place start entries path afterDot t
  | .rest => m.stepRest t
  | .skip => .ok (m.stepSkip t)

def step (m : Machine) (t : Token) : Stepped := do
  let m ← m.stepMode t
  t.check
  return m

end Machine

def statements (tokens : List Token) : Except Fault (List Statement) := do
  let m ← tokens.foldlM Machine.step ⟨[], .line⟩
  return m.done.reverse

end ServiceHarness.Document.Toml
