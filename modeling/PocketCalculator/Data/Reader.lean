/-
# Reading structured data

A reader goes through the lexemes once, with the open brackets on a stack. What it may meet next
depends on what it met last:

| last | a value | a comma | a colon | the closing bracket |
| --- | --- | --- | --- | --- |
| nothing yet, a colon | yes | no | no | no |
| an opening bracket | yes | no | no | yes |
| a comma | yes | no | no | as the dialect says |
| a value | no | yes | in a record or map, behind a key | yes |
| a name | no, but the brackets of a record | yes | yes, if so a value | yes |
| the mark of an option | in brackets, or as the dialect says | no | in a record | no |

A bracket with keys wants one for each of its values; a record is also read without any, as a tuple,
if the dialect has these. The brackets of an option hold one value, or are like those of a record. A
text is one value.
-/

import PocketCalculator.Data.Basic

namespace PocketCalculator
namespace Data

/-- What a reader is in the middle of. -/
inductive Bracket where
  | list
  | record (name : Option Text)
  | map
  | option
  /-- An option whose brackets hold no value, fields, or the values of a tuple. -/
  | unwrapped
  /-- An option without brackets, which ends with its value. -/
  | implied
  deriving DecidableEq

/-- An open bracket with the values so far, the last one first, each with its key if it has one; and
the key of the value to come. -/
structure Frame where
  bracket : Bracket
  entries : List (Option Data × Data)
  key : Option Data

/-- What the reader met last. -/
inductive Last where
  /-- Nothing yet or a colon, behind which a value must come. -/
  | start
  | opening
  | comma
  /-- A word that is a value, unless brackets follow. -/
  | name (text : Text)
  /-- The mark of an option, whose value has to follow. -/
  | present
  | value (v : Data)

/-- A reader in the middle of a text. -/
structure Reader where
  last : Last
  frames : List Frame

namespace Frame

/-- A bracket that has just been opened. -/
def new (bracket : Bracket) : Frame := ⟨bracket, [], none⟩

/-- The bracket with one more value. -/
def push (v : Data) (frame : Frame) : Frame :=
  { frame with entries := (frame.key, v) :: frame.entries, key := none }

/-- Whether a value in the bracket can have a key. -/
def hasKeys (frame : Frame) : Bool :=
  match frame.bracket with
  | .record _ | .map | .unwrapped => true
  | .list | .option | .implied => false

/-- The values of the bracket. -/
def values (frame : Frame) : List Data := (frame.entries.map (·.2)).reverse

/-- The values of the bracket with their labels. -/
def fields? (d : Dialect) (frame : Frame) : Option (List (Option Text × Data)) :=
  frame.entries.reverse.mapM fun (key, v) => do return (← asLabel? d (← key), v)

/-- The keys and values of the bracket in turn, if every value has a key. -/
def keysAndValues? (frame : Frame) : Option (List Data) := do
  let pairs ← frame.entries.reverse.mapM fun (key, v) => key.map ([·, v])
  return pairs.flatten

/-- The record or tuple that the bracket holds. -/
def recordOrTuple? (d : Dialect) (name : Option Text) (frame : Frame) : Option Data :=
  if d.tuples ∧ frame.entries ≠ [] ∧ frame.entries.all (·.1.isNone) then some (.tuple frame.values)
  else (frame.fields? d).map (.record name)

/-- The value that a bracket holds when it is closed. -/
def close (d : Dialect) (frame : Frame) (shape : Shape) : Option Data :=
  match frame.bracket, shape with
  | .list, .list => some (.list frame.values)
  | .record name, .record => frame.recordOrTuple? d name
  | .map, .map => frame.keysAndValues?.map .map
  | .option, .record =>
    match frame.values with
    | [v] => some (.option v)
    | _ => none
  | .unwrapped, .record =>
    if frame.entries = [] then some (.option .unit) else (frame.recordOrTuple? d none).map .option
  | _, _ => none

end Frame

namespace Reader

/-- A reader that has met nothing. -/
def start : Reader := ⟨.start, []⟩

/-- A reader behind a whole value, which also ends the options without brackets around it. -/
def behind (v : Data) : List Frame → Reader
  | [] => ⟨.value v, []⟩
  | frame :: frames =>
    if frame.bracket = .implied then behind (.option v) frames else ⟨.value v, frame :: frames⟩

/-- The open brackets around a value, if one may begin. -/
def around? (d : Dialect) (r : Reader) : Option (List Frame) :=
  match r.last with
  | .start | .opening | .comma => some r.frames
  | .present => if d.impliedOptions then some (.new .implied :: r.frames) else none
  | .name _ | .value _ => none

/-- The reader after a value without brackets. -/
def take (d : Dialect) (r : Reader) (v : Data) : Option Reader := (r.around? d).map (behind v)

/-- The reader after an opening bracket. -/
def enter (d : Dialect) (r : Reader) (shape : Shape) : Option Reader :=
  let unnamed := fun bracket => (r.around? d).map fun frames => ⟨.opening, .new bracket :: frames⟩
  match shape, r.last with
  | .record, .name t => some ⟨.opening, .new (.record (some t)) :: r.frames⟩
  | .record, .present => some ⟨.opening, .new .option :: r.frames⟩
  | .unwrapped, .present => some ⟨.opening, .new .unwrapped :: r.frames⟩
  | .list, _ => unnamed .list
  | .record, _ => unnamed (.record none)
  | .map, _ => unnamed .map
  | .unwrapped, _ => none

/-- The reader with a name that it met last taken for a value. -/
def settle (r : Reader) : Reader :=
  match r.last with
  | .name t => behind (.word t) r.frames
  | _ => r

/-- The reader after a closing bracket. -/
def leave (d : Dialect) (r : Reader) (shape : Shape) : Option Reader := do
  let r := r.settle
  match r.frames with
  | [] => none
  | frame :: frames =>
    let frame ← match r.last with
      | .opening => some frame
      | .comma => if d.finalComma then some frame else none
      | .value v => some (frame.push v)
      | .start | .name _ | .present => none
    return behind (← frame.close d shape) frames

/-- The reader after a comma. -/
def separate (r : Reader) : Option Reader :=
  let r := r.settle
  match r.last, r.frames with
  | .value v, frame :: frames => some ⟨.comma, frame.push v :: frames⟩
  | _, _ => none

/-- The reader after a colon. In a record the mark of an option is a label like any other word. -/
def label (r : Reader) : Option Reader :=
  let key := match r.last, r.frames with
    | .present, ⟨.record _, _, _⟩ :: _ | .present, ⟨.unwrapped, _, _⟩ :: _ =>
      some (.word "Some".toList)
    | _, _ => match r.settle.last with
      | .value v => some v
      | _ => none
  match key, r.settle.frames with
  | some key, frame :: frames =>
    if frame.hasKeys ∧ frame.key.isNone then
      some ⟨.start, { frame with key := some key } :: frames⟩
    else none
  | _, _ => none

/-- The reader after one lexeme. -/
def step (d : Dialect) (r : Reader) : Lexeme → Option Reader
  | .quoted t => r.take d (.quoted t)
  | .literal t => r.take d (.word t)
  | .scalar => r.take d .scalar
  | .unit =>
    match r.last with
    | .name t => some (behind (.record (some t) []) r.frames)
    | .present => none
    | _ => r.take d .unit
  | .name t | .rawName t => (r.around? d).map (⟨.name t, ·⟩)
  | .present => (r.around? d).map (⟨.present, ·⟩)
  | .opening shape => r.enter d shape
  | .closing shape => r.leave d shape
  | .comma => r.separate
  | .colon => r.label
  | .hash | .bang => none

/-- The value that has been read, if the text may end here. -/
def result? (r : Reader) : Option Data :=
  match r.settle with
  | ⟨.value v, []⟩ => some v
  | _ => none

end Reader

/-- The value that a text is, and the dialect with the rules that the text itself enables. -/
def read (d : Dialect) (t : Text) : Option (Dialect × Data) := do
  let (d, lexemes) ← d.scan t
  let reader ← lexemes.foldlM (Reader.step d) .start
  let data ← reader.result?
  if d.acceptsDepth data.depth then return (d, data) else none

end Data
end PocketCalculator
