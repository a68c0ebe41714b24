import Mathlib.Data.List.DropRight
import ThreadForge.Lib.JsonText
import ThreadForge.Lib.PyString

/-!
# The events of a streamed reply

The providers answer with server-sent events: of the lines of bytes those that start with `data:`
carry an event as JSON. Every consumer reads its lines in this one way, and then takes the event apart
with `get`, iteration and indexing, none of which checks what it is given.
-/

/-! ## Values taken apart without a check -/

namespace PyValue

/-- `value.get(key, default)`. -/
def getOf (v : PyValue) (key : String) (default : PyValue) : Except PyError PyValue :=
  match v with
  | .dict d => .ok (PyDict.getD d key default)
  | _ => .error .attributeError

/-- The items of `for item in value`. -/
def items : PyValue → Except PyError (List PyValue)
  | .list xs => .ok xs
  | .dict d => .ok (d.map fun entry => .str entry.1)
  | .str s => .ok (s.toList.map fun c => .str (String.singleton c))
  | _ => .error .typeError

/-- `value[0]` of a value that is true. -/
def first? : PyValue → Except PyError (Option PyValue)
  | .list xs => .ok xs.head?
  | .str s => .ok (s.toList.head?.map fun c => .str (String.singleton c))
  | .dict [] => .ok Option.none
  | .dict _ => .error .keyError
  | v => if v.truthy then .error .typeError else .ok Option.none

/-! ### What they must be -/

variable {v : PyValue} {key : String} {default : PyValue}

end PyValue

namespace ThreadForge

/-- How `json.loads` can fail: with a `JSONDecodeError`, or with another exception, as on a number of
more digits than CPython converts, or on too deep a text. -/
inductive JsonFault
  | decode
  | other (e : PyError)
  deriving DecidableEq, Repr

/-- What a consumer reads of CPython: the text tables, `decode("utf-8", errors="replace")`, the tables
of JSON, and on which texts `json.loads` gives up with another exception than `JSONDecodeError`. -/
structure StreamEnv where
  txt : PyText
  decode : List UInt8 → List Char
  tables : PyJson.Tables
  fault : List Char → Option PyError

/-- `json.loads`. -/
def StreamEnv.loads (env : StreamEnv) (text : List Char) : Except JsonFault PyValue :=
  match env.fault text, PyJson.loads env.tables text with
  | some e, _ => .error (.other e)
  | none, some value => .ok value
  | none, none => .error .decode

/-! ## The event of a line -/

variable (env : StreamEnv)

/-- `text.strip()`, of characters. -/
def stripText (cs : List Char) : List Char :=
  (cs.dropWhile env.txt.isSpace).rdropWhile env.txt.isSpace

/-- The payload of a line, if it has one. -/
def payloadOf (raw : List UInt8) : Option (List Char) :=
  let line := stripText env (env.decode raw)
  if !"data:".toList.isPrefixOf line then none
  else
    let payload := stripText env (line.drop 5)
    if payload = [] then none else some payload

/-- The event of a line; a payload that is no JSON is passed over, as `[DONE]` is where the consumer
asks for it. -/
@[irreducible] def eventOf (skipsDone : Bool) (raw : List UInt8) : Except PyError (Option PyValue) :=
  match payloadOf env raw with
  | none => .ok none
  | some payload =>
    if skipsDone && payload == "[DONE]".toList then .ok none
    else match env.loads payload with
      | .ok event => .ok (some event)
      | .error .decode => .ok none
      | .error (.other e) => .error e

end ThreadForge
