import Jcode.Foundation.PullStream
import Jcode.Foundation.Utf8
import Jcode.Provider.StreamEvent

/-!
# Server-sent events

What the decoders of the providers share: how a body is cut into events and their lines, and the
JSON values they read. The parsers of `serde_json` are parameters.
-/

namespace Jcode

/-- An event ends with an empty line. -/
def sseSeparator : Separator Char := ⟨['\n', '\n'], List.cons_ne_nil _ _⟩

def stripCarriageReturn (line : List Char) : List Char :=
  if line.getLast? = some '\r' then line.dropLast else line

/-- `str::lines`. -/
def lines (text : List Char) : List (List Char) :=
  let parts := text.splitOn '\n'
  parts.dropLast.map stripCarriageReturn ++ (parts.getLast?.filter (· ≠ [])).toList

def sseDataLine (line : List Char) : Option (List Char) :=
  ("data:".toList.isPrefixOf? line).map fun rest => ([' '].isPrefixOf? rest).getD rest

/-- A `serde_json::Value`. A number is kept with its value as an unsigned integer, if it has one. -/
inductive Json
  | null
  | bool (value : Bool)
  | number (asU64 : Option Nat) (text : String)
  | string (value : String)
  | array (items : List Json)
  | object (fields : List (String × Json))

namespace Json

def get (key : String) : Json → Option Json
  | .object fields => (fields.find? (·.1 = key)).map (·.2)
  | _ => none

def asStr : Json → Option String
  | .string value => some value
  | _ => none

def asArray : Json → Option (List Json)
  | .array items => some items
  | _ => none

def asU64 : Json → Option Nat
  | .number value _ => value
  | _ => none

def isObject : Json → Bool
  | .object _ => true
  | _ => false

def isArray : Json → Bool
  | .array _ => true
  | _ => false

variable (key : String) (value : Json)

def getStr : Option String := (value.get key).bind asStr

def getU64 : Option Nat := (value.get key).bind asU64

end Json

/-! ### Queues of events -/

/-- A decoder's event is the first of its queue. -/
def popFront {σ : Type} : List StreamEvent × σ → Option StreamEvent × List StreamEvent × σ
  | ([], s) => (none, [], s)
  | (event :: pending, s) => (some event, pending, s)

/-- No event of a provider's stream is a session id. -/
def NoSession (events : List StreamEvent) : Prop := ∀ sid, .sessionId sid ∉ events

/-- Events wait in the queue only behind one that is returned, and none is a session id. -/
structure WellHandled {σ : Type} (r : Option StreamEvent × List StreamEvent × σ) : Prop where
  quiet : r.1 = none → r.2.1 = []
  noSession : NoSession (r.1.toList ++ r.2.1)

section

variable {σ : Type} {events more : List StreamEvent} {event : StreamEvent} {s : σ}

lemma noSession_nil : NoSession [] := fun _ => List.not_mem_nil

lemma noSession_append : NoSession (events ++ more) ↔ NoSession events ∧ NoSession more := by
  simp only [NoSession, List.mem_append, not_or, forall_and]

lemma wellHandled_none : WellHandled (none, [], s) := ⟨fun _ => rfl, noSession_nil⟩

lemma wellHandled_some (hevent : ∀ sid, .sessionId sid ≠ event) (h : NoSession events) :
    WellHandled (some event, events, s) :=
  ⟨fun hnone => (nomatch hnone), fun sid hmem => (List.mem_cons.mp hmem).elim (hevent sid) (h sid)⟩

lemma wellHandled_popFront (h : NoSession events) : WellHandled (popFront (events, s)) := by
  cases events with
  | nil => exact wellHandled_none
  | cons event events => exact ⟨fun hnone => (nomatch hnone), h⟩

end

end Jcode
