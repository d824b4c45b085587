import Jcode.Foundation.LineLog
import Jcode.Provider.Sse
import Jcode.Swarm.Member
import Mathlib.Algebra.Group.Int.Defs

/-!
# JSON-RPC messages of MCP servers

What a client reads from a line, or from a response body, that a server has sent. `serde_json` is a
parameter.
-/

namespace Jcode

namespace Json

def asI64 : Json → Option Int
  | .number _ text => text.toInt?.filter fun n => decide (-2 ^ 63 ≤ n ∧ n < 2 ^ 63)
  | _ => none

/-- An optional field, which may also be null. -/
def optional {α : Type} (read : Json → Option α) (key : String) (value : Json) :
    Option (Option α) :=
  match value.get key with
  | none | some .null => some none
  | some field => (read field).map some

end Json

structure JsonRpcError where
  code : Int
  message : String
  data : Option Json

def JsonRpcError.fromValue (value : Json) : Option JsonRpcError := do
  let code ← (value.get "code").bind Json.asI64
  let message ← value.getStr "message"
  let data ← value.optional some "data"
  return ⟨code, message, data⟩

structure JsonRpcResponse where
  jsonrpc : String
  id : Option Nat
  result : Option Json
  error : Option JsonRpcError

/-- Whatever else is in the message is ignored. -/
def JsonRpcResponse.fromValue (value : Json) : Option JsonRpcResponse := do
  let jsonrpc ← value.getStr "jsonrpc"
  let id ← value.optional Json.asU64 "id"
  let result ← value.optional some "result"
  let error ← value.optional JsonRpcError.fromValue "error"
  return ⟨jsonrpc, id, result, error⟩

/-- How `McpHandle::request` ends. An error of the server is one of its responses. -/
inductive RequestResult
  | ok (response : JsonRpcResponse)
  | serverError (response : JsonRpcResponse) (error : JsonRpcError)
  | failed (context : String)

/-- The response that was taken for the one of the request. -/
def RequestResult.response : RequestResult → Option JsonRpcResponse
  | .ok response | .serverError response _ => some response
  | .failed _ => none

/-- `McpHandle::request`, with what the round trip has read. -/
def receive : Option Json → RequestResult
  | none => .failed "MCP round_trip failed"
  | some value =>
    match JsonRpcResponse.fromValue value with
    | none => .failed "MCP response not a JSON-RPC envelope"
    | some response =>
      match response.error with
      | some error => .serverError response error
      | none => .ok response

lemma response_receive {value : Json} {response : JsonRpcResponse}
    (h : JsonRpcResponse.fromValue value = some response) :
    (receive (some value)).response = some response := by
  cases herror : response.error <;> simp [receive, h, herror, RequestResult.response]

/-! ### What a server sends -/

/-- A response to request `id`. -/
def Json.respondsTo (id : Nat) (value : Json) : Bool :=
  (value.get "method").isNone &&
    (JsonRpcResponse.fromValue value).any fun response => response.id == some id

/-- A notification or a request of the server's own. -/
def Json.isOwn (value : Json) : Bool := (value.get "method").isSome

section

variable (fromStr : String → Option Json)

def respondsTo (id : Nat) (text : String) : Bool := (fromStr text).any (·.respondsTo id)

def isOwn (text : String) : Bool := (fromStr text).any (·.isOwn)

variable {fromStr}

/-- A response is received as what it is. -/
lemma receive_of_respondsTo {id : Nat} {text : String} (h : respondsTo fromStr id text = true) :
    ∃ response, (receive (fromStr text)).response = some response ∧ response.id = some id := by
  obtain ⟨value, hvalue, hresponds⟩ := (Option.any_eq_true _ _).mp h
  obtain ⟨response, hresponse, hid⟩ :=
    (Option.any_eq_true _ _).mp (Bool.and_eq_true_iff.mp hresponds).2
  refine ⟨response, ?_, by simpa using hid⟩
  rw [hvalue]
  exact response_receive hresponse

end

/-! ### Bodies of HTTP responses -/

/-- The `data:` lines of an event: trimmed parts of a JSON text. -/
structure SseEvent where
  data : List (List Char)
  ne_nil : data ≠ []
  parts : ∀ part ∈ data, part ≠ [] ∧ '\n' ∉ part ∧
    (∀ c ∈ part.head?, isWhitespace c = false) ∧ ∀ c ∈ part.getLast?, isWhitespace c = false

/-- The text that an event carries. -/
def SseEvent.text (event : SseEvent) : String :=
  String.ofList (['\n'].intercalate event.data)

def SseEvent.bodyLines (event : SseEvent) : List (List Char) :=
  event.data.map ("data: ".toList ++ ·) ++ [[]]

/-- The body of an answer: one JSON text, or events. -/
inductive HttpBody
  | json (text : String)
  | sse (events : List SseEvent)

def sseText (events : List SseEvent) : String :=
  String.ofList (LineLog.frame '\n' (events.flatMap SseEvent.bodyLines))

/-- The loop of `parse_sse_payload`. -/
def pushData (concatenated line : List Char) : List Char :=
  match "data:".toList.isPrefixOf? line with
  | none => concatenated
  | some rest =>
    let part := (trim (String.ofList rest)).toList
    if part = [] then concatenated
    else if concatenated = [] then part
    else concatenated ++ '\n' :: part

section

variable (fromStr : String → Option Json)

def parseSsePayload (body : String) : Option Json :=
  let concatenated := (LineLog.lines '\n' '\r' body.toList).foldl pushData []
  if concatenated = [] then none else fromStr (String.ofList concatenated)

/-- The end of `HttpMessageTransport::round_trip`. -/
def HttpBody.parse : HttpBody → Option Json
  | .json text => fromStr text
  | .sse events => parseSsePayload fromStr (sseText events)

/-- The body answers request `id` once; its other events are the server's own. -/
def HttpBody.answers (id : Nat) : HttpBody → Bool
  | .json text => respondsTo fromStr id text
  | .sse events =>
    (events.countP fun event => respondsTo fromStr id event.text) == 1 &&
      events.all fun event => respondsTo fromStr id event.text || isOwn fromStr event.text

/-- Nothing of the server's own is in the body. -/
def HttpBody.Single : HttpBody → Prop
  | .json _ => True
  | .sse events => events.length = 1

end

/-! ### Reading events back -/

section

variable {fromStr : String → Option Json} {event : SseEvent} {events : List SseEvent}
  {part concatenated : List Char} {id : Nat}

lemma trim_part (hhead : ∀ c ∈ part.head?, isWhitespace c = false)
    (hlast : ∀ c ∈ part.getLast?, isWhitespace c = false) :
    trim (String.ofList (' ' :: part)) = String.ofList part := by
  have hspace : isWhitespace ' ' = true := by decide
  have hstart : part.dropWhile isWhitespace = part := by
    cases part with
    | nil => rfl
    | cons c part => exact List.dropWhile_cons_of_neg (by simp [hhead c rfl])
  have hend : part.reverse.dropWhile isWhitespace = part.reverse := by
    cases hrev : part.reverse with
    | nil => rfl
    | cons c rest =>
      refine List.dropWhile_cons_of_neg ?_
      have hc : part.getLast? = some c := by
        rw [← List.head?_reverse, hrev]
        rfl
      simp [hlast c hc]
  rw [trim, String.toList_ofList, List.dropWhile_cons_of_pos hspace, hstart, hend,
    List.reverse_reverse]

lemma pushData_part (hne : part ≠ []) (hhead : ∀ c ∈ part.head?, isWhitespace c = false)
    (hlast : ∀ c ∈ part.getLast?, isWhitespace c = false) :
    pushData concatenated ("data: ".toList ++ part) =
      if concatenated = [] then part else concatenated ++ '\n' :: part := by
  have hprefix : "data:".toList.isPrefixOf? ("data: ".toList ++ part) = some (' ' :: part) := by
    simp [List.isPrefixOf?]
  simp only [pushData, hprefix, trim_part hhead hlast, String.toList_ofList, hne, if_false]

lemma pushData_nil : pushData concatenated [] = concatenated := rfl

/-- The parts of an event that follow the first one. -/
lemma foldl_pushData {parts : List (List Char)} (hconcatenated : concatenated ≠ [])
    (hparts : ∀ part ∈ parts, part ≠ [] ∧ '\n' ∉ part ∧
      (∀ c ∈ part.head?, isWhitespace c = false) ∧ ∀ c ∈ part.getLast?, isWhitespace c = false) :
    (parts.map ("data: ".toList ++ ·)).foldl pushData concatenated =
      concatenated ++ parts.flatMap ('\n' :: ·) := by
  induction parts generalizing concatenated with
  | nil => simp
  | cons part parts ih =>
    obtain ⟨hne, -, hhead, hlast⟩ := hparts part List.mem_cons_self
    rw [List.map_cons, List.foldl_cons, pushData_part hne hhead hlast, if_neg hconcatenated,
      ih (by simp) fun other hmem => hparts other (List.mem_cons_of_mem part hmem)]
    simp

lemma intercalate_newline (part : List Char) (parts : List (List Char)) :
    ['\n'].intercalate (part :: parts) = part ++ parts.flatMap ('\n' :: ·) := by
  induction parts generalizing part with
  | nil => simp [List.intercalate]
  | cons next parts ih =>
    have hnext := ih next
    simp only [List.intercalate, List.intersperse_cons_cons, List.flatten_cons,
      List.flatMap_cons, List.cons_append] at hnext ⊢
    rw [hnext, List.nil_append]

/-- The payload of an event is its text. -/
lemma foldl_pushData_bodyLines :
    event.bodyLines.foldl pushData [] = ['\n'].intercalate event.data := by
  obtain ⟨data, hdata, hparts⟩ := event
  cases data with
  | nil => exact (hdata rfl).elim
  | cons part parts =>
    obtain ⟨hne, -, hhead, hlast⟩ := hparts part List.mem_cons_self
    simp only [SseEvent.bodyLines, List.map_cons, List.cons_append, List.foldl_cons,
      List.foldl_append, List.foldl_nil, pushData_nil]
    rw [pushData_part hne hhead hlast, if_pos rfl,
      foldl_pushData hne fun other hmem => hparts other (List.mem_cons_of_mem part hmem),
      intercalate_newline]

/-- The lines of a body are read as they were written. -/
lemma lines_sseText :
    LineLog.lines '\n' '\r' (sseText events).toList = events.flatMap SseEvent.bodyLines := by
  have hlines : ∀ line ∈ events.flatMap SseEvent.bodyLines,
      '\n' ∉ line ∧ line.getLast? ≠ some '\r' := by
    intro line hmem
    obtain ⟨event, -, hline⟩ := List.mem_flatMap.mp hmem
    rcases List.mem_append.mp hline with hline | hline
    · obtain ⟨part, hpart, rfl⟩ := List.mem_map.mp hline
      obtain ⟨hne, hnl, -, hlast⟩ := event.parts part hpart
      refine ⟨by simpa using hnl, fun hcr => ?_⟩
      rw [List.getLast?_append_of_ne_nil _ hne] at hcr
      exact absurd (hlast '\r' hcr) (by decide)
    · cases List.mem_singleton.mp hline
      exact ⟨List.not_mem_nil, by simp⟩
  have hframe : LineLog.lines '\n' '\r'
      (LineLog.frame '\n' (events.flatMap SseEvent.bodyLines) ++ []) =
        events.flatMap SseEvent.bodyLines ++ LineLog.lines '\n' '\r' [] :=
    LineLog.lines_frame_append hlines
  rw [List.append_nil] at hframe
  rw [sseText, String.toList_ofList, hframe]
  simp [LineLog.lines, LineLog.linesFrom]

/-- An event on its own is parsed as its text. -/
lemma parse_singleton : (HttpBody.sse [event]).parse fromStr = fromStr event.text := by
  have hne : ['\n'].intercalate event.data ≠ [] := by
    obtain ⟨data, hdata, hparts⟩ := event
    cases data with
    | nil => exact (hdata rfl).elim
    | cons part parts =>
      rw [intercalate_newline]
      exact List.append_ne_nil_of_left_ne_nil (hparts part List.mem_cons_self).1 _
  simp only [HttpBody.parse, parseSsePayload, lines_sseText, List.flatMap_cons, List.flatMap_nil,
    List.append_nil, foldl_pushData_bodyLines, hne, if_false]
  rfl

/-- A body with the response alone is received as the response. -/
lemma receive_parse {body : HttpBody} (h : body.answers fromStr id = true) (hbody : body.Single) :
    ∃ response, (receive (body.parse fromStr)).response = some response ∧
      response.id = some id := by
  cases body with
  | json text => exact receive_of_respondsTo h
  | sse events =>
    obtain ⟨event, rfl⟩ := List.length_eq_one_iff.mp hbody
    rw [parse_singleton]
    have hresponds : respondsTo fromStr id event.text = true := by
      simp only [HttpBody.answers, List.countP_cons, List.countP_nil, Bool.and_eq_true] at h
      simpa using h.1
    exact receive_of_respondsTo hresponds

end

end Jcode
