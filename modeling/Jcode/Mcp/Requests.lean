import Jcode.Foundation.Run
import Jcode.Mcp.Protocol
import Mathlib.Logic.Function.Basic

/-!
# Requests to an MCP server

Any number of calls of `McpHandle::request`, made by the sessions that share a handle. On stdio, a
call writes its request and reads the next line under one lock. On HTTP, every call has a response
of its own. A caller may be dropped wherever it awaits.
-/

namespace Jcode

open Schedule

inductive McpTransport
  | stdio
  | http
  deriving DecidableEq

/-- A call of `McpHandle::request`, with the id that it sends. -/
inductive RequestCall
  | idle
  | queued (id : Nat)
  /-- Has the lock, and has written nothing. -/
  | locked (id : Nat)
  /-- Has written a part of the request. -/
  | writing (id : Nat)
  | written (id : Nat)
  | posted (id : Nat)
  | answered (id : Nat) (body : HttpBody)
  | returned (id : Nat) (result : RequestResult)
  | dropped

/-- `holder` has the lock. `torn` says that a part of a request was written and the rest will not
be. Then the requests that the server has read and not answered, and the lines that it has
written. -/
structure McpConnection where
  nextId : Nat
  calls : Nat → RequestCall
  holder : Option Nat
  torn : Bool
  unanswered : List Nat
  stdout : List String

/-- A step of call `n`, or of the server. -/
inductive McpMove
  | start (n : Nat)
  | lock (n : Nat)
  | write (n : Nat) (complete : Bool)
  | answer (id : Nat) (text : String)
  | say (text : String)
  | read (n : Nat)
  | post (n : Nat)
  | respond (n : Nat) (body : HttpBody)
  | receive (n : Nat)
  | drop (n : Nat)

namespace McpConnection

/-- The ids start at one. -/
def connected : McpConnection := ⟨1, fun _ => .idle, none, false, [], []⟩

def setCall (s : McpConnection) (n : Nat) (call : RequestCall) : McpConnection :=
  { s with calls := Function.update s.calls n call }

/-- The call is dropped; it has the lock no more. -/
def dropCall (s : McpConnection) (n : Nat) : McpConnection :=
  { s.setCall n .dropped with holder := if s.holder = some n then none else s.holder }

variable (transport : McpTransport) (fromStr : String → Option Json)

/-- One step. The request after a torn one is on the same line, and the server cannot read it. -/
def step (s : McpConnection) : McpMove → Option McpConnection
  | .start n =>
    match s.calls n with
    | .idle => some { s.setCall n (.queued s.nextId) with nextId := (s.nextId + 1) % 2 ^ 64 }
    | _ => none
  | .lock n =>
    match transport, s.calls n, s.holder with
    | .stdio, .queued id, none => some { s.setCall n (.locked id) with holder := some n }
    | _, _, _ => none
  | .write n complete =>
    match s.calls n with
    | .locked id | .writing id =>
      if complete then
        some { s.setCall n (.written id) with
          torn := false
          unanswered := if s.torn then s.unanswered else s.unanswered ++ [id] }
      else some (s.setCall n (.writing id))
    | _ => none
  | .answer id text =>
    if id ∈ s.unanswered ∧ respondsTo fromStr id text then
      some { s with unanswered := s.unanswered.erase id, stdout := s.stdout ++ [text] }
    else none
  | .say text =>
    match transport with
    | .stdio => if isOwn fromStr text then some { s with stdout := s.stdout ++ [text] } else none
    | .http => none
  | .read n =>
    match s.calls n, s.stdout with
    | .written id, line :: stdout =>
      some { s.setCall n (.returned id (receive (fromStr line))) with
        holder := none
        stdout := stdout }
    | _, _ => none
  | .post n =>
    match transport, s.calls n with
    | .http, .queued id => some (s.setCall n (.posted id))
    | _, _ => none
  | .respond n body =>
    match s.calls n with
    | .posted id =>
      if body.answers fromStr id then some (s.setCall n (.answered id body)) else none
    | _ => none
  | .receive n =>
    match s.calls n with
    | .answered id body => some (s.setCall n (.returned id (Jcode.receive (body.parse fromStr))))
    | _ => none
  | .drop n =>
    match s.calls n with
    | .queued _ | .locked _ | .written _ | .posted _ | .answered _ _ => some (s.dropCall n)
    | .writing _ => some { s.dropCall n with torn := true }
    | .idle | .returned _ _ | .dropped => none

/-- The effects of the steps, each with what it rests on. -/
inductive Effect (s : McpConnection) : McpMove → McpConnection → Prop
  | start (n : Nat) (hcall : s.calls n = .idle) :
      Effect s (.start n)
        { s.setCall n (.queued s.nextId) with nextId := (s.nextId + 1) % 2 ^ 64 }
  | lock (n id : Nat) (htransport : transport = .stdio) (hcall : s.calls n = .queued id)
      (hholder : s.holder = none) :
      Effect s (.lock n) { s.setCall n (.locked id) with holder := some n }
  | write (n id : Nat) (hcall : s.calls n = .locked id ∨ s.calls n = .writing id) :
      Effect s (.write n true) { s.setCall n (.written id) with
        torn := false
        unanswered := if s.torn then s.unanswered else s.unanswered ++ [id] }
  | writePart (n id : Nat) (hcall : s.calls n = .locked id ∨ s.calls n = .writing id) :
      Effect s (.write n false) (s.setCall n (.writing id))
  | answer (id : Nat) (text : String) (hid : id ∈ s.unanswered)
      (htext : respondsTo fromStr id text = true) :
      Effect s (.answer id text)
        { s with unanswered := s.unanswered.erase id, stdout := s.stdout ++ [text] }
  | say (text : String) : Effect s (.say text) { s with stdout := s.stdout ++ [text] }
  | read (n id : Nat) (line : String) (stdout : List String) (hcall : s.calls n = .written id)
      (hstdout : s.stdout = line :: stdout) :
      Effect s (.read n) { s.setCall n (.returned id (receive (fromStr line))) with
        holder := none
        stdout := stdout }
  | post (n id : Nat) (htransport : transport = .http) (hcall : s.calls n = .queued id) :
      Effect s (.post n) (s.setCall n (.posted id))
  | respond (n id : Nat) (body : HttpBody) (hcall : s.calls n = .posted id)
      (hbody : body.answers fromStr id = true) :
      Effect s (.respond n body) (s.setCall n (.answered id body))
  | receive (n id : Nat) (body : HttpBody) (hcall : s.calls n = .answered id body) :
      Effect s (.receive n) (s.setCall n (.returned id (Jcode.receive (body.parse fromStr))))
  | drop (n : Nat) (hcall : ∀ id, s.calls n ≠ .writing id) : Effect s (.drop n) (s.dropCall n)
  | dropWriting (n id : Nat) (hcall : s.calls n = .writing id) :
      Effect s (.drop n) { s.dropCall n with torn := true }

variable {transport fromStr} {s t : McpConnection} {m : McpMove} {n id : Nat}

/-- Every step has one of the effects. -/
theorem effect_of_step (ht : step transport fromStr s m = some t) :
    Effect transport fromStr s m t := by
  cases m with
  | start n =>
    simp only [step] at ht
    split at ht
    · rename_i hcall
      cases ht
      exact .start n hcall
    · cases ht
  | lock n =>
    simp only [step] at ht
    split at ht
    · rename_i id hcall hholder
      cases ht
      exact .lock n id rfl hcall hholder
    · cases ht
  | write n complete =>
    simp only [step] at ht
    have hwrite (id : Nat) (hcall : s.calls n = .locked id ∨ s.calls n = .writing id)
        (ht : (if complete then
            some { s.setCall n (.written id) with
              torn := false
              unanswered := if s.torn then s.unanswered else s.unanswered ++ [id] }
          else some (s.setCall n (.writing id))) = some t) :
        Effect transport fromStr s (.write n complete) t := by
      cases complete with
      | true =>
        cases ht
        exact .write n id hcall
      | false =>
        cases ht
        exact .writePart n id hcall
    split at ht
    · rename_i id hcall
      exact hwrite id (.inl hcall) ht
    · rename_i id hcall
      exact hwrite id (.inr hcall) ht
    · cases ht
  | answer id text =>
    simp only [step] at ht
    split_ifs at ht with h
    cases ht
    exact .answer id text h.1 h.2
  | say text =>
    simp only [step] at ht
    split at ht
    · split_ifs at ht
      cases ht
      exact .say text
    · cases ht
  | read n =>
    simp only [step] at ht
    split at ht
    · rename_i id line stdout hcall hstdout
      cases ht
      exact .read n id line stdout hcall hstdout
    · cases ht
  | post n =>
    simp only [step] at ht
    split at ht
    · rename_i id hcall
      cases ht
      exact .post n id rfl hcall
    · cases ht
  | respond n body =>
    simp only [step] at ht
    split at ht
    · rename_i id hcall
      split_ifs at ht with hbody
      cases ht
      exact .respond n id body hcall hbody
    · cases ht
  | receive n =>
    simp only [step] at ht
    split at ht
    · rename_i id body hcall
      cases ht
      exact .receive n id body hcall
    · cases ht
  | drop n =>
    simp only [step] at ht
    split at ht
    · rename_i hcall
      cases ht
      exact .drop n (by simp [hcall])
    · rename_i hcall
      cases ht
      exact .drop n (by simp [hcall])
    · rename_i hcall
      cases ht
      exact .drop n (by simp [hcall])
    · rename_i hcall
      cases ht
      exact .drop n (by simp [hcall])
    · rename_i hcall
      cases ht
      exact .drop n (by simp [hcall])
    · rename_i id hcall
      cases ht
      exact .dropWriting n id hcall
    all_goals cases ht

end McpConnection

end Jcode
