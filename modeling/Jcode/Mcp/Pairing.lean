import Jcode.Mcp.Requests

/-!
# Responses go to their requests

A call takes the next line of the server, or the whole body, for its response. That is right while
the server says nothing of its own, and while nobody who has begun to write is dropped before the
next line is read.
-/

namespace Jcode

open Schedule

/-- The id of a call that is on its way. -/
def RequestCall.inFlight : RequestCall → Option Nat
  | .queued id | .locked id | .writing id | .written id | .posted id | .answered id _ => some id
  | .idle | .returned _ _ | .dropped => none

/-- The id of a call that has the lock. -/
def RequestCall.holding : RequestCall → Option Nat
  | .locked id | .writing id | .written id => some id
  | _ => none

/-- The call has returned, and with the response to its id. -/
def RequestCall.Responded (id : Nat) (call : RequestCall) : Prop :=
  ∃ result response, call = .returned id result ∧ result.response = some response ∧
    response.id = some id

/-- No caller starts or is dropped, and the server says nothing of its own. -/
def McpMove.Serves : McpMove → Prop
  | .start _ | .drop _ | .say _ => False
  | .respond _ body => body.Single
  | _ => True

namespace McpConnection

variable (transport : McpTransport) (fromStr : String → Option Json)

/-- The calls on their way and the server can go on to `t`. -/
def Reaches (s t : McpConnection) : Prop :=
  ∃ ms, (∀ m ∈ ms, m.Serves) ∧ exec (step transport fromStr) s ms = some t

/-- Whoever has returned has the response to its id, and whoever is on its way can have it, without
anybody dropped. -/
structure Paired (s : McpConnection) : Prop where
  returned : ∀ n id result, s.calls n = .returned id result → (s.calls n).Responded id
  served : ∀ n id, (s.calls n).inFlight = some id →
    ∃ t, Reaches transport fromStr s t ∧ (t.calls n).Responded id

/-- The server says nothing of its own, and nobody is dropped between its first byte and the next
line. -/
def Undisturbed (s : McpConnection) : McpMove → Prop
  | .say _ => False
  | .respond _ body => body.Single
  | .drop n => ∀ id, s.calls n ≠ .writing id ∧ s.calls n ≠ .written id
  | _ => True

/-- What is on its way for the call that has the lock. -/
inductive Turn : RequestCall → List Nat → List String → Prop
  | locked (id : Nat) : Turn (.locked id) [] []
  | writing (id : Nat) : Turn (.writing id) [] []
  | written (id : Nat) : Turn (.written id) [id] []
  | answered (id : Nat) (text : String) (h : respondsTo fromStr id text = true) :
      Turn (.written id) [] [text]

/-- One call at most is between its request and its response. -/
structure InStep (s : McpConnection) : Prop where
  torn : s.torn = false
  free : s.holder = none → s.unanswered = [] ∧ s.stdout = []
  turn : ∀ n, s.holder = some n → Turn fromStr (s.calls n) s.unanswered s.stdout
  holder : ∀ n id, (s.calls n).holding = some id → s.holder = some n
  http : transport = .http → s.holder = none
  stdio : transport = .stdio → ∀ n id body, s.calls n ≠ .posted id ∧ s.calls n ≠ .answered id body
  body : ∀ n id body, s.calls n = .answered id body →
    body.answers fromStr id = true ∧ body.Single
  returned : ∀ n id result, s.calls n = .returned id result → (s.calls n).Responded id

variable {transport fromStr} {s t : McpConnection} {m : McpMove} {n id : Nat}

/-! ### One step -/

lemma calls_setCall {call : RequestCall} {k : Nat} :
    (s.setCall n call).calls k = if k = n then call else s.calls k := by
  simp [setCall, Function.update_apply]

lemma Turn.holding {call : RequestCall} {unanswered : List Nat} {stdout : List String}
    (h : Turn fromStr call unanswered stdout) : ∃ id, call.holding = some id := by
  cases h <;> exact ⟨_, rfl⟩

/-- The next id does not matter. -/
lemma InStep.congr (h : InStep transport fromStr s) (hcalls : t.calls = s.calls)
    (hholder : t.holder = s.holder) (htorn : t.torn = s.torn)
    (hunanswered : t.unanswered = s.unanswered) (hstdout : t.stdout = s.stdout) :
    InStep transport fromStr t := by
  cases s
  cases t
  subst hcalls hholder htorn hunanswered hstdout
  exact ⟨h.torn, h.free, h.turn, h.holder, h.http, h.stdio, h.body, h.returned⟩

/-- A call that has not the lock goes on. -/
lemma InStep.setCall (h : InStep transport fromStr s) {call : RequestCall}
    (hwas : (s.calls n).holding = none) (hcall : call.holding = none)
    (hstdio : transport = .stdio → ∀ id body, call ≠ .posted id ∧ call ≠ .answered id body)
    (hbody : ∀ id body, call = .answered id body → body.answers fromStr id = true ∧ body.Single)
    (hreturned : ∀ id result, call = .returned id result → call.Responded id) :
    InStep transport fromStr (s.setCall n call) := by
  have hne (k : Nat) (hk : s.holder = some k) : k ≠ n := by
    rintro rfl
    obtain ⟨id, hid⟩ := (h.turn k hk).holding
    cases hwas.symm.trans hid
  refine ⟨h.torn, h.free, fun k hk => ?_, fun k id hk => ?_, h.http, fun hs k id body => ?_,
    fun k id body hk => ?_, fun k id result hk => ?_⟩
  · rw [calls_setCall, if_neg (hne k hk)]
    exact h.turn k hk
  · rw [calls_setCall] at hk
    split_ifs at hk
    · cases hcall.symm.trans hk
    · exact h.holder k id hk
  · rw [calls_setCall]
    split_ifs
    · exact hstdio hs id body
    · exact h.stdio hs k id body
  · rw [calls_setCall] at hk
    split_ifs at hk
    · exact hbody id body hk
    · exact h.body k id body hk
  · rw [calls_setCall] at hk ⊢
    split_ifs at hk ⊢
    · exact hreturned id result hk
    · exact h.returned k id result hk

/-- The call that has the lock goes on with it. -/
lemma InStep.setTurn (h : InStep transport fromStr s) {call : RequestCall} {unanswered : List Nat}
    {stdout : List String} (hholder : s.holder = some n)
    (hturn : Turn fromStr call unanswered stdout) :
    InStep transport fromStr { s.setCall n call with
      torn := false, unanswered := unanswered, stdout := stdout } := by
  refine ⟨rfl, fun hnone => ?_, fun k hk => ?_, fun k id hk => ?_, h.http, fun hs k id body => ?_,
    fun k id body hk => ?_, fun k id result hk => ?_⟩
  · cases hholder.symm.trans hnone
  · cases hholder.symm.trans hk
    simpa [calls_setCall] using hturn
  · by_cases hkn : k = n
    · rw [hkn]
      exact hholder
    · exact h.holder k id (by simpa [calls_setCall, hkn] using hk)
  · by_cases hkn : k = n
    · cases hturn <;> simp [calls_setCall, hkn]
    · simpa [calls_setCall, hkn] using h.stdio hs k id body
  · by_cases hkn : k = n
    · cases hturn <;> simp [calls_setCall, hkn] at hk
    · exact h.body k id body (by simpa [calls_setCall, hkn] using hk)
  · by_cases hkn : k = n
    · cases hturn <;> simp [calls_setCall, hkn] at hk
    · have hwas : s.calls k = .returned id result := by simpa [calls_setCall, hkn] using hk
      simpa [calls_setCall, hkn] using h.returned k id result hwas

/-- The call that has the lock gives it up. -/
lemma InStep.setFree (h : InStep transport fromStr s) {call : RequestCall}
    (hholder : s.holder = some n) (hcall : call.holding = none)
    (hstdio : ∀ id body, call ≠ .posted id ∧ call ≠ .answered id body)
    (hreturned : ∀ id result, call = .returned id result → call.Responded id) :
    InStep transport fromStr { s.setCall n call with
      holder := none, unanswered := [], stdout := [] } := by
  refine ⟨h.torn, fun _ => ⟨rfl, rfl⟩, by simp, fun k id hk => ?_, fun _ => rfl,
    fun hs k id body => ?_, fun k id body hk => ?_, fun k id result hk => ?_⟩
  · exfalso
    by_cases hkn : k = n
    · rw [show ({ s.setCall n call with
        holder := none, unanswered := [], stdout := [] } : McpConnection).calls k = call by
          simp [calls_setCall, hkn]] at hk
      cases hcall.symm.trans hk
    · have hk' := h.holder k id (by simpa [calls_setCall, hkn] using hk)
      exact hkn (Option.some.inj (hk'.symm.trans hholder))
  · by_cases hkn : k = n
    · simpa [calls_setCall, hkn] using hstdio id body
    · simpa [calls_setCall, hkn] using h.stdio hs k id body
  · by_cases hkn : k = n
    · exact ((hstdio id body).2 (by simpa [calls_setCall, hkn] using hk)).elim
    · exact h.body k id body (by simpa [calls_setCall, hkn] using hk)
  · by_cases hkn : k = n
    · simpa [calls_setCall, hkn] using hreturned id result (by simpa [calls_setCall, hkn] using hk)
    · have hwas : s.calls k = .returned id result := by simpa [calls_setCall, hkn] using hk
      simpa [calls_setCall, hkn] using h.returned k id result hwas

/-- Nobody has the lock; the call takes it. -/
lemma InStep.lock (h : InStep transport fromStr s) (htransport : transport = .stdio)
    (hholder : s.holder = none) :
    InStep transport fromStr { s.setCall n (.locked id) with holder := some n } := by
  obtain ⟨hunanswered, hstdout⟩ := h.free hholder
  refine ⟨h.torn, by simp, fun k hk => ?_, fun k id' hk => ?_, fun hs => ?_,
    fun hs k id' body => ?_, fun k id' body hk => ?_, fun k id' result hk => ?_⟩
  · cases hk
    rw [calls_setCall, if_pos rfl]
    change Turn fromStr _ s.unanswered s.stdout
    rw [hunanswered, hstdout]
    exact .locked id
  · by_cases hkn : k = n
    · rw [hkn]
    · cases hholder.symm.trans (h.holder k id' (by simpa [calls_setCall, hkn] using hk))
  · cases htransport.symm.trans hs
  · by_cases hkn : k = n
    · simp [calls_setCall, hkn]
    · simpa [calls_setCall, hkn] using h.stdio hs k id' body
  · by_cases hkn : k = n
    · simp [calls_setCall, hkn] at hk
    · exact h.body k id' body (by simpa [calls_setCall, hkn] using hk)
  · by_cases hkn : k = n
    · simp [calls_setCall, hkn] at hk
    · have hwas : s.calls k = .returned id' result := by simpa [calls_setCall, hkn] using hk
      simpa [calls_setCall, hkn] using h.returned k id' result hwas

/-- Whoever writes has the lock, and nothing is on its way. -/
lemma InStep.writes (h : InStep transport fromStr s)
    (hcall : s.calls n = .locked id ∨ s.calls n = .writing id) :
    s.holder = some n ∧ s.unanswered = [] ∧ s.stdout = [] := by
  have hholder : s.holder = some n := by
    rcases hcall with hcall | hcall <;> exact h.holder n id (by rw [hcall]; rfl)
  have hturn := h.turn n hholder
  generalize hunanswered : s.unanswered = unanswered at hturn ⊢
  generalize hstdout : s.stdout = stdout at hturn ⊢
  rcases hcall with hcall | hcall <;> rw [hcall] at hturn <;> cases hturn <;>
    exact ⟨hholder, rfl, rfl⟩

/-- The server answers the call that has the lock. -/
lemma InStep.answers (h : InStep transport fromStr s) (hid : id ∈ s.unanswered) :
    ∃ n, s.holder = some n ∧ s.calls n = .written id ∧ s.unanswered = [id] ∧ s.stdout = [] := by
  cases hholder : s.holder with
  | none => simp [(h.free hholder).1] at hid
  | some n =>
    have hturn := h.turn n hholder
    generalize hcall : s.calls n = call at hturn
    generalize hunanswered : s.unanswered = unanswered at hturn hid
    generalize hstdout : s.stdout = stdout at hturn
    cases hturn with
    | locked | writing | answered => cases hid
    | written id' =>
      cases List.mem_singleton.mp hid
      exact ⟨n, rfl, hcall, rfl, rfl⟩

/-- The next line is the response to the call that reads it. -/
lemma InStep.reads (h : InStep transport fromStr s) {line : String} {stdout : List String}
    (hcall : s.calls n = .written id) (hstdout : s.stdout = line :: stdout) :
    s.holder = some n ∧ respondsTo fromStr id line = true ∧ s.unanswered = [] ∧ stdout = [] := by
  have hholder := h.holder n id (by rw [hcall]; rfl)
  have hturn := h.turn n hholder
  rw [hcall, hstdout] at hturn
  generalize hunanswered : s.unanswered = unanswered at hturn ⊢
  cases hturn with
  | answered id text htext => exact ⟨hholder, htext, rfl, rfl⟩

lemma responded_of {result : RequestResult}
    (h : ∃ response, result.response = some response ∧ response.id = some id) :
    (RequestCall.returned id result).Responded id := by
  obtain ⟨response, hresponse, hid⟩ := h
  exact ⟨result, response, rfl, hresponse, hid⟩

/-- Nothing is on its way for a call that has written nothing. -/
lemma InStep.nothing (h : InStep transport fromStr s) (hholder : s.holder = some n)
    (hm : ∀ id, s.calls n ≠ .writing id ∧ s.calls n ≠ .written id) :
    s.unanswered = [] ∧ s.stdout = [] := by
  have hturn := h.turn n hholder
  generalize hcall : s.calls n = call at hturn
  generalize s.unanswered = unanswered at hturn ⊢
  generalize s.stdout = stdout at hturn ⊢
  cases hturn with
  | locked => exact ⟨rfl, rfl⟩
  | writing id => exact ((hm id).1 hcall).elim
  | written id => exact ((hm id).2 hcall).elim
  | answered id => exact ((hm id).2 hcall).elim

lemma InStep.drop (h : InStep transport fromStr s)
    (hm : ∀ id, s.calls n ≠ .writing id ∧ s.calls n ≠ .written id) :
    InStep transport fromStr (s.dropCall n) := by
  by_cases hholder : s.holder = some n
  · obtain ⟨hunanswered, hstdout⟩ := h.nothing hholder hm
    have hfree : InStep transport fromStr { s.setCall n .dropped with
        holder := none, unanswered := [], stdout := [] } :=
      h.setFree hholder rfl (fun _ _ => ⟨by simp, by simp⟩) (by simp)
    exact hfree.congr rfl (if_pos hholder) rfl hunanswered hstdout
  · have hwas : (s.calls n).holding = none := by
      cases hholding : (s.calls n).holding with
      | none => rfl
      | some id => exact (hholder (h.holder n id hholding)).elim
    have hset : InStep transport fromStr (s.setCall n .dropped) :=
      h.setCall hwas rfl (fun _ _ _ => ⟨by simp, by simp⟩) (by simp) (by simp)
    exact hset.congr rfl (if_neg hholder) rfl rfl rfl

lemma InStep.of_step (h : InStep transport fromStr s) (hm : Undisturbed s m)
    (ht : step transport fromStr s m = some t) : InStep transport fromStr t := by
  cases effect_of_step ht with
  | start n hcall =>
    have hset : InStep transport fromStr (s.setCall n (.queued s.nextId)) :=
      h.setCall (by rw [hcall]; rfl) rfl (fun _ _ _ => ⟨by simp, by simp⟩) (by simp) (by simp)
    exact hset.congr rfl rfl rfl rfl rfl
  | lock n id htransport hcall hholder => exact h.lock htransport hholder
  | write n id hcall =>
    obtain ⟨hholder, hunanswered, hstdout⟩ := h.writes hcall
    exact (h.setTurn hholder (.written id)).congr rfl rfl rfl (by simp [h.torn, hunanswered])
      hstdout
  | writePart n id hcall =>
    obtain ⟨hholder, hunanswered, hstdout⟩ := h.writes hcall
    exact (h.setTurn hholder (.writing id)).congr rfl rfl h.torn hunanswered hstdout
  | answer id text hid htext =>
    obtain ⟨n, hholder, hcall, hunanswered, hstdout⟩ := h.answers hid
    refine (h.setTurn hholder (.answered id text htext)).congr ?_ rfl h.torn
      (by simp [hunanswered]) (by simp [hstdout])
    rw [← hcall]
    exact (Function.update_eq_self n s.calls).symm
  | say text => exact hm.elim
  | read n id line stdout hcall hstdout =>
    obtain ⟨hholder, htext, hunanswered, rfl⟩ := h.reads hcall hstdout
    have hfree : InStep transport fromStr
        { s.setCall n (.returned id (receive (fromStr line))) with
          holder := none, unanswered := [], stdout := [] } := by
      refine h.setFree hholder rfl (fun _ _ => ⟨by simp, by simp⟩) fun id' result heq => ?_
      cases heq
      exact responded_of (receive_of_respondsTo htext)
    exact hfree.congr rfl rfl rfl hunanswered rfl
  | post n id htransport hcall =>
    refine h.setCall (by rw [hcall]; rfl) rfl (fun hs => ?_) (by simp) (by simp)
    cases htransport.symm.trans hs
  | respond n id body hcall hbody =>
    refine h.setCall (by rw [hcall]; rfl) rfl (fun hs => ?_) (fun id' body' heq => ?_) (by simp)
    · exact ((h.stdio hs n id body).1 hcall).elim
    · cases heq
      exact ⟨hbody, hm⟩
  | receive n id body hcall =>
    refine h.setCall (by rw [hcall]; rfl) rfl (fun _ _ _ => ⟨by simp, by simp⟩) (by simp)
      fun id' result heq => ?_
    cases heq
    obtain ⟨hanswers, hsingle⟩ := h.body n id body hcall
    exact responded_of (receive_parse hanswers hsingle)
  | drop n hcall => exact h.drop hm
  | dropWriting n id hcall => exact ((hm id).1 hcall).elim

lemma inStep_connected : InStep transport fromStr connected where
  torn := rfl
  free _ := ⟨rfl, rfl⟩
  turn := by rintro _ ⟨⟩
  holder := by rintro _ _ ⟨⟩
  http _ := rfl
  stdio _ _ _ _ := ⟨by rintro ⟨⟩, by rintro ⟨⟩⟩
  body := by rintro _ _ _ ⟨⟩
  returned := by rintro _ _ _ ⟨⟩

/-! ### Every call can be served -/

lemma Reaches.refl : Reaches transport fromStr s s := ⟨[], by simp, rfl⟩

lemma Reaches.head {u : McpConnection} (hm : m.Serves) (ht : step transport fromStr s m = some t)
    (h : Reaches transport fromStr t u) : Reaches transport fromStr s u := by
  obtain ⟨ms, hms, hu⟩ := h
  exact ⟨m :: ms, List.forall_mem_cons.mpr ⟨hm, hms⟩, exec_cons_eq_some.mpr ⟨t, ht, hu⟩⟩

lemma Reaches.trans {u : McpConnection} (h : Reaches transport fromStr s t)
    (hu : Reaches transport fromStr t u) : Reaches transport fromStr s u := by
  obtain ⟨ms, hms, ht⟩ := h
  obtain ⟨ks, hks, hu⟩ := hu
  refine ⟨ms ++ ks, fun m hm => ?_, exec_append_eq_some.mpr ⟨t, ht, hu⟩⟩
  exact (List.mem_append.mp hm).elim (hms m) (hks m)

lemma InStep.reaches (h : InStep transport fromStr s) (ht : Reaches transport fromStr s t) :
    InStep transport fromStr t := by
  obtain ⟨ms, hms, ht⟩ := ht
  have hguarded : Guarded (step transport fromStr) Undisturbed s ms := by
    refine guarded_of_steps fun ks m ls u hk _ => ?_
    have hserves : m.Serves := hms m (by simp [hk])
    cases m with
    | start n | drop n | say text => exact hserves.elim
    | _ => exact hserves
  exact exec_invariant_of_guarded (fun _ _ _ h hm ht => h.of_step hm ht) hguarded h ht

/-- The line that answers the call is read. -/
lemma reaches_read {text : String} (hcall : s.calls n = .written id) (hstdout : s.stdout = [text]) :
    Reaches transport fromStr s { s.setCall n (.returned id (receive (fromStr text))) with
      holder := none, stdout := [] } :=
  .head (m := .read n) trivial (by simp [step, hcall, hstdout]) .refl

/-- The server answers the call that has written, which then reads the answer. -/
lemma reaches_answer {text : String} (htext : respondsTo fromStr id text = true)
    (hcall : s.calls n = .written id) (hunanswered : s.unanswered = [id])
    (hstdout : s.stdout = []) :
    Reaches transport fromStr s { s.setCall n (.returned id (receive (fromStr text))) with
      holder := none, unanswered := [], stdout := [] } := by
  refine .head (m := .answer id text) (t := { s with unanswered := [], stdout := [text] }) trivial
    (by simp [step, hunanswered, hstdout, htext]) ?_
  exact reaches_read hcall rfl

/-- The call that has the lock writes, and is answered. -/
lemma reaches_write {text : String} (htext : respondsTo fromStr id text = true)
    (hcall : s.calls n = .locked id ∨ s.calls n = .writing id) (htorn : s.torn = false)
    (hunanswered : s.unanswered = []) (hstdout : s.stdout = []) :
    ∃ t, Reaches transport fromStr s t ∧ t.holder = none ∧
      t.calls = Function.update s.calls n (.returned id (receive (fromStr text))) := by
  have hwrite : step transport fromStr s (.write n true) = some { s.setCall n (.written id) with
      torn := false, unanswered := [id] } := by
    rcases hcall with hcall | hcall <;> simp [step, hcall, htorn, hunanswered]
  have hserves : (McpMove.write n true).Serves := trivial
  have hwritten : (s.setCall n (.written id)).calls n = .written id := by
    rw [calls_setCall, if_pos rfl]
  refine ⟨_, .head hserves hwrite (reaches_answer htext hwritten rfl hstdout), rfl, ?_⟩
  simp [setCall]

/-- A call that has its body returns. -/
lemma InStep.serveAnswered (h : InStep transport fromStr s) {body : HttpBody}
    (hcall : s.calls n = .answered id body) :
    ∃ t, Reaches transport fromStr s t ∧ (t.calls n).Responded id := by
  have hreceive : step transport fromStr s (.receive n) =
      some (s.setCall n (.returned id (Jcode.receive (body.parse fromStr)))) := by
    simp [step, hcall]
  have hserves : (McpMove.receive n).Serves := trivial
  obtain ⟨hanswers, hsingle⟩ := h.body n id body hcall
  refine ⟨_, .head hserves hreceive .refl, ?_⟩
  rw [calls_setCall, if_pos rfl]
  exact responded_of (receive_parse hanswers hsingle)

section

variable (hserver : ∀ id, ∃ text, respondsTo fromStr id text = true)

include hserver

/-- The call that has the lock can be answered. -/
lemma InStep.serveTurn (h : InStep transport fromStr s) (hholder : s.holder = some n) :
    ∃ t, Reaches transport fromStr s t ∧ t.holder = none ∧
      (∀ id, (s.calls n).holding = some id → (t.calls n).Responded id) ∧
      ∀ k, k ≠ n → t.calls k = s.calls k := by
  obtain ⟨id, hid⟩ := (h.turn n hholder).holding
  -- it is enough that the call returns what a line says that responds to it
  have hreturned (t : McpConnection) (text : String) (htext : respondsTo fromStr id text = true)
      (hcalls : t.calls = Function.update s.calls n (.returned id (receive (fromStr text)))) :
      (∀ id, (s.calls n).holding = some id → (t.calls n).Responded id) ∧
        ∀ k, k ≠ n → t.calls k = s.calls k := by
    refine ⟨fun id' hid' => ?_, fun k hk => ?_⟩
    · cases hid.symm.trans hid'
      rw [hcalls, Function.update_self]
      exact responded_of (receive_of_respondsTo htext)
    · rw [hcalls, Function.update_of_ne hk]
  obtain ⟨text, htext⟩ := hserver id
  have hturn := h.turn n hholder
  generalize hcall : s.calls n = call at hturn hid hreturned
  generalize hunanswered : s.unanswered = unanswered at hturn
  generalize hstdout : s.stdout = stdout at hturn
  cases hturn with
  | locked id' =>
    cases hid
    obtain ⟨t, ht, hfree, hcalls⟩ : ∃ t, Reaches transport fromStr s t ∧ t.holder = none ∧
        t.calls = Function.update s.calls n (.returned id (receive (fromStr text))) :=
      reaches_write htext (.inl hcall) h.torn hunanswered hstdout
    exact ⟨t, ht, hfree, hreturned t text htext hcalls⟩
  | writing id' =>
    cases hid
    obtain ⟨t, ht, hfree, hcalls⟩ : ∃ t, Reaches transport fromStr s t ∧ t.holder = none ∧
        t.calls = Function.update s.calls n (.returned id (receive (fromStr text))) :=
      reaches_write htext (.inr hcall) h.torn hunanswered hstdout
    exact ⟨t, ht, hfree, hreturned t text htext hcalls⟩
  | written id' =>
    cases hid
    exact ⟨_, reaches_answer htext hcall hunanswered hstdout, rfl, hreturned _ text htext rfl⟩
  | answered id' line hline =>
    cases hid
    exact ⟨_, reaches_read hcall hstdout, rfl, hreturned _ line hline rfl⟩

/-- A call that waits for the lock can be answered, after the one that has it. -/
lemma InStep.serveQueued (h : InStep .stdio fromStr s) (hcall : s.calls n = .queued id) :
    ∃ t, Reaches .stdio fromStr s t ∧ (t.calls n).Responded id := by
  have hfree (u : McpConnection) (hu : InStep .stdio fromStr u) (hcall : u.calls n = .queued id)
      (hholder : u.holder = none) : ∃ t, Reaches .stdio fromStr u t ∧ (t.calls n).Responded id := by
    have hlocked : InStep .stdio fromStr { u.setCall n (.locked id) with holder := some n } :=
      hu.lock rfl hholder
    obtain ⟨t, ht, -, hresponded, -⟩ := hlocked.serveTurn hserver rfl
    have hlock : step .stdio fromStr u (.lock n) =
        some { u.setCall n (.locked id) with holder := some n } := by
      simp [step, hcall, hholder]
    have hserves : (McpMove.lock n).Serves := trivial
    have hholding : ((u.setCall n (.locked id)).calls n).holding = some id := by
      rw [calls_setCall, if_pos rfl]
      rfl
    exact ⟨t, .head hserves hlock ht, hresponded id hholding⟩
  cases hholder : s.holder with
  | none => exact hfree s h hcall hholder
  | some k =>
    obtain ⟨u, hu, hnone, -, hothers⟩ := h.serveTurn hserver hholder
    have hk : n ≠ k := by
      rintro rfl
      obtain ⟨id', hid'⟩ := (h.turn n hholder).holding
      rw [hcall] at hid'
      cases hid'
    obtain ⟨t, ht, hresponded⟩ := hfree u (h.reaches hu) ((hothers n hk).trans hcall) hnone
    exact ⟨t, hu.trans ht, hresponded⟩

lemma InStep.servePosted (h : InStep transport fromStr s) (hcall : s.calls n = .posted id) :
    ∃ t, Reaches transport fromStr s t ∧ (t.calls n).Responded id := by
  obtain ⟨text, htext⟩ := hserver id
  have hrespond : step transport fromStr s (.respond n (.json text)) =
      some (s.setCall n (.answered id (.json text))) := by
    simp [step, hcall, HttpBody.answers, htext]
  have hserves : (McpMove.respond n (.json text)).Serves := trivial
  have hanswered : InStep transport fromStr (s.setCall n (.answered id (.json text))) :=
    h.reaches (.head hserves hrespond .refl)
  obtain ⟨t, ht, hresponded⟩ :=
    hanswered.serveAnswered (calls_setCall.trans (if_pos rfl))
  exact ⟨t, .head hserves hrespond ht, hresponded⟩

lemma InStep.paired (h : InStep transport fromStr s) : Paired transport fromStr s := by
  refine ⟨h.returned, fun n id hid => ?_⟩
  have hturn (hholding : (s.calls n).holding = some id) :
      ∃ t, Reaches transport fromStr s t ∧ (t.calls n).Responded id := by
    obtain ⟨t, ht, -, hresponded, -⟩ := h.serveTurn hserver (h.holder n id hholding)
    exact ⟨t, ht, hresponded id hholding⟩
  cases hcall : s.calls n with
  | idle | returned | dropped =>
    rw [hcall] at hid
    cases hid
  | locked | writing | written =>
    refine hturn ?_
    rw [hcall] at hid ⊢
    exact hid
  | posted id' =>
    rw [hcall] at hid
    cases hid
    exact h.servePosted hserver hcall
  | answered id' body =>
    rw [hcall] at hid
    cases hid
    exact h.serveAnswered hcall
  | queued id' =>
    rw [hcall] at hid
    cases hid
    cases transport with
    | stdio => exact h.serveQueued hserver hcall
    | http =>
      have hpost : step .http fromStr s (.post n) = some (s.setCall n (.posted id)) := by
        simp [step, hcall]
      have hserves : (McpMove.post n).Serves := trivial
      have hposted : InStep .http fromStr (s.setCall n (.posted id)) :=
        h.reaches (.head hserves hpost .refl)
      obtain ⟨t, ht, hresponded⟩ :=
        hposted.servePosted hserver (calls_setCall.trans (if_pos rfl))
      exact ⟨t, .head hserves hpost ht, hresponded⟩

end

/-! ### Whole runs -/

/-- Against a server that can answer, and is undisturbed, all responses go to their requests. -/
theorem paired_of_undisturbed (hserver : ∀ id, ∃ text, respondsTo fromStr id text = true)
    {ms : List McpMove} (hms : Guarded (step transport fromStr) Undisturbed connected ms) :
    Always (step transport fromStr) (Paired transport fromStr) connected ms := by
  have hin : Always (step transport fromStr) (InStep transport fromStr) connected ms :=
    hms.always (fun _ _ _ h hm ht => h.of_step hm ht) inStep_connected
  intro ks ls t hk ht
  exact (hin ks ls t hk ht).paired hserver

/-- The value of a response with an empty result. -/
def emptyResult (id : Nat) : Json :=
  .object [("jsonrpc", .string "2.0"), ("id", .number (some id) (toString id)),
    ("result", .object [])]

def firstResponse : String := "\x7b\"jsonrpc\":\"2.0\",\"id\":1,\"result\":\x7b\x7d\x7d"

def toolsChanged : String :=
  "\x7b\"jsonrpc\":\"2.0\",\"method\":\"notifications/tools/list_changed\"\x7d"

/-- Reads the two texts as what they are, and every other one as a response to its length. -/
def readMessage (text : String) : Option Json :=
  if text = firstResponse then some (emptyResult 1)
  else if text = toolsChanged then
    some (.object [("jsonrpc", .string "2.0"),
      ("method", .string "notifications/tools/list_changed")])
  else some (emptyResult text.length)

lemma respondsTo_emptyResult : (emptyResult id).respondsTo id = true := by
  simp [emptyResult, Json.respondsTo, JsonRpcResponse.fromValue, Json.get, Json.getStr,
    Json.optional, Json.asStr, Json.asU64]

lemma exists_readMessage (id : Nat) : ∃ text, respondsTo readMessage id text = true := by
  have hbrace (text : String) (h : text.toList.head? = some '\x7b') :
      String.ofList (List.replicate id 'x') ≠ text := by
    rintro rfl
    cases id <;> simp [List.replicate_succ] at h
  refine ⟨String.ofList (List.replicate id 'x'), ?_⟩
  have hlength : (String.ofList (List.replicate id 'x')).length = id := by simp
  have hfirst : firstResponse.toList.head? = some '\x7b' := by
    rw [firstResponse, String.toList_ofList]
    rfl
  have hchanged : toolsChanged.toList.head? = some '\x7b' := by
    rw [toolsChanged, String.toList_ofList]
    rfl
  rw [respondsTo, readMessage, if_neg (hbrace _ hfirst), if_neg (hbrace _ hchanged), hlength]
  exact respondsTo_emptyResult

/-- Two calls; the second waits for the lock, and its caller is dropped there. -/
def oneDropped : List McpMove :=
  [.start 0, .start 1, .lock 0, .write 0 false, .write 0 true, .drop 1, .answer 1 firstResponse,
    .read 0]

theorem paired_of_undisturbed_oneDropped :
    (exec (step .stdio readMessage) connected oneDropped).isSome ∧
      Always (step .stdio readMessage) (Paired .stdio readMessage) connected oneDropped := by
  refine ⟨rfl, paired_of_undisturbed exists_readMessage ?_⟩
  refine .cons trivial rfl (.cons trivial rfl (.cons trivial rfl (.cons trivial rfl
    (.cons trivial rfl (.cons ?_ rfl (.cons trivial rfl (.cons trivial rfl trivial)))))))
  exact fun id => ⟨by rintro ⟨⟩, by rintro ⟨⟩⟩

/-- The server says something of its own before it answers. -/
def notified : List McpMove :=
  [.start 0, .lock 0, .write 0 true, .say toolsChanged, .answer 1 firstResponse, .read 0]

theorem not_paired :
    ¬ ∀ ms, (exec (step .stdio readMessage) connected ms).isSome →
      Always (step .stdio readMessage) (Paired .stdio readMessage) connected ms := by
  intro h
  obtain ⟨result, response, hcall, hresponse, hid⟩ :=
    (h notified rfl notified [] _ (by simp) rfl).returned 0 1 _ rfl
  cases hcall
  cases hresponse
  cases hid

end McpConnection

end Jcode
