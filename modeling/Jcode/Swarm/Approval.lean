import Jcode.Swarm.PlanProposals

/-!
# What an approval applies

An approval that is answered `Done` should have put into the plan what was pending when it
arrived. The answer may come from the handler of another request with the same mutation key, or
from its state file, and the coordinator may replace the plan before it is sent.
-/

namespace Jcode

open Schedule

/-! ### Phases of a handler -/

/-- What the handler has read and not refused. -/
def ProposalPhase.proposal? : ProposalPhase → Option SharedContext
  | .merging _ proposal _ | .removing _ proposal => some proposal
  | .finishing _ proposal _ | .persisted _ proposal => proposal
  | _ => none

/-- The response that the handler is about to record or to send. -/
def ProposalPhase.response? : ProposalPhase → Option PersistedSwarmMutationResponse
  | .finishing _ _ response => some response
  | .persisted state _ => state.finalResponse
  | _ => none

def ProposalPhase.state? : ProposalPhase → Option PersistedSwarmMutationState
  | .executing state | .merging state _ _ | .removing state _ | .finishing state _ _
  | .persisted state _ | .notified state => some state
  | _ => none

namespace ProposalSystem

variable {codec : TextCodec (List PlanItem)}
  {requestKey : String → String → List String → String} {s t u : ProposalSystem}
  {m : ProposalMove} {i : Nat} {r : ProposalRequest} {phase : ProposalPhase}
  {swarmId proposer : String} {proposal : SharedContext}

def itemsOf (s : ProposalSystem) (swarmId : String) : List PlanItem :=
  ((s.plans swarmId).getD .new).items

/-- The waiters registered for a key. -/
def queue (s : ProposalSystem) (key : String) : List SwarmMutationWaiter :=
  (s.runtime.waiters key).getD []

/-! ### What a `Done` says -/

/-- The items of the proposal are in the plan of the swarm and it is not pending any more. -/
def Applied (codec : TextCodec (List PlanItem)) (s : ProposalSystem) (swarmId proposer : String)
    (proposal : SharedContext) : Prop :=
  (∃ items, codec.decode proposal.value = some items ∧ items ⊆ s.itemsOf swarmId) ∧
    s.pending swarmId proposer ≠ some proposal

/-- Whenever the move answers an approval with `Done`, what was pending when it arrived has been
applied. -/
def AppliesOnDone (codec : TextCodec (List PlanItem))
    (requestKey : String → String → List String → String) (s : ProposalSystem)
    (m : ProposalMove) : Prop :=
  ∀ t, s.step codec requestKey m = some t → ∀ i id, (i, ServerEvent.done id) ∈
    t.delivered.drop s.delivered.length → ∀ r, t.requests[i]? = some r → r.action = .approve →
      ∀ proposal, r.pending = some proposal → Applied codec t r.swarmId r.proposer proposal

/-! ### The condition -/

/-- The request has had no answer: it has not reached the map of waiters, or is in it. -/
def Unanswered (requestKey : String → String → List String → String) (s : ProposalSystem)
    (i : Nat) (r : ProposalRequest) : Prop :=
  (r.phase = .arrived ∨ r.phase = .loaded) ∨
    ∃ w ∈ s.queue (r.key requestKey), w.clientEventTx = i

/-- The proposal is pending, or was when an approval arrived that has had no answer. -/
def Due (requestKey : String → String → List String → String) (s : ProposalSystem)
    (swarmId proposer : String) (proposal : SharedContext) : Prop :=
  s.pending swarmId proposer = some proposal ∨
    ∃ i r, s.requests[i]? = some r ∧ s.Unanswered requestKey i r ∧ r.action = .approve ∧
      r.swarmId = swarmId ∧ r.proposer = proposer ∧ r.pending = some proposal

/-- The approval of `proposal` is also one of what was pending when `r` arrived, or that one has
been approved already. -/
def Covers (s : ProposalSystem) (proposal : SharedContext) (r : ProposalRequest) : Prop :=
  ∀ pending, r.pending = some pending →
    pending = proposal ∨ (r.swarmId, r.proposer, pending) ∈ s.approved

/-- Two requests that the mutation layer may take for one. -/
def SameTarget (r r' : ProposalRequest) : Prop :=
  r.action.name = r'.action.name ∧ r.swarmId = r'.swarmId ∧ r.proposer = r'.proposer

/-- A `Done` is shared only with approvals of the same proposal, be it from the state file, with
a request that joins the waiters or with the waiters there when the proposal is read. The
coordinator's own plans keep what has been merged while an approval of it is unanswered, and
different requests have different keys. -/
def SharesOwnApproval (codec : TextCodec (List PlanItem))
    (requestKey : String → String → List String → String) (s : ProposalSystem) :
    ProposalMove → Prop
  | .propose reqSessionId items => ∀ swarmId, s.roles.swarmOf reqSessionId = some swarmId →
      s.roles.coordinators swarmId = some reqSessionId →
      ∀ proposer proposal, (swarmId, proposer, proposal) ∈ s.merged →
        s.Due requestKey swarmId proposer proposal →
        ∀ merged, codec.decode proposal.value = some merged → merged ⊆ items
  | .request requestId reqSessionId action proposer => ∀ swarmId,
      requireCoordinatorSwarm s.roles reqSessionId = some swarmId → ∀ r ∈ s.requests,
        let new : ProposalRequest :=
          ⟨requestId, reqSessionId, action, swarmId, proposer, none, .arrived⟩
        r.key requestKey = new.key requestKey → SameTarget r new
  | .loadState i => ∀ r, s.requests[i]? = some r → r.action = .approve →
      ∀ state, (loadState s.dir s.nowMs (r.key requestKey)).1 = some state →
        state.finalResponse = some .done →
        ∀ proposal, r.pending = some proposal → (r.swarmId, r.proposer, proposal) ∈ s.approved
  | .addWaiter i => ∀ r, s.requests[i]? = some r → r.action = .approve →
      ∀ e ∈ s.requests, e.key requestKey = r.key requestKey →
        ∀ proposal, e.phase.proposal? = some proposal → s.Covers proposal r
  | .readProposal i => ∀ e, s.requests[i]? = some e → e.action = .approve →
      ∀ proposal, s.pending e.swarmId e.proposer = some proposal →
        ∀ w ∈ s.queue (e.key requestKey), ∀ r, s.requests[w.clientEventTx]? = some r →
          r.action = .approve → s.Covers proposal r
  | _ => True

/-! ### Proposals -/

/-- Proposals are numbered as they are stored. What has been merged can be parsed, and what has
been approved has been merged and removed. -/
structure Ledger (codec : TextCodec (List PlanItem)) (s : ProposalSystem) : Prop where
  stored : ∀ swarmId proposer proposal, s.pending swarmId proposer = some proposal →
    proposal.createdAt < s.created ∧ ∃ items, codec.decode proposal.value = some items
  merged : ∀ swarmId proposer proposal, (swarmId, proposer, proposal) ∈ s.merged →
    proposal.createdAt < s.created ∧ ∃ items, codec.decode proposal.value = some items
  approved : ∀ x ∈ s.approved, x ∈ s.merged
  removed : ∀ swarmId proposer proposal, (swarmId, proposer, proposal) ∈ s.approved →
    s.pending swarmId proposer ≠ some proposal

lemma Ledger.congr (h : Ledger codec s) (hcontext : t.context = s.context)
    (hcreated : t.created = s.created) (hmerged : t.merged = s.merged)
    (happroved : t.approved = s.approved) : Ledger codec t := by
  have hpending : t.pending = s.pending := pending_congr hcontext
  constructor
  · simpa only [hpending, hcreated] using h.stored
  · simpa only [hmerged, hcreated] using h.merged
  · simpa only [hmerged, happroved] using h.approved
  · simpa only [happroved, hpending] using h.removed

lemma Ledger.store (hcodec : codec.LosslessOn fun _ => True) (h : Ledger codec s)
    (items : List PlanItem) : Ledger codec (s.store swarmId proposer (codec.encode items)) := by
  have hlt {n : Nat} (hn : n < s.created) : n < s.created + 1 := Nat.lt_succ_of_lt hn
  refine ⟨fun swarmId' proposer' proposal hfound => ?_, fun swarmId' proposer' proposal hmem => ?_,
    h.approved, fun swarmId' proposer' proposal hmem hfound => ?_⟩
  · rw [pending_store] at hfound
    split_ifs at hfound
    · cases hfound
      exact ⟨Nat.lt_succ_self _, items, hcodec items trivial⟩
    · obtain ⟨hold, hdecode⟩ := h.stored _ _ _ hfound
      exact ⟨hlt hold, hdecode⟩
  · obtain ⟨hold, hdecode⟩ := h.merged _ _ _ hmem
    exact ⟨hlt hold, hdecode⟩
  · rw [pending_store] at hfound
    split_ifs at hfound
    · cases hfound
      exact absurd (h.merged _ _ _ (h.approved _ hmem)).1 (lt_irrefl _)
    · exact h.removed _ _ _ hmem hfound

/-- The handler merges what it has read. -/
lemma Ledger.merge (h : Ledger codec s) (hold : proposal.createdAt < s.created)
    (hdecode : ∃ items, codec.decode proposal.value = some items)
    (hcontext : t.context = s.context) (hcreated : t.created = s.created)
    (hmerged : t.merged = (swarmId, proposer, proposal) :: s.merged)
    (happroved : t.approved = s.approved) : Ledger codec t := by
  have hpending : t.pending = s.pending := pending_congr hcontext
  refine ⟨?_, fun swarmId' proposer' proposal' hmem => ?_, fun x hx => ?_, ?_⟩
  · simpa only [hpending, hcreated] using h.stored
  · rw [hmerged, List.mem_cons] at hmem
    rcases hmem with heq | hmem
    · cases heq
      exact ⟨hcreated ▸ hold, hdecode⟩
    · simpa only [hcreated] using h.merged _ _ _ hmem
  · rw [hmerged]
    exact List.mem_cons_of_mem _ (h.approved x (happroved ▸ hx))
  · simpa only [happroved, hpending] using h.removed

/-- The handler removes what is pending, having merged what it has read. -/
lemma Ledger.remove (h : Ledger codec s)
    (hpending : t.pending = (s.setPending swarmId proposer none).pending)
    (hcreated : t.created = s.created) (hmerged : t.merged = s.merged)
    (happroved : ∀ x ∈ t.approved, x ∈ s.approved ∨
      x = (swarmId, proposer, proposal) ∧ x ∈ s.merged) : Ledger codec t := by
  have hkept (swarmId' proposer' : String) (proposal' : SharedContext)
      (hfound : t.pending swarmId' proposer' = some proposal') :
      ¬ (swarmId' = swarmId ∧ proposer' = proposer) ∧
        s.pending swarmId' proposer' = some proposal' := by
    rw [hpending, pending_setPending] at hfound
    split_ifs at hfound with hslot
    exact ⟨hslot, hfound⟩
  refine ⟨fun swarmId' proposer' proposal' hfound => ?_, ?_, fun x hx => ?_,
    fun swarmId' proposer' proposal' hmem hfound => ?_⟩
  · rw [hcreated]
    exact h.stored _ _ _ (hkept _ _ _ hfound).2
  · simpa only [hmerged, hcreated] using h.merged
  · rw [hmerged]
    exact (happroved x hx).elim (h.approved x) And.right
  · obtain ⟨hslot, hfound⟩ := hkept _ _ _ hfound
    rcases happroved _ hmem with hold | ⟨heq, -⟩
    · exact h.removed _ _ _ hold hfound
    · cases heq
      exact hslot ⟨rfl, rfl⟩

/-! ### Handlers -/

/-- How far the handler of a request has come. -/
structure Proceeds (codec : TextCodec (List PlanItem))
    (requestKey : String → String → List String → String) (s : ProposalSystem)
    (r : ProposalRequest) : Prop where
  keyed : ∀ state, r.phase.state? = some state → state.key = r.key requestKey
  merging : ∀ state proposal items, r.phase = .merging state proposal items →
    proposal.createdAt < s.created ∧ codec.decode proposal.value = some items
  removing : ∀ state proposal, r.phase = .removing state proposal → r.action = .approve →
    (r.swarmId, r.proposer, proposal) ∈ s.merged
  answering : r.phase.response? = some .done → r.action = .approve →
    ∃ proposal, r.phase.proposal? = some proposal ∧
      (r.swarmId, r.proposer, proposal) ∈ s.approved

lemma Proceeds.mono (h : Proceeds codec requestKey s r) (hcreated : s.created ≤ t.created)
    (hmerged : ∀ x ∈ s.merged, x ∈ t.merged) (happroved : ∀ x ∈ s.approved, x ∈ t.approved) :
    Proceeds codec requestKey t r where
  keyed := h.keyed
  merging state proposal items hphase :=
    ⟨(h.merging state proposal items hphase).1.trans_le hcreated,
      (h.merging state proposal items hphase).2⟩
  removing state proposal hphase haction := hmerged _ (h.removing state proposal hphase haction)
  answering hresponse haction :=
    let ⟨proposal, hproposal, hmem⟩ := h.answering hresponse haction
    ⟨proposal, hproposal, happroved _ hmem⟩

/-- A phase in which nothing has been read. -/
lemma Proceeds.of_quiet (hstate : ∀ state, phase.state? = some state → state.key = r.key requestKey)
    (hproposal : phase.proposal? = none) (hresponse : phase.response? ≠ some .done) :
    Proceeds codec requestKey t { r with phase := phase } := by
  refine ⟨hstate, ?_, ?_, fun h _ => absurd h hresponse⟩
  · rintro state proposal items rfl
    cases hproposal
  · rintro state proposal rfl
    cases hproposal

/-- What comes of looking for the proposal. -/
lemma readPhase_cases (codec : TextCodec (List PlanItem)) (s : ProposalSystem)
    (r : ProposalRequest) (state : PersistedSwarmMutationState) :
    (∃ message, s.readPhase codec r state = .finishing state none (.error message none)) ∨
      ∃ proposal, s.pending r.swarmId r.proposer = some proposal ∧
        (r.action ≠ .approve ∧ s.readPhase codec r state = .removing state proposal ∨
          r.action = .approve ∧ ((∃ items, codec.decode proposal.value = some items ∧
              s.readPhase codec r state = .merging state proposal items) ∨
            codec.decode proposal.value = none)) := by
  unfold readPhase
  cases hfound : s.pending r.swarmId r.proposer with
  | none => exact .inl ⟨_, rfl⟩
  | some proposal =>
    refine .inr ⟨proposal, rfl, ?_⟩
    cases r.action with
    | reject reason => exact .inl ⟨by simp, rfl⟩
    | approve =>
      refine .inr ⟨rfl, ?_⟩
      cases hdecode : codec.decode proposal.value with
      | none => exact .inr rfl
      | some items => exact .inl ⟨items, rfl, by simp only [hdecode]⟩

lemma readPhase_ne (codec : TextCodec (List PlanItem)) (s : ProposalSystem) (r : ProposalRequest)
    (state : PersistedSwarmMutationState) :
    s.readPhase codec r state ≠ .arrived ∧ s.readPhase codec r state ≠ .loaded := by
  unfold readPhase
  constructor <;> split <;> try split <;> try split
  all_goals simp

/-- What goes on to be applied was pending. -/
lemma pending_of_readPhase (codec : TextCodec (List PlanItem)) (s : ProposalSystem)
    (r : ProposalRequest) (state : PersistedSwarmMutationState)
    (h : (s.readPhase codec r state).proposal? = some proposal) :
    s.pending r.swarmId r.proposer = some proposal := by
  unfold readPhase at h
  cases hfound : s.pending r.swarmId r.proposer with
  | none =>
    rw [hfound] at h
    cases h
  | some pending =>
    rw [hfound] at h
    revert h
    cases r.action with
    | reject reason => exact id
    | approve =>
      cases hdecode : codec.decode pending.value <;> simp [hdecode, ProposalPhase.proposal?]

lemma Proceeds.read {state : PersistedSwarmMutationState} (hledger : Ledger codec s)
    (hkey : state.key = r.key requestKey) :
    Proceeds codec requestKey s { r with phase := s.readPhase codec r state } := by
  have hstate {phase : ProposalPhase} (hphase : phase.state? = some state)
      (state' : PersistedSwarmMutationState) (h : phase.state? = some state') :
      state'.key = r.key requestKey := by
    rw [hphase] at h
    cases h
    exact hkey
  obtain ⟨message, hphase⟩ | ⟨proposal, hfound, ⟨haction, hphase⟩ | ⟨-, hread⟩⟩ :=
    s.readPhase_cases codec r state
  · rw [hphase]
    exact .of_quiet (hstate rfl) rfl (by simp [ProposalPhase.response?])
  · rw [hphase]
    exact ⟨hstate rfl, by simp, fun _ _ _ h => absurd h haction, by rintro ⟨⟩⟩
  · obtain ⟨hold, items', hdecode'⟩ := hledger.stored _ _ _ hfound
    obtain ⟨items, hdecode, hphase⟩ | hdecode := hread
    · rw [hphase]
      refine ⟨hstate rfl, fun state' proposal' items' h => ?_, by simp, by rintro ⟨⟩⟩
      cases h
      exact ⟨hold, hdecode⟩
    · cases hdecode.symm.trans hdecode'

/-! ### The invariant -/

structure Approvals (codec : TextCodec (List PlanItem))
    (requestKey : String → String → List String → String) (s : ProposalSystem) : Prop where
  ledger : Ledger codec s
  proceeds : ∀ r ∈ s.requests, Proceeds codec requestKey s r
  apart : ∀ r ∈ s.requests, ∀ r' ∈ s.requests, r.key requestKey = r'.key requestKey →
    SameTarget r r'
  registered : ∀ key, ∀ w ∈ s.queue key, ∃ r, s.requests[w.clientEventTx]? = some r ∧
    r.key requestKey = key
  shared : ∀ e ∈ s.requests, e.action = .approve → ∀ proposal, e.phase.proposal? = some proposal →
    ∀ w ∈ s.queue (e.key requestKey), ∀ r, s.requests[w.clientEventTx]? = some r →
      r.action = .approve → s.Covers proposal r
  kept : ∀ swarmId proposer proposal, (swarmId, proposer, proposal) ∈ s.merged →
    s.Due requestKey swarmId proposer proposal →
      ∀ items, codec.decode proposal.value = some items → items ⊆ s.itemsOf swarmId

/-- What has been approved and is still due has been applied. -/
lemma Approvals.applied (h : Approvals codec requestKey s)
    (happroved : (swarmId, proposer, proposal) ∈ s.approved)
    (hdue : s.Due requestKey swarmId proposer proposal) :
    Applied codec s swarmId proposer proposal := by
  have hmerged := h.ledger.approved _ happroved
  obtain ⟨-, items, hdecode⟩ := h.ledger.merged _ _ _ hmerged
  exact ⟨⟨items, hdecode, h.kept _ _ _ hmerged hdue items hdecode⟩,
    h.ledger.removed _ _ _ happroved⟩

/-! ### A move for one request -/

/-- What the moves for request `i` have in common. -/
structure Acts (requestKey : String → String → List String → String) (s t : ProposalSystem)
    (i : Nat) (r : ProposalRequest) (phase : ProposalPhase) : Prop where
  request : s.requests[i]? = some r
  requests : t.requests = s.requests.set i { r with phase := phase }
  pending : ∀ swarmId proposer proposal, t.pending swarmId proposer = some proposal →
    s.pending swarmId proposer = some proposal
  approved : ∀ x ∈ s.approved, x ∈ t.approved
  arrival : phase = .arrived ∨ phase = .loaded → r.phase = .arrived ∨ r.phase = .loaded
  queue : ∀ key, ∀ w ∈ t.queue key, w ∈ s.queue key ∨
    key = r.key requestKey ∧ w.clientEventTx = i ∧ r.phase = .loaded ∧ phase.proposal? = none

lemma Acts.getElem? (h : Acts requestKey s t i r phase) {j : Nat} {r' : ProposalRequest}
    (hr' : t.requests[j]? = some r') :
    ∃ r₀, s.requests[j]? = some r₀ ∧ r' = { r₀ with phase := r'.phase } ∧
      (r' = r₀ ∨ j = i ∧ r₀ = r ∧ r'.phase = phase) := by
  rw [h.requests] at hr'
  by_cases hj : j = i
  · subst hj
    rw [List.getElem?_set_self (List.getElem?_eq_some_iff.mp h.request).1] at hr'
    cases hr'
    exact ⟨r, h.request, rfl, .inr ⟨rfl, rfl, rfl⟩⟩
  · rw [List.getElem?_set_ne (Ne.symm hj)] at hr'
    exact ⟨r', hr', rfl, .inl rfl⟩

lemma Acts.mem (h : Acts requestKey s t i r phase) {r' : ProposalRequest}
    (hr' : r' ∈ t.requests) :
    ∃ r₀ ∈ s.requests, r' = { r₀ with phase := r'.phase } ∧
      (r' = r₀ ∨ r₀ = r ∧ r'.phase = phase) := by
  obtain ⟨j, hj⟩ := List.mem_iff_getElem?.mp hr'
  obtain ⟨r₀, hr₀, heq, hcases⟩ := h.getElem? hj
  exact ⟨r₀, List.mem_of_getElem? hr₀, heq, hcases.imp_right And.right⟩

lemma Acts.unanswered (h : Acts requestKey s t i r phase) {j : Nat} {r' r₀ : ProposalRequest}
    (hr₀ : s.requests[j]? = some r₀) (heq : r' = { r₀ with phase := r'.phase })
    (hcases : r' = r₀ ∨ j = i ∧ r₀ = r ∧ r'.phase = phase)
    (hopen : t.Unanswered requestKey j r') : s.Unanswered requestKey j r₀ := by
  have hkey : r'.key requestKey = r₀.key requestKey := by
    rw [heq]
    rfl
  rcases hopen with hearly | ⟨w, hw, hj⟩
  · rcases hcases with rfl | ⟨rfl, rfl, hphase⟩
    · exact .inl hearly
    · exact .inl (h.arrival (hphase ▸ hearly))
  · rcases h.queue _ w hw with hw | ⟨-, hi, hloaded, -⟩
    · exact .inr ⟨w, hkey ▸ hw, hj⟩
    · obtain rfl := hj.symm.trans hi
      cases hr₀.symm.trans h.request
      exact .inl (.inr hloaded)

lemma Acts.due (h : Acts requestKey s t i r phase)
    (hdue : t.Due requestKey swarmId proposer proposal) :
    s.Due requestKey swarmId proposer proposal := by
  rcases hdue with hpending | ⟨j, r', hr', hopen, haction, hswarm, hproposer, hwas⟩
  · exact .inl (h.pending _ _ _ hpending)
  · obtain ⟨r₀, hr₀, heq, hcases⟩ := h.getElem? hr'
    refine .inr ⟨j, r₀, hr₀, h.unanswered hr₀ heq hcases hopen, ?_⟩
    rw [heq] at haction hswarm hproposer hwas
    exact ⟨haction, hswarm, hproposer, hwas⟩

lemma Covers.mono {r' : ProposalRequest} (h : s.Covers proposal r)
    (happroved : ∀ x ∈ s.approved, x ∈ t.approved) (hr' : r' = { r with phase := r'.phase }) :
    t.Covers proposal r' := by
  rw [hr']
  exact fun pending hpending => (h pending hpending).imp_right (happroved _)

/-- The invariant is kept by a move for one request if its handler goes on as it should, and
shares its answer only with approvals of what it has read. -/
lemma Approvals.act (h : Approvals codec requestKey s) (hact : Acts requestKey s t i r phase)
    (hledger : Ledger codec t) (hcreated : s.created ≤ t.created)
    (hmerged : ∀ x ∈ s.merged, x ∈ t.merged)
    (hproceeds : Proceeds codec requestKey t { r with phase := phase })
    (hjoin : r.phase = .loaded → r.action = .approve → ∀ e ∈ s.requests,
      e.key requestKey = r.key requestKey → ∀ proposal, e.phase.proposal? = some proposal →
        s.Covers proposal r)
    (hread : ∀ proposal, phase.proposal? = some proposal → r.phase.proposal? = some proposal ∨
      (r.action = .approve → ∀ w ∈ s.queue (r.key requestKey), ∀ r',
        s.requests[w.clientEventTx]? = some r' → r'.action = .approve → s.Covers proposal r'))
    (hkept : ∀ swarmId proposer proposal, (swarmId, proposer, proposal) ∈ t.merged →
      (swarmId, proposer, proposal) ∈ s.merged ∧ s.itemsOf swarmId ⊆ t.itemsOf swarmId ∨
        ∀ items, codec.decode proposal.value = some items → items ⊆ t.itemsOf swarmId) :
    Approvals codec requestKey t where
  ledger := hledger
  proceeds r' hr' := by
    obtain ⟨r₀, hr₀, heq, rfl | ⟨rfl, hphase⟩⟩ := hact.mem hr'
    · exact (h.proceeds r' hr₀).mono hcreated hmerged hact.approved
    · rw [heq, hphase]
      exact hproceeds
  apart r₁ hr₁ r₂ hr₂ := by
    obtain ⟨r₁', hr₁', heq₁, -⟩ := hact.mem hr₁
    obtain ⟨r₂', hr₂', heq₂, -⟩ := hact.mem hr₂
    rw [heq₁, heq₂]
    exact h.apart r₁' hr₁' r₂' hr₂'
  registered key w hw := by
    have hexists : ∃ r', s.requests[w.clientEventTx]? = some r' ∧ r'.key requestKey = key := by
      rcases hact.queue key w hw with hw | ⟨rfl, rfl, -, -⟩
      · exact h.registered key w hw
      · exact ⟨r, hact.request, rfl⟩
    obtain ⟨r', hr', rfl⟩ := hexists
    by_cases hi : w.clientEventTx = i
    · rw [hi] at hr' ⊢
      cases hr'.symm.trans hact.request
      exact ⟨{ r with phase := phase }, by
        rw [hact.requests, List.getElem?_set_self (List.getElem?_eq_some_iff.mp hr').1], rfl⟩
    · exact ⟨r', by rw [hact.requests, List.getElem?_set_ne (Ne.symm hi), hr'], rfl⟩
  shared e he haction proposal hproposal w hw r' hr' haction' := by
    obtain ⟨e₀, he₀, heqe, hcasese⟩ := hact.mem he
    obtain ⟨r₀, hr₀, heqr, -⟩ := hact.getElem? hr'
    have hkey : e.key requestKey = e₀.key requestKey := by rw [heqe]; rfl
    have hactione : e₀.action = .approve := by rw [heqe] at haction; exact haction
    have hactionr : r₀.action = .approve := by rw [heqr] at haction'; exact haction'
    refine Covers.mono (r := r₀) ?_ hact.approved heqr
    rw [hkey] at hw
    have hbefore : e₀.phase.proposal? = some proposal ∨
        e₀ = r ∧ phase.proposal? = some proposal := by
      rcases hcasese with rfl | ⟨rfl, hphase⟩
      · exact .inl hproposal
      · exact .inr ⟨rfl, hphase ▸ hproposal⟩
    rcases hact.queue _ w hw with hw | ⟨hkeyr, rfl, hloaded, hnone⟩
    · rcases hbefore with hbefore | ⟨rfl, hnew⟩
      · exact h.shared e₀ he₀ hactione proposal hbefore w hw r₀ hr₀ hactionr
      · rcases hread proposal hnew with hbefore | hguard
        · exact h.shared e₀ he₀ hactione proposal hbefore w hw r₀ hr₀ hactionr
        · exact hguard hactione w hw r₀ hr₀ hactionr
    · cases hr₀.symm.trans hact.request
      rcases hbefore with hbefore | ⟨-, hnew⟩
      · exact hjoin hloaded hactionr e₀ he₀ hkeyr proposal hbefore
      · cases hnone.symm.trans hnew
  kept swarmId proposer proposal hmem hdue items hdecode := by
    rcases hkept swarmId proposer proposal hmem with ⟨hmem, hsub⟩ | hall
    · exact List.Subset.trans (h.kept _ _ _ hmem (hact.due hdue) items hdecode) hsub
    · exact hall items hdecode

/-- A move that only touches state files, the maps of the runtime and channels. -/
lemma Approvals.carry (h : Approvals codec requestKey s) (hr : s.requests[i]? = some r)
    {dir : MutationStateDir} {runtime : SwarmMutationRuntime} {delivered : List (Nat × ServerEvent)}
    (ht : t = { s with
      dir := dir
      runtime := runtime
      delivered := delivered }.setPhase i r phase)
    (harrival : phase = .arrived ∨ phase = .loaded → r.phase = .arrived ∨ r.phase = .loaded)
    (hqueue : ∀ key, ∀ w ∈ (runtime.waiters key).getD [], w ∈ s.queue key ∨
      key = r.key requestKey ∧ w.clientEventTx = i ∧ r.phase = .loaded ∧ phase.proposal? = none)
    (hproceeds : Proceeds codec requestKey s { r with phase := phase })
    (hjoin : r.phase = .loaded → r.action = .approve → ∀ e ∈ s.requests,
      e.key requestKey = r.key requestKey → ∀ proposal, e.phase.proposal? = some proposal →
        s.Covers proposal r)
    (hread : ∀ proposal, phase.proposal? = some proposal → r.phase.proposal? = some proposal ∨
      (r.action = .approve → ∀ w ∈ s.queue (r.key requestKey), ∀ r',
        s.requests[w.clientEventTx]? = some r' → r'.action = .approve → s.Covers proposal r')) :
    Approvals codec requestKey t := by
  subst ht
  refine h.act ⟨hr, rfl, fun _ _ _ hfound => hfound, fun _ hx => hx, harrival, hqueue⟩
    (h.ledger.congr rfl rfl rfl rfl) le_rfl (fun _ hx => hx)
    (hproceeds.mono le_rfl (fun _ hx => hx) fun _ hx => hx) hjoin hread
    fun _ _ _ hmem => .inl ⟨hmem, fun _ hitem => hitem⟩

lemma Approvals.update (h : Approvals codec requestKey s) {reqSessionId : String}
    {items : List PlanItem} (hkeep : ∀ proposer proposal, (swarmId, proposer, proposal) ∈ s.merged →
      s.Due requestKey swarmId proposer proposal →
        ∀ merged, codec.decode proposal.value = some merged → merged ⊆ items) :
    Approvals codec requestKey (s.modifyPlan swarmId (·.update reqSessionId items)) := by
  refine ⟨h.ledger.congr rfl rfl rfl rfl,
    fun r hr => (h.proceeds r hr).mono le_rfl (fun _ hx => hx) fun _ hx => hx, h.apart,
    h.registered, h.shared, fun swarmId' proposer proposal hmem hdue merged hdecode => ?_⟩
  by_cases hswarm : swarmId' = swarmId
  · subst hswarm
    simpa [itemsOf, modifyPlan, VersionedPlan.update] using
      hkeep proposer proposal hmem hdue merged hdecode
  · simpa [itemsOf, modifyPlan, hswarm] using h.kept swarmId' proposer proposal hmem hdue merged
      hdecode

lemma Approvals.store (hcodec : codec.LosslessOn fun _ => True) (h : Approvals codec requestKey s)
    (items : List PlanItem) :
    Approvals codec requestKey (s.store swarmId proposer (codec.encode items)) := by
  refine ⟨h.ledger.store hcodec items, fun r hr => (h.proceeds r hr).mono (Nat.le_succ _)
    (fun _ hx => hx) fun _ hx => hx, h.apart, h.registered, h.shared,
    fun swarmId' proposer' proposal hmem hdue merged hdecode => ?_⟩
  refine h.kept swarmId' proposer' proposal hmem ?_ merged hdecode
  rcases hdue with hpending | hopen
  · rw [pending_store] at hpending
    split_ifs at hpending
    · cases hpending
      exact absurd (h.ledger.merged _ _ _ hmem).1 (lt_irrefl _)
    · exact .inl hpending
  · exact .inr hopen

lemma Approvals.arrive (h : Approvals codec requestKey s) (hphase : r.phase = .arrived)
    (hpending : r.pending = s.pending r.swarmId r.proposer)
    (hapart : ∀ r' ∈ s.requests, r'.key requestKey = r.key requestKey → SameTarget r' r) :
    Approvals codec requestKey { s with requests := s.requests ++ [r] } := by
  have hold {w : SwarmMutationWaiter} {key : String} (hw : w ∈ s.queue key) :
      ∃ r', s.requests[w.clientEventTx]? = some r' ∧ r'.key requestKey = key ∧
        (s.requests ++ [r])[w.clientEventTx]? = some r' := by
    obtain ⟨r', hr', hkey⟩ := h.registered key w hw
    refine ⟨r', hr', hkey, ?_⟩
    rw [List.getElem?_append_left (List.getElem?_eq_some_iff.mp hr').1, hr']
  refine ⟨h.ledger.congr rfl rfl rfl rfl, fun r' hr' => ?_, fun r₁ hr₁ r₂ hr₂ hkey => ?_,
    fun key w hw => ?_, fun e he haction proposal hproposal w hw r' hr' haction' => ?_,
    fun swarmId proposer proposal hmem hdue items hdecode => ?_⟩
  · rcases List.mem_append.mp hr' with hr' | hr'
    · exact (h.proceeds r' hr').mono le_rfl (fun _ hx => hx) fun _ hx => hx
    · cases List.mem_singleton.mp hr'
      constructor <;> simp [hphase, ProposalPhase.state?, ProposalPhase.response?]
  · have hself : SameTarget r r := ⟨rfl, rfl, rfl⟩
    rcases List.mem_append.mp hr₁ with hr₁ | hr₁ <;> rcases List.mem_append.mp hr₂ with hr₂ | hr₂
    · exact h.apart r₁ hr₁ r₂ hr₂ hkey
    · cases List.mem_singleton.mp hr₂
      exact hapart r₁ hr₁ hkey
    · cases List.mem_singleton.mp hr₁
      obtain ⟨hname, hswarm, hproposer⟩ := hapart r₂ hr₂ hkey.symm
      exact ⟨hname.symm, hswarm.symm, hproposer.symm⟩
    · cases List.mem_singleton.mp hr₁
      cases List.mem_singleton.mp hr₂
      exact hself
  · obtain ⟨r', -, hkey, hr'⟩ := hold hw
    exact ⟨r', hr', hkey⟩
  · obtain ⟨r₀, hr₀, -, hr₀'⟩ := hold hw
    cases hr'.symm.trans hr₀'
    rcases List.mem_append.mp he with he | he
    · exact h.shared e he haction proposal hproposal w hw r' hr₀ haction'
    · cases List.mem_singleton.mp he
      rw [hphase] at hproposal
      cases hproposal
  · refine h.kept swarmId proposer proposal hmem ?_ items hdecode
    rcases hdue with hpending | ⟨j, r', hr', hopen, haction, rfl, rfl, hwas⟩
    · exact .inl hpending
    · by_cases hj : j < s.requests.length
      · exact .inr ⟨j, r', by rw [← hr', List.getElem?_append_left hj], hopen, haction, rfl, rfl,
          hwas⟩
      · rw [List.getElem?_append_right (Nat.not_lt.mp hj)] at hr'
        cases List.mem_singleton.mp (List.mem_of_getElem? hr')
        exact .inl (hpending ▸ hwas)

/-! ### The moves -/

lemma itemsOf_subset_merge (s : ProposalSystem) (swarmId' swarmId reqSessionId proposer : String)
    (items : List PlanItem) :
    s.itemsOf swarmId' ⊆
      (s.modifyPlan swarmId (·.merge reqSessionId proposer items)).itemsOf swarmId' := by
  intro item hitem
  by_cases hswarm : swarmId' = swarmId
  · subst hswarm
    simpa [itemsOf, modifyPlan, VersionedPlan.merge] using .inl hitem
  · simpa [itemsOf, modifyPlan, hswarm] using hitem

lemma subset_itemsOf_merge (s : ProposalSystem) (swarmId reqSessionId proposer : String)
    (items : List PlanItem) :
    items ⊆ (s.modifyPlan swarmId (·.merge reqSessionId proposer items)).itemsOf swarmId := by
  intro item hitem
  simp [itemsOf, modifyPlan, VersionedPlan.merge, hitem]

lemma mem_queue_of_takeWaiters {key key' : String} {w : SwarmMutationWaiter}
    (hw : w ∈ ((s.runtime.takeWaiters key').2.waiters key).getD []) : w ∈ s.queue key := by
  by_cases hkey : key = key'
  · simp [SwarmMutationRuntime.takeWaiters, hkey] at hw
  · simp only [SwarmMutationRuntime.takeWaiters, Function.update_of_ne hkey] at hw
    exact hw

/-- The handler merges what it has read, and the plan keeps what it had. -/
lemma Approvals.mergeItems {state : PersistedSwarmMutationState} {items : List PlanItem}
    (h : Approvals codec requestKey s) (hr : s.requests[i]? = some r)
    (hp : r.phase = .merging state proposal items)
    (ht : t = { s.modifyPlan r.swarmId (·.merge r.reqSessionId r.proposer items) with
      merged := (r.swarmId, r.proposer, proposal) :: s.merged }.setPhase i r
        (.removing state proposal)) : Approvals codec requestKey t := by
  have hproceeds := h.proceeds r (List.mem_of_getElem? hr)
  obtain ⟨hold, hdecode⟩ := hproceeds.merging state proposal items hp
  subst ht
  refine h.act ⟨hr, rfl, fun _ _ _ hfound => hfound, fun _ hx => hx, by simp,
    fun _ _ hw => .inl hw⟩ (h.ledger.merge hold ⟨items, hdecode⟩ rfl rfl rfl rfl) le_rfl
    (fun _ hx => List.mem_cons_of_mem _ hx) ⟨fun state' hstate => ?_, by simp, ?_, by rintro ⟨⟩⟩
    (fun hloaded => by cases hp.symm.trans hloaded) (fun proposal' hproposal => .inl ?_) ?_
  · cases hstate
    exact hproceeds.keyed state (by rw [hp]; rfl)
  · intro state' proposal' hphase haction
    cases hphase
    exact List.mem_cons_self
  · rw [hp]
    exact hproposal
  · intro swarmId proposer proposal' hmem
    rcases List.mem_cons.mp hmem with heq | hmem
    · cases heq
      refine .inr fun items' hdecode' => ?_
      cases hdecode.symm.trans hdecode'
      exact s.subset_itemsOf_merge r.swarmId r.reqSessionId r.proposer items
    · exact .inl ⟨hmem, s.itemsOf_subset_merge swarmId r.swarmId r.reqSessionId r.proposer items⟩

/-- The handler removes the pending proposal, whose items it has merged. -/
lemma Approvals.removeProposal {state : PersistedSwarmMutationState}
    (h : Approvals codec requestKey s) (hr : s.requests[i]? = some r)
    (hp : r.phase = .removing state proposal)
    (ht : t = { s.setPending r.swarmId r.proposer none with
      approved := if r.action = ProposalAction.approve then
        (r.swarmId, r.proposer, proposal) :: s.approved else s.approved }.setPhase i r
          (.finishing state (some proposal) .done)) : Approvals codec requestKey t := by
  have hproceeds := h.proceeds r (List.mem_of_getElem? hr)
  have happroved : ∀ x ∈ t.approved, x ∈ s.approved ∨
      x = (r.swarmId, r.proposer, proposal) ∧ x ∈ s.merged := by
    subst ht
    intro x hx
    simp only [setPhase] at hx
    split_ifs at hx with haction
    · rcases List.mem_cons.mp hx with rfl | hx
      · exact .inr ⟨rfl, hproceeds.removing state proposal hp haction⟩
      · exact .inl hx
    · exact .inl hx
  have hpending : t.pending = (s.setPending r.swarmId r.proposer none).pending := by
    subst ht
    rfl
  subst ht
  refine h.act ⟨hr, rfl, fun swarmId proposer proposal' hfound => ?_, fun x hx => ?_, by simp,
    fun _ _ hw => .inl hw⟩ (h.ledger.remove hpending rfl rfl happroved) le_rfl
    (fun _ hx => hx) ⟨fun state' hstate => ?_, by simp, by simp, fun _ haction => ?_⟩
    (fun hloaded => by cases hp.symm.trans hloaded) (fun proposal' hproposal => .inl ?_)
    fun _ _ _ hmem => .inl ⟨hmem, fun _ hitem => hitem⟩
  · rw [hpending, pending_setPending] at hfound
    split_ifs at hfound
    exact hfound
  · simp only [setPhase]
    split_ifs
    · exact List.mem_cons_of_mem _ hx
    · exact hx
  · cases hstate
    exact hproceeds.keyed state (by rw [hp]; rfl)
  · have haction : r.action = .approve := haction
    simp [setPhase, haction, ProposalPhase.proposal?]
  · rw [hp]
    exact hproposal

lemma Approvals.step (hcodec : codec.LosslessOn fun _ => True) (h : Approvals codec requestKey s)
    (hG : SharesOwnApproval codec requestKey s m) (hs : s.step codec requestKey m = some t) :
    Approvals codec requestKey t := by
  cases Rule.of_step hs with
  | tick ms ht =>
    subst ht
    exact ⟨h.ledger.congr rfl rfl rfl rfl, fun r hr => (h.proceeds r hr).mono le_rfl
      (fun _ hx => hx) fun _ hx => hx, h.apart, h.registered, h.shared, h.kept⟩
  | refuse reqSessionId items ht =>
    subst ht
    exact h
  | update reqSessionId swarmId items hswarm hcoordinator ht =>
    subst ht
    exact h.update (hG swarmId hswarm hcoordinator)
  | store reqSessionId swarmId items hswarm ht =>
    subst ht
    exact h.store hcodec items
  | request requestId reqSessionId swarmId action proposer hswarm ht =>
    subst ht
    exact h.arrive rfl rfl (hG swarmId hswarm)
  | replay i r state response hr hp hl hf ht =>
    exact h.carry hr ht (by simp) (fun _ _ hw => .inl hw)
      (.of_quiet (by rintro _ ⟨⟩) rfl (by rintro ⟨⟩))
      (fun hloaded => by cases hp.symm.trans hloaded) (by rintro _ ⟨⟩)
  | load i r hr hp ht =>
    exact h.carry hr ht (fun _ => .inl hp) (fun _ _ hw => .inl hw)
      (.of_quiet (by rintro _ ⟨⟩) rfl (by rintro ⟨⟩))
      (fun hloaded => by cases hp.symm.trans hloaded) (by rintro _ ⟨⟩)
  | addWaiter i r hr hp ht =>
    refine h.carry hr ht (by simp) (fun key w hw => ?_)
      (.of_quiet (by rintro _ ⟨⟩) rfl (by rintro ⟨⟩))
      (fun _ haction => hG r hr haction) (by rintro _ ⟨⟩)
    by_cases hkey : key = r.key requestKey
    · subst hkey
      simp only [SwarmMutationRuntime.addWaiter, Function.update_self, Option.getD_some,
        List.mem_append, List.mem_singleton] at hw
      rcases hw with hw | rfl
      · exact .inl hw
      · exact .inr ⟨rfl, rfl, hp, rfl⟩
    · simp only [SwarmMutationRuntime.addWaiter, Function.update_of_ne hkey] at hw
      exact .inl hw
  | win i r hr hp hk ht | lose i r hr hp hk ht =>
    exact h.carry hr ht (by simp) (fun _ _ hw => .inl hw)
      (.of_quiet (by rintro _ ⟨⟩) rfl (by rintro ⟨⟩))
      (fun hloaded => by cases hp.symm.trans hloaded) (by rintro _ ⟨⟩)
  | ensurePending i r state dir hr hp hd ht =>
    refine h.carry hr ht (by simp) (fun _ _ hw => .inl hw)
      (.of_quiet (fun state' hstate => ?_) rfl (by rintro ⟨⟩))
      (fun hloaded => by cases hp.symm.trans hloaded) (by rintro _ ⟨⟩)
    cases hstate
    have hkey : (ensurePendingState s.dir s.nowMs (r.key requestKey) r.action.name
        r.reqSessionId).1.key = r.key requestKey := ensurePendingState_key
    rwa [hd] at hkey
  | readProposal i r state hr hp ht =>
    have hproceeds := h.proceeds r (List.mem_of_getElem? hr)
    refine h.carry hr ht ?_ (fun _ _ hw => .inl hw)
      (.read h.ledger (hproceeds.keyed state (by rw [hp]; rfl)))
      (fun hloaded => by cases hp.symm.trans hloaded)
      fun proposal hproposal => .inr fun haction => ?_
    · rintro (hphase | hphase)
      · exact absurd hphase (s.readPhase_ne codec r state).1
      · exact absurd hphase (s.readPhase_ne codec r state).2
    · exact hG r hr haction proposal (s.pending_of_readPhase codec r state hproposal)
  | mergeItems i r state proposal items hr hp ht => exact h.mergeItems hr hp ht
  | removeProposal i r state proposal hr hp ht => exact h.removeProposal hr hp ht
  | persistFinal i r state proposal response hr hp ht =>
    have hproceeds := h.proceeds r (List.mem_of_getElem? hr)
    refine h.carry hr ht (by simp) (fun _ _ hw => .inl hw)
      ⟨fun state' hstate => ?_, by simp, by simp, ?_⟩
      (fun hloaded => by cases hp.symm.trans hloaded) fun proposal' hproposal => .inl ?_
    · cases hstate
      exact hproceeds.keyed state (by rw [hp]; rfl)
    · intro hresponse haction
      have hans := hproceeds.answering
      rw [hp] at hans
      exact hans hresponse haction
    · rw [hp]
      exact hproposal
  | takeWaiters i r state proposal response hr hp hf ht =>
    have hproceeds := h.proceeds r (List.mem_of_getElem? hr)
    refine h.carry hr ht (by simp) (fun key w hw => ?_)
      (.of_quiet (fun state' hstate => ?_) rfl (by rintro ⟨⟩))
      (fun hloaded => by cases hp.symm.trans hloaded) (by rintro _ ⟨⟩)
    · exact .inl (mem_queue_of_takeWaiters hw)
    · cases hstate
      exact hproceeds.keyed state (by rw [hp]; rfl)
  | takeNone i r state proposal hr hp hf ht =>
    have hproceeds := h.proceeds r (List.mem_of_getElem? hr)
    refine h.carry hr ht (by simp) (fun _ _ hw => .inl hw)
      (.of_quiet (fun state' hstate => ?_) rfl (by rintro ⟨⟩))
      (fun hloaded => by cases hp.symm.trans hloaded) (by rintro _ ⟨⟩)
    cases hstate
    exact hproceeds.keyed state (by rw [hp]; rfl)
  | clearActive i r state hr hp ht =>
    exact h.carry hr ht (by simp) (fun _ _ hw => .inl hw)
      (.of_quiet (by rintro _ ⟨⟩) rfl (by rintro ⟨⟩))
      (fun hloaded => by cases hp.symm.trans hloaded) (by rintro _ ⟨⟩)

/-! ### Answers -/

lemma eq_done_of_intoServerEvent {response : PersistedSwarmMutationResponse} {id id' : Nat}
    {sessionId : String} (h : response.intoServerEvent id sessionId = .done id') :
    response = .done := by
  cases response <;> first | rfl | cases h

/-- The answers are for the waiters of the key. -/
lemma mem_answers {key sessionId : String} {response : PersistedSwarmMutationResponse} {id : Nat}
    (h : (i, ServerEvent.done id) ∈ answers (s.runtime.takeWaiters key).1 response sessionId) :
    response = .done ∧ ∃ w ∈ s.queue key, w.clientEventTx = i := by
  obtain ⟨x, hx, heq⟩ := List.mem_map.mp h
  obtain ⟨w, hw, rfl⟩ := List.mem_map.mp hx
  cases response <;> simp [PersistedSwarmMutationResponse.intoServerEvent] at heq
  exact ⟨rfl, w, hw, heq.1⟩

lemma Approvals.appliesOnDone (h : Approvals codec requestKey s)
    (hG : SharesOwnApproval codec requestKey s m) : AppliesOnDone codec requestKey s m := by
  intro t hs j id hmem r' hr' haction proposal hpending
  have hquiet (hdelivered : t.delivered = s.delivered) : False := by
    rw [hdelivered, List.drop_length] at hmem
    cases hmem
  cases Rule.of_step hs with
  | replay i r state response hr hp hl hf ht =>
    subst ht
    simp only [setPhase, List.drop_left, List.mem_singleton, Prod.mk.injEq] at hmem
    obtain ⟨rfl, hevent⟩ := hmem
    obtain rfl := eq_done_of_intoServerEvent hevent.symm
    simp only [setPhase, List.getElem?_set_self (List.getElem?_eq_some_iff.mp hr).1,
      Option.some.injEq] at hr'
    subst hr'
    have happroved := hG r hr haction state hl hf proposal hpending
    exact h.applied happroved (.inr ⟨j, r, hr, .inl (.inl hp), haction, rfl, rfl, hpending⟩)
  | takeWaiters i r state read response hr hp hf ht =>
    have hproceeds := h.proceeds r (List.mem_of_getElem? hr)
    have hkey : state.key = r.key requestKey := hproceeds.keyed state (by rw [hp]; rfl)
    have hact : Acts requestKey s t i r (.notified state) := by
      subst ht
      exact ⟨hr, rfl, fun _ _ _ hfound => hfound, fun _ hx => hx, by simp,
        fun _ _ hw => .inl (mem_queue_of_takeWaiters hw)⟩
    obtain ⟨r₀, hr₀, heq, -⟩ := hact.getElem? hr'
    rw [heq] at haction hpending ⊢
    subst ht
    simp only [setPhase, List.drop_left] at hmem
    obtain ⟨rfl, w, hw, rfl⟩ := mem_answers hmem
    -- the waiter's request has the key of the handler, which is an approval of the same proposer
    obtain ⟨r₁, hr₁, hkey₁⟩ := h.registered _ w hw
    cases hr₀.symm.trans hr₁
    obtain ⟨hname, hswarm, hproposer⟩ := h.apart r (List.mem_of_getElem? hr) r₀
      (List.mem_of_getElem? hr₀) (hkey.symm.trans hkey₁.symm)
    have happrove : r.action = .approve := by
      rw [haction] at hname
      cases hr : r.action with
      | approve => rfl
      | reject reason => simp [hr, ProposalAction.name] at hname
    obtain ⟨proposal', hproposal, happroved⟩ := hproceeds.answering (by rw [hp]; exact hf) happrove
    have hcovers := h.shared r (List.mem_of_getElem? hr) happrove proposal' hproposal w
      (hkey ▸ hw) r₀ hr₀ haction proposal hpending
    have happroved' : (r₀.swarmId, r₀.proposer, proposal) ∈ s.approved := by
      rcases hcovers with rfl | hmem
      · rwa [hswarm, hproposer] at happroved
      · exact hmem
    exact h.applied happroved' (.inr ⟨_, r₀, hr₀, .inr ⟨w, hkey₁.symm ▸ hw, rfl⟩, haction, rfl, rfl,
      hpending⟩)
  | tick ms ht | refuse reqSessionId items ht | update reqSessionId swarmId items hswarm hcoord ht
  | store reqSessionId swarmId items hswarm ht
  | request requestId reqSessionId swarmId action proposer hswarm ht
  | load i r hr hp ht | addWaiter i r hr hp ht
  | win i r hr hp hk ht | lose i r hr hp hk ht | ensurePending i r state dir hr hp hd ht
  | readProposal i r state hr hp ht | mergeItems i r state proposal items hr hp ht
  | removeProposal i r state proposal hr hp ht | persistFinal i r state proposal response hr hp ht
  | takeNone i r state proposal hr hp hf ht | clearActive i r state hr hp ht =>
    subst ht
    exact (hquiet rfl).elim

lemma Approvals.start (codec : TextCodec (List PlanItem))
    (requestKey : String → String → List String → String) (roles : SwarmRoles)
    (plans : String → Option VersionedPlan) (dir : MutationStateDir) (nowMs : Nat) :
    Approvals codec requestKey (start roles plans dir nowMs) where
  ledger := by constructor <;> simp [ProposalSystem.start, pending]
  proceeds := by simp [ProposalSystem.start]
  apart := by simp [ProposalSystem.start]
  registered := by simp [ProposalSystem.start, queue, SwarmMutationRuntime.new]
  shared := by simp [ProposalSystem.start]
  kept := by simp [ProposalSystem.start]

end ProposalSystem

open ProposalSystem

/-- Along any run, an approval answered `Done` has applied what was pending when it arrived,
provided that every step meets the condition. -/
theorem handleCommApprovePlan_applies {codec : TextCodec (List PlanItem)}
    {requestKey : String → String → List String → String} {roles : SwarmRoles}
    {plans : String → Option VersionedPlan} {dir : MutationStateDir} {nowMs : Nat}
    {moves : List ProposalMove} (hcodec : codec.LosslessOn fun _ => True)
    (hguard : Guarded (step codec requestKey) (SharesOwnApproval codec requestKey)
      (start roles plans dir nowMs) moves) :
    Guarded (step codec requestKey) (AppliesOnDone codec requestKey)
      (start roles plans dir nowMs) moves := by
  refine guarded_of_steps fun ks m ls t hk ht => ?_
  subst hk
  have hinv : Approvals codec requestKey t :=
    exec_invariant_of_guarded (fun _ _ _ h hG hs => h.step hcodec hG hs) hguard.of_append
      (.start codec requestKey roles plans dir nowMs) ht
  exact hinv.appliesOnDone (hguard.step_mem ht)

/-- In the run of one approval its answer is for what it has read. -/
lemma approvedRun_sharesOwnApproval :
    Guarded (step taskCodec joinedKey) (SharesOwnApproval taskCodec joinedKey)
      (start pairRoles noPlans .empty 0) approvedRun := by
  refine ⟨?_, fun s hs => ?_⟩
  · rintro swarmId hswarm hcoordinator
    cases hswarm
    exact absurd hcoordinator (by decide)
  cases hs
  refine ⟨?_, fun s hs => ?_⟩
  · rintro swarmId hswarm r hr
    cases hr
  cases hs
  refine ⟨?_, fun s hs => ?_⟩
  · rintro r hr - state hstate
    cases hr
    cases hstate
  cases hs
  refine ⟨?_, fun s hs => ?_⟩
  · rintro r hr - e he hkey proposal hproposal
    cases List.mem_singleton.mp he
    cases hproposal
  cases hs
  refine ⟨trivial, fun s hs => ?_⟩
  cases hs
  refine ⟨trivial, fun s hs => ?_⟩
  cases hs
  refine ⟨?_, fun s hs => ?_⟩
  · rintro e he - proposal hproposal w hw r hr - pending hpending
    cases he
    cases hproposal
    cases List.mem_singleton.mp hw
    cases hr
    cases hpending
    exact .inl rfl
  exact guarded_of_forall_mem fun m hm s => by
    simp only [List.mem_cons, List.not_mem_nil, or_false] at hm
    rcases hm with rfl | rfl | rfl | rfl | rfl <;> trivial

theorem handleCommApprovePlan_applies_approvedRun :
    Guarded (step taskCodec joinedKey) (AppliesOnDone taskCodec joinedKey)
      (start pairRoles noPlans .empty 0) approvedRun :=
  handleCommApprovePlan_applies (taskCodec_losslessOn _) approvedRun_sharesOwnApproval

/-- The worker proposes another task, and the second approval comes within half a minute. -/
def reapprovedRun : List ProposalMove :=
  approvedRun ++ [.propose "worker" [queuedTask "t2"], .request 2 "coord" .approve "worker",
    .loadState 1]

/-- The second approval is answered from the state file, and what it was to approve is still
pending. -/
theorem handleCommApprovePlan_replaysDone :
    ¬ Guarded (step taskCodec joinedKey) (AppliesOnDone taskCodec joinedKey)
        (start pairRoles noPlans .empty 0) reapprovedRun := by
  intro h
  have hsplit : Guarded (step taskCodec joinedKey) (AppliesOnDone taskCodec joinedKey)
      (start pairRoles noPlans .empty 0)
      ((approvedRun ++ [.propose "worker" [queuedTask "t2"],
        .request 2 "coord" .approve "worker"]) ++ [.loadState 1]) := h
  have hlast : AppliesOnDone taskCodec joinedKey _ (.loadState 1) := hsplit.step_mem rfl
  exact (hlast _ rfl 1 2 (.head _) _ rfl rfl _ rfl).2 rfl

end Jcode
